import RouteAssets.Watch.Service
import RouteAssets.Proofs.Outcome
import Mathlib.Data.List.Infix

/-!
# One observer at a time

A service is called to start and to stop, in any order, and any start may meet a failure (`Call`).
The observers that it has held are numbered from the first one, and the **chronicle** of some calls
tells what is done with which of them, one deed after another (`chronicle`).

* **One call** (`step_after`): all that a call can do, as a relation between the service before and
  after it and the deeds in between (`Step`). Only the present observer is used.
* **All calls** (`Sound.afterAll`): the present observer is new or observes, and those before it
  are spent: each was given up unused, or could not be started, or has observed and has been stopped
  and awaited (`Sound`).
* **The record** (`deedsAt_afterAll`): what a service keeps of each observer is what the chronicle
  tells of it.
* **Every moment** (`Sound.eq_of_isAlive_moment`): between any two deeds of the chronicle no two observers
  observe.

So a service never lets an observer go that observes, and it can be started again after whatever
has happened (`observers_take_turns`).
-/

namespace RouteAssets.Watch

/-- A call to a service. A start may meet a failure. -/
inductive Call where
  | start (failure : Option StartFailure)
  | stop
  deriving DecidableEq, Repr

/-- A deed, with the number of the observer that it is done with. -/
structure Act where
  observer : Nat
  deed : Deed
  deriving DecidableEq, Repr

/-- What is done with one observer among some acts. -/
def deedsOn (n : Nat) (acts : List Act) : List Deed :=
  (acts.filter (·.observer == n)).map Act.deed

namespace Observer

/-- An observer that a service may hold is new, or it has been scheduled and started. -/
def IsReady (o : Observer) : Prop := o.deeds = [] ∨ o.deeds = [.scheduled, .started]

/-- An observer that is of no further use: it has not been used, it has been scheduled in vain, or
it has observed and has been stopped and awaited. -/
def IsSpent (o : Observer) : Prop :=
  o.deeds = [] ∨ o.deeds = [.scheduled] ∨ o.deeds = [.scheduled, .started, .stopped, .awaited]

/-- An observer is started once at most, and it is not scheduled while it observes. -/
structure IsUsedOnce (o : Observer) : Prop where
  count_started : o.deeds.count .started ≤ 1
  scheduled : ∀ before after, o.deeds = before ++ .scheduled :: after →
    (Observer.mk before).isAlive = false

end Observer

namespace Service

/-- The service after a call. -/
def after (s : Service) : Call → Service
  | .start failure => (s.start failure).1
  | .stop => s.stop.1

/-- The service after some calls. -/
def afterAll (s : Service) (calls : List Call) : Service := calls.foldl after s

/-- The observers that a service has held, the present one last. -/
def observers (s : Service) : List Observer := s.replaced ++ [s.observer]

/-- What has been done with the observer of a number. -/
def deedsAt (s : Service) (n : Nat) : List Deed := (s.observers[n]?.map Observer.deeds).getD []

/-- The number of the present observer. -/
def current (s : Service) : Nat := s.replaced.length

/-- What a call does with the present observer: what is on record of it later, and was not
before. -/
def deedsOf (s : Service) (c : Call) : List Deed :=
  ((s.after c).deedsAt s.current).drop s.observer.deeds.length

/-- Everything that is done with observers by some calls, in order. -/
def chronicle : Service → List Call → List Act
  | _, [] => []
  | s, c :: calls => (s.deedsOf c).map (Act.mk s.current) ++ chronicle (s.after c) calls

/-- A service that has not been called yet. -/
structure IsNew (s : Service) : Prop where
  observer : s.observer = .fresh
  replaced : s.replaced = []

/-- The present observer is ready, and those before it are spent. -/
structure Sound (s : Service) : Prop where
  ready : s.observer.IsReady
  spent : ∀ o ∈ s.replaced, o.IsSpent

/-- A call by which the service comes to a new observer: a stop, or a start that fails. -/
def Renews (s : Service) (c : Call) : Prop :=
  c = .stop ∨ s.isAlive = false ∧ ∃ failure, c = .start (some failure)

/-- What a call does, with the deeds that it consists of. -/
inductive Step (s : Service) : Call → List Deed → Service → Prop where
  | running (failure : Option StartFailure) (h : s.isAlive = true) :
      Step s (.start failure) [] s
  | unscheduled (reason : String) (h : s.isAlive = false) :
      Step s (.start (some (.scheduling reason))) [] (s.replace s.observer)
  | unstarted (reason : String) (h : s.isAlive = false) :
      Step s (.start (some (.starting reason))) [.scheduled]
        (s.replace (s.observer.after .scheduled))
  | started (h : s.isAlive = false) :
      Step s (.start none) [.scheduled, .started]
        { s with observer := (s.observer.after .scheduled).after .started }
  | stopped (h : s.isAlive = true) :
      Step s .stop [.stopped, .awaited]
        (s.replace ((s.observer.after .stopped).after .awaited))
  | idle (h : s.isAlive = false) : Step s .stop [] (s.replace s.observer)

variable {s s' : Service} {c : Call} {calls : List Call} {deeds : List Deed} {o : Observer}
  {acts : List Act} {m n : Nat}

/-! ## One call -/

/-- What has been done with the present observer. -/
lemma deedsAt_current (s : Service) : s.deedsAt s.current = s.observer.deeds := by
  simp [deedsAt, observers, current]

/-- With an observer that is yet to come nothing has been done. -/
lemma deedsAt_of_lt (h : s.current < n) : s.deedsAt n = [] := by
  have hnone : s.observers[n]? = none := by
    rw [List.getElem?_eq_none_iff, observers, List.length_append, List.length_singleton]
    exact h
  rw [deedsAt, hnone]
  rfl

/-- What has been done with an observer that has been replaced. -/
lemma exists_deedsAt_of_lt (h : n < s.current) : ∃ o ∈ s.replaced, s.deedsAt n = o.deeds := by
  refine ⟨s.replaced[n], List.getElem_mem h, ?_⟩
  rw [deedsAt, observers, List.getElem?_append_left h, List.getElem?_eq_getElem h]
  rfl

/-- A replaced observer stays on record, with a new one behind it. -/
lemma deedsAt_replace (s : Service) (used : Observer) (n : Nat) :
    (s.replace used).deedsAt n = if n = s.current then used.deeds else s.deedsAt n := by
  rcases Nat.lt_trichotomy n s.current with hn | rfl | hn
  · rw [if_neg hn.ne]
    simp [deedsAt, observers, replace, List.getElem?_append_left hn]
  · simp [deedsAt, observers, replace, current]
  · rw [if_neg hn.ne', deedsAt_of_lt hn]
    obtain ⟨k, rfl⟩ := Nat.exists_eq_add_of_lt hn
    rcases k with _ | k <;> simp [deedsAt, observers, replace, current, Observer.fresh]

/-- A present observer with which more has been done. -/
lemma deedsAt_withObserver (s : Service) (o : Observer) (n : Nat) :
    ({ s with observer := o } : Service).deedsAt n =
      if n = s.current then o.deeds else s.deedsAt n := by
  rcases Nat.lt_trichotomy n s.current with hn | rfl | hn
  · rw [if_neg hn.ne]
    simp [deedsAt, observers, List.getElem?_append_left hn]
  · rw [if_pos rfl]
    exact deedsAt_current _
  · rw [if_neg hn.ne', deedsAt_of_lt hn]
    exact deedsAt_of_lt (s := { s with observer := o }) hn

/-- The deeds of a call are done with the present observer, and nothing is done with the others. -/
lemma Step.deedsAt_eq (h : Step s c deeds s') (n : Nat) :
    s'.deedsAt n = s.deedsAt n ++ if n = s.current then deeds else [] := by
  have hsplit : (if n = s.current then s.observer.deeds ++ deeds else s.deedsAt n) =
      s.deedsAt n ++ if n = s.current then deeds else [] := by
    split
    · rename_i hn
      rw [hn, deedsAt_current]
    · rw [List.append_nil]
  rw [← hsplit]
  cases h with
  | running =>
    split
    · rename_i hn
      rw [hn, deedsAt_current, List.append_nil]
    · rfl
  | started => simp [deedsAt_withObserver, Observer.after]
  | _ => simp [deedsAt_replace, Observer.after]

/-- The deeds of a call are those that are on record later and were not before. -/
lemma Step.deedsOf_eq (h : Step s c deeds (s.after c)) : s.deedsOf c = deeds := by
  rw [deedsOf, h.deedsAt_eq, if_pos rfl, deedsAt_current, List.drop_left]

/-- A call does what it is said to do. -/
lemma step_after (s : Service) (c : Call) : Step s c (s.deedsOf c) (s.after c) := by
  have hstep : ∃ deeds, Step s c deeds (s.after c) := by
    cases halive : s.isAlive with
    | true =>
      cases c with
      | start failure =>
        have hafter : s.after (.start failure) = s := by simp [after, start, halive]
        rw [hafter]
        exact ⟨_, .running failure halive⟩
      | stop =>
        have hafter : s.after .stop = s.replace ((s.observer.after .stopped).after .awaited) := by
          simp [after, stop, halive]
        rw [hafter]
        exact ⟨_, .stopped halive⟩
    | false =>
      have hoff : ¬ s.isAlive = true := by simp [halive]
      rcases c with (_ | reason | reason) | _
      · exact ⟨_, by simpa only [after, start, if_neg hoff] using Step.started halive⟩
      · exact ⟨_, by simpa only [after, start, if_neg hoff] using Step.unscheduled reason halive⟩
      · exact ⟨_, by simpa only [after, start, if_neg hoff] using Step.unstarted reason halive⟩
      · exact ⟨_, by simpa only [after, stop, if_neg hoff] using Step.idle halive⟩
  obtain ⟨deeds, hdeeds⟩ := hstep
  rwa [hdeeds.deedsOf_eq]

/-! ## All calls -/

/-- A ready observer that observes has been scheduled and started. -/
lemma deeds_of_isAlive (h : s.observer.IsReady) (halive : s.isAlive = true) :
    s.observer.deeds = [.scheduled, .started] := by
  refine h.resolve_left fun hnil => ?_
  simp [isAlive, Observer.isAlive, hnil] at halive

/-- A ready observer that does not observe is new. -/
lemma deeds_of_not_isAlive (h : s.observer.IsReady) (halive : s.isAlive = false) :
    s.observer.deeds = [] := by
  refine h.resolve_right fun hdeeds => ?_
  simp [isAlive, Observer.isAlive, hdeeds, Observer.aliveAfter] at halive

/-- A new observer takes the place of one that is spent. -/
lemma Sound.replace {used : Observer} (h : s.Sound) (hused : used.IsSpent) :
    (s.replace used).Sound where
  ready := Or.inl rfl
  spent := by
    intro o ho
    rcases List.mem_append.1 ho with ho | ho
    · exact h.spent o ho
    · rw [List.mem_singleton.1 ho]
      exact hused

/-- A call keeps a service sound. -/
lemma Sound.step (h : s.Sound) (hstep : Step s c deeds s') : s'.Sound := by
  cases hstep with
  | running => exact h
  | unscheduled reason halive => exact h.replace (Or.inl (deeds_of_not_isAlive h.ready halive))
  | unstarted reason halive =>
    refine h.replace (Or.inr (Or.inl ?_))
    simp [Observer.after, deeds_of_not_isAlive h.ready halive]
  | started halive =>
    refine ⟨Or.inr ?_, h.spent⟩
    simp [Observer.after, deeds_of_not_isAlive h.ready halive]
  | stopped halive =>
    refine h.replace (Or.inr (Or.inr ?_))
    simp [Observer.after, deeds_of_isAlive h.ready halive]
  | idle halive => exact h.replace (Or.inl (deeds_of_not_isAlive h.ready halive))

/-- All calls keep a service sound. -/
lemma Sound.afterAll (h : s.Sound) (calls : List Call) : (s.afterAll calls).Sound := by
  induction calls generalizing s with
  | nil => exact h
  | cons c calls ih => exact ih (h.step (step_after s c))

/-- A new service is sound. -/
lemma IsNew.sound (h : s.IsNew) : s.Sound where
  ready := Or.inl (by rw [h.observer]; rfl)
  spent := by simp [h.replaced]

/-- A service for a directory is new. -/
lemma isNew_of_ofPath {d : Disk} {p : Path} (h : ofPath d p = .ok s) :
    s.IsNew ∧ s.directory = d.resolve p := by
  unfold ofPath at h
  cases hask : d.isDirectory (d.resolve p) with
  | error e => simp [hask, mapError_error, bind, Except.bind] at h
  | ok b =>
    cases b with
    | false =>
      simp [hask, mapError_ok, bind, Except.bind, throw, throwThe, MonadExceptOf.throw] at h
    | true =>
      simp only [hask, mapError_ok, bind, Except.bind, if_true, pure, Except.pure] at h
      cases h
      exact ⟨⟨rfl, rfl⟩, rfl⟩

/-- No call changes the directory. -/
lemma Step.directory_eq (h : Step s c deeds s') : s'.directory = s.directory := by
  cases h <;> rfl

/-- No calls change the directory. -/
lemma directory_afterAll (s : Service) (calls : List Call) :
    (s.afterAll calls).directory = s.directory := by
  induction calls generalizing s with
  | nil => rfl
  | cons c calls ih => exact (ih (s.after c)).trans (step_after s c).directory_eq

/-! ## The record and every moment -/

/-- What is done with an observer among some acts is done first among the former, then among the
latter. -/
lemma deedsOn_append (n : Nat) (acts acts' : List Act) :
    deedsOn n (acts ++ acts') = deedsOn n acts ++ deedsOn n acts' := by
  simp [deedsOn]

/-- All of the deeds with one observer are done with it, and none with the others. -/
lemma deedsOn_map_mk (n m : Nat) (deeds : List Deed) :
    deedsOn n (deeds.map (Act.mk m)) = if n = m then deeds else [] := by
  split
  · rename_i hn
    simp [deedsOn, List.filter_map, Function.comp_def, hn]
  · rename_i hn
    simp [deedsOn, List.filter_map, Function.comp_def, Ne.symm hn]

/-- A call adds to the record what it does. -/
lemma deedsAt_after (s : Service) (c : Call) (n : Nat) :
    (s.after c).deedsAt n =
      s.deedsAt n ++ deedsOn n ((s.deedsOf c).map (Act.mk s.current)) := by
  rw [(step_after s c).deedsAt_eq, deedsOn_map_mk]

/-- What is on record of an observer is what the chronicle tells of it. -/
lemma deedsAt_afterAll (s : Service) (calls : List Call) (n : Nat) :
    (s.afterAll calls).deedsAt n = s.deedsAt n ++ deedsOn n (s.chronicle calls) := by
  induction calls generalizing s with
  | nil => simp [afterAll, chronicle, deedsOn]
  | cons c calls ih =>
    have hrest := ih (s.after c)
    rw [deedsAt_after, List.append_assoc, ← deedsOn_append] at hrest
    exact hrest

/-- With an observer of a new service nothing has been done. -/
lemma IsNew.deedsAt_eq_nil (h : s.IsNew) (n : Nat) : s.deedsAt n = [] := by
  rcases n with _ | n <;> simp [deedsAt, observers, h.observer, h.replaced, Observer.fresh]

/-- Only the present observer of a sound service observes. -/
lemma Sound.eq_current (h : s.Sound) (hn : (Observer.mk (s.deedsAt n)).isAlive = true) :
    n = s.current := by
  rcases Nat.lt_trichotomy n s.current with hlt | rfl | hlt
  · obtain ⟨o, ho, hdeeds⟩ := exists_deedsAt_of_lt hlt
    rw [hdeeds] at hn
    rcases h.spent o ho with h | h | h
    all_goals
      rw [h] at hn
      cases hn
  · rfl
  · rw [deedsAt_of_lt hlt] at hn
    cases hn

/-- At no moment of some calls two observers of a sound service observe. -/
lemma Sound.eq_of_isAlive_moment (h : s.Sound) (hacts : acts <+: s.chronicle calls)
    (hm : (Observer.mk (s.deedsAt m ++ deedsOn m acts)).isAlive = true)
    (hn : (Observer.mk (s.deedsAt n ++ deedsOn n acts)).isAlive = true) : m = n := by
  induction calls generalizing s acts with
  | nil =>
    obtain rfl := List.prefix_nil.1 hacts
    simp only [deedsOn, List.filter_nil, List.map_nil, List.append_nil] at hm hn
    rw [h.eq_current hm, h.eq_current hn]
  | cons c calls ih =>
    rw [chronicle] at hacts
    obtain ⟨later, hsplit⟩ := hacts
    rcases List.append_eq_append_iff.1 hsplit with ⟨missing, hcall, -⟩ | ⟨rest, rfl, hrest⟩
    · -- during the call only the present observer is used
      obtain ⟨deeds, -, -, rfl, -⟩ := List.map_eq_append_iff.1 hcall
      have hcurrent : ∀ k, (Observer.mk
          (s.deedsAt k ++ deedsOn k (deeds.map (Act.mk s.current)))).isAlive = true →
          k = s.current := by
        intro k hk
        by_contra hne
        rw [deedsOn_map_mk, if_neg hne, List.append_nil] at hk
        exact hne (h.eq_current hk)
      rw [hcurrent m hm, hcurrent n hn]
    · rw [deedsOn_append, ← List.append_assoc, ← deedsAt_after] at hm hn
      exact ih (h.step (step_after s c)) ⟨later, hrest.symm⟩ hm hn

/-! ## Taking turns -/

/-- What has been replaced is left alone. -/
lemma Step.replaced_extends (h : Step s c deeds s') : s.replaced <+: s'.replaced := by
  cases h with
  | running => exact List.prefix_rfl
  | started => exact List.prefix_rfl
  | _ => exact List.prefix_append _ _

/-- A stop and a start that fails leave a new observer. -/
lemma Step.observer_eq_fresh (h : Step s c deeds s') (hc : s.Renews c) : s'.observer = .fresh := by
  cases h with
  | running failure halive =>
    rcases hc with hc | ⟨hoff, -⟩
    · cases hc
    · rw [halive] at hoff
      cases hoff
  | started =>
    rcases hc with hc | ⟨-, failure, hc⟩ <;> cases hc
  | _ => rfl

/-- A start that meets no failure leaves an observer that observes. -/
lemma Step.isAlive_of_start (h : Step s (.start none) deeds s') : s'.isAlive = true := by
  cases h with
  | running _ halive => exact halive
  | started halive => simp [isAlive, Observer.isAlive, Observer.after, Observer.aliveAfter]

end Service

namespace Observer

variable {o : Observer}

/-- All that is done with an observer, if nothing fails. -/
def life : List Deed := [.scheduled, .started, .stopped, .awaited]

/-- A ready observer has had the first part of its life. -/
lemma IsReady.prefix_life (h : o.IsReady) : o.deeds <+: life := by
  rcases h with h | h <;> rw [h] <;> decide

/-- A spent observer has had the first part of its life. -/
lemma IsSpent.prefix_life (h : o.IsSpent) : o.deeds <+: life := by
  rcases h with h | h | h <;> rw [h] <;> decide

/-- Nothing is repeated in the first part of a life. -/
lemma isUsedOnce_of_prefix (h : o.deeds <+: life) : o.IsUsedOnce where
  count_started := (h.sublist.count_le _).trans (by decide)
  scheduled := by
    intro before after hdeeds
    rw [hdeeds] at h
    cases before with
    | nil => rfl
    | cons deed before =>
      -- it would be scheduled for a second time
      have hrest := (List.cons_prefix_cons.1 h).2.subset (List.mem_append_right _ List.mem_cons_self)
      simp at hrest

end Observer

open Service

/-- **Observers take turns.** For every service that is made for a directory, and every sequence of
starts and stops, whatever failures the starts meet: between any two deeds at most one of its observers
observes. The record of each observer is what the chronicle tells of it; it is started once at most and
never scheduled while it observes. An observer that has been replaced is left alone from then on, and
if it had been started it had been stopped and awaited after that. A stop and a start that fails leave
a new observer, and after whatever has happened a start that meets no failure leaves the directory
observed. -/
theorem observers_take_turns {d : Disk} {p : Path} {s : Service} (h : ofPath d p = .ok s)
    (calls : List Call) :
    (∀ moment, moment <+: s.chronicle calls → ∀ m n,
      (Observer.mk (deedsOn m moment)).isAlive = true →
      (Observer.mk (deedsOn n moment)).isAlive = true → m = n) ∧
    (∀ n o, (s.afterAll calls).observers[n]? = some o →
      o.deeds = deedsOn n (s.chronicle calls) ∧ o.IsUsedOnce) ∧
    (∀ o ∈ (s.afterAll calls).replaced,
      .started ∈ o.deeds → [.started, .stopped, .awaited] <:+ o.deeds) ∧
    (∀ c, (s.afterAll calls).replaced <+: ((s.afterAll calls).after c).replaced) ∧
    (∀ c, (s.afterAll calls).Renews c → ((s.afterAll calls).after c).observer = .fresh) ∧
    ((s.afterAll calls).after (.start none)).isAlive = true ∧
    ((s.afterAll calls).after (.start none)).directory = d.resolve p := by
  obtain ⟨hnew, hdirectory⟩ := isNew_of_ofPath h
  have hsound := hnew.sound.afterAll calls
  have hstep := step_after (s.afterAll calls)
  refine ⟨?_, ?_, ?_, fun c => (hstep c).replaced_extends, fun c => (hstep c).observer_eq_fresh,
    (hstep _).isAlive_of_start, ?_⟩
  · intro moment hmoment m n hm hn
    apply hnew.sound.eq_of_isAlive_moment hmoment
    · rwa [hnew.deedsAt_eq_nil]
    · rwa [hnew.deedsAt_eq_nil]
  · intro n o ho
    have hrecord := deedsAt_afterAll s calls n
    rw [hnew.deedsAt_eq_nil, List.nil_append, deedsAt, ho] at hrecord
    refine ⟨hrecord, Observer.isUsedOnce_of_prefix ?_⟩
    rcases List.mem_append.1 (List.mem_of_getElem? ho) with hreplaced | hpresent
    · exact (hsound.spent o hreplaced).prefix_life
    · rw [List.mem_singleton.1 hpresent]
      exact hsound.ready.prefix_life
  · intro o ho hstarted
    rcases hsound.spent o ho with hdeeds | hdeeds | hdeeds
    · simp [hdeeds] at hstarted
    · simp [hdeeds] at hstarted
    · rw [hdeeds]
      exact List.suffix_cons _ _
  · rw [(hstep _).directory_eq, directory_afterAll, hdirectory]

/-- A first start that cannot schedule, one that succeeds and is repeated, a stop, and one that
cannot start: three observers have been used, one after another, and the fourth one can be. -/
theorem observers_take_turns_of_failures :
    let d : Disk := { nodes := Table.ofList [(["app"], .directory)], workingDirectory := [] }
    let calls : List Call := [.start (some (.scheduling "limit")), .start none, .start none, .stop,
      .start (some (.starting "limit"))]
    ∃ s, ofPath d (Path.ofString "app") = .ok s ∧
      s.chronicle calls = [⟨1, .scheduled⟩, ⟨1, .started⟩, ⟨1, .stopped⟩, ⟨1, .awaited⟩,
        ⟨2, .scheduled⟩] ∧
      (s.afterAll calls).observer = .fresh ∧
      ((s.afterAll calls).after (.start none)).isAlive = true := by
  intro d calls
  have hs : ofPath d (Path.ofString "app") =
      .ok { directory := Path.ofString "/app", observer := .fresh, replaced := [] } := by
    decide +kernel
  obtain ⟨-, -, -, -, -, halive, -⟩ := observers_take_turns hs calls
  exact ⟨_, hs, by decide, by decide, halive⟩

end RouteAssets.Watch
