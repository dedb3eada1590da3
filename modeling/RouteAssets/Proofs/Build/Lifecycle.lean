import RouteAssets.Proofs.Build.Edges
import RouteAssets.Proofs.Build.Outcome
import Mathlib.Data.List.DropRight

/-!
# The life of findings

Findings take things in, are closed, opened again and cleared, in any order and any number of times.
A **history** is a list of such operations, each of them a step of a build. What the findings hold
after a history is said by the history alone:

* they are **closed** when the last operation that switches them is `close` (`Accords.isClosed_iff`),
  and then a finding is refused and the build stays as it is (`outcome_add_of_closed`);
* otherwise it is taken in (`outcome_add_of_open`), and so they hold what has been **admitted**
  since they were cleared (`Holds`): of the routes and of what dependencies stand for the last ones,
  of edges and requested dependencies the first occurrences of all.

One operation keeps this (`Accords.concat`), and a history is operations after each other
(`accords_performed`). Refusals stand between the operations of a history like any other: what was
refused does not come back when the findings are opened.
-/

namespace RouteAssets.Findings

open RouteAssets.Build

/-! ## Histories -/

/-- What findings take in. -/
inductive Finding where
  | routes (routes : List Route) (imports : Table String ModuleId)
  | lazyModules (modules : Table DepId ModuleId)
  | dynamic (m : ModuleId) (targets : List ModuleId)
  | static (m : ModuleId) (targets : List ModuleId)
  | usages (m : ModuleId) (deps : List DepId)
  deriving DecidableEq

/-- What is done with findings. -/
inductive Operation where
  | add (x : Finding)
  | close
  | reopen
  | clear
  deriving DecidableEq

/-- Takes something into findings, unless they are closed. -/
def Finding.addTo (f : Findings) : Finding → Except Findings.Closed Findings
  | routes rs imports => f.setRoutes rs imports
  | lazyModules modules => f.setLazyModules modules
  | dynamic m targets => f.addDynamic m targets
  | static m targets => f.addStatic m targets
  | usages m deps => f.addUsages m deps

/-- The step of a build that performs an operation. -/
def Operation.step : Operation → BuildStep Unit
  | add x => record fun f => x.addTo f
  | close => modifyFindings Findings.close
  | reopen => modifyFindings Findings.reopen
  | clear => modifyFindings fun _ => Findings.empty

/-- The build after the operations of a history, whether they answered or failed. -/
def performed (b : Build) (history : List Operation) : Build :=
  history.foldl (fun b op => (outcome op.step b).2) b

/-- A history with one more operation. -/
lemma performed_concat (b : Build) (history : List Operation) (op : Operation) :
    performed b (history ++ [op]) = (outcome op.step (performed b history)).2 := by
  rw [performed, List.foldl_append]
  rfl

/-! ## What a history says -/

/-- Does an operation open or close the findings? -/
def Operation.isSwitch : Operation → Bool
  | add _ => false
  | close => true
  | reopen => true
  | clear => true

/-- Is the last switch of a history `close`? -/
def IsClosedAfter (history : List Operation) : Prop :=
  (history.filter Operation.isSwitch).getLast? = some .close
deriving Decidable

/-- What an operation behind a history adds to what has been taken in. -/
def admittedBy (history : List Operation) : Operation → List Finding
  | .add x => if IsClosedAfter history then [] else [x]
  | _ => []

/-- What operations behind a history add to what has been taken in, in order. -/
def admitted (history : List Operation) : List Operation → List Finding
  | [] => []
  | op :: later => admittedBy history op ++ admitted (history ++ [op]) later

/-- What has been taken in since the findings were cleared, or since the beginning. -/
def admittedSinceClear (history : List Operation) : List Finding :=
  admitted (history.rdropWhile fun op => op ≠ .clear) (history.rtakeWhile fun op => op ≠ .clear)

section Admitting

variable (history : List Operation) (op : Operation)

/-- The last switch of a history with one more operation. -/
lemma isClosedAfter_concat_iff :
    IsClosedAfter (history ++ [op]) ↔
      op = .close ∨ (op.isSwitch = false ∧ IsClosedAfter history) := by
  unfold IsClosedAfter
  cases op <;> simp [Operation.isSwitch]

/-- What one more operation adds. -/
lemma admitted_concat (later : List Operation) :
    admitted history (later ++ [op]) =
      admitted history later ++ admittedBy (history ++ later) op := by
  induction later generalizing history with
  | nil => simp [admitted]
  | cons first later ih =>
    rw [List.cons_append, admitted, admitted, ih, List.append_assoc, List.append_assoc,
      List.singleton_append]

/-- Clearing begins anew. -/
lemma admittedSinceClear_concat_clear : admittedSinceClear (history ++ [.clear]) = [] := by
  simp [admittedSinceClear, admitted]

/-- An operation that does not clear adds to what has been taken in. -/
lemma admittedSinceClear_concat {op : Operation} (h : op ≠ .clear) :
    admittedSinceClear (history ++ [op]) = admittedSinceClear history ++ admittedBy history op := by
  unfold admittedSinceClear
  rw [List.rdropWhile_concat, List.rtakeWhile_concat, if_pos (by simpa), if_pos (by simpa),
    admitted_concat, List.rdropWhile_append_rtakeWhile]

end Admitting

-- what was refused does not come back when the findings are opened
example : admittedSinceClear [.add (.usages "/a.js" ["A"]), .close, .add (.usages "/a.js" ["B"]),
    .reopen, .add (.usages "/a.js" ["C"])] = [.usages "/a.js" ["A"], .usages "/a.js" ["C"]] := by
  decide

/-! ## What findings hold -/

namespace Finding

/-- The routes that are taken in, with what the router files import. -/
def routes? : Finding → Option (List Route × Table String ModuleId)
  | routes rs imports => some (rs, imports)
  | _ => none

/-- What dependencies are said to stand for. -/
def lazyModules? : Finding → Option (Table DepId ModuleId)
  | lazyModules modules => some modules
  | _ => none

/-- A module with dynamic imports. -/
def dynamic? : Finding → Option (ModuleId × List ModuleId)
  | dynamic m targets => some (m, targets)
  | _ => none

/-- A module with static imports. -/
def static? : Finding → Option (ModuleId × List ModuleId)
  | static m targets => some (m, targets)
  | _ => none

/-- A module with requested dependencies. -/
def usages? : Finding → Option (ModuleId × List DepId)
  | usages m deps => some (m, deps)
  | _ => none

end Finding

/-- A table holds for each module that was given the first occurrences in all its lists, and no
other modules. -/
structure Gathers {α : Type} (table : Table ModuleId (List α)) (given : List (ModuleId × List α)) :
    Prop where
  isSome_get?_iff : ∀ m, (table.get? m).isSome ↔ ∃ xs, (m, xs) ∈ given
  isFirstSeen : ∀ m,
    IsFirstSeen (given.flatMap fun e => if e.1 = m then e.2 else []) (table.getD m [])

/-- Findings hold what has been taken in: the routes and what dependencies stand for as given last,
and everything that was given for each module. -/
structure Holds (f : Findings) (taken : List Finding) : Prop where
  routes_eq : (f.routes, f.routerImports) =
    (taken.filterMap Finding.routes?).getLastD ([], Table.empty)
  lazyModules_eq : f.lazyModules = (taken.filterMap Finding.lazyModules?).getLastD Table.empty
  dynamic : Gathers f.dynamic (taken.filterMap Finding.dynamic?)
  static : Gathers f.static (taken.filterMap Finding.static?)
  usages : Gathers f.usages (taken.filterMap Finding.usages?)

section Gathers

variable {α : Type} [DecidableEq α] {table : Table ModuleId (List α)}
  {given : List (ModuleId × List α)}

/-- A table with a list added for a module. -/
def gain (table : Table ModuleId (List α)) (e : ModuleId × List α) : Table ModuleId (List α) :=
  table.insert e.1 (addAll (table.getD e.1 []) e.2)

/-- Nothing is gathered from nothing. -/
lemma gathers_empty : Gathers (Table.empty : Table ModuleId (List α)) [] where
  isSome_get?_iff _ := by simp
  isFirstSeen _ := isFirstSeen_distinct []

/-- One more list for a module is added to what has been gathered. -/
lemma Gathers.concat (h : Gathers table given) (e : ModuleId × List α) :
    Gathers (gain table e) (given ++ [e]) where
  isSome_get?_iff k := by
    rw [gain, Table.get?_insert]
    obtain ⟨m, xs⟩ := e
    by_cases hk : m = k
    · simp [hk]
    · simp [hk, Ne.symm hk, h.isSome_get?_iff]
  isFirstSeen k := by
    rw [gain, Table.getD_insert, List.flatMap_append, List.flatMap_singleton]
    by_cases hk : e.1 = k
    · subst hk
      simpa using (h.isFirstSeen e.1).append e.2
    · simpa [hk] using h.isFirstSeen k

/-- What may be one more list is added if it is one. -/
lemma Gathers.concat_filterMap {ι : Type} {p : ι → Option (ModuleId × List α)} {taken : List ι}
    (h : Gathers table (taken.filterMap p)) (x : ι) :
    Gathers ((p x).elim table (gain table)) ((taken ++ [x]).filterMap p) := by
  rw [List.filterMap_append]
  cases hx : p x with
  | none => simpa [hx] using h
  | some e => simpa [hx] using h.concat e

end Gathers

/-- Empty findings hold nothing. -/
lemma holds_empty : Holds Findings.empty [] where
  routes_eq := rfl
  lazyModules_eq := rfl
  dynamic := gathers_empty
  static := gathers_empty
  usages := gathers_empty

/-- What was given last after one more item. -/
lemma getLastD_filterMap_concat {α β : Type} (p : α → Option β) (taken : List α) (x : α) (d : β) :
    ((taken ++ [x]).filterMap p).getLastD d = (p x).getD ((taken.filterMap p).getLastD d) := by
  rw [List.filterMap_append]
  cases hx : p x <;> simp [hx]

/-- Findings after something has been taken in. -/
def Finding.into (f : Findings) : Finding → Findings
  | routes rs imports => { f with routes := rs, routerImports := imports }
  | lazyModules modules => { f with lazyModules := modules }
  | dynamic m targets => withDynamic m targets f
  | static m targets => withStatic m targets f
  | usages m deps => withUsages m deps f

section Into

variable (f : Findings) (x : Finding)

/-- Taking something in is a change that closed findings refuse. -/
lemma Finding.addTo_eq : x.addTo f = f.change fun f => x.into f := by cases x <;> rfl

/-- Taking something in does not close. -/
lemma isClosed_into : (x.into f).isClosed = f.isClosed := by cases x <;> rfl

/-- Routes are replaced. -/
lemma routes_into :
    ((x.into f).routes, (x.into f).routerImports) = x.routes?.getD (f.routes, f.routerImports) := by
  cases x <;> rfl

/-- What dependencies stand for is replaced. -/
lemma lazyModules_into : (x.into f).lazyModules = x.lazyModules?.getD f.lazyModules := by
  cases x <;> rfl

/-- Dynamic imports are added. -/
lemma dynamic_into : (x.into f).dynamic = x.dynamic?.elim f.dynamic (gain f.dynamic) := by
  cases x <;> rfl

/-- Static imports are added. -/
lemma static_into : (x.into f).static = x.static?.elim f.static (gain f.static) := by
  cases x <;> rfl

/-- Requested dependencies are added. -/
lemma usages_into : (x.into f).usages = x.usages?.elim f.usages (gain f.usages) := by
  cases x <;> rfl

end Into

/-- Findings that take something in hold it besides what they held. -/
lemma Holds.concat {f : Findings} {taken : List Finding} (h : Holds f taken) (x : Finding) :
    Holds (x.into f) (taken ++ [x]) where
  routes_eq := by rw [routes_into, getLastD_filterMap_concat, h.routes_eq]
  lazyModules_eq := by rw [lazyModules_into, getLastD_filterMap_concat, h.lazyModules_eq]
  dynamic := by
    rw [dynamic_into]
    exact h.dynamic.concat_filterMap x
  static := by
    rw [static_into]
    exact h.static.concat_filterMap x
  usages := by
    rw [usages_into]
    exact h.usages.concat_filterMap x

/-! ## Operations one after the other -/

section Operations

variable {b : Build} {history : List Operation}

/-- Closed findings refuse whatever they are given, and the build stays as it is. -/
lemma outcome_add_of_closed (h : b.findings.isClosed = true) (x : Finding) :
    outcome (Operation.add x).step b = (.error (.closed {}), b) := by
  unfold Operation.step
  refine outcome_record_error b ?_
  rw [Finding.addTo_eq, Findings.change, if_pos h]

/-- Open findings take in whatever they are given. -/
lemma outcome_add_of_open (h : b.findings.isClosed = false) (x : Finding) :
    outcome (Operation.add x).step b = (.ok (), { b with findings := x.into b.findings }) := by
  unfold Operation.step
  refine outcome_record_ok b ?_
  rw [Finding.addTo_eq, Findings.change, if_neg (by simp [h])]

/-- A build is as its history says: its findings are closed if the last switch closed them, they
hold what they have been given since they were cleared, and all else is as in the beginning. -/
structure Accords (history : List Operation) (b : Build) : Prop where
  isClosed_iff : b.findings.isClosed = true ↔ IsClosedAfter history
  holds : Holds b.findings (admittedSinceClear history)
  rest_eq : { b with findings := Findings.empty } = start

/-- Where the last switch has not closed them, the findings are open. -/
lemma Accords.isClosed_eq_false (h : Accords history b) (hopen : ¬ IsClosedAfter history) :
    b.findings.isClosed = false := by
  rw [← Bool.not_eq_true, h.isClosed_iff]
  exact hopen

/-- One more operation keeps a build as its history says. -/
lemma Accords.concat (h : Accords history b) (op : Operation) :
    Accords (history ++ [op]) (outcome op.step b).2 := by
  cases op with
  | add x =>
    have hswitch : IsClosedAfter (history ++ [.add x]) ↔ IsClosedAfter history := by
      simp [isClosedAfter_concat_iff, Operation.isSwitch]
    have hkept : Operation.add x ≠ .clear := by simp
    have hadmitted := admittedSinceClear_concat history hkept
    by_cases hclosed : IsClosedAfter history
    · -- refused: nothing is admitted, nothing changes
      rw [admittedBy, if_pos hclosed, List.append_nil] at hadmitted
      rw [outcome_add_of_closed (h.isClosed_iff.2 hclosed)]
      exact ⟨h.isClosed_iff.trans hswitch.symm, hadmitted ▸ h.holds, h.rest_eq⟩
    · rw [admittedBy, if_neg hclosed] at hadmitted
      rw [outcome_add_of_open (h.isClosed_eq_false hclosed)]
      refine ⟨?_, hadmitted ▸ h.holds.concat x, h.rest_eq⟩
      rw [isClosed_into, h.isClosed_iff, hswitch]
  | close =>
    have hadmitted : admittedSinceClear (history ++ [.close]) = admittedSinceClear history := by
      simp [admittedSinceClear_concat, admittedBy]
    refine ⟨by simp [isClosedAfter_concat_iff, Operation.step, Findings.close], ?_, h.rest_eq⟩
    rw [hadmitted]
    exact { h.holds with }
  | reopen =>
    have hadmitted : admittedSinceClear (history ++ [.reopen]) = admittedSinceClear history := by
      simp [admittedSinceClear_concat, admittedBy]
    refine ⟨by simp [isClosedAfter_concat_iff, Operation.step, Operation.isSwitch,
      Findings.reopen], ?_, h.rest_eq⟩
    rw [hadmitted]
    exact { h.holds with }
  | clear =>
    refine ⟨by simp [isClosedAfter_concat_iff, Operation.step, Operation.isSwitch,
      Findings.empty], ?_, h.rest_eq⟩
    rw [admittedSinceClear_concat_clear]
    exact holds_empty

/-- After every history a build is as the history says. -/
lemma accords_performed (history : List Operation) : Accords history (performed start history) := by
  induction history using List.reverseRecOn with
  | nil => exact ⟨by decide, holds_empty, rfl⟩
  | append_singleton history op ih =>
    rw [performed_concat]
    exact ih.concat op

end Operations

/-- **After every history of adding, closing, reopening and clearing, the findings are what the
history says.** A finding is refused exactly when the last operation that switches the findings has
closed them, and then the whole build is as before. What has been admitted since the findings were
cleared is what they hold: the routes and what dependencies stand for as given last, and for each
module what was given for it in all, without repetitions and in the order in which it was first
given. Clearing leaves a build that has not begun. -/
theorem follow_history (history : List Operation) :
    (∀ x : Finding,
      ((outcome (Operation.add x).step (performed start history)).1 = .error (.closed {}) ↔
        IsClosedAfter history) ∧
      (IsClosedAfter history →
        (outcome (Operation.add x).step (performed start history)).2 = performed start history) ∧
      (¬ IsClosedAfter history →
        (outcome (Operation.add x).step (performed start history)).1 = .ok ())) ∧
    Holds (performed start history).findings (admittedSinceClear history) ∧
    performed start (history ++ [.clear]) = start := by
  have hhistory := accords_performed history
  refine ⟨fun x => ?_, hhistory.holds, ?_⟩
  · by_cases hclosed : IsClosedAfter history
    · have hadd := outcome_add_of_closed (hhistory.isClosed_iff.2 hclosed) x
      simp [hadd, hclosed]
    · have hadd := outcome_add_of_open (hhistory.isClosed_eq_false hclosed) x
      simp [hadd, hclosed]
  · rw [performed_concat]
    exact hhistory.rest_eq

end RouteAssets.Findings
