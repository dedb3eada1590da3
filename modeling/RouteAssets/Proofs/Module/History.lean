import RouteAssets.Proofs.Module.Memory

/-!
# Answers after a history

Between look-ups the disk may change and what is remembered may be forgotten. A **history**
(`History`) is what has been done with one memory, each time with the disk as it was.

What is remembered for a specifier and a directory depends on the questions with this specifier from
this directory alone (`asked`): it is the first answer to one of them that did not fail
(`get?_after`). So an answer **shows** one disk of the history (`Rules.shown`), which is the present
one as long as there has been no change (`answerAfter_eq_find`). A failure is not remembered, and the
first question after the memory has been cleared need not be the one whose disk is shown
(`exists_answerAfter_ne_first`).
-/

namespace RouteAssets.Lookup

/-- What is done with a memory. -/
inductive Use where
  | ask (specifier : String) (importer : ModuleId)
  | forget
  deriving DecidableEq, Repr

/-- What has been done with a memory, each time with the disk as it was. -/
abbrev History := List (Disk × Use)

/-- The memory after one use. -/
def Rules.use (r : Rules) (m : Memory) : Disk × Use → Memory
  | (d, .ask specifier importer) => ((r.resolve d specifier importer).run m).2
  | (_, .forget) => m.forget

/-- The memory after a history. -/
def Rules.after (r : Rules) (m : Memory) (h : History) : Memory := h.foldl r.use m

/-- What is answered on a disk after a history that starts with nothing remembered. -/
def Rules.answerAfter (r : Rules) (h : History) (d : Disk) (specifier : String)
    (importer : ModuleId) : Except Error (Option ModuleId) :=
  ((r.resolve d specifier importer).run (r.after .empty h)).1

/-- The disks on which a specifier has been asked for, by importers in a directory. -/
def asked (specifier : String) (directory : Path) (h : History) : List Disk :=
  h.filterMap fun
    | (d, .ask s importer) =>
      if s = specifier ∧ directoryOf importer = directory then some d else none
    | (_, .forget) => none

/-- The disk that an answer shows: the first one on which the question has been answered, and before
that the present one. -/
def Rules.shown (r : Rules) (h : History) (d : Disk) (specifier : String) (directory : Path) : Disk :=
  ((asked specifier directory h).find? fun d' => (r.find d' specifier directory).isOk).getD d

section History

variable {r : Rules} {d : Disk} {m : Memory} {h : History} {specifier : String} {directory : Path}

/-! ## Without a change -/

/-- As long as the disk stays the same nothing wrong is remembered. -/
lemma Memory.Coherent.after (hm : m.Coherent r d) (hsame : ∀ e ∈ h, e.1 = d) :
    (r.after m h).Coherent r d := by
  induction h generalizing m with
  | nil => exact hm
  | cons e h ih =>
    obtain ⟨he, hsame⟩ := List.forall_mem_cons.1 hsame
    refine ih ?_ hsame
    rcases e with ⟨d', ⟨s, importer⟩ | _⟩
    · cases he
      exact (settles_resolve s importer m hm).2
    · exact m.coherent_forget

/-! ## What is remembered -/

/-- A question adds its own answer, if there is none yet and it does not fail. -/
lemma get?_use_ask (hdirectory : directory.IsWritten) (s : String) (importer : ModuleId) :
    (r.use m (d, .ask s importer)).answers.get? (specifier, directory.toString) =
      (m.answers.get? (specifier, directory.toString)).or
        (if s = specifier ∧ directoryOf importer = directory then
          (r.find d specifier directory).toOption else none) := by
  have hkey : (s, (directoryOf importer).toString) = (specifier, directory.toString) ↔
      s = specifier ∧ directoryOf importer = directory := by
    rw [Prod.mk.injEq]
    exact and_congr_right fun _ =>
      ⟨Path.toString_inj (isWritten_directoryOf importer) hdirectory, congrArg Path.toString⟩
  simp only [Rules.use, run_resolve]
  by_cases hasked : s = specifier ∧ directoryOf importer = directory
  · obtain ⟨rfl, rfl⟩ := hasked
    rcases hget : m.answers.get? (s, (directoryOf importer).toString) with _ | answer
    · rcases hfind : r.find d s (directoryOf importer) with e | answer
      · simp [hget, Except.toOption]
      · simp [Table.get?_insert, Except.toOption]
    · simp [hget]
  · rw [if_neg hasked, Option.or_none]
    split
    · rfl
    · split
      · rfl
      · rw [Table.get?_insert, if_neg (mt hkey.1 hasked)]

/-- What is remembered for a specifier and a directory: what was remembered before, and then the
first answer. -/
lemma get?_after (hdirectory : directory.IsWritten) (hkept : ∀ e ∈ h, e.2 ≠ .forget) :
    (r.after m h).answers.get? (specifier, directory.toString) =
      (m.answers.get? (specifier, directory.toString)).or
        ((asked specifier directory h).findSome? fun d =>
          (r.find d specifier directory).toOption) := by
  induction h generalizing m with
  | nil => simp [Rules.after, asked]
  | cons e h ih =>
    obtain ⟨he, hrest⟩ := List.forall_mem_cons.1 hkept
    rcases e with ⟨d, ⟨s, importer⟩ | _⟩
    · rw [Rules.after, List.foldl_cons, ← Rules.after, ih hrest, get?_use_ask hdirectory s importer,
        Option.or_assoc]
      congr 1
      by_cases hasked : s = specifier ∧ directoryOf importer = directory
      · have hasks : asked specifier directory ((d, .ask s importer) :: h) =
            d :: asked specifier directory h := by
          simp [asked, hasked]
        rw [if_pos hasked, hasks, List.findSome?_cons]
        rcases (r.find d specifier directory).toOption with _ | answer <;> rfl
      · simp [asked, hasked]
    · exact absurd rfl he

/-- What a question is answered with a memory: what is remembered, and otherwise what is found. -/
lemma resolve_eq_of_get? (importer : ModuleId) :
    ((r.resolve d specifier importer).run m).1 =
      match m.answers.get? (specifier, (directoryOf importer).toString) with
      | some answer => .ok answer
      | none => r.find d specifier (directoryOf importer) := by
  rw [run_resolve]
  rcases m.answers.get? (specifier, (directoryOf importer).toString) with _ | answer
  · rcases r.find d specifier (directoryOf importer) with e | answer <;> rfl
  · rfl

/-- What is found on the disk that is shown. -/
lemma find_shown : r.find (r.shown h d specifier directory) specifier directory =
    match (asked specifier directory h).findSome? fun d' =>
      (r.find d' specifier directory).toOption with
    | some answer => .ok answer
    | none => r.find d specifier directory := by
  unfold Rules.shown
  induction asked specifier directory h with
  | nil => rfl
  | cons d' ds ih =>
    rw [List.find?_cons, List.findSome?_cons]
    rcases hfind : r.find d' specifier directory with e | answer
    · exact ih
    · exact hfind

end History

/-! ## What an answer shows -/

/-- **A memory shows one disk.** As long as the disk stays the same, every question has the answer
that is found without a memory, whatever has been done before. When the disk changes, an answer is
what is found on one disk since the memory has last been cleared: on the first one on which the same
question, with the specifier and from the directory, did not fail, and before that on the present
one. -/
theorem answerAfter_eq_find (r : Rules) (d : Disk) (specifier : String) (importer : ModuleId) :
    (∀ h : History, (∀ e ∈ h, e.1 = d) →
      r.answerAfter h d specifier importer = r.find d specifier (directoryOf importer)) ∧
    ∀ (before recent : History) (d₀ : Disk), (∀ e ∈ recent, e.2 ≠ .forget) →
      r.answerAfter (before ++ (d₀, .forget) :: recent) d specifier importer =
        r.find (r.shown recent d specifier (directoryOf importer)) specifier
          (directoryOf importer) := by
  constructor
  · intro h hsame
    have hempty : Memory.empty.Coherent r d := Memory.coherent_forget Memory.empty
    exact (settles_resolve specifier importer _ (hempty.after hsame)).1
  · intro before recent d₀ hkept
    have hcleared : r.after .empty (before ++ (d₀, .forget) :: recent) =
        r.after (r.after .empty before).forget recent := by
      rw [Rules.after, List.foldl_append, List.foldl_cons]
      rfl
    rw [Rules.answerAfter, resolve_eq_of_get?, hcleared,
      get?_after (isWritten_directoryOf importer) hkept, find_shown]
    rfl

/-- Where a look-up fails until a file has been written, the file is found then, and goes on being
found after it has been deleted, until the memory is cleared. -/
theorem answerAfter_eq_find_of_written :
    let r : Rules := { root := ⟨.root, []⟩, aliases := [], extensions := ["/x"], packages := none }
    let without : Disk := ⟨Table.ofList [(["a.js"], .file [])], []⟩
    let written : Disk := ⟨Table.ofList [(["a.js"], .file []), (["n"], .file [])], []⟩
    let ask : Use := .ask "./n" "/a.js"
    r.answerAfter [(written, ask), (written, ask)] written "./n" "/a.js" = .ok (some "/n") ∧
      r.answerAfter [(written, ask), (without, .forget), (without, ask), (written, ask)] without
        "./n" "/a.js" = .ok (some "/n") ∧
      r.answerAfter [(written, ask), (without, .forget), (without, ask)] without "./n" "/a.js" =
        .error (.invalidName "n/x") := by
  intro r without written ask
  obtain ⟨hsame, -⟩ := answerAfter_eq_find r written "./n" "/a.js"
  obtain ⟨-, hchanged⟩ := answerAfter_eq_find r without "./n" "/a.js"
  refine ⟨?_, ?_, ?_⟩
  · rw [hsame [(written, ask), (written, ask)] (by simp)]
    decide +kernel
  · have h := hchanged [(written, ask)] [(without, ask), (written, ask)] without (by simp [ask])
    exact h.trans (by decide +kernel)
  · have h := hchanged [(written, ask)] [(without, ask)] without (by simp [ask])
    exact h.trans (by decide +kernel)

/-- The disk that is shown need not be the one of the first question: when this question failed, the
next one is looked up again. -/
theorem exists_answerAfter_ne_first :
    ¬ ∀ (r : Rules) (before recent : History) (d₀ d₁ d : Disk) (specifier : String)
      (importer : ModuleId), (∀ e ∈ recent, e.2 ≠ .forget) →
      (asked specifier (directoryOf importer) recent ++ [d]).head? = some d₁ →
      r.answerAfter (before ++ (d₀, .forget) :: recent) d specifier importer =
        r.find d₁ specifier (directoryOf importer) := by
  intro hfirst
  let r : Rules := { root := ⟨.root, []⟩, aliases := [], extensions := ["/x"], packages := none }
  let without : Disk := ⟨Table.ofList [(["a.js"], .file [])], []⟩
  let written : Disk := ⟨Table.ofList [(["a.js"], .file []), (["n"], .file [])], []⟩
  have h := hfirst r [] [(without, .ask "./n" "/a.js")] without without written "./n" "/a.js"
    (by simp) (by decide +kernel)
  have hfound : r.answerAfter [(without, .forget), (without, .ask "./n" "/a.js")] written "./n"
      "/a.js" = .ok (some "/n") := by decide +kernel
  have hfailed : r.find without "./n" (directoryOf "/a.js") = .error (.invalidName "n/x") := by
    decide +kernel
  cases hfound.symm.trans (h.trans hfailed)

end RouteAssets.Lookup
