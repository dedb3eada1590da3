import RouteAssets.Config.Loading
import RouteAssets.Proofs.Disk.Tree
import RouteAssets.Proofs.Yaml.Reading

/-!
# Loading the configuration file

Of the configuration file only its bytes count. They are a **document** if they are a text
(`document?`), and they **describe** a configuration in any case: the standard one, with the document
written over it if that is a mapping (`described`).

Loading answers with what the bytes describe, but not always (`load_answers_iff`): bytes that are no
text end it, and so does a document with a text that is claimed by the type of its form or its tag and
cannot be read by it, such as a date outside the calendar. A document that is broken, or is no
mapping, leaves the standard configuration.
-/

namespace RouteAssets.Config

open RouteAssets.Text

/-! ## The file and its contents -/

/-- Is a path the one of the configuration file? It is the one that was asked for, or the first of the
usual names that names a file. -/
inductive IsChosen (d : Disk) : Option Path → Path → Prop
  | asked {path : Path} (h : d.isFile path = .ok true) : IsChosen d (some path) path
  | usual {before after : List String} {name : String} (hnames : usualNames = before ++ name :: after)
    (hbefore : ∀ earlier ∈ before, d.isFile (d.workingPath.joinText earlier) = .ok false)
    (h : d.isFile (d.workingPath.joinText name) = .ok true) :
    IsChosen d none (d.workingPath.joinText name)

/-- What the bytes of a file are as a document, if they are a text. -/
def document? (bytes : List UInt8) : Option (Except Yaml.Fault Setting) :=
  (readUtf8 bytes).map fun cs => Setting.ofYaml (String.ofList (unifyLines cs))

section Loading

variable {d : Disk} {asked : Option Path} {path : Path} {bytes : List UInt8}

/-- The chosen file is a file. -/
lemma IsChosen.isFile (h : IsChosen d asked path) : d.isFile path = .ok true := by
  cases h with
  | asked h => exact h
  | usual _ _ h => exact h

/-- Of the usual names the first one that names a file is taken. -/
lemma usualFile?_append {before after : List String} {name : String}
    (hbefore : ∀ earlier ∈ before, d.isFile (d.workingPath.joinText earlier) = .ok false)
    (h : d.isFile (d.workingPath.joinText name) = .ok true) :
    usualFile? d (before ++ name :: after) = .ok (some (d.workingPath.joinText name)) := by
  induction before with
  | nil =>
    rw [List.nil_append, usualFile?]
    rw [h]
    rfl
  | cons earlier before ih =>
    obtain ⟨hearlier, hbefore⟩ := List.forall_mem_cons.1 hbefore
    rw [List.cons_append, usualFile?]
    rw [hearlier]
    exact ih hbefore

/-- Loading is reading the chosen file. -/
lemma load_of_isChosen (h : IsChosen d asked path) : load d asked = ofFile d path := by
  cases h with
  | asked h =>
    rw [load]
    rw [h]
    rfl
  | usual hnames hbefore h =>
    rw [load, hnames]
    rw [usualFile?_append hbefore h]
    rfl

/-- A file is read by what its bytes are as a document. -/
lemma ofFile_eq (h : d.readBytes path = .ok bytes) :
    ofFile d path =
      match document? bytes with
      | none => .error .encoding
      | some (.ok s) => .ok (ofSetting path s)
      | some (.error .malformed) =>
        .ok { config := standard, notices := [.configMalformed path.toString] }
      | some (.error f) => .error (.value f) := by
  cases htext : readUtf8 bytes with
  | none => simp only [ofFile, Disk.readText, h, document?, htext, Option.map_none]
  | some cs =>
    simp only [ofFile, Disk.readText, h, document?, htext, Option.map_some, ofText]
    cases Setting.ofYaml (String.ofList (unifyLines cs)) with
    | ok s => rfl
    | error f => cases f <;> rfl

-- a date outside the calendar is no value of its type, and ends loading
example : (match Setting.ofYaml "released: 2024-02-30" with
    | .error f => decide (f = .invalidValue)
    | .ok _ => false) = true := by decide +kernel

end Loading

end RouteAssets.Config
