import RouteAssets.Build.Emission
import RouteAssets.Proofs.Disk.Writing
import RouteAssets.Proofs.Json.RoundTrip
import RouteAssets.Proofs.Text.Occurrence

/-!
# Emitted route maps are read back

A route map leaves a build as a file, as a module and inside scripts. Whoever decodes what is there
(`RouteMap.decode?`) gets the same map, with the routes and their files in the same order.

* **The value** (`isPlain_toJson`, `ofJson?_toJson`): the JSON form of a map names no route twice and
  holds no numbers, and the map is what it stands for.
* **The texts** (`decode?_pretty`, `decode?_compact`): both layouts decode to the map.
* **The places** (`readText_of_writeAsset`, `emitted_decodes`): the file holds the one text, the
  module the same text between two fixed parts, and scripts the other text where the quoted
  placeholder was.
-/

namespace RouteAssets

open RouteAssets.Text

/-! ## Decoding -/

namespace RouteMap

/-- The file that a text names. -/
def fileOfJson? : Json → Option FileName
  | .string s => some s
  | _ => none

/-- The files in an array of texts. -/
def filesOfJson? : Json → Option (List FileName)
  | .array xs => xs.mapM fileOfJson?
  | _ => none

/-- The route map that an object of arrays of texts stands for. -/
def ofJson? : Json → Option RouteMap
  | .object ms =>
    (ms.mapM fun m => (filesOfJson? m.2).map fun files => (m.1, files)).map Table.ofList
  | _ => none

/-- The route map that a JSON text decodes to. -/
def decode? (text : String) : Option RouteMap :=
  match Json.read text with
  | .ok j => ofJson? j
  | .error _ => none

/-- Taking apart, one by one, what was made of the items of a list gives the list. -/
lemma mapM_map_eq_some {α β : Type} {f : α → β} {g : β → Option α} (h : ∀ x, g (f x) = some x)
    (xs : List α) : (xs.map f).mapM g = some xs := by
  induction xs with
  | nil => rfl
  | cons x xs ih => simp [h, ih]

/-- The JSON form of a route map stands for the map. -/
lemma ofJson?_toJson (m : RouteMap) : ofJson? m.toJson = some m := by
  have hfiles : ∀ files : List FileName,
      filesOfJson? (.array (files.map .string)) = some files :=
    mapM_map_eq_some (f := Json.string) (g := fileOfJson?) fun _ => rfl
  have hentries := mapM_map_eq_some
    (f := fun e : String × List FileName => (e.1, Json.array (e.2.map .string)))
    (g := fun e : String × Json => (filesOfJson? e.2).map fun files => (e.1, files))
    (fun e => by rw [hfiles]; rfl) m.entries
  rw [toJson, ofJson?, hentries, Option.map_some]
  exact congrArg some (Table.ext_entries (Table.entries_ofList m.nodup_keys))

/-- The JSON form of a route map has no numbers, and names no route twice. -/
lemma isPlain_toJson (m : RouteMap) : m.toJson.IsPlain := by
  refine .object ?_ ?_
  · rw [List.map_map]
    exact m.nodup_keys
  · rw [List.forall_mem_map]
    rintro ⟨route, files⟩ -
    refine .array ?_
    rw [List.forall_mem_map]
    exact fun f _ => .string f

/-- The text over several lines decodes to the map. -/
lemma decode?_pretty (m : RouteMap) : decode? m.toJson.pretty = some m := by
  rw [decode?, Json.pretty, Json.read_written m.isPlain_toJson]
  exact ofJson?_toJson m

/-- The text on one line decodes to the map. -/
lemma decode?_compact (m : RouteMap) : decode? m.toJson.compact = some m := by
  rw [decode?, Json.compact, Json.read_written m.isPlain_toJson]
  exact ofJson?_toJson m

/-- The text over several lines has no carriage returns. -/
lemma not_mem_pretty (m : RouteMap) : '\r' ∉ m.toJson.pretty.toList := by
  intro h
  rw [Json.pretty, String.toList_ofList] at h
  have hink := Json.isInk_of_mem_written m.isPlain_toJson .indented 0 '\r' h
  revert hink
  decide

end RouteMap

/-! ## Files -/

namespace Emission

variable {d d' : Disk}

/-- A change that was made as a step of emitting was made. -/
lemma run_of_change {α : Type} {c : DiskChange α} {a : α}
    (h : (change c).run d = (.ok a, d')) : c.run d = (.ok a, d') := by
  unfold change at h
  obtain ⟨_, _, hget, h⟩ := exists_of_run_bind h
  cases hget
  rcases hc : c.run d with ⟨e | a', d₁⟩
  · simp only [hc] at h
    cases h
  · simp only [hc] at h
    cases h
    rfl

/-- The text of a file that was written with its parents is read back, if it has no carriage
returns. -/
lemma readText_of_writeWithParents {p : Path} {text : String}
    (h : (writeWithParents p text).run d = (.ok (), d')) (htext : '\r' ∉ text.toList) :
    d'.readText p = .ok text := by
  unfold writeWithParents at h
  obtain ⟨_, d₁, -, h⟩ := exists_of_run_bind h
  exact Disk.readText_of_writeText (run_of_change h) htext

/-- The file of a route map holds the text over several lines. -/
lemma readText_of_writeAsset {m : RouteMap} {directory p : Path} {fileName : String}
    (h : (writeAsset m directory fileName).run d = (.ok p, d')) :
    d'.readText p = .ok m.toJson.pretty := by
  unfold writeAsset at h
  obtain ⟨_, _, hwrite, h⟩ := exists_of_run_bind h
  cases h
  exact readText_of_writeWithParents hwrite m.not_mem_pretty

/-! ## Decoding what was emitted -/

/-- **What is emitted decodes to the map.** Whatever texts a route map holds: the file that is written
decodes to the map, with the same order of routes and of files; the module is a text that decodes to
the map between two fixed parts; and in every script that the map is put into, the quoted
placeholders, leftmost first, are replaced by a text that decodes to the map. -/
theorem emitted_decodes (m : RouteMap) :
    (∀ (d d' : Disk) (directory p : Path) (fileName : String),
      (writeAsset m directory fileName).run d = (.ok p, d') →
        ∃ text, d'.readText p = .ok text ∧ RouteMap.decode? text = some m) ∧
    (∃ text, moduleText m = "export default " ++ text ++ ";\n" ∧
      RouteMap.decode? text = some m) ∧
    ∃ text, RouteMap.decode? text = some m ∧ ∀ code : String,
      Replaced quotedPlaceholder.toList text.toList code.toList (inject code m).toList := by
  refine ⟨fun d d' directory p fileName h => ?_, ⟨m.toJson.pretty, rfl, m.decode?_pretty⟩,
    m.toJson.compact, m.decode?_compact, fun code => ?_⟩
  · exact ⟨m.toJson.pretty, readText_of_writeAsset h, m.decode?_pretty⟩
  · rw [inject, String.toList_ofList]
    exact replaced_replaceFrom (by decide) _ _

/-- A map with quotation marks, a backslash, control characters and a character outside the basic
plane is written below a directory that is not there yet, and decodes from the file. -/
theorem emitted_decodes_of_escaped :
    let m : RouteMap :=
      Table.ofList [("/\"caf\u00e9\"", ["a\\b.js", "\n\r\x00\x7f"]), ("/😀", ["😀.js"])]
    let disk : Disk := { nodes := Table.empty, workingDirectory := [] }
    let written := (writeAsset m (Path.ofString "/out/maps") "map.json").run disk
    written.1 = .ok (Path.ofString "/out/maps/map.json") ∧
      ∃ text, written.2.readText (Path.ofString "/out/maps/map.json") = .ok text ∧
        RouteMap.decode? text = some m := by
  intro m disk written
  have hwritten : written.1 = .ok (Path.ofString "/out/maps/map.json") := by decide +kernel
  exact ⟨hwritten, (emitted_decodes m).1 disk written.2 _ _ _ (Prod.ext hwritten rfl)⟩

end Emission

end RouteAssets
