import RouteAssets.Module.Lookup
import RouteAssets.Text.Order
import Mathlib.Data.List.TakeWhile
import Mathlib.Tactic.Lemma

/-!
# Aliases and packages

A specifier that an alias matches is looked up below the target of that alias, and nowhere else. Which
alias it is, is settled by the lengths of the keys. Whether a specifier may name a package is asked
apart from this, and in other words.

* **Bases** (`aliasBase?_eq_some`, `isSome_aliasBase?_iff`): an alias gives a base exactly where one
  matches, and the base is that of a matching alias with the longest key.
* **Look-ups** (`find_of_file`, `find_of_no_file`): a base with a file decides, and without a file the
  packages are asked.
* **Two questions** (`aliasBase?_iff_claims`): a specifier is kept from the packages where an alias
  gives it a base, but for the keys that have lost a slash at their end
  (`aliasBase?_iff_claims_of_package`).
-/

namespace RouteAssets

open RouteAssets.Text

namespace Text

/-- A text starts with another one when it continues it. -/
lemma startsWith_iff {s p : String} : startsWith s p = true ↔ ∃ rest, s = p ++ rest := by
  rw [startsWith, List.isPrefixOf_iff_prefix]
  constructor
  · rintro ⟨rest, h⟩
    exact ⟨String.ofList rest, String.toList_inj.1 (by simp [h])⟩
  · rintro ⟨rest, rfl⟩
    exact ⟨rest.toList, by simp⟩

section Sorting

variable {α : Type} (f : α → Nat)

/-- A list in which a measure does not grow stays such a list when an element is put in its place. -/
lemma insertSorted_descending {x : α} {ys : List α} (h : ys.Pairwise fun a b => f b ≤ f a) :
    (insertSorted (fun a b => f b < f a) x ys).Pairwise fun a b => f b ≤ f a := by
  induction ys with
  | nil => simp [insertSorted]
  | cons y ys ih =>
    obtain ⟨hy, hys⟩ := List.pairwise_cons.1 h
    rw [insertSorted]
    split
    · rename_i hxy
      have hlt : f y < f x := of_decide_eq_true hxy
      refine List.pairwise_cons.2 ⟨fun z hz => ?_, h⟩
      rcases List.mem_cons.1 hz with rfl | hz
      · exact Nat.le_of_lt hlt
      · exact Nat.le_trans (hy z hz) (Nat.le_of_lt hlt)
    · rename_i hxy
      have hle : f x ≤ f y := Nat.not_lt.1 fun hlt => hxy (decide_eq_true hlt)
      refine List.pairwise_cons.2 ⟨fun z hz => ?_, ih hys⟩
      rcases mem_insertSorted.1 hz with rfl | hz
      · exact hle
      · exact hy z hz

/-- Sorted by a measure with the largest values first, a list does not grow in it. -/
lemma sortBy_descending (xs : List α) :
    (sortBy (fun a b => f b < f a) xs).Pairwise fun a b => f b ≤ f a := by
  have h : ∀ (xs acc : List α), (acc.Pairwise fun a b => f b ≤ f a) →
      (xs.foldl (fun sorted x => insertSorted (fun a b => f b < f a) x sorted) acc).Pairwise
        fun a b => f b ≤ f a := by
    intro xs
    induction xs with
    | nil => exact fun _ hacc => hacc
    | cons x xs ih => exact fun _ hacc => ih _ (insertSorted_descending f hacc)
  exact h xs [] List.Pairwise.nil

end Sorting

end Text

namespace Lookup

/-! ## Which alias gives the base -/

/-- An alias gives a base to its key without the slashes at the end of it, and to what continues
this after a slash. -/
inductive Alias.Gives (a : Alias) : String → Path → Prop
  | whole : a.Gives a.stem a.target
  | below (inner : String) : a.Gives (a.stem ++ "/" ++ inner) (a.target.joinText inner)

/-- An alias matches the specifiers that it gives a base to. -/
def Alias.Matches (a : Alias) (s : String) : Prop := ∃ base, a.Gives s base

/-- A matching alias with the longest key. -/
structure Rules.IsLongest (r : Rules) (s : String) (a : Alias) : Prop where
  mem : a ∈ r.aliases
  matched : a.Matches s
  longest : ∀ b ∈ r.aliases, b.Matches s → b.key.length ≤ a.key.length

/-- The base that the aliases give to a specifier. -/
def Rules.aliasBase? (r : Rules) (s : String) : Option Path :=
  r.orderedAliases.findSome? fun a => a.base? s

section Aliases

variable {r : Rules} {a b : Alias} {s inner : String} {base : Path}

/-- No text continues itself after a slash. -/
lemma ne_append_slash (t inner : String) : t ≠ t ++ "/" ++ inner := by
  intro h
  have hlength := congrArg String.length h
  simp only [String.length_append] at hlength
  have hslash : ("/" : String).length = 1 := rfl
  omega

/-- The base that an alias gives. -/
lemma Alias.base?_eq_some_iff : a.base? s = some base ↔ a.Gives s base := by
  unfold Alias.base?
  split
  · rename_i hs
    obtain rfl := eq_of_beq hs
    constructor
    · rintro ⟨⟩
      exact .whole
    · intro h
      generalize hs : a.stem = s at h
      cases h with
      | whole => rfl
      | below inner => exact absurd hs (ne_append_slash _ _)
  · rename_i hs
    split
    · rename_i hslash
      obtain ⟨inner, rfl⟩ := startsWith_iff.1 hslash
      have hinner : dropFirst (a.stem.length + 1) (a.stem ++ "/" ++ inner) = inner := by
        have hlength : (a.stem ++ "/").toList.length = a.stem.length + 1 := by
          simp [String.length_toList]
        rw [dropFirst, String.toList_append, List.drop_left' hlength, String.ofList_toList]
      rw [hinner, Option.some.injEq]
      constructor
      · rintro rfl
        exact .below inner
      · intro h
        generalize hs' : a.stem ++ "/" ++ inner = s at h
        cases h with
        | whole => exact absurd hs'.symm (ne_append_slash _ _)
        | below inner' =>
          rw [(String.append_right_inj _).1 hs']
    · rename_i hslash
      refine iff_of_false nofun fun h => ?_
      cases h with
      | whole => exact hs (beq_self_eq_true _)
      | below inner => exact hslash (startsWith_iff.2 ⟨inner, rfl⟩)

/-- The alias that gives the base is one of the longest that match. -/
lemma aliasBase?_eq_some (h : r.aliasBase? s = some base) : ∃ a, r.IsLongest s a ∧ a.Gives s base := by
  have hmem : ∀ {c}, c ∈ r.orderedAliases ↔ c ∈ r.aliases := mem_sortBy
  have hsorted := sortBy_descending (fun c : Alias => c.key.length) r.aliases
  obtain ⟨before, a, after, hsplit, ha, hbefore⟩ := List.findSome?_eq_some_iff.1 h
  rw [show sortBy _ r.aliases = before ++ a :: after from hsplit, List.pairwise_append,
    List.pairwise_cons] at hsorted
  have hgives := Alias.base?_eq_some_iff.1 ha
  refine ⟨a, ⟨hmem.1 (hsplit ▸ by simp), ⟨base, hgives⟩, fun c hc hmatch => ?_⟩, hgives⟩
  obtain ⟨base', hc'⟩ := hmatch
  have hcsplit : c ∈ before ++ a :: after := hsplit ▸ hmem.2 hc
  rcases List.mem_append.1 hcsplit with hfront | hback
  · cases (hbefore c hfront).symm.trans (Alias.base?_eq_some_iff.2 hc')
  · -- behind the first alias with a base the keys are not longer
    rcases List.mem_cons.1 hback with rfl | hback
    · exact Nat.le_refl _
    · exact hsorted.2.1.1 c hback

/-- The aliases give a base exactly where one of them matches. -/
lemma isSome_aliasBase?_iff : (r.aliasBase? s).isSome = true ↔ ∃ a ∈ r.aliases, a.Matches s := by
  constructor
  · intro h
    obtain ⟨base, hbase⟩ := Option.isSome_iff_exists.1 h
    obtain ⟨a, ha, -⟩ := aliasBase?_eq_some hbase
    exact ⟨a, ha.mem, ha.matched⟩
  · rintro ⟨a, ha, base, hgives⟩
    rw [Rules.aliasBase?, List.findSome?_isSome_iff]
    exact ⟨a, mem_sortBy.2 ha, by rw [Alias.base?_eq_some_iff.2 hgives]; rfl⟩

/-- The base of an alias is the only one. -/
lemma bases_of_aliasBase? (h : r.aliasBase? s = some base) (directory : Path) :
    r.bases s directory = [base] := by
  rw [Rules.aliasBase?] at h
  rw [Rules.bases, h]

/-- Without an alias a relative specifier has one base, below the directory of the importer. -/
lemma bases_of_isRelative (h : r.aliasBase? s = none) (hs : isRelative s = true) (directory : Path) :
    r.bases s directory = [directory.joinText s] := by
  rw [Rules.aliasBase?] at h
  rw [Rules.bases, h, hs, if_pos rfl]

/-- An alias claims the specifiers that are its key or continue the key without the slashes at its
end. -/
lemma claims_iff : r.claims s = true ↔
    ∃ a ∈ r.aliases, s = a.key ∨ ∃ inner, s = a.stem ++ "/" ++ inner := by
  simp only [Rules.claims, List.any_eq_true, Bool.or_eq_true, beq_iff_eq, startsWith_iff]

/-- A key is matched by its alias, with and without the slashes at its end. -/
lemma Alias.matches_key (a : Alias) : a.Matches a.key := by
  have hkey : a.key = a.stem ++ String.ofList (a.key.toList.reverse.takeWhile (· == '/')).reverse := by
    apply String.toList_inj.1
    rw [Alias.stem, trimEnd, String.toList_append, String.toList_ofList, String.toList_ofList,
      ← List.reverse_append, List.takeWhile_append_dropWhile, List.reverse_reverse]
  -- of the slashes that are cut off the first one is the slash behind the stem
  rcases hslashes : (a.key.toList.reverse.takeWhile (· == '/')).reverse with _ | ⟨c, cs⟩
  · rw [hslashes] at hkey
    rw [hkey]
    simpa using ⟨a.target, Alias.Gives.whole⟩
  · have hc : c = '/' := by
      have hmem : c ∈ a.key.toList.reverse.takeWhile (· == '/') := by
        rw [← List.mem_reverse, hslashes]
        exact List.mem_cons_self
      simpa using List.mem_takeWhile_imp hmem
    rw [hslashes, hc] at hkey
    refine ⟨a.target.joinText (String.ofList cs), ?_⟩
    rw [hkey]
    have hsplit : a.stem ++ String.ofList ('/' :: cs) = a.stem ++ "/" ++ String.ofList cs := by
      apply String.toList_inj.1
      simp
    rw [hsplit]
    exact .below _

end Aliases

/-! ## What a look-up comes to -/

/-- A specifier that names no place on disk: an empty one, or that of a virtual module. -/
def isVirtual (s : String) : Bool := s == "" || startsWith s "\x00" || startsWith s "virtual:"

section Finding

variable {r : Rules} {d : Disk} {specifier : String} {directory base : Path} {m : ModuleId}

/-- A virtual module is not found. -/
lemma find_of_isVirtual (h : isVirtual (bare specifier) = true) :
    r.find d specifier directory = .ok none := by
  unfold isVirtual at h
  simp only [Rules.find, h, if_true]
  rfl

/-- A base with a file decides. -/
lemma find_of_file {file : Path} (hname : isVirtual (bare specifier) = false)
    (h : r.probeAll d (r.bases (bare specifier) directory) = .ok (some file)) :
    r.find d specifier directory = .ok (some (moduleAt file)) := by
  unfold isVirtual at hname
  simp only [Rules.find, hname, h, Bool.false_eq_true, if_false]
  rfl

/-- Without a file the packages are asked. -/
lemma find_of_no_file (hname : isVirtual (bare specifier) = false)
    (h : r.probeAll d (r.bases (bare specifier) directory) = .ok none) :
    r.find d specifier directory = (r.package d (bare specifier)).map (Option.map moduleAt) := by
  unfold isVirtual at hname
  simp only [Rules.find, hname, h, Bool.false_eq_true, if_false]
  cases r.package d (bare specifier) <;> rfl

/-- Where a base cannot be asked for, nothing is found. -/
lemma find_of_error {e : Error} (hname : isVirtual (bare specifier) = false)
    (h : r.probeAll d (r.bases (bare specifier) directory) = .error e) :
    r.find d specifier directory = .error e := by
  unfold isVirtual at hname
  simp only [Rules.find, hname, h, Bool.false_eq_true, if_false]
  rfl

/-- The files of a single base. -/
lemma probeAll_singleton : r.probeAll d [base] = r.probe d base := by
  unfold Rules.probeAll
  rcases r.probe d base with e | _ | p <;> rfl

/-- A specifier that an alias claims names no package, and neither does one with a dot or a slash at
its front. -/
lemma package_eq_none {s : String}
    (h : (startsWith s "." || startsWith s "/" || r.claims s) = true) : r.package d s = .ok none := by
  rw [Rules.package, h]
  rfl

/-- Any other specifier names the package whose directory is there. -/
lemma package_eq_some {s name : String}
    (h : (startsWith s "." || startsWith s "/" || r.claims s) = false) (hname : r.packages = some name)
    (hthere : d.isDirectory ((r.root.joinText name).joinText (ModuleId.packageName s)) = .ok true) :
    r.package d s = .ok (some ((r.root.joinText name).joinText s)) := by
  simp only [Rules.package, h, hname, hthere, Bool.false_eq_true, if_false]
  rfl

end Finding

/-! ## Which specifiers may name a package -/

/-- A specifier that is the key of an alias without the slashes at the end of the key. No alias has
it for a key as it stands, or is followed by a slash in it. -/
structure Rules.IsTrimmedKey (r : Rules) (s : String) : Prop where
  trimmed : ∃ a ∈ r.aliases, s = a.stem
  unclaimed : ∀ a ∈ r.aliases, s ≠ a.key ∧ ∀ inner, s ≠ a.stem ++ "/" ++ inner

section Packages

variable {r : Rules} {s : String}

/-- No alias claims a key that has lost its slashes. -/
lemma Rules.IsTrimmedKey.claims_eq (h : r.IsTrimmedKey s) : r.claims s = false := by
  refine Bool.eq_false_iff.2 fun hclaims => ?_
  obtain ⟨a, ha, hkey | ⟨inner, hinner⟩⟩ := claims_iff.1 hclaims
  · exact (h.unclaimed a ha).1 hkey
  · exact (h.unclaimed a ha).2 inner hinner

/-- What an alias claims, an alias matches. -/
lemma exists_matches_of_claims (h : r.claims s = true) : ∃ a ∈ r.aliases, a.Matches s := by
  obtain ⟨a, ha, rfl | ⟨inner, rfl⟩⟩ := claims_iff.1 h
  · exact ⟨a, ha, a.matches_key⟩
  · exact ⟨a, ha, _, .below inner⟩

/-- What an alias matches, an alias claims, unless it is a key that has lost its slashes. -/
lemma claims_or_isTrimmedKey {a : Alias} (ha : a ∈ r.aliases) (hmatch : a.Matches s) :
    r.claims s = true ∨ r.IsTrimmedKey s := by
  rw [or_iff_not_imp_left, claims_iff]
  intro hclaims
  have hunclaimed : ∀ b ∈ r.aliases, s ≠ b.key ∧ ∀ inner, s ≠ b.stem ++ "/" ++ inner :=
    fun b hb => ⟨fun hkey => hclaims ⟨b, hb, .inl hkey⟩,
      fun inner hinner => hclaims ⟨b, hb, .inr ⟨inner, hinner⟩⟩⟩
  obtain ⟨base, hgives⟩ := hmatch
  cases hgives with
  | whole => exact ⟨⟨a, ha, rfl⟩, hunclaimed⟩
  | below inner => exact absurd rfl ((hunclaimed a ha).2 inner)

/-- Where no key ends in a slash, what an alias matches an alias claims. -/
lemma claims_of_matches {a : Alias} (hkeys : ∀ b ∈ r.aliases, b.stem = b.key) (ha : a ∈ r.aliases)
    (hmatch : a.Matches s) : r.claims s = true := by
  refine (claims_or_isTrimmedKey ha hmatch).resolve_right fun h => ?_
  obtain ⟨b, hb, hs⟩ := h.trimmed
  exact (h.unclaimed b hb).1 (hs.trans (hkeys b hb))

/-- **When an alias keeps a specifier from the packages.** The aliases give a base to exactly the
specifiers that they claim and to the keys that have lost the slashes at their end, which they do not
claim. Where this base leads to no file, a claimed specifier names nothing, whatever packages there
are; a key that has lost its slashes names the package of this name. -/
theorem aliasBase?_iff_claims (r : Rules) (s : String) :
    ((r.aliasBase? s).isSome = true ↔ r.claims s = true ∨ r.IsTrimmedKey s) ∧
    (r.IsTrimmedKey s → r.claims s = false) ∧
    ∀ (base : Path) (d : Disk) (specifier : String) (directory : Path),
      bare specifier = s → r.aliasBase? s = some base → r.probe d base = .ok none →
      (r.claims s = true → r.find d specifier directory = .ok none) ∧
      ∀ packages, r.IsTrimmedKey s → isVirtual s = false → startsWith s "." = false →
        startsWith s "/" = false → r.packages = some packages →
        d.isDirectory ((r.root.joinText packages).joinText (ModuleId.packageName s)) = .ok true →
        r.find d specifier directory =
          .ok (some (moduleAt ((r.root.joinText packages).joinText s))) := by
  refine ⟨?_, Rules.IsTrimmedKey.claims_eq, ?_⟩
  · rw [isSome_aliasBase?_iff]
    constructor
    · rintro ⟨a, ha, hmatch⟩
      exact claims_or_isTrimmedKey ha hmatch
    · rintro (hclaims | htrimmed)
      · exact exists_matches_of_claims hclaims
      · obtain ⟨a, ha, rfl⟩ := htrimmed.trimmed
        exact ⟨a, ha, _, .whole⟩
  · rintro base d specifier directory rfl hbase hprobe
    have hnofile : r.probeAll d (r.bases (bare specifier) directory) = .ok none := by
      rw [bases_of_aliasBase? hbase, probeAll_singleton, hprobe]
    constructor
    · intro hclaims
      rcases hvirtual : isVirtual (bare specifier) with _ | _
      · rw [find_of_no_file hvirtual hnofile, package_eq_none (by rw [hclaims, Bool.or_true])]
        rfl
      · exact find_of_isVirtual hvirtual
    · intro packages htrimmed hvirtual hdot hslash hpackages hthere
      have hfree : (startsWith (bare specifier) "." || startsWith (bare specifier) "/" ||
          r.claims (bare specifier)) = false := by
        rw [hdot, hslash, htrimmed.claims_eq]
        rfl
      rw [find_of_no_file hvirtual hnofile, package_eq_some hfree hpackages hthere]
      rfl

/-- With a slash at the end of its key the alias of a library that is not there gives way to the
package. Without the slash it does not. -/
theorem aliasBase?_iff_claims_of_package :
    let root : Path := ⟨.root, ["app"]⟩
    let rules (key : String) : Rules :=
      { root, aliases := [⟨key, root.under "src/lib"⟩], extensions := standardExtensions,
        packages := some "node_modules" }
    let d : Disk := ⟨Table.ofList [(["app"], .directory), (["app", "node_modules"], .directory),
      (["app", "node_modules", "lib"], .directory)], ["app"]⟩
    (rules "lib/").find d "lib" root = .ok (some "/app/node_modules/lib") ∧
      (rules "lib").find d "lib" root = .ok none := by
  intro root rules d
  have htrimmed : (rules "lib/").IsTrimmedKey "lib" := by
    refine ⟨⟨_, List.mem_singleton_self _, by decide⟩, fun a ha => ?_⟩
    rw [List.mem_singleton.1 ha]
    have hstem : Alias.stem ⟨"lib/", root.under "src/lib"⟩ = "lib" := by decide
    exact ⟨by decide, fun inner => hstem ▸ ne_append_slash "lib" inner⟩
  obtain ⟨-, -, hfind⟩ := aliasBase?_iff_claims (rules "lib/") "lib"
  obtain ⟨-, -, hfind'⟩ := aliasBase?_iff_claims (rules "lib") "lib"
  constructor
  · exact (hfind (root.under "src/lib") d "lib" root (by decide) (by decide) (by decide +kernel)).2
      "node_modules" htrimmed (by decide) (by decide) (by decide) rfl (by decide +kernel)
  · exact (hfind' (root.under "src/lib") d "lib" root (by decide) (by decide) (by decide +kernel)).1
      (by decide)

end Packages

end Lookup

end RouteAssets
