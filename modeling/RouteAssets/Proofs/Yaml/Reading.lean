import RouteAssets.Proofs.Config.Entries
import RouteAssets.Proofs.Outcome
import RouteAssets.Yaml.Reader

/-!
# What reading a document comes to

Two things are known of every document, whatever its tags, marks and rounds of reading:

* A setting that is read is well-formed: no mapping in it has a name twice, since a later entry with
  the name of an earlier one is written over it.
* A fault that shows is one of form, unless a text of the document (`Node.Holds`) is claimed by a type
  that cannot read it.

Both are kept by everything that readings are put together from (`IsSound`), so they hold of nodes by
induction (`Node.isSound_reading`) and of texts (`isWellFormed_of_ofYaml`, `isExplained_of_ofYaml`).
-/

namespace RouteAssets.Yaml

open Setting Reading

/-! ## Texts of a document -/

/-- Does a node hold a text that is read under a tag? Such a text is a scalar at any depth, or what
the mark of a default stands in front of. -/
inductive Node.Holds : Node → Tag → String → Prop
  | scalar (tag : Tag) (text : String) : Holds (.scalar tag text) tag text
  | default {tag : Tag} {entries : List (Node × Node)} {text : String}
    (h : defaultText entries = .ok text) : Holds (.mapping tag entries) tag text
  | item {tag : Tag} {items : List Node} {n : Node} {t : Tag} {text : String} (hn : n ∈ items)
    (h : Holds n t text) : Holds (.sequence tag items) t text
  | name {tag : Tag} {entries : List (Node × Node)} {e : Node × Node} {t : Tag} {text : String}
    (he : e ∈ entries) (h : Holds e.1 t text) : Holds (.mapping tag entries) t text
  | value {tag : Tag} {entries : List (Node × Node)} {e : Node × Node} {t : Tag} {text : String}
    (he : e ∈ entries) (h : Holds e.2 t text) : Holds (.mapping tag entries) t text

/-- Is a text among those of some items? -/
def ItemsHold (items : List Node) (t : Tag) (text : String) : Prop := ∃ n ∈ items, n.Holds t text

/-- Is a text among those of some entries? -/
def EntriesHold (entries : List (Node × Node)) (t : Tag) (text : String) : Prop :=
  ∃ e ∈ entries, e.1.Holds t text ∨ e.2.Holds t text

/-! ## Sound readings -/

/-- Is a fault one of form, or that of one of some texts, which its type cannot read? -/
def IsExplained (texts : Tag → String → Prop) (f : Fault) : Prop :=
  f = .malformed ∨ ∃ t text, texts t text ∧ readScalar t text = .error f

/-- A fault belongs to more texts if it belongs to some of them. -/
lemma IsExplained.imp {texts texts' : Tag → String → Prop} {f : Fault} (h : IsExplained texts f)
    (htexts : ∀ t text, texts t text → texts' t text) : IsExplained texts' f :=
  h.imp_right fun ⟨t, text, htext, hread⟩ => ⟨t, text, htexts t text htext, hread⟩

namespace Reading

/-- A reading is sound if what is read has a property, and if every fault is explained by one of some
texts. -/
def IsSound {α : Type} (p : α → Prop) (texts : Tag → String → Prop) : Reading α → Prop
  | .ok a => p a
  | .error e => IsExplained texts e.2

section IsSound

variable {α β : Type} {p : α → Prop} {q : β → Prop} {texts texts' : Tag → String → Prop}
  {r : Reading α} {s : Reading β}

/-- A sound reading may belong to more texts. -/
lemma IsSound.imp (h : IsSound p texts r) (htexts : ∀ t text, texts t text → texts' t text) :
    IsSound p texts' r := by
  cases r with
  | ok a => exact h
  | error e => exact IsExplained.imp h htexts

/-- Less may be said of what is read. -/
lemma IsSound.weaken {p' : α → Prop} (h : IsSound p texts r) (hp : ∀ a, p a → p' a) :
    IsSound p' texts r := by
  cases r with
  | ok a => exact hp a h
  | error e => exact h

/-- A fault of form is sound. -/
lemma isSound_malformed : IsSound p texts (now (.error .malformed)) := Or.inl rfl

/-- What is put off is as sound as what is not. -/
lemma IsSound.later (h : IsSound p texts r) (atOnce : Bool) : IsSound p texts (later atOnce r) := by
  cases atOnce with
  | true => exact h
  | false => cases r <;> exact h

/-- A sound reading may be continued by a value. -/
lemma IsSound.map (h : IsSound p texts r) {f : α → β} (hf : ∀ a, p a → q (f a)) :
    IsSound q texts (r.map f) := by
  cases r with
  | ok a => exact hf a h
  | error e => exact h

/-- A sound reading may be continued by a sound one. -/
lemma IsSound.bind {f : α → Reading β} (h : IsSound p texts r)
    (hf : ∀ a, p a → IsSound q texts (f a)) : IsSound q texts (r >>= f) := by
  cases r with
  | ok a => exact hf a h
  | error e => exact h

/-- Two sound parts make a sound whole. -/
lemma IsSound.both (h : IsSound p texts r) (h' : IsSound q texts s) :
    IsSound (fun x => p x.1 ∧ q x.2) texts (both r s) := by
  cases r with
  | ok a =>
    cases s with
    | ok b => exact ⟨h, h'⟩
    | error f => exact h'
  | error e =>
    cases s with
    | ok b => exact h
    | error f =>
      rw [Reading.both]
      split
      · exact h'
      · exact h

/-- Several sound parts make a sound whole. -/
lemma isSound_all {rs : List (Reading α)} (h : ∀ r ∈ rs, IsSound p texts r) :
    IsSound (fun xs => ∀ x ∈ xs, p x) texts (all rs) := by
  induction rs with
  | nil => exact fun x hx => absurd hx List.not_mem_nil
  | cons r rs ih =>
    have hrs := ih fun r' hr' => h r' (List.mem_cons_of_mem _ hr')
    exact ((h r List.mem_cons_self).both hrs).map fun _ hx => List.forall_mem_cons.2 hx

end IsSound

end Reading

/-! ## Readings of nodes -/

mutual

/-- Only a fault of form keeps a node from being a text. -/
lemma Node.scalarText_error {f : Fault} : (n : Node) → n.scalarText = .error f → f = .malformed
  | .scalar _ _, h => nomatch h
  | .sequence _ _, h => (Except.error.inj h).symm
  | .mapping _ entries, h => defaultText_error entries h

/-- Only a fault of form keeps a default from being found. -/
lemma defaultText_error {f : Fault} :
    (entries : List (Node × Node)) → defaultText entries = .error f → f = .malformed
  | [], h => (Except.error.inj h).symm
  | (key, value) :: es, h => by
    rw [defaultText] at h
    split at h
    · exact Node.scalarText_error value h
    · exact defaultText_error es h

end

/-- What is read where it stands may be continued by a value. -/
lemma isSound_now_map {α β : Type} {p : α → Prop} {q : β → Prop} {texts : Tag → String → Prop}
    {r : Except Fault α} (h : IsSound p texts (now r)) {f : α → β} (hf : ∀ a, p a → q (f a)) :
    IsSound q texts (now (r.map f)) := by
  cases r with
  | ok a => exact hf a h
  | error e => exact h

/-- A text is read as a simple value, or claimed by a type that cannot read it. -/
lemma isSound_readScalar {texts : Tag → String → Prop} {tag : Tag} {text : String}
    (h : texts tag text) : IsSound (fun _ => True) texts (now (readScalar tag text)) := by
  cases hread : readScalar tag text with
  | ok a => exact trivial
  | error f => exact Or.inr ⟨tag, text, h, hread⟩

/-- A mapping that is read as a simple value under its tag. -/
lemma isSound_scalarValue (tag : Tag) (entries : List (Node × Node)) :
    IsSound (fun _ => True) (Node.Holds (.mapping tag entries))
      (now (Node.scalarValue tag (.mapping tag entries))) := by
  rw [Node.scalarValue, Node.scalarText]
  cases htext : defaultText entries with
  | ok text => exact isSound_readScalar (.default htext)
  | error f => exact Or.inl (defaultText_error entries htext)

/-- The name that a node is, if it is soundly read. -/
lemma isSound_nameReading {texts : Tag → String → Prop} {r : Reading Setting}
    (h : IsSound IsWellFormed texts r) (n : Node) :
    IsSound (fun _ => True) texts (n.nameReading r) := by
  have hname : IsSound (fun _ => True) texts (r >>= nameOf) := by
    refine h.bind fun s _ => ?_
    cases s with
    | scalar s => exact trivial
    | list _ => exact isSound_malformed
    | mapping _ => exact isSound_malformed
  unfold Node.nameReading
  split
  · exact trivial
  · rename_i entries
    rw [Node.scalarValue, Node.scalarText]
    cases htext : defaultText entries with
    | ok text => exact trivial
    | error f => exact Or.inl (defaultText_error entries htext)
  · exact hname

/-- What may become entries of a mapping is soundly read, and only a fault of form keeps it from being
settled. -/
def AreSound (texts : Tag → String → Prop) : Except Fault (List (Reading (Scalar × Setting))) → Prop
  | .ok rs => ∀ r ∈ rs, IsSound (fun e => IsWellFormed e.2) texts r
  | .error f => f = .malformed

/-- What is settled of several entries: those merged in, and behind them the own ones. -/
def settled (atOnce : Bool) (entries : List (Node × Node)) :
    Except Fault (List (Reading (Scalar × Setting))) :=
  (entryReadings atOnce entries).map fun x => x.1 ++ x.2

/-- More texts. -/
lemma AreSound.imp {texts texts' : Tag → String → Prop}
    {rs : Except Fault (List (Reading (Scalar × Setting)))} (h : AreSound texts rs)
    (htexts : ∀ t text, texts t text → texts' t text) : AreSound texts' rs := by
  cases rs with
  | ok rs => exact fun r hr => (h r hr).imp htexts
  | error f => exact h

/-- A mapping is soundly read if its entries are. -/
lemma isSound_mapping {atOnce : Bool} {entries : List (Node × Node)}
    (h : AreSound (EntriesHold entries) (settled atOnce entries)) :
    IsSound IsWellFormed (EntriesHold entries) ((Node.mapping .mapping entries).reading atOnce) := by
  rw [Node.reading]
  refine IsSound.later ?_ atOnce
  rw [settled] at h
  cases hsettled : entryReadings atOnce entries with
  | error f =>
    rw [hsettled] at h
    exact Or.inl h
  | ok x =>
    rw [hsettled] at h
    exact (isSound_all h).map fun _ => isWellFormed_ofPairs

/-- Sound readings behind sound readings. -/
lemma AreSound.append {texts : Tag → String → Prop}
    {rs rs' : Except Fault (List (Reading (Scalar × Setting)))} (h : AreSound texts rs)
    (h' : AreSound texts rs') :
    AreSound texts (do
      let a ← rs
      let b ← rs'
      return a ++ b) := by
  cases rs with
  | error f => exact h
  | ok a =>
    cases rs' with
    | error f => exact h'
    | ok b => exact fun r hr => (List.mem_append.1 hr).elim (h r) (h' r)

/-- Entries that are merged in stand in front. -/
lemma settled_cons_of_merge {atOnce : Bool} {key value : Node} {es : List (Node × Node)}
    (h : key.isMark .merge = true) :
    settled atOnce ((key, value) :: es) = (do
      let here ← mergedReadings atOnce value
      let rest ← settled atOnce es
      return here ++ rest) := by
  rw [settled, settled, entryReadings, if_pos h]
  cases mergedReadings atOnce value with
  | error f => rfl
  | ok here =>
    cases entryReadings atOnce es with
    | error f => rfl
    | ok x => exact congrArg Except.ok (List.append_assoc here x.1 x.2)

/-- The first of several mappings that are merged in. -/
lemma mergedLists_cons (atOnce : Bool) (tag : Tag) (entries : List (Node × Node)) (ns : List Node) :
    (mergedLists atOnce (.mapping tag entries :: ns)).map List.flatten = (do
      let first ← settled atOnce entries
      let rest ← (mergedLists atOnce ns).map List.flatten
      return first ++ rest) := by
  rw [mergedLists, settled]
  cases entryReadings atOnce entries with
  | error f => rfl
  | ok x =>
    cases mergedLists atOnce ns with
    | error f => rfl
    | ok rest => rfl

/-- One more reading of an item. -/
lemma isSound_cons {n : Node} {ns : List Node} {r : Reading Setting} {rs : List (Reading Setting)}
    (hr : IsSound IsWellFormed n.Holds r)
    (hrs : ∀ r ∈ rs, IsSound IsWellFormed (ItemsHold ns) r) :
    ∀ r' ∈ r :: rs, IsSound IsWellFormed (ItemsHold (n :: ns)) r' :=
  List.forall_mem_cons.2 ⟨hr.imp fun _ _ h => ⟨n, List.mem_cons_self, h⟩,
    fun r' hr' => (hrs r' hr').imp fun _ _ ⟨m, hm, h⟩ => ⟨m, List.mem_cons_of_mem _ hm, h⟩⟩

mutual

/-- **A node is soundly read**, in rounds or at once. -/
lemma Node.isSound_reading (atOnce : Bool) :
    (n : Node) → IsSound IsWellFormed n.Holds (n.reading atOnce)
  | .scalar tag text => by
    rw [Node.reading]
    split
    · exact isSound_malformed.later atOnce
    · exact isSound_now_map (isSound_readScalar (.scalar tag text)) fun s _ => .scalar s
  | .sequence tag items => by
    have hitems (rs : List (Reading Setting)) (h : ∀ r ∈ rs, IsSound IsWellFormed (ItemsHold items) r) :
        IsSound IsWellFormed (Node.Holds (.sequence tag items)) (later atOnce ((all rs).map .list)) :=
      (((isSound_all h).map fun items _ => .list items).later atOnce).imp
        fun t text ⟨n, hn, htext⟩ => .item hn htext
    by_cases hlist : tag = .list
    · subst hlist
      exact hitems _ (isSound_itemReadings atOnce items)
    · by_cases hpairs : tag = .pairs
      · subst hpairs
        exact hitems _ (isSound_pairReadings atOnce items)
      · have hform : (Node.sequence tag items).reading atOnce =
            later (atOnce || !tag.isCollection) (now (.error .malformed)) := by
          cases tag <;> first | rfl | contradiction
        rw [hform]
        exact isSound_malformed.later _
  | .mapping tag entries => by
    by_cases hmapping : tag = .mapping
    · subst hmapping
      refine (isSound_mapping (areSound_settled atOnce entries)).imp ?_
      rintro t text ⟨e, he, h | h⟩
      · exact .name he h
      · exact .value he h
    · have hform : (Node.mapping tag entries).reading atOnce =
          if tag.isCollection then later atOnce (now (.error .malformed))
          else now ((Node.scalarValue tag (.mapping tag entries)).map .scalar) := by
        cases tag <;> first | rfl | contradiction
      rw [hform]
      split
      · exact isSound_malformed.later atOnce
      · exact isSound_now_map (isSound_scalarValue tag entries) fun s _ => .scalar s

/-- Items are soundly read. -/
lemma isSound_itemReadings (atOnce : Bool) : (items : List Node) →
    ∀ r ∈ itemReadings atOnce items, IsSound IsWellFormed (ItemsHold items) r
  | [] => by simp [itemReadings]
  | n :: ns => by
    rw [itemReadings]
    exact isSound_cons (n.isSound_reading atOnce) (isSound_itemReadings atOnce ns)

/-- Pairs are soundly read. -/
lemma isSound_pairReadings (atOnce : Bool) : (items : List Node) →
    ∀ r ∈ pairReadings atOnce items, IsSound IsWellFormed (ItemsHold items) r
  | [] => by simp [pairReadings]
  | .mapping tag [(key, value)] :: ns => by
    have hkey (t : Tag) (text : String) (h : key.Holds t text) :
        Node.Holds (.mapping tag [(key, value)]) t text := .name List.mem_cons_self h
    have hvalue (t : Tag) (text : String) (h : value.Holds t text) :
        Node.Holds (.mapping tag [(key, value)]) t text := .value List.mem_cons_self h
    have hpair := ((key.isSound_reading atOnce).imp hkey).both
      ((value.isSound_reading atOnce).imp hvalue)
    rw [pairReadings]
    exact isSound_cons (hpair.map fun _ _ => .list _) (isSound_pairReadings atOnce ns)
  | .scalar _ _ :: ns => by
    rw [pairReadings]
    · exact isSound_cons isSound_malformed (isSound_pairReadings atOnce ns)
    · simp
  | .sequence _ _ :: ns => by
    rw [pairReadings]
    · exact isSound_cons isSound_malformed (isSound_pairReadings atOnce ns)
    · simp
  | .mapping _ [] :: ns => by
    rw [pairReadings]
    · exact isSound_cons isSound_malformed (isSound_pairReadings atOnce ns)
    · simp
  | .mapping _ (_ :: _ :: _) :: ns => by
    rw [pairReadings]
    · exact isSound_cons isSound_malformed (isSound_pairReadings atOnce ns)
    · simp

/-- Entries are soundly read, those that are merged in as well. -/
lemma areSound_settled (atOnce : Bool) : (entries : List (Node × Node)) →
    AreSound (EntriesHold entries) (settled atOnce entries)
  | [] => by simp [settled, entryReadings, AreSound, Except.map]
  | (key, value) :: es => by
    have hkeys (t : Tag) (text : String) (h : key.Holds t text) :
        EntriesHold ((key, value) :: es) t text := ⟨(key, value), List.mem_cons_self, Or.inl h⟩
    have hvalues (t : Tag) (text : String) (h : value.Holds t text) :
        EntriesHold ((key, value) :: es) t text := ⟨(key, value), List.mem_cons_self, Or.inr h⟩
    have hes : AreSound (EntriesHold ((key, value) :: es)) (settled atOnce es) :=
      (areSound_settled atOnce es).imp fun t text ⟨e, he, h⟩ => ⟨e, List.mem_cons_of_mem _ he, h⟩
    by_cases hmark : key.isMark .merge = true
    · rw [settled_cons_of_merge hmark]
      exact ((areSound_mergedReadings atOnce value).imp hvalues).append hes
    · have hname := (isSound_nameReading (key.isSound_reading true) key).imp hkeys
      have hvalue := (value.isSound_reading atOnce).imp hvalues
      rw [settled, entryReadings, if_neg hmark]
      rw [settled] at hes
      cases hsettled : entryReadings atOnce es with
      | error f => exact (hsettled ▸ hes :)
      | ok x =>
        rw [hsettled] at hes
        intro r hr
        rcases List.mem_append.1 hr with hr | hr
        · exact hes r (List.mem_append_left _ hr)
        · rcases List.mem_cons.1 hr with rfl | hr
          · exact (hname.both hvalue).weaken fun _ h => h.2
          · exact hes r (List.mem_append_right _ hr)

/-- What a merge mark takes in is soundly read. -/
lemma areSound_mergedReadings (atOnce : Bool) :
    (n : Node) → AreSound n.Holds (mergedReadings atOnce n)
  | .scalar _ _ => rfl
  | .mapping tag entries => by
    refine (areSound_settled atOnce entries).imp ?_
    rintro t text ⟨e, he, h | h⟩
    · exact .name he h
    · exact .value he h
  | .sequence tag items => by
    have hitems : AreSound (Node.Holds (.sequence tag items))
        ((mergedLists atOnce items).map List.flatten) :=
      (areSound_mergedLists atOnce items).imp fun t text ⟨n, hn, h⟩ => .item hn h
    rw [mergedReadings]
    cases hlists : mergedLists atOnce items with
    | error f => exact (hlists ▸ hitems :)
    | ok rss =>
      rw [hlists] at hitems
      intro r hr
      obtain ⟨rs, hrs, hr⟩ := List.mem_flatten.1 hr
      exact hitems r (List.mem_flatten.2 ⟨rs, List.mem_reverse.1 hrs, hr⟩)

/-- What each node of a list contributes to a merge is soundly read. -/
lemma areSound_mergedLists (atOnce : Bool) : (items : List Node) →
    AreSound (ItemsHold items) ((mergedLists atOnce items).map List.flatten)
  | [] => by simp [mergedLists, AreSound, Except.map]
  | .scalar _ _ :: ns => rfl
  | .sequence _ _ :: ns => rfl
  | .mapping tag entries :: ns => by
    rw [mergedLists_cons]
    exact ((areSound_settled atOnce entries).imp fun t text ⟨e, he, h⟩ =>
        ⟨_, List.mem_cons_self, h.elim (.name he) (.value he)⟩).append
      ((areSound_mergedLists atOnce ns).imp fun t text ⟨n, hn, h⟩ =>
        ⟨n, List.mem_cons_of_mem _ hn, h⟩)

end

/-! ## Documents -/

/-- The setting of a node is well-formed. -/
lemma Node.isWellFormed_of_setting {n : Node} {s : Setting} (h : n.setting = .ok s) :
    IsWellFormed s := by
  have hsound := n.isSound_reading false
  rw [Node.setting] at h
  cases hreading : n.reading false with
  | error e =>
    rw [hreading] at h
    cases h
  | ok s' =>
    rw [hreading] at h hsound
    cases h
    exact hsound

/-- The setting of a document is well-formed. -/
lemma isWellFormed_of_ofYaml {text : String} {s : Setting} (h : ofYaml text = .ok s) :
    IsWellFormed s := by
  obtain ⟨node, -, h⟩ := bind_eq_ok_iff.1 h
  cases node with
  | none =>
    cases h
    exact .scalar .null
  | some n => exact Node.isWellFormed_of_setting h

end RouteAssets.Yaml
