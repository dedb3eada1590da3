import RouteAssets.Proofs.Script.Mention

/-!
# Where the dialect of a component comes from

A component declares its dialect by the value of an attribute: the first one named `lang`, in the first
element that has one (`Listing.declaredDialect`). What is read is something else, the first mention in
the text of the attributes, in the first element that has one (`Listing.IsMentioned`).

* **Attributes** are written one by one (`Attribute`), and so is a component (`Listing`); with the value
  of the attribute for the language left open it is an `Outline`.
* **Dialects**: the one that is read is the one that is mentioned (`Listing.readDialect_eq_iff`), and
  what an outline is filled with is read unless there is a mention before
  (`Outline.readDialect_filled`).

So the dialect follows the declaration exactly if nothing mentions a language before
(`readDialect_exact`). An attribute for the language without a value, with an empty one, or with a mark
of the other kind in it is no mention with this value.
-/

namespace RouteAssets.Script.Component

open RouteAssets.Text

/-! ## Attributes -/

/-- The value of an attribute as it is written: blanks, an equals sign, blanks, and a text between two
equal marks. -/
structure AttributeValue where
  blanks : List Char
  blanks' : List Char
  mark : Char
  text : List Char
  isBlank_blanks : ∀ c ∈ blanks, isBlank c = true
  isBlank_blanks' : ∀ c ∈ blanks', isBlank c = true
  isMark : IsMark mark
  mark_not_mem : mark ∉ text

/-- Is it a character of the name of an attribute? -/
def isNameChar (c : Char) : Bool :=
  !isBlank c && c != '=' && c != '>' && c != '\x22' && c != '\x27'

/-- An attribute as it is written: blanks, a name without blanks, equals signs, quotation marks and ends
of tags, and a value if it has one. -/
structure Attribute where
  space : List Char
  name : List Char
  value? : Option AttributeValue
  space_ne_nil : space ≠ []
  isBlank_space : ∀ c ∈ space, isBlank c = true
  name_ne_nil : name ≠ []
  all_name : name.all isNameChar = true

/-- The text of a value. -/
def AttributeValue.written (v : AttributeValue) : List Char :=
  v.blanks ++ '=' :: (v.blanks' ++ v.mark :: (v.text ++ [v.mark]))

/-- The text of an attribute. -/
def Attribute.written (a : Attribute) : List Char :=
  a.space ++ (a.name ++ a.value?.elim [] AttributeValue.written)

/-- The value that an attribute declares: nothing if it has none. -/
def Attribute.value (a : Attribute) : List Char := a.value?.elim [] AttributeValue.text

/-- Is it the attribute for the language? -/
def Attribute.isLang (a : Attribute) : Bool := a.name == "lang".toList

/-- What there is of a script element beside its attributes. -/
structure Shape where
  name : List Char
  space : List Char
  body : List Char
  closing : List Char
  spells : Spells "<script".toList name
  isBlank_space : ∀ c ∈ space, isBlank c = true
  noClosing : ¬ HasClosing body
  isClosing : IsClosing closing

/-- A script element with its attributes one by one. -/
structure ListedElement where
  shape : Shape
  attributes : List Attribute

section Attributes

variable {cs ds : List Char}

/-- Attributes behind attributes. -/
lemma IsAttributes.append (h : IsAttributes cs) (h' : IsAttributes ds) : IsAttributes (cs ++ ds) := by
  induction h with
  | nil => exact h'
  | plain hc hcs ih => exact .plain hc ih
  | @quoted mark value cs hmark hvalue hcs ih =>
    have htext : mark :: (value ++ mark :: cs) ++ ds = mark :: (value ++ mark :: (cs ++ ds)) := by simp
    rw [htext]
    exact .quoted hmark hvalue ih

/-- Plain characters are attributes. -/
lemma isAttributes_of_forall (h : ∀ c ∈ cs, c ≠ '>' ∧ ¬ IsMark c) : IsAttributes cs := by
  induction cs with
  | nil => exact .nil
  | cons c cs ih =>
    obtain ⟨hc, hcs⟩ := List.forall_mem_cons.1 h
    exact .plain hc (ih hcs)

/-- Blanks are attributes. -/
lemma isAttributes_of_isBlank (h : ∀ c ∈ cs, isBlank c = true) : IsAttributes cs := by
  apply isAttributes_of_forall
  intro c hc
  refine ⟨?_, fun hmark => ?_⟩
  · rintro rfl
    cases h _ hc
  · cases (h c hc).symm.trans hmark.isBlank_eq_false

/-- The text of an attribute is one of attributes. -/
lemma Attribute.isAttributes_written (a : Attribute) : IsAttributes a.written := by
  refine (isAttributes_of_isBlank a.isBlank_space).append (.append ?_ ?_)
  · apply isAttributes_of_forall
    intro c hc
    have hname := List.all_eq_true.1 a.all_name c hc
    simp only [isNameChar, Bool.and_eq_true, bne_iff_ne] at hname
    exact ⟨hname.1.1.2, fun hmark => hmark.elim hname.1.2 hname.2⟩
  · cases a.value? with
    | none => exact .nil
    | some v =>
      refine (isAttributes_of_isBlank v.isBlank_blanks).append (.plain ?_ ?_)
      · exact ⟨by decide, by simp [IsMark]⟩
      · exact (isAttributes_of_isBlank v.isBlank_blanks').append
          (.quoted v.isMark v.mark_not_mem .nil)

/-- The text of some attributes is one of attributes. -/
lemma isAttributes_flatMap (as : List Attribute) : IsAttributes (as.flatMap Attribute.written) := by
  induction as with
  | nil => exact .nil
  | cons a as ih => exact a.isAttributes_written.append ih

/-- The text of an attribute begins with a blank. -/
lemma Attribute.head?_written (a : Attribute) (rest : List Char) :
    (a.written ++ rest).head?.all isBlank = true := by
  obtain ⟨c, space, hspace⟩ := List.exists_cons_of_ne_nil a.space_ne_nil
  have hc := a.isBlank_space c (by simp [hspace])
  simp [Attribute.written, hspace, hc]

end Attributes

/-- The text of the attributes of an element. -/
def ListedElement.written (e : ListedElement) : List Char :=
  e.attributes.flatMap Attribute.written ++ e.shape.space

/-- The element as it is written. -/
def ListedElement.element (e : ListedElement) : Element where
  name := e.shape.name
  attributes := e.written
  body := e.shape.body
  closing := e.shape.closing
  spells := e.shape.spells
  isAttributes :=
    (isAttributes_flatMap e.attributes).append (isAttributes_of_isBlank e.shape.isBlank_space)
  startsBlank := by
    unfold ListedElement.written
    cases e.attributes with
    | nil =>
      cases hspace : e.shape.space with
      | nil => rfl
      | cons c space => exact e.shape.isBlank_space c (by simp [hspace])
    | cons a as =>
      rw [List.flatMap_cons, List.append_assoc]
      exact a.head?_written _
  noClosing := e.shape.noClosing
  isClosing := e.shape.isClosing

/-- The value of the first attribute of an element for the language, if there is one. -/
def ListedElement.declared? (e : ListedElement) : Option (List Char) :=
  (e.attributes.find? Attribute.isLang).map Attribute.value

/-- A component that is put together from elements with their attributes one by one. -/
structure Listing where
  parts : List (Surrounding × ListedElement)
  last : Surrounding

/-- The component as it is written. -/
def Listing.assembly (l : Listing) : Assembly where
  parts := l.parts.map fun p => (p.1, p.2.element)
  last := l.last

/-- The dialect that a component declares: that of the value of the first attribute for the language,
in the first element that has one. -/
def Listing.declaredDialect (l : Listing) : Dialect :=
  match l.parts.findSome? fun p => p.2.declared? with
  | some value => dialectOfLang value
  | none => .javascript

/-- The dialect that is read from a component. -/
def Listing.readDialect (l : Listing) : Dialect := (script (String.ofList l.assembly.text)).2

/-- The dialect of a component by what its attributes mention: that of the first mention in the first
element that has one, and without a mention the dialect that nothing is said for. -/
inductive Listing.IsMentioned (l : Listing) : Dialect → Prop where
  | none (h : ∀ p ∈ l.parts, ¬ Mentions p.2.written) : IsMentioned l .javascript
  | first {before after : List (Surrounding × ListedElement)} {p : Surrounding × ListedElement}
    {value : List Char} (hparts : l.parts = before ++ p :: after)
    (hbefore : ∀ q ∈ before, ¬ Mentions q.2.written) (h : IsFirstMention p.2.written value) :
    IsMentioned l (dialectOfLang value)

/-- A component without the value of its attribute for the language: the first one of the first element
that has one. -/
structure Outline where
  earlier : List (Surrounding × ListedElement)
  surrounding : Surrounding
  shape : Shape
  front : List Attribute
  space : List Char
  given : AttributeValue
  behind : List Attribute
  later : List (Surrounding × ListedElement)
  last : Surrounding
  space_ne_nil : space ≠ []
  isBlank_space : ∀ c ∈ space, isBlank c = true
  noEarlier : ∀ p ∈ earlier, p.2.declared? = none
  noFront : ∀ a ∈ front, a.isLang = false

namespace Outline

variable (o : Outline) {value : List Char}

/-- The attribute for the language with a plain value. -/
def slot (value : List Char) (h : IsPlain value) : Attribute where
  space := o.space
  name := "lang".toList
  value? := some { o.given with
    text := value
    mark_not_mem := fun hmem => h.noMark _ hmem o.given.isMark }
  space_ne_nil := o.space_ne_nil
  isBlank_space := o.isBlank_space
  name_ne_nil := by decide
  all_name := by decide

/-- The component with a plain value. -/
def filled (value : List Char) (h : IsPlain value) : Listing where
  parts := o.earlier ++ (o.surrounding,
    { shape := o.shape, attributes := o.front ++ o.slot value h :: o.behind }) :: o.later
  last := o.last

/-- What stands in the tag in front of the value. -/
def frontText : List Char :=
  o.front.flatMap Attribute.written ++ o.space ++
    opening o.given.blanks o.given.blanks' o.given.mark []

/-- An earlier element mentions a language, or the tag does in front of the value. -/
def MentionsBefore : Prop := (∃ p ∈ o.earlier, Mentions p.2.written) ∨ Mentions o.frontText

end Outline

section Dialects

variable {cs value : List Char} {l : Listing} {o : Outline}

instance (o : Outline) : Decidable o.MentionsBefore :=
  inferInstanceAs (Decidable ((∃ p ∈ o.earlier, Mentions p.2.written) ∨ Mentions o.frontText))

/-- The dialect is read from the attributes of the elements. -/
lemma Listing.readDialect_eq (l : Listing) :
    l.readDialect =
      match l.parts.findSome? fun p => langValue? false p.2.written with
      | some value => dialectOfLang value
      | none => .javascript := by
  have hblocks : blocks l.assembly.text = l.parts.map fun p => p.2.element.block := by
    rw [Assembly.text, Assembly.blocks_textOf, Listing.assembly, List.map_map]
    rfl
  unfold readDialect script dialectOf
  simp only [String.toList_ofList, hblocks, List.findSome?_map]
  rfl

/-- The dialect that is read is the one that is mentioned. -/
lemma Listing.readDialect_eq_iff {dialect : Dialect} :
    l.readDialect = dialect ↔ l.IsMentioned dialect := by
  rw [readDialect_eq]
  constructor
  · rintro rfl
    cases hfound : l.parts.findSome? fun p => langValue? false p.2.written with
    | none =>
      refine .none fun p hp => ?_
      have hnone := List.findSome?_eq_none_iff.1 hfound p hp
      simp [mentions_iff, hnone]
    | some value =>
      obtain ⟨before, p, after, hparts, hvalue, hbefore⟩ := List.findSome?_eq_some_iff.1 hfound
      refine .first hparts (fun q hq => ?_) (langValue?_eq_some_iff.1 hvalue)
      simp [mentions_iff, hbefore q hq]
  · intro h
    cases h with
    | none hparts =>
      have hnone := List.findSome?_eq_none_iff.2
        fun p hp => langValue?_eq_none_of_not_mentions (hparts p hp)
      rw [hnone]
    | first hparts hbefore hvalue =>
      have hsome := List.findSome?_eq_some_iff.2 ⟨_, _, _, hparts,
        langValue?_eq_some_iff.2 hvalue,
        fun q hq => langValue?_eq_none_of_not_mentions (hbefore q hq)⟩
      rw [hsome]

namespace Outline

/-- The attributes of the element that has the value. -/
lemma written_filled (h : IsPlain value) :
    ({ shape := o.shape, attributes := o.front ++ o.slot value h :: o.behind } :
      ListedElement).written =
      (o.front.flatMap Attribute.written ++ o.space) ++
        opening o.given.blanks o.given.blanks' o.given.mark
          (value ++ o.given.mark :: (o.behind.flatMap Attribute.written ++ o.shape.space)) := by
  have hlang : (o.slot value h).written =
      o.space ++ opening o.given.blanks o.given.blanks' o.given.mark (value ++ [o.given.mark]) := by
    simp [Attribute.written, AttributeValue.written, slot, opening, toList_lang]
  unfold ListedElement.written
  rw [List.flatMap_append, List.flatMap_cons, hlang]
  simp [opening]

/-- What is found in that element: a mention in front of the value, or else the value. -/
lemma langValue?_filled (h : IsPlain value) :
    langValue? false ({ shape := o.shape, attributes := o.front ++ o.slot value h :: o.behind } :
      ListedElement).written = (langValue? false o.frontText).or (some value) := by
  have hboundary : ((o.front.flatMap Attribute.written ++ o.space).getLast?.map isWord).getD false =
      false := by
    obtain hnil | ⟨before, c, hspace⟩ := List.eq_nil_or_concat' o.space
    · exact absurd hnil o.space_ne_nil
    · rw [hspace, ← List.append_assoc, List.getLast?_concat]
      exact isWord_of_isBlank (o.isBlank_space c (by simp [hspace]))
  rw [written_filled, langValue?_append_opening o.given.isBlank_blanks o.given.isBlank_blanks'
    o.given.isMark, hboundary, langValue?_opening o.given.isBlank_blanks o.given.isBlank_blanks'
    o.given.isMark h]
  rfl

/-- The value that is declared is the one that the component is filled with. -/
lemma declaredDialect_filled (h : IsPlain value) :
    (o.filled value h).declaredDialect = dialectOfLang value := by
  have hearlier : (o.earlier.findSome? fun p => p.2.declared?) = none :=
    List.findSome?_eq_none_iff.2 o.noEarlier
  have hfront : o.front.find? Attribute.isLang = none :=
    List.find?_eq_none.2 fun a ha => by simp [o.noFront a ha]
  have hslot : (o.slot value h).isLang = true := beq_self_eq_true _
  have hdeclared : ({ shape := o.shape, attributes := o.front ++ o.slot value h :: o.behind } :
      ListedElement).declared? = some value := by
    rw [ListedElement.declared?, List.find?_append, hfront, List.find?_cons, hslot]
    rfl
  rw [Listing.declaredDialect, filled, List.findSome?_append, hearlier, List.findSome?_cons, hdeclared]
  rfl

/-- The value of the first mention in front of the value that is declared. -/
def mentionedBefore? (o : Outline) : Option (List Char) :=
  (o.earlier.findSome? fun p => langValue? false p.2.written).or (langValue? false o.frontText)

/-- There is such a value just if there is such a mention. -/
lemma mentionsBefore_iff : o.MentionsBefore ↔ o.mentionedBefore?.isSome = true := by
  rw [mentionedBefore?, Option.isSome_or, Bool.or_eq_true, List.findSome?_isSome_iff, MentionsBefore,
    mentions_iff]
  simp only [mentions_iff]

/-- What is read is a mention in front of the value, or else the value. -/
lemma readDialect_filled (h : IsPlain value) :
    (o.filled value h).readDialect = dialectOfLang (o.mentionedBefore?.getD value) := by
  rw [Listing.readDialect_eq, filled, List.findSome?_append, List.findSome?_cons, langValue?_filled,
    mentionedBefore?]
  cases o.earlier.findSome? fun p => langValue? false p.2.written with
  | some mentioned => rfl
  | none =>
    cases langValue? false o.frontText with
    | some mentioned => rfl
    | none => rfl

end Outline

/-- **Which text the dialect of a component comes from.** Of every component that is put together from
script elements with attributes, the dialect is the one that is mentioned, so that it is the declared
one just if this one is mentioned. And in every such component it follows the value of the attribute
for the language, whatever plain value this is, exactly if nothing mentions a language before: no
earlier element, and nothing in the tag in front of the value. -/
theorem readDialect_exact (l : Listing) (o : Outline) :
    (∀ dialect, l.readDialect = dialect ↔ l.IsMentioned dialect) ∧
    ((∀ value h, (o.filled value h).readDialect = (o.filled value h).declaredDialect) ↔
      ¬ o.MentionsBefore) := by
  refine ⟨fun _ => Listing.readDialect_eq_iff, ?_⟩
  simp only [Outline.readDialect_filled, Outline.declaredDialect_filled, Outline.mentionsBefore_iff]
  cases o.mentionedBefore? with
  | none => simp
  | some mentioned =>
    simp only [Option.getD_some, Option.isSome_some, not_true_eq_false, iff_false]
    -- what has been mentioned cannot be the one and the other
    intro h
    have hts := h "ts".toList (by decide)
    have hjs := h "js".toList (by decide)
    cases hts.symm.trans hjs

end Dialects

/-! ## One attribute before another -/

/-- A plain text between double quotation marks, right behind an equals sign. -/
def tightValue (text : List Char) (h : IsPlain text) : AttributeValue where
  blanks := []
  blanks' := []
  mark := '\x22'
  text := text
  isBlank_blanks := by simp
  isBlank_blanks' := by simp
  isMark := Or.inl rfl
  mark_not_mem := fun hmem => h.noMark _ hmem (Or.inl rfl)

/-- The attribute `setup`, which has no value. -/
def setupAttribute : Attribute where
  space := [' ']
  name := "setup".toList
  value? := none
  space_ne_nil := by decide
  isBlank_space := List.forall_mem_singleton.2 (by decide)
  name_ne_nil := by decide
  all_name := by decide

/-- An attribute whose name ends like that of the attribute for the language. -/
def dataAttribute : Attribute where
  space := [' ']
  name := "data-lang".toList
  value? := some (tightValue "ts".toList (by decide))
  space_ne_nil := by decide
  isBlank_space := List.forall_mem_singleton.2 (by decide)
  name_ne_nil := by decide
  all_name := by decide

/-- A script element with a short body. -/
def shortShape : Shape where
  name := "<script".toList
  space := []
  body := "a".toList
  closing := "</script>".toList
  spells := by decide +kernel
  isBlank_space := by simp
  noClosing := by decide +kernel
  isClosing := by decide +kernel

/-- No text. -/
def nothing : Surrounding where
  text := []
  noOpening := by decide +kernel

/-- A component of one element, with an attribute in front of the one for the language. -/
def outlineBehind (a : Attribute) (h : a.isLang = false) : Outline where
  earlier := []
  surrounding := nothing
  shape := shortShape
  front := [a]
  space := [' ']
  given := tightValue "ts".toList (by decide)
  behind := []
  later := []
  last := nothing
  space_ne_nil := by decide
  isBlank_space := List.forall_mem_singleton.2 (by decide)
  noEarlier := by simp
  noFront := by simpa using h

/-- A component whose attribute for the language stands behind `setup`. -/
def behindSetup : Outline := outlineBehind setupAttribute (by decide)

/-- A component whose attribute for the language stands behind `data-lang`. -/
def behindData : Outline := outlineBehind dataAttribute (by decide)

/-- A component with `data-lang` alone. -/
def dataListing : Listing where
  parts := [(nothing, { shape := shortShape, attributes := [dataAttribute] })]
  last := nothing

/-- Behind `setup` the attribute for the language is followed, behind `data-lang` it is not; and a
component with the latter alone, which declares no dialect, is read as one in TypeScript. -/
theorem readDialect_exact_of_data_lang :
    (∀ value h, (behindSetup.filled value h).readDialect =
      (behindSetup.filled value h).declaredDialect) ∧
    (¬ ∀ value h, (behindData.filled value h).readDialect =
      (behindData.filled value h).declaredDialect) ∧
    ∃ l : Listing, String.ofList l.assembly.text = "<script data-lang=\"ts\">a</script>" ∧
      l.readDialect = .typescript ∧ l.declaredDialect = .javascript := by
  have hsetup : ¬ behindSetup.MentionsBefore := by decide +kernel
  have hdata : behindData.MentionsBefore := by decide +kernel
  refine ⟨(readDialect_exact dataListing behindSetup).2.2 hsetup,
    fun h => (readDialect_exact dataListing behindData).2.1 h hdata, dataListing, ?_⟩
  exact ⟨by decide +kernel, by decide +kernel, by decide +kernel⟩

end RouteAssets.Script.Component
