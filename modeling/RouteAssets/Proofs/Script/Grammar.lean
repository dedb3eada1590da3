import RouteAssets.Proofs.Script.Lexeme
import RouteAssets.Script.Parser

/-!
# The grammar loses nothing

Every rule of the grammar is lossless as long as the goals that it asks for are. The rules are tied
together by recursion on a depth bound, so all of them are (`lossless_grammarUpTo`), and a tree that
has been read is made of the text of the script (`parse?_source`).
-/

namespace RouteAssets.Script

open Rule

/-! ## Goals and names -/

section Goal

instance : Lossless reference := lossless_select fun _ => inferInstance

instance : Lossless binding := lossless_select fun _ => inferInstance

instance {r : Rule} [Lossless r] : Lossless (typed r) := inferInstanceAs (Lossless (seq _))

instance {t : Tree} {r : Rule} [Extends t r] : Extends t (typed r) :=
  inferInstanceAs (Extends t (seq _))

/-- A private name as a lexeme: the number sign and a word. -/
instance : Lossless privateName := ⟨by
  intro c ts c' h
  unfold privateName lexeme at h
  split at h
  · cases h
  · rename_i taken rest hsplit
    refine emit_remaining ?_ h
    beta_reduce at hsplit
    split at hsplit
    · rename_i cs hcs
      have happend := Cursor.splitWord_append cs
      split at hsplit
      · cases hsplit
      · rename_i w rest _ hw
        rw [hw] at happend
        simp only [Option.some.injEq, Prod.mk.injEq] at hsplit
        obtain ⟨rfl, rfl⟩ := hsplit
        simp [hcs, ← happend]
    · cases hsplit⟩

end Goal

section Rules

variable {g : Grammar} [hg : ∀ goal, Lossless (g goal)]

instance : Lossless (initializer g) := inferInstanceAs (Lossless (node _ (seq _)))

instance : Lossless (arguments g) := inferInstanceAs (Lossless (node _ (seq _)))

instance : Lossless (parenthesized g) := inferInstanceAs (Lossless (node _ (seq _)))

instance : Lossless (computedName g) := inferInstanceAs (Lossless (node _ (seq _)))

instance : Lossless (memberName g) := inferInstanceAs (Lossless (alt _))

instance (words : List String) : Lossless (modifier words) := inferInstanceAs (Lossless (seq _))

instance : Lossless (decorator g) := inferInstanceAs (Lossless (node _ (seq _)))

/-! ## Patterns -/

instance : Lossless (restPattern g) := inferInstanceAs (Lossless (node _ _))

instance : Lossless (defaultedPattern g) := inferInstanceAs (Lossless (alt _))

instance : Lossless (arrayPattern g) := inferInstanceAs (Lossless (node _ _))

instance : Lossless (objectPattern g) := inferInstanceAs (Lossless (node _ _))

instance : Lossless (assignmentTarget g) := inferInstanceAs (Lossless (extended _ _))

instance : Lossless (pattern g) := lossless_select fun c => by
  repeat' split
  all_goals infer_instance

instance : Lossless (declaredPattern g) := lossless_select fun c => by
  repeat' split
  all_goals infer_instance

/-! ## Types, parameters and signatures -/

instance : Lossless (typeAscription g) := inferInstanceAs (Lossless (node _ _))

instance : Lossless (returnAscription g) := inferInstanceAs (Lossless (node _ _))

instance : Lossless (typeArguments g) := inferInstanceAs (Lossless (node _ _))

instance : Lossless (typeParameter g) := inferInstanceAs (Lossless (node _ _))

instance : Lossless (typeParameters g) := inferInstanceAs (Lossless (node _ _))

instance : Lossless (parameter g) := inferInstanceAs (Lossless (alt _))

instance : Lossless (parameters g) := inferInstanceAs (Lossless (node _ _))

instance : Lossless (signature g) := inferInstanceAs (Lossless (seq _))

instance : Lossless (indexMember g) := inferInstanceAs (Lossless (seq _))

instance : Lossless memberModifiers := inferInstanceAs (Lossless (many _))

instance : Lossless (typeMember g) := inferInstanceAs (Lossless (node _ _))

instance : Lossless (objectType g) := inferInstanceAs (Lossless (node _ _))

instance : Lossless (tupleMember g) := inferInstanceAs (Lossless (seq _))

instance : Lossless (importCall g) := inferInstanceAs (Lossless (node _ _))

instance (t : Tree) : Extends t (dottedSuffix t) := inferInstanceAs (Extends t (nodeAfter _ _ _))

instance : Lossless (typeQuery g) := inferInstanceAs (Lossless (node _ _))

instance : Lossless (wordType g) := lossless_select fun c => by
  repeat' split
  all_goals infer_instance

instance : Lossless (primaryType g) := inferInstanceAs (Lossless (alt _))

instance : Lossless (suffixedType g) := inferInstanceAs (Lossless (extended _ _))

instance : Lossless (intersectionType g) := inferInstanceAs (Lossless (seq _))

instance : Lossless (unionType g) := inferInstanceAs (Lossless (seq _))

instance : Lossless (functionType g) := inferInstanceAs (Lossless (seq _))

instance : Lossless (type g) :=
  have : Lossless (select fun c =>
      if atFunctionType c then functionType g
      else seq
        [ unionType g,
          opt (seq [kwHere "extends", unionType g, sym "?", g .type, sym ":", g .type]) ]) :=
    lossless_select fun c => by split <;> infer_instance
  inferInstanceAs (Lossless (node _ _))

/-! ## Functions and classes -/

instance : Lossless asyncHere := inferInstanceAs (Lossless (seq _))

instance : Lossless (functionExpression g) := inferInstanceAs (Lossless (node _ _))

instance : Lossless (functionDeclaration g) := inferInstanceAs (Lossless (node _ _))

instance : Lossless (functionSignature g) := inferInstanceAs (Lossless (node _ _))

instance (qualifiers : Rule) [Lossless qualifiers] : Lossless (method g qualifiers) :=
  inferInstanceAs (Lossless (node _ _))

instance : Lossless objectMethodModifiers := inferInstanceAs (Lossless (seq _))

instance : Lossless classMemberModifiers := lossless_select fun c => by
  repeat' split
  all_goals infer_instance

instance (afterExpression : Bool) : Lossless (memberEnd afterExpression) :=
  inferInstanceAs (Lossless (alt _))

instance : Lossless (field g) := inferInstanceAs (Lossless (node _ _))

instance : Lossless (classMember g) := inferInstanceAs (Lossless (alt _))

instance : Lossless (classBody g) := inferInstanceAs (Lossless (node _ _))

instance : Lossless (classHeritage g) := inferInstanceAs (Lossless (node _ _))

instance : Lossless className := lossless_select fun _ => inferInstance

instance : Lossless (classExpression g) := inferInstanceAs (Lossless (node _ _))

instance : Lossless (classDeclaration g) := inferInstanceAs (Lossless (node _ _))

/-! ## Markup -/

instance : Lossless markupName := inferInstanceAs (Lossless (alt _))

instance : Lossless (markupExpression g) := inferInstanceAs (Lossless (node _ _))

instance : Lossless (markupAttribute g) := inferInstanceAs (Lossless (alt _))

instance : Lossless (markupChild g) := inferInstanceAs (Lossless (alt _))

instance : Lossless (markupContent g) := inferInstanceAs (Lossless (seq _))

instance : Lossless (markup g) := inferInstanceAs (Lossless (node _ _))

/-! ## Expressions -/

instance (s : String) : Lossless (operatorToken s) := by
  unfold operatorToken
  split <;> infer_instance

instance (inTernary : Bool) : Lossless (arrowSignature g inTernary) :=
  inferInstanceAs (Lossless (seq _))

instance (inTernary : Bool) : Lossless (arrowFunction g inTernary) :=
  inferInstanceAs (Lossless (node _ _))

instance : Lossless (array g) := inferInstanceAs (Lossless (node _ _))

/-- A shorthand property: a name in front of a comma or of the end of the object. -/
instance : Lossless (objectItem g) :=
  have : Lossless (select fun c => wordThat .shorthandName (isBinding c.dialect)) :=
    lossless_select fun _ => inferInstance
  inferInstanceAs (Lossless (alt _))

instance : Lossless (object g) := inferInstanceAs (Lossless (node _ _))

instance : Lossless (constructed g) := inferInstanceAs (Lossless (extended _ _))

instance : Lossless (newExpression g) := inferInstanceAs (Lossless (alt _))

instance : Lossless (importExpression g) := inferInstanceAs (Lossless (alt _))

instance (inTernary : Bool) : Lossless (wordExpression g inTernary) := lossless_select fun c => by
  repeat' split
  all_goals infer_instance

instance (inTernary : Bool) : Lossless (primary g inTernary) := lossless_select fun c => by
  repeat' split
  all_goals infer_instance

instance (t : Tree) : Extends t (suffix g t) := extends_select fun c => by
  repeat' split
  all_goals infer_instance

instance (inTernary : Bool) : Lossless (postfixed g inTernary) := ⟨by
  intro c ts c' h
  unfold postfixed at h
  split at h
  · rename_i t c₁ hbase
    have hremaining := Lossless.remaining_eq hbase
    dsimp only at h
    repeat' split at h
    · exact remaining_of_extends hremaining inferInstance h
    · exact remaining_of_extends hremaining inferInstance h
    · cases h
      exact hremaining
  · cases h⟩

instance (inTernary : Bool) (w : String) : Lossless (wordOperand g inTernary w) := by
  unfold wordOperand
  repeat' split
  all_goals infer_instance

instance (inTernary : Bool) : Lossless (operand g inTernary) := lossless_select fun c => by
  dsimp only
  repeat' split
  all_goals infer_instance

instance (inTernary : Bool) (level : Nat) (t : Tree) :
    Extends t (chainLink g inTernary level t) := extends_select fun c => by
  dsimp only
  repeat' split
  all_goals infer_instance

instance (inTernary : Bool) (level : Nat) : Lossless (binary g inTernary level) :=
  inferInstanceAs (Lossless (extended _ _))

instance (inTernary : Bool) : Lossless (expression g inTernary) := ⟨by
  intro c ts c' h
  unfold expression at h
  split at h
  · rename_i t c₁ hbase
    have hremaining := Lossless.remaining_eq hbase
    split at h
    · exact remaining_of_extends hremaining inferInstance h
    · cases h
      exact hremaining
  · cases h⟩

instance : Lossless (expressions g) := ⟨by
  intro c ts c' h
  unfold expressions at h
  split at h
  · rename_i t c₁ hbase
    have hremaining := Lossless.remaining_eq hbase
    split at h
    · exact remaining_of_extends hremaining inferInstance h
    · cases h
      exact hremaining
  · cases h⟩

/-! ## Declarations, imports and exports -/

instance : Lossless (variableDeclarator g) := inferInstanceAs (Lossless (node _ _))

instance : Lossless (declarators g) := ⟨by
  intro c ts c' h
  unfold declarators at h
  split at h
  · cases h
  · rename_i us c₁ hread
    have hend : AllLossless [semicolon (us.getLast?.any fun t => (t.child? .initializer).isSome)] :=
      inferInstance
    obtain ⟨new, rfl, hnew⟩ := seqOnto_remaining hend.lossless h
    rw [Lossless.remaining_eq hread, hnew, Tree.sourceOf_append, List.append_assoc]⟩

instance : Lossless (lexicalDeclaration g) := inferInstanceAs (Lossless (node _ _))

instance : Lossless (variableDeclaration g) := inferInstanceAs (Lossless (node _ _))

instance : Lossless (usingDeclaration g) := inferInstanceAs (Lossless (node _ _))

instance : Lossless dottedName := inferInstanceAs (Lossless (extended _ _))

instance : Lossless (interfaceDeclaration g) := inferInstanceAs (Lossless (node _ _))

instance : Lossless (typeAliasDeclaration g) := inferInstanceAs (Lossless (node _ _))

instance : Lossless (enumDeclaration g) := inferInstanceAs (Lossless (node _ _))

instance : Lossless (moduleDeclaration g) := inferInstanceAs (Lossless (node _ _))

instance : Lossless importAlias := inferInstanceAs (Lossless (node _ _))

instance : Lossless (plainDeclaration g) := lossless_select fun c => by
  repeat' split
  all_goals infer_instance

instance : Lossless (ambientDeclaration g) := inferInstanceAs (Lossless (node _ _))

instance : Lossless (declaration g) := inferInstanceAs (Lossless (alt _))

instance : Lossless exportedName := inferInstanceAs (Lossless (alt _))

instance (wordsAfter : String → Bool) : Lossless (typeOnlyMark wordsAfter) :=
  inferInstanceAs (Lossless (typed _))

instance : Lossless specifierTypeMark := inferInstanceAs (Lossless (typed _))

instance (specifier : Rule) [Lossless specifier] : Lossless (specifierList specifier) :=
  inferInstanceAs (Lossless (seq _))

instance : Lossless fromClause := inferInstanceAs (Lossless (node _ _))

instance : Lossless importSpecifier := inferInstanceAs (Lossless (node _ _))

instance : Lossless namespaceImport := inferInstanceAs (Lossless (node _ _))

instance : Lossless namedImports := inferInstanceAs (Lossless (node _ _))

instance : Lossless importClause := inferInstanceAs (Lossless (node _ _))

instance : Lossless importRequire := inferInstanceAs (Lossless (node _ _))

instance : Lossless (importAttribute g) := inferInstanceAs (Lossless (node _ _))

instance : Lossless (importStatement g) := inferInstanceAs (Lossless (node _ _))

instance : Lossless exportSpecifier := inferInstanceAs (Lossless (node _ _))

instance : Lossless exportClause := inferInstanceAs (Lossless (node _ _))

instance : Lossless (exportStatement g) := inferInstanceAs (Lossless (node _ _))

/-! ## Statements -/

instance : Lossless pageComment := ⟨by
  intro c ts c' h
  simp only [pageComment, Option.ite_none_right_eq_some, Option.some.injEq, Prod.mk.injEq] at h
  obtain ⟨-, rfl, rfl⟩ := h
  simp⟩

instance : Lossless (statements g) := inferInstanceAs (Lossless (many _))

instance : Lossless (expressionStatement g) := inferInstanceAs (Lossless (node _ _))

instance : Lossless (labeledStatement g) := inferInstanceAs (Lossless (seq _))

instance (k : NodeKind) (w : String) : Lossless (jump k w) := inferInstanceAs (Lossless (node _ _))

instance : Lossless (returnStatement g) := inferInstanceAs (Lossless (node _ _))

instance : Lossless (ifStatement g) := inferInstanceAs (Lossless (node _ _))

instance : Lossless (switchStatement g) := inferInstanceAs (Lossless (node _ _))

instance : Lossless (tryStatement g) := inferInstanceAs (Lossless (node _ _))

instance : Lossless (loopTarget g) := inferInstanceAs (Lossless (alt _))

instance : Lossless (forInStatement g) := inferInstanceAs (Lossless (node _ _))

instance : Lossless (forStatement g) := inferInstanceAs (Lossless (node _ _))

instance : Lossless (doStatement g) := inferInstanceAs (Lossless (node _ _))

instance : Lossless (block g) := inferInstanceAs (Lossless (node _ _))

instance : Lossless (statement g) := lossless_select fun c => by
  repeat' split
  all_goals infer_instance

instance : Lossless (program g) := inferInstanceAs (Lossless (node _ _))

/-! ## The whole grammar -/

/-- The rule of a goal is lossless. -/
lemma lossless_ruleOf (goal : Goal) : Lossless (ruleOf g goal) := by
  cases goal <;> unfold ruleOf <;> infer_instance

end Rules

/-- The reader of goals is lossless at every depth. -/
lemma lossless_grammarUpTo (depth : Nat) (goal : Goal) : Lossless (grammarUpTo depth goal) := by
  induction depth generalizing goal with
  | zero => exact inferInstanceAs (Lossless fail)
  | succ depth ih => exact lossless_ruleOf goal

/-- A tree that has been read is made of the text of the script, up to the gap at its end. -/
theorem parse?_source {dialect : Dialect} {text : String} {root : Tree}
    (h : parse? dialect text = some root) : Tree.sourceOf [root] <+: text.toList := by
  have hg := lossless_grammarUpTo (depthBound text.toList.length)
  unfold parse? at h
  dsimp only at h
  split at h
  · rename_i t c hprogram
    cases h
    have hremaining := Lossless.remaining_eq hprogram
    rw [Cursor.remaining_start] at hremaining
    exact ⟨_, hremaining.symm⟩
  · cases h

end RouteAssets.Script
