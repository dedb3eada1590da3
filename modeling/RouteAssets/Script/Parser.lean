import RouteAssets.Script.Grammar.Statements

/-!
# Reading a script

The goals of the grammar are tied together by recursion on a depth bound. Between two characters of
a script at most a handful of goals are opened, so a bound in proportion to the length of the script
is never reached; it only makes the recursion evidently finite.
-/

namespace RouteAssets.Script

/-- The rule for each goal. -/
def ruleOf (g : Grammar) : Goal → Rule
  | .statement => statement g
  | .block => block g
  | .expressions => expressions g
  | .expression inTernary => expression g inTernary
  | .binary inTernary level => binary g inTernary level
  | .operand inTernary => operand g inTernary
  | .pattern => pattern g
  | .type => type g
  | .markup => markup g

/-- The reader of goals that opens at most `depth` goals inside one another. -/
def grammarUpTo : Nat → Grammar
  | 0, _ => Rule.fail
  | depth + 1, goal => ruleOf (grammarUpTo depth) goal

/-- A depth that no script of the given length needs. -/
def depthBound (length : Nat) : Nat := 16 * length + 64

/-- The syntax tree of a script, or `none` when the script has a syntax error. -/
def parse? (dialect : Dialect) (source : String) : Option Tree :=
  let cs := source.toList
  match program (grammarUpTo (depthBound cs.length)) (Cursor.start dialect cs) with
  | some ([t], _) => some t
  | _ => none

theorem grammarUpTo_succ (depth : Nat) (goal : Goal) :
    grammarUpTo (depth + 1) goal = ruleOf (grammarUpTo depth) goal := rfl

end RouteAssets.Script
