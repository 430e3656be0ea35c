import Rulebook.Expr.Display

/-!
What can be wrong with a rule or a table of rules.
-/

namespace Rulebook

inductive Fault where
  | notARule (source : List Char)
  | afterRule (name rest : List Char)
  | unreadableLine (number : Nat) (line : List Char)
  | afterRuleOnLine (name : List Char) (number : Nat) (rest : List Char)
  | duplicateRule (name : List Char)
  | undefinedRule (name : List Char)
  /-- A node that is no expression has no normal form. -/
  | foreignNode (node : Expr)

/-- Names stand between plain apostrophes; other quoted text is escaped. -/
def Fault.message : Fault → List Char
  | .notARule source => "not a rule definition: ".toList ++ Quoted.encode source
  | .afterRule name rest =>
      "unexpected text after rule '".toList ++ name ++ "': ".toList ++ Quoted.encode rest
  | .unreadableLine number line =>
      "cannot read rule on line ".toList ++ Numeral.nat number ++ ": ".toList ++
        Quoted.encode line
  | .afterRuleOnLine name number rest =>
      "unexpected text after rule '".toList ++ name ++ "' on line ".toList ++
        Numeral.nat number ++ ": ".toList ++ Quoted.encode rest
  | .duplicateRule name => "duplicate rule '".toList ++ name ++ ['\'']
  | .undefinedRule name => "undefined rule '".toList ++ name ++ ['\'']
  | .foreignNode node =>
      "unknown node during tree normalization: ".toList ++ node.display

end Rulebook
