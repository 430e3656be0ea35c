import Rulebook.Expr.Basic
import Rulebook.Text.Listed

/-!
The printed form of expression trees: each node by its kind with its parts named, item lists as
tuples. What is no expression is printed as the plain value it is.
-/

namespace Rulebook.Expr

def displayFlag (value : Bool) : List Char :=
  if value then "True".toList else "False".toList

mutual

def display : Expr → List Char
  | .text value => "Text(value=".toList ++ Quoted.encode value ++ [')']
  | .pattern source ignoreCase dotAll =>
      "Pattern(source=".toList ++ Quoted.encode source ++ ", ignore_case=".toList ++
        displayFlag ignoreCase ++ ", dot_all=".toList ++ displayFlag dotAll ++ [')']
  | .reference name => "RuleRef(name=".toList ++ Quoted.encode name ++ [')']
  | .repetition template separator =>
      "Repetition(template=".toList ++ display template ++ ", separator=".toList ++
        display separator ++ [')']
  | .sequence items => "Sequence(items=".toList ++ Listed.tuple (displayAll items) ++ [')']
  | .union items => "Union(items=".toList ++ Listed.tuple (displayAll items) ++ [')']
  | .group inner => "Group(inner=".toList ++ display inner ++ [')']
  | .rule name expression =>
      "Rule(name=".toList ++ Quoted.encode name ++ ", expression=".toList ++
        display expression ++ [')']
  | .comment => "Comment()".toList
  | .list items => '[' :: Listed.commas (displayAll items) ++ [']']
  | .tuple items => Listed.tuple (displayAll items)
  | .dict fields => '\x7b' :: Listed.commas (displayFields fields) ++ ['\x7d']
  | .datum value => value.display

def displayAll : List Expr → List (List Char)
  | [] => []
  | first :: others => display first :: displayAll others

def displayFields : List (Expr × Expr) → List (List Char)
  | [] => []
  | (key, value) :: others => (display key ++ ": ".toList ++ display value) :: displayFields others

end

/-! ## The kinds of expression -/

variable (value source name : List Char) (ignoreCase dotAll : Bool)
  (template separator inner : Expr) (items : List Expr)

theorem display_text :
    display (.text value) = "Text(value=".toList ++ Quoted.encode value ++ [')'] := rfl

theorem display_pattern : display (.pattern source ignoreCase dotAll) =
    "Pattern(source=".toList ++ Quoted.encode source ++ ", ignore_case=".toList ++
      displayFlag ignoreCase ++ ", dot_all=".toList ++ displayFlag dotAll ++ [')'] := rfl

theorem display_reference :
    display (.reference name) = "RuleRef(name=".toList ++ Quoted.encode name ++ [')'] := rfl

theorem display_repetition : display (.repetition template separator) =
    "Repetition(template=".toList ++ display template ++ ", separator=".toList ++
      display separator ++ [')'] := rfl

theorem display_sequence : display (.sequence items) =
    "Sequence(items=".toList ++ Listed.tuple (displayAll items) ++ [')'] := rfl

theorem display_union : display (.union items) =
    "Union(items=".toList ++ Listed.tuple (displayAll items) ++ [')'] := rfl

theorem display_group :
    display (.group inner) = "Group(inner=".toList ++ display inner ++ [')'] := rfl

end Rulebook.Expr
