import Rulebook.Expr.Datum

/-!
Expression trees. The seven kinds of expression are texts, patterns, references to rules,
repetitions, sequences, unions and groups. A tree may also hold anything else where an expression
is expected: a whole rule, the marker of a comment, a collection, whose members may be trees again,
or a plain datum.
-/

namespace Rulebook

inductive Expr where
  /-- The text between the quotes, with its escapes kept as written. -/
  | text (value : List Char)
  | pattern (source : List Char) (ignoreCase dotAll : Bool)
  | reference (name : List Char)
  | repetition (template separator : Expr)
  | sequence (items : List Expr)
  | union (items : List Expr)
  | group (inner : Expr)
  | rule (name : List Char) (expression : Expr)
  | comment
  | list (items : List Expr)
  | tuple (items : List Expr)
  /-- Keys with their values; no two of the keys are equal. -/
  | dict (fields : List (Expr × Expr))
  | datum (value : Datum)

namespace Expr

def isForeign : Expr → Bool
  | .rule _ _ | .comment | .list _ | .tuple _ | .dict _ | .datum _ => true
  | _ => false

def referenceName? : Expr → Option (List Char)
  | .reference name => some name
  | _ => none

mutual

/-- All nodes, each before its children. What is no expression counts as one node. -/
def walk : Expr → List Expr
  | .text value => [.text value]
  | .pattern source ignoreCase dotAll => [.pattern source ignoreCase dotAll]
  | .reference name => [.reference name]
  | .repetition template separator =>
      .repetition template separator :: (walk template ++ walk separator)
  | .sequence items => .sequence items :: walkAll items
  | .union items => .union items :: walkAll items
  | .group inner => .group inner :: walk inner
  | .rule name expression => [.rule name expression]
  | .comment => [.comment]
  | .list items => [.list items]
  | .tuple items => [.tuple items]
  | .dict fields => [.dict fields]
  | .datum value => [.datum value]

def walkAll : List Expr → List Expr
  | [] => []
  | first :: others => walk first ++ walkAll others

end

mutual

/-- Equality of trees; the data in them are compared by value, and the order of the fields of a
`dict` does not matter. -/
def same : Expr → Expr → Bool
  | .text left, .text right => left == right
  | .pattern left leftCase leftAll, .pattern right rightCase rightAll =>
      left == right && leftCase == rightCase && leftAll == rightAll
  | .reference left, .reference right => left == right
  | .repetition left leftBetween, .repetition right rightBetween =>
      same left right && same leftBetween rightBetween
  | .sequence left, .sequence right => sameAll left right
  | .union left, .union right => sameAll left right
  | .group left, .group right => same left right
  | .rule left leftBody, .rule right rightBody => left == right && same leftBody rightBody
  | .comment, .comment => true
  | .list left, .list right => sameAll left right
  | .tuple left, .tuple right => sameAll left right
  | .dict left, .dict right => left.length == right.length && within left right
  | .datum left, .datum right => left.same right
  | _, _ => false

def sameAll : List Expr → List Expr → Bool
  | [], [] => true
  | left :: lefts, right :: rights => same left right && sameAll lefts rights
  | _, _ => false

def within : List (Expr × Expr) → List (Expr × Expr) → Bool
  | [], _ => true
  | (key, value) :: others, right =>
      right.any (fun field => same key field.1 && same value field.2) && within others right

end

end Expr

end Rulebook
