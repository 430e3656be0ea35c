import Rulebook.Expr.Basic

/-!
Normal forms. Groups disappear, and a sequence directly inside a sequence, or a union inside a
union, is spliced into it. A repetition keeps its two operands.
-/

namespace Rulebook

/-- The two kinds of node whose nesting means nothing. -/
inductive Chain where
  | sequence
  | union
  deriving DecidableEq, Repr

namespace Chain

def node : Chain → List Expr → Expr
  | .sequence, items => .sequence items
  | .union, items => .union items

def items? : Chain → Expr → Option (List Expr)
  | .sequence, .sequence items => some items
  | .union, .union items => some items
  | _, _ => none

def splice (kind : Chain) : List Expr → List Expr
  | [] => []
  | first :: others =>
      match kind.items? first with
      | some items => items ++ splice kind others
      | none => first :: splice kind others

mutual

/-- How many nodes of the kind are reached from the top through nodes of the kind alone. -/
def weight (kind : Chain) : Expr → Nat
  | .sequence items => if kind = .sequence then weightAll kind items + 1 else 0
  | .union items => if kind = .union then weightAll kind items + 1 else 0
  | _ => 0

def weightAll (kind : Chain) : List Expr → Nat
  | [] => 0
  | first :: others => weight kind first + weightAll kind others

end

theorem weightAll_append (kind : Chain) (left right : List Expr) :
    weightAll kind (left ++ right) = weightAll kind left + weightAll kind right := by
  induction left with
  | nil => simp [weightAll]
  | cons first others ih => simp only [List.cons_append, weightAll, ih]; omega

theorem weight_of_items? {kind : Chain} {node : Expr} {items : List Expr}
    (found : kind.items? node = some items) : weight kind node = weightAll kind items + 1 := by
  cases kind <;> cases node <;> simp_all [items?, weight]

theorem weightAll_splice_le (kind : Chain) (items : List Expr) :
    weightAll kind (splice kind items) ≤ weightAll kind items := by
  induction items with
  | nil => simp [splice]
  | cons first others ih =>
      unfold splice
      split
      · rename_i inner found
        simp only [weightAll_append, weightAll, weight_of_items? found]
        omega
      · simp only [weightAll]
        omega

theorem weightAll_splice_lt (kind : Chain) (items : List Expr)
    (some_left : items.any (fun item => (kind.items? item).isSome) = true) :
    weightAll kind (splice kind items) < weightAll kind items := by
  induction items with
  | nil => simp at some_left
  | cons first others ih =>
      unfold splice
      split
      · rename_i inner found
        have := weightAll_splice_le kind others
        simp only [weightAll_append, weightAll, weight_of_items? found]
        omega
      · rename_i absent
        simp only [List.any_cons, absent, Option.isSome_none, Bool.false_or] at some_left
        have := ih some_left
        simp only [weightAll]
        omega

def unnest (kind : Chain) (items : List Expr) : List Expr :=
  if some_left : items.any (fun item => (kind.items? item).isSome) then
    have := weightAll_splice_lt kind items some_left
    unnest kind (splice kind items)
  else items
termination_by weightAll kind items
decreasing_by exact this

end Chain

namespace Expr

mutual

/-- The normal form of a tree, or the first node in it that is no expression. Children come before
their parent, so that a chain behind a group is spliced too. -/
def normalize : Expr → Except Expr Expr
  | .text value => .ok (.text value)
  | .pattern source ignoreCase dotAll => .ok (.pattern source ignoreCase dotAll)
  | .reference name => .ok (.reference name)
  | .group inner => normalize inner
  | .sequence items =>
      match normalizeAll items with
      | .error node => .error node
      | .ok items => .ok (.sequence (Chain.sequence.unnest items))
  | .union items =>
      match normalizeAll items with
      | .error node => .error node
      | .ok items => .ok (.union (Chain.union.unnest items))
  | .repetition template separator =>
      match normalize template with
      | .error node => .error node
      | .ok template =>
          match normalize separator with
          | .error node => .error node
          | .ok separator => .ok (.repetition template separator)
  | .rule name expression => .error (.rule name expression)
  | .comment => .error .comment
  | .list items => .error (.list items)
  | .tuple items => .error (.tuple items)
  | .dict fields => .error (.dict fields)
  | .datum value => .error (.datum value)

def normalizeAll : List Expr → Except Expr (List Expr)
  | [] => .ok []
  | first :: others =>
      match normalize first with
      | .error node => .error node
      | .ok first =>
          match normalizeAll others with
          | .error node => .error node
          | .ok others => .ok (first :: others)

end

end Expr

end Rulebook
