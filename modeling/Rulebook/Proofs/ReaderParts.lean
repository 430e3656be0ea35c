import Rulebook.Matcher.Plan
import Rulebook.Proofs.Reading

/-!
What holds of all readers. The readers of rule definitions are put together from literals and tokens:
values are changed, one part follows another, alternatives are tried in turn. So a property that
literals and tokens have, and that composition keeps, holds of every reader at every depth.
-/

namespace Rulebook

open Grammar (Level Part itemOf)

/-- A property of matchers that every reader has. -/
structure Matcher.Composes (holds : {α : Type} → Matcher α → Prop) : Prop where
  literal (word) : holds (Matcher.literal word)
  token {extent Word} : Takes extent Word → holds (Matcher.token extent)
  map {α β : Type} {matcher : Matcher α} (f : α → β) : holds matcher →
    holds (Matcher.map f matcher)
  both {α β : Type} {left : Matcher α} {right : Matcher β} : holds left → holds right →
    holds (Matcher.both left right)
  firstOf {α : Type} {alternatives : List (Matcher α)} :
    (∀ matcher ∈ alternatives, holds matcher) → holds (Matcher.firstOf alternatives)

namespace Reader

def operandOf (tiers : Tiers) : Level → Matcher Expr
  | .repetition => tiers.atom
  | .sequence => tiers.factor
  | .union => tiers.term

/-- The reader of a part, over tiers for the operands and groups in it. -/
def partOf (tiers : Tiers) : Part → Matcher Expr
  | .text => text
  | .pattern => pattern
  | .reference => reference
  | .group => groupOf tiers.expression
  | .atom => tiers.atom
  | .operation level => level.reader (operandOf tiers level) (itemOf tiers level)
  | .item level => itemOf tiers level

theorem partOf_tiersFor (part : Part) (source : List Char) :
    partOf (tiersFor source) part source = part.matcher source := by
  cases part with
  | text | pattern | reference | group | atom => rfl
  | operation level | item level => cases level <;> rfl

end Reader

namespace Matcher.Composes

open Reader (Tiers)

variable {holds : {α : Type} → Matcher α → Prop} (composes : Composes holds)

include composes

theorem text : holds Reader.text :=
  composes.map _ (composes.both (composes.literal _)
    (composes.both (composes.token (Grammar.body_takes _)) (composes.literal _)))

theorem pattern : holds Reader.pattern :=
  composes.map _ (composes.both (composes.literal _)
    (composes.both (composes.token (Grammar.body_takes _))
      (composes.both (composes.literal _) (composes.token Grammar.flag_takes))))

theorem name : holds Reader.name := composes.token Grammar.name_takes

theorem reference : holds Reader.reference := composes.map _ composes.name

theorem groupOf {expression : Matcher Expr} (inner : holds expression) :
    holds (Reader.groupOf expression) :=
  composes.map _ (composes.both (composes.token (Grammar.opened_takes _))
    (composes.both inner (composes.token (Grammar.closed_takes (by decide)))))

theorem operation (level : Level) {operand item : Matcher Expr} (first : holds operand)
    (second : holds item) : holds (level.reader operand item) :=
  composes.map _ (composes.both first
    (composes.both (composes.token (Grammar.mark_takes level)) second))

theorem pair {first second : Matcher Expr} (left : holds first) (right : holds second) :
    holds (Matcher.firstOf [first, second]) := by
  apply composes.firstOf
  simp [left, right]

theorem tier {inner : Tiers} (each : ∀ level, holds (itemOf inner level)) :
    holds inner.over.atom ∧ ∀ level, holds (itemOf inner.over level) := by
  have group : holds (Reader.groupOf inner.expression) := composes.groupOf (each .union)
  have atom : holds inner.over.atom := by
    apply composes.firstOf
    simp [composes.text, composes.pattern, composes.reference, group]
  have factor : holds inner.over.factor :=
    composes.pair (composes.operation .repetition atom (each .repetition)) atom
  have term : holds inner.over.term :=
    composes.pair (composes.operation .sequence factor (each .sequence)) factor
  have expression : holds inner.over.expression :=
    composes.pair (composes.operation .union term (each .union)) term
  refine ⟨atom, ?_⟩
  rintro (_ | _ | _)
  · exact factor
  · exact term
  · exact expression

theorem ofDepth (depth : Nat) : holds (Tiers.ofDepth depth).atom ∧
    ∀ level, holds (itemOf (Tiers.ofDepth depth) level) := by
  induction depth with
  | zero =>
      -- no alternative at all
      have fails : holds (Matcher.firstOf [] : Matcher Expr) := composes.firstOf (by simp)
      refine ⟨fails, ?_⟩
      rintro (_ | _ | _) <;> exact fails
  | succ depth ih => exact composes.tier ih.2

theorem partOf (depth : Nat) (part : Part) :
    holds (Reader.partOf (Tiers.ofDepth depth) part) := by
  obtain ⟨atom, item⟩ := composes.ofDepth depth
  cases part with
  | text => exact composes.text
  | pattern => exact composes.pattern
  | reference => exact composes.reference
  | group => exact composes.groupOf (item .union)
  | atom => exact atom
  | item level => exact item level
  | operation level =>
      cases level with
      | repetition => exact composes.operation .repetition atom (item .repetition)
      | sequence => exact composes.operation .sequence (item .repetition) (item .sequence)
      | union => exact composes.operation .union (item .sequence) (item .union)

theorem comment : holds Reader.comment :=
  composes.map _ (composes.both (composes.literal _)
    (composes.both (composes.token Grammar.restOfLine_takes) (composes.token Grammar.lineEnd_takes)))

theorem written (expression : holds Reader.expression) : holds Rule.written :=
  composes.map _ (composes.both composes.name
    (composes.both (composes.token (Grammar.opened_takes _)) expression))

end Matcher.Composes

theorem Nonterminal.cases_part {holds : Nonterminal → Prop} (name : holds .name)
    (rule : holds .rule) (comment : holds .comment)
    (expression : ∀ (nonterminal : Nonterminal) (part : Part),
      nonterminal.matcher = Matcher.map .node part.matcher → holds nonterminal)
    (nonterminal : Nonterminal) : holds nonterminal := by
  cases nonterminal with
  | name => exact name
  | rule => exact rule
  | comment => exact comment
  | text => exact expression _ .text rfl
  | pattern => exact expression _ .pattern rfl
  | reference => exact expression _ .reference rfl
  | group => exact expression _ .group rfl
  | repetition => exact expression _ (.operation .repetition) rfl
  | sequence => exact expression _ (.operation .sequence) rfl
  | union => exact expression _ (.operation .union) rfl
  | atom => exact expression _ .atom rfl
  | factor => exact expression _ (.item .repetition) rfl
  | term => exact expression _ (.item .sequence) rfl
  | expression => exact expression _ (.item .union) rfl

end Rulebook
