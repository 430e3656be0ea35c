import Rulebook.Proofs.Grammar
import Rulebook.Proofs.NormalForm

/-!
What a rule may hold. A canonical tree is made of words that can be read, has no group, and has
chains of two items or more that are not nested in chains of their kind. The normal form of whatever
the grammar derives is canonical: a derivation joins two trees at a time, and joining canonical
items opens those of the same kind one level deep, which is all there is to open.
-/

namespace Rulebook.Grammar

/-- A node as it may stand in a rule, whatever its children are. -/
def WellMade : Expr → Prop
  | .text value => Content '\'' value ∧ value ≠ []
  | .pattern source _ dotAll => Content '/' source ∧ source ≠ [] ∧ dotAll = false
  | .reference name => IsName name
  | .repetition _ _ => True
  | .sequence items => 2 ≤ items.length ∧ ∀ item ∈ items, Chain.sequence.items? item = none
  | .union items => 2 ≤ items.length ∧ ∀ item ∈ items, Chain.union.items? item = none
  | .group _ | .rule _ _ | .comment | .list _ | .tuple _ | .dict _ | .datum _ => False

def Canonical (tree : Expr) : Prop := ∀ node ∈ tree.walk, WellMade node

theorem canonical_text_iff {value : List Char} :
    Canonical (.text value) ↔ Content '\'' value ∧ value ≠ [] := by
  simp [Canonical, Expr.walk, WellMade]

theorem canonical_pattern_iff {source : List Char} {ignoreCase dotAll : Bool} :
    Canonical (.pattern source ignoreCase dotAll) ↔
      Content '/' source ∧ source ≠ [] ∧ dotAll = false := by
  simp [Canonical, Expr.walk, WellMade]

theorem canonical_reference_iff {name : List Char} : Canonical (.reference name) ↔ IsName name := by
  simp [Canonical, Expr.walk, WellMade]

theorem canonical_repetition_iff {template separator : Expr} :
    Canonical (.repetition template separator) ↔ Canonical template ∧ Canonical separator := by
  simp only [Canonical, Expr.forall_walk_repetition_iff, WellMade, true_and]

theorem wellMade_node_iff (kind : Chain) {items : List Expr} : WellMade (kind.node items) ↔
    2 ≤ items.length ∧ ∀ item ∈ items, kind.items? item = none := by
  cases kind <;> rfl

theorem canonical_node_iff (kind : Chain) {items : List Expr} : Canonical (kind.node items) ↔
    (2 ≤ items.length ∧ ∀ item ∈ items, kind.items? item = none) ∧
      ∀ item ∈ items, Canonical item := by
  simp only [Canonical, Expr.forall_walk_node_iff, wellMade_node_iff]

/-! ## Joining canonical trees -/

theorem canonical_spread_length (kind : Chain) {item : Expr} (canonical : Canonical item) :
    1 ≤ (kind.spread item).length := by
  have made : ∀ inner, item = kind.node inner →
      2 ≤ inner.length ∧ ∀ member ∈ inner, kind.items? member = none := by
    rintro inner rfl
    exact ((canonical_node_iff kind).mp canonical).1
  rcases Chain.spread_cases fun inner same => (made inner same).2 with alone | ⟨inner, same, opened⟩
  · simp [alone]
  · rw [opened]
    exact Nat.le_of_succ_le (made inner same).1

theorem canonical_expand (kind : Chain) {items : List Expr}
    (each : ∀ item ∈ items, Canonical item) :
    items.length ≤ (kind.expand items).length ∧ ∀ member ∈ kind.expand items, Canonical member := by
  constructor
  · induction items with
    | nil => simp
    | cons first others ih =>
        have front := canonical_spread_length kind (each first List.mem_cons_self)
        have later := ih fun item member => each item (List.mem_cons_of_mem first member)
        simp only [Chain.expand, List.length_cons, List.length_append]
        omega
  · apply Chain.forall_mem_expand _ each
    intro inner canonical item inside
    obtain ⟨⟨_, flat⟩, members⟩ := (canonical_node_iff kind).mp canonical
    exact ⟨flat item inside, members item inside⟩

theorem canonical_join (kind : Chain) {items : List Expr} (several : 2 ≤ items.length)
    (each : ∀ item ∈ items, Canonical item) : Canonical (kind.node (kind.expand items)) := by
  obtain ⟨count, members⟩ := canonical_expand kind each
  rw [canonical_node_iff]
  exact ⟨⟨Nat.le_trans several count, Chain.expand_flat⟩, members⟩

theorem Derives.canonical_normal {part : Part} {text rest : List Char} {tree : Expr}
    (derived : Derives part text rest tree) : Canonical tree.normal := by
  induction derived with
  | text content filled => exact canonical_text_iff.mpr ⟨content, filled⟩
  | pattern content filled => exact canonical_pattern_iff.mpr ⟨content, filled, rfl⟩
  | flagged content filled => exact canonical_pattern_iff.mpr ⟨content, filled, rfl⟩
  | reference named => exact canonical_reference_iff.mpr named
  | group _ _ _ ih => exact ih
  | atom _ _ ih => exact ih
  | joined _ ih => exact ih
  | operand _ ih => exact ih
  | @operation level _ _ _ _ left tail _ _ _ ihLeft ihTail =>
      have chain : ∀ kind : Chain, Canonical (kind.node [left, tail]).normal := by
        intro kind
        rw [Expr.normal_node]
        exact canonical_join kind (by simp) (by simp [ihLeft, ihTail])
      cases level with
      | repetition => exact canonical_repetition_iff.mpr ⟨ihLeft, ihTail⟩
      | sequence => exact chain .sequence
      | union => exact chain .union

end Rulebook.Grammar
