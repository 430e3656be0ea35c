import Rulebook.Expr.Normal

/-!
Trees made of the seven kinds of expression and nothing else. Rules, comments and data may stand in
a tree too; a proper tree is one where they do not, and its normal form can be written as a function
of the tree alone.
-/

namespace Rulebook

namespace Expr

/-- A tree of the seven kinds of expression, at every depth. -/
inductive Proper : Expr → Prop where
  | text (value) : Proper (.text value)
  | pattern (source ignoreCase dotAll) : Proper (.pattern source ignoreCase dotAll)
  | reference (name) : Proper (.reference name)
  | repetition {template separator} : Proper template → Proper separator →
      Proper (.repetition template separator)
  | sequence {items} : (∀ item ∈ items, Proper item) → Proper (.sequence items)
  | union {items} : (∀ item ∈ items, Proper item) → Proper (.union items)
  | group {inner} : Proper inner → Proper (.group inner)

theorem proper_node_iff (kind : Chain) {items : List Expr} :
    (kind.node items).Proper ↔ ∀ item ∈ items, item.Proper := by
  cases kind with
  | sequence =>
      constructor
      · intro proper
        cases proper with
        | sequence each => exact each
      · exact Proper.sequence
  | union =>
      constructor
      · intro proper
        cases proper with
        | union each => exact each
      · exact Proper.union

theorem proper_group_iff {inner : Expr} : (Expr.group inner).Proper ↔ inner.Proper := by
  constructor
  · intro proper
    cases proper with
    | group inside => exact inside
  · exact Proper.group

theorem proper_repetition_iff {template separator : Expr} :
    (Expr.repetition template separator).Proper ↔ template.Proper ∧ separator.Proper := by
  constructor
  · intro proper
    cases proper with
    | repetition first second => exact ⟨first, second⟩
  · rintro ⟨first, second⟩
    exact Proper.repetition first second

/-! ## Walks -/

theorem mem_walkAll_iff {node : Expr} {items : List Expr} :
    node ∈ walkAll items ↔ ∃ item ∈ items, node ∈ item.walk := by
  induction items with
  | nil => simp [walkAll]
  | cons first others ih => simp [walkAll, ih]

theorem mem_walk_self (tree : Expr) : tree ∈ tree.walk := by cases tree <;> simp [walk]

theorem walk_node (kind : Chain) (items : List Expr) :
    (kind.node items).walk = kind.node items :: walkAll items := by
  cases kind <;> simp only [Chain.node, walk]

theorem forall_walk_node_iff {holds : Expr → Prop} (kind : Chain) {items : List Expr} :
    (∀ node ∈ (kind.node items).walk, holds node) ↔
      holds (kind.node items) ∧ ∀ item ∈ items, ∀ node ∈ item.walk, holds node := by
  simp only [walk_node, List.mem_cons, or_imp, forall_and, forall_eq, mem_walkAll_iff]
  constructor
  · rintro ⟨top, inside⟩
    exact ⟨top, fun item listed node member => inside node ⟨item, listed, member⟩⟩
  · rintro ⟨top, each⟩
    refine ⟨top, ?_⟩
    rintro node ⟨item, listed, member⟩
    exact each item listed node member

theorem forall_walk_repetition_iff {holds : Expr → Prop} {template separator : Expr} :
    (∀ node ∈ (repetition template separator).walk, holds node) ↔
      holds (.repetition template separator) ∧
        (∀ node ∈ template.walk, holds node) ∧ ∀ node ∈ separator.walk, holds node := by
  simp only [walk, List.mem_cons, List.mem_append, or_imp, forall_and, forall_eq]

theorem Proper.not_foreign {tree : Expr} (proper : tree.Proper) :
    ∀ node ∈ tree.walk, node.isForeign = false := by
  induction proper with
  | text | pattern | reference => simp [walk, isForeign]
  | repetition _ _ ihTemplate ihSeparator =>
      intro node member
      simp only [walk, List.mem_cons, List.mem_append] at member
      rcases member with rfl | inside | inside
      · rfl
      · exact ihTemplate node inside
      · exact ihSeparator node inside
  | sequence _ ih | union _ ih =>
      intro node member
      simp only [walk, List.mem_cons, mem_walkAll_iff] at member
      rcases member with rfl | ⟨item, listed, inside⟩
      · rfl
      · exact ih item listed node inside
  | group _ ih =>
      intro node member
      simp only [walk, List.mem_cons] at member
      rcases member with rfl | inside
      · rfl
      · exact ih node inside

mutual

theorem proper_of_walk : ∀ tree : Expr,
    (∀ node ∈ tree.walk, node.isForeign = false) → tree.Proper
  | .text value, _ => Proper.text value
  | .pattern source ignoreCase dotAll, _ => Proper.pattern source ignoreCase dotAll
  | .reference name, _ => Proper.reference name
  | .repetition template separator, clean => by
      simp only [walk, List.mem_cons, List.mem_append] at clean
      exact Proper.repetition
        (proper_of_walk template fun node inside => clean node (Or.inr (Or.inl inside)))
        (proper_of_walk separator fun node inside => clean node (Or.inr (Or.inr inside)))
  | .sequence items, clean => by
      simp only [walk, List.mem_cons] at clean
      exact Proper.sequence (proper_of_walkAll items fun node inside => clean node (Or.inr inside))
  | .union items, clean => by
      simp only [walk, List.mem_cons] at clean
      exact Proper.union (proper_of_walkAll items fun node inside => clean node (Or.inr inside))
  | .group inner, clean => by
      simp only [walk, List.mem_cons] at clean
      exact Proper.group (proper_of_walk inner fun node inside => clean node (Or.inr inside))
  | .rule name expression, clean => absurd (clean _ (mem_walk_self _)) (by simp [isForeign])
  | .comment, clean => absurd (clean _ (mem_walk_self _)) (by simp [isForeign])
  | .list items, clean => absurd (clean _ (mem_walk_self _)) (by simp [isForeign])
  | .tuple items, clean => absurd (clean _ (mem_walk_self _)) (by simp [isForeign])
  | .dict fields, clean => absurd (clean _ (mem_walk_self _)) (by simp [isForeign])
  | .datum value, clean => absurd (clean _ (mem_walk_self _)) (by simp [isForeign])

theorem proper_of_walkAll : ∀ items : List Expr,
    (∀ node ∈ walkAll items, node.isForeign = false) → ∀ item ∈ items, item.Proper
  | [], _ => by simp
  | first :: others, clean => by
      simp only [walkAll, List.mem_append] at clean
      have front := proper_of_walk first fun node inside => clean node (Or.inl inside)
      have later := proper_of_walkAll others fun node inside => clean node (Or.inr inside)
      intro item member
      rcases List.mem_cons.mp member with rfl | listed
      · exact front
      · exact later item listed

end

theorem proper_iff_walk {tree : Expr} :
    tree.Proper ↔ ∀ node ∈ tree.walk, node.isForeign = false :=
  ⟨Proper.not_foreign, proper_of_walk tree⟩

instance (tree : Expr) : Decidable tree.Proper := decidable_of_iff _ proper_iff_walk.symm

/-! ## Equality -/

theorem sameAll_iff_eq {lefts : List Expr}
    (each : ∀ left ∈ lefts, ∀ right, left.same right = true ↔ left = right) (rights : List Expr) :
    sameAll lefts rights = true ↔ lefts = rights := by
  induction lefts generalizing rights with
  | nil => cases rights <;> simp [sameAll]
  | cons left lefts ih =>
      cases rights with
      | nil => simp [sameAll]
      | cons right rights =>
          have later := ih (fun item member => each item (List.mem_cons_of_mem left member)) rights
          simp only [sameAll, Bool.and_eq_true, List.cons.injEq]
          rw [each left List.mem_cons_self, later]

theorem Proper.same_iff_eq {left : Expr} (proper : left.Proper) (right : Expr) :
    left.same right = true ↔ left = right := by
  induction proper generalizing right with
  | text value => cases right <;> simp [same]
  | pattern source ignoreCase dotAll => cases right <;> simp [same, and_assoc]
  | reference name => cases right <;> simp [same]
  | repetition _ _ ihTemplate ihSeparator =>
      cases right <;> simp [same, ihTemplate, ihSeparator]
  | sequence _ ih => cases right <;> simp [same, sameAll_iff_eq ih]
  | union _ ih => cases right <;> simp [same, sameAll_iff_eq ih]
  | group _ ih => cases right <;> simp [same, ih]

end Expr

end Rulebook
