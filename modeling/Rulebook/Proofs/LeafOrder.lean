import Rulebook.Proofs.DanglingNames
import Rulebook.Proofs.ForeignNodes
import Rulebook.Proofs.Regrouping

/-!
The leaves of a tree: texts, patterns and references in the order of the walk. Trees that are alike
have the same leaves, so normalizing keeps each of them once and in its place; and what rules refer
to does not depend on whether their expressions are in normal form.
-/

namespace Rulebook

namespace Expr

def isLeaf : Expr → Bool
  | .text _ | .pattern _ _ _ | .reference _ => true
  | _ => false

def leaves (tree : Expr) : List Expr := tree.walk.filter isLeaf

theorem walkAll_eq_flatMap (items : List Expr) : walkAll items = items.flatMap walk := by
  induction items with
  | nil => rfl
  | cons first others ih => rw [walkAll, ih, List.flatMap_cons]

@[simp] theorem leaves_group (inner : Expr) : (group inner).leaves = inner.leaves := by
  simp [leaves, walk, isLeaf]

@[simp] theorem leaves_repetition (template separator : Expr) :
    (repetition template separator).leaves = template.leaves ++ separator.leaves := by
  simp [leaves, walk, isLeaf]

@[simp] theorem leaves_node (kind : Chain) (items : List Expr) :
    (kind.node items).leaves = items.flatMap leaves := by
  have chain : (kind.node items).isLeaf = false := by cases kind <;> rfl
  simp only [leaves, walk_node, List.filter_cons, chain, walkAll_eq_flatMap, List.filter_flatMap,
    Bool.false_eq_true, if_false]
  rfl

theorem Alike.leaves_eq {left right : Expr} (alike : Alike left right) :
    left.leaves = right.leaves := by
  induction alike with
  | group inner => exact leaves_group inner
  | splice kind front inner back =>
      simp only [leaves_node, List.flatMap_append, List.flatMap_cons, List.append_assoc]
  | refl => rfl
  | symm _ ih => exact ih.symm
  | trans _ _ ihFirst ihSecond => exact ihFirst.trans ihSecond
  | inGroup _ ih => simpa only [leaves_group] using ih
  | inRepetition _ _ ihTemplate ihSeparator =>
      simp only [leaves_repetition, ihTemplate, ihSeparator]
  | inChain kind front back _ ih =>
      simp only [leaves_node, List.flatMap_append, List.flatMap_cons, ih]

theorem leaves_of_normalize {tree found : Expr} (normal : tree.normalize = .ok found) :
    found.leaves = tree.leaves := by
  have proper : tree.Proper := exists_normalize_iff.mp ⟨found, normal⟩
  rw [proper.normalize_eq] at normal
  cases normal
  exact proper.alike_normal.leaves_eq

theorem filterMap_walk_eq (tree : Expr) :
    tree.walk.filterMap referenceName? = tree.leaves.filterMap referenceName? := by
  rw [leaves, List.filterMap_filter]
  apply List.filterMap_congr
  intro node _
  cases node <;> rfl

end Expr

/-! ## Tables -/

/-- The same rule, or the same with its expression in normal form. -/
def Rule.Renormalized (before after : Rule) : Prop :=
  after.name = before.name ∧
    (after.expression = before.expression ∨
      before.expression.normalize = .ok after.expression)

theorem Rule.Renormalized.leaves_eq {before after : Rule}
    (renormalized : before.Renormalized after) :
    after.expression.leaves = before.expression.leaves := by
  rcases renormalized.2 with same | normal
  · rw [same]
  · exact Expr.leaves_of_normalize normal

namespace Table

variable {before after : Table}

theorem map_renormalized {β : Type} {view : Rule → β}
    (alike : ∀ old new : Rule, old.Renormalized new → view old = view new)
    (each : List.Forall₂ Rule.Renormalized before.rules after.rules) :
    before.rules.map view = after.rules.map view := by
  have same : List.Forall₂ (· = ·) (before.rules.map view) (after.rules.map view) := by
    rw [List.forall₂_map_left_iff, List.forall₂_map_right_iff]
    exact each.imp alike
  rwa [List.forall₂_eq_eq_eq] at same

theorem defines_renormalized (each : List.Forall₂ Rule.Renormalized before.rules after.rules) :
    before.defines = after.defines := by
  have names : before.names = after.names := map_renormalized (fun _ _ same => same.1.symm) each
  funext name
  rw [Bool.eq_iff_iff, defines_iff, defines_iff, names]

theorem references_renormalized
    (each : List.Forall₂ Rule.Renormalized before.rules after.rules) :
    before.references = after.references := by
  have leaves : before.rules.map (·.expression.leaves) = after.rules.map (·.expression.leaves) :=
    map_renormalized (fun _ _ same => same.leaves_eq.symm) each
  have viewed : ∀ table : Table, table.references =
      (table.rules.map (·.expression.leaves)).flatMap (List.filterMap Expr.referenceName?) := by
    intro table
    simp only [references, Expr.filterMap_walk_eq, List.flatMap_map]
  rw [viewed, viewed, leaves]

theorem dangling_renormalized (each : List.Forall₂ Rule.Renormalized before.rules after.rules) :
    after.dangling = before.dangling := by
  rw [dangling, dangling, defines_renormalized each, references_renormalized each]

/-- A proper tree and its normal form have the same leaves in the same order. So the names that are
referred to and not defined are the same, in the same order, whichever rules of a table have their
expressions in normal form; what is no expression may stand in the others. -/
theorem normalize_keeps_leaf_order {tree : Expr} (proper : tree.Proper)
    (each : List.Forall₂ Rule.Renormalized before.rules after.rules) :
    (∃ found, tree.normalize = .ok found ∧ found.leaves = tree.leaves) ∧
    after.dangling = before.dangling := by
  refine ⟨⟨tree.normal, proper.normalize_eq, ?_⟩, dangling_renormalized each⟩
  exact Expr.leaves_of_normalize proper.normalize_eq

/-- The first rule loses its group and the sequence in it, and the second, which has no normal form,
stays as it is. -/
theorem regrouped_rule_dangling :
    Expr.Proper (.group (.sequence [.reference ['x'], .sequence [.reference ['a']]])) ∧
    List.Forall₂ Rule.Renormalized
      [⟨['a'], .group (.sequence [.reference ['x'], .sequence [.reference ['a']]])⟩,
        ⟨['b'], .union [.reference ['y'], .comment]⟩]
      [⟨['a'], .sequence [.reference ['x'], .reference ['a']]⟩,
        ⟨['b'], .union [.reference ['y'], .comment]⟩] ∧
    (∃ found, Expr.normalize (.group (.sequence [.reference ['x'],
        .sequence [.reference ['a']]])) = .ok found ∧
      found.leaves = [.reference ['x'], .reference ['a']]) ∧
    dangling ⟨[⟨['a'], .sequence [.reference ['x'], .reference ['a']]⟩,
      ⟨['b'], .union [.reference ['y'], .comment]⟩], some ['a']⟩ = [['x'], ['y']] := by
  have proper : Expr.Proper (.group (.sequence [.reference ['x'],
      .sequence [.reference ['a']]])) := by decide
  refine ⟨proper, (and_iff_left_of_imp fun each => ?_).mpr ?_⟩
  · exact @normalize_keeps_leaf_order ⟨_, some ['a']⟩ ⟨_, some ['a']⟩ _ proper each
  · exact List.Forall₂.cons ⟨rfl, Or.inr proper.normalize_eq⟩
      (List.Forall₂.cons ⟨rfl, Or.inl rfl⟩ List.Forall₂.nil)

end Table

end Rulebook
