import Rulebook.Proofs.ChainExpansion
import Rulebook.Proofs.ProperTree

/-!
The normal form as a function. Normalizing may stop at a node that is no expression; on proper trees
it does not, and then a chain has the normal forms of its items, expanded.
-/

namespace Rulebook.Expr

mutual

/-- The normal form of a proper tree. Nodes that are no expression stay. -/
def normal : Expr → Expr
  | .repetition template separator => .repetition (normal template) (normal separator)
  | .sequence items => .sequence (Chain.sequence.expand (normalItems items))
  | .union items => .union (Chain.union.expand (normalItems items))
  | .group inner => normal inner
  | other => other

def normalItems : List Expr → List Expr
  | [] => []
  | first :: others => normal first :: normalItems others

end

theorem normalItems_eq_map (items : List Expr) : normalItems items = items.map normal := by
  induction items with
  | nil => rfl
  | cons first others ih => rw [normalItems, ih, List.map_cons]

@[simp] theorem normal_group (inner : Expr) : (group inner).normal = inner.normal := rfl

@[simp] theorem normal_repetition (template separator : Expr) :
    (repetition template separator).normal = repetition template.normal separator.normal := rfl

@[simp] theorem normal_node (kind : Chain) (items : List Expr) :
    (kind.node items).normal = kind.node (kind.expand (items.map normal)) := by
  cases kind <;> simp [Chain.node, normal, normalItems_eq_map]

/-! ## Normalizing proper trees -/

theorem normalizeAll_eq_map {items : List Expr}
    (each : ∀ item ∈ items, item.normalize = .ok item.normal) :
    normalizeAll items = .ok (items.map normal) := by
  induction items with
  | nil => rfl
  | cons first others ih =>
      have later := ih fun item member => each item (List.mem_cons_of_mem first member)
      simp only [normalizeAll, each first List.mem_cons_self, later, List.map_cons]

theorem normalize_node {kind : Chain} {items found : List Expr}
    (each : normalizeAll items = .ok found) :
    (kind.node items).normalize = .ok (kind.node (kind.unnest found)) := by
  cases kind <;> simp only [Chain.node, normalize, each]

theorem Proper.normalize_eq {tree : Expr} (proper : tree.Proper) :
    tree.normalize = .ok tree.normal := by
  have chain : ∀ (kind : Chain) {items : List Expr},
      (∀ item ∈ items, item.normalize = .ok item.normal) →
      (kind.node items).normalize = .ok (kind.node items).normal := by
    intro kind items each
    rw [normalize_node (normalizeAll_eq_map each), Chain.unnest_eq_expand, normal_node]
  induction proper with
  | text | pattern | reference => rfl
  | repetition _ _ ihTemplate ihSeparator =>
      simp only [normalize, ihTemplate, ihSeparator, normal_repetition]
  | sequence _ ih => exact chain .sequence ih
  | union _ ih => exact chain .union ih
  | group _ ih => exact ih

end Rulebook.Expr
