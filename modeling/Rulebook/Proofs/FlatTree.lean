import Rulebook.Proofs.Regrouping

/-!
Flat trees. A tree is flat if it has no group and no chain is an item of a chain of its kind, at any
depth; a chain may have one item or none, and repetitions may stand in repetitions. Normal forms are
flat, and a flat tree is its own normal form.
-/

namespace Rulebook.Expr

/-- A node with nothing in it that normalizing removes, whatever its children are. -/
def FlatNode : Expr → Prop
  | .group _ => False
  | .sequence items => ∀ inner, .sequence inner ∉ items
  | .union items => ∀ inner, .union inner ∉ items
  | _ => True

def Flat (tree : Expr) : Prop := ∀ node ∈ tree.walk, FlatNode node

theorem not_flat_group (inner : Expr) : ¬ Flat (.group inner) :=
  fun flat => flat _ (mem_walk_self _)

theorem flatNode_node_iff (kind : Chain) {items : List Expr} :
    FlatNode (kind.node items) ↔ ∀ item ∈ items, kind.items? item = none := by
  have nested : FlatNode (kind.node items) ↔ ∀ inner, kind.node inner ∉ items := by
    cases kind <;> rfl
  rw [nested]
  constructor
  · intro absent item listed
    cases found : kind.items? item with
    | none => rfl
    | some inner =>
        rw [Chain.items?_eq_some_iff.mp found] at listed
        exact absurd listed (absent inner)
  · intro apart inner listed
    have none := apart _ listed
    rw [Chain.items?_eq_some_iff.mpr rfl] at none
    contradiction

theorem flat_node_iff (kind : Chain) {items : List Expr} : Flat (kind.node items) ↔
    (∀ item ∈ items, kind.items? item = none) ∧ ∀ item ∈ items, Flat item := by
  simp only [Flat, forall_walk_node_iff, flatNode_node_iff]

theorem flat_repetition_iff {template separator : Expr} :
    Flat (.repetition template separator) ↔ Flat template ∧ Flat separator := by
  simp only [Flat, forall_walk_repetition_iff, FlatNode, true_and]

/-! ## Normal forms -/

theorem Proper.normal {tree : Expr} (proper : tree.Proper) : tree.normal.Proper :=
  proper.alike_normal.proper_iff.mpr proper

theorem Proper.flat_normal {tree : Expr} (proper : tree.Proper) : Flat tree.normal := by
  have chain : ∀ (kind : Chain) {items : List Expr}, (∀ item ∈ items, Flat item.normal) →
      Flat (kind.node items).normal := by
    intro kind items each
    rw [normal_node, flat_node_iff]
    refine ⟨Chain.expand_flat, Chain.forall_mem_expand ?_ (by simpa using each)⟩
    -- the items are flat already, so a chain among them has no chain of its kind in it
    intro inner flat item inside
    obtain ⟨apart, members⟩ := (flat_node_iff kind).mp flat
    exact ⟨apart item inside, members item inside⟩
  induction proper with
  | text | pattern | reference => simp [Expr.normal, Flat, walk, FlatNode]
  | repetition _ _ ihTemplate ihSeparator => exact flat_repetition_iff.mpr ⟨ihTemplate, ihSeparator⟩
  | sequence _ ih => exact chain .sequence ih
  | union _ ih => exact chain .union ih
  | group _ ih => exact ih

theorem Flat.normal_eq {tree : Expr} (flat : Flat tree) (proper : tree.Proper) :
    tree.normal = tree := by
  have chain : ∀ (kind : Chain) {items : List Expr},
      (∀ item ∈ items, Flat item → item.normal = item) → Flat (kind.node items) →
      (kind.node items).normal = kind.node items := by
    intro kind items each flat
    obtain ⟨apart, members⟩ := (flat_node_iff kind).mp flat
    have same : items.map Expr.normal = items.map id :=
      List.map_congr_left fun item listed => each item listed (members item listed)
    rw [normal_node, same, List.map_id, Chain.expand_eq_self apart]
  induction proper with
  | text | pattern | reference => rfl
  | repetition _ _ ihTemplate ihSeparator =>
      obtain ⟨first, second⟩ := flat_repetition_iff.mp flat
      rw [normal_repetition, ihTemplate first, ihSeparator second]
  | sequence _ ih => exact chain .sequence ih flat
  | union _ ih => exact chain .union ih flat
  | group => exact absurd flat (not_flat_group _)

theorem Proper.normal_eq_self_iff {tree : Expr} (proper : tree.Proper) :
    tree.normal = tree ↔ Flat tree := by
  constructor
  · intro same
    rw [← same]
    exact proper.flat_normal
  · exact fun flat => flat.normal_eq proper

/-- Normalizing makes a proper tree flat, in one go: it changes no tree that is flat already, and so
it changes nothing the second time. A repetition stays one, of the normal forms of its operands,
whatever these are. -/
theorem normalize_flattens {tree : Expr} (proper : tree.Proper) :
    ∃ found, tree.normalize = .ok found ∧ Flat found ∧ (found.same tree = true ↔ Flat tree) ∧
      (∃ again, found.normalize = .ok again ∧ again.same found = true) ∧
      ∀ separator, separator.Proper → ∃ between, separator.normalize = .ok between ∧
        (repetition tree separator).normalize = .ok (.repetition found between) := by
  have normal := proper.normal
  refine ⟨tree.normal, proper.normalize_eq, proper.flat_normal, ?_, ?_, ?_⟩
  · rw [normal.same_iff_eq, proper.normal_eq_self_iff]
  · refine ⟨tree.normal.normal, normal.normalize_eq, ?_⟩
    rw [normal.normal.same_iff_eq, normal.normal_eq_self_iff]
    exact proper.flat_normal
  · intro separator properSeparator
    exact ⟨separator.normal, properSeparator.normalize_eq,
      (Proper.repetition proper properSeparator).normalize_eq⟩

/-- Chains behind groups, in chains of one item and of none. -/
theorem hidden_chains_flattened :
    Proper (.sequence [.group (.sequence [.group (.sequence []), .text ['a']]),
      .union [.group (.union [.sequence [.text ['b']]])]]) ∧
    Flat (.sequence [.text ['a'], .union [.sequence [.text ['b']]]]) ∧
    ¬ Flat (.sequence [.group (.sequence [.group (.sequence []), .text ['a']]),
      .union [.group (.union [.sequence [.text ['b']]])]]) ∧
    normalize (.repetition
        (.sequence [.group (.sequence [.group (.sequence []), .text ['a']]),
          .union [.group (.union [.sequence [.text ['b']]])]])
        (.group (.repetition (.text ['c']) (.text ['d'])))) =
      .ok (.repetition (.sequence [.text ['a'], .union [.sequence [.text ['b']]]])
        (.repetition (.text ['c']) (.text ['d']))) := by
  have proper : Proper (.sequence [.group (.sequence [.group (.sequence []), .text ['a']]),
      .union [.group (.union [.sequence [.text ['b']]])]]) := by decide
  have properSeparator : Proper (.group (.repetition (.text ['c']) (.text ['d']))) := by decide
  obtain ⟨found, normal, flat, unchanged, _, operands⟩ := normalize_flattens proper
  obtain ⟨between, normalBetween, whole⟩ := operands _ properSeparator
  rw [proper.normalize_eq] at normal
  rw [properSeparator.normalize_eq] at normalBetween
  cases normal
  cases normalBetween
  refine ⟨proper, flat, ?_, whole⟩
  rw [← unchanged]
  decide

end Rulebook.Expr
