import Rulebook.Expr.Normal

/-!
Splicing in rounds against one walk from left to right. A round opens every node of the kind it
finds at the top; the walk opens such a node at once, and what is in it before what follows it. Both
end with the same items.
-/

namespace Rulebook.Chain

mutual

def spread (kind : Chain) : Expr → List Expr
  | .sequence items => if kind = .sequence then expand kind items else [.sequence items]
  | .union items => if kind = .union then expand kind items else [.union items]
  | other => [other]

/-- Every node of the kind is replaced by its items, expanded; no other node is looked into. -/
def expand (kind : Chain) : List Expr → List Expr
  | [] => []
  | first :: others => spread kind first ++ expand kind others

end

variable {kind : Chain}

theorem items?_eq_some_iff {node : Expr} {items : List Expr} :
    kind.items? node = some items ↔ node = kind.node items := by
  cases kind <;> cases node <;> simp [items?, node]

theorem spread_node (items : List Expr) : kind.spread (kind.node items) = kind.expand items := by
  cases kind <;> simp [node, spread]

theorem spread_of_items?_none {node : Expr} (other : kind.items? node = none) :
    kind.spread node = [node] := by
  cases kind <;> cases node <;> simp_all [items?, spread]

theorem expand_append (left right : List Expr) :
    kind.expand (left ++ right) = kind.expand left ++ kind.expand right := by
  induction left with
  | nil => simp [expand]
  | cons first others ih => simp only [List.cons_append, expand, ih, List.append_assoc]

theorem expand_eq_self {items : List Expr} (flat : ∀ item ∈ items, kind.items? item = none) :
    kind.expand items = items := by
  induction items with
  | nil => simp [expand]
  | cons first others ih =>
      have later := ih fun item member => flat item (List.mem_cons_of_mem first member)
      rw [expand, spread_of_items?_none (flat first List.mem_cons_self), later]
      rfl

/-- One round of splicing does no more than the walk does. -/
theorem expand_splice (items : List Expr) :
    kind.expand (kind.splice items) = kind.expand items := by
  induction items with
  | nil => rfl
  | cons first others ih =>
      unfold splice
      split
      · rename_i inner found
        rw [items?_eq_some_iff.mp found, expand_append, ih, expand, spread_node]
      · rw [expand, expand, ih]

theorem unnest_flat (items : List Expr) : ∀ item ∈ kind.unnest items, kind.items? item = none := by
  fun_induction unnest kind items with
  | case1 items some_left _ ih => exact ih
  | case2 items none_left =>
      intro item member
      simp only [List.any_eq_true, not_exists, not_and, Bool.not_eq_true,
        Option.isSome_eq_false_iff, Option.isNone_iff_eq_none] at none_left
      exact none_left item member

theorem unnest_eq_expand (items : List Expr) : kind.unnest items = kind.expand items := by
  -- no round changes the walk, and after the last round the walk changes nothing
  have walked : kind.expand (kind.unnest items) = kind.expand items := by
    fun_induction unnest kind items with
    | case1 items some_left _ ih => rw [ih, expand_splice]
    | case2 items none_left => rfl
  rw [← walked, expand_eq_self (unnest_flat items)]

theorem expand_flat {items : List Expr} : ∀ item ∈ kind.expand items, kind.items? item = none := by
  rw [← unnest_eq_expand]
  exact unnest_flat items

theorem expand_expand (items : List Expr) : kind.expand (kind.expand items) = kind.expand items :=
  expand_eq_self expand_flat

theorem spread_cases {node : Expr}
    (flat : ∀ inner, node = kind.node inner → ∀ item ∈ inner, kind.items? item = none) :
    kind.spread node = [node] ∨ ∃ inner, node = kind.node inner ∧ kind.spread node = inner := by
  cases found : kind.items? node with
  | none => exact Or.inl (spread_of_items?_none found)
  | some inner =>
      have same := items?_eq_some_iff.mp found
      refine Or.inr ⟨inner, same, ?_⟩
      rw [same, spread_node, expand_eq_self (flat inner same)]

theorem forall_mem_expand {holds : Expr → Prop} {items : List Expr}
    (hands : ∀ inner, holds (kind.node inner) →
      ∀ item ∈ inner, kind.items? item = none ∧ holds item)
    (each : ∀ item ∈ items, holds item) : ∀ member ∈ kind.expand items, holds member := by
  induction items with
  | nil => simp [expand]
  | cons first others ih =>
      have front := each first List.mem_cons_self
      have later := ih fun item member => each item (List.mem_cons_of_mem first member)
      have flat : ∀ inner, first = kind.node inner → ∀ item ∈ inner, kind.items? item = none := by
        rintro inner rfl item inside
        exact (hands inner front item inside).1
      intro member listed
      rw [expand] at listed
      rcases List.mem_append.mp listed with early | late
      · rcases spread_cases flat with alone | ⟨inner, same, opened⟩
        · rw [alone] at early
          rwa [List.mem_singleton.mp early]
        · subst same
          rw [opened] at early
          exact (hands inner front member early).2
      · exact later member late

theorem expand_inner (front inner back : List Expr) :
    kind.expand (front ++ kind.node inner :: back) = kind.expand (front ++ inner ++ back) := by
  simp only [expand_append, expand, spread_node, List.append_assoc]

end Rulebook.Chain
