import Rulebook.Proofs.ChainExpansion

/-!
How many rounds splicing takes. A round may bring up new nodes of the kind and may make the items
more or fewer, so neither the items nor the nodes of the kind among them are counted. What falls is
the number of layers: of nodes of the kind, each an item of the one before it. A round takes the
outermost layer away, and the rounds are as many as the layers.
-/

namespace Rulebook.Chain

mutual

/-- How deep nodes of the kind stand in each other, the outermost being the node itself. -/
def layers (kind : Chain) : Expr → Nat
  | .sequence items => if kind = .sequence then layersAll kind items + 1 else 0
  | .union items => if kind = .union then layersAll kind items + 1 else 0
  | _ => 0

def layersAll (kind : Chain) : List Expr → Nat
  | [] => 0
  | first :: others => max (layers kind first) (layersAll kind others)

end

/-- Rounds of splicing that have come to an end: each one found a node of the kind among the items,
and the last one left none. -/
inductive Splices (kind : Chain) : Nat → List Expr → List Expr → Prop where
  | settled {items} : (∀ inner, kind.node inner ∉ items) → Splices kind 0 items items
  | spliced {rounds items inner result} : kind.node inner ∈ items →
      Splices kind rounds (kind.splice items) result → Splices kind (rounds + 1) items result

variable {kind : Chain}

theorem items?_eq_none_iff {node : Expr} :
    kind.items? node = none ↔ ∀ inner, kind.node inner ≠ node := by
  simp only [Option.eq_none_iff_forall_ne_some, ne_eq, items?_eq_some_iff, @eq_comm _ node]

theorem some_left_iff {items : List Expr} :
    items.any (fun item => (kind.items? item).isSome) = true ↔
      ∃ inner, kind.node inner ∈ items := by
  simp only [List.any_eq_true, Option.isSome_iff_exists, items?_eq_some_iff]
  constructor
  · rintro ⟨_, member, inner, rfl⟩
    exact ⟨inner, member⟩
  · rintro ⟨inner, member⟩
    exact ⟨_, member, inner, rfl⟩

/-! ## Layers -/

theorem layers_node (items : List Expr) :
    kind.layers (kind.node items) = kind.layersAll items + 1 := by
  cases kind <;> simp [node, layers]

theorem layers_eq_zero_iff {node : Expr} :
    kind.layers node = 0 ↔ ∀ inner, kind.node inner ≠ node := by
  cases kind <;> cases node <;> simp [layers, node]

theorem layersAll_eq_zero_iff {items : List Expr} :
    kind.layersAll items = 0 ↔ ∀ inner, kind.node inner ∉ items := by
  induction items with
  | nil => simp [layersAll]
  | cons first others ih =>
      rw [layersAll, Nat.max_eq_zero_iff, layers_eq_zero_iff, ih]
      simp only [List.mem_cons, not_or, forall_and, ne_eq]

theorem layersAll_append (left right : List Expr) :
    kind.layersAll (left ++ right) = max (kind.layersAll left) (kind.layersAll right) := by
  induction left with
  | nil => simp [layersAll]
  | cons first others ih => simp only [List.cons_append, layersAll, ih, Nat.max_assoc]

theorem layersAll_splice (items : List Expr) :
    kind.layersAll (kind.splice items) = kind.layersAll items - 1 := by
  induction items with
  | nil => rfl
  | cons first others ih =>
      unfold splice
      split
      · rename_i inner found
        rw [layersAll_append, ih, layersAll, items?_eq_some_iff.mp found, layers_node]
        omega
      · rename_i other
        rw [layersAll, ih, layersAll, layers_eq_zero_iff.mpr (items?_eq_none_iff.mp other)]
        omega

/-! ## Rounds -/

theorem Splices.rounds_eq {rounds : Nat} {items result : List Expr}
    (splices : Splices kind rounds items result) : rounds = kind.layersAll items := by
  induction splices with
  | settled flat => exact (layersAll_eq_zero_iff.mpr flat).symm
  | spliced member _ ih =>
      have left := mt layersAll_eq_zero_iff.mp fun flat => flat _ member
      rw [layersAll_splice] at ih
      omega

theorem Splices.unnest_eq {rounds : Nat} {items result : List Expr}
    (splices : Splices kind rounds items result) : kind.unnest items = result := by
  induction splices with
  | settled flat =>
      have none_left := mt some_left_iff.mp (not_exists.mpr flat)
      rw [unnest, dif_neg none_left]
  | spliced member _ ih => rw [unnest, dif_pos (some_left_iff.mpr ⟨_, member⟩), ih]

theorem unnest_splices (items : List Expr) :
    ∃ rounds, Splices kind rounds items (kind.unnest items) := by
  fun_induction unnest kind items with
  | case1 items some_left _ ih =>
      obtain ⟨inner, member⟩ := some_left_iff.mp some_left
      obtain ⟨rounds, splices⟩ := ih
      exact ⟨rounds + 1, Splices.spliced member splices⟩
  | case2 items none_left =>
      exact ⟨0, Splices.settled (not_exists.mp (mt some_left_iff.mpr none_left))⟩

/-- Whatever the items are, the rounds come to an end, in one way and after as many of them as there
are layers. What they leave has no node of the kind in it and is what one walk from left to right
gives that opens each such node where it stands, to the last one, and looks into no other node. So
the items of one list do not change what becomes of those of another. -/
theorem unnest_ends_expanded (kind : Chain) (items : List Expr) :
    (∀ rounds result, Splices kind rounds items result ↔
      rounds = kind.layersAll items ∧ result = kind.unnest items) ∧
    (∀ inner, kind.node inner ∉ kind.unnest items) ∧
    kind.unnest items = kind.expand items ∧
    ∀ more, kind.unnest (items ++ more) = kind.unnest items ++ kind.unnest more := by
  refine ⟨fun rounds result => ⟨?_, ?_⟩, ?_, unnest_eq_expand items, ?_⟩
  · intro splices
    exact ⟨splices.rounds_eq, splices.unnest_eq.symm⟩
  · rintro ⟨rfl, rfl⟩
    obtain ⟨rounds, splices⟩ := @unnest_splices kind items
    rw [← splices.rounds_eq]
    exact splices
  · intro inner member
    exact items?_eq_none_iff.mp (unnest_flat items _ member) inner rfl
  · intro more
    simp only [unnest_eq_expand, expand_append]

/-- Three rounds: a node inside a node inside a node. What is behind a group or in a union is no
layer. -/
example : Chain.sequence.layersAll [.sequence [], .group (.sequence [.sequence []]),
    .sequence [.union [.sequence []], .sequence [.sequence [.text ['a']]]]] = 3 := by decide

end Rulebook.Chain
