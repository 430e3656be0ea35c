import Rulebook.Proofs.NormalForm

/-!
Trees that differ in grouping and in the nesting of chains only. Two moves make them: a group is
what is in it, and a chain among the items of a chain of its kind is its own items in its place.
Normalizing makes such moves and no others, and leaves one tree of each class.
-/

namespace Rulebook.Expr

/-- The smallest congruence with the two moves. -/
inductive Alike : Expr → Expr → Prop where
  | group (inner) : Alike (.group inner) inner
  | splice (kind : Chain) (front inner back) :
      Alike (kind.node (front ++ kind.node inner :: back)) (kind.node (front ++ inner ++ back))
  | refl (tree) : Alike tree tree
  | symm {left right} : Alike left right → Alike right left
  | trans {left middle right} : Alike left middle → Alike middle right → Alike left right
  | inGroup {left right} : Alike left right → Alike (.group left) (.group right)
  | inRepetition {left right leftBetween rightBetween} : Alike left right →
      Alike leftBetween rightBetween →
      Alike (.repetition left leftBetween) (.repetition right rightBetween)
  | inChain (kind : Chain) (front back) {left right} : Alike left right →
      Alike (kind.node (front ++ left :: back)) (kind.node (front ++ right :: back))

theorem Alike.proper_iff {left right : Expr} (alike : Alike left right) :
    left.Proper ↔ right.Proper := by
  induction alike with
  | group inner => exact proper_group_iff
  | splice kind front inner back =>
      simp only [proper_node_iff, List.mem_append, List.mem_cons, or_imp, forall_and,
        forall_eq, and_assoc]
  | refl => rfl
  | symm _ ih => exact ih.symm
  | trans _ _ ihFirst ihSecond => exact ihFirst.trans ihSecond
  | inGroup _ ih => simp only [proper_group_iff, ih]
  | inRepetition _ _ ihTemplate ihSeparator =>
      simp only [proper_repetition_iff, ihTemplate, ihSeparator]
  | inChain kind front back _ ih =>
      simp only [proper_node_iff, List.mem_append, List.mem_cons, or_imp, forall_and,
        forall_eq, ih]

/-! ## Moves do not change the normal form -/

theorem Alike.normal_eq {left right : Expr} (alike : Alike left right) :
    left.normal = right.normal := by
  induction alike with
  | group inner => exact normal_group inner
  | splice kind front inner back =>
      simp only [normal_node, List.map_append, List.map_cons, Chain.expand_inner]
      simp only [Chain.expand_append, Chain.expand_expand]
  | refl => rfl
  | symm _ ih => exact ih.symm
  | trans _ _ ihFirst ihSecond => exact ihFirst.trans ihSecond
  | inGroup _ ih => simpa only [normal_group] using ih
  | inRepetition _ _ ihTemplate ihSeparator =>
      simp only [normal_repetition, ihTemplate, ihSeparator]
  | inChain kind front back _ ih => simp only [normal_node, List.map_append, List.map_cons, ih]

/-! ## Normalizing makes moves only -/

theorem Alike.inItems (kind : Chain) {change : Expr → Expr} {items : List Expr}
    (each : ∀ item ∈ items, Alike (change item) item) (front : List Expr) :
    Alike (kind.node (front ++ items.map change)) (kind.node (front ++ items)) := by
  induction items generalizing front with
  | nil => exact Alike.refl _
  | cons first others ih =>
      have later := ih (fun item member => each item (List.mem_cons_of_mem first member))
        (front ++ [change first])
      -- the items behind are changed first, then the one in front of them
      simp only [List.append_assoc, List.singleton_append] at later
      exact later.trans (Alike.inChain kind front others (each first List.mem_cons_self))

theorem Alike.spliced (kind : Chain) (front items : List Expr) :
    Alike (kind.node (front ++ kind.splice items)) (kind.node (front ++ items)) := by
  induction items generalizing front with
  | nil => exact Alike.refl _
  | cons first others ih =>
      unfold Chain.splice
      split
      · rename_i inner found
        -- the items of the node join what stands before, and the rest is spliced behind them
        rw [Chain.items?_eq_some_iff.mp found, ← List.append_assoc]
        exact (ih (front ++ inner)).trans (Alike.splice kind front inner others).symm
      · rw [List.append_cons, List.append_cons front first others]
        exact ih (front ++ [first])

theorem Alike.unnested (kind : Chain) (items : List Expr) :
    Alike (kind.node (kind.unnest items)) (kind.node items) := by
  fun_induction Chain.unnest kind items with
  | case1 items some_left _ ih => exact ih.trans (Alike.spliced kind [] items)
  | case2 items none_left => exact Alike.refl _

theorem Proper.alike_normal {tree : Expr} (proper : tree.Proper) : Alike tree.normal tree := by
  have chain : ∀ (kind : Chain) {items : List Expr}, (∀ item ∈ items, Alike item.normal item) →
      Alike (kind.node items).normal (kind.node items) := by
    intro kind items each
    rw [normal_node, ← Chain.unnest_eq_expand]
    exact (Alike.unnested kind _).trans (Alike.inItems kind each [])
  induction proper with
  | text | pattern | reference => exact Alike.refl _
  | repetition _ _ ihTemplate ihSeparator => exact Alike.inRepetition ihTemplate ihSeparator
  | sequence _ ih => exact chain .sequence ih
  | union _ ih => exact chain .union ih
  | group _ ih => exact ih.trans (Alike.group _).symm

/-! ## Deciding -/

/-- Normalizing a proper tree gives a tree alike, and two proper trees are alike exactly if their
normal forms are equal. What is alike to a proper tree is proper, so that no class of trees holds
proper trees and others. -/
theorem normalize_decides_alike {left right : Expr} (properLeft : left.Proper)
    (properRight : right.Proper) :
    ∃ first second, left.normalize = .ok first ∧ right.normalize = .ok second ∧
      Alike first left ∧ Alike second right ∧ (first.same second = true ↔ Alike left right) ∧
      ∀ other, Alike left other → other.Proper := by
  have properNormal : left.normal.Proper := properLeft.alike_normal.proper_iff.mpr properLeft
  refine ⟨left.normal, right.normal, properLeft.normalize_eq, properRight.normalize_eq,
    properLeft.alike_normal, properRight.alike_normal, ?_,
    fun other alike => alike.proper_iff.mp properLeft⟩
  rw [properNormal.same_iff_eq]
  constructor
  -- from one tree to the other by way of the normal form they share
  · intro same
    have middle := properLeft.alike_normal.symm
    rw [same] at middle
    exact middle.trans properRight.alike_normal
  · exact Alike.normal_eq

theorem regrouped_chain_alike :
    Proper (.sequence [.group (.sequence [.text ['a'], .text ['b']]), .union [.text ['c']]]) ∧
    Proper (.sequence [.text ['a'], .sequence [.text ['b'], .sequence [], .union [.text ['c']]]]) ∧
    Alike (.sequence [.group (.sequence [.text ['a'], .text ['b']]), .union [.text ['c']]])
      (.sequence [.text ['a'], .sequence [.text ['b'], .sequence [], .union [.text ['c']]]]) := by
  have properLeft : Proper
      (.sequence [.group (.sequence [.text ['a'], .text ['b']]), .union [.text ['c']]]) := by decide
  have properRight : Proper
      (.sequence [.text ['a'], .sequence [.text ['b'], .sequence [], .union [.text ['c']]]]) := by
    decide
  refine ⟨properLeft, properRight, ?_⟩
  rcases normalize_decides_alike properLeft properRight with
    ⟨first, second, firstNormal, secondNormal, _, _, decides, _⟩
  rw [properLeft.normalize_eq] at firstNormal
  rw [properRight.normalize_eq] at secondNormal
  cases firstNormal
  cases secondNormal
  exact decides.mp rfl

end Rulebook.Expr
