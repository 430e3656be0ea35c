import Rulebook.Fault
import Rulebook.Proofs.NormalForm

/-!
Nodes that are no expression: rules, comments, collections and values of any other kind. Normalizing
goes through a tree on its own way, children before their parent, and stops at the first node that
is no expression; the walk lists every node before its children. Neither looks into such a node, so
the two agree: normalizing stops at the first one in the walk, and it stops nowhere else.
-/

namespace Rulebook.Expr

variable {α : Type}

def stoppedAt : Except Expr α → Option Expr
  | .error node => some node
  | .ok _ => none

theorem stoppedAt_eq_some_iff {result : Except Expr α} {node : Expr} :
    stoppedAt result = some node ↔ result = .error node := by
  cases result <;> simp [stoppedAt]

theorem stoppedAt_eq_none_iff {result : Except Expr α} :
    stoppedAt result = none ↔ ∃ found, result = .ok found := by
  cases result <;> simp [stoppedAt]

/-! ## Where normalizing stops -/

/-- A template is normalized before the separator. -/
theorem stoppedAt_repetition (template separator : Expr) :
    stoppedAt (repetition template separator).normalize =
      (stoppedAt template.normalize).or (stoppedAt separator.normalize) := by
  rw [normalize]
  cases template.normalize with
  | error node => rfl
  | ok found => cases separator.normalize <;> rfl

theorem stoppedAt_node (kind : Chain) (items : List Expr) :
    stoppedAt (kind.node items).normalize = stoppedAt (normalizeAll items) := by
  cases kind <;> simp only [Chain.node, normalize] <;> cases normalizeAll items <;> rfl

theorem stoppedAt_cons (first : Expr) (others : List Expr) :
    stoppedAt (normalizeAll (first :: others)) =
      (stoppedAt first.normalize).or (stoppedAt (normalizeAll others)) := by
  rw [normalizeAll]
  cases first.normalize with
  | error node => rfl
  | ok found => cases normalizeAll others <;> rfl

theorem find?_walk_node (kind : Chain) (items : List Expr) :
    (kind.node items).walk.find? isForeign = (walkAll items).find? isForeign := by
  rw [walk_node, List.find?_cons_of_neg (by cases kind <;> simp [Chain.node, isForeign])]

mutual

theorem stoppedAt_normalize : ∀ tree : Expr,
    stoppedAt tree.normalize = tree.walk.find? isForeign
  | .text _ | .pattern _ _ _ | .reference _ => rfl
  | .rule _ _ | .comment | .list _ | .tuple _ | .dict _ | .datum _ => rfl
  | .group inner => stoppedAt_normalize inner
  | .repetition template separator => by
      rw [stoppedAt_repetition, stoppedAt_normalize template, stoppedAt_normalize separator, walk,
        List.find?_cons_of_neg (by simp [isForeign]), List.find?_append]
  | .sequence items =>
      calc stoppedAt (sequence items).normalize
        _ = stoppedAt (normalizeAll items) := stoppedAt_node .sequence items
        _ = (walkAll items).find? isForeign := stoppedAt_normalizeAll items
        _ = (sequence items).walk.find? isForeign := (find?_walk_node .sequence items).symm
  | .union items =>
      calc stoppedAt (union items).normalize
        _ = stoppedAt (normalizeAll items) := stoppedAt_node .union items
        _ = (walkAll items).find? isForeign := stoppedAt_normalizeAll items
        _ = (union items).walk.find? isForeign := (find?_walk_node .union items).symm

theorem stoppedAt_normalizeAll : ∀ items : List Expr,
    stoppedAt (normalizeAll items) = (walkAll items).find? isForeign
  | [] => rfl
  | first :: others => by
      rw [stoppedAt_cons, stoppedAt_normalize first, stoppedAt_normalizeAll others, walkAll,
        List.find?_append]

end

theorem exists_normalize_iff {tree : Expr} :
    (∃ found, tree.normalize = .ok found) ↔ tree.Proper := by
  rw [← stoppedAt_eq_none_iff, stoppedAt_normalize, List.find?_eq_none, proper_iff_walk]
  simp

/-- Normalizing stops exactly if something in the walk is no expression, and then at the first such
node, which the message shows; otherwise it gives a tree. -/
theorem normalize_stops_at_first_foreign (tree : Expr) :
    ((∃ node, tree.normalize = .error node) ↔ ∃ node ∈ tree.walk, node.isForeign = true) ∧
    (∀ node, tree.normalize = .error node →
      (∃ front back, tree.walk = front ++ node :: back ∧ node.isForeign = true ∧
        ∀ earlier ∈ front, earlier.isForeign = false) ∧
      (Fault.foreignNode node).message =
        "unknown node during tree normalization: ".toList ++ node.display) ∧
    ((∀ node ∈ tree.walk, node.isForeign = false) → ∃ found, tree.normalize = .ok found) := by
  refine ⟨?_, fun node stopped => ⟨?_, rfl⟩, ?_⟩
  · simp only [← stoppedAt_eq_some_iff, stoppedAt_normalize, ← Option.isSome_iff_exists,
      List.find?_isSome]
  · rw [← stoppedAt_eq_some_iff, stoppedAt_normalize, List.find?_eq_some_iff_append] at stopped
    obtain ⟨foreign, front, back, same, clean⟩ := stopped
    exact ⟨front, back, same, foreign, by simpa using clean⟩
  · intro clean
    exact exists_normalize_iff.mpr (proper_iff_walk.mpr clean)

/-- A tuple is foreign as a whole, whatever it holds, and is met before what follows it. -/
theorem tuple_stops_normalizing :
    (sequence [group (tuple [text ['a'], datum (.other "<object>".toList 0)]), comment]).normalize =
      .error (tuple [text ['a'], datum (.other "<object>".toList 0)]) ∧
    (∃ front back,
      (sequence [group (tuple [text ['a'], datum (.other "<object>".toList 0)]), comment]).walk =
        front ++ tuple [text ['a'], datum (.other "<object>".toList 0)] :: back ∧
      ∀ earlier ∈ front, earlier.isForeign = false) ∧
    (Fault.foreignNode (tuple [text ['a'], datum (.other "<object>".toList 0)])).message =
      "unknown node during tree normalization: (Text(value='a'), <object>)".toList := by
  have stops := normalize_stops_at_first_foreign
    (sequence [group (tuple [text ['a'], datum (.other "<object>".toList 0)]), comment])
  obtain ⟨⟨front, back, same, _, clean⟩, message⟩ := stops.2.1 _ rfl
  exact ⟨rfl, ⟨front, back, same, clean⟩, message⟩

end Rulebook.Expr
