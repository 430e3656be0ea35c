import Rulebook.Proofs.LeafOrder

/-!
Places in trees. A place tells the way to a node: at each step a number picks one of the parts of
the node that was reached. Places are compared as lists of numbers are, so that a node comes before
its parts, and everything in one part before everything in the next. The walk of a tree visits the
nodes at all its places in this order.
-/

namespace Rulebook

namespace Expr

def parts : Expr → List Expr
  | .repetition template separator => [template, separator]
  | .sequence items | .union items => items
  | .group inner => [inner]
  | _ => []

def at? : Expr → List Nat → Option Expr
  | tree, [] => some tree
  | tree, index :: place =>
      match tree.parts[index]? with
      | none => none
      | some part => part.at? place

/-- The node at a place in one of several trees; the first number picks the tree. -/
def among? (trees : List Expr) : List Nat → Option Expr
  | [] => none
  | index :: place =>
      match trees[index]? with
      | none => none
      | some tree => tree.at? place

variable {tree node : Expr} {trees others : List Expr} {place : List Nat}

mutual

theorem byParts {holds : Expr → Prop}
    (step : ∀ tree, (∀ part ∈ tree.parts, holds part) → holds tree) : ∀ tree, holds tree
  | .text value => step (.text value) nofun
  | .pattern source ignoreCase dotAll => step (.pattern source ignoreCase dotAll) nofun
  | .reference name => step (.reference name) nofun
  | .repetition template separator => by
      have first := byParts step template
      have second := byParts step separator
      apply step
      simp [parts, first, second]
  | .sequence items => step (.sequence items) (byPartsAll step items)
  | .union items => step (.union items) (byPartsAll step items)
  | .group inner => by
      have inside := byParts step inner
      apply step
      simpa [parts] using inside
  | .rule name expression => step (.rule name expression) nofun
  | .comment => step .comment nofun
  | .list items => step (.list items) nofun
  | .tuple items => step (.tuple items) nofun
  | .dict fields => step (.dict fields) nofun
  | .datum value => step (.datum value) nofun

theorem byPartsAll {holds : Expr → Prop}
    (step : ∀ tree, (∀ part ∈ tree.parts, holds part) → holds tree) :
    ∀ items : List Expr, ∀ item ∈ items, holds item
  | [] => by simp
  | first :: others => by
      have front := byParts step first
      have later := byPartsAll step others
      intro item member
      rcases List.mem_cons.mp member with rfl | listed
      · exact front
      · exact later item listed

end

theorem walk_eq_parts (tree : Expr) : tree.walk = tree :: tree.parts.flatMap walk := by
  cases tree <;> simp [walk, parts, walkAll_eq_flatMap]

/-! ## Visits -/

/-- Nodes with their places: all there are, in the order of the places. -/
structure Visits (nodeAt? : List Nat → Option Expr) (visits : List (List Nat × Expr)) : Prop where
  mem_iff : ∀ place node, (place, node) ∈ visits ↔ nodeAt? place = some node
  sorted : visits.Pairwise fun earlier later => earlier.1 < later.1

def inFirst (visit : List Nat × Expr) : List Nat × Expr := (0 :: visit.1, visit.2)

def inLater (visit : List Nat × Expr) : List Nat × Expr := (visit.1.modifyHead (· + 1), visit.2)

theorem mem_map_inFirst {visits : List (List Nat × Expr)} : (place, node) ∈ visits.map inFirst ↔
    ∃ inner, place = 0 :: inner ∧ (inner, node) ∈ visits := by
  simp [inFirst, and_comm, eq_comm]

theorem Visits.place_eq_cons {visits : List (List Nat × Expr)}
    (visiting : Visits (among? trees) visits) (member : (place, node) ∈ visits) :
    ∃ index inner, place = index :: inner := by
  cases place with
  | nil => cases (visiting.mem_iff [] node).mp member
  | cons index inner => exact ⟨index, inner, rfl⟩

theorem Visits.mem_map_inLater {visits : List (List Nat × Expr)}
    (visiting : Visits (among? trees) visits) : (place, node) ∈ visits.map inLater ↔
      ∃ index inner, place = (index + 1) :: inner ∧ (index :: inner, node) ∈ visits := by
  constructor
  · intro member
    obtain ⟨⟨found, _⟩, inside, same⟩ := List.mem_map.mp member
    obtain ⟨index, inner, rfl⟩ := visiting.place_eq_cons inside
    cases same
    exact ⟨index, inner, rfl, inside⟩
  · rintro ⟨index, inner, rfl, inside⟩
    exact List.mem_map.mpr ⟨_, inside, rfl⟩

theorem visits_nil : Visits (among? []) [] := by
  refine ⟨fun place node => ?_, List.Pairwise.nil⟩
  cases place <;> simp [among?]

theorem Visits.cons {first later : List (List Nat × Expr)} (inside : Visits tree.at? first)
    (outside : Visits (among? others) later) :
    Visits (among? (tree :: others)) (first.map inFirst ++ later.map inLater) := by
  constructor
  · intro place node
    rw [List.mem_append, mem_map_inFirst, outside.mem_map_inLater]
    simp only [inside.mem_iff, outside.mem_iff]
    match place with
    | [] => simp [among?]
    | 0 :: place => simp [among?]
    | (index + 1) :: place => simp [among?]
  · rw [List.pairwise_append, List.pairwise_map, List.pairwise_map]
    refine ⟨?_, ?_, ?_⟩
    · apply inside.sorted.imp
      intro earlier later before
      simpa [inFirst] using before
    · apply outside.sorted.imp_of_mem
      intro earlier later member member' before
      obtain ⟨index, inner, same⟩ := outside.place_eq_cons member
      obtain ⟨index', inner', same'⟩ := outside.place_eq_cons member'
      rw [same, same'] at before
      simpa [inLater, same, same', List.cons_lt_cons_iff] using before
    -- places in the first tree begin with 0, those in the others with more
    · rintro ⟨place, _⟩ front ⟨place', _⟩ back
      obtain ⟨inner, rfl, _⟩ := mem_map_inFirst.mp front
      obtain ⟨index, inner', rfl, _⟩ := outside.mem_map_inLater.mp back
      simp [List.cons_lt_cons_iff]

/-- The nodes are those at all places, in the order of the places. -/
def InPreorder (nodeAt? : List Nat → Option Expr) (nodes : List Expr) : Prop :=
  ∃ visits, Visits nodeAt? visits ∧ visits.map Prod.snd = nodes

theorem inPreorder_among {trees : List Expr} (each : ∀ tree ∈ trees, InPreorder tree.at? tree.walk) :
    InPreorder (among? trees) (trees.flatMap walk) := by
  induction trees with
  | nil => exact ⟨[], visits_nil, rfl⟩
  | cons first others ih =>
      obtain ⟨ordered, orderedOthers⟩ := List.forall_mem_cons.mp each
      obtain ⟨front, inside, nodes⟩ := ordered
      obtain ⟨back, outside, later⟩ := ih orderedOthers
      refine ⟨_, inside.cons outside, ?_⟩
      rw [List.flatMap_cons, ← nodes, ← later, List.map_append, List.map_map, List.map_map]
      rfl

theorem at?_cons (tree : Expr) (index : Nat) (place : List Nat) :
    tree.at? (index :: place) = among? tree.parts (index :: place) := rfl

theorem inPreorder_walk (tree : Expr) : InPreorder tree.at? tree.walk := by
  induction tree using byParts with
  | step tree ih =>
      obtain ⟨visits, visiting, nodes⟩ := inPreorder_among ih
      refine ⟨([], tree) :: visits, ⟨?_, ?_⟩, ?_⟩
      · intro place node
        cases place with
        | nil =>
            have noRoot : ([], node) ∉ visits := by
              intro member
              cases (visiting.mem_iff [] node).mp member
            simp [at?, noRoot, eq_comm]
        | cons index inner => simp [at?_cons, visiting.mem_iff]
      · rw [List.pairwise_cons]
        refine ⟨?_, visiting.sorted⟩
        rintro ⟨place, _⟩ member
        obtain ⟨index, inner, rfl⟩ := visiting.place_eq_cons member
        simp
      · rw [List.map_cons, nodes, walk_eq_parts]

theorem inPreorder_walks (trees : List Expr) : InPreorder (among? trees) (trees.flatMap walk) :=
  inPreorder_among fun tree _ => inPreorder_walk tree

end Expr

end Rulebook
