import Rulebook.Proofs.CanonicalTree
import Rulebook.Proofs.RuleReading

/-!
A text for every canonical tree. Parentheses stand around what binds too loosely for its place and
nowhere else. Reading the text back nests every chain to the right and keeps the parentheses as
groups; the normal form takes both away, and takes nothing else away, for no item of a chain is a
chain of the same kind.
-/

namespace Rulebook.Grammar

/-! ## Operators by looseness -/

/-- How loosely the operator at the top of a tree binds, or zero if there is none. -/
def looseness : Expr → Nat
  | .repetition _ _ => 1
  | .sequence _ => 2
  | .union _ => 3
  | _ => 0

def itemUpTo : Nat → Part
  | 0 => .atom
  | 1 => .item .repetition
  | 2 => .item .sequence
  | _ => .item .union

theorem operand_eq_itemUpTo (level : Level) : level.operand = itemUpTo level.rank := by
  cases level <;> rfl

theorem Derives.loosen {bound more : Nat} {text rest : List Char} {tree : Expr}
    (derived : Derives (itemUpTo bound) text rest tree) (wider : bound ≤ more) :
    Derives (itemUpTo more) text rest tree := by
  induction wider with
  | refl => exact derived
  | @step middle _ ih =>
      match middle, ih with
      | 0, ih => exact Derives.operand (show Derives Level.repetition.operand _ _ _ from ih)
      | 1, ih => exact Derives.operand (show Derives Level.sequence.operand _ _ _ from ih)
      | 2, ih => exact Derives.operand (show Derives Level.union.operand _ _ _ from ih)
      | _ + 3, ih => exact ih

def Level.sign : Level → Char
  | .repetition => '^'
  | .sequence => ' '
  | .union => '|'

theorem Level.sign_marks (level : Level) : level.Mark [level.sign] := by
  cases level with
  | sequence => exact ⟨by simp [Blank, sign, Token.isBlank], by simp⟩
  | repetition | union => exact ⟨[], [], by simp [Blank], by simp [Blank], rfl⟩

theorem Level.sign_afterFlag (level : Level) (rest : List Char) :
    AfterFlag (level.sign :: rest) := by
  cases level <;> simp [AfterFlag, sign]

/-! ## Spelling a tree -/

def enclose (level : Level) (tree : Expr) (text : List Char) : List Char :=
  if looseness tree ≤ level.rank then text else '(' :: (text ++ [')'])

mutual

def spell : Expr → List Char
  | .text value => '\'' :: (value ++ ['\''])
  | .pattern source ignoreCase _ => '/' :: (source ++ '/' :: flagText ignoreCase)
  | .reference name => name
  | .repetition template separator =>
      enclose .repetition template (spell template) ++
        Level.repetition.sign :: enclose .sequence separator (spell separator)
  | .sequence items => spellItems .sequence items
  | .union items => spellItems .union items
  | _ => []

def spellItems (level : Level) : List Expr → List Char
  | [] => []
  | first :: others =>
      enclose level first (spell first) ++
        if others.isEmpty then [] else level.sign :: spellItems level others

end

/-- The text stands for the part wherever a flag at its end may be read, and what is derived there
has the tree as its normal form. -/
def Spells (part : Part) (text : List Char) (tree : Expr) : Prop :=
  ∃ raw, raw.normal = tree ∧ ∀ rest, AfterFlag rest → Derives part (text ++ rest) rest raw

variable {text : List Char} {tree : Expr}

theorem Spells.loosen {bound more : Nat} (spelled : Spells (itemUpTo bound) text tree)
    (wider : bound ≤ more) : Spells (itemUpTo more) text tree := by
  obtain ⟨raw, normal, derives⟩ := spelled
  exact ⟨raw, normal, fun rest after => (derives rest after).loosen wider⟩

theorem Spells.of_alternative {part : Part} (spelled : Spells part text tree)
    (member : part ∈ Part.alternatives) : Spells .atom text tree := by
  obtain ⟨raw, normal, derives⟩ := spelled
  exact ⟨raw, normal, fun rest after => Derives.atom member (derives rest after)⟩

theorem Spells.grouped (spelled : Spells (.item .union) text tree) :
    Spells .group ('(' :: (text ++ [')'])) tree := by
  obtain ⟨raw, normal, derives⟩ := spelled
  refine ⟨.group raw, normal, fun rest _ => ?_⟩
  have inside := derives (')' :: rest) (by simp [AfterFlag])
  have noBlank : Blank [] := by simp [Blank]
  have derived := Derives.group noBlank inside noBlank
  rw [List.nil_append] at derived
  simpa using derived

theorem Spells.enclosed (level : Level) (spelled : Spells (itemUpTo (looseness tree)) text tree) :
    Spells level.operand (enclose level tree text) tree := by
  rw [operand_eq_itemUpTo]
  unfold enclose
  split
  · rename_i fits
    exact spelled.loosen fits
  · have bound : looseness tree ≤ 3 := by cases tree <;> simp [looseness]
    -- in parentheses every operator is allowed, and they are gone in the normal form
    have whole : Spells (.item .union) text tree := spelled.loosen bound
    have grouped : Spells (itemUpTo 0) _ tree :=
      whole.grouped.of_alternative (by simp [Part.alternatives])
    exact grouped.loosen (Nat.zero_le _)

theorem Spells.repetition {template separator : Expr} {front back : List Char}
    (first : Spells .atom front template) (second : Spells (.item .repetition) back separator) :
    Spells (.item .repetition) (front ++ Level.repetition.sign :: back)
      (.repetition template separator) := by
  obtain ⟨left, rfl, derivesLeft⟩ := first
  obtain ⟨right, rfl, derivesRight⟩ := second
  refine ⟨.repetition left right, rfl, fun rest after => ?_⟩
  have operand := derivesLeft _ (Level.repetition.sign_afterFlag (back ++ rest))
  have derived := @Derives.operation .repetition _ [_] _ _ _ _ operand
    Level.repetition.sign_marks (derivesRight rest after)
  simpa [Level.join] using Derives.joined derived

def levelOf : Chain → Level
  | .sequence => .sequence
  | .union => .union

theorem levelOf_join (kind : Chain) (left right : Expr) :
    (levelOf kind).join left right = kind.node [left, right] := by
  cases kind <;> rfl

/-- What is derived nests to the right, and opened it has the items in a row. -/
theorem items_spelled (kind : Chain) {items : List Expr} (filled : items ≠ [])
    (flat : ∀ item ∈ items, kind.items? item = none)
    (each : ∀ item ∈ items, Spells (levelOf kind).operand
      (enclose (levelOf kind) item (spell item)) item) :
    ∃ raw, kind.spread raw.normal = items ∧ (2 ≤ items.length → raw.normal = kind.node items) ∧
      ∀ rest, AfterFlag rest →
        Derives (.item (levelOf kind)) (spellItems (levelOf kind) items ++ rest) rest raw := by
  induction items with
  | nil => contradiction
  | cons first others ih =>
      obtain ⟨left, rfl, derivesLeft⟩ := each first List.mem_cons_self
      have front := Chain.spread_of_items?_none (flat _ List.mem_cons_self)
      by_cases last : others = []
      · subst last
        refine ⟨left, front, by simp, fun rest after => Derives.operand ?_⟩
        simpa [spellItems] using derivesLeft rest after
      -- the operand on the right is a chain already, and is spliced when the tree is normalized
      · rcases ih last (fun item member => flat item (List.mem_cons_of_mem _ member))
          (fun item member => each item (List.mem_cons_of_mem _ member)) with
          ⟨right, later, _, derivesRight⟩
        have whole : (kind.node [left, right]).normal = kind.node (left.normal :: others) := by
          simp only [Expr.normal_node, List.map_cons, List.map_nil, Chain.expand, front, later,
            List.append_nil, List.singleton_append]
        refine ⟨kind.node [left, right], ?_, fun _ => whole, fun rest after => ?_⟩
        · rw [whole, Chain.spread_node, Chain.expand_eq_self flat]
        · have operand := derivesLeft _ ((levelOf kind).sign_afterFlag
            (spellItems (levelOf kind) others ++ rest))
          have derived := @Derives.operation (levelOf kind) _ [_] _ _ _ _ operand
            (levelOf kind).sign_marks (derivesRight rest after)
          rw [levelOf_join] at derived
          simpa [spellItems, last] using Derives.joined derived

theorem chain_spelled (kind : Chain) {items : List Expr} (canonical : Canonical (kind.node items))
    (each : ∀ item ∈ items, Spells (itemUpTo (looseness item)) (spell item) item) :
    Spells (.item (levelOf kind)) (spellItems (levelOf kind) items) (kind.node items) := by
  obtain ⟨⟨several, flat⟩, _⟩ := (canonical_node_iff kind).mp canonical
  have filled : items ≠ [] := by
    rintro rfl
    simp at several
  rcases items_spelled kind filled flat fun item member =>
    (each item member).enclosed (levelOf kind) with ⟨raw, _, normal, derives⟩
  exact ⟨raw, normal several, derives⟩

theorem Canonical.spelled (canonical : Canonical tree) :
    Spells (itemUpTo (looseness tree)) (spell tree) tree := by
  -- canonical trees have no induction of their own, but they are proper, and those do
  have proper : tree.Proper := Expr.proper_iff_walk.mpr fun node member => by
    have made := canonical node member
    cases node <;> first | rfl | exact made.elim
  induction proper with
  | text value =>
      obtain ⟨content, filled⟩ := canonical_text_iff.mp canonical
      have spelled : Spells .text (spell (.text value)) (.text value) := by
        refine ⟨.text value, rfl, fun rest _ => ?_⟩
        simpa [spell] using @Derives.text value rest content filled
      exact spelled.of_alternative (by simp [Part.alternatives])
  | pattern source ignoreCase dotAll =>
      obtain ⟨content, filled, rfl⟩ := canonical_pattern_iff.mp canonical
      have spelled : Spells .pattern (spell (.pattern source ignoreCase false))
          (.pattern source ignoreCase false) := by
        refine ⟨.pattern source ignoreCase false, rfl, fun rest after => ?_⟩
        apply derives_pattern_iff.mpr
        exact ⟨source, ignoreCase, content, filled, by simp [spell], fun _ => after, rfl⟩
      exact spelled.of_alternative (by simp [Part.alternatives])
  | reference name =>
      have named := canonical_reference_iff.mp canonical
      have spelled : Spells .reference (spell (.reference name)) (.reference name) :=
        ⟨.reference name, rfl, fun rest _ => Derives.reference named⟩
      exact spelled.of_alternative (by simp [Part.alternatives])
  | repetition _ _ ihTemplate ihSeparator =>
      obtain ⟨first, second⟩ := canonical_repetition_iff.mp canonical
      exact ((ihTemplate first).enclosed .repetition).repetition
        ((ihSeparator second).enclosed .sequence)
  | sequence _ ih =>
      have each := ((canonical_node_iff .sequence).mp canonical).2
      exact chain_spelled .sequence canonical fun item member => ih item member (each item member)
  | union _ ih =>
      have each := ((canonical_node_iff .union).mp canonical).2
      exact chain_spelled .union canonical fun item member => ih item member (each item member)
  -- a canonical tree has no groups, they are put in only where a level asks for them
  | group => exact (canonical _ (Expr.mem_walk_self _)).elim

/-! ## Rules -/

theorem read_spell {name : List Char} (named : IsName name) (canonical : Canonical tree) :
    Rule.read (name ++ ':' :: spell tree) = .ok ⟨name, tree⟩ := by
  have bound : looseness tree ≤ 3 := by cases tree <;> simp [looseness]
  have spelled : Spells (.item .union) (spell tree) tree := canonical.spelled.loosen bound
  obtain ⟨raw, rfl, derives⟩ := spelled
  have derived := derives [] (by simp [AfterFlag])
  rw [List.append_nil] at derived
  have noBlank : Blank [] := by simp [Blank]
  exact read_of_defines ⟨[], spell raw.normal, rfl, named, noBlank, derived⟩ noBlank

example : spell (.repetition (.sequence [.text ['a'], .union [.reference ['b', '1'], .text ['c']]])
    (.repetition (.text [',']) (.text [';']))) = "('a' (b1|'c'))^','^';'".toList := rfl

/-- Rules hold the canonical trees and no others. -/
theorem readable_iff_canonical (tree : Expr) :
    (∃ source rule, Rule.read source = .ok rule ∧ rule.expression = tree) ↔ Canonical tree := by
  constructor
  · rintro ⟨source, rule, read, rfl⟩
    obtain ⟨_, raw, _, defined, same⟩ := written_iff.mp (read_eq_ok_iff.mp read)
    obtain ⟨_, _, _, _, _, derived⟩ := defined
    rw [same]
    exact derived.canonical_normal
  · intro canonical
    have named : IsName ['i', 't'] := by simp [IsName]; decide
    exact ⟨_, _, read_spell named canonical, rfl⟩

end Rulebook.Grammar
