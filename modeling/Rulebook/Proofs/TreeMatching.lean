import Rulebook.Proofs.Advance
import Rulebook.Proofs.Composition
import Rulebook.Proofs.Regrouping

/-!
What a tree matches. Where every leaf has a matcher, a tree is a matcher too: a sequence reads its
items in order, a union takes the first item that matches, a repetition reads its template between
separators, and a group is what is in it. Trees that are alike match alike, once the lists in their
values are put together, and so a tree matches what its normal form matches.
-/

namespace Rulebook

open Matcher (map both firstOf allOf separated concat Follows Path Repeats)

inductive Leaf where
  | text (value : List Char)
  | pattern (source : List Char) (ignoreCase dotAll : Bool)
  | reference (name : List Char)
  deriving DecidableEq, Repr

inductive Nested (α : Type) where
  | leaf (value : α)
  | list (values : List (Nested α))

variable {α : Type}

namespace Nested

mutual

def flatten : Nested α → List α
  | .leaf value => [value]
  | .list values => flattenAll values

def flattenAll : List (Nested α) → List α
  | [] => []
  | first :: others => flatten first ++ flattenAll others

end

theorem flattenAll_eq_flatMap (values : List (Nested α)) :
    flattenAll values = values.flatMap flatten := by
  induction values with
  | nil => rfl
  | cons first others ih => rw [flattenAll, ih, List.flatMap_cons]

end Nested

namespace Expr

mutual

/-- The matcher of a tree over matchers for its leaves. What is no expression matches nothing. -/
def matcher (leaf : Leaf → Matcher α) : Expr → Matcher (Nested α)
  | .text value => map .leaf (leaf (.text value))
  | .pattern source ignoreCase dotAll => map .leaf (leaf (.pattern source ignoreCase dotAll))
  | .reference name => map .leaf (leaf (.reference name))
  | .repetition template separator =>
      map .list (separated (matcher leaf template) (matcher leaf separator))
  | .sequence items => map .list (allOf (matchers leaf items))
  | .union items => firstOf (matchers leaf items)
  | .group inner => matcher leaf inner
  | .rule _ _ | .comment | .list _ | .tuple _ | .dict _ | .datum _ => fun _ _ => none

def matchers (leaf : Leaf → Matcher α) : List Expr → List (Matcher (Nested α))
  | [] => []
  | first :: others => matcher leaf first :: matchers leaf others

end

variable {leaf : Leaf → Matcher α}

theorem matchers_eq_map (items : List Expr) :
    matchers leaf items = items.map (matcher leaf) := by
  induction items with
  | nil => rfl
  | cons first others ih => rw [matchers, ih, List.map_cons]

/-! ## Values put together -/

def flatMatcher (leaf : Leaf → Matcher α) (tree : Expr) : Matcher (List α) :=
  map Nested.flatten (tree.matcher leaf)

end Expr

def Chain.combine : Chain → List (Matcher (List α)) → Matcher (List α)
  | .sequence => concat
  | .union => firstOf

/-- Items that are a chain of the kind may stand in its place. -/
theorem Chain.combine_splice (kind : Chain) (front inner back : List (Matcher (List α))) :
    kind.combine (front ++ kind.combine inner :: back) =
      kind.combine (front ++ inner ++ back) := by
  cases kind with
  | sequence => exact Matcher.concat_splice front inner back
  | union => exact Matcher.firstOf_splice front inner back

namespace Expr

variable {leaf : Leaf → Matcher α}

theorem flatMatcher_node (kind : Chain) (items : List Expr) :
    flatMatcher leaf (kind.node items) = kind.combine (items.map (flatMatcher leaf)) := by
  cases kind with
  | sequence =>
      simp only [flatMatcher, Chain.node, matcher, Chain.combine, Matcher.map_map, Nested.flatten,
        Nested.flattenAll_eq_flatMap, matchers_eq_map]
      rw [Matcher.map_allOf, List.map_map]
      rfl
  | union =>
      simp only [flatMatcher, Chain.node, matcher, Chain.combine, Matcher.map_firstOf,
        matchers_eq_map, List.map_map]
      rfl

theorem flatMatcher_repetition (template separator : Expr) :
    flatMatcher leaf (.repetition template separator) =
      map List.flatten (separated (flatMatcher leaf template) (flatMatcher leaf separator)) := by
  simp only [flatMatcher, matcher, Matcher.map_separated, Matcher.map_map, Nested.flatten,
    Nested.flattenAll_eq_flatMap, List.flatMap_def]

theorem Alike.flatMatcher_eq {left right : Expr} (alike : Alike left right) :
    flatMatcher leaf left = flatMatcher leaf right := by
  induction alike with
  | group inner => rfl
  | splice kind front inner back =>
      simp only [flatMatcher_node, List.map_append, List.map_cons, Chain.combine_splice]
  | refl => rfl
  | symm _ ih => exact ih.symm
  | trans _ _ ihFirst ihSecond => exact ihFirst.trans ihSecond
  | inGroup _ ih => exact ih
  | inRepetition _ _ ihTemplate ihSeparator =>
      simp only [flatMatcher_repetition, ihTemplate, ihSeparator]
  | inChain kind front back _ ih =>
      simp only [flatMatcher_node, List.map_append, List.map_cons, ih]

/-! ## Matchers that stay in the text -/

end Expr

def Onward (length : Nat) (pos stop : Int) : Prop :=
  0 ≤ pos → pos ≤ length → pos ≤ stop ∧ stop ≤ length

theorem onward_path (length : Nat) : Path (Onward length) where
  stay := fun _ _ inside => ⟨Int.le_refl _, inside⟩
  goOn := by
    intro pos mid stop first second start inside
    have front := first start inside
    have back := second (Int.le_trans start front.1) front.2
    exact ⟨Int.le_trans front.1 back.1, back.2⟩

/-- On success a matcher that starts inside the text ends inside it, and not before its start. -/
def Forward (matcher : Matcher α) : Prop :=
  ∀ source, Follows (Onward source.length) source matcher

theorem Matcher.Orderly.forward {matcher : Matcher α} (orderly : Orderly matcher) :
    Forward matcher :=
  fun source pos value stop taken _ inside => (orderly source pos value stop taken).inside inside

theorem Forward.repeats {β : Type} {template : Matcher α} {separator : Matcher β}
    (first : Forward template) (between : Forward separator) (source : List Char) {pos : Int}
    (start : 0 ≤ pos) (inside : pos ≤ source.length) :
    ∃ values stop, separated template separator source pos = some (values, stop) ∧
      Repeats template separator source pos values stop := by
  have round := ((between source).both (onward_path source.length) (first source)).map Prod.snd
  have within : ∀ pos value stop, 0 ≤ pos ∧ pos ≤ (source.length : Int) →
      template source pos = some (value, stop) → 0 ≤ stop ∧ stop ≤ (source.length : Int) := by
    rintro pos value stop ⟨start, inside⟩ taken
    have moved := first source pos value stop taken start inside
    exact ⟨Int.le_trans start moved.1, moved.2⟩
  -- what is left of the text falls
  have falls : ∀ pos value stop, 0 ≤ pos ∧ pos ≤ (source.length : Int) →
      map Prod.snd (both separator template) source pos = some (value, stop) → stop ≠ pos →
      (0 ≤ stop ∧ stop ≤ (source.length : Int)) ∧
        (source.length - stop).toNat < (source.length - pos).toNat := by
    rintro pos value stop ⟨start, inside⟩ taken elsewhere
    have moved := round pos value stop taken start inside
    omega
  exact Matcher.separated_repeats within falls (fun pos inside => by omega) pos ⟨start, inside⟩

theorem Forward.separated {β : Type} {template : Matcher α} {separator : Matcher β}
    (first : Forward template) (between : Forward separator) :
    Forward (separated template separator) := by
  intro source pos value stop taken start inside
  have repeated :=
    (Matcher.separated_eq_some_iff (first.repeats between source start inside)).mp taken
  exact repeated.follows (onward_path source.length) (first source) (between source) start inside

namespace Expr

theorem Proper.forward (each : ∀ part, Forward (leaf part)) {tree : Expr} (proper : tree.Proper) :
    Forward (tree.matcher leaf) := by
  have all : ∀ {items : List Expr}, (∀ item ∈ items, Forward (item.matcher leaf)) →
      ∀ source, ∀ matcher ∈ matchers leaf items,
        Follows (Onward source.length) source matcher := by
    intro items ih source matcher member
    rw [matchers_eq_map] at member
    obtain ⟨item, listed, rfl⟩ := List.mem_map.mp member
    exact ih item listed source
  induction proper with
  | text | pattern | reference => exact fun source => (each _ source).map _
  | repetition _ _ ihTemplate ihSeparator =>
      exact fun source => (ihTemplate.separated ihSeparator source).map _
  | sequence _ ih =>
      exact fun source => (Follows.allOf (onward_path source.length) (all ih source)).map _
  | union _ ih => exact fun source => Follows.firstOf (all ih source)
  | group _ ih => exact ih

/-- A proper tree and its normal form match alike over any matchers for the leaves: from a position
inside the text both fail, or both end at the same place with the same values of leaves, once the
lists in lists are put together. No loop of a repetition in such a tree is cut short. -/
theorem normalize_keeps_matching (leaf : Leaf → Matcher α) (each : ∀ part, Forward (leaf part))
    {tree : Expr} (proper : tree.Proper) :
    ∃ normal, tree.normalize = .ok normal ∧
      (∀ (source : List Char) (pos : Int), 0 ≤ pos → pos ≤ source.length →
        (flatMatcher leaf tree).call source pos = (flatMatcher leaf normal).call source pos) ∧
      ∀ template separator : Expr, template.Proper → separator.Proper →
        ∀ (source : List Char) (pos : Int), 0 ≤ pos → pos ≤ source.length →
          ∃ values stop,
            separated (template.matcher leaf) (separator.matcher leaf) source pos =
              some (values, stop) ∧
            Repeats (template.matcher leaf) (separator.matcher leaf) source pos values stop := by
  refine ⟨tree.normal, proper.normalize_eq, ?_, ?_⟩
  · intro source pos _ _
    rw [proper.alike_normal.flatMatcher_eq]
  · intro template separator properTemplate properSeparator source pos start inside
    exact (properTemplate.forward each).repeats (properSeparator.forward each) source start inside

end Expr

/-- Texts match themselves, patterns match as regular expressions, and names match nothing. -/
def Leaf.matcher : Leaf → Matcher (List Char)
  | .text value => Matcher.literal value
  | .pattern source ignoreCase dotAll =>
      match Regex.read? source with
      | some regex => Matcher.ofRegex regex ⟨ignoreCase, dotAll⟩
      | none => fun _ _ => none
  | .reference _ => fun _ _ => none

theorem Leaf.matcher_forward (part : Leaf) : Forward part.matcher := by
  apply Matcher.Orderly.forward
  have fails : Matcher.Orderly (fun _ _ => none : Matcher (List Char)) := by
    intro source pos value stop taken
    contradiction
  cases part with
  | text value => exact Matcher.literal_orderly value
  | pattern source ignoreCase dotAll =>
      simp only [Leaf.matcher]
      split
      · exact (Matcher.ofRegex_clamped _ _).orderly
      · exact fails
  | reference name => exact fails

namespace Expr

theorem grouped_choice_matching :
    Proper (.sequence [.group (.sequence [.text ['a'], .union [.text ['b'],
      .group (.union [.text ['c']])]]), .repetition (.text ['x']) (.text [','])]) ∧
    (∀ part, Forward (Leaf.matcher part)) ∧
    ∃ normal, normalize (.sequence [.group (.sequence [.text ['a'], .union [.text ['b'],
        .group (.union [.text ['c']])]]), .repetition (.text ['x']) (.text [','])]) = .ok normal ∧
      (flatMatcher Leaf.matcher normal).call "acx,x,".toList 0 =
        (some [['a'], ['c'], ['x'], ['x']], 5) := by
  have proper : Proper (.sequence [.group (.sequence [.text ['a'], .union [.text ['b'],
      .group (.union [.text ['c']])]]), .repetition (.text ['x']) (.text [','])]) := by decide
  refine ⟨proper, Leaf.matcher_forward, ?_⟩
  obtain ⟨normal, normalized, alike, _⟩ :=
    normalize_keeps_matching Leaf.matcher Leaf.matcher_forward proper
  refine ⟨normal, normalized, ?_⟩
  rw [← alike _ 0 (by decide) (by decide)]
  rfl

end Expr

end Rulebook
