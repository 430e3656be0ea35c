import Rulebook.Proofs.Movement
import Rulebook.Proofs.ReaderParts

/-!
Positions that are any integers. A literal leaves a negative position negative, a token turns it
into an index, and a position behind the end stays or becomes the end; so positions may fall as
integers, and a match that takes nothing may still change its position. What does not fall is the
index that the position stands for, and a position that is no index can be left only once.
-/

namespace Rulebook

/-- From a position to itself; or to an index not before the one the position stands for; or from
one negative position to a later one, both counted from the end. -/
def Advances (length : Nat) (pos stop : Int) : Prop :=
  stop = pos ∨ (0 ≤ stop ∧ stop ≤ length ∧ (resolve length pos : Int) ≤ stop) ∨
    (-(length : Int) ≤ pos ∧ pos < stop ∧ stop < 0)

namespace Advances

variable {length : Nat} {pos mid stop : Int}

theorem resolve_cases (length : Nat) (pos : Int) :
    (0 ≤ pos ∧ pos ≤ length ∧ (resolve length pos : Int) = pos) ∨
    (length < pos ∧ resolve length pos = length) ∨
    (-(length : Int) ≤ pos ∧ pos < 0 ∧ (resolve length pos : Int) = pos + length) ∨
    (pos < -(length : Int) ∧ pos < 0 ∧ resolve length pos = 0) := by
  unfold resolve
  split <;> omega

theorem refl (length : Nat) (pos : Int) : Advances length pos pos := Or.inl rfl

theorem trans (first : Advances length pos mid) (second : Advances length mid stop) :
    Advances length pos stop := by
  have start := resolve_cases length pos
  have middle := resolve_cases length mid
  unfold Advances at *
  omega

theorem path (length : Nat) : Matcher.Path (Advances length) where
  stay := refl length
  goOn := trans

theorem inside (advances : Advances length pos stop) (start : pos ≤ length) :
    pos ≤ stop ∧ stop ≤ length := by
  have cases := resolve_cases length pos
  unfold Advances at advances
  omega

theorem outside (advances : Advances length pos stop) (start : (length : Int) < pos) :
    stop = pos ∨ stop = length := by
  have cases := resolve_cases length pos
  unfold Advances at advances
  omega

theorem resolve_le (advances : Advances length pos stop) :
    resolve length pos ≤ resolve length stop := by
  have start := resolve_cases length pos
  have final := resolve_cases length stop
  unfold Advances at advances
  omega

/-- What is left of the text, and one more where the position is no index of it. -/
def left (length : Nat) (pos : Int) : Nat :=
  if 0 ≤ pos ∧ pos ≤ length then length - resolve length pos else length - resolve length pos + 1

theorem left_le (length : Nat) (pos : Int) : left length pos ≤ length + 1 := by
  unfold left
  split <;> omega

theorem left_lt (advances : Advances length pos stop) (moved : stop ≠ pos) :
    left length stop < left length pos := by
  have start := resolve_cases length pos
  have final := resolve_cases length stop
  unfold Advances at advances
  unfold left
  split <;> split <;> omega

end Advances

namespace Matcher

variable {α : Type}

def Orderly (matcher : Matcher α) : Prop :=
  ∀ source, Follows (Advances source.length) source matcher

/-! ## Atomic matchers -/

theorem slice_length (source : List Char) (start stop : Int) :
    (slice source start stop).length =
      resolve source.length stop - resolve source.length start := by
  have bound := resolve_le source.length stop
  simp only [slice, List.length_drop, List.length_take]
  omega

theorem literal_orderly (word : List Char) : Orderly (literal word) := by
  intro source pos value stop taken
  simp only [literal, Option.ite_none_right_eq_some, Option.some.injEq, Prod.mk.injEq] at taken
  obtain ⟨same, _, rfl⟩ := taken
  -- the slice is as long as the word
  have lengths := slice_length source pos (pos + word.length)
  rw [same] at lengths
  have start := Advances.resolve_cases source.length pos
  have final := Advances.resolve_cases source.length (pos + word.length)
  unfold Advances
  omega

def Within (extent : List Char → Option Nat) : Prop :=
  ∀ text count, extent text = some count → count ≤ text.length

theorem Takes.within {extent : List Char → Option Nat} {Word : List Char → List Char → Prop}
    (takes : Takes extent Word) : Within extent := by
  intro text count taken
  obtain ⟨value, rest, rfl, _, rfl⟩ := (takes text count).mp taken
  simp

/-- A match ends between the index that its position stands for and the end of the text. -/
def Clamped (matcher : Matcher α) : Prop :=
  ∀ source pos value stop, matcher source pos = some (value, stop) →
    (resolve source.length pos : Int) ≤ stop ∧ stop ≤ source.length

theorem Clamped.orderly {matcher : Matcher α} (clamped : Clamped matcher) : Orderly matcher := by
  intro source pos value stop taken
  obtain ⟨above, below⟩ := clamped source pos value stop taken
  exact Or.inr (Or.inl ⟨by omega, below, above⟩)

theorem anchored_clamped {extent : Option Char → List Char → Option Nat}
    (within : ∀ before, Within (extent before)) : Clamped (anchored extent) := by
  intro source pos value stop taken
  have bound := resolve_le source.length pos
  simp only [anchored] at taken
  split at taken
  · contradiction
  · rename_i count found
    have few := within _ _ _ found
    rw [List.length_drop] at few
    cases taken
    omega

theorem ofRegex_clamped (regex : Regex) (flags : RegexFlags) : Clamped (ofRegex regex flags) := by
  apply anchored_clamped
  intro before text count taken
  simp only [Regex.extent, Option.map_eq_some_iff] at taken
  obtain ⟨stop, _, rfl⟩ := taken
  exact Nat.sub_le _ _

theorem token_orderly {extent : List Char → Option Nat} (within : Within extent) :
    Orderly (token extent) := (anchored_clamped fun _ => within).orderly

/-! ## Composition -/

variable {β : Type}

theorem Orderly.map {matcher : Matcher α} (orderly : Orderly matcher) (f : α → β) :
    Orderly (Matcher.map f matcher) := fun source => (orderly source).map f

theorem Orderly.both {left : Matcher α} {right : Matcher β} (first : Orderly left)
    (second : Orderly right) : Orderly (Matcher.both left right) :=
  fun source => (first source).both (Advances.path source.length) (second source)

theorem Orderly.firstOf {alternatives : List (Matcher α)}
    (each : ∀ matcher ∈ alternatives, Orderly matcher) : Orderly (Matcher.firstOf alternatives) :=
  fun source => Follows.firstOf fun matcher member => each matcher member source

theorem Orderly.allOf {parts : List (Matcher α)} (each : ∀ matcher ∈ parts, Orderly matcher) :
    Orderly (Matcher.allOf parts) := fun source =>
  Follows.allOf (Advances.path source.length) fun matcher member => each matcher member source

theorem Orderly.loops {round : Matcher α} (orderly : Orderly round) (source : List Char)
    (pos : Int) : ∃ attempts values stop, attempts ≤ source.length + 2 ∧
      Loops round source attempts pos values stop := by
  have falls : ∀ pos value stop, True → round source pos = some (value, stop) → stop ≠ pos →
      True ∧ Advances.left source.length stop < Advances.left source.length pos := by
    intro pos value stop _ taken moved
    exact ⟨trivial, (orderly source pos value stop taken).left_lt moved⟩
  obtain ⟨attempts, values, stop, few, loops⟩ := loops_of_falling falls pos trivial
  have bound := Advances.left_le source.length pos
  exact ⟨attempts, values, stop, by omega, loops⟩

theorem Orderly.repeats {template : Matcher α} {separator : Matcher β} (first : Orderly template)
    (between : Orderly separator) (source : List Char) (pos : Int) :
    ∃ values stop, separated template separator source pos = some (values, stop) ∧
      Repeats template separator source pos values stop :=
  separated_repeats (fun _ _ _ _ _ => trivial)
    (fun pos value stop _ taken moved =>
      ⟨trivial, (((between.both first).map Prod.snd) source pos value stop taken).left_lt moved⟩)
    (fun pos _ => Advances.left_le source.length pos) pos trivial

theorem Orderly.separated {template : Matcher α} {separator : Matcher β}
    (first : Orderly template) (between : Orderly separator) :
    Orderly (Matcher.separated template separator) := by
  intro source pos value stop taken
  have repeated := (separated_eq_some_iff (first.repeats between source pos)).mp taken
  exact repeated.follows (Advances.path source.length) (first source) (between source)

theorem orderly_composes : Composes Orderly where
  literal := literal_orderly
  token takes := token_orderly takes.within
  map f orderly := orderly.map f
  both first second := first.both second
  firstOf := Orderly.firstOf

end Matcher

/-! ## Readers -/

namespace Reader

open Matcher (Orderly orderly_composes)

theorem part_orderly (part : Grammar.Part) : Orderly part.matcher := by
  intro source pos value stop taken
  rw [← partOf_tiersFor] at taken
  exact orderly_composes.partOf _ part source pos value stop taken

end Reader

theorem Rule.written_orderly : Matcher.Orderly Rule.written :=
  Matcher.orderly_composes.written (Reader.part_orderly (.item .union))

end Rulebook
