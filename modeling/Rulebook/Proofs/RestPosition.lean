import Rulebook.Matcher.Basic

/-!
Positions as rests. A position inside a text is given by what is left of the text from there on, so
that a run of matchers can be followed without counting characters: each matcher takes something off
the front of the rest and hands on what is behind it.
-/

namespace Rulebook

/-- The position from which `rest` is left of the source. -/
def posOf (source rest : List Char) : Int := (source.length - rest.length : Nat)

theorem posOf_self (source : List Char) : posOf source source = 0 := by simp [posOf]

theorem posOf_drop {source : List Char} {pos : Nat} (inside : pos ≤ source.length) :
    posOf source (source.drop pos) = pos := by
  simp only [posOf, List.length_drop]
  omega

theorem drop_of_suffix {source rest : List Char} (ending : rest <:+ source) :
    source.drop (source.length - rest.length) = rest := by
  rcases ending with ⟨front, rfl⟩
  simp

theorem posOf_append {source front rest : List Char} (ending : front ++ rest <:+ source) :
    posOf source (front ++ rest) + front.length = posOf source rest := by
  have := ending.length_le
  simp only [posOf, List.length_append] at this ⊢
  omega

theorem posOf_front (front rest : List Char) :
    posOf (front ++ rest) rest = (front.length : Int) := by
  simp [posOf]

theorem posOf_add_length {source rest : List Char} (ending : rest <:+ source) :
    posOf source rest + rest.length = source.length := by
  have bound := ending.length_le
  simp only [posOf]
  omega

theorem posOf_lt_length {source rest : List Char} (ending : rest <:+ source) (filled : rest ≠ []) :
    posOf source rest < source.length := by
  have whole := posOf_add_length ending
  have positive := List.length_pos_iff.mpr filled
  omega

theorem posOf_ne_length {source rest : List Char} (ending : rest <:+ source) (filled : rest ≠ []) :
    posOf source rest ≠ source.length := Int.ne_of_lt (posOf_lt_length ending filled)

theorem posOf_injective {source left right : List Char} (leftEnding : left <:+ source)
    (rightEnding : right <:+ source) (same : posOf source left = posOf source right) :
    left = right := by
  have leftBound := leftEnding.length_le
  have rightBound := rightEnding.length_le
  have lengths : left.length = right.length := by
    simp only [posOf] at same
    omega
  rw [← drop_of_suffix leftEnding, ← drop_of_suffix rightEnding, lengths]

theorem resolve_posOf (source rest : List Char) :
    resolve source.length (posOf source rest) = source.length - rest.length :=
  resolve_natCast _ _ (Nat.sub_le _ _)

namespace Matcher

variable {α β : Type} {source text : List Char} {pos stop : Int}

theorem map_eq_some {f : α → β} {matcher : Matcher α} {value : β} :
    map f matcher source pos = some (value, stop) ↔
      ∃ found, matcher source pos = some (found, stop) ∧ f found = value := by
  simp [map]

theorem call_eq_some_iff {matcher : Matcher α} {value : α} :
    matcher.call source pos = (some value, stop) ↔ matcher source pos = some (value, stop) := by
  cases taken : matcher source pos <;> simp [call, taken, Prod.ext_iff]

theorem both_eq_some {left : Matcher α} {right : Matcher β} {front : α} {back : β} :
    both left right source pos = some ((front, back), stop) ↔
      ∃ mid, left source pos = some (front, mid) ∧ right source mid = some (back, stop) := by
  unfold both
  constructor
  · intro taken
    split at taken
    · contradiction
    · rename_i mid first
      split at taken
      · contradiction
      · rename_i second
        simp only [Option.some.injEq, Prod.mk.injEq] at taken
        rcases taken with ⟨⟨rfl, rfl⟩, rfl⟩
        exact ⟨mid, first, second⟩
  · rintro ⟨mid, first, second⟩
    simp only [first, second]

theorem firstOf_eq_some_mem {matchers : List (Matcher α)} {found : α × Int}
    (taken : firstOf matchers source pos = some found) :
    ∃ matcher ∈ matchers, matcher source pos = some found := by
  induction matchers with
  | nil => simp [firstOf] at taken
  | cons first rest ih =>
      simp only [firstOf] at taken
      split at taken
      · rename_i result hit
        exact ⟨first, List.mem_cons_self, hit.trans taken⟩
      · obtain ⟨matcher, member, hit⟩ := ih taken
        exact ⟨matcher, List.mem_cons_of_mem first member, hit⟩

theorem slice_posOf (count : Nat) (ending : text <:+ source) :
    slice source (posOf source text) (posOf source text + count) = text.take count := by
  rcases ending with ⟨front, rfl⟩
  have start : posOf (front ++ text) text = front.length := by simp [posOf]
  have stop : resolve (front ++ text).length (front.length + count) =
      min (front.length + count) (front ++ text).length := by
    unfold resolve
    split <;> omega
  rw [slice, start, stop, resolve_natCast _ _ (by simp), ← List.take_eq_take_min, List.drop_take]
  simp

theorem literal_eq_some {word value : List Char} (ending : text <:+ source) :
    literal word source (posOf source text) = some (value, stop) ↔
      ∃ rest, text = word ++ rest ∧ value = word ∧ stop = posOf source rest := by
  simp only [literal, slice_posOf _ ending]
  constructor
  · intro taken
    split at taken
    · rename_i same
      simp only [Option.some.injEq, Prod.mk.injEq] at taken
      rcases taken with ⟨rfl, rfl⟩
      have whole : word ++ text.drop word.length = text := by
        rw [← same, List.length_take, ← List.drop_eq_drop_min, List.take_append_drop]
      rw [← whole] at ending
      refine ⟨text.drop word.length, whole.symm, rfl, ?_⟩
      rw [← posOf_append ending, whole]
    · contradiction
  · rintro ⟨rest, rfl, rfl, rfl⟩
    simp [posOf_append ending]

theorem literal_char_eq_some {char : Char} {value : List Char} (ending : text <:+ source) :
    literal [char] source (posOf source text) = some (value, stop) ↔
      ∃ rest, text = char :: rest ∧ value = [char] ∧ stop = posOf source rest :=
  literal_eq_some ending

/-- The extent of a token is that of the words told by `Word`, which also sees what is behind the
word. -/
def Takes (extent : List Char → Option Nat) (Word : List Char → List Char → Prop) : Prop :=
  ∀ text count, extent text = some count ↔
    ∃ value rest, text = value ++ rest ∧ Word value rest ∧ count = value.length

theorem token_eq_some {extent : List Char → Option Nat} {Word : List Char → List Char → Prop}
    {value : List Char} (takes : Takes extent Word) (ending : text <:+ source) :
    token extent source (posOf source text) = some (value, stop) ↔
      ∃ rest, text = value ++ rest ∧ Word value rest ∧ stop = posOf source rest := by
  simp only [token, anchored, resolve_posOf, drop_of_suffix ending]
  have start := ending.length_le
  -- behind the word, the position stands for the rest
  have moved : ∀ {front rest : List Char}, text = front ++ rest →
      ((source.length - text.length + front.length : Nat) : Int) = posOf source rest := by
    rintro front rest rfl
    simp only [posOf, List.length_append] at start ⊢
    omega
  constructor
  · intro taken
    split at taken
    · contradiction
    · rename_i count extent
      rcases (takes text count).mp extent with ⟨word, rest, same, holds, rfl⟩
      simp only [Option.some.injEq, Prod.mk.injEq] at taken
      rcases taken with ⟨front, rfl⟩
      rw [same, List.take_left] at front
      subst front
      exact ⟨rest, same, holds, moved same⟩
  · rintro ⟨rest, same, holds, rfl⟩
    rw [(takes text value.length).mpr ⟨value, rest, same, holds, rfl⟩]
    simp only [moved same]
    rw [same, List.take_left]

end Matcher

end Rulebook
