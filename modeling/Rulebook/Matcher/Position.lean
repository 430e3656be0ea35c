/-!
Positions count characters. A caller may give any integer: a negative one counts from the end of
the text, and one that lies outside is drawn to the nearer end.
-/

namespace Rulebook

/-- The index a position stands for in a text of `length` characters. -/
def resolve (length : Nat) (pos : Int) : Nat :=
  if pos < 0 then (pos + length).toNat else min pos.toNat length

/-- The part between two positions, empty when they are not in ascending order. -/
def slice (source : List Char) (start stop : Int) : List Char :=
  (source.take (resolve source.length stop)).drop (resolve source.length start)

theorem resolve_le (length : Nat) (pos : Int) : resolve length pos ≤ length := by
  unfold resolve
  split <;> omega

theorem resolve_natCast (length pos : Nat) (inside : pos ≤ length) :
    resolve length pos = pos := by
  unfold resolve
  split <;> omega

theorem slice_natCast {source : List Char} {pos stop : Nat} (start : pos ≤ source.length)
    (inside : stop ≤ source.length) :
    slice source pos stop = (source.drop pos).take (stop - pos) := by
  rw [slice, resolve_natCast _ _ start, resolve_natCast _ _ inside, List.drop_take]

theorem slice_self {source : List Char} {pos : Int} (start : 0 ≤ pos)
    (inside : pos ≤ source.length) : slice source pos pos = [] := by
  obtain ⟨pos, rfl⟩ := Int.eq_ofNat_of_zero_le start
  rw [slice_natCast (by omega) (by omega), Nat.sub_self, List.take_zero]

theorem slice_append_slice {source : List Char} {pos mid stop : Int} (start : 0 ≤ pos)
    (first : pos ≤ mid) (second : mid ≤ stop) (inside : stop ≤ source.length) :
    slice source pos mid ++ slice source mid stop = slice source pos stop := by
  obtain ⟨pos, rfl⟩ := Int.eq_ofNat_of_zero_le start
  obtain ⟨mid, rfl⟩ := Int.eq_ofNat_of_zero_le (Int.le_trans start first)
  obtain ⟨stop, rfl⟩ := Int.eq_ofNat_of_zero_le (by omega : 0 ≤ stop)
  have lengths : mid - pos + (stop - mid) = stop - pos := by omega
  have behind : (source.drop pos).drop (mid - pos) = source.drop mid := by
    rw [List.drop_drop, Nat.add_sub_cancel' (by omega)]
  rw [slice_natCast (by omega) (by omega), slice_natCast (by omega) (by omega),
    slice_natCast (by omega) (by omega), ← behind, ← List.take_add, lengths]

end Rulebook
