import Rulebook.Proofs.Utf8Decoding
import Rulebook.Table.Reader

/-!
The text of a file. A file that holds the encoding of a text has this text, with its line ends
written as line feeds, and a mark at the front of it is a character like any other. Any other file
has no text, and the fault that is reported starts where whole characters end.
-/

namespace Rulebook.Table

variable {bytes : List UInt8}

theorem textOf_encode (text : List Char) :
    textOf (Utf8.encode text) = .ok (Line.normalize text) := by
  rw [textOf, Utf8.decode_eq_ok_iff.mpr rfl]
  rfl

theorem textOf_eq_error_iff {fault : Utf8.Fault} :
    textOf bytes = .error fault ↔ Utf8.decode bytes = .error fault := Utf8.map_eq_error_iff

/-- A file that holds an encoded text has that text, with its line ends written as line feeds. A file
that holds no encoded text has no text at all, and the fault starts behind the longest front of the
bytes that encodes whole characters. The encoding is the one by which strings are stored. -/
theorem text_iff_encoded :
    (∀ text, textOf (Utf8.encode text) = .ok (Line.normalize text)) ∧
    (∀ bytes, (∀ text, bytes ≠ Utf8.encode text) → ∃ fault, textOf bytes = .error fault ∧
      (∃ text, Utf8.encode text <+: bytes ∧ fault.start = (Utf8.encode text).length) ∧
      ∀ text, Utf8.encode text <+: bytes → (Utf8.encode text).length ≤ fault.start) ∧
    ∀ text, (Utf8.encode text).toByteArray = (String.ofList text).toUTF8 := by
  refine ⟨textOf_encode, ?_, Utf8.encode_eq_toUTF8⟩
  intro bytes foreign
  obtain ⟨fault, failed⟩ := Utf8.exists_fault_iff.mpr foreign
  obtain ⟨text, rest, rfl, place⟩ := Utf8.fault_behind_text failed
  rw [Nat.zero_add] at place
  exact ⟨fault, textOf_eq_error_iff.mpr failed, ⟨text, List.prefix_append _ rest, place⟩,
    fun other front => Utf8.fault_behind_every_text failed front⟩

/-- The mark at the front is kept, and the second text breaks off in its second character. -/
theorem broken_text_reported :
    textOf [0xEF, 0xBB, 0xBF, 0x0D, 0x0A] = .ok ['\uFEFF', '\n'] ∧
    (∀ text, [0xC3, 0xA9, 0xE2, 0x82] ≠ Utf8.encode text) ∧
    ∃ fault, textOf [0xC3, 0xA9, 0xE2, 0x82] = .error fault ∧ fault.start = 2 ∧
      ∀ text, Utf8.encode text <+: [0xC3, 0xA9, 0xE2, 0x82] →
        (Utf8.encode text).length ≤ fault.start := by
  obtain ⟨decodes, fails, _⟩ := text_iff_encoded
  have broken : Utf8.decode [0xC3, 0xA9, 0xE2, 0x82] =
      .error ⟨2, [0xE2, 0x82], .unexpectedEnd⟩ := rfl
  have foreign := Utf8.exists_fault_iff.mp ⟨_, broken⟩
  obtain ⟨fault, failed, _, longest⟩ := fails _ foreign
  cases failed.symm.trans (textOf_eq_error_iff.mpr broken)
  exact ⟨decodes ['\uFEFF', '\r', '\n'], foreign, _, failed, rfl, longest⟩

end Rulebook.Table
