import Mathlib.Tactic.SplitIfs
import Rulebook.Text.Utf8

/-!
What decoding accepts. The bytes that one character is decoded from are its encoding and nothing
else is, so decoding gives a text exactly for the encoding of that text. Where no character can be
decoded, the fault that is reported starts right there.
-/

namespace Rulebook.Utf8

variable {char : Char} {form rest bytes : List UInt8} {start : Nat} {text : List Char}

/-! ## One character -/

/-- The bytes from which one character is decoded. -/
inductive Form : Char → List UInt8 → Prop where
  | one {a : UInt8} : following? a.toNat = some 0 → Form (char1 a.toNat) [a]
  | two {a b : UInt8} : following? a.toNat = some 1 → isSecond a.toNat b.toNat = true →
      Form (char2 a.toNat b.toNat) [a, b]
  | three {a b c : UInt8} : following? a.toNat = some 2 → isSecond a.toNat b.toNat = true →
      isContinuation c.toNat = true → Form (char3 a.toNat b.toNat c.toNat) [a, b, c]
  | four {a b c d : UInt8} : following? a.toNat = some 3 → isSecond a.toNat b.toNat = true →
      isContinuation c.toNat = true → isContinuation d.toNat = true →
      Form (char4 a.toNat b.toNat c.toNat d.toNat) [a, b, c, d]

theorem following?_eq_some_iff {first more : Nat} : following? first = some more ↔
    more = 0 ∧ first < 0x80 ∨ more = 1 ∧ 0xC2 ≤ first ∧ first < 0xE0 ∨
    more = 2 ∧ 0xE0 ≤ first ∧ first < 0xF0 ∨ more = 3 ∧ 0xF0 ≤ first ∧ first < 0xF5 := by
  unfold following?
  split_ifs <;> simp only [Option.some.injEq, false_iff] <;> omega

theorem isContinuation_iff {byte : Nat} :
    isContinuation byte = true ↔ 0x80 ≤ byte ∧ byte < 0xC0 := by
  simp only [isContinuation, Bool.and_eq_true, decide_eq_true_eq]
  omega

theorem isSecond_iff {first second : Nat} : isSecond first second = true ↔
    0x80 ≤ second ∧ second < 0xC0 ∧ (first = 0xE0 → 0xA0 ≤ second) ∧
    (first = 0xED → second < 0xA0) ∧ (first = 0xF0 → 0x90 ≤ second) ∧
    (first = 0xF4 → second < 0x90) := by
  unfold isSecond
  split_ifs <;> simp only [isContinuation_iff, Bool.and_eq_true, decide_eq_true_eq] <;> omega

theorem Form.decoded (formed : Form char form) (start : Nat) (rest : List UInt8) :
    decodeFrom start (form ++ rest) =
      (decodeFrom (start + form.length) rest).map (char :: ·) := by
  cases formed with
  | one first => simp [decodeFrom, first]
  | two first second => simp [decodeFrom, first, second]
  | three first second third => simp [decodeFrom, first, second, third]
  | four first second third fourth => simp [decodeFrom, first, second, third, fourth]

/-- Bytes begin with one character, or it is their beginning that is reported. -/
theorem form_or_fault (start : Nat) (bytes : List UInt8) : bytes = [] ∨
    (∃ char form rest, Form char form ∧ bytes = form ++ rest) ∨
    ∃ bad reason, decodeFrom start bytes = .error ⟨start, bad, reason⟩ := by
  fun_cases decodeFrom start bytes with
  | case1 => exact Or.inl rfl
  | case2 | case4 | case5 | case7 | case8 | case10 | case11 =>
      exact Or.inr (Or.inr ⟨_, _, rfl⟩)
  | case3 a rest first => exact Or.inr (Or.inl ⟨_, [a], rest, Form.one first, rfl⟩)
  | case6 a b rest second _ first =>
      exact Or.inr (Or.inl ⟨_, [a, b], rest, Form.two first (by simpa using second), rfl⟩)
  | case9 a b second c rest third _ first =>
      exact Or.inr (Or.inl ⟨_, [a, b, c], rest,
        Form.three first (by simpa using second) (by simpa using third), rfl⟩)
  | case12 a more filled first b second notOne c third notTwo d rest fourth =>
      obtain rfl : more = 3 := by
        have notZero : more ≠ 0 := filled
        have range := following?_eq_some_iff.mp first
        omega
      exact Or.inr (Or.inl ⟨_, [a, b, c, d], rest, Form.four first (by simpa using second)
        (by simpa using third) (by simpa using fourth), rfl⟩)

/-! ## Forms are encodings -/

theorem toNat_ofNat_of_valid {code : Nat} (valid : code.isValidChar) :
    (Char.ofNat code).toNat = code := by
  have built : Char.ofNat code = Char.ofNatAux code valid := dif_pos valid
  rw [built]
  rfl

theorem ofNat_eq_byte {code : Nat} {byte : UInt8} (same : code = byte.toNat) :
    UInt8.ofNat code = byte := by
  rw [same, UInt8.ofNat_toNat]

theorem continuation_zero (code : Nat) :
    continuation code 0 = UInt8.ofNat (0x80 + code % 64) := by
  simp [continuation]

theorem continuation_six (code : Nat) :
    continuation code 6 = UInt8.ofNat (0x80 + code / 64 % 64) := rfl

theorem continuation_twelve (code : Nat) :
    continuation code 12 = UInt8.ofNat (0x80 + code / 4096 % 64) := rfl

theorem encodeChar_one (high : char.toNat < 0x80) :
    encodeChar char = [UInt8.ofNat char.toNat] := by
  simp only [encodeChar, if_pos high]

theorem encodeChar_two (low : 0x80 ≤ char.toNat) (high : char.toNat < 0x800) :
    encodeChar char =
      [UInt8.ofNat (0xC0 + char.toNat / 64), UInt8.ofNat (0x80 + char.toNat % 64)] := by
  simp only [encodeChar, if_neg (Nat.not_lt.mpr low), if_pos high, continuation_zero]

theorem encodeChar_three (low : 0x800 ≤ char.toNat) (high : char.toNat < 0x10000) :
    encodeChar char = [UInt8.ofNat (0xE0 + char.toNat / 4096),
      UInt8.ofNat (0x80 + char.toNat / 64 % 64), UInt8.ofNat (0x80 + char.toNat % 64)] := by
  have notOne : ¬ char.toNat < 0x80 := by omega
  simp only [encodeChar, if_neg notOne, if_neg (Nat.not_lt.mpr low), if_pos high,
    continuation_zero, continuation_six]

theorem encodeChar_four (low : 0x10000 ≤ char.toNat) :
    encodeChar char = [UInt8.ofNat (0xF0 + char.toNat / 262144),
      UInt8.ofNat (0x80 + char.toNat / 4096 % 64), UInt8.ofNat (0x80 + char.toNat / 64 % 64),
      UInt8.ofNat (0x80 + char.toNat % 64)] := by
  have notOne : ¬ char.toNat < 0x80 := by omega
  have notTwo : ¬ char.toNat < 0x800 := by omega
  simp only [encodeChar, if_neg notOne, if_neg notTwo, if_neg (Nat.not_lt.mpr low),
    continuation_zero, continuation_six, continuation_twelve]

theorem Form.encode (formed : Form char form) : encodeChar char = form := by
  -- The ranges of the bytes bound the code, so the encoder chooses the form of the same length, and
  -- dividing the code gives each byte back.
  cases formed with
  | @one a first =>
      have range := following?_eq_some_iff.mp first
      have code : (char1 a.toNat).toNat = a.toNat := toNat_ofNat_of_valid (Or.inl (by omega))
      rw [encodeChar_one (by omega), code, UInt8.ofNat_toNat]
  | @two a b first second =>
      have range := following?_eq_some_iff.mp first
      have range' := isSecond_iff.mp second
      have code : (char2 a.toNat b.toNat).toNat = (a.toNat - 0xC0) * 64 + (b.toNat - 0x80) :=
        toNat_ofNat_of_valid (Or.inl (by omega))
      rw [encodeChar_two (by omega) (by omega), code, @ofNat_eq_byte _ a (by omega),
        @ofNat_eq_byte _ b (by omega)]
  | @three a b c first second third =>
      have range := following?_eq_some_iff.mp first
      have range' := isSecond_iff.mp second
      have third' := isContinuation_iff.mp third
      have code : (char3 a.toNat b.toNat c.toNat).toNat =
          (a.toNat - 0xE0) * 4096 + (b.toNat - 0x80) * 64 + (c.toNat - 0x80) := by
        apply toNat_ofNat_of_valid
        unfold Nat.isValidChar
        omega
      rw [encodeChar_three (by omega) (by omega), code, @ofNat_eq_byte _ a (by omega),
        @ofNat_eq_byte _ b (by omega), @ofNat_eq_byte _ c (by omega)]
  | @four a b c d first second third fourth =>
      have range := following?_eq_some_iff.mp first
      have range' := isSecond_iff.mp second
      have third' := isContinuation_iff.mp third
      have fourth' := isContinuation_iff.mp fourth
      have code : (char4 a.toNat b.toNat c.toNat d.toNat).toNat =
          (a.toNat - 0xF0) * 262144 + (b.toNat - 0x80) * 4096 + (c.toNat - 0x80) * 64 +
            (d.toNat - 0x80) := by
        apply toNat_ofNat_of_valid
        unfold Nat.isValidChar
        omega
      rw [encodeChar_four (by omega), code, @ofNat_eq_byte _ a (by omega),
        @ofNat_eq_byte _ b (by omega), @ofNat_eq_byte _ c (by omega), @ofNat_eq_byte _ d (by omega)]

theorem char_ofNat_eq {code : Nat} (same : code = char.toNat) : Char.ofNat code = char := by
  rw [same, Char.ofNat_toNat]

theorem form_encodeChar (char : Char) : Form char (encodeChar char) := by
  -- Surrogates and codes behind the last plane are no characters: without that, the second byte of
  -- a longer form could be out of its range.
  have valid : char.toNat < 0xD800 ∨ 0xDFFF < char.toNat ∧ char.toNat < 0x110000 := char.valid
  have byte : ∀ {code : Nat}, code < 256 → (UInt8.ofNat code).toNat = code :=
    fun small => UInt8.toNat_ofNat_of_lt' small
  by_cases one : char.toNat < 0x80
  · have formed := @Form.one (UInt8.ofNat char.toNat)
    rw [byte (by omega), following?_eq_some_iff, char1, Char.ofNat_toNat] at formed
    rw [encodeChar_one one]
    exact formed (by omega)
  by_cases two : char.toNat < 0x800
  · have formed := @Form.two (UInt8.ofNat (0xC0 + char.toNat / 64))
      (UInt8.ofNat (0x80 + char.toNat % 64))
    rw [byte (by omega), byte (by omega), following?_eq_some_iff, isSecond_iff, char2,
      @char_ofNat_eq char _ (by omega)] at formed
    rw [encodeChar_two (by omega) two]
    exact formed (by omega) (by omega)
  by_cases three : char.toNat < 0x10000
  · have formed := @Form.three (UInt8.ofNat (0xE0 + char.toNat / 4096))
      (UInt8.ofNat (0x80 + char.toNat / 64 % 64)) (UInt8.ofNat (0x80 + char.toNat % 64))
    rw [byte (by omega), byte (by omega), byte (by omega), following?_eq_some_iff, isSecond_iff,
      isContinuation_iff, char3, @char_ofNat_eq char _ (by omega)] at formed
    rw [encodeChar_three (by omega) three]
    exact formed (by omega) (by omega) (by omega)
  · have formed := @Form.four (UInt8.ofNat (0xF0 + char.toNat / 262144))
      (UInt8.ofNat (0x80 + char.toNat / 4096 % 64)) (UInt8.ofNat (0x80 + char.toNat / 64 % 64))
      (UInt8.ofNat (0x80 + char.toNat % 64))
    rw [byte (by omega), byte (by omega), byte (by omega), byte (by omega), following?_eq_some_iff,
      isSecond_iff, isContinuation_iff, isContinuation_iff, char4,
      @char_ofNat_eq char _ (by omega)] at formed
    rw [encodeChar_four (by omega)]
    exact formed (by omega) (by omega) (by omega) (by omega)

/-! ## Texts -/

theorem decodeFrom_append (start : Nat) (text : List Char) (rest : List UInt8) :
    decodeFrom start (encode text ++ rest) =
      (decodeFrom (start + (encode text).length) rest).map (text ++ ·) := by
  induction text generalizing start with
  | nil => cases decoded : decodeFrom start rest <;> simp [encode, decoded, Except.map]
  | cons char text ih =>
      have cut : encode (char :: text) = encodeChar char ++ encode text := List.flatMap_cons
      rw [cut, List.append_assoc, (form_encodeChar char).decoded, ih, List.length_append,
        Nat.add_assoc]
      cases decodeFrom (start + _) rest <;> rfl

theorem decodeFrom_encode (start : Nat) (text : List Char) :
    decodeFrom start (encode text) = .ok text := by
  have decoded := decodeFrom_append start text []
  rw [List.append_nil] at decoded
  simpa [decodeFrom, Except.map] using decoded

theorem decodeFrom_eq_ok_cases (decoded : decodeFrom start bytes = .ok text) :
    bytes = [] ∧ text = [] ∨ ∃ char rest more, bytes = encodeChar char ++ rest ∧
      text = char :: more ∧ decodeFrom (start + (encodeChar char).length) rest = .ok more := by
  obtain rfl | ⟨char, form, rest, formed, rfl⟩ | ⟨bad, reason, failed⟩ := form_or_fault start bytes
  · cases decoded
    exact Or.inl ⟨rfl, rfl⟩
  · rw [formed.decoded] at decoded
    obtain rfl := formed.encode
    cases later : decodeFrom (start + (encodeChar char).length) rest with
    | error fault =>
        rw [later] at decoded
        cases decoded
    | ok more =>
        rw [later] at decoded
        cases decoded
        exact Or.inr ⟨char, rest, more, rfl, rfl, later⟩
  · cases failed.symm.trans decoded

theorem decodeFrom_eq_ok_iff : decodeFrom start bytes = .ok text ↔ bytes = encode text := by
  constructor
  · intro decoded
    induction text generalizing start bytes with
    | nil =>
        obtain ⟨rfl, _⟩ | ⟨_, _, _, _, impossible, _⟩ := decodeFrom_eq_ok_cases decoded
        · rfl
        · contradiction
    | cons char text ih =>
        obtain ⟨_, impossible⟩ | ⟨_, rest, _, rfl, same, later⟩ := decodeFrom_eq_ok_cases decoded
        · contradiction
        · cases same
          rw [ih later, encode, encode, List.flatMap_cons]
  · rintro rfl
    exact decodeFrom_encode start text

theorem decode_eq_ok_iff : decode bytes = .ok text ↔ bytes = encode text := decodeFrom_eq_ok_iff

theorem exists_fault_iff : (∃ fault, decode bytes = .error fault) ↔
    ∀ text, bytes ≠ encode text := by
  simp only [ne_eq, ← decode_eq_ok_iff]
  cases decode bytes <;> simp

/-! ## Faults -/

variable {fault : Fault}

theorem map_eq_error_iff {α β : Type} {f : α → β} {result : Except Fault α} :
    result.map f = .error fault ↔ result = .error fault := by
  cases result <;> simp [Except.map]

theorem Form.length_pos (formed : Form char form) : 0 < form.length := by
  cases formed <;> exact Nat.succ_pos _

theorem fault_behind_text (failed : decodeFrom start bytes = .error fault) :
    ∃ text rest, bytes = encode text ++ rest ∧ fault.start = start + (encode text).length := by
  induction sized : bytes.length using Nat.strongRecOn generalizing bytes start with
  | ind size ih =>
      obtain rfl | ⟨char, form, rest, formed, rfl⟩ | ⟨bad, reason, broken⟩ :=
        form_or_fault start bytes
      · cases failed
      · rw [formed.decoded, map_eq_error_iff] at failed
        have shorter : rest.length < size := by
          have taken := formed.length_pos
          rw [← sized, List.length_append]
          omega
        obtain ⟨text, after, rfl, place⟩ := ih rest.length shorter failed rfl
        obtain rfl := formed.encode
        exact ⟨char :: text, after, by simp [encode], by simp [encode, place, Nat.add_assoc]⟩
      · cases broken.symm.trans failed
        exact ⟨[], bytes, rfl, rfl⟩

/-- No front of the bytes that reaches beyond the fault is the encoding of whole characters. -/
theorem fault_behind_every_text (failed : decode bytes = .error fault)
    (front : encode text <+: bytes) : (encode text).length ≤ fault.start := by
  obtain ⟨rest, rfl⟩ := front
  rw [decode, decodeFrom_append, Nat.zero_add, map_eq_error_iff] at failed
  obtain ⟨_, _, _, place⟩ := fault_behind_text failed
  rw [place]
  exact Nat.le_add_right _ _

/-! ## The standard encoding -/

theorem encodeChar_eq_utf8EncodeChar (char : Char) :
    encodeChar char = String.utf8EncodeChar char := by
  have valid : char.toNat < 0xD800 ∨ 0xDFFF < char.toNat ∧ char.toNat < 0x110000 := char.valid
  have code : char.val.toNat = char.toNat := rfl
  simp only [String.utf8EncodeChar, code]
  split_ifs with one two three
  · exact encodeChar_one (by omega)
  · have first : 0xC0 + char.toNat / 64 = char.toNat / 64 % 32 + 192 := by omega
    rw [encodeChar_two (by omega) (by omega), first, Nat.add_comm 0x80]
  · have first : 0xE0 + char.toNat / 4096 = char.toNat / 4096 % 16 + 224 := by omega
    rw [encodeChar_three (by omega) (by omega), first, Nat.add_comm 0x80, Nat.add_comm 0x80]
  · have first : 0xF0 + char.toNat / 262144 = char.toNat / 262144 % 8 + 240 := by omega
    rw [encodeChar_four (by omega), first, Nat.add_comm 0x80, Nat.add_comm 0x80,
      Nat.add_comm 0x80]

theorem encode_eq_toUTF8 (text : List Char) :
    (encode text).toByteArray = (String.ofList text).toUTF8 := by
  have same : encodeChar = String.utf8EncodeChar := funext encodeChar_eq_utf8EncodeChar
  rw [encode, same, String.toUTF8_eq_toByteArray]
  rfl

end Rulebook.Utf8
