import Mathlib.Tactic.SplitIfs
import Rulebook.Proofs.LineFormat
import Rulebook.Text.Listed
import Rulebook.Text.Quoted

/-!
Writings that show where they end. Behind the writing of a thing any text may follow, and still the
thing and the text can be told apart. This is so for quoted text, whatever it holds, because every
character in it can be read off the front of what is written; and it carries over from the members of
a list to the list in parentheses.
-/

namespace Rulebook

open Grammar (Unbroken unbroken_cons_iff unbroken_append_iff isLineEnd_eq_false_iff)

/-- A text that begins with the writing of `thing` begins with the writing of no other valid thing,
and with this one in one way only. -/
def Delimited {α : Type} (write : α → List Char) (valid : α → Prop) (thing : α) : Prop :=
  ∀ other, valid other → ∀ after after', write thing ++ after = write other ++ after' →
    thing = other ∧ after = after'

section Delimited

variable {α : Type} {write : α → List Char} {valid : α → Prop} {thing : α} {items others : List α}
  {text text' : List Char}

theorem Delimited.behind (front : List Char) (told : Delimited write valid thing) :
    Delimited (fun thing => front ++ write thing) valid thing := by
  intro other valid' after after' same
  rw [List.append_assoc, List.append_assoc] at same
  exact told other valid' after after' (List.append_cancel_left same)

/-- The text begins with the writing of no valid thing. -/
def NoneAhead (write : α → List Char) (valid : α → Prop) (text : List Char) : Prop :=
  ∀ thing, valid thing → ∀ after, write thing ++ after ≠ text

/-- Things that are written one after the other are told up to the first text that begins with none
of them. -/
theorem cancel_writings (each : ∀ item ∈ items, valid item ∧ Delimited write valid item)
    (valids : ∀ item ∈ others, valid item) (ends : NoneAhead write valid text)
    (ends' : NoneAhead write valid text')
    (same : items.flatMap write ++ text = others.flatMap write ++ text') :
    items = others ∧ text = text' := by
  induction items generalizing others with
  | nil =>
      cases others with
      | nil => exact ⟨rfl, same⟩
      -- the list that ends first is followed by a text that begins with no such thing
      | cons other others =>
          rw [List.flatMap_cons, List.append_assoc] at same
          exact absurd same.symm (ends other (valids other List.mem_cons_self) _)
  | cons item items ih =>
      obtain ⟨⟨good, told⟩, later⟩ := List.forall_mem_cons.mp each
      rw [List.flatMap_cons, List.append_assoc] at same
      cases others with
      | nil => exact absurd same (ends' item good _)
      | cons other others =>
          obtain ⟨good', valids'⟩ := List.forall_mem_cons.mp valids
          rw [List.flatMap_cons, List.append_assoc] at same
          obtain ⟨rfl, behind⟩ := told other good' _ _ same
          obtain ⟨rfl, rest⟩ := ih later valids' behind
          exact ⟨rfl, rest⟩

end Delimited

namespace Quoted

variable {quote char : Char} {text other rest : List Char}

/-! ## Numbers of characters -/

def digitValue (digit : Char) : Nat :=
  if digit.toNat < 'a'.toNat then digit.toNat - '0'.toNat else digit.toNat - 'a'.toNat + 10

def numberOf (digits : List Char) : Nat :=
  digits.foldl (fun number digit => number * 16 + digitValue digit) 0

theorem digitValue_hexDigit : ∀ digit < 16, digitValue (hexDigit digit) = digit := by decide

theorem length_hex (width number : Nat) : (hex width number).length = width := by
  induction width generalizing number with
  | zero => rfl
  | succ width ih => simp [hex, ih]

theorem numberOf_hex {width number : Nat} (fits : number < Nat.pow 16 width) :
    numberOf (hex width number) = number := by
  induction width generalizing number with
  | zero =>
      have zero : number = 0 := Nat.lt_one_iff.mp fits
      rw [zero]
      rfl
  | succ width ih =>
      have front : numberOf (hex width (number / 16)) = number / 16 :=
        ih (Nat.div_lt_of_lt_mul (Nat.mul_comm 16 _ ▸ fits))
      have last := digitValue_hexDigit (number % 16) (Nat.mod_lt _ (by decide))
      rw [numberOf] at front
      rw [hex, numberOf, List.foldl_append, front, List.foldl_cons, List.foldl_nil, last]
      omega

/-! ## Reading one character -/

def numbered (width : Nat) (text : List Char) : Char × List Char :=
  (Char.ofNat (numberOf (text.take width)), text.drop width)

def afterBackslash : List Char → Option (Char × List Char)
  | [] => none
  | 't' :: rest => some ('\t', rest)
  | 'n' :: rest => some ('\n', rest)
  | 'r' :: rest => some ('\r', rest)
  | 'x' :: rest => some (numbered 2 rest)
  | 'u' :: rest => some (numbered 4 rest)
  | 'U' :: rest => some (numbered 8 rest)
  | char :: rest => some (char, rest)

def decodeChar : List Char → Option (Char × List Char)
  | [] => none
  | first :: rest => if first = '\\' then afterBackslash rest else some (first, rest)

def IsQuote (quote : Char) : Prop := quote = '\'' ∨ quote = '"'

theorem isQuote_quoteOf (text : List Char) : IsQuote (quoteOf text) := by
  unfold quoteOf
  split
  · exact Or.inr rfl
  · exact Or.inl rfl

theorem numbered_hex {width : Nat} (fits : char.toNat < Nat.pow 16 width) (rest : List Char) :
    numbered width (hex width char.toNat ++ rest) = (char, rest) := by
  rw [numbered, List.take_left' (length_hex _ _), List.drop_left' (length_hex _ _),
    numberOf_hex fits, Char.ofNat_toNat]

theorem decodeChar_escapeCode (char : Char) (rest : List Char) :
    decodeChar (escapeCode char.toNat ++ rest) = some (char, rest) := by
  have limit : char.toNat ≤ 0x10FFFF := by
    rcases char.valid with low | ⟨_, high⟩
    · exact Nat.le_of_lt_succ (Nat.lt_trans low (by decide))
    · exact Nat.le_of_lt_succ high
  have written : ∀ {width bound : Nat}, char.toNat ≤ bound → bound < Nat.pow 16 width →
      some (numbered width (hex width char.toNat ++ rest)) = some (char, rest) :=
    fun small fits => congrArg some (numbered_hex (Nat.lt_of_le_of_lt small fits) rest)
  unfold escapeCode
  split
  · exact written ‹_› (by decide)
  · split
    · exact written ‹_› (by decide)
    · exact written limit (by decide)

theorem decodeChar_encodeChar (isQuote : IsQuote quote) (char : Char) (rest : List Char) :
    decodeChar (encodeChar quote char ++ rest) = some (char, rest) := by
  unfold encodeChar
  split_ifs with escaped tab feed back unprintable
  · rcases escaped with rfl | rfl
    · rcases isQuote with rfl | rfl <;> rfl
    · rfl
  · rw [tab]
    rfl
  · rw [feed]
    rfl
  · rw [back]
    rfl
  · exact decodeChar_escapeCode char rest
  · have noBackslash : char ≠ '\\' := fun same => escaped (Or.inr same)
    simp [decodeChar, noBackslash]

theorem encodeChar_delimited (isQuote : IsQuote quote) (char : Char) :
    Delimited (encodeChar quote) (fun _ => True) char := by
  intro other _ after after' same
  have read := congrArg decodeChar same
  rw [decodeChar_encodeChar isQuote, decodeChar_encodeChar isQuote] at read
  simpa using read

/-! ## Texts -/

theorem noneAhead_quote (isQuote : IsQuote quote) (after : List Char) :
    NoneAhead (encodeChar quote) (fun _ => True) (quote :: after) := by
  intro char _ rest same
  have noBackslash : '\\' ≠ quote := by rcases isQuote with rfl | rfl <;> decide
  unfold encodeChar escapeCode at same
  split_ifs at same with escaped <;> simp [noBackslash] at same
  exact escaped (Or.inl same.1)

theorem encode_delimited (text : List Char) : Delimited encode (fun _ => True) text := by
  intro other _ after after' same
  simp only [encode, List.cons_append, List.append_assoc, List.nil_append, List.cons.injEq] at same
  obtain ⟨quotes, later⟩ := same
  rw [← quotes] at later
  have isQuote := isQuote_quoteOf text
  obtain ⟨texts, rest⟩ := cancel_writings
    (fun char _ => ⟨trivial, encodeChar_delimited isQuote char⟩) (fun _ _ => trivial)
    (noneAhead_quote isQuote after) (noneAhead_quote isQuote after') later
  exact ⟨texts, (List.cons.inj rest).2⟩

/-! ## Line ends -/

theorem isLineEnd_hexDigit : ∀ digit < 16, Token.isLineEnd (hexDigit digit) = false := by decide

theorem hex_unbroken (width number : Nat) : Unbroken (hex width number) := by
  induction width generalizing number with
  | zero => simp [hex, Unbroken]
  | succ width ih =>
      have last := isLineEnd_hexDigit (number % 16) (Nat.mod_lt _ (by decide))
      rw [hex, unbroken_append_iff]
      exact ⟨ih (number / 16), by simpa [Unbroken] using last⟩

theorem escapeCode_unbroken (code : Nat) : Unbroken (escapeCode code) := by
  have marked : ∀ (mark : Char) (width : Nat), Token.isLineEnd mark = false →
      Unbroken ('\\' :: mark :: hex width code) := by
    intro mark width inside
    rw [unbroken_cons_iff, unbroken_cons_iff]
    exact ⟨rfl, inside, hex_unbroken width code⟩
  unfold escapeCode
  split_ifs
  · exact marked 'x' 2 rfl
  · exact marked 'u' 4 rfl
  · exact marked 'U' 8 rfl

theorem encodeChar_unbroken (isQuote : IsQuote quote) (char : Char) :
    Unbroken (encodeChar quote char) := by
  unfold encodeChar
  split_ifs with escaped tab feed back unprintable
  · rcases escaped with rfl | rfl
    · rcases isQuote with rfl | rfl <;> decide
    · decide
  · decide
  · decide
  · decide
  · exact escapeCode_unbroken char.toNat
  · simpa [Unbroken, isLineEnd_eq_false_iff] using ⟨back, feed⟩

theorem encode_unbroken (text : List Char) : Unbroken (encode text) := by
  have isQuote := isQuote_quoteOf text
  have inside : Token.isLineEnd (quoteOf text) = false := by
    rcases isQuote with same | same <;> rw [same] <;> rfl
  have chars : Unbroken (text.flatMap (encodeChar (quoteOf text))) := by
    intro char member
    obtain ⟨source, _, written⟩ := List.mem_flatMap.mp member
    exact encodeChar_unbroken isQuote source char written
  rw [encode, List.cons_append, unbroken_cons_iff, unbroken_append_iff]
  exact ⟨inside, chars, by simpa [Unbroken] using inside⟩

end Quoted

/-! ## Lists -/

namespace Listed

def behindFirst : List (List Char) → List Char
  | [] => [',', ')']
  | others => others.flatMap (fun member => ',' :: ' ' :: member) ++ [')']

theorem commas_cons (first : List Char) (others : List (List Char)) :
    commas (first :: others) = first ++ others.flatMap fun member => ',' :: ' ' :: member := by
  induction others generalizing first with
  | nil => simp [commas]
  | cons second others ih => simp [commas, ih second]

theorem tuple_nil : tuple [] = ['(', ')'] := rfl

theorem tuple_cons (first : List Char) (others : List (List Char)) :
    tuple (first :: others) = '(' :: (first ++ behindFirst others) := by
  cases others with
  | nil => rfl
  | cons second others => simp [tuple, behindFirst, commas_cons first]

variable {α : Type} {write : α → List Char} {valid : α → Prop} {items others : List α}
  {after after' : List Char}

theorem members_cancel (each : ∀ item ∈ items, valid item ∧ Delimited write valid item)
    (valids : ∀ item ∈ others, valid item)
    (same : (items.map write).flatMap (fun member => ',' :: ' ' :: member) ++ ')' :: after =
      (others.map write).flatMap (fun member => ',' :: ' ' :: member) ++ ')' :: after') :
    items = others ∧ after = after' := by
  have ends : ∀ after : List Char,
      NoneAhead (fun item => [',', ' '] ++ write item) valid (')' :: after) := by
    intro after item _ rest same
    simp at same
  rw [List.flatMap_map, List.flatMap_map] at same
  obtain ⟨items, rest⟩ := cancel_writings
    (fun item member => ⟨(each item member).1, (each item member).2.behind [',', ' ']⟩)
    valids (ends after) (ends after') same
  exact ⟨items, (List.cons.inj rest).2⟩

/-- A single member is told from the first of several by what is behind its comma. -/
theorem behindFirst_cancel (each : ∀ item ∈ items, valid item ∧ Delimited write valid item)
    (valids : ∀ item ∈ others, valid item)
    (same : behindFirst (items.map write) ++ after = behindFirst (others.map write) ++ after') :
    items = others ∧ after = after' := by
  cases items with
  | nil =>
      cases others with
      | nil => simpa [behindFirst] using same
      | cons other others => simp [behindFirst] at same
  | cons item items =>
      cases others with
      | nil => simp [behindFirst] at same
      | cons other others =>
          apply members_cancel each valids
          simpa [behindFirst] using same

/-- A list of things is told from what follows it if the things are, and if none of them begins with
the parenthesis that ends the list. -/
theorem tuple_delimited (each : ∀ item ∈ items, valid item ∧ Delimited write valid item)
    (opens : ∀ after, NoneAhead write valid (')' :: after)) :
    Delimited (fun items => tuple (items.map write)) (∀ item ∈ ·, valid item) items := by
  intro others valids after after' same
  cases items with
  | nil =>
      cases others with
      | nil => simpa [tuple_nil] using same
      | cons other others =>
          simp only [List.map_nil, List.map_cons, tuple_nil, tuple_cons, List.cons_append,
            List.nil_append, List.append_assoc, List.cons.injEq, true_and] at same
          exact absurd same.symm (opens _ other (valids other List.mem_cons_self) _)
  | cons item items =>
      obtain ⟨⟨good, told⟩, later⟩ := List.forall_mem_cons.mp each
      cases others with
      | nil =>
          simp only [List.map_nil, List.map_cons, tuple_nil, tuple_cons, List.cons_append,
            List.nil_append, List.append_assoc, List.cons.injEq, true_and] at same
          exact absurd same (opens _ item good _)
      | cons other others =>
          obtain ⟨good', valids'⟩ := List.forall_mem_cons.mp valids
          simp only [List.map_cons, tuple_cons, List.cons_append, List.append_assoc,
            List.cons.injEq, true_and] at same
          obtain ⟨rfl, behind⟩ := told other good' _ _ same
          obtain ⟨rfl, rest⟩ := behindFirst_cancel later valids' behind
          exact ⟨rfl, rest⟩

theorem behindFirst_unbroken {members : List (List Char)}
    (each : ∀ member ∈ members, Unbroken member) : Unbroken (behindFirst members) := by
  cases members with
  | nil => decide
  | cons first others =>
      have spaced : Unbroken ((first :: others).flatMap fun member => ',' :: ' ' :: member) := by
        intro char inside
        obtain ⟨member, listed, written⟩ := List.mem_flatMap.mp inside
        rcases List.mem_cons.mp written with rfl | written
        · rfl
        rcases List.mem_cons.mp written with rfl | written
        · rfl
        · exact each member listed char written
      rw [behindFirst, unbroken_append_iff]
      · exact ⟨spaced, by decide⟩
      · simp

theorem tuple_unbroken {members : List (List Char)} (each : ∀ member ∈ members, Unbroken member) :
    Unbroken (tuple members) := by
  cases members with
  | nil => decide
  | cons first others =>
      obtain ⟨front, later⟩ := List.forall_mem_cons.mp each
      rw [tuple_cons, unbroken_cons_iff, unbroken_append_iff]
      exact ⟨rfl, front, behindFirst_unbroken later⟩

end Listed

end Rulebook
