import Rulebook.Proofs.RestPosition
import Rulebook.Regex.Reader
import Rulebook.Regex.Run

/-!
Escaped literals. With a backslash before each character that means something in a pattern, every
text is a pattern for itself: each of its characters is read as one that stands for itself, whatever
is next to it, and the chain of them takes exactly the text.
-/

namespace Rulebook.Regex

variable {char : Char} {word : List Char}

/-- The characters that mean something in a pattern. -/
def special : List Char := "\\.^$*+?\x7b\x7d[]()|".toList

def escapeChar (char : Char) : List Char := if char ∈ special then ['\\', char] else [char]

def escape (word : List Char) : List Char := word.flatMap escapeChar

def spelled (word : List Char) : Regex :=
  catAll (word.map fun char => .one (.only char.toNat))

/-! ## Reading -/

def letterFor (char : Char) : Letter := if char ∈ special then .escaped char else .plain char

theorem letters_escapeChar (char : Char) (rest : List Char) :
    letters (escapeChar char ++ rest) = (letters rest).map (letterFor char :: ·) := by
  have noCode : 'x' ∉ special ∧ 'u' ∉ special := by decide
  by_cases isSpecial : char ∈ special
  · have noByte := ne_of_mem_of_not_mem isSpecial noCode.1
    have noUnit := ne_of_mem_of_not_mem isSpecial noCode.2
    have read := letters.eq_4 char rest (fun _ _ _ same _ => noByte same)
      fun _ _ _ _ _ same _ => noUnit same
    simpa [escapeChar, letterFor, isSpecial, noByte, noUnit] using read
  · have noBackslash : char ≠ '\\' := by
      rintro rfl
      exact isSpecial (by decide)
    have read := letters.eq_5 char rest (fun _ _ _ same _ => noBackslash same)
      (fun _ _ _ _ _ same _ => noBackslash same) fun _ _ same _ => noBackslash same
    simpa [escapeChar, letterFor, isSpecial, noBackslash] using read

theorem letters_escape (word : List Char) : letters (escape word) = some (word.map letterFor) := by
  induction word with
  | nil => rfl
  | cons char word ih =>
      rw [escape, List.flatMap_cons, letters_escapeChar]
      show (letters (escape word)).map _ = _
      rw [ih]
      rfl

theorem escape?_special (member : char ∈ special) :
    escape? char = some (literal char.toNat) := by
  have all : special.all (fun char => escape? char = some (literal char.toNat)) := by decide
  exact of_decide_eq_true (List.all_eq_true.mp all char member)

theorem plain?_of_not_special (plain : char ∉ special) (rest : List Letter) :
    plain? char rest = some (literal char.toNat, rest) := by
  have other : ∀ meaning ∈ special, char ≠ meaning := fun _ member same => plain (same ▸ member)
  have noLoop : simpleBounds? char = none := simpleBounds?.eq_4 char (other '?' (by decide))
    (other '*' (by decide)) (other '+' (by decide))
  have itself : plainToken char = literal char.toNat :=
    plainToken.eq_6 char (other '.' (by decide)) (other '^' (by decide)) (other '$' (by decide))
      (other '|' (by decide)) (other ')' (by decide))
  rw [plain?, if_neg (other '(' (by decide)), if_neg (other '[' (by decide)),
    if_neg (other '{' (by decide)), noLoop, itself]

theorem token?_letterFor (char : Char) (rest : List Letter) :
    token? (letterFor char :: rest) = some (literal char.toNat, rest) := by
  by_cases isSpecial : char ∈ special
  · simp [letterFor, isSpecial, token?, escape?_special]
  · simp [letterFor, isSpecial, token?, plain?_of_not_special]

theorem tokens?_letters (word : List Char) :
    tokens? (word.map letterFor) = some (word.map fun char => literal char.toNat) := by
  induction word with
  | nil => simp [tokens?]
  | cons char word ih =>
      rw [List.map_cons, tokens?_cons, token?_letterFor]
      simp [ih]

theorem assemble?_atoms (regexes : List Regex) (level : Open) :
    assemble? (regexes.map .atom) level [] =
      some (Open.inside { level with items := regexes.reverse ++ level.items }) := by
  induction regexes generalizing level with
  | nil => rfl
  | cons regex regexes ih =>
      rw [List.map_cons, assemble?, ih, List.reverse_cons, List.append_assoc]
      rfl

theorem read?_escape (word : List Char) : read? (escape word) = some (spelled word) := by
  have atoms : word.map (fun char => literal char.toNat) =
      (word.map fun char => one (.only char.toNat)).map Token.atom := by
    rw [List.map_map]
    rfl
  simp only [read?, letters_escape, tokens?_letters]
  rw [atoms, assemble?_atoms]
  simp [Open.inside, Open.split, Open.new, altAll, spelled]

/-! ## Running -/

variable {flags : RegexFlags}

theorem only_holds (expected char : Char) :
    (CharSet.only expected.toNat).holds false char = true ↔ char = expected := by
  have code : char = expected ↔ char.toNat = expected.toNat := by rw [Char.toNat_inj]
  rw [code, Nat.eq_iff_le_and_ge]
  simp [CharSet.holds, CharSet.only, SetItem.code, SetItem.holds, and_comm]

/-- The chain leaves what is behind the word, and fails where the word is not. -/
theorem run_spelled (exact : flags.ignoreCase = false) (before : Option Char) (text : List Char) :
    ((spelled word).run flags ⟨before, text⟩ some).map Cursor.rest =
      if word <+: text then some (text.drop word.length) else none := by
  induction word generalizing before text with
  | nil => simp [spelled, catAll, run]
  | cons char word ih =>
      have chain : spelled (char :: word) = .cat (.one (.only char.toNat)) (spelled word) := rfl
      rw [chain, run, run, exact]
      cases text with
      | nil => simp [runOne]
      | cons first rest =>
          simp only [runOne, only_holds, List.cons_prefix_cons, List.length_cons,
            List.drop_succ_cons]
          by_cases same : first = char
          · simp [same, ih]
          · simp [same, Ne.symm same]

def wordExtent (word text : List Char) : Option Nat :=
  if word <+: text then some word.length else none

theorem wordExtent_takes (word : List Char) :
    Matcher.Takes (wordExtent word) fun value _ => value = word := by
  intro text count
  simp only [wordExtent, Option.ite_none_right_eq_some, Option.some.injEq]
  constructor
  · rintro ⟨⟨rest, rfl⟩, rfl⟩
    exact ⟨word, rest, rfl, rfl, rfl⟩
  · rintro ⟨_, rest, rfl, rfl, rfl⟩
    exact ⟨List.prefix_append _ rest, rfl⟩

theorem extent_spelled (exact : flags.ignoreCase = false) (word : List Char) :
    (spelled word).extent flags = fun _ => wordExtent word := by
  funext before text
  have measured : (spelled word).extent flags before text =
      (((spelled word).run flags ⟨before, text⟩ some).map Cursor.rest).map
        fun rest => text.length - rest.length := by
    rw [extent, Option.map_map]
    rfl
  rw [measured, run_spelled exact, wordExtent]
  split
  · rename_i begins
    rw [Option.map_some, List.length_drop, Nat.sub_sub_self begins.length_le]
  · rfl

/-! ## Matching -/

variable {source text : List Char}

theorem ofRegex_spelled (exact : flags.ignoreCase = false) (word : List Char)
    (ending : text <:+ source) : Matcher.ofRegex (spelled word) flags source (posOf source text) =
      Matcher.literal word source (posOf source text) := by
  have token : Matcher.ofRegex (spelled word) flags = Matcher.token (wordExtent word) := by
    rw [Matcher.ofRegex, extent_spelled exact, Matcher.token]
  apply Option.ext
  rintro ⟨value, stop⟩
  rw [token, Matcher.token_eq_some (wordExtent_takes word) ending, Matcher.literal_eq_some ending]
  constructor
  · rintro ⟨rest, same, rfl, rfl⟩
    exact ⟨rest, same, rfl, rfl⟩
  · rintro ⟨rest, same, rfl, rfl⟩
    exact ⟨rest, same, rfl, rfl⟩

/-- Every text is a pattern once its special characters are escaped, and at each place of a text the
pattern matches exactly where the text itself does, with the same value and the same end. -/
theorem escaped_matches_literal (word : List Char) : ∃ regex,
    read? (escape word) = some regex ∧
    ∀ (dotAll : Bool) (source : List Char) (pos : Nat), pos ≤ source.length →
      (Matcher.ofRegex regex ⟨false, dotAll⟩).call source pos =
        (Matcher.literal word).call source pos := by
  refine ⟨spelled word, read?_escape word, ?_⟩
  intro dotAll source pos inside
  have exact : (⟨false, dotAll⟩ : RegexFlags).ignoreCase = false := rfl
  have same := ofRegex_spelled exact word (List.drop_suffix pos source)
  rw [posOf_drop inside] at same
  rw [Matcher.call, same, Matcher.call]

/-- The word spells a group with an optional class, and the text ends with it. -/
theorem escaped_quantifier_matches :
    escape "a(b]?".toList = "a\\(b\\]\\?".toList ∧
    ∃ regex, read? "a\\(b\\]\\?".toList = some regex ∧
      (Matcher.ofRegex regex ⟨false, false⟩).call "xa(b]?".toList (1 : Nat) =
        (some "a(b]?".toList, 6) ∧
      (Matcher.ofRegex regex ⟨false, false⟩).call "xa(b]?".toList (6 : Nat) = (none, 6) := by
  obtain ⟨regex, read, alike⟩ := escaped_matches_literal "a(b]?".toList
  refine ⟨rfl, regex, read, ?_, ?_⟩
  · rw [alike false "xa(b]?".toList 1 (by decide)]
    rfl
  · rw [alike false "xa(b]?".toList 6 (by decide)]
    rfl

end Rulebook.Regex
