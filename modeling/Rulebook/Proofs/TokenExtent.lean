import Rulebook.Proofs.RestPosition
import Rulebook.Proofs.Unambiguity

/-!
The tokens against the words of the grammar. A token takes as much as it can: blanks as long as
there are blanks, a name up to its last word character, a body up to the character that cannot
belong to it. So each token is described by the word it takes and by what may stand behind the word.
-/

namespace Rulebook.Grammar

open Matcher (Takes)

/-! ## Blanks and marks -/

theorem blankRun_append {blanks text : List Char} (blank : Blank blanks) (starts : Unblank text) :
    Token.blankRun (blanks ++ text) = blanks.length := by
  rw [Token.blankRun, takeWhile_blank_append blank starts]

theorem dropWhile_head (test : Char → Bool) (text : List Char) :
    ∀ char ∈ (text.dropWhile test).head?, test char = false := by
  intro char first
  have stops := List.head?_dropWhile_not test text
  rw [Option.mem_def.mp first] at stops
  exact stops

theorem blank_front (text : List Char) :
    ∃ blanks rest, text = blanks ++ rest ∧ Blank blanks ∧ Unblank rest := by
  exact ⟨text.takeWhile Token.isBlank, text.dropWhile Token.isBlank,
    List.takeWhile_append_dropWhile.symm, List.all_eq_true.mp List.all_takeWhile,
    dropWhile_head Token.isBlank text⟩

theorem blanks_takes : Takes Token.blanks fun value rest => Blank value ∧ Unblank rest := by
  intro text count
  constructor
  · intro taken
    rcases blank_front text with ⟨blanks, rest, rfl, blank, starts⟩
    rw [Token.blanks, blankRun_append blank starts] at taken
    exact ⟨blanks, rest, rfl, ⟨blank, starts⟩, (Option.some.inj taken).symm⟩
  · rintro ⟨blanks, rest, rfl, ⟨blank, starts⟩, rfl⟩
    rw [Token.blanks, blankRun_append blank starts]

theorem gap_takes : Takes Token.gap fun value rest =>
    (Blank value ∧ value ≠ []) ∧ Unblank rest := by
  intro text count
  constructor
  · intro taken
    rcases blank_front text with ⟨blanks, rest, rfl, blank, starts⟩
    rw [Token.gap, blankRun_append blank starts] at taken
    by_cases none : blanks = []
    · simp [none] at taken
    · have filled : blanks.length ≠ 0 := by simpa using none
      simp only [filled, if_false, Option.some.injEq] at taken
      exact ⟨blanks, rest, rfl, ⟨⟨blank, none⟩, starts⟩, taken.symm⟩
  · rintro ⟨blanks, rest, rfl, ⟨⟨blank, filled⟩, starts⟩, rfl⟩
    simp [Token.gap, blankRun_append blank starts, filled]

theorem spaced_takes {mark : Char} (noBlank : Token.isBlank mark = false) :
    Takes (Token.spaced mark) fun value rest =>
      (∃ before after, Blank before ∧ Blank after ∧ value = before ++ mark :: after) ∧
        Unblank rest := by
  intro text count
  constructor
  · intro taken
    rcases blank_front text with ⟨before, tail, rfl, blankBefore, starts⟩
    simp only [Token.spaced, blankRun_append blankBefore starts, List.drop_left] at taken
    cases tail with
    | nil => simp at taken
    | cons first others =>
        simp only [Option.ite_none_right_eq_some, Option.some.injEq] at taken
        rcases taken with ⟨rfl, rfl⟩
        rcases blank_front others with ⟨after, rest, rfl, blankAfter, starts'⟩
        refine ⟨before ++ first :: after, rest, by simp,
          ⟨⟨before, after, blankBefore, blankAfter, rfl⟩, starts'⟩, ?_⟩
        rw [blankRun_append blankAfter starts']
        simp only [List.length_append, List.length_cons]
        omega
  · rintro ⟨_, rest, rfl, ⟨⟨before, after, blankBefore, blankAfter, rfl⟩, starts⟩, rfl⟩
    have marked := unblank_cons noBlank (after ++ rest)
    rw [List.append_assoc, List.cons_append]
    simp only [Token.spaced, blankRun_append blankBefore marked, List.drop_left, if_true,
      blankRun_append blankAfter starts, List.length_append, List.length_cons, Option.some.injEq]
    omega

def Level.extent : Level → List Char → Option Nat
  | .repetition => Token.spaced '^'
  | .sequence => Token.gap
  | .union => Token.spaced '|'

theorem mark_takes (level : Level) :
    Takes level.extent fun value rest => level.Mark value ∧ Unblank rest := by
  cases level with
  | repetition => exact spaced_takes (by decide)
  | sequence => exact gap_takes
  | union => exact spaced_takes (by decide)

theorem opened_takes (mark : Char) : Takes (Token.opened mark) fun value rest =>
    (∃ blanks, Blank blanks ∧ value = mark :: blanks) ∧ Unblank rest := by
  intro text count
  constructor
  · intro taken
    cases text with
    | nil => simp [Token.opened] at taken
    | cons first others =>
        simp only [Token.opened, Option.ite_none_right_eq_some, Option.some.injEq] at taken
        rcases taken with ⟨rfl, rfl⟩
        rcases blank_front others with ⟨blanks, rest, rfl, blank, starts⟩
        refine ⟨first :: blanks, rest, by simp, ⟨⟨blanks, blank, rfl⟩, starts⟩, ?_⟩
        rw [blankRun_append blank starts, List.length_cons, Nat.add_comm]
  · rintro ⟨_, rest, rfl, ⟨⟨blanks, blank, rfl⟩, starts⟩, rfl⟩
    simp only [List.cons_append, Token.opened, if_true, blankRun_append blank starts,
      List.length_cons, Nat.add_comm]

theorem closed_takes {mark : Char} (noBlank : Token.isBlank mark = false) :
    Takes (Token.closed mark) fun value _ => ∃ blanks, Blank blanks ∧ value = blanks ++ [mark] := by
  intro text count
  constructor
  · intro taken
    rcases blank_front text with ⟨blanks, tail, rfl, blank, starts⟩
    simp only [Token.closed, blankRun_append blank starts, List.drop_left] at taken
    cases tail with
    | nil => simp at taken
    | cons first others =>
        simp only [Option.ite_none_right_eq_some, Option.some.injEq] at taken
        rcases taken with ⟨rfl, rfl⟩
        exact ⟨blanks ++ [first], others, by simp, ⟨blanks, blank, rfl⟩, by simp⟩
  · rintro ⟨_, rest, rfl, ⟨blanks, blank, rfl⟩, rfl⟩
    have marked := unblank_cons noBlank rest
    simp [Token.closed, blankRun_append blank marked]

/-! ## Bodies -/

def BodyEnds (delimiter : Char) (text : List Char) : Prop :=
  ∀ value rest, text = value ++ rest → Content delimiter value → value = []

theorem bodyEnds_delimiter {delimiter : Char} (noEscape : delimiter ≠ '\\') (rest : List Char) :
    BodyEnds delimiter (delimiter :: rest) := by
  intro value after same content
  cases content with
  | nil => rfl
  | plain different => cases same; exact absurd rfl different
  | escaped => cases same; exact absurd rfl noEscape

theorem bodyRun_content (delimiter : Char) (text : List Char) :
    ∃ value rest, text = value ++ rest ∧ Content delimiter value ∧
      Token.bodyRun delimiter text = value.length := by
  fun_induction Token.bodyRun delimiter text with
  | case1 => exact ⟨[], [], rfl, Content.nil, rfl⟩
  | case2 rest => exact ⟨[], _, rfl, Content.nil, rfl⟩
  | case3 next rest noLineFeed ih =>
      rcases ih with ⟨value, after, rfl, content, same⟩
      exact ⟨'\\' :: next :: value, after, rfl, Content.escaped noLineFeed content, by simp [same]⟩
  | case4 first rest => exact ⟨[], _, rfl, Content.nil, rfl⟩
  | case5 first rest _ allowed ih =>
      rcases ih with ⟨value, after, rfl, content, same⟩
      rw [not_or] at allowed
      exact ⟨first :: value, after, rfl, Content.plain allowed.1 allowed.2 content, by simp [same]⟩

theorem bodyRun_append {delimiter : Char} {value : List Char} (content : Content delimiter value)
    (rest : List Char) : Token.bodyRun delimiter (value ++ rest) =
      value.length + Token.bodyRun delimiter rest := by
  induction content with
  | nil => simp
  | plain different noSlash _ ih =>
      rw [List.cons_append, Token.bodyRun.eq_3 _ _ _ (by simp [noSlash])]
      simp only [different, noSlash, or_self, if_false, ih, List.length_cons]
      omega
  | escaped noLineFeed _ ih =>
      simp only [List.cons_append, Token.bodyRun, noLineFeed, if_false, ih, List.length_cons]
      omega

theorem bodyRun_eq_zero_iff {delimiter : Char} {text : List Char} :
    Token.bodyRun delimiter text = 0 ↔ BodyEnds delimiter text := by
  constructor
  · rintro stops value rest rfl content
    rw [bodyRun_append content] at stops
    exact List.eq_nil_of_length_eq_zero (by omega)
  · intro ends
    rcases bodyRun_content delimiter text with ⟨value, rest, same, content, length⟩
    rw [length, ends value rest same content, List.length_nil]

theorem body_takes (delimiter : Char) : Takes (Token.body delimiter) fun value rest =>
    Content delimiter value ∧ value ≠ [] ∧ BodyEnds delimiter rest := by
  intro text count
  constructor
  · intro taken
    rcases bodyRun_content delimiter text with ⟨value, rest, rfl, content, length⟩
    simp only [Token.body, length] at taken
    split at taken
    · contradiction
    · rename_i filled
      refine ⟨value, rest, rfl, ⟨content, by simpa using filled, ?_⟩, (Option.some.inj taken).symm⟩
      rw [bodyRun_append content] at length
      exact bodyRun_eq_zero_iff.mp (by omega)
  · rintro ⟨value, rest, rfl, ⟨content, filled, ends⟩, rfl⟩
    simp [Token.body, bodyRun_append content, bodyRun_eq_zero_iff.mpr ends, filled]

/-! ## Flags and names -/

/-- The flag is left unread only where it may not stand. -/
theorem flag_takes : Takes Token.flag fun value rest => ∃ flagged, value = flagText flagged ∧
    (flagged = true → AfterFlag rest) ∧
    (flagged = false → ∀ other, rest = 'i' :: other → ¬ AfterFlag other) := by
  have one : ∀ other, AfterFlag other → Token.flag ('i' :: other) = some 1 := by
    intro other after
    cases other with
    | nil => rfl
    | cons next others =>
        simp only [AfterFlag, List.head?_cons, ne_eq, Option.some.injEq] at after
        simp [Token.flag, after]
  have none : ∀ text, (∀ other, text = 'i' :: other → ¬ AfterFlag other) →
      Token.flag text = some 0 := by
    intro text absent
    unfold Token.flag
    split
    · rename_i next others
      have second := absent _ rfl
      simp only [AfterFlag, List.head?_cons, ne_eq, Option.some.injEq,
        Decidable.not_and_iff_not_or_not, Decidable.not_not] at second
      simp [second]
    · exact absurd (by simp [AfterFlag]) (absent [] rfl)
    · rfl
  intro text count
  constructor
  · intro taken
    -- the text alone decides whether a flag is taken
    by_cases stands : ∃ other, text = 'i' :: other ∧ AfterFlag other
    · rcases stands with ⟨other, rfl, after⟩
      rw [one other after] at taken
      exact ⟨['i'], other, rfl, ⟨true, rfl, fun _ => after, by simp⟩, (Option.some.inj taken).symm⟩
    · have absent : ∀ other, text = 'i' :: other → ¬ AfterFlag other :=
        fun other same after => stands ⟨other, same, after⟩
      rw [none text absent] at taken
      exact ⟨[], text, rfl, ⟨false, rfl, by simp, fun _ => absent⟩, (Option.some.inj taken).symm⟩
  · rintro ⟨_, rest, rfl, ⟨flagged, rfl, after, absent⟩, rfl⟩
    cases flagged with
    | false => exact none rest (absent rfl)
    | true => exact one rest (after rfl)

theorem name_takes : Takes Token.name fun value rest => IsName value ∧ ¬ WordAhead rest := by
  intro text count
  constructor
  · intro taken
    match text with
    | [] => simp [Token.name] at taken
    | [_] => simp [Token.name] at taken
    | first :: second :: others =>
        simp only [Token.name, Option.ite_none_right_eq_some, Bool.and_eq_true,
          Option.some.injEq] at taken
        rcases taken with ⟨⟨starts, word⟩, rfl⟩
        refine ⟨first :: second :: others.takeWhile Token.isWord, others.dropWhile Token.isWord,
          by simp, ⟨⟨starts, by simp, ?_⟩, ?_⟩, by simp only [List.length_cons]; omega⟩
        · intro char member
          rcases List.mem_cons.mp member with rfl | later
          · exact word
          · exact List.all_eq_true.mp List.all_takeWhile char later
        · rintro ⟨char, head, more⟩
          exact absurd more (by simp [dropWhile_head Token.isWord others char head])
  · rintro ⟨name, rest, rfl, ⟨named, stops⟩, rfl⟩
    match name, named with
    | first :: second :: others, ⟨starts, _, words⟩ =>
        have run : (others ++ rest).takeWhile Token.isWord = others := by
          rw [List.takeWhile_append_of_pos fun char member => words char (by simp [member])]
          cases rest with
          | nil => simp
          | cons char after =>
              have noWord : ¬ Token.isWord char = true := fun word => stops ⟨char, rfl, word⟩
              simp [noWord]
        simp only [List.cons_append, Token.name, starts, words second (by simp), Bool.and_self,
          if_true, run, List.length_cons, Option.some.injEq]
        omega
    | [_], ⟨_, filled, _⟩ => exact absurd rfl filled

theorem longest_name {name : List Char} (named : IsName name) (rest : List Char) :
    ∃ longer stop, name ++ rest = longer ++ stop ∧ IsName longer ∧ ¬ WordAhead stop := by
  refine ⟨name ++ rest.takeWhile Token.isWord, rest.dropWhile Token.isWord, by simp, ?_, ?_⟩
  · match name, named with
    | first :: others, ⟨starts, filled, words⟩ =>
        refine ⟨starts, by simp [filled], ?_⟩
        intro char member
        rcases List.mem_append.mp member with early | later
        · exact words char early
        · exact List.all_eq_true.mp List.all_takeWhile char later
  · rintro ⟨char, head, more⟩
    exact absurd more (by simp [dropWhile_head Token.isWord rest char head])

/-! ## Lines -/

def Unbroken (text : List Char) : Prop := ∀ char ∈ text, Token.isLineEnd char = false

instance (text : List Char) : Decidable (Unbroken text) :=
  decidable_of_iff ((text.all fun char => !Token.isLineEnd char) = true) (by simp [Unbroken])

/-- A line feed, a carriage return or both, as one mark; or nothing, at the end of the text. -/
inductive LineEnd : List Char → List Char → Prop where
  | lineFeed {rest} : LineEnd ['\n'] rest
  | pair {rest} : LineEnd ['\r', '\n'] rest
  | carriageReturn {rest} : rest.head? ≠ some '\n' → LineEnd ['\r'] rest
  | textEnd : LineEnd [] []

theorem restOfLine_takes : Takes Token.restOfLine fun value rest =>
    Unbroken value ∧ ∀ char ∈ rest.head?, Token.isLineEnd char = true := by
  intro text count
  constructor
  · intro taken
    refine ⟨text.takeWhile fun char => !Token.isLineEnd char,
      text.dropWhile fun char => !Token.isLineEnd char, by simp, ⟨?_, ?_⟩,
      (Option.some.inj taken).symm⟩
    · intro char member
      simpa using List.all_eq_true.mp List.all_takeWhile char member
    · intro char first
      simpa using dropWhile_head _ text char first
  · rintro ⟨value, rest, rfl, ⟨unbroken, stops⟩, rfl⟩
    have whole : (value ++ rest).takeWhile (fun char => !Token.isLineEnd char) = value := by
      rw [List.takeWhile_append_of_pos fun char member => by simp [unbroken char member]]
      cases rest with
      | nil => simp
      | cons char others => simp [stops char rfl]
    rw [Token.restOfLine, whole]

theorem lineEnd_takes : Takes Token.lineEnd LineEnd := by
  intro text count
  constructor
  · intro taken
    unfold Token.lineEnd at taken
    split at taken <;> cases taken
    · exact ⟨[], [], rfl, LineEnd.textEnd, rfl⟩
    · exact ⟨['\r', '\n'], _, rfl, LineEnd.pair, rfl⟩
    · rename_i rest noPair
      refine ⟨['\r'], rest, rfl, LineEnd.carriageReturn ?_, rfl⟩
      intro first
      cases rest with
      | nil => simp at first
      | cons char others =>
          cases first
          exact noPair others rfl
    · exact ⟨['\n'], _, rfl, LineEnd.lineFeed, rfl⟩
  · rintro ⟨value, rest, rfl, ends, rfl⟩
    cases ends with
    | lineFeed | pair | textEnd => rfl
    | carriageReturn single =>
        cases rest with
        | nil => rfl
        | cons char others =>
            have different : char ≠ '\n' := fun same => single (by rw [same]; rfl)
            simp [Token.lineEnd, different]

end Rulebook.Grammar
