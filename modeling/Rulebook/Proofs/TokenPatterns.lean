import Rulebook.Matcher.Plan
import Rulebook.Proofs.TokenExtent

/-!
The tokens against regular expressions. Each token of rule definitions has a written pattern. Where
the pattern is carried out by backtracking runs, the run is determined: a loop can only go on at a
character at which what follows the loop cannot start, so it leaves at the end of the longest run of
such characters. That is the extent of the token.
-/

namespace Rulebook.Regex

/-- How tokens are read: case counts, and the dot leaves out the line feed. -/
def plainFlags : RegexFlags := ⟨false, false⟩

/-- Wherever the run starts, there is at most one place where it can stop. -/
def Determined (regex : Regex) (next : Cursor → Option Cursor) : Prop :=
  ∀ cursor goOn, regex.run plainFlags cursor goOn = (next cursor).bind goOn

def step (test : Char → Bool) : Cursor → Option Cursor
  | ⟨_, []⟩ => none
  | ⟨_, char :: rest⟩ => if test char then some ⟨some char, rest⟩ else none

namespace Determined

variable {regex left right : Regex} {next first second : Cursor → Option Cursor}

theorem empty : Determined .empty some := fun _ _ => rfl

theorem one {set : CharSet} {test : Char → Bool}
    (same : ∀ char, set.holds false char = test char) : Determined (.one set) (step test) := by
  rintro ⟨before, _ | ⟨char, rest⟩⟩ goOn
  · rfl
  · simp only [run, runOne, step, plainFlags, same]
    cases test char <;> rfl

theorem any : Determined .any (step (· != '\n')) := by
  rintro ⟨before, _ | ⟨char, rest⟩⟩ goOn
  · rfl
  · by_cases lineFeed : char = '\n'
    · simp [run, runOne, step, plainFlags, lineFeed]
    · simp [run, runOne, step, plainFlags, lineFeed]

theorem cat (front : Determined left first) (back : Determined right second) :
    Determined (.cat left right) fun cursor => (first cursor).bind second := by
  intro cursor goOn
  rw [run, front, Option.bind_assoc]
  exact congrArg _ (funext fun mid => back mid goOn)

theorem alt (front : Determined left first) (back : Determined right second)
    (apart : ∀ cursor, first cursor ≠ none → second cursor = none) :
    Determined (.alt left right) fun cursor => (first cursor).or (second cursor) := by
  intro cursor goOn
  rw [run, front, back]
  cases taken : first cursor with
  | none => simp [taken]
  | some mid =>
      have absent : second cursor = none := apart cursor (by simp [taken])
      simp only [taken, absent, Option.bind_some, Option.bind_none, Option.or_none]
      cases goOn mid <;> rfl

theorem ahead (inside : Determined regex next) (wanted : Bool) :
    Determined (.ahead regex wanted) fun cursor =>
      if (next cursor).isSome == wanted then some cursor else none := by
  intro cursor goOn
  have stands : ((next cursor).bind some).isSome = (next cursor).isSome := by simp
  rw [run, runHere, inside, stands]
  dsimp only
  split <;> rfl

end Determined

/-! ## Loops -/

inductive Exhausts (next : Cursor → Option Cursor) : Cursor → Cursor → Prop where
  | stop {cursor : Cursor} : next cursor = none → Exhausts next cursor cursor
  | step {cursor mid last : Cursor} : next cursor = some mid →
      mid.rest.length < cursor.rest.length → Exhausts next mid last → Exhausts next cursor last

variable {body : Regex} {next : Cursor → Option Cursor} {cursor last : Cursor}
  {goOn : Cursor → Option Cursor}

/-- A loop leaves behind its last body, if what follows starts nowhere before that or does start
there. -/
theorem runLoop_exhausts (determined : Determined body next) (exhausts : Exhausts next cursor last)
    (leaves : (∀ mid, next mid ≠ none → goOn mid = none) ∨ goOn last ≠ none) {least count : Nat}
    (enough : least ≤ count) :
    runLoop (run plainFlags body) least none true goOn count cursor = goOn last := by
  -- Longer runs are tried first. Where what follows starts nowhere inside the run, every shorter
  -- run fails; where it starts behind the longest one, no other is tried.
  induction exhausts generalizing count with
  | stop ends =>
      rw [runLoop]
      simp [determined _ _, ends, enough]
  | @step cursor mid last moves shorter _ ih =>
      have later := ih leaves (Nat.le_succ_of_le enough)
      rw [runLoop]
      simp only [determined _ _, moves, Option.bind_some, shorter, dif_pos, later, enough, if_pos,
        Option.all_none]
      rcases leaves with early | reached
      · rw [early cursor (by simp [moves])]
        cases goOn last <;> rfl
      · obtain ⟨final, found⟩ := Option.ne_none_iff_exists'.mp reached
        rw [found]
        rfl

theorem run_star (determined : Determined body next) (exhausts : Exhausts next cursor last)
    (leaves : (∀ mid, next mid ≠ none → goOn mid = none) ∨ goOn last ≠ none) :
    (loop body 0 none true).run plainFlags cursor goOn = goOn last := by
  rw [run]
  exact runLoop_exhausts determined exhausts leaves (Nat.le_refl 0)

theorem run_plus (determined : Determined body next) (exhausts : Exhausts next cursor last)
    (reached : goOn last ≠ none) : (loop body 1 none true).run plainFlags cursor goOn =
      if next cursor = none then none else goOn last := by
  rw [run, runLoop]
  cases exhausts with
  | stop ends => simp [determined _ _, ends]
  | step moves shorter rest =>
      have later := runLoop_exhausts determined rest (Or.inr reached) (Nat.le_refl 1)
      simp [determined _ _, moves, shorter, later]

theorem run_optional (determined : Determined body next) :
    (loop body 0 (some 1) true).run plainFlags cursor goOn =
      ((next cursor).bind goOn).or (goOn cursor) := by
  have leaves : ∀ stop, runLoop (run plainFlags body) 0 (some 1) true goOn 1 stop = goOn stop := by
    intro stop
    rw [runLoop]
    simp
  rw [run, runLoop]
  simp [determined _ _, leaves]

theorem Exhausts.length_le (exhausts : Exhausts next cursor last) :
    last.rest.length ≤ cursor.rest.length := by
  induction exhausts with
  | stop => exact Nat.le_refl _
  | step _ shorter _ ih => exact Nat.le_of_lt (Nat.lt_of_le_of_lt ih shorter)

theorem Exhausts.eq_none_iff (exhausts : Exhausts next cursor last) :
    next cursor = none ↔ cursor.rest.length - last.rest.length = 0 := by
  cases exhausts with
  | stop ends => simp [ends]
  | step moves shorter rest =>
      have further := rest.length_le
      simp only [moves, reduceCtorEq, false_iff]
      omega

theorem extent_star {before : Option Char} {text : List Char} (determined : Determined body next)
    (exhausts : Exhausts next ⟨before, text⟩ last) :
    (cat (loop body 0 none true) .empty).extent plainFlags before text =
      some (text.length - last.rest.length) := by
  have run : (cat (loop body 0 none true) .empty).run plainFlags ⟨before, text⟩ some = some last :=
    run_star determined exhausts (Or.inr (Option.some_ne_none last))
  rw [extent, run, Option.map_some]

theorem run_lastPlus (determined : Determined body next) (exhausts : Exhausts next cursor last) :
    (cat (loop body 1 none true) .empty).run plainFlags cursor some =
      if next cursor = none then none else some last :=
  run_plus determined exhausts (Option.some_ne_none last)

theorem extent_plus {before : Option Char} {text : List Char} (determined : Determined body next)
    (exhausts : Exhausts next ⟨before, text⟩ last) :
    (cat (loop body 1 none true) .empty).extent plainFlags before text =
      if text.length - last.rest.length = 0 then none
      else some (text.length - last.rest.length) := by
  rw [extent, run_lastPlus determined exhausts]
  simp only [exhausts.eq_none_iff]
  split <;> rfl

theorem exhausts_run (test : Char → Bool) (before : Option Char) (text : List Char) :
    ∃ after, Exhausts (step test) ⟨before, text⟩ ⟨after, text.dropWhile test⟩ := by
  induction text generalizing before with
  | nil => exact ⟨before, Exhausts.stop rfl⟩
  | cons char rest ih =>
      cases holds : test char with
      | false =>
          rw [List.dropWhile_cons_of_neg (by simp [holds])]
          exact ⟨before, Exhausts.stop (by simp [step, holds])⟩
      | true =>
          obtain ⟨after, exhausts⟩ := ih (some char)
          rw [List.dropWhile_cons_of_pos holds]
          exact ⟨after, Exhausts.step (by simp [step, holds]) (by simp) exhausts⟩

/-! ## Sets of characters -/

def listed (chars : List Char) (complement : Bool) : CharSet :=
  ⟨chars.map fun char => .code char.toNat, complement⟩

theorem code_holds (expected char : Char) :
    (SetItem.code expected.toNat).holds char.toNat = (char == expected) := by
  have code : char = expected ↔ char.toNat = expected.toNat := by rw [Char.toNat_inj]
  rw [Bool.eq_iff_iff, beq_iff_eq, code, Nat.eq_iff_le_and_ge]
  simp [SetItem.code, SetItem.holds, and_comm]

theorem codes_hold (chars : List Char) (char : Char) :
    ((chars.map fun char => SetItem.code char.toNat).any (·.holds char.toNat)) =
      chars.contains char := by
  induction chars with
  | nil => rfl
  | cons expected chars ih => rw [List.map_cons, List.any_cons, code_holds, ih, List.contains_cons]

theorem determined_listed {chars : List Char} {complement : Bool} {test : Char → Bool}
    (same : ∀ char, (chars.contains char != complement) = test char) :
    Determined (.one (listed chars complement)) (step test) := by
  apply Determined.one
  intro char
  rw [← same, ← codes_hold]
  simp only [CharSet.holds, listed, Bool.false_eq_true, if_false, List.any_cons, List.any_nil,
    Bool.or_false]

theorem determined_mark (mark : Char) :
    Determined (.one (listed [mark] false)) (step (· == mark)) :=
  determined_listed fun char => by
    rw [Bool.eq_iff_iff]
    simp

def blankSet : CharSet := listed [' ', '\t'] false

theorem determined_blank : Determined (.one blankSet) (step Token.isBlank) :=
  determined_listed fun char => by
    rw [Bool.eq_iff_iff]
    simp [Token.isBlank]

/-! ## Tokens -/

/-- The token takes what the pattern takes, whatever stands before it. -/
def Spells (pattern : List Char) (extent : List Char → Option Nat) : Prop :=
  ∃ regex, read? pattern = some regex ∧
    ∀ before text, regex.extent plainFlags before text = extent text

theorem length_eq (test : Char → Bool) (text : List Char) :
    text.length = (text.takeWhile test).length + (text.dropWhile test).length := by
  rw [← List.length_append, List.takeWhile_append_dropWhile]

theorem length_sub_dropWhile (test : Char → Bool) (text : List Char) :
    text.length - (text.dropWhile test).length = (text.takeWhile test).length := by
  have whole := length_eq test text
  omega

theorem drop_blankRun (text : List Char) :
    text.drop (Token.blankRun text) = text.dropWhile Token.isBlank := by
  have whole := @List.drop_left _ (text.takeWhile Token.isBlank) (text.dropWhile Token.isBlank)
  rwa [List.takeWhile_append_dropWhile] at whole

/-! ### Blanks and marks -/

def blanks : Regex := .loop (.one blankSet) 0 none true

theorem blanks_spells : Spells "[ \\t]*".toList Token.blanks := by
  refine ⟨.cat blanks .empty, by decide +kernel, ?_⟩
  intro before text
  obtain ⟨after, exhausts⟩ := exhausts_run Token.isBlank before text
  rw [blanks, extent_star determined_blank exhausts, length_sub_dropWhile]
  rfl

theorem gap_spells : Spells "[ \\t]+".toList Token.gap := by
  refine ⟨.cat (.loop (.one blankSet) 1 none true) .empty, by decide +kernel, ?_⟩
  intro before text
  obtain ⟨after, exhausts⟩ := exhausts_run Token.isBlank before text
  rw [extent_plus determined_blank exhausts, length_sub_dropWhile]
  rfl

theorem run_blanks {goOn : Cursor → Option Cursor}
    (leaves : (∀ mid, step Token.isBlank mid ≠ none → goOn mid = none) ∨ ∀ last, goOn last ≠ none)
    (before : Option Char) (text : List Char) : ∃ after,
      blanks.run plainFlags ⟨before, text⟩ goOn = goOn ⟨after, text.dropWhile Token.isBlank⟩ := by
  obtain ⟨after, exhausts⟩ := exhausts_run Token.isBlank before text
  exact ⟨after, run_star determined_blank exhausts (leaves.imp_right fun all => all _)⟩

/-- Wherever it is run, the regular expression takes the given number of characters. -/
def Covers (regex : Regex) (count : List Char → Nat) : Prop :=
  ∀ before text, ∃ last, regex.run plainFlags ⟨before, text⟩ some = some last ∧
    text.length = count text + last.rest.length

theorem covers_empty : Covers .empty fun _ => 0 :=
  fun before text => ⟨⟨before, text⟩, rfl, (Nat.zero_add _).symm⟩

theorem covers_blanks : Covers (.cat blanks .empty) Token.blankRun := by
  intro before text
  obtain ⟨after, left⟩ := run_blanks (Or.inr fun last => Option.some_ne_none last) before text
  exact ⟨_, left, length_eq Token.isBlank text⟩

def marked (mark : Char) (rest : Regex) : Regex := .cat (.one (listed [mark] false)) rest

theorem run_marked_cons (mark first : Char) (regex : Regex) (before : Option Char)
    (rest : List Char) : (marked mark regex).run plainFlags ⟨before, first :: rest⟩ some =
      if first = mark then regex.run plainFlags ⟨some first, rest⟩ some else none := by
  rw [marked, run, determined_mark]
  by_cases same : first = mark
  · simp [step, same]
  · simp [step, same]

theorem run_marked_of_blank {mark : Char} (noBlank : Token.isBlank mark = false) (regex : Regex)
    (mid : Cursor) (blank : step Token.isBlank mid ≠ none) :
    (marked mark regex).run plainFlags mid some = none := by
  obtain ⟨before, _ | ⟨first, rest⟩⟩ := mid
  · rfl
  · rw [run_marked_cons, if_neg]
    rintro rfl
    exact blank (by simp [step, noBlank])

section Marked

variable {mark : Char} {regex : Regex} {count : List Char → Nat}

theorem marked_extent (covers : Covers regex count) (before : Option Char) (first : Char)
    (rest : List Char) : (marked mark regex).extent plainFlags before (first :: rest) =
      if first = mark then some (1 + count rest) else none := by
  obtain ⟨last, taken, whole⟩ := covers (some first) rest
  rw [extent, run_marked_cons, taken]
  split
  · simp only [Option.map_some, List.length_cons, Option.some.injEq]
    omega
  · rfl

/-- The loop leaves behind all blanks, as the mark stands nowhere among them. -/
theorem skipped_extent (noBlank : Token.isBlank mark = false) (covers : Covers regex count)
    (before : Option Char) (text : List Char) :
    (cat blanks (marked mark regex)).extent plainFlags before text =
      match text.drop (Token.blankRun text) with
      | [] => none
      | first :: rest =>
          if first = mark then some (Token.blankRun text + 1 + count rest) else none := by
  obtain ⟨after, left⟩ := run_blanks (Or.inl (run_marked_of_blank noBlank regex)) before text
  have whole := length_eq Token.isBlank text
  rw [extent, run, left, drop_blankRun]
  cases tail : text.dropWhile Token.isBlank with
  | nil => rfl
  | cons first rest =>
      obtain ⟨last, taken, others⟩ := covers (some first) rest
      rw [tail, List.length_cons] at whole
      rw [run_marked_cons, taken]
      by_cases same : first = mark
      · simp only [if_pos same, Option.map_some, Option.some.injEq, Token.blankRun]
        omega
      · simp only [if_neg same, Option.map_none]

theorem opened_extent (mark : Char) (before : Option Char) (text : List Char) :
    (marked mark (.cat blanks .empty)).extent plainFlags before text = Token.opened mark text := by
  cases text with
  | nil => rfl
  | cons first rest => exact marked_extent covers_blanks before first rest

theorem closed_extent (noBlank : Token.isBlank mark = false) (before : Option Char)
    (text : List Char) : (cat blanks (marked mark .empty)).extent plainFlags before text =
      Token.closed mark text :=
  skipped_extent noBlank covers_empty before text

theorem spaced_extent (noBlank : Token.isBlank mark = false) (before : Option Char)
    (text : List Char) :
    (cat blanks (marked mark (.cat blanks .empty))).extent plainFlags before text =
      Token.spaced mark text :=
  skipped_extent noBlank covers_blanks before text

end Marked

theorem opened_spells : Spells "\\([ \\t]*".toList (Token.opened '(') ∧
    Spells ":[ \\t]*".toList (Token.opened ':') :=
  ⟨⟨marked '(' (.cat blanks .empty), by decide +kernel, opened_extent '('⟩,
    marked ':' (.cat blanks .empty), by decide +kernel, opened_extent ':'⟩

theorem closed_spells : Spells "[ \\t]*\\)".toList (Token.closed ')') :=
  ⟨.cat blanks (marked ')' .empty), by decide +kernel, closed_extent (by decide)⟩

theorem spaced_spells : Spells "[ \\t]*\\^[ \\t]*".toList (Token.spaced '^') ∧
    Spells "[ \\t]*\\|[ \\t]*".toList (Token.spaced '|') :=
  ⟨⟨.cat blanks (marked '^' (.cat blanks .empty)), by decide +kernel, spaced_extent (by decide)⟩,
    .cat blanks (marked '|' (.cat blanks .empty)), by decide +kernel, spaced_extent (by decide)⟩

/-! ### Bodies -/

def isBodyChar (delimiter char : Char) : Bool := [delimiter, '\\'].contains char != true

def bodyStep (delimiter : Char) (cursor : Cursor) : Option Cursor :=
  ((step (· == '\\') cursor).bind fun mid => (step (· != '\n') mid).bind some).or
    ((step (isBodyChar delimiter) cursor).bind some)

def bodyPart (delimiter : Char) : Regex :=
  .alt (.cat (.one (listed ['\\'] false)) (.cat .any .empty))
    (.cat (.one (listed [delimiter, '\\'] true)) .empty)

theorem determined_bodyPart (delimiter : Char) :
    Determined (bodyPart delimiter) (bodyStep delimiter) := by
  apply Determined.alt
  · exact (determined_mark '\\').cat (Determined.any.cat Determined.empty)
  · exact (determined_listed fun _ => rfl).cat Determined.empty
  · rintro ⟨before, _ | ⟨char, rest⟩⟩ starts
    · rfl
    · by_cases backslash : char = '\\'
      · simp [step, isBodyChar, backslash]
      · simp [step, backslash] at starts

theorem exhausts_body (delimiter : Char) (before : Option Char) (text : List Char) :
    ∃ last, Exhausts (bodyStep delimiter) ⟨before, text⟩ last ∧
      text.length = Token.bodyRun delimiter text + last.rest.length := by
  fun_induction Token.bodyRun delimiter text generalizing before with
  | case1 => exact ⟨_, Exhausts.stop rfl, rfl⟩
  | case2 rest => exact ⟨_, Exhausts.stop (by simp [bodyStep, step, isBodyChar]), by simp⟩
  | case3 next rest noLineFeed ih =>
      obtain ⟨last, exhausts, whole⟩ := ih (some next)
      refine ⟨last, Exhausts.step (by simp [bodyStep, step, noLineFeed]) ?_ exhausts, ?_⟩
      · simp only [List.length_cons]
        omega
      · simp only [List.length_cons]
        omega
  -- the run ends before the delimiter, and before a backslash with nothing to escape behind it
  | case4 first rest single ends =>
      refine ⟨_, Exhausts.stop ?_, by simp⟩
      by_cases backslash : first = '\\'
      · cases rest with
        | nil => simp [bodyStep, step, isBodyChar, backslash]
        | cons next others => exact (single next others backslash rfl).elim
      · obtain rfl : first = delimiter := ends.resolve_right backslash
        simp [bodyStep, step, isBodyChar, backslash]
  | case5 first rest _ allowed ih =>
      obtain ⟨last, exhausts, whole⟩ := ih (some first)
      rw [not_or] at allowed
      refine ⟨last, Exhausts.step ?_ (by simp) exhausts, ?_⟩
      · simp [bodyStep, step, isBodyChar, allowed]
      · simp only [List.length_cons]
        omega

theorem body_extent (delimiter : Char) (before : Option Char) (text : List Char) :
    (cat (.loop (bodyPart delimiter) 1 none true) .empty).extent plainFlags before text =
      Token.body delimiter text := by
  obtain ⟨last, exhausts, whole⟩ := exhausts_body delimiter before text
  have count : text.length - last.rest.length = Token.bodyRun delimiter text := by omega
  rw [extent_plus (determined_bodyPart delimiter) exhausts, count]
  rfl

theorem body_spells : Spells "(?:\\\\.|[^'\\\\])+".toList (Token.body '\'') ∧
    Spells "(?:\\\\.|[^/\\\\])+".toList (Token.body '/') :=
  ⟨⟨.cat (.loop (bodyPart '\'') 1 none true) .empty, by decide +kernel, body_extent '\''⟩,
    .cat (.loop (bodyPart '/') 1 none true) .empty, by decide +kernel, body_extent '/'⟩

/-! ### Flags and names -/

def flagPart : Regex :=
  .cat (.one (listed ['i'] false))
    (.cat (.ahead (.cat (.one (listed ['i', 'I'] false)) .empty) false) .empty)

def flagStep (cursor : Cursor) : Option Cursor :=
  (step (· == 'i') cursor).bind fun mid =>
    if step (fun char => ['i', 'I'].contains char) mid = none then some mid else none

theorem determined_flagPart : Determined flagPart flagStep := by
  have another : Determined (.cat (.one (listed ['i', 'I'] false)) .empty) fun cursor =>
      (step (fun char => ['i', 'I'].contains char) cursor).bind some :=
    (determined_listed fun char => by simp).cat Determined.empty
  have whole := (determined_mark 'i').cat ((another.ahead false).cat Determined.empty)
  intro cursor goOn
  rw [flagPart, whole]
  simp [flagStep]

theorem flag_spells : Spells "(?:i(?![iI]))?".toList Token.flag := by
  refine ⟨.cat (.loop flagPart 0 (some 1) true) .empty, by decide +kernel, ?_⟩
  intro before text
  have whole : (cat (.loop flagPart 0 (some 1) true) .empty).run plainFlags ⟨before, text⟩ some =
      ((flagStep ⟨before, text⟩).bind some).or (some ⟨before, text⟩) :=
    run_optional determined_flagPart
  rw [extent, whole]
  rcases text with _ | ⟨char, _ | ⟨next, rest⟩⟩
  · rfl
  · by_cases letter : char = 'i'
    · subst letter
      rfl
    · simp [Token.flag, flagStep, step, letter]
  · by_cases letter : char = 'i'
    · by_cases again : next = 'i' ∨ next = 'I'
      · simp [Token.flag, flagStep, step, letter, again]
      · simp [Token.flag, flagStep, step, letter, again]
    · simp [Token.flag, flagStep, step, letter]

def nameStart : CharSet :=
  ⟨[.code '_'.toNat, .range 'a'.toNat 'z'.toNat, .range 'A'.toNat 'Z'.toNat], false⟩

theorem range_holds (low high char : Char) :
    (SetItem.range low.toNat high.toNat).holds char.toNat = (low ≤ char && char ≤ high) := rfl

theorem determined_nameStart : Determined (.one nameStart) (step Token.isNameStart) := by
  apply Determined.one
  intro char
  simp only [CharSet.holds, nameStart, Bool.false_eq_true, if_false, List.any_cons, List.any_nil,
    Bool.or_false, Bool.bne_false, code_holds, range_holds, Token.isNameStart, Bool.or_assoc]

theorem determined_word : Determined (.one ⟨[.word true], false⟩) (step Token.isWord) :=
  Determined.one fun char => by simp [CharSet.holds, SetItem.holds, Token.isWord]

theorem name_spells : Spells "[_a-zA-Z]\\w+".toList Token.name := by
  refine ⟨.cat (.one nameStart) (.cat (.loop (.one ⟨[.word true], false⟩) 1 none true) .empty),
    by decide +kernel, ?_⟩
  intro before text
  rw [extent, run, determined_nameStart]
  rcases text with _ | ⟨first, rest⟩
  · rfl
  by_cases starts : Token.isNameStart first = true
  · obtain ⟨after, exhausts⟩ := exhausts_run Token.isWord (some first) rest
    rcases rest with _ | ⟨second, rest⟩
    · simp [step, starts, run_lastPlus determined_word exhausts, Token.name]
    · have count : rest.length + 1 + 1 - (rest.dropWhile Token.isWord).length =
          2 + (rest.takeWhile Token.isWord).length := by
        have whole := length_eq Token.isWord rest
        omega
      by_cases word : Token.isWord second = true
      · simp [step, starts, word, run_lastPlus determined_word exhausts, Token.name, count]
      · simp [step, starts, word, run_lastPlus determined_word exhausts, Token.name]
  · cases rest <;> simp [step, starts, Token.name]

/-! ### Lines -/

theorem restOfLine_spells : Spells "[^\\r\\n]*".toList Token.restOfLine := by
  have test : ∀ char, (['\r', '\n'].contains char != true) = !Token.isLineEnd char := by
    intro char
    rw [Bool.eq_iff_iff]
    simp [Token.isLineEnd]
  refine ⟨.cat (.loop (.one (listed ['\r', '\n'] true)) 0 none true) .empty, by decide +kernel, ?_⟩
  intro before text
  obtain ⟨after, exhausts⟩ := exhausts_run (fun char => !Token.isLineEnd char) before text
  rw [extent_star (determined_listed test) exhausts, length_sub_dropWhile]
  rfl

theorem lineEnd_spells : Spells "\\r\\n|\\r|\\n|\\Z".toList Token.lineEnd := by
  refine ⟨.alt (marked '\r' (marked '\n' .empty)) (.alt (marked '\r' .empty)
    (.alt (marked '\n' .empty) (.cat .atEnd .empty))), by decide +kernel, ?_⟩
  intro before text
  rcases text with _ | ⟨first, _ | ⟨second, rest⟩⟩
  · rfl
  · by_cases carriage : first = '\r'
    · subst carriage
      rfl
    · by_cases feed : first = '\n'
      · subst feed
        rfl
      · simp [extent, run, run_marked_cons, runHere, Token.lineEnd, carriage, feed]
  · have pair : rest.length + 1 + 1 - rest.length = 2 := by omega
    by_cases carriage : first = '\r'
    · by_cases feed : second = '\n'
      · simp [extent, run, run_marked_cons, Token.lineEnd, carriage, feed, pair]
      · simp [extent, run, run_marked_cons, Token.lineEnd, carriage, feed]
    · by_cases feed : first = '\n'
      · simp [extent, run, run_marked_cons, Token.lineEnd, feed]
      · simp [extent, run, run_marked_cons, runHere, Token.lineEnd, carriage, feed]

/-! ## All tokens -/

def tokenPatterns : List (String × (List Char → Option Nat)) :=
  [("(?:\\\\.|[^'\\\\])+", Token.body '\''),
    ("(?:\\\\.|[^/\\\\])+", Token.body '/'),
    ("(?:i(?![iI]))?", Token.flag),
    ("[_a-zA-Z]\\w+", Token.name),
    ("\\([ \\t]*", Token.opened '('),
    ("[ \\t]*\\)", Token.closed ')'),
    ("[ \\t]*\\^[ \\t]*", Token.spaced '^'),
    ("[ \\t]+", Token.gap),
    ("[ \\t]*\\|[ \\t]*", Token.spaced '|'),
    (":[ \\t]*", Token.opened ':'),
    ("[ \\t]*", Token.blanks),
    ("[^\\r\\n]*", Token.restOfLine),
    ("\\r\\n|\\r|\\n|\\Z", Token.lineEnd)]

theorem tokenPatterns_spell : ∀ entry ∈ tokenPatterns, Spells entry.1.toList entry.2 := by
  simp only [tokenPatterns, List.forall_mem_cons]
  exact ⟨body_spells.1, body_spells.2, flag_spells, name_spells, opened_spells.1, closed_spells,
    spaced_spells.1, gap_spells, spaced_spells.2, opened_spells.2, blanks_spells,
    restOfLine_spells, lineEnd_spells, by simp⟩

/-- A token and its pattern are the same matcher at every position of every text. -/
theorem build?_tokenPattern : ∀ entry ∈ tokenPatterns,
    Plan.build? (.pattern entry.1.toList plainFlags) =
      some (Matcher.map .text (Matcher.token entry.2)) := by
  intro entry member
  obtain ⟨regex, readable, same⟩ := tokenPatterns_spell entry member
  have token : Matcher.ofRegex regex plainFlags = Matcher.token entry.2 := by
    rw [Matcher.ofRegex, Matcher.token]
    exact congrArg Matcher.anchored (funext fun before => funext (same before))
  rw [Plan.build?, readable, Option.map_some, token]

end Rulebook.Regex
