import Rulebook.Proofs.LineReading

/-!
Where a comment ends. A comment goes to the end of its line and takes the mark there, a pair as one
mark. Writing every end of a line as a line feed cuts no mark in two either, so a comment may be
skipped before the text is written in this way or after it.
-/

namespace Rulebook.Grammar

variable {source text taken rest mark : List Char}

/-- What is taken is a comment in front of the rest: a hash, the rest of its line, and the mark that
ends the line, or no mark at the end of the text. -/
def IsComment (taken rest : List Char) : Prop :=
  ∃ body mark, taken = '#' :: (body ++ mark) ∧ Unbroken body ∧ LineEnd mark rest

/-! ## Skipping a comment -/

theorem isComment_of_hash (text : List Char) :
    ∃ taken rest, '#' :: text = taken ++ rest ∧ IsComment taken rest := by
  obtain ⟨body, mark, rest, rfl, unbroken, ends⟩ := first_line text
  exact ⟨'#' :: (body ++ mark), rest, by simp, body, mark, rfl, unbroken, ends⟩

theorem hash_of_isComment (comment : IsComment taken rest) (text : List Char) :
    (taken ++ text).head? = some '#' := by
  obtain ⟨body, mark, rfl, _, _⟩ := comment
  rfl

theorem comment_eq_some_iff {pos : Nat} {stop : Int} (inside : pos ≤ source.length) :
    Reader.comment source pos = some ((), stop) ↔ ∃ taken rest,
      source.drop pos = taken ++ rest ∧ IsComment taken rest ∧ stop = pos + taken.length := by
  have ending := List.drop_suffix pos source
  have skipped : ∀ {taken rest}, source.drop pos = taken ++ rest →
      posOf source rest = pos + taken.length := by
    intro taken rest cut
    have before := posOf_append (cut ▸ ending)
    rw [← cut, posOf_drop inside] at before
    exact before.symm
  rw [← posOf_drop inside, comment_eq_some ending, posOf_drop inside]
  constructor
  · rintro ⟨body, mark, rest, cut, unbroken, ends, rfl⟩
    have cut' : source.drop pos = ('#' :: (body ++ mark)) ++ rest := by simpa using cut
    exact ⟨_, rest, cut', ⟨body, mark, rfl, unbroken, ends⟩, skipped cut'⟩
  · rintro ⟨_, rest, cut, ⟨body, mark, rfl, unbroken, ends⟩, rfl⟩
    exact ⟨body, mark, rest, by simpa using cut, unbroken, ends, (skipped cut).symm⟩

theorem comment_isSome_iff {pos : Nat} (inside : pos ≤ source.length) :
    (∃ stop, Reader.comment source pos = some ((), stop)) ↔ source[pos]? = some '#' := by
  rw [← List.head?_drop]
  constructor
  · rintro ⟨stop, skipped⟩
    obtain ⟨taken, rest, cut, comment, _⟩ := (comment_eq_some_iff inside).mp skipped
    rw [cut]
    exact hash_of_isComment comment rest
  · intro hash
    obtain ⟨text, cut⟩ := List.head?_eq_some_iff.mp hash
    obtain ⟨taken, rest, same, comment⟩ := isComment_of_hash text
    exact ⟨_, (comment_eq_some_iff inside).mpr ⟨taken, rest, cut.trans same, comment, rfl⟩⟩

theorem comment_front (comment : IsComment taken rest) :
    Reader.comment (taken ++ rest) 0 = some ((), (taken.length : Int)) := by
  exact (comment_eq_some_iff (Nat.zero_le _)).mpr ⟨taken, rest, rfl, comment, by simp⟩

/-! ## Ends of lines as line feeds -/

/-- No mark is made of the end of a line and what is behind it. -/
theorem normalize_mark (ends : LineEnd mark rest) :
    Line.normalize (mark ++ rest) = Line.normalize mark ++ Line.normalize rest := by
  cases ends with
  | lineFeed => exact normalize_cons (by decide) rest
  | pair => rfl
  | carriageReturn single => exact normalize_lineEnd (LineEnd.carriageReturn single) (by simp)
  | textEnd => rfl

theorem lineEnd_normalize (ends : LineEnd mark rest) :
    LineEnd (Line.normalize mark) (Line.normalize rest) := by
  cases ends with
  | lineFeed | pair | carriageReturn => exact LineEnd.lineFeed
  | textEnd => exact LineEnd.textEnd

theorem isComment_normalize (comment : IsComment taken rest) :
    Line.normalize (taken ++ rest) = Line.normalize taken ++ Line.normalize rest ∧
      IsComment (Line.normalize taken) (Line.normalize rest) := by
  obtain ⟨body, mark, rfl, unbroken, ends⟩ := comment
  have line : Unbroken ('#' :: body) := unbroken_cons_iff.mpr ⟨by decide, unbroken⟩
  have alone : Line.normalize ('#' :: (body ++ mark)) = '#' :: (body ++ Line.normalize mark) :=
    normalize_append line mark
  have followed : Line.normalize ('#' :: (body ++ mark) ++ rest) =
      '#' :: (body ++ (Line.normalize mark ++ Line.normalize rest)) := by
    have whole := normalize_append line (mark ++ rest)
    rw [normalize_mark ends] at whole
    simpa using whole
  rw [alone]
  exact ⟨by simpa using followed, body, Line.normalize mark, rfl, unbroken, lineEnd_normalize ends⟩

/-- A comment is skipped exactly where a hash stands, up to the start of the next line, or to the end
of the text if its line is the last one. Of a text that starts with a comment, the comment and what
is behind it are written with line feeds each on its own: skipping before or after that makes no
difference. -/
theorem comment_ends_its_line :
    (∀ (source : List Char) (pos : Nat), pos ≤ source.length →
      ((∃ stop, Reader.comment source pos = some ((), stop)) ↔ source[pos]? = some '#') ∧
      ∀ stop, Reader.comment source pos = some ((), stop) ↔ ∃ taken rest,
        source.drop pos = taken ++ rest ∧ IsComment taken rest ∧ stop = pos + taken.length) ∧
    ∀ source : List Char, source.head? = some '#' → ∃ stop stop' : Nat,
      Reader.comment source 0 = some ((), (stop : Int)) ∧
      Reader.comment (Line.normalize source) 0 = some ((), (stop' : Int)) ∧
      Line.normalize (source.take stop) = (Line.normalize source).take stop' ∧
      Line.normalize (source.drop stop) = (Line.normalize source).drop stop' := by
  constructor
  · intro source pos inside
    exact ⟨comment_isSome_iff inside, fun stop => comment_eq_some_iff inside⟩
  · intro source hash
    obtain ⟨text, rfl⟩ := List.head?_eq_some_iff.mp hash
    obtain ⟨taken, rest, cut, comment⟩ := isComment_of_hash text
    obtain ⟨apart, comment'⟩ := isComment_normalize comment
    rw [cut]
    refine ⟨taken.length, (Line.normalize taken).length, comment_front comment, ?_, ?_, ?_⟩
    · rw [apart]
      exact comment_front comment'
    · rw [apart, List.take_left, List.take_left]
    · rw [apart, List.drop_left, List.drop_left]

/-- A comment behind another character, and one at the front of a text with a pair behind it. -/
theorem comment_takes_pair :
    (∃ stop, Reader.comment "x#a\r".toList (1 : Nat) = some ((), stop)) ∧
    ∃ stop stop' : Nat, Reader.comment "#a\r\n\rb".toList 0 = some ((), (stop : Int)) ∧
      Reader.comment "#a\n\nb".toList 0 = some ((), (stop' : Int)) ∧
      Line.normalize ("#a\r\n\rb".toList.drop stop) = "#a\n\nb".toList.drop stop' := by
  obtain ⟨stop, stop', skipped, skipped', _, behind⟩ :=
    comment_ends_its_line.2 "#a\r\n\rb".toList rfl
  exact ⟨(comment_ends_its_line.1 "x#a\r".toList 1 (by decide)).1.mpr rfl, stop, stop', skipped,
    skipped', behind⟩

example : Reader.comment ['#', 'a', '\r', '\n', '\r', 'b'] 0 = some ((), 4) := by decide

end Rulebook.Grammar
