import Rulebook.Proofs.TableReading

/-!
Ends of lines. Writing a line feed for every pair and then for every carriage return that is left is
the same as one pass over the text, in which a pair is taken where it stands. So the ways in which
the lines of a text end cannot be seen in the table that is read from it, as long as no carriage
return of one line makes a pair with the line feed of the next.
-/

namespace Rulebook.Table

open Grammar

variable {text : List Char}

/-! ## One pass -/

/-- Writes a line feed for each end of a line: a pair of a carriage return and a line feed, or one of
the two alone. -/
def unifyEnds : List Char → List Char
  | [] => []
  | '\r' :: '\n' :: rest => '\n' :: unifyEnds rest
  | '\r' :: rest => '\n' :: unifyEnds rest
  | char :: rest => char :: unifyEnds rest

theorem normalize_eq_unifyEnds (text : List Char) : Line.normalize text = unifyEnds text := by
  fun_induction unifyEnds text with
  | case1 => rfl
  | case2 rest ih =>
      rw [← ih]
      exact normalize_lineEnd LineEnd.pair (by simp)
  | case3 rest noFeed ih =>
      have single : rest.head? ≠ some '\n' := by
        intro first
        obtain ⟨others, rfl⟩ := List.head?_eq_some_iff.mp first
        exact noFeed others rfl
      rw [← ih]
      exact normalize_lineEnd (LineEnd.carriageReturn single) (by simp)
  | case4 char rest noPair noReturn ih =>
      rw [← ih]
      exact normalize_cons noReturn rest

example : unifyEnds ['\r', '\r', '\n', '\n'] = ['\n', '\n', '\n'] := by decide

/-! ## Marks -/

inductive Mark where
  | lineFeed
  | carriageReturn
  | pair
  deriving DecidableEq, Repr

def Mark.chars : Mark → List Char
  | .lineFeed => ['\n']
  | .carriageReturn => ['\r']
  | .pair => ['\r', '\n']

def written (ended : List (List Char × Mark)) : List Char :=
  ended.flatMap fun (line, mark) => line ++ mark.chars

/-- No carriage return that ends a line stands right before a line feed that ends the next one. -/
def Apart (ended : List (List Char × Mark)) : Prop :=
  ended.IsChain fun line next => ¬ (line.2 = .carriageReturn ∧ next = ([], .lineFeed))

variable {ended others : List (List Char × Mark)}

theorem written_cons (line : List Char) (mark : Mark) (ended : List (List Char × Mark)) :
    written ((line, mark) :: ended) = line ++ (mark.chars ++ written ended) := by
  simp [written]

theorem first_of_written (unbroken : ∀ line ∈ ended.map Prod.fst, Unbroken line)
    (feed : (written ended).head? = some '\n') : ∃ others, ended = ([], .lineFeed) :: others := by
  cases ended with
  | nil => cases feed
  | cons first others =>
      obtain ⟨line, mark⟩ := first
      rw [written_cons] at feed
      cases line with
      | nil =>
          cases mark with
          | lineFeed => exact ⟨others, rfl⟩
          | carriageReturn => cases feed
          | pair => cases feed
      | cons char line =>
          cases feed
          have inside := unbroken _ List.mem_cons_self '\n' List.mem_cons_self
          cases inside

theorem lineEnd_of_apart {line : List Char} {mark : Mark}
    (unbroken : ∀ line ∈ ended.map Prod.fst, Unbroken line)
    (apart : Apart ((line, mark) :: ended)) : LineEnd mark.chars (written ended) := by
  cases mark with
  | lineFeed => exact LineEnd.lineFeed
  | pair => exact LineEnd.pair
  | carriageReturn =>
      apply LineEnd.carriageReturn
      intro feed
      obtain ⟨others, rfl⟩ := first_of_written unbroken feed
      exact (List.isChain_cons_cons.mp apart).1 ⟨rfl, rfl⟩

theorem lines_written (unbroken : ∀ line ∈ ended.map Prod.fst, Unbroken line)
    (apart : Apart ended) : Lines (written ended) (ended.map Prod.fst ++ [[]]) := by
  induction ended with
  | nil => exact Lines.last (by simp [Unbroken, written])
  | cons first ended ih =>
      obtain ⟨line, mark⟩ := first
      rw [List.map_cons] at unbroken
      obtain ⟨inLine, later⟩ := List.forall_mem_cons.mp unbroken
      have filled : mark.chars ≠ [] := by cases mark <;> simp [Mark.chars]
      rw [written_cons, List.map_cons, List.cons_append]
      exact Lines.ended inLine (lineEnd_of_apart later apart) filled
        (ih later (List.IsChain.of_cons apart))

theorem read_of_same_lines {text other : List Char} {lines : List (List Char)}
    (cut : Lines text lines) (cut' : Lines other lines) : Table.read text = Table.read other := by
  rw [read_eq_readLines cut, read_eq_readLines cut']

/-- Writing every end of a line as a line feed is one pass over the text, leaves no carriage return,
changes nothing when it is done again, and does not change what is read. So lines may end in any of
the three ways, each in its own, as long as no two marks make one: the same rules are read from them,
or the same fault is found on the same line. -/
theorem read_ignores_line_ends :
    (∀ text, Line.normalize text = unifyEnds text ∧ '\r' ∉ Line.normalize text ∧
      Line.normalize (Line.normalize text) = Line.normalize text ∧
      Table.read (Line.normalize text) = Table.read text) ∧
    ∀ ended others : List (List Char × Mark), ended.map Prod.fst = others.map Prod.fst →
      (∀ line ∈ ended.map Prod.fst, Unbroken line) → Apart ended → Apart others →
      Table.read (written ended) = Table.read (written others) := by
  constructor
  · intro text
    exact ⟨normalize_eq_unifyEnds text, noReturn_normalize text, normalize_normalize text,
      read_normalize text⟩
  · intro ended others same unbroken apart apart'
    have cut := lines_written unbroken apart
    have cut' := lines_written (same ▸ unbroken) apart'
    rw [← same] at cut'
    exact read_of_same_lines cut cut'

/-- An empty line stands between two rules, and no line of the one text ends as in the other. -/
theorem mixed_ends_read_alike :
    Table.read "xx: 'a'\r\r\nyy: xx\n".toList = Table.read "xx: 'a'\n\ryy: xx\r\n".toList ∧
    Table.read "xx: 'a'\n\ryy: xx\r\n".toList =
      .ok (ofRules [⟨"xx".toList, .text ['a']⟩, ⟨"yy".toList, .reference "xx".toList⟩]) := by
  refine ⟨read_ignores_line_ends.2
    [("xx: 'a'".toList, .carriageReturn), ([], .pair), ("yy: xx".toList, .lineFeed)]
    [("xx: 'a'".toList, .lineFeed), ([], .carriageReturn), ("yy: xx".toList, .pair)]
    rfl (by decide) ?_ ?_, rfl⟩
  · simp [Apart]
  · simp [Apart]

end Rulebook.Table
