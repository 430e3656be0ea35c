import Rulebook.Proofs.TokenExtent
import Rulebook.Text.Line

/-!
The lines of a text, which is cut at every end of a line. The cut is a relation first, with nothing
in it of how lines are found; then the lines that are found, once every end of a line is a line
feed, are shown to be these and the only ones.
-/

namespace Rulebook.Grammar

/-! ## Cutting a text into lines -/

/-- The parts of the text between the ends of lines. -/
inductive Lines : List Char → List (List Char) → Prop where
  | last {line} : Unbroken line → Lines line [line]
  | ended {line mark rest lines} : Unbroken line → LineEnd mark rest → mark ≠ [] →
      Lines rest lines → Lines (line ++ (mark ++ rest)) (line :: lines)

variable {line mark rest text : List Char} {lines : List (List Char)}

theorem Lines.unbroken (cut : Lines text lines) : ∀ line ∈ lines, Unbroken line := by
  induction cut with
  | last unbroken => simpa using unbroken
  | ended unbroken _ _ _ ih => simpa using ⟨unbroken, ih⟩

theorem unbroken_cons_iff {char : Char} :
    Unbroken (char :: line) ↔ Token.isLineEnd char = false ∧ Unbroken line := by
  simp [Unbroken]

theorem unbroken_append_iff {front back : List Char} :
    Unbroken (front ++ back) ↔ Unbroken front ∧ Unbroken back := by
  simp [Unbroken, or_imp, forall_and]

theorem Blank.unbroken (blank : Blank text) : Unbroken text := by
  intro char member
  obtain rfl | rfl := blank_cases (blank char member) <;> decide

theorem Lines.cons {char : Char} (cut : Lines text lines)
    (inside : Token.isLineEnd char = false) : ∃ longer, Lines (char :: text) longer := by
  cases cut with
  | last unbroken => exact ⟨_, Lines.last (unbroken_cons_iff.mpr ⟨inside, unbroken⟩)⟩
  | ended unbroken ends filled rest =>
      exact ⟨_, Lines.ended (unbroken_cons_iff.mpr ⟨inside, unbroken⟩) ends filled rest⟩

theorem Lines.exists (text : List Char) : ∃ lines, Lines text lines := by
  have empty : Unbroken [] := by simp [Unbroken]
  have ended : ∀ {mark rest lines}, LineEnd mark rest → mark ≠ [] → Lines rest lines →
      Lines (mark ++ rest) ([] :: lines) :=
    fun ends filled cut => Lines.ended empty ends filled cut
  fun_induction Line.joinPairs text with
  | case1 => exact ⟨_, Lines.last empty⟩
  | case2 rest ih =>
      obtain ⟨lines, cut⟩ := ih
      exact ⟨_, ended LineEnd.pair (by simp) cut⟩
  | case3 char rest noPair ih =>
      obtain ⟨lines, cut⟩ := ih
      by_cases feed : char = '\n'
      · subst feed
        exact ⟨_, ended LineEnd.lineFeed (by simp) cut⟩
      by_cases back : char = '\r'
      · subst back
        -- alone it ends a line only because no line feed follows, which would have been the pair
        refine ⟨_, ended (LineEnd.carriageReturn ?_) (by simp) cut⟩
        intro first
        cases rest with
        | nil => simp at first
        | cons next others =>
            cases first
            exact noPair others rfl rfl
      · have inside : Token.isLineEnd char = false := by simp [Token.isLineEnd, feed, back]
        exact cut.cons inside

/-! ## Lines as they are found -/

theorem isLineEnd_eq_false_iff {char : Char} :
    Token.isLineEnd char = false ↔ char ≠ '\r' ∧ char ≠ '\n' := by
  simp [Token.isLineEnd]

theorem normalize_cons {char : Char} (noReturn : char ≠ '\r') (rest : List Char) :
    Line.normalize (char :: rest) = char :: Line.normalize rest := by
  have joined := Line.joinPairs.eq_3 char rest fun _ same _ => noReturn same
  simp only [Line.normalize, joined, List.map_cons, if_neg noReturn]

theorem normalize_append (unbroken : Unbroken line) (rest : List Char) :
    Line.normalize (line ++ rest) = line ++ Line.normalize rest := by
  induction line with
  | nil => rfl
  | cons char line ih =>
      obtain ⟨inside, others⟩ := unbroken_cons_iff.mp unbroken
      have noReturn := (isLineEnd_eq_false_iff.mp inside).1
      rw [List.cons_append, normalize_cons noReturn, ih others, List.cons_append]

theorem normalize_lineEnd (ends : LineEnd mark rest) (filled : mark ≠ []) :
    Line.normalize (mark ++ rest) = '\n' :: Line.normalize rest := by
  cases ends with
  | lineFeed => exact normalize_cons (by decide) rest
  | pair => rfl
  | carriageReturn single =>
      have joined : Line.joinPairs ('\r' :: rest) = '\r' :: Line.joinPairs rest := by
        apply Line.joinPairs.eq_3
        rintro others _ rfl
        exact single rfl
      simp [Line.normalize, joined]
  | textEnd => contradiction

theorem noReturn_normalize (text : List Char) : '\r' ∉ Line.normalize text := by
  intro member
  obtain ⟨char, _, same⟩ := List.mem_map.mp member
  by_cases back : char = '\r'
  · simp [back] at same
  · exact back ((if_neg back).symm.trans same)

theorem normalize_of_noReturn (noReturn : '\r' ∉ text) : Line.normalize text = text := by
  induction text with
  | nil => rfl
  | cons char rest ih =>
      obtain ⟨first, others⟩ := List.ne_and_not_mem_of_not_mem_cons noReturn
      rw [normalize_cons first.symm, ih others]

theorem normalize_normalize (text : List Char) :
    Line.normalize (Line.normalize text) = Line.normalize text :=
  normalize_of_noReturn (noReturn_normalize text)

theorem split_append (unbroken : Unbroken line) (rest : List Char) :
    Line.split (line ++ '\n' :: rest) = line :: Line.split rest := by
  induction line with
  | nil => simp [Line.split]
  | cons char line ih =>
      obtain ⟨inside, others⟩ := unbroken_cons_iff.mp unbroken
      have noFeed := (isLineEnd_eq_false_iff.mp inside).2
      simp only [List.cons_append, Line.split, if_neg noFeed, ih others]

theorem split_unbroken (unbroken : Unbroken line) : Line.split line = [line] := by
  induction line with
  | nil => rfl
  | cons char line ih =>
      obtain ⟨inside, others⟩ := unbroken_cons_iff.mp unbroken
      have noFeed := (isLineEnd_eq_false_iff.mp inside).2
      simp only [Line.split, if_neg noFeed, ih others]

theorem Lines.eq_split (cut : Lines text lines) : lines = Line.split (Line.normalize text) := by
  induction cut with
  | @last line unbroken =>
      have whole : Line.normalize line = line := by
        simpa [Line.normalize, Line.joinPairs] using normalize_append unbroken []
      rw [whole, split_unbroken unbroken]
  | ended unbroken ends filled _ ih =>
      rw [normalize_append unbroken, normalize_lineEnd ends filled, split_append unbroken, ← ih]

/-- A text is cut into lines in one way, and these are the lines that are read. -/
theorem lines_iff : Lines text lines ↔ lines = Line.split (Line.normalize text) := by
  constructor
  · exact Lines.eq_split
  · rintro rfl
    obtain ⟨lines, cut⟩ := Lines.exists text
    rwa [← cut.eq_split]

end Rulebook.Grammar
