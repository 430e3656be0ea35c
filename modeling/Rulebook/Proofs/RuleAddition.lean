import Rulebook.Proofs.TableReading

/-!
Adding a rule. A rule can be read on its own and added to a table, or it can be written on a line
behind the text of the table. Both give the same table or the same complaint: the blanks and the
comment around a rule do not change where it ends, so it is the same rule on a line as alone.
-/

namespace Rulebook.Grammar

variable {source line before after tail : List Char} {rule : Rule}

/-! ## A rule on a line and a rule alone -/

theorem longest_of_read (read : Rule.read source = .ok rule) (blank : Blank after)
    (remark : Remark tail) : ∃ blanks, Blank blanks ∧
      Longest (source ++ (after ++ tail)) (blanks ++ tail) rule := by
  obtain ⟨blanks, tree, blankEnd, defined, same⟩ := written_iff.mp (read_eq_ok_iff.mp read)
  obtain ⟨taken, rfl, _, moved⟩ := defined.frame
  have blankAll : Blank (blanks ++ after) := by
    intro char member
    exact (List.mem_append.mp member).elim (blankEnd char) (blank char)
  have longer := moved (blanks ++ after ++ tail) fun _ => remark.afterFlag blankAll
  refine ⟨blanks ++ after, blankAll, ⟨⟨tree, by simpa using longer, ?_⟩, ?_⟩⟩
  · obtain ⟨_, _, _, _, _, derived⟩ := defined
    rw [derived.proper.normalize_eq, same]
  · intro other name tree' another
    -- nothing behind the rule could be part of it
    have another' : Defines (taken ++ (blanks ++ after ++ tail)) other name tree' := by
      simpa using another
    obtain ⟨_, inner, _, first, second⟩ := longer.same_front another'
    obtain rfl | less := first.longest (remark.not_continues blankAll) second
    · exact Nat.le_refl _
    · exact Nat.le_of_lt less

theorem accepts_of_read (blankBefore : Blank before) (read : Rule.read source = .ok rule)
    (blankAfter : Blank after) (remark : Remark tail) :
    Accepts (before ++ source ++ after ++ tail) (some rule) := by
  obtain ⟨blanks, blank, longest⟩ := longest_of_read read blankAfter remark
  exact Accepts.rule (by simp) blankBefore longest blank remark

theorem read_of_longest {taken : List Char} (longest : Longest (taken ++ (after ++ tail))
    (after ++ tail) rule) (blank : Blank after) : Rule.read (taken ++ after) = .ok rule := by
  obtain ⟨tree, defined, normal⟩ := longest.defined
  obtain ⟨front, same, _, moved⟩ := defined.frame
  cases List.append_cancel_right same
  have cut := moved after fun _ => blank_afterFlag blank
  obtain ⟨_, _, _, _, _, derived⟩ := defined
  rw [derived.proper.normalize_eq] at normal
  rw [read_of_defines cut blank, Except.ok.inj normal]

theorem accepts_rule_iff : Accepts line (some rule) ↔ ∃ before source tail,
    line = before ++ source ++ tail ∧ Blank before ∧ Remark tail ∧ Rule.read source = .ok rule := by
  constructor
  · intro accepts
    cases accepts with
    | @rule before text after tail _ same blank longest blankAfter remark =>
        obtain ⟨taken, rfl⟩ := longest.suffix
        exact ⟨before, taken ++ after, tail, by simp [same], blank, remark,
          read_of_longest longest blankAfter⟩
  · rintro ⟨before, source, tail, rfl, blank, remark, read⟩
    have accepts := accepts_of_read blank read (by simp [Blank] : Blank []) remark
    rwa [List.append_nil] at accepts

/-! ## A text and a line behind it -/

variable {text rest : List Char} {lines others : List (List Char)}

/-- Behind a line feed, a text keeps its lines. So does the text before it, but for the empty line
at its end if its last character is a carriage return, which makes one end of a line with the line
feed. -/
theorem Lines.join (cut : Lines text lines) (behind : Lines rest others) :
    ∃ front, Lines (text ++ '\n' :: rest) (front ++ others) ∧
      (lines = front ∨ lines = front ++ [[]]) := by
  induction cut with
  | @last line unbroken =>
      exact ⟨[line], Lines.ended unbroken LineEnd.lineFeed (by simp) behind, Or.inl rfl⟩
  | @ended line mark text lines unbroken ends filled cut ih =>
      by_cases merges : mark = ['\r'] ∧ text = []
      · obtain ⟨rfl, rfl⟩ := merges
        -- the carriage return and the line feed become one mark, without the empty line between them
        have single : lines = [[]] := cut.eq_split
        refine ⟨[line], ?_, Or.inr (by rw [single]; rfl)⟩
        simpa using Lines.ended unbroken LineEnd.pair (by simp) behind
      · have ends' : LineEnd mark (text ++ '\n' :: rest) := by
          cases ends with
          | lineFeed => exact LineEnd.lineFeed
          | pair => exact LineEnd.pair
          | carriageReturn apart =>
              apply LineEnd.carriageReturn
              cases text with
              | nil => exact absurd ⟨rfl, rfl⟩ merges
              | cons char others => exact apart
          | textEnd => contradiction
        obtain ⟨front, whole, same⟩ := ih
        refine ⟨line :: front, ?_, by simpa using same⟩
        simpa using Lines.ended unbroken ends' filled whole

end Rulebook.Grammar

namespace Rulebook.Table

open Grammar

variable {text line : List Char}

theorem readLines_empty_end (number : Nat) (lines : List (List Char)) (table : Table) :
    readLines number (lines ++ [[]]) table = readLines number lines table := by
  rw [readLines_append]
  cases readLines number lines table with
  | error fault => rfl
  | ok table =>
      have empty : Accepts [] none := Accepts.blank (by simp [Blank])
      exact readLines_skip (number + lines.length) empty [] table

theorem read_with_line (text : List Char) (unbroken : Unbroken line) :
    ∃ number, Table.read (text ++ '\n' :: line) =
      (Table.read text).bind (readLines number [line]) := by
  obtain ⟨lines, cut⟩ := Lines.exists text
  obtain ⟨front, whole, same⟩ := cut.join (Lines.last unbroken)
  have alone : Table.read text = readLines 1 front (ofRules []) := by
    rw [read_eq_readLines cut]
    obtain rfl | rfl := same
    · rfl
    · exact readLines_empty_end 1 front (ofRules [])
  exact ⟨1 + front.length, by rw [read_eq_readLines whole, readLines_append, alone]⟩

theorem read_with_rule {rule : Rule} {table : Table} (read : Table.read text = .ok table)
    (unbroken : Unbroken line) (accepts : Accepts line (some rule)) :
    Table.read (text ++ '\n' :: line) = table.add rule := by
  obtain ⟨number, whole⟩ := read_with_line text unbroken
  rw [whole, read]
  show readLines number [line] table = table.add rule
  rw [readLines_rule number accepts]
  cases table.add rule <;> rfl

theorem accepts_of_read_line {rule : Rule} {table : Table} (unbroken : Unbroken line)
    (read : Table.read line = .ok table) (single : table.rules = [rule]) :
    Accepts line (some rule) := by
  obtain ⟨rules, ⟨found, kinds, rfl⟩, _, rfl⟩ := (read_eq_ok_iff (Lines.last unbroken)).mp read
  cases kinds with
  | @cons _ first _ others accepts rest =>
      cases rest
      cases first with
      | none => cases single
      | some other =>
          cases single
          exact accepts

/-- Reading a rule and adding it to the table of a text is the same as reading the text with the
rule on a line behind it, whatever blanks and comment are around the rule there; if the name is
known, both say so in the same way. The other way round, a line that is read as one rule is that
rule alone, with blanks before it and perhaps a comment behind it. -/
theorem read_rule_line_eq_add :
    (∀ text table source rule before after tail, Table.read text = .ok table →
      Unbroken source → Rule.read source = .ok rule → Blank before → Blank after →
      Remark tail → Unbroken tail →
      Table.read (text ++ '\n' :: (before ++ source ++ after ++ tail)) = table.add rule) ∧
    (∀ line table rule, Unbroken line → Table.read line = .ok table → table.rules = [rule] →
      ∃ before source tail, line = before ++ source ++ tail ∧ Blank before ∧ Remark tail ∧
        Unbroken source ∧ Unbroken tail ∧ Rule.read source = .ok rule) := by
  constructor
  · intro text table source rule before after tail read unbroken readRule blank blank' remark clear
    have line : Unbroken (before ++ source ++ after ++ tail) := by
      simp only [unbroken_append_iff]
      exact ⟨⟨⟨blank.unbroken, unbroken⟩, blank'.unbroken⟩, clear⟩
    exact read_with_rule read line (accepts_of_read blank readRule blank' remark)
  · intro line table rule unbroken read single
    have accepts := accepts_of_read_line unbroken read single
    obtain ⟨before, source, tail, rfl, blank, remark, readRule⟩ := accepts_rule_iff.mp accepts
    obtain ⟨front, clear⟩ := unbroken_append_iff.mp unbroken
    exact ⟨before, source, tail, rfl, blank, remark, (unbroken_append_iff.mp front).2, clear,
      readRule⟩

/-- The text ends with a carriage return, and the flag of the rule stands right before the hash. -/
theorem flagged_rule_line_added :
    Table.read "xx: 'a'\r".toList = .ok (ofRules [⟨"xx".toList, .text ['a']⟩]) ∧
    Rule.read "yy: xx^/b/i".toList =
      .ok ⟨"yy".toList, .repetition (.reference "xx".toList) (.pattern ['b'] true false)⟩ ∧
    Table.read "xx: 'a'\r\n\tyy: xx^/b/i#i".toList = .ok (ofRules [⟨"xx".toList, .text ['a']⟩,
      ⟨"yy".toList, .repetition (.reference "xx".toList) (.pattern ['b'] true false)⟩]) ∧
    ∃ before source tail, "yy: 'a'  # b".toList = before ++ source ++ tail ∧ Blank before ∧
      Remark tail ∧ Unbroken source ∧ Unbroken tail ∧
      Rule.read source = .ok ⟨"yy".toList, .text ['a']⟩ :=
  ⟨rfl, rfl,
    read_rule_line_eq_add.1 "xx: 'a'\r".toList _ "yy: xx^/b/i".toList _ ['\t'] [] "#i".toList rfl
      (by decide) rfl (by decide) (by decide) (Or.inr ⟨_, rfl⟩) (by decide),
    read_rule_line_eq_add.2 "yy: 'a'  # b".toList (ofRules [⟨"yy".toList, .text ['a']⟩]) _
      (by decide) rfl rfl⟩

end Rulebook.Table
