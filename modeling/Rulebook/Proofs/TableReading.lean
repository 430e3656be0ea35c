import Mathlib.Data.List.Forall2
import Mathlib.Data.List.Induction
import Mathlib.Data.List.Nodup
import Mathlib.Data.List.ReduceOption
import Rulebook.Proofs.LineReading

/-!
Reading a table. The lines are read one after the other, and each rule is added to those of the
lines before. A table is read exactly if every line is of some kind and no two rules have the same
name; otherwise the first line at which this fails is the one that is reported.
-/

namespace Rulebook.Table

open Grammar

variable {rules more : List Rule} {lines : List (List Char)} {line : List Char}
  {number : Nat} {fault : Fault}

/-! ## Tables as lists of rules -/

def ofRules (rules : List Rule) : Table := ⟨rules, rules.head?.map (·.name)⟩

theorem names_ofRules (rules : List Rule) : (ofRules rules).names = rules.map (·.name) := rfl

theorem defines_iff {table : Table} {name : List Char} :
    table.defines name = true ↔ name ∈ table.names := by
  simp [defines, find?, names]

theorem defines_eq_false_iff {table : Table} {name : List Char} :
    table.defines name = false ↔ name ∉ table.names := by
  rw [← Bool.not_eq_true, defines_iff]

theorem add_ofRules_of_mem {rule : Rule} (known : rule.name ∈ (ofRules rules).names) :
    (ofRules rules).add rule = .error (.duplicateRule rule.name) := by
  rw [add, enter_of_defines (defines_iff.mpr known)]

theorem add_ofRules {rule : Rule} (new : rule.name ∉ (ofRules rules).names) :
    (ofRules rules).add rule = .ok (ofRules (rules ++ [rule])) := by
  rw [add, enter_of_new (defines_eq_false_iff.mpr new)]
  cases rules <;> rfl

theorem distinct_snoc {rule : Rule} (distinct : (ofRules rules).names.Nodup)
    (new : rule.name ∉ (ofRules rules).names) : (ofRules (rules ++ [rule])).names.Nodup := by
  rw [names_ofRules, List.map_append, List.map_singleton, ← List.concat_eq_append]
  exact distinct.concat new

/-! ## Kinds of all lines -/

/-- Every line is of some kind, and these are the rules of the lines. -/
def Holds (lines : List (List Char)) (rules : List Rule) : Prop :=
  ∃ found, List.Forall₂ Accepts lines found ∧ rules = found.reduceOption

theorem Holds.nil : Holds [] [] := ⟨[], List.Forall₂.nil, rfl⟩

theorem Holds.snoc {found : Option Rule} (holds : Holds lines rules)
    (accepts : Accepts line found) : Holds (lines ++ [line]) (rules ++ found.toList) := by
  obtain ⟨others, kinds, rfl⟩ := holds
  refine ⟨others ++ [found], List.rel_append kinds (by simpa using accepts), ?_⟩
  cases found <;> simp [List.reduceOption_append]

theorem Holds.accepts (holds : Holds lines rules) :
    ∀ rule ∈ rules, ∃ line ∈ lines, Accepts line (some rule) := by
  obtain ⟨found, kinds, rfl⟩ := holds
  intro rule member
  have listed := List.reduceOption_mem_iff.mp member
  induction kinds with
  | nil => contradiction
  | @cons line first lines others accepts _ ih =>
      rcases List.mem_cons.mp listed with rfl | later
      · exact ⟨line, List.mem_cons_self, accepts⟩
      · obtain ⟨line', inside, accepts'⟩ := ih (List.reduceOption_mem_iff.mpr later) later
        exact ⟨line', List.mem_cons_of_mem line inside, accepts'⟩

/-- What ends the reading at a line: it is of no kind, or it names one of the rules before it. -/
inductive Stops (number : Nat) (rules : List Rule) (line : List Char) : Fault → Prop where
  | rejected {other : Fault} : Rejects number line other → Stops number rules line other
  | duplicate {rule} : Accepts line (some rule) → rule.name ∈ (ofRules rules).names →
      Stops number rules line (.duplicateRule rule.name)

theorem stops_iff : (∃ fault, Stops number rules line fault) ↔
    (∀ found, ¬ Accepts line found) ∨
    ∃ rule, Accepts line (some rule) ∧ rule.name ∈ (ofRules rules).names := by
  constructor
  · rintro ⟨fault, stops⟩
    cases stops with
    | rejected rejects =>
        apply Or.inl
        intro found accepts
        cases (readLine_eq_error_iff.mpr rejects).symm.trans (readLine_eq_ok_iff.mpr accepts)
    | duplicate accepts known => exact Or.inr ⟨_, accepts, known⟩
  · rintro (none | ⟨rule, accepts, known⟩)
    · cases read : readLine number line with
      | ok found => exact absurd (readLine_eq_ok_iff.mp read) (none found)
      | error fault => exact ⟨fault, Stops.rejected (readLine_eq_error_iff.mp read)⟩
    · exact ⟨_, Stops.duplicate accepts known⟩

theorem Holds.next (holds : Holds lines rules) (distinct : (ofRules rules).names.Nodup)
    (line : List Char) :
    (∃ longer, Holds (lines ++ [line]) longer ∧ (ofRules longer).names.Nodup) ∨
    ∃ fault, Stops (lines.length + 1) rules line fault := by
  cases read : readLine (lines.length + 1) line with
  | error fault => exact Or.inr ⟨fault, Stops.rejected (readLine_eq_error_iff.mp read)⟩
  | ok found =>
      have accepts := readLine_eq_ok_iff.mp read
      cases found with
      | none => exact Or.inl ⟨_, holds.snoc accepts, by simpa using distinct⟩
      | some rule =>
          by_cases known : rule.name ∈ (ofRules rules).names
          · exact Or.inr ⟨_, Stops.duplicate accepts known⟩
          · exact Or.inl ⟨rules ++ [rule], holds.snoc accepts, distinct_snoc distinct known⟩

theorem holds_or_stops (lines : List (List Char)) :
    (∃ rules, Holds lines rules ∧ (ofRules rules).names.Nodup) ∨
    ∃ front line back rules fault, lines = front ++ line :: back ∧ Holds front rules ∧
      (ofRules rules).names.Nodup ∧ Stops (front.length + 1) rules line fault := by
  induction lines using List.reverseRecOn with
  | nil => exact Or.inl ⟨[], Holds.nil, List.nodup_nil⟩
  | append_singleton lines line ih =>
      obtain ⟨rules, holds, distinct⟩ | ⟨front, first, back, rules, fault, rfl, stops⟩ := ih
      · obtain longer | ⟨fault, stops⟩ := holds.next distinct line
        · exact Or.inl longer
        · exact Or.inr ⟨lines, line, [], rules, fault, rfl, holds, distinct, stops⟩
      · exact Or.inr ⟨front, first, back ++ [line], rules, fault, by simp, stops⟩

/-! ## Reading line after line -/

theorem readLines_append (number : Nat) (front back : List (List Char)) (table : Table) :
    readLines number (front ++ back) table =
      (readLines number front table).bind (readLines (number + front.length) back) := by
  induction front generalizing number table with
  | nil => rfl
  | cons line front ih =>
      have shift : number + (front.length + 1) = number + 1 + front.length := by omega
      rw [List.cons_append, List.length_cons, shift]
      simp only [readLines]
      cases readLine number line with
      | error fault => rfl
      | ok found =>
          cases found with
          | none => exact ih (number + 1) table
          | some rule =>
              simp only
              cases table.add rule with
              | error fault => rfl
              | ok table => exact ih (number + 1) table

theorem readLines_skip (number : Nat) (accepts : Accepts line none) (others : List (List Char))
    (table : Table) :
    readLines number (line :: others) table = readLines (number + 1) others table := by
  simp only [readLines, readLine_eq_ok_iff.mpr accepts]

theorem readLines_rule {rule : Rule} (number : Nat) (accepts : Accepts line (some rule))
    (others : List (List Char)) (table : Table) : readLines number (line :: others) table =
      (table.add rule).bind (readLines (number + 1) others) := by
  simp only [readLines, readLine_eq_ok_iff.mpr accepts]
  cases table.add rule <;> rfl

theorem readLines_of_holds (holds : Holds lines more)
    (distinct : (ofRules (rules ++ more)).names.Nodup) :
    readLines number lines (ofRules rules) = .ok (ofRules (rules ++ more)) := by
  obtain ⟨found, kinds, rfl⟩ := holds
  induction kinds generalizing number rules with
  | nil => simp [readLines]
  | @cons line found lines others accepts _ ih =>
      cases found with
      | none =>
          rw [readLines_skip number accepts]
          exact ih distinct
      | some rule =>
          have new : rule.name ∉ (ofRules rules).names := by
            intro known
            simp only [names_ofRules, List.reduceOption_cons_of_some, List.map_append,
              List.map_cons] at known distinct
            exact (List.nodup_append.mp distinct).2.2 _ known _ List.mem_cons_self rfl
          rw [readLines_rule number accepts, add_ofRules new]
          have moved : rules ++ (some rule :: others).reduceOption =
              rules ++ [rule] ++ others.reduceOption := by simp
          rw [moved] at distinct ⊢
          exact ih distinct

theorem readLines_of_stops (stops : Stops number rules line fault) (back : List (List Char)) :
    readLines number (line :: back) (ofRules rules) = .error fault := by
  cases stops with
  | rejected rejects => simp only [readLines, readLine_eq_error_iff.mpr rejects]
  | duplicate accepts known =>
      rw [readLines_rule number accepts, add_ofRules_of_mem known]
      rfl

/-! ## Reading a text -/

variable {text : List Char}

theorem read_eq_readLines (cut : Lines text lines) :
    Table.read text = readLines 1 lines (ofRules []) := by
  rw [cut.eq_split]
  rfl

theorem read_of_holds (cut : Lines text lines) (holds : Holds lines rules)
    (distinct : (ofRules rules).names.Nodup) : Table.read text = .ok (ofRules rules) := by
  rw [read_eq_readLines cut]
  exact readLines_of_holds holds distinct

theorem read_of_stops {front back : List (List Char)} (cut : Lines text (front ++ line :: back))
    (holds : Holds front rules) (distinct : (ofRules rules).names.Nodup)
    (stops : Stops (front.length + 1) rules line fault) : Table.read text = .error fault := by
  have before : readLines 1 front (ofRules []) = .ok (ofRules rules) :=
    readLines_of_holds holds distinct
  rw [read_eq_readLines cut, readLines_append, before, Nat.add_comm]
  exact readLines_of_stops stops back

theorem read_eq_ok_iff {table : Table} (cut : Lines text lines) : Table.read text = .ok table ↔
    ∃ rules, Holds lines rules ∧ (ofRules rules).names.Nodup ∧ table = ofRules rules := by
  constructor
  · intro read
    obtain ⟨rules, holds, distinct⟩ | ⟨_, _, _, rules, fault, rfl, holds, distinct, stops⟩ :=
      holds_or_stops lines
    · cases read.symm.trans (read_of_holds cut holds distinct)
      exact ⟨rules, holds, distinct, rfl⟩
    · cases read.symm.trans (read_of_stops cut holds distinct stops)
  · rintro ⟨rules, holds, distinct, rfl⟩
    exact read_of_holds cut holds distinct

theorem read_eq_error_iff (cut : Lines text lines) : Table.read text = .error fault ↔
    ∃ front line back rules, lines = front ++ line :: back ∧ Holds front rules ∧
      (ofRules rules).names.Nodup ∧ Stops (front.length + 1) rules line fault := by
  constructor
  · intro read
    obtain ⟨rules, holds, distinct⟩ | ⟨_, _, _, rules, other, rfl, holds, distinct, stops⟩ :=
      holds_or_stops lines
    · cases read.symm.trans (read_of_holds cut holds distinct)
    · cases read.symm.trans (read_of_stops cut holds distinct stops)
      exact ⟨_, _, _, rules, rfl, holds, distinct, stops⟩
  · rintro ⟨front, line, back, rules, rfl, holds, distinct, stops⟩
    exact read_of_stops cut holds distinct stops

theorem read_normalize (text : List Char) :
    Table.read (Line.normalize text) = Table.read text := by
  simp only [Table.read, normalize_normalize]

theorem read_ne_foreignNode (text : List Char) (node : Expr) :
    Table.read text ≠ .error (.foreignNode node) := by
  intro read
  obtain ⟨_, _, _, _, _, _, _, stops⟩ := (read_eq_error_iff (lines_iff.mpr rfl)).mp read
  cases stops with
  | rejected rejects => cases rejects

/-- A text is read line by line. It gives a table exactly if every line is blank, a comment or a
rule with nothing but blanks and a comment around it, and no name is given to two rules; the table
then holds the rules of the lines in their order. Otherwise the first line that breaks this is
reported, whatever stands behind it, and nothing else can go wrong. The rule of a line is the
longest one at its first character that is no blank, and a comment leaves nothing of its line. -/
theorem read_line_by_line (text : List Char) :
    ∃ lines, (∀ other, Lines text other ↔ other = lines) ∧
      (∀ table, Table.read text = .ok table ↔ ∃ rules, Holds lines rules ∧
        (rules.map (·.name)).Nodup ∧ table = ⟨rules, rules.head?.map (·.name)⟩) ∧
      (∀ fault, Table.read text = .error fault ↔ ∃ front line back rules,
        lines = front ++ line :: back ∧ Holds front rules ∧ (rules.map (·.name)).Nodup ∧
        Stops (front.length + 1) rules line fault) ∧
      (∀ number rules line, (∃ fault, Stops number rules line fault) ↔
        (∀ found, ¬ Accepts line found) ∨
        ∃ rule, Accepts line (some rule) ∧ rule.name ∈ rules.map (·.name)) ∧
      (∀ before rest rule stop,
        Rule.definition (before ++ rest) before.length = some (.ok rule, stop) ↔
          ∃ tail, Longest rest tail rule ∧ stop + tail.length = (before ++ rest).length) ∧
      (∀ before rest, Rule.definition (before ++ rest) before.length = none ↔
        ∀ tail name tree, ¬ Defines rest tail name tree) ∧
      (∀ line ∈ lines, ∀ before rest, line = before ++ '#' :: rest →
        Reader.comment line before.length = some ((), (line.length : Int))) ∧
      (∀ number line, (Fault.unreadableLine number line).message =
        "cannot read rule on line ".toList ++ Numeral.nat number ++ ": ".toList ++
          Quoted.encode line) ∧
      (∀ name number rest, (Fault.afterRuleOnLine name number rest).message =
        "unexpected text after rule '".toList ++ name ++ "' on line ".toList ++
          Numeral.nat number ++ ": ".toList ++ Quoted.encode rest) ∧
      (∀ name, (Fault.duplicateRule name).message =
        "duplicate rule '".toList ++ name ++ "'".toList) := by
  have cut : Lines text (Line.split (Line.normalize text)) := lines_iff.mpr rfl
  refine ⟨Line.split (Line.normalize text), fun _ => lines_iff, fun _ => read_eq_ok_iff cut,
    fun _ => read_eq_error_iff cut, fun _ _ _ => stops_iff, fun _ _ _ _ => definition_eq_some_iff,
    fun _ _ => definition_eq_none_iff, ?_, fun _ _ => rfl, fun _ _ _ => rfl, fun _ => rfl⟩
  rintro line member before rest rfl
  have taken := comment_to_end (cut.unbroken _ member) (List.suffix_append before _)
  rwa [posOf_front] at taken

end Rulebook.Table
