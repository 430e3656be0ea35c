import Rulebook.Proofs.DebugOption
import Rulebook.Proofs.PrintedTable

/-!
The debug output. With the debug switch on, a command ends as it does without it and prints the same
on the standard output; on the error output, debug lines stand in front of what is there without the
switch. This holds wherever the command ends: at the file, its bytes, its text or its table.
-/

namespace Rulebook

open Grammar (IsName Unbroken unbroken_append_iff isLineEnd_eq_false_iff)

/-! ## Texts of one line -/

theorem Grammar.isName_unbroken {name : List Char} (named : IsName name) : Unbroken name := by
  match name, named with
  | first :: rest, ⟨starts, _, words⟩ =>
      intro char member
      rw [isLineEnd_eq_false_iff]
      rcases List.mem_cons.mp member with rfl | later
      · constructor <;> rintro rfl <;> exact absurd starts (by decide)
      · constructor <;> rintro rfl <;> exact absurd (words _ later) (by decide)

theorem Numeral.nat_unbroken (number : Nat) : Unbroken (nat number) := by
  intro char member
  have digit := Nat.isDigit_of_mem_toDigits (by decide) (Nat.le_refl 10) member
  rw [isLineEnd_eq_false_iff]
  constructor <;> rintro rfl <;> exact absurd digit (by decide)

theorem Rule.Printable.display_unbroken {rule : Rule} (printable : rule.Printable) :
    Unbroken rule.display := by
  simp only [Rule.display, unbroken_append_iff]
  exact ⟨⟨Grammar.isName_unbroken printable.named, by decide⟩, printable.proper.display_unbroken⟩

namespace CommandLine

variable {invocation : Invocation} {table : Table} {file : List Char} {quiet loud : Outcome}
  {texts : List (List Char)}

def readText (file text : List Char) : List Char :=
  "read ".toList ++ file ++ " | lines=".toList ++ Numeral.nat (text.count '\n' + 1)

def tableText (table : Table) : List Char :=
  "rules=".toList ++ Numeral.nat table.rules.length ++ " start=".toList ++ nameOr table.start

theorem readText_unbroken (single : Unbroken file) (text : List Char) :
    Unbroken (readText file text) := by
  unfold readText
  rw [unbroken_append_iff, unbroken_append_iff, unbroken_append_iff]
  exact ⟨⟨⟨by decide, single⟩, by decide⟩, Numeral.nat_unbroken _⟩

theorem tableText_unbroken (kept : table.WellKept)
    (printable : ∀ rule ∈ table.rules, rule.Printable) : Unbroken (tableText table) := by
  have start : Unbroken (nameOr table.start) := by
    rw [kept.started]
    cases rules : table.rules with
    | nil => decide
    | cons first others =>
        have named := (printable first (rules ▸ List.mem_cons_self)).named
        exact Grammar.isName_unbroken named
  unfold tableText
  rw [unbroken_append_iff, unbroken_append_iff, unbroken_append_iff]
  exact ⟨⟨⟨by decide, Numeral.nat_unbroken _⟩, by decide⟩, start⟩

/-! ## Debug lines -/

/-- The debug lines that say the texts. -/
def logged (texts : List (List Char)) : List Char :=
  texts.flatMap fun text => line ("[DEBUG] ".toList ++ text)

theorem logged_cons (text : List Char) (texts : List (List Char)) :
    logged (text :: texts) = logged [text] ++ logged texts := by
  simp [logged]

theorem debugLine_true (text : List Char) : debugLine true text = logged [text] := by
  simp [debugLine, logged]

/-- What differs is that debug lines stand in front of the error output, each of them a single line
if the path of the file has no line end in it. -/
structure OnlyLogs (file : List Char) (quiet loud : Outcome) : Prop where
  ending : loud.ending = quiet.ending
  out : loud.out = quiet.out
  err : ∃ texts, loud.err = logged texts ++ quiet.err ∧
    (Unbroken file → ∀ text ∈ texts, Unbroken text)

theorem OnlyLogs.refl (file : List Char) (outcome : Outcome) : OnlyLogs file outcome outcome :=
  ⟨rfl, rfl, [], rfl, nofun⟩

theorem OnlyLogs.after (logs : OnlyLogs file quiet loud)
    (single : Unbroken file → ∀ text ∈ texts, Unbroken text) :
    OnlyLogs file quiet (loud.after (logged texts)) := by
  obtain ⟨more, same, singles⟩ := logs.err
  refine ⟨logs.ending, logs.out, texts ++ more, ?_, ?_⟩
  · simp only [Outcome.after, same, logged, List.flatMap_append, List.append_assoc]
  · intro path text member
    rcases List.mem_append.mp member with first | later
    · exact single path text first
    · exact singles path text later

theorem after_nil (outcome : Outcome) : outcome.after [] = outcome := rfl

/-! ## Commands -/

theorem check_onlyLogs (printable : ∀ rule ∈ table.rules, rule.Printable) (file : List Char) :
    OnlyLogs file (check false table) (check true table) := by
  have said : table.rules.flatMap (fun rule => debugLine true rule.display) =
      logged (table.rules.map Rule.display) := by
    simp [logged, debugLine, List.flatMap_map]
  have silent : table.rules.flatMap (fun rule => debugLine false rule.display) = [] := by
    simp [debugLine]
  rw [check, check, said, silent]
  apply (OnlyLogs.refl file _).after
  intro _ text member
  obtain ⟨rule, inside, rfl⟩ := List.mem_map.mp member
  exact (printable rule inside).display_unbroken

theorem load_loud (silent : invocation.debug = false) (opened : Opened) :
    (invocation.load opened).1 = [] ∧ ∃ texts,
      (invocation.asking true).load opened = (logged texts, (invocation.load opened).2) ∧
      (Unbroken invocation.file → ∀ text ∈ texts, Unbroken text) := by
  unfold Invocation.load
  cases opened with
  | error obstacle => exact ⟨rfl, [], rfl, nofun⟩
  | ok bytes =>
    dsimp only
    cases Table.textOf bytes with
    | error fault => exact ⟨rfl, [], rfl, nofun⟩
    | ok text =>
      rw [silent]
      dsimp only
      -- the text is told of as soon as it is decoded, the table only if the text can be read
      cases read : Table.read text with
      | error fault =>
          refine ⟨rfl, [readText invocation.file text], ?_, ?_⟩
          · rw [← debugLine_true]
            rfl
          · intro single said member
            rw [List.mem_singleton.mp member]
            exact readText_unbroken single text
      | ok table =>
          refine ⟨rfl, [readText invocation.file text, tableText table], ?_, ?_⟩
          · rw [logged_cons, ← debugLine_true, ← debugLine_true]
            rfl
          · intro single said member
            rcases List.mem_pair.mp member with rfl | rfl
            · exact readText_unbroken single text
            · exact tableText_unbroken (Table.read_wellKept read) (Table.read_printable read)

theorem read_of_load {opened : Opened} (loaded : (invocation.load opened).2 = .ok table) :
    ∃ text, Table.read text = .ok table := by
  unfold Invocation.load at loaded
  split at loaded
  · cases loaded
  · split at loaded
    · cases loaded
    · rename_i text _
      dsimp only at loaded
      split at loaded
      · cases loaded
      · rename_i read
        cases loaded
        exact ⟨text, read⟩

theorem run_onlyLogs (invocation : Invocation) (opened : Opened) :
    OnlyLogs invocation.file (invocation.run opened) ((invocation.asking true).run opened) := by
  cases silent : invocation.debug with
  | true =>
      have same : invocation.asking true = invocation := by
        rw [← silent]
        rfl
      rw [same]
      exact .refl _ _
  | false =>
      obtain ⟨nothing, texts, said, single⟩ := load_loud silent opened
      simp only [Invocation.run, said, nothing, after_nil]
      refine OnlyLogs.after ?_ single
      cases loaded : (invocation.load opened).2 with
      | error fault => exact .refl _ _
      | ok table =>
          obtain ⟨text, read⟩ := read_of_load loaded
          simp only [silent, Invocation.asking]
          cases invocation.command with
          | check => exact check_onlyLogs (Table.read_printable read) _
          | ast => exact .refl _ _

/-- The debug option may be given first to every command that can be carried out, and left out
wherever it stands before a separator; the command stays the same but for the switch. And whatever
the file is, there or not, the same command with and without the switch ends in the same way, with
the same on the standard output, and the switch puts nothing but debug lines in front of the error
output. -/
theorem debug_only_logs (openFile : List Char → Opened) :
    (∀ arguments invocation, Invocation.read arguments = .ok invocation →
      ∃ rest, arguments = invocation.command.name :: rest ∧
        ∀ option, (option, .debug) ∈ (Level.command invocation.command).spellings →
          Invocation.read (invocation.command.name :: option :: rest) =
            .ok (invocation.asking true)) ∧
    (∀ (command : Command) front option back invocation,
      (option, .debug) ∈ (Level.command command).spellings → "--".toList ∉ front →
      Invocation.read (command.name :: (front ++ option :: back)) = .ok invocation →
      ∃ quiet, Invocation.read (command.name :: (front ++ back)) = .ok quiet ∧
        invocation = quiet.asking true) ∧
    ∀ arguments arguments' invocation, Invocation.read arguments = .ok invocation →
      Invocation.read arguments' = .ok (invocation.asking true) →
      OnlyLogs invocation.file (run arguments openFile) (run arguments' openFile) := by
  refine ⟨?_, ?_, ?_⟩
  · intro arguments invocation wellFormed
    obtain ⟨rest, rfl, taken⟩ := read_iff.mp wellFormed
    refine ⟨rest, rfl, fun option spelled => ?_⟩
    exact read_name_iff.mpr (read_debugOption spelled taken)
  · intro command front option back invocation spelled unmarked wellFormed
    have taken := read_name_iff.mp wellFormed
    obtain ⟨quiet, left, same⟩ := read_without_debugOption spelled unmarked taken
    exact ⟨quiet, read_name_iff.mpr left, same⟩
  · intro arguments arguments' invocation wellFormed wellFormed'
    simp only [run, wellFormed, wellFormed']
    exact run_onlyLogs invocation _

/-- The rule refers to a name without a rule, which its check reports behind the debug lines. -/
theorem dangling_rule_logged :
    ("-D".toList, Switch.debug) ∈ (Level.command .check).spellings ∧
    "--".toList ∉ ["f".toList] ∧
    Invocation.read ["check".toList, "f".toList, "-D".toList] =
      .ok ⟨.check, "f".toList, [], true⟩ ∧
    Invocation.read ["check".toList, "f".toList] = .ok ⟨.check, "f".toList, [], false⟩ ∧
    Invocation.read ["check".toList, "-D".toList, "f".toList] =
      .ok ⟨.check, "f".toList, [], true⟩ ∧
    ∃ texts, (∀ text ∈ texts, Unbroken text) ∧
      run ["check".toList, "f".toList, "-D".toList] (fun _ => .ok (Utf8.encode "aa: bb".toList)) =
        ⟨.exit 1, [], logged texts ++ line "[UNDEFINED] bb".toList⟩ := by
  obtain ⟨given, leftOut, logs⟩ := debug_only_logs fun _ => .ok (Utf8.encode "aa: bb".toList)
  have spelled : ("-D".toList, Switch.debug) ∈ (Level.command .check).spellings := by decide
  have unmarked : "--".toList ∉ ["f".toList] := by decide
  have loud : Invocation.read ["check".toList, "f".toList, "-D".toList] =
      .ok ⟨.check, "f".toList, [], true⟩ := rfl
  obtain ⟨invocation, quiet, _⟩ := leftOut .check _ _ [] _ spelled unmarked loud
  have readFile : Invocation.read ["check".toList, "f".toList] =
      .ok ⟨.check, "f".toList, [], false⟩ := read_file .check (by decide)
  cases quiet.symm.trans readFile
  obtain ⟨_, ⟨⟩, added⟩ := given _ _ quiet
  have first : Invocation.read ["check".toList, "-D".toList, "f".toList] =
      .ok ⟨.check, "f".toList, [], true⟩ := added _ spelled
  obtain ⟨ending, out, texts, err, single⟩ := logs _ _ _ quiet loud
  refine ⟨spelled, unmarked, loud, quiet, first, texts, single (by decide), ?_⟩
  exact congr (congr (congrArg Outcome.mk ending) out) err

end CommandLine

end Rulebook
