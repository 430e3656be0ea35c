import Rulebook.CommandLine.Run
import Rulebook.Proofs.DanglingNames
import Rulebook.Proofs.FileText
import Rulebook.Proofs.SessionHistory

/-!
What the commands report. A command without the debug switch says of a file what its bytes, its
text and its table are, each asked only if the one before gives an answer: bytes that are no text
escape, a text that cannot be read is complained of by every command in the same words, and a table
is checked or printed.
-/

namespace Rulebook.CommandLine

variable {invocation : Invocation} {bytes : List UInt8} {text file name : List Char}
  {table : Table} {rule : Rule} {fault : Fault} {arguments : List (List Char)}

/-! ## Arguments without options -/

def Plain (argument : List Char) : Prop := argument.head? ≠ some '-'

instance (argument : List Char) : Decidable (Plain argument) :=
  inferInstanceAs (Decidable (argument.head? ≠ some '-'))

theorem classify_plain (level : Level) {argument : List Char} (plain : Plain argument) :
    level.classify argument = .ok .operand := by
  unfold Level.classify
  split
  · exact absurd rfl plain
  · rfl

theorem classifyAll_plain (level : Level) {argument : List Char} (plain : Plain argument)
    (others : List (List Char)) : level.classifyAll (argument :: others) =
      (level.classifyAll others).map ((argument, .operand) :: ·) := by
  have noSeparator : argument ≠ "--".toList := by
    rintro rfl
    exact plain rfl
  rw [Level.classifyAll, if_neg noSeparator, classify_plain level plain]
  cases level.classifyAll others <;> rfl

theorem read_file (command : Command) (plain : Plain file) :
    Invocation.read [command.name, file] = .ok ⟨command, file, [], false⟩ := by
  have named : Plain command.name := by cases command <;> decide
  rw [Invocation.read, classifyAll_plain _ named, classifyAll_plain _ plain]
  have taken : command.read [file] [] = .ok ⟨command, file, [], false⟩ := by
    rw [Command.read, classifyAll_plain _ plain]
    rfl
  cases command <;> exact taken

theorem read_rule (plain : Plain file) (plain' : Plain name) :
    Invocation.read ["ast".toList, file, "--rule".toList, name] =
      .ok ⟨.ast, file, name, false⟩ := by
  have option (level : Level) {kind : Kind} (kinds : level.classify "--rule".toList = .ok kind) :
      level.classifyAll ["--rule".toList, name] =
        .ok [("--rule".toList, kind), (name, .operand)] := by
    rw [Level.classifyAll, if_neg (by decide), kinds, classifyAll_plain level plain']
    rfl
  rw [Invocation.read, classifyAll_plain _ (by decide), classifyAll_plain _ plain, option _ rfl]
  show Command.read .ast [file, "--rule".toList, name] [] = _
  rw [Command.read, classifyAll_plain _ plain, option _ rfl]
  rfl

/-! ## Loading -/

theorem load_of_undecodable {fault : Utf8.Fault} (broken : Utf8.decode bytes = .error fault) :
    invocation.load (.ok bytes) = ([], .error (.decoding fault)) := by
  simp only [Invocation.load, Table.textOf, broken]
  rfl

theorem load_encode (quiet : invocation.debug = false) (text : List Char) :
    invocation.load (.ok (Utf8.encode text)) =
      ([], (Table.read text).mapError LoadFault.reading) := by
  simp only [Invocation.load, Table.textOf_encode, Table.read_normalize, quiet, debugLine]
  cases Table.read text <;> rfl

/-! ## Commands -/

theorem check_of_complete (complete : table.dangling = []) : check false table =
    ⟨.exit 0, line ("[CHECK OK] rules=".toList ++ Numeral.nat table.rules.length ++
      " start=".toList ++ nameOr table.start), []⟩ := by
  simp [check, complete, debugLine, Outcome.after]

theorem check_of_dangling (dangling : table.dangling ≠ []) : check false table =
    ⟨.exit 1, [], line ("[UNDEFINED] ".toList ++ Listed.commas table.dangling)⟩ := by
  unfold check
  split
  · contradiction
  · simp [debugLine, Outcome.after]

theorem ast_all (file : List Char) (table : Table) : ast file [] table =
    ⟨.exit 0, table.rules.flatMap fun rule => line rule.display, []⟩ := rfl

theorem ast_of_get (named : name ≠ []) (found : table.get name = .ok rule) :
    ast file name table = ⟨.exit 0, line rule.display, []⟩ := by
  have filled : name.isEmpty = false := by simpa using named
  simp [ast, filled, found, Except.map]

theorem ast_of_undefined (named : name ≠ []) (undefined : name ∉ table.names) :
    ast file name table = ⟨.exit 2, [],
      line "[SYNTAX ERROR]".toList ++ line ("undefined rule '".toList ++ name ++ ['\''])⟩ := by
  have filled : name.isEmpty = false := by simpa using named
  simp only [ast, filled, Table.get_of_unknown undefined]
  rfl

/-! ## Whole runs -/

theorem run_of_undecodable {fault : Utf8.Fault} (broken : Utf8.decode bytes = .error fault) :
    invocation.run (.ok bytes) = ⟨.escaped (.decoding fault), [], []⟩ := by
  simp only [Invocation.run, load_of_undecodable broken]
  rfl

theorem run_of_unreadable (quiet : invocation.debug = false)
    (unreadable : Table.read text = .error fault) : invocation.run (.ok (Utf8.encode text)) =
      ⟨.exit 2, [], line "[SYNTAX ERROR]".toList ++ line fault.message⟩ := by
  simp only [Invocation.run, load_encode quiet, unreadable, Except.mapError]
  cases fault with
  | foreignNode node => exact absurd unreadable (Table.read_ne_foreignNode text node)
  | _ => rfl

theorem run_of_read (quiet : invocation.debug = false) (read : Table.read text = .ok table) :
    invocation.run (.ok (Utf8.encode text)) =
      match invocation.command with
      | .check => check false table
      | .ast => ast invocation.file invocation.rule table := by
  simp only [Invocation.run, load_encode quiet, read, Except.mapError, quiet]
  rfl

theorem check_exits (table : Table) : ∃ code, (check false table).ending = .exit code := by
  by_cases complete : table.dangling = []
  · exact ⟨0, by rw [check_of_complete complete]⟩
  · exact ⟨1, by rw [check_of_dangling complete]⟩

theorem ast_exits (file name : List Char) (table : Table) :
    ∃ code, (ast file name table).ending = .exit code := by
  by_cases named : name = []
  · exact ⟨0, by rw [named, ast_all]⟩
  by_cases defined : name ∈ table.names
  · obtain ⟨rule, found⟩ := Table.exists_get_iff.mpr defined
    exact ⟨0, by rw [ast_of_get named found]⟩
  · exact ⟨2, by rw [ast_of_undefined named defined]⟩

theorem run_encode_exits (quiet : invocation.debug = false) (text : List Char) :
    ∃ code, (invocation.run (.ok (Utf8.encode text))).ending = .exit code := by
  cases read : Table.read text with
  | error fault => exact ⟨2, by rw [run_of_unreadable quiet read]⟩
  | ok table =>
      rw [run_of_read quiet read]
      cases invocation.command with
      | check => exact check_exits table
      | ast => exact ast_exits invocation.file invocation.rule table

/-- The fault of decoding the bytes escapes, and nothing else does. -/
theorem run_escapes_iff (quiet : invocation.debug = false) {escape : Escape} :
    (invocation.run (.ok bytes)).ending = .escaped escape ↔
      ∃ broken, Utf8.decode bytes = .error broken ∧ escape = .decoding broken := by
  cases decoded : Utf8.decode bytes with
  | error broken =>
      rw [run_of_undecodable decoded]
      simp [eq_comm]
  | ok text =>
      obtain ⟨code, exits⟩ := run_encode_exits quiet text
      rw [Utf8.decode_eq_ok_iff.mp decoded, exits]
      simp

theorem check_reports (table : Table) :
    ((check false table).ending = .exit 0 ↔
      ∀ name, table.Refers name → ∃ rule, table.get name = .ok rule) ∧
    ((check false table).ending ≠ .exit 0 → ∃ missing : List (List Char), missing.Nodup ∧
      (∀ name, name ∈ missing ↔ table.Refers name ∧ ∀ rule, table.get name ≠ .ok rule) ∧
      check false table = ⟨.exit 1, [], line ("[UNDEFINED] ".toList ++ Listed.commas missing)⟩) := by
  rw [← Table.dangling_eq_nil_iff]
  by_cases complete : table.dangling = []
  · rw [check_of_complete complete]
    exact ⟨⟨fun _ => complete, fun _ => rfl⟩, fun failed => absurd rfl failed⟩
  · rw [check_of_dangling complete]
    refine ⟨⟨nofun, fun none => absurd none complete⟩, fun _ => ?_⟩
    refine ⟨table.dangling, table.nodup_dangling, ?_, rfl⟩
    intro name
    rw [Table.mem_dangling_iff, ← Table.exists_get_iff, not_exists]

theorem ast_rule_reports (kept : table.WellKept) (file : List Char) (named : name ≠ []) :
    ((ast file name table).ending = .exit 0 ↔ ∃ rule, table.get name = .ok rule) ∧
    (∀ rule ∈ table.rules, rule.name = name →
      ast file name table = ⟨.exit 0, line rule.display, []⟩) ∧
    ((∀ rule, table.get name ≠ .ok rule) → ast file name table = ⟨.exit 2, [],
      line "[SYNTAX ERROR]".toList ++ line ("undefined rule '".toList ++ name ++ ['\''])⟩) := by
  have missed : (∀ rule, table.get name ≠ .ok rule) → name ∉ table.names := by
    rw [← Table.exists_get_iff, not_exists]
    exact id
  refine ⟨?_, ?_, fun undefined => ast_of_undefined named (missed undefined)⟩
  · constructor
    · intro succeeded
      by_contra undefined
      rw [ast_of_undefined named (missed (not_exists.mp undefined))] at succeeded
      cases succeeded
    · rintro ⟨rule, found⟩
      rw [ast_of_get named found]
  · intro rule member same
    exact ast_of_get named (kept.get_eq_ok_iff.mpr ⟨member, same⟩)

/-- What is reported of a file that can be opened, unless progress is asked for as well. Something
escapes exactly if the bytes are not the encoding of a text, and then it is the fault of decoding
them. A text that cannot be read is complained of in words that depend on nothing but the fault. Of
a table, a check succeeds exactly if every name that some rule refers to is found, and lists the
names that are not; all rules are printed in their order, one on a line, or one of them alone in the
same way, if there is one of that name. -/
theorem run_reports (openFile : List Char → Opened)
    (wellFormed : Invocation.read arguments = .ok invocation) (quiet : invocation.debug = false)
    (opened : openFile invocation.file = .ok bytes) : ∃ outcome,
    run arguments openFile = outcome ∧
    ((∃ escape, outcome.ending = .escaped escape) ↔ ∀ text, bytes ≠ Utf8.encode text) ∧
    (∀ escape, outcome.ending = .escaped escape →
      ∃ broken, Utf8.decode bytes = .error broken ∧ escape = .decoding broken) ∧
    ∀ text, bytes = Utf8.encode text →
      (∀ fault, Table.read text = .error fault →
        outcome = ⟨.exit 2, [], line "[SYNTAX ERROR]".toList ++ line fault.message⟩) ∧
      ∀ table, Table.read text = .ok table →
        (invocation.command = .check →
          (outcome.ending = .exit 0 ↔
            ∀ name, table.Refers name → ∃ rule, table.get name = .ok rule) ∧
          (outcome.ending ≠ .exit 0 → ∃ missing : List (List Char), missing.Nodup ∧
            (∀ name, name ∈ missing ↔ table.Refers name ∧ ∀ rule, table.get name ≠ .ok rule) ∧
            outcome = ⟨.exit 1, [], line ("[UNDEFINED] ".toList ++ Listed.commas missing)⟩)) ∧
        (invocation.command = .ast → invocation.rule = [] →
          outcome = ⟨.exit 0, table.rules.flatMap fun rule => line rule.display, []⟩) ∧
        (invocation.command = .ast → invocation.rule ≠ [] →
          (outcome.ending = .exit 0 ↔ ∃ rule, table.get invocation.rule = .ok rule) ∧
          (∀ rule ∈ table.rules, rule.name = invocation.rule →
            outcome = ⟨.exit 0, line rule.display, []⟩) ∧
          ((∀ rule, table.get invocation.rule ≠ .ok rule) → outcome = ⟨.exit 2, [],
            line "[SYNTAX ERROR]".toList ++
              line ("undefined rule '".toList ++ invocation.rule ++ ['\''])⟩)) := by
  have ran : run arguments openFile = invocation.run (.ok bytes) := by
    simp only [run, wellFormed, opened]
  refine ⟨_, ran, ?_, fun _ => (run_escapes_iff quiet).mp, ?_⟩
  -- bytes are no encoding just where the decoder reports a fault, and only that fault escapes
  · simp only [run_escapes_iff quiet, ← Utf8.exists_fault_iff]
    exact ⟨fun ⟨_, broken, failed, _⟩ => ⟨broken, failed⟩,
      fun ⟨broken, failed⟩ => ⟨_, broken, failed, rfl⟩⟩
  · rintro text rfl
    refine ⟨fun fault => run_of_unreadable quiet, ?_⟩
    intro table read
    rw [run_of_read quiet read]
    refine ⟨?_, ?_, ?_⟩
    · intro isCheck
      rw [isCheck]
      exact check_reports table
    · intro isAst all
      rw [isAst, all]
      exact ast_all invocation.file table
    · intro isAst named
      rw [isAst]
      exact ast_rule_reports (Table.read_wellKept read) invocation.file named

/-- The rule refers to a name without a rule, which its check reports and its printing does not. -/
theorem dangling_rule_reported :
    Table.read "aa: bb".toList = .ok (Table.ofRules [⟨"aa".toList, .reference "bb".toList⟩]) ∧
    Invocation.read ["check".toList, "f".toList] = .ok ⟨.check, "f".toList, [], false⟩ ∧
    (∃ missing : List (List Char), missing.Nodup ∧ "bb".toList ∈ missing ∧
      run ["check".toList, "f".toList] (fun _ => .ok (Utf8.encode "aa: bb".toList)) =
        ⟨.exit 1, [], line ("[UNDEFINED] ".toList ++ Listed.commas missing)⟩) ∧
    Invocation.read ["ast".toList, "f".toList, "--rule".toList, "aa".toList] =
      .ok ⟨.ast, "f".toList, "aa".toList, false⟩ ∧
    run ["ast".toList, "f".toList, "--rule".toList, "aa".toList]
        (fun _ => .ok (Utf8.encode "aa: bb".toList)) =
      ⟨.exit 0, line "aa: RuleRef(name='bb')".toList, []⟩ := by
  have checks := read_file .check (by decide : Plain "f".toList)
  have prints := read_rule (by decide : Plain "f".toList) (by decide : Plain "aa".toList)
  have refers : (Table.ofRules [⟨"aa".toList, .reference "bb".toList⟩]).Refers "bb".toList :=
    ⟨_, List.mem_cons_self, List.mem_cons_self⟩
  refine ⟨rfl, checks, ?_, prints, ?_⟩
  · obtain ⟨_, rfl, _, _, said⟩ :=
      run_reports (fun _ => .ok (Utf8.encode "aa: bb".toList)) checks rfl rfl
    obtain ⟨succeeds, lists⟩ := ((said "aa: bb".toList rfl).2 _ rfl).1 rfl
    have failed := mt succeeds.mp fun complete => by
      obtain ⟨rule, found⟩ := complete _ refers
      cases found
    obtain ⟨missing, distinct, listed, same⟩ := lists failed
    exact ⟨missing, distinct, (listed _).mpr ⟨refers, nofun⟩, same⟩
  · obtain ⟨_, rfl, _, _, said⟩ :=
      run_reports (fun _ => .ok (Utf8.encode "aa: bb".toList)) prints rfl rfl
    obtain ⟨_, printed, _⟩ := ((said "aa: bb".toList rfl).2 _ rfl).2.2 rfl (by decide)
    exact printed _ List.mem_cons_self rfl

end Rulebook.CommandLine
