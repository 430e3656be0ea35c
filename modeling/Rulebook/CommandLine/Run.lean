import Rulebook.CommandLine.Arguments
import Rulebook.CommandLine.Folder
import Rulebook.Table.Reader

/-!
Carrying out commands. `check` reports the references that no rule answers; `ast` prints the
expressions of all rules or of one. With the debug switch, lines on the error output tell how far
the command has come.

A run that gives up because calls nest too deep, as an interpreter may where a rule holds about 62
nested parentheses or 246 chained operands, is left out of the endings.
-/

namespace Rulebook.CommandLine

/-- What ends a command without an exit code. -/
inductive Escape where
  | decoding (fault : Utf8.Fault)
  | reading (fault : Fault)

inductive Ending where
  | exit (code : Nat)
  | escaped (fault : Escape)

structure Outcome where
  ending : Ending
  out : List Char
  err : List Char

def line (text : List Char) : List Char := text ++ ['\n']

def Outcome.after (outcome : Outcome) (log : List Char) : Outcome :=
  { outcome with err := log ++ outcome.err }

def Outcome.failed (err : List Char) : Outcome := ⟨.exit 2, [], err⟩

/-! ## Failures -/

inductive LoadFault where
  | opening (obstacle : Obstacle)
  | decoding (fault : Utf8.Fault)
  | reading (fault : Fault)

/-- Faults of the rules and of opening the file are reported; undecodable bytes, and a node without
a normal form, are not. -/
def LoadFault.outcome (path : List Char) : LoadFault → Outcome
  | .opening obstacle => .failed (line ("[ERROR] ".toList ++ obstacle.message path))
  | .decoding fault => ⟨.escaped (.decoding fault), [], []⟩
  | .reading (.foreignNode node) => ⟨.escaped (.reading (.foreignNode node)), [], []⟩
  | .reading fault => .failed (line "[SYNTAX ERROR]".toList ++ line fault.message)

/-! ## Loading -/

def nameOr (name : Option (List Char)) : List Char := name.getD "None".toList

def debugLine (debug : Bool) (text : List Char) : List Char :=
  if debug then line ("[DEBUG] ".toList ++ text) else []

/-- Reads the table of a file; beside it, the debug lines up to the point where reading ends. -/
def Invocation.load (invocation : Invocation) (opened : Opened) :
    List Char × Except LoadFault Table :=
  match opened with
  | .error obstacle => ([], .error (.opening obstacle))
  | .ok bytes =>
      match Table.textOf bytes with
      | .error fault => ([], .error (.decoding fault))
      | .ok text =>
          let opening :=
            debugLine invocation.debug
              ("read ".toList ++ invocation.file ++ " | lines=".toList ++
                Numeral.nat (text.count '\n' + 1))
          match Table.read text with
          | .error fault => (opening, .error (.reading fault))
          | .ok table =>
              let summary :=
                debugLine invocation.debug
                  ("rules=".toList ++ Numeral.nat table.rules.length ++ " start=".toList ++
                    nameOr table.start)
              (opening ++ summary, .ok table)

/-! ## Commands -/

def check (debug : Bool) (table : Table) : Outcome :=
  let log := table.rules.flatMap fun rule => debugLine debug rule.display
  let outcome : Outcome :=
    match table.dangling with
    | [] =>
        ⟨.exit 0,
          line ("[CHECK OK] rules=".toList ++ Numeral.nat table.rules.length ++
            " start=".toList ++ nameOr table.start), []⟩
    | missing => ⟨.exit 1, [], line ("[UNDEFINED] ".toList ++ Listed.commas missing)⟩
  outcome.after log

def ast (path rule : List Char) (table : Table) : Outcome :=
  let wanted :=
    if rule.isEmpty then .ok table.rules
    else (table.get rule).map fun rule => [rule]
  match wanted with
  | .error fault => LoadFault.outcome path (.reading fault)
  | .ok rules => ⟨.exit 0, rules.flatMap fun rule => line rule.display, []⟩

def Invocation.run (invocation : Invocation) (opened : Opened) : Outcome :=
  let loaded := invocation.load opened
  let outcome :=
    match loaded.2 with
    | .error fault => fault.outcome invocation.file
    | .ok table =>
        match invocation.command with
        | .check => check invocation.debug table
        | .ast => ast invocation.file invocation.rule table
  outcome.after loaded.1

/-! ## Help -/

def Level.description : Level → List String
  | .program =>
      ["", "pcomb grammar reader CLI",
       "",
       "positional arguments:",
       "  \x7bcheck,ast\x7d",
       "    check      read a grammar and report undefined rule references",
       "    ast        print normalized rule expressions",
       "",
       "options:",
       "  -h, --help   show this help message and exit"]
  | .command .check =>
      ["",
       "positional arguments:",
       "  file         grammar file",
       "",
       "options:",
       "  -h, --help   show this help message and exit",
       "  -D, --debug  verbose progress on stderr"]
  | .command .ast =>
      ["",
       "positional arguments:",
       "  file         grammar file",
       "",
       "options:",
       "  -h, --help   show this help message and exit",
       "  --rule RULE  only this rule",
       "  -D, --debug  verbose progress on stderr"]

def Stop.outcome : Stop → Outcome
  | .help level =>
      ⟨.exit 0, line level.usage ++ level.description.flatMap fun text => line text.toList, []⟩
  | .misuse level complaint =>
      .failed
        (line level.usage ++ line (level.title ++ ": error: ".toList ++ complaint.message))

def run (arguments : List (List Char)) (openFile : List Char → Opened) : Outcome :=
  match Invocation.read arguments with
  | .error stop => stop.outcome
  | .ok invocation => invocation.run (openFile invocation.file)

end Rulebook.CommandLine
