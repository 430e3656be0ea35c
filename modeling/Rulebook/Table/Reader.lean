import Rulebook.Table.Basic
import Rulebook.Text.Line
import Rulebook.Text.Utf8

/-!
Reading tables. Each line holds one rule, or only blanks, or a comment; blanks may surround a rule
and a comment may follow it. The first line that is none of these, or defines a name a second
time, ends the reading.
-/

namespace Rulebook.Table

def checkRest (number : Nat) (line : List Char) (rule : Rule) (stop : Int) : Except Fault Rule :=
  let stop := Reader.skipBlanks line stop
  if stop < line.length then
    match Reader.comment line stop with
    | some _ => .ok rule
    | none => .error (.afterRuleOnLine rule.name number (line.drop stop.toNat))
  else .ok rule

/-- The rule on a line, if it is not a blank line or a comment. -/
def readLine (number : Nat) (line : List Char) : Except Fault (Option Rule) :=
  let pos := Reader.skipBlanks line 0
  if pos = line.length then .ok none
  else
    match Reader.comment line pos with
    | some _ => .ok none
    | none =>
        match Rule.definition line pos with
        | none => .error (.unreadableLine number (Line.trim line))
        | some (.error fault, _) => .error fault
        | some (.ok rule, stop) => (checkRest number line rule stop).map some

def readLines (number : Nat) : List (List Char) → Table → Except Fault Table
  | [], table => .ok table
  | line :: others, table =>
      match readLine number line with
      | .error fault => .error fault
      | .ok none => readLines (number + 1) others table
      | .ok (some rule) =>
          match table.add rule with
          | .error fault => .error fault
          | .ok table => readLines (number + 1) others table

def read (text : List Char) : Except Fault Table :=
  readLines 1 (Line.split (Line.normalize text)) empty

def textOf (bytes : List UInt8) : Except Utf8.Fault (List Char) :=
  (Utf8.decode bytes).map Line.normalize

end Rulebook.Table
