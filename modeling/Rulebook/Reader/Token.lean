import Rulebook.Matcher.Basic
import Rulebook.Unicode.Word

/-!
The tokens of rule definitions, each given by its extent: how many characters it takes from the
front of a text, or none if it does not stand there.
-/

namespace Rulebook.Token

def isBlank (char : Char) : Bool := char == ' ' || char == '\t'

def blankRun (source : List Char) : Nat := (source.takeWhile isBlank).length

def blanks (source : List Char) : Option Nat := some (blankRun source)

def gap (source : List Char) : Option Nat :=
  if blankRun source = 0 then none else some (blankRun source)

def spaced (mark : Char) (source : List Char) : Option Nat :=
  match source.drop (blankRun source) with
  | [] => none
  | first :: rest =>
      if first = mark then some (blankRun source + 1 + blankRun rest) else none

def opened (mark : Char) : List Char → Option Nat
  | [] => none
  | first :: rest => if first = mark then some (1 + blankRun rest) else none

def closed (mark : Char) (source : List Char) : Option Nat :=
  match source.drop (blankRun source) with
  | [] => none
  | first :: _ => if first = mark then some (blankRun source + 1) else none

/-- The length of the longest run of pairs of a backslash and any character but a line feed, and
of characters other than the delimiter and the backslash. -/
def bodyRun (delimiter : Char) : List Char → Nat
  | [] => 0
  | '\\' :: next :: rest => if next = '\n' then 0 else bodyRun delimiter rest + 2
  | first :: rest =>
      if first = delimiter ∨ first = '\\' then 0 else bodyRun delimiter rest + 1

def body (delimiter : Char) (source : List Char) : Option Nat :=
  if bodyRun delimiter source = 0 then none else some (bodyRun delimiter source)

/-- The flag that makes a pattern ignore case. A letter `i` with another one right after it, in
either case, is no flag; a missing flag takes nothing. -/
def flag : List Char → Option Nat
  | 'i' :: next :: _ => some (if next = 'i' ∨ next = 'I' then 0 else 1)
  | ['i'] => some 1
  | _ => some 0

def isNameStart (char : Char) : Bool :=
  char == '_' || ('a' ≤ char && char ≤ 'z') || ('A' ≤ char && char ≤ 'Z')

def isWord (char : Char) : Bool := Unicode.isWord char.toNat

/-- A name has at least two characters. -/
def name : List Char → Option Nat
  | first :: second :: rest =>
      if isNameStart first && isWord second then some (2 + (rest.takeWhile isWord).length)
      else none
  | _ => none

def isLineEnd (char : Char) : Bool := char == '\r' || char == '\n'

def restOfLine (source : List Char) : Option Nat :=
  some (source.takeWhile fun char => !isLineEnd char).length

def lineEnd : List Char → Option Nat
  | [] => some 0
  | '\r' :: '\n' :: _ => some 2
  | '\r' :: _ => some 1
  | '\n' :: _ => some 1
  | _ => none

end Rulebook.Token
