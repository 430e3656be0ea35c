import Rulebook.Matcher.Basic
import Rulebook.Regex.Basic

/-!
Backtracking runs. A run hands each place where it can stop to the continuation, in order of
preference, and takes the first one that the continuation accepts.
-/

namespace Rulebook

/-- A place in a text: the character before it, none at the start, and the characters after it. -/
structure Cursor where
  before : Option Char
  rest : List Char
  deriving DecidableEq, Repr

def Cursor.atWordEdge (cursor : Cursor) : Bool :=
  let isWord := fun (char : Option Char) => char.any fun char => Unicode.isWord char.toNat
  isWord cursor.before != isWord cursor.rest.head?

structure RegexFlags where
  ignoreCase : Bool
  dotAll : Bool
  deriving DecidableEq, Repr

namespace Regex

def runOne (test : Char → Bool) (goOn : Cursor → Option Cursor) : Cursor → Option Cursor
  | ⟨_, []⟩ => none
  | ⟨_, char :: rest⟩ => if test char then goOn ⟨some char, rest⟩ else none

def runHere (holds : Bool) (goOn : Cursor → Option Cursor) (cursor : Cursor) : Option Cursor :=
  if holds then goOn cursor else none

/-- A body that takes nothing ends the loop, even one that has not had its least number of
bodies. So each further body starts with less text left. -/
def runLoop (body : Cursor → (Cursor → Option Cursor) → Option Cursor)
    (least : Nat) (most : Option Nat) (eager : Bool) (goOn : Cursor → Option Cursor)
    (count : Nat) (cursor : Cursor) : Option Cursor :=
  let again := fun (_ : Unit) =>
    if most.all (count < ·) then
      body cursor fun stop =>
        if shorter : stop.rest.length < cursor.rest.length then
          runLoop body least most eager goOn (count + 1) stop
        else goOn stop
    else none
  let leave := fun (_ : Unit) => if least ≤ count then goOn cursor else none
  if eager then (again ()).orElse leave else (leave ()).orElse again
termination_by cursor.rest.length
decreasing_by exact shorter

def run (flags : RegexFlags) : Regex → Cursor → (Cursor → Option Cursor) → Option Cursor
  | .empty, cursor, goOn => goOn cursor
  | .one set, cursor, goOn => runOne (set.holds flags.ignoreCase) goOn cursor
  | .any, cursor, goOn => runOne (fun char => flags.dotAll || char != '\n') goOn cursor
  | .atStart, cursor, goOn => runHere cursor.before.isNone goOn cursor
  | .atEnd, cursor, goOn => runHere cursor.rest.isEmpty goOn cursor
  | .atLastLine, cursor, goOn =>
      runHere (cursor.rest.isEmpty || cursor.rest == ['\n']) goOn cursor
  | .atWordEdge, cursor, goOn => runHere cursor.atWordEdge goOn cursor
  | .cat left right, cursor, goOn => run flags left cursor fun mid => run flags right mid goOn
  | .alt left right, cursor, goOn =>
      (run flags left cursor goOn).orElse fun _ => run flags right cursor goOn
  | .loop body least most eager, cursor, goOn =>
      runLoop (run flags body) least most eager goOn 0 cursor
  | .ahead body wanted, cursor, goOn =>
      runHere ((run flags body cursor some).isSome == wanted) goOn cursor

def extent (regex : Regex) (flags : RegexFlags) (before : Option Char) (rest : List Char) :
    Option Nat :=
  (regex.run flags ⟨before, rest⟩ some).map fun stop => rest.length - stop.rest.length

end Regex

/-- Matches exactly at the position; the text before it stays visible to `atStart` and
`atWordEdge`. -/
def Matcher.ofRegex (regex : Regex) (flags : RegexFlags) : Matcher (List Char) :=
  anchored (regex.extent flags)

end Rulebook
