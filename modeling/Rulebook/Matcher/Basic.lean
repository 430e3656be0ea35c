import Rulebook.Matcher.Position

/-!
Matchers read a value from a text at a position and say where they stopped. The two atomic ones
treat positions differently: `literal` compares a slice and moves the position it was given by the
length of the slice, so a negative position stays negative; `anchored` resolves the position first
and reports an index of the text.

A matcher that fails reports no position: whoever called it stays where it was.
-/

namespace Rulebook

abbrev Matcher (α : Type) := List Char → Int → Option (α × Int)

namespace Matcher

variable {α β : Type}

/-- What a caller sees: a failed match leaves the position as it was. -/
def call (matcher : Matcher α) (source : List Char) (pos : Int) : Option α × Int :=
  match matcher source pos with
  | none => (none, pos)
  | some (value, stop) => (some value, stop)

def map (f : α → β) (matcher : Matcher α) : Matcher β := fun source pos =>
  (matcher source pos).map fun (value, stop) => (f value, stop)

/-! ## Atomic matchers -/

def literal (text : List Char) : Matcher (List Char) := fun source pos =>
  let stop := pos + text.length
  if slice source pos stop = text then some (text, stop) else none

/-- A token is given by its extent: how many characters it takes, seen from the character before
it (none at the start of the text) and the characters from the position on. -/
def anchored (extent : Option Char → List Char → Option Nat) : Matcher (List Char) :=
  fun source pos =>
    let start := resolve source.length pos
    let rest := source.drop start
    match extent (source.take start).getLast? rest with
    | none => none
    | some count => some (rest.take count, (start + count : Nat))

def token (extent : List Char → Option Nat) : Matcher (List Char) :=
  anchored fun _ rest => extent rest

/-! ## Composition -/

def firstOf : List (Matcher α) → Matcher α
  | [], _, _ => none
  | first :: others, source, pos =>
      match first source pos with
      | some found => some found
      | none => firstOf others source pos

def allOf : List (Matcher α) → Matcher (List α)
  | [], _, pos => some ([], pos)
  | first :: others, source, pos =>
      match first source pos with
      | none => none
      | some (value, mid) =>
          match allOf others source mid with
          | none => none
          | some (values, stop) => some (value :: values, stop)

def both (left : Matcher α) (right : Matcher β) : Matcher (α × β) := fun source pos =>
  match left source pos with
  | none => none
  | some (value, mid) =>
      match right source mid with
      | none => none
      | some (next, stop) => some ((value, next), stop)

/-- Rounds of one matcher until it fails or stays where it was, with a bound on the attempts. -/
def rounds (round : Matcher α) (source : List Char) : Nat → Int → List α × Int
  | 0, pos => ([], pos)
  | attempts + 1, pos =>
      match round source pos with
      | none => ([], pos)
      | some (value, stop) =>
          if stop = pos then ([], pos)
          else
            let later := rounds round source attempts stop
            (value :: later.1, later.2)

/-- One template, then pairs of a separator and a template. The separators are dropped from the
value, and no occurrence at all is a match too.

Every round but the last takes a character or turns a position that is no index of the text into
one, so the attempts allowed here are never used up. -/
def separated (template : Matcher α) (separator : Matcher β) : Matcher (List α) :=
  fun source pos =>
    match template source pos with
    | none => some ([], pos)
    | some (first, mid) =>
        let later :=
          rounds (map Prod.snd (both separator template)) source (source.length + 2) mid
        some (first :: later.1, later.2)

end Matcher

end Rulebook
