import Rulebook.Matcher.Basic

/-!
Matchers that report a position in any case. Composition keeps the contract that a failed match
reports the position it was called at: the parts of a run go on from where the one before them
stopped, and the run goes back to its own start when one of them fails.
-/

namespace Rulebook

abbrev Attempt (α : Type) := List Char → Int → Option α × Int

namespace Attempt

variable {α β : Type}

def map (f : α → β) (attempt : Attempt α) : Attempt β := fun source pos =>
  match attempt source pos with
  | (none, _) => (none, pos)
  | (some value, stop) => (some (f value), stop)

def literal (text : List Char) : Attempt (List Char) := fun source pos =>
  if slice source pos (pos + text.length) = text then (some text, pos + text.length)
  else (none, pos)

def token (extent : List Char → Option Nat) : Attempt (List Char) :=
  (Matcher.token extent).call

def firstOf : List (Attempt α) → Attempt α
  | [], _, pos => (none, pos)
  | first :: others, source, pos =>
      match first source pos with
      | (none, _) => firstOf others source pos
      | (some value, stop) => (some value, stop)

/-- The parts from the current position on, behind the values so far. -/
def allFrom (source : List Char) (start : Int) :
    List (Attempt α) → List α → Int → Option (List α) × Int
  | [], values, current => (some values, current)
  | part :: parts, values, current =>
      match part source current with
      | (none, _) => (none, start)
      | (some value, stop) => allFrom source start parts (values ++ [value]) stop

def allOf (parts : List (Attempt α)) : Attempt (List α) := fun source pos =>
  allFrom source pos parts [] pos

def both (left : Attempt α) (right : Attempt β) : Attempt (α × β) := fun source pos =>
  match left source pos with
  | (none, _) => (none, pos)
  | (some value, current) =>
      match right source current with
      | (none, _) => (none, pos)
      | (some next, stop) => (some (value, next), stop)

def rounds (round : Attempt α) (source : List Char) : Nat → List α → Int → Option (List α) × Int
  | 0, values, current => (some values, current)
  | attempts + 1, values, current =>
      match round source current with
      | (none, _) => (some values, current)
      | (some value, stop) =>
          if stop = current then (some values, current)
          else rounds round source attempts (values ++ [value]) stop

/-- As many rounds are allowed as in `Matcher.separated`. -/
def separated (template : Attempt α) (separator : Attempt β) : Attempt (List α) :=
  fun source pos =>
    match template source pos with
    | (none, _) => (some [], pos)
    | (some first, current) =>
        rounds (map Prod.snd (both separator template)) source (source.length + 2) [first] current

end Attempt

end Rulebook
