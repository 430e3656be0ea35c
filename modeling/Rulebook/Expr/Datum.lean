import Rulebook.Text.Numeral
import Rulebook.Text.Quoted

/-!
Plain values that may turn up where an expression is expected. Whatever is neither a truth value,
an integer, a string nor nothing is known by its printed form only.
-/

namespace Rulebook

inductive Datum where
  | absent
  | bool (value : Bool)
  | int (value : Int)
  /-- The number `mantissa / 10 ^ places`, printed as `shown`. -/
  | float (shown : List Char) (mantissa : Int) (places : Nat)
  | string (value : List Char)
  /-- Any other value, printed as `shown`; equal ones have one mark. -/
  | other (shown : List Char) (mark : Nat)

namespace Datum

def display : Datum → List Char
  | .absent => "None".toList
  | .bool true => "True".toList
  | .bool false => "False".toList
  | .int value => Numeral.int value
  | .float shown _ _ => shown
  | .string value => Quoted.encode value
  | .other shown _ => shown

/-- A number as a mantissa and a count of decimal places; the truth values count as 0 and 1. -/
def number? : Datum → Option (Int × Nat)
  | .bool value => some (if value then 1 else 0, 0)
  | .int value => some (value, 0)
  | .float _ mantissa places => some (mantissa, places)
  | _ => none

def sameNumber : Option (Int × Nat) → Option (Int × Nat) → Bool
  | some (left, leftPlaces), some (right, rightPlaces) =>
      left * Nat.pow 10 rightPlaces == right * Nat.pow 10 leftPlaces
  | _, _ => false

def same : Datum → Datum → Bool
  | .absent, .absent => true
  | .string left, .string right => left == right
  | .other _ left, .other _ right => left == right
  | left, right => sameNumber left.number? right.number?

end Datum

end Rulebook
