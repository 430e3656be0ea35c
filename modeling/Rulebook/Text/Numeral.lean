/-!
Numbers in decimal notation.
-/

namespace Rulebook.Numeral

def nat (number : Nat) : List Char := Nat.toDigits 10 number

def int (number : Int) : List Char :=
  if number < 0 then '-' :: nat number.natAbs else nat number.natAbs

end Rulebook.Numeral
