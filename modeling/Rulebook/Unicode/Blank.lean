import Rulebook.Unicode.Ranges

/-!
White space. The property White_Space leaves out the four information separators U+001C to
U+001F; trimming the ends of a line takes them away too.
-/

namespace Rulebook.Unicode

def whiteSpaceRanges : List (Nat × Nat) :=
  [(0x9, 0xD), (0x20, 0x20), (0x85, 0x85), (0xA0, 0xA0), (0x1680, 0x1680), (0x2000, 0x200A),
   (0x2028, 0x2029), (0x202F, 0x202F), (0x205F, 0x205F), (0x3000, 0x3000)]

def isWhiteSpace (code : Nat) : Bool := inRanges whiteSpaceRanges code

def isInformationSeparator (code : Nat) : Bool := 0x1C ≤ code && code ≤ 0x1F

def isTrimmed (code : Nat) : Bool := isWhiteSpace code || isInformationSeparator code

end Rulebook.Unicode
