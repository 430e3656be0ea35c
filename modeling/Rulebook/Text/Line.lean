import Rulebook.Unicode.Blank

/-!
Lines. A line ends at a carriage return, a line feed, or the pair of both; after `normalize` only
the line feed is left.
-/

namespace Rulebook.Line

def joinPairs : List Char → List Char
  | [] => []
  | '\r' :: '\n' :: rest => '\n' :: joinPairs rest
  | char :: rest => char :: joinPairs rest

def normalize (text : List Char) : List Char :=
  (joinPairs text).map fun char => if char = '\r' then '\n' else char

/-- The parts between the line feeds; there is one more of them than there are line feeds. -/
def split : List Char → List (List Char)
  | [] => [[]]
  | char :: rest =>
      if char = '\n' then [] :: split rest
      else
        match split rest with
        | [] => [[char]]
        | line :: others => (char :: line) :: others

def isTrimmed (char : Char) : Bool := Unicode.isTrimmed char.toNat

def trim (line : List Char) : List Char :=
  ((line.dropWhile isTrimmed).reverse.dropWhile isTrimmed).reverse

end Rulebook.Line
