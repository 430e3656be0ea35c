import Rulebook.Reader.Token

/-!
Blanks and comments, which stand around rules and mean nothing.
-/

namespace Rulebook.Reader

def blanks : Matcher (List Char) := Matcher.token Token.blanks

def skipBlanks (source : List Char) (pos : Int) : Int := (blanks.call source pos).2

/-- A comment: from a hash to the end of the line, line end included. -/
def comment : Matcher Unit :=
  Matcher.map (fun _ => ())
    (Matcher.both (Matcher.literal ['#'])
      (Matcher.both (Matcher.token Token.restOfLine) (Matcher.token Token.lineEnd)))

end Rulebook.Reader
