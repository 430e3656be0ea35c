/-!
Several texts on one line, set apart by commas.
-/

namespace Rulebook.Listed

def commas : List (List Char) → List Char
  | [] => []
  | [last] => last
  | first :: next :: others => first ++ [',', ' '] ++ commas (next :: others)

/-- In parentheses; a single member keeps a comma behind it. -/
def tuple : List (List Char) → List Char
  | [only] => '(' :: only ++ [',', ')']
  | members => '(' :: commas members ++ [')']

end Rulebook.Listed
