import Rulebook.Expr.Normal
import Rulebook.Fault
import Rulebook.Reader.Spacing
import Rulebook.Reader.Tier

/-!
Rules: a name, a colon and an expression, which is kept in normal form.
-/

namespace Rulebook

structure Rule where
  name : List Char
  expression : Expr

def Rule.display (rule : Rule) : List Char :=
  rule.name ++ [':', ' '] ++ rule.expression.display

def Rule.written : Matcher (List Char × Expr) :=
  Matcher.map (fun (name, _, expression) => (name, expression))
    (Matcher.both Reader.name
      (Matcher.both (Matcher.token (Token.opened ':')) Reader.expression))

def Rule.normalized (written : List Char × Expr) : Except Fault Rule :=
  match written.2.normalize with
  | .error node => .error (.foreignNode node)
  | .ok expression => .ok ⟨written.1, expression⟩

def Rule.definition : Matcher (Except Fault Rule) :=
  Matcher.map Rule.normalized Rule.written

/-- Reads a text that holds one rule and nothing else but blanks after it. -/
def Rule.read (source : List Char) : Except Fault Rule :=
  match Rule.definition source 0 with
  | none => .error (.notARule source)
  | some (.error fault, _) => .error fault
  | some (.ok rule, stop) =>
      let stop := Reader.skipBlanks source stop
      if stop = source.length then .ok rule
      else .error (.afterRule rule.name (source.drop stop.toNat))

end Rulebook
