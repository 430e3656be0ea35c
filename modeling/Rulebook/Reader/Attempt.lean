import Rulebook.Matcher.Attempt
import Rulebook.Reader.Spacing
import Rulebook.Reader.Tier
import Rulebook.Rule

/-!
The readers of rule definitions, with a position in any case: the productions of the tiers, put
together from matchers that rewind.
-/

namespace Rulebook.Attempt

def quote : Attempt (List Char) := literal ['\'']

def text : Attempt Expr :=
  map (fun (_, value, _) => .text value) (both quote (both (token (Token.body '\'')) quote))

def slash : Attempt (List Char) := literal ['/']

def pattern : Attempt Expr :=
  map (fun (_, source, _, flag) => .pattern source (flag == ['i']) false)
    (both slash (both (token (Token.body '/')) (both slash (token Token.flag))))

def name : Attempt (List Char) := token Token.name

def reference : Attempt Expr := map .reference name

def groupOf (expression : Attempt Expr) : Attempt Expr :=
  map (fun (_, inner, _) => .group inner)
    (both (token (Token.opened '(')) (both expression (token (Token.closed ')'))))

def repetitionOf (atom factor : Attempt Expr) : Attempt Expr :=
  map (fun (template, _, separator) => .repetition template separator)
    (both atom (both (token (Token.spaced '^')) factor))

def sequenceOf (factor term : Attempt Expr) : Attempt Expr :=
  map (fun (left, _, right) => .sequence [left, right])
    (both factor (both (token Token.gap) term))

def unionOf (term expression : Attempt Expr) : Attempt Expr :=
  map (fun (left, _, right) => .union [left, right])
    (both term (both (token (Token.spaced '|')) expression))

structure Tiers where
  atom : Attempt Expr
  factor : Attempt Expr
  term : Attempt Expr
  expression : Attempt Expr

def Tiers.over (inner : Tiers) : Tiers :=
  let atom := firstOf [text, pattern, reference, groupOf inner.expression]
  let factor := firstOf [repetitionOf atom inner.factor, atom]
  let term := firstOf [sequenceOf factor inner.term, factor]
  let expression := firstOf [unionOf term inner.expression, term]
  ⟨atom, factor, term, expression⟩

def Tiers.ofDepth : Nat → Tiers
  | 0 => ⟨firstOf [], firstOf [], firstOf [], firstOf []⟩
  | depth + 1 => (Tiers.ofDepth depth).over

def tiersFor (source : List Char) : Tiers := Tiers.ofDepth (source.length + 1)

def atom : Attempt Expr := fun source pos => (tiersFor source).atom source pos

def factor : Attempt Expr := fun source pos => (tiersFor source).factor source pos

def term : Attempt Expr := fun source pos => (tiersFor source).term source pos

def expression : Attempt Expr := fun source pos => (tiersFor source).expression source pos

def group : Attempt Expr := groupOf expression

def repetition : Attempt Expr := repetitionOf atom factor

def sequence : Attempt Expr := sequenceOf factor term

def union : Attempt Expr := unionOf term expression

def written : Attempt (List Char × Expr) :=
  map (fun (name, _, expression) => (name, expression))
    (both name (both (token (Token.opened ':')) expression))

def definition : Attempt (Except Fault Rule) := map Rule.normalized written

def comment : Attempt Unit :=
  map (fun _ => ())
    (both (literal ['#']) (both (token Token.restOfLine) (token Token.lineEnd)))

end Rulebook.Attempt
