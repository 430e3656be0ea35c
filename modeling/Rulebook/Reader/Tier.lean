import Rulebook.Expr.Basic
import Rulebook.Reader.Token

/-!
Reading expressions. The operators bind in the order repetition, sequence, union, tightest first:

    atom       := text | pattern | reference | group
    factor     := repetition | atom          repetition := atom "^" factor
    term       := sequence | factor          sequence   := factor blanks term
    expression := union | term               union      := term "|" expression

Every operator takes its right operand from its own tier, so chains nest to the right. A tier that
cannot read its operator reads the operand alone, from the start again.

Readers may call each other as deep as the text asks for. A limit on nested calls, which an
interpreter may reach at about 62 nested parentheses or 246 chained operands, is left out: giving up
there is none of the outcomes.
-/

namespace Rulebook.Reader

open Matcher (both literal map token)

/-! ## Atoms -/

def quote : Matcher (List Char) := literal ['\'']

def text : Matcher Expr :=
  map (fun (_, value, _) => .text value) (both quote (both (token (Token.body '\'')) quote))

def slash : Matcher (List Char) := literal ['/']

def pattern : Matcher Expr :=
  map (fun (_, source, _, flag) => .pattern source (flag == ['i']) false)
    (both slash (both (token (Token.body '/')) (both slash (token Token.flag))))

def name : Matcher (List Char) := token Token.name

def reference : Matcher Expr := map .reference name

/-! ## Brackets and operators, over readers for their operands -/

def groupOf (expression : Matcher Expr) : Matcher Expr :=
  map (fun (_, inner, _) => .group inner)
    (both (token (Token.opened '(')) (both expression (token (Token.closed ')'))))

def repetitionOf (atom factor : Matcher Expr) : Matcher Expr :=
  map (fun (template, _, separator) => .repetition template separator)
    (both atom (both (token (Token.spaced '^')) factor))

def sequenceOf (factor term : Matcher Expr) : Matcher Expr :=
  map (fun (left, _, right) => .sequence [left, right])
    (both factor (both (token Token.gap) term))

def unionOf (term expression : Matcher Expr) : Matcher Expr :=
  map (fun (left, _, right) => .union [left, right])
    (both term (both (token (Token.spaced '|')) expression))

/-! ## Tiers -/

structure Tiers where
  atom : Matcher Expr
  factor : Matcher Expr
  term : Matcher Expr
  expression : Matcher Expr

def Tiers.over (inner : Tiers) : Tiers :=
  let atom := Matcher.firstOf [text, pattern, reference, groupOf inner.expression]
  let factor := Matcher.firstOf [repetitionOf atom inner.factor, atom]
  let term := Matcher.firstOf [sequenceOf factor inner.term, factor]
  let expression := Matcher.firstOf [unionOf term inner.expression, term]
  ⟨atom, factor, term, expression⟩

def Tiers.ofDepth : Nat → Tiers
  | 0 => ⟨fun _ _ => none, fun _ _ => none, fun _ _ => none, fun _ _ => none⟩
  | depth + 1 => (Tiers.ofDepth depth).over

/-- Every right operand and every group starts at least one character further on, so a depth of
one more than the length of the text is deep enough for all of it. -/
def tiersFor (source : List Char) : Tiers := Tiers.ofDepth (source.length + 1)

def atom : Matcher Expr := fun source pos => (tiersFor source).atom source pos

def factor : Matcher Expr := fun source pos => (tiersFor source).factor source pos

def term : Matcher Expr := fun source pos => (tiersFor source).term source pos

def expression : Matcher Expr := fun source pos => (tiersFor source).expression source pos

def group : Matcher Expr := groupOf expression

def repetition : Matcher Expr := repetitionOf atom factor

def sequence : Matcher Expr := sequenceOf factor term

def union : Matcher Expr := unionOf term expression

end Rulebook.Reader
