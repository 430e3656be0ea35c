import Rulebook.Reader.Attempt
import Rulebook.Regex.Reader
import Rulebook.Regex.Run
import Rulebook.Rule

/-!
Plans: matchers put together from the atomic ones, the readers of rule definitions and the ways of
composition. A plan can be carried out only if every pattern in it can be read, whether or not it
would ever be tried.
-/

namespace Rulebook

inductive Value where
  | text (value : List Char)
  | list (values : List Value)
  | node (value : Expr)

inductive Nonterminal where
  | name
  | text
  | pattern
  | reference
  | group
  | repetition
  | sequence
  | union
  | atom
  | factor
  | term
  | expression
  | rule
  | comment
  deriving DecidableEq, Repr

/-- A rule as a node; one without a normal form counts as no match. -/
def Nonterminal.ruleNode : Matcher Value := fun source pos =>
  match Rule.definition source pos with
  | some (.ok found, stop) => some (.node (.rule found.name found.expression), stop)
  | _ => none

def Nonterminal.matcher : Nonterminal → Matcher Value
  | .name => Matcher.map .text Reader.name
  | .text => Matcher.map .node Reader.text
  | .pattern => Matcher.map .node Reader.pattern
  | .reference => Matcher.map .node Reader.reference
  | .group => Matcher.map .node Reader.group
  | .repetition => Matcher.map .node Reader.repetition
  | .sequence => Matcher.map .node Reader.sequence
  | .union => Matcher.map .node Reader.union
  | .atom => Matcher.map .node Reader.atom
  | .factor => Matcher.map .node Reader.factor
  | .term => Matcher.map .node Reader.term
  | .expression => Matcher.map .node Reader.expression
  | .rule => Nonterminal.ruleNode
  | .comment => Matcher.map (fun _ => .node .comment) Reader.comment

def Nonterminal.attempt : Nonterminal → Attempt Value
  | .name => Attempt.map .text Attempt.name
  | .text => Attempt.map .node Attempt.text
  | .pattern => Attempt.map .node Attempt.pattern
  | .reference => Attempt.map .node Attempt.reference
  | .group => Attempt.map .node Attempt.group
  | .repetition => Attempt.map .node Attempt.repetition
  | .sequence => Attempt.map .node Attempt.sequence
  | .union => Attempt.map .node Attempt.union
  | .atom => Attempt.map .node Attempt.atom
  | .factor => Attempt.map .node Attempt.factor
  | .term => Attempt.map .node Attempt.term
  | .expression => Attempt.map .node Attempt.expression
  | .rule => fun source pos =>
      match Attempt.definition source pos with
      | (some (.ok found), stop) => (some (.node (.rule found.name found.expression)), stop)
      | _ => (none, pos)
  | .comment => Attempt.map (fun _ => .node .comment) Attempt.comment

inductive Plan where
  | literal (text : List Char)
  | pattern (source : List Char) (flags : RegexFlags)
  | firstOf (alternatives : List Plan)
  | allOf (parts : List Plan)
  | separated (template separator : Plan)
  | nonterminal (part : Nonterminal)

namespace Plan

mutual

def build? : Plan → Option (Matcher Value)
  | .literal text => some (Matcher.map .text (Matcher.literal text))
  | .pattern source flags =>
      (Regex.read? source).map fun regex => Matcher.map .text (Matcher.ofRegex regex flags)
  | .firstOf alternatives => (buildAll? alternatives).map Matcher.firstOf
  | .allOf parts => (buildAll? parts).map fun parts => Matcher.map .list (Matcher.allOf parts)
  | .separated template separator =>
      match build? template, build? separator with
      | some template, some separator =>
          some (Matcher.map .list (Matcher.separated template separator))
      | _, _ => none
  | .nonterminal part => some part.matcher

def buildAll? : List Plan → Option (List (Matcher Value))
  | [] => some []
  | first :: others =>
      match build? first, buildAll? others with
      | some first, some others => some (first :: others)
      | _, _ => none

end

mutual

def attempt? : Plan → Option (Attempt Value)
  | .literal text => some (Attempt.map .text (Attempt.literal text))
  | .pattern source flags =>
      (Regex.read? source).map fun regex => Attempt.map .text (Matcher.ofRegex regex flags).call
  | .firstOf alternatives => (attemptAll? alternatives).map Attempt.firstOf
  | .allOf parts => (attemptAll? parts).map fun parts => Attempt.map .list (Attempt.allOf parts)
  | .separated template separator =>
      match attempt? template, attempt? separator with
      | some template, some separator =>
          some (Attempt.map .list (Attempt.separated template separator))
      | _, _ => none
  | .nonterminal part => some part.attempt

def attemptAll? : List Plan → Option (List (Attempt Value))
  | [] => some []
  | first :: others =>
      match attempt? first, attemptAll? others with
      | some first, some others => some (first :: others)
      | _, _ => none

end

end Plan

end Rulebook
