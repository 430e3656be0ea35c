import Rulebook.Table.Reader

/-!
Sessions: requests made one after another to a table that changes.
-/

namespace Rulebook.Table

inductive Request where
  /-- Puts the table read from a text in place of the current one. -/
  | read (text : List Char)
  | addText (text : List Char)
  | addRule (rule : Rule)
  | get (name : List Char)
  | dangling
  | rules

inductive Reply where
  | done
  | rule (rule : Rule)
  | rules (rules : List Rule)
  | names (names : List (List Char))

def answer : Request → Action Reply
  | .read text => do
      set (← Table.read text)
      return .done
  | .addText text => do
      enter (← Rule.read text)
      return .done
  | .addRule rule => do
      enter rule
      return .done
  | .get name => return .rule (← (← getThe Table).get name)
  | .dangling => return .names (← getThe Table).dangling
  | .rules => return .rules (← getThe Table).rules

def step (table : Table) (request : Request) : Except Fault Reply × Table :=
  (answer request).on table

end Rulebook.Table
