import Rulebook.Rule

/-!
Tables of rules, in the order in which the rules were added. The start is the name of the first
rule.
-/

namespace Rulebook

structure Table where
  rules : List Rule
  start : Option (List Char)

namespace Table

def empty : Table := ⟨[], none⟩

def find? (table : Table) (name : List Char) : Option Rule :=
  table.rules.find? (·.name == name)

def defines (table : Table) (name : List Char) : Bool := (table.find? name).isSome

def names (table : Table) : List (List Char) := table.rules.map (·.name)

/-- What is done to a table. It may fail, and then all that it did to the table before that stays. -/
abbrev Action (α : Type) : Type := ExceptT Fault (StateM Table) α

def Action.on {α : Type} (action : Action α) (table : Table) : Except Fault α × Table :=
  action.run.run table

namespace Action

variable {α β : Type} {table : Table}

@[simp] theorem on_bind (first : Action α) (next : α → Action β) : (first >>= next).on table =
    match first.on table with
    | (.error fault, later) => (.error fault, later)
    | (.ok value, later) => (next value).on later := by
  show ExceptT.bindCont next (first.on table).1 (first.on table).2 = _
  rcases first.on table with ⟨fault | value, later⟩ <;> rfl

@[simp] theorem on_pure (value : α) : (pure value : Action α).on table = (.ok value, table) := rfl

@[simp] theorem on_throw (fault : Fault) :
    (throw fault : Action α).on table = (.error fault, table) := rfl

@[simp] theorem on_getThe : (getThe Table : Action Table).on table = (.ok table, table) := rfl

@[simp] theorem on_set (other : Table) :
    (set other : Action PUnit).on table = (.ok ⟨⟩, other) := rfl

@[simp] theorem on_modify (change : Table → Table) :
    (modify change : Action PUnit).on table = (.ok ⟨⟩, change table) := rfl

@[simp] theorem on_lift (outcome : Except Fault α) :
    (liftM outcome : Action α).on table = (outcome, table) := rfl

end Action

def enter (rule : Rule) : Action Unit := do
  if (← getThe Table).defines rule.name then
    throw (.duplicateRule rule.name)
  modify fun table => { table with rules := table.rules ++ [rule] }
  if (← getThe Table).start.isNone then
    modify fun table => { table with start := some rule.name }

theorem enter_of_defines {table : Table} {rule : Rule} (known : table.defines rule.name = true) :
    (enter rule).on table = (.error (.duplicateRule rule.name), table) := by
  simp only [enter, Action.on_bind, Action.on_getThe, known, if_true, Action.on_throw]

theorem enter_of_new {table : Table} {rule : Rule} (new : table.defines rule.name = false) :
    (enter rule).on table =
      (.ok (), ⟨table.rules ++ [rule], some (table.start.getD rule.name)⟩) := by
  obtain ⟨rules, start⟩ := table
  cases start with
  | none =>
      simp only [enter, Action.on_bind, Action.on_getThe, new, Bool.false_eq_true, if_false,
        Action.on_modify, Option.isNone_none, if_true, Option.getD_none]
  | some name =>
      simp only [enter, Action.on_bind, Action.on_getThe, new, Bool.false_eq_true, if_false,
        Action.on_modify, Option.isNone_some, Action.on_pure, Option.getD_some]

def add (table : Table) (rule : Rule) : Except Fault Table :=
  match (enter rule).on table with
  | (.error fault, _) => .error fault
  | (.ok (), longer) => .ok longer

def get (table : Table) (name : List Char) : Except Fault Rule :=
  match table.find? name with
  | none => .error (.undefinedRule name)
  | some rule => .ok rule

def collect (known : List Char → Bool) : List (List Char) → List (List Char) → List (List Char)
  | [], listed => listed
  | name :: others, listed =>
      if known name || listed.contains name then collect known others listed
      else collect known others (listed ++ [name])

def references (table : Table) : List (List Char) :=
  table.rules.flatMap fun rule => rule.expression.walk.filterMap Expr.referenceName?

/-- Names that some rule refers to and no rule has, in the order in which they are first seen. -/
def dangling (table : Table) : List (List Char) :=
  collect table.defines table.references []

end Table

end Rulebook
