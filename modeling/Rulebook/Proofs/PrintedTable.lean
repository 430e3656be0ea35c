import Rulebook.Proofs.CommandReport
import Rulebook.Proofs.PrintedTree

/-!
Printed tables. The rules of a file are printed one on a line, each with its name and a colon in
front. Names have no colon and printed trees show where they end, so that the rules, with their
names, their trees and their order, can be told from what is printed.
-/

namespace Rulebook

open Grammar (IsName Canonical WellMade name_before_colon)

/-! ## Rules that were read -/

structure Rule.Printable (rule : Rule) : Prop where
  named : IsName rule.name
  proper : rule.expression.Proper

theorem Grammar.Canonical.proper {tree : Expr} (canonical : Canonical tree) : tree.Proper := by
  rw [Expr.proper_iff_walk]
  intro node member
  have made : WellMade node := canonical node member
  cases node <;> first | rfl | exact made.elim

theorem Grammar.isName_of_accepts {line : List Char} {rule : Rule}
    (accepts : Accepts line (some rule)) : IsName rule.name := by
  cases accepts with
  | rule _ _ longest =>
      obtain ⟨_, ⟨_, _, _, named, _⟩, _⟩ := longest.defined
      exact named

theorem Table.read_printable {text : List Char} {table : Table}
    (read : Table.read text = .ok table) : ∀ rule ∈ table.rules, rule.Printable := by
  intro rule member
  have canonical := Table.read_canonical read rule member
  obtain ⟨rules, holds, _, rfl⟩ := (Table.read_eq_ok_iff (Grammar.lines_iff.mpr rfl)).mp read
  obtain ⟨_, _, accepts⟩ := holds.accepts rule member
  exact ⟨Grammar.isName_of_accepts accepts, canonical.proper⟩

/-! ## Lines -/

namespace CommandLine

variable {rule : Rule} {rules others : List Rule}

theorem line_delimited (printable : rule.Printable) :
    Delimited (fun rule => line rule.display) Rule.Printable rule := by
  intro other printable' after after' same
  simp only [line, Rule.display, List.append_assoc, List.cons_append, List.nil_append] at same
  obtain ⟨names, later⟩ := name_before_colon printable.named printable'.named same
  obtain ⟨expressions, rest⟩ := printable.proper.display_delimited other.expression
    printable'.proper _ _ (List.cons.inj later).2
  refine ⟨?_, (List.cons.inj rest).2⟩
  cases rule
  cases other
  cases names
  cases expressions
  rfl

theorem lines_injective (printable : ∀ rule ∈ rules, rule.Printable)
    (printable' : ∀ rule ∈ others, rule.Printable)
    (same : rules.flatMap (fun rule => line rule.display) =
      others.flatMap fun rule => line rule.display) : rules = others := by
  have ends : NoneAhead (fun rule => line rule.display) Rule.Printable [] := by
    intro rule _ after
    simp [line]
  have each : ∀ rule ∈ rules, rule.Printable ∧
      Delimited (fun rule => line rule.display) Rule.Printable rule :=
    fun rule member => ⟨printable rule member, line_delimited (printable rule member)⟩
  rw [← List.append_nil (rules.flatMap _), ← List.append_nil (others.flatMap _)] at same
  exact (cancel_writings each printable' ends ends same).1

def SameRule (rule other : Rule) : Prop :=
  rule.name = other.name ∧ rule.expression.same other.expression = true

theorem sameRule_iff_eq (printable : rule.Printable) (other : Rule) :
    SameRule rule other ↔ rule = other := by
  rw [SameRule, printable.proper.same_iff_eq]
  cases rule
  cases other
  simp

theorem sameRules_iff_eq (printable : ∀ rule ∈ rules, rule.Printable) (others : List Rule) :
    List.Forall₂ SameRule rules others ↔ rules = others := by
  induction rules generalizing others with
  | nil => simp
  | cons rule rules ih =>
      obtain ⟨first, later⟩ := List.forall_mem_cons.mp printable
      cases others with
      | nil => simp
      | cons other others => simp [sameRule_iff_eq first, ih later]

/-! ## Printing -/

/-- The arguments ask for all rules of a file, and the file holds the table. -/
def PrintsTable (arguments : List (List Char)) (openFile : List Char → Opened)
    (table : Table) : Prop :=
  ∃ invocation bytes text, Invocation.read arguments = .ok invocation ∧
    invocation.command = .ast ∧ invocation.rule = [] ∧
    openFile invocation.file = .ok bytes ∧ Table.textOf bytes = .ok text ∧
    Table.read text = .ok table

variable {arguments arguments' : List (List Char)} {openFile openFile' : List Char → Opened}
  {table table' : Table}

theorem printsTable_encode {invocation : Invocation} {text : List Char}
    (wellFormed : Invocation.read arguments = .ok invocation) (isAst : invocation.command = .ast)
    (all : invocation.rule = []) (opened : openFile invocation.file = .ok (Utf8.encode text))
    (read : Table.read text = .ok table) : PrintsTable arguments openFile table := by
  have normalized : Table.read (Line.normalize text) = .ok table := by
    rw [Table.read_normalize, read]
  exact ⟨invocation, _, _, wellFormed, isAst, all, opened, Table.textOf_encode text, normalized⟩

theorem PrintsTable.out_eq (prints : PrintsTable arguments openFile table) :
    (run arguments openFile).out = table.rules.flatMap fun rule => line rule.display := by
  obtain ⟨invocation, bytes, text, wellFormed, isAst, all, opened, decoded, read⟩ := prints
  simp only [run, wellFormed, opened, Invocation.run, Invocation.load, decoded, read, isAst, all]
  rfl

theorem PrintsTable.printable (prints : PrintsTable arguments openFile table) :
    ∀ rule ∈ table.rules, rule.Printable := by
  obtain ⟨_, _, _, _, _, _, _, _, read⟩ := prints
  exact Table.read_printable read

theorem PrintsTable.out_eq_iff (prints : PrintsTable arguments openFile table)
    (prints' : PrintsTable arguments' openFile' table') :
    (run arguments openFile).out = (run arguments' openFile').out ↔
      List.Forall₂ SameRule table.rules table'.rules := by
  rw [prints.out_eq, prints'.out_eq, sameRules_iff_eq prints.printable]
  constructor
  · exact lines_injective prints.printable prints'.printable
  · intro same
    rw [same]

/-- Whatever follows the printed form of a tree of the seven kinds, the tree and what follows can be
told, and the printed form has no end of a line in it. So all rules of two files are printed alike
exactly if the tables of the files have the same names in the same order, with equal expressions. -/
theorem printed_form_tells_tree :
    (∀ left right : Expr, left.Proper → right.Proper → ∀ after after',
      left.display ++ after = right.display ++ after' → left = right ∧ after = after') ∧
    (∀ tree : Expr, tree.Proper → '\r' ∉ tree.display ∧ '\n' ∉ tree.display) ∧
    ∀ arguments openFile table arguments' openFile' table',
      PrintsTable arguments openFile table → PrintsTable arguments' openFile' table' →
      ((run arguments openFile).out = (run arguments' openFile').out ↔
        List.Forall₂ SameRule table.rules table'.rules) := by
  refine ⟨?_, ?_, ?_⟩
  · intro left right proper proper' after after' same
    exact proper.display_delimited right proper' after after' same
  · intro tree proper
    have unbroken := proper.display_unbroken
    exact ⟨fun member => absurd (unbroken '\r' member) (by decide),
      fun member => absurd (unbroken '\n' member) (by decide)⟩
  · intro arguments openFile table arguments' openFile' table' prints prints'
    exact prints.out_eq_iff prints'

/-- The second file says the same as the first, with no group, another end of the line and a
comment. And a text with both quotes in it is told from a bracket behind it. -/
theorem regrouped_file_printed_alike :
    Table.read "aa: ('b' ^ cc)".toList =
      .ok (Table.ofRules [⟨"aa".toList, .repetition (.text "b".toList) (.reference "cc".toList)⟩]) ∧
    Table.read "aa: 'b'^cc # d\r\n".toList =
      .ok (Table.ofRules [⟨"aa".toList, .repetition (.text "b".toList) (.reference "cc".toList)⟩]) ∧
    (run ["ast".toList, "f".toList] fun _ => .ok (Utf8.encode "aa: ('b' ^ cc)".toList)).out =
      (run ["ast".toList, "g".toList]
        fun _ => .ok (Utf8.encode "aa: 'b'^cc # d\r\n".toList)).out ∧
    ∀ other : Expr, other.Proper → ∀ after,
      (Expr.text ['"', '\'']).display ++ [')'] = other.display ++ after →
        .text ['"', '\''] = other ∧ [')'] = after := by
  obtain ⟨told, _, printed⟩ := printed_form_tells_tree
  have grouped : Table.read "aa: ('b' ^ cc)".toList = .ok (Table.ofRules
      [⟨"aa".toList, .repetition (.text "b".toList) (.reference "cc".toList)⟩]) := rfl
  have plain : Table.read "aa: 'b'^cc # d\r\n".toList = .ok (Table.ofRules
      [⟨"aa".toList, .repetition (.text "b".toList) (.reference "cc".toList)⟩]) := rfl
  have prints (file : List Char) {text : List Char} {table : Table} (isPlain : Plain file)
      (read : Table.read text = .ok table) :
      PrintsTable ["ast".toList, file] (fun _ => .ok (Utf8.encode text)) table :=
    printsTable_encode (read_file .ast isPlain) rfl rfl rfl read
  refine ⟨grouped, plain, ?_, ?_⟩
  · apply (printed _ _ _ _ _ _ (prints "f".toList (by decide) grouped)
      (prints "g".toList (by decide) plain)).mpr
    exact List.Forall₂.cons ⟨rfl, rfl⟩ List.Forall₂.nil
  · intro other proper after same
    exact told _ other (Expr.Proper.text _) proper _ after same

end CommandLine

end Rulebook
