import Mathlib.Data.List.Nodup
import Rulebook.Proofs.TableReading

/-!
Names that rules refer to. The names without a rule are listed once each, and nothing else is
listed; so the list is empty exactly if every name that some rule refers to is found.
-/

namespace Rulebook.Table

variable {table : Table} {known : List Char → Bool} {names listed : List (List Char)}
  {name : List Char}

/-! ## Collecting -/

theorem mem_collect : name ∈ collect known names listed ↔
    name ∈ listed ∨ name ∈ names ∧ known name = false := by
  fun_induction collect known names listed with
  | case1 => simp
  | case2 first others listed seen ih =>
      -- what is passed over is known or listed, so it is no further name
      have passed : name = first → known name = false → name ∈ listed := by
        rintro rfl unknown
        simpa [unknown] using seen
      rw [ih, List.mem_cons]
      tauto
  | case3 first others listed unseen ih =>
      have unknown : known first = false := by
        simp only [Bool.or_eq_true, not_or, Bool.not_eq_true] at unseen
        exact unseen.1
      have taken : name = first → known name = false := fun same => same ▸ unknown
      rw [ih, List.mem_append, List.mem_singleton, List.mem_cons]
      tauto

theorem nodup_collect (distinct : listed.Nodup) : (collect known names listed).Nodup := by
  fun_induction collect known names listed with
  | case1 => exact distinct
  | case2 first others listed seen ih => exact ih distinct
  | case3 first others listed unseen ih =>
      have new : first ∉ listed := by
        simp only [List.contains_iff_mem, Bool.or_eq_true, not_or] at unseen
        exact unseen.2
      exact ih (by simpa using distinct.concat new)

/-! ## References -/

/-- Some rule refers to the name, at any depth of its expression. -/
def Refers (table : Table) (name : List Char) : Prop :=
  ∃ rule ∈ table.rules, .reference name ∈ rule.expression.walk

theorem referenceName?_eq_some_iff {node : Expr} :
    node.referenceName? = some name ↔ node = .reference name := by
  cases node <;> simp [Expr.referenceName?]

theorem mem_references_iff : name ∈ table.references ↔ table.Refers name := by
  simp [references, Refers, referenceName?_eq_some_iff]

theorem mem_dangling_iff : name ∈ table.dangling ↔ table.Refers name ∧ name ∉ table.names := by
  rw [dangling, mem_collect, mem_references_iff, ← defines_iff]
  simp

theorem nodup_dangling (table : Table) : table.dangling.Nodup := nodup_collect List.nodup_nil

theorem exists_get_iff : (∃ rule, table.get name = .ok rule) ↔ name ∈ table.names := by
  rw [← defines_iff, defines, get]
  cases table.find? name <;> simp

theorem get_of_unknown (unknown : name ∉ table.names) :
    table.get name = .error (.undefinedRule name) := by
  have missed : table.find? name = none := by simpa [← defines_iff, defines] using unknown
  rw [get, missed]

theorem dangling_eq_nil_iff : table.dangling = [] ↔
    ∀ name, table.Refers name → ∃ rule, table.get name = .ok rule := by
  simp only [List.eq_nil_iff_forall_not_mem, mem_dangling_iff, exists_get_iff, not_and, not_not]

end Rulebook.Table
