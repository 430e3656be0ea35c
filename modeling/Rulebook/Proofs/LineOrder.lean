import Mathlib.Data.List.Perm.Basic
import Rulebook.Proofs.SessionHistory
import Rulebook.Proofs.DanglingNames

/-!
The order of lines. A line is read without regard to where it stands, and whether all names are
different does not depend on the order of the rules. So lines in another order are read if they are
read at all, and give the same rules in another order: each name is found or missed as before, and
the same names are dangling.
-/

namespace Rulebook.Table

open Grammar

variable {lines lines' : List (List Char)} {text text' : List Char} {rules : List Rule}
  {table table' : Table}

/-! ## Lines in another order -/

theorem lines_joined (unbroken : ∀ line ∈ lines, Unbroken line) (filled : lines ≠ []) :
    Lines (['\n'].intercalate lines) lines := by
  induction lines with
  | nil => exact absurd rfl filled
  | cons line others ih =>
      obtain ⟨inLine, later⟩ := List.forall_mem_cons.mp unbroken
      cases others with
      | nil => simpa using Lines.last inLine
      | cons next others =>
          simpa [List.intercalate_cons_cons] using
            Lines.ended inLine LineEnd.lineFeed (by simp) (ih later (by simp))

theorem Holds.permuted (holds : Holds lines rules) (permuted : lines.Perm lines') :
    ∃ rules', Holds lines' rules' ∧ rules.Perm rules' := by
  obtain ⟨found, kinds, rfl⟩ := holds
  obtain ⟨found', kinds', moved⟩ := List.perm_comp_forall₂ permuted.symm kinds
  exact ⟨found'.reduceOption, ⟨found', kinds', rfl⟩, moved.symm.filterMap id⟩

theorem read_permuted (cut : Lines text lines) (cut' : Lines text' lines')
    (permuted : lines.Perm lines') (read : Table.read text = .ok table) :
    ∃ table', Table.read text' = .ok table' ∧ table.rules.Perm table'.rules := by
  obtain ⟨rules, holds, distinct, rfl⟩ := (read_eq_ok_iff cut).mp read
  obtain ⟨rules', holds', moved⟩ := holds.permuted permuted
  have distinct' : (ofRules rules').names.Nodup := (moved.map Rule.name).nodup distinct
  exact ⟨ofRules rules', read_of_holds cut' holds' distinct', moved⟩

/-! ## Rules in another order -/

theorem names_permuted (permuted : table.rules.Perm table'.rules) :
    table.names.Perm table'.names := permuted.map Rule.name

theorem WellKept.get_permuted (kept : WellKept table) (kept' : WellKept table')
    (permuted : table.rules.Perm table'.rules) (name : List Char) :
    table.get name = table'.get name := by
  by_cases known : name ∈ table.names
  · obtain ⟨rule, found⟩ := exists_get_iff.mpr known
    obtain ⟨member, named⟩ := kept.get_eq_ok_iff.mp found
    rw [found, kept'.get_eq_ok_iff.mpr ⟨permuted.mem_iff.mp member, named⟩]
  · have unknown : name ∉ table'.names := mt (names_permuted permuted).mem_iff.mpr known
    rw [get_of_unknown known, get_of_unknown unknown]

theorem dangling_permuted (permuted : table.rules.Perm table'.rules) :
    table.dangling.Perm table'.dangling := by
  rw [List.perm_ext_iff_of_nodup table.nodup_dangling table'.nodup_dangling]
  intro name
  simp only [mem_dangling_iff, Refers, permuted.mem_iff, (names_permuted permuted).mem_iff]

/-- Of the same lines in another order, joined by line feeds, all can be read or none. The rules are
the same in another order, so that each name leads to the same rule or the same complaint, and the
names without a rule are the same in another order. -/
theorem permuted_lines_read_alike (unbroken : ∀ line ∈ lines, Unbroken line)
    (permuted : lines.Perm lines') :
    ((∃ table, Table.read (['\n'].intercalate lines) = .ok table) ↔
      ∃ table, Table.read (['\n'].intercalate lines') = .ok table) ∧
    ∀ table table', Table.read (['\n'].intercalate lines) = .ok table →
      Table.read (['\n'].intercalate lines') = .ok table' →
      table.rules.Perm table'.rules ∧ (∀ name, table.get name = table'.get name) ∧
        table.dangling.Perm table'.dangling := by
  by_cases filled : lines = []
  · -- no lines at all are the empty text, in any order
    subst filled
    obtain rfl := permuted.nil_eq
    refine ⟨Iff.rfl, fun table table' read read' => ?_⟩
    cases read.symm.trans read'
    exact ⟨List.Perm.refl _, fun _ => rfl, List.Perm.refl _⟩
  · have cut := lines_joined unbroken filled
    have unbroken' : ∀ line ∈ lines', Unbroken line :=
      fun line member => unbroken line (permuted.mem_iff.mpr member)
    have cut' := lines_joined unbroken' fun none => filled (none ▸ permuted).eq_nil
    constructor
    · constructor
      · rintro ⟨table, read⟩
        obtain ⟨table', read', _⟩ := read_permuted cut cut' permuted read
        exact ⟨table', read'⟩
      · rintro ⟨table, read⟩
        obtain ⟨table', read', _⟩ := read_permuted cut' cut permuted.symm read
        exact ⟨table', read'⟩
    · intro table table' read read'
      obtain ⟨other, again, moved⟩ := read_permuted cut cut' permuted read
      cases again.symm.trans read'
      exact ⟨moved, (read_wellKept read).get_permuted (read_wellKept read') moved,
        dangling_permuted moved⟩

/-- The second text has the lines of the first in reverse, so that the start is another rule and the
dangling names change places. -/
theorem reversed_lines_read_alike :
    ["aa: xx".toList, "bb: yy^aa".toList, "# c".toList].Perm
      ["# c".toList, "bb: yy^aa".toList, "aa: xx".toList] ∧
    ∃ table table', Table.read "aa: xx\nbb: yy^aa\n# c".toList = .ok table ∧
      Table.read "# c\nbb: yy^aa\naa: xx".toList = .ok table' ∧
      table.dangling = ["xx".toList, "yy".toList] ∧
      table'.dangling = ["yy".toList, "xx".toList] ∧
      (∀ name, table.get name = table'.get name) ∧ table.dangling.Perm table'.dangling := by
  have permuted : ["aa: xx".toList, "bb: yy^aa".toList, "# c".toList].Perm
      ["# c".toList, "bb: yy^aa".toList, "aa: xx".toList] := by decide
  let first : Rule := ⟨"aa".toList, .reference "xx".toList⟩
  let second : Rule :=
    ⟨"bb".toList, .repetition (.reference "yy".toList) (.reference "aa".toList)⟩
  obtain ⟨_, alike⟩ := permuted_lines_read_alike (by decide) permuted
  obtain ⟨_, found, dangling⟩ :=
    alike (ofRules [first, second]) (ofRules [second, first]) rfl rfl
  exact ⟨permuted, _, _, rfl, rfl, rfl, rfl, found, dangling⟩

end Rulebook.Table
