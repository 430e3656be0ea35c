import Rulebook.Expr.Display
import Rulebook.Proofs.DelimitedText
import Rulebook.Proofs.ProperTree

/-!
Printed trees. The first two letters tell the kind of a node, and behind them its parts are written
one after the other, each of which shows where it ends. So a proper tree can be told from whatever
follows its printed form, which takes no more than one line.
-/

namespace Rulebook.Expr

open Grammar (Unbroken unbroken_append_iff)

variable {tree left right : Expr}

theorem displayAll_eq_map (items : List Expr) : displayAll items = items.map display := by
  induction items with
  | nil => rfl
  | cons first others ih => rw [displayAll, ih, List.map_cons]

/-! ## Kinds -/

def initials : Expr → List Char
  | .text _ => ['T', 'e']
  | .pattern _ _ _ => ['P', 'a']
  | .reference _ => ['R', 'u']
  | .repetition _ _ => ['R', 'e']
  | .sequence _ => ['S', 'e']
  | .union _ => ['U', 'n']
  | .group _ => ['G', 'r']
  | _ => []

theorem Proper.take_display (proper : tree.Proper) (rest : List Char) :
    (tree.display ++ rest).take 2 = tree.initials := by
  cases proper <;> rfl

theorem Proper.initials_eq (proper : left.Proper) (proper' : right.Proper)
    {after after' : List Char} (same : left.display ++ after = right.display ++ after') :
    left.initials = right.initials := by
  rw [← proper.take_display after, ← proper'.take_display after', same]

theorem noneAhead_parenthesis (after : List Char) : NoneAhead display Proper (')' :: after) := by
  intro tree proper rest same
  have first : (tree.display ++ rest).head? = some ')' := congrArg List.head? same
  cases proper <;> cases first

theorem displayFlag_delimited (value : Bool) : Delimited displayFlag (fun _ => True) value := by
  intro other _ after after' same
  cases value with
  | true =>
      cases other with
      | true => exact ⟨rfl, List.append_cancel_left same⟩
      | false => simp [displayFlag] at same
  | false =>
      cases other with
      | true => simp [displayFlag] at same
      | false => exact ⟨rfl, List.append_cancel_left same⟩

/-! ## Trees -/

def heading : Chain → List Char
  | .sequence => "Sequence(items=".toList
  | .union => "Union(items=".toList

theorem display_node (kind : Chain) (items : List Expr) : display (kind.node items) =
    heading kind ++ Listed.tuple (displayAll items) ++ [')'] := by
  cases kind <;> rfl

theorem node_of_initials {kind : Chain} {items : List Expr} (proper : right.Proper)
    (kinds : (kind.node items).initials = right.initials) :
    ∃ others, right = kind.node others ∧ ∀ item ∈ others, item.Proper := by
  cases proper with
  | sequence each =>
      cases kind with
      | sequence => exact ⟨_, rfl, each⟩
      | union => simp [Chain.node, initials] at kinds
  | union each =>
      cases kind with
      | sequence => simp [Chain.node, initials] at kinds
      | union => exact ⟨_, rfl, each⟩
  | _ => cases kind <;> simp [Chain.node, initials] at kinds

theorem node_delimited (kind : Chain) {items : List Expr}
    (each : ∀ item ∈ items, item.Proper ∧ Delimited display Proper item) :
    Delimited display Proper (kind.node items) := by
  intro other proper' after after' same
  have proper := (proper_node_iff kind).mpr fun item member => (each item member).1
  obtain ⟨others, rfl, valids⟩ := node_of_initials proper' (proper.initials_eq proper' same)
  have told := Listed.tuple_delimited each noneAhead_parenthesis
  simp only [display_node, displayAll_eq_map, List.append_assoc,
    List.append_cancel_left_eq] at same
  obtain ⟨rfl, later⟩ := told others valids _ _ same
  exact ⟨rfl, List.append_cancel_left later⟩

/-- A printed tree is told from what follows it, and no two trees are printed alike. -/
theorem Proper.display_delimited (proper : tree.Proper) : Delimited display Proper tree := by
  -- Each kind has initials of its own, so what is printed alike is of one kind, and its parts are
  -- taken off one by one, each told from what is printed behind it.
  induction proper with
  | text value =>
      intro other proper' after after' same
      have kinds := (Proper.text value).initials_eq proper' same
      cases proper' with
      | text value' =>
          simp only [display_text, List.append_assoc, List.append_cancel_left_eq] at same
          obtain ⟨rfl, later⟩ := Quoted.encode_delimited value value' trivial _ _ same
          exact ⟨rfl, List.append_cancel_left later⟩
      | _ => simp [initials] at kinds
  | pattern source ignoreCase dotAll =>
      intro other proper' after after' same
      have kinds := (Proper.pattern source ignoreCase dotAll).initials_eq proper' same
      cases proper' with
      | pattern source' ignoreCase' dotAll' =>
          simp only [display_pattern, List.append_assoc, List.append_cancel_left_eq] at same
          obtain ⟨rfl, flags⟩ := Quoted.encode_delimited source source' trivial _ _ same
          rw [List.append_cancel_left_eq] at flags
          obtain ⟨rfl, flag⟩ := displayFlag_delimited ignoreCase ignoreCase' trivial _ _ flags
          rw [List.append_cancel_left_eq] at flag
          obtain ⟨rfl, later⟩ := displayFlag_delimited dotAll dotAll' trivial _ _ flag
          exact ⟨rfl, List.append_cancel_left later⟩
      | _ => simp [initials] at kinds
  | reference name =>
      intro other proper' after after' same
      have kinds := (Proper.reference name).initials_eq proper' same
      cases proper' with
      | reference name' =>
          simp only [display_reference, List.append_assoc, List.append_cancel_left_eq] at same
          obtain ⟨rfl, later⟩ := Quoted.encode_delimited name name' trivial _ _ same
          exact ⟨rfl, List.append_cancel_left later⟩
      | _ => simp [initials] at kinds
  | repetition template separator ihTemplate ihSeparator =>
      intro other proper' after after' same
      have kinds := (Proper.repetition template separator).initials_eq proper' same
      cases proper' with
      | repetition template' separator' =>
          simp only [display_repetition, List.append_assoc, List.append_cancel_left_eq] at same
          obtain ⟨rfl, second⟩ := ihTemplate _ template' _ _ same
          rw [List.append_cancel_left_eq] at second
          obtain ⟨rfl, later⟩ := ihSeparator _ separator' _ _ second
          exact ⟨rfl, List.append_cancel_left later⟩
      | _ => simp [initials] at kinds
  | sequence each ih =>
      exact node_delimited .sequence fun item member => ⟨each item member, ih item member⟩
  | union each ih =>
      exact node_delimited .union fun item member => ⟨each item member, ih item member⟩
  | group inside ih =>
      intro other proper' after after' same
      have kinds := (Proper.group inside).initials_eq proper' same
      cases proper' with
      | group inside' =>
          simp only [display_group, List.append_assoc, List.append_cancel_left_eq] at same
          obtain ⟨rfl, later⟩ := ih _ inside' _ _ same
          exact ⟨rfl, List.append_cancel_left later⟩
      | _ => simp [initials] at kinds

/-! ## Lines -/

theorem displayFlag_unbroken (value : Bool) : Unbroken (displayFlag value) := by
  cases value <;> decide

theorem Proper.display_unbroken (proper : tree.Proper) : Unbroken tree.display := by
  induction proper with
  | text value =>
      simp only [display_text, unbroken_append_iff]
      exact ⟨⟨by decide, Quoted.encode_unbroken value⟩, by decide⟩
  | pattern source ignoreCase dotAll =>
      simp only [display_pattern, unbroken_append_iff]
      exact ⟨⟨⟨⟨⟨⟨by decide, Quoted.encode_unbroken source⟩, by decide⟩,
        displayFlag_unbroken ignoreCase⟩, by decide⟩, displayFlag_unbroken dotAll⟩, by decide⟩
  | reference name =>
      simp only [display_reference, unbroken_append_iff]
      exact ⟨⟨by decide, Quoted.encode_unbroken name⟩, by decide⟩
  | repetition _ _ ihTemplate ihSeparator =>
      simp only [display_repetition, unbroken_append_iff]
      exact ⟨⟨⟨⟨by decide, ihTemplate⟩, by decide⟩, ihSeparator⟩, by decide⟩
  | sequence _ ih =>
      simp only [display_sequence, displayAll_eq_map, unbroken_append_iff]
      exact ⟨⟨by decide, Listed.tuple_unbroken (by simpa using ih)⟩, by decide⟩
  | union _ ih =>
      simp only [display_union, displayAll_eq_map, unbroken_append_iff]
      exact ⟨⟨by decide, Listed.tuple_unbroken (by simpa using ih)⟩, by decide⟩
  | group _ ih =>
      simp only [display_group, unbroken_append_iff]
      exact ⟨⟨by decide, ih⟩, by decide⟩

end Rulebook.Expr
