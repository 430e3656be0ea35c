import Rulebook.Proofs.PositionDiscipline

/-!
What readers see of a text. A reader of rule definitions looks at nothing before its position, so
more text in front moves the place where it stops and changes nothing else. A position that counts
from the end of the text is as good as the index that it stands for. Only comments are different
there: the slice in which their hash would have to be is empty one character before the end.
-/

namespace Rulebook

namespace Matcher

variable {α β : Type}

/-! ## Text in front -/

def shift (count : Nat) (found : Option (α × Int)) : Option (α × Int) :=
  found.map fun (value, stop) => (value, count + stop)

/-- Text in front of another one does not change what is found in that one. -/
def Local (matcher : Matcher α) : Prop :=
  ∀ (before text : List Char) (pos : Int), 0 ≤ pos → pos ≤ text.length →
    matcher (before ++ text) (before.length + pos) = shift before.length (matcher text pos)

theorem resolve_append (before text : List Char) {pos : Int} (start : 0 ≤ pos) :
    resolve (before ++ text).length (before.length + pos) =
      before.length + resolve text.length pos := by
  rw [List.length_append]
  unfold resolve
  split <;> split <;> omega

theorem slice_append (before text : List Char) {start stop : Int} (first : 0 ≤ start)
    (last : 0 ≤ stop) :
    slice (before ++ text) (before.length + start) (before.length + stop) =
      slice text start stop := by
  simp only [slice, resolve_append _ _ first, resolve_append _ _ last,
    List.take_length_add_append, List.drop_length_add_append]

theorem literal_local (word : List Char) : Local (literal word) := by
  intro before text pos start _
  simp only [literal, Int.add_assoc]
  rw [slice_append before text start (by omega)]
  split
  · rfl
  · rfl

theorem token_local (extent : List Char → Option Nat) : Local (token extent) := by
  intro before text pos start _
  simp only [token, anchored, resolve_append before text start, List.drop_length_add_append]
  cases extent (text.drop (resolve text.length pos)) with
  | none => rfl
  | some count => simp [shift, Int.add_assoc]

theorem Local.map {matcher : Matcher α} (seen : Local matcher) (f : α → β) :
    Local (Matcher.map f matcher) := by
  intro before text pos start inside
  simp only [Matcher.map, seen before text pos start inside, shift, Option.map_map]
  rfl

theorem Local.both {left : Matcher α} {right : Matcher β} (first : Local left)
    (orderly : Orderly left) (second : Local right) : Local (Matcher.both left right) := by
  intro before text pos start inside
  simp only [Matcher.both, first before text pos start inside]
  cases taken : left text pos with
  | none => rfl
  | some found =>
      have moved := (orderly text pos found.1 found.2 taken).inside inside
      have next := second before text found.2 (Int.le_trans start moved.1) moved.2
      simp only [shift, Option.map_some, next]
      cases right text found.2 <;> rfl

theorem Local.firstOf {alternatives : List (Matcher α)}
    (each : ∀ matcher ∈ alternatives, Local matcher) : Local (Matcher.firstOf alternatives) := by
  intro before text pos start inside
  induction alternatives with
  | nil => rfl
  | cons first others ih =>
      have front := each first List.mem_cons_self before text pos start inside
      have later := ih fun matcher member => each matcher (List.mem_cons_of_mem first member)
      simp only [Matcher.firstOf, front, later]
      cases first text pos <;> rfl

theorem local_composes : Composes fun matcher => Orderly matcher ∧ Local matcher where
  literal word := ⟨literal_orderly word, literal_local word⟩
  token takes := ⟨token_orderly takes.within, token_local _⟩
  map f known := ⟨known.1.map f, known.2.map f⟩
  both first second := ⟨first.1.both second.1, first.2.both first.1 second.2⟩
  firstOf each := ⟨Orderly.firstOf fun matcher member => (each matcher member).1,
    Local.firstOf fun matcher member => (each matcher member).2⟩

/-! ## Positions counted from the end -/

/-- A negative position in the text does what the index does that it stands for. -/
def CountsBack (source : List Char) (matcher : Matcher α) : Prop :=
  ∀ pos : Int, -(source.length : Int) ≤ pos → pos < 0 →
    matcher source pos = matcher source (pos + source.length)

variable {source : List Char}

theorem resolve_countsBack {length : Nat} {pos : Int} (least : -(length : Int) ≤ pos)
    (negative : pos < 0) : resolve length (pos + length) = resolve length pos := by
  rw [resolve, resolve, if_pos negative, if_neg (by omega)]
  omega

theorem token_countsBack (extent : List Char → Option Nat) :
    CountsBack source (token extent) := by
  intro pos least negative
  simp only [token, anchored, resolve_countsBack least negative]

theorem CountsBack.map {matcher : Matcher α} (back : CountsBack source matcher) (f : α → β) :
    CountsBack source (Matcher.map f matcher) := by
  intro pos least negative
  simp only [Matcher.map, back pos least negative]

theorem CountsBack.both {left : Matcher α} (back : CountsBack source left) (right : Matcher β) :
    CountsBack source (Matcher.both left right) := by
  intro pos least negative
  simp only [Matcher.both, back pos least negative]

theorem CountsBack.firstOf {alternatives : List (Matcher α)}
    (each : ∀ matcher ∈ alternatives, CountsBack source matcher) :
    CountsBack source (Matcher.firstOf alternatives) := by
  intro pos least negative
  induction alternatives with
  | nil => rfl
  | cons first others ih =>
      have front := each first List.mem_cons_self pos least negative
      have later := ih fun matcher member => each matcher (List.mem_cons_of_mem first member)
      simp only [Matcher.firstOf, front, later]

theorem literal_countsBack (word : List Char) {pos : Int} (least : -(source.length : Int) ≤ pos)
    (ends : pos + word.length < 0) :
    literal word source (pos + source.length) =
      (literal word source pos).map fun (value, stop) => (value, stop + source.length) := by
  have start : resolve source.length (pos + source.length) = resolve source.length pos :=
    resolve_countsBack least (by omega)
  have stop : pos + source.length + word.length = pos + word.length + source.length := by omega
  have final : resolve source.length (pos + word.length + source.length) =
      resolve source.length (pos + word.length) := resolve_countsBack (by omega) ends
  have same : slice source (pos + source.length) (pos + word.length + source.length) =
      slice source pos (pos + word.length) := by rw [slice, slice, start, final]
  simp only [literal, stop, same]
  split
  · rfl
  · rfl

/-- The last character of the text, as a position counted from the end has it, is no literal: the
slice that starts there and takes one character ends at the start of the text. -/
theorem literal_last (char : Char) : literal [char] source (-1) = none := by
  have empty := slice_length source (-1) 0
  have front : resolve source.length 0 = 0 := resolve_natCast source.length 0 (Nat.zero_le _)
  rw [front, Nat.zero_sub] at empty
  have nothing : slice source (-1) 0 = [] := List.eq_nil_of_length_eq_zero empty
  simp [literal, nothing]

/-- A character with a token behind it that needs more text. Where only the character could still
stand, neither way of counting finds both. -/
theorem mark_countsBack (char : Char) (extent : List Char → Option Nat) (ends : extent [] = none)
    (right : Matcher β) :
    CountsBack source (both (literal [char]) (both (token extent) right)) := by
  intro pos least negative
  -- At the last character, counted from the end, the slice up to position 0 is empty; counted from
  -- the front, the character is found but no token behind it. Elsewhere both ways agree throughout.
  by_cases last : pos = -1
  · subst last
    have missing : token extent source source.length = none := by
      simp [token, anchored, resolve_natCast, ends]
    simp only [Matcher.both, literal_last]
    cases taken : literal [char] source (-1 + source.length) with
    | none => rfl
    | some found =>
        have stop : found.2 = source.length := by
          simp only [literal, Option.ite_none_right_eq_some, Option.some.injEq] at taken
          rw [← taken.2]
          simp only [List.length_singleton]
          omega
        simp only [stop, missing]
  · have before : pos + ([char].length : Nat) < 0 := by
      simp only [List.length_singleton]
      omega
    simp only [Matcher.both, literal_countsBack [char] least before]
    cases taken : literal [char] source pos with
    | none => rfl
    | some found =>
        have stop : found.2 = pos + ([char].length : Nat) := by
          simp only [literal, Option.ite_none_right_eq_some, Option.some.injEq] at taken
          rw [← taken.2]
        rw [← stop] at before
        have next := @token_countsBack source extent found.2 (by omega) before
        simp only [Option.map_some, next]

end Matcher

/-! ## Readers -/

namespace Reader

open Matcher (Local CountsBack literal token local_composes token_countsBack mark_countsBack)
open Grammar (Level Part itemOf)

theorem ofDepth_eq_above (depth : Nat) : Tiers.ofDepth depth = (Tiers.ofDepth 0).above depth := by
  induction depth with
  | zero => rfl
  | succ depth ih => exact congrArg Tiers.over ih

/-- A reader allows itself as many levels as its text has characters. With more text in front there
are more levels, which the text alone has no use for. -/
theorem part_local (part : Part) : Local part.matcher := by
  intro before text pos start inside
  have shorter : text.length < (before ++ text).length + 1 := by
    rw [List.length_append]
    omega
  have alone := partOf_above (Tiers.ofDepth 0) part shorter pos
  rw [← ofDepth_eq_above] at alone
  rw [← partOf_tiersFor, ← alone]
  exact (local_composes.partOf _ part).2 before text pos start inside

variable {source : List Char}

theorem text_countsBack : CountsBack source text :=
  (mark_countsBack '\'' (Token.body '\'') rfl _).map _

theorem pattern_countsBack : CountsBack source pattern :=
  (mark_countsBack '/' (Token.body '/') rfl _).map _

theorem reference_countsBack : CountsBack source reference := (token_countsBack _).map _

theorem groupOf_countsBack (expression : Matcher Expr) :
    CountsBack source (groupOf expression) := ((token_countsBack _).both _).map _

theorem operation_countsBack (level : Level) {operand : Matcher Expr}
    (first : CountsBack source operand) (item : Matcher Expr) :
    CountsBack source (level.reader operand item) := (first.both _).map _

theorem pair_countsBack {first second : Matcher Expr} (left : CountsBack source first)
    (right : CountsBack source second) : CountsBack source (Matcher.firstOf [first, second]) := by
  apply CountsBack.firstOf
  simp [left, right]

theorem over_countsBack (inner : Tiers) : CountsBack source inner.over.atom ∧
    CountsBack source inner.over.factor ∧ CountsBack source inner.over.term ∧
    CountsBack source inner.over.expression := by
  have atom : CountsBack source inner.over.atom := by
    apply CountsBack.firstOf
    simp [text_countsBack, pattern_countsBack, reference_countsBack, groupOf_countsBack]
  have factor : CountsBack source inner.over.factor :=
    pair_countsBack (operation_countsBack .repetition atom _) atom
  have term : CountsBack source inner.over.term :=
    pair_countsBack (operation_countsBack .sequence factor _) factor
  exact ⟨atom, factor, term, pair_countsBack (operation_countsBack .union term _) term⟩

theorem part_countsBack (part : Part) (source : List Char) : CountsBack source part.matcher := by
  intro pos least negative
  rw [← partOf_tiersFor]
  -- the readers for a text stand one level over others, of which nothing is asked here
  obtain ⟨atom, factor, term, expression⟩ :=
    @over_countsBack source (Tiers.ofDepth source.length)
  have whole : CountsBack source (partOf (tiersFor source) part) := by
    cases part with
    | text => exact text_countsBack
    | pattern => exact pattern_countsBack
    | reference => exact reference_countsBack
    | group => exact groupOf_countsBack _
    | atom => exact atom
    | item level =>
        cases level with
        | repetition => exact factor
        | sequence => exact term
        | union => exact expression
    | operation level =>
        cases level with
        | repetition => exact operation_countsBack .repetition atom _
        | sequence => exact operation_countsBack .sequence factor _
        | union => exact operation_countsBack .union term _
  exact whole pos least negative

end Reader

/-! ## Rules -/

open Matcher (Local CountsBack)

theorem Rule.definition_local : Local Rule.definition := by
  have expression := Reader.part_orderly (.item .union)
  exact (Matcher.local_composes.written ⟨expression, Reader.part_local (.item .union)⟩).2.map _

theorem Rule.definition_countsBack (source : List Char) : CountsBack source Rule.definition :=
  (((Matcher.token_countsBack _).both _).map _).map _

theorem nonterminal_local (part : Nonterminal) : Local part.matcher := by
  induction part using Nonterminal.cases_part with
  | name => exact Matcher.local_composes.name.2.map _
  | rule =>
      intro before text pos start inside
      simp only [Nonterminal.matcher, Nonterminal.ruleNode,
        Rule.definition_local before text pos start inside]
      cases Rule.definition text pos with
      | none => rfl
      | some found =>
          obtain ⟨result, stop⟩ := found
          cases result <;> rfl
  | comment => exact Matcher.local_composes.comment.2.map fun _ => Value.node .comment
  | expression nonterminal part same =>
      rw [same]
      exact (Reader.part_local part).map Value.node

theorem nonterminal_countsBack (source : List Char) (part : Nonterminal)
    (noComment : part ≠ .comment) : CountsBack source part.matcher := by
  induction part using Nonterminal.cases_part with
  | name => exact (Matcher.token_countsBack _).map _
  | rule =>
      intro pos least negative
      simp only [Nonterminal.matcher, Nonterminal.ruleNode,
        Rule.definition_countsBack source pos least negative]
  | comment => exact absurd rfl noComment
  | expression nonterminal part same =>
      rw [same]
      exact (Reader.part_countsBack part source).map Value.node

/-! ## What is seen -/

variable {α : Type}

/-- From an index of the text on, the matcher does what it does from the start of the rest, and
stops as much further. -/
def ReadsRest (matcher : Matcher α) (source : List Char) : Prop :=
  ∀ pos : Nat, pos ≤ source.length →
    matcher.call source pos =
      ((matcher.call (source.drop pos) 0).1, pos + (matcher.call (source.drop pos) 0).2)

/-- From a position counted from the end, the matcher does what it does from the index, and where it
succeeds it stops at the same index. -/
def ReadsFromEnd (matcher : Matcher α) (source : List Char) : Prop :=
  ∀ pos : Int, -(source.length : Int) ≤ pos → pos < 0 →
    (matcher.call source pos).1 = (matcher.call source (pos + source.length)).1 ∧
    ∀ value stop, matcher.call source pos = (some value, stop) →
      0 ≤ stop ∧ matcher.call source (pos + source.length) = (some value, stop)

theorem Matcher.Local.readsRest {matcher : Matcher α} (seen : Local matcher)
    (source : List Char) : ReadsRest matcher source := by
  intro pos inside
  have same := seen (source.take pos) (source.drop pos) 0 (Int.le_refl 0) (by simp)
  rw [List.take_append_drop, List.length_take_of_le inside, Int.add_zero] at same
  simp only [Matcher.call, same]
  cases matcher (source.drop pos) 0 <;> simp [Matcher.shift]

theorem Matcher.CountsBack.readsFromEnd {matcher : Matcher α} {source : List Char}
    (back : CountsBack source matcher) (orderly : Matcher.Orderly matcher) :
    ReadsFromEnd matcher source := by
  intro pos least negative
  have same := back pos least negative
  simp only [Matcher.call, same]
  cases taken : matcher source (pos + source.length) with
  | none => simp
  | some found =>
      have moved := (orderly source _ found.1 found.2 taken).inside (by omega)
      refine ⟨rfl, ?_⟩
      rintro value stop result
      cases result
      exact ⟨by omega, rfl⟩

/-- Every reader depends on the text behind its position alone, and every reader but that of
comments takes a position counted from the end for the index that it stands for. -/
theorem readers_see_rest (source : List Char) :
    (∀ part : Nonterminal, ReadsRest part.matcher source ∧
      (part ≠ .comment → ReadsFromEnd part.matcher source)) ∧
    ReadsRest Rule.definition source ∧ ReadsFromEnd Rule.definition source := by
  refine ⟨fun part => ⟨(nonterminal_local part).readsRest source, fun noComment => ?_⟩,
    Rule.definition_local.readsRest source, ?_⟩
  · exact (nonterminal_countsBack source part noComment).readsFromEnd (nonterminal_orderly part)
  · exact (Rule.definition_countsBack source).readsFromEnd (Rule.written_orderly.map _)

/-- A hash is no comment to a reader that is sent to the last character. -/
example : Reader.comment ['#'] (-1) = none ∧ Reader.comment ['#'] 0 = some ((), 1) := by decide

end Rulebook
