import Rulebook.Proofs.Advance

/-!
How deep readers go. A reader calls itself only behind a mark, a blank or a parenthesis that it has
read, so each call starts further on in the text, and one more level than the text has characters is
never asked for anything. What stands below it may be anything: the readers are those of the
recursion that no depth ends.
-/

namespace Rulebook.Reader

open Matcher (map both firstOf token map_eq_some both_eq_some Orderly orderly_composes Takes)
open Grammar (Level Part itemOf)

variable {α β : Type} {source : List Char}

/-- The tiers that stand the given number of levels above others. -/
def Tiers.above (bottom : Tiers) : Nat → Tiers
  | 0 => bottom
  | depth + 1 => (bottom.above depth).over

theorem above_add (bottom : Tiers) (more depth : Nat) :
    bottom.above (more + depth) = (bottom.above more).above depth := by
  induction depth with
  | zero => rfl
  | succ depth ih => rw [← Nat.add_assoc, Tiers.above, ih, Tiers.above]

/-! ## Matchers that agree from some place of the text on -/

/-- The matchers do the same wherever the position stands for the index or a later one. -/
def AgreeFrom (source : List Char) (start : Nat) (left right : Matcher α) : Prop :=
  ∀ pos, start ≤ resolve source.length pos → left source pos = right source pos

/-- Every match from the index or behind it leads to the later index or behind it. -/
def LeadsTo (source : List Char) (start later : Nat) (matcher : Matcher α) : Prop :=
  ∀ pos value mid, start ≤ resolve source.length pos →
    matcher source pos = some (value, mid) → later ≤ resolve source.length mid

namespace AgreeFrom

variable {start later : Nat}

theorem refl (matcher : Matcher α) : AgreeFrom source start matcher matcher := fun _ _ => rfl

theorem map {left right : Matcher α} (agree : AgreeFrom source start left right) (f : α → β) :
    AgreeFrom source start (Matcher.map f left) (Matcher.map f right) := by
  intro pos inside
  simp only [Matcher.map, agree pos inside]

theorem mono {left right : Matcher α} (agree : AgreeFrom source start left right)
    (more : start ≤ later) : AgreeFrom source later left right :=
  fun pos inside => agree pos (Nat.le_trans more inside)

theorem both {left left' : Matcher α} {right right' : Matcher β}
    (first : AgreeFrom source start left left') (far : LeadsTo source start later left')
    (second : AgreeFrom source later right right') :
    AgreeFrom source start (Matcher.both left right) (Matcher.both left' right') := by
  intro pos inside
  simp only [Matcher.both, first pos inside]
  cases taken : left' source pos with
  | none => rfl
  | some front => simp only [second front.2 (far pos front.1 front.2 inside taken)]

theorem firstOf_cons {first first' : Matcher α} {others others' : List (Matcher α)}
    (agree : AgreeFrom source start first first')
    (rest : AgreeFrom source start (Matcher.firstOf others) (Matcher.firstOf others')) :
    AgreeFrom source start (Matcher.firstOf (first :: others))
      (Matcher.firstOf (first' :: others')) := by
  intro pos inside
  simp only [Matcher.firstOf, agree pos inside, rest pos inside]

end AgreeFrom

/-! ## Steps in the text -/

theorem orderly_leadsTo {matcher : Matcher α} (orderly : Orderly matcher) (start : Nat) :
    LeadsTo source start start matcher := fun pos value mid inside taken =>
  Nat.le_trans inside (orderly source pos value mid taken).resolve_le

theorem token_leadsTo {extent : List Char → Option Nat} {Word : List Char → List Char → Prop}
    (takes : Takes extent Word) (filled : ∀ value rest, Word value rest → value ≠ [])
    (start : Nat) : LeadsTo source start (start + 1) (token extent) := by
  intro pos value mid inside taken
  simp only [token, Matcher.anchored] at taken
  split at taken
  · contradiction
  · rename_i count found
    obtain ⟨word, rest, same, holds, rfl⟩ := (takes _ _).mp found
    have positive := List.length_pos_iff.mpr (filled word rest holds)
    have few := congrArg List.length same
    rw [List.length_drop, List.length_append] at few
    cases taken
    rw [resolve_natCast _ _ (by omega)]
    omega

/-! ## Tiers over tiers that agree further on -/

theorem groupOf_agree {start : Nat} {left right : Matcher Expr}
    (inner : AgreeFrom source (start + 1) left right) (orderly : Orderly right) :
    AgreeFrom source start (groupOf left) (groupOf right) := by
  have opened : LeadsTo source start (start + 1) (token (Token.opened '(')) := by
    apply token_leadsTo (Grammar.opened_takes '(')
    rintro _ _ ⟨⟨blanks, _, rfl⟩, _⟩
    simp
  have closed := inner.both (orderly_leadsTo orderly _) (AgreeFrom.refl (token (Token.closed ')')))
  exact ((AgreeFrom.refl _).both opened closed).map _

theorem operation_agree (level : Level) {start : Nat} {left right inner inner' : Matcher Expr}
    (operand : AgreeFrom source start left right) (orderly : Orderly right)
    (item : AgreeFrom source (start + 1) inner inner') :
    AgreeFrom source start (level.reader left inner) (level.reader right inner') := by
  have mark : LeadsTo source start (start + 1) (token level.extent) :=
    token_leadsTo (Grammar.mark_takes level) (fun _ _ word => word.1.ne_nil) start
  have behind := (AgreeFrom.refl (token level.extent)).both mark item
  exact (operand.both (orderly_leadsTo orderly start) behind).map _

theorem pair_agree {start : Nat} {left left' right right' : Matcher Expr}
    (first : AgreeFrom source start left left') (second : AgreeFrom source start right right') :
    AgreeFrom source start (firstOf [left, right]) (firstOf [left', right']) :=
  first.firstOf_cons (second.firstOf_cons (AgreeFrom.refl _))

theorem over_agree {start : Nat} {left right : Tiers}
    (inner : ∀ level, AgreeFrom source (start + 1) (itemOf left level) (itemOf right level))
    (orderly : ∀ level, Orderly (itemOf right level)) :
    AgreeFrom source start left.over.atom right.over.atom ∧
      ∀ level, AgreeFrom source start (itemOf left.over level) (itemOf right.over level) := by
  obtain ⟨atomOrderly, itemOrderly⟩ := orderly_composes.tier orderly
  have lifted : ∀ (level : Level) {operand operand' : Matcher Expr},
      AgreeFrom source start operand operand' → Orderly operand' →
      AgreeFrom source start (firstOf [level.reader operand (itemOf left level), operand])
        (firstOf [level.reader operand' (itemOf right level), operand']) :=
    fun level _ _ agree straight =>
      pair_agree (operation_agree level agree straight (inner level)) agree
  -- each tier asks the inner readers only behind a parenthesis or an operator, one place further on
  have group := groupOf_agree (inner .union) (orderly .union)
  have atom : AgreeFrom source start left.over.atom right.over.atom :=
    (AgreeFrom.refl text).firstOf_cons ((AgreeFrom.refl pattern).firstOf_cons
      ((AgreeFrom.refl reference).firstOf_cons (group.firstOf_cons (AgreeFrom.refl _))))
  have factor : AgreeFrom source start left.over.factor right.over.factor :=
    lifted .repetition atom atomOrderly
  have term : AgreeFrom source start left.over.term right.over.term :=
    lifted .sequence factor (itemOrderly .repetition)
  have expression : AgreeFrom source start left.over.expression right.over.expression :=
    lifted .union term (itemOrderly .sequence)
  refine ⟨atom, ?_⟩
  rintro (_ | _ | _)
  · exact factor
  · exact term
  · exact expression

/-- What stands below is asked for nothing at a place that has fewer characters behind it than there
are levels. -/
theorem above_agree (bottom : Tiers) {depth start : Nat} (deep : source.length < start + depth) :
    AgreeFrom source start (bottom.above depth).atom (Tiers.ofDepth depth).atom ∧
      ∀ level, AgreeFrom source start (itemOf (bottom.above depth) level)
        (itemOf (Tiers.ofDepth depth) level) := by
  induction depth generalizing start with
  | zero =>
      have nowhere : ∀ left right : Matcher Expr, AgreeFrom source start left right := by
        intro left right pos inside
        have bound := resolve_le source.length pos
        omega
      exact ⟨nowhere _ _, fun level => nowhere _ _⟩
  | succ depth ih =>
      apply over_agree
      · exact (ih (by omega)).2
      · exact (orderly_composes.ofDepth depth).2

/-! ## Readers over any tiers -/

theorem partOf_agree {start : Nat} {left right : Tiers}
    (atom : AgreeFrom source start left.atom right.atom)
    (item : ∀ level, AgreeFrom source start (itemOf left level) (itemOf right level))
    (atomOrderly : Orderly right.atom) (itemOrderly : ∀ level, Orderly (itemOf right level))
    (part : Part) : AgreeFrom source start (partOf left part) (partOf right part) := by
  have later : ∀ level, AgreeFrom source (start + 1) (itemOf left level) (itemOf right level) :=
    fun level => (item level).mono (Nat.le_succ start)
  cases part with
  | text | pattern | reference => exact AgreeFrom.refl _
  | group => exact groupOf_agree (later .union) (itemOrderly .union)
  | atom => exact atom
  | item level => exact item level
  | operation level =>
      apply operation_agree level _ _ (later level)
      · cases level with
        | repetition => exact atom
        | sequence => exact item .repetition
        | union => exact item .sequence
      · cases level with
        | repetition => exact atomOrderly
        | sequence => exact itemOrderly .repetition
        | union => exact itemOrderly .sequence

theorem partOf_above (bottom : Tiers) (part : Part) {depth : Nat} (deep : source.length < depth)
    (pos : Int) : partOf (bottom.above depth) part source pos = part.matcher source pos := by
  -- the levels beyond the depth that is enough count as what stands below
  obtain ⟨more, rfl⟩ : ∃ more, depth = more + (source.length + 1) :=
    ⟨depth - (source.length + 1), by omega⟩
  have deepEnough : source.length < 0 + (source.length + 1) := by omega
  obtain ⟨atom, item⟩ := above_agree (bottom.above more) deepEnough
  obtain ⟨atomOrderly, itemOrderly⟩ := orderly_composes.ofDepth (source.length + 1)
  rw [above_add, ← partOf_tiersFor]
  exact partOf_agree atom item atomOrderly itemOrderly part pos (Nat.zero_le _)

end Rulebook.Reader
