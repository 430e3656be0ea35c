import Rulebook.Matcher.Plan

/-!
Matchers that report a position in any case, against those that report none when they fail. Composed
in the same way from the same pieces, the two do the same: where the one fails, the other fails at
the position it was called at, whatever its parts reported before that.
-/

namespace Rulebook

namespace Attempt

variable {α β : Type}

/-! ## Composition -/

theorem call_map (f : α → β) (matcher : Matcher α) :
    (Matcher.map f matcher).call = map f matcher.call := by
  funext source pos
  simp only [Matcher.call, Matcher.map, map]
  cases matcher source pos <;> rfl

theorem call_literal (word : List Char) : (Matcher.literal word).call = literal word := by
  funext source pos
  by_cases stands : slice source pos (pos + word.length) = word
  · simp [Matcher.call, Matcher.literal, literal, stands]
  · simp [Matcher.call, Matcher.literal, literal, stands]

theorem call_token (extent : List Char → Option Nat) :
    (Matcher.token extent).call = token extent := rfl

theorem call_both (left : Matcher α) (right : Matcher β) :
    (Matcher.both left right).call = both left.call right.call := by
  funext source pos
  simp only [Matcher.call, Matcher.both, both]
  cases left source pos with
  | none => rfl
  | some front =>
      simp only
      cases right source front.2 <;> rfl

theorem call_firstOf (alternatives : List (Matcher α)) :
    (Matcher.firstOf alternatives).call = firstOf (alternatives.map Matcher.call) := by
  funext source pos
  induction alternatives with
  | nil => rfl
  | cons first others ih =>
      simp only [Matcher.call, Matcher.firstOf, List.map_cons, firstOf] at ih ⊢
      cases first source pos with
      | none => exact ih
      | some found => rfl

/-- Wherever a run has come to, a part that fails takes it back to its start. -/
theorem allFrom_calls (source : List Char) (start : Int) (parts : List (Matcher α))
    (values : List α) (current : Int) :
    allFrom source start (parts.map Matcher.call) values current =
      match Matcher.allOf parts source current with
      | none => (none, start)
      | some (later, stop) => (some (values ++ later), stop) := by
  induction parts generalizing values current with
  | nil => simp [allFrom, Matcher.allOf]
  | cons part parts ih =>
      simp only [List.map_cons, allFrom, Matcher.allOf, Matcher.call]
      cases part source current with
      | none => rfl
      | some found =>
          -- the later parts go back to the start of the run, not to where they were called
          simp only [ih]
          cases Matcher.allOf parts source found.2 with
          | none => rfl
          | some rest => simp

theorem call_allOf (parts : List (Matcher α)) :
    (Matcher.allOf parts).call = allOf (parts.map Matcher.call) := by
  funext source pos
  rw [allOf, allFrom_calls, Matcher.call]
  cases Matcher.allOf parts source pos <;> rfl

theorem rounds_call (round : Matcher α) (source : List Char) (attempts : Nat) (values : List α)
    (current : Int) : rounds round.call source attempts values current =
      (some (values ++ (Matcher.rounds round source attempts current).1),
        (Matcher.rounds round source attempts current).2) := by
  induction attempts generalizing values current with
  | zero => simp [rounds, Matcher.rounds]
  | succ attempts ih =>
      simp only [rounds, Matcher.rounds, Matcher.call]
      cases round source current with
      | none => simp
      | some found =>
          by_cases stays : found.2 = current
          · simp [stays]
          · simp [stays, ih]

theorem call_separated (template : Matcher α) (separator : Matcher β) :
    (Matcher.separated template separator).call = separated template.call separator.call := by
  have round : (Matcher.map Prod.snd (Matcher.both separator template)).call =
      map Prod.snd (both separator.call template.call) := by rw [call_map, call_both]
  funext source pos
  simp only [separated, ← round, rounds_call, Matcher.call, Matcher.separated]
  cases template source pos <;> rfl

/-! ## Readers -/

theorem call_text : Reader.text.call = text := by
  rw [Reader.text, call_map, call_both, call_both, call_token, Reader.quote, call_literal]
  rfl

theorem call_pattern : Reader.pattern.call = pattern := by
  rw [Reader.pattern, call_map, call_both, call_both, call_both, call_token, call_token,
    Reader.slash, call_literal]
  rfl

theorem call_reference : Reader.reference.call = reference := call_map _ _

theorem call_groupOf (expression : Matcher Expr) :
    (Reader.groupOf expression).call = groupOf expression.call := by
  rw [Reader.groupOf, call_map, call_both, call_both]
  rfl

theorem call_repetitionOf (atom factor : Matcher Expr) :
    (Reader.repetitionOf atom factor).call = repetitionOf atom.call factor.call := by
  rw [Reader.repetitionOf, call_map, call_both, call_both]
  rfl

theorem call_sequenceOf (factor term : Matcher Expr) :
    (Reader.sequenceOf factor term).call = sequenceOf factor.call term.call := by
  rw [Reader.sequenceOf, call_map, call_both, call_both]
  rfl

theorem call_unionOf (term expression : Matcher Expr) :
    (Reader.unionOf term expression).call = unionOf term.call expression.call := by
  rw [Reader.unionOf, call_map, call_both, call_both]
  rfl

def ofTiers (tiers : Reader.Tiers) : Tiers :=
  ⟨tiers.atom.call, tiers.factor.call, tiers.term.call, tiers.expression.call⟩

theorem ofTiers_over (inner : Reader.Tiers) : ofTiers inner.over = (ofTiers inner).over := by
  simp only [ofTiers, Reader.Tiers.over, Tiers.over, call_firstOf, List.map_cons, List.map_nil,
    call_text, call_pattern, call_reference, call_groupOf, call_repetitionOf, call_sequenceOf,
    call_unionOf]

theorem ofTiers_ofDepth (depth : Nat) :
    ofTiers (Reader.Tiers.ofDepth depth) = Tiers.ofDepth depth := by
  induction depth with
  | zero => rfl
  | succ depth ih => rw [Reader.Tiers.ofDepth, ofTiers_over, ih, Tiers.ofDepth]

theorem ofTiers_tiersFor (source : List Char) : ofTiers (Reader.tiersFor source) = tiersFor source :=
  ofTiers_ofDepth _

theorem call_atom : Reader.atom.call = atom := by
  funext source pos
  rw [atom, ← ofTiers_tiersFor]
  rfl

theorem call_factor : Reader.factor.call = factor := by
  funext source pos
  rw [factor, ← ofTiers_tiersFor]
  rfl

theorem call_term : Reader.term.call = term := by
  funext source pos
  rw [term, ← ofTiers_tiersFor]
  rfl

theorem call_expression : Reader.expression.call = expression := by
  funext source pos
  rw [expression, ← ofTiers_tiersFor]
  rfl

theorem call_group : Reader.group.call = group := by
  rw [Reader.group, call_groupOf, call_expression, group]

theorem call_repetition : Reader.repetition.call = repetition := by
  rw [Reader.repetition, call_repetitionOf, call_atom, call_factor, repetition]

theorem call_sequence : Reader.sequence.call = sequence := by
  rw [Reader.sequence, call_sequenceOf, call_factor, call_term, sequence]

theorem call_union : Reader.union.call = union := by
  rw [Reader.union, call_unionOf, call_term, call_expression, union]

theorem call_definition : Rule.definition.call = definition := by
  rw [Rule.definition, call_map, Rule.written, call_map, call_both, call_both, call_expression]
  rfl

theorem call_comment : Reader.comment.call = comment := by
  rw [Reader.comment, call_map, call_both, call_both, call_literal]
  rfl

theorem call_ruleNode : Nonterminal.ruleNode.call = Nonterminal.rule.attempt := by
  funext source pos
  simp only [Nonterminal.attempt, ← call_definition, Nonterminal.ruleNode, Matcher.call]
  rcases Rule.definition source pos with _ | ⟨_ | _, _⟩ <;> rfl

theorem call_nonterminal (part : Nonterminal) : part.matcher.call = part.attempt := by
  cases part with
  | name => exact call_map _ _
  | rule => exact call_ruleNode
  | _ =>
      simp only [Nonterminal.matcher, Nonterminal.attempt, call_map, call_text, call_pattern,
        call_reference, call_group, call_repetition, call_sequence, call_union, call_atom,
        call_factor, call_term, call_expression, call_comment]

end Attempt

namespace Plan

open Attempt

mutual

/-- Carried out with a position in any case, a plan does what a caller sees of its matcher. -/
theorem attempt?_eq : ∀ plan : Plan, plan.attempt? = plan.build?.map Matcher.call
  | .literal word => by
      rw [attempt?, build?, Option.map_some, call_map, call_literal]
  | .pattern source flags => by
      rw [attempt?, build?, Option.map_map]
      exact congrArg (Option.map · _) (funext fun regex => (call_map _ _).symm)
  | .firstOf alternatives => by
      rw [attempt?, build?, attemptAll?_eq alternatives, Option.map_map, Option.map_map]
      exact congrArg (Option.map · _) (funext fun matchers => (call_firstOf matchers).symm)
  | .allOf parts => by
      rw [attempt?, build?, attemptAll?_eq parts, Option.map_map, Option.map_map]
      refine congrArg (Option.map · _) (funext fun matchers => ?_)
      simp only [Function.comp_apply, call_map, call_allOf]
  | .separated template separator => by
      rw [attempt?, build?, attempt?_eq template, attempt?_eq separator]
      cases build? template with
      | none => rfl
      | some first =>
          cases build? separator with
          | none => rfl
          | some between => simp only [Option.map_some, call_map, call_separated]
  | .nonterminal part => by
      rw [attempt?, build?, Option.map_some, call_nonterminal]

theorem attemptAll?_eq : ∀ plans : List Plan,
    attemptAll? plans = (buildAll? plans).map (·.map Matcher.call)
  | [] => rfl
  | plan :: plans => by
      rw [attemptAll?, buildAll?, attempt?_eq plan, attemptAll?_eq plans]
      cases build? plan with
      | none => rfl
      | some first => cases buildAll? plans <;> rfl

end

end Plan

end Rulebook
