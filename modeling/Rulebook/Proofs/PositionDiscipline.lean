import Rulebook.Proofs.ReadingDepth
import Rulebook.Proofs.Rewinding

/-!
Whatever is put together from literals, regular expressions, choices, runs, repetitions and the
readers of rule definitions stops where it should and stops at all, also where it is called with a
position that is no index of the text.
-/

namespace Rulebook

open Matcher (map both firstOf allOf separated literal Orderly Clamped Loops Repeats)

/-- Put together from the atomic matchers and the readers of rule definitions. A regular expression
may be any matcher that ends between the index of its position and the end of the text. -/
inductive Built : Matcher Value → Prop where
  | literal (word) : Built (map .text (literal word))
  | pattern {regex : Matcher (List Char)} : Clamped regex → Built (map .text regex)
  | firstOf {alternatives} : (∀ matcher ∈ alternatives, Built matcher) →
      Built (firstOf alternatives)
  | allOf {parts} : (∀ matcher ∈ parts, Built matcher) → Built (map .list (allOf parts))
  | separated {template separator} : Built template → Built separator →
      Built (map .list (separated template separator))
  | nonterminal (part : Nonterminal) : Built part.matcher

/-! ## Plans -/

mutual

theorem built_of_build? : ∀ {plan : Plan} {matcher : Matcher Value},
    plan.build? = some matcher → Built matcher
  | .literal word, _, found => by
      cases found
      exact Built.literal word
  | .pattern source flags, _, found => by
      simp only [Plan.build?, Option.map_eq_some_iff] at found
      obtain ⟨regex, _, rfl⟩ := found
      exact Built.pattern (Matcher.ofRegex_clamped regex flags)
  | .firstOf alternatives, _, found => by
      simp only [Plan.build?, Option.map_eq_some_iff] at found
      obtain ⟨matchers, each, rfl⟩ := found
      exact Built.firstOf (built_of_buildAll? each)
  | .allOf parts, _, found => by
      simp only [Plan.build?, Option.map_eq_some_iff] at found
      obtain ⟨matchers, each, rfl⟩ := found
      exact Built.allOf (built_of_buildAll? each)
  | .separated template separator, _, found => by
      simp only [Plan.build?] at found
      split at found
      · rename_i first between
        cases found
        exact Built.separated (built_of_build? first) (built_of_build? between)
      · contradiction
  | .nonterminal part, _, found => by
      cases found
      exact Built.nonterminal part

theorem built_of_buildAll? : ∀ {plans : List Plan} {matchers : List (Matcher Value)},
    Plan.buildAll? plans = some matchers → ∀ matcher ∈ matchers, Built matcher
  | [], _, found => by
      cases found
      simp
  | plan :: plans, _, found => by
      simp only [Plan.buildAll?] at found
      split at found
      · rename_i first others
        cases found
        have front := built_of_build? first
        have later := built_of_buildAll? others
        intro matcher member
        rcases List.mem_cons.mp member with rfl | listed
        · exact front
        · exact later matcher listed
      · contradiction

end

/-! ## Positions of failures -/

/-- Put together in the same way from the same pieces. A regular expression is what a caller sees of
it, and it may be any that ends between the index of its position and the end of the text. -/
inductive Alongside : Attempt Value → Matcher Value → Prop where
  | literal (word) : Alongside (.map .text (.literal word)) (.map .text (.literal word))
  | pattern {regex : Matcher (List Char)} : Clamped regex →
      Alongside (.map .text regex.call) (.map .text regex)
  | firstOf {pairs : List (Attempt Value × Matcher Value)} :
      (∀ pair ∈ pairs, Alongside pair.1 pair.2) →
      Alongside (.firstOf (pairs.map Prod.fst)) (.firstOf (pairs.map Prod.snd))
  | allOf {pairs : List (Attempt Value × Matcher Value)} :
      (∀ pair ∈ pairs, Alongside pair.1 pair.2) →
      Alongside (.map .list (.allOf (pairs.map Prod.fst)))
        (.map .list (.allOf (pairs.map Prod.snd)))
  | separated {template separator : Attempt Value} {template' separator' : Matcher Value} :
      Alongside template template' → Alongside separator separator' →
      Alongside (.map .list (.separated template separator))
        (.map .list (.separated template' separator'))
  | nonterminal (part : Nonterminal) : Alongside part.attempt part.matcher

theorem fst_eq_map_call {pairs : List (Attempt Value × Matcher Value)}
    (each : ∀ pair ∈ pairs, pair.1 = pair.2.call) :
    pairs.map Prod.fst = (pairs.map Prod.snd).map Matcher.call := by
  rw [List.map_map]
  exact List.map_congr_left each

theorem Alongside.eq_call {attempt : Attempt Value} {matcher : Matcher Value}
    (alongside : Alongside attempt matcher) : attempt = matcher.call := by
  induction alongside with
  | literal word => rw [Attempt.call_map, Attempt.call_literal]
  | pattern _ => rw [Attempt.call_map]
  | firstOf _ ih => rw [Attempt.call_firstOf, fst_eq_map_call ih]
  | allOf _ ih => rw [Attempt.call_map, Attempt.call_allOf, fst_eq_map_call ih]
  | separated _ _ ihTemplate ihSeparator =>
      rw [Attempt.call_map, Attempt.call_separated, ihTemplate, ihSeparator]
  | nonterminal part => exact (Attempt.call_nonterminal part).symm

theorem exists_pairs {matchers : List (Matcher Value)}
    (each : ∀ matcher ∈ matchers, ∃ attempt, Alongside attempt matcher) :
    ∃ pairs : List (Attempt Value × Matcher Value),
      (∀ pair ∈ pairs, Alongside pair.1 pair.2) ∧ pairs.map Prod.snd = matchers := by
  induction matchers with
  | nil => exact ⟨[], by simp, rfl⟩
  | cons matcher matchers ih =>
      obtain ⟨attempt, first⟩ := each matcher List.mem_cons_self
      obtain ⟨pairs, others, same⟩ := ih fun other member => each other (List.mem_cons_of_mem _ member)
      refine ⟨(attempt, matcher) :: pairs, ?_, by simp [same]⟩
      intro pair member
      rcases List.mem_cons.mp member with rfl | later
      · exact first
      · exact others pair later

theorem Built.exists_alongside {matcher : Matcher Value} (built : Built matcher) :
    ∃ attempt, Alongside attempt matcher := by
  induction built with
  | literal word => exact ⟨_, Alongside.literal word⟩
  | pattern clamped => exact ⟨_, Alongside.pattern clamped⟩
  | firstOf _ ih =>
      obtain ⟨pairs, each, rfl⟩ := exists_pairs ih
      exact ⟨_, Alongside.firstOf each⟩
  | allOf _ ih =>
      obtain ⟨pairs, each, rfl⟩ := exists_pairs ih
      exact ⟨_, Alongside.allOf each⟩
  | separated _ _ ihTemplate ihSeparator =>
      obtain ⟨_, template⟩ := ihTemplate
      obtain ⟨_, separator⟩ := ihSeparator
      exact ⟨_, Alongside.separated template separator⟩
  | nonterminal part => exact ⟨_, Alongside.nonterminal part⟩

/-! ## Discipline -/

theorem ruleNode_orderly : Orderly Nonterminal.ruleNode := by
  intro source pos value stop taken
  simp only [Nonterminal.ruleNode] at taken
  split at taken
  · rename_i found
    cases taken
    exact (Rule.written_orderly.map Rule.normalized) source pos _ _ found
  · contradiction

theorem nonterminal_orderly (part : Nonterminal) : Orderly part.matcher := by
  induction part using Nonterminal.cases_part with
  | name => exact Matcher.orderly_composes.name.map _
  | rule => exact ruleNode_orderly
  | comment => exact Matcher.orderly_composes.comment.map fun _ => Value.node .comment
  | expression nonterminal part same =>
      rw [same]
      exact (Reader.part_orderly part).map Value.node

theorem Built.orderly {matcher : Matcher Value} (built : Built matcher) : Orderly matcher := by
  induction built with
  | literal word => exact (Matcher.literal_orderly word).map _
  | pattern clamped => exact clamped.orderly.map _
  | firstOf _ ih => exact Orderly.firstOf ih
  | allOf _ ih => exact (Orderly.allOf ih).map _
  | separated _ _ ihTemplate ihSeparator => exact (ihTemplate.separated ihSeparator).map _
  | nonterminal part => exact nonterminal_orderly part

/-- A call at any position fails and leaves the position as it was, or it ends in the text and not
before its position; behind the end of the text it stays or goes to the end. It always comes to an
end: the loop of a repetition takes at most two attempts more than the text has characters, from
wherever it starts, and so the repetition is the one that nothing bounds; and what the readers of
expressions would ask of readers further than that below them has no influence. All this holds of
the matchers that report a position when they fail, too. -/
theorem built_stops_in_text {matcher : Matcher Value} (built : Built matcher) (source : List Char)
    (pos : Int) :
    (matcher.call source pos = (none, pos) ∨ ∃ value stop,
      matcher.call source pos = (some value, stop) ∧
      (pos ≤ source.length → pos ≤ stop ∧ stop ≤ source.length) ∧
      ((source.length : Int) < pos → stop = pos ∨ stop = source.length)) ∧
    (∀ template separator, Built template → Built separator →
      (∃ attempts values stop, attempts ≤ source.length + 2 ∧
        Loops (map Prod.snd (both separator template)) source attempts pos values stop) ∧
      ∃ values stop, separated template separator source pos = some (values, stop) ∧
        Repeats template separator source pos values stop) ∧
    (∀ (bottom : Reader.Tiers) (part : Grammar.Part) (depth : Nat), source.length < depth →
      Reader.partOf (bottom.above depth) part source pos = part.matcher source pos) ∧
    (∃ attempt, Alongside attempt matcher) ∧
    ∀ attempt, Alongside attempt matcher → attempt source pos = matcher.call source pos := by
  refine ⟨?_, ?_, fun bottom part depth deep => Reader.partOf_above bottom part deep pos,
    built.exists_alongside, fun attempt alongside => by rw [alongside.eq_call]⟩
  · cases taken : matcher source pos with
    | none => exact Or.inl (by simp only [Matcher.call, taken])
    | some result =>
        have advances := built.orderly source pos result.1 result.2 taken
        refine Or.inr ⟨result.1, result.2, ?_, advances.inside, advances.outside⟩
        simp only [Matcher.call, taken]
  -- the loop needs both parts to move forward only, which any matcher built like this does
  · intro template separator builtTemplate builtSeparator
    have first := builtTemplate.orderly
    have between := builtSeparator.orderly
    exact ⟨((between.both first).map Prod.snd).loops source pos,
      first.repeats between source pos⟩

/-- The empty word between words that are `a` or blanks. From the only character of the text,
counted from its end, the loop makes three attempts: the literal does not match there, so the
pattern leads to the index that the position stands for, and then the literal matches. -/
theorem empty_words_stop_in_text : ∃ matcher, Plan.build? (.separated (.literal [])
      (.firstOf [.literal ['a'], .pattern [' ', '*'] ⟨false, false⟩])) = some matcher ∧
    Built matcher ∧ ∃ value stop, matcher.call ['a'] (-1) = (some value, stop) ∧
      -1 ≤ stop ∧ stop ≤ 1 := by
  have tokens : Regex.tokens? [.plain ' ', .plain '*'] =
      some [Regex.literal 32, .loop 0 none true] := by
    simp [Regex.tokens?_cons, Regex.tokens?, Regex.token?, Regex.plain?, Regex.simpleBounds?,
      Regex.plainToken, Regex.reluctant]
  have letters : Regex.letters [' ', '*'] = some [.plain ' ', .plain '*'] := rfl
  obtain ⟨blanks, readable⟩ : ∃ regex, Regex.read? [' ', '*'] = some regex := by
    simp only [Regex.read?, letters, tokens]
    exact ⟨_, rfl⟩
  have builds : Plan.build? (.separated (.literal [])
      (.firstOf [.literal ['a'], .pattern [' ', '*'] ⟨false, false⟩])) =
      some (map Value.list (separated (map Value.text (literal [])) (firstOf
        [map Value.text (literal ['a']),
          map Value.text (Matcher.ofRegex blanks ⟨false, false⟩)]))) := by
    simp only [Plan.build?, Plan.buildAll?, readable, Option.map_some]
  have built := built_of_build? builds
  refine ⟨_, builds, built, ?_⟩
  rcases (built_stops_in_text built ['a'] (-1)).1 with fails | ⟨value, stop, called, inside, _⟩
  · cases fails
  · exact ⟨value, stop, called, inside (by decide)⟩

end Rulebook
