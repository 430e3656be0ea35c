import Rulebook.Proofs.PositionDiscipline

/-!
Matchers by the way they are put together. An assembly says of which literals and regular
expressions a matcher consists and how they are composed, so that a match can be followed through
its parts. The plans that use no readers of rule definitions are carried out by assemblies.
-/

namespace Rulebook

open Matcher (map Orderly Clamped Repeats)

/-! ## What atomic matchers give -/

theorem Matcher.literal_gives {word source value : List Char} {pos stop : Int}
    (taken : Matcher.literal word source pos = some (value, stop)) :
    value = slice source pos stop := by
  simp only [Matcher.literal, Option.ite_none_right_eq_some, Option.some.injEq,
    Prod.mk.injEq] at taken
  obtain ⟨same, rfl, rfl⟩ := taken
  exact same.symm

theorem Matcher.ofRegex_gives {regex : Regex} {flags : RegexFlags} {source value : List Char}
    {pos stop : Int}
    (taken : Matcher.ofRegex regex flags source pos = some (value, stop)) :
    value = slice source pos stop := by
  obtain ⟨above, below⟩ := Matcher.ofRegex_clamped regex flags source pos value stop taken
  simp only [Matcher.ofRegex, Matcher.anchored] at taken
  split at taken
  · contradiction
  · rename_i count _
    cases taken
    have whole := Int.ofNat_le.mp below
    rw [slice, resolve_natCast _ _ whole, List.drop_take, Nat.add_sub_cancel_left]

/-! ## Assemblies -/

/-- A regular expression of which no more is known than where a match of it may end and that it
gives the text in between. -/
structure SliceMatcher where
  matcher : Matcher (List Char)
  clamped : Clamped matcher
  gives : ∀ source pos value stop, matcher source pos = some (value, stop) →
    value = slice source pos stop

/-- Literals and regular expressions, composed in any way. -/
inductive Assembly where
  | literal (word : List Char)
  | pattern (regex : SliceMatcher)
  | firstOf (alternatives : List Assembly)
  | allOf (parts : List Assembly)
  | separated (template separator : Assembly)

namespace Assembly

mutual

def matcher : Assembly → Matcher Value
  | .literal word => map .text (Matcher.literal word)
  | .pattern regex => map .text regex.matcher
  | .firstOf alternatives => Matcher.firstOf (matchers alternatives)
  | .allOf parts => map .list (Matcher.allOf (matchers parts))
  | .separated template separator =>
      map .list (Matcher.separated (matcher template) (matcher separator))

def matchers : List Assembly → List (Matcher Value)
  | [] => []
  | first :: others => matcher first :: matchers others

end

mutual

def loopless : Assembly → Bool
  | .literal _ | .pattern _ => true
  | .firstOf alternatives => looplessAll alternatives
  | .allOf parts => looplessAll parts
  | .separated _ _ => false

def looplessAll : List Assembly → Bool
  | [] => true
  | first :: others => loopless first && looplessAll others

end

theorem inParts {holds : Assembly → Prop} (literal : ∀ word, holds (.literal word))
    (pattern : ∀ regex, holds (.pattern regex))
    (firstOf : ∀ {alternatives : List Assembly}, (∀ each ∈ alternatives, holds each) →
      holds (.firstOf alternatives))
    (allOf : ∀ {parts : List Assembly}, (∀ each ∈ parts, holds each) → holds (.allOf parts))
    (separated : ∀ {template separator : Assembly}, holds template → holds separator →
      holds (.separated template separator)) (assembly : Assembly) : holds assembly := by
  refine @Assembly.rec holds (fun parts => ∀ each ∈ parts, holds each) literal pattern
    (fun _ => firstOf) (fun _ => allOf) (fun _ _ => separated) (by simp) ?_ assembly
  intro first others front later each member
  rcases List.mem_cons.mp member with rfl | listed
  · exact front
  · exact later each listed

theorem matchers_eq_map (parts : List Assembly) : matchers parts = parts.map matcher := by
  induction parts with
  | nil => rfl
  | cons first others ih => rw [matchers, ih, List.map_cons]

theorem built (assembly : Assembly) : Built assembly.matcher := by
  have all : ∀ {parts : List Assembly}, (∀ each ∈ parts, Built each.matcher) →
      ∀ matcher ∈ matchers parts, Built matcher := by
    intro parts each
    simpa [matchers_eq_map] using each
  induction assembly using inParts with
  | literal word => exact Built.literal word
  | pattern regex => exact Built.pattern regex.clamped
  | firstOf ih => exact Built.firstOf (all ih)
  | allOf ih => exact Built.allOf (all ih)
  | separated ihTemplate ihSeparator => exact Built.separated ihTemplate ihSeparator

theorem orderly (assembly : Assembly) : Orderly assembly.matcher := assembly.built.orderly

theorem separated_taken_iff {template separator : Assembly} {source : List Char} {pos stop : Int}
    {values : List Value} :
    (Assembly.separated template separator).matcher source pos = some (.list values, stop) ↔
      Repeats template.matcher separator.matcher source pos values stop := by
  rw [← Matcher.separated_eq_some_iff (template.orderly.repeats separator.orderly source pos),
    Assembly.matcher, Matcher.map_eq_some]
  simp

end Assembly

/-! ## Plans -/

def SliceMatcher.ofRegex (regex : Regex) (flags : RegexFlags) : SliceMatcher where
  matcher := Matcher.ofRegex regex flags
  clamped := Matcher.ofRegex_clamped regex flags
  gives := fun _ _ _ _ => Matcher.ofRegex_gives

namespace Plan

mutual

/-- A plan that can be carried out and uses none of the readers of rule definitions. -/
def assembly? : Plan → Option Assembly
  | .literal word => some (.literal word)
  | .pattern source flags =>
      (Regex.read? source).map fun regex => .pattern (SliceMatcher.ofRegex regex flags)
  | .firstOf alternatives => (assemblies? alternatives).map .firstOf
  | .allOf parts => (assemblies? parts).map .allOf
  | .separated template separator =>
      match assembly? template, assembly? separator with
      | some template, some separator => some (.separated template separator)
      | _, _ => none
  | .nonterminal _ => none

def assemblies? : List Plan → Option (List Assembly)
  | [] => some []
  | first :: others =>
      match assembly? first, assemblies? others with
      | some first, some others => some (first :: others)
      | _, _ => none

end

mutual

theorem build?_of_assembly? : ∀ {plan : Plan} {assembly : Assembly},
    plan.assembly? = some assembly → plan.build? = some assembly.matcher
  | .literal word, _, found => by
      cases found
      rfl
  | .pattern source flags, _, found => by
      simp only [assembly?, Option.map_eq_some_iff] at found
      obtain ⟨regex, readable, rfl⟩ := found
      simp only [build?, readable, Option.map_some]
      rfl
  | .firstOf alternatives, _, found => by
      simp only [assembly?, Option.map_eq_some_iff] at found
      obtain ⟨others, each, rfl⟩ := found
      simp only [build?, buildAll?_of_assemblies? each, Option.map_some, Assembly.matcher]
  | .allOf parts, _, found => by
      simp only [assembly?, Option.map_eq_some_iff] at found
      obtain ⟨others, each, rfl⟩ := found
      simp only [build?, buildAll?_of_assemblies? each, Option.map_some, Assembly.matcher]
  | .separated template separator, _, found => by
      simp only [assembly?] at found
      split at found
      · rename_i first between
        cases found
        simp only [build?, build?_of_assembly? first, build?_of_assembly? between,
          Assembly.matcher]
      · contradiction

theorem buildAll?_of_assemblies? : ∀ {plans : List Plan} {assemblies : List Assembly},
    assemblies? plans = some assemblies → buildAll? plans = some (Assembly.matchers assemblies)
  | [], _, found => by
      cases found
      rfl
  | plan :: plans, _, found => by
      simp only [assemblies?] at found
      split at found
      · rename_i first others
        cases found
        simp only [buildAll?, build?_of_assembly? first, buildAll?_of_assemblies? others,
          Assembly.matchers]
      · contradiction

end

end Plan

end Rulebook
