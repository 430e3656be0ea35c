import Mathlib.Data.List.Chain
import Rulebook.Proofs.TreeMatching

/-!
What a repetition reads. An occurrence of the template is its value with the position behind it; a
separator and a template after it lead from one occurrence to the next. The occurrences read by a
repetition are a chain that nothing can be added to, and there is only one such chain, for every
other one from the same position is a beginning of it.
-/

namespace Rulebook.Matcher

variable {α β : Type} {template : Matcher α} {separator : Matcher β} {source : List Char}
  {pos stop : Int}

/-- A separator at the position, and the template after it. -/
def Leads (template : Matcher α) (separator : Matcher β) (source : List Char) (pos : Int)
    (next : α × Int) : Prop :=
  ∃ between mid, separator source pos = some (between, mid) ∧ template source mid = some next

/-- The pair fails at the position, or takes nothing there. -/
def Ended (template : Matcher α) (separator : Matcher β) (source : List Char) (pos : Int) : Prop :=
  ∀ next, Leads template separator source pos next → next.2 = pos

/-- From one occurrence to a later one. -/
def Link (template : Matcher α) (separator : Matcher β) (source : List Char)
    (found next : α × Int) : Prop :=
  Leads template separator source found.2 next ∧ found.2 < next.2

/-- Occurrences from the position on, each linked to the one after it. -/
structure Chained (template : Matcher α) (separator : Matcher β) (source : List Char) (pos : Int)
    (chain : List (α × Int)) : Prop where
  first : ∀ found, chain.head? = some found → template source pos = some found
  linked : chain.IsChain (Link template separator source)

/-- A chain that is empty only where the template fails, and ends only where the pair does. -/
structure MaximalChain (template : Matcher α) (separator : Matcher β) (source : List Char)
    (pos : Int) (chain : List (α × Int)) : Prop where
  starts : chain.head? = template source pos
  linked : chain.IsChain (Link template separator source)
  ends : ∀ last, chain.getLast? = some last → Ended template separator source last.2

def chainEnd (pos : Int) (chain : List (α × Int)) : Int := (chain.getLast?.map Prod.snd).getD pos

/-! ## One chain -/

theorem round_eq_some_iff {next : α × Int} :
    map Prod.snd (both separator template) source pos = some next ↔
      Leads template separator source pos next := by
  obtain ⟨value, stop⟩ := next
  rw [map_eq_some]
  constructor
  · rintro ⟨⟨between, found⟩, taken, rfl⟩
    obtain ⟨mid, front, back⟩ := both_eq_some.mp taken
    exact ⟨between, mid, front, back⟩
  · rintro ⟨between, mid, front, back⟩
    exact ⟨(between, value), both_eq_some.mpr ⟨mid, front, back⟩, rfl⟩

theorem Leads.unique {first second : α × Int} (left : Leads template separator source pos first)
    (right : Leads template separator source pos second) : first = second := by
  rw [← round_eq_some_iff] at left right
  exact Option.some.inj (left.symm.trans right)

theorem Leads.ended_iff {next : α × Int} (leads : Leads template separator source pos next) :
    Ended template separator source pos ↔ next.2 = pos := by
  constructor
  · exact fun ended => ended next leads
  · intro stays other found
    rw [found.unique leads, stays]

theorem Link.unique {found first second : α × Int}
    (left : Link template separator source found first)
    (right : Link template separator source found second) : first = second :=
  left.1.unique right.1

theorem Ended.no_link {found next : α × Int} (ended : Ended template separator source found.2) :
    ¬ Link template separator source found next := by
  rintro ⟨leads, later⟩
  have stays := leads.ended_iff.mp ended
  omega

theorem ended_of_failed (fails : map Prod.snd (both separator template) source pos = none) :
    Ended template separator source pos := by
  intro next leads
  rw [← round_eq_some_iff, fails] at leads
  contradiction

theorem ended_of_absent {between : β} {mid : Int}
    (front : separator source pos = some (between, mid))
    (fails : template source mid = none) : Ended template separator source pos := by
  apply ended_of_failed
  simp only [map, both, front, fails, Option.map_none]

theorem Ended.loops (ended : Ended template separator source pos) :
    Loops (map Prod.snd (both separator template)) source 1 pos [] pos := by
  cases round : map Prod.snd (both separator template) source pos with
  | none => exact Loops.failed round
  | some next =>
      obtain ⟨value, stop⟩ := next
      obtain rfl := (round_eq_some_iff.mp round).ended_iff.mp ended
      exact Loops.stayed round

/-- Behind one occurrence, a chain that has come to its end begins with every other. -/
theorem prefix_of_ended {found : α × Int} {rest other : List (α × Int)}
    (linked : (found :: rest).IsChain (Link template separator source))
    (ends : ∀ last, (found :: rest).getLast? = some last → Ended template separator source last.2)
    (chained : (found :: other).IsChain (Link template separator source)) : other <+: rest := by
  induction other generalizing found rest with
  | nil => exact List.nil_prefix
  | cons next other ih =>
      obtain ⟨link, chained⟩ := List.isChain_cons_cons.mp chained
      cases rest with
      -- a chain that has ended is not the shorter one
      | nil => exact absurd link (ends found rfl).no_link
      | cons first rest =>
          obtain ⟨step, linked⟩ := List.isChain_cons_cons.mp linked
          obtain rfl := step.unique link
          have later := ih linked (by simpa [List.getLast?_cons_cons] using ends) chained
          exact List.cons_prefix_cons.mpr ⟨rfl, later⟩

theorem MaximalChain.chained {chain : List (α × Int)}
    (maximal : MaximalChain template separator source pos chain) :
    Chained template separator source pos chain where
  first := fun _ same => maximal.starts.symm.trans same
  linked := maximal.linked

theorem MaximalChain.extends {chain other : List (α × Int)}
    (maximal : MaximalChain template separator source pos chain)
    (chained : Chained template separator source pos other) : other <+: chain := by
  cases other with
  | nil => exact List.nil_prefix
  | cons found other =>
      have start := maximal.starts.trans (chained.first found rfl)
      cases chain with
      | nil => contradiction
      | cons first rest =>
          obtain rfl := Option.some.inj start
          have later := prefix_of_ended maximal.linked maximal.ends chained.linked
          exact List.cons_prefix_cons.mpr ⟨rfl, later⟩

theorem MaximalChain.unique {chain other : List (α × Int)}
    (maximal : MaximalChain template separator source pos chain)
    (another : MaximalChain template separator source pos other) : other = chain :=
  (maximal.extends another.chained).eq_of_length_le (another.extends maximal.chained).length_le

/-! ## The chain of a repetition -/

theorem Loops.linked (first : Forward template) (between : Forward separator) {attempts : Nat}
    {values : List α}
    (loops : Loops (map Prod.snd (both separator template)) source attempts pos values stop)
    (start : 0 ≤ pos) (inside : pos ≤ source.length) (value : α) :
    ∃ rest : List (α × Int), ((value, pos) :: rest).IsChain (Link template separator source) ∧
      rest.map Prod.fst = values ∧ ∃ last, ((value, pos) :: rest).getLast? = some (last, stop) ∧
      Ended template separator source stop := by
  induction loops generalizing value with
  | failed fails =>
      exact ⟨[], List.isChain_singleton _, rfl, value, rfl, ended_of_failed fails⟩
  | stayed stays =>
      have ended := (round_eq_some_iff.mp stays).ended_iff.mpr rfl
      exact ⟨[], List.isChain_singleton _, rfl, value, rfl, ended⟩
  | @moved _ pos found mid values stop taken moves _ ih =>
      -- inside the text a round that moves goes onward, so it is a link
      have round := ((between source).both (onward_path source.length) (first source)).map Prod.snd
      have onward := round pos found mid taken start inside
      obtain ⟨rest, linked, rfl, last, final, ended⟩ :=
        ih (Int.le_trans start onward.1) onward.2 found
      have link : Link template separator source (value, pos) (found, mid) :=
        ⟨round_eq_some_iff.mp taken, Int.lt_iff_le_and_ne.mpr ⟨onward.1, moves.symm⟩⟩
      refine ⟨(found, mid) :: rest, List.isChain_cons_cons.mpr ⟨link, linked⟩, rfl, last, ?_, ended⟩
      rwa [List.getLast?_cons_cons]

theorem Repeats.maximal (first : Forward template) (between : Forward separator)
    {values : List α} (repeated : Repeats template separator source pos values stop)
    (start : 0 ≤ pos) (inside : pos ≤ source.length) :
    ∃ chain, MaximalChain template separator source pos chain ∧ chain.map Prod.fst = values ∧
      chainEnd pos chain = stop := by
  cases repeated with
  | absent fails =>
      exact ⟨[], ⟨fails.symm, List.isChain_nil, by simp⟩, rfl, rfl⟩
  | present taken loops =>
      rename_i value mid _ _
      have onward := first source pos value mid taken start inside
      obtain ⟨rest, linked, rfl, last, final, ended⟩ :=
        loops.linked first between (Int.le_trans start onward.1) onward.2 value
      refine ⟨(value, mid) :: rest, ⟨taken.symm, linked, ?_⟩, rfl, ?_⟩
      · intro found same
        rw [final] at same
        cases same
        exact ended
      · rw [chainEnd, final]
        rfl

/-- Inside the text, a repetition of matchers that do not go back reads the one chain of occurrences
that has come to its end, and gives their values and the position behind the last of them; where the
template fails at once, there is none. Every chain of occurrences from the position on is a
beginning of the one that is read. -/
theorem separated_reads_maximal_chain (first : Forward template) (between : Forward separator)
    (source : List Char) (start : 0 ≤ pos) (inside : pos ≤ source.length) :
    ((separated template separator).call source pos = (some [], pos) ↔
      template source pos = none) ∧
    ∃ chain, MaximalChain template separator source pos chain ∧
      (separated template separator).call source pos =
        (some (chain.map Prod.fst), chainEnd pos chain) ∧
      (∀ other, MaximalChain template separator source pos other → other = chain) ∧
      ∀ other, Chained template separator source pos other → other <+: chain := by
  obtain ⟨values, stop, taken, repeated⟩ := first.repeats between source start inside
  obtain ⟨chain, maximal, rfl, rfl⟩ := repeated.maximal first between start inside
  have called := call_eq_some_iff.mpr taken
  refine ⟨?_, chain, maximal, called, fun other => maximal.unique, fun other => maximal.extends⟩
  rw [called, ← maximal.starts]
  constructor
  · intro same
    have none_read := Option.some.inj (congrArg Prod.fst same)
    rw [List.map_eq_nil_iff.mp none_read]
    rfl
  · intro absent
    rw [List.head?_eq_none_iff.mp absent]
    rfl

/-- Words that are `a` or empty, between commas that may be left out. The first word is empty, both
pairs after it take something, and the pair that takes nothing is not read. -/
theorem empty_words_chained :
    Forward (firstOf [literal ['a'], literal []]) ∧ Forward (firstOf [literal [','], literal []]) ∧
    ∃ chain, MaximalChain (firstOf [literal ['a'], literal []])
        (firstOf [literal [','], literal []]) ",a,ab".toList 0 chain ∧
      chain.map Prod.fst = [[], ['a'], ['a']] ∧ chainEnd 0 chain = 4 := by
  have forward : ∀ word : List Char, Forward (firstOf [literal word, literal []]) := by
    intro word
    apply Orderly.forward
    apply Orderly.firstOf
    simp [literal_orderly]
  have read : (separated (firstOf [literal ['a'], literal []])
      (firstOf [literal [','], literal []])).call ",a,ab".toList 0 =
      (some [[], ['a'], ['a']], 4) := rfl
  obtain ⟨_, chain, maximal, called, _⟩ := separated_reads_maximal_chain (forward ['a'])
    (forward [',']) ",a,ab".toList (Int.le_refl 0) (by decide)
  rw [called, Prod.mk.injEq, Option.some.injEq] at read
  exact ⟨forward ['a'], forward [','], chain, maximal, read⟩

end Rulebook.Matcher
