import Rulebook.Proofs.RestPosition

/-!
Where matchers stop. A relation between the position before a match and the position behind it that
every position has to itself, and that goes on from one match to the next, holds of a whole if it
holds of the parts. With a number that falls whenever a round goes somewhere, it also ends the
rounds of a repetition, which nothing else does: `Loops` is the loop without any bound on its
attempts.
-/

namespace Rulebook.Matcher

variable {α β : Type}

/-! ## Rounds without a bound -/

/-- A loop over a matcher that has come to an end by itself, and the number of attempts it took. -/
inductive Loops (round : Matcher α) (source : List Char) : Nat → Int → List α → Int → Prop where
  | failed {pos} : round source pos = none → Loops round source 1 pos [] pos
  | stayed {pos value} : round source pos = some (value, pos) → Loops round source 1 pos [] pos
  | moved {attempts pos value mid values stop} : round source pos = some (value, mid) → mid ≠ pos →
      Loops round source attempts mid values stop →
      Loops round source (attempts + 1) pos (value :: values) stop

/-- One template, then the loop over pairs of a separator and a template. -/
inductive Repeats (template : Matcher α) (separator : Matcher β) (source : List Char) :
    Int → List α → Int → Prop where
  | absent {pos} : template source pos = none → Repeats template separator source pos [] pos
  | present {pos first mid attempts values stop} : template source pos = some (first, mid) →
      Loops (map Prod.snd (both separator template)) source attempts mid values stop →
      Repeats template separator source pos (first :: values) stop

theorem Loops.rounds_eq {round : Matcher α} {source : List Char} {attempts bound : Nat}
    {pos stop : Int} {values : List α} (loops : Loops round source attempts pos values stop)
    (enough : attempts ≤ bound) : rounds round source bound pos = (values, stop) := by
  induction loops generalizing bound with
  | failed fails =>
      cases bound with
      | zero => omega
      | succ bound => simp only [rounds, fails]
  | stayed stays =>
      cases bound with
      | zero => omega
      | succ bound => simp only [rounds, stays, if_true]
  | moved found moves _ ih =>
      cases bound with
      | zero => omega
      | succ bound => simp only [rounds, found, if_neg moves, ih (Nat.le_of_succ_le_succ enough)]

theorem Loops.unique {round : Matcher α} {source : List Char} {attempts tries : Nat}
    {pos stop last : Int} {values others : List α}
    (first : Loops round source attempts pos values stop)
    (second : Loops round source tries pos others last) : values = others ∧ stop = last := by
  have left := first.rounds_eq (Nat.le_max_left attempts tries)
  have right := second.rounds_eq (Nat.le_max_right attempts tries)
  exact Prod.mk.inj (left.symm.trans right)

theorem Repeats.unique {template : Matcher α} {separator : Matcher β} {source : List Char}
    {pos stop last : Int} {values others : List α}
    (first : Repeats template separator source pos values stop)
    (second : Repeats template separator source pos others last) :
    values = others ∧ stop = last := by
  cases first with
  | absent fails =>
      cases second with
      | absent => exact ⟨rfl, rfl⟩
      | present found => rw [fails] at found; contradiction
  | present taken loops =>
      cases second with
      | absent fails => rw [fails] at taken; contradiction
      | present found others =>
          rw [taken] at found
          cases found
          obtain ⟨rfl, rfl⟩ := loops.unique others
          exact ⟨rfl, rfl⟩

/-- A loop ends if some number falls with every round that goes somewhere. -/
theorem loops_of_falling {round : Matcher α} {source : List Char} {inside : Int → Prop}
    {left : Int → Nat} (falls : ∀ pos value stop, inside pos →
      round source pos = some (value, stop) → stop ≠ pos → inside stop ∧ left stop < left pos)
    (pos : Int) (start : inside pos) :
    ∃ attempts values stop, attempts ≤ left pos + 1 ∧
      Loops round source attempts pos values stop := by
  induction bound : left pos using Nat.strongRecOn generalizing pos with
  | ind bound ih =>
      subst bound
      cases found : round source pos with
      | none => exact ⟨1, [], pos, by omega, Loops.failed found⟩
      | some result =>
          obtain ⟨value, mid⟩ := result
          by_cases stays : mid = pos
          · subst stays
            exact ⟨1, [], mid, by omega, Loops.stayed found⟩
          · obtain ⟨within, less⟩ := falls pos value mid start found stays
            obtain ⟨attempts, values, stop, few, loops⟩ := ih (left mid) less mid within rfl
            exact ⟨attempts + 1, value :: values, stop, by omega, Loops.moved found stays loops⟩

theorem separated_repeats {template : Matcher α} {separator : Matcher β} {source : List Char}
    {inside : Int → Prop} {left : Int → Nat}
    (within : ∀ pos value stop, inside pos → template source pos = some (value, stop) → inside stop)
    (falls : ∀ pos value stop, inside pos →
      map Prod.snd (both separator template) source pos = some (value, stop) → stop ≠ pos →
      inside stop ∧ left stop < left pos)
    (bound : ∀ pos, inside pos → left pos ≤ source.length + 1) (pos : Int) (start : inside pos) :
    ∃ values stop, separated template separator source pos = some (values, stop) ∧
      Repeats template separator source pos values stop := by
  cases found : template source pos with
  | none => exact ⟨[], pos, by simp only [separated, found], Repeats.absent found⟩
  | some result =>
      obtain ⟨first, mid⟩ := result
      have next := within pos first mid start found
      obtain ⟨attempts, values, stop, few, loops⟩ := loops_of_falling falls mid next
      have enough : attempts ≤ source.length + 2 :=
        Nat.le_trans few (Nat.succ_le_succ (bound mid next))
      refine ⟨first :: values, stop, ?_, Repeats.present found loops⟩
      simp only [separated, found, loops.rounds_eq enough]

theorem separated_eq_some_iff {template : Matcher α} {separator : Matcher β} {source : List Char}
    {pos stop : Int} {values : List α}
    (runs : ∃ found last, separated template separator source pos = some (found, last) ∧
      Repeats template separator source pos found last) :
    separated template separator source pos = some (values, stop) ↔
      Repeats template separator source pos values stop := by
  obtain ⟨found, last, taken, repeated⟩ := runs
  rw [taken]
  constructor
  · intro same
    cases same
    exact repeated
  · intro other
    obtain ⟨rfl, rfl⟩ := repeated.unique other
    rfl

/-! ## Relations that composition keeps -/

structure Path (moves : Int → Int → Prop) : Prop where
  stay : ∀ pos, moves pos pos
  goOn : ∀ {pos mid stop}, moves pos mid → moves mid stop → moves pos stop

/-- Every match in the source leads from its position to a related one. -/
def Follows (moves : Int → Int → Prop) (source : List Char) (matcher : Matcher α) : Prop :=
  ∀ pos value stop, matcher source pos = some (value, stop) → moves pos stop

variable {moves : Int → Int → Prop} {source : List Char}

theorem Follows.map {matcher : Matcher α} (follows : Follows moves source matcher) (f : α → β) :
    Follows moves source (Matcher.map f matcher) := by
  intro pos value stop taken
  obtain ⟨found, taken, _⟩ := map_eq_some.mp taken
  exact follows pos found stop taken

theorem Follows.both (path : Path moves) {left : Matcher α} {right : Matcher β}
    (first : Follows moves source left) (second : Follows moves source right) :
    Follows moves source (Matcher.both left right) := by
  intro pos value stop taken
  obtain ⟨mid, front, back⟩ := both_eq_some.mp taken
  exact path.goOn (first pos _ mid front) (second mid _ stop back)

theorem Follows.firstOf {alternatives : List (Matcher α)}
    (each : ∀ matcher ∈ alternatives, Follows moves source matcher) :
    Follows moves source (Matcher.firstOf alternatives) := by
  intro pos value stop taken
  obtain ⟨matcher, member, hit⟩ := firstOf_eq_some_mem taken
  exact each matcher member pos value stop hit

theorem Follows.allOf (path : Path moves) {parts : List (Matcher α)}
    (each : ∀ matcher ∈ parts, Follows moves source matcher) :
    Follows moves source (Matcher.allOf parts) := by
  induction parts with
  | nil =>
      intro pos value stop taken
      cases taken
      exact path.stay pos
  | cons first others ih =>
      have later := ih fun matcher member => each matcher (List.mem_cons_of_mem first member)
      intro pos value stop taken
      simp only [Matcher.allOf] at taken
      split at taken
      · contradiction
      · rename_i mid front
        split at taken
        · contradiction
        · rename_i back
          cases taken
          exact path.goOn (each first List.mem_cons_self _ _ _ front) (later _ _ _ back)

theorem Loops.follows (path : Path moves) {round : Matcher α} {attempts : Nat} {pos stop : Int}
    {values : List α} (each : Follows moves source round)
    (loops : Loops round source attempts pos values stop) : moves pos stop := by
  induction loops with
  | failed | stayed => exact path.stay _
  | moved found _ _ ih => exact path.goOn (each _ _ _ found) ih

theorem Repeats.follows (path : Path moves) {template : Matcher α} {separator : Matcher β}
    {pos stop : Int} {values : List α} (first : Follows moves source template)
    (between : Follows moves source separator)
    (repeated : Repeats template separator source pos values stop) : moves pos stop := by
  cases repeated with
  | absent => exact path.stay _
  | present found loops =>
      exact path.goOn (first _ _ _ found) (loops.follows path ((between.both path first).map _))

end Rulebook.Matcher
