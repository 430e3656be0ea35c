import Rulebook.Proofs.Assembly
import Rulebook.Proofs.SeparatedChain

/-!
What a match has taken. The way of a success through a matcher leaves a trace: the words of the
atomic matchers on it, nested as the value is, those of the separators of repetitions among them. An
alternative that was tried before the one that matched is not on the way, nor is the round of a
repetition that failed or took nothing. There is one such way; its words are the text between the
position of the call and the one behind the match, and its value is the trace without separators.
-/

namespace Rulebook

open Matcher (map both Loops Repeats Leads Ended)

/-! ## Traces -/

/-- What the atomic matchers took, nested as the value, with the traces of separators marked. -/
inductive Trace where
  | word (taken : List Char)
  | parts (traces : List Trace)
  | separator (trace : Trace)

namespace Trace

mutual

def words : Trace → List (List Char)
  | .word taken => [taken]
  | .parts traces => wordsAll traces
  | .separator trace => words trace

def wordsAll : List Trace → List (List Char)
  | [] => []
  | first :: others => words first ++ wordsAll others

end

mutual

/-- The value that is left when the separators are erased; nothing is left of a separator. -/
def values : Trace → List Value
  | .word taken => [.text taken]
  | .parts traces => [.list (valuesAll traces)]
  | .separator _ => []

def valuesAll : List Trace → List Value
  | [] => []
  | first :: others => values first ++ valuesAll others

end

theorem values_parts_iff {traces : List Trace} {values : List Value} :
    (Trace.parts traces).values = [.list values] ↔ valuesAll traces = values := by
  simp [Trace.values]

end Trace

namespace Value

mutual

def words : Value → List (List Char)
  | .text value => [value]
  | .list values => wordsAll values
  | .node _ => []

def wordsAll : List Value → List (List Char)
  | [] => []
  | first :: others => words first ++ wordsAll others

end

theorem wordsAll_append (left right : List Value) :
    wordsAll (left ++ right) = wordsAll left ++ wordsAll right := by
  induction left with
  | nil => rfl
  | cons first others ih => rw [List.cons_append, wordsAll, wordsAll, ih, List.append_assoc]

end Value

namespace Assembly

/-- The way of a success. A choice goes on to an alternative when those before it fail; a repetition
goes on as long as its pair matches and does not end where it started. -/
inductive Traced (source : List Char) : Assembly → Int → Trace → Int → Prop where
  | literal {word pos taken stop} : Matcher.literal word source pos = some (taken, stop) →
      Traced source (.literal word) pos (.word taken) stop
  | pattern {regex pos taken stop} : regex.matcher source pos = some (taken, stop) →
      Traced source (.pattern regex) pos (.word taken) stop
  | first {first others pos trace stop} : Traced source first pos trace stop →
      Traced source (.firstOf (first :: others)) pos trace stop
  | other {first others pos trace stop} : first.matcher source pos = none →
      Traced source (.firstOf others) pos trace stop →
      Traced source (.firstOf (first :: others)) pos trace stop
  | done {pos} : Traced source (.allOf []) pos (.parts []) pos
  | next {first others pos trace mid traces stop} : Traced source first pos trace mid →
      Traced source (.allOf others) mid (.parts traces) stop →
      Traced source (.allOf (first :: others)) pos (.parts (trace :: traces)) stop
  | absent {template separator pos} : template.matcher source pos = none →
      Traced source (.separated template separator) pos (.parts []) pos
  | last {template separator pos trace stop} : Traced source template pos trace stop →
      Ended template.matcher separator.matcher source stop →
      Traced source (.separated template separator) pos (.parts [trace]) stop
  | more {template separator pos trace mid between start later traces stop} :
      Traced source template pos trace mid → Traced source separator mid between start →
      Traced source (.separated template separator) start (.parts (later :: traces)) stop →
      ¬ Ended template.matcher separator.matcher source mid →
      Traced source (.separated template separator) pos
        (.parts (trace :: .separator between :: later :: traces)) stop

variable {source : List Char} {assembly template separator : Assembly} {pos mid stop : Int}
  {trace : Trace} {value : Value}

/-! ## A match leaves a trace -/

def LeavesTrace (source : List Char) (assembly : Assembly) : Prop :=
  ∀ pos value stop, assembly.matcher source pos = some (value, stop) →
    ∃ trace, Traced source assembly pos trace stop ∧ trace.values = [value]

theorem firstOf_leavesTrace {alternatives : List Assembly}
    (each : ∀ alternative ∈ alternatives, LeavesTrace source alternative) :
    LeavesTrace source (.firstOf alternatives) := by
  induction alternatives with
  | nil =>
      intro pos value stop taken
      contradiction
  | cons first others ih =>
      have later := ih fun other member => each other (List.mem_cons_of_mem first member)
      intro pos value stop taken
      simp only [matcher, matchers, Matcher.firstOf] at taken
      split at taken
      · rename_i found
        cases taken
        obtain ⟨trace, traced, same⟩ := each first List.mem_cons_self pos value stop found
        exact ⟨trace, Traced.first traced, same⟩
      · rename_i fails
        obtain ⟨trace, traced, same⟩ := later pos value stop taken
        exact ⟨trace, Traced.other fails traced, same⟩

theorem allOf_leavesTrace {parts : List Assembly}
    (each : ∀ part ∈ parts, LeavesTrace source part) {pos stop : Int} {values : List Value}
    (taken : Matcher.allOf (matchers parts) source pos = some (values, stop)) :
    ∃ traces, Traced source (.allOf parts) pos (.parts traces) stop ∧
      Trace.valuesAll traces = values := by
  induction parts generalizing pos values with
  | nil =>
      cases taken
      exact ⟨[], Traced.done, rfl⟩
  | cons first others ih =>
      simp only [matchers, Matcher.allOf] at taken
      split at taken
      · contradiction
      · rename_i value mid front
        split at taken
        · contradiction
        · rename_i back
          cases taken
          obtain ⟨trace, traced, same⟩ := each first List.mem_cons_self pos value mid front
          obtain ⟨traces, later, rfl⟩ :=
            ih (fun part member => each part (List.mem_cons_of_mem first member)) back
          refine ⟨trace :: traces, Traced.next traced later, ?_⟩
          rw [Trace.valuesAll, same, List.singleton_append]

theorem loops_leaveTrace (first : LeavesTrace source template)
    (between : LeavesTrace source separator) {attempts : Nat} {values : List Value}
    (loops : Loops (map Prod.snd (both separator.matcher template.matcher)) source attempts mid
      values stop) (traced : Traced source template pos trace mid) :
    ∃ traces, Traced source (.separated template separator) pos (.parts (trace :: traces)) stop ∧
      Trace.valuesAll traces = values := by
  induction loops generalizing pos trace with
  | failed fails => exact ⟨[], Traced.last traced (Matcher.ended_of_failed fails), rfl⟩
  | stayed stays =>
      have ended := (Matcher.round_eq_some_iff.mp stays).ended_iff.mpr rfl
      exact ⟨[], Traced.last traced ended, rfl⟩
  | moved found moves _ ih =>
      -- the round leaves the traces of its pair, and the loop goes on behind the second of them
      have leads := Matcher.round_eq_some_iff.mp found
      have goesOn := mt leads.ended_iff.mp moves
      obtain ⟨dropped, start, front, back⟩ := leads
      obtain ⟨separation, apart, _⟩ := between _ _ _ front
      obtain ⟨later, again, same⟩ := first _ _ _ back
      obtain ⟨traces, rest, rfl⟩ := ih again
      refine ⟨.separator separation :: later :: traces, Traced.more traced apart rest goesOn, ?_⟩
      simp only [Trace.valuesAll, Trace.values, same, List.nil_append, List.singleton_append]

theorem leavesTrace (source : List Char) (assembly : Assembly) : LeavesTrace source assembly := by
  induction assembly using inParts with
  | literal word =>
      intro pos value stop taken
      obtain ⟨found, hit, rfl⟩ := Matcher.map_eq_some.mp taken
      exact ⟨.word found, Traced.literal hit, rfl⟩
  | pattern regex =>
      intro pos value stop taken
      obtain ⟨found, hit, rfl⟩ := Matcher.map_eq_some.mp taken
      exact ⟨.word found, Traced.pattern hit, rfl⟩
  | firstOf ih => exact firstOf_leavesTrace ih
  | allOf ih =>
      intro pos value stop taken
      obtain ⟨values, all, rfl⟩ := Matcher.map_eq_some.mp taken
      obtain ⟨traces, traced, rfl⟩ := allOf_leavesTrace ih all
      exact ⟨.parts traces, traced, rfl⟩
  | separated ihTemplate ihSeparator =>
      intro pos value stop taken
      obtain ⟨values, _, rfl⟩ := Matcher.map_eq_some.mp taken
      cases separated_taken_iff.mp taken with
      | absent fails => exact ⟨.parts [], Traced.absent fails, rfl⟩
      | present found loops =>
          obtain ⟨trace, traced, same⟩ := ihTemplate _ _ _ found
          obtain ⟨traces, whole, rfl⟩ := loops_leaveTrace ihTemplate ihSeparator loops traced
          refine ⟨.parts (trace :: traces), whole, ?_⟩
          rw [Trace.values, Trace.valuesAll, same, List.singleton_append]

/-! ## A trace is left by a match -/

theorem Traced.taken (traced : Traced source assembly pos trace stop) :
    ∃ value, assembly.matcher source pos = some (value, stop) ∧ trace.values = [value] := by
  induction traced with
  | literal taken => exact ⟨_, Matcher.map_eq_some.mpr ⟨_, taken, rfl⟩, rfl⟩
  | pattern taken => exact ⟨_, Matcher.map_eq_some.mpr ⟨_, taken, rfl⟩, rfl⟩
  | first _ ih =>
      obtain ⟨value, taken, same⟩ := ih
      exact ⟨value, by simp only [matcher, matchers, Matcher.firstOf, taken], same⟩
  | other fails _ ih =>
      obtain ⟨value, taken, same⟩ := ih
      exact ⟨value, by simpa only [matcher, matchers, Matcher.firstOf, fails] using taken, same⟩
  | done => exact ⟨.list [], rfl, rfl⟩
  | next _ _ ihFirst ihOthers =>
      obtain ⟨value, front, same⟩ := ihFirst
      obtain ⟨_, rest, others⟩ := ihOthers
      obtain ⟨values, back, rfl⟩ := Matcher.map_eq_some.mp rest
      refine ⟨.list (value :: values), ?_, ?_⟩
      · rw [matcher, Matcher.map_eq_some]
        refine ⟨value :: values, ?_, rfl⟩
        simp only [matchers, Matcher.allOf, front, back]
      · rw [Trace.values_parts_iff] at others ⊢
        rw [Trace.valuesAll, same, others, List.singleton_append]
  | absent fails => exact ⟨.list [], separated_taken_iff.mpr (Repeats.absent fails), rfl⟩
  | last _ ended ih =>
      obtain ⟨value, taken, same⟩ := ih
      refine ⟨.list [value], separated_taken_iff.mpr (Repeats.present taken ended.loops), ?_⟩
      rw [Trace.values, Trace.valuesAll, same]
      rfl
  | more _ _ _ goesOn ihTemplate ihSeparator ihRest =>
      obtain ⟨value, taken, same⟩ := ihTemplate
      obtain ⟨dropped, front, _⟩ := ihSeparator
      obtain ⟨_, rest, others⟩ := ihRest
      obtain ⟨values, _, rfl⟩ := Matcher.map_eq_some.mp rest
      rw [Trace.values_parts_iff] at others
      -- the rest is a repetition from behind the separator: its first occurrence closes the round
      cases separated_taken_iff.mp rest with
      | absent fails => exact absurd (Matcher.ended_of_absent front fails) goesOn
      | present found loops =>
          have leads : Leads _ _ _ _ _ := ⟨dropped, _, front, found⟩
          have moved := Loops.moved (Matcher.round_eq_some_iff.mpr leads)
            (mt leads.ended_iff.mpr goesOn) loops
          refine ⟨_, separated_taken_iff.mpr (Repeats.present taken moved), ?_⟩
          rw [Trace.values_parts_iff, Trace.valuesAll, Trace.valuesAll, same, others]
          rfl

theorem Traced.matches (traced : Traced source assembly pos trace stop) :
    assembly.matcher source pos ≠ none := by
  obtain ⟨value, taken, _⟩ := traced.taken
  simp [taken]

theorem Traced.unique (traced : Traced source assembly pos trace stop) {another : Trace}
    {last : Int} (second : Traced source assembly pos another last) :
    another = trace ∧ last = stop := by
  induction traced generalizing another last with
  | literal taken =>
      cases second with
      | literal found =>
          rw [taken] at found
          cases found
          exact ⟨rfl, rfl⟩
  | pattern taken =>
      cases second with
      | pattern found =>
          rw [taken] at found
          cases found
          exact ⟨rfl, rfl⟩
  -- later alternatives count only where the earlier ones fail, so both traces took the same one
  | first traced ih =>
      cases second with
      | first found => exact ih found
      | other fails _ => exact absurd fails traced.matches
  | other fails _ ih =>
      cases second with
      | first found => exact absurd fails found.matches
      | other _ found => exact ih found
  | done =>
      cases second
      exact ⟨rfl, rfl⟩
  | next _ _ ihFirst ihOthers =>
      cases second with
      | next front back =>
          obtain ⟨rfl, rfl⟩ := ihFirst front
          obtain ⟨same, rfl⟩ := ihOthers back
          cases same
          exact ⟨rfl, rfl⟩
  | absent fails =>
      cases second with
      | absent => exact ⟨rfl, rfl⟩
      | last found | more found => exact absurd fails found.matches
  -- whether a round was the last is decided by where it stopped, and both stopped at one place
  | last traced ended ih =>
      cases second with
      | absent fails => exact absurd fails traced.matches
      | last found _ =>
          obtain ⟨rfl, rfl⟩ := ih found
          exact ⟨rfl, rfl⟩
      | more found _ _ goesOn =>
          obtain ⟨_, rfl⟩ := ih found
          exact absurd ended goesOn
  | more traced _ _ goesOn ihTemplate ihSeparator ihRest =>
      cases second with
      | absent fails => exact absurd fails traced.matches
      | last found ended =>
          obtain ⟨_, rfl⟩ := ihTemplate found
          exact absurd ended goesOn
      | more found apart rest _ =>
          obtain ⟨rfl, rfl⟩ := ihTemplate found
          obtain ⟨rfl, rfl⟩ := ihSeparator apart
          obtain ⟨same, rfl⟩ := ihRest rest
          cases same
          exact ⟨rfl, rfl⟩

/-! ## The text of a trace -/

theorem Traced.onward (traced : Traced source assembly pos trace stop) :
    Onward source.length pos stop := by
  obtain ⟨value, taken, _⟩ := traced.taken
  exact assembly.orderly.forward source pos value stop taken

theorem Traced.words_eq_slice (traced : Traced source assembly pos trace stop) (start : 0 ≤ pos)
    (inside : pos ≤ source.length) : trace.words.flatten = slice source pos stop := by
  induction traced with
  | literal hit => simp [Trace.words, Matcher.literal_gives hit]
  | @pattern regex pos taken stop hit =>
      simp [Trace.words, regex.gives source pos taken stop hit]
  | first _ ih => exact ih start inside
  | other _ _ ih => exact ih start inside
  | done => exact (slice_self start inside).symm
  | next front back ihFirst ihOthers =>
      have first := front.onward start inside
      have middle := Int.le_trans start first.1
      have second := back.onward middle first.2
      have others := ihOthers middle first.2
      rw [Trace.words] at others
      rw [Trace.words, Trace.wordsAll, List.flatten_append, ihFirst start inside, others,
        slice_append_slice start first.1 second.1 second.2]
  | absent => exact (slice_self start inside).symm
  | last _ _ ih => simpa [Trace.words, Trace.wordsAll] using ih start inside
  | more traced apart rest _ ihTemplate ihSeparator ihRest =>
      -- three slices meet: the occurrence, the separator behind it and the rest of the repetition
      have first := traced.onward start inside
      have middle := Int.le_trans start first.1
      have second := apart.onward middle first.2
      have beyond := Int.le_trans middle second.1
      have third := rest.onward beyond second.2
      have others := ihRest beyond second.2
      rw [Trace.words] at others
      rw [Trace.words, Trace.wordsAll, Trace.wordsAll, Trace.words, List.flatten_append,
        List.flatten_append, ihTemplate start inside, ihSeparator middle first.2, others,
        slice_append_slice middle second.1 third.1 third.2,
        slice_append_slice start first.1 (Int.le_trans second.1 third.1) third.2]

theorem Traced.words_values (traced : Traced source assembly pos trace stop)
    (loopless : assembly.loopless = true) : Value.wordsAll trace.values = trace.words := by
  induction traced with
  | literal | pattern => rfl
  | first _ ih =>
      simp only [Assembly.loopless, looplessAll, Bool.and_eq_true] at loopless
      exact ih loopless.1
  | other _ _ ih =>
      simp only [Assembly.loopless, looplessAll, Bool.and_eq_true] at loopless
      exact ih loopless.2
  | done => rfl
  | @next first others _ trace _ traces _ _ _ ihFirst ihOthers =>
      simp only [Assembly.loopless, looplessAll, Bool.and_eq_true] at loopless ihOthers
      have back := ihOthers loopless.2
      simp only [Trace.values, Trace.words, Value.wordsAll, Value.words, List.append_nil] at back ⊢
      rw [Trace.valuesAll, Value.wordsAll_append, ihFirst loopless.1, back, Trace.wordsAll]
  | absent | last | more => simp [Assembly.loopless] at loopless

/-- A match that starts in the text has left one trace. Its words, those of separators among them,
are the text between the position of the call and the one behind the match; what stays of it without
the separators is the value; and so the strings in a value are the whole text that was taken, if no
repetition has dropped any. -/
theorem match_leaves_trace (assembly : Assembly) (source : List Char) (start : 0 ≤ pos)
    (inside : pos ≤ source.length)
    (called : assembly.matcher.call source pos = (some value, stop)) :
    ∃ trace, (∀ another last, Traced source assembly pos another last ↔
        another = trace ∧ last = stop) ∧
      trace.words.flatten = slice source pos stop ∧ trace.values = [value] ∧
      (assembly.loopless = true → value.words.flatten = slice source pos stop) := by
  have taken := Matcher.call_eq_some_iff.mp called
  obtain ⟨trace, traced, same⟩ := assembly.leavesTrace source pos value stop taken
  have whole := traced.words_eq_slice start inside
  refine ⟨trace, fun another last => ⟨traced.unique, ?_⟩, whole, same, fun loopless => ?_⟩
  · rintro ⟨rfl, rfl⟩
    exact traced
  · have kept := traced.words_values loopless
    rw [same, Value.wordsAll, Value.wordsAll, List.append_nil] at kept
    rw [kept, whole]

/-- Any character and perhaps a `b`, between commas. The comma before the end is tried, and left
alone because nothing follows it. -/
theorem lettered_pairs_trace : ∃ assembly, Plan.build? (.separated (.allOf
      [.pattern ['.'] ⟨false, false⟩, .firstOf [.literal ['b'], .literal []]])
      (.literal [','])) = some assembly.matcher ∧
    assembly.matcher.call "xa,ab,".toList 1 = (some (.list [.list [.text ['a'], .text []],
      .list [.text ['a'], .text ['b']]]), 5) ∧
    ∃ trace, Traced "xa,ab,".toList assembly 1 trace 5 ∧ trace.words.flatten = "a,ab".toList := by
  have tokens : Regex.tokens? [.plain '.'] = some [.atom .any] := by
    simp [Regex.tokens?_cons, Regex.tokens?, Regex.token?, Regex.plain?, Regex.simpleBounds?,
      Regex.plainToken]
  have letters : Regex.letters ['.'] = some [.plain '.'] := rfl
  have readable : Regex.read? ['.'] = some (.cat .any .empty) := by
    simp only [Regex.read?, letters, tokens]
    rfl
  have assembled : Plan.assembly? (.separated (.allOf
      [.pattern ['.'] ⟨false, false⟩, .firstOf [.literal ['b'], .literal []]])
      (.literal [','])) = some (.separated (.allOf
        [.pattern (SliceMatcher.ofRegex (.cat .any .empty) ⟨false, false⟩),
          .firstOf [.literal ['b'], .literal []]])
        (.literal [','])) := by
    simp only [Plan.assembly?, Plan.assemblies?, readable, Option.map_some]
  refine ⟨_, Plan.build?_of_assembly? assembled, (and_iff_left_of_imp fun called => ?_).mpr ?_⟩
  · obtain ⟨trace, traced, whole, _⟩ :=
      match_leaves_trace _ "xa,ab,".toList (by decide) (by decide) called
    exact ⟨trace, (traced trace 5).mpr ⟨rfl, rfl⟩, whole⟩
  · simp only [matcher, matchers]
    rfl

end Assembly

end Rulebook
