import Rulebook.Proofs.Composition
import Rulebook.Proofs.Locality

/-!
Reading without going back. A tier tries its operation first, and where that cannot be read it reads
the operand alone, which the operation has read already; with groups in groups, what is inside is
read again for every tier around it. The readers of one pass keep an operand once they have it and
look behind it for an operator and an item. They need no bound on their depth, for they call
themselves with less text, or with the same text at a tighter level. They find what the tiers find.
-/

namespace Rulebook.Reader

open Matcher (map both token firstOf orderly_composes)
open Grammar (Level Part itemOf)

/-! ## Keeping the operand -/

/-- What an operand becomes: an operation, if an operator and an item are behind it, and else
itself. -/
def extended (level : Level) (item : Matcher Expr) (source : List Char) :
    Expr × Int → Expr × Int := fun (left, mid) =>
  match both (token level.extent) item source mid with
  | none => (left, mid)
  | some ((_, right), stop) => (level.join left right, stop)

theorem firstOf_of_none {first second : Matcher Expr} {source : List Char} {pos : Int}
    (fails : first source pos = none) : firstOf [first, second] source pos = second source pos := by
  cases found : second source pos <;> simp only [firstOf, fails, found]

theorem firstOf_reader (level : Level) (operand item : Matcher Expr) (source : List Char)
    (pos : Int) : firstOf [level.reader operand item, operand] source pos =
      (operand source pos).map (extended level item source) := by
  cases first : operand source pos with
  | none =>
      have fails : level.reader operand item source pos = none := by
        simp only [Level.reader, map, both, first, Option.map_none]
      rw [firstOf_of_none fails, first, Option.map_none]
  | some found =>
      cases second : both (token level.extent) item source found.2 with
      | none =>
          have fails : level.reader operand item source pos = none := by
            rw [Level.reader, map, both, first]
            simp only [second, Option.map_none]
          rw [firstOf_of_none fails, first]
          simp only [Option.map_some, extended, second]
      | some tail =>
          have joins : level.reader operand item source pos =
              some (level.join found.1 tail.1.2, tail.2) := by
            rw [Level.reader, map, both, first]
            simp only [second, Option.map_some]
          simp only [firstOf, joins, Option.map_some, extended, second]

theorem itemOf_over (inner : Tiers) (level : Level) : itemOf inner.over level =
    firstOf [level.reader (operandOf inner.over level) (itemOf inner level),
      operandOf inner.over level] := by
  cases level <;> rfl

/-! ## Readers over themselves -/

def readers : Tiers := ⟨atom, factor, term, expression⟩

theorem partOf_over_readers (part : Part) (source : List Char) (pos : Int) :
    partOf readers.over part source pos = part.matcher source pos := by
  have inner : ∀ level, AgreeFrom source 1 (itemOf readers level)
      (itemOf (Tiers.ofDepth (source.length + 1)) level) := by
    intro level pos _
    cases level <;> rfl
  -- so one more level on either side makes no difference, and that level is not needed
  obtain ⟨atom, item⟩ := over_agree inner (orderly_composes.ofDepth (source.length + 1)).2
  obtain ⟨atomOrderly, itemOrderly⟩ := orderly_composes.ofDepth (source.length + 2)
  have deeper := partOf_agree atom item atomOrderly itemOrderly part pos (Nat.zero_le _)
  have deep : source.length < source.length + 2 := by omega
  have enough := partOf_above (Tiers.ofDepth 0) part deep pos
  rw [← ofDepth_eq_above] at enough
  exact deeper.trans enough

theorem operandOf_over_readers (level : Level) (source : List Char) (pos : Int) :
    operandOf readers.over level source pos = level.operand.matcher source pos := by
  cases level with
  | repetition => exact partOf_over_readers .atom source pos
  | sequence => exact partOf_over_readers (.item .repetition) source pos
  | union => exact partOf_over_readers (.item .sequence) source pos

theorem item_eq_extended (level : Level) (source : List Char) (pos : Int) :
    (Part.item level).matcher source pos =
      (level.operand.matcher source pos).map (extended level (Part.item level).matcher source) := by
  have same : itemOf readers level = (Part.item level).matcher := by cases level <;> rfl
  rw [← partOf_over_readers, partOf, itemOf_over, firstOf_reader, operandOf_over_readers, same]

theorem item_of_operation_none {level : Level} {source : List Char} {pos : Int}
    (fails : (Part.operation level).matcher source pos = none) :
    (Part.item level).matcher source pos = level.operand.matcher source pos := by
  have operation : (Part.operation level).matcher =
      level.reader level.operand.matcher (Part.item level).matcher := by cases level <;> rfl
  rw [operation] at fails
  rw [item_eq_extended, ← firstOf_reader, firstOf_of_none fails]

def leaf : Matcher Expr := firstOf [text, pattern, reference]

theorem atom_eq_leaf_or_group (source : List Char) (pos : Int) :
    atom source pos = (leaf source pos).or (group source pos) := by
  have choice : atom source pos = firstOf [text, pattern, reference, group] source pos :=
    (partOf_over_readers .atom source pos).symm
  have alone : firstOf [group] source pos = group source pos := by
    cases taken : group source pos <;> simp only [firstOf, taken]
  rw [choice, leaf, ← alone]
  exact Matcher.firstOf_append [text, pattern, reference] [group] source pos

/-! ## Off the front of a text -/

/-- A tree read off the front of a text, and what is left of the text, which is less. -/
structure Front (text : List Char) where
  tree : Expr
  rest : List Char
  ending : rest <:+ text
  shorter : rest.length < text.length

def behind (extent : List Char → Option Nat) (text : List Char) : Option (List Char) :=
  (extent text).map text.drop

section

variable {source text rest : List Char} {extent : List Char → Option Nat}

theorem behind_suffix (taken : behind extent text = some rest) : rest <:+ text := by
  obtain ⟨count, _, rfl⟩ := Option.map_eq_some_iff.mp taken
  exact List.drop_suffix count text

theorem opened_shorter {mark : Char} (taken : behind (Token.opened mark) text = some rest) :
    rest.length < text.length := by
  obtain ⟨count, opens, rfl⟩ := Option.map_eq_some_iff.mp taken
  obtain ⟨_, rest, rfl, ⟨⟨blanks, _, rfl⟩, _⟩, rfl⟩ :=
    (Grammar.opened_takes mark text count).mp opens
  rw [List.drop_left]
  simp only [List.length_append, List.length_cons]
  omega

theorem token_none (ending : text <:+ source) (absent : behind extent text = none) :
    token extent source (posOf source text) = none := by
  have absent : extent text = none := by simpa [behind] using absent
  simp only [token, Matcher.anchored, resolve_posOf, drop_of_suffix ending, absent]

theorem token_some (within : Matcher.Within extent) (ending : text <:+ source)
    (taken : behind extent text = some rest) :
    ∃ value, token extent source (posOf source text) = some (value, posOf source rest) := by
  obtain ⟨count, found, rfl⟩ := Option.map_eq_some_iff.mp taken
  have start := ending.length_le
  have few := within text count found
  have stop : source.length - text.length + count = source.length - (text.drop count).length := by
    rw [List.length_drop]
    omega
  refine ⟨text.take count, ?_⟩
  simp only [token, Matcher.anchored, resolve_posOf, drop_of_suffix ending, found, stop]
  rfl

theorem drop_posOf (ending : rest <:+ text) : text.drop (posOf text rest).toNat = rest := by
  rw [posOf, Int.toNat_natCast, drop_of_suffix ending]

variable {tree : Expr} {stop : Int}

theorem leaf_stop (taken : leaf text 0 = some (tree, stop)) :
    ∃ rest, stop = posOf text rest ∧ rest <:+ text ∧ rest.length < text.length := by
  have read : ∀ part : Part, part.matcher text 0 = some (tree, stop) →
      ∃ rest, stop = posOf text rest ∧ rest <:+ text ∧ rest.length < text.length := by
    intro part found
    have ending := List.suffix_refl text
    rw [← posOf_self text] at found
    obtain ⟨rest, same, derived⟩ := (Grammar.part_exact part ending).sound found
    exact ⟨rest, same, derived.suffix ending, derived.shorter⟩
  obtain ⟨matcher, member, found⟩ := Matcher.firstOf_eq_some_mem taken
  simp only [List.mem_cons, List.not_mem_nil, or_false] at member
  rcases member with rfl | rfl | rfl
  · exact read .text found
  · exact read .pattern found
  · exact read .reference found

theorem leaf_shorter (taken : leaf text 0 = some (tree, stop)) :
    (text.drop stop.toNat).length < text.length := by
  obtain ⟨rest, rfl, ending, shorter⟩ := leaf_stop taken
  rwa [drop_posOf ending]

theorem leaf_posOf (ending : text <:+ source) : leaf source (posOf source text) =
    (leaf text 0).map fun (tree, stop) => (tree, posOf source (text.drop stop.toNat)) := by
  have seen : Matcher.Local leaf := by
    apply Matcher.Local.firstOf
    simp only [List.mem_cons, List.not_mem_nil, or_false, forall_eq_or_imp, forall_eq]
    exact ⟨part_local .text, part_local .pattern, part_local .reference⟩
  obtain ⟨before, rfl⟩ := ending
  have start : posOf (before ++ text) text = before.length + 0 := by simp [posOf]
  rw [start, seen before text 0 (Int.le_refl 0) (by omega)]
  cases taken : leaf text 0 with
  | none => rfl
  | some found =>
      obtain ⟨rest, same, ending, _⟩ := leaf_stop taken
      have few := ending.length_le
      have stop : (before.length : Int) + posOf text rest = posOf (before ++ text) rest := by
        simp only [posOf, List.length_append]
        omega
      simp only [Matcher.shift, Option.map_some, same, stop, drop_posOf ending]

end

namespace OnePass

/-! ## One pass -/

mutual

def group (text : List Char) : Option (Front text) :=
  match opens : behind (Token.opened '(') text with
  | none => none
  | some inner =>
      have less := opened_shorter opens
      match item .union inner with
      | none => none
      | some within =>
          match closes : behind (Token.closed ')') within.rest with
          | none => none
          | some rest =>
              have ending := behind_suffix closes
              some {
                tree := .group within.tree
                rest := rest
                ending := ending.trans (within.ending.trans (behind_suffix opens))
                shorter := Nat.lt_of_le_of_lt ending.length_le (Nat.lt_trans within.shorter less) }
termination_by (text.length, 0)

def atom (text : List Char) : Option (Front text) :=
  match taken : leaf text 0 with
  | some (tree, stop) => some ⟨tree, text.drop stop.toNat, List.drop_suffix _ _, leaf_shorter taken⟩
  | none => group text
termination_by (text.length, 1)

def operand (level : Level) (text : List Char) : Option (Front text) :=
  match level with
  | .repetition => atom text
  | .sequence => item .repetition text
  | .union => item .sequence text
termination_by (text.length, 2 * level.rank + 2)
decreasing_by all_goals exact Prod.Lex.right _ (by decide)

/-- The operand, read once; and the operation that starts with it, if an operator and an item of the
level are behind it. -/
def item (level : Level) (text : List Char) : Option (Front text) :=
  match operand level text with
  | none => none
  | some first =>
      match marks : behind level.extent first.rest with
      | none => some first
      | some right =>
          have ending := behind_suffix marks
          have less := Nat.lt_of_le_of_lt ending.length_le first.shorter
          match item level right with
          | none => some first
          | some last =>
              some {
                tree := level.join first.tree last.tree
                rest := last.rest
                ending := last.ending.trans (ending.trans first.ending)
                shorter := Nat.lt_trans last.shorter less }
termination_by (text.length, 2 * level.rank + 3)

end

def matcher (read : (text : List Char) → Option (Front text)) : Matcher Expr := fun source pos =>
  (read (source.drop (resolve source.length pos))).map fun front =>
    (front.tree, posOf source front.rest)

/-! ## The tiers find the same -/

variable {source text : List Char}

/-- Where the text is left of the source, the matcher finds what was read off its front. -/
def Finds (matcher : Matcher Expr) (source text : List Char) (read : Option (Front text)) : Prop :=
  matcher source (posOf source text) =
    read.map fun front => (front.tree, posOf source front.rest)

theorem group_finds (ending : text <:+ source)
    (inside : ∀ inner, inner <:+ source → inner.length < text.length →
      Finds expression source inner (item .union inner)) :
    Finds Reader.group source text (group text) := by
  rw [Finds, group, Reader.group, groupOf]
  split
  · rename_i absent
    simp only [map, both, token_none ending absent, Option.map_none]
  · rename_i inner opens
    -- behind the parenthesis there is less text, where the inner expression is known to be found
    have innerEnding := (behind_suffix opens).trans ending
    obtain ⟨mark, opened⟩ := token_some (Grammar.opened_takes '(').within ending opens
    have within := inside inner innerEnding (opened_shorter opens)
    rw [Finds] at within
    cases read : item .union inner with
    | none =>
        rw [read] at within
        simp only [map, both, opened, within, Option.map_none]
    | some front =>
        rw [read] at within
        have restEnding := front.ending.trans innerEnding
        simp only
        split
        · rename_i absent
          simp only [map, both, opened, within, token_none restEnding absent, Option.map_some,
            Option.map_none]
        · rename_i rest closes
          obtain ⟨last, closed⟩ :=
            token_some (Grammar.closed_takes (by decide)).within restEnding closes
          simp only [map, both, opened, within, closed, Option.map_some]

theorem atom_finds (ending : text <:+ source)
    (bracketed : Finds Reader.group source text (group text)) :
    Finds Reader.atom source text (atom text) := by
  rw [Finds, atom_eq_leaf_or_group, atom, leaf_posOf ending]
  split
  · rename_i taken
    simp only [taken, Option.map_some, Option.some_or]
  · rename_i absent
    rw [absent]
    exact bracketed

theorem item_finds {level : Level} (ending : text <:+ source)
    (single : Finds level.operand.matcher source text (operand level text))
    (later : ∀ right, right <:+ source → right.length < text.length →
      Finds (Part.item level).matcher source right (item level right)) :
    Finds (Part.item level).matcher source text (item level text) := by
  rw [Finds] at single
  -- the alternatives of a tier begin with the same operand: it is read once and extended if possible
  rw [Finds, item_eq_extended, item, single]
  cases read : operand level text with
  | none => rfl
  | some first =>
      have restEnding := first.ending.trans ending
      simp only
      split
      · rename_i absent
        simp only [extended, both, token_none restEnding absent, Option.map_some]
      · rename_i right marks
        have rightEnding := (behind_suffix marks).trans restEnding
        have less := Nat.lt_of_le_of_lt (behind_suffix marks).length_le first.shorter
        obtain ⟨mark, marked⟩ := token_some (Grammar.mark_takes level).within restEnding marks
        have found := later right rightEnding less
        rw [Finds] at found
        cases last : item level right with
        | none =>
            rw [last] at found
            simp only [extended, both, marked, found, Option.map_some, Option.map_none]
        | some back =>
            rw [last] at found
            simp only [extended, both, marked, found, Option.map_some]

/-- By induction on the text that is left: behind an operator or a parenthesis there is less of it,
and with the same text the levels follow each other, the tightest first. -/
theorem tiers_find (ending : text <:+ source) :
    Finds Reader.group source text (group text) ∧ Finds Reader.atom source text (atom text) ∧
      ∀ level, Finds level.operand.matcher source text (operand level text) ∧
        Finds (Part.item level).matcher source text (item level text) := by
  induction bound : text.length using Nat.strongRecOn generalizing text with
  | ind bound ih =>
      subst bound
      have later : ∀ level right, right <:+ source → right.length < text.length →
          Finds (Part.item level).matcher source right (item level right) :=
        fun level right rightEnding less => ((ih _ less rightEnding rfl).2.2 level).2
      have bracketed := group_finds ending (later .union)
      have single := atom_finds ending bracketed
      have atoms : Finds Level.repetition.operand.matcher source text
          (operand .repetition text) := by
        rw [operand]
        exact single
      have factors : Finds Level.sequence.operand.matcher source text
          (operand .sequence text) := by
        rw [operand]
        exact item_finds ending atoms (later .repetition)
      have terms : Finds Level.union.operand.matcher source text (operand .union text) := by
        rw [operand]
        exact item_finds ending factors (later .sequence)
      have operands : ∀ level : Level,
          Finds level.operand.matcher source text (operand level text) := by
        rintro (_ | _ | _)
        · exact atoms
        · exact factors
        · exact terms
      exact ⟨bracketed, single, fun level =>
        ⟨operands level, item_finds ending (operands level) (later level)⟩⟩

theorem Finds.call_eq {reader : Matcher Expr} {read : (text : List Char) → Option (Front text)}
    {pos : Nat} (inside : pos ≤ source.length)
    (finds : Finds reader source (source.drop pos) (read (source.drop pos))) :
    reader.call source pos = (matcher read).call source pos := by
  rw [Finds, posOf_drop inside] at finds
  have same : matcher read source pos = reader source pos := by
    rw [finds, matcher, resolve_natCast _ _ inside]
  rw [Matcher.call, Matcher.call, same]

/-- At every position of every text, each tier, like the readers of atoms and of groups, gives what
one pass gives, in which an operand is read once and then extended. So where an operation cannot be
read, the tier gives the operand that the pass has read. This is so however deep the tier stands:
over any readers of what is behind operators and in groups, the operand that is read first is the
one that is joined or, where the operation fails, given alone. -/
theorem tiers_read_in_one_pass (source : List Char) (pos : Nat) (inside : pos ≤ source.length) :
    Part.group.matcher.call source pos = (matcher group).call source pos ∧
    Part.atom.matcher.call source pos = (matcher atom).call source pos ∧
    (∀ level, (Part.item level).matcher.call source pos = (matcher (item level)).call source pos ∧
      ((Part.operation level).matcher.call source pos = (none, (pos : Int)) →
        (Part.item level).matcher.call source pos =
          (matcher (operand level)).call source pos)) ∧
    ∀ (inner : Tiers) (level : Level) (left : Expr) (mid : Int),
      operandOf inner.over level source pos = some (left, mid) →
      itemOf inner.over level source pos =
        some (extended level (itemOf inner level) source (left, mid)) ∧
      (level.reader (operandOf inner.over level) (itemOf inner level) source pos = none →
        itemOf inner.over level source pos = some (left, mid)) := by
  obtain ⟨bracketed, single, each⟩ := tiers_find (List.drop_suffix pos source)
  refine ⟨bracketed.call_eq inside, single.call_eq inside, fun level => ⟨?_, ?_⟩, ?_⟩
  · exact (each level).2.call_eq inside
  · intro called
    have fails : (Part.operation level).matcher source pos = none := by
      cases taken : (Part.operation level).matcher source pos with
      | none => rfl
      | some found =>
          rw [Matcher.call, taken] at called
          cases called
    have kept : level.operand.matcher.call source pos = (matcher (operand level)).call source pos :=
      (each level).1.call_eq inside
    rw [← kept, Matcher.call, Matcher.call, item_of_operation_none fails]
  · intro inner level left mid first
    rw [itemOf_over]
    refine ⟨?_, fun fails => ?_⟩
    · rw [firstOf_reader, first, Option.map_some]
    · rw [firstOf_of_none fails, first]

/-- Two groups around a name, an item behind them, and an operator without an item: there is no
union, and its left operand is what the tier gives, also with a few levels only below it. -/
theorem nested_groups_read_in_one_pass :
    1 ≤ " ((xy)) zz ^".toList.length ∧ Reader.union.call " ((xy)) zz ^".toList 1 = (none, 1) ∧
    (matcher (item .union)).call " ((xy)) zz ^".toList 1 =
      (some (.sequence [.group (.group (.reference ['x', 'y'])), .reference ['z', 'z']]), 10) ∧
    (matcher (operand .union)).call " ((xy)) zz ^".toList 1 =
      (matcher (item .union)).call " ((xy)) zz ^".toList 1 ∧
    itemOf (Tiers.ofDepth 3).over .union " ((xy)) zz ^".toList 1 =
      some (.sequence [.group (.group (.reference ['x', 'y'])), .reference ['z', 'z']], 10) := by
  obtain ⟨_, _, each, deep⟩ := tiers_read_in_one_pass " ((xy)) zz ^".toList 1 (by decide)
  have absent : Reader.union.call " ((xy)) zz ^".toList 1 = (none, 1) := rfl
  have whole := (each .union).1
  have kept := (each .union).2 absent
  have shallow := (deep (Tiers.ofDepth 3) .union
    (.sequence [.group (.group (.reference ['x', 'y'])), .reference ['z', 'z']]) 10 rfl).2 rfl
  exact ⟨by decide, absent, whole.symm.trans rfl, kept.symm.trans whole, shallow⟩

end OnePass

end Rulebook.Reader
