import Rulebook.Proofs.TokenExtent
import Rulebook.Reader.Tier

/-!
The readers of expressions read exactly the grammar. A reader fails where its part has no
derivation, and else takes the longest one. Nothing is lost by choosing early: an operand that stops
before its longest derivation is not followed by an operator, so the operand read first is the one
that every operation starts with.
-/

namespace Rulebook.Grammar

open Matcher (map both token map_eq_some both_eq_some literal_char_eq_some token_eq_some
  firstOf_eq_some_mem)

variable {source text : List Char}

/-- At the place where `text` is left of the source, the matcher finds a derivation of the part if
there is one, and then no other one goes further. -/
structure Exact (part : Part) (matcher : Matcher Expr) (source text : List Char) : Prop where
  sound : ∀ {tree stop}, matcher source (posOf source text) = some (tree, stop) →
    ∃ rest, stop = posOf source rest ∧ Derives part text rest tree
  complete : ∀ {rest tree}, Derives part text rest tree → ∃ found stop,
    matcher source (posOf source text) = some (found, posOf source stop) ∧
      Derives part text stop found ∧ stop.length ≤ rest.length

theorem suffix_tail {front rest : List Char} (ending : front ++ rest <:+ source) :
    rest <:+ source := (List.suffix_append front rest).trans ending

theorem suffix_next {char : Char} {rest : List Char} (ending : char :: rest <:+ source) :
    rest <:+ source := (List.suffix_cons char rest).trans ending

theorem Derives.suffix {part : Part} {rest : List Char} {tree : Expr}
    (derived : Derives part text rest tree) (ending : text <:+ source) : rest <:+ source := by
  rcases derived.frame with ⟨taken, _, rfl, _⟩
  exact suffix_tail ending

/-! ## Atoms -/

theorem text_exact (ending : text <:+ source) : Exact .text Reader.text source text where
  sound := by
    intro tree stop taken
    simp only [Reader.text, Reader.quote, map_eq_some, Prod.exists, both_eq_some] at taken
    rcases taken with ⟨_, value, _, ⟨_, first, _, second, third⟩, rfl⟩
    rcases (literal_char_eq_some ending).mp first with ⟨_, rfl, _, rfl⟩
    have inside := suffix_next ending
    rcases (token_eq_some (body_takes _) inside).mp second with ⟨_, rfl, ⟨content, filled, _⟩, rfl⟩
    rcases (literal_char_eq_some (suffix_tail inside)).mp third with ⟨rest, rfl, _, rfl⟩
    exact ⟨rest, rfl, Derives.text content filled⟩
  complete := by
    intro rest tree derived
    rcases derives_text_iff.mp derived with ⟨value, content, filled, rfl, rfl⟩
    have inside := suffix_next ending
    have ends := bodyEnds_delimiter (by decide : '\'' ≠ '\\') rest
    have first := (literal_char_eq_some ending).mpr ⟨_, rfl, rfl, rfl⟩
    have second := (token_eq_some (body_takes _) inside).mpr ⟨_, rfl, ⟨content, filled, ends⟩, rfl⟩
    have third := (literal_char_eq_some (suffix_tail inside)).mpr ⟨rest, rfl, rfl, rfl⟩
    refine ⟨_, rest, ?_, derived, Nat.le_refl _⟩
    simp only [Reader.text, Reader.quote, map_eq_some, Prod.exists, both_eq_some]
    exact ⟨_, value, _, ⟨_, first, _, second, third⟩, rfl⟩

theorem flag_value (flagged : Bool) : (flagText flagged == ['i']) = flagged := by
  cases flagged <;> rfl

theorem flag_front {flagged : Bool} {rest : List Char} (after : flagged = true → AfterFlag rest) :
    ∃ taken stop, flagText flagged ++ rest = flagText taken ++ stop ∧
      (taken = true → AfterFlag stop) ∧
      (taken = false → ∀ other, stop = 'i' :: other → ¬ AfterFlag other) ∧
      stop.length ≤ rest.length := by
  cases flagged with
  | true => exact ⟨true, rest, rfl, after, by simp, Nat.le_refl _⟩
  | false =>
      by_cases stands : ∃ other, rest = 'i' :: other ∧ AfterFlag other
      · rcases stands with ⟨other, rfl, allowed⟩
        exact ⟨true, other, rfl, fun _ => allowed, by simp, by simp⟩
      · refine ⟨false, rest, rfl, by simp, ?_, Nat.le_refl _⟩
        exact fun _ other same after => stands ⟨other, same, after⟩

theorem pattern_exact (ending : text <:+ source) : Exact .pattern Reader.pattern source text where
  sound := by
    intro tree stop taken
    simp only [Reader.pattern, Reader.slash, map_eq_some, Prod.exists, both_eq_some] at taken
    rcases taken with ⟨_, value, _, _, ⟨_, first, _, second, _, third, fourth⟩, rfl⟩
    rcases (literal_char_eq_some ending).mp first with ⟨_, rfl, _, rfl⟩
    have inside := suffix_next ending
    rcases (token_eq_some (body_takes _) inside).mp second with ⟨_, rfl, ⟨content, filled, _⟩, rfl⟩
    have closing := suffix_tail inside
    rcases (literal_char_eq_some closing).mp third with ⟨_, rfl, _, rfl⟩
    rcases (token_eq_some flag_takes (suffix_next closing)).mp fourth with
      ⟨rest, rfl, ⟨flagged, rfl, after, _⟩, rfl⟩
    refine ⟨rest, rfl, derives_pattern_iff.mpr ?_⟩
    exact ⟨value, flagged, content, filled, rfl, after, by rw [flag_value]⟩
  complete := by
    intro rest tree derived
    rcases derives_pattern_iff.mp derived with ⟨value, flagged, content, filled, rfl, after, rfl⟩
    have inside := suffix_next ending
    have closing := suffix_tail inside
    have ends := bodyEnds_delimiter (by decide : '/' ≠ '\\') (flagText flagged ++ rest)
    -- the reader takes a flag that the derivation may have left
    rcases flag_front after with ⟨taken, stop, same, stands, absent, longest⟩
    have first := (literal_char_eq_some ending).mpr ⟨_, rfl, rfl, rfl⟩
    have second := (token_eq_some (body_takes _) inside).mpr ⟨_, rfl, ⟨content, filled, ends⟩, rfl⟩
    have third := (literal_char_eq_some closing).mpr ⟨_, rfl, rfl, rfl⟩
    have fourth := (token_eq_some flag_takes (suffix_next closing)).mpr
      ⟨stop, same, ⟨taken, rfl, stands, absent⟩, rfl⟩
    refine ⟨.pattern value taken false, stop, ?_, ?_, longest⟩
    · simp only [Reader.pattern, Reader.slash, map_eq_some, Prod.exists, both_eq_some]
      exact ⟨_, value, _, _, ⟨_, first, _, second, _, third, fourth⟩, by rw [flag_value]⟩
    · exact derives_pattern_iff.mpr ⟨value, taken, content, filled, by rw [same], stands, rfl⟩

theorem reference_exact (ending : text <:+ source) :
    Exact .reference Reader.reference source text where
  sound := by
    intro tree stop taken
    simp only [Reader.reference, Reader.name, map_eq_some] at taken
    rcases taken with ⟨name, found, rfl⟩
    rcases (token_eq_some name_takes ending).mp found with ⟨rest, rfl, ⟨named, _⟩, rfl⟩
    exact ⟨rest, rfl, Derives.reference named⟩
  complete := by
    intro rest tree derived
    rcases derives_reference_iff.mp derived with ⟨name, named, rfl, rfl⟩
    rcases longest_name named rest with ⟨longer, stop, same, longNamed, ends⟩
    have found := (token_eq_some name_takes ending).mpr ⟨stop, same, ⟨longNamed, ends⟩, rfl⟩
    have taken : Derives .reference (name ++ rest) stop (.reference longer) :=
      same ▸ Derives.reference longNamed
    refine ⟨.reference longer, stop, map_eq_some.mpr ⟨longer, found, rfl⟩, taken, ?_⟩
    rcases taken.longest ends derived with rfl | less
    · exact Nat.le_refl _
    · exact Nat.le_of_lt less

theorem group_exact {expression : Matcher Expr} (ending : text <:+ source)
    (inside : ∀ inner, inner <:+ source → inner.length < text.length →
      Exact (.item .union) expression source inner) :
    Exact .group (Reader.groupOf expression) source text where
  sound := by
    intro tree stop taken
    simp only [Reader.groupOf, map_eq_some, Prod.exists, both_eq_some] at taken
    rcases taken with ⟨_, within, _, ⟨_, first, _, second, third⟩, rfl⟩
    rcases (token_eq_some (opened_takes '(') ending).mp first with
      ⟨inner, rfl, ⟨⟨before, blankBefore, rfl⟩, _⟩, rfl⟩
    have shorter : inner.length < ('(' :: before ++ inner).length := by
      simp only [List.length_append, List.length_cons]
      omega
    rcases (inside _ (suffix_tail ending) shorter).sound second with ⟨_, rfl, derived⟩
    have rests := derived.suffix (suffix_tail ending)
    rcases (token_eq_some (closed_takes (by decide)) rests).mp third with
      ⟨rest, rfl, ⟨after, blankAfter, rfl⟩, rfl⟩
    rw [List.append_assoc] at derived
    exact ⟨rest, rfl, Derives.group blankBefore derived blankAfter⟩
  complete := by
    intro rest tree derived
    rcases derives_group_iff.mp derived with
      ⟨before, after, inner, within, blankBefore, blankAfter, front, rfl, rfl⟩
    have shorter : inner.length < ('(' :: (before ++ inner)).length := by
      simp only [List.length_append, List.length_cons]
      omega
    have within := suffix_tail (suffix_next ending)
    rcases (inside inner within shorter).complete front with ⟨found, stop, second, derived', bound⟩
    -- what is inside is read up to the parenthesis, for it cannot go on there
    cases front.stop_eq (closing_ends blankAfter) derived' bound
    have first := (token_eq_some (opened_takes '(') ending).mpr
      ⟨inner, rfl, ⟨⟨before, blankBefore, rfl⟩, front.unblank⟩, rfl⟩
    have third := (token_eq_some (closed_takes (by decide)) (derived'.suffix within)).mpr
      ⟨rest, List.append_cons after ')' rest, ⟨after, blankAfter, rfl⟩, rfl⟩
    refine ⟨.group found, rest, ?_, Derives.group blankBefore derived' blankAfter, Nat.le_refl _⟩
    simp only [Reader.groupOf, map_eq_some, Prod.exists, both_eq_some]
    exact ⟨_, found, _, ⟨_, first, _, second, third⟩, rfl⟩

/-! ## Operators -/

def Level.reader (level : Level) (operand item : Matcher Expr) : Matcher Expr :=
  map (fun (left, _, right) => level.join left right)
    (both operand (both (token level.extent) item))

theorem operation_exact {level : Level} {operand item : Matcher Expr} (ending : text <:+ source)
    (first : Exact level.operand operand source text)
    (second : ∀ right, right <:+ source → right.length < text.length →
      Exact (.item level) item source right) :
    Exact (.operation level) (level.reader operand item) source text where
  sound := by
    intro tree stop taken
    simp only [Level.reader, map_eq_some, Prod.exists, both_eq_some] at taken
    rcases taken with ⟨left, mark, tail, ⟨_, front, _, middle, back⟩, rfl⟩
    rcases first.sound front with ⟨_, rfl, derived⟩
    have rests := derived.suffix ending
    rcases (token_eq_some (mark_takes level) rests).mp middle with ⟨right, rfl, ⟨marks, _⟩, rfl⟩
    have shorter := derived.shorter
    rw [List.length_append] at shorter
    rcases (second right (suffix_tail rests) (by omega)).sound back with ⟨rest, rfl, last⟩
    exact ⟨rest, rfl, Derives.operation derived marks last⟩
  complete := by
    intro rest tree derived
    rcases derives_operation_iff.mp derived with ⟨mark, right, left, tail, front, marks, back, rfl⟩
    rcases first.complete front with ⟨found, stop, taken, derived, bound⟩
    -- the operand is read up to the operator, for it cannot go on there
    cases front.stop_eq (mark_ahead marks back.opens).not_continues derived bound
    have rests := derived.suffix ending
    have shorter := derived.shorter
    rw [List.length_append] at shorter
    have middle := (token_eq_some (mark_takes level) rests).mpr
      ⟨right, rfl, ⟨marks, back.unblank⟩, rfl⟩
    rcases (second right (suffix_tail rests) (by omega)).complete back with
      ⟨last, stop, taken', derived', bound'⟩
    refine ⟨level.join found last, stop, ?_, Derives.operation derived marks derived', bound'⟩
    simp only [Level.reader, map_eq_some, Prod.exists, both_eq_some]
    exact ⟨found, mark, last, ⟨_, taken, _, middle, taken'⟩, rfl⟩

theorem Exact.eq_none {part : Part} {matcher : Matcher Expr}
    (exact : Exact part matcher source text) (absent : ∀ rest tree, ¬ Derives part text rest tree) :
    matcher source (posOf source text) = none := by
  cases found : matcher source (posOf source text) with
  | none => rfl
  | some result =>
      rcases exact.sound found with ⟨rest, _, derived⟩
      exact absurd derived (absent rest _)

theorem item_exact {level : Level} {operation operand : Matcher Expr}
    (joined : Exact (.operation level) operation source text)
    (single : Exact level.operand operand source text) :
    Exact (.item level) (Matcher.firstOf [operation, operand]) source text where
  sound := by
    intro tree stop taken
    simp only [Matcher.firstOf] at taken
    split at taken
    · rename_i found
      cases taken
      rcases joined.sound found with ⟨rest, rfl, derived⟩
      exact ⟨rest, rfl, Derives.joined derived⟩
    · split at taken
      · rename_i found
        cases taken
        rcases single.sound found with ⟨rest, rfl, derived⟩
        exact ⟨rest, rfl, Derives.operand derived⟩
      · contradiction
  complete := by
    intro rest tree derived
    simp only [Matcher.firstOf]
    rcases derives_item_iff.mp derived with derived | derived
    · rcases joined.complete derived with ⟨found, stop, taken, derived', bound⟩
      exact ⟨found, stop, by rw [taken], Derives.joined derived', bound⟩
    by_cases present : ∃ rest tree, Derives (.operation level) text rest tree
    · rcases present with ⟨_, _, operation⟩
      rcases joined.complete operation with ⟨found, stop, taken, derived', _⟩
      -- the operation goes further than the operand it starts with
      have bound := (derived'.compare_all.2 level rfl _ _ derived).1
      exact ⟨found, stop, by rw [taken], Derives.joined derived', Nat.le_of_lt bound⟩
    · have absent := joined.eq_none fun rest tree operation => present ⟨rest, tree, operation⟩
      rcases single.complete derived with ⟨found, stop, taken, derived', bound⟩
      exact ⟨found, stop, by rw [absent, taken], Derives.operand derived', bound⟩

/-! ## Tiers -/

def alternative (expression : Matcher Expr) : Part → Matcher Expr
  | .text => Reader.text
  | .pattern => Reader.pattern
  | .reference => Reader.reference
  | _ => Reader.groupOf expression

theorem firstOf_eq_some_of_only {reader : Part → Matcher Expr} {parts : List Part} {part : Part}
    {pos : Int} {found : Expr × Int} (member : part ∈ parts)
    (taken : reader part source pos = some found)
    (others : ∀ other ∈ parts, other ≠ part → reader other source pos = none) :
    Matcher.firstOf (parts.map reader) source pos = some found := by
  induction parts with
  | nil => simp at member
  | cons first rest ih =>
      simp only [List.map_cons, Matcher.firstOf]
      by_cases same : first = part
      · rw [same, taken]
      · rw [others first List.mem_cons_self same]
        rcases List.mem_cons.mp member with rfl | later
        · exact absurd rfl same
        · exact ih later fun other inside => others other (List.mem_cons_of_mem first inside)

theorem alternative_exact {expression : Matcher Expr} (ending : text <:+ source)
    (inside : ∀ inner, inner <:+ source → inner.length < text.length →
      Exact (.item .union) expression source inner) :
    ∀ part ∈ Part.alternatives, Exact part (alternative expression part) source text := by
  intro part member
  simp only [Part.alternatives, List.mem_cons, List.not_mem_nil, or_false] at member
  rcases member with rfl | rfl | rfl | rfl
  · exact text_exact ending
  · exact pattern_exact ending
  · exact reference_exact ending
  · exact group_exact ending inside

theorem atom_exact {expression : Matcher Expr} (ending : text <:+ source)
    (inside : ∀ inner, inner <:+ source → inner.length < text.length →
      Exact (.item .union) expression source inner) :
    Exact .atom (Matcher.firstOf (Part.alternatives.map (alternative expression))) source text where
  sound := by
    intro tree stop taken
    rcases firstOf_eq_some_mem taken with ⟨_, member, hit⟩
    rcases List.mem_map.mp member with ⟨part, listed, rfl⟩
    rcases (alternative_exact ending inside part listed).sound hit with ⟨rest, rfl, derived⟩
    exact ⟨rest, rfl, Derives.atom listed derived⟩
  complete := by
    intro rest tree derived
    rcases derives_atom_iff.mp derived with ⟨part, member, derived⟩
    have exact := alternative_exact ending inside
    rcases (exact part member).complete derived with ⟨found, stop, taken, derived', bound⟩
    refine ⟨found, stop, ?_, Derives.atom member derived', bound⟩
    apply firstOf_eq_some_of_only member taken
    -- the first character leaves no other alternative
    intro other listed different
    apply (exact other listed).eq_none
    intro rest' tree' derivedOther
    rcases alternative_eq_atomAt member derived with ⟨char, tail, rfl, rfl⟩
    rcases alternative_eq_atomAt listed derivedOther with ⟨_, _, same, rfl⟩
    cases same
    exact different rfl

def itemOf (tiers : Reader.Tiers) : Level → Matcher Expr
  | .repetition => tiers.factor
  | .sequence => tiers.term
  | .union => tiers.expression

/-- Tiers are exact at a text if those they are built on are exact at all shorter ones. -/
theorem over_exact {inner : Reader.Tiers} (ending : text <:+ source)
    (inside : ∀ level right, right <:+ source → right.length < text.length →
      Exact (.item level) (itemOf inner level) source right) :
    Exact .atom inner.over.atom source text ∧
      ∀ level, Exact (.item level) (itemOf inner.over level) source text := by
  have lifted : ∀ (level : Level) (operand : Matcher Expr),
      Exact level.operand operand source text → Exact (.item level)
        (Matcher.firstOf [level.reader operand (itemOf inner level), operand]) source text :=
    fun level operand single => item_exact (operation_exact ending single (inside level)) single
  have atom : Exact .atom inner.over.atom source text := atom_exact ending (inside .union)
  have factor : Exact (.item .repetition) inner.over.factor source text := lifted _ _ atom
  have term : Exact (.item .sequence) inner.over.term source text := lifted _ _ factor
  have expression : Exact (.item .union) inner.over.expression source text := lifted _ _ term
  refine ⟨atom, ?_⟩
  rintro (_ | _ | _)
  · exact factor
  · exact term
  · exact expression

theorem ofDepth_exact (depth : Nat) (ending : text <:+ source) (deep : text.length < depth) :
    Exact .atom (Reader.Tiers.ofDepth depth).atom source text ∧
      ∀ level, Exact (.item level) (itemOf (Reader.Tiers.ofDepth depth) level) source text := by
  induction depth generalizing text with
  | zero => omega
  | succ depth ih =>
      apply over_exact ending
      intro level right rightEnding shorter
      exact (ih rightEnding (by omega)).2 level

def Part.matcher : Part → Matcher Expr
  | .text => Reader.text
  | .pattern => Reader.pattern
  | .reference => Reader.reference
  | .group => Reader.group
  | .atom => Reader.atom
  | .operation .repetition => Reader.repetition
  | .operation .sequence => Reader.sequence
  | .operation .union => Reader.union
  | .item .repetition => Reader.factor
  | .item .sequence => Reader.term
  | .item .union => Reader.expression

theorem Exact.of_eq {part : Part} {matcher other : Matcher Expr}
    (exact : Exact part other source text) (same : matcher source = other source) :
    Exact part matcher source text where
  sound := by rw [same]; exact exact.sound
  complete := by rw [same]; exact exact.complete

/-- The depth chosen for a source is enough for everything in it. -/
theorem part_exact (part : Part) (ending : text <:+ source) :
    Exact part part.matcher source text := by
  have tiers := fun (right : List Char) (rightEnding : right <:+ source) =>
    ofDepth_exact (source.length + 1) rightEnding (Nat.lt_succ_of_le rightEnding.length_le)
  have atom : Exact .atom Part.atom.matcher source text := (tiers text ending).1.of_eq rfl
  have item : ∀ level right, right <:+ source →
      Exact (.item level) (Part.item level).matcher source right := by
    intro level right rightEnding
    cases level <;> exact ((tiers right rightEnding).2 _).of_eq rfl
  cases part with
  | text => exact text_exact ending
  | pattern => exact pattern_exact ending
  | reference => exact reference_exact ending
  | group => exact group_exact ending fun inner innerEnding _ => item .union inner innerEnding
  | atom => exact atom
  | item level => exact item level text ending
  | operation level =>
      have later := fun right rightEnding (_ : right.length < text.length) =>
        item level right rightEnding
      cases level with
      | repetition => exact operation_exact ending atom later
      | sequence => exact operation_exact ending (item .repetition text ending) later
      | union => exact operation_exact ending (item .sequence text ending) later

/-! ## Positions -/

/-- The part stands in the source from one position to the other. -/
def DerivesAt (source : List Char) (part : Part) (start stop : Nat) (tree : Expr) : Prop :=
  start ≤ stop ∧ stop ≤ source.length ∧ Derives part (source.drop start) (source.drop stop) tree

theorem derivesAt_of_derives {part : Part} {pos : Nat} {rest : List Char} {tree : Expr}
    (inside : pos ≤ source.length) (derived : Derives part (source.drop pos) rest tree) :
    DerivesAt source part pos (source.length - rest.length) tree := by
  have ending := derived.suffix (List.drop_suffix pos source)
  have shorter := derived.shorter
  rw [List.length_drop] at shorter
  refine ⟨by omega, Nat.sub_le _ _, ?_⟩
  rw [drop_of_suffix ending]
  exact derived

theorem DerivesAt.unique {part : Part} {pos stop : Nat} {tree other : Expr}
    (derived : DerivesAt source part pos stop tree)
    (second : DerivesAt source part pos stop other) : tree = other := derived.2.2.unique second.2.2

theorem call_of_absent {part : Part} {pos : Nat} (inside : pos ≤ source.length)
    (absent : ∀ stop tree, ¬ DerivesAt source part pos stop tree) :
    part.matcher.call source pos = (none, (pos : Int)) := by
  have none := (part_exact part (List.drop_suffix pos source)).eq_none fun rest tree derived =>
    absent _ _ (derivesAt_of_derives inside derived)
  rw [posOf_drop inside] at none
  simp only [Matcher.call, none]

theorem call_of_derivesAt {part : Part} {pos stop : Nat} {tree : Expr}
    (inside : pos ≤ source.length) (derived : DerivesAt source part pos stop tree) :
    ∃ (last : Nat) (found : Expr), part.matcher.call source pos = (some found, (last : Int)) ∧
      DerivesAt source part pos last found ∧
      ∀ stop' tree', DerivesAt source part pos stop' tree' → stop' ≤ last := by
  have exact := part_exact part (List.drop_suffix pos source)
  rcases exact.complete derived.2.2 with ⟨found, rest, taken, derived', _⟩
  refine ⟨source.length - rest.length, found, ?_, derivesAt_of_derives inside derived', ?_⟩
  · rw [posOf_drop inside] at taken
    simp only [Matcher.call, taken, posOf]
  · intro stop' tree' another
    rcases exact.complete another.2.2 with ⟨found', rest', taken', longer, bound⟩
    -- one call has one result, so every derivation is bounded by the same rest
    rw [taken] at taken'
    have stops : found = found' ∧ posOf source rest = posOf source rest' := by simpa using taken'
    have ending := List.drop_suffix pos source
    cases posOf_injective (derived'.suffix ending) (longer.suffix ending) stops.2
    have := another.2.1
    rw [List.length_drop] at bound
    omega

theorem call_eq_end_iff {part : Part} {pos : Nat} {tree : Expr} (inside : pos ≤ source.length) :
    part.matcher.call source pos = (some tree, (source.length : Int)) ↔
      DerivesAt source part pos source.length tree := by
  constructor
  · intro called
    by_cases derivable : ∃ stop other, DerivesAt source part pos stop other
    · rcases derivable with ⟨stop, other, derived⟩
      rcases call_of_derivesAt inside derived with ⟨last, found, called', longest, _⟩
      rw [called'] at called
      have parts : found = tree ∧ (last : Int) = source.length := by simpa using called
      have last_eq : last = source.length := by omega
      rwa [parts.1, last_eq] at longest
    · have missing := call_of_absent inside fun stop other derived =>
        derivable ⟨stop, other, derived⟩
      rw [missing] at called
      cases called
  · intro derived
    rcases call_of_derivesAt inside derived with ⟨last, found, called, longest, bound⟩
    have last_eq : last = source.length := Nat.le_antisymm longest.2.1 (bound _ _ derived)
    subst last_eq
    rw [called, longest.unique derived]

/-- Every reader of a part finds the longest derivation of the part at a position and its only tree,
and finds nothing just where the part has no derivation. So a text is read to its end exactly if it
can be derived, and the grammar gives one tree to whatever stands between two positions. -/
theorem call_longest_derivation (part : Part) (source : List Char) (pos : Nat)
    (inside : pos ≤ source.length) :
    (part.matcher.call source pos = (none, (pos : Int)) ↔
      ∀ stop tree, ¬ DerivesAt source part pos stop tree) ∧
    (∀ stop tree, DerivesAt source part pos stop tree → ∃ (last : Nat) (found : Expr),
      part.matcher.call source pos = (some found, (last : Int)) ∧
      (∀ other, DerivesAt source part pos last other ↔ other = found) ∧
      (∀ stop' tree', DerivesAt source part pos stop' tree' → stop' ≤ last)) ∧
    (∀ stop tree other, DerivesAt source part pos stop tree →
      DerivesAt source part pos stop other → tree = other) ∧
    (∀ tree, part.matcher.call source pos = (some tree, (source.length : Int)) ↔
      DerivesAt source part pos source.length tree) := by
  refine ⟨⟨?_, call_of_absent inside⟩, ?_, fun _ _ _ => DerivesAt.unique,
    fun tree => call_eq_end_iff inside⟩
  · intro called stop tree derived
    rcases call_of_derivesAt inside derived with ⟨last, found, called', _⟩
    rw [called] at called'
    cases called'
  · intro stop tree derived
    rcases call_of_derivesAt inside derived with ⟨last, found, called, longest, bound⟩
    refine ⟨last, found, called, fun other => ⟨fun another => another.unique longest, ?_⟩, bound⟩
    rintro rfl
    exact longest

theorem flagged_group_derivation :
    0 ≤ "('a' | /b/i)^x1 zz".toList.length ∧
    DerivesAt "('a' | /b/i)^x1 zz".toList (.item .union) 0 18
      (.sequence [.repetition (.group (.union [.text ['a'], .pattern ['b'] true false]))
        (.reference ['x', '1']), .reference ['z', 'z']]) :=
  ⟨by decide, ((call_longest_derivation (.item .union) "('a' | /b/i)^x1 zz".toList 0
    (by decide)).2.2.2 _).1 rfl⟩

end Rulebook.Grammar
