import Rulebook.Proofs.NormalForm
import Rulebook.Proofs.Reading
import Rulebook.Rule

/-!
Reading one rule. A text is a rule, or it starts with one and something else stands behind it, or no
beginning of it is a rule. The last two are told apart by cutting the text: what is read in a
beginning of a text is read in the text, up to a flag that may stand at the end of the beginning and
not before the letter behind it.
-/

namespace Rulebook.Grammar

open Matcher (map_eq_some both_eq_some token_eq_some)

variable {source text rest : List Char}

/-! ## Cutting and extending a text -/

theorem blank_afterFlag {blanks : List Char} (blank : Blank blanks) : AfterFlag blanks := by
  cases blanks with
  | nil => simp [AfterFlag]
  | cons char others =>
      rcases blank_cases (blank char List.mem_cons_self) with rfl | rfl <;> simp [AfterFlag]

theorem Derives.append {part : Part} {tree : Expr} (derived : Derives part text rest tree)
    (filled : rest ≠ []) (more : List Char) : Derives part (text ++ more) (rest ++ more) tree := by
  obtain ⟨taken, _, rfl, moved⟩ := derived.frame
  rw [List.append_assoc]
  apply moved
  intro after
  simpa using afterFlag_append filled [] more (by simpa using after)

/-- More text leaves some derivation, if not the same: a flag may have to be given up. -/
theorem Derives.extend {part : Part} {tree : Expr} (derived : Derives part text rest tree)
    (more : List Char) : ∃ stop found, Derives part (text ++ more) stop found := by
  induction derived with
  | @text value rest content filled =>
      exact ⟨rest ++ more, _, by simpa using @Derives.text value (rest ++ more) content filled⟩
  | @pattern value rest content filled =>
      exact ⟨rest ++ more, _, by simpa using @Derives.pattern value (rest ++ more) content filled⟩
  | @flagged value rest content filled _ =>
      -- the flag is left unread, whatever the text goes on with
      refine ⟨'i' :: (rest ++ more), .pattern value false false, ?_⟩
      simpa using @Derives.pattern value ('i' :: (rest ++ more)) content filled
  | @reference name rest named =>
      exact ⟨rest ++ more, _, by simpa using @Derives.reference name (rest ++ more) named⟩
  | @group before after inner rest tree blankBefore within blankAfter _ =>
      -- what is inside ends at the parenthesis, before the new text
      have moved := within.append (by simp) more
      rw [List.append_assoc, List.cons_append] at moved
      exact ⟨rest ++ more, _, by simpa using Derives.group blankBefore moved blankAfter⟩
  | atom member _ ih =>
      obtain ⟨stop, found, derived⟩ := ih
      exact ⟨stop, found, Derives.atom member derived⟩
  | operation first marks _ _ ih =>
      obtain ⟨stop, found, derived⟩ := ih
      have front := first.append (by simp [marks.ne_nil]) more
      rw [List.append_assoc] at front
      exact ⟨stop, _, Derives.operation front marks derived⟩
  | joined _ ih =>
      obtain ⟨stop, found, derived⟩ := ih
      exact ⟨stop, found, Derives.joined derived⟩
  | operand _ ih =>
      obtain ⟨stop, found, derived⟩ := ih
      exact ⟨stop, found, Derives.operand derived⟩

theorem Derives.proper {part : Part} {tree : Expr} (derived : Derives part text rest tree) :
    tree.Proper := by
  induction derived with
  | text | pattern | flagged | reference => constructor
  | group _ _ _ ih => exact Expr.Proper.group ih
  | atom _ _ ih | joined _ ih | operand _ ih => exact ih
  | @operation level _ _ _ _ _ _ _ _ _ ihLeft ihRight =>
      cases level with
      | repetition => exact Expr.Proper.repetition ihLeft ihRight
      | sequence => exact Expr.Proper.sequence (by simp [ihLeft, ihRight])
      | union => exact Expr.Proper.union (by simp [ihLeft, ihRight])

/-! ## Definitions -/

/-- A name, a colon and an expression stand at the front of the text. -/
def Defines (text rest name : List Char) (tree : Expr) : Prop :=
  ∃ blanks inner, text = name ++ ':' :: (blanks ++ inner) ∧ IsName name ∧ Blank blanks ∧
    Derives (.item .union) inner rest tree

variable {name : List Char} {tree : Expr}

theorem name_before_colon {name' other : List Char} (named : IsName name) (named' : IsName name')
    (same : name ++ ':' :: rest = name' ++ ':' :: other) : name = name' ∧ rest = other := by
  have first := @Derives.reference name (':' :: rest) named
  have second := same ▸ @Derives.reference name' (':' :: other) named'
  obtain ⟨rests, names⟩ := first.ends_eq colon_ends second colon_ends
  cases names
  exact ⟨rfl, (List.cons.inj rests).2⟩

theorem Defines.same_front {rest' name' : List Char} {tree' : Expr}
    (defined : Defines text rest name tree) (again : Defines text rest' name' tree') :
    name = name' ∧ ∃ inner, inner <:+ text ∧ Derives (.item .union) inner rest tree ∧
      Derives (.item .union) inner rest' tree' := by
  obtain ⟨blanks, inner, rfl, named, blank, derived⟩ := defined
  obtain ⟨blanks', inner', same, named', blank', derived'⟩ := again
  obtain ⟨rfl, rests⟩ := name_before_colon named named' same
  obtain ⟨_, rfl⟩ := blank_split blank blank' derived.unblank derived'.unblank rests
  refine ⟨rfl, inner, ?_, derived, derived'⟩
  exact ⟨name ++ ':' :: blanks, by simp⟩

theorem Defines.frame (defined : Defines text rest name tree) :
    ∃ taken, text = taken ++ rest ∧ Solid taken ∧
      ∀ other, (AfterFlag rest → AfterFlag other) → Defines (taken ++ other) other name tree := by
  obtain ⟨blanks, inner, rfl, named, blank, derived⟩ := defined
  obtain ⟨taken, solid, rfl, moved⟩ := derived.frame
  refine ⟨name ++ ':' :: (blanks ++ taken), by simp, ?_, ?_⟩
  · simpa using solid.append (name ++ ':' :: blanks)
  · intro other kept
    exact ⟨blanks, taken ++ other, by simp, named, blank, moved other kept⟩

theorem Defines.suffix (defined : Defines text rest name tree) : rest <:+ text := by
  obtain ⟨taken, same, _⟩ := defined.frame
  exact ⟨taken, same.symm⟩

theorem Defines.extend (defined : Defines text rest name tree) (more : List Char) :
    ∃ stop found, Defines (text ++ more) stop name found := by
  obtain ⟨blanks, inner, rfl, named, blank, derived⟩ := defined
  obtain ⟨stop, found, extended⟩ := derived.extend more
  exact ⟨stop, found, blanks, inner ++ more, by simp, named, blank, extended⟩

/-! ## The reader of a definition -/

theorem written_sound {stop : Int} (ending : text <:+ source)
    (taken : Rule.written source (posOf source text) = some ((name, tree), stop)) :
    ∃ rest, stop = posOf source rest ∧ Defines text rest name tree := by
  simp only [Rule.written, map_eq_some, Prod.exists, both_eq_some, Prod.mk.injEq] at taken
  obtain ⟨_, _, _, ⟨_, first, _, second, third⟩, rfl, rfl⟩ := taken
  obtain ⟨_, rfl, ⟨named, _⟩, rfl⟩ := (token_eq_some name_takes ending).mp first
  have middle := suffix_tail ending
  rcases (token_eq_some (opened_takes ':') middle).mp second with
    ⟨inner, rfl, ⟨⟨blanks, blank, rfl⟩, _⟩, rfl⟩
  obtain ⟨rest, rfl, derived⟩ := (part_exact (.item .union) (suffix_tail middle)).sound third
  exact ⟨rest, rfl, blanks, inner, by simp, named, blank, derived⟩

theorem written_complete (ending : text <:+ source) (defined : Defines text rest name tree) :
    ∃ found stop,
      Rule.written source (posOf source text) = some ((name, found), posOf source stop) ∧
      Defines text stop name found ∧ stop.length ≤ rest.length := by
  obtain ⟨blanks, inner, rfl, named, blank, derived⟩ := defined
  have middle := suffix_tail ending
  have tail : inner <:+ source := suffix_tail (suffix_next middle)
  obtain ⟨found, stop, third, longest, bound⟩ := (part_exact (.item .union) tail).complete derived
  refine ⟨found, stop, ?_, ⟨blanks, inner, rfl, named, blank, longest⟩, bound⟩
  have noWord : ¬ WordAhead (':' :: (blanks ++ inner)) :=
    fun word => @colon_ends .reference (blanks ++ inner) word
  have first := (token_eq_some name_takes ending).mpr ⟨_, rfl, ⟨named, noWord⟩, rfl⟩
  have second := (token_eq_some (opened_takes ':') middle).mpr
    ⟨inner, rfl, ⟨⟨blanks, blank, rfl⟩, derived.unblank⟩, rfl⟩
  simp only [Rule.written, map_eq_some, Prod.exists, both_eq_some]
  exact ⟨name, _, found, ⟨_, first, _, second, third⟩, rfl⟩

theorem normalized_eq (defined : Defines text rest name tree) :
    Rule.normalized (name, tree) = .ok ⟨name, tree.normal⟩ := by
  obtain ⟨_, _, _, _, _, derived⟩ := defined
  simp only [Rule.normalized, derived.proper.normalize_eq]

theorem definition_of_defines (ending : text <:+ source) (defined : Defines text rest name tree) :
    ∃ found stop, Rule.definition source (posOf source text) =
        some (.ok ⟨name, found.normal⟩, posOf source stop) ∧
      Defines text stop name found ∧
      ∀ other tree', Defines text other name tree' → stop.length ≤ other.length := by
  obtain ⟨found, stop, written, furthest, _⟩ := written_complete ending defined
  refine ⟨found, stop, map_eq_some.mpr ⟨_, written, normalized_eq furthest⟩, furthest, ?_⟩
  intro other tree' another
  obtain ⟨found', stop', written', another', bound⟩ := written_complete ending another
  rw [written] at written'
  have stops : found = found' ∧ posOf source stop = posOf source stop' := by simpa using written'
  cases posOf_injective (furthest.suffix.trans ending) (another'.suffix.trans ending) stops.2
  exact bound

theorem definition_of_absent (ending : text <:+ source)
    (absent : ∀ rest name tree, ¬ Defines text rest name tree) :
    Rule.definition source (posOf source text) = none := by
  cases found : Rule.written source (posOf source text) with
  | none => simp only [Rule.definition, Matcher.map, found, Option.map_none]
  | some result =>
      obtain ⟨rest, _, defines⟩ := written_sound ending found
      exact absurd defines (absent rest _ _)

theorem skipBlanks_posOf {blanks : List Char} (ending : blanks ++ rest <:+ source)
    (blank : Blank blanks) (starts : Unblank rest) :
    Reader.skipBlanks source (posOf source (blanks ++ rest)) = posOf source rest := by
  have taken := (token_eq_some blanks_takes ending).mpr ⟨rest, rfl, ⟨blank, starts⟩, rfl⟩
  simp only [Reader.skipBlanks, Matcher.call, Reader.blanks, taken]

/-! ## Reading a rule -/

/-- The three ways in which reading a rule can end. -/
inductive Ends (source : List Char) : Except Fault Rule → Prop where
  | missing : (∀ rest name tree, ¬ Defines source rest name tree) →
      Ends source (.error (.notARule source))
  | whole {blanks name tree} : Defines source blanks name tree → Blank blanks →
      Ends source (.ok ⟨name, tree.normal⟩)
  | followed {blanks rest name tree} : Defines source (blanks ++ rest) name tree →
      Blank blanks → Unblank rest → rest ≠ [] →
      (∀ other tree', Defines source other name tree' → (blanks ++ rest).length ≤ other.length) →
      Rule.definition.call source 0 =
        (some (.ok ⟨name, tree.normal⟩), posOf source (blanks ++ rest)) →
      Ends source (.error (.afterRule name rest))

theorem read_ends (source : List Char) : Ends source (Rule.read source) := by
  have start := posOf_self source
  by_cases defined : ∃ rest name tree, Defines source rest name tree
  · rcases defined with ⟨_, name, _, defined⟩
    rcases definition_of_defines (List.suffix_refl source) defined with
      ⟨tree, stop, read, longest, furthest⟩
    rw [start] at read
    -- the longest rule is cut from what is behind it, and that into its blanks and the rest
    obtain ⟨blanks, rest, rfl, blank, starts⟩ := blank_front stop
    have rests := suffix_tail longest.suffix
    have skipped := skipBlanks_posOf longest.suffix blank starts
    simp only [Rule.read, read, skipped]
    by_cases filled : rest = []
    · subst filled
      rw [List.append_nil] at longest
      rw [if_pos (by simp [posOf])]
      exact Ends.whole longest blank
    · have bound := rests.length_le
      have positive := List.length_pos_iff.mpr filled
      have before : posOf source rest ≠ source.length := by
        simp only [posOf]
        omega
      rw [if_neg before, posOf, Int.toNat_natCast, drop_of_suffix rests]
      exact Ends.followed longest blank starts filled furthest (by simp only [Matcher.call, read])
  · have absent : ∀ rest name tree, ¬ Defines source rest name tree :=
      fun rest name tree found => defined ⟨rest, name, tree, found⟩
    have read := definition_of_absent (List.suffix_refl source) absent
    rw [start] at read
    simp only [Rule.read, read]
    exact Ends.missing absent

/-- The text is a rule with blanks around its expression, and the rule has its normal form. -/
def Written (source : List Char) (rule : Rule) : Prop :=
  ∃ name before inner after raw, source = name ++ ':' :: (before ++ inner ++ after) ∧ IsName name ∧
    Blank before ∧ Blank after ∧ Derives (.item .union) inner [] raw ∧
    rule.name = name ∧ raw.normalize = .ok rule.expression

theorem written_iff {rule : Rule} : Written source rule ↔
    ∃ blanks tree, Blank blanks ∧ Defines source blanks rule.name tree ∧
      rule.expression = tree.normal := by
  constructor
  · rintro ⟨_, before, inner, after, raw, rfl, named, blankBefore, blankAfter, derived, rfl, same⟩
    rw [derived.proper.normalize_eq] at same
    obtain ⟨taken, _, whole, moved⟩ := derived.frame
    rw [List.append_nil] at whole
    subst whole
    have extended := moved after fun _ => blank_afterFlag blankAfter
    exact ⟨after, raw, blankAfter, ⟨before, inner ++ after, by simp, named, blankBefore, extended⟩,
      (Except.ok.inj same).symm⟩
  · rintro ⟨after, raw, blankAfter, ⟨before, inner, rfl, named, blankBefore, derived⟩, same⟩
    obtain ⟨taken, _, rfl, moved⟩ := derived.frame
    have cut := moved [] fun _ => blank_afterFlag (by simp [Blank])
    rw [List.append_nil] at cut
    exact ⟨rule.name, before, taken, after, raw, by simp, named, blankBefore, blankAfter, cut, rfl,
      by rw [derived.proper.normalize_eq, same]⟩

theorem read_of_defines {blanks : List Char} (defined : Defines source blanks name tree)
    (blank : Blank blanks) : Rule.read source = .ok ⟨name, tree.normal⟩ := by
  have ends := read_ends source
  generalize Rule.read source = result at ends
  cases ends with
  | missing absent => exact absurd defined (absent _ _ _)
  | whole again blank' =>
      obtain ⟨rfl, inner, _, first, second⟩ := defined.same_front again
      obtain ⟨_, rfl⟩ := first.ends_eq (blank_ends blank) second (blank_ends blank')
      rfl
  | @followed _ rest _ _ again _ starts filled furthest =>
      obtain ⟨rfl, inner, _, first, second⟩ := defined.same_front again
      -- what is not blank would have to be part of the expression
      cases first.stop_eq (blank_ends blank) second (furthest _ _ defined)
      cases rest with
      | nil => exact absurd rfl filled
      | cons char others =>
          have noBlank := starts char rfl
          rw [blank char (by simp)] at noBlank
          contradiction

theorem read_eq_ok_iff {rule : Rule} : Rule.read source = .ok rule ↔ Written source rule := by
  rw [written_iff]
  constructor
  · intro read
    have ends := read_ends source
    rw [read] at ends
    cases ends with
    | whole defined blank => exact ⟨_, _, blank, defined, rfl⟩
  · rintro ⟨blanks, tree, blank, defined, same⟩
    rw [read_of_defines defined blank, ← same]

theorem read_front_iff : (∃ front, front <+: source ∧ ∃ rule, Rule.read front = .ok rule) ↔
    ∃ rest name tree, Defines source rest name tree := by
  constructor
  · rintro ⟨front, ⟨more, rfl⟩, rule, read⟩
    obtain ⟨_, _, _, defined, _⟩ := written_iff.mp (read_eq_ok_iff.mp read)
    obtain ⟨stop, found, extended⟩ := defined.extend more
    exact ⟨stop, _, found, extended⟩
  · rintro ⟨rest, name, tree, defined⟩
    obtain ⟨taken, rfl, _, moved⟩ := defined.frame
    -- cut right behind the expression, where any flag may stand
    have cut := moved [] fun _ => blank_afterFlag (by simp [Blank])
    exact ⟨taken ++ [], by simp, _, read_of_defines cut (by simp [Blank])⟩

theorem read_eq_notARule_iff : Rule.read source = .error (.notARule source) ↔
    ∀ front, front <+: source → ∀ rule, Rule.read front ≠ .ok rule := by
  constructor
  · intro read front isFront rule readFront
    obtain ⟨rest, name, tree, defined⟩ := read_front_iff.mp ⟨front, isFront, rule, readFront⟩
    have ends := read_ends source
    rw [read] at ends
    cases ends with
    | missing absent => exact absent rest name tree defined
  · intro none
    have absent : ∀ rest name tree, ¬ Defines source rest name tree := by
      intro rest name tree defined
      obtain ⟨front, isFront, rule, read⟩ := read_front_iff.mpr ⟨rest, name, tree, defined⟩
      exact none front isFront rule read
    have ends := read_ends source
    generalize Rule.read source = result at ends
    cases ends with
    | missing _ => rfl
    | whole defined => exact absurd defined (absent _ _ _)
    | followed defined => exact absurd defined (absent _ _ _)

theorem read_eq_afterRule (read : Rule.read source = .error (.afterRule name rest)) :
    ∃ taken blanks rule, source = taken ++ blanks ++ rest ∧ rest ≠ [] ∧ Unblank rest ∧
      Blank blanks ∧ Solid taken ∧ rule.name = name ∧ Rule.read (taken ++ blanks) = .ok rule ∧
      Rule.definition.call source 0 = (some (.ok rule), (taken.length : Int)) := by
  have ends := read_ends source
  rw [read] at ends
  cases ends with
  | @followed blanks _ _ tree defined blank starts filled _ called =>
      obtain ⟨taken, same, solid, moved⟩ := defined.frame
      have cut := moved blanks fun _ => blank_afterFlag blank
      have stop : posOf source (blanks ++ rest) = taken.length := by simp [posOf, same]
      exact ⟨taken, blanks, _, by rw [same, List.append_assoc], filled, starts, blank, solid, rfl,
        read_of_defines cut blank, by rw [called, stop]⟩

/-- Reading a text ends in one of three ways. It gives the one rule that the text is, blanks at its
end aside; or it says that no beginning of the text is a rule; or it quotes what stands behind the
rule that the rest of the text is. No text makes it meet a node that has no normal form. -/
theorem read_exact (source : List Char) :
    (∀ rule, Rule.read source = .ok rule ↔ Written source rule) ∧
    (∀ rule other, Written source rule → Written source other → rule = other) ∧
    (Rule.read source = .error (.notARule source) ↔
      ∀ front, front <+: source → ∀ rule, Rule.read front ≠ .ok rule) ∧
    (∀ name rest, Rule.read source = .error (.afterRule name rest) →
      ∃ taken blanks rule, source = taken ++ blanks ++ rest ∧ rest ≠ [] ∧ Unblank rest ∧
        Blank blanks ∧ Solid taken ∧ rule.name = name ∧ Rule.read (taken ++ blanks) = .ok rule ∧
        Rule.definition.call source 0 = (some (.ok rule), (taken.length : Int))) ∧
    ((∃ rule, Rule.read source = .ok rule) ∨ ∃ fault, Rule.read source = .error fault ∧
      ((fault = .notARule source ∧
        fault.message = "not a rule definition: ".toList ++ Quoted.encode source) ∨
      ∃ name rest, fault = .afterRule name rest ∧ fault.message =
        "unexpected text after rule '".toList ++ name ++ "': ".toList ++ Quoted.encode rest)) := by
  refine ⟨fun rule => read_eq_ok_iff, ?_, read_eq_notARule_iff, fun _ _ => read_eq_afterRule, ?_⟩
  · intro rule other written another
    have same := (read_eq_ok_iff.mpr written).symm.trans (read_eq_ok_iff.mpr another)
    exact Except.ok.inj same
  · have ends := read_ends source
    generalize Rule.read source = result at ends
    cases ends with
    | missing => exact Or.inr ⟨_, rfl, Or.inl ⟨rfl, rfl⟩⟩
    | whole => exact Or.inl ⟨_, rfl⟩
    | followed => exact Or.inr ⟨_, rfl, Or.inr ⟨_, _, rfl, rfl⟩⟩

end Rulebook.Grammar
