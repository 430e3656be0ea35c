import Rulebook.Proofs.LineFormat
import Rulebook.Proofs.RuleReading
import Rulebook.Table.Reader

/-!
Reading one line. A line is blank, a comment, or a rule with blanks around it and perhaps a comment
behind it. What is none of these either has no rule behind its blanks, or has something else behind
its rule. The rule of a line is the longest one that stands there.
-/

namespace Rulebook.Grammar

open Matcher (map_eq_some both_eq_some token_eq_some literal_char_eq_some)

variable {source text rest line : List Char} {rule : Rule}

/-! ## Comments -/

/-- Nothing more, or a comment. -/
def Remark (tail : List Char) : Prop := tail = [] ∨ ∃ rest, tail = '#' :: rest

theorem Remark.unblank {tail : List Char} (remark : Remark tail) : Unblank tail := by
  obtain rfl | ⟨rest, rfl⟩ := remark
  · simp [Unblank]
  · exact unblank_cons (by decide) rest

theorem Remark.afterFlag {blanks tail : List Char} (remark : Remark tail) (blank : Blank blanks) :
    AfterFlag (blanks ++ tail) := by
  by_cases filled : blanks = []
  · subst filled
    obtain rfl | ⟨rest, rfl⟩ := remark <;> simp [AfterFlag]
  · apply afterFlag_append filled []
    simpa using blank_afterFlag blank

theorem Remark.not_continues {part : Part} {blanks tail : List Char} (remark : Remark tail)
    (blank : Blank blanks) : ¬ Continues part (blanks ++ tail) := by
  apply Grammar.not_continues blank remark.unblank
  obtain rfl | ⟨rest, rfl⟩ := remark
  · simp
  · rintro char ⟨⟩
    exact ⟨by simp [Opens]; decide, by decide, by decide, by decide⟩

theorem first_line (text : List Char) : ∃ line mark rest, text = line ++ (mark ++ rest) ∧
    Unbroken line ∧ LineEnd mark rest := by
  obtain ⟨_, cut⟩ := Lines.exists text
  cases cut with
  | last unbroken => exact ⟨text, [], [], by simp, unbroken, LineEnd.textEnd⟩
  | ended unbroken ends _ _ => exact ⟨_, _, _, rfl, unbroken, ends⟩

theorem LineEnd.head_ends {mark : List Char} (ends : LineEnd mark rest) :
    ∀ char ∈ (mark ++ rest).head?, Token.isLineEnd char = true := by
  cases ends <;> simp [Token.isLineEnd]

theorem comment_eq_some {stop : Int} (ending : text <:+ source) :
    Reader.comment source (posOf source text) = some ((), stop) ↔
      ∃ body mark rest, text = '#' :: (body ++ (mark ++ rest)) ∧ Unbroken body ∧
        LineEnd mark rest ∧ stop = posOf source rest := by
  simp only [Reader.comment, map_eq_some, Prod.exists, both_eq_some]
  constructor
  · rintro ⟨_, _, _, ⟨_, first, _, second, third⟩, _⟩
    obtain ⟨_, rfl, _, rfl⟩ := (literal_char_eq_some ending).mp first
    have inside := suffix_next ending
    obtain ⟨_, rfl, ⟨unbroken, _⟩, rfl⟩ := (token_eq_some restOfLine_takes inside).mp second
    obtain ⟨rest, rfl, ends, rfl⟩ := (token_eq_some lineEnd_takes (suffix_tail inside)).mp third
    exact ⟨_, _, rest, rfl, unbroken, ends, rfl⟩
  · rintro ⟨body, mark, rest, rfl, unbroken, ends, rfl⟩
    have inside := suffix_next ending
    have first := (literal_char_eq_some ending).mpr ⟨_, rfl, rfl, rfl⟩
    have second := (token_eq_some restOfLine_takes inside).mpr
      ⟨_, rfl, ⟨unbroken, ends.head_ends⟩, rfl⟩
    have third := (token_eq_some lineEnd_takes (suffix_tail inside)).mpr ⟨rest, rfl, ends, rfl⟩
    exact ⟨_, _, _, ⟨_, first, _, second, third⟩, trivial⟩

theorem comment_of_hash (ending : '#' :: rest <:+ source) :
    ∃ stop, Reader.comment source (posOf source ('#' :: rest)) = some ((), stop) := by
  obtain ⟨body, mark, after, rfl, unbroken, ends⟩ := first_line rest
  exact ⟨_, (comment_eq_some ending).mpr ⟨body, mark, after, rfl, unbroken, ends, rfl⟩⟩

theorem comment_of_no_remark (ending : text <:+ source) (noRemark : ¬ Remark text) :
    Reader.comment source (posOf source text) = none := by
  cases taken : Reader.comment source (posOf source text) with
  | none => rfl
  | some result =>
      obtain ⟨_, _, _, same, _⟩ := (comment_eq_some ending).mp taken
      exact absurd (Or.inr ⟨_, same⟩) noRemark

theorem comment_to_end (unbroken : Unbroken source) (ending : '#' :: rest <:+ source) :
    Reader.comment source (posOf source ('#' :: rest)) = some ((), (source.length : Int)) := by
  have inside : Unbroken rest := fun char member =>
    unbroken char (ending.subset (List.mem_cons_of_mem _ member))
  have taken := (comment_eq_some ending).mpr ⟨rest, [], [], by simp, inside, LineEnd.textEnd, rfl⟩
  simpa [posOf] using taken

/-! ## The longest rule -/

/-- A rule at the front of the text, and no definition there goes further. -/
structure Longest (text rest : List Char) (rule : Rule) : Prop where
  defined : ∃ tree, Defines text rest rule.name tree ∧ tree.normalize = .ok rule.expression
  furthest : ∀ other name tree, Defines text other name tree → rest.length ≤ other.length

theorem Longest.suffix (longest : Longest text rest rule) : rest <:+ text := by
  obtain ⟨_, defined, _⟩ := longest.defined
  exact defined.suffix

theorem Longest.starts (longest : Longest text rest rule) : Unblank text ∧ ¬ Remark text := by
  obtain ⟨_, ⟨blanks, inner, rfl, named, _⟩, _⟩ := longest.defined
  obtain ⟨first, others, same, starts⟩ := isName_opens named
  have opens : Opens first := by simp [Opens, starts]
  rw [same, List.cons_append]
  refine ⟨unblank_cons (not_blank_of_opens opens) _, ?_⟩
  rintro (empty | ⟨_, hash⟩)
  · cases empty
  · cases hash
    exact absurd starts (by decide)

theorem longest_of_defines {name : List Char} {tree : Expr} (ending : text <:+ source)
    (defined : Defines text rest name tree) : ∃ rule stop, Longest text stop rule ∧
      Rule.definition source (posOf source text) = some (.ok rule, posOf source stop) := by
  obtain ⟨found, stop, read, longest, furthest⟩ := definition_of_defines ending defined
  refine ⟨⟨name, found.normal⟩, stop, ⟨⟨found, longest, ?_⟩, ?_⟩, read⟩
  · obtain ⟨_, _, _, _, _, derived⟩ := longest
    exact derived.proper.normalize_eq
  · intro other name' tree' another
    obtain ⟨rfl, _⟩ := defined.same_front another
    exact furthest other tree' another

theorem Longest.unique {rest' : List Char} {rule' : Rule} (longest : Longest text rest rule)
    (again : Longest text rest' rule') : rest = rest' ∧ rule = rule' := by
  obtain ⟨tree, defined, normal⟩ := longest.defined
  obtain ⟨tree', defined', normal'⟩ := again.defined
  have lengths : rest.length = rest'.length :=
    Nat.le_antisymm (longest.furthest _ _ _ defined') (again.furthest _ _ _ defined)
  have rests : rest = rest' := by
    rw [← drop_of_suffix longest.suffix, ← drop_of_suffix again.suffix, lengths]
  subst rests
  obtain ⟨names, inner, _, first, second⟩ := defined.same_front defined'
  cases first.unique second
  cases rule
  cases rule'
  cases names
  cases normal.symm.trans normal'
  exact ⟨rfl, rfl⟩

theorem definition_of_longest (ending : text <:+ source) (longest : Longest text rest rule) :
    Rule.definition source (posOf source text) = some (.ok rule, posOf source rest) := by
  obtain ⟨_, defined, _⟩ := longest.defined
  obtain ⟨rule', stop, again, read⟩ := longest_of_defines ending defined
  obtain ⟨rfl, rfl⟩ := longest.unique again
  exact read

theorem definition_eq_some_iff {before : List Char} {stop : Int} :
    Rule.definition (before ++ text) before.length = some (.ok rule, stop) ↔
      ∃ rest, Longest text rest rule ∧ stop + rest.length = (before ++ text).length := by
  have ending := List.suffix_append before text
  rw [← posOf_front before text]
  constructor
  · intro read
    by_cases defined : ∃ rest name tree, Defines text rest name tree
    · obtain ⟨_, _, _, defined⟩ := defined
      obtain ⟨rule', rest, longest, read'⟩ := longest_of_defines ending defined
      cases read.symm.trans read'
      exact ⟨rest, longest, posOf_add_length (longest.suffix.trans ending)⟩
    · have absent := definition_of_absent ending fun rest name tree found =>
        defined ⟨rest, name, tree, found⟩
      cases read.symm.trans absent
  · rintro ⟨rest, longest, same⟩
    rw [definition_of_longest ending longest]
    have whole := posOf_add_length (longest.suffix.trans ending)
    have stops : posOf (before ++ text) rest = stop := by omega
    rw [stops]

theorem definition_eq_none_iff {before : List Char} :
    Rule.definition (before ++ text) before.length = none ↔
      ∀ rest name tree, ¬ Defines text rest name tree := by
  have ending := List.suffix_append before text
  rw [← posOf_front before text]
  constructor
  · intro read rest name tree defined
    obtain ⟨_, _, _, read'⟩ := longest_of_defines ending defined
    cases read.symm.trans read'
  · intro absent
    exact definition_of_absent ending absent

/-! ## Kinds of lines -/

/-- A line that is read, and its rule if it has one. -/
inductive Accepts (line : List Char) : Option Rule → Prop where
  | blank : Blank line → Accepts line none
  | comment {blanks rest} : line = blanks ++ '#' :: rest → Blank blanks → Accepts line none
  | rule {before text after tail rule} : line = before ++ text → Blank before →
      Longest text (after ++ tail) rule → Blank after → Remark tail → Accepts line (some rule)

/-- A line that is not read, and what is said of it. -/
inductive Rejects (number : Nat) (line : List Char) : Fault → Prop where
  | unreadable {before text} : line = before ++ text → Blank before → Unblank text →
      ¬ Remark text → (∀ rest name tree, ¬ Defines text rest name tree) →
      Rejects number line (.unreadableLine number (Line.trim line))
  | leftover {before text after rest rule} : line = before ++ text → Blank before →
      Longest text (after ++ rest) rule → Blank after → Unblank rest → ¬ Remark rest →
      Rejects number line (.afterRuleOnLine rule.name number rest)

theorem accepts_or_rejects (number : Nat) (line : List Char) :
    (∃ found, Accepts line found) ∨ ∃ fault, Rejects number line fault := by
  obtain ⟨before, text, rfl, blank, starts⟩ := blank_front line
  by_cases remark : Remark text
  · apply Or.inl
    obtain rfl | ⟨rest, rfl⟩ := remark
    · exact ⟨none, Accepts.blank (by simpa using blank)⟩
    · exact ⟨none, Accepts.comment rfl blank⟩
  by_cases defined : ∃ rest name tree, Defines text rest name tree
  · obtain ⟨_, _, _, defined⟩ := defined
    obtain ⟨rule, stop, longest, _⟩ := longest_of_defines (List.suffix_refl text) defined
    obtain ⟨after, tail, rfl, blankAfter, startsTail⟩ := blank_front stop
    by_cases remarkTail : Remark tail
    · exact Or.inl ⟨some rule, Accepts.rule rfl blank longest blankAfter remarkTail⟩
    · exact Or.inr ⟨_, Rejects.leftover rfl blank longest blankAfter startsTail remarkTail⟩
  · have absent : ∀ rest name tree, ¬ Defines text rest name tree :=
      fun rest name tree found => defined ⟨rest, name, tree, found⟩
    exact Or.inr ⟨_, Rejects.unreadable rfl blank starts remark absent⟩

/-! ## Reading a line -/

open Table (readLine checkRest)

theorem skipBlanks_front {before : List Char} (blank : Blank before) (starts : Unblank text) :
    Reader.skipBlanks (before ++ text) 0 = posOf (before ++ text) text := by
  have skipped := skipBlanks_posOf (List.suffix_refl (before ++ text)) blank starts
  rwa [posOf_self] at skipped

theorem front_of_no_remark {before : List Char} (blank : Blank before) (starts : Unblank text)
    (noRemark : ¬ Remark text) :
    Reader.skipBlanks (before ++ text) 0 = posOf (before ++ text) text ∧
      posOf (before ++ text) text ≠ (before ++ text).length ∧
      Reader.comment (before ++ text) (posOf (before ++ text) text) = none := by
  have ending := List.suffix_append before text
  have filled : text ≠ [] := fun empty => noRemark (Or.inl empty)
  exact ⟨skipBlanks_front blank starts, posOf_ne_length ending filled,
    comment_of_no_remark ending noRemark⟩

theorem checkRest_remark {after tail : List Char} (number : Nat) (rule : Rule)
    (ending : after ++ tail <:+ line) (blank : Blank after) (remark : Remark tail) :
    checkRest number line rule (posOf line (after ++ tail)) = .ok rule := by
  simp only [checkRest, skipBlanks_posOf ending blank remark.unblank]
  obtain rfl | ⟨rest, rfl⟩ := remark
  · simp [posOf]
  · obtain ⟨stop, taken⟩ := comment_of_hash (suffix_tail ending)
    simp only [taken, ite_self]

theorem checkRest_leftover {after : List Char} (number : Nat) (rule : Rule)
    (ending : after ++ rest <:+ line) (blank : Blank after) (starts : Unblank rest)
    (noRemark : ¬ Remark rest) :
    checkRest number line rule (posOf line (after ++ rest)) =
      .error (.afterRuleOnLine rule.name number rest) := by
  have rests := suffix_tail ending
  have filled : rest ≠ [] := fun empty => noRemark (Or.inl empty)
  simp only [checkRest, skipBlanks_posOf ending blank starts, if_pos (posOf_lt_length rests filled),
    comment_of_no_remark rests noRemark]
  rw [posOf, Int.toNat_natCast, drop_of_suffix rests]

theorem readLine_of_accepts {found : Option Rule} (number : Nat) (accepts : Accepts line found) :
    readLine number line = .ok found := by
  cases accepts with
  | blank blank =>
      have skipped := @skipBlanks_front [] line blank (by simp [Unblank])
      rw [List.append_nil] at skipped
      simp [readLine, skipped, posOf]
  | @comment blanks rest same blank =>
      subst same
      have ending := List.suffix_append blanks ('#' :: rest)
      obtain ⟨stop, taken⟩ := comment_of_hash ending
      have starts : Unblank ('#' :: rest) := unblank_cons (by decide) rest
      simp only [readLine, skipBlanks_front blank starts,
        if_neg (posOf_ne_length ending (List.cons_ne_nil _ _)), taken]
  | @rule before text after tail rule same blank longest blankAfter remark =>
      subst same
      have ending := List.suffix_append before text
      obtain ⟨skipped, within, none⟩ :=
        front_of_no_remark blank longest.starts.1 longest.starts.2
      have rests := checkRest_remark number rule (longest.suffix.trans ending) blankAfter remark
      simp only [readLine, skipped, if_neg within, none, definition_of_longest ending longest,
        rests, Except.map]

theorem readLine_of_rejects {number : Nat} {fault : Fault} (rejects : Rejects number line fault) :
    readLine number line = .error fault := by
  cases rejects with
  | @unreadable before text same blank starts noRemark absent =>
      subst same
      have ending := List.suffix_append before text
      obtain ⟨skipped, within, none⟩ := front_of_no_remark blank starts noRemark
      simp only [readLine, skipped, if_neg within, none, definition_of_absent ending absent]
  | @leftover before text after rest rule same blank longest blankAfter starts noRemark =>
      subst same
      have ending := List.suffix_append before text
      obtain ⟨skipped, within, none⟩ :=
        front_of_no_remark blank longest.starts.1 longest.starts.2
      have rests :=
        checkRest_leftover number rule (longest.suffix.trans ending) blankAfter starts noRemark
      simp only [readLine, skipped, if_neg within, none, definition_of_longest ending longest,
        rests, Except.map]

theorem readLine_eq_ok_iff {number : Nat} {found : Option Rule} :
    readLine number line = .ok found ↔ Accepts line found := by
  refine ⟨?_, readLine_of_accepts number⟩
  intro read
  obtain ⟨other, accepts⟩ | ⟨fault, rejects⟩ := accepts_or_rejects number line
  · cases read.symm.trans (readLine_of_accepts number accepts)
    exact accepts
  · cases read.symm.trans (readLine_of_rejects rejects)

theorem readLine_eq_error_iff {number : Nat} {fault : Fault} :
    readLine number line = .error fault ↔ Rejects number line fault := by
  refine ⟨?_, readLine_of_rejects⟩
  intro read
  obtain ⟨found, accepts⟩ | ⟨other, rejects⟩ := accepts_or_rejects number line
  · cases read.symm.trans (readLine_of_accepts number accepts)
  · cases read.symm.trans (readLine_of_rejects rejects)
    exact rejects

end Rulebook.Grammar
