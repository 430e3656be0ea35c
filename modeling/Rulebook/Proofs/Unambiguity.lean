import Rulebook.Proofs.Grammar

/-!
A text has one tree. Two derivations of one part from one text either agree in tree and rest, or
one of them stops before the other. `Continues` says what the text looks like at such a stop: a word
character, or blanks and an operator with an operand behind it. Nothing that ends a part looks like
that, so an operator, a closing parenthesis or the end of a line is met by the longest derivation
only.
-/

namespace Rulebook.Grammar

/-! ## Splitting a text -/

def Unblank (text : List Char) : Prop := ∀ char ∈ text.head?, Token.isBlank char = false

theorem unblank_cons {char : Char} (noBlank : Token.isBlank char = false) (rest : List Char) :
    Unblank (char :: rest) := by
  simpa [Unblank] using noBlank

theorem takeWhile_blank_append {blanks text : List Char} (blank : Blank blanks)
    (starts : Unblank text) : (blanks ++ text).takeWhile Token.isBlank = blanks := by
  rw [List.takeWhile_append_of_pos blank]
  cases text with
  | nil => simp
  | cons char rest => simp [starts char (by simp)]

theorem dropWhile_blank_append {blanks text : List Char} (blank : Blank blanks)
    (starts : Unblank text) : (blanks ++ text).dropWhile Token.isBlank = text := by
  rw [List.dropWhile_append_of_pos blank]
  cases text with
  | nil => simp
  | cons char rest => simp [starts char (by simp)]

theorem blank_split {left right text other : List Char} (blankLeft : Blank left)
    (blankRight : Blank right) (starts : Unblank text) (otherStarts : Unblank other)
    (same : left ++ text = right ++ other) : left = right ∧ text = other := by
  have fronts : left = right := by
    rw [← takeWhile_blank_append blankLeft starts, same,
      takeWhile_blank_append blankRight otherStarts]
  subst fronts
  exact ⟨rfl, List.append_cancel_left same⟩

theorem content_split {delimiter : Char} {left right rest other : List Char}
    (noEscape : delimiter ≠ '\\') (contentLeft : Content delimiter left)
    (contentRight : Content delimiter right)
    (same : left ++ delimiter :: rest = right ++ delimiter :: other) :
    left = right ∧ rest = other := by
  -- The contents are compared from the left: where one of them ends, the other would have to go on
  -- with the delimiter, which stands in a content only behind a backslash.
  induction contentLeft generalizing right with
  | nil => cases contentRight <;> simp_all
  | plain different noSlash _ ih =>
      cases contentRight with
      | nil => simp_all
      | plain _ _ content =>
          simp only [List.cons_append, List.cons.injEq] at same
          simpa [same.1] using ih content same.2
      | escaped => simp_all
  | escaped _ _ ih =>
      simp only [List.cons_append] at same
      cases contentRight with
      | nil =>
          simp only [List.nil_append, List.cons.injEq] at same
          exact absurd same.1.symm noEscape
      | plain _ noSlash =>
          simp only [List.cons_append, List.cons.injEq] at same
          exact absurd same.1.symm noSlash
      | escaped _ content =>
          simp only [List.cons_append, List.cons.injEq, true_and] at same
          simpa [same.1] using ih content same.2

theorem Derives.unblank {part : Part} {text rest : List Char} {tree : Expr}
    (derived : Derives part text rest tree) : Unblank text := by
  rcases derived.opens with ⟨char, tail, rfl, opens⟩
  simpa [Unblank] using not_blank_of_opens opens

theorem mark_split {level : Level} {left right text other : List Char} (marksLeft : level.Mark left)
    (marksRight : level.Mark right) (starts : Unblank text) (otherStarts : Unblank other)
    (same : left ++ text = right ++ other) : left = right ∧ text = other := by
  cases level with
  | sequence => exact blank_split marksLeft.1 marksRight.1 starts otherStarts same
  | repetition | union =>
      rcases marksLeft with ⟨before, after, blankBefore, blankAfter, rfl⟩
      rcases marksRight with ⟨before', after', blankBefore', blankAfter', rfl⟩
      simp only [List.append_assoc, List.cons_append] at same
      rcases blank_split blankBefore blankBefore' (unblank_cons (by decide) _)
        (unblank_cons (by decide) _) same with ⟨rfl, tails⟩
      simp only [List.cons.injEq, true_and] at tails
      rcases blank_split blankAfter blankAfter' starts otherStarts tails with ⟨rfl, rfl⟩
      exact ⟨rfl, rfl⟩

variable {text rest : List Char} {tree : Expr}

/-! ## The alternatives of an atom -/

def atomAt (char : Char) : Part :=
  if char = '\'' then .text
  else if char = '/' then .pattern
  else if char = '(' then .group
  else .reference

theorem nameStart_atomAt {char : Char} (starts : Token.isNameStart char = true) :
    atomAt char = .reference := by
  unfold atomAt
  split
  · subst char; exact absurd starts (by decide)
  split
  · subst char; exact absurd starts (by decide)
  split
  · subst char; exact absurd starts (by decide)
  · rfl

theorem alternative_eq_atomAt {part : Part} (member : part ∈ Part.alternatives)
    (derived : Derives part text rest tree) :
    ∃ char tail, text = char :: tail ∧ part = atomAt char := by
  simp only [Part.alternatives, List.mem_cons, List.not_mem_nil, or_false] at member
  rcases member with rfl | rfl | rfl | rfl
  · rcases derives_text_iff.mp derived with ⟨_, _, _, rfl, _⟩
    exact ⟨_, _, rfl, by simp [atomAt]⟩
  · rcases derives_pattern_iff.mp derived with ⟨_, _, _, _, rfl, _⟩
    exact ⟨_, _, rfl, by simp [atomAt]⟩
  · rcases derives_reference_iff.mp derived with ⟨_, named, rfl, _⟩
    rcases isName_opens named with ⟨first, others, rfl, starts⟩
    exact ⟨first, _, rfl, (nameStart_atomAt starts).symm⟩
  · rcases derives_group_iff.mp derived with ⟨_, _, _, _, _, _, _, rfl, _⟩
    exact ⟨_, _, rfl, by simp [atomAt]⟩

/-! ## What a stop before the end looks like -/

def ahead (text : List Char) : Option Char := (text.dropWhile Token.isBlank).head?

def WordAhead (text : List Char) : Prop := ∃ char ∈ text.head?, Token.isWord char = true

namespace Level

/-- An operator of the level, as far as the text before its operand shows it. -/
def Ahead : Level → List Char → Prop
  | .repetition, text => ahead text = some '^'
  | .sequence, text =>
      (∃ char ∈ text.head?, Token.isBlank char = true) ∧ ∃ char ∈ ahead text, Opens char
  | .union, text => ahead text = some '|'

def rank : Level → Nat
  | .repetition => 0
  | .sequence => 1
  | .union => 2

end Level

def Continues : Part → List Char → Prop
  | .operation level, text | .item level, text =>
      WordAhead text ∨ ∃ lower : Level, lower.rank ≤ level.rank ∧ lower.Ahead text
  | _, text => WordAhead text

theorem ahead_append {blanks text : List Char} (blank : Blank blanks) (starts : Unblank text) :
    ahead (blanks ++ text) = text.head? := by
  rw [ahead, dropWhile_blank_append blank starts]

theorem WordAhead.ahead {text : List Char} (word : WordAhead text) :
    ∃ char, ahead text = some char ∧ Token.isWord char = true := by
  rcases word with ⟨char, first, word⟩
  cases text with
  | nil => simp at first
  | cons start others =>
      simp only [List.head?_cons, Option.mem_def, Option.some.injEq] at first
      subst first
      exact ⟨start, by simp [Grammar.ahead, word_not_blank word], word⟩

theorem mark_ahead {level : Level} {mark right : List Char} (marks : level.Mark mark)
    (opens : ∃ char tail, right = char :: tail ∧ Opens char) : level.Ahead (mark ++ right) := by
  rcases opens with ⟨char, tail, rfl, opens⟩
  cases level with
  | sequence =>
      have starts : Unblank (char :: tail) := by simpa [Unblank] using not_blank_of_opens opens
      have front := ahead_append marks.1 starts
      rcases List.exists_cons_of_ne_nil marks.2 with ⟨first, others, rfl⟩
      exact ⟨⟨first, rfl, marks.1 first (by simp)⟩, char, front, opens⟩
  | repetition | union =>
      rcases marks with ⟨before, after, blankBefore, _, rfl⟩
      rw [List.append_assoc]
      exact ahead_append blankBefore (unblank_cons (by decide) _)

theorem Level.Ahead.not_word {level : Level} {text : List Char} (operator : level.Ahead text) :
    ¬ WordAhead text := by
  intro word
  cases level with
  | sequence =>
      rcases operator with ⟨⟨first, start, blank⟩, _⟩
      rcases word with ⟨_, same, word⟩
      cases start.symm.trans same
      exact absurd blank (by simp [word_not_blank word])
  | repetition | union =>
      rcases word.ahead with ⟨_, same, word⟩
      cases operator.symm.trans same
      exact absurd word (by decide)

theorem Level.Ahead.unique {level other : Level} {text : List Char} (operator : level.Ahead text)
    (otherOperator : other.Ahead text) : level = other := by
  have noMark : ∀ mark, mark = '^' ∨ mark = '|' → ahead text = some mark →
      ¬ Level.sequence.Ahead text := by
    rintro mark marks same ⟨_, char, start, opens⟩
    cases same.symm.trans start
    rcases marks with rfl | rfl <;> exact absurd opens (by simp [Opens]; decide)
  cases level <;> cases other
  case repetition.repetition | sequence.sequence | union.union => rfl
  case repetition.sequence => exact absurd otherOperator (noMark _ (Or.inl rfl) operator)
  case union.sequence => exact absurd otherOperator (noMark _ (Or.inr rfl) operator)
  case sequence.repetition => exact absurd operator (noMark _ (Or.inl rfl) otherOperator)
  case sequence.union => exact absurd operator (noMark _ (Or.inr rfl) otherOperator)
  case repetition.union => cases operator.symm.trans otherOperator
  case union.repetition => cases operator.symm.trans otherOperator

theorem continues_operand_iff {level : Level} {text : List Char} :
    Continues level.operand text ↔
      WordAhead text ∨ ∃ lower : Level, lower.rank < level.rank ∧ lower.Ahead text := by
  cases level with
  | repetition => simp [Level.operand, Continues, Level.rank]
  | sequence | union => simp only [Level.operand, Continues, Level.rank, Nat.lt_succ_iff]

theorem Continues.of_operand {level : Level} {text : List Char}
    (continued : Continues level.operand text) : Continues (.item level) text := by
  rcases continues_operand_iff.mp continued with word | ⟨lower, below, operator⟩
  · exact Or.inl word
  · exact Or.inr ⟨lower, Nat.le_of_lt below, operator⟩

theorem Level.Ahead.not_continues {level : Level} {text : List Char} (operator : level.Ahead text) :
    ¬ Continues level.operand text := by
  intro continued
  rcases continues_operand_iff.mp continued with word | ⟨lower, below, lowerOperator⟩
  · exact operator.not_word word
  · cases operator.unique lowerOperator
    exact Nat.lt_irrefl _ below

theorem not_continues {part : Part} {blanks text : List Char} (blank : Blank blanks)
    (starts : Unblank text) (ends : ∀ char ∈ text.head?,
      ¬ Opens char ∧ Token.isWord char = false ∧ char ≠ '^' ∧ char ≠ '|') :
    ¬ Continues part (blanks ++ text) := by
  rw [← ahead_append blank starts] at ends
  have noWord : ¬ WordAhead (blanks ++ text) := by
    intro word
    rcases word.ahead with ⟨char, same, word⟩
    exact absurd word (by simp [(ends char same).2.1])
  have noOperator : ∀ level : Level, ¬ level.Ahead (blanks ++ text) := by
    intro level operator
    cases level with
    | repetition => exact (ends _ operator).2.2.1 rfl
    | sequence =>
        rcases operator with ⟨_, char, same, opens⟩
        exact (ends char same).1 opens
    | union => exact (ends _ operator).2.2.2 rfl
  intro continued
  cases part with
  | text | pattern | reference | group | atom => exact noWord continued
  | operation level | item level =>
      rcases continued with word | ⟨lower, _, operator⟩
      · exact noWord word
      · exact noOperator lower operator

theorem blank_ends {part : Part} {blanks : List Char} (blank : Blank blanks) :
    ¬ Continues part blanks := by
  have ends := @not_continues part blanks [] blank (by simp [Unblank]) (by simp)
  rwa [List.append_nil] at ends

theorem closing_ends {part : Part} {blanks tail : List Char} (blank : Blank blanks) :
    ¬ Continues part (blanks ++ ')' :: tail) := by
  apply not_continues blank (unblank_cons (by decide) tail)
  rintro char ⟨⟩
  exact ⟨by simp [Opens]; decide, by decide, by decide, by decide⟩

theorem colon_ends {part : Part} {tail : List Char} : ¬ Continues part (':' :: tail) := by
  apply @not_continues part [] _ (by simp [Blank]) (unblank_cons (by decide) tail)
  rintro char ⟨⟩
  exact ⟨by simp [Opens]; decide, by decide, by decide, by decide⟩

/-! ## Comparing two derivations -/

/-- Two derivations of a part from one text agree, or one of them stops before the other, at a place
where the part goes on. -/
def Compared (part : Part) (rest other : List Char) (tree otherTree : Expr) : Prop :=
  (rest = other ∧ tree = otherTree) ∨
  (other.length < rest.length ∧ Continues part rest) ∨
  (rest.length < other.length ∧ Continues part other)

theorem Compared.symm {part : Part} {rest other : List Char} {tree otherTree : Expr}
    (compared : Compared part rest other tree otherTree) :
    Compared part other rest otherTree tree := by
  rcases compared with ⟨rfl, rfl⟩ | longer | shorter
  · exact Or.inl ⟨rfl, rfl⟩
  · exact Or.inr (Or.inr longer)
  · exact Or.inr (Or.inl shorter)

theorem Compared.of_alternative {part : Part} {rest other : List Char} {tree otherTree : Expr}
    (compared : Compared part rest other tree otherTree)
    (member : part ∈ Part.alternatives) :
    Compared .atom rest other tree otherTree := by
  simp only [Part.alternatives, List.mem_cons, List.not_mem_nil, or_false] at member
  rcases member with rfl | rfl | rfl | rfl <;> exact compared

theorem Compared.of_operand {level : Level} {rest other : List Char} {tree otherTree : Expr}
    (compared : Compared level.operand rest other tree otherTree) :
    Compared (.item level) rest other tree otherTree := by
  rcases compared with same | ⟨longer, continued⟩ | ⟨shorter, continued⟩
  · exact Or.inl same
  · exact Or.inr (Or.inl ⟨longer, continued.of_operand⟩)
  · exact Or.inr (Or.inr ⟨shorter, continued.of_operand⟩)

theorem names_compared {name otherName rest other : List Char} (named : IsName name)
    (otherNamed : IsName otherName) (same : name ++ rest = otherName ++ other) :
    Compared .reference rest other (.reference name) (.reference otherName) := by
  -- what the longer name adds starts with a word character
  have longer : ∀ {short more after : List Char}, IsName short → IsName (short ++ more) →
      more ≠ [] → after.length < (more ++ after).length ∧ WordAhead (more ++ after) := by
    intro short more after shortNamed longNamed filled
    rcases List.exists_cons_of_ne_nil filled with ⟨first, others, rfl⟩
    rcases isName_opens shortNamed with ⟨start, middle, rfl, _⟩
    exact ⟨by simp only [List.cons_append, List.length_cons, List.length_append]; omega,
      first, rfl, longNamed.2.2 first (by simp)⟩
  rcases List.append_eq_append_iff.mp same with ⟨more, rfl, rfl⟩ | ⟨more, rfl, rfl⟩
  · by_cases filled : more = []
    · subst filled; exact Or.inl ⟨rfl, by simp⟩
    · exact Or.inr (Or.inl (longer named otherNamed filled))
  · by_cases filled : more = []
    · subst filled; exact Or.inl ⟨rfl, by simp⟩
    · exact Or.inr (Or.inr (longer otherNamed named filled))

/-- A flag left unread is the only difference two patterns can have. -/
theorem flags_compared {source otherSource rest other : List Char} {flagged otherFlagged : Bool}
    (same : source = otherSource)
    (tails : flagText flagged ++ rest = flagText otherFlagged ++ other) :
    Compared .pattern rest other (.pattern source flagged false)
      (.pattern otherSource otherFlagged false) := by
  subst same
  have letter : WordAhead ('i' :: rest) ∧ WordAhead ('i' :: other) := by
    constructor <;> exact ⟨'i', rfl, by decide⟩
  cases flagged <;> cases otherFlagged <;> simp only [flagText, if_true, Bool.false_eq_true,
    if_false, List.nil_append, List.cons_append, List.cons.injEq, true_and] at tails
  · exact Or.inl ⟨tails, rfl⟩
  · subst tails; exact Or.inr (Or.inl ⟨by simp, letter.2⟩)
  · subst tails; exact Or.inr (Or.inr ⟨by simp, letter.1⟩)
  · exact Or.inl ⟨tails, rfl⟩

theorem operand_stops {level : Level} {mark right rest other : List Char}
    {left tail otherTree : Expr}
    (compared : Compared level.operand (mark ++ right) other left otherTree)
    (marks : level.Mark mark) (second : Derives (.item level) right rest tail) :
    rest.length < other.length ∧ Continues (.item level) other := by
  have operator := mark_ahead marks second.opens
  have shorter := second.shorter
  rcases compared with ⟨rfl, _⟩ | ⟨_, continued⟩ | ⟨longer, continued⟩
  · refine ⟨?_, Or.inr ⟨level, Nat.le_refl _, operator⟩⟩
    simp only [List.length_append]
    omega
  · exact absurd continued operator.not_continues
  · refine ⟨?_, continued.of_operand⟩
    simp only [List.length_append] at longer
    omega

/-! ## One production at a time, compared -/

def Compares (part : Part) (text rest : List Char) (tree : Expr) : Prop :=
  ∀ other otherTree, Derives part text other otherTree → Compared part rest other tree otherTree

theorem text_compares {value : List Char} (content : Content '\'' value) :
    Compares .text ('\'' :: (value ++ '\'' :: rest)) rest (.text value) := by
  intro other otherTree second
  rcases derives_text_iff.mp second with ⟨value', content', _, same, rfl⟩
  simp only [List.cons.injEq, true_and] at same
  rcases content_split (by decide) content content' same with ⟨rfl, rfl⟩
  exact Or.inl ⟨rfl, rfl⟩

theorem pattern_compares {source : List Char} (flagged : Bool) (content : Content '/' source) :
    Compares .pattern ('/' :: (source ++ '/' :: (flagText flagged ++ rest))) rest
      (.pattern source flagged false) := by
  intro other otherTree second
  rcases derives_pattern_iff.mp second with ⟨source', flagged', content', _, same, _, rfl⟩
  simp only [List.cons.injEq, true_and] at same
  rcases content_split (by decide) content content' same with ⟨sources, tails⟩
  exact flags_compared sources tails

theorem reference_compares {name : List Char} (named : IsName name) :
    Compares .reference (name ++ rest) rest (.reference name) := by
  intro other otherTree second
  rcases derives_reference_iff.mp second with ⟨name', named', same, rfl⟩
  exact names_compared named named' same

theorem group_compares {before after inner : List Char} (blankBefore : Blank before)
    (within : Derives (.item .union) inner (after ++ ')' :: rest) tree) (blankAfter : Blank after)
    (inside : Compares (.item .union) inner (after ++ ')' :: rest) tree) :
    Compares .group ('(' :: (before ++ inner)) rest (.group tree) := by
  intro other otherTree second
  rcases derives_group_iff.mp second with
    ⟨_, _, _, _, blankBefore', blankAfter', within', same, rfl⟩
  simp only [List.cons.injEq, true_and] at same
  rcases blank_split blankBefore blankBefore' within.unblank within'.unblank same with ⟨rfl, rfl⟩
  -- inside, a stop before blanks and a parenthesis is the last one
  rcases inside _ _ within' with ⟨rests, rfl⟩ | ⟨_, continued⟩ | ⟨_, continued⟩
  · rcases blank_split blankAfter blankAfter' (unblank_cons (by decide) _)
      (unblank_cons (by decide) _) rests with ⟨_, tails⟩
    cases tails
    exact Or.inl ⟨rfl, rfl⟩
  · exact absurd continued (closing_ends blankAfter)
  · exact absurd continued (closing_ends blankAfter')

theorem atom_compares {part : Part} (member : part ∈ Part.alternatives)
    (first : Derives part text rest tree) (compares : Compares part text rest tree) :
    Compares .atom text rest tree := by
  intro other otherTree second
  rcases derives_atom_iff.mp second with ⟨part', member', second⟩
  -- the first character leaves one alternative
  rcases alternative_eq_atomAt member first with ⟨char, tail, rfl, rfl⟩
  rcases alternative_eq_atomAt member' second with ⟨_, _, same, rfl⟩
  cases same
  exact (compares _ _ second).of_alternative member

theorem operation_compares {level : Level} {mark right : List Char} {left tail : Expr}
    (marks : level.Mark mark) (second : Derives (.item level) right rest tail)
    (front : Compares level.operand text (mark ++ right) left)
    (back : Compares (.item level) right rest tail) :
    Compares (.operation level) text rest (level.join left tail) := by
  intro other otherTree derived
  rcases derives_operation_iff.mp derived with
    ⟨mark', right', left', tail', first', marks', second', rfl⟩
  have operator := mark_ahead marks second.opens
  have operator' := mark_ahead marks' second'.opens
  -- both operands stop before the operator, so both stop at the same place
  rcases front _ _ first' with ⟨rests, rfl⟩ | ⟨_, continued⟩ | ⟨_, continued⟩
  · rcases mark_split marks marks' second.unblank second'.unblank rests with ⟨rfl, rfl⟩
    rcases back _ _ second' with ⟨rfl, rfl⟩ | longer | shorter
    · exact Or.inl ⟨rfl, rfl⟩
    · exact Or.inr (Or.inl longer)
    · exact Or.inr (Or.inr shorter)
  · exact absurd continued operator.not_continues
  · exact absurd continued operator'.not_continues

theorem operand_compares {level : Level} (compares : Compares level.operand text rest tree) :
    Compares (.item level) text rest tree := by
  intro other otherTree second
  rcases derives_item_iff.mp second with second | second
  · rcases derives_operation_iff.mp second with ⟨_, _, _, _, first, marks, tail, rfl⟩
    exact Or.inr (Or.inl (operand_stops (compares _ _ first).symm marks tail))
  · exact (compares _ _ second).of_operand

/-- The second half is about an operation alone: the operand it starts with stops before it. -/
theorem Derives.compare_all {part : Part} (derived : Derives part text rest tree) :
    Compares part text rest tree ∧
    (∀ level, part = .operation level → ∀ other otherTree,
      Derives level.operand text other otherTree →
        rest.length < other.length ∧ Continues (.item level) other) := by
  induction derived with
  | text content => exact ⟨text_compares content, by simp⟩
  | pattern content => exact ⟨pattern_compares false content, by simp⟩
  | flagged content => exact ⟨pattern_compares true content, by simp⟩
  | reference named => exact ⟨reference_compares named, by simp⟩
  | group blankBefore within blankAfter ih =>
      exact ⟨group_compares blankBefore within blankAfter ih.1, by simp⟩
  | atom member first ih => exact ⟨atom_compares member first ih.1, by simp⟩
  | operation first marks second ihFirst ihSecond =>
      refine ⟨operation_compares marks second ihFirst.1 ihSecond.1, ?_⟩
      rintro _ ⟨⟩ other otherTree operand
      exact operand_stops (ihFirst.1 _ _ operand) marks second
  | joined first ih =>
      refine ⟨?_, by simp⟩
      intro other otherTree second
      -- the other derivation may be the operand alone, which stops before the operator of this one
      rcases derives_item_iff.mp second with second | second
      · exact ih.1 _ _ second
      · exact Or.inr (Or.inr (ih.2 _ rfl _ _ second))
  | operand first ih => exact ⟨operand_compares ih.1, by simp⟩

theorem Derives.compare {part : Part} (derived : Derives part text rest tree) :
    Compares part text rest tree := derived.compare_all.1

theorem Derives.ends_eq {part : Part} {other : List Char} {otherTree : Expr}
    (derived : Derives part text rest tree) (ends : ¬ Continues part rest)
    (second : Derives part text other otherTree) (otherEnds : ¬ Continues part other) :
    rest = other ∧ tree = otherTree := by
  rcases derived.compare _ _ second with same | ⟨_, continued⟩ | ⟨_, continued⟩
  · exact same
  · exact absurd continued ends
  · exact absurd continued otherEnds

theorem Derives.unique {part : Part} {otherTree : Expr} (derived : Derives part text rest tree)
    (second : Derives part text rest otherTree) : tree = otherTree := by
  rcases derived.compare _ _ second with ⟨_, same⟩ | ⟨less, _⟩ | ⟨less, _⟩
  · exact same
  · exact absurd less (Nat.lt_irrefl _)
  · exact absurd less (Nat.lt_irrefl _)

theorem Derives.longest {part : Part} {other : List Char} {otherTree : Expr}
    (derived : Derives part text rest tree) (ends : ¬ Continues part rest)
    (second : Derives part text other otherTree) : other = rest ∨ rest.length < other.length := by
  rcases derived.compare _ _ second with ⟨same, _⟩ | ⟨_, continued⟩ | ⟨less, _⟩
  · exact Or.inl same.symm
  · exact absurd continued ends
  · exact Or.inr less

theorem Derives.stop_eq {part : Part} {other : List Char} {otherTree : Expr}
    (derived : Derives part text rest tree) (ends : ¬ Continues part rest)
    (second : Derives part text other otherTree) (bound : other.length ≤ rest.length) :
    other = rest := by
  rcases derived.longest ends second with same | less
  · exact same
  · omega

end Rulebook.Grammar
