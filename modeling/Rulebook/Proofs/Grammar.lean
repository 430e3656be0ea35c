import Rulebook.Expr.Basic
import Rulebook.Reader.Token

/-!
The grammar of expressions, without a reader. A derivation says that a part of the grammar stands at
the front of a text, what is left of the text after it, and which tree it has. Nothing here prefers
one derivation to another: a name may end before its last character, a flag may be left unread.

    text       := "'" content "'"                  content without "'"
    pattern    := "/" content "/" "i"?             content without "/"
    reference  := name
    group      := "(" blank* (item of unions) blank* ")"
    atom       := text | pattern | reference | group

    operation  := operand mark item                one for each level
    item       := operation | operand              one for each level
-/

namespace Rulebook.Grammar

/-! ## Words of the grammar -/

def Blank (text : List Char) : Prop := ∀ char ∈ text, Token.isBlank char = true

instance (text : List Char) : Decidable (Blank text) :=
  decidable_of_iff (text.all Token.isBlank = true) List.all_eq_true

/-- Pairs of a backslash and any character but a line feed, and characters other than the delimiter
and the backslash. -/
inductive Content (delimiter : Char) : List Char → Prop where
  | nil : Content delimiter []
  | plain {char rest} : char ≠ delimiter → char ≠ '\\' → Content delimiter rest →
      Content delimiter (char :: rest)
  | escaped {char rest} : char ≠ '\n' → Content delimiter rest →
      Content delimiter ('\\' :: char :: rest)

/-- An underscore or one of the letters a to z and A to Z, then at least one word character. -/
def IsName : List Char → Prop
  | [] => False
  | first :: rest =>
      Token.isNameStart first = true ∧ rest ≠ [] ∧ ∀ char ∈ rest, Token.isWord char = true

/-- A flag may be taken before this text: its first letter is no second flag, in either case. -/
def AfterFlag (rest : List Char) : Prop := rest.head? ≠ some 'i' ∧ rest.head? ≠ some 'I'

/-! ## Levels and parts -/

inductive Level where
  | repetition
  | sequence
  | union
  deriving DecidableEq, Repr

inductive Part where
  | text
  | pattern
  | reference
  | group
  | atom
  | operation (level : Level)
  | item (level : Level)
  deriving DecidableEq, Repr

def Part.alternatives : List Part := [.text, .pattern, .reference, .group]

namespace Level

/-- What stands on the left of the operator: an item of the next tighter level. -/
def operand : Level → Part
  | .repetition => .atom
  | .sequence => .item .repetition
  | .union => .item .sequence

def Mark : Level → List Char → Prop
  | .repetition, mark => ∃ before after, Blank before ∧ Blank after ∧ mark = before ++ '^' :: after
  | .sequence, mark => Blank mark ∧ mark ≠ []
  | .union, mark => ∃ before after, Blank before ∧ Blank after ∧ mark = before ++ '|' :: after

def join : Level → Expr → Expr → Expr
  | .repetition, left, right => .repetition left right
  | .sequence, left, right => .sequence [left, right]
  | .union, left, right => .union [left, right]

end Level

/-! ## Derivations -/

/-- The part stands at the front of the text, and `rest` is what is left of the text after it. -/
inductive Derives : Part → List Char → List Char → Expr → Prop where
  | text {value rest} : Content '\'' value → value ≠ [] →
      Derives .text ('\'' :: (value ++ '\'' :: rest)) rest (.text value)
  | pattern {source rest} : Content '/' source → source ≠ [] →
      Derives .pattern ('/' :: (source ++ '/' :: rest)) rest (.pattern source false false)
  | flagged {source rest} : Content '/' source → source ≠ [] → AfterFlag rest →
      Derives .pattern ('/' :: (source ++ '/' :: 'i' :: rest)) rest (.pattern source true false)
  | reference {name rest} : IsName name → Derives .reference (name ++ rest) rest (.reference name)
  | group {before after inner rest tree} : Blank before →
      Derives (.item .union) inner (after ++ ')' :: rest) tree → Blank after →
      Derives .group ('(' :: (before ++ inner)) rest (.group tree)
  | atom {part text rest tree} : part ∈ Part.alternatives →
      Derives part text rest tree → Derives .atom text rest tree
  | operation {level text mark right rest left tree} :
      Derives level.operand text (mark ++ right) left → level.Mark mark →
      Derives (.item level) right rest tree →
      Derives (.operation level) text rest (level.join left tree)
  | joined {level text rest tree} : Derives (.operation level) text rest tree →
      Derives (.item level) text rest tree
  | operand {level text rest tree} : Derives level.operand text rest tree →
      Derives (.item level) text rest tree

variable {text rest : List Char} {tree : Expr}

/-! ## One production at a time -/

theorem derives_text_iff : Derives .text text rest tree ↔
    ∃ value, Content '\'' value ∧ value ≠ [] ∧ text = '\'' :: (value ++ '\'' :: rest) ∧
      tree = .text value := by
  constructor
  · intro derived
    cases derived with
    | text content filled => exact ⟨_, content, filled, rfl, rfl⟩
  · rintro ⟨value, content, filled, rfl, rfl⟩
    exact Derives.text content filled

def flagText (flagged : Bool) : List Char := if flagged then ['i'] else []

theorem derives_pattern_iff : Derives .pattern text rest tree ↔
    ∃ source flagged, Content '/' source ∧ source ≠ [] ∧
      text = '/' :: (source ++ '/' :: (flagText flagged ++ rest)) ∧
      (flagged = true → AfterFlag rest) ∧ tree = .pattern source flagged false := by
  constructor
  · intro derived
    cases derived with
    | pattern content filled => exact ⟨_, false, content, filled, rfl, by simp, rfl⟩
    | flagged content filled after => exact ⟨_, true, content, filled, rfl, fun _ => after, rfl⟩
  · rintro ⟨source, flagged, content, filled, rfl, after, rfl⟩
    cases flagged with
    | false => exact Derives.pattern content filled
    | true => exact Derives.flagged content filled (after rfl)

theorem derives_reference_iff : Derives .reference text rest tree ↔
    ∃ name, IsName name ∧ text = name ++ rest ∧ tree = .reference name := by
  constructor
  · intro derived
    cases derived with
    | reference named => exact ⟨_, named, rfl, rfl⟩
  · rintro ⟨name, named, rfl, rfl⟩
    exact Derives.reference named

theorem derives_group_iff : Derives .group text rest tree ↔
    ∃ before after inner within, Blank before ∧ Blank after ∧
      Derives (.item .union) inner (after ++ ')' :: rest) within ∧
      text = '(' :: (before ++ inner) ∧ tree = .group within := by
  constructor
  · intro derived
    cases derived with
    | group blankBefore within blankAfter =>
        exact ⟨_, _, _, _, blankBefore, blankAfter, within, rfl, rfl⟩
  · rintro ⟨before, after, inner, tree, blankBefore, blankAfter, within, rfl, rfl⟩
    exact Derives.group blankBefore within blankAfter

theorem derives_atom_iff : Derives .atom text rest tree ↔
    ∃ part ∈ Part.alternatives, Derives part text rest tree := by
  constructor
  · intro derived
    cases derived with
    | atom member derived => exact ⟨_, member, derived⟩
  · rintro ⟨part, member, derived⟩
    exact Derives.atom member derived

theorem derives_operation_iff {level : Level} : Derives (.operation level) text rest tree ↔
    ∃ mark right left tail, Derives level.operand text (mark ++ right) left ∧ level.Mark mark ∧
      Derives (.item level) right rest tail ∧ tree = level.join left tail := by
  constructor
  · intro derived
    cases derived with
    | operation first marks second => exact ⟨_, _, _, _, first, marks, second, rfl⟩
  · rintro ⟨mark, right, left, tail, first, marks, second, rfl⟩
    exact Derives.operation first marks second

theorem derives_item_iff {level : Level} : Derives (.item level) text rest tree ↔
    Derives (.operation level) text rest tree ∨ Derives level.operand text rest tree := by
  constructor
  · intro derived
    cases derived with
    | joined derived => exact Or.inl derived
    | operand derived => exact Or.inr derived
  · rintro (derived | derived)
    · exact Derives.joined derived
    · exact Derives.operand derived

/-! ## The front of a derivation -/

def Opens (char : Char) : Prop :=
  char = '\'' ∨ char = '/' ∨ char = '(' ∨ Token.isNameStart char = true

theorem isName_opens {name : List Char} (named : IsName name) :
    ∃ first rest, name = first :: rest ∧ Token.isNameStart first = true := by
  cases name with
  | nil => exact named.elim
  | cons first rest => exact ⟨first, rest, rfl, named.1⟩

theorem blank_cases {char : Char} (blank : Token.isBlank char = true) :
    char = ' ' ∨ char = '\t' := by
  simpa [Token.isBlank] using blank

theorem word_not_blank {char : Char} (word : Token.isWord char = true) :
    Token.isBlank char = false := by
  apply Bool.eq_false_iff.mpr
  intro blank
  rcases blank_cases blank with same | same <;> subst same <;> exact absurd word (by decide)

theorem not_blank_of_opens {char : Char} (opens : Opens char) : Token.isBlank char = false := by
  apply Bool.eq_false_iff.mpr
  intro blank
  rcases blank_cases blank with same | same <;> subst same <;> simp [Opens] at opens <;>
    exact absurd opens (by decide)

theorem Derives.opens {part : Part} (derived : Derives part text rest tree) :
    ∃ char tail, text = char :: tail ∧ Opens char := by
  induction derived with
  | text => exact ⟨_, _, rfl, by simp [Opens]⟩
  | pattern => exact ⟨_, _, rfl, by simp [Opens]⟩
  | flagged => exact ⟨_, _, rfl, by simp [Opens]⟩
  | reference named =>
      rcases isName_opens named with ⟨first, others, rfl, starts⟩
      exact ⟨first, _, rfl, by simp [Opens, starts]⟩
  | group => exact ⟨_, _, rfl, by simp [Opens]⟩
  | atom _ _ ih => exact ih
  | operation _ _ _ ih => exact ih
  | joined _ ih => exact ih
  | operand _ ih => exact ih

/-! ## What a derivation takes -/

def Solid (text : List Char) : Prop :=
  ∃ front last, text = front ++ [last] ∧ Token.isBlank last = false

theorem Solid.append {text : List Char} (solid : Solid text) (front : List Char) :
    Solid (front ++ text) := by
  rcases solid with ⟨middle, last, rfl, noBlank⟩
  exact ⟨front ++ middle, last, by simp, noBlank⟩

theorem isName_solid {name : List Char} (named : IsName name) : Solid name := by
  match name, named with
  | first :: others, ⟨_, filled, words⟩ =>
      refine ⟨first :: others.dropLast, others.getLast filled, ?_,
        word_not_blank (words _ (List.getLast_mem filled))⟩
      simp [List.dropLast_concat_getLast filled]

theorem Solid.ne_nil {text : List Char} (solid : Solid text) : text ≠ [] := by
  rcases solid with ⟨front, last, rfl, _⟩
  simp

theorem Level.Mark.ne_nil {level : Level} {mark : List Char} (marks : level.Mark mark) :
    mark ≠ [] := by
  cases level with
  | sequence => exact marks.2
  | repetition | union =>
      rcases marks with ⟨before, after, _, _, rfl⟩
      simp

theorem afterFlag_append {front : List Char} (filled : front ≠ []) (left right : List Char)
    (after : AfterFlag (front ++ left)) : AfterFlag (front ++ right) := by
  cases front with
  | nil => contradiction
  | cons first others => simpa [AfterFlag] using after

/-- A derivation takes some of the text, up to a character that is no blank. It looks no further
than at the character after that, and only to see whether a flag may end there. -/
theorem Derives.frame {part : Part} (derived : Derives part text rest tree) :
    ∃ taken, Solid taken ∧ text = taken ++ rest ∧
      ∀ other, (AfterFlag rest → AfterFlag other) → Derives part (taken ++ other) other tree := by
  induction derived with
  | @text value rest content filled =>
      refine ⟨'\'' :: (value ++ ['\'']), ⟨'\'' :: value, '\'', by simp, by decide⟩, by simp, ?_⟩
      intro other _
      simpa using @Derives.text value other content filled
  | @pattern source rest content filled =>
      refine ⟨'/' :: (source ++ ['/']), ⟨'/' :: source, '/', by simp, by decide⟩, by simp, ?_⟩
      intro other _
      simpa using @Derives.pattern source other content filled
  | @flagged source rest content filled after =>
      refine ⟨'/' :: (source ++ ['/', 'i']), ⟨'/' :: (source ++ ['/']), 'i', by simp, by decide⟩,
        by simp, ?_⟩
      intro other kept
      simpa using Derives.flagged content filled (kept after)
  | @reference name rest named =>
      exact ⟨name, isName_solid named, rfl, fun other _ => Derives.reference named⟩
  | @group before after inner rest tree blankBefore within blankAfter ih =>
      rcases ih with ⟨taken, _, rfl, moved⟩
      refine ⟨'(' :: (before ++ taken ++ after ++ [')']),
        ⟨'(' :: (before ++ taken ++ after), ')', by simp, by decide⟩, by simp, ?_⟩
      intro other _
      -- the parenthesis stays where it is, so nothing changes for the part inside
      have inside := moved (after ++ ')' :: other) fun kept => by
        have filled : after ++ [')'] ≠ [] := by simp
        simpa using afterFlag_append filled rest other (by simpa using kept)
      simpa using Derives.group blankBefore inside blankAfter
  | atom member _ ih =>
      rcases ih with ⟨taken, solid, same, moved⟩
      exact ⟨taken, solid, same, fun other kept => Derives.atom member (moved other kept)⟩
  | @operation level _ mark _ rest _ _ first marks second ihLeft ihRight =>
      rcases ihLeft with ⟨takenLeft, _, rfl, movedLeft⟩
      rcases ihRight with ⟨takenRight, solid, rfl, movedRight⟩
      refine ⟨takenLeft ++ mark ++ takenRight, solid.append _, by simp, ?_⟩
      intro other kept
      -- the operator separates the left operand from what is exchanged
      have front := movedLeft (mark ++ (takenRight ++ other))
        (afterFlag_append marks.ne_nil (takenRight ++ rest) (takenRight ++ other))
      simpa using Derives.operation front marks (movedRight other kept)
  | joined _ ih =>
      rcases ih with ⟨taken, solid, same, moved⟩
      exact ⟨taken, solid, same, fun other kept => Derives.joined (moved other kept)⟩
  | operand _ ih =>
      rcases ih with ⟨taken, solid, same, moved⟩
      exact ⟨taken, solid, same, fun other kept => Derives.operand (moved other kept)⟩

theorem Derives.shorter {part : Part} (derived : Derives part text rest tree) :
    rest.length < text.length := by
  rcases derived.frame with ⟨taken, solid, rfl, _⟩
  have := List.length_pos_iff.mpr solid.ne_nil
  simp only [List.length_append]
  omega

end Rulebook.Grammar
