import Rulebook.Regex.Basic

/-!
The written form of regular expressions, read in three steps: letters, which are characters with
their escapes undone as far as that needs no context; tokens, which are whole atoms, quantifiers
and brackets; and the tree.
-/

namespace Rulebook.Regex

/-! ## Letters -/

inductive Letter where
  | plain (char : Char)
  | escaped (char : Char)
  /-- Written by its number. -/
  | code (code : Nat)
  deriving DecidableEq, Repr

def hexDigit? (char : Char) : Option Nat :=
  if '0' ≤ char ∧ char ≤ '9' then some (char.toNat - '0'.toNat)
  else if 'a' ≤ char ∧ char ≤ 'f' then some (char.toNat - 'a'.toNat + 10)
  else if 'A' ≤ char ∧ char ≤ 'F' then some (char.toNat - 'A'.toNat + 10)
  else none

def hexNumber? : List Char → Nat → Option Nat
  | [], number => some number
  | char :: rest, number =>
      match hexDigit? char with
      | none => none
      | some digit => hexNumber? rest (16 * number + digit)

def letters : List Char → Option (List Letter)
  | [] => some []
  | '\\' :: 'x' :: a :: b :: rest =>
      match hexNumber? [a, b] 0, letters rest with
      | some code, some later => some (.code code :: later)
      | _, _ => none
  | '\\' :: 'u' :: a :: b :: c :: d :: rest =>
      match hexNumber? [a, b, c, d] 0, letters rest with
      | some code, some later => some (.code code :: later)
      | _, _ => none
  | '\\' :: char :: rest =>
      if char = 'x' ∨ char = 'u' then none
      else (letters rest).map (.escaped char :: ·)
  | char :: rest => if char = '\\' then none else (letters rest).map (.plain char :: ·)

def controlLetter? : Char → Option Char
  | 'n' => some '\n'
  | 't' => some '\t'
  | 'r' => some '\r'
  | 'f' => some '\x0c'
  | 'v' => some '\x0b'
  | _ => none

def classLetter? : Char → Option SetItem
  | 'd' => some (.digit true)
  | 'D' => some (.digit false)
  | 'w' => some (.word true)
  | 'W' => some (.word false)
  | 's' => some (.space true)
  | 'S' => some (.space false)
  | _ => none

/-- A backslash before an ASCII letter or digit is never plain quoting. -/
def isReserved (char : Char) : Bool := char.isAlphanum

/-! ## Character sets -/

def toClose : List Letter → Option (List Letter × List Letter)
  | [] => none
  | .plain ']' :: rest => some ([], rest)
  | letter :: rest =>
      match toClose rest with
      | none => none
      | some (inside, after) => some (letter :: inside, after)

theorem toClose_shorter {all inside after : List Letter}
    (found : toClose all = some (inside, after)) : after.length < all.length := by
  induction all generalizing inside after with
  | nil => simp [toClose] at found
  | cons letter rest ih =>
      unfold toClose at found
      split at found
      · contradiction
      · rename_i _ same
        simp only [List.cons.injEq] at same
        simp only [Option.some.injEq, Prod.mk.injEq] at found
        obtain ⟨_, rfl⟩ := same
        obtain ⟨_, rfl⟩ := found
        simp
      · rename_i _ same
        simp only [List.cons.injEq] at same
        obtain ⟨rfl, rfl⟩ := same
        split at found
        · contradiction
        · rename_i later
          simp only [Option.some.injEq, Prod.mk.injEq] at found
          obtain ⟨_, rfl⟩ := found
          have := ih later
          simp only [List.length_cons]
          omega

/-- A bracket that closes the set cannot be its first letter. -/
def setLetters? : List Letter → Option (List Letter × List Letter)
  | [] => none
  | first :: rest =>
      match toClose rest with
      | none => none
      | some (inside, after) => some (first :: inside, after)

theorem setLetters?_shorter {all inside after : List Letter}
    (found : setLetters? all = some (inside, after)) : after.length < all.length := by
  cases all with
  | nil => simp [setLetters?] at found
  | cons first rest =>
      simp only [setLetters?] at found
      split at found
      · contradiction
      · rename_i later
        simp only [Option.some.injEq, Prod.mk.injEq] at found
        obtain ⟨_, rfl⟩ := found
        have := toClose_shorter later
        simp only [List.length_cons]
        omega

def setMeaning? : Letter → Option (Nat ⊕ SetItem)
  | .plain char => some (.inl char.toNat)
  | .code code => some (.inl code)
  | .escaped char =>
      match classLetter? char with
      | some item => some (.inr item)
      | none =>
          match controlLetter? char with
          | some control => some (.inl control.toNat)
          | none =>
              if char = 'b' then some (.inl 8)
              else if isReserved char then none
              else some (.inl char.toNat)

def itemOf : Nat ⊕ SetItem → SetItem
  | .inl code => .code code
  | .inr item => item

/-- A hyphen makes a range only between two code points; anywhere else it is itself. -/
def setItems? : List Letter → Option (List SetItem)
  | [] => some []
  | first :: .plain '-' :: last :: rest =>
      match setMeaning? first, setMeaning? last with
      | some (.inl low), some (.inl high) =>
          if low ≤ high then (setItems? rest).map (.range low high :: ·) else none
      | some (.inl code), some (.inr item) =>
          (setItems? rest).map ([.code code, .code '-'.toNat, item] ++ ·)
      | some (.inr item), some _ => (setItems? (.plain '-' :: last :: rest)).map (item :: ·)
      | _, _ => none
  | first :: rest =>
      match setMeaning? first with
      | none => none
      | some meaning => (setItems? rest).map (itemOf meaning :: ·)

def set? (letters : List Letter) : Option (CharSet × List Letter) :=
  match letters with
  | .plain '^' :: rest =>
      match setLetters? rest with
      | none => none
      | some (inside, after) => (setItems? inside).map fun items => (⟨items, true⟩, after)
  | _ =>
      match setLetters? letters with
      | none => none
      | some (inside, after) => (setItems? inside).map fun items => (⟨items, false⟩, after)

/-! ## Quantifiers in braces -/

def digits : List Letter → List Nat × List Letter
  | .plain char :: rest =>
      if char.isDigit then
        let later := digits rest
        ((char.toNat - '0'.toNat) :: later.1, later.2)
      else ([], .plain char :: rest)
  | rest => ([], rest)

def decimal (digits : List Nat) : Nat := digits.foldl (10 * · + ·) 0

def bounds? (letters : List Letter) : Option (Nat × Option Nat × List Letter) :=
  let least := digits letters
  match least.2 with
  | .plain ',' :: rest =>
      let most := digits rest
      match most.2 with
      | .plain '}' :: after =>
          some (decimal least.1, if most.1.isEmpty then none else some (decimal most.1), after)
      | _ => none
  | .plain '}' :: after =>
      if least.1.isEmpty then none
      else some (decimal least.1, some (decimal least.1), after)
  | _ => none

theorem digits_length (all : List Letter) : (digits all).2.length ≤ all.length := by
  induction all with
  | nil => simp [digits]
  | cons letter rest ih =>
      cases letter with
      | plain char =>
          unfold digits
          split
          · simp only [List.length_cons]
            omega
          · simp
      | escaped char => simp [digits]
      | code code => simp [digits]

theorem bounds?_shorter {all after : List Letter} {least : Nat} {most : Option Nat}
    (found : bounds? all = some (least, most, after)) : after.length < all.length := by
  unfold bounds? at found
  dsimp only at found
  have first := digits_length all
  split at found
  · rename_i rest same
    have second := digits_length rest
    split at found
    · rename_i last ending
      simp only [Option.some.injEq, Prod.mk.injEq] at found
      obtain ⟨_, _, rfl⟩ := found
      rw [same] at first
      rw [ending] at second
      simp only [List.length_cons] at first second
      omega
    · contradiction
  · rename_i last same
    split at found
    · contradiction
    · simp only [Option.some.injEq, Prod.mk.injEq] at found
      obtain ⟨_, _, rfl⟩ := found
      rw [same] at first
      simp only [List.length_cons] at first
      omega
  · contradiction

/-! ## Tokens -/

inductive Bracket where
  | plain
  | ahead (wanted : Bool)
  deriving DecidableEq, Repr

inductive Token where
  | atom (regex : Regex)
  | loop (least : Nat) (most : Option Nat) (eager : Bool)
  | opening (bracket : Bracket)
  | closing
  | bar
  deriving DecidableEq, Repr

def literal (code : Nat) : Token := .atom (.one (.only code))

def escape? (char : Char) : Option Token :=
  match classLetter? char with
  | some item => some (.atom (.one ⟨[item], false⟩))
  | none =>
      match controlLetter? char with
      | some control => some (literal control.toNat)
      | none =>
          if char = 'b' then some (.atom .atWordEdge)
          else if char = 'Z' then some (.atom .atEnd)
          else if isReserved char then none
          else some (literal char.toNat)

/-- A question mark after a quantifier makes it reluctant. -/
def reluctant : List Letter → Bool × List Letter
  | .plain '?' :: rest => (false, rest)
  | rest => (true, rest)

theorem reluctant_length (all : List Letter) : (reluctant all).2.length ≤ all.length := by
  unfold reluctant
  split <;> simp

def plainToken (char : Char) : Token :=
  match char with
  | '.' => .atom .any
  | '^' => .atom .atStart
  | '$' => .atom .atLastLine
  | '|' => .bar
  | ')' => .closing
  | _ => literal char.toNat

def simpleBounds? : Char → Option (Nat × Option Nat)
  | '?' => some (0, some 1)
  | '*' => some (0, none)
  | '+' => some (1, none)
  | _ => none

def opening? : List Letter → Option (Bracket × List Letter)
  | .plain '?' :: .plain ':' :: rest => some (.plain, rest)
  | .plain '?' :: .plain '=' :: rest => some (.ahead true, rest)
  | .plain '?' :: .plain '!' :: rest => some (.ahead false, rest)
  | .plain '?' :: _ => none
  | rest => some (.plain, rest)

def brace? (rest : List Letter) : Option (Token × List Letter) :=
  match bounds? rest with
  | none => some (literal '{'.toNat, rest)
  | some (least, most, after) =>
      if most.all (least ≤ ·) then
        some (.loop least most (reluctant after).1, (reluctant after).2)
      else none

def plain? (char : Char) (rest : List Letter) : Option (Token × List Letter) :=
  if char = '(' then (opening? rest).map fun found => (.opening found.1, found.2)
  else if char = '[' then (set? rest).map fun found => (.atom (.one found.1), found.2)
  else if char = '{' then brace? rest
  else
    match simpleBounds? char with
    | some (least, most) => some (.loop least most (reluctant rest).1, (reluctant rest).2)
    | none => some (plainToken char, rest)

def token? : List Letter → Option (Token × List Letter)
  | [] => none
  | .code code :: rest => some (literal code, rest)
  | .escaped char :: rest => (escape? char).map fun token => (token, rest)
  | .plain char :: rest => plain? char rest

theorem set?_shorter {all after : List Letter} {set : CharSet}
    (found : set? all = some (set, after)) : after.length < all.length := by
  unfold set? at found
  split at found
  · rename_i rest
    split at found
    · contradiction
    · rename_i inside _ later
      cases items : setItems? inside with
      | none => simp [items] at found
      | some list =>
          simp only [items, Option.map_some, Option.some.injEq, Prod.mk.injEq] at found
          obtain ⟨_, rfl⟩ := found
          have := setLetters?_shorter later
          simp only [List.length_cons]
          omega
  · split at found
    · contradiction
    · rename_i inside _ later
      cases items : setItems? inside with
      | none => simp [items] at found
      | some list =>
          simp only [items, Option.map_some, Option.some.injEq, Prod.mk.injEq] at found
          obtain ⟨_, rfl⟩ := found
          exact setLetters?_shorter later

theorem opening?_length {all after : List Letter} {bracket : Bracket}
    (found : opening? all = some (bracket, after)) : after.length ≤ all.length := by
  unfold opening? at found
  split at found
  case h_4 => contradiction
  all_goals
    simp only [Option.some.injEq, Prod.mk.injEq] at found
    obtain ⟨_, rfl⟩ := found
  case h_5 => exact Nat.le_refl _
  all_goals
    simp only [List.length_cons]
    omega

theorem brace?_length {all after : List Letter} {token : Token}
    (found : brace? all = some (token, after)) : after.length ≤ all.length := by
  unfold brace? at found
  split at found
  · simp only [Option.some.injEq, Prod.mk.injEq] at found
    obtain ⟨_, rfl⟩ := found
    exact Nat.le_refl _
  · rename_i last bounds
    have shorter := bounds?_shorter bounds
    have bound := reluctant_length last
    split at found
    · simp only [Option.some.injEq, Prod.mk.injEq] at found
      obtain ⟨_, rfl⟩ := found
      omega
    · contradiction

theorem plain?_length {all after : List Letter} {char : Char} {token : Token}
    (found : plain? char all = some (token, after)) : after.length ≤ all.length := by
  unfold plain? at found
  split at found
  · obtain ⟨⟨bracket, rest⟩, opened, same⟩ := Option.map_eq_some_iff.mp found
    simp only [Prod.mk.injEq] at same
    obtain ⟨_, rfl⟩ := same
    exact opening?_length opened
  · split at found
    · obtain ⟨⟨set, rest⟩, read, same⟩ := Option.map_eq_some_iff.mp found
      simp only [Prod.mk.injEq] at same
      obtain ⟨_, rfl⟩ := same
      exact Nat.le_of_lt (set?_shorter read)
    · split at found
      · exact brace?_length found
      · have bound := reluctant_length all
        split at found
        all_goals
          simp only [Option.some.injEq, Prod.mk.injEq] at found
          obtain ⟨_, rfl⟩ := found
          omega

theorem token?_shorter {all after : List Letter} {token : Token}
    (found : token? all = some (token, after)) : after.length < all.length := by
  cases all with
  | nil => simp [token?] at found
  | cons letter rest =>
      cases letter with
      | code code =>
          simp only [token?, Option.some.injEq, Prod.mk.injEq] at found
          obtain ⟨_, rfl⟩ := found
          simp
      | escaped char =>
          obtain ⟨meaning, _, same⟩ := Option.map_eq_some_iff.mp found
          simp only [Prod.mk.injEq] at same
          obtain ⟨_, rfl⟩ := same
          simp
      | plain char =>
          have := plain?_length found
          simp only [List.length_cons]
          omega

def tokens? : List Letter → Option (List Token)
  | [] => some []
  | first :: rest =>
      match found : token? (first :: rest) with
      | none => none
      | some (token, after) =>
          have := token?_shorter found
          (tokens? after).map (token :: ·)
termination_by letters => letters.length
decreasing_by exact this

theorem tokens?_cons (first : Letter) (rest : List Letter) :
    tokens? (first :: rest) =
      match token? (first :: rest) with
      | none => none
      | some (token, after) => (tokens? after).map (token :: ·) := by
  rw [tokens?]
  split <;> simp_all

/-! ## The tree -/

/-- A bracket that is still open: the alternatives before the current one and the items of the
current one, both with the latest first. `ready` says whether the latest item may still take a
quantifier. -/
structure Open where
  bracket : Bracket
  alternatives : List Regex
  items : List Regex
  ready : Bool
  deriving DecidableEq, Repr

def Open.new (bracket : Bracket) : Open := ⟨bracket, [], [], false⟩

def Open.push (level : Open) (item : Regex) : Open :=
  { level with items := item :: level.items, ready := true }

def Open.split (level : Open) : Open :=
  { level with
    alternatives := catAll level.items.reverse :: level.alternatives, items := [], ready := false }

def Open.inside (level : Open) : Regex :=
  match level.split.alternatives.reverse with
  | [] => .empty
  | first :: others => altAll first others

def Open.close (level : Open) : Regex :=
  match level.bracket with
  | .plain => level.inside
  | .ahead wanted => .ahead level.inside wanted

/-- A quantifier takes the latest item, which may not carry one already. -/
def Open.loop? (level : Open) (least : Nat) (most : Option Nat) (eager : Bool) : Option Open :=
  if level.ready then
    match level.items with
    | [] => none
    | item :: earlier =>
        some { level with items := .loop item least most eager :: earlier, ready := false }
  else none

def assemble? : List Token → Open → List Open → Option Regex
  | [], level, [] => some level.inside
  | [], _, _ :: _ => none
  | .atom regex :: rest, level, outer => assemble? rest (level.push regex) outer
  | .loop least most eager :: rest, level, outer =>
      match level.loop? least most eager with
      | none => none
      | some level => assemble? rest level outer
  | .opening bracket :: rest, level, outer => assemble? rest (.new bracket) (level :: outer)
  | .closing :: _, _, [] => none
  | .closing :: rest, level, next :: outer => assemble? rest (next.push level.close) outer
  | .bar :: rest, level, outer => assemble? rest level.split outer

def read? (source : List Char) : Option Regex :=
  match letters source with
  | none => none
  | some letters =>
      match tokens? letters with
      | none => none
      | some tokens => assemble? tokens (.new .plain) []

end Rulebook.Regex
