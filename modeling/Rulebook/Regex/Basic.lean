import Rulebook.Unicode.Blank
import Rulebook.Unicode.CaseVariant
import Rulebook.Unicode.DecimalDigit
import Rulebook.Unicode.Word

/-!
Regular expressions as trees. Characters are code points here, because an escape may name a code
point that no character has.
-/

namespace Rulebook

inductive SetItem where
  | range (low high : Nat)
  | word (positive : Bool)
  | digit (positive : Bool)
  | space (positive : Bool)
  deriving DecidableEq, Repr

def SetItem.code (code : Nat) : SetItem := .range code code

def SetItem.holds : SetItem → Nat → Bool
  | .range low high, code => low ≤ code && code ≤ high
  | .word positive, code => Unicode.isWord code == positive
  | .digit positive, code => Unicode.isDecimalDigit code == positive
  | .space positive, code => Unicode.isWhiteSpace code == positive

structure CharSet where
  items : List SetItem
  complement : Bool
  deriving DecidableEq, Repr

def CharSet.only (code : Nat) : CharSet := ⟨[.code code], false⟩

/-- Where case is ignored, a character belongs to the items if one of its case variants does; the
complement is taken afterwards. -/
def CharSet.holds (set : CharSet) (ignoreCase : Bool) (char : Char) : Bool :=
  let codes := if ignoreCase then Unicode.caseVariants char.toNat else [char.toNat]
  (codes.any fun code => set.items.any (·.holds code)) != set.complement

inductive Regex where
  | empty
  | one (set : CharSet)
  /-- Any character but a line feed, or any at all when the line feed is included. -/
  | any
  | atStart
  | atEnd
  /-- At the end, or before a line feed that ends the text. -/
  | atLastLine
  | atWordEdge
  | cat (left right : Regex)
  | alt (left right : Regex)
  /-- From `least` to `most` bodies (no bound if `none`), as many as possible first if `eager`. -/
  | loop (body : Regex) (least : Nat) (most : Option Nat) (eager : Bool)
  /-- Takes nothing; holds if the body matches here, or if it does not when `wanted` is off. -/
  | ahead (body : Regex) (wanted : Bool)
  deriving DecidableEq, Repr

def Regex.catAll : List Regex → Regex
  | [] => .empty
  | first :: others => .cat first (catAll others)

def Regex.altAll : Regex → List Regex → Regex
  | first, [] => first
  | first, next :: others => .alt first (altAll next others)

end Rulebook
