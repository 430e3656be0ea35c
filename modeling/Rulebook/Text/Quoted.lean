import Rulebook.Unicode.Unprintable

/-!
Quoted text: how a string is shown inside a message or a printed expression. The quote is the
apostrophe unless the text holds apostrophes and no double quote; the quote and the backslash are
escaped by a backslash, and a character without a printed shape by its number.
-/

namespace Rulebook.Quoted

def hexDigit (digit : Nat) : Char :=
  if digit < 10 then Char.ofNat ('0'.toNat + digit) else Char.ofNat ('a'.toNat + (digit - 10))

def hex : Nat → Nat → List Char
  | 0, _ => []
  | width + 1, number => hex width (number / 16) ++ [hexDigit (number % 16)]

/-- A number takes two digits up to 0xFF, four up to 0xFFFF and eight above. -/
def escapeCode (code : Nat) : List Char :=
  if code ≤ 0xFF then '\\' :: 'x' :: hex 2 code
  else if code ≤ 0xFFFF then '\\' :: 'u' :: hex 4 code
  else '\\' :: 'U' :: hex 8 code

def quoteOf (text : List Char) : Char :=
  if '\'' ∈ text ∧ '"' ∉ text then '"' else '\''

def encodeChar (quote char : Char) : List Char :=
  if char = quote ∨ char = '\\' then ['\\', char]
  else if char = '\t' then ['\\', 't']
  else if char = '\n' then ['\\', 'n']
  else if char = '\r' then ['\\', 'r']
  else if Unicode.isUnprintable char.toNat then escapeCode char.toNat
  else [char]

def encode (text : List Char) : List Char :=
  let quote := quoteOf text
  quote :: text.flatMap (encodeChar quote) ++ [quote]

end Rulebook.Quoted
