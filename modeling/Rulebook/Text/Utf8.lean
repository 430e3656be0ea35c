import Rulebook.Text.Numeral
import Rulebook.Text.Quoted

/-!
UTF-8. Decoding is strict: it takes exactly the shortest encodings of the characters there are, and
otherwise reports the first place where the bytes leave the code.
-/

namespace Rulebook.Utf8

/-! ## Encoding -/

def continuation (code shift : Nat) : UInt8 := UInt8.ofNat (0x80 + code / Nat.pow 2 shift % 64)

def encodeChar (char : Char) : List UInt8 :=
  let code := char.toNat
  if code < 0x80 then [UInt8.ofNat code]
  else if code < 0x800 then [UInt8.ofNat (0xC0 + code / 64), continuation code 0]
  else if code < 0x10000 then
    [UInt8.ofNat (0xE0 + code / 4096), continuation code 6, continuation code 0]
  else
    [UInt8.ofNat (0xF0 + code / 262144), continuation code 12, continuation code 6,
      continuation code 0]

def encode (text : List Char) : List UInt8 := text.flatMap encodeChar

/-! ## Decoding -/

inductive Reason where
  | invalidStart
  | invalidContinuation
  | unexpectedEnd
  deriving DecidableEq, Repr

structure Fault where
  start : Nat
  bytes : List UInt8
  reason : Reason
  deriving DecidableEq, Repr

def Reason.message : Reason → List Char
  | .invalidStart => "invalid start byte".toList
  | .invalidContinuation => "invalid continuation byte".toList
  | .unexpectedEnd => "unexpected end of data".toList

def Fault.message (fault : Fault) : List Char :=
  let place :=
    match fault.bytes with
    | [byte] =>
        "byte 0x".toList ++ Quoted.hex 2 byte.toNat ++ " in position ".toList ++
          Numeral.nat fault.start
    | bytes =>
        "bytes in position ".toList ++ Numeral.nat fault.start ++ '-' ::
          Numeral.nat (fault.start + bytes.length - 1)
  "'utf-8' codec can't decode ".toList ++ place ++ ": ".toList ++ fault.reason.message

def following? (first : Nat) : Option Nat :=
  if first < 0x80 then some 0
  else if first < 0xC2 then none
  else if first < 0xE0 then some 1
  else if first < 0xF0 then some 2
  else if first < 0xF5 then some 3
  else none

def isContinuation (byte : Nat) : Bool := 0x80 ≤ byte && byte ≤ 0xBF

/-- After some first bytes the second one has a narrower range: no character has two encodings,
and none lies among the surrogates or above U+10FFFF. -/
def isSecond (first second : Nat) : Bool :=
  if first = 0xE0 then 0xA0 ≤ second && second ≤ 0xBF
  else if first = 0xED then 0x80 ≤ second && second ≤ 0x9F
  else if first = 0xF0 then 0x90 ≤ second && second ≤ 0xBF
  else if first = 0xF4 then 0x80 ≤ second && second ≤ 0x8F
  else isContinuation second

def char1 (a : Nat) : Char := Char.ofNat a

def char2 (a b : Nat) : Char := Char.ofNat ((a - 0xC0) * 64 + (b - 0x80))

def char3 (a b c : Nat) : Char :=
  Char.ofNat ((a - 0xE0) * 4096 + (b - 0x80) * 64 + (c - 0x80))

def char4 (a b c d : Nat) : Char :=
  Char.ofNat ((a - 0xF0) * 262144 + (b - 0x80) * 4096 + (c - 0x80) * 64 + (d - 0x80))

/-- Decodes from a place that is `start` bytes into the data. -/
def decodeFrom (start : Nat) : List UInt8 → Except Fault (List Char)
  | [] => .ok []
  | a :: rest =>
      match following? a.toNat with
      | none => .error ⟨start, [a], .invalidStart⟩
      | some 0 => (decodeFrom (start + 1) rest).map (char1 a.toNat :: ·)
      | some more =>
          match rest with
          | [] => .error ⟨start, [a], .unexpectedEnd⟩
          | b :: rest =>
              if !isSecond a.toNat b.toNat then .error ⟨start, [a], .invalidContinuation⟩
              else if more = 1 then
                (decodeFrom (start + 2) rest).map (char2 a.toNat b.toNat :: ·)
              else
                match rest with
                | [] => .error ⟨start, [a, b], .unexpectedEnd⟩
                | c :: rest =>
                    if !isContinuation c.toNat then .error ⟨start, [a, b], .invalidContinuation⟩
                    else if more = 2 then
                      (decodeFrom (start + 3) rest).map (char3 a.toNat b.toNat c.toNat :: ·)
                    else
                      match rest with
                      | [] => .error ⟨start, [a, b, c], .unexpectedEnd⟩
                      | d :: rest =>
                          if !isContinuation d.toNat then
                            .error ⟨start, [a, b, c], .invalidContinuation⟩
                          else
                            (decodeFrom (start + 4) rest).map
                              (char4 a.toNat b.toNat c.toNat d.toNat :: ·)

def decode (bytes : List UInt8) : Except Fault (List Char) := decodeFrom 0 bytes

end Rulebook.Utf8
