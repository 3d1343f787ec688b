/-!
Contract: texts as bytes.

This module owns UTF-8. `encode` writes characters as bytes. `units` reads any
bytes from left to right: each unit is a character, or a maximal malformed
piece (a lead byte with the continuation bytes that could still follow it, or
one byte that can start nothing). A text is strict when no unit is malformed;
the lenient reading puts the replacement character for each malformed unit.
-/

namespace Precis.Text.Utf8

/-- One continuation byte with six bits of payload. -/
def continuation (payload : Nat) : UInt8 :=
  UInt8.ofNat (0x80 + payload % 0x40)

def encodeChar (character : Char) : List UInt8 :=
  let code := character.toNat
  if code < 0x80 then [UInt8.ofNat code]
  else if code < 0x800 then
    [UInt8.ofNat (0xc0 + code / 0x40), continuation code]
  else if code < 0x10000 then
    [UInt8.ofNat (0xe0 + code / 0x1000), continuation (code / 0x40), continuation code]
  else
    [UInt8.ofNat (0xf0 + code / 0x40000), continuation (code / 0x1000),
      continuation (code / 0x40), continuation code]

def encode (characters : List Char) : List UInt8 :=
  characters.flatMap encodeChar

/-- What a lead byte announces: the high bits of the code point, the number of
continuation bytes, and the range that the first of them must lie in. The range
rules out over-long forms, surrogates and code points past the last one. -/
structure Lead where
  payload : Nat
  continuations : Nat
  low : Nat
  high : Nat

def lead? (byte : UInt8) : Option Lead :=
  let value := byte.toNat
  if value < 0x80 then some ⟨value, 0, 0x80, 0xbf⟩
  else if value < 0xc2 then none
  else if value < 0xe0 then some ⟨value - 0xc0, 1, 0x80, 0xbf⟩
  else if value = 0xe0 then some ⟨0, 2, 0xa0, 0xbf⟩
  else if value = 0xed then some ⟨0xd, 2, 0x80, 0x9f⟩
  else if value < 0xf0 then some ⟨value - 0xe0, 2, 0x80, 0xbf⟩
  else if value = 0xf0 then some ⟨0, 3, 0x90, 0xbf⟩
  else if value < 0xf4 then some ⟨value - 0xf0, 3, 0x80, 0xbf⟩
  else if value = 0xf4 then some ⟨4, 3, 0x80, 0x8f⟩
  else none

/-- Reads the continuation bytes that a lead byte announced, as far as they
are there. -/
def readContinuations :
    (payload count low high : Nat) → List UInt8 → Option Nat × List UInt8
  | payload, 0, _, _, bytes => (some payload, bytes)
  | _, _ + 1, _, _, [] => (none, [])
  | payload, count + 1, low, high, byte :: rest =>
      if low ≤ byte.toNat ∧ byte.toNat ≤ high then
        readContinuations (payload * 0x40 + (byte.toNat - 0x80)) count 0x80 0xbf rest
      else (none, byte :: rest)

theorem length_readContinuations_le
    (payload count low high : Nat)
    (bytes : List UInt8) :
    (readContinuations payload count low high bytes).2.length ≤ bytes.length := by
  induction count generalizing payload low high bytes with
  | zero => simp [readContinuations]
  | succ count inductionHypothesis =>
      cases bytes with
      | nil => simp [readContinuations]
      | cons byte rest =>
          simp only [readContinuations]
          split
          · exact Nat.le_succ_of_le (inductionHypothesis _ _ _ rest)
          · simp

/-- The units of a row of bytes: characters, and `none` for malformed pieces. -/
def units : List UInt8 → List (Option Char)
  | [] => []
  | byte :: rest =>
      match lead? byte with
      | none => none :: units rest
      | some lead =>
          let read := readContinuations lead.payload lead.continuations lead.low lead.high rest
          read.1.map Char.ofNat :: units read.2
termination_by bytes => bytes.length
decreasing_by
  · simp
  · exact Nat.lt_succ_of_le (length_readContinuations_le _ _ _ _ rest)

def decode? (bytes : List UInt8) : Option (List Char) :=
  (units bytes).mapM id

def replacement : Char := '\uFFFD'

/-- The characters of any bytes, malformed units replaced. -/
def decodeLenient (bytes : List UInt8) : List Char :=
  (units bytes).map fun unit => unit.getD replacement

end Precis.Text.Utf8
