import Mathlib.Tactic.SplitIfs
import Precis.Text.Utf8

/-!
Contract: characters and bytes say the same.

Owns that every row of characters is read back from its bytes, and that bytes
which read as characters are the bytes of those characters and of no others.

Does not own what is read from malformed bytes.
-/

namespace Precis.Text.Utf8

theorem toNat_range (character : Char) :
    character.toNat < 0xd800 ∨ 0xdfff < character.toNat ∧ character.toNat < 0x110000 :=
  character.valid

theorem toNat_ofNat_of_range {code : Nat}
    (range : code < 0xd800 ∨ 0xdfff < code ∧ code < 0x110000) :
    (Char.ofNat code).toNat = code := by
  rw [Char.ofNat, dif_pos range]
  rfl

theorem toNat_continuation (payload : Nat) :
    (continuation payload).toNat = 0x80 + payload % 0x40 := by
  show (0x80 + payload % 0x40) % 256 = _
  omega

/-- What a byte may announce: the forms of two, three and four bytes leave out what
a shorter form can say, the surrogates, and what no character has. -/
def Fits (payload continuations low high byte : Nat) : Prop :=
  (continuations = 0 ∧ byte = payload ∧ payload < 0x80 ∧ low = 0x80 ∧ high = 0xbf) ∨
    (continuations = 1 ∧ byte = 0xc0 + payload ∧ 2 ≤ payload ∧ payload < 0x20 ∧
      low = 0x80 ∧ high = 0xbf) ∨
    (continuations = 2 ∧ byte = 0xe0 + payload ∧ payload < 0x10 ∧
      low = (if payload = 0 then 0xa0 else 0x80) ∧
      high = (if payload = 0xd then 0x9f else 0xbf)) ∨
    (continuations = 3 ∧ byte = 0xf0 + payload ∧ payload < 5 ∧
      low = (if payload = 0 then 0x90 else 0x80) ∧
      high = (if payload = 4 then 0x8f else 0xbf))

theorem lead?_eq_some_iff {byte : UInt8} {payload continuations low high : Nat} :
    lead? byte = some ⟨payload, continuations, low, high⟩ ↔
      Fits payload continuations low high byte.toNat := by
  have small := byte.toNat_lt
  unfold lead? Fits
  generalize byte.toNat = value at small ⊢
  simp only
  repeat' split
  all_goals
    simp only [Option.some.injEq, Lead.mk.injEq, reduceCtorEq, false_iff]
    omega

theorem readContinuations_succ
    (payload count low high : Nat)
    (byte : UInt8)
    (rest : List UInt8)
    (inRange : low ≤ byte.toNat ∧ byte.toNat ≤ high) :
    readContinuations payload (count + 1) low high (byte :: rest) =
      readContinuations (payload * 0x40 + (byte.toNat - 0x80)) count 0x80 0xbf rest := by
  rw [readContinuations, if_pos inRange]

theorem of_readContinuations_succ
    {payload count low high code : Nat}
    {bytes after : List UInt8}
    (read : readContinuations payload (count + 1) low high bytes = (some code, after)) :
    ∃ byte rest, bytes = byte :: rest ∧ low ≤ byte.toNat ∧ byte.toNat ≤ high ∧
      readContinuations (payload * 0x40 + (byte.toNat - 0x80)) count 0x80 0xbf rest =
        (some code, after) := by
  cases bytes with
  | nil => cases read
  | cons byte rest =>
      by_cases inRange : low ≤ byte.toNat ∧ byte.toNat ≤ high
      · rw [readContinuations_succ _ _ _ _ _ _ inRange] at read
        exact ⟨byte, rest, rfl, inRange.1, inRange.2, read⟩
      · rw [readContinuations, if_neg inRange] at read
        cases read

theorem units_cons_of_lead
    {byte : UInt8}
    {lead : Lead}
    {rest after : List UInt8}
    {code : Nat}
    (announced : lead? byte = some lead)
    (read : readContinuations lead.payload lead.continuations lead.low lead.high rest =
      (some code, after)) :
    units (byte :: rest) = some (Char.ofNat code) :: units after := by
  rw [units, announced]
  simp only [read, Option.map_some]

/-! ### From characters to bytes and back -/

section Encoded

variable {code : Nat} (rest : List UInt8)
  (range : code < 0xd800 ∨ 0xdfff < code ∧ code < 0x110000)

theorem toNat_ofNat_of_lt {value : Nat} (small : value < 0x100) :
    (UInt8.ofNat value).toNat = value :=
  Nat.mod_eq_of_lt small

theorem units_one_byte (one : code < 0x80) :
    units (UInt8.ofNat code :: rest) = some (Char.ofNat code) :: units rest := by
  have announced : lead? (UInt8.ofNat code) = some ⟨code, 0, 0x80, 0xbf⟩ := by
    rw [lead?_eq_some_iff, toNat_ofNat_of_lt (by omega), Fits]
    exact .inl ⟨rfl, rfl, one, rfl, rfl⟩
  exact units_cons_of_lead announced rfl

theorem units_two_bytes (two : 0x80 ≤ code ∧ code < 0x800) :
    units (UInt8.ofNat (0xc0 + code / 0x40) :: continuation code :: rest) =
      some (Char.ofNat code) :: units rest := by
  have announced : lead? (UInt8.ofNat (0xc0 + code / 0x40)) =
      some ⟨code / 0x40, 1, 0x80, 0xbf⟩ := by
    rw [lead?_eq_some_iff, toNat_ofNat_of_lt (by omega), Fits]
    omega
  have read : readContinuations (code / 0x40) 1 0x80 0xbf (continuation code :: rest) =
      (some code, rest) := by
    rw [readContinuations_succ _ _ _ _ _ _ (by rw [toNat_continuation]; omega),
      readContinuations, toNat_continuation]
    exact Prod.ext (congrArg some (by omega)) rfl
  exact units_cons_of_lead announced read

include range

theorem units_three_bytes (three : 0x800 ≤ code ∧ code < 0x10000) :
    units (UInt8.ofNat (0xe0 + code / 0x1000) :: continuation (code / 0x40) ::
        continuation code :: rest) =
      some (Char.ofNat code) :: units rest := by
  obtain ⟨low, isLow⟩ : ∃ low, low = if code / 0x1000 = 0 then 0xa0 else 0x80 := ⟨_, rfl⟩
  obtain ⟨high, isHigh⟩ : ∃ high, high = if code / 0x1000 = 0xd then 0x9f else 0xbf := ⟨_, rfl⟩
  have announced : lead? (UInt8.ofNat (0xe0 + code / 0x1000)) =
      some ⟨code / 0x1000, 2, low, high⟩ := by
    rw [lead?_eq_some_iff, toNat_ofNat_of_lt (by omega), Fits]
    exact .inr (.inr (.inl ⟨rfl, rfl, by omega, isLow, isHigh⟩))
  have second : low ≤ (continuation (code / 0x40)).toNat ∧
      (continuation (code / 0x40)).toNat ≤ high := by
    rw [toNat_continuation]
    split_ifs at isLow isHigh <;> omega
  have read : readContinuations (code / 0x1000) 2 low high
      (continuation (code / 0x40) :: continuation code :: rest) = (some code, rest) := by
    rw [readContinuations_succ _ _ _ _ _ _ second,
      readContinuations_succ _ _ _ _ _ _ (by rw [toNat_continuation]; omega),
      readContinuations, toNat_continuation, toNat_continuation]
    exact Prod.ext (congrArg some (by omega)) rfl
  exact units_cons_of_lead announced read

theorem units_four_bytes (four : 0x10000 ≤ code) :
    units (UInt8.ofNat (0xf0 + code / 0x40000) :: continuation (code / 0x1000) ::
        continuation (code / 0x40) :: continuation code :: rest) =
      some (Char.ofNat code) :: units rest := by
  obtain ⟨low, isLow⟩ : ∃ low, low = if code / 0x40000 = 0 then 0x90 else 0x80 := ⟨_, rfl⟩
  obtain ⟨high, isHigh⟩ : ∃ high, high = if code / 0x40000 = 4 then 0x8f else 0xbf := ⟨_, rfl⟩
  have announced : lead? (UInt8.ofNat (0xf0 + code / 0x40000)) =
      some ⟨code / 0x40000, 3, low, high⟩ := by
    rw [lead?_eq_some_iff, toNat_ofNat_of_lt (by omega), Fits]
    exact .inr (.inr (.inr ⟨rfl, rfl, by omega, isLow, isHigh⟩))
  have second : low ≤ (continuation (code / 0x1000)).toNat ∧
      (continuation (code / 0x1000)).toNat ≤ high := by
    rw [toNat_continuation]
    split_ifs at isLow isHigh <;> omega
  have read : readContinuations (code / 0x40000) 3 low high
      (continuation (code / 0x1000) :: continuation (code / 0x40) :: continuation code :: rest) =
      (some code, rest) := by
    rw [readContinuations_succ _ _ _ _ _ _ second,
      readContinuations_succ _ _ _ _ _ _ (by rw [toNat_continuation]; omega),
      readContinuations_succ _ _ _ _ _ _ (by rw [toNat_continuation]; omega),
      readContinuations, toNat_continuation, toNat_continuation, toNat_continuation]
    exact Prod.ext (congrArg some (by omega)) rfl
  exact units_cons_of_lead announced read

end Encoded

theorem units_encodeChar_append (character : Char) (rest : List UInt8) :
    units (encodeChar character ++ rest) = some character :: units rest := by
  have range := toNat_range character
  rw [← Char.ofNat_toNat character]
  generalize character.toNat = code at range
  unfold encodeChar
  rw [toNat_ofNat_of_range range]
  simp only
  split
  case isTrue one => exact units_one_byte rest one
  case isFalse notOne =>
    split
    case isTrue two => exact units_two_bytes rest ⟨by omega, two⟩
    case isFalse notTwo =>
      split
      case isTrue three => exact units_three_bytes rest range ⟨by omega, three⟩
      case isFalse notThree => exact units_four_bytes rest range (by omega)

/-- Every row of characters is read back from its bytes. -/
theorem units_encode (characters : List Char) :
    units (encode characters) = characters.map some := by
  induction characters with
  | nil => rw [encode, List.flatMap_nil, units, List.map_nil]
  | cons character rest inductionHypothesis =>
      rw [encode, List.flatMap_cons, units_encodeChar_append, ← encode, inductionHypothesis,
        List.map_cons]

section Decoded

variable {byte : UInt8} {code : Nat} {rest after : List UInt8}

theorem ofNat_eq_of_toNat {value : Nat} (same : value = byte.toNat) : UInt8.ofNat value = byte := by
  rw [same]
  exact UInt8.ofNat_toNat

theorem continuation_eq
    {payload : Nat}
    (inRange : 0x80 ≤ byte.toNat)
    (same : payload % 0x40 = byte.toNat - 0x80) :
    continuation payload = byte :=
  ofNat_eq_of_toNat (by omega)

/-- What reads as one character are the bytes of that character. -/
theorem encodeChar_of_read
    {payload continuations low high : Nat}
    (fits : Fits payload continuations low high byte.toNat)
    (read : readContinuations payload continuations low high rest = (some code, after)) :
    byte :: rest = encodeChar (Char.ofNat code) ++ after := by
  rcases fits with ⟨rfl, isByte, bound, rfl, rfl⟩ | ⟨rfl, isByte, lower, upper, rfl, rfl⟩ |
    ⟨rfl, isByte, bound, isLow, isHigh⟩ | ⟨rfl, isByte, bound, isLow, isHigh⟩
  · obtain ⟨isCode, rfl⟩ := Prod.mk.inj read
    obtain rfl := Option.some.inj isCode
    have lead : UInt8.ofNat payload = byte := ofNat_eq_of_toNat isByte.symm
    rw [encodeChar, toNat_ofNat_of_range (by omega), if_pos (by omega), lead]
    rfl
  · obtain ⟨second, rest, rfl, secondLow, secondHigh, read⟩ := of_readContinuations_succ read
    obtain ⟨isCode, rfl⟩ := Prod.mk.inj read
    have isCode := Option.some.inj isCode
    have lead : UInt8.ofNat (0xc0 + code / 0x40) = byte := ofNat_eq_of_toNat (by omega)
    rw [encodeChar, toNat_ofNat_of_range (by omega), if_neg (by omega), if_pos (by omega), lead,
      continuation_eq secondLow (by omega)]
    rfl
  · have lowest : 0x80 ≤ low ∧ (payload = 0 → 0xa0 ≤ low) := by split_ifs at isLow <;> omega
    have highest : high ≤ 0xbf ∧ (payload = 0xd → high ≤ 0x9f) := by
      split_ifs at isHigh <;> omega
    obtain ⟨second, rest, rfl, secondLow, secondHigh, read⟩ := of_readContinuations_succ read
    obtain ⟨third, rest, rfl, thirdLow, thirdHigh, read⟩ := of_readContinuations_succ read
    obtain ⟨isCode, rfl⟩ := Prod.mk.inj read
    have isCode := Option.some.inj isCode
    have lead : UInt8.ofNat (0xe0 + code / 0x1000) = byte := ofNat_eq_of_toNat (by omega)
    have next : continuation (code / 0x40) = second := continuation_eq (by omega) (by omega)
    have last : continuation code = third := continuation_eq thirdLow (by omega)
    rw [encodeChar, toNat_ofNat_of_range (by omega), if_neg (by omega), if_neg (by omega),
      if_pos (by omega), lead, next, last]
    rfl
  · have lowest : 0x80 ≤ low ∧ (payload = 0 → 0x90 ≤ low) := by split_ifs at isLow <;> omega
    have highest : high ≤ 0xbf ∧ (payload = 4 → high ≤ 0x8f) := by
      split_ifs at isHigh <;> omega
    obtain ⟨second, rest, rfl, secondLow, secondHigh, read⟩ := of_readContinuations_succ read
    obtain ⟨third, rest, rfl, thirdLow, thirdHigh, read⟩ := of_readContinuations_succ read
    obtain ⟨fourth, rest, rfl, fourthLow, fourthHigh, read⟩ := of_readContinuations_succ read
    obtain ⟨isCode, rfl⟩ := Prod.mk.inj read
    have isCode := Option.some.inj isCode
    have lead : UInt8.ofNat (0xf0 + code / 0x40000) = byte := ofNat_eq_of_toNat (by omega)
    have next : continuation (code / 0x1000) = second := continuation_eq (by omega) (by omega)
    have middle : continuation (code / 0x40) = third := continuation_eq thirdLow (by omega)
    have last : continuation code = fourth := continuation_eq fourthLow (by omega)
    rw [encodeChar, toNat_ofNat_of_range (by omega), if_neg (by omega), if_neg (by omega),
      if_neg (by omega), lead, next, middle, last]
    rfl

end Decoded

theorem encode_of_units {bytes : List UInt8} {characters : List Char}
    (read : units bytes = characters.map some) : encode characters = bytes := by
  induction characters generalizing bytes with
  | nil =>
      cases bytes with
      | nil => rfl
      | cons byte rest =>
          rw [units] at read
          cases announced : lead? byte with
          | none => rw [announced] at read; cases read
          | some lead => rw [announced] at read; cases read
  | cons character others inductionHypothesis =>
      cases bytes with
      | nil => rw [units] at read; cases read
      | cons byte rest =>
          rw [units] at read
          cases announced : lead? byte with
          | none => rw [announced] at read; cases read
          | some lead =>
              rw [announced] at read
              simp only [List.map_cons, List.cons.injEq, Option.map_eq_some_iff] at read
              obtain ⟨⟨code, isCode, isCharacter⟩, others⟩ := read
              have continued := encodeChar_of_read (lead?_eq_some_iff.mp announced)
                (Prod.ext isCode rfl)
              rw [continued, isCharacter, encode, List.flatMap_cons, ← encode,
                inductionHypothesis others]

theorem mapM_id_eq_some_iff {units : List (Option Char)} {characters : List Char} :
    units.mapM id = some characters ↔ units = characters.map some := by
  induction units generalizing characters with
  | nil => cases characters <;> simp
  | cons unit rest inductionHypothesis =>
      cases unit with
      | none => cases characters <;> simp
      | some first =>
          cases characters with
          | nil => simp [Option.bind_eq_some_iff]
          | cons second others =>
              simpa [Option.bind_eq_some_iff, inductionHypothesis] using and_comm

/-- Bytes are read as the characters whose bytes they are, and no other bytes are text. -/
theorem decode?_eq_some_iff {bytes : List UInt8} {characters : List Char} :
    decode? bytes = some characters ↔ encode characters = bytes := by
  rw [decode?, mapM_id_eq_some_iff]
  constructor
  · exact encode_of_units
  · rintro rfl
    exact units_encode characters

end Precis.Text.Utf8
