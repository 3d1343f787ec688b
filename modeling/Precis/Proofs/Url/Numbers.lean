import Mathlib.Algebra.Group.Nat.Defs
import Mathlib.Data.List.Induction
import Mathlib.Data.List.TakeWhile
import Precis.Proofs.Text.Hexadecimal
import Precis.Proofs.Url.Pieces

/-!
Contract: numeric hosts that are written back.

Owns that a number is read back from its digits, that an address of four bytes
is read back from its four decimal numbers, and an address of eight groups from
its text, in which the longest run of zeros is left out.

Does not own in which other ways an address can be written.
-/

namespace Precis.Url

/-! ### Digits -/

theorem digitsValue?_concat_eq_some_iff
    {base value : Nat}
    {digits : List Char}
    {last : Char} :
    digitsValue? base (digits ++ [last]) = some value ↔
      ∃ high low, digitsValue? base digits = some high ∧ Text.Hexadecimal.value? last = some low ∧
        low < base ∧ value = high * base + low := by
  unfold digitsValue?
  simp only [List.foldlM_append, List.foldlM_cons, List.foldlM_nil, Option.bind_eq_bind,
    Option.bind_eq_some_iff, Option.pure_def, Option.some.injEq, exists_eq_right]
  refine exists_congr fun high => ?_
  cases Text.Hexadecimal.value? last with
  | none => simp
  | some low => simp [eq_comm]

theorem digitsValue?_toDigits
    {base : Nat}
    (twoLe : 2 ≤ base)
    (leSixteen : base ≤ 16)
    (number : Nat) :
    digitsValue? base (Nat.toDigits base number) = some number := by
  induction number using Nat.strongRecOn with
  | _ number inductionHypothesis =>
      by_cases small : number < base
      · rw [Nat.toDigits_of_lt_base small, ← List.nil_append [_], digitsValue?_concat_eq_some_iff]
        exact ⟨0, number, rfl, Text.Hexadecimal.value?_digit (by omega), small, by omega⟩
      · have rest : number % base < base := Nat.mod_lt _ (by omega)
        have fewer : number / base < number := Nat.div_lt_self (by omega) (by omega)
        rw [Nat.toDigits_of_base_le (by omega) (by omega), digitsValue?_concat_eq_some_iff]
        exact ⟨number / base, number % base, inductionHypothesis _ fewer,
          Text.Hexadecimal.value?_digit (by omega), rest, (Nat.div_add_mod' number base).symm⟩

theorem digitsValue?_lt
    {base value : Nat}
    {digits : List Char}
    (isValue : digitsValue? base digits = some value) :
    value < base ^ digits.length := by
  induction digits using List.reverseRecOn generalizing value with
  | nil =>
      obtain rfl : 0 = value := Option.some.inj isValue
      exact Nat.one_pos
  | append_singleton digits last inductionHypothesis =>
      obtain ⟨high, low, isHigh, -, small, rfl⟩ := digitsValue?_concat_eq_some_iff.mp isValue
      have bounded := inductionHypothesis isHigh
      calc high * base + low
        _ < (high + 1) * base := by rw [Nat.succ_mul]; omega
        _ ≤ base ^ digits.length * base := Nat.mul_le_mul_right base bounded
        _ = base ^ (digits ++ [last]).length := by
          rw [List.length_append, List.length_singleton, Nat.pow_succ]

theorem toList_toString (number : Nat) : (toString number).toList = Nat.toDigits 10 number := by
  rw [Nat.toString_eq_ofList_toDigits, String.toList_ofList]

/-- What a number is written with. -/
theorem exists_of_mem_toDigits
    {base number : Nat}
    (twoLe : 2 ≤ base)
    {character : Char}
    (member : character ∈ Nat.toDigits base number) :
    ∃ digit < base, character = Nat.digitChar digit := by
  induction number using Nat.strongRecOn with
  | _ number inductionHypothesis =>
      by_cases small : number < base
      · rw [Nat.toDigits_of_lt_base small, List.mem_singleton] at member
        exact ⟨number, small, member⟩
      · have fewer : number / base < number := Nat.div_lt_self (by omega) (by omega)
        rw [Nat.toDigits_of_base_le (by omega) (by omega), List.mem_append,
          List.mem_singleton] at member
        rcases member with earlier | rfl
        · exact inductionHypothesis _ fewer earlier
        · exact ⟨number % base, Nat.mod_lt _ (by omega), rfl⟩

/-! ### Addresses of four bytes -/

theorem ipv4OfNumbers?_lt
    {numbers : List Nat}
    {limit address : Nat}
    (isAddress : ipv4OfNumbers? numbers limit = some address) :
    address < limit := by
  induction numbers generalizing limit address with
  | nil => cases isAddress
  | cons number rest inductionHypothesis =>
      cases rest with
      | nil =>
          rw [ipv4OfNumbers?, Option.ite_none_right_eq_some] at isAddress
          obtain ⟨bounded, same⟩ := isAddress
          rwa [← Option.some.inj same]
      | cons second others =>
          simp only [ipv4OfNumbers?, Option.ite_none_right_eq_some,
            Option.map_eq_some_iff] at isAddress
          obtain ⟨small, low, isLow, rfl⟩ := isAddress
          have bounded := inductionHypothesis isLow
          calc number * (limit / 256) + low
            _ < (number + 1) * (limit / 256) := by rw [Nat.succ_mul]; omega
            _ ≤ 256 * (limit / 256) := Nat.mul_le_mul_right _ small
            _ ≤ limit := Nat.mul_div_le limit 256

theorem parseIpv4_lt
    {host : List Char}
    {address : Nat}
    (parsed : parseIpv4 host = .ok address) :
    address < 0x100000000 := by
  unfold parseIpv4 at parsed
  simp only at parsed
  split at parsed
  case isTrue => cases parsed
  case isFalse =>
    split at parsed
    case h_2 => cases parsed
    case h_1 found isFound =>
      obtain rfl := Except.ok.inj parsed
      obtain ⟨numbers, -, isAddress⟩ := Option.bind_eq_some_iff.mp isFound
      exact ipv4OfNumbers?_lt isAddress

/-- The bytes of an address. -/
def ipv4Bytes (address : Nat) : List Nat :=
  [address / 16777216 % 256, address / 65536 % 256, address / 256 % 256, address % 256]

theorem ipv4Bytes_lt {address byte : Nat} (member : byte ∈ ipv4Bytes address) : byte < 256 := by
  simp only [ipv4Bytes, List.mem_cons, List.not_mem_nil, or_false] at member
  omega

theorem toList_ipv4Text (address : Nat) :
    (ipv4Text address).toList = ['.'].intercalate ((ipv4Bytes address).map (Nat.toDigits 10)) := by
  have digits : String.toList ∘ (toString : Nat → String) = Nat.toDigits 10 :=
    funext toList_toString
  rw [ipv4Text, String.toList_intercalate, List.map_map, digits]
  rfl

theorem ipv4OfNumbers?_ipv4Bytes {address : Nat} (bounded : address < 0x100000000) :
    ipv4OfNumbers? (ipv4Bytes address) 0x100000000 = some address := by
  have bytes (number : Nat) : number % 256 < 256 := Nat.mod_lt _ (by decide)
  simp only [ipv4Bytes, ipv4OfNumbers?, Nat.reduceDiv, bytes, if_true, Option.map_some,
    Option.some.injEq]
  omega

/-- A decimal number is no separator of an address, and is not empty. -/
theorem isDigit_of_mem_toDigits {number : Nat} :
    ∀ character ∈ Nat.toDigits 10 number, character.isDigit = true :=
  fun _ member => Nat.isDigit_of_mem_toDigits (by decide) (by decide) member

theorem hostParts_ipv4Text (address : Nat) :
    hostParts (ipv4Text address).toList = (ipv4Bytes address).map (Nat.toDigits 10) := by
  have whole : ∀ piece ∈ (ipv4Bytes address).map (Nat.toDigits 10), ∀ character ∈ piece,
      (character == '.') = false := by
    intro piece member character inside
    obtain ⟨byte, -, rfl⟩ := List.mem_map.mp member
    have digit := isDigit_of_mem_toDigits character inside
    apply beq_eq_false_iff_ne.mpr
    rintro rfl
    cases digit
  have last : ((ipv4Bytes address).map (Nat.toDigits 10)).getLast? =
      some (Nat.toDigits 10 (address % 256)) := rfl
  have cut : splitAt (· == '.')
      (['.'].intercalate ((ipv4Bytes address).map (Nat.toDigits 10))) =
        (ipv4Bytes address).map (Nat.toDigits 10) :=
    splitAt_intercalate rfl (List.cons_ne_nil _ _) whole
  unfold hostParts
  simp only [toList_ipv4Text, cut, last, Option.some.injEq, Nat.toDigits_ne_nil, and_false,
    if_false]

theorem endsInNumber_ipv4Text (address : Nat) : endsInNumber (ipv4Text address).toList = true := by
  have last : ((ipv4Bytes address).map (Nat.toDigits 10)).getLast? =
      some (Nat.toDigits 10 (address % 256)) := rfl
  have digits : (Nat.toDigits 10 (address % 256)).all Char.isDigit = true :=
    List.all_eq_true.mpr isDigit_of_mem_toDigits
  unfold endsInNumber
  rw [hostParts_ipv4Text, last]
  split
  case h_1 empty => exact absurd (Option.some.inj empty) Nat.toDigits_ne_nil
  case h_2 found =>
    rw [← Option.some.inj found, digits, Bool.true_or]
  case h_3 missing => cases missing

/-- An address of four bytes is read back from its text. -/
theorem parseIpv4_ipv4Text {address : Nat} (bounded : address < 0x100000000) :
    parseIpv4 (ipv4Text address).toList = .ok address := by
  have bytes : ∀ byte < 256, ipv4Number? (Nat.toDigits 10 byte) = some byte := by decide +kernel
  have numbers : ((ipv4Bytes address).map (Nat.toDigits 10)).mapM ipv4Number? =
      some (ipv4Bytes address) :=
    mapM_map_eq_some fun byte member => bytes byte (ipv4Bytes_lt member)
  have four : ((ipv4Bytes address).map (Nat.toDigits 10)).length = 4 := rfl
  unfold parseIpv4
  simp only [hostParts_ipv4Text, four, numbers, Option.bind_some,
    ipv4OfNumbers?_ipv4Bytes bounded, Nat.lt_irrefl, if_false]

/-! ### Addresses of eight groups -/

/-- Numbers of sixteen bits. -/
def AreGroups (groups : List Nat) : Prop :=
  ∀ group ∈ groups, group < 0x10000

theorem areGroups_of_group?
    {digits : List Char}
    {groups : List Nat}
    (read : groups?.group? digits = some groups) :
    AreGroups groups := by
  unfold groups?.group? at read
  rw [Option.ite_none_left_eq_some] at read
  obtain ⟨fits, read⟩ := read
  obtain ⟨value, isValue, rfl⟩ := Option.map_eq_some_iff.mp read
  have bounded := digitsValue?_lt isValue
  have most : 16 ^ digits.length ≤ 16 ^ 4 := Nat.pow_le_pow_right (by decide) (by omega)
  intro group member
  rw [List.mem_singleton.mp member]
  omega

theorem decimalByte?_lt
    {digits : List Char}
    {value : Nat}
    (read : decimalByte? digits = some value) :
    value < 256 := by
  unfold decimalByte? at read
  split at read
  case h_1 => cases read
  case h_2 =>
    obtain rfl := Option.some.inj read
    decide
  case h_3 => cases read
  case h_4 => exact of_decide_eq_true (Option.filter_eq_some_iff.mp read).2

theorem areGroups_of_trailingBytes?
    {text : List Char}
    {groups : List Nat}
    (read : trailingBytes? text = some groups) :
    AreGroups groups := by
  unfold trailingBytes? at read
  split at read
  case h_2 => cases read
  case h_1 first second third fourth areBytes =>
    obtain rfl := Option.some.inj read
    have bounded : ∀ byte ∈ [first, second, third, fourth], byte < 256 := by
      intro byte member
      obtain ⟨digits, -, isByte⟩ := exists_of_mem_mapM areBytes member
      exact decimalByte?_lt isByte
    simp only [List.forall_mem_cons, List.not_mem_nil] at bounded
    intro group member
    simp only [List.mem_cons, List.not_mem_nil, or_false] at member
    omega

theorem areGroups_of_groups?
    {mayEndInBytes : Bool}
    {pieces : List (List Char)}
    {groups : List Nat}
    (read : groups? mayEndInBytes pieces = some groups) :
    AreGroups groups := by
  induction pieces generalizing groups with
  | nil =>
      obtain rfl := Option.some.inj read
      exact List.forall_mem_nil _
  | cons first rest inductionHypothesis =>
      cases rest with
      | nil =>
          rw [groups?] at read
          split at read
          case isTrue =>
            split at read
            case isTrue => exact areGroups_of_trailingBytes? read
            case isFalse => cases read
          case isFalse => exact areGroups_of_group? read
      | cons second others =>
          rw [groups?] at read
          · split at read
            case h_2 => cases read
            case h_1 left right isLeft isRight =>
              obtain rfl := Option.some.inj read
              exact List.forall_mem_append.mpr
                ⟨areGroups_of_group? isLeft, inductionHypothesis isRight⟩
          · simp

theorem areGroups_of_sideGroups?
    {mayEndInBytes : Bool}
    {text : List Char}
    {groups : List Nat}
    (read : sideGroups? mayEndInBytes text = some groups) :
    AreGroups groups := by
  unfold sideGroups? at read
  split at read
  case isTrue =>
    obtain rfl := Option.some.inj read
    exact List.forall_mem_nil _
  case isFalse => exact areGroups_of_groups? read

/-- Eight numbers of sixteen bits. -/
structure IsIpv6 (groups : List Nat) : Prop where
  length_eq : groups.length = 8
  areGroups : AreGroups groups

theorem isIpv6_of_ipv6Groups?
    {text : List Char}
    {groups : List Nat}
    (read : ipv6Groups? text = some groups) :
    IsIpv6 groups := by
  unfold ipv6Groups? at read
  split at read
  case h_1 whole =>
    obtain ⟨areGroups, eight⟩ := Option.filter_eq_some_iff.mp read
    exact ⟨of_decide_eq_true eight, areGroups_of_sideGroups? areGroups⟩
  case h_2 left right =>
    split at read
    case h_2 => cases read
    case h_1 before after isBefore isAfter =>
      rw [Option.ite_none_right_eq_some] at read
      obtain ⟨fewer, same⟩ := read
      obtain rfl := Option.some.inj same
      constructor
      · simp only [List.length_append, List.length_replicate]
        omega
      · refine List.forall_mem_append.mpr ⟨List.forall_mem_append.mpr
          ⟨areGroups_of_sideGroups? isBefore, ?_⟩, areGroups_of_sideGroups? isAfter⟩
        intro group member
        rw [List.eq_of_mem_replicate member]
        decide

/-! ### Groups that are written back -/

theorem hexDigit_ne_mark :
    ∀ digit < 16, ∀ mark ∈ [':', '.', '[', ']'], Nat.digitChar digit ≠ mark := by
  have noMark : ∀ digit < 16, Nat.digitChar digit ∉ [':', '.', '[', ']'] := by decide
  rintro digit small mark isMark rfl
  exact noMark digit small isMark

theorem ne_mark_of_mem_toDigits
    {group : Nat}
    {character mark : Char}
    (member : character ∈ Nat.toDigits 16 group)
    (isMark : mark ∈ [':', '.', '[', ']']) :
    character ≠ mark := by
  obtain ⟨digit, small, rfl⟩ := exists_of_mem_toDigits (by decide) member
  exact hexDigit_ne_mark digit small mark isMark

theorem group?_toDigits {group : Nat} (small : group < 0x10000) :
    groups?.group? (Nat.toDigits 16 group) = some [group] := by
  have short : (Nat.toDigits 16 group).length ≤ 4 :=
    (Nat.length_toDigits_le_iff (by decide) (by decide)).mpr small
  have fits : ¬ ((Nat.toDigits 16 group).isEmpty = true ∨ 4 < (Nat.toDigits 16 group).length) := by
    rintro (empty | long)
    · exact Nat.toDigits_ne_nil (List.isEmpty_iff.mp empty)
    · omega
  rw [groups?.group?, if_neg fits, digitsValue?_toDigits (by decide) (by decide)]
  rfl

theorem groups?_toDigits
    (mayEndInBytes : Bool)
    {groups : List Nat}
    (areGroups : AreGroups groups) :
    groups? mayEndInBytes (groups.map (Nat.toDigits 16)) = some groups := by
  induction groups with
  | nil => rfl
  | cons group rest inductionHypothesis =>
      obtain ⟨small, areRest⟩ := List.forall_mem_cons.mp areGroups
      cases rest with
      | nil =>
          have noDot : (Nat.toDigits 16 group).contains '.' = false := by
            rw [Bool.eq_false_iff, ne_eq, List.contains_iff_mem]
            exact fun dot => ne_mark_of_mem_toDigits dot (by decide) rfl
          rw [List.map_singleton, groups?, noDot, if_neg Bool.false_ne_true, group?_toDigits small]
      | cons second others =>
          have areOthers := inductionHypothesis areRest
          rw [List.map_cons] at areOthers ⊢
          rw [List.map_cons, groups?, group?_toDigits small, areOthers]
          · rfl
          · simp

theorem groupsText_eq (groups : List Nat) :
    groupsText groups = [':'].intercalate (groups.map (Nat.toDigits 16)) :=
  rfl

theorem mem_groupsText
    {groups : List Nat}
    {character : Char}
    (member : character ∈ groupsText groups) :
    character = ':' ∨ ∃ digit < 16, character = Nat.digitChar digit := by
  rcases mem_intercalate member with colon | ⟨piece, known, inside⟩
  · exact .inl colon
  · obtain ⟨group, -, rfl⟩ := List.mem_map.mp known
    exact .inr (exists_of_mem_toDigits (by decide) inside)

theorem groupsText_singleton (group : Nat) : groupsText [group] = Nat.toDigits 16 group := by
  rw [groupsText_eq, List.map_singleton, List.intercalate_singleton]

theorem groupsText_cons_cons (group second : Nat) (others : List Nat) :
    groupsText (group :: second :: others) =
      Nat.toDigits 16 group ++ ':' :: groupsText (second :: others) := by
  rw [groupsText_eq, groupsText_eq, List.map_cons, List.map_cons, List.intercalate_cons_cons,
    List.append_assoc, List.singleton_append]

/-- Groups begin with a digit. -/
theorem exists_groupsText_cons (group : Nat) (others : List Nat) :
    ∃ first rest, groupsText (group :: others) = first :: rest ∧ first ≠ ':' := by
  obtain ⟨first, digits, isDigits⟩ :=
    List.exists_cons_of_ne_nil (Nat.toDigits_ne_nil (n := group) (b := 16))
  have isFirst : first ∈ Nat.toDigits 16 group := by
    rw [isDigits]
    exact List.mem_cons_self
  have noColon : first ≠ ':' := ne_mark_of_mem_toDigits isFirst (by decide)
  cases others with
  | nil =>
      rw [groupsText_singleton, isDigits]
      exact ⟨first, digits, rfl, noColon⟩
  | cons second others =>
      rw [groupsText_cons_cons, isDigits]
      exact ⟨first, _, rfl, noColon⟩

theorem sideGroups?_groupsText
    (mayEndInBytes : Bool)
    {groups : List Nat}
    (areGroups : AreGroups groups) :
    sideGroups? mayEndInBytes (groupsText groups) = some groups := by
  cases groups with
  | nil => rfl
  | cons group others =>
      obtain ⟨first, rest, isText, -⟩ := exists_groupsText_cons group others
      have whole : ∀ piece ∈ (group :: others).map (Nat.toDigits 16), ∀ character ∈ piece,
          (character == ':') = false := by
        intro piece known character inside
        obtain ⟨number, -, rfl⟩ := List.mem_map.mp known
        exact beq_eq_false_iff_ne.mpr (ne_mark_of_mem_toDigits inside (by decide))
      have cut : splitAt (· == ':') (groupsText (group :: others)) =
          (group :: others).map (Nat.toDigits 16) :=
        splitAt_intercalate rfl (List.cons_ne_nil _ _) whole
      have notEmpty : (groupsText (group :: others)).isEmpty = false := by rw [isText]; rfl
      rw [sideGroups?, notEmpty, if_neg Bool.false_ne_true, cut,
        groups?_toDigits mayEndInBytes areGroups]

/-! ### The run of zeros that is left out -/

theorem splitDoubleColon_cons
    {character : Char}
    {rest : List Char}
    (single : character ≠ ':' ∨ ∀ others, rest ≠ ':' :: others) :
    splitDoubleColon (character :: rest) =
      (character :: (splitDoubleColon rest).1, (splitDoubleColon rest).2) := by
  rw [splitDoubleColon]
  rintro others rfl rfl
  rcases single with noColon | noColon
  · exact noColon rfl
  · exact noColon others rfl

theorem splitDoubleColon_append
    {word : List Char}
    (plain : ∀ character ∈ word, character ≠ ':')
    (rest : List Char) :
    splitDoubleColon (word ++ rest) =
      (word ++ (splitDoubleColon rest).1, (splitDoubleColon rest).2) := by
  induction word with
  | nil => rfl
  | cons first others inductionHypothesis =>
      obtain ⟨noColon, plainOthers⟩ := List.forall_mem_cons.mp plain
      rw [List.cons_append, splitDoubleColon_cons (.inl noColon), inductionHypothesis plainOthers]
      rfl

/-- No pair of colons stands among groups. -/
theorem splitDoubleColon_groupsText (groups : List Nat) (rest : List Char) :
    splitDoubleColon (groupsText groups ++ rest) =
      (groupsText groups ++ (splitDoubleColon rest).1, (splitDoubleColon rest).2) := by
  have plain (group : Nat) : ∀ character ∈ Nat.toDigits 16 group, character ≠ ':' :=
    fun character member => ne_mark_of_mem_toDigits member (by decide)
  induction groups with
  | nil => rfl
  | cons group others inductionHypothesis =>
      cases others with
      | nil =>
          rw [groupsText_singleton]
          exact splitDoubleColon_append (plain group) rest
      | cons second others =>
          obtain ⟨first, more, isText, noColon⟩ := exists_groupsText_cons second others
          have single : ∀ others', groupsText (second :: others) ++ rest ≠ ':' :: others' := by
            rw [isText]
            intro others' same
            exact noColon (List.cons.inj same).1
          rw [groupsText_cons_cons, List.append_assoc, List.cons_append,
            splitDoubleColon_append (plain group), splitDoubleColon_cons (.inr single),
            inductionHypothesis]
          simp only [List.append_assoc, List.cons_append]

/-- What is found by comparing runs is one of them, or what it began with. -/
theorem foldl_longer_mem (runs : List (Nat × Nat)) (best : Nat × Nat) :
    runs.foldl (fun best run => if best.2 < run.2 then run else best) best ∈ best :: runs := by
  induction runs generalizing best with
  | nil => exact List.mem_cons_self
  | cons run rest inductionHypothesis =>
      rw [List.foldl_cons]
      split
      case isTrue => exact List.mem_cons_of_mem _ (inductionHypothesis run)
      case isFalse =>
        rcases List.mem_cons.mp (inductionHypothesis best) with same | later
        · rw [same]
          exact List.mem_cons_self
        · exact List.mem_cons_of_mem _ (List.mem_cons_of_mem _ later)

/-- A run of at least two zeros stands between what is before and after it. -/
theorem of_longestZeroRun
    {groups : List Nat}
    {start length : Nat}
    (isRun : longestZeroRun groups = some (start, length)) :
    1 < length ∧ start + length ≤ groups.length ∧
      groups.take start ++ List.replicate length 0 ++ groups.drop (start + length) = groups := by
  unfold longestZeroRun at isRun
  simp only [Option.ite_none_right_eq_some, Option.some.injEq] at isRun
  obtain ⟨several, isLongest⟩ := isRun
  have member := foldl_longer_mem ((List.range groups.length).map fun start =>
    (start, ((groups.drop start).takeWhile (· == 0)).length)) (0, 1)
  rw [isLongest] at several member
  rcases List.mem_cons.mp member with first | found
  · rw [first] at several
    exact absurd several (by decide)
  · obtain ⟨place, inside, same⟩ := List.mem_map.mp found
    obtain ⟨rfl, isLength⟩ := Prod.mk.inj same
    have zeros : (groups.drop place).takeWhile (· == 0) = List.replicate length 0 := by
      rw [← isLength]
      apply List.eq_replicate_of_mem
      intro group zero
      have isZero := List.mem_takeWhile_imp zero
      exact eq_of_beq isZero
    have short : length ≤ (groups.drop place).length := by
      rw [← isLength]
      exact (List.takeWhile_prefix _).length_le
    have run : List.replicate length 0 ++ groups.drop (place + length) = groups.drop place := by
      have whole := List.takeWhile_append_dropWhile (p := (· == 0)) (l := groups.drop place)
      have after : groups.drop (place + length) = (groups.drop place).dropWhile (· == 0) := by
        rw [← List.drop_drop]
        nth_rewrite 1 [← whole]
        exact List.drop_left' isLength
      rw [after, ← zeros, whole]
    refine ⟨several, ?_, ?_⟩
    · have known := List.mem_range.mp inside
      rw [List.length_drop] at short
      omega
    · rw [List.append_assoc, run, List.take_append_drop]

/-- The text of an address of eight groups between its brackets. -/
def ipv6Inner (groups : List Nat) : List Char :=
  match longestZeroRun groups with
  | none => groupsText groups
  | some (start, length) =>
      groupsText (groups.take start) ++ [':', ':'] ++ groupsText (groups.drop (start + length))

theorem toList_ipv6Text (groups : List Nat) :
    (ipv6Text groups).toList = '[' :: (ipv6Inner groups ++ [']']) :=
  String.toList_ofList

/-- An address of eight groups is read back from its text. -/
theorem ipv6Groups?_ipv6Inner {groups : List Nat} (isIpv6 : IsIpv6 groups) :
    ipv6Groups? (ipv6Inner groups) = some groups := by
  unfold ipv6Inner
  split
  case h_1 =>
    have cut := splitDoubleColon_groupsText groups []
    rw [List.append_nil] at cut
    have eight : decide (groups.length = 8) = true := decide_eq_true isIpv6.length_eq
    rw [ipv6Groups?, cut]
    simp only [splitDoubleColon, List.append_nil, sideGroups?_groupsText true isIpv6.areGroups]
    rw [Option.filter_some, eight, if_pos rfl]
  case h_2 start length isRun =>
    obtain ⟨several, fits, whole⟩ := of_longestZeroRun isRun
    have areBefore : AreGroups (groups.take start) :=
      fun group member => isIpv6.areGroups group (List.mem_of_mem_take member)
    have areAfter : AreGroups (groups.drop (start + length)) :=
      fun group member => isIpv6.areGroups group (List.mem_of_mem_drop member)
    have cut := splitDoubleColon_groupsText (groups.take start)
      (':' :: ':' :: groupsText (groups.drop (start + length)))
    have eight := isIpv6.length_eq
    -- As many zeros are put back as were left out, for the two sides make up the rest of eight.
    have missing : 8 - ((groups.take start).length + (groups.drop (start + length)).length) =
        length := by
      rw [List.length_take, List.length_drop]
      omega
    have fewer : (groups.take start).length + (groups.drop (start + length)).length < 8 := by
      rw [List.length_take, List.length_drop]
      omega
    rw [List.append_assoc, List.cons_append, List.singleton_append, ipv6Groups?, cut]
    simp only [splitDoubleColon, List.append_nil, sideGroups?_groupsText _ areBefore,
      sideGroups?_groupsText _ areAfter, missing, fewer, if_true, whole]

end Precis.Url
