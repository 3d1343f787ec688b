import Precis.Proofs.Result
import Precis.Proofs.Url.Domain
import Precis.Proofs.Url.Encoding
import Precis.Proofs.Url.Numbers

/-!
Contract: hosts that are written back.

Owns that a host which was read under a scheme with hosts of its own rules is
read back from its text, if the coding of domains is lawful, and that this text
is cut off as it stands from a port after it.

Does not own hosts under other schemes, and codings of domains.
-/

namespace Precis.Url

/-! ### Hosts -/

/-- A character that may stand in the text of a host: it ends no authority. -/
structure InHost (character : Char) : Prop where
  visible : IsVisible character
  noMark : character ∉ ['/', '\\', '?', '#', '@']

theorem inHost_iff {character : Char} :
    InHost character ↔ IsVisible character ∧ character ∉ ['/', '\\', '?', '#', '@'] :=
  ⟨fun inHost => ⟨inHost.visible, inHost.noMark⟩, fun ⟨visible, noMark⟩ => ⟨visible, noMark⟩⟩

instance : DecidablePred InHost :=
  fun _ => decidable_of_iff _ inHost_iff.symm

theorem InDomain.ne
    {character : Char}
    (inDomain : InDomain character)
    {mark : Char}
    (forbidden : isForbiddenInDomain mark = true) :
    character ≠ mark :=
  EncodeSet.ne inDomain.allowed forbidden

theorem InDomain.inHost {character : Char} (inDomain : InDomain character) :
    InHost character := by
  have toNat_ne (mark : Char) (forbidden : isForbiddenInDomain mark = true) :
      character.toNat ≠ mark.toNat :=
    fun same => inDomain.ne forbidden (Char.ext (UInt32.toNat.inj same))
  have noSpace : character.toNat ≠ 0x20 := toNat_ne ' ' (by decide)
  have noDelete : character.toNat ≠ 0x7f := toNat_ne '\x7f' (by decide)
  have noControl : ¬ character.toNat < 0x20 := by
    intro control
    have allowed := inDomain.allowed
    simp [isForbiddenInDomain, control] at allowed
  have ascii := inDomain.ascii
  constructor
  · unfold IsVisible
    omega
  · intro mark
    have forbidden : ∀ mark ∈ ['/', '\\', '?', '#', '@'], isForbiddenInDomain mark = true :=
      List.all_eq_true.mp (by decide)
    exact inDomain.ne (forbidden character mark) rfl

theorem inDomain_decimal : ∀ digit < 10, InDomain (Nat.digitChar digit) := by
  decide +kernel

theorem toLower_decimal : ∀ digit < 10, (Nat.digitChar digit).toLower = Nat.digitChar digit := by
  decide

theorem noDot_decimal : ∀ digit < 10, (Nat.digitChar digit == '.') = false := by
  decide

theorem inHost_hexadecimal : ∀ digit < 16, InHost (Nat.digitChar digit) := by
  decide

theorem mem_ipv6Inner
    {groups : List Nat}
    {character : Char}
    (member : character ∈ ipv6Inner groups) :
    character = ':' ∨ ∃ digit < 16, character = Nat.digitChar digit := by
  unfold ipv6Inner at member
  split at member
  case h_1 => exact mem_groupsText member
  case h_2 =>
    simp only [List.mem_append, List.mem_cons, List.not_mem_nil, or_false, or_self] at member
    rcases member with (before | colon) | after
    · exact mem_groupsText before
    · exact .inl colon
    · exact mem_groupsText after

section Parsing

variable [DomainCoding]

open DomainCoding (ascii?)

/-- A host that is read back from its text, and cut off from a port. -/
structure CanonicalHost (host : Host) : Prop where
  parse_eq : Host.parse host.text.toList = .ok host
  notEmpty : host.text.toList ≠ []
  inHost : ∀ character ∈ host.text.toList, InHost character
  splitHost_eq : ∀ port, IsPortText port →
    splitHost false (host.text.toList ++ port) = (host.text.toList, port)

/-- A domain in ASCII is read as the address or the domain that it is. -/
theorem parse_of_ascii?
    {text : List Char}
    (notEmpty : text ≠ [])
    (inDomain : ∀ character ∈ text, InDomain character)
    (fixed : ascii? text = some text) :
    Host.parse text =
      if endsInNumber text then (parseIpv4 text).map .ipv4
      else .ok (.domain (String.ofList text)) := by
  have decoded := decode?_decodeBytes_encode fun character inside =>
    ⟨(inDomain character inside).ascii, (inDomain character inside).ne (by decide)⟩
  unfold Host.parse
  split
  case h_1 rest =>
    exact absurd rfl ((inDomain '[' List.mem_cons_self).ne (by decide))
  case h_2 =>
    rw [decoded, Option.bind_some, fixed]
    split
    case h_1 missing => cases missing
    case h_2 empty => exact absurd (Option.some.inj empty) notEmpty
    case h_3 ascii _ found =>
      rw [Option.some.inj found]

theorem canonicalHost_of_inDomain
    {host : Host}
    (parse_eq : Host.parse host.text.toList = .ok host)
    (notEmpty : host.text.toList ≠ [])
    (inDomain : ∀ character ∈ host.text.toList, InDomain character) :
    CanonicalHost host where
  parse_eq := parse_eq
  notEmpty := notEmpty
  inHost character inside := (inDomain character inside).inHost
  splitHost_eq port isPort := by
    apply splitHost_plain _ isPort
    intro character inside
    have plain := inDomain character inside
    exact ⟨plain.ne (by decide), plain.ne (by decide), plain.ne (by decide)⟩

theorem canonicalHost_domain
    {ascii : List Char}
    (notEmpty : ascii ≠ [])
    (inDomain : ∀ character ∈ ascii, InDomain character)
    (fixed : ascii? ascii = some ascii)
    (noNumber : endsInNumber ascii = false) :
    CanonicalHost (.domain (String.ofList ascii)) := by
  have text_eq : (Host.domain (String.ofList ascii)).text.toList = ascii := String.toList_ofList
  apply canonicalHost_of_inDomain
  · rw [text_eq, parse_of_ascii? notEmpty inDomain fixed, noNumber, if_neg Bool.false_ne_true]
  · rwa [text_eq]
  · rwa [text_eq]

/-- The four numbers of an address are labels that no coding changes. -/
theorem ascii?_ipv4Text [LawfulDomainCoding] (address : Nat) :
    (∀ character ∈ (ipv4Text address).toList, InDomain character) ∧
      ascii? (ipv4Text address).toList = some (ipv4Text address).toList := by
  let labels := (ipv4Bytes address).map (Nat.toDigits 10)
  have digits : ∀ label ∈ labels, ∀ character ∈ label,
      ∃ digit < 10, character = Nat.digitChar digit := by
    intro label known character inside
    obtain ⟨byte, -, rfl⟩ := List.mem_map.mp known
    exact exists_of_mem_toDigits (by decide) inside
  have whole : ∀ label ∈ labels, ∀ character ∈ label, (character == '.') = false := by
    intro label known character inside
    obtain ⟨digit, small, rfl⟩ := digits label known character inside
    exact noDot_decimal digit small
  have cut : splitAt (· == '.') (['.'].intercalate labels) = labels :=
    splitAt_intercalate rfl (List.cons_ne_nil _ _) whole
  have inText : ∀ character ∈ ['.'].intercalate labels,
      character = '.' ∨ ∃ digit < 10, character = Nat.digitChar digit := by
    intro character member
    rcases mem_intercalate member with isDot | ⟨label, known, inside⟩
    · exact .inl isDot
    · exact .inr (digits label known character inside)
  have inDomain : ∀ character ∈ ['.'].intercalate labels, InDomain character := by
    intro character member
    rcases inText character member with rfl | ⟨digit, small, rfl⟩
    · decide
    · exact inDomain_decimal digit small
  have same : (['.'].intercalate labels).map Char.toLower = ['.'].intercalate labels := by
    refine (List.map_congr_left fun character member => ?_).trans (List.map_id _)
    rcases inText character member with rfl | ⟨digit, small, rfl⟩
    · rfl
    · exact toLower_decimal digit small
  have notCoded : ∀ label ∈ labels, isCoded label = false := by
    intro label known
    -- The mark of a code begins with a letter.
    have noLetter : ∀ digit < 10, ('x' == (Nat.digitChar digit).toLower) = false := by decide
    cases label with
    | nil => rfl
    | cons first rest =>
        obtain ⟨digit, small, rfl⟩ := digits _ known first List.mem_cons_self
        show ('x' == (Nat.digitChar digit).toLower && _) = false
        rw [noLetter digit small, Bool.false_and]
  rw [toList_ipv4Text]
  refine ⟨inDomain, ?_⟩
  rw [ascii?_eq_some_of_not_isCoded inDomain (cut.symm ▸ notCoded), same]

theorem canonicalHost_ipv4
    [LawfulDomainCoding]
    {address : Nat}
    (bounded : address < 0x100000000) :
    CanonicalHost (.ipv4 address) := by
  obtain ⟨inDomain, fixed⟩ := ascii?_ipv4Text address
  have number := endsInNumber_ipv4Text address
  have notEmpty : (ipv4Text address).toList ≠ [] := by
    intro empty
    rw [empty] at number
    cases number
  refine canonicalHost_of_inDomain ?_ notEmpty inDomain
  show Host.parse (ipv4Text address).toList = _
  rw [parse_of_ascii? notEmpty inDomain fixed, number, if_pos rfl, parseIpv4_ipv4Text bounded]
  rfl

theorem canonicalHost_ipv6 {groups : List Nat} (isIpv6 : IsIpv6 groups) :
    CanonicalHost (.ipv6 groups) := by
  have text_eq : (Host.ipv6 groups).text.toList = '[' :: (ipv6Inner groups ++ [']']) :=
    toList_ipv6Text groups
  have colon : InHost ':' := by decide
  have opening : InHost '[' := by decide
  have closing : InHost ']' := by decide
  constructor
  · rw [text_eq, Host.parse]
    simp only [List.getLast?_concat, List.dropLast_concat, if_true, ipv6Groups?_ipv6Inner isIpv6]
  · rw [text_eq]
    exact List.cons_ne_nil _ _
  · rw [text_eq]
    intro character member
    rw [List.mem_cons, List.mem_append, List.mem_singleton] at member
    rcases member with rfl | inside | rfl
    · exact opening
    · rcases mem_ipv6Inner inside with rfl | ⟨digit, small, rfl⟩
      · exact colon
      · exact inHost_hexadecimal digit small
    · exact closing
  · intro port isPort
    rw [text_eq, List.cons_append, List.append_assoc, List.singleton_append]
    apply splitHost_brackets _ isPort
    intro character member
    rcases mem_ipv6Inner member with rfl | ⟨digit, small, rfl⟩
    · decide
    · exact ⟨hexDigit_ne_mark digit small _ (by decide), hexDigit_ne_mark digit small _ (by decide)⟩

/-- Whatever is read as a host is read back from its text. -/
theorem canonicalHost_of_parse
    [LawfulDomainCoding]
    {text : List Char}
    {host : Host}
    (parsed : Host.parse text = .ok host) :
    CanonicalHost host := by
  unfold Host.parse at parsed
  split at parsed
  case h_1 rest =>
    split at parsed
    case isFalse => cases parsed
    case isTrue =>
      split at parsed
      case h_2 => cases parsed
      case h_1 groups read =>
        rw [← Except.ok.inj parsed]
        exact canonicalHost_ipv6 (isIpv6_of_ipv6Groups? read)
  case h_2 =>
    split at parsed
    case h_1 => cases parsed
    case h_2 => cases parsed
    case h_3 ascii notEmpty isAscii =>
      obtain ⟨domain, -, isDomain⟩ := Option.bind_eq_some_iff.mp isAscii
      have inDomain := LawfulDomainCoding.inDomain isDomain
      have fixed := LawfulDomainCoding.again isDomain
      split at parsed
      case isTrue =>
        obtain ⟨address, isAddress, rfl⟩ := map_eq_ok_iff.mp parsed
        exact canonicalHost_ipv4 (parseIpv4_lt isAddress)
      case isFalse noNumber =>
        rw [← Except.ok.inj parsed]
        exact canonicalHost_domain notEmpty inDomain fixed (Bool.not_eq_true _ ▸ noNumber)

end Parsing

end Precis.Url
