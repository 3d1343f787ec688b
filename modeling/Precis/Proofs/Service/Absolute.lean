import Precis.Proofs.Service.Base
import Precis.Proofs.Url.Written

/-!
Contract: addresses that are whole URLs.

Owns that an address with a scheme of HTTP in small letters is taken for the
scheme and the authority that are written in it; and that an address with any
other scheme, or with one of these in other letters, is taken for a host of the
name of the scheme, or rejected where no host has such a name.

Does not own addresses without a scheme, and paths.
-/

namespace Precis.Service

open Url (AuthorityText Host IsSchemeText SpeaksHttp SpellsPort)

/-- An address that names a scheme, with what is written after the slashes. -/
def absoluteAddress (scheme after : List Char) : String :=
  String.ofList (scheme ++ "://".toList ++ after)

/-- An address is taken for the scheme and the authority that are written in it,
wherever the host is a host and the port is a port. -/
structure IsTakenAsWritten
    [Url.DomainCoding]
    (scheme : List Char)
    (text : AuthorityText)
    (address : String) : Prop where
  asWritten : ∀ base, baseUrl address = .ok base →
    base.scheme = String.ofList scheme ∧ text.Spells base
  accepted : ∀ host port, Host.parse text.host = .ok host →
    SpellsPort (String.ofList scheme) text.port port → ∃ base, baseUrl address = .ok base
  rejected : ∀ cause, Host.parse text.host = .error cause →
    baseUrl address = .error (.malformed (Text.trim address) cause)

/-- An address is taken for a host that has the name of its scheme, wherever
that is a host. -/
structure IsTakenForHost [Url.DomainCoding] (scheme : List Char) (address : String) : Prop where
  forHost : ∀ base, baseUrl address = .ok base →
    base.scheme = "http" ∧ base.username = "" ∧ base.password = none ∧
      base.host = some (.domain (String.ofList (scheme.map Char.toLower))) ∧ base.port = none
  accepted : ∀ host, Host.parse scheme = .ok host → ∃ base, baseUrl address = .ok base
  rejected : ∀ cause, Host.parse scheme = .error cause →
    baseUrl address = .error (.malformed (Text.trim address) cause)

/-! ### URLs of an authority -/

theorem exists_withFinalSlash_eq (url : Url) : ∃ path, url.withFinalSlash = { url with path } := by
  unfold Url.withFinalSlash
  split
  case h_1 segments isPath =>
    split
    case isTrue => exact ⟨url.path, rfl⟩
    case isFalse => exact ⟨_, rfl⟩
  case h_2 => exact ⟨url.path, rfl⟩

section Authority

variable [Url.DomainCoding] [Url.LawfulDomainCoding]
  {address scheme : String} {text : AuthorityText} {rest : List Char}
  (speaks : SpeaksHttp scheme)
  (valid : text.IsValid)
  (begins : (addressUrlText (Text.trim address)).toList =
    scheme.toList ++ "://".toList ++ (text.characters ++ '/' :: rest))

include speaks valid begins

theorem spells_of_baseUrl {base : Url} (denotes : baseUrl address = .ok base) :
    base.scheme = scheme ∧ text.Spells base := by
  obtain ⟨-, url, parsed, -, rfl⟩ := baseUrl_eq_ok_iff.mp denotes
  obtain ⟨path, query, fragment, parse_eq⟩ := valid.exists_parse_eq speaks begins
  rw [parse_eq, map_eq_ok_iff] at parsed
  obtain ⟨authority, isAuthority, rfl⟩ := parsed
  obtain ⟨areCredentials, isHost, isPort⟩ :=
    (valid.parseAuthority_eq_ok_iff speaks).mp isAuthority
  obtain ⟨slashed, isSlashed⟩ := exists_withFinalSlash_eq
    { scheme
      username := authority.username
      password := authority.password
      host := some authority.host
      port := authority.port
      path
      query
      fragment }
  rw [isSlashed]
  exact ⟨rfl, areCredentials, ⟨authority.host, isHost, rfl⟩, isPort⟩

variable (someText : Text.trim address ≠ "")

include someText

theorem exists_baseUrl_of_spells
    {host : Host}
    {port : Option Nat}
    (isHost : Host.parse text.host = .ok host)
    (isPort : SpellsPort scheme text.port port) :
    ∃ base, baseUrl address = .ok base := by
  obtain ⟨path, query, fragment, parse_eq⟩ := valid.exists_parse_eq speaks begins
  let authority : Url.Authority :=
    { username := (AuthorityText.credentialsOf text.credentials).1
      password := (AuthorityText.credentialsOf text.credentials).2
      host
      port }
  have isAuthority : Url.parseAuthority scheme text.characters = .ok authority :=
    (valid.parseAuthority_eq_ok_iff speaks).mpr ⟨rfl, isHost, isPort⟩
  have hostText : host.text ≠ "" := by
    intro empty
    exact (Url.canonicalHost_of_parse isHost).notEmpty (by rw [empty]; rfl)
  rw [isAuthority] at parse_eq
  exact ⟨_, baseUrl_eq_ok_iff.mpr ⟨someText, _, parse_eq, bne_iff_ne.mpr hostText, rfl⟩⟩

theorem baseUrl_eq_malformed
    {cause : Url.ParseError}
    (noHost : Host.parse text.host = .error cause) :
    baseUrl address = .error (.malformed (Text.trim address) cause) := by
  obtain ⟨path, query, fragment, parse_eq⟩ := valid.exists_parse_eq speaks begins
  rw [valid.parseAuthority_eq_error speaks noHost] at parse_eq
  unfold baseUrl
  simp only [if_neg someText, parse_eq]
  rfl

end Authority

/-! ### Addresses of a scheme -/

/-- Trimming takes nothing from between two characters that count. -/
theorem exists_trim_eq
    {first last : Char}
    (firstCounts : Text.isBlank first = false)
    (lastCounts : Text.isBlank last = false)
    (middle rest : List Char) :
    ∃ kept, (Text.trim (String.ofList (first :: (middle ++ last :: rest)))).toList =
      first :: (middle ++ last :: kept) := by
  have started : Text.trimStart (first :: (middle ++ last :: rest)) =
      first :: (middle ++ last :: rest) :=
    List.dropWhile_cons_of_neg (Bool.eq_false_iff.mp firstCounts)
  have reversed : (first :: (middle ++ last :: rest)).reverse =
      rest.reverse ++ last :: (first :: middle).reverse := by
    simp
  refine ⟨(rest.reverse.dropWhile Text.isBlank).reverse, ?_⟩
  rw [Text.trim, String.toList_ofList, String.toList_ofList, started, Text.trimEnd, reversed,
    Url.dropWhile_append_of_stop lastCounts]
  simp

theorem isSchemeText_of_speaksHttp {scheme : String} (speaks : SpeaksHttp scheme) :
    IsSchemeText scheme.toList := by
  rcases speaks with rfl | rfl <;> exact ⟨⟨'h', _, rfl, rfl⟩, List.all_eq_true.mp (by decide)⟩

section Scheme

variable {scheme : List Char} (isScheme : IsSchemeText scheme)

include isScheme

theorem exists_trim_scheme (between after : List Char) :
    ∃ kept, (Text.trim (String.ofList (scheme ++ (between ++ '/' :: after)))).toList =
      scheme ++ (between ++ '/' :: kept) := by
  obtain ⟨first, others, rfl, letter⟩ := isScheme.letter
  have firstCounts : Text.isBlank first = false :=
    Url.of_ascii (fun character => character.isAlpha = true → Text.isBlank character = false)
      (by decide) (Url.isSchemeChar_ascii (isScheme.goesOn first List.mem_cons_self)) letter
  obtain ⟨kept, isKept⟩ :=
    exists_trim_eq firstCounts (by decide : Text.isBlank '/' = false) (others ++ between) after
  refine ⟨kept, ?_⟩
  simpa using isKept

theorem takeWhile_isSchemeChar (after : List Char) :
    (scheme ++ "://".toList ++ after).takeWhile Url.isSchemeChar = scheme := by
  rw [List.append_assoc]
  exact Url.takeWhile_to_stop isScheme.goesOn (by decide) _

/-- Only the name of a scheme itself is found in front of the slashes. -/
theorem eq_of_beginsWith
    {name text : String}
    {after : List Char}
    (isName : IsSchemeText name.toList)
    (begins : text.toList = scheme ++ "://".toList ++ after)
    (found : beginsWith text (name ++ "://") = true) :
    String.ofList scheme = name := by
  obtain ⟨rest, isRest⟩ := toList_of_beginsWith found
  rw [String.toList_append] at isRest
  have same := (takeWhile_isSchemeChar isScheme after).symm.trans
    ((congrArg _ (begins.symm.trans isRest)).trans (takeWhile_isSchemeChar isName rest))
  rw [same, String.ofList_toList]

/-- An address with any other scheme is put after the slashes of a URL itself. -/
theorem addressUrlText_of_not_speaksHttp
    {text : String}
    {after : List Char}
    (noHttp : ¬ SpeaksHttp (String.ofList scheme))
    (begins : text.toList = scheme ++ "://".toList ++ after) :
    addressUrlText text = "http://" ++ text := by
  have noName {name : String} (isHttp : SpeaksHttp name) :
      ¬ beginsWith text (name ++ "://") = true := by
    intro found
    rw [← eq_of_beginsWith isScheme (isSchemeText_of_speaksHttp isHttp) begins found] at isHttp
    exact noHttp isHttp
  have noColon : ¬ beginsWith text ":" = true := by
    intro found
    obtain ⟨first, others, rfl, letter⟩ := isScheme.letter
    obtain ⟨rest, isRest⟩ := toList_of_beginsWith found
    obtain rfl : first = ':' := (List.cons.inj (begins.symm.trans isRest)).1
    cases letter
  unfold addressUrlText
  rw [if_neg, if_neg noColon]
  rw [Bool.or_eq_true, not_or]
  exact ⟨noName (.inl rfl), noName (.inr rfl)⟩

end Scheme

theorem addressUrlText_of_speaksHttp
    {scheme text : String}
    {after : List Char}
    (speaks : SpeaksHttp scheme)
    (begins : text.toList = scheme.toList ++ "://".toList ++ after) :
    addressUrlText text = text := by
  unfold addressUrlText
  apply if_pos
  simp only [beginsWith, Bool.or_eq_true, List.isPrefixOf_iff_prefix, begins]
  rcases speaks with rfl | rfl
  · exact .inl ⟨after, rfl⟩
  · exact .inr ⟨after, rfl⟩

theorem isTakenAsWritten
    [Url.DomainCoding]
    [Url.LawfulDomainCoding]
    {scheme : List Char}
    {text : AuthorityText}
    (speaks : SpeaksHttp (String.ofList scheme))
    (valid : text.IsValid)
    (rest : List Char) :
    IsTakenAsWritten scheme text (absoluteAddress scheme (text.characters ++ '/' :: rest)) := by
  have isScheme := isSchemeText_of_speaksHttp speaks
  rw [String.toList_ofList] at isScheme
  have whole : absoluteAddress scheme (text.characters ++ '/' :: rest) =
      String.ofList (scheme ++ ("://".toList ++ text.characters ++ '/' :: rest)) := by
    simp [absoluteAddress]
  obtain ⟨kept, trimmed⟩ := exists_trim_scheme isScheme ("://".toList ++ text.characters) rest
  rw [← whole] at trimmed
  generalize absoluteAddress scheme _ = address at trimmed ⊢
  have begins : (Text.trim address).toList =
      (String.ofList scheme).toList ++ "://".toList ++ (text.characters ++ '/' :: kept) := by
    rw [trimmed, String.toList_ofList]
    simp
  have someText : Text.trim address ≠ "" := by
    intro empty
    rw [empty] at begins
    simp at begins
  rw [← addressUrlText_of_speaksHttp speaks begins] at begins
  exact ⟨fun base denotes => spells_of_baseUrl speaks valid begins denotes,
    fun host port isHost isPort =>
      exists_baseUrl_of_spells speaks valid begins someText isHost isPort,
    fun cause noHost => baseUrl_eq_malformed speaks valid begins someText noHost⟩

theorem isTakenForHost
    [Url.DomainCoding]
    [Url.LawfulDomainCoding]
    {scheme : List Char}
    (isScheme : IsSchemeText scheme)
    (noHttp : ¬ SpeaksHttp (String.ofList scheme))
    (after : List Char) :
    IsTakenForHost scheme (absoluteAddress scheme after) := by
  have whole : absoluteAddress scheme after =
      String.ofList (scheme ++ (":/".toList ++ '/' :: after)) := by
    simp [absoluteAddress]
  obtain ⟨kept, trimmed⟩ := exists_trim_scheme isScheme ":/".toList after
  rw [← whole] at trimmed
  generalize absoluteAddress scheme _ = address at trimmed ⊢
  have someText : Text.trim address ≠ "" := by
    intro empty
    rw [empty] at trimmed
    simp at trimmed
  -- The scheme and its colon stand where the authority of a URL of HTTP is read.
  have begins : (addressUrlText (Text.trim address)).toList =
      "http".toList ++ "://".toList ++
        ((Url.ofScheme scheme).characters ++ '/' :: '/' :: kept) := by
    have named : (Text.trim address).toList = scheme ++ "://".toList ++ kept := by
      rw [trimmed]
      simp
    rw [addressUrlText_of_not_speaksHttp isScheme noHttp named, String.toList_append, named,
      Url.characters_ofScheme]
    simp
  have speaks : SpeaksHttp "http" := .inl rfl
  have valid := isScheme.isValid_ofScheme
  constructor
  case forHost =>
    intro base denotes
    obtain ⟨isHttp, spells⟩ := spells_of_baseUrl speaks valid begins denotes
    obtain ⟨host, parsed, isHost⟩ := spells.host
    obtain ⟨noName, noPassword⟩ := Prod.mk.inj spells.credentials
    rw [isScheme.eq_domain_of_parse parsed] at isHost
    exact ⟨isHttp, noName.symm, noPassword.symm, isHost, spells.port.eq_none_of_empty⟩
  case accepted =>
    intro host parsed
    exact exists_baseUrl_of_spells speaks valid begins someText parsed .empty
  case rejected =>
    intro cause noHost
    exact baseUrl_eq_malformed speaks valid begins someText noHost

/-- What an address with a scheme is taken for. -/
theorem baseUrl_absolute
    [Url.DomainCoding]
    [Url.LawfulDomainCoding]
    {scheme : List Char}
    (isScheme : IsSchemeText scheme) :
    (SpeaksHttp (String.ofList scheme) →
      ∀ (text : AuthorityText) (rest : List Char), text.IsValid →
        IsTakenAsWritten scheme text
          (absoluteAddress scheme (text.characters ++ '/' :: rest))) ∧
    (¬ SpeaksHttp (String.ofList scheme) →
      ∀ after, IsTakenForHost scheme (absoluteAddress scheme after)) :=
  ⟨fun speaks _ rest valid => isTakenAsWritten speaks valid rest,
    fun noHttp after => isTakenForHost isScheme noHttp after⟩

/-- A URL with credentials and a port, and one with a scheme of its own. -/
theorem baseUrl_absolute_of_https_and_ftp :
    let text : AuthorityText :=
      { credentials := some ("user".toList, some "pw".toList)
        host := "Example.COM".toList
        port := some "8443".toList }
    text.IsValid ∧
      (∃ base, baseUrl "https://user:pw@Example.COM:8443/api" = .ok base ∧ text.Spells base ∧
        base.text = "https://user:pw@example.com:8443/api/") ∧
      IsTakenForHost "ftp".toList "ftp://example.com" := by
  intro text
  have valid : text.IsValid :=
    { notEmpty := by decide
      name := by rintro name password ⟨⟩; decide
      host := .plain (List.all_iff_forall_prop.mp (by decide))
      port := by rintro digits ⟨⟩; exact List.all_eq_true.mp (by decide)
      plain := Url.plain_of_all (by decide)
      goesOn := List.all_iff_forall_prop.mp (by decide) }
  have taken : IsTakenAsWritten "https".toList text "https://user:pw@Example.COM:8443/api" :=
    (baseUrl_absolute (isSchemeText_of_speaksHttp (.inr rfl))).1 (.inr rfl) text "api".toList valid
  let base : Url :=
    { scheme := "https"
      username := "user"
      password := some "pw"
      host := some (.domain "example.com")
      port := some 8443
      path := .segments ["api", ""]
      query := none
      fragment := none }
  have denotes : baseUrl "https://user:pw@Example.COM:8443/api" = .ok base :=
    toOption_eq_some_iff.mp (by decide +kernel)
  have isScheme : IsSchemeText "ftp".toList := ⟨⟨'f', _, rfl, rfl⟩, List.all_eq_true.mp (by decide)⟩
  have noHttp : ¬ SpeaksHttp (String.ofList "ftp".toList) := by
    unfold SpeaksHttp
    decide
  exact ⟨valid, ⟨base, denotes, (taken.asWritten base denotes).2, by decide +kernel⟩,
    (baseUrl_absolute isScheme).2 noHttp "example.com".toList⟩

/-- A scheme in capital letters is taken for the host, and the host for a part of the path. -/
theorem capital_scheme_taken_for_host :
    let text : AuthorityText :=
      { credentials := none, host := "example.com".toList, port := none }
    IsSchemeText "HTTP".toList ∧ text.IsValid ∧
      absoluteAddress "HTTP".toList (text.characters ++ '/' :: "api".toList) =
        "HTTP://example.com/api" ∧
      Host.parse text.host = .ok (.domain "example.com") ∧
      ∃ base, baseUrl "HTTP://example.com/api" = .ok base ∧ base.scheme = "http" ∧
        base.host = some (.domain "http") ∧ base.text = "http://http//example.com/api/" := by
  intro text
  have isScheme : IsSchemeText "HTTP".toList :=
    ⟨⟨'H', _, rfl, rfl⟩, List.all_eq_true.mp (by decide)⟩
  have valid : text.IsValid :=
    { notEmpty := by decide
      name := nofun
      host := .plain (List.all_iff_forall_prop.mp (by decide))
      port := nofun
      plain := Url.plain_of_all (by decide)
      goesOn := List.all_iff_forall_prop.mp (by decide) }
  have parsed : Host.parse text.host = .ok (.domain "example.com") :=
    toOption_eq_some_iff.mp (by decide +kernel)
  let base : Url :=
    { scheme := "http"
      username := ""
      password := none
      host := some (.domain "http")
      port := none
      path := .segments ["", "example.com", "api", ""]
      query := none
      fragment := none }
  have denotes : baseUrl "HTTP://example.com/api" = .ok base :=
    toOption_eq_some_iff.mp (by decide +kernel)
  exact ⟨isScheme, valid, by decide, parsed, base, denotes, rfl, rfl, by decide +kernel⟩

end Precis.Service
