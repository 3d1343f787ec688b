import Precis.Proofs.Url.Authority
import Precis.Proofs.Url.Host

/-!
Contract: URLs that are written back.

Owns that every part of a URL which was read under HTTP is encoded already, and
that such a URL is read back from its text.

Does not own hosts, and URLs under other schemes.
-/

namespace Precis.Url

/-! ### Canonical URLs -/

/-- A segment of a path as it is written. -/
structure CanonicalSegment (segment : String) : Prop where
  encoded : Encoded pathSet segment.toList
  noSlash : ∀ character ∈ segment.toList, isSlash true character = false
  noDots : segment.toList.map Char.toLower ∉ dots

/-- A path of at least one segment. -/
def IsCanonicalPath (path : Path) : Prop :=
  ∃ segments, path = .segments segments ∧ segments ≠ [] ∧
    ∀ segment ∈ segments, CanonicalSegment segment

/-- A URL that HTTP can reach, every part of which is written as it is read. -/
structure Canonical [DomainCoding] (url : Url) : Prop where
  speaks : SpeaksHttp url.scheme
  username : Encoded userinfoSet url.username.toList
  password : ∀ password, url.password = some password →
    password.toList ≠ [] ∧ Encoded userinfoSet password.toList
  host : ∃ host, url.host = some host ∧ CanonicalHost host
  port : ∀ port, url.port = some port → port ≤ 65535 ∧ defaultPort? url.scheme ≠ some port
  path : IsCanonicalPath url.path
  query : ∀ query, url.query = some query → Encoded specialQuerySet query.toList
  fragment : ∀ fragment, url.fragment = some fragment → Encoded fragmentSet fragment.toList

theorem Canonical.canonicalHost
    [DomainCoding]
    {url : Url}
    (canonical : Canonical url)
    {host : Host}
    (isHost : url.host = some host) :
    CanonicalHost host := by
  obtain ⟨found, isFound, canonicalHost⟩ := canonical.host
  rw [isHost] at isFound
  rwa [Option.some.inj isFound]

/-! ### What is read is canonical -/

theorem canonicalSegment_empty : CanonicalSegment "" where
  encoded := List.forall_mem_nil _
  noSlash := List.forall_mem_nil _
  noDots := by decide

theorem canonicalSegment_encode
    {segment : List Char}
    (noSlash : ∀ character ∈ segment, isSlash true character = false)
    (noDots : segment.map Char.toLower ∉ dots) :
    CanonicalSegment (String.ofList (encode pathSet segment)) where
  encoded := by
    rw [String.toList_ofList]
    exact encoded_encode pathSet_keeps segment
  noSlash := by
    rw [String.toList_ofList]
    intro character member
    rcases mem_encode member with ⟨inside, -⟩ | rfl | ⟨value, small, rfl⟩
    · exact noSlash character inside
    · rfl
    · have digits : ∀ value < 16, isSlash true (upperHexDigit value) = false := by decide
      exact digits value small
  noDots := by
    rw [String.toList_ofList]
    intro isDots
    -- An encoded byte that reads as a dot would have been a dot, which no path encodes.
    rw [encode_eq_of_mem_dots isDots] at isDots
    exact noDots isDots

/-- A segment that is followed as it stands is written in canonical form. -/
theorem canonicalSegment_of_not_dots
    {segment : List Char}
    (noSlash : ∀ character ∈ segment, isSlash true character = false)
    (noDoubleDot : ¬ isDoubleDot segment = true)
    (noSingleDot : ¬ isSingleDot segment = true) :
    CanonicalSegment (String.ofList (encode pathSet segment)) :=
  canonicalSegment_encode noSlash fun isDots =>
    (isSingleDot_or_isDoubleDot_iff.mpr isDots).elim noSingleDot noDoubleDot

theorem follow_canonical
    {directory : List String}
    {segments : List (List Char)}
    (canonical : ∀ segment ∈ directory, CanonicalSegment segment)
    (noSlash : ∀ segment ∈ segments, ∀ character ∈ segment, isSlash true character = false) :
    ∀ segment ∈ follow directory segments, CanonicalSegment segment := by
  -- Whichever way a segment is followed, to the directory above, nowhere or to a new one,
  -- what is left to follow starts from canonical segments again.
  have above : ∀ segment ∈ directory.drop 1, CanonicalSegment segment :=
    fun segment member => canonical segment (List.mem_of_mem_drop member)
  induction segments generalizing directory with
  | nil => exact canonical
  | cons segment rest inductionHypothesis =>
      obtain ⟨noSlashHere, noSlashRest⟩ := List.forall_mem_cons.mp noSlash
      cases rest with
      | nil =>
          rw [follow]
          split
          case isTrue => exact List.forall_mem_cons.mpr ⟨canonicalSegment_empty, above⟩
          case isFalse noDoubleDot =>
            split
            case isTrue => exact List.forall_mem_cons.mpr ⟨canonicalSegment_empty, canonical⟩
            case isFalse noSingleDot =>
              exact List.forall_mem_cons.mpr
                ⟨canonicalSegment_of_not_dots noSlashHere noDoubleDot noSingleDot, canonical⟩
      | cons next others =>
          have onwards {directory : List String}
              (canonical : ∀ segment ∈ directory, CanonicalSegment segment) :=
            inductionHypothesis canonical noSlashRest
              fun segment member => canonical segment (List.mem_of_mem_drop member)
          rw [follow]
          · split
            case isTrue => exact onwards above
            case isFalse noDoubleDot =>
              split
              case isTrue => exact onwards canonical
              case isFalse noSingleDot =>
                exact onwards (List.forall_mem_cons.mpr
                  ⟨canonicalSegment_of_not_dots noSlashHere noDoubleDot noSingleDot, canonical⟩)
          · exact List.cons_ne_nil _ _

theorem follow_ne_nil
    {segments : List (List Char)}
    (notEmpty : segments ≠ [])
    (directory : List String) :
    follow directory segments ≠ [] := by
  induction segments generalizing directory with
  | nil => exact absurd rfl notEmpty
  | cons segment rest inductionHypothesis =>
      cases rest with
      | nil =>
          rw [follow]
          split
          case isTrue => exact List.cons_ne_nil _ _
          case isFalse => split <;> exact List.cons_ne_nil _ _
      | cons next others =>
          have onwards := inductionHypothesis (List.cons_ne_nil next others)
          rw [follow]
          · split
            case isTrue => exact onwards _
            case isFalse => split <;> exact onwards _
          · exact List.cons_ne_nil _ _

theorem isCanonicalPath_rootPath (text : List Char) : IsCanonicalPath (rootPath true text) := by
  have resolved (text : List Char) : IsCanonicalPath (resolvePath true [] text) := by
    refine ⟨_, rfl, ?_, ?_⟩
    · intro empty
      exact follow_ne_nil (splitAt_ne_nil text) [] (List.reverse_eq_nil_iff.mp empty)
    · intro segment member
      exact follow_canonical (List.forall_mem_nil _)
        (fun _ member _ inside => (of_mem_splitAt member inside).2) segment
        (List.mem_reverse.mp member)
  unfold rootPath
  split
  case h_1 =>
    exact ⟨[""], rfl, List.cons_ne_nil _ _, List.forall_mem_singleton.mpr canonicalSegment_empty⟩
  case h_2 => exact resolved _

theorem of_parsePort
    {scheme : String}
    {text : List Char}
    {port : Option Nat}
    (parsed : parsePort scheme text = .ok port) :
    ∀ number, port = some number → number ≤ 65535 ∧ defaultPort? scheme ≠ some number := by
  rintro number rfl
  unfold parsePort at parsed
  split at parsed
  case isTrue => cases parsed
  case isFalse =>
    split at parsed
    case h_2 => cases parsed
    case h_1 value isValue =>
      split at parsed
      case isTrue => cases parsed
      case isFalse fits =>
        split at parsed
        case isTrue => cases parsed
        case isFalse noDefault =>
          obtain rfl := Option.some.inj (Except.ok.inj parsed)
          exact ⟨by omega, noDefault⟩

theorem parseCredentials_encoded (text : List Char) :
    Encoded userinfoSet (parseCredentials text).1.toList ∧
      ∀ password, (parseCredentials text).2 = some password →
        password.toList ≠ [] ∧ Encoded userinfoSet password.toList := by
  constructor
  · rw [parseCredentials, String.toList_ofList]
    exact encoded_encode userinfoSet_keeps _
  · intro password isPassword
    simp only [parseCredentials, Option.ite_none_left_eq_some, Option.some.injEq] at isPassword
    obtain ⟨notEmpty, rfl⟩ := isPassword
    rw [String.toList_ofList]
    refine ⟨fun empty => notEmpty ?_, encoded_encode userinfoSet_keeps _⟩
    rw [encode_eq_nil_iff.mp empty]
    rfl

/-- The parts of an authority as they are written. -/
structure CanonicalAuthority [DomainCoding] (scheme : String) (authority : Authority) : Prop where
  username : Encoded userinfoSet authority.username.toList
  password : ∀ password, authority.password = some password →
    password.toList ≠ [] ∧ Encoded userinfoSet password.toList
  host : CanonicalHost authority.host
  port : ∀ port, authority.port = some port →
    port ≤ 65535 ∧ defaultPort? scheme ≠ some port

/-- The credentials of an authority, and the host and port after them. -/
def cutCredentials (text : List Char) : (String × Option String) × List Char :=
  match splitLastAt text with
  | some (before, after) => (parseCredentials before, after)
  | none => (("", none), text)

/-- The authority of credentials, and of the host and port after them. -/
def authorityAt
    [DomainCoding]
    (scheme : String)
    (credentials : String × Option String)
    (place : List Char) : Except ParseError Authority :=
  if (splitHost false place).1 = [] then .error .emptyHost
  else
    (Host.parse (splitHost false place).1).bind fun host =>
      (parsePort scheme ((splitHost false place).2.drop 1)).map fun port =>
        { username := credentials.1, password := credentials.2, host, port }

theorem parseAuthority_eq
    [DomainCoding]
    {scheme : String}
    (speaks : SpeaksHttp scheme)
    (text : List Char) :
    parseAuthority scheme text =
      authorityAt scheme (cutCredentials text).1 (cutCredentials text).2 := by
  unfold parseAuthority cutCredentials authorityAt
  cases splitLastAt text with
  | none =>
      simp only [speaks.special, if_true, true_or, and_true, List.isEmpty_iff]
      cases Host.parse (splitHost false text).1 with
      | error cause => rfl
      | ok host => cases parsePort scheme ((splitHost false text).2.drop 1) <;> rfl
  | some cut =>
      obtain ⟨before, after⟩ := cut
      simp only [speaks.special, if_true, true_or, and_true, List.isEmpty_iff]
      cases Host.parse (splitHost false after).1 with
      | error cause => rfl
      | ok host => cases parsePort scheme ((splitHost false after).2.drop 1) <;> rfl

theorem parseAuthority_eq_ok_iff
    [DomainCoding]
    {scheme : String}
    {text : List Char}
    {authority : Authority}
    (speaks : SpeaksHttp scheme) :
    parseAuthority scheme text = .ok authority ↔
      (splitHost false (cutCredentials text).2).1 ≠ [] ∧
        Host.parse (splitHost false (cutCredentials text).2).1 = .ok authority.host ∧
        parsePort scheme ((splitHost false (cutCredentials text).2).2.drop 1) =
          .ok authority.port ∧
        (cutCredentials text).1 = (authority.username, authority.password) := by
  rw [parseAuthority_eq speaks, authorityAt]
  obtain ⟨⟨username, password⟩, place⟩ := cutCredentials text
  by_cases empty : (splitHost false place).1 = []
  · simp [empty]
  · rw [if_neg empty]
    constructor
    · intro read
      obtain ⟨host, isHost, read⟩ := bind_eq_ok_iff.mp read
      obtain ⟨port, isPort, rfl⟩ := map_eq_ok_iff.mp read
      exact ⟨empty, isHost, isPort, rfl⟩
    · rintro ⟨-, isHost, isPort, areCredentials⟩
      obtain ⟨rfl, rfl⟩ := Prod.mk.inj areCredentials
      exact bind_eq_ok_iff.mpr ⟨_, isHost, map_eq_ok_iff.mpr ⟨_, isPort, rfl⟩⟩

theorem cutCredentials_encoded (text : List Char) :
    Encoded userinfoSet (cutCredentials text).1.1.toList ∧
      ∀ password, (cutCredentials text).1.2 = some password →
        password.toList ≠ [] ∧ Encoded userinfoSet password.toList := by
  unfold cutCredentials
  split
  case h_1 => exact parseCredentials_encoded _
  case h_2 => exact ⟨List.forall_mem_nil _, nofun⟩

theorem canonicalAuthority_of_parseAuthority
    [DomainCoding]
    [LawfulDomainCoding]
    {scheme : String}
    {text : List Char}
    {authority : Authority}
    (speaks : SpeaksHttp scheme)
    (parsed : parseAuthority scheme text = .ok authority) :
    CanonicalAuthority scheme authority := by
  obtain ⟨-, isHost, isPort, areCredentials⟩ := (parseAuthority_eq_ok_iff speaks).mp parsed
  have encoded := cutCredentials_encoded text
  rw [areCredentials] at encoded
  exact ⟨encoded.1, encoded.2, canonicalHost_of_parse isHost, of_parsePort isPort⟩

/-- Whatever is read after a scheme of HTTP is canonical. -/
theorem canonical_of_ofAuthorityText
    [DomainCoding]
    [LawfulDomainCoding]
    {scheme : String}
    {text : List Char}
    {url : Url}
    (speaks : SpeaksHttp scheme)
    (read : ofAuthorityText scheme text = .ok url) :
    Canonical url := by
  unfold ofAuthorityText at read
  simp only [speaks.special] at read
  split at read
  case h_1 => cases read
  case h_2 authority isAuthority =>
    obtain rfl := Except.ok.inj read
    have canonical := canonicalAuthority_of_parseAuthority speaks isAuthority
    exact {
      speaks := speaks
      username := canonical.username
      password := canonical.password
      host := ⟨_, rfl, canonical.host⟩
      port := canonical.port
      path := isCanonicalPath_rootPath _
      query := by
        intro query isQuery
        obtain ⟨raw, -, rfl⟩ := Option.map_eq_some_iff.mp isQuery
        rw [String.toList_ofList]
        exact encoded_encode specialQuerySet_keeps raw
      fragment := by
        intro fragment isFragment
        obtain ⟨raw, -, rfl⟩ := Option.map_eq_some_iff.mp isFragment
        rw [String.toList_ofList]
        exact encoded_encode fragmentSet_keeps raw }

end Precis.Url
