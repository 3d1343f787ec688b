import Mathlib.Data.Bool.AllAny
import Precis.Proofs.Url.Canonical

/-!
Contract: URLs that are read back from their texts.

Owns that each part of a canonical URL is read back from the way it is written,
that the whole is cut at the marks between the parts, and that nothing of it is
passed over.

Does not own which URLs are canonical.
-/

namespace Precis.Url

/-! ### Authorities -/

/-- A port as it is written after a host. -/
def portCharacters : Option Nat → List Char
  | some port => ':' :: Nat.toDigits 10 port
  | none => []

/-- What is written between the slashes and the path. -/
def authorityCharacters (url : Url) (host : Host) : List Char :=
  url.credentialsText.toList ++ (host.text.toList ++ portCharacters url.port)

/-- A character that ends no authority. -/
structure InAuthority (character : Char) : Prop where
  visible : IsVisible character
  goesOn : endsAuthority true character = false

theorem inAuthority_of_ne
    {character : Char}
    (visible : IsVisible character)
    (noMark : character ∉ ['/', '\\', '?', '#']) :
    InAuthority character where
  visible := visible
  goesOn := by
    simp only [List.mem_cons, List.not_mem_nil, or_false, not_or] at noMark
    simp [endsAuthority, isSlash, noMark]

theorem InHost.inAuthority {character : Char} (inHost : InHost character) :
    InAuthority character :=
  inAuthority_of_ne inHost.visible fun member =>
    inHost.noMark (List.mem_append_left ['@'] member)

theorem inAuthority_of_userinfoSet {character : Char} (free : userinfoSet character = false) :
    InAuthority character := by
  have path := pathSet_of_userinfoSet free
  refine inAuthority_of_ne (isVisible_of_fragmentSet (fragmentSet_of_pathSet path)) ?_
  have held : ∀ mark ∈ ['/', '\\', '?', '#'], userinfoSet mark = true :=
    List.all_eq_true.mp (by decide)
  exact fun member => EncodeSet.ne free (held character member) rfl

theorem isPortText_portCharacters (port : Option Nat) : IsPortText (portCharacters port) := by
  cases port with
  | none => exact .none
  | some port => exact .digits _

theorem inHost_of_mem_portCharacters
    {port : Option Nat}
    {character : Char}
    (member : character ∈ portCharacters port) :
    InHost character := by
  cases port with
  | none => cases member
  | some port =>
      rcases List.mem_cons.mp member with rfl | inside
      · decide
      · obtain ⟨digit, small, rfl⟩ := exists_of_mem_toDigits (by decide) inside
        exact inHost_hexadecimal digit (by omega)

theorem parsePort_portCharacters
    {scheme : String}
    {port : Option Nat}
    (canonical : ∀ number, port = some number →
      number ≤ 65535 ∧ defaultPort? scheme ≠ some number) :
    parsePort scheme ((portCharacters port).drop 1) = .ok port := by
  cases port with
  | none => rfl
  | some number =>
      obtain ⟨bounded, noDefault⟩ := canonical number rfl
      have someDigits : (Nat.toDigits 10 number).isEmpty = false :=
        List.isEmpty_eq_false_iff.mpr Nat.toDigits_ne_nil
      show parsePort scheme (Nat.toDigits 10 number) = .ok (some number)
      unfold parsePort
      simp only [someDigits, Bool.false_eq_true, if_false,
        digitsValue?_toDigits (by decide : 2 ≤ 10) (by decide) number, if_neg noDefault,
        if_neg (Nat.not_lt.mpr bounded)]

theorem parseCredentials_name {username : String} (encoded : Encoded userinfoSet username.toList) :
    parseCredentials username.toList = (username, none) := by
  have goes : ∀ character ∈ username.toList, (character != ':') = true :=
    fun character inside => bne_iff_ne.mpr (EncodeSet.ne (encoded character inside) rfl)
  have name : username.toList.takeWhile (· != ':') = username.toList :=
    List.takeWhile_eq_self_iff.mpr goes
  have nothing : username.toList.dropWhile (· != ':') = [] :=
    List.dropWhile_eq_nil_iff.mpr goes
  simp only [parseCredentials, name, nothing, encoded.encode_eq, String.ofList_toList]
  rfl

theorem parseCredentials_password
    {username password : String}
    (encoded : Encoded userinfoSet username.toList)
    (notEmpty : password.toList ≠ [])
    (encodedPassword : Encoded userinfoSet password.toList) :
    parseCredentials (username.toList ++ ':' :: password.toList) = (username, some password) := by
  have goes : ∀ character ∈ username.toList, (character != ':') = true :=
    fun character inside => bne_iff_ne.mpr (EncodeSet.ne (encoded character inside) rfl)
  have stops : (':' != ':') = false := by decide
  have somePassword : password.toList.isEmpty = false := List.isEmpty_eq_false_iff.mpr notEmpty
  simp only [parseCredentials, takeWhile_to_stop goes stops, dropWhile_to_stop goes stops,
    List.drop_one, List.tail_cons, somePassword, encoded.encode_eq, encodedPassword.encode_eq,
    String.ofList_toList, Bool.false_eq_true, if_false]

/-- The credentials are cut off where they were put. -/
theorem Canonical.cutCredentials_eq
    [DomainCoding]
    {url : Url}
    (canonical : Canonical url)
    {place : List Char}
    (noAt : '@' ∉ place) :
    cutCredentials (url.credentialsText.toList ++ place) =
      ((url.username, url.password), place) := by
  unfold credentialsText
  split
  case h_1 password isPassword =>
    obtain ⟨notEmpty, encoded⟩ := canonical.password password isPassword
    have written : (url.username ++ ":" ++ password ++ "@").toList ++ place =
        (url.username.toList ++ ':' :: password.toList) ++ '@' :: place := by
      simp
    simp only [cutCredentials, written, splitLastAt_append noAt, isPassword,
      parseCredentials_password canonical.username notEmpty encoded]
  case h_2 noPassword =>
    split
    case isTrue noUsername =>
      simp only [cutCredentials, String.toList_empty, List.nil_append,
        splitLastAt_of_not_mem noAt, noPassword, noUsername]
    case isFalse =>
      have written : (url.username ++ "@").toList ++ place =
          url.username.toList ++ '@' :: place := by
        simp
      simp only [cutCredentials, written, splitLastAt_append noAt, noPassword,
        parseCredentials_name canonical.username]

theorem Canonical.parseAuthority_eq
    [DomainCoding]
    {url : Url}
    (canonical : Canonical url)
    {host : Host}
    (isHost : url.host = some host) :
    parseAuthority url.scheme (authorityCharacters url host) =
      .ok { username := url.username, password := url.password, host, port := url.port } := by
  have canonicalHost := canonical.canonicalHost isHost
  have noAt : '@' ∉ host.text.toList ++ portCharacters url.port := by
    have inHost : ∀ character ∈ host.text.toList ++ portCharacters url.port, InHost character :=
      List.forall_mem_append.mpr
        ⟨canonicalHost.inHost, fun _ => inHost_of_mem_portCharacters⟩
    intro member
    exact (inHost '@' member).noMark (by decide)
  rw [parseAuthority_eq_ok_iff canonical.speaks, authorityCharacters,
    canonical.cutCredentials_eq noAt,
    canonicalHost.splitHost_eq _ (isPortText_portCharacters url.port)]
  exact ⟨canonicalHost.notEmpty, canonicalHost.parse_eq,
    parsePort_portCharacters canonical.port, rfl⟩

theorem Canonical.inAuthority_of_mem_credentialsText
    [DomainCoding]
    {url : Url}
    (canonical : Canonical url)
    {character : Char}
    (member : character ∈ url.credentialsText.toList) :
    InAuthority character := by
  have colon : InAuthority ':' := ⟨by decide, rfl⟩
  have atSign : InAuthority '@' := ⟨by decide, rfl⟩
  have name (inside : character ∈ url.username.toList) : InAuthority character :=
    inAuthority_of_userinfoSet (canonical.username character inside)
  unfold credentialsText at member
  split at member
  case h_1 password isPassword =>
    simp only [String.toList_append, List.mem_append] at member
    rcases member with ((inName | isColon) | inPassword) | isAtSign
    · exact name inName
    · rwa [List.mem_singleton.mp isColon]
    · exact inAuthority_of_userinfoSet
        ((canonical.password password isPassword).2 character inPassword)
    · rwa [List.mem_singleton.mp isAtSign]
  case h_2 =>
    split at member
    case isTrue => cases member
    case isFalse =>
      rw [String.toList_append, List.mem_append] at member
      rcases member with inName | isAtSign
      · exact name inName
      · rwa [List.mem_singleton.mp isAtSign]

theorem Canonical.inAuthority
    [DomainCoding]
    {url : Url}
    (canonical : Canonical url)
    {host : Host}
    (isHost : url.host = some host) :
    ∀ character ∈ authorityCharacters url host, InAuthority character := by
  intro character member
  simp only [authorityCharacters, List.mem_append] at member
  rcases member with inCredentials | inHost | inPort
  · exact canonical.inAuthority_of_mem_credentialsText inCredentials
  · exact ((canonical.canonicalHost isHost).inHost character inHost).inAuthority
  · exact (inHost_of_mem_portCharacters inPort).inAuthority

/-! ### Paths -/

theorem toList_pathText {segments : List String} (notEmpty : segments ≠ []) :
    (Path.segments segments).text.toList =
      '/' :: ['/'].intercalate (segments.map String.toList) := by
  show (String.join (segments.map fun segment => "/" ++ segment)).toList = _
  induction segments with
  | nil => exact absurd rfl notEmpty
  | cons segment rest inductionHypothesis =>
      rw [List.map_cons, String.join_cons, String.toList_append, String.toList_append]
      cases rest with
      | nil => simp
      | cons next others =>
          rw [inductionHypothesis (List.cons_ne_nil _ _), List.map_cons, List.map_cons,
            List.map_cons, List.intercalate_cons_cons]
          simp

theorem follow_eq
    {segments : List String}
    (canonical : ∀ segment ∈ segments, CanonicalSegment segment)
    (directory : List String) :
    follow directory (segments.map String.toList) = segments.reverse ++ directory := by
  -- A canonical segment stands for no directory and is encoded already.
  have step {segment : String} (isCanonical : CanonicalSegment segment) :
      isDoubleDot segment.toList = false ∧ isSingleDot segment.toList = false ∧
        String.ofList (encode pathSet segment.toList) = segment := by
    have noDots := mt isSingleDot_or_isDoubleDot_iff.mp isCanonical.noDots
    rw [not_or, Bool.not_eq_true, Bool.not_eq_true] at noDots
    refine ⟨noDots.2, noDots.1, ?_⟩
    rw [isCanonical.encoded.encode_eq, String.ofList_toList]
  induction segments generalizing directory with
  | nil => rfl
  | cons segment rest inductionHypothesis =>
      obtain ⟨here, later⟩ := List.forall_mem_cons.mp canonical
      obtain ⟨noDoubleDot, noSingleDot, unchanged⟩ := step here
      cases rest with
      | nil =>
          rw [List.map_singleton, follow]
          simp only [noDoubleDot, noSingleDot, unchanged, Bool.false_eq_true, if_false]
          rfl
      | cons next others =>
          rw [List.map_cons, follow]
          · simp only [noDoubleDot, noSingleDot, unchanged, Bool.false_eq_true, if_false]
            rw [inductionHypothesis later]
            simp
          · exact List.cons_ne_nil _ _

theorem IsCanonicalPath.rootPath_eq {path : Path} (canonical : IsCanonicalPath path) :
    rootPath true path.text.toList = path := by
  obtain ⟨segments, rfl, notEmpty, each⟩ := canonical
  have someSegments : segments.map String.toList ≠ [] := mt List.map_eq_nil_iff.mp notEmpty
  have whole : ∀ piece ∈ segments.map String.toList,
      ∀ character ∈ piece, isSlash true character = false := by
    intro piece member
    obtain ⟨segment, known, rfl⟩ := List.mem_map.mp member
    exact (each segment known).noSlash
  have begins : isSlash true '/' = true := rfl
  rw [toList_pathText notEmpty, rootPath]
  simp only [begins, if_true, resolvePath, splitAt_intercalate begins someSegments whole,
    follow_eq each, List.append_nil, List.reverse_reverse]

theorem IsCanonicalPath.of_mem_text
    {path : Path}
    (canonical : IsCanonicalPath path)
    {character : Char}
    (member : character ∈ path.text.toList) :
    pathSet character = false := by
  obtain ⟨segments, rfl, notEmpty, each⟩ := canonical
  rw [toList_pathText notEmpty] at member
  rcases List.mem_cons.mp member with rfl | inside
  · rfl
  · rcases mem_intercalate inside with rfl | ⟨piece, isPiece, inside⟩
    · rfl
    · obtain ⟨segment, known, rfl⟩ := List.mem_map.mp isPiece
      exact (each segment known).encoded character inside

/-! ### Queries and fragments -/

/-- What is written after the authority. -/
def tailCharacters (url : Url) : List Char :=
  url.path.text.toList ++
    ((markedText "?" url.query).toList ++ (markedText "#" url.fragment).toList)

theorem toList_markedText
    {mark : String}
    (character : Char)
    (isMark : mark.toList = [character])
    (text : String) :
    (markedText mark (some text)).toList = character :: text.toList := by
  rw [markedText, String.toList_append, isMark, List.singleton_append]

section Fragment

variable {goesOn : Char → Bool} {text : List Char}
  (goes : ∀ character ∈ text, goesOn character = true)
  (stops : goesOn '#' = false)
  (fragment : Option String)

include goes stops

theorem takeWhile_to_fragment :
    (text ++ (markedText "#" fragment).toList).takeWhile goesOn = text := by
  cases fragment with
  | none =>
      show (text ++ []).takeWhile goesOn = text
      rw [List.append_nil, List.takeWhile_eq_self_iff.mpr goes]
  | some fragment => rw [toList_markedText '#' rfl, takeWhile_to_stop goes stops]

theorem dropWhile_to_fragment :
    (text ++ (markedText "#" fragment).toList).dropWhile goesOn =
      (markedText "#" fragment).toList := by
  cases fragment with
  | none =>
      show (text ++ []).dropWhile goesOn = []
      rw [List.append_nil, List.dropWhile_eq_nil_iff.mpr goes]
  | some fragment => rw [toList_markedText '#' rfl, dropWhile_to_stop goes stops]

end Fragment

theorem splitTail_fragment
    {path : List Char}
    (goes : ∀ character ∈ path, (!endsPath character) = true)
    (fragment : Option String) :
    splitTail (path ++ (markedText "#" fragment).toList) =
      { path, query := none, fragment := fragment.map String.toList } := by
  unfold splitTail
  simp only [takeWhile_to_fragment goes rfl, dropWhile_to_fragment goes rfl]
  cases fragment with
  | none => rfl
  | some fragment => rw [toList_markedText '#' rfl]; rfl

theorem splitTail_query
    {path query : List Char}
    (goes : ∀ character ∈ path, (!endsPath character) = true)
    (goesQuery : ∀ character ∈ query, (character != '#') = true)
    (fragment : Option String) :
    splitTail (path ++ '?' :: (query ++ (markedText "#" fragment).toList)) =
      { path, query := some query, fragment := fragment.map String.toList } := by
  have stops : (!endsPath '?') = false := rfl
  have stopsQuery : ('#' != '#') = false := by decide
  unfold splitTail
  simp only [takeWhile_to_stop goes stops, dropWhile_to_stop goes stops,
    takeWhile_to_fragment goesQuery stopsQuery, dropWhile_to_fragment goesQuery stopsQuery]
  cases fragment with
  | none => rfl
  | some fragment => rw [toList_markedText '#' rfl]; rfl

theorem Canonical.splitTail_eq [DomainCoding] {url : Url} (canonical : Canonical url) :
    splitTail (tailCharacters url) =
      { path := url.path.text.toList
        query := url.query.map String.toList
        fragment := url.fragment.map String.toList } := by
  have goes : ∀ character ∈ url.path.text.toList, (!endsPath character) = true := by
    intro character inside
    have free := canonical.path.of_mem_text inside
    simp only [endsPath, Bool.not_eq_true', Bool.or_eq_false_iff, beq_eq_false_iff_ne]
    exact ⟨EncodeSet.ne free rfl, EncodeSet.ne free rfl⟩
  unfold tailCharacters
  cases isQuery : url.query with
  | none => exact splitTail_fragment goes url.fragment
  | some query =>
      have goesQuery : ∀ character ∈ query.toList, (character != '#') = true :=
        fun character inside =>
          bne_iff_ne.mpr (EncodeSet.ne (canonical.query query isQuery character inside) rfl)
      rw [toList_markedText '?' rfl, List.cons_append]
      exact splitTail_query goes goesQuery url.fragment

/-! ### Whole URLs -/

theorem toList_text
    {url : Url}
    {host : Host}
    (isHost : url.host = some host) :
    url.text.toList = url.scheme.toList ++
      ':' :: '/' :: '/' :: (authorityCharacters url host ++ tailCharacters url) := by
  have authority : url.authorityText.toList = '/' :: '/' :: authorityCharacters url host := by
    unfold authorityText authorityCharacters
    rw [isHost]
    cases url.port with
    | none => simp [portCharacters]
    | some number =>
        simp only [String.toList_append, toList_toString, portCharacters]
        simp
  simp only [Url.text, String.toList_append, authority, tailCharacters]
  simp

theorem isVisible_of_mem_markedText
    {mark : String}
    (first : Char)
    (isMark : mark.toList = [first])
    (visible : IsVisible first)
    {part : Option String}
    (parts : ∀ text, part = some text → ∀ character ∈ text.toList, IsVisible character)
    {character : Char}
    (member : character ∈ (markedText mark part).toList) :
    IsVisible character := by
  cases part with
  | none => cases member
  | some text =>
      rw [toList_markedText first isMark] at member
      rcases List.mem_cons.mp member with rfl | inside
      · exact visible
      · exact parts text rfl character inside

theorem Canonical.isVisible_of_mem_tailCharacters
    [DomainCoding]
    {url : Url}
    (canonical : Canonical url)
    {character : Char}
    (member : character ∈ tailCharacters url) :
    IsVisible character := by
  simp only [tailCharacters, List.mem_append] at member
  rcases member with inPath | inQuery | inFragment
  · exact isVisible_of_fragmentSet (fragmentSet_of_pathSet (canonical.path.of_mem_text inPath))
  · refine isVisible_of_mem_markedText '?' rfl (by decide) ?_ inQuery
    exact fun query isQuery character inside =>
      isVisible_of_specialQuerySet (canonical.query query isQuery character inside)
  · refine isVisible_of_mem_markedText '#' rfl (by decide) ?_ inFragment
    exact fun fragment isFragment character inside =>
      isVisible_of_fragmentSet (canonical.fragment fragment isFragment character inside)

theorem SpeaksHttp.isVisible
    {scheme : String}
    (speaks : SpeaksHttp scheme) :
    ∀ character ∈ scheme.toList ++ [':', '/', '/'], IsVisible character := by
  rcases speaks with rfl | rfl <;> exact List.all_iff_forall_prop.mp (by decide)

/-- A canonical URL is written in visible characters. -/
theorem Canonical.isVisible_of_mem_text
    [DomainCoding]
    {url : Url}
    (canonical : Canonical url)
    {character : Char}
    (member : character ∈ url.text.toList) :
    IsVisible character := by
  obtain ⟨host, isHost, -⟩ := canonical.host
  have cut : url.text.toList = (url.scheme.toList ++ [':', '/', '/']) ++
      (authorityCharacters url host ++ tailCharacters url) := by
    rw [toList_text isHost]
    simp
  rw [cut] at member
  rcases List.mem_append.mp member with inScheme | later
  · exact canonical.speaks.isVisible character inScheme
  · rcases List.mem_append.mp later with inAuthority | inTail
    · exact (canonical.inAuthority isHost character inAuthority).visible
    · exact canonical.isVisible_of_mem_tailCharacters inTail

theorem cleaned_of_visible {text : List Char} (visible : ∀ character ∈ text, IsVisible character) :
    cleaned text = text := by
  have plain : Plain text := by
    intro character inside
    have least := (visible character inside).1
    simp only [isEdge, decide_eq_false_iff_not]
    omega
  rw [cleaned, plain.dropWhile, plain.reverse.dropWhile, List.reverse_reverse, plain.filter]

theorem SpeaksHttp.splitScheme?_eq
    {scheme : String}
    (speaks : SpeaksHttp scheme)
    (rest : List Char) :
    splitScheme? (scheme.toList ++ ':' :: rest) = some (scheme, rest) := by
  rcases speaks with rfl | rfl <;> rfl

theorem Canonical.ofAuthorityText_eq
    [DomainCoding]
    {url : Url}
    (canonical : Canonical url)
    {host : Host}
    (isHost : url.host = some host) :
    ofAuthorityText url.scheme (authorityCharacters url host ++ tailCharacters url) = .ok url := by
  have goes : ∀ character ∈ authorityCharacters url host,
      (!endsAuthority true character) = true := by
    intro character inside
    rw [(canonical.inAuthority isHost character inside).goesOn]
    rfl
  have stops : (!endsAuthority true '/') = false := rfl
  obtain ⟨rest, isTail⟩ : ∃ rest, tailCharacters url = '/' :: rest := by
    obtain ⟨segments, isPath, notEmpty, -⟩ := canonical.path
    rw [tailCharacters, isPath, toList_pathText notEmpty]
    exact ⟨_, rfl⟩
  have before := takeWhile_to_stop goes stops rest
  have after := dropWhile_to_stop goes stops rest
  rw [← isTail] at before after
  have query : queryText true (url.query.map String.toList) = url.query := by
    cases isQuery : url.query with
    | none => rfl
    | some query =>
        simp [queryText, (canonical.query query isQuery).encode_eq, String.ofList_toList]
  have fragment : fragmentText (url.fragment.map String.toList) = url.fragment := by
    cases isFragment : url.fragment with
    | none => rfl
    | some fragment =>
        simp [fragmentText, (canonical.fragment fragment isFragment).encode_eq,
          String.ofList_toList]
  unfold ofAuthorityText
  simp only [canonical.speaks.special, before, after, canonical.parseAuthority_eq isHost,
    canonical.splitTail_eq, canonical.path.rootPath_eq, query, fragment, ← isHost]

/-- A canonical URL is read back from its text. -/
theorem Canonical.parse_text [DomainCoding] {url : Url} (canonical : Canonical url) :
    parse url.text = .ok url := by
  obtain ⟨host, isHost, -⟩ := canonical.host
  have counted := cleaned_of_visible fun _ => canonical.isVisible_of_mem_text
  -- Every slash after the colon is passed over, so the authority must begin with none.
  have slashes : ('/' :: '/' :: (authorityCharacters url host ++ tailCharacters url)).dropWhile
      (isSlash true) = authorityCharacters url host ++ tailCharacters url := by
    have someAuthority : authorityCharacters url host ≠ [] := by
      simp [authorityCharacters, (canonical.canonicalHost isHost).notEmpty]
    obtain ⟨first, others, isAuthority⟩ := List.exists_cons_of_ne_nil someAuthority
    have goesOn := (canonical.inAuthority isHost first (by simp [isAuthority])).goesOn
    have noSlash : isSlash true first = false := by
      simp only [endsAuthority, Bool.or_eq_false_iff] at goesOn
      exact goesOn.1.1
    have slash : isSlash true '/' = true := rfl
    rw [isAuthority, List.cons_append, List.dropWhile_cons_of_pos slash,
      List.dropWhile_cons_of_pos slash,
      List.dropWhile_cons_of_neg (Bool.eq_false_iff.mp noSlash)]
  rw [parse, counted, toList_text isHost, canonical.speaks.splitScheme?_eq]
  simp only
  rw [canonical.speaks.ofSchemeText_eq, slashes, canonical.ofAuthorityText_eq isHost]

/-! ### Directories -/

/-- A canonical URL stays canonical when its path ends in a slash. -/
theorem Canonical.withFinalSlash [DomainCoding] {url : Url} (canonical : Canonical url) :
    Canonical url.withFinalSlash := by
  obtain ⟨segments, isPath, notEmpty, each⟩ := canonical.path
  rw [Url.withFinalSlash, isPath]
  simp only
  split
  case isTrue => exact canonical
  case isFalse =>
    exact {
      speaks := canonical.speaks
      username := canonical.username
      password := canonical.password
      host := canonical.host
      port := canonical.port
      path := by
        refine ⟨segments ++ [""], rfl, by simp, ?_⟩
        exact List.forall_mem_append.mpr
          ⟨each, List.forall_mem_singleton.mpr canonicalSegment_empty⟩
      query := canonical.query
      fragment := canonical.fragment }

end Precis.Url
