import Precis.Proofs.Text.Integer
import Precis.Proofs.Url.RoundTrip

/-!
Contract: URLs as they are written.

Owns a grammar of schemes and of authorities, and what an authority spells;
that a text which begins with a scheme of HTTP and an authority is read as a URL
of that scheme and of what the authority spells, or as none; and which host a
scheme is read as where a host is expected.

Does not own what may follow an authority.
-/

namespace Precis.Url

/-! ### A grammar of schemes and authorities -/

/-- A scheme: a letter, and after it what may stand in a scheme. -/
structure IsSchemeText (text : List Char) : Prop where
  letter : ∃ first rest, text = first :: rest ∧ first.isAlpha = true
  goesOn : ∀ character ∈ text, isSchemeChar character = true

/-- A host: no mark of an authority stands in it, unless it is put in brackets. -/
inductive IsHostText : List Char → Prop
  | plain
      {text : List Char}
      (noMark : ∀ character ∈ text, character ∉ [':', '[', ']', '@']) :
      IsHostText text
  | brackets
      {inner : List Char}
      (noMark : ∀ character ∈ inner, character ∉ ['[', ']', '@']) :
      IsHostText ('[' :: (inner ++ [']']))

/-- An authority in its parts: perhaps a user name, with or without a password,
a host, and perhaps the digits of a port. -/
structure AuthorityText where
  credentials : Option (List Char × Option (List Char))
  host : List Char
  port : Option (List Char)

namespace AuthorityText

/-- Credentials with the marks in them and after them. -/
def writtenCredentials : Option (List Char × Option (List Char)) → List Char
  | none => []
  | some (name, none) => name ++ ['@']
  | some (name, some password) => name ++ ':' :: (password ++ ['@'])

/-- A port with the mark in front of it. -/
def writtenPort : Option (List Char) → List Char
  | none => []
  | some digits => ':' :: digits

/-- An authority as it is written. -/
def characters (text : AuthorityText) : List Char :=
  writtenCredentials text.credentials ++ (text.host ++ writtenPort text.port)

/-- The user name and the password as a URL holds them. -/
def credentialsOf : Option (List Char × Option (List Char)) → String × Option String
  | none => ("", none)
  | some (name, none) => (String.ofList (encode userinfoSet name), none)
  | some (name, some password) =>
      (String.ofList (encode userinfoSet name),
        if password.isEmpty then none else some (String.ofList (encode userinfoSet password)))

/-- The marks of an authority can be told from its parts. -/
structure IsValid (text : AuthorityText) : Prop where
  notEmpty : text.characters ≠ []
  name : ∀ name password, text.credentials = some (name, password) → ':' ∉ name
  host : IsHostText text.host
  port : ∀ digits, text.port = some digits → ∀ character ∈ digits, character.isDigit = true
  plain : Plain text.characters
  goesOn : ∀ character ∈ text.characters, endsAuthority true character = false

end AuthorityText

/-- Which port the text of a port spells under a scheme: none without digits, or
where the number is the one that the scheme has anyway. -/
inductive SpellsPort (scheme : String) : Option (List Char) → Option Nat → Prop
  | absent : SpellsPort scheme none none
  | empty : SpellsPort scheme (some []) none
  | default
      {digits : List Char}
      {number : Nat}
      (numeral : Text.Numeral digits number)
      (isDefault : defaultPort? scheme = some number) :
      SpellsPort scheme (some digits) none
  | number
      {digits : List Char}
      {number : Nat}
      (numeral : Text.Numeral digits number)
      (bounded : number ≤ 65535)
      (noDefault : defaultPort? scheme ≠ some number) :
      SpellsPort scheme (some digits) (some number)

/-- The authority of a URL is what a text spells. -/
structure AuthorityText.Spells [DomainCoding] (text : AuthorityText) (url : Url) : Prop where
  credentials : credentialsOf text.credentials = (url.username, url.password)
  host : ∃ host, Host.parse text.host = .ok host ∧ url.host = some host
  port : SpellsPort url.scheme text.port url.port

/-! ### Ports -/

theorem value?_lt_ten_iff {character : Char} {digit : Nat} :
    Text.Hexadecimal.value? character = some digit ∧ digit < 10 ↔
      character.isDigit = true ∧ character.toNat - '0'.toNat = digit := by
  have range : character.isDigit = true ↔ '0' ≤ character ∧ character ≤ '9' := by
    rw [Char.isDigit_iff_toNat]
    exact Iff.rfl
  unfold Text.Hexadecimal.value?
  rw [range]
  split
  case isTrue isDigit =>
    have most : character.toNat ≤ 57 := isDigit.2
    have zero : '0'.toNat = 48 := rfl
    simp only [Option.some.injEq, isDigit, true_and, and_iff_left_iff_imp]
    omega
  case isFalse noDigit =>
    simp only [noDigit, false_and, iff_false, not_and, Nat.not_lt]
    intro isValue
    split at isValue
    case isTrue => exact Option.some.inj isValue ▸ Nat.le_add_left _ _
    case isFalse =>
      rw [Option.ite_none_right_eq_some, Option.some.injEq] at isValue
      exact isValue.2 ▸ Nat.le_add_left _ _

theorem digitsValue?_ten_eq_some_iff {digits : List Char} {number : Nat} :
    digitsValue? 10 digits = some number ↔
      (∀ character ∈ digits, character.isDigit = true) ∧
        Nat.ofDigitChars 10 digits 0 = number := by
  induction digits using List.reverseRecOn generalizing number with
  | nil => simp [digitsValue?]
  | append_singleton digits last inductionHypothesis =>
      simp only [digitsValue?_concat_eq_some_iff, inductionHypothesis, List.forall_mem_append,
        List.forall_mem_singleton, Nat.ofDigitChars_append, Nat.ofDigitChars_cons,
        Nat.ofDigitChars_nil]
      constructor
      · rintro ⟨high, low, ⟨digits, rfl⟩, isLow, small, rfl⟩
        obtain ⟨isDigit, rfl⟩ := value?_lt_ten_iff.mp ⟨isLow, small⟩
        exact ⟨⟨digits, isDigit⟩, by rw [Nat.mul_comm]⟩
      · rintro ⟨⟨digits, isDigit⟩, rfl⟩
        obtain ⟨isLow, small⟩ := value?_lt_ten_iff.mpr ⟨isDigit, rfl⟩
        exact ⟨_, _, ⟨digits, rfl⟩, isLow, small, by rw [Nat.mul_comm]⟩

theorem le_of_defaultPort?
    {scheme : String}
    {port : Nat}
    (isDefault : defaultPort? scheme = some port) :
    port ≤ 65535 := by
  unfold defaultPort? at isDefault
  grind

theorem digitsValue?_eq_some_iff_numeral
    {digits : List Char}
    {number : Nat}
    (notEmpty : digits ≠ []) :
    digitsValue? 10 digits = some number ↔ Text.Numeral digits number := by
  rw [digitsValue?_ten_eq_some_iff]
  exact ⟨fun ⟨areDigits, value⟩ => ⟨notEmpty, areDigits, value⟩,
    fun numeral => ⟨numeral.digits, numeral.value⟩⟩

theorem parsePort_of_numeral
    {digits : List Char}
    {number : Nat}
    (numeral : Text.Numeral digits number)
    (scheme : String) :
    parsePort scheme digits =
      if 65535 < number then .error .invalidPort
      else if defaultPort? scheme = some number then .ok none
      else .ok (some number) := by
  have someDigits : digits.isEmpty = false := List.isEmpty_eq_false_iff.mpr numeral.notEmpty
  have value := (digitsValue?_eq_some_iff_numeral numeral.notEmpty).mpr numeral
  unfold parsePort
  simp only [someDigits, value, Bool.false_eq_true, if_false]

/-- Digits are read as the port that they spell, or as none. -/
theorem parsePort_eq_ok_iff
    {scheme : String}
    {digits : List Char}
    {port : Option Nat} :
    parsePort scheme digits = .ok port ↔ SpellsPort scheme (some digits) port := by
  constructor
  · intro parsed
    by_cases notEmpty : digits ≠ []
    · cases isNumber : digitsValue? 10 digits with
      | none => simp [parsePort, notEmpty, isNumber] at parsed
      | some number =>
          have numeral := (digitsValue?_eq_some_iff_numeral notEmpty).mp isNumber
          rw [parsePort_of_numeral numeral] at parsed
          split at parsed
          case isTrue => cases parsed
          case isFalse bounded =>
            split at parsed
            case isTrue isDefault =>
              obtain rfl := Except.ok.inj parsed
              exact .default numeral isDefault
            case isFalse noDefault =>
              obtain rfl := Except.ok.inj parsed
              exact .number numeral (Nat.le_of_not_lt bounded) noDefault
    · obtain rfl : digits = [] := Classical.not_not.mp notEmpty
      obtain rfl := Except.ok.inj parsed
      exact .empty
  · intro spells
    cases spells with
    | empty => rfl
    | default numeral isDefault =>
        have bounded := le_of_defaultPort? isDefault
        rw [parsePort_of_numeral numeral, if_neg (Nat.not_lt.mpr bounded), if_pos isDefault]
    | number numeral bounded noDefault =>
        rw [parsePort_of_numeral numeral, if_neg (Nat.not_lt.mpr bounded), if_neg noDefault]

theorem SpellsPort.eq_none_of_empty
    {scheme : String}
    {port : Option Nat}
    (spells : SpellsPort scheme (some []) port) :
    port = none := by
  cases spells with
  | empty => rfl
  | default numeral => rfl
  | number numeral => exact absurd rfl numeral.notEmpty

theorem parsePort_writtenPort_eq_ok_iff
    {scheme : String}
    {text : Option (List Char)}
    {port : Option Nat} :
    parsePort scheme ((AuthorityText.writtenPort text).drop 1) = .ok port ↔
      SpellsPort scheme text port := by
  cases text with
  | some digits => exact parsePort_eq_ok_iff
  | none =>
      show Except.ok none = Except.ok port ↔ _
      constructor
      · intro absent
        obtain rfl := Except.ok.inj absent
        exact .absent
      · rintro ⟨⟩
        rfl

/-! ### Authorities -/

section Credentials

variable {name : List Char} (noColon : ':' ∉ name)

include noColon

theorem ne_colon_of_mem : ∀ character ∈ name, (character != ':') = true := by
  intro character inside
  apply bne_iff_ne.mpr
  rintro rfl
  exact noColon inside

theorem parseCredentials_password_of_not_mem (password : List Char) :
    parseCredentials (name ++ ':' :: password) =
      AuthorityText.credentialsOf (some (name, some password)) := by
  have goes := ne_colon_of_mem noColon
  have stops : (':' != ':') = false := by decide
  simp only [parseCredentials, takeWhile_to_stop goes stops, dropWhile_to_stop goes stops]
  rfl

theorem parseCredentials_name_of_not_mem :
    parseCredentials name = AuthorityText.credentialsOf (some (name, none)) := by
  have goes := ne_colon_of_mem noColon
  have whole : name.takeWhile (· != ':') = name := List.takeWhile_eq_self_iff.mpr goes
  have nothing : name.dropWhile (· != ':') = [] := List.dropWhile_eq_nil_iff.mpr goes
  simp only [parseCredentials, whole, nothing]
  rfl

end Credentials

theorem parse_nil [DomainCoding] [LawfulDomainCoding] : Host.parse [] = .error .emptyHost := by
  have decoded := decode?_decodeBytes_encode (List.forall_mem_nil _)
  simp only [Host.parse, decoded, Option.bind_some, ascii?_nil]

theorem IsHostText.noAt {host : List Char} (isHost : IsHostText host) : '@' ∉ host := by
  cases isHost with
  | plain noMark => exact fun member => noMark '@' member (by decide)
  | brackets noMark =>
      simp only [List.mem_cons, List.mem_append, List.not_mem_nil, or_false, not_or]
      exact ⟨by decide, fun member => noMark '@' member (by decide), by decide⟩

theorem IsHostText.splitHost_eq
    {host port : List Char}
    (isHost : IsHostText host)
    (isPort : IsPortText port) :
    splitHost false (host ++ port) = (host, port) := by
  cases isHost with
  | plain noMark =>
      apply splitHost_plain _ isPort
      intro character inside
      have noMark := noMark character inside
      simp only [List.mem_cons, List.not_mem_nil, or_false, not_or] at noMark
      exact ⟨noMark.1, noMark.2.1, noMark.2.2.1⟩
  | brackets noMark =>
      rw [List.cons_append, List.append_assoc, List.singleton_append]
      apply splitHost_brackets _ isPort
      intro character inside
      have noMark := noMark character inside
      simp only [List.mem_cons, List.not_mem_nil, or_false, not_or] at noMark
      exact ⟨noMark.1, noMark.2.1⟩

namespace AuthorityText

theorem isPortText_writtenPort (port : Option (List Char)) :
    IsPortText (writtenPort port) := by
  cases port with
  | none => exact .none
  | some digits => exact .digits digits

theorem cutCredentials_append
    {credentials : Option (List Char × Option (List Char))}
    (noColon : ∀ name password, credentials = some (name, password) → ':' ∉ name)
    {place : List Char}
    (noAt : '@' ∉ place) :
    cutCredentials (writtenCredentials credentials ++ place) =
      (credentialsOf credentials, place) := by
  match credentials with
  | none =>
      rw [writtenCredentials, List.nil_append, cutCredentials, splitLastAt_of_not_mem noAt]
      rfl
  | some (name, none) =>
      rw [writtenCredentials, List.append_assoc, List.singleton_append, cutCredentials,
        splitLastAt_append noAt]
      simp only [parseCredentials_name_of_not_mem (noColon name none rfl)]
  | some (name, some password) =>
      have written : writtenCredentials (some (name, some password)) ++ place =
          (name ++ ':' :: password) ++ '@' :: place := by
        simp [writtenCredentials]
      rw [written, cutCredentials, splitLastAt_append noAt]
      simp only [parseCredentials_password_of_not_mem (noColon name (some password) rfl)]

variable {text : AuthorityText}

theorem IsValid.noAt (valid : text.IsValid) : '@' ∉ text.host ++ writtenPort text.port := by
  rw [List.mem_append, not_or]
  refine ⟨valid.host.noAt, ?_⟩
  have digits := valid.port
  cases isPort : text.port with
  | none => exact List.not_mem_nil
  | some port =>
      intro member
      rcases List.mem_cons.mp member with isColon | inside
      · cases isColon
      · exact absurd (digits port isPort '@' inside) (by decide)

/-- Every slash after the colon is passed over, and an authority begins with none. -/
theorem IsValid.dropWhile_slashes (valid : text.IsValid) (rest : List Char) :
    ('/' :: '/' :: (text.characters ++ rest)).dropWhile (isSlash true) =
      text.characters ++ rest := by
  obtain ⟨first, others, isText⟩ := List.exists_cons_of_ne_nil valid.notEmpty
  have goesOn := valid.goesOn first (by simp [isText])
  have noSlash : isSlash true first = false := by
    simp only [endsAuthority, Bool.or_eq_false_iff] at goesOn
    exact goesOn.1.1
  have slash : isSlash true '/' = true := rfl
  rw [isText, List.cons_append, List.dropWhile_cons_of_pos slash,
    List.dropWhile_cons_of_pos slash,
    List.dropWhile_cons_of_neg (Bool.eq_false_iff.mp noSlash)]

section Reading

variable (valid : text.IsValid) {scheme : String} (speaks : SpeaksHttp scheme)

include valid speaks

/-- An authority is read as what its text spells. -/
theorem IsValid.parseAuthority_eq_ok_iff
    [DomainCoding]
    [LawfulDomainCoding]
    {authority : Authority} :
    parseAuthority scheme text.characters = .ok authority ↔
      credentialsOf text.credentials = (authority.username, authority.password) ∧
        Host.parse text.host = .ok authority.host ∧
        SpellsPort scheme text.port authority.port := by
  rw [Url.parseAuthority_eq_ok_iff speaks, characters,
    cutCredentials_append valid.name valid.noAt,
    valid.host.splitHost_eq (isPortText_writtenPort text.port),
    parsePort_writtenPort_eq_ok_iff]
  constructor
  · rintro ⟨-, isHost, isPort, areCredentials⟩
    exact ⟨areCredentials, isHost, isPort⟩
  · rintro ⟨areCredentials, isHost, isPort⟩
    refine ⟨?_, isHost, isPort, areCredentials⟩
    intro (empty : text.host = [])
    rw [empty, parse_nil] at isHost
    cases isHost

theorem IsValid.parseAuthority_eq_error
    [DomainCoding]
    [LawfulDomainCoding]
    {cause : ParseError}
    (noHost : Host.parse text.host = .error cause) :
    parseAuthority scheme text.characters = .error cause := by
  rw [Url.parseAuthority_eq speaks, characters, cutCredentials_append valid.name valid.noAt,
    authorityAt, valid.host.splitHost_eq (isPortText_writtenPort text.port)]
  simp only
  split
  case isTrue empty =>
    rw [empty, parse_nil] at noHost
    rw [Except.error.inj noHost]
  case isFalse =>
    rw [noHost]
    rfl

/-- A text that begins with a scheme of HTTP and an authority is read as a URL of
that scheme and that authority. -/
theorem IsValid.exists_parse_eq
    [DomainCoding]
    {whole : String}
    {rest : List Char}
    (begins : whole.toList = scheme.toList ++ "://".toList ++ (text.characters ++ '/' :: rest)) :
    ∃ path query fragment, parse whole =
      (parseAuthority scheme text.characters).map fun authority =>
        { scheme
          username := authority.username
          password := authority.password
          host := some authority.host
          port := authority.port
          path
          query
          fragment } := by
  have plain : Plain (scheme.toList ++ "://".toList ++ (text.characters ++ ['/'])) := by
    have slash : Plain ['/'] := plain_of_all (by decide)
    have beginning : Plain (scheme.toList ++ "://".toList) := by
      rcases speaks with rfl | rfl <;> exact plain_of_all (by decide)
    exact List.forall_mem_append.mpr ⟨beginning, List.forall_mem_append.mpr ⟨valid.plain, slash⟩⟩
  obtain ⟨counted, isCounted⟩ := exists_cleaned_prepend plain (by simp) rest
  have cleaned_eq : cleaned whole.toList =
      scheme.toList ++ ':' :: '/' :: '/' :: (text.characters ++ '/' :: counted) := by
    have same : whole.toList =
        scheme.toList ++ "://".toList ++ (text.characters ++ ['/']) ++ rest := by
      simp [begins]
    rw [same, isCounted]
    simp
  have goes : ∀ character ∈ text.characters, (!endsAuthority true character) = true := by
    intro character inside
    rw [valid.goesOn character inside]
    rfl
  have stops : (!endsAuthority true '/') = false := rfl
  simp only [parse, cleaned_eq, speaks.splitScheme?_eq, speaks.ofSchemeText_eq,
    valid.dropWhile_slashes, ofAuthorityText, speaks.special, takeWhile_to_stop goes stops]
  cases parseAuthority scheme text.characters with
  | error cause => exact ⟨.segments [], none, none, rfl⟩
  | ok authority => exact ⟨_, _, _, rfl⟩

end Reading

end AuthorityText

/-! ### Schemes where a host is expected -/

theorem isSchemeChar_ascii {character : Char} (inside : isSchemeChar character = true) :
    character.toNat < 0x80 := by
  have below (greatest : Char) (ascii : greatest.toNat < 0x80)
      (most : character.val ≤ greatest.val) : character.toNat < 0x80 :=
    Nat.lt_of_le_of_lt (UInt32.le_iff_toNat_le.mp most) ascii
  simp only [isSchemeChar, Bool.or_eq_true, beq_iff_eq] at inside
  rcases inside with ((alphanumeric | rfl) | rfl) | rfl
  · rcases Bool.or_eq_true_iff.mp alphanumeric with letter | digit
    · rcases Bool.or_eq_true_iff.mp letter with upper | lower
      · exact below 'Z' (by decide) (of_decide_eq_true upper).2
      · exact below 'z' (by decide) (of_decide_eq_true (Bool.and_eq_true_iff.mp lower).2)
    · exact Nat.lt_of_le_of_lt (Char.isDigit_iff_toNat.mp digit).2 (by decide)
  all_goals decide

theorem ne_of_isSchemeChar
    {character mark : Char}
    (inside : isSchemeChar character = true)
    (outside : isSchemeChar mark = false) :
    character ≠ mark := by
  rintro rfl
  rw [outside] at inside
  cases inside

theorem isEdge_of_isSchemeChar {character : Char} (inside : isSchemeChar character = true) :
    isEdge character = false :=
  of_ascii (fun character => isSchemeChar character = true → isEdge character = false)
    (by decide) (isSchemeChar_ascii inside) inside

theorem endsAuthority_of_isSchemeChar
    {character : Char}
    (inside : isSchemeChar character = true) :
    endsAuthority true character = false :=
  of_ascii (fun character => isSchemeChar character = true → endsAuthority true character = false)
    (by decide) (isSchemeChar_ascii inside) inside

theorem exists_hostParts_eq_cons
    {first : Char}
    (noDot : first ≠ '.')
    (rest : List Char) :
    ∃ piece others, hostParts (first :: rest) = (first :: piece) :: others := by
  obtain ⟨piece, pieces, isSplit⟩ :=
    List.exists_cons_of_ne_nil (@splitAt_ne_nil (· == '.') rest)
  have cut : splitAt (· == '.') (first :: rest) = (first :: piece) :: pieces := by
    rw [splitAt, if_neg (by simpa using noDot), isSplit]
  unfold hostParts
  simp only [cut]
  split
  case isTrue several =>
    obtain ⟨second, others, rfl⟩ : ∃ second others, pieces = second :: others :=
      List.exists_cons_of_ne_nil (by rintro rfl; simp at several)
    exact ⟨piece, _, rfl⟩
  case isFalse => exact ⟨piece, pieces, rfl⟩

/-- What begins with no digit is no address of four bytes. -/
theorem parseIpv4_of_no_digit
    {first : Char}
    (noDot : first ≠ '.')
    (noDigit : first.isDigit = false)
    (rest : List Char) :
    parseIpv4 (first :: rest) = .error .invalidIpv4 := by
  obtain ⟨piece, others, areParts⟩ := exists_hostParts_eq_cons noDot rest
  have noNumber : ipv4Number? (first :: piece) = none := by
    have noZero : first ≠ '0' := by
      rintro rfl
      cases noDigit
    have noValue : digitsValue? 10 (first :: piece) = none := by
      rw [Option.eq_none_iff_forall_not_mem]
      intro number isNumber
      have digits := (digitsValue?_ten_eq_some_iff.mp isNumber).1 first List.mem_cons_self
      rw [noDigit] at digits
      cases digits
    unfold ipv4Number?
    split <;> simp_all
  have noNumbers : ((first :: piece) :: others).mapM ipv4Number? = none := by
    rw [List.mapM_cons, noNumber]
    rfl
  unfold parseIpv4
  simp only [areParts, noNumbers, Option.bind_none, ite_self]

/-- The authority that is read in a scheme and the colon after it. -/
def ofScheme (scheme : List Char) : AuthorityText :=
  { credentials := none, host := scheme, port := some [] }

theorem characters_ofScheme (scheme : List Char) :
    (ofScheme scheme).characters = scheme ++ [':'] :=
  rfl

theorem IsSchemeText.isValid_ofScheme {scheme : List Char} (isScheme : IsSchemeText scheme) :
    (ofScheme scheme).IsValid where
  notEmpty := by simp [characters_ofScheme]
  name := nofun
  host := by
    apply IsHostText.plain
    intro character inside isMark
    have outside : ∀ mark ∈ [':', '[', ']', '@'], isSchemeChar mark = false :=
      List.all_iff_forall_prop.mp (by decide)
    exact ne_of_isSchemeChar (isScheme.goesOn character inside) (outside character isMark) rfl
  port := by
    rintro digits ⟨⟩
    exact List.forall_mem_nil _
  plain := by
    rw [characters_ofScheme]
    exact List.forall_mem_append.mpr
      ⟨fun character inside => isEdge_of_isSchemeChar (isScheme.goesOn character inside),
        plain_of_all (by decide)⟩
  goesOn := by
    rw [characters_ofScheme]
    exact List.forall_mem_append.mpr
      ⟨fun character inside => endsAuthority_of_isSchemeChar (isScheme.goesOn character inside),
        List.forall_mem_singleton.mpr rfl⟩

/-- A scheme is no address, so it is read as the domain of its letters or as no host. -/
theorem IsSchemeText.eq_domain_of_parse
    [DomainCoding]
    [LawfulDomainCoding]
    {text : List Char}
    (isScheme : IsSchemeText text)
    {host : Host}
    (parsed : Host.parse text = .ok host) :
    host = .domain (String.ofList (text.map Char.toLower)) := by
  obtain ⟨first, rest, rfl, letter⟩ := isScheme.letter
  have inAscii : ∀ character ∈ first :: rest, character.toNat < 0x80 :=
    fun character inside => isSchemeChar_ascii (isScheme.goesOn character inside)
  have decoded := decode?_decodeBytes_encode fun character inside =>
    ⟨inAscii character inside, ne_of_isSchemeChar (isScheme.goesOn character inside) (by decide)⟩
  unfold Host.parse at parsed
  split at parsed
  case h_1 isBracket =>
    obtain ⟨rfl, -⟩ := List.cons.inj isBracket
    cases letter
  case h_2 =>
    rw [decoded, Option.bind_some] at parsed
    split at parsed
    case h_1 => cases parsed
    case h_2 => cases parsed
    case h_3 ascii notEmpty isAscii =>
      have lowered := LawfulDomainCoding.lowered inAscii isAscii
      split at parsed
      case isTrue =>
        have head : first.toLower ≠ '.' ∧ first.toLower.isDigit = false :=
          of_ascii
            (fun character => character.isAlpha = true →
              character.toLower ≠ '.' ∧ character.toLower.isDigit = false)
            (by decide) (inAscii first List.mem_cons_self) letter
        rw [lowered, List.map_cons, parseIpv4_of_no_digit head.1 head.2] at parsed
        cases parsed
      case isFalse =>
        rw [← Except.ok.inj parsed, lowered]

end Precis.Url
