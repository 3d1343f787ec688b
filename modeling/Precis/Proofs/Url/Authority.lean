import Mathlib.Data.List.Basic
import Precis.Proofs.Result
import Precis.Url.Parse

/-!
Contract: how far a URL depends on the end of its text.

Owns that a scheme at the beginning of a text is read whatever follows, and
that what is appended to a text after a slash changes neither the scheme nor
where the URL connects to.

Does not own paths, queries and fragments.
-/

namespace Precis.Url

/-! ### Texts that are freed of their ends -/

/-- Characters that count wherever they stand. -/
def Plain (characters : List Char) : Prop :=
  ∀ character ∈ characters, isEdge character = false

theorem plain_of_all {characters : List Char}
    (all : (characters.all fun character => !isEdge character) = true) : Plain characters := by
  intro character inside
  have plain := List.all_eq_true.mp all character inside
  simpa using plain

theorem isSkipped_of_isEdge {character : Char} (plain : isEdge character = false) :
    isSkipped character = false := by
  by_cases skipped : isSkipped character = true
  · simp only [isSkipped, Bool.or_eq_true, beq_iff_eq] at skipped
    rcases skipped with (rfl | rfl) | rfl <;> cases plain
  · exact Bool.eq_false_iff.mpr skipped

theorem Plain.filter {characters : List Char} (plain : Plain characters) :
    (characters.filter fun character => !isSkipped character) = characters := by
  apply List.filter_eq_self.mpr
  intro character inside
  rw [isSkipped_of_isEdge (plain character inside)]
  rfl

theorem Plain.dropWhile {characters : List Char} (plain : Plain characters) :
    characters.dropWhile isEdge = characters := by
  cases characters with
  | nil => rfl
  | cons first rest => rw [List.dropWhile_cons, plain first List.mem_cons_self]; rfl

theorem Plain.dropWhile_append
    {characters : List Char}
    (plain : Plain characters)
    (notEmpty : characters ≠ [])
    (rest : List Char) :
    (characters ++ rest).dropWhile isEdge = characters ++ rest := by
  cases characters with
  | nil => exact absurd rfl notEmpty
  | cons first others =>
      rw [List.cons_append, List.dropWhile_cons, plain first List.mem_cons_self]
      rfl

theorem Plain.reverse {characters : List Char} (plain : Plain characters) :
    Plain characters.reverse :=
  fun character inside => plain character (List.mem_reverse.mp inside)

/-- A plain beginning stays where it is. -/
theorem exists_cleaned_prepend
    {beginning : List Char}
    (plain : Plain beginning)
    (notEmpty : beginning ≠ [])
    (text : List Char) :
    ∃ rest, cleaned (beginning ++ text) = beginning ++ rest := by
  rw [cleaned, plain.dropWhile_append notEmpty, List.reverse_append, List.dropWhile_append]
  split
  case isTrue =>
    refine ⟨[], ?_⟩
    rw [plain.reverse.dropWhile, List.reverse_reverse, plain.filter, List.append_nil]
  case isFalse =>
    rw [List.reverse_append, List.reverse_reverse, List.filter_append, plain.filter]
    exact ⟨_, rfl⟩

/-- A plain end stays where it is, and so does what counts before it. -/
theorem cleaned_append
    {ending : List Char}
    (plain : Plain ending)
    (notEmpty : ending ≠ [])
    (text : List Char) :
    cleaned (text ++ ending) =
      ((text.dropWhile isEdge).filter fun character => !isSkipped character) ++ ending := by
  have reversed : ending.reverse ≠ [] := by simpa using notEmpty
  have dropped : (text ++ ending).dropWhile isEdge = text.dropWhile isEdge ++ ending := by
    rw [List.dropWhile_append]
    split
    case isTrue empty =>
      rw [List.isEmpty_iff.mp empty, plain.dropWhile, List.nil_append]
    case isFalse => rfl
  rw [cleaned, dropped, List.reverse_append, plain.reverse.dropWhile_append reversed,
    List.reverse_append, List.reverse_reverse, List.reverse_reverse, List.filter_append,
    plain.filter]

/-! ### Schemes -/

theorem takeWhile_append_of_stop
    {goesOn : Char → Bool}
    {stop : Char}
    (stops : goesOn stop = false)
    (text ending : List Char) :
    (text ++ stop :: ending).takeWhile goesOn = text.takeWhile goesOn := by
  induction text with
  | nil => rw [List.nil_append, List.takeWhile_cons, stops]; rfl
  | cons first rest inductionHypothesis =>
      rw [List.cons_append, List.takeWhile_cons, List.takeWhile_cons, inductionHypothesis]

theorem dropWhile_append_of_stop
    {goesOn : Char → Bool}
    {stop : Char}
    (stops : goesOn stop = false)
    (text ending : List Char) :
    (text ++ stop :: ending).dropWhile goesOn = text.dropWhile goesOn ++ stop :: ending := by
  induction text with
  | nil => rw [List.nil_append, List.dropWhile_cons, stops]; rfl
  | cons first rest inductionHypothesis =>
      rw [List.cons_append, List.dropWhile_cons, List.dropWhile_cons, inductionHypothesis]
      split <;> rfl

/-- What follows a slash is no part of a scheme. -/
theorem splitScheme?_append_slash (text ending : List Char) :
    splitScheme? (text ++ '/' :: ending) =
      (splitScheme? text).map fun split => (split.1, split.2 ++ '/' :: ending) := by
  have stops : isSchemeChar '/' = false := by decide
  cases text with
  | nil => rfl
  | cons first rest =>
      rw [List.cons_append]
      unfold splitScheme?
      simp only
      rw [← List.cons_append, takeWhile_append_of_stop stops, dropWhile_append_of_stop stops]
      cases first.isAlpha with
      | false => rfl
      | true =>
          cases (first :: rest).dropWhile isSchemeChar with
          | nil => rfl
          | cons mark after =>
              rw [List.cons_append]
              split
              case h_1 found =>
                obtain ⟨rfl, rfl⟩ := List.cons.inj found
                rfl
              case h_2 noColon =>
                split
                case h_1 found =>
                  obtain ⟨rfl, rfl⟩ := List.cons.inj found
                  exact (noColon _ rfl rfl).elim
                case h_2 => rfl

/-! ### Where a URL connects to -/

theorem ofAuthorityText_append_slash
    [DomainCoding]
    (scheme : String)
    (text ending : List Char) :
    (ofAuthorityText scheme (text ++ '/' :: ending)).map (fun url => (url.scheme, url.host)) =
      (parseAuthority scheme
          (text.takeWhile fun character => !endsAuthority (isSpecial scheme) character)).map
        fun authority => (scheme, some authority.host) := by
  have stops : (!endsAuthority (isSpecial scheme) '/') = false := by
    cases isSpecial scheme <;> rfl
  unfold ofAuthorityText
  simp only
  rw [takeWhile_append_of_stop stops]
  cases parseAuthority scheme _ <;> rfl

/-- Whether HTTP is spoken. -/
def SpeaksHttp (scheme : String) : Prop :=
  scheme = "http" ∨ scheme = "https"

theorem SpeaksHttp.special {scheme : String} (speaks : SpeaksHttp scheme) :
    isSpecial scheme = true := by
  rcases speaks with rfl | rfl <;> rfl

theorem SpeaksHttp.ofSchemeText_eq
    [DomainCoding]
    {scheme : String}
    (speaks : SpeaksHttp scheme)
    (text : List Char) :
    ofSchemeText scheme text = ofAuthorityText scheme (text.dropWhile (isSlash true)) := by
  rcases speaks with rfl | rfl <;> rfl

theorem scheme_of_ofAuthorityText
    [DomainCoding]
    {scheme : String}
    {text : List Char}
    {url : Url}
    (read : ofAuthorityText scheme text = .ok url) :
    url.scheme = scheme := by
  unfold ofAuthorityText at read
  simp only at read
  split at read
  case h_1 => cases read
  case h_2 => rw [← Except.ok.inj read]

theorem scheme_of_ofSchemeText
    [DomainCoding]
    {scheme : String}
    {text : List Char}
    {url : Url}
    (read : ofSchemeText scheme text = .ok url) :
    url.scheme = scheme := by
  unfold ofSchemeText at read
  split at read
  case isTrue isFile =>
    rw [isFile]
    unfold ofFileText at read
    simp only at read
    obtain ⟨host, _, isUrl⟩ := map_eq_ok_iff.mp read
    rw [← isUrl]
  case isFalse =>
    split at read
    case isTrue => exact scheme_of_ofAuthorityText read
    case isFalse =>
      split at read
      case h_1 => exact scheme_of_ofAuthorityText read
      case h_2 => rw [← Except.ok.inj read]; rfl

/-- The name of the directory between a base address and a model. -/
def modelsDirectory : List Char := "models".toList

/-- The authority ends before the directory of the models, or it is that directory. -/
theorem exists_dropWhile_isSlash (text : List Char) :
    ∃ authority, ∀ ending, ∃ rest,
      (text ++ '/' :: (modelsDirectory ++ '/' :: ending)).dropWhile (isSlash true) =
        authority ++ '/' :: rest := by
  by_cases onlySlashes : (text.dropWhile (isSlash true)).isEmpty = true
  · refine ⟨modelsDirectory, fun ending => ⟨ending, ?_⟩⟩
    rw [List.dropWhile_append, if_pos onlySlashes]
    rfl
  · refine ⟨text.dropWhile (isSlash true), fun ending => ⟨modelsDirectory ++ '/' :: ending, ?_⟩⟩
    rw [List.dropWhile_append, if_neg onlySlashes]

/-- A URL that speaks HTTP connects to the same host whatever follows the
directory of the models. -/
theorem exists_parse_of_parse
    [DomainCoding]
    {text first second : List Char}
    {url : Url}
    (firstPlain : Plain first)
    (secondPlain : Plain second)
    (parsed : parse (String.ofList (text ++ '/' :: (modelsDirectory ++ '/' :: first))) = .ok url)
    (speaks : SpeaksHttp url.scheme) :
    ∃ other, parse (String.ofList (text ++ '/' :: (modelsDirectory ++ '/' :: second))) =
      .ok other ∧ other.scheme = url.scheme ∧ other.host = url.host := by
  have plain {ending : List Char} (ended : Plain ending) :
      Plain ('/' :: (modelsDirectory ++ '/' :: ending)) := by
    have directory : Plain ('/' :: modelsDirectory ++ ['/']) := plain_of_all (by decide)
    have whole : '/' :: (modelsDirectory ++ '/' :: ending) =
        ('/' :: modelsDirectory ++ ['/']) ++ ending := by simp
    rw [whole]
    intro character inside
    exact (List.mem_append.mp inside).elim (directory character) (ended character)
  have counted {ending : List Char} (ended : Plain ending) :=
    cleaned_append (plain ended) (List.cons_ne_nil _ _) text
  unfold parse at parsed ⊢
  rw [String.toList_ofList, counted firstPlain, splitScheme?_append_slash] at parsed
  rw [String.toList_ofList, counted secondPlain, splitScheme?_append_slash]
  generalize splitScheme? _ = split at parsed ⊢
  cases split with
  | none => cases parsed
  | some split =>
      obtain ⟨scheme, rest⟩ := split
      simp only [Option.map_some] at parsed ⊢
      obtain rfl := scheme_of_ofSchemeText parsed
      obtain ⟨authority, same⟩ := exists_dropWhile_isSlash rest
      obtain ⟨firstRest, firstSame⟩ := same first
      obtain ⟨secondRest, secondSame⟩ := same second
      rw [speaks.ofSchemeText_eq, firstSame] at parsed
      rw [speaks.ofSchemeText_eq, secondSame]
      have firstPlace := ofAuthorityText_append_slash url.scheme authority firstRest
      have secondPlace := ofAuthorityText_append_slash url.scheme authority secondRest
      rw [← firstPlace, parsed] at secondPlace
      obtain ⟨other, otherParsed, place⟩ := map_eq_ok_iff.mp secondPlace
      exact ⟨other, otherParsed, (Prod.mk.inj place).1, (Prod.mk.inj place).2⟩

end Precis.Url
