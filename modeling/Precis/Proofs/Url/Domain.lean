import Precis.Proofs.Url.Pieces

/-!
Contract: codings of domains.

Owns what follows from the laws of a coding, and that the plain coding is lawful.

Does not own any other coding.
-/

namespace Precis.Url

/-! ### Small letters -/

/-- What holds of every code in ASCII holds of every character in ASCII. -/
theorem of_ascii
    (property : Char → Prop)
    (each : ∀ code < 0x80, property (Char.ofNat code))
    {character : Char}
    (ascii : character.toNat < 0x80) :
    property character := by
  have holds := each character.toNat ascii
  rwa [Char.ofNat_toNat] at holds

/-- A letter in lower case stays as it is, and nothing else becomes one but a letter. -/
theorem toLower_cases (character : Char) :
    character.toLower = character ∨ 0x61 ≤ character.toLower.toNat := by
  unfold Char.toLower
  split
  case isTrue upper =>
    right
    have least : 0x41 ≤ character.val.toNat := UInt32.le_iff_toNat_le.mp upper.1
    have greatest : character.val.toNat ≤ 0x5a := UInt32.le_iff_toNat_le.mp upper.2
    have distance : ('a'.val - 'A'.val).toNat = 0x20 := by decide
    show 0x61 ≤ (character.val + ('a'.val - 'A'.val)).toNat
    rw [UInt32.toNat_add, distance]
    omega
  case isFalse => exact .inl rfl

theorem toLower_toLower (character : Char) : character.toLower.toLower = character.toLower := by
  rcases toLower_cases character with same | lower
  · rw [same]
    exact same
  · generalize character.toLower = lowered at lower
    unfold Char.toLower
    apply dif_neg
    intro upper
    have greatest : lowered.val.toNat ≤ 0x5a := UInt32.le_iff_toNat_le.mp upper.2
    have least : 0x61 ≤ lowered.val.toNat := lower
    omega

theorem map_toLower_toLower (text : List Char) :
    (text.map Char.toLower).map Char.toLower = text.map Char.toLower := by
  rw [List.map_map]
  exact List.map_congr_left fun character _ => toLower_toLower character

theorem eq_dot_of_toLower {character : Char} (isDot : character.toLower = '.') :
    character = '.' := by
  rcases toLower_cases character with same | lower
  · rw [← same, isDot]
  · rw [isDot] at lower
    exact absurd lower (by decide)

theorem beq_dot_toLower (character : Char) : (character.toLower == '.') = (character == '.') := by
  rw [Bool.eq_iff_iff, beq_iff_eq, beq_iff_eq]
  refine ⟨eq_dot_of_toLower, ?_⟩
  rintro rfl
  decide

theorem splitAt_map_toLower (text : List Char) :
    splitAt (· == '.') (text.map Char.toLower) =
      (splitAt (· == '.') text).map (List.map Char.toLower) := by
  induction text with
  | nil => rfl
  | cons character rest inductionHypothesis =>
      rw [List.map_cons, splitAt, splitAt, beq_dot_toLower, inductionHypothesis]
      split
      case isTrue => rfl
      case isFalse => cases splitAt (· == '.') rest <;> rfl

theorem isCoded_map_toLower (label : List Char) :
    isCoded (label.map Char.toLower) = isCoded label := by
  rw [isCoded, map_toLower_toLower, isCoded]

theorem InDomain.toLower {character : Char} (inDomain : InDomain character) :
    InDomain character.toLower :=
  of_ascii (fun character => InDomain character → InDomain character.toLower)
    (by decide +kernel) inDomain.ascii inDomain

/-! ### Lawful codings -/

section Lawful

variable [DomainCoding] [LawfulDomainCoding]

open DomainCoding LawfulDomainCoding

/-- A domain in ASCII without coded labels has its letters lowered. -/
theorem ascii?_eq_some_of_not_isCoded
    {domain : List Char}
    (inDomain : ∀ character ∈ domain, InDomain character)
    (notCoded : ∀ label ∈ splitAt (· == '.') domain, isCoded label = false) :
    ascii? domain = some (domain.map Char.toLower) := by
  obtain ⟨ascii, isAscii⟩ := Option.isSome_iff_exists.mp (accepted inDomain notCoded)
  rw [isAscii, lowered (fun character inside => (inDomain character inside).ascii) isAscii]

theorem ascii?_nil : ascii? [] = some [] :=
  ascii?_eq_some_of_not_isCoded (List.forall_mem_nil _) (List.forall_mem_singleton.mpr rfl)

end Lawful

/-! ### The plain coding -/

theorem plain_ascii?_eq_some_iff {domain ascii : List Char} :
    DomainCoding.plain.ascii? domain = some ascii ↔
      ascii = domain.map Char.toLower ∧ (∀ character ∈ ascii, InDomain character) ∧
        ∀ label ∈ splitAt (· == '.') ascii, isPlainLabel label = true := by
  show (if _ then some (domain.map Char.toLower) else none) = some ascii ↔ _
  simp only [Option.ite_none_right_eq_some, Option.some.injEq, List.all_eq_true, decide_eq_true_eq]
  constructor
  · rintro ⟨allowed, rfl⟩
    exact ⟨rfl, allowed⟩
  · rintro ⟨rfl, allowed⟩
    exact ⟨allowed, rfl⟩

instance : @LawfulDomainCoding DomainCoding.plain :=
  letI := DomainCoding.plain
  { inDomain := fun isAscii => (plain_ascii?_eq_some_iff.mp isAscii).2.1
    again := by
      intro domain ascii isAscii
      obtain ⟨rfl, allowed⟩ := plain_ascii?_eq_some_iff.mp isAscii
      exact plain_ascii?_eq_some_iff.mpr ⟨(map_toLower_toLower domain).symm, allowed⟩
    lowered := fun _ isAscii => (plain_ascii?_eq_some_iff.mp isAscii).1
    accepted := by
      intro domain inDomain notCoded
      refine Option.isSome_iff_exists.mpr ⟨_, plain_ascii?_eq_some_iff.mpr ⟨rfl, ?_, ?_⟩⟩
      · intro character member
        obtain ⟨original, inside, rfl⟩ := List.mem_map.mp member
        exact (inDomain original inside).toLower
      · intro label member
        rw [splitAt_map_toLower] at member
        obtain ⟨original, known, rfl⟩ := List.mem_map.mp member
        rw [isPlainLabel, isCoded_map_toLower, notCoded original known]
        rfl }

end Precis.Url
