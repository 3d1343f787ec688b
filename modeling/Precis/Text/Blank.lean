/-!
Contract: blank characters and trimming.

This module owns the set of characters that count as white space (the Unicode
property of that name) and the two operations built on it: cutting blanks from
both ends of a text, and asking whether a text is blank throughout. Everything
that reads a setting, an address or a mail goes through these.
-/

namespace Precis.Text

/-- The closed ranges of code points with the Unicode property White_Space. -/
def blankRanges : List (Nat × Nat) :=
  [(0x09, 0x0d), (0x20, 0x20), (0x85, 0x85), (0xa0, 0xa0), (0x1680, 0x1680),
    (0x2000, 0x200a), (0x2028, 0x2029), (0x202f, 0x202f), (0x205f, 0x205f),
    (0x3000, 0x3000)]

def isBlank (character : Char) : Bool :=
  blankRanges.any fun range =>
    decide (range.1 ≤ character.toNat) && decide (character.toNat ≤ range.2)

def trimStart (characters : List Char) : List Char :=
  characters.dropWhile isBlank

def trimEnd (characters : List Char) : List Char :=
  (characters.reverse.dropWhile isBlank).reverse

def trim (text : String) : String :=
  String.ofList (trimEnd (trimStart text.toList))

def isBlankText (text : String) : Bool :=
  text.toList.all isBlank

theorem dropWhile_eq_nil_iff {predicate : Char → Bool} {characters : List Char} :
    characters.dropWhile predicate = [] ↔ characters.all predicate := by
  induction characters with
  | nil => simp
  | cons head tail inductionHypothesis =>
      by_cases holds : predicate head <;> simp [holds, inductionHypothesis]

theorem trim_eq_empty_iff {text : String} : trim text = "" ↔ isBlankText text := by
  have empty : trim text = "" ↔ trimEnd (trimStart text.toList) = [] := by
    unfold trim
    constructor
    · intro equal
      have := congrArg String.toList equal
      simpa using this
    · intro equal
      rw [equal]
  rw [empty]
  unfold trimEnd isBlankText
  rw [List.reverse_eq_nil_iff, dropWhile_eq_nil_iff, List.all_reverse]
  constructor
  · intro all
    by_cases nothing : trimStart text.toList = []
    · exact dropWhile_eq_nil_iff.mp nothing
    · obtain ⟨head, tail, equal⟩ := List.exists_cons_of_ne_nil nothing
      have headKept : isBlank head = false := by
        unfold trimStart at equal
        have := List.head_dropWhile_not isBlank (l := text.toList) (by rw [equal]; simp)
        simpa [equal] using this
      rw [equal] at all
      simp [headKept] at all
  · intro all
    have : trimStart text.toList = [] := dropWhile_eq_nil_iff.mpr all
    simp [this]

end Precis.Text
