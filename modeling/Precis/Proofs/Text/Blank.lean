import Mathlib.Data.List.Basic
import Precis.Text.Blank

/-!
Contract: what trimming leaves alone.

Owns that blanks which are put around a text do not survive trimming, and that
a text without blanks is not changed by it.

Does not own when nothing is left.
-/

namespace Precis.Text

/-- Characters that are all white space. -/
def Blank (characters : List Char) : Prop :=
  ∀ character ∈ characters, isBlank character = true

theorem Blank.trimStart_append
    {before : List Char}
    (blank : Blank before)
    (text : List Char) :
    trimStart (before ++ text) = trimStart text :=
  List.dropWhile_append_of_pos blank

theorem Blank.trimEnd_append
    {after : List Char}
    (blank : Blank after)
    (text : List Char) :
    trimEnd (text ++ after) = trimEnd text := by
  have reversed : ∀ character ∈ after.reverse, isBlank character = true :=
    fun character inside => blank character (List.mem_reverse.mp inside)
  rw [trimEnd, List.reverse_append, List.dropWhile_append_of_pos reversed, trimEnd]

/-- Blanks around a text do not survive. -/
theorem trim_between_blanks
    {before after : List Char}
    (blankBefore : Blank before)
    (blankAfter : Blank after)
    (text : String) :
    trim (String.ofList (before ++ text.toList ++ after)) = trim text := by
  have ended : trimEnd (trimStart (text.toList ++ after)) = trimEnd (trimStart text.toList) := by
    have onlyBlanks : trimStart after = [] :=
      dropWhile_eq_nil_iff.mpr (List.all_eq_true.mpr blankAfter)
    have append : trimStart (text.toList ++ after) =
        if (trimStart text.toList).isEmpty then trimStart after
        else trimStart text.toList ++ after :=
      List.dropWhile_append
    rw [append]
    split
    case isTrue empty => rw [onlyBlanks, List.isEmpty_iff.mp empty]
    case isFalse => exact blankAfter.trimEnd_append _
  rw [trim, trim, String.toList_ofList, List.append_assoc, blankBefore.trimStart_append, ended]

/-- A text without blanks stays as it is. -/
theorem trim_eq_self
    {text : String}
    (noBlank : ∀ character ∈ text.toList, isBlank character = false) :
    trim text = text := by
  have kept {characters : List Char}
      (noBlank : ∀ character ∈ characters, isBlank character = false) :
      characters.dropWhile isBlank = characters := by
    cases characters with
    | nil => rfl
    | cons first rest =>
        exact List.dropWhile_cons_of_neg (Bool.eq_false_iff.mp (noBlank first List.mem_cons_self))
  have reversed : ∀ character ∈ text.toList.reverse, isBlank character = false :=
    fun character inside => noBlank character (List.mem_reverse.mp inside)
  rw [trim, trimStart, trimEnd, kept noBlank, kept reversed, List.reverse_reverse,
    String.ofList_toList]

end Precis.Text
