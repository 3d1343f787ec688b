import Mathlib.Data.List.Forall2
import Mathlib.Data.List.TakeWhile
import Precis.Url.Parse

/-!
Contract: texts that are cut at marks.

Owns that pieces which are joined by a separator that none of them holds are
cut apart again, and what a piece may hold; when pieces are read one by one;
that an authority is cut at its last at sign, and a host at the colon of its
port.

Does not own what the pieces mean.
-/

namespace Precis.Url

/-! ### Pieces between separators -/

section Separators

variable {isSeparator : Char → Bool}

theorem splitAt_eq_splitOnP (text : List Char) :
    splitAt isSeparator text = text.splitOnP isSeparator := by
  induction text with
  | nil => rfl
  | cons character rest inductionHypothesis =>
      rw [splitAt, List.splitOnP_cons_eq_if_modifyHead, inductionHypothesis]
      obtain ⟨piece, pieces, isPieces⟩ :=
        List.exists_cons_of_ne_nil (List.splitOnP_ne_nil isSeparator rest)
      rw [isPieces]
      rfl

theorem splitAt_ne_nil (text : List Char) : splitAt isSeparator text ≠ [] := by
  rw [splitAt_eq_splitOnP]
  exact List.splitOnP_ne_nil _ _

theorem splitAt_eq_singleton {text : List Char}
    (whole : ∀ character ∈ text, isSeparator character = false) :
    splitAt isSeparator text = [text] := by
  rw [splitAt_eq_splitOnP]
  exact List.splitOnP_eq_singleton whole

/-- Pieces that hold no separator are cut apart where they were joined. -/
theorem splitAt_intercalate
    {separator : Char}
    (separates : isSeparator separator = true)
    {pieces : List (List Char)}
    (notEmpty : pieces ≠ [])
    (whole : ∀ piece ∈ pieces, ∀ character ∈ piece, isSeparator character = false) :
    splitAt isSeparator ([separator].intercalate pieces) = pieces := by
  induction pieces with
  | nil => exact absurd rfl notEmpty
  | cons first rest inductionHypothesis =>
      rw [List.forall_mem_cons] at whole
      cases rest with
      | nil =>
          rw [List.intercalate_singleton]
          exact splitAt_eq_singleton whole.1
      | cons second others =>
          rw [List.intercalate_cons_cons, List.append_assoc, List.singleton_append,
            splitAt_eq_splitOnP, List.splitOnP_append_cons_of_forall_mem whole.1 _ separates,
            ← splitAt_eq_splitOnP, inductionHypothesis (List.cons_ne_nil _ _) whole.2]

theorem mem_intercalate
    {separator character : Char}
    {pieces : List (List Char)}
    (member : character ∈ [separator].intercalate pieces) :
    character = separator ∨ ∃ piece ∈ pieces, character ∈ piece := by
  induction pieces with
  | nil => cases member
  | cons first rest inductionHypothesis =>
      cases rest with
      | nil =>
          rw [List.intercalate_singleton] at member
          exact .inr ⟨first, List.mem_cons_self, member⟩
      | cons second others =>
          rw [List.intercalate_cons_cons, List.append_assoc, List.mem_append, List.mem_append,
            List.mem_singleton] at member
          rcases member with inFirst | isSeparator | later
          · exact .inr ⟨first, List.mem_cons_self, inFirst⟩
          · exact .inl isSeparator
          · rcases inductionHypothesis later with isSeparator | ⟨piece, known, inside⟩
            · exact .inl isSeparator
            · exact .inr ⟨piece, List.mem_cons_of_mem _ known, inside⟩

/-- A piece holds characters of the text, and no separator. -/
theorem of_mem_splitAt
    {text piece : List Char}
    (member : piece ∈ splitAt isSeparator text)
    {character : Char}
    (inside : character ∈ piece) :
    character ∈ text ∧ isSeparator character = false := by
  induction text generalizing piece with
  | nil =>
      rw [splitAt, List.mem_singleton] at member
      rw [member] at inside
      cases inside
  | cons first rest inductionHypothesis =>
      rw [splitAt] at member
      by_cases separates : isSeparator first = true
      · rw [if_pos separates, List.mem_cons] at member
        rcases member with rfl | member
        · cases inside
        · obtain ⟨found, clean⟩ := inductionHypothesis member inside
          exact ⟨List.mem_cons_of_mem _ found, clean⟩
      · obtain ⟨head, others, isSplit⟩ : ∃ head others, splitAt isSeparator rest = head :: others :=
          List.exists_cons_of_ne_nil (splitAt_ne_nil rest)
        rw [if_neg separates, isSplit] at member
        rcases List.mem_cons.mp member with rfl | member
        · rcases List.mem_cons.mp inside with rfl | inside
          · exact ⟨List.mem_cons_self, Bool.eq_false_iff.mpr separates⟩
          · have first : head ∈ splitAt isSeparator rest := by simp [isSplit]
            obtain ⟨found, clean⟩ := inductionHypothesis first inside
            exact ⟨List.mem_cons_of_mem _ found, clean⟩
        · have later : piece ∈ splitAt isSeparator rest := by simp [isSplit, member]
          obtain ⟨found, clean⟩ := inductionHypothesis later inside
          exact ⟨List.mem_cons_of_mem _ found, clean⟩

end Separators

/-! ### Pieces that are read one by one -/

theorem mapM_eq_some_iff
    {α β : Type}
    {read : α → Option β}
    {pieces : List α}
    {values : List β} :
    pieces.mapM read = some values ↔
      List.Forall₂ (fun piece value => read piece = some value) pieces values := by
  induction pieces generalizing values with
  | nil => simp [eq_comm]
  | cons piece rest inductionHypothesis =>
      simp only [List.mapM_cons, Option.bind_eq_bind, Option.bind_eq_some_iff, Option.pure_def,
        Option.some.injEq, List.forall₂_cons_left_iff, inductionHypothesis]
      constructor
      · rintro ⟨value, isValue, values, areValues, rfl⟩
        exact ⟨value, values, isValue, areValues, rfl⟩
      · rintro ⟨value, values, isValue, areValues, rfl⟩
        exact ⟨value, isValue, values, areValues, rfl⟩

theorem exists_of_mem_mapM
    {α β : Type}
    {read : α → Option β}
    {pieces : List α}
    {values : List β}
    (areValues : pieces.mapM read = some values)
    {value : β}
    (member : value ∈ values) :
    ∃ piece ∈ pieces, read piece = some value := by
  have each := mapM_eq_some_iff.mp areValues
  induction each with
  | nil => cases member
  | cons isValue rest inductionHypothesis =>
      rcases List.mem_cons.mp member with rfl | later
      · exact ⟨_, List.mem_cons_self, isValue⟩
      · obtain ⟨piece, inside, read⟩ := inductionHypothesis (mapM_eq_some_iff.mpr rest) later
        exact ⟨piece, List.mem_cons_of_mem _ inside, read⟩

/-- Values that are each read back from their texts are read back together. -/
theorem mapM_map_eq_some
    {α β : Type}
    {read : α → Option β}
    {write : β → α}
    {values : List β}
    (each : ∀ value ∈ values, read (write value) = some value) :
    (values.map write).mapM read = some values := by
  rw [mapM_eq_some_iff, List.forall₂_map_left_iff, List.forall₂_same]
  exact each

/-! ### Cuts at one mark -/

section Cuts

variable {goesOn : Char → Bool} {text : List Char} {stop : Char}
  (goes : ∀ character ∈ text, goesOn character = true)
  (stops : goesOn stop = false)
  (rest : List Char)

include goes stops

theorem takeWhile_to_stop : (text ++ stop :: rest).takeWhile goesOn = text := by
  rw [List.takeWhile_append_of_pos goes, List.takeWhile_cons_of_neg (Bool.eq_false_iff.mp stops),
    List.append_nil]

theorem dropWhile_to_stop : (text ++ stop :: rest).dropWhile goesOn = stop :: rest := by
  rw [List.dropWhile_append_of_pos goes, List.dropWhile_cons_of_neg (Bool.eq_false_iff.mp stops)]

end Cuts

/-! ### Authorities -/

theorem splitLastAt_of_not_mem {text : List Char} (absent : '@' ∉ text) :
    splitLastAt text = none := by
  have goes : ∀ character ∈ text.reverse, (character != '@') = true := by
    intro character inside
    apply bne_iff_ne.mpr
    rintro rfl
    exact absent (List.mem_reverse.mp inside)
  have nothing : text.reverse.dropWhile (· != '@') = [] := List.dropWhile_eq_nil_iff.mpr goes
  rw [splitLastAt, nothing]

theorem splitLastAt_append {before after : List Char} (absent : '@' ∉ after) :
    splitLastAt (before ++ '@' :: after) = some (before, after) := by
  have goes : ∀ character ∈ after.reverse, (character != '@') = true := by
    intro character inside
    apply bne_iff_ne.mpr
    rintro rfl
    exact absent (List.mem_reverse.mp inside)
  have stops : ('@' != '@') = false := by decide
  have reversed : (before ++ '@' :: after).reverse = after.reverse ++ '@' :: before.reverse := by
    simp
  rw [splitLastAt, reversed, dropWhile_to_stop goes stops, takeWhile_to_stop goes stops]
  simp only [List.reverse_reverse]

/-- A port as it follows a host, or nothing. -/
inductive IsPortText : List Char → Prop
  | none : IsPortText []
  | digits (digits : List Char) : IsPortText (':' :: digits)

theorem splitHost_port {port : List Char} (isPort : IsPortText port) :
    splitHost false port = ([], port) := by
  cases isPort with
  | none => rfl
  | digits digits => rw [splitHost, if_pos ⟨rfl, rfl⟩]

/-- A host outside brackets goes up to the colon of the port. -/
theorem splitHost_plain
    {host port : List Char}
    (plain : ∀ character ∈ host, character ≠ ':' ∧ character ≠ '[' ∧ character ≠ ']')
    (isPort : IsPortText port) :
    splitHost false (host ++ port) = (host, port) := by
  induction host with
  | nil => exact splitHost_port isPort
  | cons character rest inductionHypothesis =>
      rw [List.forall_mem_cons] at plain
      obtain ⟨⟨noColon, noOpening, noClosing⟩, plainRest⟩ := plain
      rw [List.cons_append, splitHost, if_neg fun colon => noColon colon.1]
      simp only [if_neg noOpening, if_neg noClosing, inductionHypothesis plainRest]

/-- A host in brackets goes up to the closing one, whatever colons it holds. -/
theorem splitHost_brackets
    {inner port : List Char}
    (plain : ∀ character ∈ inner, character ≠ '[' ∧ character ≠ ']')
    (isPort : IsPortText port) :
    splitHost false ('[' :: (inner ++ ']' :: port)) = ('[' :: (inner ++ [']']), port) := by
  have inside : splitHost true (inner ++ ']' :: port) = (inner ++ [']'], port) := by
    induction inner with
    | nil =>
        rw [List.nil_append, splitHost, if_neg (by simp)]
        simp [splitHost_port isPort]
    | cons character rest inductionHypothesis =>
        rw [List.forall_mem_cons] at plain
        obtain ⟨⟨noOpening, noClosing⟩, plainRest⟩ := plain
        rw [List.cons_append, splitHost, if_neg (by simp)]
        simp only [if_neg noOpening, if_neg noClosing, inductionHypothesis plainRest]
        rfl
  rw [splitHost, if_neg (by simp)]
  simp only [if_true, inside]

end Precis.Url
