import Precis.Proofs.Summary.Cancellation

/-!
Contract: which text settles a request.

Owns that a summary is never empty, and that the text which a candidate brings
in its turn is the summary exactly if it is not empty; and that a request which
ends with a summary ends with the same one if nobody cancels it.

Does not own what stands in the text of a summary.
-/

namespace Precis.Summary

/-- The value of a part of a request that ended with one. -/
def Ended.value? {α : Type} : Ended α → Option α
  | .finished (.ok value) => some value
  | .finished (.error _) => none
  | .cancelled => none

theorem Ended.value?_eq_some_iff {α : Type} {ended : Ended α} {value : α} :
    ended.value? = some value ↔ ended = .finished (.ok value) := by
  rcases ended with _ | _ | _ <;> simp [value?]

namespace Summarizer

variable {summarizer : Summarizer} {cancellation : Cancellation} {request : Request}
  {start : Session}

theorem supports_of_summarize_ok
    {summary : Digest}
    (summarized : (summarizer.summarize cancellation request start).1 = .ok summary) :
    summarizer.catalog.supports request.family = true := by
  by_contra unsupported
  rw [Bool.not_eq_true] at unsupported
  rw [summarizer.summarize_unsupported _ _ _ unsupported] at summarized
  cases summarized

theorem Stops.text_ne_empty
    {all : List Model.Id}
    {summary : Digest}
    {final : Session}
    (stops : summarizer.Stops cancellation request all start (.ok summary) final) :
    summary.text ≠ "" := by
  cases stops with
  | settled turn attempted settles =>
      cases settles with
      | summary notEmpty => exact notEmpty

theorem text_ne_empty_of_summarize_ok
    {summary : Digest}
    (summarized : (summarizer.summarize cancellation request start).1 = .ok summary) :
    summary.text ≠ "" := by
  have stops := summarizer.summarize_stops cancellation request start
    (supports_of_summarize_ok summarized)
  rw [summarized] at stops
  exact stops.text_ne_empty

/-- No cancellation has disturbed a request that ends with a summary. -/
theorem summarize_never_of_summarize_ok
    {summary : Digest}
    (summarized : (summarizer.summarize cancellation request start).1 = .ok summary) :
    summarizer.summarize .never request start =
      summarizer.summarize cancellation request start := by
  have supported := supports_of_summarize_ok summarized
  have stops := summarizer.summarize_stops cancellation request start supported
  rcases stops.same_or_cutsShort supported rfl with ⟨same, -⟩ | ⟨cancelled, -⟩
  · exact same
  · rw [cancelled] at summarized
    cases summarized

/-- The walk takes a text for a summary exactly if it is not empty. -/
theorem InTurn.summarize_eq_ok_iff
    {tried rest : List Model.Id}
    {model : Model.Id}
    {descriptor : Model.Descriptor}
    {reached : Session}
    {text : String}
    (turn : summarizer.InTurn cancellation request (summarizer.candidates request) start tried rest
      model descriptor reached)
    (supported : summarizer.catalog.supports request.family = true)
    (attempted :
      (summarizer.attempt cancellation request descriptor reached).1 = .finished (.ok text)) :
    (summarizer.summarize cancellation request start).1 = .ok { text, model } ↔ text ≠ "" := by
  constructor
  · exact text_ne_empty_of_summarize_ok
  · intro notEmpty
    rw [summarizer.summarize_supported _ _ _ supported, walk_of_reaches turn.reaches turn.split,
      walk_of_settles turn.described turn.live attempted (.summary notEmpty)]

end Summarizer

end Precis.Summary
