import Precis.Http.Exchange
import Precis.Proofs.Url.Authority
import Precis.Time

/-!
Contract: which requests can be made, and which are answered.

Owns the conditions under which a request can be made, those under which a
client with a time limit sees a response to it, and that it sees one at most.

Does not own what is in a request or a response.
-/

namespace Precis.Http

open Url (SpeaksHttp)

theorem Request.make_eq_ok_iff
    {method : Method}
    {url : Url}
    {headers : List (String × String)}
    {body : Option Json.Value}
    {request : Request} :
    Request.make method url headers body = .ok request ↔
      url.hasHost = true ∧ (headers.all fun header => isHeaderValue header.2) = true ∧
        SpeaksHttp url.scheme ∧ request = { method, url, headers, body } := by
  unfold Request.make
  cases host : url.hasHost with
  | false => simp
  | true =>
      cases sendable : headers.all fun header => isHeaderValue header.2 with
      | false => simp
      | true =>
          by_cases speaks : SpeaksHttp url.scheme
          · have accepted : ¬ (url.scheme ≠ "http" ∧ url.scheme ≠ "https") := fun neither =>
              speaks.elim neither.1 neither.2
            rw [if_neg (by simp), if_neg (by simp), if_neg accepted]
            simp [speaks, eq_comm]
          · have refused : url.scheme ≠ "http" ∧ url.scheme ≠ "https" := not_or.mp speaks
            simp [refused, speaks]

theorem isSuccess_iff {status : Nat} :
    isSuccess status = true ↔ 200 ≤ status ∧ status < 300 := by
  simp [isSuccess]

/-- A server answers a request in time. -/
def AnswersWithin
    (limit : Duration)
    (serve : Request → Option Handling)
    (request : Request)
    (response : Response) : Prop :=
  ∃ delay ≤ limit.nanoseconds, serve request = some { delay, response := some response }

theorem Handling.within_response_eq_some_iff
    {limit : Duration}
    {serve : Request → Option Handling}
    {request : Request}
    {response : Response} :
    (within limit.nanoseconds (serve request)).response = some response ↔
      AnswersWithin limit serve request response := by
  unfold AnswersWithin
  generalize serve request = handling
  cases handling with
  | none => simp [within]
  | some handling =>
      obtain ⟨delay, answer⟩ := handling
      by_cases late : limit.nanoseconds < delay
      · simp [within, late, Nat.not_le_of_lt late]
      · simp [within, late, Nat.le_of_not_lt late]

/-- A server answers a request with one response at most. -/
theorem AnswersWithin.unique
    {limit : Duration}
    {serve : Request → Option Handling}
    {request : Request}
    {first second : Response}
    (answersFirst : AnswersWithin limit serve request first)
    (answersSecond : AnswersWithin limit serve request second) :
    first = second := by
  have seesFirst := Handling.within_response_eq_some_iff.mpr answersFirst
  have seesSecond := Handling.within_response_eq_some_iff.mpr answersSecond
  rw [seesFirst] at seesSecond
  exact Option.some.inj seesSecond

end Precis.Http
