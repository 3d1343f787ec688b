import Mathlib.Algebra.Ring.Nat
import Mathlib.Logic.Function.Iterate
import Mathlib.Tactic.Ring
import Precis.Proofs.Summary.Interruption

/-!
Contract: how an input is cut until it fits.

Owns how much one cut keeps, beside nine tenths of the length rounded down; how
much is left after many cuts; and the search of an attempt as a sequence of
counts: which inputs are counted, how many of them there are, and with which of
them the search ends. The counts are whatever the surroundings answer, so it is
the length of the input alone that bounds the search.

Does not own what is generated from the input that fits.
-/

namespace Precis.Summary

/-! ### One cut -/

theorem toList_shrink (input : String) :
    (shrink input).toList = input.toList.take (keptLength input.length) :=
  String.toList_ofList

/-- Nine tenths, rounded down, keep what a cut keeps, and of an incomplete ten
all characters but one. -/
theorem nineTenths_eq (length : Nat) :
    9 * length / 10 = keptLength length + (length % 10 - 1) := by
  unfold keptLength
  omega

theorem ten_mul_keptLength_le (length : Nat) : 10 * keptLength length ≤ 9 * length := by
  unfold keptLength
  omega

theorem shrink_eq_empty_iff {input : String} : shrink input = "" ↔ input.length < 10 := by
  rw [← String.toList_eq_nil_iff, ← List.length_eq_zero_iff, String.length_toList, length_shrink]
  unfold keptLength
  omega

/-- A cut keeps the beginning of an input: nine characters of every full ten,
whatever is left over. Nine tenths of the length, rounded down, are more by one
less than what is left over, so a cut keeps them exactly where at most one
character is. A text of fewer than ten characters is cut to nothing. -/
theorem shrink_keeps (input : String) :
    (shrink input).toList = input.toList.take (9 * (input.length / 10)) ∧
      9 * input.length / 10 = (shrink input).length + (input.length % 10 - 1) ∧
      ((shrink input).toList = input.toList.take (9 * input.length / 10) ↔
        input.length % 10 ≤ 1) ∧
      (shrink input = "" ↔ input.length < 10) := by
  have kept : (shrink input).toList = input.toList.take (9 * (input.length / 10)) := by
    rw [toList_shrink, keptLength, Nat.mul_comm]
  have tenths : 9 * input.length / 10 = (shrink input).length + (input.length % 10 - 1) := by
    rw [length_shrink]
    exact nineTenths_eq input.length
  refine ⟨kept, tenths, ⟨fun agrees => ?_, fun few => ?_⟩, shrink_eq_empty_iff⟩
  · have lengths := congrArg List.length agrees
    rw [String.length_toList, List.length_take, String.length_toList] at lengths
    omega
  · rw [toList_shrink]
    congr 1
    have agree := nineTenths_eq input.length
    omega

/-- Three characters are cut to nothing, where nine tenths of them are two. -/
theorem shrink_loses_three_characters :
    ¬ (∀ input : String, (shrink input).toList = input.toList.take (9 * input.length / 10)) ∧
      ¬ (∀ input : String, 2 ≤ input.length → shrink input ≠ "") := by
  have lost : shrink "abc" = "" := by decide
  refine ⟨fun keepsNineTenths => ?_, fun keepsSomething => keepsSomething "abc" (by decide) lost⟩
  have two := keepsNineTenths "abc"
  rw [lost] at two
  exact absurd two (by decide)

/-! ### Many cuts -/

theorem iterate_shrink_begins (input : String) (cuts : Nat) :
    (shrink^[cuts] input).toList <+: input.toList := by
  induction cuts with
  | zero => exact List.prefix_refl _
  | succ cuts inductionHypothesis =>
      rw [Function.iterate_succ_apply']
      exact (shrink_begins _).trans inductionHypothesis

/-- Each cut leaves at most nine tenths. -/
theorem length_iterate_shrink_le (input : String) (cuts : Nat) :
    10 ^ cuts * (shrink^[cuts] input).length ≤ 9 ^ cuts * input.length := by
  induction cuts with
  | zero => exact Nat.le_refl _
  | succ cuts inductionHypothesis =>
      have oneCut := ten_mul_keptLength_le (shrink^[cuts] input).length
      rw [Function.iterate_succ_apply', length_shrink]
      calc
        10 ^ (cuts + 1) * keptLength (shrink^[cuts] input).length =
            10 ^ cuts * (10 * keptLength (shrink^[cuts] input).length) := by ring
        _ ≤ 10 ^ cuts * (9 * (shrink^[cuts] input).length) := Nat.mul_le_mul_left _ oneCut
        _ = 9 * (10 ^ cuts * (shrink^[cuts] input).length) := by ring
        _ ≤ 9 * (9 ^ cuts * input.length) := Nat.mul_le_mul_left _ inductionHypothesis
        _ = 9 ^ (cuts + 1) * input.length := by ring

example :
    (List.range 3).map (fun cuts => shrink^[cuts] "Sum up\nA text.") =
      ["Sum up\nA text.", "Sum up\nA ", ""] := by
  decide

/-! ### The counts of a search -/

/-- The counts in a log, oldest first. -/
def Log.counts : Log → List (Call UInt64)
  | [] => []
  | .count call :: before => counts before ++ [call]
  | _ :: before => counts before

/-- A count that came back over the limit. -/
def Call.IsOver (call : Call UInt64) (limit : UInt64) : Prop :=
  ∃ tokens, call.answer = some (.ok tokens) ∧ limit < tokens

/-- How a search ends with its last count: the input fits, the count fails, the
empty input is over the limit too, or the request is cancelled meanwhile. -/
inductive Leaves (limit : UInt64) (last : Call UInt64) : Ended (String × UInt64) → Prop where
  | fits
      {tokens : UInt64}
      (answered : last.answer = some (.ok tokens))
      (within : tokens ≤ limit) :
      Leaves limit last (.finished (.ok (last.input, tokens)))
  | failed
      {cause : Error}
      (answered : last.answer = some (.error cause)) :
      Leaves limit last (.finished (.error cause))
  | exhausted
      {tokens : UInt64}
      (answered : last.answer = some (.ok tokens))
      (exceeds : limit < tokens)
      (empty : last.input = "") :
      Leaves limit last (.finished (.error (.contextLengthExceeded tokens limit)))
  | abandoned
      (unanswered : last.answer = none) :
      Leaves limit last .cancelled

namespace Leaves

variable {limit used : UInt64} {last : Call UInt64} {ended : Ended (String × UInt64)}

/-- A last count that is over the limit is that of the empty input. -/
theorem eq_exhausted
    (leaves : Leaves limit last ended)
    (answered : last.answer = some (.ok used))
    (exceeds : limit < used) :
    ended = .finished (.error (.contextLengthExceeded used limit)) := by
  cases leaves with
  | fits answeredToo within =>
      rw [answered] at answeredToo
      obtain rfl := Except.ok.inj (Option.some.inj answeredToo)
      exact absurd exceeds (UInt64.not_lt.mpr within)
  | failed refused => simp [answered] at refused
  | exhausted answeredToo exceedsToo empty =>
      rw [answered] at answeredToo
      obtain rfl := Except.ok.inj (Option.some.inj answeredToo)
      rfl
  | abandoned unanswered => simp [answered] at unanswered

/-- Where the last count is answered, only the empty input makes a search fail. -/
theorem of_exhausted
    {tokens : UInt64}
    (leaves : Leaves limit last (.finished (.error (.contextLengthExceeded used limit))))
    (answered : last.answer = some (.ok tokens)) :
    last.input = "" ∧ last.answer = some (.ok used) ∧ limit < used := by
  cases leaves with
  | failed refused => simp [answered] at refused
  | exhausted answeredToo exceeds empty => exact ⟨empty, answeredToo, exceeds⟩

end Leaves

/-- The counts of a search from an input on, and how it ends. An input that is
over the limit is cut and counted again, unless it is empty. -/
inductive Searches (model : String) (limit : UInt64) :
    String → List (Call UInt64) → Ended (String × UInt64) → Prop where
  | leave
      {call : Call UInt64}
      {ended : Ended (String × UInt64)}
      (model_eq : call.model = model)
      (leaves : Leaves limit call ended) :
      Searches model limit call.input [call] ended
  | cut
      {call : Call UInt64}
      {calls : List (Call UInt64)}
      {ended : Ended (String × UInt64)}
      (model_eq : call.model = model)
      (isOver : call.IsOver limit)
      (notEmpty : call.input ≠ "")
      (rest : Searches model limit (shrink call.input) calls ended) :
      Searches model limit call.input (call :: calls) ended

namespace Searches

variable {model input : String} {limit : UInt64} {calls : List (Call UInt64)}
  {ended : Ended (String × UInt64)}

/-- Each cut makes the input shorter, so there is no room for more counts than
the input has characters, and one of the empty input. -/
theorem length_le (searches : Searches model limit input calls ended) :
    calls.length ≤ input.length + 1 := by
  induction searches with
  | leave modelEq leaves => exact Nat.le_add_left _ _
  | cut modelEq isOver notEmpty rest inductionHypothesis =>
      have shorter := length_shrink_lt notEmpty
      rw [List.length_cons]
      omega

theorem counted
    (searches : Searches model limit input calls ended)
    {cuts : Nat}
    {call : Call UInt64}
    (found : calls[cuts]? = some call) :
    call.model = model ∧ call.input = shrink^[cuts] input := by
  induction searches generalizing cuts with
  | leave modelEq leaves =>
      cases cuts with
      | zero =>
          obtain rfl := Option.some.inj found
          exact ⟨modelEq, rfl⟩
      | succ cuts => simp at found
  | cut modelEq isOver notEmpty rest inductionHypothesis =>
      cases cuts with
      | zero =>
          obtain rfl := Option.some.inj found
          exact ⟨modelEq, rfl⟩
      | succ cuts => exact inductionHypothesis found

/-- The next count is that of the input cut once more, which was not empty. -/
theorem next
    (searches : Searches model limit input calls ended)
    {cuts : Nat}
    {call following : Call UInt64}
    (found : calls[cuts]? = some call)
    (foundNext : calls[cuts + 1]? = some following) :
    call.input ≠ "" ∧ following.input = shrink call.input := by
  induction searches generalizing cuts with
  | leave modelEq leaves => simp at foundNext
  | cut modelEq isOver notEmpty rest inductionHypothesis =>
      cases cuts with
      | zero =>
          obtain rfl := Option.some.inj found
          exact ⟨notEmpty, (rest.counted foundNext).2⟩
      | succ cuts => exact inductionHypothesis found foundNext

/-- A search goes on as long as the counts are over the limit, and the input is
not empty. -/
theorem split (searches : Searches model limit input calls ended) :
    ∃ earlier last, calls = earlier ++ [last] ∧
      (∀ call ∈ earlier, call.IsOver limit ∧ call.input ≠ "") ∧ Leaves limit last ended := by
  induction searches with
  | @leave call ended modelEq leaves => exact ⟨[], call, rfl, by simp, leaves⟩
  | @cut call calls ended modelEq isOver notEmpty rest inductionHypothesis =>
      obtain ⟨earlier, last, rfl, allOver, leaves⟩ := inductionHypothesis
      refine ⟨call :: earlier, last, rfl, ?_, leaves⟩
      exact List.forall_mem_cons.mpr ⟨⟨isOver, notEmpty⟩, allOver⟩

/-- The empty input was counted and was over the limit exactly where the search
ends with that, and not with the failure of a count. -/
theorem exhausted_iff
    (searches : Searches model limit input calls ended)
    (used : UInt64) :
    (∃ call ∈ calls, call.input = "" ∧ call.answer = some (.ok used) ∧ limit < used) ↔
      ended = .finished (.error (.contextLengthExceeded used limit)) ∧
        ∀ call ∈ calls, ∃ tokens, call.answer = some (.ok tokens) := by
  obtain ⟨earlier, last, rfl, allOver, leaves⟩ := searches.split
  have earlierAnswered : ∀ call ∈ earlier, ∃ tokens, call.answer = some (.ok tokens) := by
    intro call member
    obtain ⟨⟨tokens, answered, -⟩, -⟩ := allOver call member
    exact ⟨tokens, answered⟩
  constructor
  · rintro ⟨call, member, empty, answered, exceeds⟩
    rcases List.mem_append.mp member with before | atEnd
    · exact absurd empty (allOver call before).2
    · obtain rfl := List.mem_singleton.mp atEnd
      refine ⟨leaves.eq_exhausted answered exceeds, fun other otherMember => ?_⟩
      rcases List.mem_append.mp otherMember with otherBefore | otherAtEnd
      · exact earlierAnswered other otherBefore
      · obtain rfl := List.mem_singleton.mp otherAtEnd
        exact ⟨used, answered⟩
  · rintro ⟨rfl, allAnswered⟩
    have atEnd : last ∈ earlier ++ [last] := List.mem_append_right _ (List.mem_singleton.mpr rfl)
    obtain ⟨tokens, answered⟩ := allAnswered last atEnd
    exact ⟨last, atEnd, leaves.of_exhausted answered⟩

end Searches

/-! ### The search of an attempt -/

/-- What a search for an input that fits comes to, from the whole input on. -/
structure Truncates
    (model whole : String)
    (limit : UInt64)
    (calls : List (Call UInt64))
    (ended : Ended (String × UInt64)) : Prop where
  counted :
    ∀ cuts call, calls[cuts]? = some call →
      call.model = model ∧ call.input = shrink^[cuts] whole ∧
        call.input.toList <+: whole.toList ∧
        10 ^ cuts * call.input.length ≤ 9 ^ cuts * whole.length
  shorter :
    ∀ cuts call following, calls[cuts]? = some call → calls[cuts + 1]? = some following →
      following.input.toList <+: call.input.toList ∧
        following.input.length < call.input.length
  leaves :
    ∃ earlier last, calls = earlier ++ [last] ∧ (∀ call ∈ earlier, call.IsOver limit) ∧
      Leaves limit last ended
  exhausted_iff :
    ∀ used,
      (∃ call ∈ calls, call.input = "" ∧ call.answer = some (.ok used) ∧ limit < used) ↔
        ended = .finished (.error (.contextLengthExceeded used limit)) ∧
          ∀ call ∈ calls, ∃ tokens, call.answer = some (.ok tokens)

theorem Searches.truncates
    {model whole : String}
    {limit : UInt64}
    {calls : List (Call UInt64)}
    {ended : Ended (String × UInt64)}
    (searches : Searches model limit whole calls ended) :
    Truncates model whole limit calls ended where
  counted := by
    intro cuts call found
    obtain ⟨modelEq, inputEq⟩ := searches.counted found
    refine ⟨modelEq, inputEq, ?_, ?_⟩
    · rw [inputEq]
      exact iterate_shrink_begins whole cuts
    · rw [inputEq]
      exact length_iterate_shrink_le whole cuts
  shorter := by
    intro cuts call following found foundNext
    obtain ⟨notEmpty, inputEq⟩ := searches.next found foundNext
    rw [inputEq]
    exact ⟨shrink_begins _, length_shrink_lt notEmpty⟩
  leaves := by
    obtain ⟨earlier, last, split, allOver, leaves⟩ := searches.split
    exact ⟨earlier, last, split, fun call member => (allOver call member).1, leaves⟩
  exhausted_iff := searches.exhausted_iff

namespace Summarizer

/-- Looking for an input that fits is a search. -/
theorem fit_searches
    (summarizer : Summarizer)
    (cancellation : Cancellation)
    (model : String)
    (limit : UInt64)
    (input : String)
    (session : Session) :
    ∃ calls,
      (summarizer.fit cancellation model limit input session).2.log.counts =
          session.log.counts ++ calls ∧
        Searches model limit input calls
          (summarizer.fit cancellation model limit input session).1 := by
  -- Each case opens with the count that the search makes first.
  have counting :
      ∀ {input : String} {session after : Session} {ended : Ended UInt64},
        summarizer.count cancellation model input session = (ended, after) →
          ∃ call : Call UInt64, call.model = model ∧ call.input = input ∧
            call.outcome = ended ∧ after.log.counts = session.log.counts ++ [call] := by
    intro input session after ended counts
    obtain ⟨call, modelEq, inputEq, outcome, logEq⟩ :=
      (count_course counts (List.prefix_refl input.toList)).2
    refine ⟨call, modelEq, inputEq, outcome, ?_⟩
    rw [logEq]
    rfl
  fun_induction Summarizer.fit summarizer cancellation model limit input session with
  | case1 input session after counts =>
      obtain ⟨call, modelEq, rfl, outcome, countsEq⟩ := counting counts
      exact ⟨[call], countsEq, .leave modelEq (.abandoned (Call.answer_eq_none_of_outcome outcome))⟩
  | case2 input session cause after counts =>
      obtain ⟨call, modelEq, rfl, outcome, countsEq⟩ := counting counts
      exact ⟨[call], countsEq, .leave modelEq (.failed (Call.answer_eq_some_of_outcome outcome))⟩
  | case3 input session tokens after counts fits =>
      obtain ⟨call, modelEq, rfl, outcome, countsEq⟩ := counting counts
      exact ⟨[call], countsEq,
        .leave modelEq (.fits (Call.answer_eq_some_of_outcome outcome) fits)⟩
  | case4 session tokens after tooMany counts =>
      obtain ⟨call, modelEq, inputEq, outcome, countsEq⟩ := counting counts
      have leaves :=
        Leaves.exhausted (Call.answer_eq_some_of_outcome outcome) (UInt64.not_le.mp tooMany) inputEq
      rw [← inputEq]
      exact ⟨[call], countsEq, .leave modelEq leaves⟩
  | case5 input session tokens after counts tooMany notEmpty inductionHypothesis =>
      obtain ⟨call, modelEq, rfl, outcome, countsEq⟩ := counting counts
      obtain ⟨calls, restEq, rest⟩ := inductionHypothesis
      have isOver : call.IsOver limit :=
        ⟨tokens, Call.answer_eq_some_of_outcome outcome, UInt64.not_le.mp tooMany⟩
      refine ⟨call :: calls, ?_, .cut modelEq isOver notEmpty rest⟩
      rw [restEq, countsEq, List.append_assoc]
      rfl

theorem counts_connect (summarizer : Summarizer) (credential : String) (session : Session) :
    (summarizer.connect credential session).2.log.counts = session.log.counts := by
  unfold connect
  split
  · rfl
  · simp only
    split
    · rfl
    · rfl

theorem Generates.counts_eq
    {summarizer : Summarizer}
    {model input : String}
    {tokens : UInt64}
    {session after : Session}
    {ended : Ended String}
    (generates : summarizer.Generates model input tokens session ended after) :
    after.log.counts = session.log.counts := by
  cases generates with
  | refused _ => rfl
  | abandoned _ _ _ _ _ => rfl
  | failed _ _ _ _ _ => rfl
  | contentless _ _ _ _ _ _ => rfl
  | recorded _ _ _ _ _ _ => rfl

theorem counts_afterFit
    (summarizer : Summarizer)
    (cancellation : Cancellation)
    (model : String)
    (fitted : Ended (String × UInt64) × Session) :
    (summarizer.afterFit cancellation model fitted).2.log.counts = fitted.2.log.counts := by
  rcases fitted with ⟨_ | ⟨cause | ⟨input, tokens⟩⟩, after⟩
  · rfl
  · rfl
  · exact (summarizer.generate_generates cancellation model input tokens after).counts_eq

/-- Whether an attempt has a credential, and a handle is made with it. -/
def HasHandle (summarizer : Summarizer) (session : Session) : Prop :=
  ∃ credential, summarizer.credential? = some credential ∧
    (summarizer.connect credential session).1 = .ok ()

section Attempt

variable {summarizer : Summarizer} {cancellation : Cancellation} {request : Request}
  {descriptor : Model.Descriptor} {session : Session}

theorem counts_attempt_of_not_hasHandle (without : ¬ summarizer.HasHandle session) :
    (summarizer.attempt cancellation request descriptor session).2.log.counts =
      session.log.counts := by
  unfold attempt
  cases keyed : summarizer.credential? with
  | none => rfl
  | some credential =>
      have unchanged := summarizer.counts_connect credential session
      cases connects : summarizer.connect credential session with
      | mk outcome connected =>
          rw [connects] at unchanged
          cases outcome with
          | error cause =>
              simp only [connects]
              exact unchanged
          | ok done => exact absurd ⟨credential, keyed, by rw [connects]⟩ without

/-- Making a handle counts nothing, so the search begins where the attempt does. -/
theorem exists_attempt_eq_of_hasHandle (handle : summarizer.HasHandle session) :
    ∃ connected : Session, connected.log.counts = session.log.counts ∧
      summarizer.attempt cancellation request descriptor session =
        summarizer.afterFit cancellation descriptor.providerName
          (summarizer.fit cancellation descriptor.providerName
            (summarizer.limitFor request descriptor) request.input connected) := by
  obtain ⟨credential, keyed, made⟩ := handle
  refine ⟨(summarizer.connect credential session).2, summarizer.counts_connect credential session,
    attempt_eq keyed ?_⟩
  rw [← made]

end Attempt

/-- Whatever the models answer to a count, and whenever the request is cancelled,
an attempt makes at most one count more than its input has characters. With a
handle it counts the whole input and then one cut of it after another, until a
count is within the limit, or fails, or the empty input is over the limit too,
and goes on with what that comes to. Without a handle it counts nothing. A
search is abandoned only where the request is cancelled. -/
theorem attempt_truncates
    (summarizer : Summarizer)
    (cancellation : Cancellation)
    (request : Request)
    (descriptor : Model.Descriptor)
    (session : Session) :
    let whole := request.instruction ++ "\n" ++ request.text
    let limit := summarizer.limitFor request descriptor
    let attempted := summarizer.attempt cancellation request descriptor session
    ∃ calls, attempted.2.log.counts = session.log.counts ++ calls ∧
      calls.length ≤ whole.length + 1 ∧
      (¬ summarizer.HasHandle session ∧ calls = [] ∨
        summarizer.HasHandle session ∧ ∃ ended fitted,
          Truncates descriptor.providerName whole limit calls ended ∧
            attempted =
              summarizer.afterFit cancellation descriptor.providerName (ended, fitted) ∧
            (cancellation = .never → ended ≠ .cancelled)) := by
  intro whole limit attempted
  by_cases handle : summarizer.HasHandle session
  · obtain ⟨connected, unchanged, attemptedEq⟩ :
        ∃ connected : Session, connected.log.counts = session.log.counts ∧ attempted = _ :=
      exists_attempt_eq_of_hasHandle handle
    obtain ⟨calls, countsEq, searches⟩ :=
      summarizer.fit_searches cancellation descriptor.providerName limit whole connected
    refine ⟨calls, ?_, searches.length_le,
      .inr ⟨handle, _, _, searches.truncates, attemptedEq, ?_⟩⟩
    · rw [attemptedEq, counts_afterFit, ← unchanged]
      exact countsEq
    · rintro rfl
      exact (summarizer.fit_beside .never _ _ _ _).finished
  · refine ⟨[], ?_, Nat.zero_le _, .inl ⟨handle, rfl⟩⟩
    rw [List.append_nil]
    exact counts_attempt_of_not_hasHandle handle

end Summarizer

end Precis.Summary
