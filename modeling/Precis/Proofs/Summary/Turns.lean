import Precis.Proofs.Summary.Interruption

/-!
Contract: the attempts that requests enter, told one by one.

Owns the list of turns of a request and of a run of requests: for each attempt
that is entered, the candidate whose turn it is, the candidates after it, and
the session that it finds. `walk_strides` joins the turns of a walk to each
other and to the session in which the walk ends, and `mem_turns_iff` says that
the turns of a run are those of the candidates whose turn comes.

Does not own what an attempt does.
-/

namespace Precis.Summary

namespace Summarizer

/-! ### Turns -/

/-- An attempt that a request enters: the candidate with what the catalog says of
it, the candidates after it, and the session that the attempt finds. -/
structure Turn where
  use : Use
  model : Model.Id
  descriptor : Model.Descriptor
  rest : List Model.Id
  found : Session

def attemptOf (summarizer : Summarizer) (turn : Turn) : Ended String × Session :=
  summarizer.attempt turn.use.cancellation turn.use.request turn.descriptor turn.found

def pauseAfter (summarizer : Summarizer) (turn : Turn) : Ended Unit × Session :=
  (summarizer.attemptOf turn).2.pause turn.use.cancellation summarizer.backoff

instance : DecidablePred Fails
  | .ok text => inferInstanceAs (Decidable (text = ""))
  | .error cause => inferInstanceAs (Decidable (cause.isFatal = false))

/-- The attempt fails in a way that leaves the request to another candidate, and
there is one. -/
def PassesOn (summarizer : Summarizer) (turn : Turn) : Prop :=
  turn.rest ≠ [] ∧
    ∃ outcome, (summarizer.attemptOf turn).1 = .finished outcome ∧ Fails outcome

theorem passesOn_iff_of_finished
    {summarizer : Summarizer}
    {turn : Turn}
    {outcome : Except Error String}
    (attempted : (summarizer.attemptOf turn).1 = .finished outcome) :
    summarizer.PassesOn turn ↔ turn.rest ≠ [] ∧ Fails outcome := by
  unfold PassesOn
  rw [attempted]
  simp only [Ended.finished.injEq, exists_eq_left']

theorem not_passesOn_of_cancelled
    {summarizer : Summarizer}
    {turn : Turn}
    (attempted : (summarizer.attemptOf turn).1 = .cancelled) :
    ¬ summarizer.PassesOn turn := by
  rintro ⟨-, outcome, finished, -⟩
  rw [attempted] at finished
  contradiction

instance (summarizer : Summarizer) : DecidablePred summarizer.PassesOn := fun turn =>
  match attempted : (summarizer.attemptOf turn).1 with
  | .cancelled => isFalse (not_passesOn_of_cancelled attempted)
  | .finished _ => decidable_of_iff' _ (passesOn_iff_of_finished attempted)

/-- The turns of a walk over the given candidates, in order. -/
def walkTurns (summarizer : Summarizer) (use : Use) : List Model.Id → Session → List Turn
  | [], _ => []
  | model :: rest, session =>
      match summarizer.catalog.descriptor? model with
      | none => []
      | some descriptor =>
          if session.isCancelledBy use.cancellation session.now then []
          else
            let turn : Turn := { use, model, descriptor, rest, found := session }
            turn ::
              if summarizer.PassesOn turn then
                match summarizer.pauseAfter turn with
                | (.cancelled, _) => []
                | (.finished _, paused) => walkTurns summarizer use rest paused
              else []

/-- The turns of a request. -/
def turnsOf (summarizer : Summarizer) (use : Use) (session : Session) : List Turn :=
  if summarizer.catalog.supports use.request.family then
    summarizer.walkTurns use (summarizer.candidates use.request) session
  else []

/-- The turns of requests that are carried out one after another. -/
def turns (summarizer : Summarizer) : Session → List Use → List Turn
  | _, [] => []
  | session, use :: later =>
      summarizer.turnsOf use session ++
        summarizer.turns (summarizer.summarize use.cancellation use.request session).2 later

/-! ### From turn to turn -/

/-- The turns of a walk over candidates, from the session in which it begins to
the one in which it ends. After an attempt that passes the request on there is
a pause, and then the turn of the next candidate. -/
inductive Strides (summarizer : Summarizer) (use : Use) :
    List Model.Id → Session → List Turn → Session → Prop where
  | none (remaining : List Model.Id) (session : Session) :
      Strides summarizer use remaining session [] session
  | last
      (turn : Turn)
      (use_eq : turn.use = use)
      (stays : ¬ summarizer.PassesOn turn) :
      Strides summarizer use (turn.model :: turn.rest) turn.found [turn]
        (summarizer.attemptOf turn).2
  | interrupted
      (turn : Turn)
      (use_eq : turn.use = use)
      (passes : summarizer.PassesOn turn)
      (cancelled : (summarizer.pauseAfter turn).1 = .cancelled) :
      Strides summarizer use (turn.model :: turn.rest) turn.found [turn]
        (summarizer.pauseAfter turn).2
  | next
      (turn : Turn)
      {later : List Turn}
      {final : Session}
      (use_eq : turn.use = use)
      (passes : summarizer.PassesOn turn)
      (waited : (summarizer.pauseAfter turn).1 = .finished (.ok ()))
      (strides : Strides summarizer use turn.rest (summarizer.pauseAfter turn).2 later final) :
      Strides summarizer use (turn.model :: turn.rest) turn.found (turn :: later) final

/-! ### One candidate -/

section Walk

variable {summarizer : Summarizer} {use : Use} {all rest : List Model.Id} {model : Model.Id}
  {descriptor : Model.Descriptor} {session : Session}

theorem walkTurns_of_undescribed (undescribed : summarizer.catalog.descriptor? model = none) :
    summarizer.walkTurns use (model :: rest) session = [] := by
  rw [walkTurns, undescribed]

theorem walkTurns_of_forestalled
    (described : summarizer.catalog.descriptor? model = some descriptor)
    (cancelled : session.isCancelledBy use.cancellation session.now = true) :
    summarizer.walkTurns use (model :: rest) session = [] := by
  rw [walkTurns, described]
  exact if_pos cancelled

variable
  (described : summarizer.catalog.descriptor? model = some descriptor)
  (live : session.isCancelledBy use.cancellation session.now = false)

include described live

theorem walkTurns_of_live :
    summarizer.walkTurns use (model :: rest) session =
      let turn : Turn := { use, model, descriptor, rest, found := session }
      turn ::
        if summarizer.PassesOn turn then
          match summarizer.pauseAfter turn with
          | (.cancelled, _) => []
          | (.finished _, paused) => summarizer.walkTurns use rest paused
        else [] := by
  rw [walkTurns, described]
  simp only
  rw [live]
  rfl

section Stays

variable (stays : ¬ summarizer.PassesOn ⟨use, model, descriptor, rest, session⟩)

include stays

theorem walkTurns_of_stays :
    summarizer.walkTurns use (model :: rest) session =
      [⟨use, model, descriptor, rest, session⟩] := by
  rw [walkTurns_of_live described live]
  simp only
  rw [if_neg stays]

/-- A walk ends with an attempt that does not pass the request on. -/
theorem walk_of_stays :
    (summarizer.walk use.cancellation use.request all (model :: rest) session).2 =
      (summarizer.attemptOf ⟨use, model, descriptor, rest, session⟩).2 := by
  cases attempted : (summarizer.attempt use.cancellation use.request descriptor session).1 with
  | cancelled => rw [walk_of_cancelled described live attempted, attemptOf]
  | finished outcome =>
      cases concluded : walk.conclusion? model outcome with
      | some result =>
          have settles := conclusion?_eq_some_iff.mp concluded
          rw [walk_of_settles described live attempted settles, attemptOf]
      | none =>
          have fails := conclusion?_eq_none_iff.mp concluded
          cases rest with
          | nil => rw [walk_of_fails_last described live attempted fails, attemptOf]
          | cons next others =>
              exact absurd ⟨List.cons_ne_nil _ _, outcome, attempted, fails⟩ stays

end Stays

section PassesOn

variable (passes : summarizer.PassesOn ⟨use, model, descriptor, rest, session⟩)

include passes

theorem walkTurns_of_interrupted
    (cancelled :
      (summarizer.pauseAfter ⟨use, model, descriptor, rest, session⟩).1 = .cancelled) :
    summarizer.walkTurns use (model :: rest) session =
      [⟨use, model, descriptor, rest, session⟩] := by
  rw [walkTurns_of_live described live]
  simp only
  rw [if_pos passes, eq_mk_of_fst_eq cancelled]

theorem walk_of_interrupted_turn
    (cancelled :
      (summarizer.pauseAfter ⟨use, model, descriptor, rest, session⟩).1 = .cancelled) :
    (summarizer.walk use.cancellation use.request all (model :: rest) session).2 =
      (summarizer.pauseAfter ⟨use, model, descriptor, rest, session⟩).2 := by
  obtain ⟨another, outcome, attempted, fails⟩ := passes
  obtain ⟨next, others, rfl⟩ := List.exists_cons_of_ne_nil another
  exact congrArg Prod.snd (walk_of_interrupted described live attempted fails cancelled)

theorem walkTurns_of_passesOn
    (waited :
      (summarizer.pauseAfter ⟨use, model, descriptor, rest, session⟩).1 =
        .finished (.ok ())) :
    summarizer.walkTurns use (model :: rest) session =
      ⟨use, model, descriptor, rest, session⟩ ::
        summarizer.walkTurns use rest
          (summarizer.pauseAfter ⟨use, model, descriptor, rest, session⟩).2 := by
  rw [walkTurns_of_live described live]
  simp only
  rw [if_pos passes, eq_mk_of_fst_eq waited]

theorem walk_of_passesOn
    (waited :
      (summarizer.pauseAfter ⟨use, model, descriptor, rest, session⟩).1 =
        .finished (.ok ())) :
    summarizer.walk use.cancellation use.request all (model :: rest) session =
      summarizer.walk use.cancellation use.request all rest
        (summarizer.pauseAfter ⟨use, model, descriptor, rest, session⟩).2 := by
  obtain ⟨another, outcome, attempted, fails⟩ := passes
  obtain ⟨next, others, rfl⟩ := List.exists_cons_of_ne_nil another
  exact walk_of_fails described live attempted fails waited

end PassesOn

end Walk

/-! ### The whole walk -/

theorem walk_strides
    (summarizer : Summarizer)
    (use : Use)
    (all remaining : List Model.Id)
    (session : Session) :
    summarizer.Strides use remaining session (summarizer.walkTurns use remaining session)
      (summarizer.walk use.cancellation use.request all remaining session).2 := by
  induction remaining generalizing session with
  | nil => exact .none _ _
  | cons model rest inductionHypothesis =>
      cases described : summarizer.catalog.descriptor? model with
      | none =>
          rw [walkTurns_of_undescribed described, walk, described]
          exact .none _ _
      | some descriptor =>
          cases live : session.isCancelledBy use.cancellation session.now with
          | true =>
              rw [walkTurns_of_forestalled described live, walk, described]
              simp only
              rw [live]
              exact .none _ _
          | false =>
              let turn : Turn := ⟨use, model, descriptor, rest, session⟩
              by_cases passes : summarizer.PassesOn turn
              · rcases Session.pause_fst_cases (summarizer.attemptOf turn).2 use.cancellation
                  summarizer.backoff with cancelled | waited
                · rw [walkTurns_of_interrupted described live passes cancelled,
                    walk_of_interrupted_turn described live passes cancelled]
                  exact .interrupted turn rfl passes cancelled
                · rw [walkTurns_of_passesOn described live passes waited,
                    walk_of_passesOn described live passes waited]
                  exact .next turn rfl passes waited (inductionHypothesis _)
              · rw [walkTurns_of_stays described live passes,
                  walk_of_stays described live passes]
                exact .last turn rfl passes

/-- The turns of a request lead from the session before it to the one after it. -/
theorem summarize_strides (summarizer : Summarizer) (use : Use) (session : Session) :
    summarizer.Strides use (summarizer.candidates use.request) session
      (summarizer.turnsOf use session)
      (summarizer.summarize use.cancellation use.request session).2 := by
  unfold turnsOf
  cases supported : summarizer.catalog.supports use.request.family with
  | false =>
      rw [summarizer.summarize_unsupported _ _ _ supported]
      exact .none _ _
  | true =>
      rw [summarizer.summarize_supported _ _ _ supported]
      exact summarizer.walk_strides use _ _ session

/-- The candidates that are attempted are the first ones, in order. -/
theorem Strides.models_prefix
    {summarizer : Summarizer}
    {use : Use}
    {remaining : List Model.Id}
    {start final : Session}
    {turns : List Turn}
    (strides : summarizer.Strides use remaining start turns final) :
    turns.map Turn.model <+: remaining := by
  induction strides with
  | none remaining session => exact List.nil_prefix
  | last _ _ _ => exact (List.prefix_cons_inj _).mpr List.nil_prefix
  | interrupted _ _ _ _ => exact (List.prefix_cons_inj _).mpr List.nil_prefix
  | next _ _ _ _ _ inductionHypothesis => exact (List.prefix_cons_inj _).mpr inductionHypothesis

/-! ### Whose turn it is -/

section Membership

variable {summarizer : Summarizer} {use : Use} {all tried : List Model.Id}
  {start session : Session} {turn : Turn}

theorem inTurn_of_mem_walkTurns
    {remaining : List Model.Id}
    (split : all = tried ++ remaining)
    (reaches : summarizer.Reaches use.cancellation use.request start tried session)
    (member : turn ∈ summarizer.walkTurns use remaining session) :
    turn.use = use ∧ ∃ tried,
      summarizer.InTurn use.cancellation use.request all start tried turn.rest turn.model
        turn.descriptor turn.found := by
  induction remaining generalizing tried session with
  | nil => contradiction
  | cons model rest inductionHypothesis =>
      cases described : summarizer.catalog.descriptor? model with
      | none =>
          rw [walkTurns_of_undescribed described] at member
          contradiction
      | some descriptor =>
          cases live : session.isCancelledBy use.cancellation session.now with
          | true =>
              rw [walkTurns_of_forestalled described live] at member
              contradiction
          | false =>
              let first : Turn := ⟨use, model, descriptor, rest, session⟩
              have inTurn : summarizer.InTurn use.cancellation use.request all start tried rest
                  model descriptor session := ⟨split, reaches, described, live⟩
              by_cases passes : summarizer.PassesOn first
              · rcases Session.pause_fst_cases (summarizer.attemptOf first).2 use.cancellation
                  summarizer.backoff with cancelled | waited
                · rw [walkTurns_of_interrupted described live passes cancelled] at member
                  obtain rfl := List.mem_singleton.mp member
                  exact ⟨rfl, tried, inTurn⟩
                · rw [walkTurns_of_passesOn described live passes waited] at member
                  rcases List.mem_cons.mp member with rfl | later
                  · exact ⟨rfl, tried, inTurn⟩
                  · obtain ⟨-, outcome, attempted, fails⟩ := passes
                    refine inductionHypothesis ?_
                      (reaches.pass described live attempted fails waited) later
                    rw [split, List.append_assoc]
                    rfl
              · rw [walkTurns_of_stays described live passes] at member
                obtain rfl := List.mem_singleton.mp member
                exact ⟨rfl, tried, inTurn⟩

/-- The turns from a candidate on are the last of all turns. -/
theorem walkTurns_suffix_of_reaches
    {reached : Session}
    {rest : List Model.Id}
    {model : Model.Id}
    (reaches : summarizer.Reaches use.cancellation use.request start tried reached)
    (split : all = tried ++ model :: rest) :
    summarizer.walkTurns use (model :: rest) reached <:+ summarizer.walkTurns use all start := by
  induction reaches generalizing model rest with
  | start =>
      obtain rfl : all = model :: rest := split
      exact List.suffix_refl _
  | @pass _ reached passed descriptor outcome reaches described live attempted fails waited
      inductionHypothesis =>
      rw [List.append_assoc] at split
      have passes : summarizer.PassesOn ⟨use, passed, descriptor, model :: rest, reached⟩ :=
        ⟨List.cons_ne_nil _ _, outcome, attempted, fails⟩
      have grown : summarizer.walkTurns use (passed :: model :: rest) reached <:+
          summarizer.walkTurns use all start := inductionHypothesis split
      rw [walkTurns_of_passesOn described live passes waited] at grown
      exact (List.suffix_cons _ _).trans grown

/-- The turns of a request are those of the candidates that come to be attempted. -/
theorem mem_turnsOf_iff :
    turn ∈ summarizer.turnsOf use start ↔
      summarizer.catalog.supports use.request.family = true ∧ turn.use = use ∧
        ∃ tried,
          summarizer.InTurn use.cancellation use.request (summarizer.candidates use.request)
            start tried turn.rest turn.model turn.descriptor turn.found := by
  unfold turnsOf
  cases supported : summarizer.catalog.supports use.request.family with
  | false => simp
  | true =>
      simp only [if_true, true_and]
      constructor
      · exact inTurn_of_mem_walkTurns (List.nil_append _).symm .start
      · rintro ⟨useEq, tried, inTurn⟩
        obtain ⟨turnUse, model, descriptor, rest, found⟩ := turn
        obtain rfl : turnUse = use := useEq
        refine (walkTurns_suffix_of_reaches inTurn.reaches inTurn.split).subset ?_
        rw [walkTurns_of_live inTurn.described inTurn.live]
        exact List.mem_cons_self

end Membership

/-- The turns of a run are those of the candidates that come to be attempted in
one of its requests. -/
theorem mem_turns_iff
    {summarizer : Summarizer}
    {start : Session}
    {uses : List Use}
    {turn : Turn} :
    turn ∈ summarizer.turns start uses ↔
      ∃ earlier later, uses = earlier ++ turn.use :: later ∧
        summarizer.catalog.supports turn.use.request.family = true ∧ ∃ tried,
          summarizer.InTurn turn.use.cancellation turn.use.request
            (summarizer.candidates turn.use.request) (summarizer.run start earlier) tried
            turn.rest turn.model turn.descriptor turn.found := by
  induction uses generalizing start with
  | nil =>
      rw [turns]
      refine ⟨nofun, ?_⟩
      rintro ⟨earlier, later, split, -⟩
      exact absurd split.symm (by simp)
  | cons use uses inductionHypothesis =>
      rw [turns, List.mem_append, mem_turnsOf_iff, inductionHypothesis]
      constructor
      · rintro (⟨supported, rfl, inTurn⟩ | ⟨earlier, later, rfl, inTurn⟩)
        · exact ⟨[], uses, rfl, supported, inTurn⟩
        · exact ⟨use :: earlier, later, rfl, inTurn⟩
      · rintro ⟨_ | ⟨first, earlier⟩, later, split, supported, inTurn⟩
        · obtain ⟨rfl, -⟩ := List.cons.inj split
          exact .inl ⟨supported, rfl, inTurn⟩
        · obtain ⟨rfl, rfl⟩ := List.cons.inj split
          exact .inr ⟨earlier, later, rfl, supported, inTurn⟩

end Summarizer

end Precis.Summary
