import Precis.Proofs.Summary.Answers
import Precis.Proofs.Summary.Turns

/-!
Contract: the one backend handle of a summarizer.

Owns `Session.OneHandle`, which ties the session to what the log tells of the
factory: no more than one handle was ever made, the session is connected
exactly if one was, and every call came after it. One attempt keeps it, and so
does every run of requests. What is asked of the factory is told turn by turn:
an attempt with a credential asks once if no handle has been made yet.

Does not own what a model answers to a call.
-/

namespace Precis.Summary

/-- A handle that was asked for: with which credential, what came of it, and
everything that happened before. -/
structure Creation where
  credential : String
  answer : Except Error Unit
  before : Log

/-- A call of a model. -/
def Event.IsCall : Event → Prop
  | .count _ => True
  | .generate _ => True
  | _ => False

namespace Log

/-- Every time that a handle was asked for, oldest first. -/
def creations : Log → List Creation
  | [] => []
  | .create credential answer :: before => creations before ++ [⟨credential, answer, before⟩]
  | _ :: before => creations before

/-- The handles that were made. -/
def handles (log : Log) : List Creation :=
  log.creations.filter fun creation => creation.answer.isOk

theorem creations_prefix_cons (event : Event) (before : Log) :
    before.creations <+: creations (event :: before) := by
  cases event with
  | create credential answer => exact List.prefix_append _ _
  | count call => exact List.prefix_refl _
  | check now cost verdict => exact List.prefix_refl _
  | generate call => exact List.prefix_refl _
  | record now cost => exact List.prefix_refl _
  | pause started ended => exact List.prefix_refl _

theorem handles_prefix_of_suffix {earlier later : Log} (grown : earlier <:+ later) :
    earlier.handles <+: later.handles := by
  unfold handles
  refine List.IsPrefix.filter _ ?_
  obtain ⟨added, rfl⟩ := grown
  induction added with
  | nil => exact List.prefix_refl _
  | cons event added inductionHypothesis =>
      exact inductionHypothesis.trans (creations_prefix_cons event _)

end Log

/-! ### At most one handle -/

/-- At most one handle was made, the session is connected exactly if one was, and
every call came after it. -/
structure Session.OneHandle (session : Session) : Prop where
  handles_length : session.log.handles.length = session.connected.toNat
  called :
    ∀ (event : Event) (before : Log),
      event :: before <:+ session.log → event.IsCall → before.handles ≠ []

namespace Session.OneHandle

variable {session after : Session} {event : Event}

theorem handles_eq_nil (one : session.OneHandle) (unconnected : session.connected = false) :
    session.log.handles = [] := by
  have count := one.handles_length
  rw [unconnected] at count
  exact List.eq_nil_of_length_eq_zero count

theorem handles_ne_nil (one : session.OneHandle) (connected : session.connected = true) :
    session.log.handles ≠ [] := by
  have count := one.handles_length
  rw [connected] at count
  intro empty
  rw [empty] at count
  contradiction

theorem called_cons
    (one : session.OneHandle)
    (found : event.IsCall → session.log.handles ≠ [])
    {other : Event}
    {before : Log}
    (place : other :: before <:+ event :: session.log)
    (isCall : other.IsCall) :
    before.handles ≠ [] := by
  rcases List.suffix_cons_iff.mp place with newest | older
  · obtain ⟨rfl, rfl⟩ := List.cons.inj newest
    exact found isCall
  · exact one.called other before older isCall

/-- An event that does not ask for a handle leaves everything as it was. -/
theorem step
    (one : session.OneHandle)
    (logEq : after.log = event :: session.log)
    (connectedEq : after.connected = session.connected)
    (handlesEq : Log.handles (event :: session.log) = session.log.handles)
    (found : event.IsCall → session.log.handles ≠ []) :
    after.OneHandle where
  handles_length := by
    rw [logEq, handlesEq, connectedEq]
    exact one.handles_length
  called := by
    rw [logEq]
    intro other before place isCall
    exact one.called_cons found place isCall

theorem pause
    (one : session.OneHandle)
    (cancellation : Cancellation)
    (length : Duration) :
    (session.pause cancellation length).2.OneHandle := by
  obtain ⟨ended, -, pauseEq⟩ := session.pause_eq cancellation length
  rw [pauseEq]
  exact one.step rfl rfl rfl False.elim

end Session.OneHandle

theorem Session.creations_pause
    (session : Session)
    (cancellation : Cancellation)
    (length : Duration) :
    (session.pause cancellation length).2.log.creations = session.log.creations := by
  obtain ⟨ended, -, pauseEq⟩ := session.pause_eq cancellation length
  rw [pauseEq]
  rfl

namespace Summarizer

variable {summarizer : Summarizer} {session start final : Session}

/-- Once there is a handle, none is asked for, and calls find it. -/
theorem Happens.keeps_handle
    {after : Session}
    {event : Event}
    (happens : summarizer.Happens session event after)
    (connected : session.connected = true)
    (one : session.OneHandle) :
    after.connected = true ∧ after.OneHandle ∧ after.log.creations = session.log.creations := by
  have found := one.handles_ne_nil connected
  cases happens with
  | create credential unconnected =>
      rw [connected] at unconnected
      contradiction
  | count call placed => exact ⟨connected, one.step rfl rfl rfl fun _ => found, rfl⟩
  | check cost => exact ⟨connected, one.step rfl rfl rfl False.elim, rfl⟩
  | generate call placed => exact ⟨connected, one.step rfl rfl rfl fun _ => found, rfl⟩
  | record cost => exact ⟨connected, one.step rfl rfl rfl False.elim, rfl⟩
  | pause ended le_ended => exact ⟨connected, one.step rfl rfl rfl False.elim, rfl⟩

theorem Course.keeps_handle
    {rule : Event → Log → Prop}
    (course : summarizer.Course rule start session)
    (connected : start.connected = true)
    (one : start.OneHandle) :
    session.OneHandle ∧ session.log.creations = start.log.creations := by
  have kept := course.invariant
    (P := fun session => session.connected = true ∧ session.OneHandle ∧
      session.log.creations = start.log.creations) ?_ ⟨connected, one, rfl⟩
  · exact kept.2
  · rintro before event after happens - ⟨beforeConnected, beforeOne, same⟩
    obtain ⟨afterConnected, afterOne, unchanged⟩ :=
      happens.keeps_handle beforeConnected beforeOne
    exact ⟨afterConnected, afterOne, unchanged.trans same⟩

/-! ### One attempt -/

/-- What an attempt asks of the factory, going by what happened before it: for a
handle with its credential, unless there is none or a handle has been made. -/
def asks (summarizer : Summarizer) (before : Log) : List Creation :=
  match summarizer.credential? with
  | some credential =>
      if before.handles.isEmpty then
        [⟨credential, summarizer.surroundings.create before credential, before⟩]
      else []
  | none => []

theorem connect_oneHandle
    (credential : String)
    (one : session.OneHandle)
    (unconnected : session.connected = false) :
    (summarizer.connect credential session).2.OneHandle := by
  have empty := one.handles_eq_nil unconnected
  rw [connect_of_unconnected credential unconnected]
  constructor
  · unfold Log.handles at empty ⊢
    simp only [Log.creations, List.filter_append, empty, List.nil_append]
    cases summarizer.surroundings.create session.log credential with
    | ok made => rfl
    | error cause => rfl
  · intro event before place isCall
    exact one.called_cons False.elim place isCall

/-- The handle that an attempt works with: one that was made before, or one that
it asks for. -/
theorem connect_handle
    {credential : String}
    (keyed : summarizer.credential? = some credential)
    (one : session.OneHandle) :
    let after := (summarizer.connect credential session).2
    after.OneHandle ∧
      after.log.creations = session.log.creations ++ summarizer.asks session.log ∧
      ((summarizer.connect credential session).1 = .ok () → after.connected = true) := by
  unfold asks
  rw [keyed]
  cases connected : session.connected with
  | true =>
      have found := one.handles_ne_nil connected
      rw [connect_of_connected credential connected]
      exact ⟨one, by simp [found], fun _ => connected⟩
  | false =>
      have empty := one.handles_eq_nil connected
      have asked : (summarizer.connect credential session).2.OneHandle :=
        connect_oneHandle credential one connected
      rw [connect_of_unconnected credential connected] at asked ⊢
      refine ⟨asked, by simp [Log.creations, empty], fun made => ?_⟩
      simp only at made ⊢
      rw [made]
      rfl

theorem attempt_handle
    (cancellation : Cancellation)
    (request : Request)
    (descriptor : Model.Descriptor)
    (one : session.OneHandle) :
    let after := (summarizer.attempt cancellation request descriptor session).2
    after.OneHandle ∧
      after.log.creations = session.log.creations ++ summarizer.asks session.log := by
  cases keyed : summarizer.credential? with
  | none =>
      rw [attempt_of_unkeyed keyed, asks, keyed]
      exact ⟨one, (List.append_nil _).symm⟩
  | some credential =>
      obtain ⟨connectOne, asked, connects⟩ := connect_handle keyed one
      cases outcome : (summarizer.connect credential session).1 with
      | error cause =>
          rw [attempt_of_unmade keyed outcome]
          exact ⟨connectOne, asked⟩
      | ok made =>
          obtain ⟨afterOne, unchanged⟩ :=
            (attempt_answers_of_made keyed outcome).course.keeps_handle (connects outcome)
              connectOne
          exact ⟨afterOne, unchanged.trans asked⟩

/-! ### Runs of requests -/

theorem Strides.handle
    {use : Use}
    {remaining : List Model.Id}
    {turns : List Turn}
    (strides : summarizer.Strides use remaining start turns final)
    (one : start.OneHandle) :
    final.OneHandle ∧
      final.log.creations =
        start.log.creations ++ turns.flatMap fun turn => summarizer.asks turn.found.log := by
  induction strides with
  | none remaining session => exact ⟨one, (List.append_nil _).symm⟩
  | last turn useEq stays =>
      rw [List.flatMap_singleton]
      exact attempt_handle turn.use.cancellation turn.use.request turn.descriptor one
  | interrupted turn useEq passes cancelled =>
      obtain ⟨attemptOne, asked⟩ :=
        attempt_handle turn.use.cancellation turn.use.request turn.descriptor one
      rw [List.flatMap_singleton]
      exact ⟨attemptOne.pause _ _, (Session.creations_pause _ _ _).trans asked⟩
  | @next turn later final useEq passes waited strides inductionHypothesis =>
      obtain ⟨attemptOne, asked⟩ :=
        attempt_handle turn.use.cancellation turn.use.request turn.descriptor one
      obtain ⟨finalOne, askedLater⟩ := inductionHypothesis (attemptOne.pause _ _)
      refine ⟨finalOne, askedLater.trans ?_⟩
      rw [List.flatMap_cons, ← List.append_assoc, ← asked]
      exact congrArg (· ++ _) (Session.creations_pause _ _ _)

theorem run_handle (start : Session) (uses : List Use) (one : start.OneHandle) :
    (summarizer.run start uses).OneHandle ∧
      (summarizer.run start uses).log.creations =
        start.log.creations ++
          (summarizer.turns start uses).flatMap fun turn => summarizer.asks turn.found.log := by
  induction uses generalizing start with
  | nil => exact ⟨one, (List.append_nil _).symm⟩
  | cons use later inductionHypothesis =>
      obtain ⟨nextOne, asked⟩ := (summarizer.summarize_strides use start).handle one
      obtain ⟨finalOne, askedLater⟩ := inductionHypothesis _ nextOne
      refine ⟨finalOne, askedLater.trans ?_⟩
      rw [asked, turns, List.flatMap_append, List.append_assoc]

theorem oneHandle_start (ledger : Usage.Ledger) : (Session.start ledger).OneHandle where
  handles_length := rfl
  called _ _ place := absurd (List.suffix_nil.mp place) (List.cons_ne_nil _ _)

theorem flatMap_asks
    {credential : String}
    (keyed : summarizer.credential? = some credential)
    (turns : List Turn) :
    (turns.flatMap fun turn => summarizer.asks turn.found.log) =
      (turns.filter fun turn => turn.found.log.handles.isEmpty).map fun turn =>
        ⟨credential, summarizer.surroundings.create turn.found.log credential,
          turn.found.log⟩ := by
  unfold asks
  rw [keyed]
  induction turns with
  | nil => rfl
  | cons turn later inductionHypothesis =>
      rw [List.flatMap_cons, inductionHypothesis, List.filter_cons]
      cases turn.found.log.handles.isEmpty with
      | true => rfl
      | false => rfl

/-! ### Without a credential -/

theorem credential?_eq_some_iff {credential : String} :
    summarizer.credential? = some credential ↔
      summarizer.credential = some credential ∧ credential ≠ "" := by
  unfold credential?
  rw [Option.filter_eq_some_iff, bne_iff_ne]

theorem credential?_eq_none_iff :
    summarizer.credential? = none ↔
      summarizer.credential = none ∨ summarizer.credential = some "" := by
  unfold credential?
  cases summarizer.credential with
  | none => simp
  | some credential => simp

theorem not_passesOn_of_unkeyed (unkeyed : summarizer.credential? = Option.none) (turn : Turn) :
    ¬ summarizer.PassesOn turn := by
  have attempted : (summarizer.attemptOf turn).1 = .finished (.error _) :=
    congrArg Prod.fst (attempt_of_unkeyed unkeyed)
  rw [passesOn_iff_of_finished attempted]
  rintro ⟨-, fails⟩
  contradiction

/-- Without a credential a request leaves everything as it finds it. -/
theorem Strides.eq_of_unkeyed
    {use : Use}
    {remaining : List Model.Id}
    {turns : List Turn}
    (unkeyed : summarizer.credential? = Option.none)
    (strides : summarizer.Strides use remaining start turns final) :
    final = start := by
  cases strides with
  | none remaining session => rfl
  | last turn useEq stays => exact congrArg Prod.snd (attempt_of_unkeyed unkeyed)
  | interrupted turn useEq passes cancelled =>
      exact absurd passes (not_passesOn_of_unkeyed unkeyed turn)
  | next turn useEq passes waited more =>
      exact absurd passes (not_passesOn_of_unkeyed unkeyed turn)

theorem run_eq_of_unkeyed
    (unkeyed : summarizer.credential? = Option.none)
    (start : Session)
    (uses : List Use) :
    summarizer.run start uses = start := by
  induction uses generalizing start with
  | nil => rfl
  | cons use later inductionHypothesis =>
      have unchanged := (summarizer.summarize_strides use start).eq_of_unkeyed unkeyed
      exact (inductionHypothesis _).trans unchanged

theorem summarize_of_unkeyed
    {cancellation : Cancellation}
    {request : Request}
    {model : Model.Id}
    {descriptor : Model.Descriptor}
    (unkeyed : summarizer.credential? = Option.none)
    (supported : summarizer.catalog.supports request.family = true)
    (first : (summarizer.candidates request).head? = some model)
    (described : summarizer.catalog.descriptor? model = some descriptor)
    (live : session.isCancelledBy cancellation session.now = false) :
    summarizer.summarize cancellation request session =
      (.error (.missingCredential request.family.name), session) := by
  obtain ⟨rest, candidates⟩ := List.head?_eq_some_iff.mp first
  have refused : summarizer.attempt cancellation request descriptor session =
      (.finished (.error (.missingCredential request.family.name)), session) :=
    attempt_of_unkeyed unkeyed
  rw [summarizer.summarize_supported _ _ _ supported, candidates,
    walk_of_settles described live (congrArg Prod.fst refused) (.fatal rfl), refused]

/-- A new summarizer carries out any requests, whatever the factory answers. At
most one handle is made, and it had been made before every call. With a
credential the factory is asked exactly once by each attempt that finds no
handle, be it that none was asked for or that the factory failed, and never
again; with a missing or an empty one nothing happens at all, and every request
that comes to attempt its first candidate fails for want of a credential. -/
theorem run_with_one_handle
    (summarizer : Summarizer)
    (ledger : Usage.Ledger)
    (uses : List Use) :
    let final := summarizer.run (.start ledger) uses
    let turns := summarizer.turns (.start ledger) uses
    (∀ turn,
      turn ∈ turns ↔
        ∃ earlier later, uses = earlier ++ turn.use :: later ∧
          summarizer.catalog.supports turn.use.request.family = true ∧ ∃ tried,
            summarizer.InTurn turn.use.cancellation turn.use.request
              (summarizer.candidates turn.use.request)
              (summarizer.run (.start ledger) earlier) tried turn.rest turn.model
              turn.descriptor turn.found) ∧
    final.log.handles.length ≤ 1 ∧
    (∀ (event : Event) (before : Log), event :: before <:+ final.log → event.IsCall →
      ∃ handle, before.handles = [handle] ∧ final.log.handles = [handle]) ∧
    (∀ credential, summarizer.credential = some credential → credential ≠ "" →
      final.log.creations =
        (turns.filter fun turn => turn.found.log.handles.isEmpty).map fun turn =>
          ⟨credential, summarizer.surroundings.create turn.found.log credential,
            turn.found.log⟩) ∧
    (summarizer.credential = none ∨ summarizer.credential = some "" →
      final = .start ledger ∧
      ∀ cancellation request model descriptor,
        summarizer.catalog.supports request.family = true →
        (summarizer.candidates request).head? = some model →
        summarizer.catalog.descriptor? model = some descriptor →
        final.isCancelledBy cancellation final.now = false →
          summarizer.summarize cancellation request final =
            (.error (.missingCredential request.family.name), final)) := by
  intro final turns
  obtain ⟨one, asked⟩ :
      final.OneHandle ∧
        final.log.creations =
          [] ++ turns.flatMap fun turn => summarizer.asks turn.found.log :=
    run_handle (.start ledger) uses (oneHandle_start ledger)
  have atMostOne : final.log.handles.length ≤ 1 := by
    rw [one.handles_length]
    exact Bool.toNat_le _
  refine ⟨fun turn => mem_turns_iff, atMostOne, ?_, ?_, ?_⟩
  · intro event before place isCall
    have earlier := Log.handles_prefix_of_suffix ((List.suffix_cons event before).trans place)
    have found := List.length_pos_iff.mpr (one.called event before place isCall)
    have same := earlier.eq_of_length_le (Nat.le_trans atMostOne found)
    rw [same] at found
    obtain ⟨handle, made⟩ := List.length_eq_one_iff.mp (Nat.le_antisymm atMostOne found)
    exact ⟨handle, same.trans made, made⟩
  · intro credential given notEmpty
    rw [asked, List.nil_append]
    exact flatMap_asks (credential?_eq_some_iff.mpr ⟨given, notEmpty⟩) turns
  · intro missing
    have unkeyed := credential?_eq_none_iff.mpr missing
    exact ⟨run_eq_of_unkeyed unkeyed _ uses, fun _ _ _ _ supported first described live =>
      summarize_of_unkeyed unkeyed supported first described live⟩

end Summarizer

end Precis.Summary
