import Mathlib.Data.List.Perm.Basic
import Precis.Command.Gateway
import Precis.Proofs.Service.Base
import Precis.Proofs.Service.Independence
import Precis.Proofs.Service.LifeCycle

/-!
Contract: what the probes of a gateway send.

Owns the requests of the probes, service by service and in the order of time,
and that a service which is ready has answered one of its probes so before the
wait for all of them ended.

Does not own what the gateway does before and after it waits.
-/

namespace Precis.Command

open Service

/-! ### Requests to one service -/

/-- What was sent to a service, in the order of time. -/
def sentTo (service : String) (sent : List SentTo) : List Http.Sent :=
  (sent.filter fun each => each.service = service).map SentTo.sent

theorem sentTo_append (service : String) (front back : List SentTo) :
    sentTo service (front ++ back) = sentTo service front ++ sentTo service back := by
  rw [sentTo, List.filter_append, List.map_append]
  rfl

theorem perm_inOrder (sent : List SentTo) : (inOrder sent).Perm sent :=
  List.mergeSort_perm _ _

/-- To bring requests into the order of time does not move those to a service
that was asked one request after the other. -/
theorem sentTo_inOrder
    {service : String}
    {sent : List SentTo}
    (sorted : ((sentTo service sent).map Http.Sent.moment).Pairwise (· ≤ ·)) :
    sentTo service (inOrder sent) = sentTo service sent := by
  have inTime : (sent.filter fun each => each.service = service).Pairwise fun first second =>
      decide (first.sent.moment ≤ second.sent.moment) = true := by
    rw [sentTo, List.map_map, List.pairwise_map] at sorted
    exact sorted.imp decide_eq_true
  have transitive : ∀ first second third : SentTo,
      decide (first.sent.moment ≤ second.sent.moment) = true →
        decide (second.sent.moment ≤ third.sent.moment) = true →
          decide (first.sent.moment ≤ third.sent.moment) = true :=
    fun _ _ _ before after =>
      decide_eq_true (Nat.le_trans (of_decide_eq_true before) (of_decide_eq_true after))
  have total : ∀ first second : SentTo,
      (decide (first.sent.moment ≤ second.sent.moment) ||
        decide (second.sent.moment ≤ first.sent.moment)) = true := by
    intro first second
    simp only [Bool.or_eq_true, decide_eq_true_eq]
    exact Nat.le_total _ _
  have kept : (sent.filter fun each => each.service = service).Sublist (inOrder sent) :=
    List.sublist_mergeSort transitive total inTime List.filter_sublist
  have keptAgain := kept.filter fun each => each.service = service
  rw [List.filter_filter] at keptAgain
  simp only [Bool.and_self] at keptAgain
  have length := ((perm_inOrder sent).filter fun each => each.service = service).length_eq
  exact congrArg (List.map SentTo.sent) (keptAgain.eq_of_length length.symm).symm

/-- The server of a service answers the request to it that has an index, after
those before it, within the limit and no later than a moment. -/
def AnsweredBy
    (servers : Servers)
    (limit : Duration)
    (sent : List SentTo)
    (service : String)
    (index : Nat)
    (request : Http.Request)
    (response : Http.Response)
    (moment : Nat) : Prop :=
  ∃ started delay,
    (sentTo service sent)[index]? = some ⟨started, request⟩ ∧
      servers service (((sentTo service sent).take index).map Http.Sent.request).reverse request =
        some { delay, response := some response } ∧
      delay ≤ limit.nanoseconds ∧ started + delay ≤ moment

/-- By a moment, a probe of a service over a connection was answered with a
report that the service serves. -/
def HasReported
    (servers : Servers)
    (limit : Duration)
    (sent : List SentTo)
    (service : String)
    (connection : Connection)
    (moment : Nat) : Prop :=
  ∃ index response,
    AnsweredBy servers limit sent service index (probeOf connection) response moment ∧
      Http.isSuccess response.status = true ∧
      Connection.healthReport? response = some { status := .serving }

/-! ### The probes of one service -/

section Probes

variable {settings : Settings.GatewaySettings} {servers : Servers} {service address : String}
  {connection : Connection}

/-- The probes of a service that start at given moments. -/
def probesAt (service : String) (connection : Connection) (starts : List Nat) : List SentTo :=
  starts.map fun moment => { service, sent := { moment, request := probeOf connection } }

theorem sentTo_probesAt (starts : List Nat) :
    sentTo service (probesAt service connection starts) =
      starts.map (Http.Sent.mk · (probeOf connection)) := by
  simp [sentTo, probesAt, List.filter_map, Function.comp_def]

theorem sentTo_probesAt_of_ne
    {other : String}
    (different : other ≠ service)
    (starts : List Nat) :
    sentTo service (probesAt other connection starts) = [] := by
  simp [sentTo, probesAt, List.filter_map, Function.comp_def, different]

variable [Url.DomainCoding] (connected : Connection.connect service address = .ok connection)

include connected

theorem sentByProbes_eq (starts : List Nat) :
    sentByProbes settings servers service (.opened connection) starts =
      probesAt service connection starts := by
  have one (index : Nat) :
      (gatewayProbe settings servers service (.opened connection) index).sent =
        [probeOf connection] :=
    sent_check connected _ _
  unfold sentByProbes probesAt
  simp only [one, List.map_cons, List.map_nil, ← List.map_eq_flatMap]
  conv_rhs => rw [← List.zipIdx_map_fst 0 starts, List.map_map]
  rfl

/-- A probe that finds its service serving was answered so. -/
theorem exists_response_of_serving
    {index : Nat}
    (serving : (gatewayScript settings servers service (.opened connection) index).answer =
      .ok .serving) :
    ∃ delay response,
      servers service (List.replicate index (probeOf connection)) (probeOf connection) =
        some { delay, response := some response } ∧
      delay ≤ settings.healthTimeout.nanoseconds ∧
      (gatewayScript settings servers service (.opened connection) index).duration = some delay ∧
      Http.isSuccess response.status = true ∧
      Connection.healthReport? response = some { status := .serving } := by
  obtain ⟨response, ⟨delay, inTime, answered⟩, success, report⟩ :=
    (check_result_eq_ok_iff connected _ _).mp serving
  refine ⟨delay, response, answered, inTime, ?_, success, report⟩
  exact congrArg some (check_delay_of_answered connected _ _ answered inTime)

end Probes

/-! ### The probes of all services -/

section All

variable (startsOf : String × Held Connection → List Nat)

theorem sentTo_flatten_of_not_mem
    {service : String}
    {found : List (String × Held Connection)}
    (absent : service ∉ found.map Prod.fst) :
    sentTo service
      (found.map fun each => probesAt each.1 each.2.connection (startsOf each)).flatten = [] := by
  induction found with
  | nil => rfl
  | cons head tail inductionHypothesis =>
      rw [List.map_cons, List.mem_cons, not_or] at absent
      rw [List.map_cons, List.flatten_cons, sentTo_append,
        sentTo_probesAt_of_ne (Ne.symm absent.1), inductionHypothesis absent.2, List.append_nil]

/-- Among the probes of services with distinct names, those of one are kept apart. -/
theorem sentTo_flatten
    {service : String}
    {held : Held Connection}
    {found : List (String × Held Connection)}
    (distinct : (found.map Prod.fst).Nodup)
    (member : (service, held) ∈ found) :
    sentTo service
      (found.map fun each => probesAt each.1 each.2.connection (startsOf each)).flatten =
      (startsOf (service, held)).map (Http.Sent.mk · (probeOf held.connection)) := by
  induction found with
  | nil => cases member
  | cons head tail inductionHypothesis =>
      rw [List.map_cons, List.nodup_cons] at distinct
      rw [List.map_cons, List.flatten_cons, sentTo_append]
      rcases List.mem_cons.mp member with rfl | later
      · rw [sentTo_probesAt, sentTo_flatten_of_not_mem _ distinct.1, List.append_nil]
      · have different : head.1 ≠ service :=
          fun same => distinct.1 (same ▸ List.mem_map_of_mem later)
        rw [sentTo_probesAt_of_ne different, List.nil_append,
          inductionHypothesis distinct.2 later]

end All

section Wait

variable [Url.DomainCoding] (settings : Settings.GatewaySettings) (servers : Servers)
  (began : ClockReading)

/-- The gate of a gateway. -/
def gateOf : Gate := .ofInterval settings.healthInterval

/-- The wait for one service. -/
def waitFor (service : String) (held : Held Connection) : Wait :=
  (gateOf settings).poll (began.deadline settings.healthTimeout)
    (gatewayScript settings servers service held)

/-- The services that a gateway waits for. -/
def watchedIn (pool : Pool Connection) : List Watched :=
  pool.watched Connection.name (gatewayScript settings servers)

/-- How the wait of a gateway for its services ends. -/
def verdictOn (pool : Pool Connection) : Verdict :=
  (gateOf settings).await settings.healthTimeout (watchedIn settings servers pool) began

/-- What the probes of all services sent. -/
def probesOf (pool : Pool Connection) : List SentTo :=
  inOrder (pool.connections.map fun found =>
    sentByProbes settings servers found.1 found.2
      (waitFor settings servers began found.1 found.2).starts).flatten

theorem waitFor_finish_le_elapsed
    {pool : Pool Connection}
    {service : String}
    {held : Held Connection}
    (member : (service, held) ∈ pool.connections) :
    (waitFor settings servers began service held).finish ≤
      (verdictOn settings servers began pool).elapsed := by
  have watched : Watched.mk held.connection.name (gatewayScript settings servers service held) ∈
      watchedIn settings servers pool :=
    List.mem_map.mpr ⟨_, member, rfl⟩
  exact Gate.finish_le_elapsed (Gate.mem_waits_iff.mpr ⟨_, watched, rfl⟩)

variable {services : List (ServiceConfig × Connection)}
  (connected : Connected httpConnector services)

include connected

theorem probesOf_holding :
    probesOf settings servers began (Pool.holding services) =
      inOrder ((Pool.holding services).connections.map fun found =>
        probesAt found.1 found.2.connection
          (waitFor settings servers began found.1 found.2).starts).flatten := by
  unfold probesOf
  congr 2
  refine List.map_congr_left fun found member => ?_
  obtain ⟨config, connection, inServices, sameName, isOpen⟩ :=
    (Pool.mem_connections_holding_iff connected).mp member
  rw [isOpen, ← sameName]
  exact sentByProbes_eq (connected.connects inServices) _

/-- What was sent to a service while the gateway waited: its probes. -/
theorem sentTo_probesOf
    {service : String}
    {held : Held Connection}
    (member : (service, held) ∈ (Pool.holding services).connections) :
    sentTo service (probesOf settings servers began (Pool.holding services)) =
      (waitFor settings servers began service held).starts.map
        (Http.Sent.mk · (probeOf held.connection)) := by
  have wellFormed := Pool.wellFormed_holding connected
  have distinct : ((Pool.holding services).connections.map Prod.fst).Nodup := by
    rw [wellFormed.map_fst_connections]
    exact wellFormed.names_ascending.imp ne_of_lt
  have apart := sentTo_flatten
    (fun found => (waitFor settings servers began found.1 found.2).starts) distinct member
  rw [probesOf_holding _ _ _ connected, sentTo_inOrder, apart]
  rw [apart, List.map_map]
  show ((waitFor settings servers began service held).starts.map id).Pairwise (· ≤ ·)
  rw [List.map_id]
  exact Gate.poll_starts_sorted

/-- Every request while the gateway waits is a probe of one of the services. -/
theorem mem_probesOf
    {each : SentTo}
    (member : each ∈ probesOf settings servers began (Pool.holding services)) :
    ∃ config connection, (config, connection) ∈ services ∧ each.service = config.name ∧
      each.sent.request = probeOf connection ∧
      each.sent.moment ≤ (verdictOn settings servers began (Pool.holding services)).elapsed := by
  rw [probesOf_holding _ _ _ connected, (perm_inOrder _).mem_iff] at member
  obtain ⟨_, foundMember, eachMember⟩ := List.mem_flatten.mp member
  obtain ⟨found, inPool, rfl⟩ := List.mem_map.mp foundMember
  obtain ⟨moment, isStart, rfl⟩ := List.mem_map.mp eachMember
  obtain ⟨index, atIndex⟩ := List.getElem?_of_mem isStart
  obtain ⟨config, connection, inServices, sameName, isOpen⟩ :=
    (Pool.mem_connections_holding_iff connected).mp inPool
  have early := (Gate.start_le_poll_finish atIndex).trans (waitFor_finish_le_elapsed _ _ _ inPool)
  exact ⟨config, connection, inServices, sameName.symm, by rw [isOpen]; rfl, early⟩

/-- A service that is ready in time has reported so before the wait for all ends. -/
theorem hasReported_of_serves
    {config : ServiceConfig}
    {connection : Connection}
    (member : (config, connection) ∈ services)
    (serves : (gateOf settings).Serves (began.deadline settings.healthTimeout)
      (gatewayScript settings servers config.name (.opened connection))) :
    HasReported servers settings.healthTimeout
      (probesOf settings servers began (Pool.holding services)) config.name connection
      (verdictOn settings servers began (Pool.holding services)).elapsed := by
  have inPool : (config.name, Held.opened connection) ∈ (Pool.holding services).connections :=
    (Pool.mem_connections_holding_iff connected).mpr ⟨config, connection, member, rfl, rfl⟩
  obtain ⟨index, servesAt⟩ := serves
  obtain ⟨started, duration, starting, early, ending, serving, -⟩ := id servesAt
  obtain ⟨delay, response, answered, inTime, takes, success, report⟩ :=
    exists_response_of_serving (connected.connects member) serving
  obtain rfl := Option.some.inj (takes.symm.trans ending)
  have isStart := (Gate.getElem?_poll_starts index started).mpr ⟨starting, early⟩
  have finished : (waitFor settings servers began config.name (.opened connection)).finish =
      started + delay :=
    Gate.poll_finish_of_servesAt servesAt starting ending
  have sent := sentTo_probesOf settings servers began connected inPool
  refine ⟨index, response, ⟨started, delay, ?_, ?_, inTime, ?_⟩, success, report⟩
  · rw [sent, List.getElem?_map]
    exact congrArg (Option.map _) isStart
  · have before :
        index ≤ (waitFor settings servers began config.name (.opened connection)).starts.length :=
      (List.getElem?_eq_some_iff.mp isStart).1.le
    rw [sent, ← List.map_take, List.map_map]
    show servers config.name ((List.map (Function.const Nat (probeOf connection)) _).reverse) _ = _
    rw [List.map_const, List.length_take, Nat.min_eq_left before, List.reverse_replicate]
    exact answered
  · rw [← finished]
    exact waitFor_finish_le_elapsed _ _ _ inPool

end Wait

end Precis.Command
