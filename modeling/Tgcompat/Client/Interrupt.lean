import Tgcompat.Broker.Fifo
import Tgcompat.Client.Calls

/-!
# Interrupted calls

One call of `tgc_client_semop` or `tgc_client_semtimedop`, its socket and the broker, from the
moment the request was sent. The worker takes the request off the socket, the reply travels back,
and a signal may interrupt the client as long as the reply is not there: `receive_exact` then
returns `EINTR`, and the client closes its socket and returns. The bytes of a request that was not
taken yet stay readable after that. The client's end is open until the client closes it.

The broker looks at the peer only in the wait loop. So the request may be applied although the
call was interrupted: before the signal, when the reply is still on its way; after it, when the
worker takes the request only then, or when a waiter is retried before the socket is closed. In
all other runs an interrupted request is not applied.
-/

namespace Tgcompat

/-- Where the client is in its call. -/
inductive ClientPhase where
  /-- waiting for the reply -/
  | receiving
  /-- `recv` has returned `EINTR`, the socket is still open -/
  | interrupted
  /-- the call has returned -/
  | returned (result : Int32)
  deriving DecidableEq, Repr

/-- `taken` is the number of the request once the worker has it. -/
structure Session where
  broker : Broker
  taken : Option ℕ
  replied : Bool
  closed : Bool
  client : ClientPhase

inductive SessionEvent where
  /-- the worker receives the request and runs `dispatch_request` up to the first wait -/
  | take (view : Broker.ArrivalView)
  /-- any other event of the broker -/
  | broker (event : Broker.Event)
  /-- the worker sends the reply -/
  | reply
  /-- the client receives the reply -/
  | receive
  /-- the client finds the connection closed by the worker -/
  | hangUp
  /-- a signal interrupts `recv` -/
  | interrupt
  /-- the client closes its socket and returns `EINTR` -/
  | close

namespace Session

/-- The request was sent and nobody has taken it. -/
def start (b : Broker) : Session where
  broker := b
  taken := none
  replied := false
  closed := false
  client := .receiving

/-- What `dispatch_request` returned for the request. -/
def outcome? (s : Session) : Option Outcome := do
  let r ← s.taken
  match s.broker.requests r with
  | some ⟨_, _, .finished outcome⟩ => some outcome
  | _ => none

/-- An iteration of the request sees the peer closed exactly when the client has closed. -/
def observes (s : Session) : Broker.Event → Bool
  | .wake r view => s.taken ≠ some r || decide (view.iteration.peerClosed = s.closed)
  | _ => true

def step (request : ProtocolPacket) (actor : BrokerActor) (s : Session) :
    SessionEvent → Option Session
  | .take view =>
    if s.taken = none ∧ view.iteration.peerClosed = s.closed then
      (s.broker.arrive request actor view).map fun b =>
        { s with broker := b, taken := some s.broker.arrivals }
    else none
  | .broker event =>
    if s.observes event then (s.broker.step event).map fun b => { s with broker := b } else none
  | .reply =>
    match s.outcome? with
    | some outcome =>
      if outcome.ret = 0 ∧ s.replied = false then some { s with replied := true } else none
    | none => none
  | .receive =>
    match s.outcome? with
    | some outcome =>
      if s.client = .receiving ∧ s.replied = true then
        some { s with
          client := .returned (semopReply request outcome.response).1
          closed := (semopReply request outcome.response).2 }
      else none
    | none => none
  | .hangUp =>
    match s.outcome? with
    | some outcome =>
      if s.client = .receiving ∧ outcome.ret ≠ 0 then
        some { s with client := .returned (-ECONNRESET), closed := true }
      else none
    | none => none
  | .interrupt =>
    if s.client = .receiving ∧ s.replied = false then some { s with client := .interrupted }
    else none
  | .close =>
    if s.client = .interrupted then
      some { s with client := .returned (-EINTR), closed := true }
    else none

/-! ### The condition -/

/-- The request is queued as a waiter, or was refused. -/
def cancellable (s : Session) : Bool :=
  match s.taken with
  | none => false
  | some r =>
    match s.broker.requests r with
    | some ⟨_, _, .waiting _⟩ => true
    | some ⟨_, _, .finished outcome⟩ =>
      decide (outcome.ret ≠ 0 ∨ outcome.response.header.result ≠ 0)
    | none => false

/-- The condition on a step: a signal finds the request queued or refused, and no retry that would
be applied runs between the signal and the close. -/
def cancels (request : ProtocolPacket) (actor : BrokerActor) (s : Session) : SessionEvent → Bool
  | .interrupt => s.cancellable
  | .broker (.wake r _) =>
    s.client ≠ .interrupted || s.taken ≠ some r || !commits s.broker.store request actor
  | _ => true

/-! ### The invariant -/

variable {request : ProtocolPacket} {actor : BrokerActor} {s s' : Session} {r : ℕ}

/-- The request with this number was not applied, and if it still waits the client has closed. -/
structure Settled (s : Session) (r : ℕ) : Prop where
  taken : s.taken = some r
  unapplied : s.broker.applied r = 0
  ended : s.closed = true ∨ ∃ packet actor outcome,
    s.broker.requests r = some ⟨packet, actor, .finished outcome⟩

/-- An interrupted request is queued or was refused, and a call that returned `EINTR` is over. -/
structure Ok (request : ProtocolPacket) (actor : BrokerActor) (s : Session) : Prop where
  inv : s.broker.Inv
  own : ∀ r, s.taken = some r → ∃ status, s.broker.requests r = some ⟨request, actor, status⟩
  interrupted : s.client = .interrupted → ∃ r, s.taken = some r ∧ s.broker.applied r = 0
  returned : s.client = .returned (-EINTR) → ∃ r, s.Settled r

lemma ok_start {b : Broker} (h : b.Inv) : (start b).Ok request actor where
  inv := h
  own := by
    intro r hr
    cases hr
  interrupted := by
    intro hc
    cases hc
  returned := by
    intro hc
    cases hc

/-- A finished request that was refused was not applied. -/
lemma Ok.outcome_unapplied (h : s.Ok request actor) {outcome : Outcome}
    (ho : s.outcome? = some outcome) (hne : outcome.ret ≠ 0 ∨ outcome.response.header.result ≠ 0) :
    ∃ r, s.taken = some r ∧ s.broker.applied r = 0 ∧ ∃ packet actor outcome,
      s.broker.requests r = some ⟨packet, actor, .finished outcome⟩ := by
  obtain ⟨r, hr, ho⟩ := Option.bind_eq_some_iff.mp ho
  split at ho
  · next packet actor' outcome' hfinished =>
    cases ho
    exact ⟨r, hr, (h.inv.core.outcomes r _ _ _ hfinished).never hne, _, _, _, hfinished⟩
  · cases ho

lemma Ok.cancellable_unapplied (h : s.Ok request actor) (hc : s.cancellable = true) :
    ∃ r, s.taken = some r ∧ s.broker.applied r = 0 := by
  rw [cancellable] at hc
  split at hc
  · cases hc
  · next r hr =>
    refine ⟨r, hr, ?_⟩
    split at hc
    · next packet actor' frame hwaiting =>
      exact (h.inv.core.frames r _ _ _ hwaiting).unapplied
    · next packet actor' outcome hfinished =>
      exact (h.inv.core.outcomes r _ _ _ hfinished).never (of_decide_eq_true hc)
    · cases hc

/-! ### Events of the broker -/

/-- The request keeps its packet and its actor. -/
lemma request_kept {b b' : Broker} (hinv : b.Inv) {event : Broker.Event} (h : b.Steps event b')
    {status : Status} (hr : b.requests r = some ⟨request, actor, status⟩) :
    ∃ status', b'.requests r = some ⟨request, actor, status'⟩ := by
  cases status with
  | waiting frame =>
    rcases h.waiter hinv hr with ⟨frame', hwaits, -⟩ | ⟨outcome, hfinished, -, -⟩
    · exact ⟨_, hwaits⟩
    · exact ⟨_, hfinished⟩
  | finished outcome => exact ⟨_, (h.finished hinv hr).1⟩

/-- An event of the broker does not apply the request, unless it retries it with success. -/
lemma Ok.unapplied_step (h : s.Ok request actor) {event : Broker.Event} {b' : Broker}
    (hsteps : s.broker.Steps event b') (hr : s.taken = some r) (hobserves : s.observes event = true)
    (hsafe : s.closed = true ∨ (∃ packet actor outcome,
        s.broker.requests r = some ⟨packet, actor, .finished outcome⟩) ∨
      ∀ view, event = .wake r view → commits s.broker.store request actor = false) :
    b'.applied r = s.broker.applied r := by
  obtain ⟨status, hstatus⟩ := h.own r hr
  by_cases hruns : some r = event.runs s.broker
  · obtain ⟨view, frame, rfl, hwaiting, hturn⟩ := hsteps.woken_of_runs h.inv hruns hstatus
    refine hturn.unapplied ?_
    rcases hsafe with hclosed | ⟨packet, actor', outcome, hfinished⟩ | hcommits
    · left
      simpa [observes, hr, hclosed] using hobserves
    · cases hstatus.symm.trans hfinished
      cases hwaiting
    · exact Or.inr (hcommits view rfl)
  · exact hsteps.applied_of_ne hruns

lemma Ok.broker (h : s.Ok request actor) {event : Broker.Event} {b' : Broker}
    (hstep : s.broker.step event = some b') (hobserves : s.observes event = true)
    (hcancels : s.cancels request actor (.broker event) = true) :
    ({ s with broker := b' } : Session).Ok request actor := by
  obtain ⟨hsteps, hinv⟩ := h.inv.steps hstep
  refine ⟨hinv, ?_, ?_, ?_⟩
  · intro r hr
    obtain ⟨status, hstatus⟩ := h.own r hr
    exact request_kept h.inv hsteps hstatus
  · intro hclient
    obtain ⟨r, hr, hzero⟩ := h.interrupted hclient
    refine ⟨r, hr, ?_⟩
    refine (h.unapplied_step hsteps hr hobserves (Or.inr (Or.inr ?_))).trans hzero
    rintro view rfl
    have hclient' : s.client = .interrupted := hclient
    simpa [cancels, hclient', hr] using hcancels
  · intro hclient
    obtain ⟨r, hr, hzero, hended⟩ := h.returned hclient
    have happlied : b'.applied r = s.broker.applied r :=
      h.unapplied_step hsteps hr hobserves (hended.imp_right Or.inl)
    refine ⟨r, hr, happlied.trans hzero, ?_⟩
    rcases hended with hclosed | ⟨packet, actor', outcome, hfinished⟩
    · exact Or.inl hclosed
    · exact Or.inr ⟨packet, actor', outcome, (hsteps.finished h.inv hfinished).1⟩

/-- The reply makes the call return `EINTR` only if the answer is that. -/
lemma result_ne_zero_of_semopReply {response : ProtocolPacket}
    (h : (semopReply request response).1 = -EINTR) : response.header.result ≠ 0 := by
  intro hzero
  rw [semopReply] at h
  split_ifs at h with h1 h2 h3
  · exact absurd h (by decide)
  · exact absurd h (by decide)
  · exact absurd h (by decide)
  · rw [hzero] at h
    exact absurd h (by decide)

/-! ### Steps of the session -/

/-- The worker takes the request. -/
lemma Ok.take (h : s.Ok request actor) (hnone : s.taken = none) {view : Broker.ArrivalView}
    {b' : Broker} (harrive : s.broker.arrive request actor view = some b') :
    ({ s with broker := b', taken := some s.broker.arrivals } : Session).Ok request actor := by
  obtain ⟨harrived, hinv⟩ := h.inv.arrive harrive
  have htaken : ∀ r, s.taken ≠ some r := by
    intro r hr
    rw [hnone] at hr
    cases hr
  refine ⟨hinv, ?_, ?_, ?_⟩
  · intro r hr
    cases hr
    obtain ⟨status, heq, -⟩ := harrived.request
    exact ⟨status, heq⟩
  · intro hclient
    obtain ⟨r, hr, -⟩ := h.interrupted hclient
    exact absurd hr (htaken r)
  · intro hclient
    obtain ⟨r, hr, -, -⟩ := h.returned hclient
    exact absurd hr (htaken r)

/-- The call returns after `dispatch_request` has, with `EINTR` only if the request was refused. -/
lemma Ok.returns (h : s.Ok request actor) {outcome : Outcome} (houtcome : s.outcome? = some outcome)
    {result : Int32} (closed : Bool)
    (hresult : result = -EINTR → outcome.ret ≠ 0 ∨ outcome.response.header.result ≠ 0) :
    ({ s with client := .returned result, closed := closed } : Session).Ok request actor := by
  refine ⟨h.inv, h.own, ?_, ?_⟩
  · intro hclient
    cases hclient
  · intro hclient
    rw [ClientPhase.returned.injEq] at hclient
    obtain ⟨r, hr, hzero, hfinished⟩ := h.outcome_unapplied houtcome (hresult hclient)
    exact ⟨r, hr, hzero, Or.inr hfinished⟩

lemma Ok.closes (h : s.Ok request actor) (hclient : s.client = .interrupted) :
    ({ s with client := .returned (-EINTR), closed := true } : Session).Ok request actor := by
  refine ⟨h.inv, h.own, ?_, ?_⟩
  · intro hc
    cases hc
  · intro _
    obtain ⟨r, hr, hzero⟩ := h.interrupted hclient
    exact ⟨r, hr, hzero, Or.inl rfl⟩

theorem Ok.step (h : s.Ok request actor) {event : SessionEvent}
    (hcancels : s.cancels request actor event = true)
    (hstep : s.step request actor event = some s') : s'.Ok request actor := by
  cases event with
  | take view =>
    simp only [Session.step] at hstep
    split_ifs at hstep with htake
    obtain ⟨b', harrive, rfl⟩ := Option.map_eq_some_iff.mp hstep
    exact h.take htake.1 harrive
  | broker event =>
    simp only [Session.step] at hstep
    split_ifs at hstep with hobserves
    obtain ⟨b', hb', rfl⟩ := Option.map_eq_some_iff.mp hstep
    exact h.broker hb' hobserves hcancels
  | reply =>
    simp only [Session.step] at hstep
    split at hstep
    · split_ifs at hstep
      cases hstep
      refine ⟨h.inv, h.own, h.interrupted, fun hclient => ?_⟩
      obtain ⟨r, hr, hzero, hended⟩ := h.returned hclient
      exact ⟨r, hr, hzero, hended⟩
    · cases hstep
  | receive =>
    simp only [Session.step] at hstep
    split at hstep
    · next outcome houtcome =>
      split_ifs at hstep
      cases hstep
      exact h.returns houtcome _ fun heq => Or.inr (result_ne_zero_of_semopReply heq)
    · cases hstep
  | hangUp =>
    simp only [Session.step] at hstep
    split at hstep
    · next outcome houtcome =>
      split_ifs at hstep with hret
      cases hstep
      exact h.returns houtcome _ fun _ => Or.inl hret.2
    · cases hstep
  | interrupt =>
    simp only [Session.step] at hstep
    split_ifs at hstep
    cases hstep
    refine ⟨h.inv, h.own, fun _ => h.cancellable_unapplied hcancels, fun hclient => ?_⟩
    cases hclient
  | close =>
    simp only [Session.step] at hstep
    split_ifs at hstep with hclient
    cases hstep
    exact h.closes hclient

/-- In the runs where every signal finds the request queued or refused and no retry that would be
applied runs between the signal and the close, a request whose call returned `EINTR` was taken by
the broker and is not applied, in any state of the run. -/
theorem interrupted_call_not_applied {b : Broker} (h : b.Reachable) {events : List SessionEvent}
    (hexec : Transition.exec (step request actor) (start b) events = some s)
    (hmeets : Transition.Along (step request actor)
      (fun s event => s.cancels request actor event = true) (start b) events)
    (hreturned : s.client = .returned (-EINTR)) :
    ∃ r, s.taken = some r ∧ s.broker.applied r = 0 := by
  have hok : s.Ok request actor :=
    Transition.exec_invariant_along (fun _ _ _ hok hcancels hstep => hok.step hcancels hstep)
      (ok_start (Broker.inv_reachable h)) hmeets hexec
  obtain ⟨r, hr, hzero, -⟩ := hok.returned hreturned
  exact ⟨r, hr, hzero⟩

/-- A view in which nothing fails and the peer is closed or not. -/
def plainView (request : ProtocolPacket) (peerClosed : Bool) : Broker.ArrivalView where
  lockError := none
  lookup := .pidfd
  env := ⟨true, 5⟩
  response := request
  clock := .ok ⟨5, 0⟩
  iteration := ⟨peerClosed, ⟨true, 5⟩, none⟩

/-- A request that adds or takes one unit of the semaphore of the first set. -/
def changeUnit (amount : Int16) : ProtocolPacket :=
  semopRequest (fun _ => 0) (makeId 0 1) [⟨0, amount, 0⟩] none

def signaller : BrokerActor := ⟨43, ⟨1000, 1000⟩⟩

/-- The client waits for a unit, is interrupted and closes; the waiter is then woken. -/
def interruptedWait : List SessionEvent :=
  [.take (plainView (changeUnit (-1)) false), .interrupt, .close, .broker (Broker.wakeUp 1 true)]

theorem interrupted_call_not_applied_wait :
    ∃ b s, Transition.exec Broker.step Broker.create [Broker.createSet] = some b ∧
      Transition.exec (step (changeUnit (-1)) signaller) (start b) interruptedWait = some s ∧
      s.client = .returned (-EINTR) ∧ ∃ r, s.taken = some r ∧ s.broker.applied r = 0 := by
  have hrun : (Transition.exec Broker.step Broker.create [Broker.createSet]).any (fun b =>
      Transition.checkAlong (step (changeUnit (-1)) signaller)
        (fun s event => s.cancels (changeUnit (-1)) signaller event) (start b) interruptedWait &&
      (Transition.exec (step (changeUnit (-1)) signaller) (start b) interruptedWait).any fun s =>
        decide (s.client = .returned (-EINTR))) = true := by
    decide +kernel
  obtain ⟨b, hb, hcheck⟩ := (Option.any_eq_true _ _).mp hrun
  rw [Bool.and_eq_true] at hcheck
  obtain ⟨s, hs, hclient⟩ := (Option.any_eq_true _ _).mp hcheck.2
  rw [decide_eq_true_eq] at hclient
  exact ⟨b, s, hb, hs, hclient, interrupted_call_not_applied ⟨_, hb⟩ hs
    (Transition.along_of_checkAlong hcheck.1) hclient⟩

/-- A signal between the commit and the reply, and a signal before the worker takes the request:
both calls return `EINTR`, and both requests are applied. -/
theorem interrupted_call_applied :
    ∃ b s s', Transition.exec Broker.step Broker.create [Broker.createSet] = some b ∧
      Transition.exec (step (changeUnit 1) signaller) (start b)
        [.take (plainView (changeUnit 1) false), .interrupt, .close] = some s ∧
      s.client = .returned (-EINTR) ∧ s.taken = some 1 ∧ s.broker.applied 1 = 1 ∧
      Transition.exec (step (changeUnit 1) signaller) (start b)
        [.interrupt, .close, .take (plainView (changeUnit 1) true)] = some s' ∧
      s'.client = .returned (-EINTR) ∧ s'.taken = some 1 ∧ s'.broker.applied 1 = 1 := by
  have hrun : (Transition.exec Broker.step Broker.create [Broker.createSet]).any (fun b =>
      ((Transition.exec (step (changeUnit 1) signaller) (start b)
        [.take (plainView (changeUnit 1) false), .interrupt, .close]).any fun s =>
          decide (s.client = .returned (-EINTR) ∧ s.taken = some 1 ∧ s.broker.applied 1 = 1)) &&
      (Transition.exec (step (changeUnit 1) signaller) (start b)
        [.interrupt, .close, .take (plainView (changeUnit 1) true)]).any fun s =>
          decide (s.client = .returned (-EINTR) ∧ s.taken = some 1 ∧ s.broker.applied 1 = 1)) =
      true := by
    decide +kernel
  obtain ⟨b, hb, hcheck⟩ := (Option.any_eq_true _ _).mp hrun
  rw [Bool.and_eq_true] at hcheck
  obtain ⟨s, hs, hafter⟩ := (Option.any_eq_true _ _).mp hcheck.1
  obtain ⟨s', hs', hbefore⟩ := (Option.any_eq_true _ _).mp hcheck.2
  rw [decide_eq_true_eq] at hafter hbefore
  exact ⟨b, s, s', hb, hs, hafter.1, hafter.2.1, hafter.2.2, hs', hbefore⟩

end Session

end Tgcompat
