import Tgcompat.Broker.Blocking
import Tgcompat.Broker.Queue

/-!
# The invariant of the broker

`Broker.Inv` ties the parts of the state together: the pointers hold the waiting requests, a
waiting request was never applied and was last told to wait, a finished request was applied once
or never as its answer says, and a request that sleeps at the head of its set has to wait on the
current store. A broadcast makes the last part trivial, so every exit of the wait loop restores
it.
-/

namespace Tgcompat

/-- What holds of a request in the wait loop that was applied `applied` times. -/
structure FrameOk (packet : ProtocolPacket) (actor : BrokerActor) (frame : Frame)
    (applied : ℕ) : Prop where
  live : ∃ operations, Live packet actor frame.waiter.semid operations
  blocked : frame.response.header.result = semOpBlocked
  unapplied : applied = 0

/-- What holds of a request that `dispatch_request` finished. -/
structure OutcomeOk (packet : ProtocolPacket) (outcome : Outcome) (applied : ℕ) : Prop where
  once : packet.opcode.any Opcode.isSemop = true → outcome.ret = 0 →
    outcome.response.header.result = 0 → applied = 1
  never : outcome.ret ≠ 0 ∨ outcome.response.header.result ≠ 0 → applied = 0
  blocked : packet.opcode.any Opcode.isSemop = true → outcome.ret = 0 →
    outcome.response.header.result = semOpBlocked → outcome.exit = .peerClosed

/-- A request that ends with an error, or a failure in its answer, was not applied. -/
lemma OutcomeOk.unapplied {packet : ProtocolPacket} {outcome : Outcome}
    (h : outcome.ret ≠ 0 ∨ outcome.response.header.result < 0) : OutcomeOk packet outcome 0 where
  once := by
    intro _ hret hresult
    rcases h with h | h
    · exact absurd hret h
    · rw [hresult] at h
      exact absurd h (by decide)
  never := fun _ => rfl
  blocked := by
    intro _ hret hresult
    rcases h with h | h
    · exact absurd hret h
    · rw [hresult] at h
      exact absurd h (by decide)

/-- A request that was answered and not told to wait was applied exactly if the answer is zero. -/
lemma Answered.outcomeOk {st st' : SemStore} {packet response : ProtocolPacket}
    {actor : BrokerActor} {semid : Int32} {operations : List SemOp} {now : Int64}
    (h : Answered st packet actor semid operations now response st')
    (hresult : response.header.result ≠ semOpBlocked) (exit : Exit) :
    OutcomeOk packet ⟨0, response, exit⟩ (if commits st packet actor then 1 else 0) := by
  cases h with
  | applied plan t hplan hwf hadded hcommits hblocks hzero =>
    rw [if_pos hcommits]
    refine ⟨fun _ _ _ => rfl, ?_, ?_⟩
    · rintro (hne | hne)
      · exact absurd rfl hne
      · exact absurd hzero hne
    · intro _ _ hblocked
      exact absurd hblocked hresult
  | blocked op hop hcommits hblocks hblocked => exact absurd hblocked hresult
  | failed hcommits hblocks hneg =>
    rw [if_neg (by rw [hcommits]; decide)]
    exact .unapplied (Or.inr hneg)

namespace Broker

/-- The part of the invariant that a broadcast does not touch. -/
structure Core (b : Broker) : Prop where
  store : b.store.Inv
  queue : b.queue.Holds b.waiting
  fresh : ∀ r, b.arrivals ≤ r → b.requests r = none ∧ b.applied r = 0
  frames : ∀ r packet actor frame, b.requests r = some ⟨packet, actor, .waiting frame⟩ →
    FrameOk packet actor frame (b.applied r)
  outcomes : ∀ r packet actor outcome, b.requests r = some ⟨packet, actor, .finished outcome⟩ →
    OutcomeOk packet outcome (b.applied r)

/-- A request that sleeps at the head of its set has to wait. -/
def Heads (b : Broker) : Prop :=
  ∀ r packet actor frame operations, b.requests r = some ⟨packet, actor, .waiting frame⟩ →
    frame.asleep = true → b.IsFirst r → Live packet actor frame.waiter.semid operations →
    b.store.blocks frame.waiter.semid operations = true

structure Inv (b : Broker) : Prop where
  core : b.Core
  heads : b.Heads

variable {b : Broker} {r : ℕ} {packet : ProtocolPacket} {actor : BrokerActor} {frame : Frame}
  {outcome : Outcome}

lemma Core.lt_arrivals (h : b.Core) {q : Request} (hr : b.requests r = some q) :
    r < b.arrivals := by
  by_contra hle
  rw [(h.fresh r (not_lt.mp hle)).1] at hr
  cases hr

lemma Core.mem_waiting (h : b.Core) (hr : b.requests r = some ⟨packet, actor, .waiting frame⟩) :
    r ∈ b.waiting :=
  Broker.mem_waiting.mpr ⟨h.lt_arrivals hr, by rw [frame?_of_request hr]; rfl⟩

theorem inv_create : create.Inv where
  core := {
    store := SemStore.inv_create
    queue := LinkedQueue.holds_empty
    fresh := fun _ _ => ⟨rfl, rfl⟩
    frames := by
      intro r packet actor frame hr
      cases hr
    outcomes := by
      intro r packet actor outcome hr
      cases hr }
  heads := by
    intro r packet actor frame operations hr
    cases hr

/-! ### Wait counts -/

lemma inv_adjustWaitCount {st : SemStore} (h : st.Inv) (semid : Int32) (semnum : ℕ)
    (waitForZero : Bool) (adjustment : Int32) :
    (st.adjustWaitCount semid semnum waitForZero adjustment).2.Inv :=
  h.next (.adjustWaitCount semid semnum waitForZero adjustment)

lemma inv_uncount {st : SemStore} (h : st.Inv) (waiter : Waiter) : (uncount st waiter).Inv := by
  rw [uncount]
  split_ifs
  · exact inv_adjustWaitCount h _ _ _ _
  · exact h

/-! ### Changes that keep the requests -/

/-- Nothing in the core depends on the watchers and the processes, and the store may be replaced by
another one with the representation invariant. -/
lemma Core.congr (h : b.Core) {b' : Broker} (hstore : b'.store.Inv) (hqueue : b'.queue = b.queue)
    (hrequests : b'.requests = b.requests) (harrivals : b'.arrivals = b.arrivals)
    (happlied : b'.applied = b.applied) : b'.Core where
  store := hstore
  queue := by
    have hwaiting : b'.waiting = b.waiting :=
      waiting_congr harrivals fun r => by simp [frame?, hrequests]
    rw [hqueue, hwaiting]
    exact h.queue
  fresh := by
    rw [harrivals, hrequests, happlied]
    exact h.fresh
  frames := by
    rw [hrequests, happlied]
    exact h.frames
  outcomes := by
    rw [hrequests, happlied]
    exact h.outcomes

lemma Heads.congr (h : b.Heads) {b' : Broker} (hvalues : b.store.KeepsValues b'.store)
    (hrequests : b'.requests = b.requests) : b'.Heads := by
  intro r packet actor frame operations hr hasleep hfirst hlive
  rw [hrequests] at hr
  have hfirst' : b.IsFirst r := by
    simpa only [IsFirst, semid?, frame?, hrequests] using hfirst
  exact hvalues.blocks (h r packet actor frame operations hr hasleep hfirst' hlive)

/-! ### Broadcast -/

lemma requests_broadcast_waiting :
    b.broadcast.requests r = some ⟨packet, actor, .waiting frame⟩ →
      frame.asleep = false ∧ ∃ frame', b.requests r = some ⟨packet, actor, .waiting frame'⟩ ∧
        frame = { frame' with asleep := false } := by
  simp only [broadcast]
  cases b.requests r with
  | none => simp
  | some q =>
    obtain ⟨p, a, s⟩ := q
    cases s with
    | waiting f =>
      simp only [Option.map_some, Request.wakeUp, Option.some.injEq, Request.mk.injEq,
        Status.waiting.injEq]
      rintro ⟨rfl, rfl, rfl⟩
      exact ⟨rfl, f, ⟨rfl, rfl, rfl⟩, rfl⟩
    | finished o => simp [Request.wakeUp]

lemma requests_broadcast_finished :
    b.broadcast.requests r = some ⟨packet, actor, .finished outcome⟩ ↔
      b.requests r = some ⟨packet, actor, .finished outcome⟩ := by
  simp only [broadcast]
  cases b.requests r with
  | none => simp
  | some q =>
    obtain ⟨p, a, s⟩ := q
    cases s with
    | waiting f => simp [Request.wakeUp]
    | finished o => simp [Request.wakeUp]

/-- After a broadcast nobody sleeps. -/
theorem Core.broadcast (h : b.Core) : b.broadcast.Inv where
  core := {
    store := h.store
    queue := by
      rw [waiting_broadcast]
      exact h.queue
    fresh := by
      intro r hr
      obtain ⟨hnone, happlied⟩ := h.fresh r hr
      exact ⟨by simp [Broker.broadcast, hnone], happlied⟩
    frames := by
      intro r packet actor frame hr
      obtain ⟨-, frame', hr', rfl⟩ := requests_broadcast_waiting hr
      obtain ⟨hlive, hblocked, happlied⟩ := h.frames r packet actor frame' hr'
      exact ⟨hlive, hblocked, happlied⟩
    outcomes := by
      intro r packet actor outcome hr
      exact h.outcomes r packet actor outcome (requests_broadcast_finished.mp hr) }
  heads := by
    intro r packet actor frame operations hr hasleep
    rw [(requests_broadcast_waiting hr).1] at hasleep
    cases hasleep

/-! ### Changes of one request -/

/-- The frames and outcomes after the status of one request changed. -/
lemma Core.frames_setStatus (h : b.Core) {status : Status}
    (hframe : ∀ frame, status = .waiting frame → FrameOk packet actor frame (b.applied r)) :
    ∀ c p a f, (b.setStatus r packet actor status).requests c = some ⟨p, a, .waiting f⟩ →
      FrameOk p a f (b.applied c) := by
  intro c p a f hc
  by_cases hcr : c = r
  · subst hcr
    simp only [setStatus, Function.update_self, Option.some.injEq, Request.mk.injEq] at hc
    obtain ⟨rfl, rfl, hstatus⟩ := hc
    exact hframe f hstatus
  · rw [requests_setStatus_of_ne _ hcr] at hc
    exact h.frames c p a f hc

lemma Core.outcomes_setStatus (h : b.Core) {status : Status}
    (houtcome : ∀ outcome, status = .finished outcome → OutcomeOk packet outcome (b.applied r)) :
    ∀ c p a o, (b.setStatus r packet actor status).requests c = some ⟨p, a, .finished o⟩ →
      OutcomeOk p o (b.applied c) := by
  intro c p a o hc
  by_cases hcr : c = r
  · subst hcr
    simp only [setStatus, Function.update_self, Option.some.injEq, Request.mk.injEq] at hc
    obtain ⟨rfl, rfl, hstatus⟩ := hc
    exact houtcome o hstatus
  · rw [requests_setStatus_of_ne _ hcr] at hc
    exact h.outcomes c p a o hc

lemma Core.fresh_setStatus (h : b.Core) (hr : r < b.arrivals) (status : Status) :
    ∀ c, b.arrivals ≤ c →
      (b.setStatus r packet actor status).requests c = none ∧ b.applied c = 0 := by
  intro c hc
  rw [requests_setStatus_of_ne _ (by omega)]
  exact h.fresh c hc

/-- A request that never waited is finished. -/
lemma Core.finish (h : b.Core) (hr : r < b.arrivals) (hnone : b.frame? r = none)
    (ho : OutcomeOk packet outcome (b.applied r)) :
    (b.setStatus r packet actor (.finished outcome)).Core where
  store := h.store
  queue := by
    rw [waiting_setStatus_finished_of_none hnone]
    exact h.queue
  fresh := h.fresh_setStatus hr _
  frames := h.frames_setStatus fun _ heq => by cases heq
  outcomes := h.outcomes_setStatus fun _ heq => by cases heq; exact ho

/-- The sets of the other waiters do not change with the status of a request that keeps its set. -/
lemma semid?_setStatus {status : Status}
    (hsame : (b.setStatus r packet actor status).semid? r = b.semid? r) (c : ℕ) :
    (b.setStatus r packet actor status).semid? c = b.semid? c := by
  by_cases hcr : c = r
  · rw [hcr, hsame]
  · simp only [semid?, frame?_setStatus_of_ne _ hcr]

lemma isFirst_setStatus {status : Status}
    (hsame : (b.setStatus r packet actor status).semid? r = b.semid? r) (c : ℕ) :
    (b.setStatus r packet actor status).IsFirst c ↔ b.IsFirst c := by
  simp only [IsFirst, semid?_setStatus hsame]

lemma Heads.setStatus (h : b.Heads) {status : Status}
    (hsame : (b.setStatus r packet actor status).semid? r = b.semid? r)
    (hhead : ∀ frame operations, status = .waiting frame → frame.asleep = true → b.IsFirst r →
      Live packet actor frame.waiter.semid operations →
      b.store.blocks frame.waiter.semid operations = true) :
    (b.setStatus r packet actor status).Heads := by
  intro c p a f operations hc hasleep hfirst hlive
  rw [isFirst_setStatus hsame] at hfirst
  by_cases hcr : c = r
  · subst hcr
    simp only [Broker.setStatus, Function.update_self, Option.some.injEq, Request.mk.injEq] at hc
    obtain ⟨rfl, rfl, hstatus⟩ := hc
    exact hhead f operations hstatus hasleep hfirst hlive
  · rw [requests_setStatus_of_ne _ hcr] at hc
    exact h c p a f operations hc hasleep hfirst hlive

theorem Inv.finish (h : b.Inv) (hr : r < b.arrivals) (hnone : b.frame? r = none)
    (ho : OutcomeOk packet outcome (b.applied r)) :
    (b.setStatus r packet actor (.finished outcome)).Inv where
  core := h.core.finish hr hnone ho
  heads := by
    refine h.heads.setStatus ?_ fun _ _ heq => by cases heq
    simp [semid?, hnone]

/-- A waiter goes to sleep. -/
theorem Inv.fallAsleep (h : b.Inv) (hr : b.requests r = some ⟨packet, actor, .waiting frame⟩)
    {response : ProtocolPacket} (hresponse : response.header.result = semOpBlocked)
    (hhead : ∀ operations, b.IsFirst r → Live packet actor frame.waiter.semid operations →
      b.store.blocks frame.waiter.semid operations = true) :
    (b.setStatus r packet actor
      (.waiting { frame with response := response, asleep := true })).Inv where
  core := {
    store := h.core.store
    queue := by
      rw [waiting_setStatus_waiting (by rw [frame?_of_request hr]; rfl)]
      exact h.core.queue
    fresh := h.core.fresh_setStatus (h.core.lt_arrivals hr) _
    frames := h.core.frames_setStatus fun _ heq => by
      cases heq
      obtain ⟨hlive, -, happlied⟩ := h.core.frames r packet actor frame hr
      exact ⟨hlive, hresponse, happlied⟩
    outcomes := h.core.outcomes_setStatus fun _ heq => by cases heq }
  heads := by
    refine h.heads.setStatus ?_ ?_
    · simp [semid?, frame?_of_request hr]
    · intro f operations heq _ hfirst hlive
      cases heq
      exact hhead operations hfirst hlive

/-- A waiter leaves the loop, possibly after a retry that changed the store. -/
theorem Core.leave (h : b.Core) (hr : b.requests r = some ⟨packet, actor, .waiting frame⟩)
    {store : SemStore} (hstore : store.Inv) {applied : ℕ → ℕ}
    (happlied : ∀ c, c ≠ r → applied c = b.applied c)
    (ho : OutcomeOk packet outcome (applied r)) :
    ∃ queue, queue.Holds (b.waiting.erase r) ∧
      Broker.leave { b with store := store, applied := applied } r packet actor frame.waiter
          outcome = some (b.left queue store applied r packet actor frame.waiter outcome) ∧
      (b.left queue store applied r packet actor frame.waiter outcome).Inv := by
  have hlt := h.lt_arrivals hr
  obtain ⟨queue, hholds, heq⟩ := leave_spec (b := { b with store := store, applied := applied })
    h.queue (h.mem_waiting hr) packet actor frame.waiter outcome
  refine ⟨queue, hholds, heq, Core.broadcast ?_⟩
  exact {
    store := inv_uncount hstore frame.waiter
    queue := by
      rw [waiting_setStatus_finished]
      exact hholds
    fresh := by
      intro c hc
      obtain ⟨hnone, hzero⟩ := h.fresh c hc
      have hcr : c ≠ r := by
        rintro rfl
        exact absurd hlt (not_lt.mpr hc)
      rw [requests_setStatus_of_ne _ hcr]
      exact ⟨hnone, (happlied c hcr).trans hzero⟩
    frames := by
      intro c p a f hc
      have hcr : c ≠ r := by
        rintro rfl
        simp [setStatus] at hc
      rw [requests_setStatus_of_ne _ hcr] at hc
      have := h.frames c p a f hc
      rwa [← happlied c hcr] at this
    outcomes := by
      intro c p a o hc
      by_cases hcr : c = r
      · subst hcr
        simp only [setStatus, Function.update_self, Option.some.injEq, Request.mk.injEq,
          Status.finished.injEq] at hc
        obtain ⟨rfl, rfl, rfl⟩ := hc
        exact ho
      · rw [requests_setStatus_of_ne _ hcr] at hc
        have := h.outcomes c p a o hc
        rwa [← happlied c hcr] at this }

end Broker

end Tgcompat
