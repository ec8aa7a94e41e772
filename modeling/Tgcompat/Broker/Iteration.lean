import Tgcompat.Broker.Invariant

/-!
# One turn of the wait loop

A waiter that is woken runs one turn of the loop. `Turn` lists what a turn can do: the waiter
leaves, in one of four ways, or goes back to sleep. Turns never get stuck and keep the invariant.
-/

namespace Tgcompat

namespace Broker

variable {b b' : Broker} {r : ℕ} {packet : ProtocolPacket} {actor : BrokerActor} {frame : Frame}

/-- The ways out of the wait loop, with the store and the counts a waiter leaves behind. -/
inductive LeavesBy (b : Broker) (r : ℕ) (packet : ProtocolPacket) (actor : BrokerActor)
    (frame : Frame) (view : IterationView) : SemStore → (ℕ → ℕ) → Outcome → Prop
  | closed (hclosed : view.peerClosed = true) :
      LeavesBy b r packet actor frame view b.store b.applied ⟨0, frame.response, .peerClosed⟩
  | retried {response : ProtocolPacket} {store : SemStore} (operations : List SemOp)
      (hopen : view.peerClosed = false) (hfirst : b.IsFirst r)
      (hlive : Live packet actor frame.waiter.semid operations)
      (hblocks : b.store.blocks frame.waiter.semid operations = false)
      (hdispatch : brokerDispatch b.store packet actor view.env frame.response =
        (0, response, store))
      (hanswer : Answered b.store packet actor frame.waiter.semid operations view.env.now response
        store) :
      LeavesBy b r packet actor frame view store (b.countApplied r packet actor)
        ⟨0, response, .retried⟩
  | waitFailed {response : ProtocolPacket} (error : Errno)
      (hresponse : response.header.result = semOpBlocked) :
      LeavesBy b r packet actor frame view b.store b.applied ⟨-error.code, response, .waitFailed⟩
  | timedOut :
      LeavesBy b r packet actor frame view b.store b.applied
        ⟨0, timeoutResponse frame.response, .timedOut⟩

/-- What one turn of the loop can do. -/
inductive Turn (b : Broker) (r : ℕ) (packet : ProtocolPacket) (actor : BrokerActor)
    (frame : Frame) (view : IterationView) : Broker → Prop
  | left {queue : LinkedQueue ℕ} {store : SemStore} {applied : ℕ → ℕ} {outcome : Outcome}
      (hqueue : queue.Holds (b.waiting.erase r))
      (hleave : LeavesBy b r packet actor frame view store applied outcome) :
      Turn b r packet actor frame view
        (b.left queue store applied r packet actor frame.waiter outcome)
  | slept {response : ProtocolPacket} (hresponse : response.header.result = semOpBlocked)
      (hhead : ∀ operations, b.IsFirst r → Live packet actor frame.waiter.semid operations →
        b.store.blocks frame.waiter.semid operations = true) :
      Turn b r packet actor frame view
        (b.setStatus r packet actor (.waiting { frame with response := response, asleep := true }))

lemma countApplied_of_not (h : commits b.store packet actor = false) :
    b.countApplied r packet actor = b.applied := by
  rw [countApplied, if_neg (by rw [h]; decide)]

lemma countApplied_self_of_zero (h : b.applied r = 0) :
    b.countApplied r packet actor r = if commits b.store packet actor then 1 else 0 := by
  rw [countApplied]
  split_ifs
  · rw [Function.update_self, h]
  · exact h

lemma countApplied_of_ne {c : ℕ} (hc : c ≠ r) : b.countApplied r packet actor c = b.applied c := by
  rw [countApplied]
  split_ifs
  · rw [Function.update_of_ne hc]
  · rfl

lemma neg_errno_lt_zero (e : Errno) : -e.code < 0 := by
  have hpos := e.pos
  rw [Int32.lt_iff_toInt_lt] at hpos ⊢
  have hlt := e.code.toInt_lt
  rw [Int32.toInt_neg]
  simp only [Int32.toInt_zero] at hpos ⊢
  have hbmod : (-e.code.toInt).bmod (2 ^ 32) = -e.code.toInt :=
    Int.bmod_eq_of_le (by omega) (by omega)
  omega

lemma neg_errno_ne_zero (e : Errno) : -e.code ≠ 0 := Int32.ne_of_lt (neg_errno_lt_zero e)

/-- Every way out pairs the answer with what was applied. -/
lemma LeavesBy.outcomeOk {view : IterationView} {store : SemStore} {applied : ℕ → ℕ}
    {outcome : Outcome} (hframe : FrameOk packet actor frame (b.applied r))
    (h : LeavesBy b r packet actor frame view store applied outcome) :
    OutcomeOk packet outcome (applied r) := by
  cases h with
  | closed hclosed =>
    rw [hframe.unapplied]
    refine ⟨?_, fun _ => rfl, fun _ _ _ => rfl⟩
    intro _ _ hresult
    rw [hframe.blocked] at hresult
    exact absurd hresult (by decide)
  | retried operations hopen hfirst hlive hblocks hdispatch hanswer =>
    rw [countApplied_self_of_zero hframe.unapplied]
    refine hanswer.outcomeOk ?_ .retried
    rw [Ne, hanswer.blocked_iff, hblocks]
    decide
  | waitFailed error hresponse =>
    rw [hframe.unapplied]
    exact .unapplied (Or.inl (neg_errno_ne_zero error))
  | timedOut =>
    rw [hframe.unapplied]
    refine .unapplied (Or.inr ?_)
    simp only [timeoutResponse]
    decide

lemma LeavesBy.store_inv (h : b.store.Inv) {view : IterationView} {store : SemStore}
    {applied : ℕ → ℕ} {outcome : Outcome}
    (hl : LeavesBy b r packet actor frame view store applied outcome) : store.Inv := by
  cases hl with
  | closed => exact h
  | retried operations _ _ _ _ hdispatch =>
    have := h.brokerDispatch packet actor view.env frame.response
    rwa [hdispatch] at this
  | waitFailed => exact h
  | timedOut => exact h

lemma LeavesBy.applied_of_ne {view : IterationView} {store : SemStore} {applied : ℕ → ℕ}
    {outcome : Outcome} (hl : LeavesBy b r packet actor frame view store applied outcome) :
    ∀ c, c ≠ r → applied c = b.applied c := by
  intro c hc
  cases hl with
  | retried => exact countApplied_of_ne hc
  | closed | waitFailed | timedOut => rfl

/-- A way out can be taken. -/
lemma Core.exits (h : b.Core) (hr : b.requests r = some ⟨packet, actor, .waiting frame⟩)
    {view : IterationView} {store : SemStore} {applied : ℕ → ℕ} {outcome : Outcome}
    (hl : LeavesBy b r packet actor frame view store applied outcome) :
    ∃ b', Broker.leave { b with store := store, applied := applied } r packet actor frame.waiter
        outcome = some b' ∧ b.Turn r packet actor frame view b' ∧ b'.Inv := by
  obtain ⟨queue, hholds, heq, hinv⟩ := h.leave hr (hl.store_inv h.store) hl.applied_of_ne
    (hl.outcomeOk (h.frames r packet actor frame hr))
  exact ⟨_, heq, .left hholds hl, hinv⟩

/-- Waiting again: the clock cannot be read and the waiter leaves, or it sleeps. -/
lemma Inv.sleep (h : b.Inv) (hr : b.requests r = some ⟨packet, actor, .waiting frame⟩)
    {response : ProtocolPacket} (hresponse : response.header.result = semOpBlocked)
    (hhead : ∀ operations, b.IsFirst r → Live packet actor frame.waiter.semid operations →
      b.store.blocks frame.waiter.semid operations = true) (view : IterationView) :
    ∃ b', b.sleep r packet actor { frame with response := response } view = some b' ∧
      b.Turn r packet actor frame view b' ∧ b'.Inv := by
  rw [Broker.sleep]
  cases view.clockError with
  | some error => exact h.core.exits hr (.waitFailed error hresponse)
  | none => exact ⟨_, rfl, .slept hresponse hhead, h.fallAsleep hr hresponse hhead⟩

/-- The body of the loop: the peer is seen closed, or a retry of the first waiter answers the
request, or the waiter has to wait again. -/
lemma Inv.iterate_cases (h : b.Inv) (hr : b.requests r = some ⟨packet, actor, .waiting frame⟩)
    {operations : List SemOp} (hlive : Live packet actor frame.waiter.semid operations)
    (view : IterationView) :
    (view.peerClosed = true ∧ b.iterate r packet actor frame view =
      b.leave r packet actor frame.waiter ⟨0, frame.response, .peerClosed⟩) ∨
    (view.peerClosed = false ∧ b.IsFirst r ∧
      b.store.blocks frame.waiter.semid operations = false ∧
      ∃ response store, brokerDispatch b.store packet actor view.env frame.response =
          (0, response, store) ∧
        Answered b.store packet actor frame.waiter.semid operations view.env.now response store ∧
        b.iterate r packet actor frame view =
          Broker.leave { b with store := store, applied := b.countApplied r packet actor } r packet
            actor frame.waiter ⟨0, response, .retried⟩) ∨
    (view.peerClosed = false ∧
      (b.IsFirst r → b.store.blocks frame.waiter.semid operations = true) ∧
      ∃ response, response.header.result = semOpBlocked ∧ b.iterate r packet actor frame view =
        b.sleep r packet actor { frame with response := response } view) := by
  rw [Broker.iterate]
  by_cases hclosed : view.peerClosed = true
  · exact Or.inl ⟨hclosed, if_pos hclosed⟩
  · rw [if_neg hclosed]
    rw [Bool.not_eq_true] at hclosed
    obtain ⟨first, hfirst, hiff⟩ := waiterIsFirstForSet_spec h.core.queue (h.core.lt_arrivals hr)
      (frame?_of_request hr)
    simp only [hfirst, Option.bind_eq_bind, Option.bind_some]
    cases first with
    | false =>
      have hnot : ¬ b.IsFirst r := fun hf => Bool.false_ne_true (hiff.mpr hf)
      exact Or.inr (Or.inr ⟨hclosed, fun hf => absurd hf hnot, frame.response,
        (h.core.frames r packet actor frame hr).blocked, rfl⟩)
    | true =>
      -- the retry either answers the request or finds that it still has to wait
      have hret := (hlive.answered h.core.store view.env frame.response).1
      have hanswer := (hlive.answered h.core.store view.env frame.response).2
      rcases hd : brokerDispatch b.store packet actor view.env frame.response with
        ⟨ret, response, store⟩
      rw [hd] at hret hanswer
      simp only at hret hanswer
      subst hret
      have hdispatch : b.dispatch r packet actor view.env frame.response =
          (0, response, { b with store := store, applied := b.countApplied r packet actor }) := by
        simp only [Broker.dispatch, hd]
      simp only [hdispatch, if_true]
      by_cases hresult : response.header.result = semOpBlocked
      · rw [if_neg (by simp [hresult])]
        obtain ⟨hcommits, hblocks, hsame, -⟩ := hanswer.waits hresult
        subst hsame
        rw [countApplied_of_not hcommits]
        exact Or.inr (Or.inr ⟨hclosed, fun _ => hblocks, response, hresult, rfl⟩)
      · rw [if_pos (Or.inr hresult)]
        have hblocks : b.store.blocks frame.waiter.semid operations = false := by
          rwa [hanswer.blocked_iff, Bool.not_eq_true] at hresult
        exact Or.inr (Or.inl ⟨hclosed, hiff.mp rfl, hblocks, response, store, rfl, hanswer, rfl⟩)

/-- One turn of the loop. -/
theorem Inv.iterate (h : b.Inv) (hr : b.requests r = some ⟨packet, actor, .waiting frame⟩)
    (view : IterationView) :
    ∃ b', b.iterate r packet actor frame view = some b' ∧
      b.Turn r packet actor frame view b' ∧ b'.Inv := by
  obtain ⟨⟨operations, hlive⟩, -, -⟩ := h.core.frames r packet actor frame hr
  rcases h.iterate_cases hr hlive view with ⟨hclosed, heq⟩ |
    ⟨hopen, hfirst, hblocks, response, store, hdispatch, hanswer, heq⟩ |
    ⟨hopen, hhead, response, hresponse, heq⟩
  · rw [heq]
    exact h.core.exits hr (.closed hclosed)
  · rw [heq]
    exact h.core.exits hr (.retried operations hopen hfirst hlive hblocks hdispatch hanswer)
  · rw [heq]
    refine h.sleep hr hresponse (fun operations' hfirst hlive' => ?_) view
    have hsame := hlive'.decoded
    rw [hlive.decoded] at hsame
    cases hsame
    exact hhead hfirst

/-- One wake-up of a waiter. -/
theorem Inv.wake (h : b.Inv) (hr : b.requests r = some ⟨packet, actor, .waiting frame⟩)
    (view : WakeView) :
    ∃ b', b.wake r view = some b' ∧ b.Turn r packet actor frame view.iteration b' ∧ b'.Inv := by
  have hblocked := (h.core.frames r packet actor frame hr).blocked
  rw [Broker.wake, hr]
  simp only
  cases view.waitError with
  | some error => exact h.core.exits hr (.waitFailed error hblocked)
  | none =>
    cases frame.waiter.deadline with
    | none => exact h.iterate hr view.iteration
    | some deadline =>
      cases view.clock with
      | error error => exact h.core.exits hr (.waitFailed error hblocked)
      | ok now =>
        simp only
        split_ifs
        · exact h.core.exits hr .timedOut
        · exact h.iterate hr view.iteration

end Broker

end Tgcompat
