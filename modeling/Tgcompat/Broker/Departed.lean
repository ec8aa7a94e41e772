import Tgcompat.Broker.Completion
import Tgcompat.Protocol.Framing
import Tgcompat.Store.Arithmetic

/-!
# Waiters whose client has gone

The wait loop looks at the socket of the waiter with `MSG_PEEK`, which shows the end of the stream
only when no bytes are left in front of it. A client that has sent another request behind the one
that waits and then closes is not seen to have gone: its waiter stays in the queue, and takes what
it waits for when it can.
-/

namespace Tgcompat

/-! ### The peer check -/

/-- What `recv` returns. -/
inductive RecvResult where
  | received (count : ℕ)
  | failed (error : Int32)
  deriving DecidableEq

/-- The end of a socket that the broker reads from. -/
structure Connection where
  unread : List UInt8
  peerClosed : Bool

/-- `recv` of one byte with `MSG_PEEK` and `MSG_DONTWAIT`. -/
def Connection.peek (connection : Connection) : RecvResult :=
  if connection.unread ≠ [] then .received 1
  else if connection.peerClosed then .received 0
  else .failed EAGAIN

/-- `peer_has_closed`; `EWOULDBLOCK` is `EAGAIN`. -/
def peerHasClosed : RecvResult → Bool
  | .received count => decide (count = 0)
  | .failed error => decide (error ≠ EAGAIN ∧ error ≠ EINTR)

lemma peerHasClosed_peek {connection : Connection} (h : connection.peerClosed = true) :
    peerHasClosed connection.peek = decide (connection.unread = []) := by
  rw [Connection.peek]
  by_cases hunread : connection.unread = []
  · simp [hunread, h, peerHasClosed]
  · simp [hunread, peerHasClosed]

/-! ### The values of a store -/

namespace SemStore

variable {st : SemStore} {semid : Int32} {operations : List SemOp}

lemma values_adjustWaitCount (semnum : ℕ) (waitForZero : Bool) (adjustment : Int32)
    (i : Fin semMaxSets) :
    ((st.adjustWaitCount semid semnum waitForZero adjustment).2.sets i).values =
      (st.sets i).values := by
  rcases st.adjustWaitCount_cases semid semnum waitForZero adjustment with
    ⟨-, heq⟩ | ⟨j, -, -, -, heq⟩
  · rw [heq]
  · rw [heq]
    by_cases hij : i = j
    · subst hij
      rw [writeSet_sets_self]
      exact values_countedSet _ _ _ _
    · rw [writeSet_sets_of_ne _ hij]

/-- A commit keeps the values when the amounts on each semaphore add up to nothing. -/
lemma values_committedStore (h : st.Inv) {pid : Int32} {plan : TryopPlan}
    (hplan : st.Planned semid operations pid plan) (now : Int64) (t : UndoTable) :
    (∀ i, ((st.committedStore operations pid now plan t).sets i).values = (st.sets i).values) ↔
      ∀ s, amountOn operations s = 0 := by
  have hvalid := h.valid_of_findSet hplan.found
  have htracks : Tracks (st.sets plan.index).values operations plan.working := by
    refine evaluate_tracks hvalid.values_le (fun op hop => ?_) hplan.evaluated
    rw [hvalid.values_length]
    exact SemOp.lt_of_accepted (hplan.accepted op hop)
  rw [← htracks.eq_iff]
  constructor
  · intro hsame
    have hindex := hsame plan.index
    simpa [committedStore, committedSet] using hindex
  · intro hworking i
    by_cases hi : i = plan.index
    · subst hi
      simpa [committedStore, committedSet] using hworking
    · exact congrArg SemSet.values (writeSet_sets_of_ne _ hi _)

end SemStore

/-- An answer that does not ask to wait keeps the values if nothing was applied or the amounts add
up to nothing. -/
lemma Answered.values_iff {st st' : SemStore} (h : st.Inv) {packet response : ProtocolPacket}
    {actor : BrokerActor} {semid : Int32} {operations : List SemOp} {now : Int64}
    (hanswer : Answered st packet actor semid operations now response st')
    (hblocks : st.blocks semid operations = false) :
    (∀ i, (st'.sets i).values = (st.sets i).values) ↔
      commits st packet actor = false ∨ ∀ s, amountOn operations s = 0 := by
  cases hanswer with
  | applied plan t hplan hwf hadded hcommits hblocks' hresult =>
    rw [SemStore.values_committedStore h hplan, hcommits]
    simp
  | blocked op hop hcommits hblocks' hresult hreply =>
    rw [hblocks] at hblocks'
    cases hblocks'
  | failed hcommits hblocks' hresult => simp [hcommits]

namespace Broker

variable {b b₁ b' : Broker} {r : ℕ} {packet : ProtocolPacket} {actor : BrokerActor}
  {frame : Frame} {operations : List SemOp}

/-- The semaphores have the values they had. -/
def SameValues (b b' : Broker) : Prop :=
  ∀ i, (b'.store.sets i).values = (b.store.sets i).values

lemma values_uncount (st : SemStore) (waiter : Waiter) (i : Fin semMaxSets) :
    ((uncount st waiter).sets i).values = (st.sets i).values := by
  rw [uncount]
  split_ifs
  · exact SemStore.values_adjustWaitCount _ _ _ i
  · rfl

/-- The states in which a request runs an iteration of the wait loop: it was woken, or has just
been queued. -/
inductive AtLoop : Broker → ℕ → ProtocolPacket → BrokerActor → Frame → Prop
  | woken {b : Broker} {r : ℕ} {packet : ProtocolPacket} {actor : BrokerActor} {frame : Frame}
      (h : b.Reachable) (hr : b.requests r = some ⟨packet, actor, .waiting frame⟩) :
      AtLoop b r packet actor frame
  | queued {b b₁ : Broker} {packet : ProtocolPacket} {actor : BrokerActor} {view : ArrivalView}
      {store : SemStore} {frame : Frame} {operations : List SemOp} (h : b.Reachable)
      (hprepared : b.Prepared packet actor view b₁)
      (hlive : Live packet actor frame.waiter.semid operations)
      (hcount : (0, store) = b₁.store.adjustWaitCount frame.waiter.semid
        frame.waiter.semnum.toNat (frame.waiter.waitForZero ≠ 0) 1)
      (henters : Enters b₁.store operations frame)
      (hresult : frame.response.header.result = semOpBlocked) :
      AtLoop (b₁.admitted store b.arrivals packet actor frame) b.arrivals packet actor frame

lemma AtLoop.spec (h : AtLoop b r packet actor frame) :
    b.Inv ∧ b.requests r = some ⟨packet, actor, .waiting frame⟩ := by
  cases h with
  | woken h hr => exact ⟨inv_reachable h, hr⟩
  | @queued b b₁ _ _ view store _ operations h hprepared hlive hcount henters hresult =>
    have hready := (inv_reachable h).prepared hprepared
    have hinv := inv_adjustWaitCount hready.inv.core.store frame.waiter.semid
      frame.waiter.semnum.toNat (frame.waiter.waitForZero ≠ 0) 1
    have hvalues := b₁.store.keepsValues_adjustWaitCount frame.waiter.semid
      frame.waiter.semnum.toNat (frame.waiter.waitForZero ≠ 0) 1
    rw [← hcount] at hinv hvalues
    exact ⟨hready.admitted hinv hvalues ⟨operations, hlive⟩ hresult henters.awake,
      requests_setStatus_self _⟩

/-! ### One iteration -/

/-- The waiter is out of the queue, and the semaphores have the values they had. -/
structure RemovesQuietly (b : Broker) (r : ℕ) (b' : Broker) : Prop where
  removed : r ∉ b'.waiting
  queue : b'.queue.Holds b'.waiting
  values : b.SameValues b'

/-- A waiter that leaves is out of the queue; the values are those of the store it leaves behind. -/
lemma Core.removes (h : b.Core) (hr : b.requests r = some ⟨packet, actor, .waiting frame⟩)
    {view : IterationView} {store : SemStore} {applied : ℕ → ℕ} {outcome : Outcome}
    (hl : LeavesBy b r packet actor frame view store applied outcome) :
    ∃ b', Broker.leave { b with store := store, applied := applied } r packet actor frame.waiter
        outcome = some b' ∧
      (b.RemovesQuietly r b' ↔ ∀ i, (store.sets i).values = (b.store.sets i).values) := by
  obtain ⟨queue, hholds, heq, hinv⟩ := h.leave hr (hl.store_inv h.store) hl.applied_of_ne
    (hl.outcomeOk (h.frames r packet actor frame hr))
  have hvalues : ∀ i, ((b.left queue store applied r packet actor frame.waiter outcome).store.sets
      i).values = (store.sets i).values := values_uncount store frame.waiter
  refine ⟨_, heq, fun hquiet i => ?_, fun hsame => ⟨?_, hinv.core.queue, fun i => ?_⟩⟩
  · rw [← hvalues i]
    exact hquiet.values i
  · rw [Broker.mem_waiting]
    rintro ⟨-, hframe⟩
    simp [Broker.left] at hframe
  · rw [hvalues i]
    exact hsame i

/-- No semaphore is consumed for a departed client whose socket is empty. An iteration of the wait
loop that starts when the peer has closed removes the waiter and keeps the values, whatever else the
iteration learns, exactly if no bytes are left on the socket or the waiter is the first of its set
and its retry neither blocks nor changes a value. -/
theorem departed_waiter_removed (h : AtLoop b r packet actor frame)
    (hdecode : decodeSemop packet = .ok (frame.waiter.semid, operations))
    (connection : Connection) (hclosed : connection.peerClosed = true) :
    (∀ view : IterationView, view.peerClosed = peerHasClosed connection.peek →
      ∃ b', b.iterate r packet actor frame view = some b' ∧ b.RemovesQuietly r b') ↔
    connection.unread = [] ∨
      b.IsFirst r ∧ b.store.blocks frame.waiter.semid operations = false ∧
        (commits b.store packet actor = false ∨ ∀ s, amountOn operations s = 0) := by
  obtain ⟨hinv, hr⟩ := h.spec
  obtain ⟨⟨operations', hlive⟩, -, -⟩ := hinv.core.frames r packet actor frame hr
  have hsame := hlive.decoded
  rw [hdecode] at hsame
  cases hsame
  rw [peerHasClosed_peek hclosed]
  constructor
  · intro hquiet
    by_cases hunread : connection.unread = []
    · exact Or.inl hunread
    -- the peer is not seen to have closed, and the clock can be read
    obtain ⟨b', heq, hremoves⟩ := hquiet ⟨false, ⟨true, 0⟩, none⟩ (by simp [hunread])
    rcases hinv.iterate_cases hr hlive ⟨false, ⟨true, 0⟩, none⟩ with ⟨hseen, -⟩ |
      ⟨hopen, hfirst, hblocks, response, store, hdispatch, hanswer, hleave⟩ |
      ⟨-, -, response, -, hsleep⟩
    · cases hseen
    · obtain ⟨b'', heq', hiff⟩ := hinv.core.removes hr
        (.retried operations hopen hfirst hlive hblocks hdispatch hanswer)
      cases heq.symm.trans (hleave.trans heq')
      exact Or.inr ⟨hfirst, hblocks, (hanswer.values_iff hinv.core.store hblocks).mp
        (hiff.mp hremoves)⟩
    · cases heq.symm.trans hsleep
      refine absurd ?_ hremoves.removed
      exact Broker.mem_waiting.mpr ⟨hinv.core.lt_arrivals hr, by simp⟩
  · intro hcond view hview
    rcases hinv.iterate_cases hr hlive view with ⟨hseen, hleave⟩ |
      ⟨hopen, hfirst, hblocks, response, store, hdispatch, hanswer, hleave⟩ |
      ⟨hopen, hwaits, response, -, -⟩
    · obtain ⟨b', heq, hiff⟩ := hinv.core.removes hr (.closed hseen)
      exact ⟨b', hleave.trans heq, hiff.mpr fun _ => rfl⟩
    · obtain ⟨b', heq, hiff⟩ := hinv.core.removes hr
        (.retried operations hopen hfirst hlive hblocks hdispatch hanswer)
      refine ⟨b', hleave.trans heq, hiff.mpr ((hanswer.values_iff hinv.core.store hblocks).mpr ?_)⟩
      rcases hcond with hunread | ⟨-, -, hkeeps⟩
      · rw [hview, decide_eq_false_iff_not] at hopen
        exact absurd hunread hopen
      · exact hkeeps
    · rcases hcond with hunread | ⟨hfirst, hblocks, -⟩
      · rw [hview, decide_eq_false_iff_not] at hopen
        exact absurd hunread hopen
      · rw [hwaits hfirst] at hblocks
        cases hblocks

/-! ### Runs -/

/-- A socket that the peer has closed. -/
def closedAfter (unread : List UInt8) : Connection := ⟨unread, true⟩

/-- What request 1 makes of an iteration that sees the socket like this. -/
def iterateAlone (b : Broker) (connection : Connection) : Option Broker :=
  match b.requests 1 with
  | some ⟨packet, actor, .waiting frame⟩ =>
    b.iterate 1 packet actor frame ⟨peerHasClosed connection.peek, ⟨true, 6⟩, none⟩
  | _ => none

/-- The client has sent nothing behind its request. -/
theorem departed_waiter_removed_idle :
    ∃ b b', Transition.exec step create waitForUnit = some b ∧ b.waiting = [1] ∧
      b.iterateAlone (closedAfter []) = some b' ∧ b.RemovesQuietly 1 b' := by
  have hrun : (Transition.exec step create waitForUnit).any (fun b => decide (b.waiting = [1])) =
      true := by
    decide +kernel
  obtain ⟨b, hb, hwaiting⟩ := (Option.any_eq_true _ _).mp hrun
  rw [decide_eq_true_eq] at hwaiting
  have hmem : 1 ∈ b.waiting := by simp [hwaiting]
  obtain ⟨frame, hframe⟩ := Option.isSome_iff_exists.mp (mem_waiting.mp hmem).2
  obtain ⟨packet, actor, hr⟩ := frame?_eq_some.mp hframe
  obtain ⟨⟨operations, hlive⟩, -, -⟩ :=
    (inv_reachable ⟨_, hb⟩).core.frames 1 packet actor frame hr
  obtain ⟨b', heq, hremoves⟩ := (departed_waiter_removed (.woken ⟨_, hb⟩ hr) hlive.decoded
    (closedAfter []) rfl).mpr (Or.inl rfl) ⟨_, ⟨true, 6⟩, none⟩ rfl
  refine ⟨b, b', hb, hwaiting, ?_, hremoves⟩
  rw [iterateAlone, hr]
  exact heq

/-- The bytes of another request. -/
def pingFrame : List UInt8 := (pingRequest fun _ => 0).frame

/-- The client sends another request behind the one that waits, and closes. The waiter is woken and
runs an iteration, then another client provides the unit. -/
def departThenProvide : List Event :=
  waitForUnit ++ [wakeUp 1 (peerHasClosed (closedAfter pingFrame).peek),
    call (setvalRequest (fun _ => 0) (makeId 0 1) 0 1) 43]

/-- The waiter of the departed client is still queued, and takes the unit. -/
theorem departed_waiter_consumes :
    ∃ b b', Transition.exec step create departThenProvide = some b ∧ b.waiting = [1] ∧
      b.iterateAlone (closedAfter pingFrame) = some b' ∧
      (b.store.sets ⟨0, by decide⟩).values = [1] ∧
      (b'.store.sets ⟨0, by decide⟩).values = [0] := by
  have hrun : (Transition.exec step create departThenProvide).any (fun b =>
      decide (b.waiting = [1]) && (b.iterateAlone (closedAfter pingFrame)).any fun b' =>
        decide ((b.store.sets ⟨0, by decide⟩).values = [1] ∧
          (b'.store.sets ⟨0, by decide⟩).values = [0])) = true := by
    decide +kernel
  obtain ⟨b, hb, hcheck⟩ := (Option.any_eq_true _ _).mp hrun
  rw [Bool.and_eq_true, decide_eq_true_eq] at hcheck
  obtain ⟨hwaiting, hcheck⟩ := hcheck
  obtain ⟨b', hb', hvalues⟩ := (Option.any_eq_true _ _).mp hcheck
  exact ⟨b, b', hb, hwaiting, hb', decide_eq_true_eq.mp hvalues⟩

end Broker

end Tgcompat
