import Tgcompat.Broker.WakeUps

/-!
# First come, first served

The pointers of the queue list the waiting requests in order of arrival, and a waiter is only
retried when no earlier one waits on the same set. So a waiter that could proceed stays behind an
earlier one of its set that cannot, and proceeds in the next round once it is the first.
-/

namespace Tgcompat

namespace Broker

variable {b b' : Broker} {r : ℕ} {packet : ProtocolPacket} {actor : BrokerActor} {frame : Frame}
  {outcome : Outcome}

/-! ### Leaving by a retry -/

/-- What a turn makes of its request. -/
lemma Turn.request {view : IterationView} (h : b.Turn r packet actor frame view b') :
    (∃ outcome, b'.requests r = some ⟨packet, actor, .finished outcome⟩ ∧
      (outcome.exit = .retried → b.IsFirst r) ∧
      (outcome.exit = .peerClosed ∨ outcome.exit = .retried ∨ outcome.exit = .waitFailed ∨
        outcome.exit = .timedOut)) ∨
    ∃ response, b'.requests r =
        some ⟨packet, actor, .waiting { frame with response := response, asleep := true }⟩ ∧
      ∀ operations, b.IsFirst r → Live packet actor frame.waiter.semid operations →
        b.store.blocks frame.waiter.semid operations = true := by
  cases h with
  | @left queue store applied outcome hqueue hleave =>
    refine Or.inl ⟨outcome, by simp [Broker.left, broadcast, setStatus, Request.wakeUp], ?_⟩
    cases hleave with
    | closed hclosed => simp
    | retried operations hopen hfirst hlive hblocks hdispatch hanswer =>
      exact ⟨fun _ => hfirst, by simp⟩
    | waitFailed error hresponse => simp
    | timedOut => simp
  | @slept response hresponse hhead => exact Or.inr ⟨response, by simp [setStatus], hhead⟩

/-- What an arrival makes of its request: a retry ends it only if no waiter has its set. -/
lemma Arrived.request {view : ArrivalView} (h : b.Arrived packet actor view b') :
    ∃ status, b'.requests b.arrivals = some ⟨packet, actor, status⟩ ∧
      ∀ outcome, status = .finished outcome → outcome.exit = .retried →
        ∀ c < b.arrivals, b.semid? c ≠ some (wireGetI32 packet.payload 0) := by
  -- the exits before the queue are not retries
  have hearly : ∀ (d : Broker) (outcome : Outcome), outcome.exit ≠ .retried →
      ∃ status, (d.setStatus b.arrivals packet actor (.finished outcome)).requests b.arrivals =
          some ⟨packet, actor, status⟩ ∧
        ∀ outcome, status = .finished outcome → outcome.exit = .retried →
          ∀ c < b.arrivals, b.semid? c ≠ some (wireGetI32 packet.payload 0) := by
    intro d outcome hexit
    refine ⟨.finished outcome, by simp [setStatus], ?_⟩
    intro outcome' heq hexit'
    cases heq
    exact absurd hexit' hexit
  cases h with
  | unlocked error => exact hearly _ _ (by simp)
  | unwatched hundo hresult heq => exact hearly _ _ (by simp)
  | answered hprepared hdispatch hquit hexit =>
    refine hearly _ _ ?_
    rcases hexit with rfl | rfl
    · simp
    · simp
  | unqueued hprepared hret hexit =>
    refine hearly _ _ ?_
    rcases hexit with rfl | rfl | rfl
    · simp
    · simp
    · simp
  | @queued b₁ b' store frame operations hprepared hlive hblocks hcount henters hturn =>
    rcases hturn.request with ⟨outcome, heq, hfirst, -⟩ | ⟨response, heq, -⟩
    · refine ⟨_, heq, ?_⟩
      intro outcome' heq' hexit c hc
      cases heq'
      have hne : some c ≠ some b.arrivals := fun heq => hc.ne (Option.some_injective _ heq)
      have hself : (b₁.admitted store b.arrivals packet actor frame).semid? b.arrivals =
          some frame.waiter.semid := semid?_of_frame frame?_setStatus_waiting
      have hother : (b₁.admitted store b.arrivals packet actor frame).semid? c = b.semid? c := by
        rw [← hprepared.bystanders.semid?_eq hne]
        simp only [admitted, semid?, frame?_setStatus_of_ne _ hc.ne]
        rfl
      rw [← hlive.semid_eq, ← hself, ← hother]
      exact hfirst hexit c hc
    · refine ⟨_, heq, ?_⟩
      intro outcome' heq'
      cases heq'

/-- A request that an event finishes is the one it runs. -/
lemma Steps.runs_of_finished (hinv : b.Inv) {event : Event} (h : b.Steps event b')
    (hr' : b'.requests r = some ⟨packet, actor, .finished outcome⟩)
    (hr : b.requests r ≠ some ⟨packet, actor, .finished outcome⟩) : some r = event.runs b := by
  by_contra hne
  cases h.bystanders hinv with
  | left hsame hvalues hstay =>
    rw [hsame r hne] at hr'
    exact hr hr'
  | woken hwoken =>
    rw [hwoken r hne] at hr'
    exact hr (requests_broadcast_finished.mp hr')

/-- A request is only retried when no earlier waiter has its set. -/
lemma Steps.retried_first (hinv : b.Inv) {event : Event} (h : b.Steps event b')
    (hr' : b'.requests r = some ⟨packet, actor, .finished outcome⟩)
    (hr : b.requests r ≠ some ⟨packet, actor, .finished outcome⟩)
    (hexit : outcome.exit = .retried) {c : ℕ} (hc : c < r) :
    b.semid? c ≠ some (wireGetI32 packet.payload 0) := by
  have hruns := h.runs_of_finished hinv hr' hr
  cases h with
  | arrived harrived =>
    cases hruns
    obtain ⟨status, heq, hfirst⟩ := harrived.request
    rw [heq] at hr'
    cases hr'
    exact hfirst outcome rfl hexit c hc
  | @woken r' view packet' actor' frame' b' hwaiting hturn =>
    cases hruns
    obtain ⟨⟨operations, hlive⟩, -, -⟩ := hinv.core.frames _ _ _ _ hwaiting
    rcases hturn.request with ⟨outcome', heq, hfirst, -⟩ | ⟨response, heq, -⟩
    · rw [heq] at hr'
      cases hr'
      rw [← hlive.semid_eq, ← semid?_of_frame (frame?_of_request hwaiting)]
      exact hfirst hexit c hc
    · rw [heq] at hr'
      cases hr'
  | scanned hscan => cases hruns
  | moved processes hnone =>
    rw [hnone] at hruns
    cases hruns

/-- In every reachable state, following `next` from the head visits exactly the requests in the wait
loop, in order of arrival and without repetition, and the tail is the last of them. No event
finishes a request by a retry while an earlier waiter is queued on its set. -/
theorem queue_fifo (h : b.Reachable) :
    (LinkedQueue.Seg b.queue.next b.queue.head b.waiting none ∧
      b.waiting.Pairwise (· < ·) ∧ b.waiting.Nodup ∧
      (∀ r, r ∈ b.waiting ↔
        ∃ packet actor frame, b.requests r = some ⟨packet, actor, .waiting frame⟩) ∧
      b.queue.tail = b.waiting.getLast? ∧ (b.queue.tail = none ↔ b.waiting = [])) ∧
    ∀ event b', b.step event = some b' → ∀ c r packet actor outcome, c < r →
      b.semid? c = some (wireGetI32 packet.payload 0) →
      b.requests r ≠ some ⟨packet, actor, .finished outcome⟩ →
      b'.requests r = some ⟨packet, actor, .finished outcome⟩ → outcome.exit ≠ .retried := by
  have hinv := inv_reachable h
  refine ⟨⟨hinv.core.queue.chain, sorted_waiting b, nodup_waiting b, ?_, hinv.core.queue.tail, ?_⟩,
    ?_⟩
  · intro r
    constructor
    · intro hr
      obtain ⟨frame, hframe⟩ := Option.isSome_iff_exists.mp (mem_waiting.mp hr).2
      obtain ⟨packet, actor, hrequest⟩ := frame?_eq_some.mp hframe
      exact ⟨packet, actor, frame, hrequest⟩
    · rintro ⟨packet, actor, frame, hr⟩
      exact hinv.core.mem_waiting hr
  · rw [hinv.core.queue.tail]
    exact List.getLast?_eq_none_iff
  · intro event b' hstep c r packet actor outcome hc hsemid hr hr' hexit
    exact (hinv.steps hstep).1.retried_first hinv hr' hr hexit hc hsemid

/-- A request that takes one unit of a semaphore of the first set. -/
def takeFrom (semnum : UInt16) : ProtocolPacket :=
  semopRequest (fun _ => 0) (makeId 0 1) [⟨semnum, -1, 0⟩] none

/-- Requests 1 and 2 wait for different semaphores of one set, then the one that request 2 waits
for is set. -/
def overtaking : List Event :=
  [call (semgetRequest (fun _ => 0) 1234 2 0o1600) 42,
    call (takeFrom 0) 42,
    call (takeFrom 1) 43,
    call (setvalRequest (fun _ => 0) (makeId 0 1) 1 1) 44]

theorem queue_fifo_overtaking :
    ∃ b, Transition.exec step create overtaking = some b ∧ b.waiting = [1, 2] ∧
      LinkedQueue.Seg b.queue.next b.queue.head [1, 2] none ∧ b.queue.tail = some 2 := by
  have hrun : (Transition.exec step create overtaking).any (fun b => decide (b.waiting = [1, 2])) =
      true := by
    decide +kernel
  obtain ⟨b, hb, hwaiting⟩ := (Option.any_eq_true _ _).mp hrun
  rw [decide_eq_true_eq] at hwaiting
  obtain ⟨⟨hseg, -, -, -, htail, -⟩, -⟩ := queue_fifo ⟨overtaking, hb⟩
  rw [hwaiting] at hseg htail
  exact ⟨b, hb, hwaiting, hseg, htail⟩

/-! ### Rounds -/

/-- Every queued waiter runs its loop, in any order, and nothing else happens. -/
structure IsRound (b : Broker) (events : List Event) : Prop where
  wakes : ∀ event ∈ events, ∃ r view, event = .wake r view
  all : ∀ r ∈ b.waiting, ∃ view, .wake r view ∈ events

lemma blocks_uncount {st : SemStore} (h : st.Inv) (waiter : Waiter) (semid : Int32)
    (operations : List SemOp) :
    (uncount st waiter).blocks semid operations = st.blocks semid operations := by
  rw [uncount]
  split_ifs
  · have hframes : st.SameFrames (st.next (.adjustWaitCount waiter.semid waiter.semnum.toNat
        (waiter.waitForZero ≠ 0) (-1))) := h.next_frames rfl
    exact hframes.blocks_eq fun i hf => (st.keepsValues_adjustWaitCount _ _ _ _ semid i hf).2.2
  · rfl

/-- A waiter that leaves does not change the values of a set of which it is not the head. -/
lemma LeavesBy.blocks_eq {view : IterationView} {store : SemStore} {applied : ℕ → ℕ}
    (h : LeavesBy b r packet actor frame view store applied outcome) {semid : Int32}
    (hother : b.IsFirst r → frame.waiter.semid ≠ semid) (operations : List SemOp) :
    store.blocks semid operations = b.store.blocks semid operations := by
  cases h with
  | closed hclosed => rfl
  | retried ops hopen hfirst hlive hblocks hdispatch hanswer =>
    cases hanswer with
    | applied plan t hplan hwf hadded hcommits _ hresult =>
      refine SemStore.SameFrames.blocks_eq ?_ ?_
      · exact SemStore.sameFrames_of_write rfl ⟨rfl, rfl, rfl, rfl⟩
      · intro i hf
        have hne : i ≠ plan.index := by
          rintro rfl
          exact hother hfirst ((SemStore.eq_idOf_of_findSet hplan.found).trans
            (SemStore.eq_idOf_of_findSet hf).symm)
        simp only [SemStore.committedStore, SemStore.writeSet_sets_of_ne _ hne]
    | blocked op hop hcommits hb hresult hreply => rfl
    | failed hcommits hb hresult => rfl
  | waitFailed error hresponse => rfl
  | timedOut => rfl

/-- What an event makes of a waiter: it still waits, or the event ran it and it has left. -/
lemma Steps.waiter (hinv : b.Inv) {event : Event} (h : b.Steps event b')
    (hr : b.requests r = some ⟨packet, actor, .waiting frame⟩) :
    (∃ frame', b'.requests r = some ⟨packet, actor, .waiting frame'⟩ ∧
      frame'.waiter = frame.waiter) ∨
    ∃ outcome, b'.requests r = some ⟨packet, actor, .finished outcome⟩ ∧
      (outcome.exit = .retried → b.IsFirst r) ∧
      (outcome.exit = .peerClosed ∨ outcome.exit = .retried ∨ outcome.exit = .waitFailed ∨
        outcome.exit = .timedOut) := by
  by_cases hruns : some r = event.runs b
  · obtain ⟨view, frame', -, hstatus, hturn⟩ := h.woken_of_runs hinv hruns hr
    cases hstatus
    rcases hturn.request with hfinished | ⟨response, heq, -⟩
    · exact Or.inr hfinished
    · exact Or.inl ⟨_, heq, rfl⟩
  · exact Or.inl ((h.bystanders hinv).waiting hruns hr)

/-- A turn of another waiter keeps the head of a set and what it waits for. -/
lemma Turn.keeps_head (hinv : b.Inv) {c : ℕ} (hcr : c ≠ r) {packet' : ProtocolPacket}
    {actor' : BrokerActor} {frame' : Frame} {view : IterationView}
    (hc : b.requests c = some ⟨packet', actor', .waiting frame'⟩)
    (h : b.Turn c packet' actor' frame' view b')
    (hr : b.requests r = some ⟨packet, actor, .waiting frame⟩) (hfirst : b.IsFirst r)
    (operations : List SemOp) :
    b'.IsFirst r ∧ b'.store.blocks frame.waiter.semid operations =
      b.store.blocks frame.waiter.semid operations := by
  have hsemid := semid?_of_frame (frame?_of_request hr)
  -- two waiters are not both the head of one set
  have hother : b.IsFirst c → frame'.waiter.semid ≠ frame.waiter.semid := by
    intro hfirst' heq
    have heq' : b.semid? c = b.semid? r := by
      rw [hsemid, semid?_of_frame (frame?_of_request hc), heq]
    rcases Nat.lt_or_gt_of_ne hcr with hlt | hlt
    · exact hfirst c hlt heq'
    · exact hfirst' r hlt heq'.symm
  have hself : b'.semid? r = b.semid? r :=
    (h.bystanders hc).semid?_eq fun heq => hcr (Option.some_injective _ heq).symm
  cases h with
  | @left queue store applied outcome hqueue hleave =>
    refine ⟨?_, ?_⟩
    · intro d hd heq
      rw [hself] at heq
      by_cases hdc : d = c
      · subst hdc
        rw [Broker.left, semid?_broadcast, semid?, frame?_setStatus_finished, hsemid] at heq
        cases heq
      · refine hfirst d hd ?_
        rw [← heq, Broker.left, semid?_broadcast]
        simp only [semid?, frame?_setStatus_of_ne _ hdc]
        rfl
    · exact (blocks_uncount (hleave.store_inv hinv.core.store) frame'.waiter _ _).trans
        (hleave.blocks_eq hother operations)
  | slept hresponse hhead =>
    refine ⟨?_, rfl⟩
    rw [isFirst_setStatus (by simp [semid?, frame?_of_request hc])]
    exact hfirst

/-- The head of a set leaves in a round if it does not have to wait. -/
lemma Inv.round_head (h : b.Inv) (hr : b.requests r = some ⟨packet, actor, .waiting frame⟩)
    (hfirst : b.IsFirst r) {operations : List SemOp}
    (hlive : Live packet actor frame.waiter.semid operations)
    (hblocks : b.store.blocks frame.waiter.semid operations = false) {events : List Event}
    (hwakes : ∀ event ∈ events, ∃ c view, event = .wake c view)
    (hmem : ∃ view, .wake r view ∈ events) (hexec : Transition.exec step b events = some b') :
    b'.frame? r = none := by
  induction events generalizing b frame with
  | nil =>
    obtain ⟨view, hview⟩ := hmem
    cases hview
  | cons event events ih =>
    obtain ⟨c, view, rfl⟩ := hwakes event List.mem_cons_self
    obtain ⟨b₁, hstep, hexec'⟩ := Option.bind_eq_some_iff.mp (Transition.exec_cons b _ _ ▸ hexec)
    obtain ⟨hsteps, hinv₁⟩ := h.steps hstep
    cases hsteps with
    | @woken _ _ packet' actor' frame' _ hc hturn =>
      by_cases hcr : c = r
      · -- the turn of the head itself: it cannot go back to sleep
        subst hcr
        cases hr.symm.trans hc
        rcases hturn.request with ⟨outcome, heq, -, -⟩ | ⟨response, heq, hhead⟩
        · obtain ⟨hfinished, -⟩ := hinv₁.exec_finished hexec' heq
          rw [frame?, hfinished]
        · rw [hhead operations hfirst hlive] at hblocks
          cases hblocks
      · obtain ⟨frame₁, hr₁, hwaiter⟩ := (hturn.bystanders hc).waiting
          (fun heq => hcr (Option.some_injective _ heq).symm) hr
        obtain ⟨hfirst₁, hblocks₁⟩ := hturn.keeps_head h hcr hc hr hfirst operations
        rw [← hwaiter] at hlive hblocks hblocks₁
        refine ih hinv₁ hr₁ hfirst₁ hlive (hblocks₁.trans hblocks)
          (fun event hevent => hwakes event (List.mem_cons_of_mem _ hevent)) ?_ hexec'
        obtain ⟨view', hview⟩ := hmem
        rcases List.mem_cons.mp hview with heq | hview
        · cases heq
          exact absurd rfl hcr
        · exact ⟨view', hview⟩
    | moved processes hnone => cases hnone

/-- Behind a waiter of the same set that stays, a waiter leaves only when its peer has closed, its
deadline has passed or the wait fails. -/
lemma Inv.round_behind (h : b.Inv) (hr : b.requests r = some ⟨packet, actor, .waiting frame⟩)
    {c : ℕ} (hc : c < r) (hsemid : b.semid? c = b.semid? r) {events : List Event}
    (hexec : Transition.exec step b events = some b') (hstays : (b'.frame? c).isSome = true) :
    (b'.frame? r).isSome = true ∨
      ∃ outcome, b'.requests r = some ⟨packet, actor, .finished outcome⟩ ∧
        (outcome.exit = .peerClosed ∨ outcome.exit = .waitFailed ∨ outcome.exit = .timedOut) := by
  induction events generalizing b frame with
  | nil =>
    cases hexec
    rw [frame?_of_request hr]
    exact Or.inl rfl
  | cons event events ih =>
    obtain ⟨b₁, hstep, hexec'⟩ := Option.bind_eq_some_iff.mp (Transition.exec_cons b _ _ ▸ hexec)
    obtain ⟨hsteps, hinv₁⟩ := h.steps hstep
    have hr₁ := semid?_of_frame (frame?_of_request hr)
    obtain ⟨framec, hframec⟩ : ∃ framec, b.frame? c = some framec := by
      rw [← Option.isSome_iff_exists, ← semid?_isSome, hsemid, hr₁]
      rfl
    obtain ⟨packetc, actorc, hc'⟩ := frame?_eq_some.mp hframec
    -- the waiter in front is still there after the event, since it is at the end
    obtain ⟨framec₁, hc₁, hwaiterc⟩ : ∃ framec₁,
        b₁.requests c = some ⟨packetc, actorc, .waiting framec₁⟩ ∧
          framec₁.waiter = framec.waiter := by
      rcases hsteps.waiter h hc' with hwaits | ⟨outcome, hfinished, -, -⟩
      · exact hwaits
      · rw [frame?, (hinv₁.exec_finished hexec' hfinished).1] at hstays
        cases hstays
    rcases hsteps.waiter h hr with ⟨frame₁, hwaits, hwaiter⟩ | ⟨outcome, hfinished, hfirst, hexit⟩
    · refine ih hinv₁ hwaits ?_ hexec'
      rw [semid?_of_frame (frame?_of_request hwaits), semid?_of_frame (frame?_of_request hc₁),
        hwaiter, hwaiterc, ← hr₁, ← hsemid, semid?_of_frame hframec]
    · refine Or.inr ⟨outcome, (hinv₁.exec_finished hexec' hfinished).1, ?_⟩
      rcases hexit with hclosed | hretried | hrest
      · exact Or.inl hclosed
      · exact absurd hsemid (hfirst hretried c hc)
      · exact Or.inr hrest

/-- A waiter that does not have to wait on the current store has left after every queued waiter has
run its loop, if it was the first for its set. Behind a waiter of its set that is still queued then,
it stays, unless its peer has closed, its deadline has passed or the wait fails. -/
theorem round_first_leaves (h : b.Reachable)
    (hr : b.requests r = some ⟨packet, actor, .waiting frame⟩)
    (hready : ¬ MustWait b.store packet actor) {events : List Event} (hround : b.IsRound events)
    (hexec : Transition.exec step b events = some b') :
    (b.IsFirst r → b'.frame? r = none) ∧
    ∀ c < r, b.semid? c = b.semid? r → (b'.frame? c).isSome = true →
      (b'.frame? r).isSome = true ∨
        ∃ outcome, b'.requests r = some ⟨packet, actor, .finished outcome⟩ ∧
          (outcome.exit = .peerClosed ∨ outcome.exit = .waitFailed ∨
            outcome.exit = .timedOut) := by
  have hinv := inv_reachable h
  refine ⟨?_, fun c hc hsemid hstays => hinv.round_behind hr hc hsemid hexec hstays⟩
  intro hfirst
  obtain ⟨⟨operations, hlive⟩, -, -⟩ := hinv.core.frames r packet actor frame hr
  rw [hlive.mustWait_iff hinv.core.store, Bool.not_eq_true] at hready
  exact hinv.round_head hr hfirst hlive hready hround.wakes
    (hround.all r (hinv.core.mem_waiting hr)) hexec

/-- The set and the operations of a waiter. -/
def pending? (b : Broker) (r : ℕ) : Option (Int32 × List SemOp) :=
  match b.requests r with
  | some ⟨packet, _, .waiting _⟩ => (decodeSemop packet).toOption
  | _ => none

/-- What a waiter would be answered on the current store. -/
def resultNow? (b : Broker) (r : ℕ) : Option Int32 :=
  match b.requests r with
  | some ⟨packet, actor, .waiting frame⟩ =>
    some (brokerDispatch b.store packet actor ⟨true, 6⟩ frame.response).2.1.header.result
  | _ => none

lemma isRound_of_waiting {rs : List ℕ} (h : b.waiting = rs) :
    b.IsRound (rs.map fun r => wakeUp r false) where
  wakes := by
    intro event hevent
    obtain ⟨r, -, rfl⟩ := List.mem_map.mp hevent
    exact ⟨r, _, rfl⟩
  all := by
    intro r hr
    rw [h] at hr
    exact ⟨_, List.mem_map.mpr ⟨r, hr, rfl⟩⟩

/-- Request 2 would succeed and everybody is awake, but after a round in which both waiters run it
is still queued behind request 1, which waits for another semaphore. -/
theorem satisfiable_waiter_stays :
    ∃ b b', Transition.exec step create overtaking = some b ∧
      b.pending? 1 = some (makeId 0 1, [⟨0, -1, 0⟩]) ∧
      b.pending? 2 = some (makeId 0 1, [⟨1, -1, 0⟩]) ∧
      (b.frame? 1).map Frame.asleep = some false ∧ (b.frame? 2).map Frame.asleep = some false ∧
      b.resultNow? 2 = some 0 ∧ b.IsRound [wakeUp 1 false, wakeUp 2 false] ∧
      Transition.exec step b [wakeUp 1 false, wakeUp 2 false] = some b' ∧
      (b'.frame? 2).isSome = true ∧ b'.resultNow? 2 = some 0 := by
  have hrun : (Transition.exec step create overtaking).any (fun b =>
      decide (b.waiting = [1, 2] ∧ b.pending? 1 = some (makeId 0 1, [⟨0, -1, 0⟩]) ∧
        b.pending? 2 = some (makeId 0 1, [⟨1, -1, 0⟩]) ∧
        (b.frame? 1).map Frame.asleep = some false ∧ (b.frame? 2).map Frame.asleep = some false ∧
        b.resultNow? 2 = some 0) &&
      (Transition.exec step b [wakeUp 1 false, wakeUp 2 false]).any fun b' =>
        decide ((b'.frame? 2).isSome = true ∧ b'.resultNow? 2 = some 0)) = true := by
    decide +kernel
  obtain ⟨b, hb, hcheck⟩ := (Option.any_eq_true _ _).mp hrun
  rw [Bool.and_eq_true, decide_eq_true_eq] at hcheck
  obtain ⟨⟨hwaiting, hfirst, hsecond, hawake, hawake', hresult⟩, hround⟩ := hcheck
  obtain ⟨b', hb', hcheck'⟩ := (Option.any_eq_true _ _).mp hround
  rw [decide_eq_true_eq] at hcheck'
  exact ⟨b, b', hb, hfirst, hsecond, hawake, hawake', hresult, isRound_of_waiting hwaiting, hb',
    hcheck'⟩

/-- Once the peer of request 1 has closed, request 2 leaves in the next round. -/
theorem round_first_leaves_overtaking :
    ∃ b b', Transition.exec step create (overtaking ++ [wakeUp 1 true]) = some b ∧
      b.resultNow? 2 = some 0 ∧ b.IsFirst 2 ∧ b.IsRound [wakeUp 2 false] ∧
      Transition.exec step b [wakeUp 2 false] = some b' ∧ b'.frame? 2 = none := by
  have hrun : (Transition.exec step create (overtaking ++ [wakeUp 1 true])).any (fun b =>
      decide (b.waiting = [2] ∧ b.resultNow? 2 = some 0 ∧ b.IsFirst 2) &&
      (Transition.exec step b [wakeUp 2 false]).isSome) = true := by
    decide +kernel
  obtain ⟨b, hb, hcheck⟩ := (Option.any_eq_true _ _).mp hrun
  rw [Bool.and_eq_true, decide_eq_true_eq] at hcheck
  obtain ⟨⟨hwaiting, hresult, hfirst⟩, hsome⟩ := hcheck
  obtain ⟨b', hb'⟩ := Option.isSome_iff_exists.mp hsome
  have hround := isRound_of_waiting hwaiting
  refine ⟨b, b', hb, hresult, hfirst, hround, hb', ?_⟩
  have hresult' := hresult
  rw [resultNow?] at hresult'
  split at hresult'
  · next packet actor frame hr =>
    refine (round_first_leaves ⟨_, hb⟩ hr (fun hwait => ?_) hround hb').1 hfirst
    rw [(hwait _ _).2] at hresult'
    cases hresult'
  · cases hresult'

end Broker

end Tgcompat
