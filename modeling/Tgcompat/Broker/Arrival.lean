import Tgcompat.Broker.Iteration

/-!
# The arrival of a request

`Arrived` lists what the first segment of `dispatch_request` can do: the request is answered at
once, or it joins the queue and runs its first turn of the wait loop. The stages before that are
the watch on the process, for a request that uses `SEM_UNDO`, and the first dispatch.
-/

namespace Tgcompat

namespace Broker

variable {b b' : Broker} {r : ℕ} {packet : ProtocolPacket} {actor : BrokerActor} {frame : Frame}

/-! ### Stages -/

/-- The broker with the arriving request numbered. -/
def numbered (b : Broker) : Broker := { b with arrivals := b.arrivals + 1 }

/-- The broker before the first dispatch: the process is watched if the request uses undo. -/
inductive Prepared (b : Broker) (packet : ProtocolPacket) (actor : BrokerActor)
    (view : ArrivalView) : Broker → Prop
  | plain (hundo : requestUsesUndo packet = false) : Prepared b packet actor view b.numbered
  | watched (hundo : requestUsesUndo packet = true)
      (hsound : b.numbered.lookupSound actor.pid view.lookup = true)
      (hresult : (b.numbered.watchProcess actor.pid view.lookup).1 = 0) :
      Prepared b packet actor view (b.numbered.watchProcess actor.pid view.lookup).2

/-- A waiter is counted and linked. -/
def admitted (b : Broker) (store : SemStore) (r : ℕ) (packet : ProtocolPacket)
    (actor : BrokerActor) (frame : Frame) : Broker :=
  Broker.setStatus { b with store := store, queue := b.queue.enqueue r } r packet actor
    (.waiting frame)

/-- The broker after a first dispatch that answered the request. -/
def answered (b : Broker) (store : SemStore) (r : ℕ) (packet : ProtocolPacket)
    (actor : BrokerActor) (ret : Int32) (response : ProtocolPacket) (exit : Exit) : Broker :=
  let b₂ := { b with store := store, applied := b.countApplied r packet actor }
  let b₃ := if ret = 0 ∧ operationChangedState packet response = true then b₂.broadcast else b₂
  b₃.setStatus r packet actor (.finished ⟨ret, response, exit⟩)

/-- The frame of a request that enters the wait loop: awake, counted, and with the operation that
blocks it as the reason. -/
structure Enters (st : SemStore) (operations : List SemOp) (frame : Frame) : Prop where
  awake : frame.asleep = false
  counted : frame.waiter.counted = true
  reason : ∃ op, st.blockingOp frame.waiter.semid operations = some op ∧
    frame.waiter.semnum = op.semNum ∧ frame.waiter.waitForZero = if op.semOp = 0 then 1 else 0

/-- What the arrival of a request can do. -/
inductive Arrived (b : Broker) (packet : ProtocolPacket) (actor : BrokerActor)
    (view : ArrivalView) : Broker → Prop
  | unlocked (error : Errno) :
      Arrived b packet actor view (b.numbered.setStatus b.arrivals packet actor
        (.finished ⟨-error.code, view.response, .unlocked⟩))
  | unwatched {result : Int32} (hundo : requestUsesUndo packet = true) (hresult : result < 0)
      (heq : b.numbered.watchProcess actor.pid view.lookup = (result, b.numbered)) :
      Arrived b packet actor view (b.numbered.setStatus b.arrivals packet actor
        (.finished ⟨0, prepareErrorResponse packet view.response result, .unwatched⟩))
  | answered {b₁ : Broker} {ret : Int32} {response : ProtocolPacket} {store : SemStore}
      {exit : Exit}
      (hprepared : b.Prepared packet actor view b₁)
      (hdispatch : brokerDispatch b₁.store packet actor view.env view.response =
        (ret, response, store))
      (hquit : packet.opcode.any Opcode.isSemop = false ∨ ret ≠ 0 ∨
        response.header.result ≠ semOpBlocked)
      (hexit : exit = .rejected ∨ exit = .immediate) :
      Arrived b packet actor view
        (b₁.answered store b.arrivals packet actor ret response exit)
  | unqueued {b₁ : Broker} {ret : Int32} {response : ProtocolPacket} {exit : Exit}
      (hprepared : b.Prepared packet actor view b₁) (hret : ret ≠ 0)
      (hexit : exit = .malformed ∨ exit = .noDeadline ∨ exit = .uncounted) :
      Arrived b packet actor view (b₁.setStatus b.arrivals packet actor
        (.finished ⟨ret, response, exit⟩))
  | queued {b₁ b' : Broker} {store : SemStore} {frame : Frame} (operations : List SemOp)
      (hprepared : b.Prepared packet actor view b₁)
      (hlive : Live packet actor frame.waiter.semid operations)
      (hblocks : b₁.store.blocks frame.waiter.semid operations = true)
      (hcount : (0, store) = b₁.store.adjustWaitCount frame.waiter.semid
        frame.waiter.semnum.toNat (frame.waiter.waitForZero ≠ 0) 1)
      (henters : Enters b₁.store operations frame)
      (hturn : (b₁.admitted store b.arrivals packet actor frame).Turn b.arrivals packet actor
        frame view.iteration b') :
      Arrived b packet actor view b'

/-! ### The stages keep the invariant -/

lemma waiting_numbered (h : b.Core) : b.numbered.waiting = b.waiting := by
  have hnone : b.frame? b.arrivals = none := by
    simp [frame?, (h.fresh b.arrivals le_rfl).1]
  have hframes : ∀ c, b.numbered.frame? c = b.frame? c := fun _ => rfl
  have harrivals : b.numbered.arrivals = b.arrivals + 1 := rfl
  rw [waiting, waiting, harrivals, List.range_succ, List.filter_append]
  simp [hframes, hnone]

lemma Inv.numbered (h : b.Inv) : b.numbered.Inv where
  core := {
    store := h.core.store
    queue := by
      rw [waiting_numbered h.core]
      exact h.core.queue
    fresh := fun c hc => h.core.fresh c (Nat.le_of_succ_le hc)
    frames := h.core.frames
    outcomes := h.core.outcomes }
  heads := h.heads

/-- `watch_process` fails without a trace, or watches the process. -/
lemma watchProcess_cases (b : Broker) (pid : Int32) (lookup : ProcessLookup) :
    (∃ result, result < 0 ∧ b.watchProcess pid lookup = (result, b)) ∨
    (b.watched pid = true ∧ b.watchProcess pid lookup = (0, b)) ∨
    ∃ i watcher, b.watched pid = false ∧ (b.watchers i).active = false ∧ watcher.active = true ∧
      watcher.pid = pid ∧ watcher.incarnation = (b.processes pid).incarnation ∧
      (∀ e, lookup ≠ .failed e) ∧
      b.watchProcess pid lookup =
        (0, Broker.broadcast { b with watchers := Function.update b.watchers i watcher }) := by
  rw [watchProcess]
  by_cases hw : b.watched pid = true
  · rw [if_pos hw]
    exact Or.inr (Or.inl ⟨hw, rfl⟩)
  · rw [if_neg hw]
    rw [Bool.not_eq_true] at hw
    cases hf : Table.firstIndex fun i => !(b.watchers i).active with
    | none => exact Or.inl ⟨-ENOSPC, by decide, rfl⟩
    | some i =>
      have hfree : (b.watchers i).active = false := by
        simpa using Table.firstIndex_spec hf
      cases lookup with
      | pidfd | procInode =>
        exact Or.inr (Or.inr ⟨i, ⟨pid, true, (b.processes pid).incarnation⟩, hw, hfree, rfl, rfl,
          rfl, nofun, rfl⟩)
      | failed error => exact Or.inl ⟨-error.code, neg_errno_lt_zero error, rfl⟩

/-- `watch_process` leaves the broker alone, or takes a slot and wakes everybody. -/
lemma watchProcess_broker (b : Broker) (pid : Int32) (lookup : ProcessLookup) :
    (b.watchProcess pid lookup).2 = b ∨
      ∃ i watcher, (b.watchProcess pid lookup).2 =
        Broker.broadcast { b with watchers := Function.update b.watchers i watcher } := by
  rcases watchProcess_cases b pid lookup with ⟨result, -, heq⟩ | ⟨-, heq⟩ |
    ⟨i, watcher, -, -, -, -, -, -, heq⟩
  · exact Or.inl (by rw [heq])
  · exact Or.inl (by rw [heq])
  · exact Or.inr ⟨i, watcher, by rw [heq]⟩

lemma Inv.watchProcess (h : b.Inv) (pid : Int32) (lookup : ProcessLookup) :
    (b.watchProcess pid lookup).2.Inv := by
  rcases watchProcess_broker b pid lookup with heq | ⟨i, watcher, heq⟩
  · rw [heq]
    exact h
  · rw [heq]
    have hcore : Core { b with watchers := Function.update b.watchers i watcher } :=
      h.core.congr h.core.store rfl rfl rfl rfl
    exact hcore.broadcast

/-- What the later stages need of a prepared broker. -/
structure Ready (b b₁ : Broker) : Prop where
  inv : b₁.Inv
  store : b₁.store = b.store
  arrivals : b₁.arrivals = b.arrivals + 1
  requests : b₁.requests b.arrivals = none
  applied : b₁.applied b.arrivals = 0
  queue : b₁.queue = b.queue

lemma Ready.lt {b₁ : Broker} (h : b.Ready b₁) : b.arrivals < b₁.arrivals := by
  rw [h.arrivals]
  exact Nat.lt_succ_self _

lemma Ready.frame? {b₁ : Broker} (h : b.Ready b₁) : b₁.frame? b.arrivals = none := by
  rw [Broker.frame?, h.requests]

lemma Inv.ready_numbered (h : b.Inv) : b.Ready b.numbered :=
  ⟨h.numbered, rfl, rfl, (h.core.fresh _ le_rfl).1, (h.core.fresh _ le_rfl).2, rfl⟩

lemma Inv.ready_watched (h : b.Inv) (pid : Int32) (lookup : ProcessLookup) :
    b.Ready (b.numbered.watchProcess pid lookup).2 := by
  have hinv := h.numbered.watchProcess pid lookup
  obtain ⟨hnone, happlied⟩ := h.core.fresh b.arrivals le_rfl
  rcases watchProcess_broker b.numbered pid lookup with heq | ⟨i, watcher, heq⟩
  · rw [heq]
    exact h.ready_numbered
  · rw [heq] at hinv ⊢
    exact ⟨hinv, rfl, rfl, by simp [Broker.broadcast, Broker.numbered, hnone], happlied, rfl⟩

lemma Inv.prepared (h : b.Inv) {view : ArrivalView} {b₁ : Broker}
    (hp : b.Prepared packet actor view b₁) : b.Ready b₁ := by
  cases hp with
  | plain => exact h.ready_numbered
  | watched => exact h.ready_watched actor.pid view.lookup

/-- The store and the counts after the first dispatch. -/
lemma Core.dispatched {st : SemStore} (h : b.Core) (hst : st.Inv) (hr : r < b.arrivals)
    (hnone : b.requests r = none) {applied : ℕ → ℕ}
    (happlied : ∀ c, c ≠ r → applied c = b.applied c) :
    Core { b with store := st, applied := applied } := by
  have hne : ∀ {c q}, b.requests c = some q → c ≠ r := by
    rintro c q hc rfl
    rw [hnone] at hc
    cases hc
  refine ⟨hst, h.queue, ?_, ?_, ?_⟩
  · intro c hc
    obtain ⟨hnone', hzero⟩ := h.fresh c hc
    have hcr : c ≠ r := by
      rintro rfl
      exact absurd hr (not_lt.mpr hc)
    exact ⟨hnone', (happlied c hcr).trans hzero⟩
  · intro c p a f hc
    have hok := h.frames c p a f hc
    rwa [← happlied c (hne hc)] at hok
  · intro c p a o hc
    have hok := h.outcomes c p a o hc
    rwa [← happlied c (hne hc)] at hok

/-- A dispatch that does not ask to wait pairs its answer with what it applied. -/
lemma dispatch_outcomeOk {st : SemStore} (h : st.Inv) (packet : ProtocolPacket)
    (actor : BrokerActor) (env : DispatchEnv) {response response' : ProtocolPacket} {ret : Int32}
    {st' : SemStore}
    (hdispatch : brokerDispatch st packet actor env response = (ret, response', st'))
    (hquit : packet.opcode.any Opcode.isSemop = false ∨ ret ≠ 0 ∨
      response'.header.result ≠ semOpBlocked) (exit : Exit) :
    OutcomeOk packet ⟨ret, response', exit⟩ (if commits st packet actor then 1 else 0) := by
  cases hsemop : packet.opcode.any Opcode.isSemop with
  | false =>
    rw [if_neg (by rw [commits_of_not_semop hsemop]; decide)]
    refine ⟨?_, fun _ => rfl, ?_⟩
    · intro hs
      rw [hsemop] at hs
      cases hs
    · intro hs
      rw [hsemop] at hs
      cases hs
  | true =>
    rcases live_or_failed hsemop st actor env response with ⟨semid, operations, hlive⟩ |
      ⟨hcommits, -, hfailed⟩
    · obtain ⟨hret, hanswer⟩ := hlive.answered h env response
      rw [hdispatch] at hret hanswer
      simp only at hret hanswer
      subst hret
      refine hanswer.outcomeOk ?_ exit
      rcases hquit with hq | hq | hq
      · rw [hsemop] at hq
        cases hq
      · exact absurd rfl hq
      · exact hq
    · rw [if_neg (by rw [hcommits]; decide)]
      rw [hdispatch] at hfailed
      exact .unapplied hfailed

/-! ### The three ends of an arrival -/

/-- The first dispatch answers the request. Either everybody is woken or no set has changed. -/
lemma Ready.answered {b₁ : Broker} (h : b.Ready b₁) {env : DispatchEnv}
    {response response' : ProtocolPacket} {ret : Int32} {store : SemStore}
    (hdispatch : brokerDispatch b₁.store packet actor env response = (ret, response', store))
    (hquit : packet.opcode.any Opcode.isSemop = false ∨ ret ≠ 0 ∨
      response'.header.result ≠ semOpBlocked) (exit : Exit) :
    (b₁.answered store b.arrivals packet actor ret response' exit).Inv := by
  have hstore := h.inv.core.store.brokerDispatch packet actor env response
  have hvalues : (ret = 0 → operationChangedState packet response' = false) →
      b₁.store.KeepsValues store := by
    intro hquiet
    have hkeep := brokerDispatch_keepsValues h.inv.core.store packet actor env response
    rw [hdispatch] at hkeep
    exact hkeep hquiet
  rw [hdispatch] at hstore
  have hcore : Core { b₁ with
      store := store, applied := b₁.countApplied b.arrivals packet actor } :=
    h.inv.core.dispatched hstore h.lt h.requests fun c hc => countApplied_of_ne hc
  have hok := dispatch_outcomeOk h.inv.core.store packet actor env hdispatch hquit exit
  rw [← countApplied_self_of_zero h.applied] at hok
  rw [Broker.answered]
  by_cases hchanged : ret = 0 ∧ operationChangedState packet response' = true
  · simp only [if_pos hchanged]
    refine hcore.broadcast.finish h.lt ?_ hok
    rw [frame?_broadcast]
    have hnone := h.frame?
    simp only [Broker.frame?] at hnone ⊢
    rw [hnone]
    rfl
  · simp only [if_neg hchanged]
    refine Inv.finish ⟨hcore, ?_⟩ h.lt h.frame? hok
    refine h.inv.heads.congr (hvalues fun hret => ?_) rfl
    rw [← Bool.not_eq_true]
    exact fun hc => hchanged ⟨hret, hc⟩

/-- A request that has to wait ends before it is queued. -/
lemma Ready.unqueued {b₁ : Broker} (h : b.Ready b₁) {ret : Int32} (hret : ret ≠ 0)
    (response : ProtocolPacket) (exit : Exit) :
    (b₁.setStatus b.arrivals packet actor (.finished ⟨ret, response, exit⟩)).Inv := by
  refine h.inv.finish h.lt h.frame? ?_
  rw [h.applied]
  exact .unapplied (Or.inl hret)

/-- A waiter joins the queue at its end, awake. -/
lemma Ready.admitted {b₁ : Broker} (h : b.Ready b₁) {store : SemStore} (hstore : store.Inv)
    (hvalues : b₁.store.KeepsValues store)
    (hlive : ∃ operations, Live packet actor frame.waiter.semid operations)
    (hblocked : frame.response.header.result = semOpBlocked) (hasleep : frame.asleep = false) :
    (b₁.admitted store b.arrivals packet actor frame).Inv where
  core := {
    store := hstore
    queue := by
      have hfresh : b.arrivals ∉ b₁.waiting := by
        rw [mem_waiting, h.frame?]
        simp
      have hwaiting : (b₁.admitted store b.arrivals packet actor frame).waiting =
          b₁.waiting ++ [b.arrivals] := waiting_setStatus_last h.arrivals h.frame?
      rw [hwaiting]
      exact h.inv.core.queue.enqueue hfresh
    fresh := h.inv.core.fresh_setStatus h.lt _
    frames := h.inv.core.frames_setStatus fun f heq => by
      cases heq
      exact ⟨hlive, hblocked, h.applied⟩
    outcomes := h.inv.core.outcomes_setStatus fun _ heq => by cases heq }
  heads := by
    intro c p a f operations hc hasleep' hfirst hlive'
    have hcr : c ≠ b.arrivals := by
      rintro rfl
      simp only [Broker.admitted, setStatus, Function.update_self, Option.some.injEq,
        Request.mk.injEq, Status.waiting.injEq] at hc
      obtain ⟨-, -, rfl⟩ := hc
      rw [hasleep] at hasleep'
      cases hasleep'
    have hc' : b₁.requests c = some ⟨p, a, .waiting f⟩ :=
      (requests_setStatus_of_ne _ hcr).symm.trans hc
    have hlt : c < b.arrivals := by
      have hle := h.inv.core.lt_arrivals hc'
      rw [h.arrivals] at hle
      exact lt_of_le_of_ne (Nat.lt_succ_iff.mp hle) hcr
    -- whoever is in front of `c` arrived before the new waiter
    have hsemid : ∀ d, d ≠ b.arrivals →
        (b₁.admitted store b.arrivals packet actor frame).semid? d = b₁.semid? d := by
      intro d hd
      simp only [Broker.admitted, semid?, frame?_setStatus_of_ne _ hd]
      rfl
    have hfirst' : b₁.IsFirst c := by
      intro d hd
      rw [← hsemid d (Nat.ne_of_lt (hd.trans hlt)), ← hsemid c hcr]
      exact hfirst d hd
    exact hvalues.blocks (h.inv.heads c p a f operations hc' hasleep' hfirst' hlive')

/-! ### The whole arrival -/

lemma initializeDeadline_error {clock : Except Errno Timespec} {e : Int32}
    (h : initializeDeadline packet clock = .error e) : e ≠ 0 := by
  simp only [initializeDeadline] at h
  split at h
  · cases h
  · split at h
    · cases h
      decide
    · cases clock with
      | error error =>
        cases h
        exact neg_errno_ne_zero error
      | ok now => cases h

/-- A counted waiter joins the queue and runs its first turn. -/
lemma Ready.join {b₁ : Broker} (h : b.Ready b₁) {view : ArrivalView}
    (hprepared : b.Prepared packet actor view b₁) (frame : Frame) {operations : List SemOp}
    (hlive : Live packet actor frame.waiter.semid operations)
    (hblocks : b₁.store.blocks frame.waiter.semid operations = true)
    (hresult : frame.response.header.result = semOpBlocked)
    (henters : Enters b₁.store operations frame) {store : SemStore}
    (hcount : b₁.store.adjustWaitCount frame.waiter.semid frame.waiter.semnum.toNat
      (frame.waiter.waitForZero ≠ 0) 1 = (0, store)) :
    ∃ b', (b₁.admitted store b.arrivals packet actor frame).iterate b.arrivals packet actor frame
        view.iteration = some b' ∧ b.Arrived packet actor view b' ∧ b'.Inv := by
  have hinv := inv_adjustWaitCount h.inv.core.store frame.waiter.semid frame.waiter.semnum.toNat
    (frame.waiter.waitForZero ≠ 0) 1
  have hvalues := b₁.store.keepsValues_adjustWaitCount frame.waiter.semid
    frame.waiter.semnum.toNat (frame.waiter.waitForZero ≠ 0) 1
  rw [hcount] at hinv hvalues
  have hadmitted := h.admitted hinv hvalues ⟨operations, hlive⟩ hresult henters.awake
  have hr : (b₁.admitted store b.arrivals packet actor frame).requests b.arrivals =
      some ⟨packet, actor, .waiting frame⟩ := by
    simp [Broker.admitted, setStatus]
  obtain ⟨b', heq, hturn, hinv'⟩ := hadmitted.iterate hr view.iteration
  exact ⟨b', heq, .queued operations hprepared hlive hblocks hcount.symm henters hturn, hinv'⟩

/-- After a blocked first dispatch the request ends with an error or waits. -/
lemma Ready.enterWait {b₁ : Broker} (h : b.Ready b₁) {view : ArrivalView}
    (hprepared : b.Prepared packet actor view b₁) {semid : Int32} {operations : List SemOp}
    (hlive : Live packet actor semid operations) (hblocks : b₁.store.blocks semid operations = true)
    {response : ProtocolPacket} (hresult : response.header.result = semOpBlocked) {op : SemOp}
    (hop : b₁.store.blockingOp semid operations = some op) (hreply : WaitReply response op) :
    ∃ b', b₁.enterWait b.arrivals packet actor response view = some b' ∧
      b.Arrived packet actor view b' ∧ b'.Inv := by
  have hsemnum : (waiterOf packet response).semnum = op.semNum := by
    simp only [waiterOf, hreply.length, if_true, hreply.semnum]
  have hwaits : (waiterOf packet response).waitForZero = if op.semOp = 0 then 1 else 0 := by
    simp only [waiterOf, hreply.length, if_true, hreply.waitForZero]
  have hzero : ¬ (waiterOf packet response).waitForZero > 1 := by
    rw [hwaits]
    split_ifs
    · decide
    · decide
  rw [Broker.enterWait]
  simp only
  rw [if_neg]
  swap
  · rintro (hne | hne | hne)
    · exact hne hreply.length
    · exact hzero hne
    · exact hne hreply.reserved
  cases hdeadline : initializeDeadline packet view.clock with
  | error e =>
    have hne := initializeDeadline_error hdeadline
    exact ⟨_, rfl, .unqueued hprepared hne (by simp), h.unqueued hne _ _⟩
  | ok deadline =>
    rcases hc : b₁.store.adjustWaitCount (waiterOf packet response).semid
      (waiterOf packet response).semnum.toNat ((waiterOf packet response).waitForZero ≠ 0) 1 with
      ⟨result, store⟩
    simp only
    by_cases hne : result ≠ 0
    · rw [if_pos hne]
      exact ⟨_, rfl, .unqueued hprepared hne (by simp), h.unqueued hne _ _⟩
    · rw [if_neg hne]
      rw [not_not] at hne
      subst hne
      have hsemid : semid = (waiterOf packet response).semid := hlive.semid_eq
      subst hsemid
      exact h.join hprepared ⟨response, { waiterOf packet response with
        counted := true, deadline := deadline }, false⟩ hlive hblocks hresult
        ⟨rfl, rfl, op, hop, hsemnum, hwaits⟩ hc

/-- From the first dispatch on. -/
lemma Ready.firstDispatch {b₁ : Broker} (h : b.Ready b₁) {view : ArrivalView}
    (hprepared : b.Prepared packet actor view b₁) :
    ∃ b', b₁.firstDispatch b.arrivals packet actor view = some b' ∧
      b.Arrived packet actor view b' ∧ b'.Inv := by
  rcases hd : brokerDispatch b₁.store packet actor view.env view.response with
    ⟨ret, response, store⟩
  simp only [Broker.firstDispatch, Broker.dispatch, hd]
  by_cases hret : ret ≠ 0
  · rw [if_pos hret]
    have hinv := h.answered hd (Or.inr (Or.inl hret)) .rejected
    have harrived := Arrived.answered hprepared hd (Or.inr (Or.inl hret)) (Or.inl rfl)
    have hquiet : ¬ (ret = 0 ∧ operationChangedState packet response = true) := fun hc => hret hc.1
    simp only [Broker.answered, if_neg hquiet] at hinv harrived
    exact ⟨_, rfl, harrived, hinv⟩
  · rw [if_neg hret]
    rw [not_not] at hret
    subst hret
    by_cases hquit : packet.opcode.any Opcode.isSemop = false ∨
        response.header.result ≠ semOpBlocked
    · rw [if_pos hquit]
      have hquit' : packet.opcode.any Opcode.isSemop = false ∨ (0 : Int32) ≠ 0 ∨
          response.header.result ≠ semOpBlocked := hquit.imp_right Or.inr
      have hinv := h.answered hd hquit' .immediate
      have harrived := Arrived.answered hprepared hd hquit' (Or.inr rfl)
      simp only [Broker.answered, true_and] at hinv harrived
      exact ⟨_, rfl, harrived, hinv⟩
    · rw [if_neg hquit]
      rw [not_or, Bool.not_eq_false, not_not] at hquit
      obtain ⟨hsemop, hblocked⟩ := hquit
      rcases live_or_failed hsemop b₁.store actor view.env view.response with
        ⟨semid, operations, hlive⟩ | ⟨-, -, hfailed⟩
      · have hanswer := (hlive.answered h.inv.core.store view.env view.response).2
        rw [hd] at hanswer
        obtain ⟨hcommits, hblocks, hsame, op, hop, hreply⟩ := hanswer.waits hblocked
        simp only at hsame
        subst hsame
        rw [countApplied_of_not hcommits]
        exact h.enterWait hprepared hlive hblocks hblocked hop hreply
      · rw [hd] at hfailed
        rcases hfailed with hne | hneg
        · exact absurd rfl hne
        · rw [hblocked] at hneg
          exact absurd hneg (by decide)

/-- An arrival is one of the listed ones and keeps the invariant. It never gets stuck: only a lookup
that finds a process which does not exist is excluded. -/
theorem Inv.arrives (h : b.Inv) {view : ArrivalView}
    (hsound : view.lockError = none → requestUsesUndo packet = true →
      b.lookupSound actor.pid view.lookup = true) :
    ∃ b', b.arrive packet actor view = some b' ∧ b.Arrived packet actor view b' ∧ b'.Inv := by
  have hnumbered : { b with arrivals := b.arrivals + 1 } = b.numbered := rfl
  simp only [Broker.arrive, hnumbered]
  cases hlock : view.lockError with
  | some error =>
    exact ⟨_, rfl, .unlocked error, h.ready_numbered.unqueued (neg_errno_ne_zero error) _ _⟩
  | none =>
    simp only
    by_cases hundo : requestUsesUndo packet = true
    · have hsound' : b.numbered.lookupSound actor.pid view.lookup = true := hsound hlock hundo
      rw [if_pos hundo, if_neg (by rw [hsound']; decide)]
      by_cases hresult : (b.numbered.watchProcess actor.pid view.lookup).1 = 0
      · rw [if_neg (not_not.mpr hresult)]
        exact (h.ready_watched actor.pid view.lookup).firstDispatch
          (.watched hundo hsound' hresult)
      · rw [if_pos hresult]
        rcases watchProcess_cases b.numbered actor.pid view.lookup with ⟨result, hneg, hwatch⟩ |
          ⟨-, hwatch⟩ | ⟨i, watcher, -, -, -, -, -, -, hwatch⟩
        · rw [hwatch]
          refine ⟨_, rfl, .unwatched hundo hneg hwatch, ?_⟩
          refine h.numbered.finish h.ready_numbered.lt h.ready_numbered.frame? ?_
          rw [h.ready_numbered.applied]
          exact .unapplied (Or.inr hneg)
        · exact absurd (by rw [hwatch]) hresult
        · exact absurd (by rw [hwatch]) hresult
    · rw [if_neg hundo]
      rw [Bool.not_eq_true] at hundo
      exact h.ready_numbered.firstDispatch (.plain hundo)

lemma lookupSound_of_arrive {view : ArrivalView} (heq : b.arrive packet actor view = some b')
    (hlock : view.lockError = none) (hundo : requestUsesUndo packet = true) :
    b.lookupSound actor.pid view.lookup = true := by
  by_contra hsound
  have hsound' : b.numbered.lookupSound actor.pid view.lookup = false := Bool.not_eq_true _ ▸ hsound
  have hnumbered : { b with arrivals := b.arrivals + 1 } = b.numbered := rfl
  simp only [Broker.arrive, hnumbered, hlock, hundo, hsound', if_true] at heq
  cases heq

lemma Inv.arrive (h : b.Inv) {view : ArrivalView} (heq : b.arrive packet actor view = some b') :
    b.Arrived packet actor view b' ∧ b'.Inv := by
  obtain ⟨b'', heq', hdone⟩ := h.arrives (lookupSound_of_arrive heq)
  cases heq.symm.trans heq'
  exact hdone

end Broker

end Tgcompat
