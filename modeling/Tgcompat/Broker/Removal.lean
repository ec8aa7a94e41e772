import Tgcompat.Broker.Fifo
import Tgcompat.Broker.StaleIds
import Tgcompat.Broker.StoreRuns

/-!
# Removal of a set with waiters

A removal wakes the waiters of the set, and the retry of each is the plain dispatcher. It has no
memory of a set that was there when the request was queued, so it answers as it does to any id that
does not resolve. This goes on until the generation of the slot has gone around its cycle, however
often the slot is used in between.
-/

namespace Tgcompat

/-- What Linux reports to a waiter whose set was removed. -/
def EIDRM : Int32 := 43

namespace Broker

variable {b b₁ b' : Broker} {r : ℕ} {packet : ProtocolPacket} {actor : BrokerActor}
  {frame : Frame} {semid : Int32}

/-! ### A successful removal -/

/-- The removal was answered with zero. -/
def Removed (b b₁ : Broker) (packet : ProtocolPacket) (actor : BrokerActor) : Prop :=
  packet.opcode = some .remove ∧
    ∃ outcome, b₁.requests b.arrivals = some ⟨packet, actor, .finished outcome⟩ ∧
      outcome.ret = 0 ∧ outcome.response.header.result = 0

/-- A dispatch that reports a removal has performed it. -/
lemma brokerDispatch_removed {st st' : SemStore} {env : DispatchEnv}
    {response response' : ProtocolPacket} (hopcode : packet.opcode = some .remove)
    (hdispatch : brokerDispatch st packet actor env response = (0, response', st'))
    (hresult : response'.header.result = 0) :
    ∃ i, st.findSet (wireGetI32 packet.payload 0) = some i ∧
      st' = st.next (.remove (wireGetI32 packet.payload 0)) := by
  rcases brokerDispatch_cases st packet actor env response with ⟨e, hne, heq⟩ | heq
  · rw [heq] at hdispatch
    cases hdispatch
    exact absurd rfl hne
  · have hhandler : dispatchOpcode st packet actor env (prepareResponse packet response) =
        ((dispatchRemove st packet).1, prepareResponse packet response,
          (dispatchRemove st packet).2) := by
      simp only [dispatchOpcode, hopcode]
      rfl
    rw [heq, hhandler] at hdispatch
    cases hdispatch
    have hzero : (dispatchRemove st packet).1 = 0 := hresult
    rw [dispatchRemove] at hzero ⊢
    split_ifs at hzero ⊢ with hlength
    · rcases st.remove_cases (wireGetI32 packet.payload 0) with ⟨-, hremove⟩ | ⟨i, hf, -⟩
      · have hne : -EINVAL ≠ 0 := by decide
        rw [hremove] at hzero
        exact absurd hzero hne
      · exact ⟨i, hf, rfl⟩
    · have hne : -EMSGSIZE ≠ 0 := by decide
      exact absurd hzero hne

lemma Arrived.removed (hinv : b.Inv) {view : ArrivalView} (h : b.Arrived packet actor view b₁)
    (hremoved : b.Removed b₁ packet actor) :
    ∃ i, b.store.findSet (wireGetI32 packet.payload 0) = some i ∧
      b₁.store = b.store.next (.remove (wireGetI32 packet.payload 0)) := by
  obtain ⟨hopcode, outcome, hr, hret, hresult⟩ := hremoved
  cases h with
  | unlocked error =>
    rw [requests_setStatus_self] at hr
    cases hr
    exact absurd hret (neg_errno_ne_zero error)
  | unwatched hundo hneg heq =>
    rw [requests_setStatus_self] at hr
    cases hr
    exact absurd hresult (Int32.ne_of_lt hneg)
  | @answered b₂ ret response store exit hprepared hdispatch hquit hexit =>
    rw [Broker.answered, requests_setStatus_self] at hr
    cases hr
    rw [store_answered, ← (hinv.prepared hprepared).store]
    have hzero : ret = 0 := hret
    subst hzero
    exact brokerDispatch_removed hopcode hdispatch hresult
  | unqueued hprepared hne hexit =>
    rw [requests_setStatus_self] at hr
    cases hr
    exact absurd hret hne
  | queued operations hprepared hlive hblocks hcount henters hturn =>
    have hsemop := hlive.isSemop
    rw [hopcode] at hsemop
    cases hsemop

/-! ### The waiters of the set -/

/-- The retry of a request whose id does not resolve. -/
lemma Steps.waiter_of_dead (hinv : b.Inv) {event : Event} (h : b.Steps event b')
    (hr : b.requests r = some ⟨packet, actor, .waiting frame⟩)
    (hdead : b.store.findSet frame.waiter.semid = none) :
    (∃ frame', b'.requests r = some ⟨packet, actor, .waiting frame'⟩ ∧
      frame'.waiter = frame.waiter) ∨
    ∃ outcome, b'.requests r = some ⟨packet, actor, .finished outcome⟩ ∧
      (outcome.exit = .retried →
        outcome.ret = 0 ∧ outcome.response.header.result = -EINVAL) := by
  by_cases hruns : some r = event.runs b
  · obtain ⟨view, frame', -, hstatus, hturn⟩ := h.woken_of_runs hinv hruns hr
    cases hstatus
    cases hturn with
    | left hqueue hleave =>
      refine Or.inr ⟨_, requests_broadcast_finished.mpr (requests_setStatus_self _), ?_⟩
      cases hleave with
      | retried operations hopen hfirst hlive hblocks hdispatch hanswer =>
        intro _
        have hretry := (SemStore.dead_of_findSet hdead).retry packet actor operations
          view.iteration.env frame.response hlive
        rw [hdispatch] at hretry
        exact ⟨rfl, hretry.2.1⟩
      | closed | waitFailed | timedOut =>
        intro hexit
        cases hexit
    | slept hresponse hhead =>
      exact Or.inl ⟨_, requests_setStatus_self _, rfl⟩
  · exact Or.inl ((h.bystanders hinv).waiting hruns hr)

/-- What has become of a request that waited on a removed id. -/
def Released (b : Broker) (r : ℕ) (packet : ProtocolPacket) (actor : BrokerActor)
    (semid : Int32) : Prop :=
  (∃ frame, b.requests r = some ⟨packet, actor, .waiting frame⟩ ∧ frame.waiter.semid = semid) ∨
    ∃ outcome, b.requests r = some ⟨packet, actor, .finished outcome⟩ ∧
      (outcome.exit = .retried → outcome.ret = 0 ∧ outcome.response.header.result = -EINVAL)

lemma Steps.released (hinv : b.Inv) {event : Event} (h : b.Steps event b')
    (hdead : b.store.findSet semid = none) (hr : b.Released r packet actor semid) :
    b'.Released r packet actor semid := by
  rcases hr with ⟨frame, hwaiting, rfl⟩ | ⟨outcome, hfinished, hretried⟩
  · refine (h.waiter_of_dead hinv hwaiting hdead).imp_left ?_
    rintro ⟨frame', hwaiting', hsame⟩
    exact ⟨frame', hwaiting', by rw [hsame]⟩
  · exact Or.inr ⟨outcome, (h.finished hinv hfinished).1, hretried⟩

/-- After a removal the id does not resolve. -/
lemma Inv.dead_run (hinv : b.Inv) {i : Fin semMaxSets} (hf : b.store.findSet semid = some i)
    (hinv₁ : b₁.Inv) (hstore : b₁.store = b.store.next (.remove semid)) {later : List Event}
    (hexec : Transition.exec step b₁ later = some b') (hfew : removals i b₁ later < 32766) :
    b'.store.findSet semid = none := by
  obtain ⟨-, ops, hops, hremovals⟩ := hinv₁.store_run hexec
  rw [← hremovals i, hstore] at hfew
  rw [hops, hstore]
  exact hinv.core.store.removed_run hf ops hfew

/-- After a removal the waiters of the id are answered accordingly. -/
lemma Inv.released_run (hinv : b.Inv) {i : Fin semMaxSets} (hf : b.store.findSet semid = some i)
    (hinv₁ : b₁.Inv) (hstore : b₁.store = b.store.next (.remove semid))
    (hr : b₁.Released r packet actor semid) {later : List Event}
    (hexec : Transition.exec step b₁ later = some b') (hfew : removals i b₁ later < 32766) :
    b'.Inv ∧ b'.Released r packet actor semid := by
  refine Transition.exec_history (H := fun events c => removals i b₁ events < 32766 →
    c.Inv ∧ c.Released r packet actor semid) (fun _ => ⟨hinv₁, hr⟩) ?_ hexec hfew
  intro events c event c' hc ih hstep hfew
  have hcount : removals i b₁ (events ++ [event]) =
      removals i b₁ events + (SemStore.vacates i c.store c'.store).toNat :=
    Transition.countSteps_snoc hc hstep
  have hfew' : removals i b₁ events < 32766 := by omega
  obtain ⟨hcinv, hcr⟩ := ih hfew'
  obtain ⟨hsteps, hcinv'⟩ := hcinv.steps hstep
  exact ⟨hcinv', hsteps.released hcinv (hinv.dead_run hf hinv₁ hstore hc hfew') hcr⟩

/-- Removal is reported to every waiter as an id that does not resolve. After a successful `REMOVE`
in any state, and in any continuation of the run with fewer than 32766 further removals of the slot,
each request that was queued on the removed id and was completed by a retry got `-EINVAL` and was
not applied, as any request that arrives with the id does. -/
theorem removal_reported (h : b.Reachable) {view : ArrivalView}
    (hstep : b.step (.arrive packet actor view) = some b₁) (hremoved : b.Removed b₁ packet actor)
    {later : List Event} (hexec : Transition.exec step b₁ later = some b')
    (hfew : ∀ i, b.store.findSet (wireGetI32 packet.payload 0) = some i →
      removals i b₁ later < 32766) :
    (∀ r p a frame outcome, b.requests r = some ⟨p, a, .waiting frame⟩ →
      frame.waiter.semid = wireGetI32 packet.payload 0 →
      b'.requests r = some ⟨p, a, .finished outcome⟩ → outcome.exit = .retried →
        outcome.ret = 0 ∧ outcome.response.header.result = -EINVAL ∧ b'.applied r = 0) ∧
    ∀ p a operations env response, Live p a (wireGetI32 packet.payload 0) operations →
      (brokerDispatch b'.store p a env response).1 = 0 ∧
        (brokerDispatch b'.store p a env response).2.1.header.result = -EINVAL := by
  have hinv := inv_reachable h
  obtain ⟨harrived, hinv₁⟩ := hinv.arrive hstep
  obtain ⟨i, hf, hstore⟩ := harrived.removed hinv hremoved
  have hdead := hinv.dead_run hf hinv₁ hstore hexec (hfew i hf)
  refine ⟨?_, ?_⟩
  · intro r p a frame outcome hr hsemid hfinished hretried
    have hne : some r ≠ some b.arrivals := by
      intro heq
      cases heq
      rw [(hinv.core.fresh b.arrivals le_rfl).1] at hr
      cases hr
    obtain ⟨frame', hr', hsame⟩ := (harrived.bystanders hinv).waiting hne hr
    have hreleased : b₁.Released r p a (wireGetI32 packet.payload 0) :=
      Or.inl ⟨frame', hr', by rw [hsame, hsemid]⟩
    obtain ⟨hinv', hreleased'⟩ := hinv.released_run hf hinv₁ hstore hreleased hexec (hfew i hf)
    rcases hreleased' with ⟨frame'', hwaiting, -⟩ | ⟨outcome', hfinished', hanswer⟩
    · cases hfinished.symm.trans hwaiting
    · cases hfinished.symm.trans hfinished'
      obtain ⟨hret, hresult⟩ := hanswer hretried
      refine ⟨hret, hresult, (hinv'.core.outcomes r p a outcome hfinished).never (Or.inr ?_)⟩
      rw [hresult]
      decide
  · intro p a operations env response hlive
    obtain ⟨hret, hresult, -⟩ :=
      (SemStore.dead_of_findSet hdead).retry p a operations env response hlive
    exact ⟨hret, hresult⟩

/-! ### A run -/

/-- `dispatch_request` has returned from this exit, without an error and with this result. -/
def finishedWith (b : Broker) (r : ℕ) (exit : Exit) (result : Int32) : Bool :=
  match b.requests r with
  | some ⟨_, _, .finished outcome⟩ =>
    decide (outcome.ret = 0 ∧ outcome.exit = exit ∧ outcome.response.header.result = result)
  | _ => false

/-- The request that removes the set of `createSet`. -/
def removeFirst : ProtocolPacket := removeRequest (fun _ => 0) (makeId 0 1)

/-- The set is created again under its key before the waiter is woken. -/
def recreateThenWake : List Event := [createSet, wakeUp 1 false]

lemma Arrived.removed_of_finishedWith {view : ArrivalView}
    (harrived : b.Arrived packet actor view b₁)
    (hopcode : packet.opcode = some .remove) {exit : Exit}
    (h : b₁.finishedWith b.arrivals exit 0 = true) : b.Removed b₁ packet actor := by
  obtain ⟨status, hr, -⟩ := harrived.request
  rw [finishedWith, hr] at h
  cases status with
  | waiting frame => cases h
  | finished outcome =>
    obtain ⟨hret, -, hresult⟩ := decide_eq_true_eq.mp h
    exact ⟨hopcode, outcome, hr, hret, hresult⟩

/-- The set is created again before its waiter is woken, and another request arrives with the id. -/
theorem removal_reported_recreated :
    ∃ b₀ b₁ b', Transition.exec step create waitForUnit = some b₀ ∧
      b₀.semid? 1 = some (makeId 0 1) ∧ b₀.step (call removeFirst 43) = some b₁ ∧
      Transition.exec step b₁ recreateThenWake = some b' ∧
      b'.finishedWith 1 .retried (-EINVAL) = true ∧
      ∀ p a operations env response, Live p a (wireGetI32 removeFirst.payload 0) operations →
        (brokerDispatch b'.store p a env response).1 = 0 ∧
          (brokerDispatch b'.store p a env response).2.1.header.result = -EINVAL := by
  have hrun : (Transition.exec step create waitForUnit).any (fun b₀ =>
      decide (b₀.semid? 1 = some (makeId 0 1)) && (b₀.step (call removeFirst 43)).any fun b₁ =>
        b₁.finishedWith b₀.arrivals .immediate 0 &&
          (Transition.exec step b₁ recreateThenWake).any fun b' =>
            b'.finishedWith 1 .retried (-EINVAL)) = true := by
    decide +kernel
  obtain ⟨b₀, hb₀, hcheck⟩ := (Option.any_eq_true _ _).mp hrun
  rw [Bool.and_eq_true, decide_eq_true_eq] at hcheck
  obtain ⟨hqueued, hcheck⟩ := hcheck
  obtain ⟨b₁, hb₁, hcheck⟩ := (Option.any_eq_true _ _).mp hcheck
  rw [Bool.and_eq_true] at hcheck
  obtain ⟨hanswer, hcheck⟩ := hcheck
  obtain ⟨b', hb', hretried⟩ := (Option.any_eq_true _ _).mp hcheck
  have harrive := hb₁
  rw [call, step] at harrive
  have hremoved : b₀.Removed b₁ removeFirst ⟨43, ⟨1000, 1000⟩⟩ :=
    ((inv_reachable ⟨_, hb₀⟩).arrive harrive).1.removed_of_finishedWith rfl hanswer
  have hfew : ∀ i, removals i b₁ recreateThenWake < 32766 :=
    fun i => lt_of_le_of_lt (removals_le_length i b₁ recreateThenWake) (by decide)
  exact ⟨b₀, b₁, b', hb₀, hqueued, hb₁, hb', hretried,
    (removal_reported ⟨_, hb₀⟩ hb₁ hremoved hb' fun i _ => hfew i).2⟩

/-- The waiter is told that its id is invalid, not that its set was removed. -/
theorem removed_waiter_gets_einval :
    ∃ b, Transition.exec step create
        (waitForUnit ++ call removeFirst 43 :: recreateThenWake) = some b ∧
      b.finishedWith 2 .immediate 0 = true ∧ b.finishedWith 1 .retried (-EINVAL) = true ∧
      -EINVAL ≠ -EIDRM := by
  have hrun : (Transition.exec step create
      (waitForUnit ++ call removeFirst 43 :: recreateThenWake)).any (fun b =>
        b.finishedWith 2 .immediate 0 && b.finishedWith 1 .retried (-EINVAL)) = true := by
    decide +kernel
  obtain ⟨b, hb, hcheck⟩ := (Option.any_eq_true _ _).mp hrun
  rw [Bool.and_eq_true] at hcheck
  exact ⟨b, hb, hcheck.1, hcheck.2, by decide⟩

end Broker

end Tgcompat
