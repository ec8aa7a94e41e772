import Tgcompat.Broker.Completion
import Tgcompat.Store.Generations

/-!
# The broker runs the store

The broker touches the store only through its operations. So the store of a reachable broker is one
that a run of the store leaves, and what holds after every run of the store holds in every state of
the broker. In one event at most the first operation creates or removes a set, so the removals of
that run are the events after which a set is gone. No reachable broker is stuck: a request may
arrive at any time, and every waiter may be woken.
-/

namespace Tgcompat

namespace SemStore

variable {st st' st'' : SemStore}

/-- The calls create and remove nothing. -/
def QuietTo (st st' : SemStore) : Prop :=
  ∃ ops, (∀ op ∈ ops, op.keepsSlots = true) ∧ st' = st.run ops

/-- The calls of one event: they remove the sets that are gone afterwards, each once. -/
def EventTo (st st' : SemStore) : Prop :=
  ∃ ops, st' = st.run ops ∧ ∀ i, removals i (st.trace ops) = (vacates i st st').toNat

lemma QuietTo.refl (st : SemStore) : st.QuietTo st := ⟨[], by simp, rfl⟩

lemma QuietTo.trans (h : st.QuietTo st') (h' : st'.QuietTo st'') : st.QuietTo st'' := by
  obtain ⟨ops, hops, rfl⟩ := h
  obtain ⟨ops', hops', rfl⟩ := h'
  refine ⟨ops ++ ops', fun op hop => ?_, (run_append st ops ops').symm⟩
  rcases List.mem_append.mp hop with hop | hop
  · exact hops op hop
  · exact hops' op hop

lemma quietTo_next (st : SemStore) (op : StoreOp) (hop : op.keepsSlots = true) :
    st.QuietTo (st.next op) :=
  ⟨[op], by simpa using hop, rfl⟩

/-- Nothing is created or removed, and no call of the run is a removal. -/
lemma Inv.quiet_run (h : st.Inv) {ops : List StoreOp} (hops : ∀ op ∈ ops, op.keepsSlots = true) :
    st.SameFrames (st.run ops) ∧ ∀ i, removals i (st.trace ops) = 0 := by
  induction ops generalizing st with
  | nil => exact ⟨SameFrames.refl st, fun _ => rfl⟩
  | cons op ops ih =>
    have hop := hops op List.mem_cons_self
    have hframes := h.next_frames hop
    obtain ⟨hrest, hzero⟩ := ih (h.next op) fun op hop => hops op (List.mem_cons_of_mem _ hop)
    refine ⟨hframes.trans hrest, fun i => ?_⟩
    have hnot : removesSlot i (st, op) = false := by
      rw [h.removesSlot_eq, hframes.vacates]
    have htrace : st.trace (op :: ops) = (st, op) :: (st.next op).trace ops := rfl
    rw [htrace, removals, List.countP_cons, ← removals, hzero i, hnot]
    rfl

lemma QuietTo.sameFrames (h : st.Inv) (hq : st.QuietTo st') : st.SameFrames st' := by
  obtain ⟨ops, hops, rfl⟩ := hq
  exact (h.quiet_run hops).1

lemma QuietTo.eventTo (h : st.Inv) (hq : st.QuietTo st') : st.EventTo st' := by
  have hframes := hq.sameFrames h
  obtain ⟨ops, hops, rfl⟩ := hq
  exact ⟨ops, rfl, fun i => by rw [(h.quiet_run hops).2 i, hframes.vacates]; rfl⟩

/-- One call of any kind, then quiet ones. -/
lemma eventTo_next (h : st.Inv) (op : StoreOp) (hq : (st.next op).QuietTo st') :
    st.EventTo st' := by
  have hframes := hq.sameFrames (h.next op)
  obtain ⟨ops, hops, rfl⟩ := hq
  refine ⟨op :: ops, rfl, fun i => ?_⟩
  have htrace : st.trace (op :: ops) = (st, op) :: (st.next op).trace ops := rfl
  have hvacates : vacates i st ((st.next op).run ops) = vacates i st (st.next op) := by
    rw [vacates, vacates, (hframes i).active]
  rw [htrace, removals, List.countP_cons, ← removals, ((h.next op).quiet_run hops).2 i,
    h.removesSlot_eq, hvacates]
  cases vacates i st (st.next op) with
  | false => rfl
  | true => rfl

lemma eventTo_brokerDispatch (h : st.Inv) {packet response response' : ProtocolPacket}
    {actor : BrokerActor} {env : DispatchEnv} {ret : Int32}
    (hdispatch : brokerDispatch st packet actor env response = (ret, response', st')) :
    st.EventTo st' := by
  have hstore := brokerDispatch_store st packet actor env response
  rw [hdispatch] at hstore
  rcases hstore with heq | ⟨op, heq, -⟩
  · rw [← heq]
    exact (QuietTo.refl st').eventTo (heq ▸ h)
  · rw [show st' = st.next op from heq]
    exact eventTo_next h op (QuietTo.refl _)

/-- A dispatch of `semop` performs `tryop`. -/
lemma quietTo_semop {packet response response' : ProtocolPacket} {actor : BrokerActor}
    {env : DispatchEnv} {ret : Int32} (hsemop : packet.opcode.any Opcode.isSemop = true)
    (hdispatch : brokerDispatch st packet actor env response = (ret, response', st')) :
    st.QuietTo st' := by
  rcases brokerDispatch_cases st packet actor env response with ⟨e, -, heq⟩ | heq
  · rw [heq] at hdispatch
    cases hdispatch
    exact QuietTo.refl st
  · rw [heq, dispatchOpcode_semop hsemop] at hdispatch
    rcases dispatchSemop_cases st packet actor.pid env (prepareResponse packet response) with
      hsame | ⟨semid, operations, -, -, hnext⟩
    · cases hdispatch
      rw [hsame]
      exact QuietTo.refl st
    · cases hdispatch
      rw [hnext]
      exact st.quietTo_next (.tryopDetail semid operations actor.pid env.now) rfl

end SemStore

open SemStore (QuietTo EventTo)

namespace Broker

variable {b b' : Broker} {packet : ProtocolPacket} {actor : BrokerActor}

/-! ### One event -/

lemma quietTo_uncount (st : SemStore) (waiter : Waiter) : st.QuietTo (uncount st waiter) := by
  rw [uncount]
  split_ifs
  · exact st.quietTo_next (.adjustWaitCount _ _ _ _) rfl
  · exact QuietTo.refl st

lemma Turn.quietTo {r : ℕ} {frame : Frame} {view : IterationView}
    (h : b.Turn r packet actor frame view b') : b.store.QuietTo b'.store := by
  cases h with
  | @left queue store applied outcome hqueue hleave =>
    refine QuietTo.trans ?_ (quietTo_uncount store frame.waiter)
    cases hleave with
    | closed hclosed => exact QuietTo.refl b.store
    | retried operations hopen hfirst hlive hblocks hdispatch hanswer =>
      exact SemStore.quietTo_semop hlive.isSemop hdispatch
    | waitFailed error hresponse => exact QuietTo.refl b.store
    | timedOut => exact QuietTo.refl b.store
  | slept hresponse hhead => exact QuietTo.refl b.store

lemma Arrived.eventTo (hinv : b.Inv) {view : ArrivalView} (h : b.Arrived packet actor view b') :
    b.store.EventTo b'.store := by
  have hstore := hinv.core.store
  cases h with
  | unlocked error => exact (QuietTo.refl b.store).eventTo hstore
  | unwatched hundo hresult heq => exact (QuietTo.refl b.store).eventTo hstore
  | @answered b₁ ret response store exit hprepared hdispatch hquit hexit =>
    rw [(hinv.prepared hprepared).store] at hdispatch
    rw [store_answered]
    exact SemStore.eventTo_brokerDispatch hstore hdispatch
  | unqueued hprepared hret hexit =>
    rw [← (hinv.prepared hprepared).store] at hstore ⊢
    exact (QuietTo.refl _).eventTo hstore
  | @queued b₁ b' store frame operations hprepared hlive hblocks hcount henters hturn =>
    have hadmitted : store = b₁.store.next (.adjustWaitCount frame.waiter.semid
        frame.waiter.semnum.toNat (frame.waiter.waitForZero ≠ 0) 1) := congrArg Prod.snd hcount
    rw [← (hinv.prepared hprepared).store] at hstore ⊢
    refine SemStore.eventTo_next hstore (.adjustWaitCount frame.waiter.semid
      frame.waiter.semnum.toNat (frame.waiter.waitForZero ≠ 0) 1) ?_
    rw [← hadmitted]
    exact hturn.quietTo

lemma ScansSlot.quietTo {i : Fin maxUndoProcesses} (h : b.ScansSlot i b') :
    b.store.QuietTo b'.store := by
  cases h with
  | skipped => exact QuietTo.refl b.store
  | announced now hactive => exact b.store.quietTo_next (.processExit (b.watchers i).pid now) rfl
  | silent now hactive hsets => exact b.store.quietTo_next (.processExit (b.watchers i).pid now) rfl

/-- Every event performs a run of the store. -/
theorem Steps.eventTo (hinv : b.Inv) {event : Event} (h : b.Steps event b') :
    b.store.EventTo b'.store := by
  cases h with
  | arrived harrived => exact harrived.eventTo hinv
  | woken hr hturn => exact hturn.quietTo.eventTo hinv.core.store
  | scanned hscan =>
    have hquiet : b.store.QuietTo b'.store :=
      scan_invariant (I := fun b' => b.store.QuietTo b'.store)
        (fun _ _ _ hb hs => hb.trans hs.quietTo) (QuietTo.refl b.store) hscan
    exact hquiet.eventTo hinv.core.store
  | moved processes hruns => exact (QuietTo.refl b.store).eventTo hinv.core.store

/-! ### Runs -/

/-- The events of a run after which the set in slot `i` is gone. -/
def removals (i : Fin semMaxSets) (b : Broker) (events : List Event) : ℕ :=
  Transition.countSteps step (fun b b' => SemStore.vacates i b.store b'.store) b events

lemma removals_le_length (i : Fin semMaxSets) (b : Broker) (events : List Event) :
    removals i b events ≤ events.length :=
  Transition.countSteps_le_length _ b events

/-- A run of the broker performs a run of the store with the same removals. -/
theorem Inv.store_run (h : b.Inv) {events : List Event}
    (hexec : Transition.exec step b events = some b') :
    b'.Inv ∧ ∃ ops, b'.store = b.store.run ops ∧
      ∀ i, SemStore.removals i (b.store.trace ops) = removals i b events := by
  refine Transition.exec_history
    (H := fun events b' => b'.Inv ∧ ∃ ops, b'.store = b.store.run ops ∧
      ∀ i, SemStore.removals i (b.store.trace ops) = removals i b events)
    ⟨h, [], rfl, fun _ => rfl⟩ ?_ hexec
  rintro events c event c' hc ⟨hinv, ops, hops, hremovals⟩ hstep
  obtain ⟨hsteps, hinv'⟩ := hinv.steps hstep
  obtain ⟨ops', hops', hremovals'⟩ := hsteps.eventTo hinv
  rw [hops] at hops'
  refine ⟨hinv', ops ++ ops', by rw [hops', SemStore.run_append], fun i => ?_⟩
  rw [SemStore.trace_append, SemStore.removals, List.countP_append, ← SemStore.removals,
    ← SemStore.removals, hremovals i, removals, removals, Transition.countSteps_snoc hc hstep,
    ← hremovals' i, hops]

/-- The store of a reachable broker is one that a run of the store leaves. -/
theorem Reachable.store_run (h : b.Reachable) : ∃ ops, b.store = SemStore.create.run ops := by
  obtain ⟨events, hexec⟩ := h
  obtain ⟨-, ops, hops, -⟩ := inv_create.store_run hexec
  exact ⟨ops, hops⟩

/-- Requests may arrive at any time, and every waiter may be woken. -/
theorem Reachable.enabled (h : b.Reachable) :
    (∀ packet actor view, (requestUsesUndo packet = true →
      b.lookupSound actor.pid view.lookup = true) →
        ∃ b', b.step (.arrive packet actor view) = some b') ∧
    ∀ r packet actor frame view, b.requests r = some ⟨packet, actor, .waiting frame⟩ →
      ∃ b', b.step (.wake r view) = some b' := by
  have hinv := inv_reachable h
  constructor
  · intro packet actor view hsound
    obtain ⟨b', heq, -⟩ := hinv.arrives fun _ => hsound
    exact ⟨b', heq⟩
  · intro r packet actor frame view hr
    obtain ⟨b', heq, -⟩ := hinv.wake hr view
    exact ⟨b', heq⟩

end Broker

end Tgcompat
