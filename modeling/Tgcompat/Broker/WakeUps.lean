import Tgcompat.Broker.Completion

/-!
# No lost wake-up

A waiter that sleeps at the head of its set has to wait on the current store. It follows that an
event which unblocks the head of a set, or makes another waiter the head, wakes every waiter.
-/

namespace Tgcompat

variable {st : SemStore} {packet : ProtocolPacket} {actor : BrokerActor}

/-- Every dispatch of the request answers that it has to wait. -/
def MustWait (st : SemStore) (packet : ProtocolPacket) (actor : BrokerActor) : Prop :=
  ∀ env response, (brokerDispatch st packet actor env response).1 = 0 ∧
    (brokerDispatch st packet actor env response).2.1.header.result = semOpBlocked

/-- Whether a live request must wait depends on the values of its set. -/
lemma Live.mustWait_iff {semid : Int32} {operations : List SemOp}
    (hl : Live packet actor semid operations) (h : st.Inv) :
    MustWait st packet actor ↔ st.blocks semid operations = true := by
  have hiff : ∀ env response,
      (brokerDispatch st packet actor env response).2.1.header.result = semOpBlocked ↔
        st.blocks semid operations = true :=
    fun env response => (hl.answered h env response).2.blocked_iff
  constructor
  · intro hwait
    exact (hiff ⟨true, 0⟩ packet).mp (hwait ⟨true, 0⟩ packet).2
  · intro hblocks env response
    exact ⟨(hl.answered h env response).1, (hiff env response).mpr hblocks⟩

namespace Broker

variable {b b' : Broker} {r : ℕ} {frame : Frame}

/-- Every request that waited before and still waits is awake. -/
def WakesAll (b b' : Broker) : Prop :=
  ∀ r frame, (b.frame? r).isSome = true → b'.frame? r = some frame → frame.asleep = false

lemma wakesAll_broadcast (b c : Broker) : b.WakesAll c.broadcast := by
  intro r frame _ hr
  obtain ⟨packet, actor, hr'⟩ := frame?_eq_some.mp hr
  exact (requests_broadcast_waiting hr').1

/-- An event that does not run a waiter and wakes its bystanders wakes everybody. -/
lemma wakesAll_of_woken {c : Option ℕ} (hc : ∀ r, (b.frame? r).isSome = true → some r ≠ c)
    (hwoken : ∀ r, some r ≠ c → b'.requests r = (b.requests r).map Request.wakeUp) :
    b.WakesAll b' := by
  intro r frame hsome hr
  refine wakesAll_broadcast b b r frame hsome ?_
  rwa [frame?, hwoken r (hc r hsome)] at hr

/-- An event wakes everybody, or nobody leaves the queue and every set keeps its values. -/
lemma Steps.wakesAll_or_keeps (hinv : b.Inv) {event : Event} (h : b.Steps event b') :
    b.WakesAll b' ∨ (b.store.KeepsValues b'.store ∧
      ∀ c, (b.frame? c).isSome = true → b'.semid? c = b.semid? c) := by
  have hbystanders := h.bystanders hinv
  have hidle : (∀ r, (b.frame? r).isSome = true → some r ≠ event.runs b) →
      b.WakesAll b' ∨ (b.store.KeepsValues b'.store ∧
        ∀ c, (b.frame? c).isSome = true → b'.semid? c = b.semid? c) := by
    intro hruns
    cases hbystanders with
    | left hsame hvalues hstay => exact Or.inr ⟨hvalues, hstay⟩
    | woken hwoken => exact Or.inl (wakesAll_of_woken hruns hwoken)
  cases h with
  | arrived harrived =>
    refine hidle fun r hr heq => ?_
    cases heq
    rw [frame?, (hinv.core.fresh b.arrivals le_rfl).1] at hr
    cases hr
  | woken hr hturn =>
    cases hturn with
    | left hqueue hleave => exact Or.inl (wakesAll_broadcast b _)
    | slept hresponse hhead =>
      refine Or.inr ⟨SemStore.KeepsValues.refl b.store, fun c _ => ?_⟩
      exact semid?_setStatus (by simp [semid?, frame?_of_request hr]) c
  | scanned hscan => exact hidle fun r _ heq => by cases heq
  | moved processes hruns =>
    refine hidle fun r _ heq => ?_
    rw [hruns] at heq
    cases heq

/-- In every reachable state, a request that sleeps at the head of its set has to wait on the
current store. Hence an event that makes a waiter the head of its set, or after which the head no
longer has to wait, wakes every waiter. -/
theorem head_asleep_mustWait (h : b.Reachable) :
    (∀ r packet actor frame, b.requests r = some ⟨packet, actor, .waiting frame⟩ →
      frame.asleep = true → b.IsFirst r → MustWait b.store packet actor) ∧
    ∀ event b', b.step event = some b' → ∀ r packet actor frame frame',
      b.requests r = some ⟨packet, actor, .waiting frame⟩ →
      b'.requests r = some ⟨packet, actor, .waiting frame'⟩ → b'.IsFirst r →
      ¬ b.IsFirst r ∨ (MustWait b.store packet actor ∧ ¬ MustWait b'.store packet actor) →
      b.WakesAll b' := by
  have hinv := inv_reachable h
  refine ⟨?_, ?_⟩
  · intro r packet actor frame hr hasleep hfirst
    obtain ⟨⟨operations, hlive⟩, -, -⟩ := hinv.core.frames r packet actor frame hr
    rw [hlive.mustWait_iff hinv.core.store]
    exact hinv.heads r packet actor frame operations hr hasleep hfirst hlive
  · intro event b' hstep r packet actor frame frame' hr hr' hfirst hchange
    obtain ⟨hsteps, hinv'⟩ := hinv.steps hstep
    rcases hsteps.wakesAll_or_keeps hinv with hwakes | ⟨hvalues, hstay⟩
    · exact hwakes
    · exfalso
      rcases hchange with hnot | ⟨hwait, hnowait⟩
      · -- whoever was in front of the waiter still is
        refine hnot fun c hc heq => hfirst c hc ?_
        have hsome : (b.frame? r).isSome = true := by
          rw [frame?_of_request hr]
          rfl
        rw [hstay r hsome, ← heq]
        refine hstay c ?_
        rw [← semid?_isSome, heq, semid?_isSome, hsome]
      · obtain ⟨⟨operations, hlive⟩, -, -⟩ := hinv.core.frames r packet actor frame hr
        rw [hlive.mustWait_iff hinv.core.store] at hwait
        rw [hlive.mustWait_iff hinv'.core.store] at hnowait
        exact hnowait (hvalues.blocks hwait)

/-- The waiter of the hand-over, before the unit is provided. -/
theorem head_asleep_mustWait_handOver :
    ∃ b packet actor frame, Transition.exec step create (handOver.take 2) = some b ∧
      b.requests 1 = some ⟨packet, actor, .waiting frame⟩ ∧ frame.asleep = true ∧
      b.IsFirst 1 ∧ MustWait b.store packet actor := by
  have hrun : (Transition.exec step create (handOver.take 2)).any
      (fun b => (b.frame? 1).any Frame.asleep && decide (b.IsFirst 1)) = true := by
    decide +kernel
  obtain ⟨b, hb, hcheck⟩ := (Option.any_eq_true _ _).mp hrun
  rw [Bool.and_eq_true, decide_eq_true_eq] at hcheck
  obtain ⟨frame, hframe, hasleep⟩ := (Option.any_eq_true _ _).mp hcheck.1
  obtain ⟨packet, actor, hr⟩ := frame?_eq_some.mp hframe
  exact ⟨b, packet, actor, frame, hb, hr, hasleep, hcheck.2,
    (head_asleep_mustWait ⟨_, hb⟩).1 1 packet actor frame hr hasleep hcheck.2⟩

end Broker

end Tgcompat
