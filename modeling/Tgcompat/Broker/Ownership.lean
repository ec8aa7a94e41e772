import Tgcompat.Broker.Identity
import Tgcompat.Broker.Linearization
import Tgcompat.Broker.Pairing

/-!
# Everything in the broker belongs to an accepted peer

The broker trusts the pid and the user of a request because they come from the credentials of the
connection. Over a whole run of the service this pays off: every request is of exactly one
connection, whose peer was accepted, every set is owned by the user that the broker accepts, and
every undo entry is of the process of an accepted peer. The broker of a service runs as a broker
on its own does, so whatever holds of every reachable broker holds of it.
-/

namespace Tgcompat

/-- The sets are the user's, and the undo entries are those of the peers. -/
structure SemStore.OwnedBy (uid : UInt32) (peers : Int32 → Prop) (st : SemStore) : Prop where
  sets : ∀ i, (st.sets i).active = true → (st.sets i).uid = uid ∧ (st.sets i).cuid = uid
  entries : ∀ k, (st.undoEntries k).active = true → peers (st.undoEntries k).pid

variable {st st' : SemStore} {uid : UInt32} {peers : Int32 → Prop} {packet : ProtocolPacket}
  {actor : BrokerActor}

/-! ### One entry of the log -/

lemma SemStore.ownedBy_create (uid : UInt32) (peers : Int32 → Prop) :
    SemStore.create.OwnedBy uid peers where
  sets := by
    intro i hi
    cases hi
  entries := by
    intro k hk
    cases hk

/-- What is the actor's is the user's and a peer's. -/
lemma SemStore.OwnedBy.attributed (h : st.OwnedBy uid peers)
    (hattributed : AttributedTo packet actor st st') (huid : actor.identity.uid = uid)
    (hpid : peers actor.pid) : st'.OwnedBy uid peers where
  sets := by
    intro i hi
    by_cases hold : (st.sets i).active = true
    · have hkept := hattributed.kept i hold hi
      rw [hkept.uid, hkept.cuid]
      exact h.sets i hold
    · have hcreated := hattributed.created i (Bool.not_eq_true _ ▸ hold) hi
      rw [hcreated.uid, hcreated.cuid]
      exact ⟨huid, huid⟩
  entries := by
    intro k hk
    cases hattributed.entries k with
    | same heq =>
      rw [heq] at hk ⊢
      exact h.entries k hk
    | adjusted hsemop heq hslot =>
      rw [heq]
      exact hpid
    | retired hactive hclears heq =>
      rw [heq] at hk
      cases hk

lemma SemStore.OwnedBy.dispatch (h : st.OwnedBy uid peers) (huid : actor.identity.uid = uid)
    (hpid : peers actor.pid) (env : DispatchEnv) (response : ProtocolPacket) :
    (brokerDispatch st packet actor env response).2.2.OwnedBy uid peers := by
  rcases brokerDispatch_cases st packet actor env response with ⟨e, -, heq⟩ | heq
  · rw [heq]
    exact h
  · rw [heq]
    rcases dispatchOpcode_performs st packet actor env (prepareResponse packet response) with
      hstore | ⟨op, hop, haddressed, -, hstore⟩
    · rw [hstore]
      exact h
    · rw [hstore]
      exact h.attributed (hop.attributedTo haddressed) huid hpid

/-- A set is rewritten without a new owner. -/
lemma SemStore.OwnedBy.writeSet (h : st.OwnedBy uid peers) {i : Fin semMaxSets} {set : SemSet}
    (hactive : set.active = (st.sets i).active) (huid : set.uid = (st.sets i).uid)
    (hcuid : set.cuid = (st.sets i).cuid) : (st.writeSet i set).OwnedBy uid peers where
  sets := by
    intro j hj
    by_cases hji : j = i
    · subst hji
      rw [SemStore.writeSet_sets_self] at hj ⊢
      rw [huid, hcuid]
      exact h.sets j (hactive ▸ hj)
    · rw [SemStore.writeSet_sets_of_ne _ hji] at hj ⊢
      exact h.sets j hj
  entries := h.entries

lemma SemStore.OwnedBy.adjustWaitCount (h : st.OwnedBy uid peers) (semid : Int32) (semnum : ℕ)
    (waitForZero : Bool) (adjustment : Int32) :
    (st.adjustWaitCount semid semnum waitForZero adjustment).2.OwnedBy uid peers := by
  rcases st.adjustWaitCount_cases semid semnum waitForZero adjustment with
    ⟨-, heq⟩ | ⟨i, -, -, -, heq⟩
  · rw [heq]
    exact h
  · rw [heq]
    cases waitForZero with
    | true => exact h.writeSet rfl rfl rfl
    | false => exact h.writeSet rfl rfl rfl

lemma SemStore.OwnedBy.retireEntry (h : st.OwnedBy uid peers) (k : Fin semMaxUndoEntries) :
    (st.retireEntry k).OwnedBy uid peers where
  sets := h.sets
  entries := by
    intro j hj
    by_cases hjk : j = k
    · subst hjk
      simp [SemStore.retireEntry] at hj
    · simp only [SemStore.retireEntry, Function.update_of_ne hjk] at hj ⊢
      exact h.entries j hj

lemma SemStore.OwnedBy.processExit (h : st.OwnedBy uid peers) (pid : Int32)
    (now : Fin semMaxUndoEntries → Int64) : (st.processExit pid now).2.OwnedBy uid peers := by
  rw [SemStore.processExit]
  split_ifs
  · exact h
  · refine Transition.foldl_invariant (I := fun acc : Int32 × SemStore => acc.2.OwnedBy uid peers)
      ?_ h _
    intro acc k hacc
    rcases SemStore.processExitEntry_cases pid now acc k with
      ⟨-, heq⟩ | ⟨-, -, heq⟩ | ⟨-, i, -, -, heq⟩
    · rw [heq]
      exact hacc
    · rw [heq]
      exact hacc.retireEntry k
    · rw [heq]
      refine SemStore.OwnedBy.retireEntry ?_ k
      exact hacc.writeSet rfl rfl rfl

/-! ### Whole runs -/

/-- If all the requests of a broker are the peers', so is its store. -/
lemma Broker.Linearizes.ownedBy {b : Broker} {log : List LogEntry} (h : Broker.Linearizes log b)
    (hrequests : ∀ r q, b.requests r = some q → q.actor.identity.uid = uid ∧ peers q.actor.pid) :
    b.store.OwnedBy uid peers := by
  rw [h.store]
  refine Transition.foldl_invariant_history ?_ (SemStore.ownedBy_create uid peers)
  rintro ⟨st, entry⟩ hentry hst
  have hanswers := h.answers _ hentry
  cases entry with
  | answer r packet actor env scratch =>
    obtain ⟨response, exit, hr, -⟩ := hanswers
    obtain ⟨huid, hpid⟩ := hrequests r _ hr
    exact hst.dispatch huid hpid env scratch
  | count semid semnum waitForZero adjustment =>
    exact hst.adjustWaitCount semid semnum waitForZero adjustment
  | exit pid now => exact hst.processExit pid now

namespace Service

variable {s s' : Service}

/-- An event of the service is at most one event of its broker. -/
lemma step_broker {event : Event} (h : s.step uid event = some s') :
    s'.broker = s.broker ∨ ∃ e, s.broker.step e = some s'.broker := by
  cases event with
  | accept peer stream =>
    cases h
    rw [accept]
    split
    · exact Or.inl rfl
    · exact Or.inl rfl
  | receive c wireHeader request recvs =>
    obtain ⟨w, hc, heq⟩ := Option.bind_eq_some_iff.mp h
    obtain ⟨w', hw, rfl⟩ := Option.map_eq_some_iff.mp heq
    exact Or.inl rfl
  | dispatch c view =>
    obtain ⟨w, hc, heq⟩ := Option.bind_eq_some_iff.mp h
    split at heq
    · next request hphase =>
      obtain ⟨b, hb, rfl⟩ := Option.map_eq_some_iff.mp heq
      exact Or.inr ⟨.arrive request w.actor view, hb⟩
    · cases heq
  | finish c =>
    obtain ⟨w, hc, heq⟩ := Option.bind_eq_some_iff.mp h
    obtain ⟨w', hw, rfl⟩ := Option.map_eq_some_iff.mp heq
    exact Or.inl rfl
  | answer c wire sends =>
    obtain ⟨w, hc, heq⟩ := Option.bind_eq_some_iff.mp h
    obtain ⟨w', hw, rfl⟩ := Option.map_eq_some_iff.mp heq
    exact Or.inl rfl
  | broker event =>
    simp only [step] at h
    split_ifs at h
    obtain ⟨b, hb, rfl⟩ := Option.map_eq_some_iff.mp h
    exact Or.inr ⟨event, hb⟩

lemma Reachable.broker (h : s.Reachable uid) : s.broker.Reachable := by
  obtain ⟨events, hexec⟩ := h
  refine Transition.exec_invariant (I := fun s : Service => s.broker.Reachable) ?_ ⟨[], rfl⟩ hexec
  rintro s event s' ⟨es, hes⟩ hstep
  rcases step_broker hstep with heq | ⟨e, he⟩
  · exact ⟨es, heq ▸ hes⟩
  · exact ⟨es ++ [e], Transition.exec_snoc_eq_some.mpr ⟨s.broker, hes, he⟩⟩

/-- The process of some connection. -/
def IsPeer (s : Service) (pid : Int32) : Prop :=
  ∃ c w, s.workers c = some w ∧ w.actor.pid = pid

/-- In every run of the service, the broker is in a state that it reaches on its own; each of its
requests carries the credentials of exactly one connection, with a process id above zero and the
user id the broker was started with; all its sets are owned by that user, and all its undo entries
are of the process of some connection. -/
theorem service_authentic (h : s.Reachable uid) :
    s.broker.Reachable ∧
    (∀ r q, s.broker.requests r = some q → 0 < q.actor.pid ∧ q.actor.identity.uid = uid ∧
      ∃! c, ∃ w, s.workers c = some w ∧ w.actor = q.actor ∧ r ∈ w.numbers) ∧
    s.broker.store.OwnedBy uid s.IsPeer := by
  have hok := h.ok
  have hrequests : ∀ r q, s.broker.requests r = some q →
      ∃ c w, s.workers c = some w ∧ w.actor = q.actor ∧ r ∈ w.numbers := by
    intro r q hr
    obtain ⟨c, w, hc, hw⟩ := hok.owned r (hok.broker.core.lt_arrivals hr)
    obtain ⟨request, status, hown⟩ := (hok.workers c w hc).own r hw
    cases hr.symm.trans hown
    exact ⟨c, w, hc, rfl, hw⟩
  refine ⟨h.broker, ?_, ?_⟩
  · intro r q hr
    obtain ⟨c, w, hc, hactor, hw⟩ := hrequests r q hr
    obtain ⟨hpid, huid⟩ := hok.authentic c w hc
    refine ⟨hactor ▸ hpid, hactor ▸ huid, c, ⟨w, hc, hactor, hw⟩, ?_⟩
    rintro d ⟨v, hd, -, hv⟩
    exact hok.apart d c v w r hd hc hv hw
  · obtain ⟨events, hexec⟩ := h.broker
    obtain ⟨-, log, hlog⟩ := Broker.linearizes_create.exec Broker.inv_create hexec
    refine hlog.ownedBy fun r q hr => ?_
    obtain ⟨c, w, hc, hactor, hw⟩ := hrequests r q hr
    exact ⟨hactor ▸ (hok.authentic c w hc).2, c, w, hc, by rw [hactor]⟩

theorem service_authentic_interleaved :
    ∃ s, Transition.exec (step 1000) create interleaved = some s ∧
      ∃ i, (s.broker.store.sets i).active = true ∧ (s.broker.store.sets i).uid = 1000 := by
  have hrun : (Transition.exec (step 1000) create interleaved).any
      (fun s => (s.broker.store.sets ⟨0, by decide⟩).active) = true := by
    decide +kernel
  obtain ⟨s, hs, hactive⟩ := (Option.any_eq_true _ _).mp hrun
  exact ⟨s, hs, _, hactive, ((service_authentic ⟨interleaved, hs⟩).2.2.sets _ hactive).1⟩

end Service

end Tgcompat
