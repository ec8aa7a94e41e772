import Tgcompat.Broker.Fifo
import Tgcompat.Broker.WaitCounts

/-!
# What the counts say about a waiter

The semaphore and the kind of a wait are recorded when the request is queued. Each retry computes
them again, and the broker drops the answer: a request that another operation of its list holds up
by now is still counted for the first one. The counts of a request whose operations can only block
in one way are right whenever it has been retried since the last change.
-/

namespace Tgcompat

/-- What a request that blocks at this operation waits for. -/
def SemOp.place (op : SemOp) (semid : Int32) : WaitPlace where
  semid := semid
  semnum := op.semNum.toNat
  waitForZero := op.semOp = 0

/-- The operations that can block all name one semaphore and wait for one thing. -/
def OneReason (operations : List SemOp) : Prop :=
  ∀ op ∈ operations, ∀ op' ∈ operations, op.semOp ≤ 0 → op'.semOp ≤ 0 →
    op.semNum = op'.semNum ∧ (op.semOp = 0 ↔ op'.semOp = 0)

instance (operations : List SemOp) : Decidable (OneReason operations) :=
  inferInstanceAs (Decidable (∀ op ∈ operations, ∀ op' ∈ operations, op.semOp ≤ 0 →
    op'.semOp ≤ 0 → op.semNum = op'.semNum ∧ (op.semOp = 0 ↔ op'.semOp = 0)))

lemma OneReason.place_eq {operations : List SemOp} (h : OneReason operations) {op op' : SemOp}
    (hop : op ∈ operations ∧ op.semOp ≤ 0) (hop' : op' ∈ operations ∧ op'.semOp ≤ 0)
    (semid : Int32) : op.place semid = op'.place semid := by
  obtain ⟨hnum, hkind⟩ := h op hop.1 op' hop'.1 hop.2 hop'.2
  simp only [SemOp.place, hnum, hkind]

namespace SemStore

variable {st : SemStore} {semid : Int32} {operations : List SemOp}

lemma exists_blockingOp (h : st.blocks semid operations = true) :
    ∃ op, st.blockingOp semid operations = some op := by
  rw [blocks] at h
  rw [blockingOp]
  cases hf : st.findSet semid with
  | none =>
    rw [hf] at h
    cases h
  | some i =>
    simp only [hf] at h
    split_ifs at h with hacc
    cases heval : operations.foldlM evaluateOp (st.sets i).values with
    | ok working =>
      rw [heval] at h
      cases h
    | error r =>
      rw [heval, decide_eq_true_eq] at h
      rcases evaluate_error heval with ⟨hneg, -⟩ | ⟨-, op, hop, -⟩
      · rw [h] at hneg
        exact absurd hneg (by decide)
      · exact ⟨op, by rw [Option.bind_some, if_neg fun hnot => hacc (Or.inr hnot), hop]⟩

lemma blockingOp_spec {op : SemOp} (h : st.blockingOp semid operations = some op) :
    op ∈ operations ∧ op.semOp ≤ 0 := by
  obtain ⟨i, -, h⟩ := Option.bind_eq_some_iff.mp h
  split_ifs at h
  exact firstBlocked_spec h

end SemStore

namespace Broker

variable {b b₁ b' c : Broker} {r : ℕ} {packet : ProtocolPacket} {actor : BrokerActor}
  {frame : Frame}

/-! ### The recorded reason -/

/-- The list of a request that arrives can block in one way only. -/
def Event.oneReason : Event → Bool
  | .arrive packet _ _ =>
    match decodeSemop packet with
    | .ok (_, operations) => decide (OneReason operations)
    | .error _ => true
  | _ => true

lemma Event.oneReason_arrive {view : ArrivalView}
    (h : Event.oneReason (.arrive packet actor view) = true) {semid : Int32}
    {operations : List SemOp} (hlive : Live packet actor semid operations) :
    OneReason operations := by
  rw [oneReason, hlive.decoded] at h
  exact decide_eq_true_eq.mp h

/-- The waiter is recorded for an operation of its list, which can block in one way only. -/
structure Reasoned (packet : ProtocolPacket) (actor : BrokerActor) (waiter : Waiter)
    (operations : List SemOp) : Prop where
  live : Live packet actor waiter.semid operations
  single : OneReason operations
  recorded : ∃ op ∈ operations, op.semOp ≤ 0 ∧ waiter.place = op.place waiter.semid

/-- Every waiter is recorded for an operation of its list. -/
def Reasons (b : Broker) : Prop :=
  ∀ r packet actor frame, b.requests r = some ⟨packet, actor, .waiting frame⟩ →
    ∃ operations, Reasoned packet actor frame.waiter operations

lemma Enters.place {st : SemStore} {operations : List SemOp} (h : Enters st operations frame) :
    ∃ op ∈ operations, op.semOp ≤ 0 ∧ frame.waiter.place = op.place frame.waiter.semid := by
  obtain ⟨-, -, op, hop, hnum, hkind⟩ := h
  obtain ⟨hmem, hle⟩ := SemStore.blockingOp_spec hop
  refine ⟨op, hmem, hle, ?_⟩
  rw [Waiter.place, SemOp.place, hnum, hkind]
  by_cases hzero : op.semOp = 0
  · simp [hzero]
  · simp [hzero]

/-- A request that waits after its arrival was queued, and sleeps. -/
lemma Arrived.queued_of_waiting {view : ArrivalView} (h : b.Arrived packet actor view b')
    {packet' : ProtocolPacket} {actor' : BrokerActor}
    (hr : b'.requests b.arrivals = some ⟨packet', actor', .waiting frame⟩) :
    frame.asleep = true ∧ packet' = packet ∧ actor' = actor ∧
      ∃ st operations frame', frame'.waiter = frame.waiter ∧ Enters st operations frame' ∧
        Live packet actor frame.waiter.semid operations := by
  cases h with
  | unlocked | unwatched | unqueued =>
    rw [requests_setStatus_self] at hr
    cases hr
  | answered =>
    rw [Broker.answered, requests_setStatus_self] at hr
    cases hr
  | @queued b₁ b' store frame' operations hprepared hlive hblocks hcount henters hturn =>
    rcases hturn.request with ⟨outcome, heq, -⟩ | ⟨response, heq, -⟩
    · cases hr.symm.trans heq
    · cases hr.symm.trans heq
      exact ⟨rfl, rfl, rfl, b₁.store, operations, frame', rfl, henters, hlive⟩

/-- A bystander that waits has waited with its record before. -/
lemma Bystanders.waited {e : Option ℕ} (h : Bystanders b b' e) (hr : some r ≠ e)
    (hwaiting : b'.requests r = some ⟨packet, actor, .waiting frame⟩) :
    ∃ frame', b.requests r = some ⟨packet, actor, .waiting frame'⟩ ∧
      frame.waiter = frame'.waiter := by
  cases h with
  | woken hwoken =>
    rw [hwoken r hr, Option.map_eq_some_iff] at hwaiting
    obtain ⟨⟨packet', actor', status⟩, hq, hwake⟩ := hwaiting
    cases status with
    | waiting frame' =>
      cases hwake
      exact ⟨frame', hq, rfl⟩
    | finished outcome => cases hwake
  | left hsame hvalues hstay =>
    rw [hsame r hr] at hwaiting
    exact ⟨frame, hwaiting, rfl⟩

/-- A request that waits after an event has waited with its record before, or has just arrived. -/
lemma Steps.waited (hinv : b.Inv) {event : Event} (h : b.Steps event b')
    (hr : b'.requests r = some ⟨packet, actor, .waiting frame⟩) :
    (∃ frame', b.requests r = some ⟨packet, actor, .waiting frame'⟩ ∧
      frame.waiter = frame'.waiter) ∨
    r = b.arrivals ∧ ∃ packet actor view, event = .arrive packet actor view := by
  by_cases hruns : some r = event.runs b
  · cases h with
    | arrived harrived =>
      cases hruns
      exact Or.inr ⟨rfl, _, _, _, rfl⟩
    | woken hwaiting hturn =>
      cases hruns
      rcases hturn.request with ⟨outcome, heq, -⟩ | ⟨response, heq, -⟩
      · cases hr.symm.trans heq
      · cases hr.symm.trans heq
        exact Or.inl ⟨_, hwaiting, rfl⟩
    | scanned hscan => cases hruns
    | moved processes hnone =>
      rw [hnone] at hruns
      cases hruns
  · exact Or.inl ((h.bystanders hinv).waited hruns hr)

lemma Steps.reasons (hinv : b.Inv) (h : b.Reasons) {event : Event} (hsteps : b.Steps event b')
    (hone : event.oneReason = true) : b'.Reasons := by
  intro r packet actor frame hr
  rcases hsteps.waited hinv hr with ⟨frame', hr', hsame⟩ | ⟨rfl, packet', actor', view, rfl⟩
  · obtain ⟨operations, hreasoned⟩ := h r packet actor frame' hr'
    exact ⟨operations, hsame ▸ hreasoned⟩
  · cases hsteps with
    | arrived harrived =>
      obtain ⟨-, rfl, rfl, st, operations, frame', hsame, henters, hlive⟩ :=
        harrived.queued_of_waiting hr
      exact ⟨operations, hlive, Event.oneReason_arrive hone hlive, hsame ▸ henters.place⟩
    | moved processes hruns => cases hruns

lemma reasons_run {events : List Event} (hexec : Transition.exec step create events = some b)
    (hone : ∀ event ∈ events, event.oneReason = true) : b.Reasons := by
  refine (Transition.exec_history (H := fun events b =>
    (∀ event ∈ events, Event.oneReason event = true) → b.Inv ∧ b.Reasons)
    (fun _ => ⟨inv_create, ?_⟩) ?_ hexec hone).2
  · intro r packet actor frame hr
    cases hr
  · intro events c event c' hc ih hstep hone
    obtain ⟨hinv, hreasons⟩ := ih fun e he => hone e (List.mem_append_left _ he)
    obtain ⟨hsteps, hinv'⟩ := hinv.steps hstep
    exact ⟨hinv', hsteps.reasons hinv hreasons (hone event (by simp))⟩

/-! ### Retries -/

/-- The request has run its loop at the head of its set, still waits, and the sets and their values
are now what they were then. -/
def Retried (b : Broker) (events : List Event) (r : ℕ) : Prop :=
  ∃ pre event post c c', events = pre ++ event :: post ∧
    Transition.exec step create pre = some c ∧ c.step event = some c' ∧
    event.runs c = some r ∧ c'.IsFirst r ∧ (c'.frame? r).isSome = true ∧
    c'.store.KeepsValues b.store

/-- A request that has run its loop and still waits sleeps. -/
lemma Steps.asleep {event : Event} (h : b.Steps event b') (hruns : event.runs b = some r)
    (hr : b'.requests r = some ⟨packet, actor, .waiting frame⟩) : frame.asleep = true := by
  cases h with
  | arrived harrived =>
    cases hruns
    exact (harrived.queued_of_waiting hr).1
  | woken hwaiting hturn =>
    cases hruns
    rcases hturn.request with ⟨outcome, heq, -⟩ | ⟨response, heq, -⟩
    · cases hr.symm.trans heq
    · cases hr.symm.trans heq
      rfl
  | scanned hscan => cases hruns
  | moved processes hnone =>
    rw [hnone] at hruns
    cases hruns

/-- A request keeps its packet and, as long as it waits, its record. -/
lemma Inv.waiter_run (hinv : b.Inv) (hr : b.requests r = some ⟨packet, actor, .waiting frame⟩)
    {later : List Event} (hexec : Transition.exec step b later = some b') :
    (∃ frame', b'.requests r = some ⟨packet, actor, .waiting frame'⟩ ∧
      frame'.waiter = frame.waiter) ∨
    ∃ outcome, b'.requests r = some ⟨packet, actor, .finished outcome⟩ := by
  refine (Transition.exec_invariant (I := fun d => d.Inv ∧
    ((∃ frame', d.requests r = some ⟨packet, actor, .waiting frame'⟩ ∧
      frame'.waiter = frame.waiter) ∨
    ∃ outcome, d.requests r = some ⟨packet, actor, .finished outcome⟩)) ?_
    ⟨hinv, Or.inl ⟨frame, hr, rfl⟩⟩ hexec).2
  rintro d event d' ⟨hd, hdr⟩ hstep
  obtain ⟨hsteps, hd'⟩ := hd.steps hstep
  refine ⟨hd', ?_⟩
  rcases hdr with ⟨frame₁, hdr, hsame⟩ | ⟨outcome, hdr⟩
  · rcases hsteps.waiter hd hdr with ⟨frame₂, hdr', hsame'⟩ | ⟨outcome, hdr', -⟩
    · exact Or.inl ⟨frame₂, hdr', hsame'.trans hsame⟩
    · exact Or.inr ⟨outcome, hdr'⟩
  · exact Or.inr ⟨outcome, (hsteps.finished hd hdr).1⟩

/-- A request that was retried on the current values has to wait on them. -/
lemma Retried.blocks {events : List Event} (h : b.Retried events r)
    (hexec : Transition.exec step create events = some b)
    (hr : b.requests r = some ⟨packet, actor, .waiting frame⟩) {operations : List SemOp}
    (hlive : Live packet actor frame.waiter.semid operations) :
    b.store.blocks frame.waiter.semid operations = true := by
  obtain ⟨pre, event, post, c, c', rfl, hc, hstep, hruns, hfirst, hwaits, hvalues⟩ := h
  obtain ⟨frame₁, hframe⟩ := Option.isSome_iff_exists.mp hwaits
  obtain ⟨packet', actor', hr₁⟩ := frame?_eq_some.mp hframe
  obtain ⟨hsteps, hinv'⟩ := (inv_reachable ⟨pre, hc⟩).steps hstep
  have hlater : Transition.exec step c' post = some b := by
    rwa [Transition.exec_append, hc, Option.bind_some, Transition.exec_cons, hstep,
      Option.bind_some] at hexec
  rcases hinv'.waiter_run hr₁ hlater with ⟨frame₂, hr₂, hsame⟩ | ⟨outcome, hr₂⟩
  · cases hr.symm.trans hr₂
    rw [hsame] at hlive ⊢
    exact hvalues.blocks
      (hinv'.heads r packet actor frame₁ operations hr₁ (hsteps.asleep hruns hr₁) hfirst hlive)
  · cases hr.symm.trans hr₂

/-- The only waiter of an id makes up its counts. -/
lemma Inv.count_single (hinv : b.Inv) (hr : b.requests r = some ⟨packet, actor, .waiting frame⟩)
    (hsingle : ∀ c, b.semid? c = some frame.waiter.semid → c = r) (s : ℕ) (waitForZero : Bool) :
    (b.waiters.map Waiter.place).count ⟨frame.waiter.semid, s, waitForZero⟩ =
      if frame.waiter.place = ⟨frame.waiter.semid, s, waitForZero⟩ then 1 else 0 := by
  have hperm := (waiters_leave (hinv.core.mem_waiting hr) hr ⟨0, frame.response, .timedOut⟩).map
    Waiter.place
  have hrest : ∀ waiter ∈ (b.setStatus r packet actor
      (.finished ⟨0, frame.response, .timedOut⟩)).waiters,
      waiter.place ≠ ⟨frame.waiter.semid, s, waitForZero⟩ := by
    intro waiter hmem hplace
    obtain ⟨c, hc, hwaiter⟩ := List.mem_filterMap.mp hmem
    rw [waiting_setStatus_finished] at hc
    have hcr : c ≠ r := by
      rintro rfl
      exact (nodup_waiting b).not_mem_erase hc
    rw [waiter?_setStatus_of_ne _ hcr] at hwaiter
    refine hcr (hsingle c ?_)
    rw [waiter?, Option.map_eq_some_iff] at hwaiter
    obtain ⟨frame', hframe', rfl⟩ := hwaiter
    rw [semid?_of_frame hframe']
    exact congrArg some (congrArg WaitPlace.semid hplace)
  rw [hperm.count_eq, List.map_cons, List.count_cons, List.count_eq_zero_of_not_mem, Nat.zero_add]
  · simp only [beq_iff_eq]
  · intro hmem
    obtain ⟨waiter, hwaiter, hplace⟩ := List.mem_map.mp hmem
    exact hrest waiter hwaiter hplace

lemma SemOp.place_neg {op : SemOp} (h : op.semOp ≤ 0) (semid : Int32) (s : ℕ) :
    op.place semid = ⟨semid, s, false⟩ ↔ s = op.semNum.toNat ∧ op.semOp < 0 := by
  have hneg : op.semOp < 0 ↔ op.semOp ≠ 0 := ⟨Int16.ne_of_lt, Int16.lt_of_le_of_ne h⟩
  simp [SemOp.place, hneg, eq_comm]

lemma SemOp.place_zero (op : SemOp) (semid : Int32) (s : ℕ) :
    op.place semid = ⟨semid, s, true⟩ ↔ s = op.semNum.toNat ∧ op.semOp = 0 := by
  simp [SemOp.place, eq_comm]

/-- The counts report what the waiters wait for. In every run whose requests can block in one way
only, and in which no slot is removed 32767 times or more, the only request that is queued on a set
is counted for the first operation that blocks it on the current values and for nothing else, if it
has been retried since the last change. -/
theorem wait_reason_current {events : List Event}
    (hexec : Transition.exec step create events = some b)
    (hfew : ∀ i, removals i create events < 32767)
    (hone : ∀ event ∈ events, event.oneReason = true) {i : Fin semMaxSets}
    (hactive : (b.store.sets i).active = true)
    (hr : b.requests r = some ⟨packet, actor, .waiting frame⟩)
    (hsemid : frame.waiter.semid = b.store.idOf i)
    (hsingle : ∀ c, b.semid? c = some (b.store.idOf i) → c = r) (hretried : b.Retried events r) :
    ∃ operations op, decodeSemop packet = .ok (b.store.idOf i, operations) ∧
      b.store.blockingOp (b.store.idOf i) operations = some op ∧
      ∀ s,
        (b.store.sets i).negativeWaiters.getD s 0 =
          (if s = op.semNum.toNat ∧ op.semOp < 0 then 1 else 0) ∧
        (b.store.sets i).zeroWaiters.getD s 0 =
          if s = op.semNum.toNat ∧ op.semOp = 0 then 1 else 0 := by
  obtain ⟨hinv, hcounted⟩ := counted_run hexec hfew
  obtain ⟨operations, hlive, hsame, op', hmem, hle, hplace⟩ := reasons_run hexec hone _ _ _ _ hr
  obtain ⟨op, hop⟩ := SemStore.exists_blockingOp (hretried.blocks hexec hr hlive)
  have hspec := SemStore.blockingOp_spec hop
  have hcurrent : frame.waiter.place = op.place frame.waiter.semid :=
    hplace.trans (hsame.place_eq ⟨hmem, hle⟩ hspec _)
  have hcount : ∀ s waitForZero, ((b.store.sets i).waitCounts waitForZero).getD s 0 =
      if op.place (b.store.idOf i) = ⟨b.store.idOf i, s, waitForZero⟩ then 1 else 0 := by
    intro s waitForZero
    rw [hcounted.tallies.counts i hactive s waitForZero]
    rw [← hsemid] at hsingle ⊢
    rw [hinv.count_single hr hsingle s waitForZero, hcurrent]
  rw [hsemid] at hlive hop
  refine ⟨operations, op, hlive.decoded, hop, fun s => ⟨?_, ?_⟩⟩
  · rw [← if_congr (SemOp.place_neg hspec.2 (b.store.idOf i) s) rfl rfl]
    exact hcount s false
  · rw [← if_congr (SemOp.place_zero op (b.store.idOf i) s) rfl rfl]
    exact hcount s true

/-! ### Runs -/

/-- Request 1 waits on a set with two semaphores, then the first of them is set, and the waiter is
woken. -/
def setFirst (operations : List SemOp) : List Event :=
  [call (semgetRequest (fun _ => 0) 1234 2 0o1600) 42,
    call (semopRequest (fun _ => 0) (makeId 0 1) operations none) 42,
    call (setvalRequest (fun _ => 0) (makeId 0 1) 0 1) 43,
    wakeUp 1 false]

lemma retried_setFirst {operations : List SemOp}
    (hexec : Transition.exec step create (setFirst operations) = some b)
    (hfirst : b.IsFirst 1) (hwaits : (b.frame? 1).isSome = true) :
    b.Retried (setFirst operations) 1 := by
  have hsplit : setFirst operations = (setFirst operations).dropLast ++ [wakeUp 1 false] := rfl
  rw [hsplit] at hexec
  obtain ⟨c, hc, hstep⟩ := Transition.exec_snoc_eq_some.mp hexec
  exact ⟨_, _, [], c, b, rfl, hc, hstep, rfl, hfirst, hwaits, SemStore.KeepsValues.refl _⟩

/-- A request that takes a unit of semaphore 1 is counted there. -/
theorem wait_reason_current_single :
    ∃ b packet operations op,
      Transition.exec step create (setFirst [⟨1, -1, 0⟩]) = some b ∧ b.waiting = [1] ∧
      decodeSemop packet = .ok (b.store.idOf ⟨0, by decide⟩, operations) ∧
      b.store.blockingOp (b.store.idOf ⟨0, by decide⟩) operations = some op ∧
      ∀ s, (b.store.sets ⟨0, by decide⟩).negativeWaiters.getD s 0 =
        (if s = op.semNum.toNat ∧ op.semOp < 0 then 1 else 0) ∧
      (b.store.sets ⟨0, by decide⟩).zeroWaiters.getD s 0 =
        if s = op.semNum.toNat ∧ op.semOp = 0 then 1 else 0 := by
  have hrun : (Transition.exec step create (setFirst [⟨1, -1, 0⟩])).any (fun b =>
      decide (b.waiting = [1] ∧ (b.store.sets ⟨0, by decide⟩).active = true ∧ b.IsFirst 1 ∧
        b.semid? 1 = some (b.store.idOf ⟨0, by decide⟩))) = true := by
    decide +kernel
  have hone : ∀ event ∈ setFirst [⟨1, -1, 0⟩], event.oneReason = true := by decide +kernel
  have hfew : ∀ i, removals i create (setFirst [⟨1, -1, 0⟩]) < 32767 :=
    fun i => lt_of_le_of_lt (removals_le_length i create _) (by decide)
  obtain ⟨b, hb, hcheck⟩ := (Option.any_eq_true _ _).mp hrun
  obtain ⟨hwaiting, hactive, hfirst, hsemid⟩ := decide_eq_true_eq.mp hcheck
  obtain ⟨frame, hframe, hid⟩ := Option.map_eq_some_iff.mp hsemid
  obtain ⟨packet, actor, hr⟩ := frame?_eq_some.mp hframe
  have hsingle : ∀ c, b.semid? c = some (b.store.idOf ⟨0, by decide⟩) → c = 1 := by
    intro c hc
    obtain ⟨frame', hframe', -⟩ := Option.map_eq_some_iff.mp hc
    obtain ⟨packet', actor', hr'⟩ := frame?_eq_some.mp hframe'
    have hmem := (inv_reachable ⟨_, hb⟩).core.mem_waiting hr'
    rw [hwaiting] at hmem
    exact List.mem_singleton.mp hmem
  obtain ⟨operations, op, hdecode, hop, hcounts⟩ := wait_reason_current hb hfew hone hactive hr hid
    hsingle (retried_setFirst hb hfirst (by rw [hframe]; rfl))
  exact ⟨b, packet, operations, op, hb, hwaiting, hdecode, hop, hcounts⟩

/-- A request that takes a unit of both semaphores is held up by semaphore 1 now, and is counted
for semaphore 0. -/
theorem wait_reason_stale :
    ∃ b, Transition.exec step create (setFirst [⟨0, -1, 0⟩, ⟨1, -1, 0⟩]) = some b ∧
      b.waiting = [1] ∧ b.Retried (setFirst [⟨0, -1, 0⟩, ⟨1, -1, 0⟩]) 1 ∧
      b.semid? 1 = some (b.store.idOf ⟨0, by decide⟩) ∧
      b.store.blockingOp (b.store.idOf ⟨0, by decide⟩) [⟨0, -1, 0⟩, ⟨1, -1, 0⟩] =
        some ⟨1, -1, 0⟩ ∧
      (b.store.sets ⟨0, by decide⟩).active = true ∧
      (b.store.sets ⟨0, by decide⟩).negativeWaiters.getD 0 0 = 1 ∧
      (b.store.sets ⟨0, by decide⟩).negativeWaiters.getD 1 0 = 0 := by
  have hrun : (Transition.exec step create (setFirst [⟨0, -1, 0⟩, ⟨1, -1, 0⟩])).any (fun b =>
      decide ((b.waiting = [1] ∧ b.IsFirst 1 ∧ (b.frame? 1).isSome = true) ∧
        b.semid? 1 = some (b.store.idOf ⟨0, by decide⟩) ∧
        b.store.blockingOp (b.store.idOf ⟨0, by decide⟩) [⟨0, -1, 0⟩, ⟨1, -1, 0⟩] =
          some ⟨1, -1, 0⟩ ∧
        (b.store.sets ⟨0, by decide⟩).active = true ∧
        (b.store.sets ⟨0, by decide⟩).negativeWaiters.getD 0 0 = 1 ∧
        (b.store.sets ⟨0, by decide⟩).negativeWaiters.getD 1 0 = 0)) = true := by
    decide +kernel
  obtain ⟨b, hb, hcheck⟩ := (Option.any_eq_true _ _).mp hrun
  obtain ⟨⟨hwaiting, hfirst, hwaits⟩, hrest⟩ := decide_eq_true_eq.mp hcheck
  exact ⟨b, hb, hwaiting, retried_setFirst hb hfirst hwaits, hrest⟩

end Broker

end Tgcompat
