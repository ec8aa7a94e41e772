import Tgcompat.Broker.Monitor

/-!
# What an event does to the other requests

An event runs at most one request. All the others are bystanders: their applications are not
counted, and they are either all woken, or left alone by a step that keeps the values of every set
and lets nobody out of the queue.
-/

namespace Tgcompat

@[simp] lemma Request.wakeUp_wakeUp (q : Request) : q.wakeUp.wakeUp = q.wakeUp := by
  obtain ⟨packet, actor, status⟩ := q
  cases status with
  | waiting frame => rfl
  | finished outcome => rfl

namespace Broker

variable {b b₁ b' : Broker} {r : Option ℕ}

/-- What happens to the requests other than `r`. -/
inductive Bystanders (b b' : Broker) (r : Option ℕ) : Prop
  | woken (hwoken : ∀ c, some c ≠ r → b'.requests c = (b.requests c).map Request.wakeUp)
  | left (hsame : ∀ c, some c ≠ r → b'.requests c = b.requests c)
      (hvalues : b.store.KeepsValues b'.store)
      (hstay : ∀ c, (b.frame? c).isSome = true → b'.semid? c = b.semid? c)

lemma Bystanders.refl (b : Broker) (r : Option ℕ) : Bystanders b b r :=
  .left (fun _ _ => rfl) (SemStore.KeepsValues.refl b.store) fun _ _ => rfl

/-- A step that changes neither the requests nor the values. -/
lemma bystanders_of_requests (b b' : Broker) (r : Option ℕ)
    (hrequests : b'.requests = b.requests) (hvalues : b.store.KeepsValues b'.store) :
    Bystanders b b' r :=
  .left (fun c _ => by rw [hrequests]) hvalues fun c _ => by simp [semid?, frame?, hrequests]

lemma semid?_isSome (b : Broker) (c : ℕ) : (b.semid? c).isSome = (b.frame? c).isSome := by
  rw [semid?, Option.isSome_map]

lemma Bystanders.trans (h : Bystanders b b₁ r) (h' : Bystanders b₁ b' r) : Bystanders b b' r := by
  cases h with
  | woken hwoken =>
    refine .woken fun c hc => ?_
    cases h' with
    | woken hwoken' =>
      rw [hwoken' c hc, hwoken c hc, Option.map_map]
      congr 1
      funext q
      exact q.wakeUp_wakeUp
    | left hsame' => rw [hsame' c hc, hwoken c hc]
  | left hsame hvalues hstay =>
    cases h' with
    | woken hwoken' => exact .woken fun c hc => by rw [hwoken' c hc, hsame c hc]
    | left hsame' hvalues' hstay' =>
      refine .left (fun c hc => (hsame' c hc).trans (hsame c hc)) (hvalues.trans hvalues') ?_
      intro c hc
      have hc' := hstay c hc
      rw [hstay' c (by rw [← semid?_isSome, hc', semid?_isSome, hc]), hc']

/-- The waiters among the bystanders keep their sets. -/
lemma Bystanders.semid?_eq (h : Bystanders b b' r) {c : ℕ} (hc : some c ≠ r) :
    b'.semid? c = b.semid? c := by
  cases h with
  | woken hwoken =>
    calc b'.semid? c = b.broadcast.semid? c := by
          simp only [semid?, frame?, hwoken c hc, broadcast]
      _ = b.semid? c := semid?_broadcast c
  | left hsame hvalues hstay => simp only [semid?, frame?, hsame c hc]

/-- The waiters among the bystanders still wait. -/
lemma Bystanders.waiting (h : Bystanders b b' r) {c : ℕ} (hc : some c ≠ r)
    {packet : ProtocolPacket} {actor : BrokerActor} {frame : Frame}
    (hwaiting : b.requests c = some ⟨packet, actor, .waiting frame⟩) :
    ∃ frame', b'.requests c = some ⟨packet, actor, .waiting frame'⟩ ∧
      frame'.waiter = frame.waiter := by
  cases h with
  | woken hwoken =>
    refine ⟨{ frame with asleep := false }, ?_, rfl⟩
    rw [hwoken c hc, hwaiting]
    rfl
  | left hsame hvalues hstay => exact ⟨frame, by rw [hsame c hc, hwaiting], rfl⟩

/-- The status of a request that is not queued changes, and perhaps the store with it. -/
lemma bystanders_setStatus {c : ℕ} (hc : b.frame? c = none) (b₁ : Broker)
    (hrequests : b₁.requests = b.requests) (hvalues : b.store.KeepsValues b₁.store)
    (packet : ProtocolPacket) (actor : BrokerActor) (status : Status) :
    Bystanders b (b₁.setStatus c packet actor status) (some c) := by
  have hne : ∀ d, some d ≠ some c → d ≠ c := fun d hd heq => hd (congrArg some heq)
  refine .left (fun d hd => ?_) hvalues ?_
  · rw [requests_setStatus_of_ne _ (hne d hd), hrequests]
  · intro d hd
    have hdc : d ≠ c := by
      rintro rfl
      rw [hc] at hd
      cases hd
    simp only [semid?, frame?_setStatus_of_ne _ hdc]
    simp only [frame?, hrequests]

/-! ### The events -/

lemma Turn.bystanders {c : ℕ} {packet : ProtocolPacket} {actor : BrokerActor} {frame : Frame}
    {view : IterationView} (hc : b.requests c = some ⟨packet, actor, .waiting frame⟩)
    (h : b.Turn c packet actor frame view b') : Bystanders b b' (some c) := by
  have hne : ∀ d, some d ≠ some c → d ≠ c := fun d hd heq => hd (congrArg some heq)
  cases h with
  | left hqueue hleave =>
    refine .woken fun d hd => ?_
    simp only [Broker.left, broadcast]
    rw [requests_setStatus_of_ne _ (hne d hd)]
  | slept hresponse hhead =>
    refine .left (fun d hd => requests_setStatus_of_ne _ (hne d hd))
      (SemStore.KeepsValues.refl b.store) fun d _ => ?_
    exact semid?_setStatus (by simp [semid?, frame?_of_request hc]) d

lemma bystanders_numbered (b : Broker) : Bystanders b b.numbered (some b.arrivals) :=
  bystanders_of_requests b b.numbered _ rfl (SemStore.KeepsValues.refl b.store)

lemma Prepared.bystanders {packet : ProtocolPacket} {actor : BrokerActor} {view : ArrivalView}
    (h : b.Prepared packet actor view b₁) : Bystanders b b₁ (some b.arrivals) := by
  have hnumbered := b.bystanders_numbered
  cases h with
  | plain hundo => exact hnumbered
  | watched hundo hsound hresult =>
    rcases watchProcess_broker b.numbered actor.pid view.lookup with heq | ⟨i, watcher, heq⟩
    · rw [heq]
      exact hnumbered
    · rw [heq]
      exact .woken fun _ _ => rfl

lemma Arrived.bystanders (hinv : b.Inv) {packet : ProtocolPacket} {actor : BrokerActor}
    {view : ArrivalView} (h : b.Arrived packet actor view b') :
    Bystanders b b' (some b.arrivals) := by
  have hnumbered := b.bystanders_numbered
  cases h with
  | unlocked error =>
    exact hnumbered.trans (bystanders_setStatus hinv.ready_numbered.frame? _ rfl
      (SemStore.KeepsValues.refl _) _ _ _)
  | unwatched hundo hresult heq =>
    exact hnumbered.trans (bystanders_setStatus hinv.ready_numbered.frame? _ rfl
      (SemStore.KeepsValues.refl _) _ _ _)
  | @answered b₁ ret response store exit hprepared hdispatch hquit hexit =>
    have hready := hinv.prepared hprepared
    refine hprepared.bystanders.trans ?_
    rw [Broker.answered]
    by_cases hchanged : ret = 0 ∧ operationChangedState packet response = true
    · simp only [if_pos hchanged]
      refine Bystanders.trans (.woken fun _ _ => rfl)
        (bystanders_setStatus ?_ _ rfl (SemStore.KeepsValues.refl _) _ _ _)
      rw [frame?_broadcast]
      exact Option.map_eq_none_iff.mpr hready.frame?
    · simp only [if_neg hchanged]
      have hkeep := brokerDispatch_keepsValues hready.inv.core.store packet actor view.env
        view.response
      rw [hdispatch] at hkeep
      have hvalues : b₁.store.KeepsValues store := by
        refine hkeep fun hret => ?_
        rw [← Bool.not_eq_true]
        exact fun hc => hchanged ⟨hret, hc⟩
      exact bystanders_setStatus hready.frame?
        { b₁ with store := store, applied := b₁.countApplied b.arrivals packet actor } rfl hvalues
        _ _ _
  | unqueued hprepared hret hexit =>
    exact hprepared.bystanders.trans
      (bystanders_setStatus (hinv.prepared hprepared).frame? _ rfl
        (SemStore.KeepsValues.refl _) _ _ _)
  | @queued b₁ b' store frame operations hprepared hlive hblocks hcount henters hturn =>
    have hready := hinv.prepared hprepared
    have hvalues := b₁.store.keepsValues_adjustWaitCount frame.waiter.semid
      frame.waiter.semnum.toNat (frame.waiter.waitForZero ≠ 0) 1
    rw [← hcount] at hvalues
    have hadmitted : Bystanders b₁ (b₁.admitted store b.arrivals packet actor frame)
        (some b.arrivals) :=
      bystanders_setStatus hready.frame?
        { b₁ with store := store, queue := b₁.queue.enqueue b.arrivals } rfl hvalues _ _ _
    refine hprepared.bystanders.trans (hadmitted.trans (hturn.bystanders ?_))
    simp [admitted, setStatus]

lemma ScansSlot.bystanders {i : Fin maxUndoProcesses} (h : b.ScansSlot i b') :
    Bystanders b b' none := by
  cases h with
  | skipped => exact .refl b none
  | announced now hactive => exact .woken fun _ _ => rfl
  | silent now hactive hsets =>
    exact bystanders_of_requests b _ none rfl (SemStore.keepsValues_of_sets hsets)

theorem Steps.bystanders (hinv : b.Inv) {event : Event} (h : b.Steps event b') :
    Bystanders b b' (event.runs b) := by
  cases h with
  | arrived harrived => exact harrived.bystanders hinv
  | woken hr hturn => exact hturn.bystanders hr
  | scanned hscan =>
    exact scan_invariant (I := fun b' => Bystanders b b' none)
      (fun _ _ _ hb hs => hb.trans hs.bystanders) (.refl b none) hscan
  | moved processes hruns =>
    exact bystanders_of_requests b _ _ rfl (SemStore.KeepsValues.refl b.store)

end Broker

end Tgcompat
