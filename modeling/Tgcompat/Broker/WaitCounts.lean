import Tgcompat.Broker.StoreRuns
import Tgcompat.Store.WaitCounts

/-!
# Wait counts never leak

A waiter is counted when it is queued and uncounted when it leaves, and in between its set may be
removed and another one created in the same slot. The counts of the store tally with the places of
the queued waiters in every state of a run in which no slot is removed so often that its generation
starts over. So the decrement of `finish_waiter`, whose result is ignored, fails only for a set that
is gone.
-/

namespace Tgcompat

/-- What the waiter is counted for. -/
def Waiter.place (waiter : Waiter) : WaitPlace where
  semid := waiter.semid
  semnum := waiter.semnum.toNat
  waitForZero := waiter.waitForZero ≠ 0

/-- The flags of a queued waiter. -/
structure Waiter.Flagged (waiter : Waiter) : Prop where
  counted : waiter.counted = true
  kind : waiter.waitForZero = 0 ∨ waiter.waitForZero = 1

namespace Broker

variable {b b₁ b' : Broker} {r c : ℕ} {packet : ProtocolPacket} {actor : BrokerActor}
  {frame : Frame}

/-! ### The queued waiters -/

/-- The waiter of a request in the wait loop. -/
def waiter? (b : Broker) (r : ℕ) : Option Waiter := (b.frame? r).map Frame.waiter

/-- The waiters in the queue, in order. -/
def waiters (b : Broker) : List Waiter := b.waiting.filterMap b.waiter?

/-- The counts of the store are those of the queued waiters. -/
structure Counted (b : Broker) : Prop where
  flags : ∀ waiter ∈ b.waiters, waiter.Flagged
  tallies : b.store.Tallies (b.waiters.map Waiter.place)

@[simp] lemma waiter?_broadcast (r : ℕ) : b.broadcast.waiter? r = b.waiter? r := by
  simp only [waiter?, frame?_broadcast, Option.map_map]
  rfl

lemma waiter?_setStatus_of_ne (status : Status) (h : c ≠ r) :
    (b.setStatus r packet actor status).waiter? c = b.waiter? c := by
  simp only [waiter?, frame?_setStatus_of_ne status h]

lemma waiter?_of_request (h : b.requests r = some ⟨packet, actor, .waiting frame⟩) :
    b.waiter? r = some frame.waiter := by
  rw [waiter?, frame?_of_request h, Option.map_some]

lemma waiters_congr (hwaiting : b'.waiting = b.waiting)
    (hsame : ∀ r ∈ b.waiting, b'.waiter? r = b.waiter? r) : b'.waiters = b.waiters := by
  rw [waiters, waiters, hwaiting]
  exact List.filterMap_congr hsame

@[simp] lemma waiters_broadcast (b : Broker) : b.broadcast.waiters = b.waiters :=
  waiters_congr (waiting_broadcast b) fun _ _ => waiter?_broadcast _

/-- A request that was not queued returns. -/
lemma waiters_finish (hr : b.frame? r = none) (outcome : Outcome) :
    (b.setStatus r packet actor (.finished outcome)).waiters = b.waiters := by
  refine waiters_congr (waiting_setStatus_finished_of_none hr outcome) fun c hc => ?_
  have hcr : c ≠ r := by
    rintro rfl
    rw [mem_waiting, hr] at hc
    cases hc.2
  exact waiter?_setStatus_of_ne _ hcr

/-- A waiter goes to sleep. -/
lemma waiters_sleep (hr : b.requests r = some ⟨packet, actor, .waiting frame⟩)
    (response : ProtocolPacket) (asleep : Bool) :
    (b.setStatus r packet actor
      (.waiting { frame with response := response, asleep := asleep })).waiters = b.waiters := by
  refine waiters_congr (waiting_setStatus_waiting (by rw [frame?_of_request hr]; rfl)) ?_
  intro c _
  by_cases hcr : c = r
  · subst hcr
    rw [waiter?_of_request hr, waiter?, frame?_setStatus_waiting, Option.map_some]
  · exact waiter?_setStatus_of_ne _ hcr

/-- A waiter leaves the queue. -/
lemma waiters_leave (hmem : r ∈ b.waiting)
    (hr : b.requests r = some ⟨packet, actor, .waiting frame⟩) (outcome : Outcome) :
    b.waiters.Perm
      (frame.waiter :: (b.setStatus r packet actor (.finished outcome)).waiters) := by
  have hrest : (b.setStatus r packet actor (.finished outcome)).waiters =
      (b.waiting.erase r).filterMap b.waiter? := by
    rw [waiters, waiting_setStatus_finished]
    refine List.filterMap_congr fun c hc => waiter?_setStatus_of_ne _ ?_
    rintro rfl
    exact (nodup_waiting b).not_mem_erase hc
  have hperm := (List.perm_cons_erase hmem).filterMap b.waiter?
  rw [List.filterMap_cons_some (waiter?_of_request hr)] at hperm
  rw [hrest]
  exact hperm

/-- The latest request joins the queue at its end. -/
lemma waiters_join (hlast : b.arrivals = r + 1) (hr : b.frame? r = none) :
    (b.setStatus r packet actor (.waiting frame)).waiters = b.waiters ++ [frame.waiter] := by
  have hself : (b.setStatus r packet actor (.waiting frame)).waiter? r = some frame.waiter := by
    rw [waiter?, frame?_setStatus_waiting, Option.map_some]
  rw [waiters, waiting_setStatus_last hlast hr, List.filterMap_append,
    List.filterMap_cons_some hself, List.filterMap_nil, waiters]
  refine congrArg (· ++ [frame.waiter]) (List.filterMap_congr fun c hc => ?_)
  have hcr : c ≠ r := by
    rintro rfl
    rw [mem_waiting, hr] at hc
    cases hc.2
  exact waiter?_setStatus_of_ne _ hcr

lemma Enters.flagged {st : SemStore} {operations : List SemOp} (h : Enters st operations frame) :
    frame.waiter.Flagged := by
  obtain ⟨-, hcounted, op, -, -, hkind⟩ := h
  refine ⟨hcounted, ?_⟩
  rw [hkind]
  split_ifs
  · exact Or.inr rfl
  · exact Or.inl rfl

/-- The number of queued waiters with a recorded `semid`, `semnum` and `wait_for_zero`. -/
def queuedAt (b : Broker) (semid : Int32) (semnum : ℕ) (waitForZero : UInt16) : ℕ :=
  b.waiting.countP fun r => (b.waiter? r).any fun waiter =>
    decide (waiter.semid = semid ∧ waiter.semnum.toNat = semnum ∧
      waiter.waitForZero = waitForZero)

lemma queuedAt_eq (hflags : ∀ waiter ∈ b.waiters, waiter.Flagged) (semid : Int32) (semnum : ℕ)
    (waitForZero : Bool) :
    b.queuedAt semid semnum (if waitForZero then 1 else 0) =
      (b.waiters.map Waiter.place).count ⟨semid, semnum, waitForZero⟩ := by
  rw [List.count, List.countP_map, waiters, List.countP_filterMap, queuedAt]
  refine List.countP_congr fun r hr => ?_
  cases hw : b.waiter? r with
  | none => simp
  | some waiter =>
    have hkind := (hflags waiter (List.mem_filterMap.mpr ⟨r, hr, hw⟩)).kind
    rcases hkind with hkind | hkind <;> cases waitForZero <;>
      simp [Waiter.place, hkind]

/-! ### One event -/

lemma counted_create : create.Counted where
  flags := by simp [waiters, waiting, create]
  tallies := SemStore.tallies_create

/-- The counts depend on the store and the queued waiters only. -/
lemma Counted.congr (h : b.Counted) (hstore : b'.store = b.store)
    (hwaiters : b'.waiters = b.waiters) :
    b'.Counted := by
  obtain ⟨hflags, htallies⟩ := h
  rw [← hwaiters] at hflags htallies
  exact ⟨hflags, hstore ▸ htallies⟩

/-- A dispatch keeps the counts, unless it makes a generation start over. -/
lemma tallies_dispatch {st st' : SemStore} {places : List WaitPlace} (ht : st.Tallies places)
    (h : st.Inv) {response response' : ProtocolPacket} {env : DispatchEnv} {ret : Int32}
    (hdispatch : brokerDispatch st packet actor env response = (ret, response', st'))
    (hwrap : ∀ i, SemStore.vacates i st st' = true →
      (st.sets i).generation < semIdMaxGeneration) : st'.Tallies places := by
  rcases brokerDispatch_cases st packet actor env response with ⟨e, -, heq⟩ | heq
  · cases heq.symm.trans hdispatch
    exact ht
  · rcases dispatchOpcode_cases st packet actor env (prepareResponse packet response) with
      hsame | ⟨op, hop, -, hnext⟩
    · cases heq.symm.trans hdispatch
      rw [hsame]
      exact ht
    · have hkeeps : op.keepsCounts = true := by
        cases op with
        | adjustWaitCount semid semnum waitForZero adjustment => exact hop.elim
        | _ => rfl
      cases heq.symm.trans hdispatch
      rw [hnext] at hwrap ⊢
      exact ht.next h op hkeeps hwrap

/-- The retry of a waiter keeps the counts. -/
lemma tallies_retry {st st' : SemStore} {places : List WaitPlace} (ht : st.Tallies places)
    (h : st.Inv) {response response' : ProtocolPacket} {env : DispatchEnv} {ret : Int32}
    (hsemop : packet.opcode.any Opcode.isSemop = true)
    (hdispatch : brokerDispatch st packet actor env response = (ret, response', st')) :
    st'.Tallies places := by
  refine tallies_dispatch ht h hdispatch fun i hvacates => ?_
  rw [((SemStore.quietTo_semop hsemop hdispatch).sameFrames h).vacates] at hvacates
  cases hvacates

lemma LeavesBy.tallies {view : IterationView} {store : SemStore} {applied : ℕ → ℕ}
    {outcome : Outcome} {places : List WaitPlace}
    (hl : LeavesBy b r packet actor frame view store applied outcome) (h : b.store.Inv)
    (ht : b.store.Tallies places) : store.Tallies places := by
  cases hl with
  | closed hclosed => exact ht
  | retried operations hopen hfirst hlive hblocks hdispatch hanswer =>
    exact tallies_retry ht h hlive.isSemop hdispatch
  | waitFailed error hresponse => exact ht
  | timedOut => exact ht

/-- The place of a waiter in front of the others. -/
lemma Counted.tallies_of_perm (h : b.Counted) {waiter : Waiter} {rest : List Waiter}
    (hperm : b.waiters.Perm (waiter :: rest)) :
    b.store.Tallies (waiter.place :: rest.map Waiter.place) :=
  h.tallies.perm (by simpa using hperm.map Waiter.place)

lemma Turn.counted (hstore : b.store.Inv) (hmem : r ∈ b.waiting) (h : b.Counted)
    (hr : b.requests r = some ⟨packet, actor, .waiting frame⟩) {view : IterationView}
    (hturn : b.Turn r packet actor frame view b') : b'.Counted := by
  cases hturn with
  | @left queue store applied outcome hqueue hleave =>
    have hperm := waiters_leave hmem hr outcome
    have hflag : frame.waiter.counted = true :=
      (h.flags _ (hperm.mem_iff.mpr List.mem_cons_self)).counted
    have hleft : (b.left queue store applied r packet actor frame.waiter outcome).store =
        (store.adjustWaitCount frame.waiter.place.semid frame.waiter.place.semnum
          frame.waiter.place.waitForZero (-1)).2 := by
      rw [show (b.left queue store applied r packet actor frame.waiter outcome).store =
        uncount store frame.waiter from rfl, uncount, if_pos hflag]
      rfl
    have hwaiters : (b.left queue store applied r packet actor frame.waiter outcome).waiters =
        (b.setStatus r packet actor (.finished outcome)).waiters := waiters_broadcast _
    refine ⟨fun waiter hmem => ?_, ?_⟩
    · rw [hwaiters] at hmem
      exact h.flags _ (hperm.mem_iff.mpr (List.mem_cons_of_mem _ hmem))
    · rw [hleft, hwaiters]
      exact (hleave.tallies hstore (h.tallies_of_perm hperm)).release (hleave.store_inv hstore)
  | slept hresponse hhead => exact h.congr rfl (waiters_sleep hr _ _)

lemma Prepared.waiters (hinv : b.Inv) {view : ArrivalView}
    (h : b.Prepared packet actor view b₁) : b₁.waiters = b.waiters := by
  have hnumbered : b.numbered.waiters = b.waiters :=
    waiters_congr (waiting_numbered hinv.core) fun _ _ => rfl
  cases h with
  | plain hundo => exact hnumbered
  | watched hundo hsound hresult =>
    rcases watchProcess_broker b.numbered actor.pid view.lookup with heq | ⟨i, watcher, heq⟩
    · rw [heq]
      exact hnumbered
    · rw [heq, waiters_broadcast]
      exact hnumbered

lemma Arrived.counted (hinv : b.Inv) (h : b.Counted) {view : ArrivalView}
    (harrived : b.Arrived packet actor view b')
    (hwrap : ∀ i, SemStore.vacates i b.store b'.store = true →
      (b.store.sets i).generation < semIdMaxGeneration) : b'.Counted := by
  have hnumbered : b.numbered.Counted :=
    h.congr rfl (waiters_congr (waiting_numbered hinv.core) fun _ _ => rfl)
  have hprep : ∀ {b₁}, b.Prepared packet actor view b₁ → b₁.Counted := fun hprepared =>
    h.congr (hinv.prepared hprepared).store (hprepared.waiters hinv)
  cases harrived with
  | unlocked error => exact hnumbered.congr rfl (waiters_finish hinv.ready_numbered.frame? _)
  | unwatched hundo hresult heq =>
    exact hnumbered.congr rfl (waiters_finish hinv.ready_numbered.frame? _)
  | @answered b₁ ret response store exit hprepared hdispatch hquit hexit =>
    have hready := hinv.prepared hprepared
    rw [store_answered] at hwrap
    have hwaiters : (b₁.answered store b.arrivals packet actor ret response exit).waiters =
        b₁.waiters := by
      rw [Broker.answered]
      by_cases hchanged : ret = 0 ∧ operationChangedState packet response = true
      · simp only [if_pos hchanged]
        rw [waiters_finish, waiters_broadcast]
        · rfl
        · rw [frame?_broadcast]
          exact Option.map_eq_none_iff.mpr hready.frame?
      · simp only [if_neg hchanged]
        rw [waiters_finish]
        · rfl
        · exact hready.frame?
    refine ⟨?_, ?_⟩
    · rw [hwaiters]
      exact (hprep hprepared).flags
    · rw [hwaiters, store_answered]
      rw [← hready.store] at hwrap
      exact tallies_dispatch (hprep hprepared).tallies hready.inv.core.store hdispatch hwrap
  | unqueued hprepared hret hexit =>
    exact (hprep hprepared).congr rfl (waiters_finish (hinv.prepared hprepared).frame? _)
  | @queued b₁ b' store frame operations hprepared hlive hblocks hcount henters hturn =>
    have hready := hinv.prepared hprepared
    have hadmitted : (b₁.admitted store b.arrivals packet actor frame).Counted := by
      have hwaiters : (b₁.admitted store b.arrivals packet actor frame).waiters =
          b₁.waiters ++ [frame.waiter] := waiters_join hready.arrivals hready.frame?
      refine ⟨fun waiter hmem => ?_, ?_⟩
      · rw [hwaiters, List.mem_append, List.mem_singleton] at hmem
        rcases hmem with hmem | rfl
        · exact (hprep hprepared).flags waiter hmem
        · exact henters.flagged
      · have hplace : b₁.store.adjustWaitCount frame.waiter.place.semid frame.waiter.place.semnum
            frame.waiter.place.waitForZero 1 = (0, store) := hcount.symm
        rw [hwaiters, List.map_append]
        exact ((hprep hprepared).tallies.enter hready.inv.core.store hplace).perm
          (List.perm_append_singleton _ _).symm
    have hstore : store.Inv := by
      have hinv' := inv_adjustWaitCount hready.inv.core.store frame.waiter.semid
        frame.waiter.semnum.toNat (frame.waiter.waitForZero ≠ 0) 1
      rwa [← hcount] at hinv'
    have hmem : b.arrivals ∈ (b₁.admitted store b.arrivals packet actor frame).waiting := by
      have hwaiting : (b₁.admitted store b.arrivals packet actor frame).waiting =
          b₁.waiting ++ [b.arrivals] := waiting_setStatus_last hready.arrivals hready.frame?
      rw [hwaiting]
      exact List.mem_append_right _ List.mem_cons_self
    exact hturn.counted hstore hmem hadmitted (by simp [admitted, setStatus])

lemma ScansSlot.counted (hinv : b.Inv) (h : b.Counted) {i : Fin maxUndoProcesses}
    (hs : b.ScansSlot i b') : b'.Counted := by
  have hretired : ∀ now, (b.retired i now).Counted := by
    intro now
    have hframes : b.store.SameFrames (b.store.next (.processExit (b.watchers i).pid now)) :=
      b.store.processExit_frames (b.watchers i).pid now
    refine ⟨h.flags, h.tallies.next hinv.core.store (.processExit (b.watchers i).pid now) rfl ?_⟩
    intro j hvacates
    rw [hframes.vacates] at hvacates
    cases hvacates
  cases hs with
  | skipped => exact h
  | announced now hactive => exact (hretired now).congr rfl (waiters_broadcast _)
  | silent now hactive hsets => exact hretired now

/-- Every event keeps the counts, unless it makes a generation start over. -/
theorem Steps.counted (hinv : b.Inv) (h : b.Counted) {event : Event} (hsteps : b.Steps event b')
    (hwrap : ∀ i, SemStore.vacates i b.store b'.store = true →
      (b.store.sets i).generation < semIdMaxGeneration) : b'.Counted := by
  cases hsteps with
  | arrived harrived => exact harrived.counted hinv h hwrap
  | woken hr hturn => exact hturn.counted hinv.core.store (hinv.core.mem_waiting hr) h hr
  | scanned hscan =>
    exact (scan_invariant (I := fun b => b.Inv ∧ b.Counted)
      (fun _ _ _ hb hs => ⟨hb.1.scansSlot hs, hs.counted hb.1 hb.2⟩) ⟨hinv, h⟩ hscan).2
  | moved processes hruns => exact h.congr rfl rfl

/-! ### Runs -/

/-- In a run without a generation that starts over the counts are those of the queue. -/
theorem counted_run {events : List Event} (hexec : Transition.exec step create events = some b)
    (hfew : ∀ i, removals i create events < 32767) : b.Inv ∧ b.Counted := by
  refine Transition.exec_history
    (H := fun events b => (∀ i, removals i create events < 32767) → b.Inv ∧ b.Counted)
    (fun _ => ⟨inv_create, counted_create⟩) ?_ hexec hfew
  intro events c event c' hc ih hstep hfew
  have hcount : ∀ i, removals i create (events ++ [event]) =
      removals i create events + (SemStore.vacates i c.store c'.store).toNat :=
    fun i => Transition.countSteps_snoc hc hstep
  obtain ⟨hinv, hcounted⟩ := ih fun i => lt_of_le_of_lt (by rw [hcount]; omega) (hfew i)
  obtain ⟨hsteps, hinv'⟩ := hinv.steps hstep
  refine ⟨hinv', hsteps.counted hinv hcounted fun i hvacates => ?_⟩
  -- a slot that has been removed `n` times has generation `n + 1`
  obtain ⟨-, ops, hops, hremovals⟩ := inv_create.store_run hc
  have hlt := hfew i
  rw [hcount, hvacates, Bool.toNat_true] at hlt
  have hgen := SemStore.generation_create_run i ops
  rw [show SemStore.create.run ops = c.store from hops.symm,
    show SemStore.removals i (SemStore.create.trace ops) = _ from hremovals i] at hgen
  have hmax : semIdMaxGeneration = 32767 := rfl
  omega

/-- `finish_waiter` takes a waiter of an existing set out of its count. -/
lemma Inv.uncounts (hinv : b.Inv)
    (hr : b.requests r = some ⟨packet, actor, .waiting frame⟩) {st : SemStore} (hst : st.Inv)
    (ht : st.Tallies (b.waiters.map Waiter.place))
    (hlive : st.findSet frame.waiter.semid ≠ none) :
    (st.adjustWaitCount frame.waiter.semid frame.waiter.semnum.toNat
      (frame.waiter.waitForZero ≠ 0) (-1)).1 = 0 := by
  obtain ⟨i, hf⟩ := Option.ne_none_iff_exists'.mp hlive
  have hperm := waiters_leave (hinv.core.mem_waiting hr) hr ⟨0, frame.response, .timedOut⟩
  have hfront : st.Tallies (frame.waiter.place :: _) := ht.perm (hperm.map Waiter.place)
  exact congrArg Prod.fst (hfront.adjust_neg hst hf).2

/-- Wait counts never leak. In every run in which no slot is removed 32767 times or more, each count
of an active set is the number of queued waiters recorded for it. So `finish_waiter` can take a
waiter of an existing set out of its count, whether a retry has come before or not, and all counts
are zero when nobody is queued. -/
theorem wait_counts_exact {events : List Event}
    (hexec : Transition.exec step create events = some b)
    (hfew : ∀ i, removals i create events < 32767) :
    b.queue.Holds b.waiting ∧
    (∀ i, (b.store.sets i).active = true → ∀ s < (b.store.sets i).nsems,
      (b.store.sets i).negativeWaiters.getD s 0 = b.queuedAt (b.store.idOf i) s 0 ∧
      (b.store.sets i).zeroWaiters.getD s 0 = b.queuedAt (b.store.idOf i) s 1) ∧
    (∀ r packet actor frame, b.requests r = some ⟨packet, actor, .waiting frame⟩ →
      ∀ env, ∀ st ∈ [b.store, (brokerDispatch b.store packet actor env frame.response).2.2],
        st.findSet frame.waiter.semid ≠ none →
          (st.adjustWaitCount frame.waiter.semid frame.waiter.semnum.toNat
            (frame.waiter.waitForZero ≠ 0) (-1)).1 = 0) ∧
    (b.waiting = [] → ∀ i, (b.store.sets i).active = true → ∀ s < (b.store.sets i).nsems,
      (b.store.sets i).negativeWaiters.getD s 0 = 0 ∧
      (b.store.sets i).zeroWaiters.getD s 0 = 0) := by
  obtain ⟨hinv, hcounted⟩ := counted_run hexec hfew
  have hcounts : ∀ i, (b.store.sets i).active = true → ∀ s,
      (b.store.sets i).negativeWaiters.getD s 0 = b.queuedAt (b.store.idOf i) s 0 ∧
      (b.store.sets i).zeroWaiters.getD s 0 = b.queuedAt (b.store.idOf i) s 1 := by
    intro i hi s
    have hneg := hcounted.tallies.counts i hi s false
    have hzero := hcounted.tallies.counts i hi s true
    rw [← queuedAt_eq hcounted.flags] at hneg hzero
    exact ⟨hneg, hzero⟩
  refine ⟨hinv.core.queue, fun i hi s _ => hcounts i hi s, ?_, ?_⟩
  · intro r packet actor frame hr env st hst hlive
    obtain ⟨⟨operations, hsemop⟩, -, -⟩ := hinv.core.frames r packet actor frame hr
    simp only [List.mem_cons, List.not_mem_nil, or_false] at hst
    rcases hst with rfl | rfl
    · exact hinv.uncounts hr hinv.core.store hcounted.tallies hlive
    · refine hinv.uncounts hr (hinv.core.store.brokerDispatch packet actor env _) ?_ hlive
      exact tallies_retry hcounted.tallies hinv.core.store hsemop.isSemop rfl
  · intro hnone i hi s _
    obtain ⟨hneg, hzero⟩ := hcounts i hi s
    rw [hneg, hzero, queuedAt, queuedAt, hnone]
    exact ⟨rfl, rfl⟩

/-- Request 1 waits, its set is removed, and another one is created under the same key. -/
def recreated : List Event :=
  [createSet,
    call (semopRequest (fun _ => 0) (makeId 0 1) [⟨0, -1, 0⟩] none) 42,
    call (removeRequest (fun _ => 0) (makeId 0 1)) 43,
    createSet]

/-- The waiter of the removed set is still queued, and the new set does not count it. -/
theorem wait_counts_exact_recreated :
    ∃ b, Transition.exec step create recreated = some b ∧ b.waiting = [1] ∧
      (b.store.sets ⟨0, by decide⟩).active = true ∧
      (b.store.sets ⟨0, by decide⟩).negativeWaiters.getD 0 0 =
        b.queuedAt (b.store.idOf ⟨0, by decide⟩) 0 0 := by
  have hrun : (Transition.exec step create recreated).any (fun b => decide (b.waiting = [1] ∧
      (b.store.sets ⟨0, by decide⟩).active = true ∧
      0 < (b.store.sets ⟨0, by decide⟩).nsems)) = true := by
    decide +kernel
  obtain ⟨b, hb, hcheck⟩ := (Option.any_eq_true _ _).mp hrun
  obtain ⟨hwaiting, hactive, hpos⟩ := decide_eq_true_eq.mp hcheck
  have hfew : ∀ i, removals i create recreated < 32767 :=
    fun i => lt_of_le_of_lt (removals_le_length i create recreated) (by decide)
  exact ⟨b, hb, hwaiting, hactive, ((wait_counts_exact hb hfew).2.1 _ hactive 0 hpos).1⟩

end Broker

end Tgcompat
