import Tgcompat.Broker.Completion
import Tgcompat.Store.Ledger

/-!
# Watched processes

A request that uses `SEM_UNDO` has its process watched when it arrives, so every entry that the
arrival makes is watched. A waiter may make its entry much later, on a retry, when the monitor has
already retired the watcher of a process that ended in between: then nothing will ever restore the
adjustment. In the runs where this does not happen every entry has exactly one watcher.
-/

namespace Tgcompat

variable {packet : ProtocolPacket} {actor : BrokerActor}

/-! ### Requests that make entries -/

/-- The scan finds a flag that the dispatcher decodes. -/
lemma requestUsesUndo_of_decoded {semid : Int32} {operations : List SemOp}
    (hsemop : packet.opcode.any Opcode.isSemop = true)
    (hdecoded : decodeSemop packet = .ok (semid, operations)) {op : SemOp} (hop : op ∈ operations)
    (hflag : op.hasFlag semUndo = true) : requestUsesUndo packet = true := by
  obtain ⟨-, hprefix, hcount, hops⟩ := decodeSemop_ok hdecoded
  obtain ⟨i, hi, hdecode⟩ := Fold.mapM_ok hops op hop
  rw [opSize] at hcount hdecode
  have hany : (List.range (wireGetU32 packet.payload 4).toNat).any (fun i =>
      decide ((wireGetU16 packet.payload (opPrefixSize packet + i * 8 + 4)).toUInt32 &&&
        semUndo ≠ 0)) = true := by
    refine List.any_eq_true.mpr ⟨i, hi, ?_⟩
    rw [decodeOp] at hdecode
    split_ifs at hdecode
    cases hdecode
    exact hflag
  rw [requestUsesUndo]
  cases hopcode : packet.opcode with
  | none =>
    rw [hopcode] at hsemop
    cases hsemop
  | some opcode =>
    rw [hopcode] at hsemop
    cases opcode with
    | semop => simp only [if_neg hprefix, if_neg hcount, hany]
    | semtimedop => simp only [if_neg hprefix, if_neg hcount, hany]
    | _ => cases hsemop

lemma requestUsesUndo_of_live {semid : Int32} {operations : List SemOp}
    (h : Live packet actor semid operations) {op : SemOp} (hop : op ∈ operations)
    (hflag : op.hasFlag semUndo = true) : requestUsesUndo packet = true :=
  requestUsesUndo_of_decoded h.isSemop h.decoded hop hflag

/-- A dispatch makes an entry only for its own process, and only if it commits a request that
uses `SEM_UNDO`. -/
lemma owes_brokerDispatch {st st' : SemStore} (h : st.Inv) {env : DispatchEnv}
    {response response' : ProtocolPacket} {ret pid : Int32}
    (hdispatch : brokerDispatch st packet actor env response = (ret, response', st'))
    (howes : st'.Owes pid) :
    st.Owes pid ∨ (pid = actor.pid ∧ 0 < pid ∧ requestUsesUndo packet = true ∧
      commits st packet actor = true) := by
  have hstore := brokerDispatch_store st packet actor env response
  rw [hdispatch] at hstore
  rcases hstore with heq | ⟨op, heq, htryop⟩
  · rw [← heq]
    exact Or.inl howes
  · have hnext : (st.next op).Owes pid := heq ▸ howes
    rcases SemStore.owes_next h hnext with hbefore |
      ⟨semid, operations, now, s, hop, hzero, hamount⟩
    · exact Or.inl hbefore
    · obtain ⟨hpid, hlive⟩ := htryop semid operations pid now hop
      obtain ⟨flagged, hmem, hflag, -⟩ := exists_flag_of_undoAmount hamount
      refine Or.inr ⟨hpid, hpid ▸ hlive.pid_pos, requestUsesUndo_of_live hlive hmem hflag, ?_⟩
      rw [hlive.commits_eq, ← hpid]
      rcases h.tryopDetail_cases semid operations pid now with ⟨r, hplan, hresult⟩ |
        ⟨plan, t, hplan, -, -, -⟩
      · rw [hresult] at hzero
        exact absurd hzero (SemStore.planTryop_error_ne_zero hplan)
      · rw [SemStore.planTryop_ok.mpr hplan]
        rfl

lemma owes_adjustWaitCount {st : SemStore} (h : st.Inv) {semid : Int32} {semnum : ℕ}
    {waitForZero : Bool} {adjustment pid : Int32}
    (howes : (st.adjustWaitCount semid semnum waitForZero adjustment).2.Owes pid) :
    st.Owes pid := by
  have hnext : (st.next (.adjustWaitCount semid semnum waitForZero adjustment)).Owes pid := howes
  rcases SemStore.owes_next h hnext with hbefore | ⟨id, operations, now, s, hop, -, -⟩
  · exact hbefore
  · cases hop

namespace Broker

variable {b b' : Broker} {r : ℕ} {frame : Frame}

lemma owes_uncount {st : SemStore} (h : st.Inv) {waiter : Waiter} {pid : Int32}
    (howes : (uncount st waiter).Owes pid) : st.Owes pid := by
  rw [uncount] at howes
  split_ifs at howes
  · exact owes_adjustWaitCount h howes
  · exact howes

/-! ### The invariant -/

/-- A watcher observes one pid. -/
def watcherKeyed : Table.Keyed ProcessWatcher Int32 where
  live := ProcessWatcher.active
  key := ProcessWatcher.pid

lemma watched_iff {pid : Int32} :
    b.watched pid = true ↔ ∃ i, (b.watchers i).active = true ∧ (b.watchers i).pid = pid := by
  have hfind : b.watched pid = (watcherKeyed.find b.watchers pid).isSome := rfl
  rw [hfind]
  constructor
  · intro h
    obtain ⟨i, hi⟩ := Option.isSome_iff_exists.mp h
    exact ⟨i, Table.Keyed.live_of_find hi, Table.Keyed.key_of_find hi⟩
  · rintro ⟨i, hactive, hpid⟩
    rw [Option.isSome_iff_ne_none]
    exact fun hnone => Table.Keyed.find_eq_none.mp hnone i hactive hpid

/-- No process has two watchers, and every process with an entry has one. -/
structure Watching (b : Broker) : Prop where
  distinct : watcherKeyed.Distinct b.watchers
  positive : ∀ pid, b.store.Owes pid → 0 < pid
  covered : ∀ pid, b.store.Owes pid → b.watched pid = true

/-- The condition on a step: a waiter that is woken while its request would be applied still has
its process watched, if the request uses `SEM_UNDO`. -/
def retriesWatched (b : Broker) : Event → Bool
  | .wake r _ =>
    match b.requests r with
    | some ⟨packet, actor, .waiting _⟩ =>
      !(requestUsesUndo packet && commits b.store packet actor) || b.watched actor.pid
    | _ => true
  | _ => true

lemma watched_of_retriesWatched {view : WakeView}
    (h : b.retriesWatched (.wake r view) = true)
    (hr : b.requests r = some ⟨packet, actor, .waiting frame⟩)
    (hundo : requestUsesUndo packet = true) (hcommits : commits b.store packet actor = true) :
    b.watched actor.pid = true := by
  simpa [retriesWatched, hr, hundo, hcommits] using h

lemma watching_create : create.Watching where
  distinct := by
    intro i j hi
    cases hi
  positive := by
    rintro pid ⟨k, hactive, -⟩
    cases hactive
  covered := by
    rintro pid ⟨k, hactive, -⟩
    cases hactive

lemma watched_congr (h : b'.watchers = b.watchers) (pid : Int32) :
    b'.watched pid = b.watched pid := by
  rw [watched, watched, h]

/-- A step that keeps the watchers and only makes entries for watched processes. -/
lemma Watching.of_owes (h : b.Watching) (hwatchers : b'.watchers = b.watchers)
    (howes : ∀ pid, b'.store.Owes pid →
      b.store.Owes pid ∨ (0 < pid ∧ b.watched pid = true)) : b'.Watching where
  distinct := by
    rw [hwatchers]
    exact h.distinct
  positive := by
    intro pid hpid
    rcases howes pid hpid with hbefore | ⟨hpos, -⟩
    · exact h.positive pid hbefore
    · exact hpos
  covered := by
    intro pid hpid
    rw [watched_congr hwatchers]
    rcases howes pid hpid with hbefore | ⟨-, hwatched⟩
    · exact h.covered pid hbefore
    · exact hwatched

/-! ### Arrivals -/

/-- A process that is not watched gets the free slot. -/
lemma Watching.watch (h : b.Watching) (b' : Broker) {i : Fin maxUndoProcesses}
    {watcher : ProcessWatcher} (hfree : (b.watchers i).active = false)
    (hactive : watcher.active = true) (hnot : b.watched watcher.pid = false)
    (hwatchers : b'.watchers = Function.update b.watchers i watcher)
    (hstore : b'.store = b.store) :
    b'.Watching ∧ b'.watched watcher.pid = true := by
  refine ⟨⟨?_, ?_, ?_⟩, ?_⟩
  · rw [hwatchers]
    refine h.distinct.update fun _ j _ hj hpid => ?_
    have hwatched : b.watched watcher.pid = true := watched_iff.mpr ⟨j, hj, hpid⟩
    rw [hnot] at hwatched
    cases hwatched
  · rw [hstore]
    exact h.positive
  · intro pid hpid
    rw [hstore] at hpid
    obtain ⟨j, hj, hjpid⟩ := watched_iff.mp (h.covered pid hpid)
    have hji : j ≠ i := by
      rintro rfl
      rw [hfree] at hj
      cases hj
    refine watched_iff.mpr ⟨j, ?_⟩
    rw [hwatchers, Function.update_of_ne hji]
    exact ⟨hj, hjpid⟩
  · refine watched_iff.mpr ⟨i, ?_⟩
    rw [hwatchers, Function.update_self]
    exact ⟨hactive, rfl⟩

lemma Watching.numbered (h : b.Watching) : b.numbered.Watching :=
  h.of_owes rfl fun _ => Or.inl

/-- A request that uses `SEM_UNDO` reaches its first dispatch with its process watched. -/
lemma Watching.prepared (h : b.Watching) {view : ArrivalView} {b₁ : Broker}
    (hp : b.Prepared packet actor view b₁) :
    b₁.Watching ∧ (requestUsesUndo packet = true → b₁.watched actor.pid = true) := by
  cases hp with
  | plain hundo =>
    refine ⟨h.numbered, fun hused => ?_⟩
    rw [hundo] at hused
    cases hused
  | watched hundo hsound hresult =>
    rcases watchProcess_cases b.numbered actor.pid view.lookup with ⟨result, hneg, heq⟩ |
      ⟨hwatched, heq⟩ | ⟨i, watcher, hnot, hfree, hactive, hpid, -, -, heq⟩
    · rw [heq] at hresult
      have hzero : result = 0 := hresult
      rw [hzero] at hneg
      exact absurd hneg (by decide)
    · rw [heq]
      exact ⟨h.numbered, fun _ => hwatched⟩
    · rw [heq, ← hpid]
      rw [← hpid] at hnot
      obtain ⟨hwatching, hwatched⟩ := h.numbered.watch (Broker.broadcast
        { b.numbered with watchers := Function.update b.numbered.watchers i watcher })
        hfree hactive hnot rfl rfl
      exact ⟨hwatching, fun _ => hwatched⟩

lemma Turn.watching (hinv : b.store.Inv) (h : b.Watching) {view : IterationView}
    (hturn : b.Turn r packet actor frame view b')
    (hwatched : requestUsesUndo packet = true → commits b.store packet actor = true →
      b.watched actor.pid = true) : b'.Watching := by
  cases hturn with
  | slept hresponse hhead => exact h.of_owes rfl fun _ => Or.inl
  | @left queue store applied outcome hqueue hleave =>
    refine h.of_owes rfl fun pid hpid => ?_
    have hstore : store.Owes pid := owes_uncount (hleave.store_inv hinv) hpid
    cases hleave with
    | closed hclosed => exact Or.inl hstore
    | retried operations hopen hfirst hlive hblocks hdispatch hanswer =>
      rcases owes_brokerDispatch hinv hdispatch hstore with hbefore |
        ⟨rfl, hpos, hundo, hcommits⟩
      · exact Or.inl hbefore
      · exact Or.inr ⟨hpos, hwatched hundo hcommits⟩
    | waitFailed error hresponse => exact Or.inl hstore
    | timedOut => exact Or.inl hstore

lemma Arrived.watching (hinv : b.Inv) (h : b.Watching) {view : ArrivalView}
    (ha : b.Arrived packet actor view b') : b'.Watching := by
  cases ha with
  | unlocked error => exact h.of_owes rfl fun _ => Or.inl
  | unwatched hundo hresult heq => exact h.of_owes rfl fun _ => Or.inl
  | @answered b₁ ret response store exit hprepared hdispatch hquit hexit =>
    obtain ⟨hwatching, hwatched⟩ := h.prepared hprepared
    have hready := hinv.prepared hprepared
    have hwatchers : (b₁.answered store b.arrivals packet actor ret response exit).watchers =
        b₁.watchers := by
      rw [Broker.answered]
      split_ifs
      · rfl
      · rfl
    refine hwatching.of_owes hwatchers fun pid hpid => ?_
    rw [store_answered] at hpid
    rcases owes_brokerDispatch hready.inv.core.store hdispatch hpid with hbefore |
      ⟨rfl, hpos, hundo, -⟩
    · exact Or.inl hbefore
    · exact Or.inr ⟨hpos, hwatched hundo⟩
  | unqueued hprepared hret hexit => exact (h.prepared hprepared).1.of_owes rfl fun _ => Or.inl
  | @queued b₁ b' store frame operations hprepared hlive hblocks hcount henters hturn =>
    obtain ⟨hwatching, hwatched⟩ := h.prepared hprepared
    have hready := hinv.prepared hprepared
    have hstore : (b₁.store.adjustWaitCount frame.waiter.semid frame.waiter.semnum.toNat
        (frame.waiter.waitForZero ≠ 0) 1).2 = store := by rw [← hcount]
    have hinv' : store.Inv := hstore ▸ inv_adjustWaitCount hready.inv.core.store _ _ _ _
    have hadmitted : (b₁.admitted store b.arrivals packet actor frame).Watching := by
      refine hwatching.of_owes rfl fun pid hpid => Or.inl ?_
      have hpid' : store.Owes pid := hpid
      rw [← hstore] at hpid'
      exact owes_adjustWaitCount hready.inv.core.store hpid'
    exact hturn.watching hinv' hadmitted fun hundo _ => hwatched hundo

/-! ### Scans -/

lemma ScansSlot.watching (hinv : b.Inv) (h : b.Watching) {i : Fin maxUndoProcesses}
    (hs : b.ScansSlot i b') : b'.Watching := by
  have hretired : ∀ now, (b.watchers i).active = true → (b.retired i now).Watching := by
    intro now hactive
    -- what is left in the table belongs to other processes
    have hothers : ∀ pid, (b.retired i now).store.Owes pid →
        pid ≠ (b.watchers i).pid ∧ b.store.Owes pid := by
      intro pid hpid
      by_cases hpos : 0 < (b.watchers i).pid
      · exact SemStore.owes_processExit hinv.core.store hpos hpid
      · rw [retired, SemStore.processExit, if_pos (Int32.not_lt.mp hpos)] at hpid
        refine ⟨?_, hpid⟩
        rintro rfl
        exact hpos (h.positive _ hpid)
    refine ⟨?_, fun pid hpid => h.positive pid (hothers pid hpid).2, ?_⟩
    · exact h.distinct.update fun hfree => by cases hfree
    · intro pid hpid
      obtain ⟨hne, hbefore⟩ := hothers pid hpid
      obtain ⟨j, hj, hjpid⟩ := watched_iff.mp (h.covered pid hbefore)
      have hji : j ≠ i := by
        rintro rfl
        exact hne hjpid.symm
      refine watched_iff.mpr ⟨j, ?_⟩
      simp only [retired, Function.update_of_ne hji]
      exact ⟨hj, hjpid⟩
  cases hs with
  | skipped => exact h
  | announced now hactive => exact (hretired now hactive).of_owes rfl fun _ => Or.inl
  | silent now hactive hsets => exact hretired now hactive

/-! ### Runs -/

lemma Steps.watching (hinv : b.Inv) (h : b.Watching) {event : Event}
    (hcond : b.retriesWatched event = true) (hs : b.Steps event b') : b'.Watching := by
  cases hs with
  | arrived harrived => exact harrived.watching hinv h
  | @woken r view packet actor frame b' hr hturn =>
    exact hturn.watching hinv.core.store h (watched_of_retriesWatched hcond hr)
  | scanned hscan =>
    have hboth : b'.Inv ∧ b'.Watching :=
      scan_invariant (I := fun b => b.Inv ∧ b.Watching)
        (fun _ _ _ hb hs => ⟨hb.1.scansSlot hs, hs.watching hb.1 hb.2⟩) ⟨hinv, h⟩ hscan
    exact hboth.2
  | moved processes hruns => exact h.of_owes rfl fun _ => Or.inl

/-- In the runs where no waiter is retried with success after the watcher of its process was
retired, each active undo entry has exactly one active watcher of its process. -/
theorem undo_entries_watched {events : List Event}
    (hexec : Transition.exec step create events = some b)
    (hmeets : Transition.Along step (fun b event => b.retriesWatched event = true) create events)
    (k : Fin semMaxUndoEntries)
    (hk : (b.store.undoEntries k).active = true) :
    ∃! i, (b.watchers i).active = true ∧ (b.watchers i).pid = (b.store.undoEntries k).pid := by
  have hboth : b.Inv ∧ b.Watching := by
    refine Transition.exec_invariant_along (I := fun b => b.Inv ∧ b.Watching) ?_
      ⟨inv_create, watching_create⟩ hmeets hexec
    rintro c event c' ⟨hinv, hwatching⟩ hcond hstep
    obtain ⟨hsteps, hinv'⟩ := hinv.steps hstep
    exact ⟨hinv', hsteps.watching hinv hwatching hcond⟩
  obtain ⟨i, hi, hpid⟩ := watched_iff.mp (hboth.2.covered _ ⟨k, hk, rfl⟩)
  refine ⟨i, ⟨hi, hpid⟩, ?_⟩
  rintro j ⟨hj, hjpid⟩
  exact hboth.2.distinct j i hj hi (hjpid.trans hpid.symm)

/-- A process waits under `SEM_UNDO` for a unit, as request 1. -/
def waitWithUndo : List Event :=
  [.startProcess 42, createSet,
    call (semopRequest (fun _ => 0) (makeId 0 1) [⟨0, -1, 0o10000⟩] none) 42]

/-- Another process provides the unit and the waiter is woken. -/
def provideUnit : List Event :=
  [call (setvalRequest (fun _ => 0) (makeId 0 1) 0 1) 43, wakeUp 1 false]

def firstEntry : Fin semMaxUndoEntries := ⟨0, by decide +kernel⟩

theorem undo_entries_watched_provideUnit :
    ∃ b k, Transition.exec step create (waitWithUndo ++ provideUnit) = some b ∧
      (b.store.undoEntries k).active = true ∧
      ∃! i, (b.watchers i).active = true ∧ (b.watchers i).pid = (b.store.undoEntries k).pid := by
  have hmeets : Transition.checkAlong step retriesWatched create (waitWithUndo ++ provideUnit) =
      true := by
    decide +kernel
  have hrun : (Transition.exec step create (waitWithUndo ++ provideUnit)).any
      (fun b => (b.store.undoEntries firstEntry).active) = true := by
    decide +kernel
  obtain ⟨b, hb, hactive⟩ := (Option.any_eq_true _ _).mp hrun
  exact ⟨b, _, hb, hactive,
    undo_entries_watched hb (Transition.along_of_checkAlong hmeets) _ hactive⟩

def firstWatcher : Fin maxUndoProcesses := ⟨0, by decide +kernel⟩

/-- The process ends while its request waits, and the monitor retires the watcher. -/
def endThenScan : List Event :=
  [.endProcess 42, .scan (fun i => decide (i = firstWatcher)) fun _ _ => 6]

/-- The connection of an ended process may still be open. Its waiter is retried after the watcher
was retired, and makes an entry that nobody watches. -/
theorem entry_of_ended_process_unwatched :
    ∃ b k, Transition.exec step create (waitWithUndo ++ endThenScan ++ provideUnit) = some b ∧
      (b.store.undoEntries k).active = true ∧ (b.store.undoEntries k).pid = 42 ∧
      ¬ ∃ i, (b.watchers i).active = true ∧ (b.watchers i).pid = 42 := by
  have hrun : (Transition.exec step create (waitWithUndo ++ [.endProcess 42])).any (fun b =>
      (Table.firstIndex fun k => (b.store.undoEntries k).active).isNone &&
      ((b.watchers firstWatcher).active && decide (0 < (b.watchers firstWatcher).pid) &&
        b.hasExited (b.watchers firstWatcher)) &&
      (Transition.exec step { b with
          watchers := Function.update b.watchers firstWatcher ProcessWatcher.free } provideUnit).any
        fun b => (b.store.undoEntries firstEntry).active &&
          decide ((b.store.undoEntries firstEntry).pid = 42) && !b.watched 42) = true := by
    decide +kernel
  obtain ⟨b₁, hb₁, hcheck⟩ := (Option.any_eq_true _ _).mp hrun
  simp only [Bool.and_eq_true, decide_eq_true_eq, Option.isNone_iff_eq_none] at hcheck
  obtain ⟨⟨hnone, ⟨hactive, hpos⟩, hexited⟩, hend⟩ := hcheck
  obtain ⟨b, hb, hcheck⟩ := (Option.any_eq_true _ _).mp hend
  simp only [Bool.and_eq_true, decide_eq_true_eq, Bool.not_eq_true'] at hcheck
  obtain ⟨⟨hentry, hpid⟩, hunwatched⟩ := hcheck
  have hscan : b₁.step (.scan (fun i => decide (i = firstWatcher)) fun _ _ => 6) = some _ :=
    scan_idle hactive hexited hpos (Table.firstIndex_eq_none.mp hnone) _
  refine ⟨b, _, ?_, hentry, hpid, fun hwatched => ?_⟩
  · have hsplit : waitWithUndo ++ endThenScan ++ provideUnit = (waitWithUndo ++ [.endProcess 42]) ++
        (.scan (fun i => decide (i = firstWatcher)) fun _ _ => 6) :: provideUnit := by
      simp [endThenScan]
    rw [hsplit, Transition.exec_append, hb₁, Option.bind_some, Transition.exec_cons, hscan,
      Option.bind_some, hb]
  · rw [watched_iff.mpr hwatched] at hunwatched
    cases hunwatched

end Broker

end Tgcompat
