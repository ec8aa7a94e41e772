import Tgcompat.Broker.Arrival

/-!
# The monitor, and runs of the broker

A scan of the monitor retires the watchers of processes that have exited. With that, every event
of the broker keeps the invariant, and so it holds in every reachable state.
-/

namespace Tgcompat

lemma SemStore.keepsValues_of_sets {st st' : SemStore} (h : st'.sets = st.sets) :
    st.KeepsValues st' := by
  intro id i hf
  have hfind : st'.findSet id = st.findSet id :=
    findSet_congr (fun j => by rw [h]) (fun j => by rw [h]) id
  exact ⟨hfind.trans hf, by rw [h], by rw [h]⟩

namespace Broker

variable {b b' : Broker}

/-! ### One slot of the scan -/

/-- The broker after the watcher of an exited process is retired, before anybody is notified. -/
def retired (b : Broker) (i : Fin maxUndoProcesses) (now : Fin semMaxUndoEntries → Int64) :
    Broker :=
  { b with
    store := (b.store.processExit (b.watchers i).pid now).2
    watchers := Function.update b.watchers i ProcessWatcher.free }

/-- What the scan does at one slot: nothing, or it retires the watcher and wakes everybody if a
value was restored. -/
inductive ScansSlot (b : Broker) (i : Fin maxUndoProcesses) : Broker → Prop
  | skipped : ScansSlot b i b
  | announced (now : Fin semMaxUndoEntries → Int64) (hactive : (b.watchers i).active = true) :
      ScansSlot b i (b.retired i now).broadcast
  | silent (now : Fin semMaxUndoEntries → Int64) (hactive : (b.watchers i).active = true)
      (hsets : (b.retired i now).store.sets = b.store.sets) :
      ScansSlot b i (b.retired i now)

lemma scansSlot (exited : Fin maxUndoProcesses → Bool)
    (now : Fin maxUndoProcesses → Fin semMaxUndoEntries → Int64) (b : Broker)
    (i : Fin maxUndoProcesses) : b.ScansSlot i (scanWatcher exited now b i) := by
  rw [scanWatcher]
  by_cases hskip : (b.watchers i).active = false ∨ exited i = false
  · rw [if_pos hskip]
    exact .skipped
  · rw [if_neg hskip]
    rw [not_or, Bool.not_eq_false] at hskip
    simp only
    by_cases hchanged : (b.store.processExit (b.watchers i).pid (now i)).1 > 0
    · rw [if_pos hchanged]
      exact .announced (now i) hskip.1
    · rw [if_neg hchanged]
      exact .silent (now i) hskip.1 (b.store.processExit_quiet _ _ hchanged)

lemma Core.retired (h : b.Core) (i : Fin maxUndoProcesses)
    (now : Fin semMaxUndoEntries → Int64) : (b.retired i now).Core :=
  h.congr (h.store.processExit _ now) rfl rfl rfl rfl

lemma Inv.scansSlot (h : b.Inv) {i : Fin maxUndoProcesses} (hs : b.ScansSlot i b') : b'.Inv := by
  cases hs with
  | skipped => exact h
  | announced now hactive => exact (h.core.retired i now).broadcast
  | silent now hactive hsets =>
    exact ⟨h.core.retired i now, h.heads.congr (SemStore.keepsValues_of_sets hsets) rfl⟩

/-- A property kept at every slot is kept by a scan. -/
lemma scan_invariant {I : Broker → Prop} (hslot : ∀ b i b', I b → b.ScansSlot i b' → I b')
    {exited : Fin maxUndoProcesses → Bool}
    {now : Fin maxUndoProcesses → Fin semMaxUndoEntries → Int64} (h : I b)
    (heq : b.scan exited now = some b') : I b' := by
  rw [scan] at heq
  split_ifs at heq with hall
  cases heq
  exact Transition.foldl_invariant (fun b i hb => hslot b i _ hb (scansSlot exited now b i)) h _

/-- A scan that finds one exited process. -/
lemma scan_single {i : Fin maxUndoProcesses} (hexited : b.hasExited (b.watchers i) = true)
    (now : Fin maxUndoProcesses → Fin semMaxUndoEntries → Int64) :
    b.scan (fun j => decide (j = i)) now =
      some (scanWatcher (fun j => decide (j = i)) now b i) := by
  rw [scan, if_pos]
  · have hskip : ∀ c j, j ≠ i → scanWatcher (fun j => decide (j = i)) now c j = c := by
      intro c j hj
      rw [scanWatcher, if_pos (Or.inr (by simpa using hj))]
    rw [Fold.foldl_single hskip (List.nodup_finRange _) (List.mem_finRange i)]
  · rw [List.all_eq_true]
    intro j _
    by_cases hj : j = i
    · rw [hj, hexited, Bool.or_true]
    · simp [hj]

/-- A scan that finds one exited process, which has no entries. -/
lemma scan_idle {i : Fin maxUndoProcesses} (hactive : (b.watchers i).active = true)
    (hexited : b.hasExited (b.watchers i) = true) (hpid : 0 < (b.watchers i).pid)
    (hidle : ∀ k, (b.store.undoEntries k).active = false)
    (now : Fin maxUndoProcesses → Fin semMaxUndoEntries → Int64) :
    b.scan (fun j => decide (j = i)) now =
      some { b with watchers := Function.update b.watchers i ProcessWatcher.free } := by
  have hexit : b.store.processExit (b.watchers i).pid (now i) = (0, b.store) := by
    refine b.store.processExit_idle hpid (now i) ?_
    rintro k ⟨hk, -⟩
    rw [hidle k] at hk
    cases hk
  rw [scan_single hexited]
  simp [scanWatcher, hactive, hexit]

/-! ### Every event -/

lemma wake_request {r : ℕ} {view : WakeView} (h : b.wake r view = some b') :
    ∃ packet actor frame, b.requests r = some ⟨packet, actor, .waiting frame⟩ := by
  rw [wake] at h
  split at h
  · next packet actor frame hr => exact ⟨packet, actor, frame, hr⟩
  · cases h

/-- Only the processes change. -/
lemma moveProcess_eq {pid : Int32} {source target : ProcessPhase} {incarnation : ℕ}
    (h : b.moveProcess pid source target incarnation = some b') :
    ∃ processes, b' = { b with processes := processes } := by
  rw [moveProcess] at h
  split_ifs at h
  cases h
  exact ⟨_, rfl⟩

/-- The request an event runs. -/
def Event.runs (b : Broker) : Event → Option ℕ
  | .arrive _ _ _ => some b.arrivals
  | .wake r _ => some r
  | _ => none

/-- What an event does to the broker. -/
inductive Steps (b : Broker) : Event → Broker → Prop
  | arrived {packet : ProtocolPacket} {actor : BrokerActor} {view : ArrivalView} {b' : Broker}
      (h : b.Arrived packet actor view b') : Steps b (.arrive packet actor view) b'
  | woken {r : ℕ} {view : WakeView} {packet : ProtocolPacket} {actor : BrokerActor} {frame : Frame}
      {b' : Broker} (hr : b.requests r = some ⟨packet, actor, .waiting frame⟩)
      (h : b.Turn r packet actor frame view.iteration b') : Steps b (.wake r view) b'
  | scanned {exited : Fin maxUndoProcesses → Bool}
      {now : Fin maxUndoProcesses → Fin semMaxUndoEntries → Int64} {b' : Broker}
      (h : b.scan exited now = some b') : Steps b (.scan exited now) b'
  | moved {event : Event} (processes : Int32 → Process) (hruns : event.runs b = none) :
      Steps b event { b with processes := processes }

/-- An event that runs a request which is already there wakes it. -/
lemma Steps.woken_of_runs (hinv : b.Inv) {event : Event} (h : b.Steps event b') {r : ℕ}
    (hruns : some r = event.runs b) {q : Request} (hr : b.requests r = some q) :
    ∃ view frame, event = .wake r view ∧ q.status = .waiting frame ∧
      b.Turn r q.packet q.actor frame view.iteration b' := by
  cases h with
  | arrived harrived =>
    cases hruns
    rw [(hinv.core.fresh b.arrivals le_rfl).1] at hr
    cases hr
  | woken hwaiting hturn =>
    cases hruns
    cases hr.symm.trans hwaiting
    exact ⟨_, _, rfl, rfl, hturn⟩
  | scanned hscan => cases hruns
  | moved processes hnone =>
    rw [hnone] at hruns
    cases hruns

theorem Inv.steps (h : b.Inv) {event : Event} (hstep : b.step event = some b') :
    b.Steps event b' ∧ b'.Inv := by
  have hmoved : ∀ processes, Inv { b with processes := processes } := fun processes =>
    ⟨h.core.congr h.core.store rfl rfl rfl rfl,
      h.heads.congr (SemStore.KeepsValues.refl b.store) rfl⟩
  cases event with
  | arrive packet actor view =>
    obtain ⟨harrived, hinv⟩ := h.arrive hstep
    exact ⟨.arrived harrived, hinv⟩
  | wake r view =>
    obtain ⟨packet, actor, frame, hr⟩ := wake_request hstep
    obtain ⟨b'', heq, hturn, hinv⟩ := h.wake hr view
    cases hstep.symm.trans heq
    exact ⟨.woken hr hturn, hinv⟩
  | scan exited now =>
    exact ⟨.scanned hstep, scan_invariant (fun _ _ _ hb hs => hb.scansSlot hs) h hstep⟩
  | startProcess pid | endProcess pid | reapProcess pid =>
    obtain ⟨processes, rfl⟩ := moveProcess_eq hstep
    exact ⟨.moved processes rfl, hmoved processes⟩

theorem inv_reachable (h : b.Reachable) : b.Inv := by
  obtain ⟨events, hexec⟩ := h
  exact Transition.exec_invariant (fun _ _ _ hinv hstep => (hinv.steps hstep).2) inv_create hexec

end Broker

end Tgcompat
