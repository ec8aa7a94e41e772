import Tgcompat.Broker.Watching
import Tgcompat.Broker.WaitReasons

/-!
# Undo and the reuse of pids

A watcher belongs to one incarnation of a pid, while `watch_process` and the undo table only know
the pid. A process that gets the pid of another one before the monitor has retired the watcher of
that one is not watched itself: the next scan restores its adjustments while it runs. When no
request finds the watcher of an earlier incarnation, every adjustment belongs to the incarnation
that is watched.

`Tracked` adds to the broker what it does not know: which incarnation opened the connection of a
request, and which incarnations have registered adjustments.
-/

namespace Tgcompat

namespace Broker

variable {b b₁ b' : Broker} {r : ℕ} {packet : ProtocolPacket} {actor : BrokerActor}
  {frame : Frame} {pid : Int32} {m : ℕ}

/-- The incarnation is the one that has the pid, and runs. -/
def live (b : Broker) (pid : Int32) (m : ℕ) : Bool :=
  decide ((b.processes pid).incarnation = m ∧ (b.processes pid).phase = .running)

/-- The watcher that `watch_process` finds. -/
def watcherOf (b : Broker) (pid : Int32) : Option ProcessWatcher :=
  (Table.firstIndex fun i => (b.watchers i).active && decide ((b.watchers i).pid = pid)).map
    b.watchers

/-- The incarnation has a watcher of its own. -/
def Watches (b : Broker) (pid : Int32) (m : ℕ) : Prop :=
  ∃ i, (b.watchers i).active = true ∧ (b.watchers i).pid = pid ∧
    (b.watchers i).incarnation = m

lemma live_iff : b.live pid m = true ↔
    (b.processes pid).incarnation = m ∧ (b.processes pid).phase = .running :=
  decide_eq_true_iff

lemma live_congr (h : b'.processes = b.processes) (pid : Int32) (m : ℕ) :
    b'.live pid m = b.live pid m := by
  rw [live, live, h]

lemma Watches.congr (h : b.Watches pid m) (hwatchers : b'.watchers = b.watchers) :
    b'.Watches pid m := by
  rw [Watches, hwatchers]
  exact h

/-- A watched pid has a watcher of some incarnation, the one that `watch_process` finds. -/
lemma watches_of_watcherOf (hwatched : b.watched pid = true)
    (hown : (b.watcherOf pid).all (fun watcher => decide (watcher.incarnation = m)) = true) :
    b.Watches pid m := by
  obtain ⟨i, hi⟩ := Option.isSome_iff_exists.mp hwatched
  rw [watcherOf, hi, Option.map_some, Option.all_some, decide_eq_true_eq] at hown
  have hspec := Table.firstIndex_spec hi
  rw [Bool.and_eq_true, decide_eq_true_eq] at hspec
  exact ⟨i, hspec.1, hspec.2, hown⟩

/-! ### What an event does to the watchers -/

/-- How the watchers change before the first dispatch of a request. -/
inductive Rewatched (b : Broker) (packet : ProtocolPacket) (actor : BrokerActor)
    (watchers : Fin maxUndoProcesses → ProcessWatcher) : Prop
  | kept (hwatchers : watchers = b.watchers)
      (hwatched : requestUsesUndo packet = true → b.watched actor.pid = true)
  | opened (i : Fin maxUndoProcesses) (watcher : ProcessWatcher)
      (hnot : b.watched actor.pid = false) (hfree : (b.watchers i).active = false)
      (hactive : watcher.active = true) (hpid : watcher.pid = actor.pid)
      (hcurrent : watcher.incarnation = (b.processes actor.pid).incarnation)
      (hwatchers : watchers = Function.update b.watchers i watcher)

lemma Prepared.rewatched {view : ArrivalView} (h : b.Prepared packet actor view b₁) :
    b.Rewatched packet actor b₁.watchers ∧ b₁.processes = b.processes := by
  cases h with
  | plain hundo =>
    refine ⟨.kept rfl fun hused => ?_, rfl⟩
    rw [hundo] at hused
    cases hused
  | watched hundo hsound hresult =>
    rcases watchProcess_cases b.numbered actor.pid view.lookup with ⟨result, hneg, heq⟩ |
      ⟨hwatched, heq⟩ | ⟨i, watcher, hnot, hfree, hactive, hpid, hcurrent, -, heq⟩
    · rw [heq] at hresult
      have hzero : result = 0 := hresult
      rw [hzero] at hneg
      exact absurd hneg (by decide)
    · rw [heq]
      exact ⟨.kept rfl fun _ => hwatched, rfl⟩
    · rw [heq]
      exact ⟨.opened i watcher hnot hfree hactive hpid hcurrent rfl, rfl⟩

lemma Turn.keeps_watchers {view : IterationView} (h : b.Turn r packet actor frame view b') :
    b'.watchers = b.watchers ∧ b'.processes = b.processes := by
  cases h with
  | left | slept => exact ⟨rfl, rfl⟩

/-- An arrival returns without a trace, or reaches its first dispatch with its process watched if
it has to be. -/
lemma Arrived.rewatched {view : ArrivalView} (h : b.Arrived packet actor view b') :
    b'.processes = b.processes ∧
      (b.Rewatched packet actor b'.watchers ∨
        b'.watchers = b.watchers ∧ b'.applied = b.applied ∧ b'.frame? b.arrivals = none) := by
  cases h with
  | unlocked | unwatched => exact ⟨rfl, Or.inr ⟨rfl, rfl, frame?_setStatus_finished _⟩⟩
  | @answered b₁ ret response store exit hprepared hdispatch hquit hexit =>
    obtain ⟨hwatch, hprocesses⟩ := hprepared.rewatched
    rw [Broker.answered]
    split_ifs
    · exact ⟨hprocesses, Or.inl hwatch⟩
    · exact ⟨hprocesses, Or.inl hwatch⟩
  | unqueued hprepared hret hexit =>
    obtain ⟨hwatch, hprocesses⟩ := hprepared.rewatched
    exact ⟨hprocesses, Or.inl hwatch⟩
  | queued operations hprepared hlive hblocks hcount henters hturn =>
    obtain ⟨hwatch, hprocesses⟩ := hprepared.rewatched
    obtain ⟨hwatchers, hprocesses'⟩ := hturn.keeps_watchers
    rw [hwatchers, hprocesses']
    exact ⟨hprocesses, Or.inl hwatch⟩

lemma Rewatched.distinct {watchers : Fin maxUndoProcesses → ProcessWatcher}
    (h : b.Rewatched packet actor watchers) (hd : watcherKeyed.Distinct b.watchers) :
    watcherKeyed.Distinct watchers := by
  cases h with
  | kept hwatchers => rwa [hwatchers]
  | opened i watcher hnot hfree hactive hpid hcurrent hwatchers =>
    rw [hwatchers]
    refine hd.update fun _ j _ hj hjpid => ?_
    have hwatched : b.watched actor.pid = true := watched_iff.mpr ⟨j, hj, hjpid.trans hpid⟩
    rw [hnot] at hwatched
    cases hwatched

/-- A watcher stays where it is. -/
lemma Rewatched.watches {watchers : Fin maxUndoProcesses → ProcessWatcher}
    (h : b.Rewatched packet actor watchers) (hwatchers : b'.watchers = watchers)
    (hwatches : b.Watches pid m) : b'.Watches pid m := by
  cases h with
  | kept hsame => exact hwatches.congr (hwatchers.trans hsame)
  | opened i watcher hnot hfree hactive hpid hcurrent hupdate =>
    obtain ⟨j, hj, hrest⟩ := hwatches
    have hji : j ≠ i := by
      rintro rfl
      rw [hfree] at hj
      cases hj
    refine ⟨j, ?_⟩
    rw [hwatchers, hupdate, Function.update_of_ne hji]
    exact ⟨hj, hrest⟩

/-- A request that uses `SEM_UNDO` and finds no watcher of another incarnation leaves its own
incarnation watched. -/
lemma Rewatched.own {watchers : Fin maxUndoProcesses → ProcessWatcher}
    (h : b.Rewatched packet actor watchers) (hwatchers : b'.watchers = watchers)
    (hundo : requestUsesUndo packet = true) (hcurrent : (b.processes actor.pid).incarnation = m)
    (hown : (b.watcherOf actor.pid).all (fun watcher => decide (watcher.incarnation = m)) = true) :
    b'.Watches actor.pid m := by
  cases h with
  | kept hsame hwatched =>
    exact (watches_of_watcherOf (hwatched hundo) hown).congr (hwatchers.trans hsame)
  | opened i watcher hnot hfree hactive hpid hnew hupdate =>
    refine ⟨i, ?_⟩
    rw [hwatchers, hupdate, Function.update_self]
    exact ⟨hactive, hpid, hnew.trans hcurrent⟩

/-- A request with `SEM_UNDO` of a live incarnation that is applied on its arrival or waits after
it has left its incarnation watched. -/
lemma Arrived.own {view : ArrivalView} (h : b.Arrived packet actor view b')
    (hundo : requestUsesUndo packet = true) (hlive : b.live actor.pid m = true)
    (hown : (b.watcherOf actor.pid).all (fun watcher => decide (watcher.incarnation = m)) = true)
    (hdone : b.applied b.arrivals < b'.applied b.arrivals ∨ b'.frame? b.arrivals ≠ none) :
    b'.Watches actor.pid m := by
  rcases h.rewatched.2 with hwatch | ⟨-, happlied, hframe⟩
  · exact hwatch.own rfl hundo (live_iff.mp hlive).1 hown
  · rcases hdone with hlt | hne
    · rw [happlied] at hlt
      exact absurd hlt (lt_irrefl _)
    · exact absurd hframe hne

/-- The scan at a slot whose process was found to have exited. -/
lemma scanWatcher_retires {i : Fin maxUndoProcesses} (hactive : (b.watchers i).active = true)
    (exited : Fin maxUndoProcesses → Bool) (hexited : exited i = true)
    (now : Fin maxUndoProcesses → Fin semMaxUndoEntries → Int64) :
    (scanWatcher exited now b i).store = (b.store.processExit (b.watchers i).pid (now i)).2 ∧
      (scanWatcher exited now b i).watchers =
        Function.update b.watchers i ProcessWatcher.free ∧
      (scanWatcher exited now b i).processes = b.processes := by
  rw [scanWatcher, if_neg (by simp [hactive, hexited])]
  simp only
  split_ifs
  · exact ⟨rfl, rfl, rfl⟩
  · exact ⟨rfl, rfl, rfl⟩

/-- A scan retires watchers of incarnations that have ended, and changes nothing else about the
processes. -/
lemma scan_watchers {exited : Fin maxUndoProcesses → Bool}
    {now : Fin maxUndoProcesses → Fin semMaxUndoEntries → Int64}
    (h : b.scan exited now = some b') :
    b'.processes = b.processes ∧ ∀ i, b'.watchers i = b.watchers i ∨
      (b'.watchers i = ProcessWatcher.free ∧ (b.watchers i).active = true ∧ exited i = true ∧
        b.hasExited (b.watchers i) = true) := by
  rw [scan] at h
  split_ifs at h with hall
  cases h
  rw [List.all_eq_true] at hall
  refine Transition.foldl_invariant (I := fun c : Broker =>
    c.processes = b.processes ∧ ∀ i, c.watchers i = b.watchers i ∨
      (c.watchers i = ProcessWatcher.free ∧ (b.watchers i).active = true ∧ exited i = true ∧
        b.hasExited (b.watchers i) = true)) ?_ ⟨rfl, fun _ => Or.inl rfl⟩ _
  rintro c i ⟨hprocesses, hwatchers⟩
  by_cases hskip : (c.watchers i).active = false ∨ exited i = false
  · rw [scanWatcher, if_pos hskip]
    exact ⟨hprocesses, hwatchers⟩
  · simp only [not_or, Bool.not_eq_false] at hskip
    obtain ⟨hactive, hexited⟩ := hskip
    obtain ⟨-, hretired, hkept⟩ := scanWatcher_retires hactive exited hexited now
    have hsame : c.watchers i = b.watchers i := by
      rcases hwatchers i with hsame | ⟨hfree, -⟩
      · exact hsame
      · rw [hfree] at hactive
        cases hactive
    rw [hsame] at hactive
    have hended : b.hasExited (b.watchers i) = true := by
      have hi := hall i (List.mem_finRange i)
      rwa [hactive, hexited, Bool.not_true, Bool.false_or, Bool.false_or] at hi
    refine ⟨hkept.trans hprocesses, fun j => ?_⟩
    rw [hretired]
    by_cases hji : j = i
    · subst hji
      rw [Function.update_self]
      exact Or.inr ⟨rfl, hactive, hexited, hended⟩
    · rw [Function.update_of_ne hji]
      exact hwatchers j

/-- `process_exit` runs for the pid. -/
def exits (b : Broker) (event : Event) (pid : Int32) : Bool :=
  match event with
  | .scan exited _ =>
    (Table.firstIndex fun i =>
      (b.watchers i).active && exited i && decide ((b.watchers i).pid = pid)).isSome
  | _ => false

lemma hasExited_of_live {watcher : ProcessWatcher}
    (h : b.live watcher.pid watcher.incarnation = true) : b.hasExited watcher = false := by
  obtain ⟨hcurrent, hrunning⟩ := live_iff.mp h
  simp [hasExited, hcurrent, hrunning]

lemma step_distinct (hinv : b.Inv) {event : Event} (hstep : b.step event = some b')
    (hd : watcherKeyed.Distinct b.watchers) : watcherKeyed.Distinct b'.watchers := by
  cases event with
  | arrive packet actor view =>
    rcases (hinv.arrive hstep).1.rewatched.2 with hwatch | ⟨hsame, -⟩
    · exact hwatch.distinct hd
    · rwa [hsame]
  | wake r view =>
    obtain ⟨packet, actor, frame, hr⟩ := wake_request hstep
    obtain ⟨b'', heq, hturn, -⟩ := hinv.wake hr view
    cases hstep.symm.trans heq
    rwa [hturn.keeps_watchers.1]
  | scan exited now =>
    refine hd.of_live_le fun i hi => ?_
    rcases (scan_watchers hstep).2 i with hsame | ⟨hfree, -⟩
    · rw [hsame] at hi ⊢
      exact ⟨hi, rfl⟩
    · rw [hfree] at hi
      cases hi
  | startProcess pid | endProcess pid | reapProcess pid =>
    obtain ⟨processes, rfl⟩ := moveProcess_eq hstep
    exact hd

/-- A watcher stays unless `process_exit` runs for its pid, and then too if its incarnation is
live. -/
lemma step_watches (hinv : b.Inv) {event : Event} (hstep : b.step event = some b')
    (hwatches : b.Watches pid m) (hkeep : b.exits event pid = false ∨ b.live pid m = true) :
    b'.Watches pid m := by
  cases event with
  | arrive packet actor view =>
    rcases (hinv.arrive hstep).1.rewatched.2 with hwatch | ⟨hsame, -⟩
    · exact hwatch.watches rfl hwatches
    · exact hwatches.congr hsame
  | wake r view =>
    obtain ⟨packet, actor, frame, hr⟩ := wake_request hstep
    obtain ⟨b'', heq, hturn, -⟩ := hinv.wake hr view
    cases hstep.symm.trans heq
    exact hwatches.congr hturn.keeps_watchers.1
  | scan exited now =>
    obtain ⟨i, hactive, rfl, rfl⟩ := hwatches
    rcases (scan_watchers hstep).2 i with hsame | ⟨-, -, hexited, hended⟩
    · exact ⟨i, by rw [hsame]; exact ⟨hactive, rfl, rfl⟩⟩
    · rcases hkeep with hnot | hlive
      · rw [exits, Option.isSome_eq_false_iff, Option.isNone_iff_eq_none,
          Table.firstIndex_eq_none] at hnot
        simpa [hactive, hexited] using hnot i
      · rw [hasExited_of_live hlive] at hended
        cases hended
  | startProcess pid | endProcess pid | reapProcess pid =>
    obtain ⟨processes, rfl⟩ := moveProcess_eq hstep
    exact hwatches

/-! ### What an event does to the processes -/

/-- No process becomes live except a new one, which has a new incarnation. -/
structure Ages (b b' : Broker) : Prop where
  incarnation : ∀ pid, (b.processes pid).incarnation ≤ (b'.processes pid).incarnation
  live : ∀ pid m, b'.live pid m = true →
    b.live pid m = true ∨ (b.processes pid).incarnation < m

lemma ages_of_processes (h : b'.processes = b.processes) : b.Ages b' where
  incarnation pid := by rw [h]
  live pid m hlive := Or.inl (by rwa [live_congr h] at hlive)

/-- A process that moves gets a new incarnation when it starts to run. -/
lemma ages_moveProcess {source target : ProcessPhase} {n : ℕ}
    (h : b.moveProcess pid source target n = some b')
    (hle : (b.processes pid).incarnation ≤ n)
    (hnew : target = .running → (b.processes pid).incarnation < n) : b.Ages b' := by
  rw [moveProcess] at h
  split_ifs at h
  cases h
  refine ⟨fun p => ?_, fun p m hlive => ?_⟩
  · by_cases hp : p = pid
    · subst hp
      simpa using hle
    · simp [Function.update_of_ne hp]
  · by_cases hp : p = pid
    · subst hp
      rw [live_iff] at hlive
      simp only [Function.update_self] at hlive
      obtain ⟨rfl, hrunning⟩ := hlive
      exact Or.inr (hnew hrunning)
    · rw [live_iff] at hlive ⊢
      simp only [Function.update_of_ne hp] at hlive
      exact Or.inl hlive

lemma step_ages (hinv : b.Inv) {event : Event} (hstep : b.step event = some b') : b.Ages b' := by
  cases event with
  | arrive packet actor view => exact ages_of_processes (hinv.arrive hstep).1.rewatched.1
  | wake r view =>
    obtain ⟨packet, actor, frame, hr⟩ := wake_request hstep
    obtain ⟨b'', heq, hturn, -⟩ := hinv.wake hr view
    cases hstep.symm.trans heq
    exact ages_of_processes hturn.keeps_watchers.2
  | scan exited now => exact ages_of_processes (scan_watchers hstep).1
  | startProcess pid =>
    exact ages_moveProcess hstep (Nat.le_succ _) fun _ => Nat.lt_succ_self _
  | endProcess pid | reapProcess pid =>
    refine ages_moveProcess hstep le_rfl fun hrunning => ?_
    cases hrunning

end Broker

/-! ### The tracked broker -/

/-- The broker with the incarnation that opened the connection of each request, and the
incarnations with pending adjustments: those that were live when a request of theirs with
`SEM_UNDO` was applied, until `process_exit` runs for their pid. -/
structure Tracked where
  broker : Broker
  sender : ℕ → ℕ
  owners : Int32 → ℕ → Bool

/-- An event, with the incarnation that opened the connection if a request arrives. -/
structure TrackedEvent where
  event : Broker.Event
  sender : ℕ

namespace Tracked

def create : Tracked where
  broker := Broker.create
  sender := fun _ => 0
  owners := fun _ _ => false

/-- The connection was opened by an incarnation that exists or has existed. -/
def senderSound (t : Tracked) (e : TrackedEvent) : Bool :=
  match e.event with
  | .arrive _ actor _ =>
    decide (0 < e.sender ∧ e.sender ≤ (t.broker.processes actor.pid).incarnation)
  | _ => true

/-- The senders after an event. -/
def senders (t : Tracked) (e : TrackedEvent) : ℕ → ℕ :=
  match e.event with
  | .arrive _ _ _ => Function.update t.sender t.broker.arrivals e.sender
  | _ => t.sender

/-- The event has applied a request with `SEM_UNDO` of this incarnation, which is live. -/
def registers (b b' : Broker) (sender : ℕ → ℕ) (event : Broker.Event) (pid : Int32) (m : ℕ) :
    Bool :=
  (event.runs b).any fun r =>
    decide (b.applied r < b'.applied r ∧ sender r = m) && b'.live pid m &&
      (b'.requests r).any fun request =>
        decide (request.actor.pid = pid) && requestUsesUndo request.packet

def step (t : Tracked) (e : TrackedEvent) : Option Tracked :=
  if t.senderSound e = false then none
  else
    (t.broker.step e.event).map fun b' =>
      { broker := b'
        sender := t.senders e
        owners := fun pid m => (t.owners pid m && !t.broker.exits e.event pid) ||
          registers t.broker b' (t.senders e) e.event pid m }

/-- The condition on a step: a request with `SEM_UNDO` of a live incarnation does not find the
watcher of another incarnation. -/
def findsOwnWatcher (t : Tracked) (e : TrackedEvent) : Bool :=
  match e.event with
  | .arrive packet actor _ =>
    !(requestUsesUndo packet && t.broker.live actor.pid e.sender) ||
      (t.broker.watcherOf actor.pid).all fun watcher => decide (watcher.incarnation = e.sender)
  | _ => true

variable {t t' : Tracked} {e : TrackedEvent}

@[simp] lemma senders_arrive (t : Tracked) (packet : ProtocolPacket) (actor : BrokerActor)
    (view : Broker.ArrivalView) (n : ℕ) :
    t.senders ⟨.arrive packet actor view, n⟩ t.broker.arrivals = n := by
  simp [senders]

lemma step_eq_some (h : t.step e = some t') :
    t.senderSound e = true ∧ t.broker.step e.event = some t'.broker ∧
      t'.sender = t.senders e ∧
      ∀ pid m, t'.owners pid m = true →
        t.owners pid m = true ∧ t.broker.exits e.event pid = false ∨
        registers t.broker t'.broker (t.senders e) e.event pid m = true := by
  rw [step] at h
  split_ifs at h with hsound
  obtain ⟨b', hb', rfl⟩ := Option.map_eq_some_iff.mp h
  refine ⟨Bool.eq_true_of_not_eq_false hsound, hb', rfl, fun pid m howner => ?_⟩
  simpa using howner

lemma inv_exec {events : List TrackedEvent} (h : Transition.exec step create events = some t) :
    t.broker.Inv := by
  refine Transition.exec_invariant (I := fun t => t.broker.Inv) ?_ Broker.inv_create h
  intro t e t' hinv hstep
  exact (hinv.steps (step_eq_some hstep).2.1).2

/-- Every incarnation with adjustments is watched itself, and so is every live one that waits with
`SEM_UNDO`. -/
structure Owned (t : Tracked) : Prop where
  inv : t.broker.Inv
  distinct : Broker.watcherKeyed.Distinct t.broker.watchers
  owners : ∀ pid m, t.owners pid m = true → t.broker.Watches pid m
  waiters : ∀ r packet actor frame,
    t.broker.requests r = some ⟨packet, actor, .waiting frame⟩ →
    requestUsesUndo packet = true → t.broker.live actor.pid (t.sender r) = true →
    t.broker.Watches actor.pid (t.sender r)
  senders : ∀ r packet actor frame,
    t.broker.requests r = some ⟨packet, actor, .waiting frame⟩ →
    t.sender r ≤ (t.broker.processes actor.pid).incarnation

lemma owned_create : create.Owned where
  inv := Broker.inv_create
  distinct := Broker.watching_create.distinct
  owners := by
    intro pid m h
    cases h
  waiters := by
    intro r packet actor frame h
    cases h
  senders := by
    intro r packet actor frame h
    cases h

/-- The sender of a request that has arrived is known. -/
lemma Owned.senders_eq (h : t.Owned) {r : ℕ} {q : Request} (hr : t.broker.requests r = some q)
    (e : TrackedEvent) : t.senders e r = t.sender r := by
  have hne : r ≠ t.broker.arrivals := (h.inv.core.lt_arrivals hr).ne
  obtain ⟨event, sender⟩ := e
  cases event with
  | arrive packet actor view => exact Function.update_of_ne hne _ _
  | _ => rfl

/-- A live incarnation whose request arrives and finds no watcher of another one is watched. -/
lemma watches_of_arrived {packet : ProtocolPacket} {actor : BrokerActor}
    {view : Broker.ArrivalView} {n : ℕ} {b' : Broker}
    (hcond : t.findsOwnWatcher ⟨.arrive packet actor view, n⟩ = true)
    (harrived : t.broker.Arrived packet actor view b') (hundo : requestUsesUndo packet = true)
    (hlive : b'.live actor.pid n = true)
    (hdone : t.broker.applied t.broker.arrivals < b'.applied t.broker.arrivals ∨
      b'.frame? t.broker.arrivals ≠ none) : b'.Watches actor.pid n := by
  rw [Broker.live_congr harrived.rewatched.1] at hlive
  rw [findsOwnWatcher] at hcond
  simp only [hundo, hlive, Bool.and_self, Bool.not_true, Bool.false_or] at hcond
  exact harrived.own hundo hlive hcond hdone

/-- The incarnation whose request an event applies is watched. -/
lemma Owned.registers (h : t.Owned) {b' : Broker} (hstep : t.broker.step e.event = some b')
    (hcond : t.findsOwnWatcher e = true) {pid : Int32} {m : ℕ}
    (hreg : registers t.broker b' (t.senders e) e.event pid m = true) : b'.Watches pid m := by
  obtain ⟨event, n⟩ := e
  obtain ⟨r, hruns, hreg⟩ := (Option.any_eq_true _ _).mp hreg
  simp only [Bool.and_eq_true, decide_eq_true_eq] at hreg
  obtain ⟨⟨⟨happlied, hm⟩, hlive⟩, hrequest⟩ := hreg
  obtain ⟨⟨packet, actor, status⟩, hr', hsame⟩ := (Option.any_eq_true _ _).mp hrequest
  simp only [Bool.and_eq_true, decide_eq_true_eq] at hsame
  obtain ⟨rfl, hundo⟩ := hsame
  cases event with
  | arrive packet' actor' view =>
    cases hruns
    obtain ⟨harrived, -⟩ := h.inv.arrive hstep
    obtain ⟨status', heq, -⟩ := harrived.request
    cases hr'.symm.trans heq
    rw [senders_arrive] at hm
    subst hm
    exact watches_of_arrived hcond harrived hundo hlive (Or.inl happlied)
  | wake r' view =>
    cases hruns
    obtain ⟨packet', actor', frame, hr⟩ := Broker.wake_request hstep
    obtain ⟨b'', heq, hturn, -⟩ := h.inv.wake hr view
    cases hstep.symm.trans heq
    have hpacket : packet' = packet ∧ actor' = actor := by
      rcases hturn.request with ⟨outcome, hdone, -⟩ | ⟨response, hdone, -⟩
      · cases hr'.symm.trans hdone
        exact ⟨rfl, rfl⟩
      · cases hr'.symm.trans hdone
        exact ⟨rfl, rfl⟩
    obtain ⟨rfl, rfl⟩ := hpacket
    obtain ⟨hwatchers, hprocesses⟩ := hturn.keeps_watchers
    rw [Broker.live_congr hprocesses, ← hm] at hlive
    rw [← hm]
    exact (h.waiters _ _ _ _ hr hundo hlive).congr hwatchers
  | _ => cases hruns

lemma Owned.step (h : t.Owned) (hcond : t.findsOwnWatcher e = true)
    (hstep : t.step e = some t') : t'.Owned := by
  obtain ⟨hsound, hbroker, hsender, howners⟩ := step_eq_some hstep
  obtain ⟨hsteps, hinv'⟩ := h.inv.steps hbroker
  have hages := Broker.step_ages h.inv hbroker
  refine ⟨hinv', Broker.step_distinct h.inv hbroker h.distinct, ?_, ?_, ?_⟩
  · intro pid m howner
    rcases howners pid m howner with ⟨hbefore, hexits⟩ | hreg
    · exact Broker.step_watches h.inv hbroker (h.owners pid m hbefore) (Or.inl hexits)
    · exact h.registers hbroker hcond hreg
  · intro r packet actor frame hr hundo hlive
    rw [hsender] at hlive ⊢
    rcases hsteps.waited h.inv hr with ⟨frame', hr₀, -⟩ | ⟨rfl, packet', actor', view, hevent⟩
    · rw [h.senders_eq hr₀] at hlive ⊢
      rcases hages.live _ _ hlive with hlive₀ | hlt
      · exact Broker.step_watches h.inv hbroker (h.waiters _ _ _ _ hr₀ hundo hlive₀)
          (Or.inr hlive₀)
      · exact absurd (h.senders _ _ _ _ hr₀) (not_le.mpr hlt)
    · obtain ⟨event, n⟩ := e
      cases hevent
      obtain ⟨harrived, -⟩ := h.inv.arrive hbroker
      obtain ⟨-, rfl, rfl, -⟩ := harrived.queued_of_waiting hr
      rw [senders_arrive] at hlive ⊢
      refine watches_of_arrived hcond harrived hundo hlive (Or.inr ?_)
      rw [Broker.frame?_of_request hr]
      simp
  · intro r packet actor frame hr
    rw [hsender]
    refine le_trans ?_ (hages.incarnation actor.pid)
    rcases hsteps.waited h.inv hr with ⟨frame', hr₀, -⟩ | ⟨rfl, packet', actor', view, hevent⟩
    · rw [h.senders_eq hr₀]
      exact h.senders _ _ _ _ hr₀
    · obtain ⟨event, n⟩ := e
      cases hevent
      obtain ⟨harrived, -⟩ := h.inv.arrive hbroker
      obtain ⟨-, rfl, rfl, -⟩ := harrived.queued_of_waiting hr
      rw [senders_arrive]
      exact (decide_eq_true_eq.mp hsound).2

/-- Undo belongs to one incarnation, in the runs in which no request with `SEM_UNDO` of a live
incarnation finds the watcher of another one. Every `process_exit` that a scan runs is for the
incarnation that registered the adjustments, and an incarnation with adjustments is watched. -/
theorem undo_of_one_incarnation {events : List TrackedEvent}
    (hexec : Transition.exec step create events = some t)
    (hmeets : Transition.Along step (fun t e => t.findsOwnWatcher e = true) create events) :
    (∀ exited now b', t.broker.scan exited now = some b' →
      ∀ i, (t.broker.watchers i).active = true → exited i = true →
        ∀ m, t.owners (t.broker.watchers i).pid m = true →
          m = (t.broker.watchers i).incarnation) ∧
    ∀ pid m, t.owners pid m = true → t.broker.Watches pid m := by
  have howned : t.Owned :=
    Transition.exec_invariant_along (fun _ _ _ h hcond hstep => h.step hcond hstep) owned_create
      hmeets hexec
  refine ⟨?_, howned.owners⟩
  intro exited now b' _ i hactive _ m howner
  obtain ⟨j, hj, hpid, hm⟩ := howned.owners _ m howner
  have hji : j = i := howned.distinct j i hj hactive hpid
  rw [← hm, hji]

/-! ### Runs -/

/-- The first incarnations of 42 and 43 start. Request 1 of 42 waits with `SEM_UNDO`, and is applied
when 43 has provided the unit. -/
def waitThenApply : List TrackedEvent :=
  ([.startProcess 42, .startProcess 43, Broker.createSet,
    Broker.call (semopRequest (fun _ => 0) (makeId 0 1) [⟨0, -1, 0o10000⟩] none) 42,
    Broker.call (setvalRequest (fun _ => 0) (makeId 0 1) 0 1) 43, Broker.wakeUp 1 false]).map
    fun event => ⟨event, 1⟩

theorem undo_of_one_incarnation_applied :
    ∃ t, Transition.exec step create waitThenApply = some t ∧ t.owners 42 1 = true ∧
      t.broker.Watches 42 1 := by
  have hmeets : Transition.checkAlong step findsOwnWatcher create waitThenApply = true := by
    decide +kernel
  have hrun : (Transition.exec step create waitThenApply).any (fun t => t.owners 42 1) = true := by
    decide +kernel
  obtain ⟨t, ht, howner⟩ := (Option.any_eq_true _ _).mp hrun
  exact ⟨t, ht, howner, (undo_of_one_incarnation ht
    (Transition.along_of_checkAlong hmeets)).2 42 1 howner⟩

/-- Process 42 registers an adjustment and ends. Another process gets its pid, and registers one
before the monitor has looked. -/
def reusePid : List TrackedEvent :=
  let addUnit := Broker.call (semopRequest (fun _ => 0) (makeId 0 1) [⟨0, 1, 0o10000⟩] none) 42
  [⟨.startProcess 42, 1⟩, ⟨Broker.createSet, 1⟩, ⟨addUnit, 1⟩, ⟨.endProcess 42, 1⟩,
    ⟨.reapProcess 42, 1⟩, ⟨.startProcess 42, 2⟩, ⟨addUnit, 2⟩]

/-- The second incarnation of 42 runs, has adjustments and no watcher. The next scan finds the exit
of the first one, discards the adjustments and leaves the pid unwatched. -/
theorem undo_lost_on_reuse :
    ∃ t b', Transition.exec step create reusePid = some t ∧
      t.broker.live 42 2 = true ∧ t.owners 42 2 = true ∧ t.broker.store.Owes 42 ∧
      ¬ t.broker.Watches 42 2 ∧
      t.broker.scan (fun i => decide (i = Broker.firstWatcher)) (fun _ _ => 6) = some b' ∧
      b'.live 42 2 = true ∧ ¬ b'.store.Owes 42 ∧ b'.watched 42 = false := by
  have hrun : (Transition.exec step create reusePid).any (fun t =>
      t.broker.live 42 2 && t.owners 42 2 &&
      ((t.broker.store.undoEntries Broker.firstEntry).active &&
        decide ((t.broker.store.undoEntries Broker.firstEntry).pid = 42)) &&
      (Table.firstIndex fun i => (t.broker.watchers i).active &&
        decide ((t.broker.watchers i).pid = 42 ∧ (t.broker.watchers i).incarnation = 2)).isNone &&
      ((t.broker.watchers Broker.firstWatcher).active &&
        decide ((t.broker.watchers Broker.firstWatcher).pid = 42) &&
        t.broker.hasExited (t.broker.watchers Broker.firstWatcher)) &&
      !(Broker.watched { t.broker with
        watchers := Function.update t.broker.watchers Broker.firstWatcher ProcessWatcher.free }
        42)) = true := by
    decide +kernel
  obtain ⟨t, ht, hcheck⟩ := (Option.any_eq_true _ _).mp hrun
  simp only [Bool.and_eq_true, decide_eq_true_eq, Option.isNone_iff_eq_none,
    Bool.not_eq_true'] at hcheck
  obtain ⟨⟨⟨⟨⟨hlive, howner⟩, hentry⟩, hnone⟩, ⟨hactive, hpid⟩, hexited⟩, hfree⟩ := hcheck
  obtain ⟨hstore, hwatchers, hprocesses⟩ := Broker.scanWatcher_retires hactive
    (fun i => decide (i = Broker.firstWatcher)) (by simp) fun _ _ => 6
  refine ⟨t, _, ht, hlive, howner, ⟨_, hentry⟩, ?_, Broker.scan_single hexited _, ?_, ?_, ?_⟩
  · rintro ⟨i, hi, hrest⟩
    have hi' := Table.firstIndex_eq_none.mp hnone i
    rw [hi, Bool.true_and, decide_eq_false_iff_not] at hi'
    exact hi' hrest
  · rw [Broker.live_congr hprocesses]
    exact hlive
  · intro howes
    rw [hstore] at howes
    have hpos : 0 < (t.broker.watchers Broker.firstWatcher).pid := by
      rw [hpid]
      decide
    exact (SemStore.owes_processExit (inv_exec ht).core.store hpos howes).1 hpid.symm
  · rw [Broker.watched, hwatchers]
    exact hfree

end Tracked

end Tgcompat
