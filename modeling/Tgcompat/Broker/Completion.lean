import Tgcompat.Broker.Bystanders
import Tgcompat.Client.Requests

/-!
# Requests are applied once or never

A finished request is never run again, so how often it was applied is settled when
`dispatch_request` returns, and every exit pairs the answer with that count.
-/

namespace Tgcompat

namespace Broker

variable {b b' : Broker} {r : ℕ} {packet : ProtocolPacket} {actor : BrokerActor}
  {outcome : Outcome}

/-! ### One event -/

lemma Prepared.applied_eq {view : ArrivalView} (h : b.Prepared packet actor view b') :
    b'.applied = b.applied := by
  cases h with
  | plain hundo => rfl
  | watched hundo hsound hresult =>
    rcases watchProcess_broker b.numbered actor.pid view.lookup with heq | ⟨i, watcher, heq⟩
    · rw [heq]
      rfl
    · rw [heq]
      rfl

lemma Turn.applied_of_ne {frame : Frame} {view : IterationView}
    (h : b.Turn r packet actor frame view b') {c : ℕ} (hc : c ≠ r) :
    b'.applied c = b.applied c := by
  cases h with
  | left hqueue hleave => exact hleave.applied_of_ne c hc
  | slept hresponse hhead => rfl

/-- A turn that sees the peer closed, or whose request would not be applied, applies nothing. -/
lemma Turn.unapplied {frame : Frame} {view : IterationView}
    (h : b.Turn r packet actor frame view b')
    (hsafe : view.peerClosed = true ∨ commits b.store packet actor = false) :
    b'.applied r = b.applied r := by
  cases h with
  | slept hresponse hhead => rfl
  | left hqueue hleave =>
    cases hleave with
    | closed hclosed => rfl
    | retried operations hopen hfirst hlive hblocks hdispatch hanswer =>
      rcases hsafe with hclosed | hcommits
      · rw [hopen] at hclosed
        cases hclosed
      · exact congrFun (countApplied_of_not hcommits) r
    | waitFailed error hresponse => rfl
    | timedOut => rfl

lemma store_answered (b : Broker) (store : SemStore) (r : ℕ) (packet : ProtocolPacket)
    (actor : BrokerActor) (ret : Int32) (response : ProtocolPacket) (exit : Exit) :
    (b.answered store r packet actor ret response exit).store = store := by
  rw [answered]
  split_ifs
  · rfl
  · rfl

lemma applied_answered {store : SemStore} {ret : Int32} {response : ProtocolPacket} {exit : Exit}
    {c : ℕ} (hc : c ≠ r) :
    (b.answered store r packet actor ret response exit).applied c = b.applied c := by
  have hcount : b.countApplied r packet actor c = b.applied c := countApplied_of_ne hc
  rw [answered]
  split_ifs
  · exact hcount
  · exact hcount

/-- An event counts at most for the request it runs. -/
lemma Steps.applied_of_ne {event : Event} (h : b.Steps event b') {c : ℕ}
    (hc : some c ≠ event.runs b) : b'.applied c = b.applied c := by
  cases h with
  | arrived harrived =>
    have hne : c ≠ b.arrivals := fun heq => hc (congrArg some heq)
    cases harrived with
    | unlocked error => rfl
    | unwatched hundo hresult heq => rfl
    | answered hprepared hdispatch hquit hexit =>
      rw [applied_answered hne, hprepared.applied_eq]
    | unqueued hprepared hret hexit =>
      simp only [setStatus, hprepared.applied_eq]
    | queued operations hprepared hlive hblocks hcount henters hturn =>
      rw [hturn.applied_of_ne hne]
      simp only [admitted, setStatus, hprepared.applied_eq]
  | woken hr hturn => exact hturn.applied_of_ne fun heq => hc (congrArg some heq)
  | scanned hscan =>
    refine scan_invariant (I := fun b' => b'.applied c = b.applied c) ?_ rfl hscan
    intro d i d' hd hs
    cases hs with
    | skipped => exact hd
    | announced now hactive => exact hd
    | silent now hactive hsets => exact hd
  | moved processes hruns => rfl

/-- An event that runs a request starts from one that is not finished. -/
lemma Steps.not_finished (hinv : b.Inv) {event : Event} (h : b.Steps event b')
    (hr : b.requests r = some ⟨packet, actor, .finished outcome⟩) : some r ≠ event.runs b := by
  intro hruns
  obtain ⟨view, frame, -, hstatus, -⟩ := h.woken_of_runs hinv hruns hr
  cases hstatus

/-- A finished request stays as it is. -/
lemma Steps.finished (hinv : b.Inv) {event : Event} (h : b.Steps event b')
    (hr : b.requests r = some ⟨packet, actor, .finished outcome⟩) :
    b'.requests r = some ⟨packet, actor, .finished outcome⟩ ∧ b'.applied r = b.applied r := by
  have hne := h.not_finished hinv hr
  refine ⟨?_, h.applied_of_ne hne⟩
  cases h.bystanders hinv with
  | woken hwoken =>
    rw [hwoken r hne, hr]
    rfl
  | left hsame _ _ => rw [hsame r hne, hr]

/-! ### Whole runs -/

/-- A run continues a finished request without running it again. -/
lemma Inv.exec_finished (hinv : b.Inv) {events : List Event}
    (hexec : Transition.exec step b events = some b')
    (hr : b.requests r = some ⟨packet, actor, .finished outcome⟩) :
    b'.requests r = some ⟨packet, actor, .finished outcome⟩ ∧ b'.applied r = b.applied r := by
  have hall : b'.Inv ∧ b'.requests r = some ⟨packet, actor, .finished outcome⟩ ∧
      b'.applied r = b.applied r := by
    refine Transition.exec_invariant (I := fun b' => b'.Inv ∧
      b'.requests r = some ⟨packet, actor, .finished outcome⟩ ∧ b'.applied r = b.applied r)
      ?_ ⟨hinv, hr, rfl⟩ hexec
    rintro c event c' ⟨hc, hrc, happlied⟩ hstep
    obtain ⟨hsteps, hc'⟩ := hc.steps hstep
    obtain ⟨hrc', happlied'⟩ := hsteps.finished hc hrc
    exact ⟨hc', hrc', happlied'.trans happlied⟩
  exact hall.2

/-- A `semop` request that `dispatch_request` has finished, in any run, was applied exactly once if
it was answered with zero. If it was answered with anything else, or an error was returned, it was
never applied and is not in any continuation of the run. It is left with the answer to wait only if
its peer was observed closed. -/
theorem finished_applied_once (h : b.Reachable)
    (hr : b.requests r = some ⟨packet, actor, .finished outcome⟩)
    (hsemop : packet.opcode.any Opcode.isSemop = true) {events : List Event}
    (hexec : Transition.exec step b events = some b') :
    (outcome.ret = 0 → outcome.response.header.result = 0 → b'.applied r = 1) ∧
    (outcome.ret ≠ 0 ∨ outcome.response.header.result ≠ 0 → b'.applied r = 0) ∧
    (outcome.ret = 0 → outcome.response.header.result = semOpBlocked →
      outcome.exit = .peerClosed) := by
  have hinv := inv_reachable h
  obtain ⟨honce, hnever, hblocked⟩ := hinv.core.outcomes r packet actor outcome hr
  obtain ⟨-, happlied⟩ := hinv.exec_finished hexec hr
  rw [happlied]
  exact ⟨honce hsemop, hnever, hblocked hsemop⟩

/-! ### A run -/

/-- A request of a client whose process is running, served without an error. -/
def call (packet : ProtocolPacket) (pid : Int32) : Event :=
  .arrive packet ⟨pid, ⟨1000, 1000⟩⟩
    { lockError := none
      lookup := .pidfd
      env := ⟨true, 5⟩
      response := packet
      clock := .ok ⟨5, 0⟩
      iteration := ⟨false, ⟨true, 5⟩, none⟩ }

/-- A wake-up of request `r`, whose peer has closed or not. -/
def wakeUp (r : ℕ) (peerClosed : Bool) : Event :=
  .wake r { waitError := none, clock := .ok ⟨6, 0⟩, iteration := ⟨peerClosed, ⟨true, 6⟩, none⟩ }

/-- The first set that is created, with one semaphore. -/
def createSet : Event := call (semgetRequest (fun _ => 0) 1234 1 0o1600) 42

/-- Request 1 waits for a unit of the set. -/
def waitForUnit : List Event :=
  [createSet, call (semopRequest (fun _ => 0) (makeId 0 1) [⟨0, -1, 0⟩] none) 42]

/-- Request 2 provides the unit that request 1 waits for; then the waiter is woken. -/
def handOver : List Event :=
  waitForUnit ++ [call (setvalRequest (fun _ => 0) (makeId 0 1) 0 1) 43, wakeUp 1 false]

/-- The request has finished a `semop` with this result. -/
def answeredWith (b : Broker) (r : ℕ) (result : Int32) : Bool :=
  match b.requests r with
  | some ⟨packet, _, .finished outcome⟩ =>
    packet.opcode.any Opcode.isSemop && decide (outcome.ret = 0) &&
      decide (outcome.response.header.result = result)
  | _ => false

lemma answeredWith_spec {result : Int32} (h : b.answeredWith r result = true) :
    ∃ packet actor outcome, b.requests r = some ⟨packet, actor, .finished outcome⟩ ∧
      packet.opcode.any Opcode.isSemop = true ∧ outcome.ret = 0 ∧
      outcome.response.header.result = result := by
  rw [answeredWith] at h
  split at h
  · next packet actor outcome hr =>
    simp only [Bool.and_eq_true, decide_eq_true_eq] at h
    exact ⟨packet, actor, outcome, hr, h.1.1, h.1.2, h.2⟩
  · cases h

theorem finished_applied_once_handOver :
    ∃ b, Transition.exec step create handOver = some b ∧ b.answeredWith 1 0 = true ∧
      b.applied 1 = 1 := by
  have hrun : (Transition.exec step create handOver).any (answeredWith · 1 0) = true := by
    decide +kernel
  obtain ⟨b, hb, hanswer⟩ := (Option.any_eq_true _ _).mp hrun
  obtain ⟨packet, actor, outcome, hr, hsemop, hret, hresult⟩ := answeredWith_spec hanswer
  exact ⟨b, hb, hanswer,
    (finished_applied_once ⟨handOver, hb⟩ hr hsemop (Transition.exec_nil b)).1 hret hresult⟩

end Broker

end Tgcompat
