import Tgcompat.Broker.StoreRuns
import Tgcompat.Store.Refinement

/-!
# Units of a lock

Clients use a semaphore as a lock: its value is the number of units that are free, and who takes a
unit asks for it back with `SEM_UNDO`. As long as nobody resets or removes the semaphore, operates
on it without `SEM_UNDO` or gives back a unit they do not hold, no unit is lost or made up: not by
the order in which requests arrive, wait and retry, and not when a process dies with its units.
-/

namespace Tgcompat

variable {st : SemStore} {packet : ProtocolPacket} {actor : BrokerActor} {op : StoreOp}
  {semid : Int32} {s : ℕ} {k : ℤ}

/-- The request does not change the semaphore except by operations that are undone at exit. -/
def ProtocolPacket.keepsUnits (packet : ProtocolPacket) (semid : Int32) (s : ℕ) : Bool :=
  match packet.opcode with
  | some .remove | some .setall => decide (wireGetI32 packet.payload 0 ≠ semid)
  | some .setval =>
    decide (¬ (wireGetI32 packet.payload 0 = semid ∧ (wireGetU32 packet.payload 4).toNat = s))
  | some .semop | some .semtimedop =>
    match decodeSemop packet with
    | .ok (id, operations) =>
      decide (id ≠ semid) || operations.all fun op => !op.names s || op.hasFlag semUndo
    | .error _ => true
  | _ => true

/-! ### Calls of the store -/

/-- If all operations on a semaphore are flagged, what is undone is what was done. -/
lemma amountOn_eq_undoAmount {operations : List SemOp}
    (h : ∀ op ∈ operations, op.names s = true → op.hasFlag semUndo = true) :
    amountOn operations s = undoAmount operations s := by
  rw [amountOn, undoAmount]
  refine congrArg (fun l : List SemOp => (l.map fun op => op.semOp.toInt).sum) ?_
  refine List.filter_congr fun op hop => ?_
  cases hnames : op.names s with
  | false =>
    rw [SemOp.names] at hnames
    rw [hnames, Bool.and_false]
  | true =>
    have hflag := h op hop hnames
    rw [SemOp.names] at hnames
    rw [hnames, hflag, Bool.and_self]

lemma ProtocolPacket.flagged_of_keepsUnits {operations : List SemOp}
    (hkeeps : packet.keepsUnits semid s = true)
    (hsemop : packet.opcode.any Opcode.isSemop = true)
    (hdecoded : decodeSemop packet = .ok (semid, operations)) :
    ∀ op ∈ operations, op.names s = true → op.hasFlag semUndo = true := by
  intro op hop hnames
  have hall : (operations.all fun op => !op.names s || op.hasFlag semUndo) = true := by
    obtain ⟨opcode, hopcode, hsemop⟩ := (Option.any_eq_true _ _).mp hsemop
    rw [keepsUnits, hopcode, hdecoded] at hkeeps
    cases opcode with
    | semop | semtimedop => simpa using hkeeps
    | _ => cases hsemop
  simpa [hnames] using List.all_eq_true.mp hall op hop

/-- What a request does to a semaphore whose units it keeps can be undone. -/
lemma Requested.reversible (hop : Requested packet actor op) (haddressed : Addressed packet op)
    (hkeeps : packet.keepsUnits semid s = true) {act : Semaphore.Act (Int32 × ℕ) Int32}
    (hact : st.act op = some act) : act.Reversible (semid, s) := by
  cases op with
  | getAs key nsems flags identity allocated now =>
    obtain ⟨-, heq⟩ := Option.ite_none_left_eq_some.mp hact
    cases heq
    trivial
  | remove id =>
    obtain ⟨-, heq⟩ := Option.ite_none_right_eq_some.mp hact
    cases heq
    rw [ProtocolPacket.keepsUnits, hop] at hkeeps
    exact fun hid => of_decide_eq_true hkeeps (haddressed.symm.trans hid.symm)
  | setval id semnum value pid now =>
    obtain ⟨-, heq⟩ := Option.ite_none_right_eq_some.mp hact
    cases heq
    rw [ProtocolPacket.keepsUnits, hop.1] at hkeeps
    obtain ⟨hid, hsemnum⟩ := haddressed
    refine ite_eq_right_iff.mpr fun hsemid => if_neg fun hs => ?_
    exact of_decide_eq_true hkeeps ⟨hid.symm.trans hsemid.symm, hsemnum.symm.trans hs.symm⟩
  | setall id values pid now =>
    obtain ⟨-, heq⟩ := Option.ite_none_right_eq_some.mp hact
    cases heq
    rw [ProtocolPacket.keepsUnits, hop.1] at hkeeps
    refine if_neg fun hid => ?_
    exact of_decide_eq_true hkeeps (haddressed.symm.trans hid.symm)
  | setMetadata id uid gid mode identity now => cases hact
  | adjustWaitCount id semnum waitForZero adjustment => cases hact
  | tryopDetail id operations pid now =>
    obtain ⟨-, heq⟩ := Option.ite_none_right_eq_some.mp hact
    cases heq
    obtain ⟨hsemop, -, hdecoded⟩ := hop
    by_cases hid : semid = id
    · subst hid
      rw [Semaphore.Act.Reversible, if_pos rfl, if_pos rfl]
      exact amountOn_eq_undoAmount (packet.flagged_of_keepsUnits hkeeps hsemop hdecoded)
    · rw [Semaphore.Act.Reversible, if_neg hid, if_neg hid]
  | processExit pid now => cases hop

namespace SemStore

/-- A semaphore and its units, in a store. -/
structure HasUnits (k : ℤ) (semid : Int32) (s : ℕ) (st : SemStore) : Prop where
  inv : st.Inv
  ok : Semaphore.Ok (semMaxValue : ℤ) st.semaphores
  balanced : Semaphore.Balanced k (semid, s) st.semaphores

/-- Only the exit of a process is one. -/
lemma eq_processExit_of_act {pid : Int32} (h : st.act op = some (.exit pid)) :
    ∃ now, op = .processExit pid now := by
  cases op with
  | processExit pid' now =>
    obtain ⟨-, heq⟩ := Option.ite_none_right_eq_some.mp h
    cases heq
    exact ⟨now, rfl⟩
  | getAs key nsems flags identity allocated now =>
    obtain ⟨-, heq⟩ := Option.ite_none_left_eq_some.mp h
    cases heq
  | setMetadata | adjustWaitCount => cases h
  | remove | setval | setall | tryopDetail =>
    obtain ⟨-, heq⟩ := Option.ite_none_right_eq_some.mp h
    cases heq

lemma HasUnits.next (h : st.HasUnits k semid s) (hk : k ≤ semMaxValue)
    (hact : ∀ act, st.act op = some act → act.Reversible (semid, s))
    (hexit : ∀ pid now, op = .processExit pid now →
      ∀ p, 0 ≤ st.undoEntries.adjustmentOf p semid s) : (st.next op).HasUnits k semid s := by
  have hrefines := h.inv.refines op
  rw [Refines, Simulation.Matches] at hrefines
  cases hlabel : st.act op with
  | none =>
    rw [hlabel] at hrefines
    exact ⟨h.inv.next op, hrefines ▸ h.ok, hrefines ▸ h.balanced⟩
  | some act =>
    rw [hlabel] at hrefines
    refine ⟨h.inv.next op, hrefines.ok (by decide) h.ok,
      hrefines.conserves h.ok (hact act hlabel) hk h.balanced ?_⟩
    rintro pid rfl
    obtain ⟨now, hop⟩ := eq_processExit_of_act hlabel
    exact hexit pid now hop

lemma HasUnits.dispatch (h : st.HasUnits k semid s) (hk : k ≤ semMaxValue)
    (hkeeps : packet.keepsUnits semid s = true) (actor : BrokerActor) (env : DispatchEnv)
    (response : ProtocolPacket) :
    (brokerDispatch st packet actor env response).2.2.HasUnits k semid s := by
  rcases brokerDispatch_cases st packet actor env response with ⟨e, -, heq⟩ | heq
  · rw [heq]
    exact h
  · rw [heq]
    rcases dispatchOpcode_performs st packet actor env (prepareResponse packet response) with
      hstore | ⟨op, hop, haddressed, -, hstore⟩
    · rw [hstore]
      exact h
    · rw [hstore]
      refine h.next hk (fun act hact => hop.reversible haddressed hkeeps hact) ?_
      rintro pid now rfl
      cases hop

lemma HasUnits.adjustWaitCount (h : st.HasUnits k semid s) (hk : k ≤ semMaxValue) (id : Int32)
    (semnum : ℕ) (waitForZero : Bool) (adjustment : Int32) :
    (st.adjustWaitCount id semnum waitForZero adjustment).2.HasUnits k semid s := by
  have hnext :
      (st.next (.adjustWaitCount id semnum waitForZero adjustment)).HasUnits k semid s := by
    refine h.next hk ?_ ?_
    · intro act hact
      cases hact
    · intro pid now hop
      cases hop
  exact hnext

lemma HasUnits.uncount (h : st.HasUnits k semid s) (hk : k ≤ semMaxValue) (waiter : Waiter) :
    (Broker.uncount st waiter).HasUnits k semid s := by
  rw [Broker.uncount]
  split_ifs
  · exact h.adjustWaitCount hk _ _ _ _
  · exact h

/-- A process exits, and nobody has given back too much. -/
lemma HasUnits.processExit (h : st.HasUnits k semid s) (hk : k ≤ semMaxValue)
    (hnonneg : ∀ p, 0 ≤ st.undoEntries.adjustmentOf p semid s) (pid : Int32)
    (now : Fin semMaxUndoEntries → Int64) :
    (st.processExit pid now).2.HasUnits k semid s ∧
      ∀ p, 0 ≤ (st.processExit pid now).2.undoEntries.adjustmentOf p semid s := by
  have hnext : (st.next (.processExit pid now)).HasUnits k semid s := by
    refine h.next hk ?_ fun _ _ _ => hnonneg
    intro act hact
    obtain ⟨-, heq⟩ := Option.ite_none_right_eq_some.mp hact
    cases heq
    trivial
  refine ⟨hnext, fun p => ?_⟩
  by_cases hpid : 0 < pid
  · rw [processExit_ledger h.inv hpid]
    split_ifs
    · exact le_rfl
    · exact hnonneg p
  · rw [SemStore.processExit, if_pos (Int32.not_lt.mp hpid)]
    exact hnonneg p

end SemStore

/-! ### The broker -/

namespace Broker

variable {b b' : Broker} {r : ℕ}

lemma Turn.hasUnits {frame : Frame} {view : IterationView} (h : b.Turn r packet actor frame view b')
    (hb : b.store.HasUnits k semid s) (hk : k ≤ semMaxValue)
    (hkeeps : packet.keepsUnits semid s = true) : b'.store.HasUnits k semid s := by
  cases h with
  | left hqueue hleave =>
    cases hleave with
    | retried operations hopen hfirst hlive hblocks hdispatch hanswer =>
      have hstore := hb.dispatch hk hkeeps actor view.env frame.response
      rw [hdispatch] at hstore
      exact hstore.uncount hk frame.waiter
    | closed hclosed => exact hb.uncount hk frame.waiter
    | waitFailed error hresponse => exact hb.uncount hk frame.waiter
    | timedOut => exact hb.uncount hk frame.waiter
  | slept hresponse hhead => exact hb

lemma Arrived.hasUnits (hinv : b.Inv) {view : ArrivalView} (h : b.Arrived packet actor view b')
    (hb : b.store.HasUnits k semid s) (hk : k ≤ semMaxValue)
    (hkeeps : packet.keepsUnits semid s = true) : b'.store.HasUnits k semid s := by
  cases h with
  | unlocked error => exact hb
  | unwatched hundo hresult heq => exact hb
  | @answered b₁ ret response store exit hprepared hdispatch hquit hexit =>
    rw [(hinv.prepared hprepared).store] at hdispatch
    have hstore := hb.dispatch hk hkeeps actor view.env view.response
    rw [hdispatch] at hstore
    rw [store_answered]
    exact hstore
  | unqueued hprepared hret hexit =>
    have hstore := (hinv.prepared hprepared).store
    exact hstore ▸ hb
  | @queued b₁ b' store frame operations hprepared hlive hblocks hcount henters hturn =>
    rw [(hinv.prepared hprepared).store] at hcount
    refine hturn.hasUnits ?_ hk hkeeps
    have hstore := hb.adjustWaitCount hk frame.waiter.semid frame.waiter.semnum.toNat
      (frame.waiter.waitForZero ≠ 0) 1
    rw [← hcount] at hstore
    exact hstore

/-- The request that an event runs. -/
def Event.packet? (b : Broker) : Event → Option ProtocolPacket
  | .arrive packet _ _ => some packet
  | .wake r _ => (b.requests r).map Request.packet
  | _ => none

/-- The rules of a lock: the request keeps the units, and nobody gives back what they do not
hold. -/
def Event.Respects (semid : Int32) (s : ℕ) (b : Broker) (event : Event) : Prop :=
  (∀ packet, event.packet? b = some packet → packet.keepsUnits semid s = true) ∧
    ∀ b', b.step event = some b' → ∀ p, 0 ≤ b'.store.undoEntries.adjustmentOf p semid s

lemma Steps.hasUnits (hinv : b.Inv) {event : Event} (h : b.Steps event b')
    (hb : b.store.HasUnits k semid s) (hk : k ≤ semMaxValue)
    (hnonneg : ∀ p, 0 ≤ b.store.undoEntries.adjustmentOf p semid s)
    (hkeeps : ∀ packet, event.packet? b = some packet → packet.keepsUnits semid s = true) :
    b'.store.HasUnits k semid s := by
  cases h with
  | arrived harrived => exact harrived.hasUnits hinv hb hk (hkeeps _ rfl)
  | woken hr hturn => exact hturn.hasUnits hb hk (hkeeps _ (by rw [Event.packet?, hr]; rfl))
  | scanned hscan =>
    refine (scan_invariant (I := fun b' => b'.store.HasUnits k semid s ∧
      ∀ p, 0 ≤ b'.store.undoEntries.adjustmentOf p semid s) ?_ ⟨hb, hnonneg⟩ hscan).1
    rintro c i c' ⟨hc, hc0⟩ hs
    cases hs with
    | skipped => exact ⟨hc, hc0⟩
    | announced now hactive => exact hc.processExit hk hc0 _ now
    | silent now hactive hsets => exact hc.processExit hk hc0 _ now
  | moved processes hruns => exact hb

/-- Start from a semaphore with value `k` of which nobody holds anything. However the requests that
follow interleave, wait and retry, and whichever processes exit, the value and what is held of the
semaphore add up to `k` as long as the rules of a lock are respected. So there are never more
holders than units that are taken. -/
theorem units_conserved {events continued : List Event}
    (h : Transition.exec step create events = some b)
    (hvalue : b.store.semaphores.value (semid, s) = some k)
    (hfree : ∀ p, b.store.undoEntries.adjustmentOf p semid s = 0)
    (hrules : Transition.Along step (Event.Respects semid s) b continued)
    (h' : Transition.exec step b continued = some b') :
    ∃ v, b'.store.semaphores.value (semid, s) = some v ∧ 0 ≤ v ∧
      v + Semaphore.held b'.store.semaphores (semid, s) = k ∧
      ({p | 0 < b'.store.undoEntries.adjustmentOf p semid s}.ncard : ℤ) + v ≤ k := by
  obtain ⟨hinv, ops, hstore, -⟩ := inv_create.store_run h
  have hok : Semaphore.Ok (semMaxValue : ℤ) b.store.semaphores := hstore ▸ SemStore.ok_run ops
  have hk := (hok.range _ _ hvalue).2
  have hunits : b.store.HasUnits k semid s := by
    refine ⟨hinv.core.store, hok, k, hvalue, ?_⟩
    have hheld : Semaphore.held b.store.semaphores (semid, s) = 0 :=
      finsum_eq_zero_of_forall_eq_zero hfree
    rw [hheld, add_zero]
  obtain ⟨hinv', hunits', hnonneg⟩ := Transition.exec_invariant_along
    (I := fun b => b.Inv ∧ b.store.HasUnits k semid s ∧
      ∀ p, 0 ≤ b.store.undoEntries.adjustmentOf p semid s) (by
    rintro c event c' ⟨hc, hunits, hnonneg⟩ ⟨hkeeps, hfair⟩ hstep
    obtain ⟨hsteps, hc'⟩ := hc.steps hstep
    exact ⟨hc', hsteps.hasUnits hc hunits hk hnonneg hkeeps, hfair c' hstep⟩)
    ⟨hinv, hunits, fun p => (hfree p).ge⟩ hrules h'
  obtain ⟨v, hv, htotal⟩ := hunits'.balanced
  have hholders := Semaphore.ncard_holders_le (x := (semid, s))
    (hunits'.ok.finite (semid, s)) hnonneg
  simp only [SemStore.semaphores_undo] at hholders
  exact ⟨v, hv, (hunits'.ok.range _ _ hv).1, htotal, by omega⟩

/-! ### A run -/

/-- A check of the whole ledger. -/
def fairLedger (t : UndoTable) : Bool :=
  (Table.firstIndex fun k => (t k).active && decide ((t k).adjustment < 0)).isNone

lemma nonneg_of_fairLedger {t : UndoTable} (h : fairLedger t = true) (p id : Int32) (s : ℕ) :
    0 ≤ t.adjustmentOf p id s := by
  rw [fairLedger, Option.isNone_iff_eq_none, Table.firstIndex_eq_none] at h
  rw [UndoTable.adjustmentOf]
  split
  · next k hk =>
    have hfair := h k
    rw [(UndoTable.find_spec hk).1, Bool.true_and, decide_eq_false_iff_not] at hfair
    exact not_lt.mp hfair
  · exact le_rfl

/-- Take a unit of the first semaphore, or give it back. -/
def lockRequest (amount : Int16) : ProtocolPacket :=
  semopRequest (fun _ => 0) (makeId 0 1) [⟨0, amount, 0x1000⟩] none

/-- A lock with one unit. -/
def makeLock : List Event :=
  [.startProcess 42, .startProcess 43, createSet,
    call (setvalRequest (fun _ => 0) (makeId 0 1) 0 1) 42]

/-- Two processes want the unit; the second waits until the first gives it back. -/
def useLock : List Event :=
  [call (lockRequest (-1)) 42, call (lockRequest (-1)) 43, call (lockRequest 1) 42, wakeUp 3 false]

theorem units_conserved_useLock :
    ∃ b b', Transition.exec step create makeLock = some b ∧
      Transition.exec step b useLock = some b' ∧
      b'.store.undoEntries.adjustmentOf 43 (makeId 0 1) 0 = 1 ∧
      Semaphore.held b'.store.semaphores (makeId 0 1, 0) = 1 := by
  have hrun : (Transition.exec step create makeLock).any (fun b =>
      decide (b.store.semaphores.value (makeId 0 1, 0) = some 1) &&
      (Table.firstIndex fun k => (b.store.undoEntries k).active).isNone &&
      Transition.checkAlong step (fun b event =>
        (event.packet? b).all (·.keepsUnits (makeId 0 1) 0) &&
          (step b event).all fun b' => fairLedger b'.store.undoEntries) b useLock &&
      (Transition.exec step b useLock).any fun b' =>
        decide (b'.store.semaphores.value (makeId 0 1, 0) = some 0 ∧
          b'.store.undoEntries.adjustmentOf 43 (makeId 0 1) 0 = 1)) = true := by
    decide +kernel
  obtain ⟨b, hb, hcheck⟩ := (Option.any_eq_true _ _).mp hrun
  simp only [Bool.and_eq_true, decide_eq_true_eq, Option.isNone_iff_eq_none] at hcheck
  obtain ⟨⟨⟨hvalue, hnone⟩, halong⟩, hend⟩ := hcheck
  obtain ⟨b', hb', hend⟩ := (Option.any_eq_true _ _).mp hend
  obtain ⟨hvalue', howed⟩ := of_decide_eq_true hend
  have hinv : b.Inv := inv_reachable ⟨makeLock, hb⟩
  have hfree : ∀ p, b.store.undoEntries.adjustmentOf p (makeId 0 1) 0 = 0 := by
    intro p
    by_contra hne
    obtain ⟨k, hk, -⟩ := hinv.core.store.undo.exists_active hne
    rw [Table.firstIndex_eq_none.mp hnone k] at hk
    cases hk
  have hrules : Transition.Along step (Event.Respects (makeId 0 1) 0) b useLock := by
    intro pre event post c heq hc
    have hmeets := Transition.along_of_checkAlong halong pre event post c heq hc
    simp only [Bool.and_eq_true, Option.all_eq_true] at hmeets
    exact ⟨hmeets.1, fun c' hstep p => nonneg_of_fairLedger (hmeets.2 c' hstep) p _ _⟩
  obtain ⟨v, hv, -, htotal, -⟩ := units_conserved hb hvalue hfree hrules hb'
  cases hv.symm.trans hvalue'
  exact ⟨b, b', hb, hb', howed, by omega⟩

end Broker

end Tgcompat
