import Tgcompat.Store.Evaluation
import Tgcompat.Store.Operations
import Tgcompat.Store.Undo

/-!
# What each store operation can do

One statement for each operation that changes the store: it either refuses, with a negative
result and the store it was given, or succeeds with the store spelled out. Everything proved
about runs of the store goes through these statements.
-/

namespace Tgcompat

namespace SemStore

variable {st : SemStore} {semid pid : Int32}

/-- A call that fails: negative result, store untouched. -/
def Refused (st : SemStore) (outcome : Int32 × SemStore) : Prop :=
  outcome.1 < 0 ∧ outcome.2 = st

lemma refused_error {e : Int32} (he : e < 0) : Refused st (e, st) := ⟨he, rfl⟩

/-! ### `semget` and removal -/

/-- The conditions under which `semget` creates a set in slot `i`. -/
structure Creates (st : SemStore) (key nsems : Int32) (i : Fin semMaxSets) : Prop where
  free : (st.sets i).active = false
  nsems_pos : 1 ≤ nsems.toInt
  nsems_le : nsems.toInt ≤ semMaxPerSet
  unused : key ≠ ipcPrivate → ∀ j, (st.sets j).active = true → (st.sets j).key ≠ key

lemma createSet_cases (st : SemStore) (key nsems flags : Int32) (identity : SemIdentity)
    (allocated : Bool) (now : Int64)
    (hunused : key ≠ ipcPrivate → ∀ j, (st.sets j).active = true → (st.sets j).key ≠ key) :
    Refused st (st.createSet key nsems flags identity allocated now) ∨
      ∃ i, st.Creates key nsems i ∧
        st.createSet key nsems flags identity allocated now =
          (makeId i (freshSet (st.sets i) key nsems flags identity now).generation,
            st.writeSet i (freshSet (st.sets i) key nsems flags identity now)) := by
  unfold createSet
  by_cases hn : nsems ≤ 0 ∨ nsems.toInt > semMaxPerSet
  · rw [if_pos hn]
    exact Or.inl (refused_error (by decide))
  · rw [if_neg hn]
    rw [not_or, Int32.le_iff_toInt_le] at hn
    cases hf : Table.firstIndex fun i => !(st.sets i).active with
    | none => exact Or.inl (refused_error (by decide))
    | some i =>
      cases allocated with
      | false => exact Or.inl (refused_error (by decide))
      | true =>
        refine Or.inr ⟨i, ⟨?_, ?_, ?_, hunused⟩, rfl⟩
        · simpa using Table.firstIndex_spec hf
        · have := hn.1
          simp only [Int32.toInt_zero] at this
          omega
        · exact not_lt.mp hn.2

/-- `semget` refuses, finds the set with the key, or creates a set in a free slot. -/
theorem getAs_cases (st : SemStore) (key nsems flags : Int32) (identity : SemIdentity)
    (allocated : Bool) (now : Int64) :
    Refused st (st.getAs key nsems flags identity allocated now) ∨
      (∃ i, (st.sets i).active = true ∧
        st.getAs key nsems flags identity allocated now = (st.idOf i, st)) ∨
      ∃ i, st.Creates key nsems i ∧
        st.getAs key nsems flags identity allocated now =
          (makeId i (freshSet (st.sets i) key nsems flags identity now).generation,
            st.writeSet i (freshSet (st.sets i) key nsems flags identity now)) := by
  unfold getAs
  by_cases hkey : key ≠ ipcPrivate
  · rw [if_pos hkey]
    cases hf : st.findKey key with
    | some i =>
      have hspec := Table.firstIndex_spec hf
      simp only [Bool.and_eq_true] at hspec
      simp only
      split_ifs
      · exact Or.inl (refused_error (by decide))
      · exact Or.inl (refused_error (by decide))
      · exact Or.inr (Or.inl ⟨i, hspec.1, rfl⟩)
    | none =>
      simp only
      split_ifs
      · exact Or.inl (refused_error (by decide))
      · have hunused : key ≠ ipcPrivate →
            ∀ j, (st.sets j).active = true → (st.sets j).key ≠ key := by
          intro _ j hj
          simpa [hj] using Table.firstIndex_eq_none.mp hf j
        exact (st.createSet_cases key nsems flags identity allocated now hunused).imp_right Or.inr
  · rw [if_neg hkey]
    exact (st.createSet_cases key nsems flags identity allocated now
      fun h => absurd h hkey).imp_right Or.inr

lemma remove_cases (st : SemStore) (semid : Int32) :
    (st.findSet semid = none ∧ st.remove semid = (-EINVAL, st)) ∨
      ∃ i, st.findSet semid = some i ∧
        st.remove semid = (0, { (st.writeSet i (removedSet (st.sets i))) with
          undoEntries := st.undoEntries.clearUndoEntries semid 0 true }) := by
  unfold remove
  cases hf : st.findSet semid with
  | none => exact Or.inl ⟨rfl, rfl⟩
  | some i => exact Or.inr ⟨i, rfl, rfl⟩

/-! ### Setting values -/

/-- The set after `SETVAL`. -/
def valueSet (set : SemSet) (semnum : ℕ) (value : UInt32) (pid : Int32) (now : Int64) : SemSet :=
  { set with
    values := set.values.set semnum (value.toNat % 2 ^ 16)
    lastPids := set.lastPids.set semnum pid
    ctime := now }

lemma setval_cases (st : SemStore) (semid : Int32) (semnum : ℕ) (value : UInt32) (pid : Int32)
    (now : Int64) :
    Refused st (st.setval semid semnum value pid now) ∨
      ∃ i, st.findSet semid = some i ∧ semnum < (st.sets i).nsems ∧ value.toNat ≤ semMaxValue ∧
        st.setval semid semnum value pid now =
          (0, { (st.writeSet i (valueSet (st.sets i) semnum value pid now)) with
            undoEntries := st.undoEntries.clearUndoEntries semid semnum false }) := by
  unfold setval
  cases hf : st.findSet semid with
  | none => exact Or.inl (refused_error (by decide))
  | some i =>
    dsimp only
    split_ifs with h1 h2
    · exact Or.inl (refused_error (by decide))
    · exact Or.inl (refused_error (by decide))
    · exact Or.inr ⟨i, rfl, not_le.mp h1, not_lt.mp h2, rfl⟩

/-- The set after `SETALL`. -/
def valuesSet (set : SemSet) (values : List UInt16) (pid : Int32) (now : Int64) : SemSet :=
  { set with
    values := values.map UInt16.toNat
    lastPids := List.replicate values.length pid
    ctime := now }

lemma setall_cases (st : SemStore) (semid : Int32) (values : List UInt16) (pid : Int32)
    (now : Int64) :
    Refused st (st.setall semid values pid now) ∨
      ∃ i, st.findSet semid = some i ∧ values.length = (st.sets i).nsems ∧
        (∀ v ∈ values, v.toNat ≤ semMaxValue) ∧
        st.setall semid values pid now =
          (0, { (st.writeSet i (valuesSet (st.sets i) values pid now)) with
            undoEntries := st.undoEntries.clearUndoEntries semid 0 true }) := by
  unfold setall
  cases hf : st.findSet semid with
  | none => exact Or.inl (refused_error (by decide))
  | some i =>
    dsimp only
    split_ifs with h1 h2
    · exact Or.inl (refused_error (by decide))
    · exact Or.inl (refused_error (by decide))
    · refine Or.inr ⟨i, rfl, not_not.mp h1, ?_, rfl⟩
      intro v hv
      simp only [List.any_eq_true, decide_eq_true_eq, not_exists, not_and, not_lt] at h2
      exact h2 v hv

/-! ### Metadata and wait counts -/

lemma setMetadata_cases (st : SemStore) (semid : Int32) (uid gid mode : UInt32)
    (actor : SemIdentity) (now : Int64) :
    Refused st (st.setMetadata semid uid gid mode actor now) ∨
      ∃ i, st.findSet semid = some i ∧
        (actor.uid = (st.sets i).uid ∨ actor.uid = (st.sets i).cuid) ∧
        (gid = (st.sets i).gid ∨ gid = actor.gid) ∧ mode &&& ~~~0o777 = 0 ∧
        st.setMetadata semid uid gid mode actor now =
          (0, st.writeSet i { st.sets i with gid := gid, mode := mode, ctime := now }) := by
  unfold setMetadata
  cases hf : st.findSet semid with
  | none => exact Or.inl (refused_error (by decide))
  | some i =>
    dsimp only
    split_ifs with h1 h2
    · exact Or.inl (refused_error (by decide))
    · exact Or.inl (refused_error (by decide))
    · simp only [not_or, not_and, not_not] at h1 h2
      refine Or.inr ⟨i, rfl, ?_, ?_, h2.2.2, rfl⟩
      · exact or_iff_not_imp_left.mpr h1
      · exact or_iff_not_imp_left.mpr h2.2.1

/-- The set after an adjustment of one wait counter. -/
def countedSet (set : SemSet) (semnum : ℕ) (waitForZero : Bool) (adjustment : Int32) : SemSet :=
  let count := (set.waitCounts waitForZero).getD semnum 0
  set.setWaitCounts waitForZero ((set.waitCounts waitForZero).set semnum
    (if adjustment > 0 then count + 1 else count - 1))

lemma adjustWaitCount_cases (st : SemStore) (semid : Int32) (semnum : ℕ) (waitForZero : Bool)
    (adjustment : Int32) :
    Refused st (st.adjustWaitCount semid semnum waitForZero adjustment) ∨
      ∃ i, st.findSet semid = some i ∧ semnum < (st.sets i).nsems ∧
        (adjustment = 1 ∨ adjustment = -1) ∧
        st.adjustWaitCount semid semnum waitForZero adjustment =
          (0, st.writeSet i (countedSet (st.sets i) semnum waitForZero adjustment)) := by
  unfold adjustWaitCount
  cases hf : st.findSet semid with
  | none => exact Or.inl (refused_error (by decide))
  | some i =>
    dsimp only
    by_cases h1 : semnum ≥ (st.sets i).nsems ∨ adjustment ≠ 1 ∧ adjustment ≠ -1
    · rw [if_pos h1]
      exact Or.inl (refused_error (by decide))
    · rw [if_neg h1]
      simp only [not_or, not_le, not_and, not_not] at h1
      by_cases h2 : (adjustment > 0 ∧
            ((st.sets i).waitCounts waitForZero).getD semnum 0 = 4294967295) ∨
          (adjustment < 0 ∧ ((st.sets i).waitCounts waitForZero).getD semnum 0 = 0)
      · rw [if_pos h2]
        exact Or.inl (refused_error (by decide))
      · rw [if_neg h2]
        exact Or.inr ⟨i, rfl, h1.1, or_iff_not_imp_left.mpr h1.2, rfl⟩

/-! ### `tryop` -/

/-- Everything a request was checked for when the commit starts. -/
structure Planned (st : SemStore) (semid : Int32) (operations : List SemOp) (pid : Int32)
    (plan : TryopPlan) : Prop where
  found : st.findSet semid = some plan.index
  nonempty : operations ≠ []
  accepted : ∀ op ∈ operations, op.accepted (st.sets plan.index).nsems = true
  evaluated : operations.foldlM evaluateOp (st.sets plan.index).values = .ok plan.working
  accumulated : operations.foldlM accumulateUndo (fun _ => 0) = .ok plan.deltas
  reserved : ∃ required,
    (List.range (st.sets plan.index).nsems).foldlM
      (st.undoEntries.reserveUndo pid semid plan.deltas) 0 = .ok required ∧
    required ≤ st.undoEntries.freeEntries

theorem planTryop_ok {operations : List SemOp} {plan : TryopPlan} :
    st.planTryop semid operations pid = .ok plan ↔ st.Planned semid operations pid plan := by
  unfold planTryop
  constructor
  · intro h
    cases hf : st.findSet semid with
    | none => simp [hf] at h
    | some i =>
      simp only [hf] at h
      split_ifs at h with h1
      obtain ⟨working, hw, h⟩ := Fold.bind_eq_ok.mp h
      obtain ⟨deltas, hd, h⟩ := Fold.bind_eq_ok.mp h
      obtain ⟨required, hr, h⟩ := Fold.bind_eq_ok.mp h
      split_ifs at h with h2
      simp only [Except.ok.injEq] at h
      subst h
      simp only [not_or, Bool.not_eq_false, List.all_eq_true] at h1
      exact ⟨hf, h1.1, h1.2, hw, hd, required, hr, not_lt.mp h2⟩
  · rintro ⟨hf, hne, hacc, hw, hd, required, hr, hle⟩
    have h1 : ¬ (operations = [] ∨
        operations.all (·.accepted (st.sets plan.index).nsems) = false) := by
      simp only [not_or, Bool.not_eq_false, List.all_eq_true]
      exact ⟨hne, hacc⟩
    simp only [hf, if_neg h1, hw, hd, hr, bind, Except.bind, if_neg (not_lt.mpr hle)]

/-- The evaluation of the operations stops at one that has to wait. -/
def blocks (st : SemStore) (semid : Int32) (operations : List SemOp) : Bool :=
  match st.findSet semid with
  | none => false
  | some i =>
    if operations = [] ∨ operations.all (·.accepted (st.sets i).nsems) = false then false
    else
      match operations.foldlM evaluateOp (st.sets i).values with
      | .error r => decide (r.result = semOpBlocked)
      | .ok _ => false

/-- The first operation of a request that has to wait on the current values. -/
def blockingOp (st : SemStore) (semid : Int32) (operations : List SemOp) : Option SemOp :=
  (st.findSet semid).bind fun i =>
    if operations.all (·.accepted (st.sets i).nsems) = false then none
    else firstBlocked (st.sets i).values operations

/-- A request that is refused is told to wait at the operation that blocks it, and gets an error
when none does. -/
theorem planTryop_error {operations : List SemOp} {r : Refusal}
    (h : st.planTryop semid operations pid = .error r) :
    (r.result < 0 ∧ st.blocks semid operations = false) ∨
      (r.result = semOpBlocked ∧ st.blocks semid operations = true ∧
        ∃ op, st.blockingOp semid operations = some op ∧ r = blockedAt op) := by
  rw [planTryop] at h
  rw [blocks, blockingOp]
  cases hf : st.findSet semid with
  | none =>
    simp only [hf, Except.error.injEq] at h
    exact Or.inl ⟨h ▸ by decide, rfl⟩
  | some i =>
    simp only [hf] at h ⊢
    by_cases hacc : operations = [] ∨ operations.all (·.accepted (st.sets i).nsems) = false
    · rw [if_pos hacc] at h ⊢
      simp only [Except.error.injEq] at h
      exact Or.inl ⟨h ▸ by decide, rfl⟩
    · rw [if_neg hacc] at h ⊢
      rcases Fold.bind_eq_error.mp h with hw | ⟨working, hw, h⟩
      · rw [hw]
        rcases evaluate_error hw with ⟨hneg, -⟩ | ⟨hblocked, op, hop, heq⟩
        · refine Or.inl ⟨hneg, decide_eq_false ?_⟩
          intro hblocked
          rw [hblocked] at hneg
          exact absurd hneg (by decide)
        · refine Or.inr ⟨hblocked, decide_eq_true hblocked, op, ?_, heq⟩
          rw [Option.bind_some, if_neg fun hnot => hacc (Or.inr hnot), hop]
      · -- what comes after the evaluation only refuses with an error
        rw [hw]
        refine Or.inl ⟨?_, rfl⟩
        rcases Fold.bind_eq_error.mp h with hd | ⟨deltas, -, h⟩
        · obtain ⟨op, -, d, hstep⟩ := Fold.foldlM_error hd
          exact accumulateUndo_error hstep ▸ by decide
        · rcases Fold.bind_eq_error.mp h with hr | ⟨required, -, h⟩
          · obtain ⟨n, -, required, hstep⟩ := Fold.foldlM_error hr
            exact UndoTable.reserveUndo_error hstep ▸ by decide
          · split_ifs at h with hfull
            simp only [Except.error.injEq] at h
            exact h ▸ by decide

/-- A planned request does not block. -/
lemma Planned.blocks_eq_false {operations : List SemOp} {plan : TryopPlan}
    (hplan : st.Planned semid operations pid plan) : st.blocks semid operations = false := by
  have hacc : ¬ (operations = [] ∨
      operations.all (·.accepted (st.sets plan.index).nsems) = false) := by
    simp only [not_or, Bool.not_eq_false, List.all_eq_true]
    exact ⟨hplan.nonempty, hplan.accepted⟩
  simp only [blocks, hplan.found, if_neg hacc, hplan.evaluated]

lemma planTryop_error_ne_zero {operations : List SemOp} {r : Refusal}
    (h : st.planTryop semid operations pid = .error r) : r.result ≠ 0 := by
  rcases planTryop_error h with ⟨hneg, -⟩ | ⟨hblocked, -⟩
  · exact Int32.ne_of_lt hneg
  · rw [hblocked]
    decide

/-- The adjustments a planned request leaves are in range. -/
lemma Planned.delta_inRange {operations : List SemOp} {plan : TryopPlan}
    (hplan : st.Planned semid operations pid plan)
    (hnsems : (st.sets plan.index).nsems ≤ semMaxPerSet) {s : ℕ}
    (hs : s ∈ List.range (st.sets plan.index).nsems) (hz : plan.deltas s ≠ 0) :
    undoInRange (plan.deltas s + st.undoEntries.adjustmentOf pid semid s) := by
  obtain ⟨required, hreq, -⟩ := hplan.reserved
  exact (UndoTable.reserve_ok (UndoTable.lt_of_mem_range_nsems hnsems) hreq).2 s hs hz

/-- The store after a commit that ran to its end with undo table `t`. -/
def committedStore (st : SemStore) (operations : List SemOp) (pid : Int32) (now : Int64)
    (plan : TryopPlan) (t : UndoTable) : SemStore :=
  { (st.writeSet plan.index
      { committedSet (st.sets plan.index) plan operations pid with otime := now }) with
    undoEntries := t }

/-- The commit of a planned request succeeds: its loop over the undo table always finds the
slots the capacity check counted, so the return with `-ENOSPC` inside it is never taken. -/
theorem Planned.commit {operations : List SemOp} {plan : TryopPlan}
    (hplan : st.Planned semid operations pid plan) (now : Int64) (hwf : st.undoEntries.Wf)
    (hnsems : (st.sets plan.index).nsems ≤ 2 ^ 16) :
    ∃ t : UndoTable, t.Wf ∧
      st.undoEntries.AddedTo pid semid plan.deltas (List.range (st.sets plan.index).nsems) t ∧
      (List.range (st.sets plan.index).nsems).foldlM (UndoTable.commitUndo pid semid plan.deltas)
        st.undoEntries = .ok t ∧
      st.commitTryop semid operations pid now plan =
        (0, st.committedStore operations pid now plan t) := by
  have hlt : ∀ s ∈ List.range (st.sets plan.index).nsems, s < 2 ^ 16 := by
    intro s hs
    exact lt_of_lt_of_le (List.mem_range.mp hs) hnsems
  obtain ⟨required, hreq, hle⟩ := hplan.reserved
  obtain ⟨hcount, -⟩ := UndoTable.reserve_ok hlt hreq
  obtain ⟨t, ht, htwf, hadded, -⟩ :=
    hwf.commit_total hlt List.nodup_range (hcount ▸ hle)
  refine ⟨t, htwf, hadded, ht, ?_⟩
  have hn : (committedSet (st.sets plan.index) plan operations pid).nsems =
      (st.sets plan.index).nsems := rfl
  simp only [commitTryop, hn, ht, committedStore]

/-! ### Process exit -/

/-- The entries process exit retires. -/
def Exiting (pid : Int32) (e : UndoEntry) : Prop :=
  e.active = true ∧ e.pid = pid

lemma not_exiting_iff {e : UndoEntry} : ¬ Exiting pid e ↔ e.active = false ∨ e.pid ≠ pid := by
  rw [Exiting, not_and_or, Bool.not_eq_true]

/-- One iteration: it passes over an entry of another process, or retires an entry of this one,
after it has restored the semaphore if that exists. -/
lemma processExitEntry_cases (pid : Int32) (now : Fin semMaxUndoEntries → Int64)
    (acc : Int32 × SemStore) (k : Fin semMaxUndoEntries) :
    (¬ Exiting pid (acc.2.undoEntries k) ∧ processExitEntry pid now acc k = acc) ∨
    (Exiting pid (acc.2.undoEntries k) ∧
      (∀ i, acc.2.findSet (acc.2.undoEntries k).semid = some i →
        (acc.2.sets i).nsems ≤ (acc.2.undoEntries k).semnum) ∧
      processExitEntry pid now acc k = (acc.1, acc.2.retireEntry k)) ∨
    (Exiting pid (acc.2.undoEntries k) ∧
      ∃ i, acc.2.findSet (acc.2.undoEntries k).semid = some i ∧
        (acc.2.undoEntries k).semnum < (acc.2.sets i).nsems ∧
        processExitEntry pid now acc k = (1, (acc.2.writeSet i
          (restoreEntry (acc.2.sets i) (acc.2.undoEntries k) pid (now k))).retireEntry k)) := by
  obtain ⟨changed, st⟩ := acc
  dsimp only
  by_cases hexit : Exiting pid (st.undoEntries k)
  · refine Or.inr ?_
    have hcond : ¬ ((st.undoEntries k).active = false ∨ (st.undoEntries k).pid ≠ pid) :=
      fun hskip => not_exiting_iff.mpr hskip hexit
    simp only [processExitEntry, if_neg hcond]
    cases hfound : st.findSet (st.undoEntries k).semid with
    | none => exact Or.inl ⟨hexit, fun i hi => (by cases hi), rfl⟩
    | some i =>
      by_cases hlt : (st.undoEntries k).semnum < (st.sets i).nsems
      · exact Or.inr ⟨hexit, i, rfl, hlt, if_pos hlt⟩
      · refine Or.inl ⟨hexit, fun j hj => ?_, if_neg hlt⟩
        cases hj
        exact not_lt.mp hlt
  · refine Or.inl ⟨hexit, ?_⟩
    simp only [processExitEntry, if_pos (not_exiting_iff.mp hexit)]

end SemStore

end Tgcompat
