import Tgcompat.Store.Preservation

/-!
# Runs of the store

A run is a finite list of calls of the operations that change the store, with any arguments. The
representation invariant holds after every run.
-/

namespace Tgcompat

/-- A call of one of the operations that change the store. -/
inductive StoreOp where
  | getAs (key nsems flags : Int32) (identity : SemIdentity) (allocated : Bool) (now : Int64)
  | remove (semid : Int32)
  | setval (semid : Int32) (semnum : ℕ) (value : UInt32) (pid : Int32) (now : Int64)
  | setall (semid : Int32) (values : List UInt16) (pid : Int32) (now : Int64)
  | setMetadata (semid : Int32) (uid gid mode : UInt32) (actor : SemIdentity) (now : Int64)
  | adjustWaitCount (semid : Int32) (semnum : ℕ) (waitForZero : Bool) (adjustment : Int32)
  | tryopDetail (semid : Int32) (operations : List SemOp) (pid : Int32) (now : Int64)
  | processExit (pid : Int32) (now : Fin semMaxUndoEntries → Int64)

namespace SemStore

variable {st : SemStore}

/-- The result of a call and the store it leaves. -/
def perform (st : SemStore) : StoreOp → Int32 × SemStore
  | .getAs key nsems flags identity allocated now =>
    st.getAs key nsems flags identity allocated now
  | .remove semid => st.remove semid
  | .setval semid semnum value pid now => st.setval semid semnum value pid now
  | .setall semid values pid now => st.setall semid values pid now
  | .setMetadata semid uid gid mode actor now => st.setMetadata semid uid gid mode actor now
  | .adjustWaitCount semid semnum waitForZero adjustment =>
    st.adjustWaitCount semid semnum waitForZero adjustment
  | .tryopDetail semid operations pid now =>
    ((st.tryopDetail semid operations pid now).1, (st.tryopDetail semid operations pid now).2.2)
  | .processExit pid now => st.processExit pid now

/-- The store after one call. -/
def next (st : SemStore) (op : StoreOp) : SemStore := (st.perform op).2

/-- The store after a list of calls. -/
def run (st : SemStore) (ops : List StoreOp) : SemStore := ops.foldl next st

/-- The calls of a run, each with the store it was made on. -/
def trace (st : SemStore) (ops : List StoreOp) : List (SemStore × StoreOp) :=
  Transition.history next st ops

@[simp] lemma run_nil (st : SemStore) : st.run [] = st := rfl

@[simp] lemma run_snoc (st : SemStore) (ops : List StoreOp) (op : StoreOp) :
    st.run (ops ++ [op]) = (st.run ops).next op := by
  simp [run]

lemma run_append (st : SemStore) (ops ops' : List StoreOp) :
    st.run (ops ++ ops') = (st.run ops).run ops' := by
  simp [run]

@[simp] lemma trace_nil (st : SemStore) : st.trace [] = [] := rfl

@[simp] lemma trace_snoc (st : SemStore) (ops : List StoreOp) (op : StoreOp) :
    st.trace (ops ++ [op]) = st.trace ops ++ [(st.run ops, op)] := by
  simp [trace, run]

lemma trace_append (st : SemStore) (ops ops' : List StoreOp) :
    st.trace (ops ++ ops') = st.trace ops ++ (st.run ops).trace ops' :=
  Transition.history_append st ops ops'

/-! ### The invariant along a run -/

lemma Inv.getAs (h : st.Inv) (key nsems flags : Int32) (identity : SemIdentity)
    (allocated : Bool) (now : Int64) :
    (st.getAs key nsems flags identity allocated now).2.Inv := by
  rcases st.getAs_cases key nsems flags identity allocated now with ⟨-, heq⟩ | ⟨i, -, heq⟩ |
    ⟨i, hc, heq⟩
  · rw [heq]
    exact h
  · rw [heq]
    exact h
  · rw [heq]
    exact h.create hc

/-- Every operation keeps the invariant. -/
theorem Inv.next (h : st.Inv) (op : StoreOp) : (st.next op).Inv := by
  cases op with
  | getAs key nsems flags identity allocated now =>
    exact h.getAs key nsems flags identity allocated now
  | remove semid =>
    simp only [SemStore.next, perform]
    rcases st.remove_cases semid with ⟨-, heq⟩ | ⟨i, hf, heq⟩
    · rw [heq]
      exact h
    · rw [heq]
      exact h.remove hf
  | setval semid semnum value pid now =>
    simp only [SemStore.next, perform]
    rcases st.setval_cases semid semnum value pid now with ⟨-, heq⟩ | ⟨i, hf, -, hle, heq⟩
    · rw [heq]
      exact h
    · rw [heq]
      have hframe : (st.sets i).SameFrame (valueSet (st.sets i) semnum value pid now) :=
        ⟨rfl, rfl, rfl, rfl⟩
      have hset := h.rewriteSet hframe fun _ => valid_valueSet (h.valid_of_findSet hf) hle
      exact hset.clearUndo semid semnum false
  | setall semid values pid now =>
    simp only [SemStore.next, perform]
    rcases st.setall_cases semid values pid now with ⟨-, heq⟩ | ⟨i, hf, hlen, hle, heq⟩
    · rw [heq]
      exact h
    · rw [heq]
      have hframe : (st.sets i).SameFrame (valuesSet (st.sets i) values pid now) :=
        ⟨rfl, rfl, rfl, rfl⟩
      have hset := h.rewriteSet hframe fun _ => valid_valuesSet (h.valid_of_findSet hf) hlen hle
      exact hset.clearUndo semid 0 true
  | setMetadata semid uid gid mode actor now =>
    simp only [SemStore.next, perform]
    rcases st.setMetadata_cases semid uid gid mode actor now with
      ⟨-, heq⟩ | ⟨i, hf, -, -, hmode, heq⟩
    · rw [heq]
      exact h
    · rw [heq]
      have hvalid := h.valid_of_findSet hf
      exact h.rewriteSet ⟨rfl, rfl, rfl, rfl⟩ fun _ => { hvalid with mode := hmode }
  | adjustWaitCount semid semnum waitForZero adjustment =>
    simp only [SemStore.next, perform]
    rcases st.adjustWaitCount_cases semid semnum waitForZero adjustment with
      ⟨-, heq⟩ | ⟨i, hf, -, -, heq⟩
    · rw [heq]
      exact h
    · rw [heq]
      exact h.rewriteSet (sameFrame_countedSet _ _ _ _) fun _ =>
        valid_countedSet (h.valid_of_findSet hf) semnum waitForZero adjustment
  | tryopDetail semid operations pid now => exact h.tryopDetail semid operations pid now
  | processExit pid now => exact h.processExit pid now

theorem inv_run (ops : List StoreOp) : (create.run ops).Inv :=
  Transition.foldl_invariant (I := Inv) (fun _ op h => h.next op) inv_create ops

/-- After every run from a new store: active sets are well formed; their keys (other than
`IPC_PRIVATE`) and their ids are pairwise different, and each id is positive and decodes to its
slot; every active undo entry names a semaphore of a resolvable id, records a non-zero adjustment in
range, and shares its key with no other active entry. -/
theorem run_representation (ops : List StoreOp) :
    let st := create.run ops
    (∀ i, (st.sets i).active = true →
      (1 ≤ (st.sets i).generation ∧ (st.sets i).generation ≤ 0x7fff) ∧
      (1 ≤ (st.sets i).nsems ∧ (st.sets i).nsems ≤ 512) ∧
      (st.sets i).values.length = (st.sets i).nsems ∧
      (st.sets i).lastPids.length = (st.sets i).nsems ∧
      (st.sets i).negativeWaiters.length = (st.sets i).nsems ∧
      (st.sets i).zeroWaiters.length = (st.sets i).nsems ∧
      (∀ v ∈ (st.sets i).values, v ≤ 32767) ∧
      (st.sets i).mode &&& ~~~0o777 = 0 ∧
      (st.sets i).uid = (st.sets i).cuid) ∧
    (∀ i j, (st.sets i).active = true → (st.sets j).active = true →
      i ≠ j →
      ((st.sets i).key ≠ ipcPrivate →
        (st.sets i).key ≠ (st.sets j).key) ∧
      st.idOf i ≠ st.idOf j) ∧
    (∀ i, (st.sets i).active = true →
      0 < st.idOf i ∧
      decodeId (st.idOf i) = some (i, (st.sets i).generation) ∧
      st.findSet (st.idOf i) = some i) ∧
    (∀ k, (st.undoEntries k).active = true →
      (∃ i, st.findSet (st.undoEntries k).semid = some i ∧
        (st.undoEntries k).semnum < (st.sets i).nsems) ∧
      (st.undoEntries k).adjustment ≠ 0 ∧
      -32768 ≤ (st.undoEntries k).adjustment ∧
      (st.undoEntries k).adjustment ≤ 32767) ∧
    (∀ k l, (st.undoEntries k).active = true →
      (st.undoEntries l).active = true →
      (st.undoEntries k).pid = (st.undoEntries l).pid →
      (st.undoEntries k).semid = (st.undoEntries l).semid →
      (st.undoEntries k).semnum = (st.undoEntries l).semnum →
      k = l) := by
  intro st
  have h : st.Inv := inv_run ops
  refine ⟨?_, ?_, ?_, ?_, ?_⟩
  · intro i hi
    have hv := h.valid i hi
    exact ⟨hv.generation, ⟨hv.nsems_pos, hv.nsems_le⟩, hv.values_length, hv.lastPids_length,
      hv.negativeWaiters_length, hv.zeroWaiters_length, hv.values_le, hv.mode, hv.owner⟩
  · intro i j hi hj hij
    refine ⟨fun hkey heq => hij (h.keys i j hi hj hkey heq), fun heq => hij ?_⟩
    exact idOf_inj (h.valid i hi).generation (h.valid j hj).generation heq
  · intro i hi
    have hg := (h.valid i hi).generation
    exact ⟨makeId_pos i.isLt hg.2, decodeId_eq_some_iff.mpr ⟨hg, rfl⟩, h.findSet_idOf hi⟩
  · intro k hk
    obtain ⟨hres, hrange⟩ := h.entries k hk
    exact ⟨hres, h.undo.nonzero k hk, hrange.1, hrange.2⟩
  · intro k l hk hl hpid hsemid hsemnum
    exact h.undo.distinct k l hk hl (by simp [hpid, hsemid, hsemnum])

end SemStore

end Tgcompat
