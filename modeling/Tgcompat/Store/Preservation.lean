import Tgcompat.Library.Transition
import Tgcompat.Store.Effects
import Tgcompat.Store.Evaluation
import Tgcompat.Store.Invariant

/-!
# Every operation keeps the representation invariant
-/

namespace Tgcompat

namespace SemStore

variable {st : SemStore} {semid pid : Int32} {i : Fin semMaxSets}

/-! ### Creation and removal -/

lemma generationOk_fresh (h : st.Inv) (i : Fin semMaxSets) (key nsems flags : Int32)
    (identity : SemIdentity) (now : Int64) :
    GenerationOk (freshSet (st.sets i) key nsems flags identity now).generation := by
  have hle := h.generation_le i
  simp only [freshSet, GenerationOk]
  split_ifs with hz
  · exact ⟨le_refl 1, by decide⟩
  · exact ⟨Nat.one_le_iff_ne_zero.mpr hz, hle⟩

lemma freshSet_nsems (old : SemSet) (key flags : Int32) (identity : SemIdentity) (now : Int64)
    {nsems : Int32} (hle : nsems.toInt ≤ semMaxPerSet) :
    (freshSet old key nsems flags identity now).nsems = nsems.toInt.toNat := by
  have hmax : semMaxPerSet = 512 := rfl
  simp only [freshSet]
  omega

/-- Writing one slot leaves the resolution of the other slots alone. -/
lemma findSet_writeSet_of_ne {set : SemSet} {id : Int32} {j : Fin semMaxSets} (hne : j ≠ i) :
    (st.writeSet i set).findSet id = some j ↔ st.findSet id = some j := by
  rw [findSet_eq_some_iff, findSet_eq_some_iff, idOf, idOf, writeSet_sets_of_ne _ hne]

/-- A set that resolves is not in the slot that creation takes. -/
lemma findSet_create {set : SemSet} (hfree : (st.sets i).active = false) {id : Int32}
    {j : Fin semMaxSets} (hj : st.findSet id = some j) :
    (st.writeSet i set).findSet id = some j ∧ j ≠ i := by
  have hne : j ≠ i := by
    rintro rfl
    rw [active_of_findSet hj] at hfree
    cases hfree
  exact ⟨(findSet_writeSet_of_ne hne).mpr hj, hne⟩

theorem Inv.create (h : st.Inv) {key nsems flags : Int32} {identity : SemIdentity} {now : Int64}
    (hc : st.Creates key nsems i) :
    (st.writeSet i (freshSet (st.sets i) key nsems flags identity now)).Inv where
  generation_le := by
    intro j
    by_cases hj : j = i
    · subst hj
      rw [writeSet_sets_self]
      exact (generationOk_fresh h j key nsems flags identity now).2
    · rw [writeSet_sets_of_ne _ hj]
      exact h.generation_le j
  valid := by
    intro j hj
    by_cases hji : j = i
    · subst hji
      rw [writeSet_sets_self]
      have hn := freshSet_nsems (st.sets j) key flags identity now hc.nsems_le
      have hpos := hc.nsems_pos
      have hle := hc.nsems_le
      refine ⟨generationOk_fresh h j key nsems flags identity now, ?_, ?_, ?_, ?_, ?_, ?_, ?_,
        ?_, rfl⟩
      · rw [hn]; omega
      · rw [hn]; omega
      · rw [hn]; simp [freshSet]
      · rw [hn]; simp [freshSet]
      · rw [hn]; simp [freshSet]
      · rw [hn]; simp [freshSet]
      · intro v hv
        simp only [freshSet, List.mem_replicate] at hv
        omega
      · simp only [freshSet, UInt32.and_assoc]
        have : (0o777 : UInt32) &&& ~~~0o777 = 0 := by decide
        rw [this, UInt32.and_zero]
    · rw [writeSet_sets_of_ne _ hji] at hj ⊢
      exact h.valid j hj
  keys := by
    intro j k hj hk hne heq
    by_cases hji : j = i <;> by_cases hki : k = i
    · rw [hji, hki]
    · subst hji
      rw [writeSet_sets_self] at hne heq
      rw [writeSet_sets_of_ne _ hki] at hk heq
      exact absurd heq.symm (hc.unused hne k hk)
    · subst hki
      rw [writeSet_sets_self] at heq
      rw [writeSet_sets_of_ne _ hji] at hj hne heq
      simp only [freshSet] at heq
      exact absurd heq (hc.unused (heq ▸ hne) j hj)
    · rw [writeSet_sets_of_ne _ hji] at hj hne heq
      rw [writeSet_sets_of_ne _ hki] at hk heq
      exact h.keys j k hj hk hne heq
  entries := by
    intro k hk
    obtain ⟨⟨j, hj, hlt⟩, hrange⟩ := h.entries k hk
    obtain ⟨hj', hne⟩ := findSet_create hc.free hj
    exact ⟨⟨j, hj', by rwa [writeSet_sets_of_ne _ hne]⟩, hrange⟩
  undo := h.undo

lemma nextGeneration_ok {g : ℕ} : GenerationOk (nextGeneration g) := by
  have hmax : semIdMaxGeneration = 32767 := rfl
  unfold nextGeneration GenerationOk
  by_cases hg : g ≥ semIdMaxGeneration
  · rw [if_pos hg]
    omega
  · rw [if_neg hg]
    omega

/-- Removal leaves the resolution of every other id alone. -/
lemma findSet_removed (hf : st.findSet semid = some i) {id : Int32}
    {j : Fin semMaxSets} (hj : st.findSet id = some j) (hne : id ≠ semid) :
    (st.writeSet i (removedSet (st.sets i))).findSet id = some j ∧ j ≠ i := by
  have hji : j ≠ i := by
    rintro rfl
    exact hne ((eq_idOf_of_findSet hj).trans (eq_idOf_of_findSet hf).symm)
  exact ⟨(findSet_writeSet_of_ne hji).mpr hj, hji⟩

theorem Inv.remove (h : st.Inv) (hf : st.findSet semid = some i) :
    ({ (st.writeSet i (removedSet (st.sets i))) with
        undoEntries := st.undoEntries.clearUndoEntries semid 0 true } : SemStore).Inv where
  generation_le := by
    intro j
    by_cases hj : j = i
    · subst hj
      simp only [writeSet_sets_self]
      exact nextGeneration_ok.2
    · simp only [writeSet_sets_of_ne _ hj]
      exact h.generation_le j
  valid := by
    intro j hj
    by_cases hji : j = i
    · subst hji
      simp [removedSet, SemSet.zero] at hj
    · simp only [writeSet_sets_of_ne _ hji] at hj ⊢
      exact h.valid j hj
  keys := by
    intro j k hj hk hne heq
    by_cases hji : j = i
    · subst hji
      simp [removedSet, SemSet.zero] at hj
    · by_cases hki : k = i
      · subst hki
        simp [removedSet, SemSet.zero] at hk
      · simp only [writeSet_sets_of_ne _ hji] at hj hne heq
        simp only [writeSet_sets_of_ne _ hki] at hk heq
        exact h.keys j k hj hk hne heq
  entries := by
    intro k hk
    by_cases hc : UndoTable.Cleared semid 0 true (st.undoEntries k)
    · rw [UndoTable.clear_off k hc] at hk
      cases hk
    · simp only [UndoTable.clear_on k hc] at hk ⊢
      obtain ⟨⟨j, hj, hlt⟩, hrange⟩ := h.entries k hk
      have hne : (st.undoEntries k).semid ≠ semid := fun he => hc ⟨hk, he, Or.inl rfl⟩
      obtain ⟨hj', hji⟩ := findSet_removed hf hj hne
      exact ⟨⟨j, hj', by simpa only [writeSet_sets_of_ne _ hji] using hlt⟩, hrange⟩
  undo := h.undo.clear semid 0 true

/-! ### Values, metadata and counters -/

lemma valid_valueSet {set : SemSet} (hv : set.Valid) {semnum : ℕ} {value : UInt32} {now : Int64}
    (hle : value.toNat ≤ semMaxValue) : (valueSet set semnum value pid now).Valid :=
  { hv with
    values_length := by simpa [valueSet] using hv.values_length
    lastPids_length := by simpa [valueSet] using hv.lastPids_length
    values_le := by
      intro v hmem
      rcases List.mem_or_eq_of_mem_set hmem with hmem | rfl
      · exact hv.values_le v hmem
      · exact le_trans (Nat.mod_le _ _) hle }

lemma valid_valuesSet {set : SemSet} (hv : set.Valid) {values : List UInt16} {now : Int64}
    (hlen : values.length = set.nsems) (hle : ∀ v ∈ values, v.toNat ≤ semMaxValue) :
    (valuesSet set values pid now).Valid :=
  { hv with
    values_length := by simpa [valuesSet] using hlen
    lastPids_length := by simpa [valuesSet] using hlen
    values_le := by
      intro v hmem
      simp only [valuesSet, List.mem_map] at hmem
      obtain ⟨w, hw, rfl⟩ := hmem
      exact hle w hw }

lemma valid_countedSet {set : SemSet} (hv : set.Valid) (semnum : ℕ) (waitForZero : Bool)
    (adjustment : Int32) : (countedSet set semnum waitForZero adjustment).Valid := by
  cases waitForZero with
  | false =>
    exact { hv with
      negativeWaiters_length := by
        simpa [countedSet, SemSet.setWaitCounts, SemSet.waitCounts] using
          hv.negativeWaiters_length }
  | true =>
    exact { hv with
      zeroWaiters_length := by
        simpa [countedSet, SemSet.setWaitCounts, SemSet.waitCounts] using
          hv.zeroWaiters_length }

lemma sameFrame_countedSet (set : SemSet) (semnum : ℕ) (waitForZero : Bool)
    (adjustment : Int32) : set.SameFrame (countedSet set semnum waitForZero adjustment) := by
  cases waitForZero <;> exact ⟨rfl, rfl, rfl, rfl⟩

/-! ### Process exit -/

lemma restoredValue_le (value : ℕ) (adjustment : ℤ) :
    restoredValue value adjustment ≤ semMaxValue := by
  simp only [restoredValue]
  split_ifs with h1 h2
  · exact Nat.zero_le _
  · exact le_refl _
  · omega

lemma valid_restoreEntry {set : SemSet} (hv : set.Valid) (entry : UndoEntry) (pid : Int32)
    (now : Int64) : (restoreEntry set entry pid now).Valid :=
  { hv with
    values_length := by simpa [restoreEntry] using hv.values_length
    lastPids_length := by simpa [restoreEntry] using hv.lastPids_length
    values_le := by
      intro v hmem
      rcases List.mem_or_eq_of_mem_set hmem with hmem | rfl
      · exact hv.values_le v hmem
      · exact restoredValue_le _ _ }

lemma Inv.retireEntry (h : st.Inv) (k : Fin semMaxUndoEntries) : (st.retireEntry k).Inv where
  generation_le := h.generation_le
  valid := h.valid
  keys := h.keys
  entries := by
    intro j hj
    by_cases hjk : j = k
    · subst hjk
      simp [SemStore.retireEntry] at hj
    · simp only [SemStore.retireEntry, Function.update_of_ne hjk] at hj ⊢
      obtain ⟨hres, hrange⟩ := h.entries j hj
      exact ⟨hres, hrange⟩
  undo := by
    apply UndoTable.wf_update h.undo
    · intro hk
      cases hk
    · intro hk
      cases hk

lemma Inv.processExitEntry (h : st.Inv) (changed pid : Int32)
    (now : Fin semMaxUndoEntries → Int64) (k : Fin semMaxUndoEntries) :
    (processExitEntry pid now (changed, st) k).2.Inv := by
  rcases processExitEntry_cases pid now (changed, st) k with ⟨-, heq⟩ | ⟨-, -, heq⟩ |
    ⟨-, i, hf, -, heq⟩
  · rw [heq]
    exact h
  · rw [heq]
    exact h.retireEntry k
  · rw [heq]
    have hframe : (st.sets i).SameFrame
        (restoreEntry (st.sets i) (st.undoEntries k) pid (now k)) := ⟨rfl, rfl, rfl, rfl⟩
    have hvalid := valid_restoreEntry (h.valid_of_findSet hf) (st.undoEntries k) pid (now k)
    exact (h.rewriteSet hframe fun _ => hvalid).retireEntry k

theorem Inv.processExit (h : st.Inv) (pid : Int32) (now : Fin semMaxUndoEntries → Int64) :
    (st.processExit pid now).2.Inv := by
  unfold SemStore.processExit
  split_ifs
  · exact h
  · exact Transition.foldl_invariant (I := fun acc : Int32 × SemStore => acc.2.Inv)
      (fun acc k hacc => Inv.processExitEntry hacc acc.1 pid now k) h _

/-! ### `tryop` -/

lemma length_foldl_set (ops : List SemOp) (pids : List Int32) (pid : Int32) :
    (ops.foldl (fun pids op => pids.set op.semNum.toNat pid) pids).length = pids.length := by
  induction ops generalizing pids with
  | nil => rfl
  | cons op ops ih => simp [ih]

lemma valid_committedSet {set : SemSet} (hv : set.Valid) {plan : TryopPlan}
    {operations : List SemOp} (hw : operations.foldlM evaluateOp set.values = .ok plan.working)
    (now : Int64) :
    SemSet.Valid { committedSet set plan operations pid with otime := now } := by
  obtain ⟨hlen, hle⟩ := evaluate_ok hv.values_le hw
  exact { hv with
    values_length := hlen.trans hv.values_length
    lastPids_length := by simpa [committedSet, length_foldl_set] using hv.lastPids_length
    values_le := hle }

/-- The commit of a planned request in a store with the invariant. -/
lemma Inv.commit (h : st.Inv) {operations : List SemOp} {plan : TryopPlan}
    (hplan : st.Planned semid operations pid plan) (now : Int64) :
    ∃ t : UndoTable, t.Wf ∧
      st.undoEntries.AddedTo pid semid plan.deltas (List.range (st.sets plan.index).nsems) t ∧
      (List.range (st.sets plan.index).nsems).foldlM (UndoTable.commitUndo pid semid plan.deltas)
        st.undoEntries = .ok t ∧
      st.tryopDetail semid operations pid now =
        (0, none, st.committedStore operations pid now plan t) := by
  obtain ⟨t, hwf, hadded, hloop, hcommit⟩ := hplan.commit now h.undo
    (le_trans (h.valid_of_findSet hplan.found).nsems_le (by decide))
  refine ⟨t, hwf, hadded, hloop, ?_⟩
  simp only [SemStore.tryopDetail, planTryop_ok.mpr hplan, hcommit]

/-- `tryop` refuses and keeps the store, or commits and returns zero. -/
theorem Inv.tryopDetail_cases (h : st.Inv) (semid : Int32) (operations : List SemOp)
    (pid : Int32) (now : Int64) :
    (∃ r, st.planTryop semid operations pid = .error r ∧
      st.tryopDetail semid operations pid now = (r.result, r.reason, st)) ∨
    ∃ plan t, st.Planned semid operations pid plan ∧ t.Wf ∧
      st.undoEntries.AddedTo pid semid plan.deltas (List.range (st.sets plan.index).nsems) t ∧
      st.tryopDetail semid operations pid now =
        (0, none, st.committedStore operations pid now plan t) := by
  cases hp : st.planTryop semid operations pid with
  | error r => exact Or.inl ⟨r, rfl, by rw [SemStore.tryopDetail, hp]⟩
  | ok plan =>
    have hplan := planTryop_ok.mp hp
    obtain ⟨t, hwf, hadded, -, heq⟩ := h.commit hplan now
    exact Or.inr ⟨plan, t, hplan, hwf, hadded, heq⟩

theorem Inv.tryopDetail (h : st.Inv) (semid : Int32) (operations : List SemOp) (pid : Int32)
    (now : Int64) : (st.tryopDetail semid operations pid now).2.2.Inv := by
  rcases h.tryopDetail_cases semid operations pid now with ⟨r, -, heq⟩ |
    ⟨plan, t, hplan, htwf, hadded, heq⟩
  · rw [heq]
    exact h
  · rw [heq]
    have hvalid := h.valid_of_findSet hplan.found
    -- the values first, then the undo table over them
    have hframe : (st.sets plan.index).SameFrame
        { committedSet (st.sets plan.index) plan operations pid with otime := now } :=
      ⟨rfl, rfl, rfl, rfl⟩
    have hset := h.rewriteSet hframe fun _ => valid_committedSet hvalid hplan.evaluated now
    apply hset.withUndo htwf
    intro p id s hne
    rw [findSet_writeSet hframe]
    rw [hadded] at hne ⊢
    by_cases hkey : p = pid ∧ id = semid ∧ s ∈ List.range (st.sets plan.index).nsems
    · obtain ⟨rfl, rfl, hs⟩ := hkey
      refine ⟨⟨plan.index, hplan.found, ?_⟩, ?_⟩
      · rw [nsems_writeSet hframe]
        exact List.mem_range.mp hs
      · rw [if_pos ⟨rfl, rfl, hs⟩] at hne ⊢
        by_cases hz : plan.deltas s = 0
        · rw [hz, add_zero] at hne ⊢
          exact (h.ledger hne).2
        · rw [add_comm]
          exact hplan.delta_inRange hvalid.nsems_le hs hz
    · rw [if_neg hkey, add_zero] at hne ⊢
      obtain ⟨⟨j, hj, hlt⟩, hr⟩ := h.ledger hne
      exact ⟨⟨j, hj, by rwa [nsems_writeSet hframe]⟩, hr⟩

end SemStore

end Tgcompat
