import Tgcompat.Store.Ids
import Tgcompat.Store.Operations
import Tgcompat.Store.Undo

/-!
# The representation invariant of the store

The set table and the undo table refer to each other by id. `SemStore.Inv` says when the two fit
together; every operation keeps it. An operation either rewrites one active set in place
(`Inv.rewriteSet`), changes undo entries (`Inv.withUndo`), or makes a slot active or inactive.
-/

namespace Tgcompat

/-- What holds of an active set. -/
structure SemSet.Valid (set : SemSet) : Prop where
  generation : GenerationOk set.generation
  nsems_pos : 1 ≤ set.nsems
  nsems_le : set.nsems ≤ semMaxPerSet
  values_length : set.values.length = set.nsems
  lastPids_length : set.lastPids.length = set.nsems
  negativeWaiters_length : set.negativeWaiters.length = set.nsems
  zeroWaiters_length : set.zeroWaiters.length = set.nsems
  values_le : ∀ v ∈ set.values, v ≤ semMaxValue
  mode : set.mode &&& ~~~0o777 = 0
  owner : set.uid = set.cuid

/-- Two versions of a slot that look the same to the rest of the store. -/
structure SemSet.SameFrame (a b : SemSet) : Prop where
  key : b.key = a.key
  generation : b.generation = a.generation
  nsems : b.nsems = a.nsems
  active : b.active = a.active

/-- What holds of an active undo entry. -/
structure UndoEntry.Valid (st : SemStore) (e : UndoEntry) : Prop where
  resolves : ∃ i, st.findSet e.semid = some i ∧ e.semnum < (st.sets i).nsems
  range : undoInRange e.adjustment

/-- The representation invariant. -/
structure SemStore.Inv (st : SemStore) : Prop where
  generation_le : ∀ i, (st.sets i).generation ≤ semIdMaxGeneration
  valid : ∀ i, (st.sets i).active = true → (st.sets i).Valid
  keys : ∀ i j, (st.sets i).active = true → (st.sets j).active = true →
    (st.sets i).key ≠ ipcPrivate → (st.sets i).key = (st.sets j).key → i = j
  entries : ∀ k, (st.undoEntries k).active = true → (st.undoEntries k).Valid st
  undo : st.undoEntries.Wf

namespace SemStore

variable {st : SemStore} {semid pid : Int32} {i j : Fin semMaxSets}

theorem inv_create : create.Inv where
  generation_le := by
    intro i
    simp [create, SemSet.zero]
  valid := by
    intro i hi
    simp [create, SemSet.zero] at hi
  keys := by
    intro i j hi
    simp [create, SemSet.zero] at hi
  entries := by
    intro k hk
    simp [create, UndoEntry.zero] at hk
  undo := UndoTable.wf_create

namespace Inv

/-- Under the invariant the resolvable ids are the ids of the active slots. -/
lemma findSet_iff (h : st.Inv) :
    st.findSet semid = some i ↔ (st.sets i).active = true ∧ semid = st.idOf i := by
  rw [findSet_eq_some_iff]
  constructor
  · rintro ⟨ha, -, hid⟩
    exact ⟨ha, hid⟩
  · rintro ⟨ha, hid⟩
    exact ⟨ha, (h.valid i ha).generation, hid⟩

lemma findSet_idOf (h : st.Inv) (ha : (st.sets i).active = true) :
    st.findSet (st.idOf i) = some i :=
  h.findSet_iff.mpr ⟨ha, rfl⟩

lemma valid_of_findSet (h : st.Inv) (hf : st.findSet semid = some i) : (st.sets i).Valid :=
  h.valid i (active_of_findSet hf)

end Inv

/-! ### In-place changes of one set -/

section SameFrame

variable {set : SemSet}

lemma active_writeSet (hframe : (st.sets i).SameFrame set) (j : Fin semMaxSets) :
    ((st.writeSet i set).sets j).active = (st.sets j).active := by
  by_cases hj : j = i
  · subst hj
    rw [writeSet_sets_self, hframe.active]
  · rw [writeSet_sets_of_ne _ hj]

lemma generation_writeSet (hframe : (st.sets i).SameFrame set) (j : Fin semMaxSets) :
    ((st.writeSet i set).sets j).generation = (st.sets j).generation := by
  by_cases hj : j = i
  · subst hj
    rw [writeSet_sets_self, hframe.generation]
  · rw [writeSet_sets_of_ne _ hj]

lemma nsems_writeSet (hframe : (st.sets i).SameFrame set) (j : Fin semMaxSets) :
    ((st.writeSet i set).sets j).nsems = (st.sets j).nsems := by
  by_cases hj : j = i
  · subst hj
    rw [writeSet_sets_self, hframe.nsems]
  · rw [writeSet_sets_of_ne _ hj]

lemma key_writeSet (hframe : (st.sets i).SameFrame set) (j : Fin semMaxSets) :
    ((st.writeSet i set).sets j).key = (st.sets j).key := by
  by_cases hj : j = i
  · subst hj
    rw [writeSet_sets_self, hframe.key]
  · rw [writeSet_sets_of_ne _ hj]

lemma findSet_writeSet (hframe : (st.sets i).SameFrame set) (semid : Int32) :
    (st.writeSet i set).findSet semid = st.findSet semid :=
  findSet_congr (active_writeSet hframe) (generation_writeSet hframe) semid

/-- Rewriting an active set in place keeps the invariant. -/
theorem Inv.rewriteSet (h : st.Inv) (hframe : (st.sets i).SameFrame set)
    (hvalid : set.active = true → set.Valid) : (st.writeSet i set).Inv where
  generation_le := by
    intro j
    rw [generation_writeSet hframe]
    exact h.generation_le j
  valid := by
    intro j hj
    by_cases hji : j = i
    · subst hji
      rw [writeSet_sets_self] at hj ⊢
      exact hvalid hj
    · rw [writeSet_sets_of_ne _ hji] at hj ⊢
      exact h.valid j hj
  keys := by
    intro j k hj hk hne heq
    rw [active_writeSet hframe] at hj hk
    rw [key_writeSet hframe] at hne
    rw [key_writeSet hframe, key_writeSet hframe] at heq
    exact h.keys j k hj hk hne heq
  entries := by
    intro k hk
    obtain ⟨⟨j, hj, hlt⟩, hrange⟩ := h.entries k hk
    exact ⟨⟨j, by rwa [findSet_writeSet hframe], by rwa [nsems_writeSet hframe]⟩, hrange⟩
  undo := h.undo

end SameFrame

/-! ### Changes of the undo table -/

/-- A new undo table fits a store when its ledger does. -/
theorem Inv.withUndo (h : st.Inv) {t : UndoTable} (hwf : t.Wf)
    (hledger : ∀ p id s, t.adjustmentOf p id s ≠ 0 →
      (∃ i, st.findSet id = some i ∧ s < (st.sets i).nsems) ∧
        undoInRange (t.adjustmentOf p id s)) :
    ({ st with undoEntries := t } : SemStore).Inv where
  generation_le := h.generation_le
  valid := h.valid
  keys := h.keys
  entries := by
    intro k hk
    have hadj := hwf.adjustmentOf_active hk
    have hne := hwf.nonzero k hk
    rw [← hadj] at hne
    obtain ⟨hres, hrange⟩ := hledger _ _ _ hne
    exact ⟨hres, hadj ▸ hrange⟩
  undo := hwf

/-- What the ledger of a store with the invariant looks like. -/
lemma Inv.ledger (h : st.Inv) {p id : Int32} {s : ℕ}
    (hne : st.undoEntries.adjustmentOf p id s ≠ 0) :
    (∃ i, st.findSet id = some i ∧ s < (st.sets i).nsems) ∧
      undoInRange (st.undoEntries.adjustmentOf p id s) := by
  obtain ⟨k, ha, -, h2, h3, hadj⟩ := h.undo.exists_active hne
  obtain ⟨hres, hrange⟩ := h.entries k ha
  rw [h2, h3] at hres
  exact ⟨hres, hadj ▸ hrange⟩

/-- Nothing is recorded for an id that does not resolve. -/
lemma Inv.ledger_eq_zero (h : st.Inv) (hnone : st.findSet semid = none) (p : Int32) (s : ℕ) :
    st.undoEntries.adjustmentOf p semid s = 0 := by
  by_contra hne
  obtain ⟨⟨i, hi, -⟩, -⟩ := h.ledger hne
  rw [hnone] at hi
  cases hi

lemma Inv.clearUndo (h : st.Inv) (semid : Int32) (semnum : ℕ) (all : Bool) :
    ({ st with undoEntries := st.undoEntries.clearUndoEntries semid semnum all } :
      SemStore).Inv := by
  apply h.withUndo (h.undo.clear semid semnum all)
  intro p id s hne
  rw [h.undo.adjustmentOf_clear] at hne ⊢
  split_ifs at hne ⊢ with hc
  · exact absurd rfl hne
  · exact h.ledger hne

end SemStore

end Tgcompat
