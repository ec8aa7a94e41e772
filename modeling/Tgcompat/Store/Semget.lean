import Tgcompat.Store.Ledger

/-!
# `semget` as a keyed map

A key that an active set holds is looked up; any other request creates a set. The set created is
fresh in the sense of the whole store: its id is that of no active set, and no process has an
adjustment on it, also when the generation of the slot has come round to an id that was in use
before.
-/

namespace Tgcompat

namespace SemStore

variable {st : SemStore} {key nsems flags : Int32} {identity : SemIdentity} {allocated : Bool}
  {now : Int64} {i : Fin semMaxSets}

/-! ### Lookup -/

/-- The slot that holds a key is the one the scan finds. -/
lemma Inv.findKey_eq (h : st.Inv) (hkey : key ≠ ipcPrivate) (hactive : (st.sets i).active = true)
    (hheld : (st.sets i).key = key) : st.findKey key = some i := by
  refine Table.firstIndex_eq_some_of_unique (by simp [hactive, hheld]) fun j hj => ?_
  simp only [Bool.and_eq_true, decide_eq_true_eq] at hj
  exact h.keys j i hj.1 hactive (hj.2 ▸ hkey) (hj.2.trans hheld.symm)

lemma findKey_eq_none (hunused : ∀ j, (st.sets j).active = true → (st.sets j).key ≠ key) :
    st.findKey key = none := by
  refine Table.firstIndex_eq_none.mpr fun j => ?_
  simp only [Bool.and_eq_false_iff, decide_eq_false_iff_not]
  by_cases hj : (st.sets j).active = true
  · exact Or.inr (hunused j hj)
  · exact Or.inl (eq_false_of_ne_true hj)

/-- A key in use never changes the store. -/
lemma Inv.getAs_held (h : st.Inv) (hkey : key ≠ ipcPrivate) (hactive : (st.sets i).active = true)
    (hheld : (st.sets i).key = key) :
    st.getAs key nsems flags identity allocated now =
      (if flags &&& ipcCreat ≠ 0 ∧ flags &&& ipcExcl ≠ 0 then -EEXIST
        else if nsems < 0 ∨ nsems.toInt > (st.sets i).nsems then -EINVAL
        else st.idOf i, st) := by
  simp only [SemStore.getAs, if_pos hkey, h.findKey_eq hkey hactive hheld]
  split_ifs
  · rfl
  · rfl
  · rfl

/-! ### Creation -/

/-- The outcome is a set in slot `i` that nothing in the store refers to. -/
structure CreatedIn (st : SemStore) (key nsems : Int32) (i : Fin semMaxSets)
    (outcome : Int32 × SemStore) : Prop where
  free : (st.sets i).active = false
  others : ∀ j, j ≠ i → outcome.2.sets j = st.sets j
  undo : outcome.2.undoEntries = st.undoEntries
  resolves : outcome.2.findSet outcome.1 = some i
  held : (outcome.2.sets i).key = key
  size : (outcome.2.sets i).nsems = nsems.toInt.toNat
  values : (outcome.2.sets i).values = List.replicate nsems.toInt.toNat 0
  lastPids : (outcome.2.sets i).lastPids = List.replicate nsems.toInt.toNat 0
  waitCounts : ∀ waitForZero,
    (outcome.2.sets i).waitCounts waitForZero = List.replicate nsems.toInt.toNat 0
  fresh : ∀ j, (st.sets j).active = true → st.idOf j ≠ outcome.1
  unowed : ∀ k, (outcome.2.undoEntries k).active = true →
    (outcome.2.undoEntries k).semid ≠ outcome.1

/-- Writing the fresh set into a free slot. An entry of an earlier life of the slot would have to
resolve, and the id it names resolves to nothing while the slot is free. -/
lemma Inv.createdIn (h : st.Inv) (hcreates : st.Creates key nsems i) :
    st.CreatedIn key nsems i
      (makeId i (freshSet (st.sets i) key nsems flags identity now).generation,
        st.writeSet i (freshSet (st.sets i) key nsems flags identity now)) := by
  have hgen := generationOk_fresh h i key nsems flags identity now
  have hunresolved := findSet_freshId hcreates.free hgen
  refine ⟨hcreates.free, fun j hj => writeSet_sets_of_ne st hj _, rfl, ?_, ?_, ?_, ?_, ?_, ?_, ?_,
    ?_⟩
  · refine findSet_eq_some_iff.mpr ⟨?_, ?_, ?_⟩
    · rw [writeSet_sets_self]
      rfl
    · rwa [writeSet_sets_self]
    · rw [idOf, writeSet_sets_self]
  · rw [writeSet_sets_self]
    rfl
  · rw [writeSet_sets_self, freshSet_nsems _ _ _ _ _ hcreates.nsems_le]
  · rw [writeSet_sets_self]
    rfl
  · rw [writeSet_sets_self]
    rfl
  · intro waitForZero
    rw [writeSet_sets_self]
    cases waitForZero with
    | false => rfl
    | true => rfl
  · intro j hj heq
    have hnone : st.findSet (st.idOf j) = none := heq ▸ hunresolved
    rw [h.findSet_idOf hj] at hnone
    cases hnone
  · intro k hk heq
    obtain ⟨⟨j, hj, -⟩, -⟩ := h.entries k hk
    have hnone : st.findSet (st.undoEntries k).semid = none := heq ▸ hunresolved
    rw [hj] at hnone
    cases hnone

/-- The part of `semget` behind the lookup. -/
lemma Inv.createSet_eq (h : st.Inv)
    (hunused : key ≠ ipcPrivate → ∀ j, (st.sets j).active = true → (st.sets j).key ≠ key) :
    if nsems ≤ 0 ∨ nsems.toInt > semMaxPerSet then
      st.createSet key nsems flags identity allocated now = (-EINVAL, st)
    else if ∀ j, (st.sets j).active = true then
      st.createSet key nsems flags identity allocated now = (-ENOSPC, st)
    else if allocated = false then
      st.createSet key nsems flags identity allocated now = (-ENOMEM, st)
    else ∃ j, st.CreatedIn key nsems j
      (st.createSet key nsems flags identity allocated now) := by
  by_cases hn : nsems ≤ 0 ∨ nsems.toInt > semMaxPerSet
  · rw [if_pos hn, createSet, if_pos hn]
  rw [if_neg hn]
  cases hf : Table.firstIndex fun j => !(st.sets j).active with
  | none =>
    have hfull : ∀ j, (st.sets j).active = true := by simpa using Table.firstIndex_eq_none.mp hf
    rw [if_pos hfull, createSet, if_neg hn, hf]
  | some j =>
    have hfree : (st.sets j).active = false := by simpa using Table.firstIndex_spec hf
    have hnotfull : ¬ ∀ j, (st.sets j).active = true := by
      intro hfull
      rw [hfull j] at hfree
      cases hfree
    rw [if_neg hnotfull]
    cases allocated with
    | false => simp only [createSet, if_neg hn, hf, if_true]
    | true =>
      rw [not_or, Int32.le_iff_toInt_le, Int32.toInt_zero] at hn
      have hcreates : st.Creates key nsems j :=
        ⟨hfree, by omega, not_lt.mp hn.2, hunused⟩
      have hbounds : ¬ (nsems ≤ 0 ∨ nsems.toInt > semMaxPerSet) := by
        rw [not_or, Int32.le_iff_toInt_le, Int32.toInt_zero]
        exact hn
      simp only [createSet, if_neg hbounds, hf, Bool.true_eq_false, if_false]
      exact ⟨j, h.createdIn hcreates⟩

/-- `semget` on a reachable store. -/
theorem semget_keyed (calls : List StoreOp) (key nsems flags : Int32) (identity : SemIdentity)
    (allocated : Bool) (now : Int64) :
    let st := create.run calls
    let outcome := st.getAs key nsems flags identity allocated now
    (∀ i, key ≠ ipcPrivate → (st.sets i).active = true → (st.sets i).key = key →
      outcome =
        (if flags &&& ipcCreat ≠ 0 ∧ flags &&& ipcExcl ≠ 0 then -EEXIST
          else if nsems < 0 ∨ nsems.toInt > (st.sets i).nsems then -EINVAL
          else st.idOf i, st)) ∧
    ((key ≠ ipcPrivate → ∀ i, (st.sets i).active = true → (st.sets i).key ≠ key) →
      if key ≠ ipcPrivate ∧ flags &&& ipcCreat = 0 then outcome = (-ENOENT, st)
      else if nsems ≤ 0 ∨ nsems.toInt > semMaxPerSet then outcome = (-EINVAL, st)
      else if ∀ i, (st.sets i).active = true then outcome = (-ENOSPC, st)
      else if allocated = false then outcome = (-ENOMEM, st)
      else ∃ i, st.CreatedIn key nsems i outcome) := by
  intro st outcome
  have h : st.Inv := inv_run calls
  refine ⟨fun i hkey hactive hheld => h.getAs_held hkey hactive hheld, fun hunused => ?_⟩
  by_cases hkey : key ≠ ipcPrivate
  · have hnone := findKey_eq_none (hunused hkey)
    by_cases hcreat : flags &&& ipcCreat = 0
    · rw [if_pos ⟨hkey, hcreat⟩]
      simp only [outcome, getAs, if_pos hkey, hnone, if_pos hcreat]
    · have heq : outcome = st.createSet key nsems flags identity allocated now := by
        simp only [outcome, getAs, if_pos hkey, hnone, if_neg hcreat]
      rw [if_neg (fun hc => hcreat hc.2), heq]
      exact h.createSet_eq hunused
  · have heq : outcome = st.createSet key nsems flags identity allocated now := by
      simp only [outcome, getAs, if_neg hkey]
    rw [if_neg (fun hc => hkey hc.1), heq]
    exact h.createSet_eq hunused

end SemStore

end Tgcompat
