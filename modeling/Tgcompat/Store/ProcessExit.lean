import Tgcompat.Store.Ledger

/-!
# Process exit restores the ledger

The loop of `tgc_sem_store_process_exit` retires the entries of a process one after the other and
adds each to the semaphore it names. No two entries of a process name the same semaphore, so a
semaphore is written at most once, with the value it had before the call. While the loop runs, the
adjustments that were added are those that the ledger has lost.
-/

namespace Tgcompat

/-- What a process exit leaves alone of a set: all but the values, the last pids and `otime`. -/
def SemSet.settings (set : SemSet) : SemSet :=
  { set with values := [], lastPids := [], otime := 0 }

lemma SemSet.sameFrame_of_settings {a b : SemSet} (h : b.settings = a.settings) :
    a.SameFrame b := by
  simp only [SemSet.settings, SemSet.mk.injEq] at h
  obtain ⟨hkey, hgeneration, hnsems, hactive, -⟩ := h
  exact ⟨hkey, hgeneration, hnsems, hactive⟩

namespace UndoTable

variable {t u : UndoTable} {k : Fin semMaxUndoEntries} {p id : Int32} {s : ℕ}

/-- Retiring an entry clears its key in the ledger. -/
lemma Wf.adjustmentOf_retire (h : t.Wf) (hk : (t k).active = true) :
    UndoTable.adjustmentOf (Function.update t k { t k with active := false }) p id s =
      if (t k).pid = p ∧ (t k).semid = id ∧ (t k).semnum = s then 0
      else t.adjustmentOf p id s := by
  have hwf : UndoTable.Wf (Function.update t k { t k with active := false }) := by
    apply wf_update h
    · intro hactive
      cases hactive
    · intro hactive
      cases hactive
  split_ifs with hkey
  · by_contra hne
    obtain ⟨j, hj, h1, h2, h3, -⟩ := hwf.exists_active hne
    have hjk : j ≠ k := by
      rintro rfl
      simp at hj
    rw [Function.update_of_ne hjk] at hj h1 h2 h3
    exact hjk (h.distinct j k hj hk (by simp [h1, h2, h3, hkey]))
  · refine adjustmentOf_update_of_ne (fun _ => hkey) ?_
    intro hactive
    cases hactive

end UndoTable

namespace SemStore

variable {st st' : SemStore} {pid : Int32} {now : Fin semMaxUndoEntries → Int64}
  {k : Fin semMaxUndoEntries} {i : Fin semMaxSets}

lemma restoredValue_eq_clamp (value : ℕ) (adjustment : ℤ) :
    restoredValue value adjustment =
      (max 0 (min (semMaxValue : ℤ) ((value : ℤ) + adjustment))).toNat := by
  simp only [restoredValue]
  split_ifs
  · omega
  · omega
  · omega

lemma restoredValue_zero {value : ℕ} (h : value ≤ semMaxValue) : restoredValue value 0 = value := by
  rw [restoredValue_eq_clamp]
  omega

/-! ### One iteration -/

/-- The semaphore of the entry is written once. -/
lemma restoreEntry_self {set : SemSet} (hset : set.Valid) {entry : UndoEntry}
    (hlt : entry.semnum < set.nsems) (time : Int64) :
    (restoreEntry set entry pid time).values[entry.semnum]? =
        (set.values[entry.semnum]?).map (restoredValue · entry.adjustment) ∧
      (restoreEntry set entry pid time).lastPids[entry.semnum]? = some pid := by
  have hvalues : entry.semnum < set.values.length := by rwa [hset.values_length]
  have hlastPids : entry.semnum < set.lastPids.length := by rwa [hset.lastPids_length]
  constructor
  · simp [restoreEntry, hvalues]
  · simp [restoreEntry, hlastPids]

/-- Every other semaphore, of this set and of the others, is left alone. -/
lemma restoreEntry_other {entry : UndoEntry} {time : Int64} {j : Fin semMaxSets} {s : ℕ}
    {sets : Fin semMaxSets → SemSet}
    (hsets : sets = Function.update st.sets i (restoreEntry (st.sets i) entry pid time))
    (hother : ¬ (j = i ∧ s = entry.semnum)) :
    (sets j).values[s]? = (st.sets j).values[s]? ∧
      (sets j).lastPids[s]? = (st.sets j).lastPids[s]? := by
  rw [hsets]
  by_cases hj : j = i
  · subst hj
    have hs : entry.semnum ≠ s := fun heq => hother ⟨rfl, heq.symm⟩
    simp [restoreEntry, hs]
  · rw [Function.update_of_ne hj]
    exact ⟨rfl, rfl⟩

/-- An entry of the process always names a semaphore, so the loop writes it. -/
lemma Inv.processExitEntry_eq (h : st.Inv) (changed : Int32)
    (now : Fin semMaxUndoEntries → Int64) (hexit : Exiting pid (st.undoEntries k)) :
    ∃ i, st.findSet (st.undoEntries k).semid = some i ∧
      (st.undoEntries k).semnum < (st.sets i).nsems ∧
      SemStore.processExitEntry pid now (changed, st) k =
        (1, (st.writeSet i (restoreEntry (st.sets i) (st.undoEntries k) pid (now k))).retireEntry
          k) := by
  obtain ⟨⟨i, hfound, hlt⟩, -⟩ := h.entries k hexit.1
  rcases processExitEntry_cases pid now (changed, st) k with ⟨hnot, -⟩ | ⟨-, hbeyond, -⟩ |
    ⟨-, j, hfound', hlt', heq⟩
  · exact absurd hexit hnot
  · exact absurd hlt (not_lt.mpr (hbeyond i hfound))
  · exact ⟨j, hfound', hlt', heq⟩

/-- Some entries of the process were restored: those that the ledger has lost. -/
structure Restores (st : SemStore) (pid : Int32) (st' : SemStore) : Prop where
  settings : ∀ i, (st'.sets i).settings = (st.sets i).settings
  inactive : ∀ i, (st.sets i).active = false → st'.sets i = st.sets i
  ledger : ∀ p id s, st'.undoEntries.adjustmentOf p id s = st.undoEntries.adjustmentOf p id s ∨
    p = pid ∧ st'.undoEntries.adjustmentOf p id s = 0
  values : ∀ i s, (st.sets i).active = true → (st'.sets i).values[s]? =
    ((st.sets i).values[s]?).map fun value => restoredValue value
      (st.undoEntries.adjustmentOf pid (st.idOf i) s -
        st'.undoEntries.adjustmentOf pid (st.idOf i) s)
  lastPids : ∀ i s, (st.sets i).active = true → (st'.sets i).lastPids[s]? =
    if st'.undoEntries.adjustmentOf pid (st.idOf i) s =
        st.undoEntries.adjustmentOf pid (st.idOf i) s then (st.sets i).lastPids[s]?
    else some pid

namespace Restores

lemma refl (h : st.Inv) (pid : Int32) : st.Restores pid st where
  settings := fun _ => rfl
  inactive := fun _ _ => rfl
  ledger := fun _ _ _ => Or.inl rfl
  values := by
    intro i s hi
    rw [sub_self]
    cases hv : (st.sets i).values[s]? with
    | none => rfl
    | some value =>
      have hle := (h.valid i hi).values_le value (List.mem_of_getElem? hv)
      rw [Option.map_some, restoredValue_zero hle]
  lastPids := fun _ _ _ => (if_pos rfl).symm

lemma sameFrames (h : st.Restores pid st') : st.SameFrames st' :=
  fun i => SemSet.sameFrame_of_settings (h.settings i)

lemma idOf_eq (h : st.Restores pid st') (i : Fin semMaxSets) : st'.idOf i = st.idOf i := by
  rw [idOf, idOf, (h.sameFrames i).generation]

/-- A value that still has its entry is the one before the call. -/
lemma value_of_owed (h : st.Restores pid st') (hst : st.Inv) (hi : (st.sets i).active = true)
    {s : ℕ} (hne : st'.undoEntries.adjustmentOf pid (st.idOf i) s ≠ 0) :
    (st'.sets i).values[s]? = (st.sets i).values[s]? ∧
      st'.undoEntries.adjustmentOf pid (st.idOf i) s =
        st.undoEntries.adjustmentOf pid (st.idOf i) s := by
  have hsame : st'.undoEntries.adjustmentOf pid (st.idOf i) s =
      st.undoEntries.adjustmentOf pid (st.idOf i) s :=
    (h.ledger pid (st.idOf i) s).resolve_right fun hzero => hne hzero.2
  refine ⟨?_, hsame⟩
  rw [h.values i s hi, hsame]
  exact ((Restores.refl hst pid).values i s hi).symm

/-- One more entry is restored. -/
lemma step (h : st.Restores pid st') (hst : st.Inv) (hst' : st'.Inv)
    (hexit : Exiting pid (st'.undoEntries k))
    (hfound : st'.findSet (st'.undoEntries k).semid = some i)
    (hlt : (st'.undoEntries k).semnum < (st'.sets i).nsems) {time : Int64} {st'' : SemStore}
    (hsets : st''.sets = Function.update st'.sets i
      (restoreEntry (st'.sets i) (st'.undoEntries k) pid time))
    (hundo : st''.undoEntries = Function.update st'.undoEntries k
      { st'.undoEntries k with active := false }) : st.Restores pid st'' := by
  obtain ⟨hactive', hid⟩ := hst'.findSet_iff.mp hfound
  have hactive : (st.sets i).active = true := (h.sameFrames i).active ▸ hactive'
  have hvalid := hst'.valid i hactive'
  rw [h.idOf_eq] at hid
  have hadj : ∀ p id s, st''.undoEntries.adjustmentOf p id s =
      if (st'.undoEntries k).pid = p ∧ (st'.undoEntries k).semid = id ∧
        (st'.undoEntries k).semnum = s then 0 else st'.undoEntries.adjustmentOf p id s := by
    intro p id s
    rw [hundo]
    exact hst'.undo.adjustmentOf_retire hexit.1
  have hother : ∀ j s, (st.sets j).active = true → ¬ (j = i ∧ s = (st'.undoEntries k).semnum) →
      st''.undoEntries.adjustmentOf pid (st.idOf j) s =
        st'.undoEntries.adjustmentOf pid (st.idOf j) s := by
    intro j s hj hne
    rw [hadj, if_neg]
    rintro ⟨-, hsemid, hs⟩
    rw [hid] at hsemid
    exact hne ⟨(idOf_inj (hst.valid i hactive).generation (hst.valid j hj).generation
      hsemid).symm, hs.symm⟩
  -- the entry is still to be restored, so its semaphore was not written yet
  have howed : st'.undoEntries.adjustmentOf pid (st.idOf i) (st'.undoEntries k).semnum =
      (st'.undoEntries k).adjustment := by
    have hown := hst'.undo.adjustmentOf_active hexit.1
    rwa [hexit.2, hid] at hown
  have hne : (st'.undoEntries k).adjustment ≠ 0 := hst'.undo.nonzero k hexit.1
  obtain ⟨hvalue, hsame⟩ := h.value_of_owed hst hactive (howed ▸ hne)
  have hzero : st''.undoEntries.adjustmentOf pid (st.idOf i) (st'.undoEntries k).semnum = 0 := by
    rw [hadj, if_pos ⟨hexit.2, hid, rfl⟩]
  refine ⟨?_, ?_, ?_, ?_, ?_⟩
  · intro j
    rw [hsets]
    by_cases hj : j = i
    · subst hj
      rw [Function.update_self]
      exact h.settings j
    · rw [Function.update_of_ne hj]
      exact h.settings j
  · intro j hj
    have hji : j ≠ i := by
      rintro rfl
      rw [hactive] at hj
      cases hj
    rw [hsets, Function.update_of_ne hji]
    exact h.inactive j hj
  · intro p id s
    rw [hadj]
    split_ifs with hkey
    · exact Or.inr ⟨hkey.1.symm.trans hexit.2, rfl⟩
    · exact h.ledger p id s
  · intro j s hj
    by_cases hplace : j = i ∧ s = (st'.undoEntries k).semnum
    · obtain ⟨rfl, rfl⟩ := hplace
      rw [hzero, ← hsame, howed, sub_zero, ← hvalue, hsets, Function.update_self]
      exact (restoreEntry_self hvalid hlt time).1
    · rw [hother j s hj hplace, ← h.values j s hj]
      exact (restoreEntry_other hsets hplace).1
  · intro j s hj
    by_cases hplace : j = i ∧ s = (st'.undoEntries k).semnum
    · obtain ⟨rfl, rfl⟩ := hplace
      rw [hzero, ← hsame, howed, if_neg (Ne.symm hne), hsets, Function.update_self]
      exact (restoreEntry_self hvalid hlt time).2
    · rw [hother j s hj hplace, ← h.lastPids j s hj]
      exact (restoreEntry_other hsets hplace).2

end Restores

/-! ### The whole loop -/

theorem Inv.processExit_restores (h : st.Inv) (hpid : 0 < pid)
    (now : Fin semMaxUndoEntries → Int64) : st.Restores pid (st.processExit pid now).2 := by
  rw [SemStore.processExit, if_neg (Int32.not_le.mpr hpid)]
  refine (Transition.foldl_invariant
    (I := fun acc : Int32 × SemStore => acc.2.Inv ∧ st.Restores pid acc.2) ?_
    ⟨h, Restores.refl h pid⟩ _).2
  rintro ⟨changed, st'⟩ k ⟨hinv, hrestores⟩
  refine ⟨hinv.processExitEntry changed pid now k, ?_⟩
  by_cases hexit : Exiting pid (st'.undoEntries k)
  · obtain ⟨i, hfound, hlt, heq⟩ := hinv.processExitEntry_eq changed now hexit
    rw [heq]
    exact hrestores.step h hinv hexit hfound hlt rfl rfl
  · rw [processExitEntry_skip _ hexit]
    exact hrestores

/-- The result says whether the process had an entry. -/
theorem Inv.processExit_result (h : st.Inv) (hpid : 0 < pid)
    (now : Fin semMaxUndoEntries → Int64) :
    st.Owes pid ∧ (st.processExit pid now).1 = 1 ∨
      ¬ st.Owes pid ∧ st.processExit pid now = (0, st) := by
  by_cases howes : st.Owes pid
  · refine Or.inl ⟨howes, ?_⟩
    obtain ⟨k, hexit⟩ := howes
    have hloop : (st.processExit pid now).1 = 1 ∨ st.processExit pid now = (0, st) := by
      rw [SemStore.processExit, if_neg (Int32.not_le.mpr hpid)]
      refine (Transition.foldl_invariant (I := fun acc : Int32 × SemStore =>
        acc.2.Inv ∧ (acc.1 = 1 ∨ acc = (0, st))) ?_ ⟨h, Or.inr rfl⟩ _).2
      rintro ⟨changed, st'⟩ j ⟨hinv, hacc⟩
      refine ⟨hinv.processExitEntry changed pid now j, ?_⟩
      by_cases hj : Exiting pid (st'.undoEntries j)
      · obtain ⟨i, -, -, heq⟩ := hinv.processExitEntry_eq changed now hj
        rw [heq]
        exact Or.inl rfl
      · rw [processExitEntry_skip _ hj]
        exact hacc
    refine hloop.resolve_right fun heq => ?_
    have hretired := processExit_retired st hpid now hexit
    rw [heq] at hretired
    have hactive := hexit.1
    rw [hretired] at hactive
    cases hactive
  · exact Or.inr ⟨howes, processExit_idle st hpid now fun k hk => howes ⟨k, hk⟩⟩

lemma Inv.processExit_eq_one (h : st.Inv) (hpid : 0 < pid)
    (now : Fin semMaxUndoEntries → Int64) : (st.processExit pid now).1 = 1 ↔ st.Owes pid := by
  rcases h.processExit_result hpid now with ⟨howes, hone⟩ | ⟨howes, hidle⟩
  · exact iff_of_true hone howes
  · rw [hidle]
    exact iff_of_false Int32.zero_ne_one howes

lemma Inv.processExit_eq_zero (h : st.Inv) (hpid : 0 < pid)
    (now : Fin semMaxUndoEntries → Int64) : (st.processExit pid now).1 = 0 ↔ ¬ st.Owes pid := by
  rcases h.processExit_result hpid now with ⟨howes, hone⟩ | ⟨howes, hidle⟩
  · rw [hone]
    exact iff_of_false (by decide) (not_not_intro howes)
  · exact iff_of_true (congrArg Prod.fst hidle) howes

/-- The semaphore of an entry is set to the clamped sum. -/
lemma Inv.processExit_restored (h : st.Inv) (hpid : 0 < pid) (now : Fin semMaxUndoEntries → Int64)
    (hexit : Exiting pid (st.undoEntries k)) :
    ∃ i value, st.findSet (st.undoEntries k).semid = some i ∧
      (st.sets i).values[(st.undoEntries k).semnum]? = some value ∧
      ((st.processExit pid now).2.sets i).values[(st.undoEntries k).semnum]? =
        some (max 0 (min (semMaxValue : ℤ) (value + (st.undoEntries k).adjustment))).toNat ∧
      ((st.processExit pid now).2.sets i).lastPids[(st.undoEntries k).semnum]? = some pid := by
  obtain ⟨⟨i, hfound, hlt⟩, -⟩ := h.entries k hexit.1
  obtain ⟨hactive, hid⟩ := h.findSet_iff.mp hfound
  have hlen : (st.undoEntries k).semnum < (st.sets i).values.length := by
    rwa [(h.valid i hactive).values_length]
  have howed : st.undoEntries.adjustmentOf pid (st.idOf i) (st.undoEntries k).semnum =
      (st.undoEntries k).adjustment := by
    have hown := h.undo.adjustmentOf_active hexit.1
    rwa [hexit.2, hid] at hown
  have hcleared : (st.processExit pid now).2.undoEntries.adjustmentOf pid (st.idOf i)
      (st.undoEntries k).semnum = 0 := by
    rw [processExit_ledger h hpid, if_pos rfl]
  have hrestores := h.processExit_restores hpid now
  refine ⟨i, _, hfound, List.getElem?_eq_getElem hlen, ?_, ?_⟩
  · rw [hrestores.values i _ hactive, hcleared, howed, sub_zero, List.getElem?_eq_getElem hlen,
      Option.map_some, restoredValue_eq_clamp]
  · rw [hrestores.lastPids i _ hactive, hcleared, howed,
      if_neg (Ne.symm (h.undo.nonzero k hexit.1))]

/-- A semaphore without an entry keeps its value and its last pid. -/
lemma Inv.processExit_unrestored (h : st.Inv) (hpid : 0 < pid)
    (now : Fin semMaxUndoEntries → Int64) {s : ℕ}
    (hnone : ∀ k, Exiting pid (st.undoEntries k) →
      st.findSet (st.undoEntries k).semid = some i → (st.undoEntries k).semnum ≠ s) :
    ((st.processExit pid now).2.sets i).values[s]? = (st.sets i).values[s]? ∧
      ((st.processExit pid now).2.sets i).lastPids[s]? = (st.sets i).lastPids[s]? := by
  have hrestores := h.processExit_restores hpid now
  cases hactive : (st.sets i).active with
  | false => rw [hrestores.inactive i hactive]; exact ⟨rfl, rfl⟩
  | true =>
    have hcleared : (st.processExit pid now).2.undoEntries.adjustmentOf pid (st.idOf i) s = 0 := by
      rw [processExit_ledger h hpid, if_pos rfl]
    have hzero : st.undoEntries.adjustmentOf pid (st.idOf i) s = 0 := by
      by_contra hne
      obtain ⟨k, hk, h1, h2, h3, -⟩ := h.undo.exists_active hne
      refine hnone k ⟨hk, h1⟩ ?_ h3
      rw [h2]
      exact h.findSet_idOf hactive
    refine ⟨?_, ?_⟩
    · rw [hrestores.values i s hactive, hcleared, hzero]
      have hsame := (Restores.refl h pid).values i s hactive
      rw [hzero] at hsame
      exact hsame.symm
    · rw [hrestores.lastPids i s hactive, hcleared, hzero, if_pos rfl]

/-! ### Other slots -/

section Rearranged

variable {u : UndoTable}

lemma Inv.rearranged (h : st.Inv) (hu : st.undoEntries.Rearranges u) :
    ({ st with undoEntries := u } : SemStore).Inv := by
  have hadj := (hu.wf h.undo).activeEntries_eq_iff h.undo |>.mp hu.activeEntries
  refine h.withUndo (hu.wf h.undo) fun p id s hne => ?_
  rw [hadj] at hne ⊢
  exact h.ledger hne

lemma owes_rearranged (hu : st.undoEntries.Rearranges u) :
    ({ st with undoEntries := u } : SemStore).Owes pid ↔ st.Owes pid := by
  obtain ⟨σ, hσ⟩ := hu
  constructor
  · rintro ⟨k, hactive, hpid⟩
    have heq := (hσ k).2 hactive
    exact ⟨σ k, (hσ k).1.symm.trans hactive, (congrArg UndoEntry.pid heq).symm.trans hpid⟩
  · rintro ⟨k, hactive, hpid⟩
    have hk := hσ (σ.symm k)
    rw [Equiv.apply_symm_apply] at hk
    have hmoved := hk.1.trans hactive
    exact ⟨σ.symm k, hmoved, (congrArg UndoEntry.pid (hk.2 hmoved)).trans hpid⟩

/-- A process exit on a rearranged table leaves the same table rearranged. -/
lemma processExit_rearranges (hpid : 0 < pid) (hu : st.undoEntries.Rearranges u)
    (now now' : Fin semMaxUndoEntries → Int64) :
    (st.processExit pid now).2.undoEntries.Rearranges
      (({ st with undoEntries := u } : SemStore).processExit pid now').2.undoEntries := by
  obtain ⟨σ, hσ⟩ := hu
  refine ⟨σ, fun k => ?_⟩
  have hiff : Exiting pid (u k) ↔ Exiting pid (st.undoEntries (σ k)) := by
    constructor
    · intro hk
      rwa [(hσ k).2 hk.1] at hk
    · intro hk
      rwa [(hσ k).2 ((hσ k).1.trans hk.1)]
  by_cases hk : Exiting pid (u k)
  · rw [processExit_retired _ hpid now' hk, processExit_retired st hpid now (hiff.mp hk)]
    refine ⟨rfl, fun hactive => ?_⟩
    cases hactive
  · rw [processExit_kept _ now' hk, processExit_kept st now (mt hiff.mpr hk)]
    exact hσ k

/-- The sets do not depend on the slots either, the time of the last operation apart. -/
lemma Inv.processExit_sets_rearranged (h : st.Inv) (hpid : 0 < pid)
    (hu : st.undoEntries.Rearranges u) (now now' : Fin semMaxUndoEntries → Int64)
    (i : Fin semMaxSets) :
    let other := (({ st with undoEntries := u } : SemStore).processExit pid now').2.sets i
    let set := (st.processExit pid now).2.sets i
    other.values = set.values ∧ other.lastPids = set.lastPids ∧ other.settings = set.settings := by
  intro other set
  have hinv := h.rearranged hu
  have hadj := ((hu.wf h.undo).activeEntries_eq_iff h.undo).mp hu.activeEntries
  have hrestores := h.processExit_restores hpid now
  have hother := hinv.processExit_restores hpid now'
  have hledger : ∀ s, (({ st with undoEntries := u } : SemStore).processExit pid
      now').2.undoEntries.adjustmentOf pid (st.idOf i) s =
        (st.processExit pid now).2.undoEntries.adjustmentOf pid (st.idOf i) s := by
    intro s
    rw [processExit_ledger hinv hpid, processExit_ledger h hpid, if_pos rfl, if_pos rfl]
  refine ⟨?_, ?_, (hother.settings i).trans (hrestores.settings i).symm⟩
  · cases hactive : (st.sets i).active with
    | false =>
      exact congrArg SemSet.values
        ((hother.inactive i hactive).trans (hrestores.inactive i hactive).symm)
    | true =>
      refine List.ext_getElem? fun s => ?_
      rw [hother.values i s hactive, hrestores.values i s hactive]
      simp only [hadj]
      rw [← hledger s]
      rfl
  · cases hactive : (st.sets i).active with
    | false =>
      exact congrArg SemSet.lastPids
        ((hother.inactive i hactive).trans (hrestores.inactive i hactive).symm)
    | true =>
      refine List.ext_getElem? fun s => ?_
      rw [hother.lastPids i s hactive, hrestores.lastPids i s hactive]
      simp only [hadj]
      rw [← hledger s]
      rfl

end Rearranged

/-! ### The exit of a process -/

/-- The exit of a process pays every adjustment it owes, retires its entries and touches nothing
else, whatever slots the entries stand in. -/
theorem process_exit_restores (calls : List StoreOp) {pid : Int32} (hpid : 0 < pid)
    (now : Fin semMaxUndoEntries → Int64) :
    let st := create.run calls
    let st' := (st.processExit pid now).2
    (∀ k, Exiting pid (st.undoEntries k) →
      ∃ i value, st.findSet (st.undoEntries k).semid = some i ∧
        (st.sets i).values[(st.undoEntries k).semnum]? = some value ∧
        (st'.sets i).values[(st.undoEntries k).semnum]? =
          some (max 0 (min (semMaxValue : ℤ) (value + (st.undoEntries k).adjustment))).toNat ∧
        (st'.sets i).lastPids[(st.undoEntries k).semnum]? = some pid) ∧
    (∀ i s, (∀ k, Exiting pid (st.undoEntries k) →
        st.findSet (st.undoEntries k).semid = some i → (st.undoEntries k).semnum ≠ s) →
      (st'.sets i).values[s]? = (st.sets i).values[s]? ∧
        (st'.sets i).lastPids[s]? = (st.sets i).lastPids[s]?) ∧
    (∀ i, (st'.sets i).settings = (st.sets i).settings) ∧
    (∀ k, (Exiting pid (st.undoEntries k) →
        st'.undoEntries k = { st.undoEntries k with active := false }) ∧
      (¬ Exiting pid (st.undoEntries k) → st'.undoEntries k = st.undoEntries k)) ∧
    ((st.processExit pid now).1 = 1 ↔ st.Owes pid) ∧
    ((st.processExit pid now).1 = 0 ↔ ¬ st.Owes pid) ∧
    (∀ now', st'.processExit pid now' = (0, st')) ∧
    ∀ u now', st.undoEntries.Rearranges u →
      let other := ({ st with undoEntries := u } : SemStore).processExit pid now'
      other.1 = (st.processExit pid now).1 ∧
      (∀ i, (other.2.sets i).values = (st'.sets i).values ∧
        (other.2.sets i).lastPids = (st'.sets i).lastPids ∧
        (other.2.sets i).settings = (st'.sets i).settings) ∧
      st'.undoEntries.Rearranges other.2.undoEntries := by
  intro st st'
  have h : st.Inv := inv_run calls
  refine ⟨fun k => h.processExit_restored hpid now,
    fun i s => h.processExit_unrestored hpid now, (h.processExit_restores hpid now).settings,
    fun k => ⟨processExit_retired st hpid now, processExit_kept st now⟩,
    h.processExit_eq_one hpid now, h.processExit_eq_zero hpid now, fun now' => ?_,
    fun u now' hu => ⟨?_, ?_, ?_⟩⟩
  · -- every entry of the process is inactive by now
    refine processExit_idle st' hpid now' fun k hk => ?_
    by_cases hexit : Exiting pid (st.undoEntries k)
    · rw [processExit_retired st hpid now hexit] at hk
      cases hk.1
    · rw [processExit_kept st now hexit] at hk
      exact hexit hk
  · rcases h.processExit_result hpid now with ⟨howes, hone⟩ | ⟨howes, hidle⟩
    · rw [hone]
      exact ((h.rearranged hu).processExit_eq_one hpid now').mpr ((owes_rearranged hu).mpr howes)
    · rw [hidle]
      exact ((h.rearranged hu).processExit_eq_zero hpid now').mpr (mt (owes_rearranged hu).mp howes)
  · exact h.processExit_sets_rearranged hpid hu now now'
  · exact processExit_rearranges hpid hu now now'

/-- The process of `undoRun` exits with two units taken. -/
theorem process_exit_restores_undoRun :
    (0 : Int32) < 1101 ∧ (create.run undoRun).Owes 1101 ∧
      ((create.run undoRun).processExit 1101 fun _ => 9).1 = 1 := by
  have howes : (create.run undoRun).Owes 1101 :=
    owes_of_adjustmentOf (inv_run undoRun) (by decide +kernel :
      (create.run undoRun).undoEntries.adjustmentOf 1101 (makeId 0 1) 0 ≠ 0)
  obtain ⟨-, -, -, -, hone, -⟩ := process_exit_restores undoRun (by decide : (0 : Int32) < 1101)
    fun _ => 9
  exact ⟨by decide, howes, hone.mpr howes⟩

end SemStore

end Tgcompat
