import Tgcompat.Store.Run

/-!
# What a call does to the slots and to the ledger

From outside a slot is its key, generation, size and liveness. Only `semget` and removal change
this frame; a process exit clears one row of the undo ledger.
-/

namespace Tgcompat

/-- The calls that neither create nor remove a set. -/
def StoreOp.keepsSlots : StoreOp → Bool
  | .getAs .. | .remove _ => false
  | _ => true

namespace SemStore

variable {st st' st'' : SemStore} {semid pid : Int32} {i : Fin semMaxSets}

/-- No set was created or removed. -/
def SameFrames (st st' : SemStore) : Prop :=
  ∀ j, (st.sets j).SameFrame (st'.sets j)

lemma SameFrames.refl (st : SemStore) : st.SameFrames st :=
  fun _ => ⟨rfl, rfl, rfl, rfl⟩

lemma SameFrames.trans (h : st.SameFrames st') (h' : st'.SameFrames st'') :
    st.SameFrames st'' := by
  intro j
  obtain ⟨h1, h2, h3, h4⟩ := h j
  obtain ⟨h1', h2', h3', h4'⟩ := h' j
  exact ⟨h1'.trans h1, h2'.trans h2, h3'.trans h3, h4'.trans h4⟩

lemma SameFrames.findSet (h : st.SameFrames st') (semid : Int32) :
    st'.findSet semid = st.findSet semid :=
  findSet_congr (fun j => (h j).active) (fun j => (h j).generation) semid

/-- Rewriting one set in place, whatever happens to the undo table. -/
lemma sameFrames_of_write {set : SemSet} (heq : st'.sets = Function.update st.sets i set)
    (hframe : (st.sets i).SameFrame set) : st.SameFrames st' := by
  intro j
  rw [heq]
  exact ⟨key_writeSet hframe j, generation_writeSet hframe j, nsems_writeSet hframe j,
    active_writeSet hframe j⟩

/-! ### Process exit -/

lemma processExitEntry_skip {now : Fin semMaxUndoEntries → Int64} {k : Fin semMaxUndoEntries}
    (acc : Int32 × SemStore) (hskip : ¬ Exiting pid (acc.2.undoEntries k)) :
    processExitEntry pid now acc k = acc := by
  rcases processExitEntry_cases pid now acc k with ⟨-, heq⟩ | ⟨hexit, -⟩ | ⟨hexit, -⟩
  · exact heq
  · exact absurd hexit hskip
  · exact absurd hexit hskip

lemma processExitEntry_frames (pid : Int32) (now : Fin semMaxUndoEntries → Int64)
    (acc : Int32 × SemStore) (k : Fin semMaxUndoEntries) :
    acc.2.SameFrames (processExitEntry pid now acc k).2 := by
  rcases processExitEntry_cases pid now acc k with ⟨-, heq⟩ | ⟨-, -, heq⟩ | ⟨-, i, -, -, heq⟩
  · rw [heq]
    exact SameFrames.refl acc.2
  · rw [heq]
    exact SameFrames.refl acc.2
  · rw [heq]
    exact sameFrames_of_write rfl ⟨rfl, rfl, rfl, rfl⟩

lemma processExitEntry_undo (pid : Int32) (now : Fin semMaxUndoEntries → Int64)
    (acc : Int32 × SemStore) (k : Fin semMaxUndoEntries) :
    (Exiting pid (acc.2.undoEntries k) ∧ (processExitEntry pid now acc k).2.undoEntries =
      Function.update acc.2.undoEntries k { acc.2.undoEntries k with active := false }) ∨
    (¬ Exiting pid (acc.2.undoEntries k) ∧
      (processExitEntry pid now acc k).2.undoEntries = acc.2.undoEntries) := by
  rcases processExitEntry_cases pid now acc k with ⟨hnot, heq⟩ | ⟨hexit, -, heq⟩ |
    ⟨hexit, i, -, -, heq⟩
  · exact Or.inr ⟨hnot, by rw [heq]⟩
  · exact Or.inl ⟨hexit, by rw [heq]; rfl⟩
  · exact Or.inl ⟨hexit, by rw [heq]; rfl⟩

/-- The store after the iterations at the slots of `l`. -/
lemma processExit_loop (pid : Int32) (now : Fin semMaxUndoEntries → Int64)
    (l : List (Fin semMaxUndoEntries)) (acc : Int32 × SemStore) :
    acc.2.SameFrames (l.foldl (processExitEntry pid now) acc).2 ∧
      ∀ j, (Exiting pid (acc.2.undoEntries j) ∧
          (l.foldl (processExitEntry pid now) acc).2.undoEntries j =
            { acc.2.undoEntries j with active := false }) ∨
        ((l.foldl (processExitEntry pid now) acc).2.undoEntries j = acc.2.undoEntries j ∧
          (j ∈ l → ¬ Exiting pid (acc.2.undoEntries j))) := by
  induction l using List.reverseRecOn with
  | nil => exact ⟨SameFrames.refl _, fun j => Or.inr ⟨rfl, by simp⟩⟩
  | append_singleton l k ih =>
    simp only [List.foldl_append, List.foldl_cons, List.foldl_nil]
    generalize l.foldl (processExitEntry pid now) acc = mid at ih ⊢
    obtain ⟨hframes, hentries⟩ := ih
    refine ⟨hframes.trans (processExitEntry_frames pid now mid k), fun j => ?_⟩
    rcases processExitEntry_undo pid now mid k with ⟨hexit, heq⟩ | ⟨hnot, heq⟩
    · rw [heq]
      by_cases hjk : j = k
      · subst hjk
        rw [Function.update_self]
        rcases hentries j with ⟨_, hoff⟩ | ⟨hsame, -⟩
        · rw [hoff] at hexit
          cases hexit.1
        · rw [hsame] at hexit ⊢
          exact Or.inl ⟨hexit, rfl⟩
      · rw [Function.update_of_ne hjk]
        simpa [hjk] using hentries j
    · rw [heq]
      rcases hentries j with hoff | ⟨hsame, hskip⟩
      · exact Or.inl hoff
      · refine Or.inr ⟨hsame, fun hj => ?_⟩
        rw [List.mem_append, List.mem_singleton] at hj
        rcases hj with hj | rfl
        · exact hskip hj
        · rwa [hsame] at hnot

lemma processExit_frames (st : SemStore) (pid : Int32) (now : Fin semMaxUndoEntries → Int64) :
    st.SameFrames (st.processExit pid now).2 := by
  rw [processExit]
  split_ifs with hpid
  · exact SameFrames.refl st
  · exact (processExit_loop pid now _ (0, st)).1

/-- The `changed` flag of a process exit that is accepted: zero means that no set was written. -/
lemma processExit_changed (st : SemStore) (hpid : 0 < pid) (now : Fin semMaxUndoEntries → Int64) :
    ((st.processExit pid now).1 = 0 ∧ (st.processExit pid now).2.sets = st.sets) ∨
      (st.processExit pid now).1 = 1 := by
  rw [processExit, if_neg (Int32.not_le.mpr hpid)]
  apply Transition.foldl_invariant
    (I := fun acc : Int32 × SemStore => (acc.1 = 0 ∧ acc.2.sets = st.sets) ∨ acc.1 = 1)
  · intro acc k hacc
    rcases processExitEntry_cases pid now acc k with ⟨-, heq⟩ | ⟨-, -, heq⟩ | ⟨-, i, -, -, heq⟩
    · rw [heq]
      exact hacc
    · rw [heq]
      exact hacc
    · rw [heq]
      exact Or.inr rfl
  · exact Or.inl ⟨rfl, rfl⟩

lemma processExit_result (st : SemStore) (hpid : 0 < pid) (now : Fin semMaxUndoEntries → Int64) :
    (st.processExit pid now).1 = 0 ∨ (st.processExit pid now).1 = 1 :=
  (st.processExit_changed hpid now).imp_left And.left

/-- A process exit that reports no change wrote no set. -/
lemma processExit_quiet (st : SemStore) (pid : Int32) (now : Fin semMaxUndoEntries → Int64)
    (hquiet : ¬ (st.processExit pid now).1 > 0) : (st.processExit pid now).2.sets = st.sets := by
  by_cases hpid : 0 < pid
  · rcases st.processExit_changed hpid now with ⟨-, hsets⟩ | hone
    · exact hsets
    · rw [hone] at hquiet
      exact absurd (by decide) hquiet
  · rw [processExit, if_pos (Int32.not_lt.mp hpid)]

/-- The exit of a process without entries changes nothing. -/
lemma processExit_idle (st : SemStore) (hpid : 0 < pid) (now : Fin semMaxUndoEntries → Int64)
    (hidle : ∀ k, ¬ Exiting pid (st.undoEntries k)) : st.processExit pid now = (0, st) := by
  rw [processExit, if_neg (Int32.not_le.mpr hpid)]
  refine Transition.foldl_invariant (I := fun acc => acc = (0, st)) ?_ rfl _
  rintro acc k rfl
  exact processExitEntry_skip (0, st) (hidle k)

lemma processExit_retired (st : SemStore) (hpid : 0 < pid) (now : Fin semMaxUndoEntries → Int64)
    {k : Fin semMaxUndoEntries} (hk : Exiting pid (st.undoEntries k)) :
    (st.processExit pid now).2.undoEntries k = { st.undoEntries k with active := false } := by
  rw [processExit, if_neg (Int32.not_le.mpr hpid)]
  obtain ⟨-, hentries⟩ := processExit_loop pid now (List.finRange semMaxUndoEntries) (0, st)
  rcases hentries k with ⟨-, heq⟩ | ⟨-, hskip⟩
  · exact heq
  · exact absurd hk (hskip (List.mem_finRange k))

lemma processExit_kept (st : SemStore) (now : Fin semMaxUndoEntries → Int64)
    {k : Fin semMaxUndoEntries} (hk : ¬ Exiting pid (st.undoEntries k)) :
    (st.processExit pid now).2.undoEntries k = st.undoEntries k := by
  rw [processExit]
  split_ifs with hpid
  · rfl
  · obtain ⟨-, hentries⟩ := processExit_loop pid now (List.finRange semMaxUndoEntries) (0, st)
    rcases hentries k with ⟨hexit, -⟩ | ⟨heq, -⟩
    · exact absurd hexit hk
    · exact heq

/-- Exit of a process clears its row of the ledger. -/
theorem processExit_ledger (h : st.Inv) (hpid : 0 < pid)
    (now : Fin semMaxUndoEntries → Int64) (p id : Int32) (s : ℕ) :
    (st.processExit pid now).2.undoEntries.adjustmentOf p id s =
      if p = pid then 0 else st.undoEntries.adjustmentOf p id s := by
  have hoff : ∀ k, Exiting pid (st.undoEntries k) →
      ((st.processExit pid now).2.undoEntries k).active = false := by
    intro k hk
    rw [processExit_retired st hpid now hk]
  have hon : ∀ k, ¬ Exiting pid (st.undoEntries k) →
      (st.processExit pid now).2.undoEntries k = st.undoEntries k :=
    fun k hk => processExit_kept st now hk
  split_ifs with hp
  · apply h.undo.adjustmentOf_switched_off hoff hon
    intro k ha h1 _ _
    exact ⟨ha, h1.trans hp⟩
  · apply h.undo.adjustmentOf_switch_off hoff hon
    rintro k _ h1 _ _ ⟨-, h1'⟩
    exact hp (h1.symm.trans h1')

/-! ### One call -/

lemma tryopDetail_frames (h : st.Inv) (semid : Int32) (operations : List SemOp) (pid : Int32)
    (now : Int64) : st.SameFrames (st.tryopDetail semid operations pid now).2.2 := by
  rcases h.tryopDetail_cases semid operations pid now with ⟨r, -, heq⟩ | ⟨plan, t, -, -, -, heq⟩
  · rw [heq]
    exact SameFrames.refl st
  · rw [heq]
    exact sameFrames_of_write rfl ⟨rfl, rfl, rfl, rfl⟩

/-- The calls other than `semget` and removal leave the frame of every slot. -/
theorem Inv.next_frames (h : st.Inv) {op : StoreOp} (hop : op.keepsSlots = true) :
    st.SameFrames (st.next op) := by
  cases op with
  | getAs key nsems flags identity allocated now => cases hop
  | remove semid => cases hop
  | setval semid semnum value pid now =>
    rw [SemStore.next, perform]
    rcases st.setval_cases semid semnum value pid now with ⟨-, heq⟩ | ⟨i, -, -, -, heq⟩
    · rw [heq]
      exact SameFrames.refl st
    · rw [heq]
      exact sameFrames_of_write rfl ⟨rfl, rfl, rfl, rfl⟩
  | setall semid values pid now =>
    rw [SemStore.next, perform]
    rcases st.setall_cases semid values pid now with ⟨-, heq⟩ | ⟨i, -, -, -, heq⟩
    · rw [heq]
      exact SameFrames.refl st
    · rw [heq]
      exact sameFrames_of_write rfl ⟨rfl, rfl, rfl, rfl⟩
  | setMetadata semid uid gid mode actor now =>
    rw [SemStore.next, perform]
    rcases st.setMetadata_cases semid uid gid mode actor now with
      ⟨-, heq⟩ | ⟨i, -, -, -, -, heq⟩
    · rw [heq]
      exact SameFrames.refl st
    · rw [heq]
      exact sameFrames_of_write rfl ⟨rfl, rfl, rfl, rfl⟩
  | adjustWaitCount semid semnum waitForZero adjustment =>
    rw [SemStore.next, perform]
    rcases st.adjustWaitCount_cases semid semnum waitForZero adjustment with
      ⟨-, heq⟩ | ⟨i, -, -, -, heq⟩
    · rw [heq]
      exact SameFrames.refl st
    · rw [heq]
      exact sameFrames_of_write rfl (sameFrame_countedSet _ _ _ _)
  | tryopDetail semid operations pid now => exact tryopDetail_frames h semid operations pid now
  | processExit pid now => exact processExit_frames st pid now

end SemStore

end Tgcompat
