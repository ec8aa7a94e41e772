import Tgcompat.Broker.Blocking
import Tgcompat.Store.Generations

/-!
# Stale ids

Every operation looks its set up in the same way, so an id that does not resolve is refused by all
of them. A removed id resolves again only when the generation of its slot has gone around the
whole cycle, which takes 32767 removals, the one that removed the id included.
-/

namespace Tgcompat

namespace SemStore

variable {st : SemStore} {semid : Int32} {i : Fin semMaxSets}

/-! ### Ids that do not resolve -/

/-- Every operation given the id answers `EINVAL` and leaves the store alone, also the retry of a
request that names the id. -/
structure Dead (st : SemStore) (semid : Int32) : Prop where
  remove : st.remove semid = (-EINVAL, st)
  getval : ∀ semnum, st.getval semid semnum = -EINVAL
  getpid : ∀ semnum, st.getpid semid semnum = -EINVAL
  getWaitCount : ∀ semnum waitForZero, st.getWaitCount semid semnum waitForZero = -EINVAL
  getall : ∀ count, st.getall semid count = (-EINVAL, none)
  getMetadata : st.getMetadata semid = (-EINVAL, none)
  setval : ∀ semnum value pid now, st.setval semid semnum value pid now = (-EINVAL, st)
  setall : ∀ values pid now, st.setall semid values pid now = (-EINVAL, st)
  setMetadata : ∀ uid gid mode actor now,
    st.setMetadata semid uid gid mode actor now = (-EINVAL, st)
  adjustWaitCount : ∀ semnum waitForZero adjustment,
    st.adjustWaitCount semid semnum waitForZero adjustment = (-EINVAL, st)
  tryopDetail : ∀ operations pid now,
    st.tryopDetail semid operations pid now = (-EINVAL, none, st)
  retry : ∀ packet actor operations env response, Live packet actor semid operations →
    (brokerDispatch st packet actor env response).1 = 0 ∧
      (brokerDispatch st packet actor env response).2.1.header.result = -EINVAL ∧
      (brokerDispatch st packet actor env response).2.2 = st

theorem dead_of_findSet (h : st.findSet semid = none) : st.Dead semid where
  remove := by simp [SemStore.remove, h]
  getval := by simp [SemStore.getval, readSem, h]
  getpid := by simp [SemStore.getpid, readSem, h]
  getWaitCount := by simp [SemStore.getWaitCount, readSem, h]
  getall := by simp [SemStore.getall, h]
  getMetadata := by simp [SemStore.getMetadata, h]
  setval := by simp [SemStore.setval, h]
  setall := by simp [SemStore.setall, h]
  setMetadata := by simp [SemStore.setMetadata, h]
  adjustWaitCount := by simp [SemStore.adjustWaitCount, h]
  tryopDetail := by simp [SemStore.tryopDetail, planTryop, h, refuse]
  retry := by
    intro packet actor operations env response hlive
    have htryop : st.tryopDetail semid operations actor.pid env.now = (-EINVAL, none, st) := by
      simp [SemStore.tryopDetail, planTryop, h, refuse]
    rw [brokerDispatch_semop hlive.pid_pos hlive.isRequest hlive.isSemop, dispatchSemop,
      hlive.decoded]
    have hne : -EINVAL ≠ semOpBlocked := by decide
    simp only [htryop, if_neg hne, true_and, and_true]
    rfl

/-! ### Recycling a slot -/

/-- The first slot of the table. -/
def firstSlot : Fin semMaxSets := ⟨0, by decide⟩

/-- Create a private set. -/
def createPrivate : StoreOp := .getAs ipcPrivate 1 0 ⟨0, 0⟩ true 0

/-- Create a set in the first slot and remove it, `n` times, starting at generation `g`. -/
def recycle (g : ℕ) : ℕ → List StoreOp
  | 0 => []
  | n + 1 => createPrivate :: .remove (makeId firstSlot g) :: recycle (nextGeneration g) n

/-- The first slot is free and was used up to a generation. -/
structure FreeAt (st : SemStore) (g : ℕ) : Prop where
  inv : st.Inv
  free : (st.sets firstSlot).active = false
  generation : (st.sets firstSlot).generation = g

lemma FreeAt.create {g : ℕ} (h : st.FreeAt g) (hg : GenerationOk g) :
    (st.perform createPrivate).1 = makeId firstSlot g ∧
      ((st.next createPrivate).sets firstSlot).nsems = 1 ∧
      ((st.next createPrivate).sets firstSlot).values = [0] ∧
      (st.next createPrivate).findSet (makeId firstSlot g) = some firstSlot := by
  have hfirst : (Table.firstIndex fun i => !(st.sets i).active) = some firstSlot :=
    Table.firstIndex_eq_zero rfl (by rw [h.free]; rfl)
  have hfresh : (freshSet (st.sets firstSlot) ipcPrivate 1 0 ⟨0, 0⟩ 0).generation = g := by
    have hne : g ≠ 0 := Nat.one_le_iff_ne_zero.mp hg.1
    simp [freshSet, h.generation, hne]
  have hperform : st.perform createPrivate = (makeId firstSlot g,
      st.writeSet firstSlot (freshSet (st.sets firstSlot) ipcPrivate 1 0 ⟨0, 0⟩ 0)) := by
    have hnsems : ¬ ((1 : Int32) ≤ 0 ∨ (1 : Int32).toInt > semMaxPerSet) := by decide
    simp only [createPrivate, perform, getAs, createSet, ne_eq, not_true_eq_false, if_false,
      if_neg hnsems, hfirst, hfresh]
    rfl
  rw [SemStore.next, hperform]
  refine ⟨rfl, ?_, ?_, ?_⟩
  · rw [writeSet_sets_self]
    rfl
  · rw [writeSet_sets_self]
    rfl
  · refine findSet_eq_some_iff.mpr ⟨?_, ?_, ?_⟩
    · rw [writeSet_sets_self]
      rfl
    · rw [writeSet_sets_self, hfresh]
      exact hg
    · rw [idOf, writeSet_sets_self, hfresh]

lemma FreeAt.remove {g : ℕ} (h : st.Inv) (hf : st.findSet (makeId firstSlot g) = some firstSlot)
    (hg : (st.sets firstSlot).generation = g) :
    (st.next (.remove (makeId firstSlot g))).FreeAt (nextGeneration g) := by
  refine ⟨h.next _, ?_, ?_⟩
  · simp [SemStore.next, perform, SemStore.remove, hf, removedSet, SemSet.zero]
  · simp [SemStore.next, perform, SemStore.remove, hf, removedSet, hg]

/-- The slot after `n` uses. -/
lemma FreeAt.recycle {g : ℕ} (h : st.FreeAt g) (hg : GenerationOk g) (n : ℕ) :
    (st.run (recycle g n)).FreeAt (nextGeneration^[n] g) ∧
      removals firstSlot (st.trace (SemStore.recycle g n)) = n := by
  induction n generalizing st g with
  | zero => exact ⟨h, rfl⟩
  | succ n ih =>
    obtain ⟨-, -, -, hf⟩ := h.create hg
    have hgen : ((st.next createPrivate).sets firstSlot).generation = g :=
      ((findSet_makeId hg).mp (by rw [hf]; exact Option.some_ne_none _)).2
    have hremoved := FreeAt.remove (h.inv.next createPrivate) hf hgen
    obtain ⟨hfree, hcount⟩ := ih hremoved nextGeneration_ok
    rw [Function.iterate_succ_apply]
    refine ⟨hfree, ?_⟩
    have htrace : st.trace (SemStore.recycle g (n + 1)) = (st, createPrivate) ::
        (st.next createPrivate, .remove (makeId firstSlot g)) ::
        ((st.next createPrivate).next (.remove (makeId firstSlot g))).trace
          (SemStore.recycle (nextGeneration g) n) := rfl
    have hcreate : removesSlot firstSlot (st, createPrivate) = false := rfl
    have hremove : removesSlot firstSlot
        (st.next createPrivate, .remove (makeId firstSlot g)) = true := by
      simp [removesSlot, hf]
    rw [htrace, removals, List.countP_cons, List.countP_cons, ← removals, hcount, hcreate, hremove]
    rfl

/-- After a whole cycle the first id of the first slot is handed out again. -/
lemma exists_cycle {n : ℕ} (hn : 32767 ∣ n + 1) :
    ∃ later, removals firstSlot
        ((create.run [createPrivate, .remove (makeId firstSlot 1)]).trace later) = n ∧
      ((create.run [createPrivate, .remove (makeId firstSlot 1)]).run later).getval
        (makeId firstSlot 1) 0 = 0 := by
  have hone : GenerationOk 1 := ⟨by decide, by decide⟩
  have hf : (create.run [createPrivate]).findSet (makeId firstSlot 1) = some firstSlot := by
    decide +kernel
  have hgen := ((findSet_makeId hone).mp (by rw [hf]; exact Option.some_ne_none _)).2
  have hfree : (create.run [createPrivate, .remove (makeId firstSlot 1)]).FreeAt
      (nextGeneration 1) := FreeAt.remove (inv_run [createPrivate]) hf hgen
  obtain ⟨hround, hcount⟩ := hfree.recycle nextGeneration_ok n
  rw [← Function.iterate_succ_apply, (iterate_nextGeneration_eq_self hone _).mpr hn] at hround
  obtain ⟨-, hnsems, hvalues, hresolved⟩ := hround.create hone
  refine ⟨recycle (nextGeneration 1) n ++ [createPrivate], ?_, ?_⟩
  · have hcreate : ∀ st, removesSlot firstSlot (st, createPrivate) = false := fun _ => rfl
    rw [trace_snoc, removals, List.countP_append, ← removals, hcount, List.countP_singleton,
      hcreate]
    rfl
  · rw [run_snoc, getval, readSem, hresolved]
    simp [hnsems, hvalues]

/-- An id is returned, removed, and resolves again after 32766 further removals of its slot. -/
theorem removed_id_resolves_again :
    (create.perform createPrivate).1 = makeId firstSlot 1 ∧
      (create.run [createPrivate]).findSet (makeId firstSlot 1) = some firstSlot ∧
      ∃ later, removals firstSlot
          ((create.run [createPrivate, .remove (makeId firstSlot 1)]).trace later) < 32767 ∧
        ((create.run [createPrivate, .remove (makeId firstSlot 1)]).run later).getval
          (makeId firstSlot 1) 0 = 0 := by
  refine ⟨by decide +kernel, by decide +kernel, ?_⟩
  obtain ⟨later, hcount, hvalue⟩ := exists_cycle (n := 32766) ⟨1, rfl⟩
  exact ⟨later, by omega, hvalue⟩

/-! ### Ids that were removed -/

lemma Inv.getAs_decodes (h : st.Inv) {key nsems flags : Int32} {identity : SemIdentity}
    {allocated : Bool} {now : Int64}
    (hpos : 0 < (st.getAs key nsems flags identity allocated now).1) :
    ∃ i g, decodeId (st.getAs key nsems flags identity allocated now).1 = some (i, g) := by
  rcases st.getAs_cases key nsems flags identity allocated now with ⟨hneg, -⟩ | ⟨j, ha, heq⟩ |
    ⟨j, -, heq⟩
  · exact absurd (Int32.lt_trans hneg hpos) Int32.lt_irrefl
  · rw [heq]
    exact ⟨j, _, decodeId_eq_some_iff.mpr ⟨(h.valid j ha).generation, rfl⟩⟩
  · rw [heq]
    exact ⟨j, _, decodeId_eq_some_iff.mpr
      ⟨generationOk_fresh h j key nsems flags identity now, rfl⟩⟩

/-- An id that `semget` returned for a slot resolves in a later state exactly when the slot is
active and the removals of the slot since then are a multiple of 32767. After the id was removed,
every operation given it is refused as long as there are fewer than 32766 further removals of the
slot. -/
theorem issued_id_dead_after_removal (before : List StoreOp) (key nsems flags : Int32)
    (identity : SemIdentity) (allocated : Bool) (now : Int64) (semid : Int32)
    (hissued : ((create.run before).perform (.getAs key nsems flags identity allocated now)).1 =
      semid) (hpos : 0 < semid) :
    ∃ i g, decodeId semid = some (i, g) ∧
      (∀ later,
        (create.run (before ++ .getAs key nsems flags identity allocated now :: later)).findSet
            semid ≠ none ↔
          ((create.run (before ++ .getAs key nsems flags identity allocated now :: later)).sets
              i).active = true ∧
            32767 ∣ removals i (((create.run before).next
              (.getAs key nsems flags identity allocated now)).trace later)) ∧
      ∀ mid later,
        (create.run (before ++ .getAs key nsems flags identity allocated now :: mid)).findSet
            semid = some i →
        removals i (((create.run (before ++ .getAs key nsems flags identity allocated now ::
          mid)).next (.remove semid)).trace later) < 32766 →
        (create.run (before ++ .getAs key nsems flags identity allocated now :: mid ++
          .remove semid :: later)).Dead semid := by
  have hinv := inv_run before
  have hrun : ∀ later,
      create.run (before ++ .getAs key nsems flags identity allocated now :: later) =
        ((create.run before).next (.getAs key nsems flags identity allocated now)).run later := by
    intro later
    rw [run_append]
    rfl
  have hinv' := hinv.next (.getAs key nsems flags identity allocated now)
  rw [← hissued] at hpos
  obtain ⟨i, g, hdecode⟩ := hinv.getAs_decodes hpos
  obtain ⟨hg, hid, hgen⟩ := hinv.getAs_issues hdecode
  have hsemid : semid = makeId i (((create.run before).next
      (.getAs key nsems flags identity allocated now)).sets i).generation := by
    rw [← hissued, SemStore.next, perform, hgen]
    exact hid
  refine ⟨i, g, hissued ▸ hdecode, ?_, ?_⟩
  · intro later
    rw [hrun, hsemid]
    refine hinv'.resolves_run ?_ later
    rw [SemStore.next, perform, hgen]
    exact hg
  · intro mid later hf hfew
    refine dead_of_findSet ?_
    have hinv'' := inv_run (before ++ .getAs key nsems flags identity allocated now :: mid)
    have hsplit : create.run (before ++ .getAs key nsems flags identity allocated now :: mid ++
        .remove semid :: later) =
        ((create.run (before ++ .getAs key nsems flags identity allocated now :: mid)).next
          (.remove semid)).run later := by
      rw [run_append]
      rfl
    rw [hsplit]
    exact hinv''.removed_run hf later hfew

/-- The slot is used again at once, and the old id is still refused. -/
theorem issued_id_dead_after_removal_reused :
    (create.run [createPrivate, .remove (makeId firstSlot 1), createPrivate]).Dead
      (makeId firstSlot 1) := by
  obtain ⟨i, g, hdecode, -, hdead⟩ := issued_id_dead_after_removal [] ipcPrivate 1 0 ⟨0, 0⟩ true 0
    (makeId firstSlot 1) (by decide +kernel) (by decide +kernel)
  have hslot : decodeId (makeId firstSlot 1) = some (firstSlot, 1) := by decide +kernel
  rw [hslot] at hdecode
  cases hdecode
  exact hdead [] [createPrivate] (by decide +kernel) (by decide +kernel)

end SemStore

end Tgcompat
