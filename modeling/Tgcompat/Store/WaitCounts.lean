import Mathlib.Data.List.Count
import Mathlib.Data.List.GetD
import Tgcompat.Store.Generations

/-!
# Wait counts

A waiter is counted at a place: a semaphore of a set, and what it waits for there. The counts of a
store *tally* with a list of places when each count of an active set is the number of times its
place is in the list. Places of sets that are gone stay in the list until their waiters leave, so a
place also has to be recognised as outdated: its generation is behind the one of its slot. This is
kept by every operation as long as no generation starts over.
-/

namespace Tgcompat

/-- What a waiter is counted for. -/
structure WaitPlace where
  semid : Int32
  semnum : ℕ
  waitForZero : Bool
  deriving DecidableEq, Repr

/-- The operations other than the adjustment of a count. -/
def StoreOp.keepsCounts : StoreOp → Bool
  | .adjustWaitCount .. => false
  | _ => true

namespace SemStore

variable {st st' : SemStore} {place : WaitPlace} {places : List WaitPlace} {i : Fin semMaxSets}

/-- The place is in a set that exists, or in one that is gone for good. -/
def Issued (st : SemStore) (place : WaitPlace) : Prop :=
  ∃ (i : Fin semMaxSets) (g : ℕ), GenerationOk g ∧ place.semid = makeId i g ∧
    g ≤ (st.sets i).generation ∧ (g = (st.sets i).generation →
      (st.sets i).active = true ∧ place.semnum < (st.sets i).nsems)

/-- The counts are those of the places. -/
structure Tallies (st : SemStore) (places : List WaitPlace) : Prop where
  issued : ∀ place ∈ places, st.Issued place
  counts : ∀ i, (st.sets i).active = true → ∀ s waitForZero,
    ((st.sets i).waitCounts waitForZero).getD s 0 = places.count ⟨st.idOf i, s, waitForZero⟩

lemma tallies_create : create.Tallies [] where
  issued := by simp
  counts := by
    intro i hi
    cases hi

lemma Tallies.perm (h : st.Tallies places) {places' : List WaitPlace} (hp : places.Perm places') :
    st.Tallies places' where
  issued place hplace := h.issued place (hp.mem_iff.mpr hplace)
  counts i hi s waitForZero := by rw [h.counts i hi s waitForZero, hp.count_eq]

/-- The slot of a place in an existing set. -/
lemma Issued.resolved (h : st.Issued place) (hf : st.findSet place.semid = some i) :
    place.semnum < (st.sets i).nsems := by
  obtain ⟨j, g, hg, hid, -, hcurrent⟩ := h
  obtain ⟨ha, hgi, hid'⟩ := findSet_eq_some_iff.mp hf
  obtain ⟨hij, hgg⟩ := makeId_inj j.isLt i.isLt hg.2 hgi.2 (hid.symm.trans hid')
  have hij' : j = i := Fin.ext hij
  subst hij'
  exact (hcurrent hgg).2

/-! ### Operations that leave the counts alone -/

/-- What the other operations do to a slot: nothing that matters for the counts, removal, or
creation. -/
inductive SlotMove (set set' : SemSet) : Prop
  | kept (hframe : set.SameFrame set')
      (hcounts : ∀ waitForZero, set'.waitCounts waitForZero = set.waitCounts waitForZero)
  | removed (hactive : set.active = true) (hgone : set'.active = false)
      (hgeneration : set'.generation = nextGeneration set.generation)
  | created (hfree : set.active = false)
      (hgeneration : set'.generation = if set.generation = 0 then 1 else set.generation)
      (hcounts : ∀ waitForZero s, (set'.waitCounts waitForZero).getD s 0 = 0)

lemma SlotMove.refl (set : SemSet) : SlotMove set set :=
  .kept ⟨rfl, rfl, rfl, rfl⟩ fun _ => rfl

/-- A write to one slot. -/
lemma slotMove_of_write {set : SemSet} {j : Fin semMaxSets}
    (heq : st'.sets = Function.update st.sets j set) (hmove : SlotMove (st.sets j) set) :
    SlotMove (st.sets i) (st'.sets i) := by
  rw [heq]
  by_cases hij : i = j
  · subst hij
    rw [Function.update_self]
    exact hmove
  · rw [Function.update_of_ne hij]
    exact .refl _

lemma processExit_waitCounts (st : SemStore) (pid : Int32) (now : Fin semMaxUndoEntries → Int64)
    (waitForZero : Bool) :
    (((st.processExit pid now).2.sets i).waitCounts waitForZero) =
      (st.sets i).waitCounts waitForZero := by
  rw [processExit]
  split_ifs with hpid
  · rfl
  · refine Transition.foldl_invariant (I := fun acc : Int32 × SemStore =>
      (acc.2.sets i).waitCounts waitForZero = (st.sets i).waitCounts waitForZero) ?_ rfl _
    intro acc k hacc
    rcases processExitEntry_cases pid now acc k with ⟨-, heq⟩ | ⟨-, -, heq⟩ | ⟨-, j, -, -, heq⟩
    · rw [heq]
      exact hacc
    · rw [heq]
      exact hacc
    · rw [heq]
      refine Eq.trans ?_ hacc
      by_cases hij : i = j
      · subst hij
        simp [retireEntry, restoreEntry, SemSet.waitCounts]
      · simp [retireEntry, writeSet_sets_of_ne _ hij]

lemma getD_replicate_zero (n s : ℕ) : (List.replicate n 0).getD s 0 = 0 := by
  rw [List.getD_eq_getElem?_getD, List.getElem?_getD_replicate_default_eq]

theorem Inv.slotMove (h : st.Inv) {op : StoreOp} (hop : op.keepsCounts = true)
    (i : Fin semMaxSets) : SlotMove (st.sets i) ((st.next op).sets i) := by
  cases op with
  | getAs key nsems flags identity allocated now =>
    rw [SemStore.next, perform]
    rcases st.getAs_cases key nsems flags identity allocated now with ⟨-, heq⟩ | ⟨j, -, heq⟩ |
      ⟨j, hc, heq⟩
    · rw [heq]
      exact .refl _
    · rw [heq]
      exact .refl _
    · rw [heq]
      refine slotMove_of_write rfl (.created hc.free rfl ?_)
      intro waitForZero s
      cases waitForZero with
      | false => exact getD_replicate_zero _ _
      | true => exact getD_replicate_zero _ _
  | remove semid =>
    rw [SemStore.next, perform]
    rcases st.remove_cases semid with ⟨-, heq⟩ | ⟨j, hf, heq⟩
    · rw [heq]
      exact .refl _
    · rw [heq]
      exact slotMove_of_write rfl (.removed (active_of_findSet hf) rfl rfl)
  | setval semid semnum value pid now =>
    rw [SemStore.next, perform]
    rcases st.setval_cases semid semnum value pid now with ⟨-, heq⟩ | ⟨j, -, -, -, heq⟩
    · rw [heq]
      exact .refl _
    · rw [heq]
      exact slotMove_of_write rfl (.kept ⟨rfl, rfl, rfl, rfl⟩ fun _ => rfl)
  | setall semid values pid now =>
    rw [SemStore.next, perform]
    rcases st.setall_cases semid values pid now with ⟨-, heq⟩ | ⟨j, -, -, -, heq⟩
    · rw [heq]
      exact .refl _
    · rw [heq]
      exact slotMove_of_write rfl (.kept ⟨rfl, rfl, rfl, rfl⟩ fun _ => rfl)
  | setMetadata semid uid gid mode actor now =>
    rw [SemStore.next, perform]
    rcases st.setMetadata_cases semid uid gid mode actor now with ⟨-, heq⟩ | ⟨j, -, -, -, -, heq⟩
    · rw [heq]
      exact .refl _
    · rw [heq]
      exact slotMove_of_write rfl (.kept ⟨rfl, rfl, rfl, rfl⟩ fun _ => rfl)
  | adjustWaitCount semid semnum waitForZero adjustment => cases hop
  | tryopDetail semid operations pid now =>
    rw [SemStore.next, perform]
    rcases h.tryopDetail_cases semid operations pid now with ⟨r, -, heq⟩ | ⟨plan, t, -, -, -, heq⟩
    · rw [heq]
      exact .refl _
    · rw [heq]
      exact slotMove_of_write rfl (.kept ⟨rfl, rfl, rfl, rfl⟩ fun _ => rfl)
  | processExit pid now =>
    exact .kept (st.processExit_frames pid now i) (st.processExit_waitCounts pid now)

/-- A place of a set that is gone is not taken for one of a set that comes after it. -/
lemma Issued.move (h : st.Issued place) (hmoves : ∀ i, SlotMove (st.sets i) (st'.sets i))
    (hwrap : ∀ i, vacates i st st' = true → (st.sets i).generation < semIdMaxGeneration) :
    st'.Issued place := by
  obtain ⟨i, g, hg, hid, hle, hcurrent⟩ := h
  refine ⟨i, g, hg, hid, ?_⟩
  cases hmoves i with
  | kept hframe hcounts =>
    rw [hframe.generation, hframe.active, hframe.nsems]
    exact ⟨hle, hcurrent⟩
  | removed hactive hgone hgeneration =>
    have hlt := hwrap i (by rw [vacates, hactive, hgone]; rfl)
    have hnext : nextGeneration (st.sets i).generation = (st.sets i).generation + 1 := by
      have hmax : semIdMaxGeneration = 32767 := rfl
      rw [nextGeneration_eq ⟨le_trans hg.1 hle, hlt.le⟩]
      omega
    rw [hgeneration, hnext]
    exact ⟨by omega, fun heq => by omega⟩
  | created hfree hgeneration hcounts =>
    have hne : (st.sets i).generation ≠ 0 := by
      have := hg.1
      omega
    rw [hgeneration, if_neg hne]
    refine ⟨hle, fun heq => ?_⟩
    rw [(hcurrent heq).1] at hfree
    cases hfree

/-- No place in the list is in a set that was just created. -/
lemma Issued.ne_created (h : st.Issued place) (hst : st.Inv) (hfree : (st.sets i).active = false)
    {g : ℕ} (hg : g = if (st.sets i).generation = 0 then 1 else (st.sets i).generation) :
    place.semid ≠ makeId i g := by
  intro heq
  obtain ⟨j, k, hk, hid, hle, hcurrent⟩ := h
  have hgmax : g ≤ semIdMaxGeneration := by
    have := hst.generation_le i
    have hmax : semIdMaxGeneration = 32767 := rfl
    split_ifs at hg
    · omega
    · omega
  obtain ⟨hij, hkg⟩ := makeId_inj j.isLt i.isLt hk.2 hgmax (hid.symm.trans heq)
  have hij' : j = i := Fin.ext hij
  subst hij'
  have hne : (st.sets j).generation ≠ 0 := by
    have := hk.1
    omega
  rw [if_neg hne] at hg
  rw [(hcurrent (hkg.trans hg)).1] at hfree
  cases hfree

/-- The counts still tally after any operation but an adjustment, unless a generation starts
over. -/
theorem Tallies.next (ht : st.Tallies places) (h : st.Inv) (op : StoreOp)
    (hop : op.keepsCounts = true)
    (hwrap : ∀ i, vacates i st (st.next op) = true →
      (st.sets i).generation < semIdMaxGeneration) : (st.next op).Tallies places where
  issued place hplace := (ht.issued place hplace).move (h.slotMove hop) hwrap
  counts := by
    intro i hi s waitForZero
    cases h.slotMove hop i with
    | kept hframe hcounts =>
      rw [hframe.active] at hi
      rw [hcounts, ht.counts i hi, idOf, idOf, hframe.generation]
    | removed hactive hgone hgeneration =>
      rw [hgone] at hi
      cases hi
    | created hfree hgeneration hcounts =>
      rw [hcounts, eq_comm, List.count_eq_zero]
      intro hmem
      exact (ht.issued _ hmem).ne_created h hfree hgeneration rfl

/-! ### Counting and uncounting a waiter -/

/-- One count of one set is rewritten. -/
lemma waitCounts_countedSet (set : SemSet) (semnum : ℕ) (waitForZero : Bool) (adjustment : Int32)
    (hlt : semnum < (set.waitCounts waitForZero).length) (s : ℕ) (zero : Bool) :
    ((countedSet set semnum waitForZero adjustment).waitCounts zero).getD s 0 =
      if zero = waitForZero ∧ s = semnum then
        if adjustment > 0 then (set.waitCounts waitForZero).getD semnum 0 + 1
        else (set.waitCounts waitForZero).getD semnum 0 - 1
      else (set.waitCounts zero).getD s 0 := by
  by_cases hs : s = semnum
  · subst hs
    cases waitForZero <;> cases zero <;>
      simp_all [countedSet, SemSet.setWaitCounts, SemSet.waitCounts, List.getD_eq_getElem?_getD]
  · have hs' : semnum ≠ s := Ne.symm hs
    cases waitForZero <;> cases zero <;>
      simp [countedSet, SemSet.setWaitCounts, SemSet.waitCounts, List.getD_eq_getElem?_getD, hs,
        hs']

lemma Inv.waitCounts_length (h : st.Inv) (hi : (st.sets i).active = true) (waitForZero : Bool) :
    ((st.sets i).waitCounts waitForZero).length = (st.sets i).nsems := by
  cases waitForZero with
  | false => exact (h.valid i hi).negativeWaiters_length
  | true => exact (h.valid i hi).zeroWaiters_length

/-- The frames of the slots after one count was rewritten. -/
lemma Issued.frames (h : st.Issued place) (hframes : st.SameFrames st') : st'.Issued place := by
  obtain ⟨i, g, hg, hid, hle, hcurrent⟩ := h
  refine ⟨i, g, hg, hid, ?_⟩
  rw [(hframes i).generation, (hframes i).active, (hframes i).nsems]
  exact ⟨hle, hcurrent⟩

/-- The counts after the adjustment of one place of an active set. -/
lemma counts_adjusted (h : st.Inv) (hf : st.findSet place.semid = some i)
    (hlt : place.semnum < (st.sets i).nsems) (adjustment : Int32) (j : Fin semMaxSets)
    (hj : (st.sets j).active = true) (s : ℕ) (zero : Bool) :
    (((st.writeSet i (countedSet (st.sets i) place.semnum place.waitForZero adjustment)).sets
        j).waitCounts zero).getD s 0 =
      if (⟨st.idOf j, s, zero⟩ : WaitPlace) = place then
        if adjustment > 0 then ((st.sets j).waitCounts zero).getD s 0 + 1
        else ((st.sets j).waitCounts zero).getD s 0 - 1
      else ((st.sets j).waitCounts zero).getD s 0 := by
  obtain ⟨semid, semnum, waitForZero⟩ := place
  obtain ⟨hi, rfl⟩ := h.findSet_iff.mp hf
  by_cases hij : j = i
  · subst hij
    rw [writeSet_sets_self, waitCounts_countedSet _ _ _ _ (by rwa [h.waitCounts_length hi])]
    by_cases hsame : zero = waitForZero ∧ s = semnum
    · obtain ⟨rfl, rfl⟩ := hsame
      simp
    · rw [if_neg hsame, if_neg]
      rintro heq
      cases heq
      exact hsame ⟨rfl, rfl⟩
  · rw [writeSet_sets_of_ne _ hij, if_neg]
    intro heq
    have hid : st.idOf j = st.idOf i := congrArg WaitPlace.semid heq
    exact hij (idOf_inj (h.valid j hj).generation (h.valid i hi).generation hid)

/-- A waiter that is counted joins the list. -/
theorem Tallies.enter (ht : st.Tallies places) (h : st.Inv)
    (hcount : st.adjustWaitCount place.semid place.semnum place.waitForZero 1 = (0, st')) :
    st'.Tallies (place :: places) := by
  rcases st.adjustWaitCount_cases place.semid place.semnum place.waitForZero 1 with
    ⟨hneg, -⟩ | ⟨i, hf, hlt, -, heq⟩
  · rw [hcount] at hneg
    exact absurd hneg Int32.lt_irrefl
  · cases heq.symm.trans hcount
    have hframes : st.SameFrames (st.writeSet i
        (countedSet (st.sets i) place.semnum place.waitForZero 1)) :=
      sameFrames_of_write rfl (sameFrame_countedSet _ _ _ _)
    obtain ⟨hi, hid⟩ := h.findSet_iff.mp hf
    refine ⟨?_, ?_⟩
    · intro p hp
      refine Issued.frames ?_ hframes
      rcases List.mem_cons.mp hp with rfl | hp
      · exact ⟨i, (st.sets i).generation, (h.valid i hi).generation, hid, le_rfl,
          fun _ => ⟨hi, hlt⟩⟩
      · exact ht.issued p hp
    · intro j hj s zero
      rw [(hframes j).active] at hj
      have hidj : (st.writeSet i (countedSet (st.sets i) place.semnum place.waitForZero 1)).idOf j =
          st.idOf j := by rw [idOf, idOf, (hframes j).generation]
      rw [hidj, counts_adjusted h hf hlt 1 j hj s zero, List.count_cons, ht.counts j hj]
      by_cases heq : (⟨st.idOf j, s, zero⟩ : WaitPlace) = place
      · simp [heq]
      · simp [heq, Ne.symm heq]

/-- A waiter of an existing set can be uncounted. -/
lemma Tallies.adjust_neg (ht : st.Tallies (place :: places)) (h : st.Inv)
    (hf : st.findSet place.semid = some i) :
    place.semnum < (st.sets i).nsems ∧
      st.adjustWaitCount place.semid place.semnum place.waitForZero (-1) =
        (0, st.writeSet i (countedSet (st.sets i) place.semnum place.waitForZero (-1))) := by
  obtain ⟨hi, hid⟩ := h.findSet_iff.mp hf
  have hlt := (ht.issued place List.mem_cons_self).resolved hf
  refine ⟨hlt, ?_⟩
  have hcount : ((st.sets i).waitCounts place.waitForZero).getD place.semnum 0 ≠ 0 := by
    rw [ht.counts i hi, ← hid, List.count_cons_self]
    exact Nat.succ_ne_zero _
  rw [adjustWaitCount, hf]
  simp only
  rw [if_neg, if_neg]
  · rfl
  · rintro (⟨hpos, -⟩ | ⟨-, hzero⟩)
    · exact absurd hpos (by decide)
    · exact hcount hzero
  · rintro (hge | ⟨-, hne⟩)
    · omega
    · exact hne rfl

/-- A waiter that is uncounted leaves the list. -/
theorem Tallies.release (ht : st.Tallies (place :: places)) (h : st.Inv) :
    (st.adjustWaitCount place.semid place.semnum place.waitForZero (-1)).2.Tallies places := by
  cases hf : st.findSet place.semid with
  | none =>
    have hsame : (st.adjustWaitCount place.semid place.semnum place.waitForZero (-1)).2 = st := by
      rw [adjustWaitCount, hf]
    rw [hsame]
    refine ⟨fun p hp => ht.issued p (List.mem_cons_of_mem _ hp), ?_⟩
    intro j hj s zero
    rw [ht.counts j hj, List.count_cons_of_ne]
    rintro rfl
    rw [h.findSet_idOf hj] at hf
    cases hf
  | some i =>
    obtain ⟨hlt, heq⟩ := ht.adjust_neg h hf
    rw [heq]
    have hframes : st.SameFrames (st.writeSet i
        (countedSet (st.sets i) place.semnum place.waitForZero (-1))) :=
      sameFrames_of_write rfl (sameFrame_countedSet _ _ _ _)
    refine ⟨fun p hp => (ht.issued p (List.mem_cons_of_mem _ hp)).frames hframes, ?_⟩
    intro j hj s zero
    rw [(hframes j).active] at hj
    have hidj : (st.writeSet i
        (countedSet (st.sets i) place.semnum place.waitForZero (-1))).idOf j = st.idOf j := by
      rw [idOf, idOf, (hframes j).generation]
    simp only
    rw [hidj, counts_adjusted h hf hlt (-1) j hj s zero, ht.counts j hj, List.count_cons]
    by_cases heq : (⟨st.idOf j, s, zero⟩ : WaitPlace) = place
    · simp [heq]
    · simp [heq, Ne.symm heq]

end SemStore

end Tgcompat
