import Tgcompat.Store.Frame

/-!
# Generations and stale ids

Each successful removal moves the generation of its slot one step around a cycle of 32767
values, and nothing else moves the generation of a slot that has been used. So an id that was
handed out resolves exactly when its slot is active and the removals since are a multiple of the
period.
-/

namespace Tgcompat

/-! ### The cycle of generations -/

lemma nextGeneration_eq {g : ℕ} (hg : GenerationOk g) :
    nextGeneration g = g % 32767 + 1 := by
  obtain ⟨h1, h2⟩ := hg
  have hmax : semIdMaxGeneration = 32767 := rfl
  rw [nextGeneration]
  by_cases hlast : g ≥ semIdMaxGeneration
  · rw [if_pos hlast]
    omega
  · rw [if_neg hlast]
    omega

/-- The generation after `n` removals. -/
lemma iterate_nextGeneration {g : ℕ} (hg : GenerationOk g) (n : ℕ) :
    nextGeneration^[n] g = (g - 1 + n) % 32767 + 1 := by
  obtain ⟨h1, h2⟩ := hg
  have hmax : semIdMaxGeneration = 32767 := rfl
  induction n with
  | zero =>
    rw [Function.iterate_zero, id]
    omega
  | succ n ih =>
    have hok : GenerationOk ((g - 1 + n) % 32767 + 1) := by
      constructor
      · omega
      · omega
    rw [Function.iterate_succ_apply', ih, nextGeneration_eq hok]
    omega

/-- The cycle has full period. -/
lemma iterate_nextGeneration_eq_self {g : ℕ} (hg : GenerationOk g) (n : ℕ) :
    nextGeneration^[n] g = g ↔ 32767 ∣ n := by
  rw [iterate_nextGeneration hg]
  obtain ⟨h1, h2⟩ := hg
  have hmax : semIdMaxGeneration = 32767 := rfl
  constructor
  · intro h
    omega
  · intro h
    omega

namespace SemStore

variable {st : SemStore} {semid : Int32} {i : Fin semMaxSets}

/-! ### Removals of a slot -/

/-- The step is a successful removal of the set in slot `i`. -/
def removesSlot (i : Fin semMaxSets) : SemStore × StoreOp → Bool
  | (st, .remove semid) => decide (st.findSet semid = some i)
  | _ => false

/-- The number of successful removals of slot `i`. -/
def removals (i : Fin semMaxSets) (steps : List (SemStore × StoreOp)) : ℕ :=
  steps.countP (removesSlot i)

lemma generation_getAs (key nsems flags : Int32) (identity : SemIdentity) (allocated : Bool)
    (now : Int64) (hg : (st.sets i).generation ≠ 0) :
    ((st.getAs key nsems flags identity allocated now).2.sets i).generation =
      (st.sets i).generation := by
  rcases st.getAs_cases key nsems flags identity allocated now with ⟨-, heq⟩ | ⟨j, -, heq⟩ |
    ⟨j, -, heq⟩
  · rw [heq]
  · rw [heq]
  · rw [heq]
    by_cases hij : i = j
    · subst hij
      simp [freshSet, hg]
    · rw [writeSet_sets_of_ne _ hij]

/-- The set in slot `i` is gone. -/
def vacates (i : Fin semMaxSets) (st st' : SemStore) : Bool :=
  (st.sets i).active && !(st'.sets i).active

lemma SameFrames.vacates {st' : SemStore} (h : st.SameFrames st') : vacates i st st' = false := by
  rw [SemStore.vacates, (h i).active]
  exact Bool.and_not_self _

/-- A set goes only by its removal. -/
lemma Inv.removesSlot_eq (h : st.Inv) (op : StoreOp) :
    removesSlot i (st, op) = vacates i st (st.next op) := by
  by_cases hkeep : op.keepsSlots = true
  · rw [(h.next_frames hkeep).vacates]
    cases op with
    | remove semid => cases hkeep
    | _ => rfl
  · cases op with
    | getAs key nsems flags identity allocated now =>
      rw [SemStore.next, perform]
      rcases st.getAs_cases key nsems flags identity allocated now with ⟨-, heq⟩ | ⟨j, -, heq⟩ |
        ⟨j, -, heq⟩
      · simp [heq, removesSlot, vacates]
      · simp [heq, removesSlot, vacates]
      · rw [heq]
        by_cases hij : i = j
        · subst hij
          simp [removesSlot, vacates, freshSet]
        · simp [removesSlot, vacates, writeSet_sets_of_ne _ hij]
    | remove semid =>
      rw [SemStore.next, perform]
      rcases st.remove_cases semid with ⟨hf, heq⟩ | ⟨j, hf, heq⟩
      · simp [heq, removesSlot, hf, vacates]
      · rw [heq]
        by_cases hij : i = j
        · subst hij
          have hgone : (removedSet (st.sets i)).active = false := rfl
          simp [removesSlot, hf, vacates, hgone, active_of_findSet hf]
        · simp [removesSlot, hf, Ne.symm hij, vacates, writeSet_sets_of_ne _ hij]
    | _ => exact absurd rfl hkeep

/-- One step of a slot that has been used: only its own removal moves its generation. -/
lemma Inv.generation_next (h : st.Inv) (op : StoreOp) (hg : (st.sets i).generation ≠ 0) :
    ((st.next op).sets i).generation =
      nextGeneration^[(removesSlot i (st, op)).toNat] (st.sets i).generation := by
  by_cases hkeep : op.keepsSlots = true
  · have hnot : removesSlot i (st, op) = false := by
      cases op with
      | remove semid => cases hkeep
      | _ => rfl
    rw [hnot, (h.next_frames hkeep i).generation]
    rfl
  · cases op with
    | getAs key nsems flags identity allocated now =>
      exact generation_getAs key nsems flags identity allocated now hg
    | remove semid =>
      rw [SemStore.next, perform]
      rcases st.remove_cases semid with ⟨hf, heq⟩ | ⟨j, hf, heq⟩
      · simp [heq, removesSlot, hf]
      · rw [heq]
        by_cases hij : i = j
        · subst hij
          simp [removesSlot, hf, removedSet]
        · simp [removesSlot, hf, Ne.symm hij, writeSet_sets_of_ne _ hij]
    | _ => exact absurd rfl hkeep

/-- The generation of a used slot after a run. -/
theorem Inv.generation_run (h : st.Inv) (hg : GenerationOk (st.sets i).generation)
    (ops : List StoreOp) :
    (st.run ops).Inv ∧ ((st.run ops).sets i).generation =
      nextGeneration^[removals i (st.trace ops)] (st.sets i).generation := by
  induction ops using List.reverseRecOn with
  | nil => exact ⟨h, rfl⟩
  | append_singleton ops op ih =>
    obtain ⟨hinv, hgen⟩ := ih
    have hne : ((st.run ops).sets i).generation ≠ 0 := by
      rw [hgen, iterate_nextGeneration hg]
      exact Nat.succ_ne_zero _
    rw [run_snoc, trace_snoc]
    refine ⟨hinv.next op, ?_⟩
    rw [hinv.generation_next op hne, hgen, ← Function.iterate_add_apply, removals, removals,
      List.countP_append, List.countP_singleton, Nat.add_comm]
    cases removesSlot i (st.run ops, op) with
    | true => rfl
    | false => rfl

/-- A slot that was never used is empty, and stays so or holds its first set. -/
lemma Inv.generation_next_of_zero (h : st.Inv) (op : StoreOp)
    (hg : (st.sets i).generation = 0) :
    removesSlot i (st, op) = false ∧
      (((st.next op).sets i).generation = 0 ∨ ((st.next op).sets i).generation = 1) := by
  have hinactive : (st.sets i).active = false := by
    by_contra hactive
    have := (h.valid i (Bool.not_eq_false _ ▸ hactive)).generation.1
    omega
  refine ⟨by rw [h.removesSlot_eq, vacates, hinactive, Bool.false_and], ?_⟩
  by_cases hkeep : op.keepsSlots = true
  · exact Or.inl (((h.next_frames hkeep i).generation).trans hg)
  · cases op with
    | getAs key nsems flags identity allocated now =>
      rw [SemStore.next, perform]
      rcases st.getAs_cases key nsems flags identity allocated now with ⟨-, heq⟩ | ⟨j, -, heq⟩ |
        ⟨j, -, heq⟩
      · rw [heq]
        exact Or.inl hg
      · rw [heq]
        exact Or.inl hg
      · rw [heq]
        by_cases hij : i = j
        · subst hij
          exact Or.inr (by simp [freshSet, hg])
        · rw [writeSet_sets_of_ne _ hij]
          exact Or.inl hg
    | remove semid =>
      rw [SemStore.next, perform]
      rcases st.remove_cases semid with ⟨-, heq⟩ | ⟨j, hf, heq⟩
      · rw [heq]
        exact Or.inl hg
      · rw [heq]
        have hij : i ≠ j := by
          rintro rfl
          rw [active_of_findSet hf] at hinactive
          cases hinactive
        rw [writeSet_sets_of_ne _ hij]
        exact Or.inl hg
    | _ => exact absurd rfl hkeep

/-- The generation of a slot after a run from a new store: zero until its first set is created. -/
theorem generation_create_run (i : Fin semMaxSets) (ops : List StoreOp) :
    (((create.run ops).sets i).generation = 0 ∧ removals i (create.trace ops) = 0) ∨
      ((create.run ops).sets i).generation = removals i (create.trace ops) % 32767 + 1 := by
  induction ops using List.reverseRecOn with
  | nil => exact Or.inl ⟨rfl, rfl⟩
  | append_singleton ops op ih =>
    have hinv := inv_run ops
    rw [run_snoc, trace_snoc, removals, List.countP_append, List.countP_singleton, ← removals]
    by_cases hg : ((create.run ops).sets i).generation = 0
    · obtain ⟨hnot, hnext⟩ := hinv.generation_next_of_zero op hg
      have hzero : removals i (create.trace ops) = 0 := by
        rcases ih with ⟨-, hzero⟩ | hgen
        · exact hzero
        · omega
      rw [hzero, hnot]
      exact hnext.imp (fun h => ⟨h, rfl⟩) id
    · have hgen := ih.resolve_left fun h => hg h.1
      have hok : GenerationOk ((create.run ops).sets i).generation :=
        ⟨Nat.pos_of_ne_zero hg, hinv.generation_le i⟩
      refine Or.inr ?_
      rw [hinv.generation_next op hg]
      cases removesSlot i (create.run ops, op) with
      | false => simpa using hgen
      | true =>
        rw [Bool.toNat_true, Function.iterate_one, nextGeneration_eq hok, hgen, if_pos rfl]
        omega

/-! ### Ids that were handed out -/

/-- An id resolves as long as its slot is active with the generation of the id. -/
lemma findSet_makeId {g : ℕ} (hg : GenerationOk g) :
    st.findSet (makeId i g) ≠ none ↔ (st.sets i).active = true ∧ (st.sets i).generation = g := by
  constructor
  · intro hf
    obtain ⟨j, hj⟩ := Option.ne_none_iff_exists'.mp hf
    obtain ⟨ha, hg', heq⟩ := findSet_eq_some_iff.mp hj
    obtain ⟨hij, hgg⟩ := makeId_inj i.isLt j.isLt hg.2 hg'.2 heq
    have hij' : i = j := Fin.ext hij
    subst hij'
    exact ⟨ha, hgg.symm⟩
  · rintro ⟨ha, rfl⟩
    rw [← idOf, findSet_eq_some_iff.mpr ⟨ha, hg, rfl⟩]
    exact Option.some_ne_none i

/-- What `semget` returns on success is the id of an active slot. -/
lemma Inv.getAs_issues (h : st.Inv) {key nsems flags : Int32} {identity : SemIdentity}
    {allocated : Bool} {now : Int64} {g : ℕ}
    (hid : decodeId (st.getAs key nsems flags identity allocated now).1 = some (i, g)) :
    GenerationOk g ∧ (st.getAs key nsems flags identity allocated now).1 = makeId i g ∧
      ((st.getAs key nsems flags identity allocated now).2.sets i).generation = g := by
  obtain ⟨hg, heq⟩ := decodeId_eq_some_iff.mp hid
  refine ⟨hg, heq, ?_⟩
  rcases st.getAs_cases key nsems flags identity allocated now with ⟨hneg, -⟩ | ⟨j, ha, hget⟩ |
    ⟨j, hc, hget⟩
  · have hpos := makeId_pos i.isLt hg.2
    rw [← heq] at hpos
    exact absurd (Int32.lt_trans hneg hpos) (Int32.lt_irrefl)
  · rw [hget] at heq ⊢
    obtain ⟨hij, hgg⟩ := makeId_inj j.isLt i.isLt (h.generation_le j) hg.2 heq
    have hij' : j = i := Fin.ext hij
    subst hij'
    exact hgg
  · rw [hget] at heq ⊢
    have hfresh := generationOk_fresh h j key nsems flags identity now
    obtain ⟨hij, hgg⟩ := makeId_inj j.isLt i.isLt hfresh.2 hg.2 heq
    have hij' : j = i := Fin.ext hij
    subst hij'
    rw [writeSet_sets_self]
    exact hgg

/-- An id of a used slot resolves later exactly when the slot is active and the removals since
are a multiple of the period. -/
theorem Inv.resolves_run (h : st.Inv) (hg : GenerationOk (st.sets i).generation)
    (ops : List StoreOp) :
    (st.run ops).findSet (makeId i (st.sets i).generation) ≠ none ↔
      ((st.run ops).sets i).active = true ∧
        32767 ∣ removals i (st.trace ops) := by
  rw [findSet_makeId hg, (h.generation_run hg ops).2, iterate_nextGeneration_eq_self hg]

/-- A removed id stays dead through fewer than 32766 further removals of its slot. -/
theorem Inv.removed_run (h : st.Inv) (hf : st.findSet semid = some i) (later : List StoreOp)
    (hfew : removals i ((st.next (.remove semid)).trace later) < 32766) :
    ((st.next (.remove semid)).run later).findSet semid = none := by
  have hid := eq_idOf_of_findSet hf
  have hg := (h.valid_of_findSet hf).generation
  have hrun : (st.next (.remove semid)).run later = st.run (.remove semid :: later) := rfl
  have htrace : st.trace (.remove semid :: later) =
      (st, .remove semid) :: (st.next (.remove semid)).trace later := rfl
  rw [hrun]
  by_contra hne
  rw [hid, idOf] at hne
  obtain ⟨-, hdvd⟩ := (h.resolves_run hg _).mp hne
  rw [← idOf, ← hid, htrace, removals, List.countP_cons, ← removals] at hdvd
  have hone : removesSlot i (st, StoreOp.remove semid) = true := by simp [removesSlot, hf]
  rw [hone, if_pos rfl] at hdvd
  have := Nat.le_of_dvd (Nat.succ_pos _) hdvd
  omega

end SemStore

end Tgcompat
