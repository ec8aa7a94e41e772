import Tgcompat.Store.Run

/-!
# The results of the store

Every function of the store returns a non-negative result or one of eight errors.
-/

namespace Tgcompat

namespace SemStore

/-- The errors `sem_store.c` returns. -/
def errors : List Int32 :=
  [-EPERM, -ENOENT, -EAGAIN, -ENOMEM, -EEXIST, -EINVAL, -ENOSPC, -ERANGE]

def ResultOk (result : Int32) : Prop := 0 ≤ result ∨ result ∈ errors

lemma resultOk_error {e : Int32} (h : e ∈ errors) : ResultOk e := Or.inr h

lemma resultOk_zero : ResultOk 0 := Or.inl (Int32.le_refl 0)

/-- A result is not one of the errors of the protocol. -/
lemma ResultOk.ne {result e : Int32} (h : ResultOk result) (hneg : e < 0) (he : e ∉ errors) :
    result ≠ e := by
  rintro rfl
  rcases h with hnonneg | hmem
  · exact Int32.not_lt.mpr hnonneg hneg
  · exact he hmem

lemma ofNat_nonneg {n : ℕ} (h : n ≤ 2147483647) : 0 ≤ Int32.ofNat n := by
  rw [Int32.le_iff_toInt_le, Int32.toInt_ofNat_of_lt (by omega)]
  simp

variable {st : SemStore}

lemma createSet_result (h : st.Inv) (key nsems flags : Int32) (identity : SemIdentity)
    (allocated : Bool) (now : Int64) :
    ResultOk (st.createSet key nsems flags identity allocated now).1 := by
  unfold createSet
  by_cases hn : nsems ≤ 0 ∨ nsems.toInt > semMaxPerSet
  · rw [if_pos hn]
    exact resultOk_error (e := -EINVAL) (by decide)
  · rw [if_neg hn]
    cases hf : Table.firstIndex fun i => !(st.sets i).active with
    | none => exact resultOk_error (e := -ENOSPC) (by decide)
    | some i =>
      cases allocated with
      | false => exact resultOk_error (e := -ENOMEM) (by decide)
      | true =>
        left
        apply Int32.le_of_lt
        apply makeId_pos i.isLt
        have hle := h.generation_le i
        simp only [freshSet]
        split_ifs
        · decide
        · exact hle

lemma getAs_result (h : st.Inv) (key nsems flags : Int32) (identity : SemIdentity)
    (allocated : Bool) (now : Int64) :
    ResultOk (st.getAs key nsems flags identity allocated now).1 := by
  unfold getAs
  by_cases hkey : key ≠ ipcPrivate
  · rw [if_pos hkey]
    cases st.findKey key with
    | some i =>
      dsimp only
      split_ifs
      · exact resultOk_error (e := -EEXIST) (by decide)
      · exact resultOk_error (e := -EINVAL) (by decide)
      · exact Or.inl (Int32.le_of_lt (makeId_pos i.isLt (h.generation_le i)))
    | none =>
      dsimp only
      split_ifs
      · exact resultOk_error (e := -ENOENT) (by decide)
      · exact createSet_result h key nsems flags identity allocated now
  · rw [if_neg hkey]
    exact createSet_result h key nsems flags identity allocated now

lemma remove_result (st : SemStore) (semid : Int32) : ResultOk (st.remove semid).1 := by
  unfold remove
  cases st.findSet semid with
  | none => exact resultOk_error (e := -EINVAL) (by decide)
  | some i => exact resultOk_zero

lemma readSem_result {semid : Int32} {semnum : ℕ} {read : SemSet → Int32}
    (h : ∀ i, st.findSet semid = some i → ResultOk (read (st.sets i))) :
    ResultOk (st.readSem semid semnum read) := by
  unfold readSem
  cases hf : st.findSet semid with
  | none => exact resultOk_error (e := -EINVAL) (by decide)
  | some i =>
    dsimp only
    split_ifs
    · exact resultOk_error (e := -EINVAL) (by decide)
    · exact h i hf

lemma getval_result (h : st.Inv) (semid : Int32) (semnum : ℕ) :
    ResultOk (st.getval semid semnum) := by
  apply readSem_result
  intro i hf
  left
  apply ofNat_nonneg
  exact le_trans (getD_le_maxValue (h.valid_of_findSet hf).values_le semnum) (by decide)

lemma getpid_result (h : ∀ i, ∀ pid ∈ (st.sets i).lastPids, 0 ≤ pid) (semid : Int32)
    (semnum : ℕ) : ResultOk (st.getpid semid semnum) := by
  apply readSem_result
  intro i _
  left
  rw [List.getD_eq_getElem?_getD]
  cases hp : (st.sets i).lastPids[semnum]? with
  | none => exact Int32.le_refl 0
  | some pid => exact h i pid (List.mem_of_getElem? hp)

lemma getWaitCount_result (st : SemStore) (semid : Int32) (semnum : ℕ) (waitForZero : Bool) :
    ResultOk (st.getWaitCount semid semnum waitForZero) := by
  apply readSem_result
  intro i _
  left
  dsimp only
  split_ifs with hlarge
  · decide
  · exact ofNat_nonneg (not_lt.mp hlarge)

lemma setval_result (st : SemStore) (semid : Int32) (semnum : ℕ) (value : UInt32) (pid : Int32)
    (now : Int64) : ResultOk (st.setval semid semnum value pid now).1 := by
  unfold setval
  cases st.findSet semid with
  | none => exact resultOk_error (e := -EINVAL) (by decide)
  | some i =>
    dsimp only
    split_ifs
    · exact resultOk_error (e := -EINVAL) (by decide)
    · exact resultOk_error (e := -ERANGE) (by decide)
    · exact resultOk_zero

lemma setall_result (st : SemStore) (semid : Int32) (values : List UInt16) (pid : Int32)
    (now : Int64) : ResultOk (st.setall semid values pid now).1 := by
  unfold setall
  cases st.findSet semid with
  | none => exact resultOk_error (e := -EINVAL) (by decide)
  | some i =>
    dsimp only
    split_ifs
    · exact resultOk_error (e := -EINVAL) (by decide)
    · exact resultOk_error (e := -ERANGE) (by decide)
    · exact resultOk_zero

lemma setMetadata_result (st : SemStore) (semid : Int32) (uid gid mode : UInt32)
    (actor : SemIdentity) (now : Int64) :
    ResultOk (st.setMetadata semid uid gid mode actor now).1 := by
  unfold setMetadata
  cases st.findSet semid with
  | none => exact resultOk_error (e := -EINVAL) (by decide)
  | some i =>
    dsimp only
    split_ifs
    · exact resultOk_error (e := -EPERM) (by decide)
    · exact resultOk_error (e := -EPERM) (by decide)
    · exact resultOk_zero

lemma refusal_result {operations : List SemOp} {working : List ℕ} {r : Refusal}
    (h : operations.foldlM evaluateOp working = .error r) : ResultOk r.result := by
  obtain ⟨op, -, w, hstep⟩ := Fold.foldlM_error h
  have hblocked : ResultOk (blockedAt op).result := by
    simp only [blockedAt]
    split_ifs
    · exact resultOk_error (e := -EAGAIN) (by decide)
    · exact Or.inl (by decide)
  simp only [evaluateOp] at hstep
  split_ifs at hstep
  · cases hstep
    exact resultOk_error (e := -ERANGE) (by decide)
  · cases hstep
    exact hblocked
  · cases hstep
    exact hblocked

lemma tryopDetail_result (h : st.Inv) (semid : Int32) (operations : List SemOp) (pid : Int32)
    (now : Int64) : ResultOk (st.tryopDetail semid operations pid now).1 := by
  rcases h.tryopDetail_cases semid operations pid now with ⟨r, hplan, heq⟩ | ⟨plan, t, -, -, -, heq⟩
  · rw [heq]
    rw [planTryop] at hplan
    cases hf : st.findSet semid with
    | none =>
      simp only [hf, Except.error.injEq] at hplan
      exact hplan ▸ resultOk_error (e := -EINVAL) (by decide)
    | some i =>
      simp only [hf] at hplan
      split_ifs at hplan
      · cases hplan
        exact resultOk_error (e := -EINVAL) (by decide)
      · rcases Fold.bind_eq_error.mp hplan with heval | ⟨working, -, hplan⟩
        · exact refusal_result heval
        · rcases Fold.bind_eq_error.mp hplan with hundo | ⟨deltas, -, hplan⟩
          · obtain ⟨op, -, d, hstep⟩ := Fold.foldlM_error hundo
            exact accumulateUndo_error hstep ▸ resultOk_error (e := -ERANGE) (by decide)
          · rcases Fold.bind_eq_error.mp hplan with hreserve | ⟨required, -, hplan⟩
            · obtain ⟨s, -, required, hstep⟩ := Fold.foldlM_error hreserve
              exact UndoTable.reserveUndo_error hstep ▸ resultOk_error (e := -ERANGE) (by decide)
            · split_ifs at hplan
              cases hplan
              exact resultOk_error (e := -ENOSPC) (by decide)
  · rw [heq]
    exact resultOk_zero

end SemStore

end Tgcompat
