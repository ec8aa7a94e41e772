import Tgcompat.Library.Fold
import Tgcompat.Store.Tryop

/-!
# The loops of `tryop` as arithmetic

On values within the range of a semaphore no machine operation of the evaluation loop wraps: an
operation that passes adds its amount to the value it names. The undo loop computes, for each
semaphore, minus the sum of the flagged amounts.
-/

namespace Tgcompat

variable {working working' : List ℕ} {op : SemOp} {ops : List SemOp}

lemma getD_le_maxValue (hw : ∀ v ∈ working, v ≤ semMaxValue) (n : ℕ) :
    working.getD n 0 ≤ semMaxValue := by
  rw [List.getD_eq_getElem?_getD]
  cases hv : working[n]? with
  | none => simp
  | some v => exact hw v (List.mem_of_getElem? hv)

lemma set_getD_self (l : List ℕ) (n : ℕ) : l.set n (l.getD n 0) = l := by
  apply List.ext_getElem?
  intro m
  rw [List.getElem?_set]
  by_cases hnm : n = m
  · subst hnm
    by_cases hlt : n < l.length
    · simp [hlt]
    · simp [hlt]
  · simp [hnm]

/-- The operation can be performed on a semaphore with value `v`. -/
def SemOp.Passes (op : SemOp) (v : ℤ) : Prop :=
  if op.semOp = 0 then v = 0
  else 0 ≤ v + op.semOp.toInt ∧ v + op.semOp.toInt ≤ semMaxValue

instance (op : SemOp) (v : ℤ) : Decidable (op.Passes v) := by
  unfold SemOp.Passes
  infer_instance

lemma SemOp.passes_iff {v : ℤ} : op.Passes v ↔
    (op.semOp.toInt = 0 → v = 0) ∧ 0 ≤ v + op.semOp.toInt ∧
      v + op.semOp.toInt ≤ semMaxValue := by
  have hzero : op.semOp = 0 ↔ op.semOp.toInt = 0 := by rw [← Int16.toInt_inj, Int16.toInt_zero]
  have hmax : semMaxValue = 32767 := rfl
  rw [SemOp.Passes]
  split_ifs with h
  · rw [hzero] at h
    omega
  · rw [hzero] at h
    omega

/-- How an operation that cannot be performed is answered. -/
def SemOp.refusal (op : SemOp) (v : ℤ) : Refusal :=
  if v + op.semOp.toInt > semMaxValue then refuse (-ERANGE) else blockedAt op

/-- One iteration over the integers: an operation that passes adds its amount to the value it
names. -/
lemma evaluateOp_eq (hw : ∀ v ∈ working, v ≤ semMaxValue) (op : SemOp) :
    evaluateOp working op =
      if op.Passes (working.getD op.semNum.toNat 0) then
        .ok (working.set op.semNum.toNat
          ((working.getD op.semNum.toNat 0 : ℤ) + op.semOp.toInt).toNat)
      else .error (op.refusal (working.getD op.semNum.toNat 0)) := by
  have hv := getD_le_maxValue hw op.semNum.toNat
  have hlt := Int16.toInt_lt op.semOp
  have hle := Int16.le_toInt op.semOp
  have hmax : semMaxValue = 32767 := rfl
  simp only [evaluateOp, SemOp.passes_iff, SemOp.refusal, gt_iff_lt, Int16.lt_iff_toInt_lt,
    Int16.toInt_zero]
  generalize hval : working.getD op.semNum.toNat 0 = value at *
  rcases lt_trichotomy op.semOp.toInt 0 with hneg | hz | hpos
  · rw [if_neg (not_lt.mpr hneg.le), if_pos hneg]
    by_cases hsmall : value < (-op.semOp.toInt).toNat
    · rw [if_pos hsmall, if_neg (by omega), if_neg (by omega)]
    · rw [if_neg hsmall, if_pos (by omega)]
      congr 2
      omega
  · rw [if_neg (by omega), if_neg (by omega)]
    by_cases hv0 : value = 0
    · have hsum : ((value : ℤ) + op.semOp.toInt).toNat = value := by omega
      rw [if_neg (not_not.mpr hv0), if_pos (by omega), hsum, ← hval, set_getD_self]
    · rw [if_pos hv0, if_neg (by omega), if_neg (by omega)]
  · rw [if_pos hpos]
    by_cases hbig : semMaxValue < (value + op.semOp.toInt.toNat) % 2 ^ 32
    · rw [if_pos hbig, if_neg (by omega), if_pos (by omega)]
    · rw [if_neg hbig, if_pos (by omega)]
      congr 2
      omega

/-- An operation that passes leaves a value in range. -/
lemma evaluateOp_ok (hw : ∀ v ∈ working, v ≤ semMaxValue)
    (h : evaluateOp working op = .ok working') :
    0 ≤ (working.getD op.semNum.toNat 0 : ℤ) + op.semOp.toInt ∧
      (working.getD op.semNum.toNat 0 : ℤ) + op.semOp.toInt ≤ semMaxValue ∧
      working' = working.set op.semNum.toNat
        ((working.getD op.semNum.toNat 0 : ℤ) + op.semOp.toInt).toNat := by
  rw [evaluateOp_eq hw] at h
  split_ifs at h with hpass
  simp only [Except.ok.injEq] at h
  obtain ⟨-, hlo, hhi⟩ := SemOp.passes_iff.mp hpass
  exact ⟨hlo, hhi, h.symm⟩

/-- The working copy keeps its length and stays in range. -/
theorem evaluate_ok (hw : ∀ v ∈ working, v ≤ semMaxValue)
    (h : ops.foldlM evaluateOp working = .ok working') :
    working'.length = working.length ∧ ∀ v ∈ working', v ≤ semMaxValue := by
  refine Fold.foldlM_ok (I := fun _ w => w.length = working.length ∧ ∀ v ∈ w, v ≤ semMaxValue)
    ⟨rfl, hw⟩ ?_ h
  rintro _ op w w' _ ⟨hlen, hrange⟩ hstep
  obtain ⟨-, hmax, rfl⟩ := evaluateOp_ok hrange hstep
  refine ⟨by simp [hlen], ?_⟩
  intro v hv
  rcases List.mem_or_eq_of_mem_set hv with hv | rfl
  · exact hrange v hv
  · omega

/-- A refusal of the evaluation loop is an error or asks the caller to wait. -/
lemma evaluateOp_error {r : Refusal} (h : evaluateOp working op = .error r) :
    r.result < 0 ∨ r = blockedAt op ∧ r.result = semOpBlocked := by
  have hblocked : ∀ r', (Except.error (blockedAt op) : Except Refusal (List ℕ)) = .error r' →
      r'.result < 0 ∨ r' = blockedAt op ∧ r'.result = semOpBlocked := by
    intro r' hr'
    simp only [Except.error.injEq] at hr'
    subst hr'
    by_cases hflag : op.hasFlag ipcNowait = true
    · left
      simp only [blockedAt, hflag, if_true]
      decide
    · right
      exact ⟨rfl, by simp [blockedAt, hflag]⟩
  simp only [evaluateOp] at h
  split_ifs at h
  · simp only [Except.error.injEq] at h
    subst h
    left
    simp only [refuse]
    decide
  · exact hblocked r h
  · exact hblocked r h

/-- The first operation that has to wait when the list is evaluated on the values. -/
def firstBlocked (working : List ℕ) : List SemOp → Option SemOp
  | [] => none
  | op :: operations =>
    match evaluateOp working op with
    | .ok working' => firstBlocked working' operations
    | .error r => if r.result = semOpBlocked then some op else none

/-- The loop stops at that operation and says so. -/
lemma evaluate_error {r : Refusal} (h : ops.foldlM evaluateOp working = .error r) :
    (r.result < 0 ∧ firstBlocked working ops = none) ∨
      r.result = semOpBlocked ∧ ∃ op, firstBlocked working ops = some op ∧ r = blockedAt op := by
  induction ops generalizing working with
  | nil => cases h
  | cons op ops ih =>
    rw [List.foldlM_cons] at h
    rw [firstBlocked]
    cases hstep : evaluateOp working op with
    | ok working' =>
      rw [hstep] at h
      exact ih h
    | error r' =>
      rw [hstep] at h
      cases h
      rcases evaluateOp_error hstep with hneg | ⟨heq, hblocked⟩
      · have hne : r.result ≠ semOpBlocked := by
          intro hblocked
          rw [hblocked] at hneg
          exact absurd hneg (by decide)
        exact Or.inl ⟨hneg, if_neg hne⟩
      · exact Or.inr ⟨hblocked, op, if_pos hblocked, heq⟩

/-- Only an operation that takes or waits for zero has to wait. -/
lemma firstBlocked_spec (h : firstBlocked working ops = some op) : op ∈ ops ∧ op.semOp ≤ 0 := by
  induction ops generalizing working with
  | nil => cases h
  | cons op' ops ih =>
    rw [firstBlocked] at h
    cases hstep : evaluateOp working op' with
    | ok working' =>
      rw [hstep] at h
      obtain ⟨hmem, hle⟩ := ih h
      exact ⟨List.mem_cons_of_mem _ hmem, hle⟩
    | error r =>
      rw [hstep] at h
      simp only [Option.ite_none_right_eq_some, Option.some.injEq] at h
      obtain ⟨hblocked, rfl⟩ := h
      refine ⟨List.mem_cons_self, ?_⟩
      by_contra hpos
      rw [Int16.not_le] at hpos
      simp only [evaluateOp, gt_iff_lt, if_pos hpos] at hstep
      split_ifs at hstep
      cases hstep
      exact absurd hblocked (by decide)

lemma accumulateUndo_error {deltas : ℕ → ℤ} {r : Refusal}
    (h : accumulateUndo deltas op = .error r) : r = refuse (-ERANGE) := by
  simp only [accumulateUndo] at h
  split_ifs at h
  simp only [Except.error.injEq] at h
  exact h.symm

/-- The sum of the amounts flagged `SEM_UNDO` on semaphore `s`. -/
def undoAmount (ops : List SemOp) (s : ℕ) : ℤ :=
  ((ops.filter fun op => op.hasFlag semUndo && decide (op.semNum.toNat = s)).map
    fun op => op.semOp.toInt).sum

/-- One iteration of the undo loop, on what the operations before it amount to. -/
lemma accumulateUndo_step {pre : List SemOp} {deltas : ℕ → ℤ}
    (hd : ∀ s, deltas s = -undoAmount pre s) (op : SemOp) :
    ∃ deltas', (∀ s, deltas' s = -undoAmount (pre ++ [op]) s) ∧
      accumulateUndo deltas op =
        if op.hasFlag semUndo = true → undoInRange (deltas' op.semNum.toNat) then .ok deltas'
        else .error (refuse (-ERANGE)) := by
  by_cases hflag : op.hasFlag semUndo = true
  · refine ⟨Function.update deltas op.semNum.toNat
      (deltas op.semNum.toNat - op.semOp.toInt), ?_, ?_⟩
    · intro s
      by_cases hs : s = op.semNum.toNat
      · subst hs
        simp [undoAmount, List.filter_append, hflag, hd, sub_eq_add_neg]
        ring
      · simp [Function.update_of_ne hs, hd, undoAmount, List.filter_append, Ne.symm hs]
    · simp [accumulateUndo, hflag]
  · refine ⟨deltas, ?_, ?_⟩
    · intro s
      simp [hd, undoAmount, List.filter_append, hflag]
    · simp [accumulateUndo, hflag]

/-- The undo loop computes minus the flagged amounts of the request. -/
theorem accumulate_ok {deltas : ℕ → ℤ} (h : ops.foldlM accumulateUndo (fun _ => 0) = .ok deltas)
    (s : ℕ) : deltas s = -undoAmount ops s := by
  refine Fold.foldlM_ok (I := fun pre d => ∀ s, d s = -undoAmount pre s) ?_ ?_ h s
  · simp [undoAmount]
  · intro pre op d d' _ hd hstep
    obtain ⟨deltas', hdeltas', heq⟩ := accumulateUndo_step hd op
    rw [heq] at hstep
    split_ifs at hstep
    simp only [Except.ok.injEq] at hstep
    exact hstep ▸ hdeltas'

/-- The undo loop goes through when the amounts stay in bounds along the list. -/
theorem accumulate_total
    (h : ∀ pre, pre <+: ops → ∀ s, undoInRange (-undoAmount pre s)) :
    ∃ deltas, ops.foldlM accumulateUndo (fun _ => 0) = .ok deltas ∧
      ∀ s, deltas s = -undoAmount ops s := by
  refine Fold.foldlM_total (I := fun pre (d : ℕ → ℤ) => ∀ s, d s = -undoAmount pre s) ?_ ?_
  · simp [undoAmount]
  · intro pre op post d hsplit hd
    obtain ⟨deltas', hdeltas', heq⟩ := accumulateUndo_step hd op
    refine ⟨deltas', ?_, hdeltas'⟩
    have hprefix : pre ++ [op] <+: ops := ⟨post, by simp [hsplit]⟩
    rw [heq, if_pos fun _ => hdeltas' _ ▸ h _ hprefix _]

/-- Where something is flagged, an operation with the flag names the semaphore. -/
lemma exists_flag_of_undoAmount {s : ℕ} (h : undoAmount ops s ≠ 0) :
    ∃ op ∈ ops, op.hasFlag semUndo = true ∧ op.semNum.toNat = s := by
  by_contra hnone
  have hfilter :
      (ops.filter fun op => op.hasFlag semUndo && decide (op.semNum.toNat = s)) = [] := by
    rw [List.filter_eq_nil_iff]
    intro op hop hflag
    rw [Bool.and_eq_true, decide_eq_true_eq] at hflag
    exact hnone ⟨op, hop, hflag⟩
  exact h (by simp [undoAmount, hfilter])

/-- Nothing is flagged on a semaphore no operation names. -/
lemma undoAmount_eq_zero {s : ℕ} (h : ∀ op ∈ ops, op.semNum.toNat ≠ s) : undoAmount ops s = 0 := by
  by_contra hamount
  obtain ⟨op, hop, -, hs⟩ := exists_flag_of_undoAmount hamount
  exact h op hop hs

end Tgcompat
