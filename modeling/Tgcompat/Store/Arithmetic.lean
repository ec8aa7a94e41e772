import Tgcompat.Store.Run

/-!
# `tryop` as arithmetic

What `tgc_sem_store_tryop_detail` answers, over the integers. The value a semaphore has when an
operation is reached is its value in the store plus the amounts of the operations before it that
name it. The first operation that cannot be performed on that value decides; if there is none and
the undo table has room, all amounts are added.
-/

namespace Tgcompat

variable {values working : List ℕ} {op : SemOp} {operations : List SemOp} {s k : ℕ}

/-! ### Running values -/

def SemOp.names (op : SemOp) (s : ℕ) : Bool := decide (op.semNum.toNat = s)

/-- The sum of the amounts of the operations that name `s`. -/
def amountOn (operations : List SemOp) (s : ℕ) : ℤ :=
  ((operations.filter (·.names s)).map fun op => op.semOp.toInt).sum

/-- The value of semaphore `s` after some operations. -/
def runningValue (values : List ℕ) (operations : List SemOp) (s : ℕ) : ℤ :=
  values.getD s 0 + amountOn operations s

/-- The operation at position `k` cannot be performed when it is reached. -/
structure RefusedAt (values : List ℕ) (operations : List SemOp) (k : ℕ) (op : SemOp) : Prop where
  position : operations[k]? = some op
  fails : ¬ op.Passes (runningValue values (operations.take k) op.semNum.toNat)

/-- One of the operations on semaphore `s` cannot be performed when it is reached. -/
def Constrains (values : List ℕ) (operations : List SemOp) (s : ℕ) : Prop :=
  ∃ k op, RefusedAt values operations k op ∧ op.semNum.toNat = s

lemma amountOn_append (l l' : List SemOp) (s : ℕ) :
    amountOn (l ++ l') s = amountOn l s + amountOn l' s := by
  simp [amountOn]

lemma amountOn_singleton (op : SemOp) (s : ℕ) :
    amountOn [op] s = if op.names s then op.semOp.toInt else 0 := by
  by_cases h : op.names s = true
  · simp [amountOn, h]
  · simp [amountOn, h]

lemma amountOn_filter (l : List SemOp) (s : ℕ) :
    amountOn (l.filter (·.names s)) s = amountOn l s := by
  simp [amountOn]

lemma constrains_iff : Constrains values operations s ↔
    ∃ pre op post, operations = pre ++ op :: post ∧ op.names s = true ∧
      ¬ op.Passes (runningValue values pre s) := by
  simp only [SemOp.names, decide_eq_true_eq]
  constructor
  · rintro ⟨k, op, ⟨hop, hfails⟩, rfl⟩
    obtain ⟨hk, rfl⟩ := List.getElem?_eq_some_iff.mp hop
    exact ⟨operations.take k, _, operations.drop (k + 1), by simp, rfl, hfails⟩
  · rintro ⟨pre, op, post, rfl, rfl, hfails⟩
    exact ⟨pre.length, op, ⟨by simp, by simpa using hfails⟩, rfl⟩

/-- Whether a semaphore constrains a list depends on the operations that name it. -/
lemma constrains_filter : Constrains values operations s ↔
    Constrains values (operations.filter (·.names s)) s := by
  rw [constrains_iff, constrains_iff]
  constructor
  · rintro ⟨pre, op, post, rfl, hnames, hfails⟩
    refine ⟨pre.filter (·.names s), op, post.filter (·.names s), by simp [hnames], hnames, ?_⟩
    rwa [runningValue, amountOn_filter]
  · rintro ⟨pre', op, post', hsplit, hnames, hfails⟩
    obtain ⟨pre, tail, rfl, rfl, htail⟩ := List.filter_eq_append_iff.mp hsplit
    obtain ⟨skipped, post, rfl, hskipped, -, -⟩ := List.filter_eq_cons_iff.mp htail
    refine ⟨pre ++ skipped, op, post, by simp, hnames, ?_⟩
    have hnone : amountOn skipped s = 0 := by
      rw [← amountOn_filter, List.filter_eq_nil_iff.mpr fun a ha => hskipped a ha]
      rfl
    rwa [runningValue, amountOn_append, hnone, add_zero, ← amountOn_filter]

/-! ### The evaluation loop -/

lemma SemOp.lt_of_accepted {nsems : ℕ} (h : op.accepted nsems = true) :
    op.semNum.toNat < nsems := by
  simp only [SemOp.accepted, Bool.and_eq_true, decide_eq_true_eq] at h
  exact h.1

/-- The working copy holds the running values. -/
structure Tracks (values : List ℕ) (done : List SemOp) (working : List ℕ) : Prop where
  length : working.length = values.length
  range : ∀ v ∈ working, v ≤ semMaxValue
  running : ∀ s, (working.getD s 0 : ℤ) = runningValue values done s

lemma Tracks.nil (hv : ∀ v ∈ values, v ≤ semMaxValue) : Tracks values [] values where
  length := rfl
  range := hv
  running := by simp [runningValue, amountOn]

/-- An operation that passes moves the working copy along. -/
lemma Tracks.step {done : List SemOp} (h : Tracks values done working)
    (hlt : op.semNum.toNat < values.length)
    (hpass : op.Passes (runningValue values done op.semNum.toNat)) :
    ∃ working', evaluateOp working op = .ok working' ∧ Tracks values (done ++ [op]) working' := by
  rw [← h.running] at hpass
  refine ⟨_, by rw [evaluateOp_eq h.range, if_pos hpass], ?_⟩
  obtain ⟨-, hlo, hhi⟩ := SemOp.passes_iff.mp hpass
  refine ⟨by simp [h.length], ?_, ?_⟩
  · intro v hv
    rcases List.mem_or_eq_of_mem_set hv with hv | rfl
    · exact h.range v hv
    · omega
  · intro s
    rw [runningValue, amountOn_append, ← add_assoc, ← runningValue, ← h.running,
      amountOn_singleton, SemOp.names]
    by_cases hs : op.semNum.toNat = s
    · subst hs
      rw [← h.length] at hlt
      simp [List.getD_eq_getElem?_getD, hlt] at hlo ⊢
      omega
    · simp [List.getD_eq_getElem?_getD, hs]

/-- A loop that reaches its end leaves the running values. -/
lemma evaluate_tracks (hv : ∀ v ∈ values, v ≤ semMaxValue)
    (hlt : ∀ op ∈ operations, op.semNum.toNat < values.length)
    (h : operations.foldlM evaluateOp values = .ok working) : Tracks values operations working := by
  refine Fold.foldlM_ok (I := fun done working => Tracks values done working) (.nil hv) ?_ h
  intro done op before after hop htracks heval
  have hpass : op.Passes (runningValue values done op.semNum.toNat) := by
    by_contra hfails
    rw [← htracks.running] at hfails
    rw [evaluateOp_eq htracks.range, if_neg hfails] at heval
    cases heval
  obtain ⟨working', heq, hnext⟩ := htracks.step (hlt op hop) hpass
  cases heq.symm.trans heval
  exact hnext

/-- The values are the old ones when the amounts on each semaphore add up to nothing. -/
lemma Tracks.eq_iff (h : Tracks values operations working) :
    working = values ↔ ∀ s, amountOn operations s = 0 := by
  constructor
  · rintro rfl s
    have hs := h.running s
    rw [runningValue] at hs
    omega
  · intro hzero
    refine List.ext_getElem h.length fun s hs hs' => ?_
    have hrunning := h.running s
    rw [runningValue, hzero, add_zero] at hrunning
    simpa [List.getD_eq_getElem?_getD, hs, hs'] using hrunning

/-- The loop over operations that all pass. -/
lemma evaluate_passing (hv : ∀ v ∈ values, v ≤ semMaxValue)
    (hlt : ∀ op ∈ operations, op.semNum.toNat < values.length)
    (hpass : ∀ k op, ¬ RefusedAt values operations k op) :
    ∃ working, operations.foldlM evaluateOp values = .ok working ∧
      Tracks values operations working := by
  refine Fold.foldlM_total (I := Tracks values) (Tracks.nil hv) ?_
  rintro pre op post working rfl h
  apply h.step (hlt op (by simp))
  by_contra hfails
  exact hpass pre.length op ⟨by simp, by simpa using hfails⟩

/-- The loop stops at the first operation that does not pass. -/
lemma evaluate_refused (hv : ∀ v ∈ values, v ≤ semMaxValue)
    (hlt : ∀ op ∈ operations, op.semNum.toNat < values.length)
    (h : RefusedAt values operations k op)
    (hfirst : ∀ j < k, ∀ op', ¬ RefusedAt values operations j op') :
    operations.foldlM evaluateOp values =
      .error (op.refusal (runningValue values (operations.take k) op.semNum.toNat)) := by
  obtain ⟨hk, rfl⟩ := List.getElem?_eq_some_iff.mp h.position
  have hpass : ∀ j op', ¬ RefusedAt values (operations.take k) j op' := by
    rintro j op' ⟨hop, hfails⟩
    have hj : j < k := by
      have := (List.getElem?_eq_some_iff.mp hop).1
      rw [List.length_take] at this
      omega
    refine hfirst j hj op' ⟨?_, ?_⟩
    · rwa [List.getElem?_take_of_lt hj] at hop
    · rwa [List.take_take, min_eq_left hj.le] at hfails
  obtain ⟨working, hworking, htracks⟩ := evaluate_passing hv
    (fun op hop => hlt op (List.mem_of_mem_take hop)) hpass
  have hsplit : operations = operations.take k ++ operations[k] :: operations.drop (k + 1) := by
    simp
  have hfails := h.fails
  rw [← htracks.running] at hfails ⊢
  conv_lhs => rw [hsplit]
  rw [List.foldlM_append, hworking]
  simp only [bind, Except.bind, List.foldlM_cons]
  rw [evaluateOp_eq htracks.range, if_neg hfails]

/-! ### The undo limits -/

/-- The undo table takes the request: the adjustments stay in range while the request is added up
and when it is added to what the process has on record, and new ones find a free entry. -/
structure UndoFits (st : SemStore) (semid : Int32) (operations : List SemOp) (pid : Int32)
    (nsems : ℕ) : Prop where
  request : ∀ pre, pre <+: operations → ∀ s, undoInRange (-undoAmount pre s)
  total : ∀ s < nsems, undoAmount operations s ≠ 0 →
    undoInRange (-undoAmount operations s + st.undoEntries.adjustmentOf pid semid s)
  capacity : (List.range nsems).countP (fun s => decide (undoAmount operations s ≠ 0) &&
      decide (st.undoEntries.adjustmentOf pid semid s = 0)) ≤ st.undoEntries.freeEntries

namespace SemStore

variable {st : SemStore} {semid pid : Int32} {i : Fin semMaxSets}

/-- The validation in front of the evaluation. -/
lemma not_rejected {nsems : ℕ} (hne : operations ≠ [])
    (hacc : ∀ op ∈ operations, op.accepted nsems = true) :
    ¬ (operations = [] ∨ operations.all (·.accepted nsems) = false) := by
  simp only [not_or, Bool.not_eq_false, List.all_eq_true]
  exact ⟨hne, hacc⟩

/-- A request that the evaluation refuses is answered with that refusal. -/
lemma tryopDetail_refused (hfound : st.findSet semid = some i) (hne : operations ≠ [])
    (hacc : ∀ op ∈ operations, op.accepted (st.sets i).nsems = true) {r : Refusal}
    (heval : operations.foldlM evaluateOp (st.sets i).values = .error r) (now : Int64) :
    st.tryopDetail semid operations pid now = (r.result, r.reason, st) := by
  have hchecked := not_rejected hne hacc
  have hplan : st.planTryop semid operations pid = .error r := by
    simp only [planTryop, hfound, if_neg hchecked, heval, bind, Except.bind]
  simp only [tryopDetail, hplan]

/-- The capacity check counts the semaphores with a flagged amount and no entry. -/
lemma Inv.countP_needsEntry (h : st.Inv) {deltas : ℕ → ℤ}
    (hdeltas : ∀ s, deltas s = -undoAmount operations s) (l : List ℕ) :
    l.countP (st.undoEntries.needsEntry pid semid deltas) =
      l.countP fun s => decide (undoAmount operations s ≠ 0) &&
        decide (st.undoEntries.adjustmentOf pid semid s = 0) := by
  refine List.countP_congr fun s _ => ?_
  simp only [h.undo.needsEntry_eq, hdeltas, ne_eq, neg_eq_zero]

/-- A request that passes everywhere and fits into the undo table is carried out. -/
lemma Inv.planned (h : st.Inv) (hfound : st.findSet semid = some i) (hne : operations ≠ [])
    (hacc : ∀ op ∈ operations, op.accepted (st.sets i).nsems = true)
    (heval : operations.foldlM evaluateOp (st.sets i).values = .ok working)
    (hfits : UndoFits st semid operations pid (st.sets i).nsems) :
    ∃ plan, st.Planned semid operations pid plan ∧ plan.index = i ∧ plan.working = working := by
  have hvalid := h.valid_of_findSet hfound
  obtain ⟨deltas, haccumulated, hdeltas⟩ := accumulate_total hfits.request
  refine ⟨⟨i, working, deltas⟩, ⟨hfound, hne, hacc, heval, haccumulated, ?_⟩, rfl, rfl⟩
  have hlt := UndoTable.lt_of_mem_range_nsems hvalid.nsems_le
  have htotal : ∀ s ∈ List.range (st.sets i).nsems, deltas s ≠ 0 →
      undoInRange (deltas s + st.undoEntries.adjustmentOf pid semid s) := by
    intro s hs hz
    rw [hdeltas] at hz ⊢
    exact hfits.total s (List.mem_range.mp hs) (neg_ne_zero.mp hz)
  refine ⟨_, UndoTable.reserve_total hlt htotal, ?_⟩
  rw [h.countP_needsEntry hdeltas]
  exact hfits.capacity

/-- The last pids of a commit: those of the named semaphores change. -/
lemma getD_foldl_set (operations : List SemOp) (pids : List Int32) (hs : s < pids.length) :
    (operations.foldl (fun pids op => pids.set op.semNum.toNat pid) pids).getD s 0 =
      if operations.any (·.names s) then pid else pids.getD s 0 := by
  induction operations generalizing pids with
  | nil => simp
  | cons op operations ih =>
    rw [List.foldl_cons, ih _ (by simpa using hs), List.any_cons]
    by_cases hrest : operations.any (·.names s) = true
    · simp [hrest]
    · by_cases hop : op.semNum.toNat = s
      · simp [SemOp.names, hop, List.getD_eq_getElem?_getD, hs]
      · simp [SemOp.names, hop, List.getD_eq_getElem?_getD]

/-- `tryop` on a reachable store, for operations that pass the validation. -/
theorem tryop_arithmetic (calls : List StoreOp) {semid : Int32} {i : Fin semMaxSets}
    (hfound : (create.run calls).findSet semid = some i) {operations : List SemOp}
    (hne : operations ≠ [])
    (hacc : ∀ op ∈ operations, op.accepted ((create.run calls).sets i).nsems = true)
    (pid : Int32) (now : Int64) :
    let st := create.run calls
    let set := st.sets i
    (∀ k op, RefusedAt set.values operations k op →
      (∀ j < k, ∀ op', ¬ RefusedAt set.values operations j op') →
      st.tryopDetail semid operations pid now =
        if runningValue set.values (operations.take k) op.semNum.toNat + op.semOp.toInt >
            semMaxValue then
          (-ERANGE, none, st)
        else
          (if op.hasFlag ipcNowait then -EAGAIN else semOpBlocked,
            some ⟨op.semNum, if op.semOp = 0 then 1 else 0⟩, st)) ∧
    ((∀ k op, ¬ RefusedAt set.values operations k op) →
      UndoFits st semid operations pid set.nsems →
      ∃ st', st.tryopDetail semid operations pid now = (0, none, st') ∧
        ∀ s < set.nsems,
          ((st'.sets i).values.getD s 0 : ℤ) = set.values.getD s 0 + amountOn operations s ∧
          (st'.sets i).lastPids.getD s 0 =
            if operations.any (·.names s) then pid else set.lastPids.getD s 0) ∧
    ∀ s, Constrains set.values operations s ↔
      Constrains set.values (operations.filter (·.names s)) s := by
  intro st set
  have hinv : st.Inv := inv_run calls
  have hvalid : set.Valid := hinv.valid_of_findSet hfound
  have hlt : ∀ op ∈ operations, op.semNum.toNat < set.values.length := by
    intro op hop
    rw [hvalid.values_length]
    exact SemOp.lt_of_accepted (hacc op hop)
  refine ⟨?_, ?_, fun s => constrains_filter⟩
  · intro k op hrefused hfirst
    have heval := evaluate_refused hvalid.values_le hlt hrefused hfirst
    rw [tryopDetail_refused hfound hne hacc heval, SemOp.refusal]
    by_cases hrange : runningValue set.values (operations.take k) op.semNum.toNat +
        op.semOp.toInt > semMaxValue
    · rw [if_pos hrange, if_pos hrange]
      rfl
    · rw [if_neg hrange, if_neg hrange]
      rfl
  · intro hpass hfits
    obtain ⟨working, heval, htracks⟩ := evaluate_passing hvalid.values_le hlt hpass
    obtain ⟨plan, hplan, rfl, rfl⟩ := hinv.planned hfound hne hacc heval hfits
    obtain ⟨t, -, -, -, hcommit⟩ := hinv.commit hplan now
    refine ⟨_, hcommit, ?_⟩
    intro s hs
    have hset : (st.committedStore operations pid now plan t).sets plan.index =
        { committedSet set plan operations pid with otime := now } := by
      simp [committedStore, set]
    rw [hset]
    refine ⟨htracks.running s, ?_⟩
    exact getD_foldl_set operations set.lastPids (by rwa [hvalid.lastPids_length])

/-- A set of two semaphores in the first slot. -/
def pairCreated : List StoreOp := [.getAs 5 2 ipcCreat ⟨1000, 1000⟩ true 0]

/-- Both semaphores are zero, so the second operation of the list has to wait. -/
theorem tryop_arithmetic_blocked :
    (create.run pairCreated).tryopDetail 65537 [⟨0, 3, 0⟩, ⟨1, -1, 0⟩] 42 0 =
      (semOpBlocked, some ⟨1, 0⟩, create.run pairCreated) := by
  have hfound : (create.run pairCreated).findSet 65537 = some ⟨0, by decide⟩ := by decide +kernel
  have hset : ((create.run pairCreated).sets ⟨0, by decide⟩).values = [0, 0] := by
    decide +kernel
  have hacc : ∀ op ∈ ([⟨0, 3, 0⟩, ⟨1, -1, 0⟩] : List SemOp),
      op.accepted ((create.run pairCreated).sets ⟨0, by decide⟩).nsems = true := by
    decide +kernel
  refine (tryop_arithmetic _ hfound (by simp) hacc 42 0).1 1 ⟨1, -1, 0⟩ ⟨rfl, ?_⟩ ?_
  · rw [hset]
    decide
  · rintro j hj op' ⟨hop, hfails⟩
    obtain rfl : j = 0 := by omega
    simp only [List.getElem?_cons_zero, Option.some.injEq] at hop
    subst hop
    rw [hset] at hfails
    exact hfails (by decide)

end SemStore

end Tgcompat
