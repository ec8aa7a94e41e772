import Mathlib.Data.List.DropRight
import Tgcompat.Store.Frame

/-!
# The undo ledger over a run

What the undo table holds for a process and a semaphore is determined by the calls made so far:
it is minus the sum of the amounts the process flagged `SEM_UNDO`, counted from the last call
that closed the account. The account of `(pid, semid, s)` is closed by the creation of the set,
by a successful `SETVAL` on `s`, by a successful `SETALL`, and by a process exit of `pid` that
the store accepts.
-/

namespace Tgcompat

namespace SemStore

variable {st : SemStore} {semid pid : Int32} {i : Fin semMaxSets} {s : ℕ}

/-- The step is a call of process exit for `pid`, whatever it returns. -/
def callsExit (pid : Int32) : SemStore × StoreOp → Bool
  | (_, .processExit p _) => decide (p = pid)
  | _ => false

/-- The step closes the account of `(pid, semid, s)`. A creation is a `semget` that returns an id
which did not resolve before. -/
def closesAccount (pid semid : Int32) (s : ℕ) (step : SemStore × StoreOp) : Bool :=
  let result := (step.1.perform step.2).1
  match step.2 with
  | .getAs .. => decide (step.1.findSet semid = none ∧ result = semid)
  | .setval id n _ _ _ => decide (id = semid ∧ n = s ∧ result = 0)
  | .setall id _ _ _ => decide (id = semid ∧ result = 0)
  | .processExit _ _ => callsExit pid step && decide (0 ≤ result)
  | _ => false

/-- What the step charges to the account: the flagged amounts of a successful `tryop`. -/
def charge (pid semid : Int32) (s : ℕ) (step : SemStore × StoreOp) : ℤ :=
  match step.2 with
  | .tryopDetail id operations p _ =>
    if id = semid ∧ p = pid ∧ (step.1.perform step.2).1 = 0 then undoAmount operations s else 0
  | _ => 0

/-- The sum of the charges since the last step that satisfies `closes`. -/
def charged (closes : SemStore × StoreOp → Bool) (pid semid : Int32) (s : ℕ)
    (steps : List (SemStore × StoreOp)) : ℤ :=
  ((steps.rtakeWhile fun step => !closes step).map (charge pid semid s)).sum

lemma charged_snoc (closes : SemStore × StoreOp → Bool) (steps : List (SemStore × StoreOp))
    (step : SemStore × StoreOp) :
    charged closes pid semid s (steps ++ [step]) =
      if closes step then 0 else charged closes pid semid s steps + charge pid semid s step := by
  rw [charged, List.rtakeWhile_concat]
  cases closes step with
  | true => simp
  | false => simp [charged]

/-! ### One step -/

/-- How one step moves the ledger: it closes the account, or adds its charge to it. -/
def Moves (pid semid : Int32) (s : ℕ) (st : SemStore) (op : StoreOp) : Prop :=
  (closesAccount pid semid s (st, op) = true ∧
    (st.next op).undoEntries.adjustmentOf pid semid s = 0) ∨
  (closesAccount pid semid s (st, op) = false ∧ st.findSet semid ≠ none ∧
    (st.next op).undoEntries.adjustmentOf pid semid s =
      st.undoEntries.adjustmentOf pid semid s - charge pid semid s (st, op))

/-- A step that neither closes the account nor charges it. -/
lemma moves_of_same {op : StoreOp} (hclose : closesAccount pid semid s (st, op) = false)
    (hcharge : charge pid semid s (st, op) = 0) (hf : st.findSet semid ≠ none)
    (hadj : (st.next op).undoEntries.adjustmentOf pid semid s =
      st.undoEntries.adjustmentOf pid semid s) : Moves pid semid s st op := by
  refine Or.inr ⟨hclose, hf, ?_⟩
  rw [hadj, hcharge, sub_zero]

lemma findSet_freshId (hfree : (st.sets i).active = false) {g : ℕ} (hg : GenerationOk g) :
    st.findSet (makeId i g) = none := by
  cases hf : st.findSet (makeId i g) with
  | none => rfl
  | some j =>
    obtain ⟨ha, hg', heq⟩ := findSet_eq_some_iff.mp hf
    have hij : i = j := Fin.ext (makeId_inj i.isLt j.isLt hg.2 hg'.2 heq).1
    rw [← hij, hfree] at ha
    cases ha

lemma moves_getAs (h : st.Inv) {key nsems flags : Int32} {identity : SemIdentity}
    {allocated : Bool} {now : Int64}
    (hf : (st.next (.getAs key nsems flags identity allocated now)).findSet semid ≠ none) :
    Moves pid semid s st (.getAs key nsems flags identity allocated now) := by
  rcases st.getAs_cases key nsems flags identity allocated now with ⟨-, heq⟩ | ⟨i, -, heq⟩ |
    ⟨i, hc, heq⟩
  · rw [SemStore.next, perform, heq] at hf
    exact moves_of_same (by simp [closesAccount, hf]) rfl hf (by rw [SemStore.next, perform, heq])
  · rw [SemStore.next, perform, heq] at hf
    exact moves_of_same (by simp [closesAccount, hf]) rfl hf (by rw [SemStore.next, perform, heq])
  · have hg := generationOk_fresh h i key nsems flags identity now
    have hundo : (st.next (.getAs key nsems flags identity allocated now)).undoEntries =
        st.undoEntries := by rw [SemStore.next, perform, heq]; rfl
    by_cases hid : semid = makeId i (freshSet (st.sets i) key nsems flags identity now).generation
    · have hnone : st.findSet semid = none := hid ▸ findSet_freshId hc.free hg
      refine Or.inl ⟨?_, ?_⟩
      · simp only [closesAccount, perform, heq, decide_eq_true_eq]
        exact ⟨hnone, hid.symm⟩
      · rw [hundo]
        exact h.ledger_eq_zero hnone pid s
    · have hresolved : st.findSet semid ≠ none := by
        rw [SemStore.next, perform, heq] at hf
        obtain ⟨j, hj⟩ := Option.ne_none_iff_exists'.mp hf
        have hji : j ≠ i := by
          rintro rfl
          have hsemid := eq_idOf_of_findSet hj
          rw [idOf, writeSet_sets_self] at hsemid
          exact hid hsemid
        rw [(findSet_writeSet_of_ne hji).mp hj]
        exact Option.some_ne_none j
      refine moves_of_same ?_ rfl hresolved (by rw [hundo])
      simp [closesAccount, hresolved]

/-- What resolves after a removal resolved before, and is not the removed id. -/
lemma findSet_of_removed (hf : st.findSet semid = some i) {id : Int32}
    (hid : (st.writeSet i (removedSet (st.sets i))).findSet id ≠ none) :
    id ≠ semid ∧ st.findSet id ≠ none := by
  obtain ⟨j, hj⟩ := Option.ne_none_iff_exists'.mp hid
  have hji : j ≠ i := by
    rintro rfl
    have hactive := active_of_findSet hj
    rw [writeSet_sets_self] at hactive
    cases hactive
  have hj' := (findSet_writeSet_of_ne hji).mp hj
  refine ⟨?_, by rw [hj']; exact Option.some_ne_none j⟩
  rintro rfl
  exact hji (Option.some_injective _ (hj'.symm.trans hf))

lemma moves_remove (h : st.Inv) {id : Int32} (hf : (st.next (.remove id)).findSet semid ≠ none) :
    Moves pid semid s st (.remove id) := by
  rcases st.remove_cases id with ⟨-, heq⟩ | ⟨i, hi, heq⟩
  · rw [SemStore.next, perform, heq] at hf
    exact moves_of_same rfl rfl hf (by rw [SemStore.next, perform, heq])
  · rw [SemStore.next, perform, heq] at hf
    obtain ⟨hne, hresolved⟩ := findSet_of_removed hi hf
    refine moves_of_same rfl rfl hresolved ?_
    rw [SemStore.next, perform, heq]
    simp only
    rw [h.undo.adjustmentOf_clear, if_neg (fun hc => hne hc.1)]

lemma moves_setval (h : st.Inv) {id : Int32} {n : ℕ} {value : UInt32} {p : Int32} {now : Int64}
    (hf : st.findSet semid ≠ none) : Moves pid semid s st (.setval id n value p now) := by
  rcases st.setval_cases id n value p now with ⟨hneg, heq⟩ | ⟨i, -, -, -, heq⟩
  · refine moves_of_same ?_ rfl hf (by rw [SemStore.next, perform, heq])
    have : (st.setval id n value p now).1 ≠ 0 := Int32.ne_of_lt hneg
    simp [closesAccount, perform, this]
  · have hadj : (st.next (.setval id n value p now)).undoEntries.adjustmentOf pid semid s =
        if semid = id ∧ (false = true ∨ s = n) then 0
        else st.undoEntries.adjustmentOf pid semid s := by
      rw [SemStore.next, perform, heq]
      exact h.undo.adjustmentOf_clear false
    by_cases hkey : semid = id ∧ s = n
    · refine Or.inl ⟨?_, ?_⟩
      · simp [closesAccount, perform, heq, hkey]
      · rw [hadj, if_pos ⟨hkey.1, Or.inr hkey.2⟩]
    · refine moves_of_same ?_ rfl hf ?_
      · simp only [closesAccount, decide_eq_false_iff_not]
        rintro ⟨rfl, rfl, -⟩
        exact hkey ⟨rfl, rfl⟩
      · rw [hadj, if_neg]
        rintro ⟨hid, hs⟩
        exact hkey ⟨hid, hs.resolve_left (by decide)⟩

lemma moves_setall (h : st.Inv) {id : Int32} {values : List UInt16} {p : Int32} {now : Int64}
    (hf : st.findSet semid ≠ none) : Moves pid semid s st (.setall id values p now) := by
  rcases st.setall_cases id values p now with ⟨hneg, heq⟩ | ⟨i, -, -, -, heq⟩
  · refine moves_of_same ?_ rfl hf (by rw [SemStore.next, perform, heq])
    have : (st.setall id values p now).1 ≠ 0 := Int32.ne_of_lt hneg
    simp [closesAccount, perform, this]
  · have hadj : (st.next (.setall id values p now)).undoEntries.adjustmentOf pid semid s =
        if semid = id ∧ (true = true ∨ s = 0) then 0
        else st.undoEntries.adjustmentOf pid semid s := by
      rw [SemStore.next, perform, heq]
      exact h.undo.adjustmentOf_clear true
    by_cases hid : semid = id
    · refine Or.inl ⟨?_, ?_⟩
      · simp [closesAccount, perform, heq, hid]
      · rw [hadj, if_pos ⟨hid, Or.inl rfl⟩]
    · refine moves_of_same ?_ rfl hf ?_
      · simp only [closesAccount, decide_eq_false_iff_not]
        exact fun hc => hid hc.1.symm
      · rw [hadj, if_neg fun hc => hid hc.1]

/-- Nothing is flagged outside the set a planned request addresses. -/
lemma Planned.undoAmount_eq_zero {operations : List SemOp} {plan : TryopPlan}
    (hplan : st.Planned semid operations pid plan) (hs : (st.sets plan.index).nsems ≤ s) :
    undoAmount operations s = 0 := by
  apply Tgcompat.undoAmount_eq_zero
  rintro op hop rfl
  have hacc := hplan.accepted op hop
  simp only [SemOp.accepted, Bool.and_eq_true, decide_eq_true_eq] at hacc
  exact absurd hacc.1 (not_lt.mpr hs)

lemma moves_tryop (h : st.Inv) {id : Int32} {operations : List SemOp} {p : Int32} {now : Int64}
    (hf : st.findSet semid ≠ none) : Moves pid semid s st (.tryopDetail id operations p now) := by
  rcases h.tryopDetail_cases id operations p now with ⟨r, hp, hstore⟩ |
    ⟨plan, t, hplan, -, hadded, hstore⟩
  · refine moves_of_same rfl ?_ hf (by rw [SemStore.next, perform, hstore])
    have hne : r.result ≠ 0 := planTryop_error_ne_zero hp
    simp [charge, perform, hstore, hne]
  · refine Or.inr ⟨rfl, hf, ?_⟩
    have hadj : (st.next (.tryopDetail id operations p now)).undoEntries = t := by
      rw [SemStore.next, perform, hstore]
      rfl
    rw [hadj, hadded, sub_eq_add_neg]
    congr 1
    simp only [charge, perform, hstore, and_true]
    by_cases hkey : id = semid ∧ p = pid
    · obtain ⟨rfl, rfl⟩ := hkey
      simp only [true_and, and_self, if_true, List.mem_range]
      split_ifs with hs
      · exact accumulate_ok hplan.accumulated s
      · rw [hplan.undoAmount_eq_zero (not_lt.mp hs), neg_zero]
    · rw [if_neg hkey, if_neg, neg_zero]
      rintro ⟨rfl, rfl, -⟩
      exact hkey ⟨rfl, rfl⟩

lemma moves_processExit (h : st.Inv) {p : Int32} {now : Fin semMaxUndoEntries → Int64}
    (hf : st.findSet semid ≠ none) : Moves pid semid s st (.processExit p now) := by
  by_cases hpos : 0 < p
  · have hadj := processExit_ledger h hpos now pid semid s
    have hresult : 0 ≤ (st.processExit p now).1 := by
      rcases processExit_result st hpos now with h0 | h1
      · rw [h0]
        decide
      · rw [h1]
        decide
    by_cases hkey : pid = p
    · refine Or.inl ⟨?_, ?_⟩
      · simp [closesAccount, callsExit, perform, hresult, hkey]
      · rw [SemStore.next, perform, hadj, if_pos hkey]
    · refine moves_of_same ?_ rfl hf ?_
      · simp [closesAccount, callsExit, Ne.symm hkey]
      · rw [SemStore.next, perform, hadj, if_neg hkey]
  · have hrefused : st.processExit p now = (-EINVAL, st) := by
      rw [processExit, if_pos (Int32.not_lt.mp hpos)]
    refine moves_of_same ?_ rfl hf (by rw [SemStore.next, perform, hrefused])
    have hneg : ¬ (0 : Int32) ≤ -EINVAL := by decide
    simp [closesAccount, perform, hrefused, hneg]

/-- Every step moves the ledger of every set that is active after it. -/
theorem moves_next (h : st.Inv) (op : StoreOp) (pid : Int32) (s : ℕ)
    (hf : (st.next op).findSet semid ≠ none) : Moves pid semid s st op := by
  have hkeep : op.keepsSlots = true → st.findSet semid ≠ none := by
    intro hop
    rwa [(h.next_frames hop).findSet] at hf
  cases op with
  | getAs key nsems flags identity allocated now => exact moves_getAs h hf
  | remove id => exact moves_remove h hf
  | setval id n value p now => exact moves_setval h (hkeep rfl)
  | setall id values p now => exact moves_setall h (hkeep rfl)
  | setMetadata id uid gid mode actor now =>
    refine moves_of_same rfl rfl (hkeep rfl) ?_
    rw [SemStore.next, perform]
    rcases st.setMetadata_cases id uid gid mode actor now with ⟨-, heq⟩ | ⟨i, -, -, -, -, heq⟩
    · rw [heq]
    · rw [heq, writeSet_undoEntries]
  | adjustWaitCount id n waitForZero adjustment =>
    refine moves_of_same rfl rfl (hkeep rfl) ?_
    rw [SemStore.next, perform]
    rcases st.adjustWaitCount_cases id n waitForZero adjustment with
      ⟨-, heq⟩ | ⟨i, -, -, -, heq⟩
    · rw [heq]
    · rw [heq, writeSet_undoEntries]
  | tryopDetail id operations p now => exact moves_tryop h (hkeep rfl)
  | processExit p now => exact moves_processExit h (hkeep rfl)

/-! ### Processes with entries -/

/-- The process has an active entry in the undo table. -/
def Owes (st : SemStore) (pid : Int32) : Prop :=
  ∃ k, (st.undoEntries k).active = true ∧ (st.undoEntries k).pid = pid

lemma owes_of_adjustmentOf (h : st.Inv) (hne : st.undoEntries.adjustmentOf pid semid s ≠ 0) :
    st.Owes pid := by
  obtain ⟨k, hactive, hpid, -⟩ := h.undo.exists_active hne
  exact ⟨k, hactive, hpid⟩

/-- Only a successful `tryop` of the process itself makes a new entry for it. -/
theorem owes_next (h : st.Inv) {op : StoreOp} (howes : (st.next op).Owes pid) :
    st.Owes pid ∨ ∃ id operations now s, op = .tryopDetail id operations pid now ∧
      (st.tryopDetail id operations pid now).1 = 0 ∧ undoAmount operations s ≠ 0 := by
  obtain ⟨k, hactive, rfl⟩ := howes
  have hinv := h.next op
  obtain ⟨⟨i, hf, -⟩, -⟩ := hinv.entries k hactive
  have hadj := hinv.undo.adjustmentOf_active hactive
  have hne := hinv.undo.nonzero k hactive
  rw [← hadj] at hne
  have hsome : (st.next op).findSet ((st.next op).undoEntries k).semid ≠ none := by
    rw [hf]
    exact Option.some_ne_none i
  rcases moves_next h op ((st.next op).undoEntries k).pid ((st.next op).undoEntries k).semnum
    hsome with ⟨-, hzero⟩ | ⟨-, -, hmove⟩
  · exact absurd hzero hne
  · by_cases hcharge : charge ((st.next op).undoEntries k).pid ((st.next op).undoEntries k).semid
      ((st.next op).undoEntries k).semnum (st, op) = 0
    · rw [hmove, hcharge, sub_zero] at hne
      exact Or.inl (owes_of_adjustmentOf h hne)
    · right
      cases op with
      | tryopDetail id operations p now =>
        simp only [charge] at hcharge
        split_ifs at hcharge with hkey
        · obtain ⟨-, hp, hresult⟩ := hkey
          refine ⟨id, operations, now, _, ?_, ?_, hcharge⟩
          · rw [← hp]
          · rw [← hp]
            exact hresult
        · exact absurd rfl hcharge
      | _ => exact absurd rfl hcharge

/-- After its exit, a process has no entry. -/
lemma owes_processExit (h : st.Inv) {p : Int32} (hpid : 0 < pid)
    {now : Fin semMaxUndoEntries → Int64} (howes : (st.processExit pid now).2.Owes p) :
    p ≠ pid ∧ st.Owes p := by
  obtain ⟨k, hactive, rfl⟩ := howes
  have hinv := h.processExit pid now
  have hadj := hinv.undo.adjustmentOf_active hactive
  have hne := hinv.undo.nonzero k hactive
  rw [← hadj, processExit_ledger h hpid] at hne
  split_ifs at hne with hp
  · exact absurd rfl hne
  · exact ⟨hp, owes_of_adjustmentOf h hne⟩

/-! ### Whole runs -/

/-- After every run, the undo table holds for every process and every semaphore of an active set
minus what the process charged since the account was last closed. -/
theorem run_ledger (ops : List StoreOp) (pid semid : Int32) (s : ℕ)
    (hactive : (create.run ops).findSet semid ≠ none) :
    (create.run ops).undoEntries.adjustmentOf pid semid s =
      -charged (closesAccount pid semid s) pid semid s (create.trace ops) := by
  induction ops using List.reverseRecOn with
  | nil => exact UndoTable.adjustmentOf_create pid semid s
  | append_singleton ops op ih =>
    rw [run_snoc] at hactive ⊢
    rw [trace_snoc, charged_snoc]
    rcases moves_next (inv_run ops) op pid s hactive with
      ⟨hclose, hadj⟩ | ⟨hclose, hbefore, hadj⟩
    · rw [hadj, hclose, if_pos rfl, neg_zero]
    · rw [hadj, ih hbefore, hclose]
      simp only [Bool.false_eq_true, if_false]
      ring

/-- A process takes two units under `SEM_UNDO` and then blocks on a third. -/
def undoRun : List StoreOp :=
  [.getAs 1234 1 (ipcCreat ||| 0o600) ⟨0, 0⟩ true 5,
    .setval (makeId 0 1) 0 2 1100 6,
    .tryopDetail (makeId 0 1) [⟨0, -2, 0o10000⟩] 1101 7,
    .tryopDetail (makeId 0 1) [⟨0, -1, 0o10000⟩] 1101 8]

theorem run_ledger_undoRun :
    (create.run undoRun).findSet (makeId 0 1) ≠ none ∧
      (create.run undoRun).undoEntries.adjustmentOf 1101 (makeId 0 1) 0 = 2 ∧
      (create.run undoRun).undoEntries.adjustmentOf 1101 (makeId 0 1) 0 =
        -charged (closesAccount 1101 (makeId 0 1) 0) 1101 (makeId 0 1) 0 (create.trace undoRun) :=
  ⟨by decide +kernel, by decide +kernel,
    run_ledger undoRun 1101 (makeId 0 1) 0 (by decide +kernel)⟩

/-- `tryop` records an entry for pid 0, which process exit refuses to clear. -/
def exitZeroRun : List StoreOp :=
  [.getAs ipcPrivate 1 0 ⟨0, 0⟩ true 5,
    .tryopDetail (makeId 0 1) [⟨0, 1, 0o10000⟩] 0 6,
    .processExit 0 fun _ => 7]

/-- A refused process exit does not close the account: counting from it, nothing was charged, but
the entry is still there. -/
theorem refused_exit_keeps_account :
    (create.run exitZeroRun).findSet (makeId 0 1) ≠ none ∧
      (create.run exitZeroRun).undoEntries.adjustmentOf 0 (makeId 0 1) 0 = -1 ∧
      charged (fun step => closesAccount 0 (makeId 0 1) 0 step || callsExit 0 step)
        0 (makeId 0 1) 0 (create.trace exitZeroRun) = 0 := by
  decide +kernel

end SemStore

end Tgcompat
