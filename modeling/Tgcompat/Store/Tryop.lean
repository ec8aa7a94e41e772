import Tgcompat.Store.Basic

/-!
# The semaphore store: `tryop`

`tgc_sem_store_tryop_detail` runs in five loops: validate every operation, evaluate the list on
a working copy, accumulate the undo deltas of the request, check them against the undo table,
and commit. Everything before the commit only reads the store, so it is kept together in
`planTryop`: a refusal carries the result, a plan carries what the commit writes. The commit can
still fail half-way, and its model keeps what it has written by then.
-/

namespace Tgcompat

namespace SemOp

/-- `sem_flg` holds a flag. -/
def hasFlag (op : SemOp) (flag : UInt32) : Bool :=
  decide (op.semFlg.toUInt32 &&& flag ≠ 0)

/-- The check of the validation loop. -/
def accepted (op : SemOp) (nsems : ℕ) : Bool :=
  decide (op.semNum.toNat < nsems) &&
    decide (op.semFlg.toUInt32 &&& ~~~(ipcNowait ||| semUndo) = 0)

end SemOp

/-- A `tryop` that ends before the commit: its result, and the wait reason if one was written. -/
structure Refusal where
  result : Int32
  reason : Option SemWaitReason
  deriving DecidableEq, Repr

/-- A return with an error code that writes no wait reason. -/
def refuse (result : Int32) : Refusal where
  result := result
  reason := none

/-- The exit of the evaluation loop at an operation that has to wait. -/
def blockedAt (op : SemOp) : Refusal where
  result := if op.hasFlag ipcNowait then -EAGAIN else semOpBlocked
  reason := some { semNum := op.semNum, waitForZero := if op.semOp = 0 then 1 else 0 }

/-- One iteration of the evaluation loop on the working copy of the values. -/
def evaluateOp (working : List ℕ) (op : SemOp) : Except Refusal (List ℕ) :=
  let semnum := op.semNum.toNat
  let value := working.getD semnum 0
  if op.semOp > 0 then
    -- `unsigned int` arithmetic
    let result := (value + op.semOp.toInt.toNat) % 2 ^ 32
    if result > semMaxValue then .error (refuse (-ERANGE))
    else .ok (working.set semnum (result % 2 ^ 16))
  else if op.semOp < 0 then
    -- the negation happens in `int`, so `INT16_MIN` has a positive amount
    let amount := (-op.semOp.toInt).toNat
    if value < amount then .error (blockedAt op)
    else .ok (working.set semnum ((value - amount) % 2 ^ 16))
  else if value ≠ 0 then .error (blockedAt op)
  else .ok working

/-- The adjustments a process may accumulate on one semaphore. -/
def undoInRange (adjustment : ℤ) : Prop :=
  -(semMaxValue : ℤ) - 1 ≤ adjustment ∧ adjustment ≤ semMaxValue

instance (adjustment : ℤ) : Decidable (undoInRange adjustment) := by
  unfold undoInRange
  infer_instance

/-- One iteration of the loop over `undo_deltas`. -/
def accumulateUndo (deltas : ℕ → ℤ) (op : SemOp) : Except Refusal (ℕ → ℤ) :=
  if op.hasFlag semUndo then
    let semnum := op.semNum.toNat
    let delta := deltas semnum - op.semOp.toInt
    if undoInRange delta then .ok (Function.update deltas semnum delta)
    else .error (refuse (-ERANGE))
  else .ok deltas

namespace UndoTable

/-- One iteration of the capacity check: counts the entries the commit will have to claim. -/
def reserveUndo (t : UndoTable) (pid semid : Int32) (deltas : ℕ → ℤ) (required semnum : ℕ) :
    Except Refusal ℕ :=
  if deltas semnum = 0 then .ok required
  else
    match t.findUndoEntry pid semid (semnum % 2 ^ 16) with
    | some k =>
      if undoInRange (deltas semnum + (t k).adjustment) then .ok required
      else .error (refuse (-ERANGE))
    | none =>
      if undoInRange (deltas semnum) then .ok (required + 1)
      else .error (refuse (-ERANGE))

/-- `entry->adjustment += delta`, and retirement of an entry that reaches zero. -/
def addDelta (entry : UndoEntry) (delta : ℤ) : UndoEntry :=
  let adjustment := entry.adjustment + delta
  { entry with
    adjustment := adjustment
    active := if adjustment = 0 then false else entry.active }

/-- A newly claimed entry. -/
def newEntry (pid semid : Int32) (semnum : ℕ) : UndoEntry where
  pid := pid
  semid := semid
  adjustment := 0
  semnum := semnum
  active := true

/-- One iteration of the commit loop; the error is the return with `-ENOSPC`, which leaves the
table as it is by then. -/
def commitUndo (pid semid : Int32) (deltas : ℕ → ℤ) (t : UndoTable) (semnum : ℕ) :
    Except UndoTable UndoTable :=
  if deltas semnum = 0 then .ok t
  else
    match t.findUndoEntry pid semid (semnum % 2 ^ 16) with
    | some k => .ok (Function.update t k (addDelta (t k) (deltas semnum)))
    | none =>
      match t.findFreeUndoEntry with
      | some k =>
        .ok (Function.update t k (addDelta (newEntry pid semid (semnum % 2 ^ 16)) (deltas semnum)))
      | none => .error t

end UndoTable

namespace SemStore

/-- What a request that passed every check is going to write. -/
structure TryopPlan where
  index : Fin semMaxSets
  working : List ℕ
  deltas : ℕ → ℤ

/-- The part of `tryop` before the first write. `memcpy` copies the whole array into the working
copy. -/
def planTryop (st : SemStore) (semid : Int32) (operations : List SemOp) (pid : Int32) :
    Except Refusal TryopPlan :=
  match st.findSet semid with
  | none => .error (refuse (-EINVAL))
  | some i =>
    let set := st.sets i
    if operations = [] ∨ operations.all (·.accepted set.nsems) = false then
      .error (refuse (-EINVAL))
    else do
      let working ← operations.foldlM evaluateOp set.values
      let deltas ← operations.foldlM accumulateUndo fun _ => 0
      let required ←
        (List.range set.nsems).foldlM (st.undoEntries.reserveUndo pid semid deltas) 0
      if required > st.undoEntries.freeEntries then .error (refuse (-ENOSPC))
      else .ok { index := i, working := working, deltas := deltas }

/-- The set after the values and the last pids are written. -/
def committedSet (set : SemSet) (plan : TryopPlan) (operations : List SemOp) (pid : Int32) :
    SemSet :=
  { set with
    values := plan.working
    lastPids := operations.foldl (fun pids op => pids.set op.semNum.toNat pid) set.lastPids }

/-- The part of `tryop` from the first write on. The operation time is only written when the
undo loop runs to its end. -/
def commitTryop (st : SemStore) (semid : Int32) (operations : List SemOp) (pid : Int32)
    (now : Int64) (plan : TryopPlan) : Int32 × SemStore :=
  let set := committedSet (st.sets plan.index) plan operations pid
  match (List.range set.nsems).foldlM (UndoTable.commitUndo pid semid plan.deltas)
      st.undoEntries with
  | .error t => (-ENOSPC, { (st.writeSet plan.index set) with undoEntries := t })
  | .ok t =>
    (0, { (st.writeSet plan.index { set with otime := now }) with undoEntries := t })

/-- The result, the wait reason if one was written, and the store. -/
def tryopDetail (st : SemStore) (semid : Int32) (operations : List SemOp) (pid : Int32)
    (now : Int64) : Int32 × Option SemWaitReason × SemStore :=
  match st.planTryop semid operations pid with
  | .error refusal => (refusal.result, refusal.reason, st)
  | .ok plan =>
    let (result, st') := st.commitTryop semid operations pid now plan
    (result, none, st')

end SemStore

end Tgcompat
