import Tgcompat.Store.Basic

/-!
# The semaphore store: operations

The public functions of `sem_store.c` other than `tryop`. A function that changes the store
returns its `int` result together with the store it leaves. What the C code obtains from the
system is an argument: `now` is a reading of `current_time_seconds`, `allocated` says whether
the `calloc` calls succeeded. A null array argument is the empty list: either way the length
check answers `-EINVAL`.
-/

namespace Tgcompat

/-- The counter array an `int wait_for_zero` argument selects. -/
def SemSet.waitCounts (set : SemSet) (waitForZero : Bool) : List ℕ :=
  if waitForZero then set.zeroWaiters else set.negativeWaiters

def SemSet.setWaitCounts (set : SemSet) (waitForZero : Bool) (counts : List ℕ) : SemSet :=
  if waitForZero then { set with zeroWaiters := counts } else { set with negativeWaiters := counts }

namespace SemStore

/-- The lookup loop of `semget`: the first active set with the given key. -/
def findKey (st : SemStore) (key : Int32) : Option (Fin semMaxSets) :=
  Table.firstIndex fun i => (st.sets i).active && decide ((st.sets i).key = key)

/-- The slot `semget` fills in when it creates a set. -/
def freshSet (old : SemSet) (key nsems flags : Int32) (identity : SemIdentity) (now : Int64) :
    SemSet where
  key := key
  generation := if old.generation = 0 then 1 else old.generation
  nsems := nsems.toInt.toNat % 2 ^ 16
  active := true
  uid := identity.uid
  gid := identity.gid
  cuid := identity.uid
  cgid := identity.gid
  mode := flags.toUInt32 &&& 0o777
  otime := 0
  ctime := now
  values := List.replicate nsems.toInt.toNat 0
  lastPids := List.replicate nsems.toInt.toNat 0
  negativeWaiters := List.replicate nsems.toInt.toNat 0
  zeroWaiters := List.replicate nsems.toInt.toNat 0

/-- The part of `semget` that runs when no set holds the key. -/
def createSet (st : SemStore) (key nsems flags : Int32) (identity : SemIdentity)
    (allocated : Bool) (now : Int64) : Int32 × SemStore :=
  if nsems ≤ 0 ∨ nsems.toInt > semMaxPerSet then (-EINVAL, st)
  else
    match Table.firstIndex fun i => !(st.sets i).active with
    | none => (-ENOSPC, st)
    | some i =>
      if allocated = false then (-ENOMEM, st)
      else
        let set := freshSet (st.sets i) key nsems flags identity now
        (makeId i set.generation, st.writeSet i set)

def getAs (st : SemStore) (key nsems flags : Int32) (identity : SemIdentity)
    (allocated : Bool) (now : Int64) : Int32 × SemStore :=
  if key ≠ ipcPrivate then
    match st.findKey key with
    | some i =>
      if flags &&& ipcCreat ≠ 0 ∧ flags &&& ipcExcl ≠ 0 then (-EEXIST, st)
      else if nsems < 0 ∨ nsems.toInt > (st.sets i).nsems then (-EINVAL, st)
      else (makeId i (st.sets i).generation, st)
    | none =>
      if flags &&& ipcCreat = 0 then (-ENOENT, st)
      else st.createSet key nsems flags identity allocated now
  else st.createSet key nsems flags identity allocated now

/-- A slot after removal: everything is zeroed and the generation moves on. -/
def removedSet (old : SemSet) : SemSet :=
  { SemSet.zero with generation := nextGeneration old.generation }

def remove (st : SemStore) (semid : Int32) : Int32 × SemStore :=
  match st.findSet semid with
  | none => (-EINVAL, st)
  | some i =>
    (0, { (st.writeSet i (removedSet (st.sets i))) with
          undoEntries := st.undoEntries.clearUndoEntries semid 0 true })

/-- The element a read of one semaphore returns, after the checks all such reads share. -/
def readSem (st : SemStore) (semid : Int32) (semnum : ℕ) (read : SemSet → Int32) : Int32 :=
  match st.findSet semid with
  | none => -EINVAL
  | some i => if semnum ≥ (st.sets i).nsems then -EINVAL else read (st.sets i)

def getval (st : SemStore) (semid : Int32) (semnum : ℕ) : Int32 :=
  st.readSem semid semnum fun set => Int32.ofNat (set.values.getD semnum 0)

def getpid (st : SemStore) (semid : Int32) (semnum : ℕ) : Int32 :=
  st.readSem semid semnum fun set => set.lastPids.getD semnum 0

/-- Counts above `INT_MAX` are reported as `INT_MAX`. -/
def getWaitCount (st : SemStore) (semid : Int32) (semnum : ℕ) (waitForZero : Bool) : Int32 :=
  st.readSem semid semnum fun set =>
    let count := (set.waitCounts waitForZero).getD semnum 0
    if count > 2147483647 then Int32.maxValue else Int32.ofNat count

def setval (st : SemStore) (semid : Int32) (semnum : ℕ) (value : UInt32) (pid : Int32)
    (now : Int64) : Int32 × SemStore :=
  match st.findSet semid with
  | none => (-EINVAL, st)
  | some i =>
    let set := st.sets i
    if semnum ≥ set.nsems then (-EINVAL, st)
    else if value.toNat > semMaxValue then (-ERANGE, st)
    else
      let set' := { set with
        values := set.values.set semnum (value.toNat % 2 ^ 16)
        lastPids := set.lastPids.set semnum pid
        ctime := now }
      (0, { (st.writeSet i set') with
            undoEntries := st.undoEntries.clearUndoEntries semid semnum false })

/-- The result and, on success, the values copied out. -/
def getall (st : SemStore) (semid : Int32) (count : ℕ) : Int32 × Option (List ℕ) :=
  match st.findSet semid with
  | none => (-EINVAL, none)
  | some i =>
    if count ≠ (st.sets i).nsems then (-EINVAL, none) else (0, some ((st.sets i).values.take count))

def setall (st : SemStore) (semid : Int32) (values : List UInt16) (pid : Int32)
    (now : Int64) : Int32 × SemStore :=
  match st.findSet semid with
  | none => (-EINVAL, st)
  | some i =>
    let set := st.sets i
    if values.length ≠ set.nsems then (-EINVAL, st)
    else if values.any fun v => decide (v.toNat > semMaxValue) then (-ERANGE, st)
    else
      let set' := { set with
        values := values.map UInt16.toNat
        lastPids := List.replicate values.length pid
        ctime := now }
      (0, { (st.writeSet i set') with
            undoEntries := st.undoEntries.clearUndoEntries semid 0 true })

def getMetadata (st : SemStore) (semid : Int32) : Int32 × Option SemMetadata :=
  match st.findSet semid, decodeId semid with
  | some i, some (_, generation) =>
    let set := st.sets i
    (0, some {
      key := set.key
      uid := set.uid
      gid := set.gid
      cuid := set.cuid
      cgid := set.cgid
      mode := set.mode
      nsems := UInt32.ofNat set.nsems
      otime := set.otime
      ctime := set.ctime
      sequence := UInt32.ofNat generation })
  | _, _ => (-EINVAL, none)

def statIndex (st : SemStore) (index : ℕ) : Int32 × Option SemMetadata :=
  if h : index < semMaxSets then
    if (st.sets ⟨index, h⟩).active then
      let semid := makeId index (st.sets ⟨index, h⟩).generation
      let (result, metadata) := st.getMetadata semid
      (if result = 0 then semid else result, metadata)
    else (-EINVAL, none)
  else (-EINVAL, none)

def setMetadata (st : SemStore) (semid : Int32) (uid gid mode : UInt32) (actor : SemIdentity)
    (now : Int64) : Int32 × SemStore :=
  match st.findSet semid with
  | none => (-EINVAL, st)
  | some i =>
    let set := st.sets i
    if actor.uid ≠ set.uid ∧ actor.uid ≠ set.cuid then (-EPERM, st)
    else if uid ≠ set.uid ∨ (gid ≠ set.gid ∧ gid ≠ actor.gid) ∨ mode &&& ~~~0o777 ≠ 0 then
      (-EPERM, st)
    else (0, st.writeSet i { set with gid := gid, mode := mode, ctime := now })

def adjustWaitCount (st : SemStore) (semid : Int32) (semnum : ℕ) (waitForZero : Bool)
    (adjustment : Int32) : Int32 × SemStore :=
  match st.findSet semid with
  | none => (-EINVAL, st)
  | some i =>
    let set := st.sets i
    if semnum ≥ set.nsems ∨ (adjustment ≠ 1 ∧ adjustment ≠ -1) then (-EINVAL, st)
    else
      let count := (set.waitCounts waitForZero).getD semnum 0
      if (adjustment > 0 ∧ count = 4294967295) ∨ (adjustment < 0 ∧ count = 0) then (-ERANGE, st)
      else
        let counts := (set.waitCounts waitForZero).set semnum
          (if adjustment > 0 then count + 1 else count - 1)
        (0, st.writeSet i (set.setWaitCounts waitForZero counts))

/-- The three accumulators of the `info` loop: active sets, semaphores, highest active index. -/
def infoTotals (st : SemStore) : ℕ × ℕ × ℕ :=
  (List.finRange semMaxSets).foldl
    (fun (acc : ℕ × ℕ × ℕ) i =>
      if (st.sets i).active then (acc.1 + 1, acc.2.1 + (st.sets i).nsems, i.val) else acc)
    (0, 0, 0)

/-- `sizeof(struct tgc_sem_set)` on an LP64 target. -/
def sizeofSemSet : ℕ := 80

def info (st : SemStore) (dynamic : Bool) : Int32 × SemInfo :=
  let (activeSets, totalSemaphores, highestIndex) := st.infoTotals
  (Int32.ofNat highestIndex, {
    semmap := Int32.ofNat semMaxSets
    semmni := Int32.ofNat semMaxSets
    semmns := Int32.ofNat (semMaxSets * semMaxPerSet)
    semmnu := Int32.ofNat semMaxSets
    semmsl := Int32.ofNat semMaxPerSet
    semopm := Int32.ofNat semMaxPerSet
    semume := Int32.ofNat semMaxPerSet
    semusz := Int32.ofNat (if dynamic then activeSets else sizeofSemSet)
    semvmx := Int32.ofNat semMaxValue
    semaem := Int32.ofNat (if dynamic then totalSemaphores else semMaxValue) })

/-! ### Process exit -/

/-- The restored value, clamped to the range of a semaphore. -/
def restoredValue (value : ℕ) (adjustment : ℤ) : ℕ :=
  let sum := (value : ℤ) + adjustment
  if sum < 0 then 0 else if sum > semMaxValue then semMaxValue else sum.toNat

/-- Apply one undo entry of an exiting process to the set it names. -/
def restoreEntry (set : SemSet) (entry : UndoEntry) (pid : Int32) (now : Int64) : SemSet :=
  { set with
    values := set.values.set entry.semnum
      (restoredValue (set.values.getD entry.semnum 0) entry.adjustment)
    lastPids := set.lastPids.set entry.semnum pid
    otime := now }

def retireEntry (st : SemStore) (k : Fin semMaxUndoEntries) : SemStore :=
  let entry := { st.undoEntries k with active := false }
  { st with undoEntries := Function.update st.undoEntries k entry }

/-- One iteration of the loop over the undo table. -/
def processExitEntry (pid : Int32) (now : Fin semMaxUndoEntries → Int64)
    (acc : Int32 × SemStore) (k : Fin semMaxUndoEntries) : Int32 × SemStore :=
  let (changed, st) := acc
  let entry := st.undoEntries k
  if entry.active = false ∨ entry.pid ≠ pid then acc
  else
    match st.findSet entry.semid with
    | none => (changed, st.retireEntry k)
    | some i =>
      if entry.semnum < (st.sets i).nsems then
        (1, (st.writeSet i (restoreEntry (st.sets i) entry pid (now k))).retireEntry k)
      else (changed, st.retireEntry k)

/-- `now k` is the clock reading of the iteration at table slot `k`. -/
def processExit (st : SemStore) (pid : Int32) (now : Fin semMaxUndoEntries → Int64) :
    Int32 × SemStore :=
  if pid ≤ 0 then (-EINVAL, st)
  else (List.finRange semMaxUndoEntries).foldl (processExitEntry pid now) (0, st)

end SemStore

end Tgcompat
