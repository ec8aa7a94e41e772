import Tgcompat.Library.Table

/-!
# The semaphore store: data

The types of `sem_store.h` and `sem_store.c` and the helpers that find, number and retire
entries of its two tables. Identifiers and scalars of the public interface keep their C widths;
semaphore values and counters are natural numbers and the casts to `uint16_t` are written out.
`size_t` arguments and array lengths are natural numbers.
-/

namespace Tgcompat

/-! ### Constants -/

def EPERM : Int32 := 1
def ENOENT : Int32 := 2
def EAGAIN : Int32 := 11
def ENOMEM : Int32 := 12
def EACCES : Int32 := 13
def EEXIST : Int32 := 17
def EINVAL : Int32 := 22
def ENOSPC : Int32 := 28
def ERANGE : Int32 := 34
def ENAMETOOLONG : Int32 := 36
def ENOSYS : Int32 := 38

def ipcPrivate : Int32 := 0
def ipcCreat : Int32 := 0o1000
def ipcExcl : Int32 := 0o2000
def ipcNowait : UInt32 := 0o4000
def semUndo : UInt32 := 0o10000
def semMaxSets : ℕ := 128
def semMaxPerSet : ℕ := 512
def semMaxValue : ℕ := 32767
@[irreducible] def semMaxUndoEntries : ℕ := 4096
def semOpBlocked : Int32 := 1

def semIdIndexBits : ℕ := 16
def semIdIndexMask : ℕ := 0xffff
def semIdMaxGeneration : ℕ := 0x7fff

/-! ### Data -/

/-- One record of a `semop` request. -/
structure SemOp where
  semNum : UInt16
  semOp : Int16
  semFlg : UInt16
  deriving DecidableEq, Repr

structure SemIdentity where
  uid : UInt32
  gid : UInt32
  deriving DecidableEq, Repr

structure SemMetadata where
  key : Int32
  uid : UInt32
  gid : UInt32
  cuid : UInt32
  cgid : UInt32
  mode : UInt32
  nsems : UInt32
  otime : Int64
  ctime : Int64
  sequence : UInt32
  deriving DecidableEq, Repr

structure SemWaitReason where
  semNum : UInt16
  waitForZero : UInt16
  deriving DecidableEq, Repr

structure SemInfo where
  semmap : Int32
  semmni : Int32
  semmns : Int32
  semmnu : Int32
  semmsl : Int32
  semopm : Int32
  semume : Int32
  semusz : Int32
  semvmx : Int32
  semaem : Int32
  deriving DecidableEq, Repr

/-- A slot of the set table. The four arrays are lists; a freed array is the empty list. -/
@[ext] structure SemSet where
  key : Int32
  generation : ℕ
  nsems : ℕ
  active : Bool
  uid : UInt32
  gid : UInt32
  cuid : UInt32
  cgid : UInt32
  mode : UInt32
  otime : Int64
  ctime : Int64
  values : List ℕ
  lastPids : List Int32
  negativeWaiters : List ℕ
  zeroWaiters : List ℕ
  deriving DecidableEq, Repr

@[ext] structure UndoEntry where
  pid : Int32
  semid : Int32
  adjustment : ℤ
  semnum : ℕ
  active : Bool
  deriving DecidableEq, Repr

abbrev UndoTable := Fin semMaxUndoEntries → UndoEntry

@[ext] structure SemStore where
  sets : Fin semMaxSets → SemSet
  undoEntries : UndoTable

/-- A slot as `calloc` leaves it. -/
def SemSet.zero : SemSet where
  key := 0
  generation := 0
  nsems := 0
  active := false
  uid := 0
  gid := 0
  cuid := 0
  cgid := 0
  mode := 0
  otime := 0
  ctime := 0
  values := []
  lastPids := []
  negativeWaiters := []
  zeroWaiters := []

def UndoEntry.zero : UndoEntry where
  pid := 0
  semid := 0
  adjustment := 0
  semnum := 0
  active := false

/-- `tgc_sem_store_create`. -/
def SemStore.create : SemStore where
  sets := fun _ => SemSet.zero
  undoEntries := fun _ => UndoEntry.zero

/-! ### Identifiers -/

/-- The cast to `int` keeps the low 32 bits. -/
def makeId (index generation : ℕ) : Int32 :=
  Int32.ofNat ((generation <<< semIdIndexBits) ||| (index + 1))

def decodeId (semid : Int32) : Option (Fin semMaxSets × ℕ) :=
  if semid ≤ 0 then none
  else
    let id := semid.toUInt32.toNat
    let encodedIndex := id &&& semIdIndexMask
    let encodedGeneration := (id >>> semIdIndexBits) % 2 ^ 16
    if h : encodedIndex = 0 ∨ encodedIndex > semMaxSets ∨ encodedGeneration = 0 then none
    else some (⟨encodedIndex - 1, by omega⟩, encodedGeneration)

def nextGeneration (generation : ℕ) : ℕ :=
  if generation ≥ semIdMaxGeneration then 1 else (generation + 1) % 2 ^ 16

namespace SemStore

/-- The slot a `semid` resolves to. `find_const_set` is the same lookup on a const store. -/
def findSet (st : SemStore) (semid : Int32) : Option (Fin semMaxSets) :=
  match decodeId semid with
  | none => none
  | some (index, generation) =>
    if (st.sets index).active ∧ (st.sets index).generation = generation then some index else none

/-- Assignment through a pointer into the set table. -/
def writeSet (st : SemStore) (i : Fin semMaxSets) (set : SemSet) : SemStore :=
  { st with sets := Function.update st.sets i set }

/-- The id under which the set in slot `i` is known. -/
def idOf (st : SemStore) (i : Fin semMaxSets) : Int32 :=
  makeId i (st.sets i).generation

@[simp] lemma writeSet_sets_self (st : SemStore) (i : Fin semMaxSets) (set : SemSet) :
    (st.writeSet i set).sets i = set := by simp [writeSet]

lemma writeSet_sets_of_ne (st : SemStore) {i j : Fin semMaxSets} (h : j ≠ i) (set : SemSet) :
    (st.writeSet i set).sets j = st.sets j := by simp [writeSet, h]

@[simp] lemma writeSet_undoEntries (st : SemStore) (i : Fin semMaxSets) (set : SemSet) :
    (st.writeSet i set).undoEntries = st.undoEntries := rfl

end SemStore

/-! ### The undo table -/

namespace UndoTable

def findUndoEntry (t : UndoTable) (pid semid : Int32) (semnum : ℕ) :
    Option (Fin semMaxUndoEntries) :=
  Table.firstIndex fun i =>
    (t i).active && decide ((t i).pid = pid) && decide ((t i).semid = semid) &&
      decide ((t i).semnum = semnum)

def findFreeUndoEntry (t : UndoTable) : Option (Fin semMaxUndoEntries) :=
  Table.firstIndex fun i => !(t i).active

/-- The loop that counts `free_entries`. -/
def freeEntries (t : UndoTable) : ℕ :=
  Table.countIndex fun i => !(t i).active

def clearUndoEntries (t : UndoTable) (semid : Int32) (semnum : ℕ) (allSemaphores : Bool) :
    UndoTable :=
  fun i =>
    if (t i).active ∧ (t i).semid = semid ∧ (allSemaphores = true ∨ (t i).semnum = semnum) then
      { t i with active := false }
    else t i

/-- The adjustment recorded for `(pid, semid, semnum)`, zero when no active entry records one. -/
def adjustmentOf (t : UndoTable) (pid semid : Int32) (semnum : ℕ) : ℤ :=
  match findUndoEntry t pid semid semnum with
  | some i => (t i).adjustment
  | none => 0

/-- The undo table as a keyed table: an active entry is keyed by process, set and semaphore. -/
def keyed : Table.Keyed UndoEntry (Int32 × Int32 × ℕ) where
  live := UndoEntry.active
  key := fun e => (e.pid, e.semid, e.semnum)

lemma findUndoEntry_eq_find (t : UndoTable) (pid semid : Int32) (semnum : ℕ) :
    findUndoEntry t pid semid semnum = keyed.find t (pid, semid, semnum) := by
  simp only [findUndoEntry, Table.Keyed.find, keyed, Prod.mk.injEq, Bool.decide_and,
    Bool.and_assoc]

lemma findFreeUndoEntry_eq_findFree (t : UndoTable) :
    findFreeUndoEntry t = keyed.findFree t := rfl

lemma freeEntries_eq_freeCount (t : UndoTable) : freeEntries t = keyed.freeCount t := rfl

end UndoTable

end Tgcompat
