import Tgcompat.Library.Independence
import Tgcompat.Store.Frame

/-!
# Calls on different sets

A set and the adjustments on its semaphores form a part of the store. `SETVAL`, `SETALL` and
`tryop` are requests on the part their id resolves to: what they answer and write is a function of
that part, as long as the undo table has the entries they newly require. The free slots of the
table are the pool the parts share, so calls on different sets commute.
-/

namespace Tgcompat

/-- A set without its timestamps. -/
def SemSet.timeless (set : SemSet) : SemSet := { set with otime := 0, ctime := 0 }

/-- A set and the adjustments on its semaphores, by process and semaphore. -/
structure SetPart where
  set : SemSet
  ledger : Int32 → ℕ → ℤ

/-- The calls that read and write one set. -/
inductive SetCall where
  | setval (semid : Int32) (semnum : ℕ) (value : UInt32) (pid : Int32)
  | setall (semid : Int32) (values : List UInt16) (pid : Int32)
  | tryopDetail (semid : Int32) (operations : List SemOp) (pid : Int32)

namespace SetCall

def semid : SetCall → Int32
  | .setval semid _ _ _ => semid
  | .setall semid _ _ => semid
  | .tryopDetail semid _ _ => semid

/-- The result and the wait reason, and the store. -/
def perform (call : SetCall) (now : Int64) (st : SemStore) :
    (Int32 × Option SemWaitReason) × SemStore :=
  match call with
  | .setval semid semnum value pid =>
    let (result, st') := st.setval semid semnum value pid now
    ((result, none), st')
  | .setall semid values pid =>
    let (result, st') := st.setall semid values pid now
    ((result, none), st')
  | .tryopDetail semid operations pid =>
    let (result, reason, st') := st.tryopDetail semid operations pid now
    ((result, reason), st')

end SetCall

/-! ### Calls on a part -/

namespace SetPart

/-- The checks of `tryop` on a part, all but the one of the capacity: the working copy and the
deltas. -/
def checkTryop (part : SetPart) (operations : List SemOp) (pid : Int32) :
    Except Refusal (List ℕ × (ℕ → ℤ)) :=
  if operations = [] ∨ operations.all (·.accepted part.set.nsems) = false then
    .error (refuse (-EINVAL))
  else do
    let working ← operations.foldlM evaluateOp part.set.values
    let deltas ← operations.foldlM accumulateUndo fun _ => 0
    if ∀ s ∈ List.range part.set.nsems, deltas s ≠ 0 → undoInRange (deltas s + part.ledger pid s)
    then .ok (working, deltas)
    else .error (refuse (-ERANGE))

/-- The new entries the deltas need. -/
def newEntries (part : SetPart) (pid : Int32) (deltas : ℕ → ℤ) : ℕ :=
  (List.range part.set.nsems).countP fun s =>
    decide (deltas s ≠ 0) && decide (part.ledger pid s = 0)

end SetPart

namespace SetCall

/-- The undo entries a call newly requires: none if it fails before it comes to count them. -/
def required (call : SetCall) (part : SetPart) : ℕ :=
  match call with
  | .setval _ _ _ _ => 0
  | .setall _ _ _ => 0
  | .tryopDetail _ operations pid =>
    match part.checkTryop operations pid with
    | .error _ => 0
    | .ok (_, deltas) => part.newEntries pid deltas

/-- What a call answers and makes of its part when it finds the entries it requires. -/
def spec (call : SetCall) (part : SetPart) : (Int32 × Option SemWaitReason) × SetPart :=
  match call with
  | .setval _ semnum value pid =>
    if semnum ≥ part.set.nsems then ((-EINVAL, none), part)
    else if value.toNat > semMaxValue then ((-ERANGE, none), part)
    else ((0, none),
      { set := SemStore.valueSet part.set semnum value pid 0
        ledger := fun p s => if s = semnum then 0 else part.ledger p s })
  | .setall _ values pid =>
    if values.length ≠ part.set.nsems then ((-EINVAL, none), part)
    else if values.any fun v => decide (v.toNat > semMaxValue) then ((-ERANGE, none), part)
    else ((0, none),
      { set := SemStore.valuesSet part.set values pid 0
        ledger := fun _ _ => 0 })
  | .tryopDetail _ operations pid =>
    match part.checkTryop operations pid with
    | .error r => ((r.result, r.reason), part)
    | .ok (working, deltas) => ((0, none),
      { set := { part.set with
          values := working
          lastPids := operations.foldl (fun pids op => pids.set op.semNum.toNat pid)
            part.set.lastPids }
        ledger := fun p s =>
          part.ledger p s + if p = pid ∧ s ∈ List.range part.set.nsems then deltas s else 0 })

end SetCall

namespace SemStore

variable {st : SemStore} {semid pid : Int32} {i j : Fin semMaxSets} {operations : List SemOp}

/-- The part of the store in slot `i`. -/
def part (st : SemStore) (i : Fin semMaxSets) : SetPart where
  set := (st.sets i).timeless
  ledger := fun p s => st.undoEntries.adjustmentOf p (st.idOf i) s

/-- The entries counted by the capacity check. -/
lemma Inv.newEntries_eq (h : st.Inv) (pid : Int32) (deltas : ℕ → ℤ) (i : Fin semMaxSets) :
    (st.part i).newEntries pid deltas =
      (List.range (st.sets i).nsems).countP
        (st.undoEntries.needsEntry pid (st.idOf i) deltas) := by
  refine List.countP_congr fun s _ => ?_
  rw [h.undo.needsEntry_eq]
  rfl

/-- The checks of `tryop` are those on the part the id resolves to, and the one of the capacity. -/
lemma Inv.planTryop_eq (h : st.Inv) (hfound : st.findSet semid = some i)
    (operations : List SemOp) (pid : Int32) :
    st.planTryop semid operations pid =
      match (st.part i).checkTryop operations pid with
      | .error r => .error r
      | .ok (working, deltas) =>
        if (st.part i).newEntries pid deltas > st.undoEntries.freeEntries then
          .error (refuse (-ENOSPC))
        else .ok ⟨i, working, deltas⟩ := by
  have hlt := UndoTable.lt_of_mem_range_nsems (h.valid_of_findSet hfound).nsems_le
  obtain rfl := eq_idOf_of_findSet hfound
  have hcheck : (st.part i).checkTryop operations pid =
      if operations = [] ∨ operations.all (·.accepted (st.sets i).nsems) = false then
        .error (refuse (-EINVAL))
      else operations.foldlM evaluateOp (st.sets i).values >>= fun working =>
        operations.foldlM accumulateUndo (fun _ => 0) >>= fun deltas =>
          if ∀ s ∈ List.range (st.sets i).nsems, deltas s ≠ 0 →
              undoInRange (deltas s + st.undoEntries.adjustmentOf pid (st.idOf i) s)
          then .ok (working, deltas)
          else .error (refuse (-ERANGE)) := rfl
  by_cases hacc : operations = [] ∨ operations.all (·.accepted (st.sets i).nsems) = false
  · rw [if_pos hacc] at hcheck
    simp only [planTryop, hfound, if_pos hacc, hcheck]
  rw [if_neg hacc] at hcheck
  simp only [planTryop, hfound, if_neg hacc, h.newEntries_eq]
  cases heval : operations.foldlM evaluateOp (st.sets i).values with
  | error r =>
    rw [heval] at hcheck
    rw [hcheck]
    rfl
  | ok working =>
    rw [heval] at hcheck
    cases hacc : operations.foldlM accumulateUndo fun _ => 0 with
    | error r =>
      rw [hacc] at hcheck
      rw [hcheck]
      rfl
    | ok deltas =>
      rw [hacc] at hcheck
      simp only [bind, Except.bind] at hcheck ⊢
      by_cases hrange : ∀ s ∈ List.range (st.sets i).nsems, deltas s ≠ 0 →
          undoInRange (deltas s + st.undoEntries.adjustmentOf pid (st.idOf i) s)
      · rw [if_pos hrange] at hcheck
        rw [hcheck, UndoTable.reserve_total hlt hrange]
      · rw [if_neg hrange] at hcheck
        rw [hcheck]
        cases hreserve : (List.range (st.sets i).nsems).foldlM
            (st.undoEntries.reserveUndo pid (st.idOf i) deltas) 0 with
        | ok required => exact absurd (UndoTable.reserve_ok hlt hreserve).2 hrange
        | error r =>
          obtain ⟨s, -, n, hs⟩ := Fold.foldlM_error hreserve
          rw [UndoTable.reserveUndo_error hs]

/-! ### What a call makes of the store -/

/-- The store `st'` is `st` with `part'` in place of its part in slot `i`. -/
structure Replaces (st : SemStore) (i : Fin semMaxSets) (part' : SetPart) (st' : SemStore) :
    Prop where
  others : ∀ j, j ≠ i → st'.sets j = st.sets j
  set : (st'.sets i).timeless = part'.set
  generation : (st'.sets i).generation = (st.sets i).generation
  ledger : ∀ p id s, st'.undoEntries.adjustmentOf p id s =
    if id = st.idOf i then part'.ledger p s else st.undoEntries.adjustmentOf p id s

/-- A set is written into the slot and the undo table is put in place of the old one. -/
lemma replaces_written {set' : SemSet} {part' : SetPart} {t : UndoTable}
    (hset : set'.timeless = part'.set) (hgeneration : set'.generation = (st.sets i).generation)
    (hledger : ∀ p id s, t.adjustmentOf p id s =
      if id = st.idOf i then part'.ledger p s else st.undoEntries.adjustmentOf p id s) :
    st.Replaces i part' { (st.writeSet i set') with undoEntries := t } := by
  refine ⟨fun j hj => writeSet_sets_of_ne st hj _, ?_, ?_, hledger⟩
  · simp only [writeSet_sets_self, hset]
  · simp only [writeSet_sets_self, hgeneration]

lemma Replaces.refl (st : SemStore) (i : Fin semMaxSets) : st.Replaces i (st.part i) st := by
  refine ⟨fun _ _ => rfl, rfl, rfl, fun p id s => ?_⟩
  split_ifs with hid
  · rw [hid]
    rfl
  · rfl

section

variable {st' : SemStore} {part' : SetPart}

lemma Replaces.part_self (h : st.Replaces i part' st') : st'.part i = part' := by
  have hid : st'.idOf i = st.idOf i := by rw [idOf, idOf, h.generation]
  have hledger : (st'.part i).ledger = part'.ledger := by
    funext p s
    simp only [part, h.ledger, hid, if_true]
  exact congrArg₂ SetPart.mk h.set hledger

lemma Replaces.part_of_ne (h : st.Replaces i part' st') (hinv : st.Inv) (hj : j ≠ i) :
    st'.part j = st.part j := by
  have hne : st.idOf j ≠ st.idOf i := by
    intro heq
    exact hj (Fin.ext (makeId_inj j.isLt i.isLt (hinv.generation_le j) (hinv.generation_le i)
      heq).1)
  have hid : st'.idOf j = st.idOf j := by rw [idOf, idOf, h.others j hj]
  have hledger : (st'.part j).ledger = (st.part j).ledger := by
    funext p s
    simp only [part, hid]
    rw [h.ledger, if_neg hne]
  have hset : (st'.part j).set = (st.part j).set := by simp only [part, h.others j hj]
  exact congrArg₂ SetPart.mk hset hledger

end

/-- A call answers as on its part, replaces the part, and claims the entries it requires. -/
def Serves (call : SetCall) (now : Int64) (st : SemStore) (i : Fin semMaxSets) : Prop :=
  (call.perform now st).1 = (call.spec (st.part i)).1 ∧
    st.Replaces i (call.spec (st.part i)).2 (call.perform now st).2 ∧
    st.undoEntries.freeEntries ≤
      (call.perform now st).2.undoEntries.freeEntries + call.required (st.part i)

lemma serves_of_refused {call : SetCall} {now : Int64} (answer : Int32 × Option SemWaitReason)
    (hperform : call.perform now st = (answer, st))
    (hspec : call.spec (st.part i) = (answer, st.part i)) : Serves call now st i := by
  rw [Serves, hperform, hspec]
  exact ⟨rfl, Replaces.refl st i, Nat.le_add_right _ _⟩

lemma Inv.serves_setval (h : st.Inv) {semnum : ℕ} {value : UInt32} {now : Int64}
    (hfound : st.findSet semid = some i) :
    Serves (.setval semid semnum value pid) now st i := by
  by_cases hnum : semnum ≥ (st.sets i).nsems
  · refine serves_of_refused (-EINVAL, none) ?_ (if_pos hnum)
    simp only [SetCall.perform, SemStore.setval, hfound, if_pos hnum]
  by_cases hvalue : value.toNat > semMaxValue
  · refine serves_of_refused (-ERANGE, none) ?_
      ((if_neg hnum).trans (if_pos hvalue))
    simp only [SetCall.perform, SemStore.setval, hfound, if_neg hnum, if_pos hvalue]
  have hperform : (SetCall.setval semid semnum value pid).perform now st = ((0, none),
      { (st.writeSet i (valueSet (st.sets i) semnum value pid now)) with
        undoEntries := st.undoEntries.clearUndoEntries semid semnum false }) := by
    simp only [SetCall.perform, SemStore.setval, hfound, if_neg hnum, if_neg hvalue]
    rfl
  have hspec : (SetCall.setval semid semnum value pid).spec (st.part i) = ((0, none),
      { set := valueSet (st.part i).set semnum value pid 0
        ledger := fun p s => if s = semnum then 0 else (st.part i).ledger p s }) :=
    (if_neg hnum).trans (if_neg hvalue)
  obtain rfl := eq_idOf_of_findSet hfound
  rw [Serves, hperform, hspec]
  dsimp only
  refine ⟨rfl, replaces_written rfl rfl fun p id s => ?_, ?_⟩
  · simp only [h.undo.adjustmentOf_clear, part]
    by_cases hid : id = st.idOf i
    · simp [hid]
    · simp [hid]
  · exact UndoTable.freeEntries_clear _ _ _ _

lemma Inv.serves_setall (h : st.Inv) {values : List UInt16} {now : Int64}
    (hfound : st.findSet semid = some i) : Serves (.setall semid values pid) now st i := by
  by_cases hlength : values.length ≠ (st.sets i).nsems
  · refine serves_of_refused (-EINVAL, none) ?_ (if_pos hlength)
    simp only [SetCall.perform, SemStore.setall, hfound, if_pos hlength]
  by_cases hvalues : (values.any fun v => decide (v.toNat > semMaxValue)) = true
  · refine serves_of_refused (-ERANGE, none) ?_ ((if_neg hlength).trans (if_pos hvalues))
    simp only [SetCall.perform, SemStore.setall, hfound, if_neg hlength, if_pos hvalues]
  have hperform : (SetCall.setall semid values pid).perform now st = ((0, none),
      { (st.writeSet i (valuesSet (st.sets i) values pid now)) with
        undoEntries := st.undoEntries.clearUndoEntries semid 0 true }) := by
    simp only [SetCall.perform, SemStore.setall, hfound, if_neg hlength, if_neg hvalues]
    rfl
  have hspec : (SetCall.setall semid values pid).spec (st.part i) = ((0, none),
      { set := valuesSet (st.part i).set values pid 0
        ledger := fun _ _ => 0 }) :=
    (if_neg hlength).trans (if_neg hvalues)
  obtain rfl := eq_idOf_of_findSet hfound
  rw [Serves, hperform, hspec]
  dsimp only
  refine ⟨rfl, replaces_written rfl rfl fun p id s => ?_, ?_⟩
  · simp [h.undo.adjustmentOf_clear]
  · exact UndoTable.freeEntries_clear _ _ _ _

/-- The commit claims the entries that were counted. -/
lemma Inv.commit_free (h : st.Inv) {plan : TryopPlan} {t : UndoTable}
    (hplan : st.Planned semid operations pid plan)
    (hloop : (List.range (st.sets plan.index).nsems).foldlM
      (UndoTable.commitUndo pid semid plan.deltas) st.undoEntries = .ok t) :
    st.undoEntries.freeEntries ≤
      t.freeEntries + (st.part plan.index).newEntries pid plan.deltas := by
  have hlt := UndoTable.lt_of_mem_range_nsems (h.valid_of_findSet hplan.found).nsems_le
  obtain ⟨required, hrequired, hle⟩ := hplan.reserved
  rw [(UndoTable.reserve_ok hlt hrequired).1] at hle
  obtain ⟨u, hu, -, -, hfree⟩ := h.undo.commit_total hlt List.nodup_range hle
  rw [hloop] at hu
  cases hu
  rwa [h.newEntries_eq, ← eq_idOf_of_findSet hplan.found]

lemma Inv.serves_tryopDetail (h : st.Inv) {now : Int64} (hfound : st.findSet semid = some i)
    (hroom : (SetCall.tryopDetail semid operations pid).required (st.part i) ≤
      st.undoEntries.freeEntries) : Serves (.tryopDetail semid operations pid) now st i := by
  have hplan := h.planTryop_eq hfound operations pid
  cases hcheck : (st.part i).checkTryop operations pid with
  | error r =>
    rw [hcheck] at hplan
    refine serves_of_refused (r.result, r.reason) ?_ ?_
    · simp only [SetCall.perform, SemStore.tryopDetail, hplan]
    · simp only [SetCall.spec, hcheck]
  | ok checked =>
    obtain ⟨working, deltas⟩ := checked
    have hrequired : (SetCall.tryopDetail semid operations pid).required (st.part i) =
        (st.part i).newEntries pid deltas := by simp only [SetCall.required, hcheck]
    rw [hrequired] at hroom
    simp only [hcheck, gt_iff_lt, if_neg (not_lt.mpr hroom)] at hplan
    have hplanned := planTryop_ok.mp hplan
    obtain ⟨t, -, hadded, hloop, hcommit⟩ := h.commit hplanned now
    have hperform : (SetCall.tryopDetail semid operations pid).perform now st =
        ((0, none), st.committedStore operations pid now ⟨i, working, deltas⟩ t) := by
      simp only [SetCall.perform, hcommit]
    have hfree := h.commit_free hplanned hloop
    obtain rfl := eq_idOf_of_findSet hfound
    have hspec : (SetCall.tryopDetail (st.idOf i) operations pid).spec (st.part i) = ((0, none),
        { set := { (st.part i).set with
            values := working
            lastPids := operations.foldl (fun pids op => pids.set op.semNum.toNat pid)
              (st.part i).set.lastPids }
          ledger := fun p s => (st.part i).ledger p s +
            if p = pid ∧ s ∈ List.range (st.part i).set.nsems then deltas s else 0 }) := by
      simp only [SetCall.spec, hcheck]
    rw [Serves, hperform, hrequired, hspec]
    refine ⟨rfl, replaces_written ?_ ?_ fun p id s => ?_, hfree⟩
    · rfl
    · rfl
    · have hs := hadded p id s
      by_cases hid : id = st.idOf i
      · simpa [hid, part, SemSet.timeless] using hs
      · simpa [hid] using hs

end SemStore

/-! ### Calls as requests on parts -/

namespace SetCall

/-- The call as an operation of a run. -/
def op (call : SetCall) (now : Int64) : StoreOp :=
  match call with
  | .setval semid semnum value pid => .setval semid semnum value pid now
  | .setall semid values pid => .setall semid values pid now
  | .tryopDetail semid operations pid => .tryopDetail semid operations pid now

lemma perform_store (call : SetCall) (now : Int64) (st : SemStore) :
    (call.perform now st).2 = st.next (call.op now) := by
  cases call with
  | setval semid semnum value pid => rfl
  | setall semid values pid => rfl
  | tryopDetail semid operations pid => rfl

lemma op_keepsSlots (call : SetCall) (now : Int64) : (call.op now).keepsSlots = true := by
  cases call with
  | setval semid semnum value pid => rfl
  | setall semid values pid => rfl
  | tryopDetail semid operations pid => rfl

end SetCall

namespace SemStore

variable {st : SemStore} {i : Fin semMaxSets}

theorem Inv.serves (h : st.Inv) (call : SetCall) (hfound : st.findSet call.semid = some i)
    (hroom : call.required (st.part i) ≤ st.undoEntries.freeEntries) (now : Int64) :
    Serves call now st i := by
  cases call with
  | setval semid semnum value pid => exact h.serves_setval hfound
  | setall semid values pid => exact h.serves_setall hfound
  | tryopDetail semid operations pid => exact h.serves_tryopDetail hfound hroom

/-- The store in parts, while the ids resolve as given. -/
def parts (resolve : Int32 → Option (Fin semMaxSets)) :
    Independence.Parts SemStore (Fin semMaxSets) SetPart where
  inv := fun st => st.Inv ∧ st.findSet = resolve
  part := part
  free := fun st => st.undoEntries.freeEntries

/-- A call is a request on the part its id resolves to. -/
def setRequest (resolve : Int32 → Option (Fin semMaxSets)) (call : SetCall)
    (hi : resolve call.semid = some i) :
    Independence.Request (parts resolve) i Int64 (Int32 × Option SemWaitReason) where
  perform := call.perform
  spec := call.spec
  cost := call.required
  inv := by
    rintro st ⟨hinv, hresolve⟩ now
    have hframes := hinv.next_frames (call.op_keepsSlots now)
    rw [SetCall.perform_store]
    exact ⟨hinv.next (call.op now), (funext hframes.findSet).trans hresolve⟩
  frame := by
    rintro st ⟨hinv, hresolve⟩ hroom now j hj
    exact (hinv.serves call (hresolve ▸ hi) hroom now).2.1.part_of_ne hinv hj
  claims := by
    rintro st ⟨hinv, hresolve⟩ hroom now
    exact (hinv.serves call (hresolve ▸ hi) hroom now).2.2
  meets := by
    rintro st ⟨hinv, hresolve⟩ hroom now
    obtain ⟨hanswer, hreplaces, -⟩ := hinv.serves call (hresolve ▸ hi) hroom now
    exact Prod.ext hanswer hreplaces.part_self

/-- Stores with the same parts have the same active undo entries. -/
lemma activeEntries_of_parts {st st' : SemStore} (h : st.Inv) (h' : st'.Inv)
    (hresolve : st'.findSet = st.findSet) (hparts : ∀ k, st.part k = st'.part k) :
    st.undoEntries.activeEntries = st'.undoEntries.activeEntries := by
  refine (h.undo.activeEntries_eq_iff h'.undo).mpr fun p id s => ?_
  cases hf : st.findSet id with
  | none => rw [h.ledger_eq_zero hf, h'.ledger_eq_zero (hresolve ▸ hf)]
  | some k =>
    have hf' : st'.findSet id = some k := hresolve ▸ hf
    have hledger := congrFun (congrFun (congrArg SetPart.ledger (hparts k)) p) s
    simp only [part] at hledger
    rwa [← eq_idOf_of_findSet hf, ← eq_idOf_of_findSet hf'] at hledger

/-- Calls on different sets of a reachable store give the same answers and leave the same sets,
timestamps aside, and the same active undo entries in either order, when the free entries cover
what both newly require. -/
theorem set_calls_commute (calls : List StoreOp) (a b : SetCall) (hne : a.semid ≠ b.semid)
    {i j : Fin semMaxSets} (hi : (create.run calls).findSet a.semid = some i)
    (hj : (create.run calls).findSet b.semid = some j)
    (hroom : a.required ((create.run calls).part i) + b.required ((create.run calls).part j) ≤
      (create.run calls).undoEntries.freeEntries) (now₁ now₂ now₃ now₄ : Int64) :
    let afterA := a.perform now₁ (create.run calls)
    let afterB := b.perform now₂ (create.run calls)
    let thenB := b.perform now₃ afterA.2
    let thenA := a.perform now₄ afterB.2
    afterA.1 = thenA.1 ∧ thenB.1 = afterB.1 ∧
      (∀ k, (thenB.2.sets k).timeless = (thenA.2.sets k).timeless) ∧
      thenB.2.undoEntries.activeEntries = thenA.2.undoEntries.activeEntries := by
  intro afterA afterB thenB thenA
  have hinv : (create.run calls).Inv := inv_run calls
  have hij : i ≠ j := by
    rintro rfl
    exact hne ((eq_idOf_of_findSet hi).trans (eq_idOf_of_findSet hj).symm)
  let requestA := setRequest (create.run calls).findSet a hi
  let requestB := setRequest (create.run calls).findSet b hj
  obtain ⟨hanswerA, hanswerB, hparts⟩ :=
    requestA.commute hij requestB ⟨hinv, rfl⟩ hroom now₁ now₄ now₃ now₂
  obtain ⟨hinvB, hresolveB⟩ := requestB.inv (requestA.inv ⟨hinv, rfl⟩ now₁) now₃
  obtain ⟨hinvA, hresolveA⟩ := requestA.inv (requestB.inv ⟨hinv, rfl⟩ now₂) now₄
  refine ⟨hanswerA, hanswerB, fun k => congrArg SetPart.set (hparts k), ?_⟩
  exact activeEntries_of_parts hinvB hinvA (hresolveA.trans hresolveB.symm) hparts

/-- Two private sets of one semaphore. -/
def twoSets : List StoreOp :=
  [.getAs ipcPrivate 1 0 ⟨0, 0⟩ true 5, .getAs ipcPrivate 1 0 ⟨0, 0⟩ true 5]

/-- Two processes add to one set each under `SEM_UNDO`: one new entry each. -/
theorem set_calls_commute_twoSets :
    let a : SetCall := .tryopDetail (makeId 0 1) [⟨0, 2, 0o10000⟩] 1101
    let b : SetCall := .tryopDetail (makeId 1 1) [⟨0, 3, 0o10000⟩] 1102
    (b.perform 8 (a.perform 7 (create.run twoSets)).2).2.undoEntries.activeEntries =
      (a.perform 8 (b.perform 7 (create.run twoSets)).2).2.undoEntries.activeEntries := by
  intro a b
  have hi : (create.run twoSets).findSet a.semid = some ⟨0, by decide⟩ := by decide +kernel
  have hj : (create.run twoSets).findSet b.semid = some ⟨1, by decide⟩ := by decide +kernel
  exact (set_calls_commute twoSets a b (by decide) hi hj (by decide +kernel) 7 7 8 8).2.2.2

end SemStore

end Tgcompat
