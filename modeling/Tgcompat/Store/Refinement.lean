import Tgcompat.Library.Semaphore
import Tgcompat.Library.Simulation
import Tgcompat.Store.Arithmetic
import Tgcompat.Store.Generations
import Tgcompat.Store.ProcessExit

/-!
# The store is a system of semaphores with undo

Two tables of fixed size, identifiers with generations and loops over undo entries are how
`sem_store.c` keeps semaphores. What it keeps is a value for each semaphore of a set that exists,
and for each process what its exit will add. Every call of the store is one step of that abstract
system, or leaves it alone.
-/

namespace Tgcompat

/-- The working copy is the old values, each with the sum of its amounts. -/
lemma Tracks.map_getElem? {values working : List ℕ} {operations : List SemOp}
    (h : Tracks values operations working) (s : ℕ) :
    (working[s]?).map Int.ofNat =
      ((values[s]?).map Int.ofNat).map (· + amountOn operations s) := by
  have hlength := h.length
  by_cases hs : s < values.length
  · have hs' : s < working.length := by omega
    have hrunning := h.running s
    rw [runningValue, List.getD_eq_getElem?_getD, List.getD_eq_getElem?_getD,
      List.getElem?_eq_getElem hs, List.getElem?_eq_getElem hs'] at hrunning
    rw [List.getElem?_eq_getElem hs, List.getElem?_eq_getElem hs']
    exact congrArg some hrunning
  · rw [List.getElem?_eq_none (by omega), List.getElem?_eq_none (by omega)]
    rfl

namespace SemStore

/-- The semaphores of a store: a semaphore is a set and a position in it. -/
def semaphores (st : SemStore) : Semaphore.State (Int32 × ℕ) Int32 where
  value x := (st.findSet x.1).bind fun i => ((st.sets i).values[x.2]?).map Int.ofNat
  undo p x := st.undoEntries.adjustmentOf p x.1 x.2

/-- The step that a call makes, if it makes one. -/
def act (st : SemStore) (op : StoreOp) : Option (Semaphore.Act (Int32 × ℕ) Int32) :=
  let result := (st.perform op).1
  match op with
  | .getAs _ nsems _ _ _ _ =>
    if result < 0 ∨ (st.findSet result).isSome = true then none
    else some (.create {x | x.1 = result ∧ x.2 < nsems.toInt.toNat})
  | .remove semid => if result = 0 then some (.destroy {x | x.1 = semid}) else none
  | .setval semid semnum value _ _ =>
    if result = 0 then
      some (.assign fun x =>
        if x.1 = semid then if x.2 = semnum then some (value.toNat : ℤ) else none else none)
    else none
  | .setall semid values _ _ =>
    if result = 0 then
      some (.assign fun x =>
        if x.1 = semid then (values[x.2]?).map fun value => (value.toNat : ℤ) else none)
    else none
  | .tryopDetail semid operations pid _ =>
    if result = 0 then
      some (.operate pid (fun x => if x.1 = semid then amountOn operations x.2 else 0)
        fun x => if x.1 = semid then undoAmount operations x.2 else 0)
    else none
  | .processExit pid _ => if 0 < pid then some (.exit pid) else none
  | .setMetadata _ _ _ _ _ _ | .adjustWaitCount _ _ _ _ => none

variable {st st' : SemStore} {semid id : Int32} {s : ℕ} {i : Fin semMaxSets} {set : SemSet}

/-! ### Values -/

@[simp] lemma semaphores_undo (st : SemStore) (p id : Int32) (s : ℕ) :
    st.semaphores.undo p (id, s) = st.undoEntries.adjustmentOf p id s := rfl

lemma value_of_findSet (h : st.findSet id = some i) (s : ℕ) :
    st.semaphores.value (id, s) = ((st.sets i).values[s]?).map Int.ofNat := by
  simp [semaphores, h]

lemma value_of_none (h : st.findSet id = none) (s : ℕ) : st.semaphores.value (id, s) = none := by
  simp [semaphores, h]

lemma Inv.findSet_elsewhere (h : st.Inv) (h' : st'.Inv)
    (hsame : ∀ j, j ≠ i → st'.sets j = st.sets j) {j : Fin semMaxSets} (hj : j ≠ i) :
    st'.findSet id = some j ↔ st.findSet id = some j := by
  rw [h'.findSet_iff, h.findSet_iff, idOf, idOf, hsame j hj]

/-- A change of one slot does not show under ids that resolve to other slots. -/
lemma Inv.value_elsewhere (h : st.Inv) (h' : st'.Inv) (hsame : ∀ j, j ≠ i → st'.sets j = st.sets j)
    (hst : st.findSet id ≠ some i) (hst' : st'.findSet id ≠ some i) (s : ℕ) :
    st'.semaphores.value (id, s) = st.semaphores.value (id, s) := by
  cases hf : st.findSet id with
  | some j =>
    have hj : j ≠ i := fun heq => hst (heq ▸ hf)
    rw [value_of_findSet hf, value_of_findSet ((h.findSet_elsewhere h' hsame hj).mpr hf),
      hsame j hj]
  | none =>
    cases hf' : st'.findSet id with
    | some j =>
      have hj : j ≠ i := fun heq => hst' (heq ▸ hf')
      rw [(h.findSet_elsewhere h' hsame hj).mp hf'] at hf
      cases hf
    | none => rw [value_of_none hf, value_of_none hf']

/-- The values of a set that is rewritten in place. -/
lemma Inv.value_rewrite (h : st.Inv) (hf : st.findSet semid = some i)
    (hframe : (st.sets i).SameFrame set) (hsets : st'.sets = Function.update st.sets i set)
    (id : Int32) (s : ℕ) :
    st'.semaphores.value (id, s) =
      if id = semid then (set.values[s]?).map Int.ofNat else st.semaphores.value (id, s) := by
  have hfind := (sameFrames_of_write hsets hframe).findSet
  split_ifs with hid
  · subst hid
    rw [value_of_findSet ((hfind id).trans hf), hsets, Function.update_self]
  · cases hf' : st.findSet id with
    | none => rw [value_of_none hf', value_of_none ((hfind id).trans hf')]
    | some j =>
      have hj : j ≠ i := by
        rintro rfl
        exact hid ((h.findSet_iff.mp hf').2.trans (h.findSet_iff.mp hf).2.symm)
      rw [value_of_findSet hf', value_of_findSet ((hfind id).trans hf'), hsets,
        Function.update_of_ne hj]

lemma Inv.value_ne_none (h : st.Inv) (hf : st.findSet id = some i) :
    st.semaphores.value (id, s) ≠ none ↔ s < (st.sets i).nsems := by
  rw [value_of_findSet hf, ← (h.valid_of_findSet hf).values_length]
  simp

lemma Inv.value_range (h : st.Inv) {v : ℤ} (hv : st.semaphores.value (id, s) = some v) :
    0 ≤ v ∧ v ≤ semMaxValue := by
  cases hf : st.findSet id with
  | none =>
    rw [value_of_none hf] at hv
    cases hv
  | some i =>
    rw [value_of_findSet hf] at hv
    obtain ⟨n, hn, rfl⟩ := Option.map_eq_some_iff.mp hv
    have hle := (h.valid_of_findSet hf).values_le n (List.mem_of_getElem? hn)
    exact ⟨Int.natCast_nonneg n, Int.ofNat_le.mpr hle⟩

lemma Inv.ledger_beyond (h : st.Inv) (hf : st.findSet id = some i) (hs : (st.sets i).nsems ≤ s)
    {p : Int32} : st.undoEntries.adjustmentOf p id s = 0 := by
  by_contra hne
  obtain ⟨⟨j, hj, hlt⟩, -⟩ := h.ledger hne
  cases hf.symm.trans hj
  omega

/-! ### The calls, one by one -/

/-- The call does to the semaphores what its label says. -/
def Refines (st : SemStore) (op : StoreOp) : Prop :=
  Simulation.Matches (Semaphore.Step (semMaxValue : ℤ)) semaphores next act st op

lemma refines_of_none {op : StoreOp} (hact : st.act op = none)
    (hsame : (st.next op).semaphores = st.semaphores) : st.Refines op := by
  rw [Refines, Simulation.Matches, hact]
  exact hsame

lemma refines_of_some {op : StoreOp} {act : Semaphore.Act (Int32 × ℕ) Int32}
    (hact : st.act op = some act)
    (hstep : Semaphore.Step (semMaxValue : ℤ) st.semaphores act (st.next op).semaphores) :
    st.Refines op := by
  rw [Refines, Simulation.Matches, hact]
  exact hstep

/-- Most calls make their step when they return zero. -/
lemma refines_of_result {op : StoreOp} {act : Semaphore.Act (Int32 × ℕ) Int32}
    (hact : st.act op = if (st.perform op).1 = 0 then some act else none)
    (h : (st.perform op).1 ≠ 0 ∧ st.next op = st ∨ (st.perform op).1 = 0 ∧
      Semaphore.Step (semMaxValue : ℤ) st.semaphores act (st.next op).semaphores) :
    st.Refines op := by
  rcases h with ⟨hne, hnext⟩ | ⟨hzero, hstep⟩
  · exact refines_of_none (hact.trans (if_neg hne)) (congrArg semaphores hnext)
  · exact refines_of_some (hact.trans (if_pos hzero)) hstep

/-- A set in a slot that was free has an id that nothing resolves, and its semaphores are zero. -/
lemma Inv.step_create (h : st.Inv) {key nsems flags : Int32} {identity : SemIdentity} {now : Int64}
    (hc : st.Creates key nsems i)
    (hset : set = freshSet (st.sets i) key nsems flags identity now)
    (hid : semid = makeId i set.generation) :
    0 < semid ∧ st.findSet semid = none ∧
      Semaphore.Step (semMaxValue : ℤ) st.semaphores
        (.create {x | x.1 = semid ∧ x.2 < nsems.toInt.toNat}) (st.writeSet i set).semaphores := by
  have h' : (st.writeSet i set).Inv := hset ▸ h.create hc
  have hvalues : set.values = List.replicate nsems.toInt.toNat 0 := by
    rw [hset]
    rfl
  have hself : semid = (st.writeSet i set).idOf i := by
    rw [idOf, writeSet_sets_self, hid]
  have hfound' : (st.writeSet i set).findSet semid = some i := by
    refine h'.findSet_iff.mpr ⟨?_, hself⟩
    rw [writeSet_sets_self, hset]
    rfl
  have hg : GenerationOk set.generation := by
    have hvalid := h'.valid_of_findSet hfound'
    rw [writeSet_sets_self] at hvalid
    exact hvalid.generation
  have hfree : ∀ id, st.findSet id ≠ some i := by
    intro id hf
    have hactive := (h.findSet_iff.mp hf).1
    rw [hc.free] at hactive
    cases hactive
  have hnone : st.findSet semid = none := by
    by_contra hne
    rw [hid] at hne
    have hactive := ((findSet_makeId hg).mp hne).1
    rw [hc.free] at hactive
    cases hactive
  have hnew : ∀ s, (st.writeSet i set).semaphores.value (semid, s) =
      if s < nsems.toInt.toNat then some 0 else none := by
    intro s
    rw [value_of_findSet hfound', writeSet_sets_self, hvalues, List.getElem?_replicate]
    split_ifs <;> rfl
  refine ⟨hid ▸ makeId_pos i.isLt hg.2, hnone, .create ?_ ?_ ?_⟩
  · rintro ⟨id, s⟩ ⟨rfl, -⟩
    exact value_of_none hnone s
  · rintro ⟨id, s⟩ ⟨rfl, hs⟩
    exact ⟨(hnew s).trans (if_pos hs), fun p => h.ledger_eq_zero hnone p s⟩
  · rintro ⟨id, s⟩ hx
    refine ⟨?_, fun p => rfl⟩
    by_cases heq : id = semid
    · subst heq
      rw [hnew, value_of_none hnone, if_neg fun hs => hx ⟨rfl, hs⟩]
    · refine h.value_elsewhere h' (fun j hj => writeSet_sets_of_ne _ hj _) (hfree id) ?_ s
      intro hf
      exact heq ((h'.findSet_iff.mp hf).2.trans hself.symm)

lemma Inv.refines_getAs (h : st.Inv) {key nsems flags : Int32} {identity : SemIdentity}
    {allocated : Bool} {now : Int64} :
    st.Refines (.getAs key nsems flags identity allocated now) := by
  rcases st.getAs_cases key nsems flags identity allocated now with ⟨hneg, heq⟩ | ⟨i, ha, heq⟩ |
    ⟨i, hc, heq⟩
  · refine refines_of_none ?_ (by rw [SemStore.next, perform, heq])
    simp only [act, perform]
    exact if_pos (Or.inl hneg)
  · refine refines_of_none ?_ (by rw [SemStore.next, perform, heq])
    simp only [act, perform, heq]
    exact if_pos (Or.inr (by rw [h.findSet_idOf ha, Option.isSome_some]))
  · generalize hset : freshSet (st.sets i) key nsems flags identity now = set at heq
    generalize hid : makeId i set.generation = semid at heq
    obtain ⟨hpos, hnone, hstep⟩ := h.step_create hc hset.symm hid.symm
    have hnext : st.next (.getAs key nsems flags identity allocated now) = st.writeSet i set := by
      rw [SemStore.next, perform, heq]
    refine refines_of_some ?_ (hnext ▸ hstep)
    simp only [act, perform, heq, hnone]
    refine if_neg ?_
    rintro (hneg | hsome)
    · exact Int32.lt_irrefl (Int32.lt_trans hpos hneg)
    · cases hsome

lemma Inv.refines_remove (h : st.Inv) : st.Refines (.remove semid) := by
  refine refines_of_result rfl ?_
  rcases st.remove_cases semid with ⟨-, heq⟩ | ⟨i, hf, heq⟩
  · rw [SemStore.next, perform, heq]
    exact Or.inl ⟨Int32.ne_of_lt (by decide : (-EINVAL : Int32) < 0), rfl⟩
  · have h' := h.next (.remove semid)
    have hsets : (st.next (.remove semid)).sets =
        Function.update st.sets i (removedSet (st.sets i)) := by
      rw [SemStore.next, perform, heq]
      rfl
    have hundo : ∀ p id s, (st.next (.remove semid)).undoEntries.adjustmentOf p id s =
        if id = semid then 0 else st.undoEntries.adjustmentOf p id s := by
      intro p id s
      rw [SemStore.next, perform, heq]
      simp only [h.undo.adjustmentOf_clear, true_or, and_true]
    have hsame : ∀ j, j ≠ i → (st.next (.remove semid)).sets j = st.sets j := by
      intro j hj
      rw [hsets, Function.update_of_ne hj]
    have hfree : ∀ id, (st.next (.remove semid)).findSet id ≠ some i := by
      intro id hf'
      have hactive := (h'.findSet_iff.mp hf').1
      rw [hsets, Function.update_self] at hactive
      cases hactive
    have hnone : (st.next (.remove semid)).findSet semid = none := by
      by_contra hne
      obtain ⟨j, hj⟩ := Option.ne_none_iff_exists'.mp hne
      have hji : j ≠ i := fun heq => hfree semid (heq ▸ hj)
      rw [h.findSet_elsewhere h' hsame hji, hf, Option.some.injEq] at hj
      exact hji hj.symm
    refine Or.inr ⟨by rw [perform, heq], .destroy ?_ ?_⟩
    · rintro ⟨id, s⟩ rfl
      exact ⟨value_of_none hnone s, fun p => (hundo p id s).trans (if_pos rfl)⟩
    · rintro ⟨id, s⟩ hx
      have hne : id ≠ semid := hx
      refine ⟨h.value_elsewhere h' hsame ?_ (hfree id) s, fun p => ?_⟩
      · intro hf'
        exact hne ((h.findSet_iff.mp hf').2.trans (h.findSet_iff.mp hf).2.symm)
      · rw [semaphores_undo, hundo, if_neg hne, semaphores_undo]

/-- Values that are written in place, with the adjustments of their semaphores cleared. -/
lemma Inv.step_assign (h : st.Inv) (values : ℕ → Option ℤ) (hf : st.findSet semid = some i)
    (hframe : (st.sets i).SameFrame set) (hsets : st'.sets = Function.update st.sets i set)
    (hrange : ∀ s v, values s = some v → s < (st.sets i).nsems ∧ 0 ≤ v ∧ v ≤ semMaxValue)
    (hvalues : ∀ s, (set.values[s]?).map Int.ofNat =
      (values s).or (((st.sets i).values[s]?).map Int.ofNat))
    (hundo : ∀ p id s, st'.undoEntries.adjustmentOf p id s =
      if id = semid ∧ (values s).isSome = true then 0 else st.undoEntries.adjustmentOf p id s) :
    Semaphore.Step (semMaxValue : ℤ) st.semaphores
      (.assign fun x => if x.1 = semid then values x.2 else none) st'.semaphores := by
  have hnext := h.value_rewrite hf hframe hsets
  have hsome : ∀ id s v, (if id = semid then values s else none) = some v →
      id = semid ∧ values s = some v :=
    fun id s v hv => Option.ite_none_right_eq_some.mp hv
  refine .assign ?_ ?_ ?_
  · rintro ⟨id, s⟩ v hv
    obtain ⟨rfl, hvalue⟩ := hsome id s v hv
    obtain ⟨hlt, hrange⟩ := hrange s v hvalue
    exact ⟨(h.value_ne_none hf).mpr hlt, hrange⟩
  · rintro ⟨id, s⟩ v hv
    obtain ⟨rfl, hvalue⟩ := hsome id s v hv
    refine ⟨?_, fun p => ?_⟩
    · rw [hnext, if_pos rfl, hvalues, hvalue, Option.some_or]
    · rw [semaphores_undo, hundo, if_pos ⟨rfl, hvalue ▸ rfl⟩]
  · rintro ⟨id, s⟩ hv
    have hkept : id = semid → values s = none := fun hid => (if_pos hid).symm.trans hv
    refine ⟨?_, fun p => ?_⟩
    · rw [hnext]
      split_ifs with hid
      · rw [hvalues, hkept hid, Option.none_or, hid, value_of_findSet hf]
      · rfl
    · rw [semaphores_undo, hundo, if_neg, semaphores_undo]
      rintro ⟨hid, hsome⟩
      rw [hkept hid] at hsome
      cases hsome

lemma Inv.refines_setval (h : st.Inv) {semnum : ℕ} {value : UInt32} {pid : Int32} {now : Int64} :
    st.Refines (.setval semid semnum value pid now) := by
  refine refines_of_result rfl ?_
  rcases st.setval_cases semid semnum value pid now with ⟨hneg, heq⟩ | ⟨i, hf, hlt, hle, heq⟩
  · exact Or.inl ⟨Int32.ne_of_lt hneg, heq⟩
  · have hmod : value.toNat % 2 ^ 16 = value.toNat :=
      Nat.mod_eq_of_lt (lt_of_le_of_lt hle (by decide))
    have hlength := (h.valid_of_findSet hf).values_length
    have hframe : (st.sets i).SameFrame (valueSet (st.sets i) semnum value pid now) :=
      ⟨rfl, rfl, rfl, rfl⟩
    rw [SemStore.next, perform, heq]
    refine Or.inr ⟨rfl, h.step_assign (fun s => if s = semnum then some (value.toNat : ℤ) else none)
      hf hframe rfl ?_ ?_ ?_⟩
    · intro s v hv
      obtain ⟨hs, heq⟩ := Option.ite_none_right_eq_some.mp hv
      cases heq
      exact ⟨hs ▸ hlt, Int.natCast_nonneg _, Int.ofNat_le.mpr hle⟩
    · intro s
      rw [valueSet, hmod, List.getElem?_set]
      by_cases hs : semnum = s
      · subst hs
        rw [if_pos rfl, if_pos (hlength ▸ hlt), if_pos rfl]
        rfl
      · rw [if_neg hs, if_neg (Ne.symm hs), Option.none_or]
    · intro p id s
      simp only [h.undo.adjustmentOf_clear, Bool.false_eq_true, false_or]
      refine if_congr (and_congr_right' ?_) rfl rfl
      split_ifs with hs <;> simp [hs]

lemma Inv.refines_setall (h : st.Inv) {values : List UInt16} {pid : Int32} {now : Int64} :
    st.Refines (.setall semid values pid now) := by
  refine refines_of_result rfl ?_
  rcases st.setall_cases semid values pid now with ⟨hneg, heq⟩ | ⟨i, hf, hlen, hle, heq⟩
  · exact Or.inl ⟨Int32.ne_of_lt hneg, heq⟩
  · have hlength := (h.valid_of_findSet hf).values_length
    have hsome : ∀ s, ((values[s]?).map fun value => (value.toNat : ℤ)).isSome = true ↔
        s < (st.sets i).nsems := by
      intro s
      rw [← hlen]
      simp
    have hframe : (st.sets i).SameFrame (valuesSet (st.sets i) values pid now) :=
      ⟨rfl, rfl, rfl, rfl⟩
    rw [SemStore.next, perform, heq]
    refine Or.inr ⟨rfl, h.step_assign (fun s => (values[s]?).map fun value => (value.toNat : ℤ))
      hf hframe rfl ?_ ?_ ?_⟩
    · intro s v hv
      obtain ⟨value, hvalue, rfl⟩ := Option.map_eq_some_iff.mp hv
      have hlt := (List.getElem?_eq_some_iff.mp hvalue).1
      exact ⟨hlen ▸ hlt, Int.natCast_nonneg _,
        Int.ofNat_le.mpr (hle value (List.mem_of_getElem? hvalue))⟩
    · intro s
      rw [valuesSet, List.getElem?_map, Option.map_map]
      by_cases hs : s < (st.sets i).nsems
      · obtain ⟨v, hv⟩ := Option.isSome_iff_exists.mp ((hsome s).mpr hs)
        rw [hv, Option.some_or, ← hv]
        rfl
      · rw [List.getElem?_eq_none (hlen ▸ not_lt.mp hs),
          List.getElem?_eq_none (hlength ▸ not_lt.mp hs)]
        rfl
    · intro p id s
      simp only [h.undo.adjustmentOf_clear, true_or, and_true, hsome]
      by_cases hid : id = semid
      · -- beyond the set there is nothing to clear
        subst hid
        rw [if_pos rfl]
        split_ifs with hs
        · rfl
        · exact (h.ledger_beyond hf (not_lt.mp fun hlt => hs ⟨rfl, hlt⟩)).symm
      · rw [if_neg hid, if_neg fun hc => hid hc.1]

/-- An operation list that commits adds its sums, and takes what is flagged from the ledger. -/
lemma Inv.step_operate (h : st.Inv) {operations : List SemOp} {pid : Int32} {now : Int64}
    {plan : TryopPlan} {t : UndoTable} (hplan : st.Planned semid operations pid plan)
    (hadded : st.undoEntries.AddedTo pid semid plan.deltas
      (List.range (st.sets plan.index).nsems) t)
    (h' : (st.committedStore operations pid now plan t).Inv) :
    Semaphore.Step (semMaxValue : ℤ) st.semaphores
      (.operate pid (fun x => if x.1 = semid then amountOn operations x.2 else 0)
        fun x => if x.1 = semid then undoAmount operations x.2 else 0)
      (st.committedStore operations pid now plan t).semaphores := by
  have hvalid := h.valid_of_findSet hplan.found
  have hlt : ∀ op ∈ operations, op.semNum.toNat < (st.sets plan.index).nsems :=
    fun op hop => SemOp.lt_of_accepted (hplan.accepted op hop)
  have htracks : Tracks (st.sets plan.index).values operations plan.working :=
    evaluate_tracks hvalid.values_le (hvalid.values_length ▸ hlt) hplan.evaluated
  have hbeyond : ∀ s, (st.sets plan.index).nsems ≤ s → undoAmount operations s = 0 :=
    fun s hs => undoAmount_eq_zero fun op hop heq => absurd (hlt op hop) (by omega)
  have hframe : (st.sets plan.index).SameFrame
      { committedSet (st.sets plan.index) plan operations pid with otime := now } :=
    ⟨rfl, rfl, rfl, rfl⟩
  have hvalue : ∀ id s, (st.committedStore operations pid now plan t).semaphores.value (id, s) =
      (st.semaphores.value (id, s)).map
        (· + if id = semid then amountOn operations s else 0) := by
    intro id s
    rw [h.value_rewrite hplan.found hframe rfl]
    split_ifs with hid
    · rw [hid, value_of_findSet hplan.found]
      exact htracks.map_getElem? s
    · simp
  refine .operate ?_ ?_ ?_ ?_
  · rintro ⟨id, s⟩ hx
    refine ite_eq_right_iff.mpr fun hid => hbeyond s ?_
    have hid' : id = semid := hid
    subst hid'
    by_contra hs
    exact (h.value_ne_none hplan.found).mpr (not_le.mp hs) hx
  · rintro ⟨id, s⟩ v hv
    have hnew := hvalue id s
    rw [hv, Option.map_some] at hnew
    exact h'.value_range hnew
  · rintro ⟨id, s⟩
    exact hvalue id s
  · rintro p ⟨id, s⟩
    have hledger : (st.committedStore operations pid now plan t).undoEntries.adjustmentOf p id s =
        st.undoEntries.adjustmentOf p id s + _ := hadded p id s
    rw [semaphores_undo, hledger, accumulate_ok hplan.accumulated, semaphores_undo]
    by_cases hp : p = pid
    · by_cases hid : id = semid
      · by_cases hs : s < (st.sets plan.index).nsems
        · simp [hp, hid, hs, sub_eq_add_neg]
        · simp [hp, hid, hs, hbeyond s (not_lt.mp hs)]
      · simp [hp, hid]
    · simp [hp]

lemma Inv.refines_tryopDetail (h : st.Inv) {operations : List SemOp} {pid : Int32} {now : Int64} :
    st.Refines (.tryopDetail semid operations pid now) := by
  refine refines_of_result rfl ?_
  rcases h.tryopDetail_cases semid operations pid now with ⟨r, herr, heq⟩ | ⟨plan, t, hplan, -,
    hadded, heq⟩
  · rw [SemStore.next, perform, heq]
    exact Or.inl ⟨planTryop_error_ne_zero herr, rfl⟩
  · have h' := h.tryopDetail semid operations pid now
    rw [heq] at h'
    rw [SemStore.next, perform, heq]
    exact Or.inr ⟨rfl, h.step_operate hplan hadded h'⟩

lemma Inv.refines_processExit (h : st.Inv) {pid : Int32} {now : Fin semMaxUndoEntries → Int64} :
    st.Refines (.processExit pid now) := by
  by_cases hpid : 0 < pid
  · have hrestores := h.processExit_restores hpid now
    have hfind := hrestores.sameFrames.findSet
    refine refines_of_some (if_pos hpid) (.exit ?_ ?_)
    · rintro ⟨id, s⟩
      cases hf : st.findSet id with
      | none =>
        rw [value_of_none hf, SemStore.next, perform, value_of_none ((hfind id).trans hf)]
        rfl
      | some i =>
        obtain ⟨hactive, hid⟩ := h.findSet_iff.mp hf
        rw [value_of_findSet hf, SemStore.next, perform,
          value_of_findSet ((hfind id).trans hf), hrestores.values i s hactive,
          processExit_ledger h hpid, if_pos rfl, sub_zero, Option.map_map, Option.map_map, ← hid]
        refine congrArg (fun f => Option.map f _) (funext fun value => ?_)
        simp only [Function.comp, restoredValue_eq_clamp, semaphores_undo]
        exact Int.toNat_of_nonneg (le_max_left _ _)
    · rintro p ⟨id, s⟩
      exact processExit_ledger h hpid now p id s
  · refine refines_of_none (if_neg hpid) ?_
    rw [SemStore.next, perform, SemStore.processExit, if_pos (Int32.not_lt.mp hpid)]

/-- A set that is written in place with its values as they were does not show. -/
lemma Inv.semaphores_rewrite (h : st.Inv) (hf : st.findSet semid = some i)
    (hframe : (st.sets i).SameFrame set) (hvalues : set.values = (st.sets i).values) :
    (st.writeSet i set).semaphores = st.semaphores := by
  refine Semaphore.State.ext (funext fun x => ?_) rfl
  obtain ⟨id, s⟩ := x
  rw [h.value_rewrite hf hframe rfl]
  split_ifs with hid
  · rw [hid, hvalues, value_of_findSet hf]
  · rfl

/-- Every call of the store, from a state that keeps the invariant, is a step of the abstract
semaphores or leaves them alone. -/
theorem Inv.refines (h : st.Inv) (op : StoreOp) : st.Refines op := by
  cases op with
  | getAs key nsems flags identity allocated now => exact h.refines_getAs
  | remove semid => exact h.refines_remove
  | setval semid semnum value pid now => exact h.refines_setval
  | setall semid values pid now => exact h.refines_setall
  | setMetadata semid uid gid mode actor now =>
    refine refines_of_none rfl ?_
    rw [SemStore.next, perform]
    rcases st.setMetadata_cases semid uid gid mode actor now with ⟨-, heq⟩ | ⟨i, hf, -, -, -, heq⟩
    · rw [heq]
    · rw [heq]
      exact h.semaphores_rewrite hf ⟨rfl, rfl, rfl, rfl⟩ rfl
  | adjustWaitCount semid semnum waitForZero adjustment =>
    refine refines_of_none rfl ?_
    rw [SemStore.next, perform]
    rcases st.adjustWaitCount_cases semid semnum waitForZero adjustment with ⟨-, heq⟩ |
      ⟨i, hf, -, -, heq⟩
    · rw [heq]
    · rw [heq]
      refine h.semaphores_rewrite hf (sameFrame_countedSet _ _ _ _) ?_
      cases waitForZero <;> rfl
  | tryopDetail semid operations pid now => exact h.refines_tryopDetail
  | processExit pid now => exact h.refines_processExit

/-! ### Whole runs -/

/-- The value that `GETVAL` reads is the one of the semaphore. -/
lemma Inv.getval_eq (h : st.Inv) (id : Int32) (s : ℕ) :
    st.getval id s = (st.semaphores.value (id, s)).elim (-EINVAL) fun v => Int32.ofInt v := by
  rw [getval, readSem]
  cases hf : st.findSet id with
  | none => rw [value_of_none hf, Option.elim_none]
  | some i =>
    have hlength := (h.valid_of_findSet hf).values_length
    rw [value_of_findSet hf]
    simp only [List.getD_eq_getElem?_getD]
    split_ifs with hs
    · rw [List.getElem?_eq_none (hlength ▸ hs)]
      rfl
    · rw [List.getElem?_eq_getElem (hlength ▸ not_le.mp hs)]
      rfl

lemma semaphores_create : create.semaphores = ⟨fun _ => none, fun _ _ => 0⟩ := by
  have hnone : ∀ id, create.findSet id = none := by
    intro id
    by_contra hne
    obtain ⟨i, hi⟩ := Option.ne_none_iff_exists'.mp hne
    exact Bool.false_ne_true (active_of_findSet hi)
  refine Semaphore.State.ext ?_ ?_
  · funext x
    exact value_of_none (hnone x.1) x.2
  · funext p x
    exact (inv_run []).ledger_eq_zero (hnone x.1) p x.2

lemma run_semaphores (ops : List StoreOp) :
    Simulation.Run (Semaphore.Step (semMaxValue : ℤ)) create.semaphores
      (Simulation.labels next act create ops) (create.run ops).semaphores := by
  refine Simulation.run_of_matches fun p hp => ?_
  have hinv : p.1.Inv :=
    Transition.history_invariant (I := Inv) (fun st op h => h.next op) (inv_run []) hp
  exact hinv.refines p.2

/-- The invariant of semaphores, by way of the abstract run. -/
lemma ok_run (ops : List StoreOp) :
    Semaphore.Ok (semMaxValue : ℤ) (create.run ops).semaphores := by
  refine (run_semaphores ops).invariant (I := Semaphore.Ok (semMaxValue : ℤ)) ?_ ?_
  · intro s act s' hs hstep
    exact hstep.ok (by decide) hs
  · rw [semaphores_create]
    exact Semaphore.ok_empty _

/-- From the empty store, the calls of a run that take effect are, one for one, the steps of a run
of the abstract semaphores. So values stay between zero and `SEMVMX`, and nothing is owed to a
semaphore that does not exist. What `GETVAL` reads is the value, or the error for a semaphore that
does not exist. -/
theorem store_refines_semaphores (ops : List StoreOp) :
    create.semaphores = ⟨fun _ => none, fun _ _ => 0⟩ ∧
      Simulation.Run (Semaphore.Step (semMaxValue : ℤ)) create.semaphores
        (Simulation.labels next act create ops) (create.run ops).semaphores ∧
      Semaphore.Ok (semMaxValue : ℤ) (create.run ops).semaphores ∧
      ∀ id s, (create.run ops).getval id s =
        ((create.run ops).semaphores.value (id, s)).elim (-EINVAL) fun v => Int32.ofInt v :=
  ⟨semaphores_create, run_semaphores ops, ok_run ops, (inv_run ops).getval_eq⟩

end SemStore

end Tgcompat
