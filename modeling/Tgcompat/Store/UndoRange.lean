import Tgcompat.Store.Arithmetic

/-!
# The range of the undo adjustments

Linux adds the operations flagged `SEM_UNDO` to the adjustment on record one by one, and refuses
the request when an adjustment leaves its range after any of them. `tgc_sem_store_tryop_detail`
adds the request up on its own first, and looks at the adjustment on record only at the end. The
two rules differ when an adjustment leaves its range and comes back.
-/

namespace Tgcompat

variable {operations : List SemOp} {recorded deltas : ℕ → ℤ}

/-- The adjustments on record stay in range after every operation: the rule of Linux. -/
def RunningInRange (recorded : ℕ → ℤ) (operations : List SemOp) : Prop :=
  ∀ pre, pre <+: operations → ∀ s, undoInRange (recorded s - undoAmount pre s)

/-- The adjustments on record are in range at the end. -/
def TotalInRange (recorded : ℕ → ℤ) (operations : List SemOp) : Prop :=
  ∀ s, undoInRange (recorded s - undoAmount operations s)

lemma RunningInRange.total (h : RunningInRange recorded operations) :
    TotalInRange recorded operations :=
  h operations (List.prefix_refl operations)

/-- An adjustment on record plays no part where the operations flag nothing. -/
lemma runningInRange_iff_of_unrecorded (hrange : ∀ s, undoInRange (recorded s))
    (hnone : ∀ op ∈ operations, op.hasFlag semUndo = true → recorded op.semNum.toNat = 0) :
    RunningInRange recorded operations ↔ RunningInRange (fun _ => 0) operations := by
  refine forall₂_congr fun pre hpre => forall_congr' fun s => ?_
  by_cases hamount : undoAmount pre s = 0
  · rw [hamount, sub_zero, sub_zero]
    exact iff_of_true (hrange s) (by decide : undoInRange 0)
  · obtain ⟨op, hop, hflag, rfl⟩ := exists_flag_of_undoAmount hamount
    rw [hnone op (hpre.subset hop) hflag]

lemma undoAmount_concat (operations : List SemOp) (op : SemOp) (s : ℕ) :
    undoAmount (operations ++ [op]) s = undoAmount operations s +
      if op.hasFlag semUndo = true ∧ op.semNum.toNat = s then op.semOp.toInt else 0 := by
  by_cases h : op.hasFlag semUndo = true ∧ op.semNum.toNat = s
  · simp [undoAmount, List.filter_append, h]
  · rw [if_neg h]
    simp [undoAmount, List.filter_append, h]

/-- The undo loop that reaches its end kept the request alone in range. -/
lemma accumulate_inRange (h : operations.foldlM accumulateUndo (fun _ => 0) = .ok deltas) :
    RunningInRange (fun _ => 0) operations := by
  refine (Fold.foldlM_ok (I := fun pre (d : ℕ → ℤ) => (∀ s, d s = -undoAmount pre s) ∧
    RunningInRange (fun _ => 0) pre) ?_ ?_ h).2
  · refine ⟨by simp [undoAmount], fun pre hpre s => ?_⟩
    rw [List.prefix_nil.mp hpre]
    exact (by decide : undoInRange 0)
  · rintro done op d d' - ⟨hd, hrange⟩ hstep
    obtain ⟨deltas', hdeltas', heq⟩ := accumulateUndo_step hd op
    rw [heq] at hstep
    split_ifs at hstep with hop
    cases hstep
    refine ⟨hdeltas', fun pre hpre s => ?_⟩
    rcases List.prefix_concat_iff.mp hpre with rfl | hpre
    · by_cases hs : op.hasFlag semUndo = true ∧ op.semNum.toNat = s
      · rw [zero_sub, ← hdeltas', ← hs.2]
        exact hop hs.1
      · rw [undoAmount_concat, if_neg hs, add_zero]
        exact hrange done (List.prefix_refl done) s
    · exact hrange pre hpre s

namespace SemStore

variable {st : SemStore} {semid pid : Int32} {i : Fin semMaxSets}

/-- The adjustments on record are in range. -/
lemma Inv.recorded_inRange (h : st.Inv) (pid semid : Int32) (s : ℕ) :
    undoInRange (st.undoEntries.adjustmentOf pid semid s) := by
  by_cases hz : st.undoEntries.adjustmentOf pid semid s = 0
  · rw [hz]
    decide
  · exact (h.ledger hz).2

/-- A planned request is in range on its own, and so are the adjustments it leaves. -/
lemma Inv.planned_inRange (h : st.Inv) {plan : TryopPlan}
    (hplan : st.Planned semid operations pid plan) :
    RunningInRange (fun _ => 0) operations ∧
      TotalInRange (st.undoEntries.adjustmentOf pid semid) operations := by
  refine ⟨accumulate_inRange hplan.accumulated, fun s => ?_⟩
  have hdelta := accumulate_ok hplan.accumulated s
  by_cases hz : plan.deltas s = 0
  · rw [sub_eq_add_neg, ← hdelta, hz, add_zero]
    exact h.recorded_inRange pid semid s
  · have hs : s ∈ List.range (st.sets plan.index).nsems := by
      by_contra hs
      refine hz ?_
      rw [hdelta, undoAmount_eq_zero fun op hop heq => hs ?_, neg_zero]
      exact List.mem_range.mpr (heq ▸ SemOp.lt_of_accepted (hplan.accepted op hop))
    have hrange := hplan.delta_inRange (h.valid_of_findSet hplan.found).nsems_le hs hz
    rwa [add_comm, hdelta, ← sub_eq_add_neg] at hrange

/-- A request that passes the value checks is refused for the range of an adjustment only, as long
as the undo table has room. -/
lemma Inv.planTryop_error_range (h : st.Inv) (hfound : st.findSet semid = some i)
    (hne : operations ≠ []) (hacc : ∀ op ∈ operations, op.accepted (st.sets i).nsems = true)
    {working : List ℕ} (heval : operations.foldlM evaluateOp (st.sets i).values = .ok working)
    (hroom : (List.range (st.sets i).nsems).countP (fun s =>
      decide (undoAmount operations s ≠ 0) &&
        decide (st.undoEntries.adjustmentOf pid semid s = 0)) ≤ st.undoEntries.freeEntries)
    {r : Refusal} (hplan : st.planTryop semid operations pid = .error r) :
    r = refuse (-ERANGE) := by
  have hchecked := not_rejected hne hacc
  have hlt := UndoTable.lt_of_mem_range_nsems (h.valid_of_findSet hfound).nsems_le
  simp only [planTryop, hfound, if_neg hchecked] at hplan
  rcases Fold.bind_eq_error.mp hplan with hplan | ⟨working', -, hplan⟩
  · rw [heval] at hplan
    cases hplan
  rcases Fold.bind_eq_error.mp hplan with hplan | ⟨deltas, hdeltas, hplan⟩
  · obtain ⟨op, -, d, hop⟩ := Fold.foldlM_error hplan
    exact accumulateUndo_error hop
  rcases Fold.bind_eq_error.mp hplan with hplan | ⟨required, hrequired, hplan⟩
  · obtain ⟨s, -, n, hs⟩ := Fold.foldlM_error hplan
    exact UndoTable.reserveUndo_error hs
  -- the capacity check does not fail
  rw [(UndoTable.reserve_ok hlt hrequired).1, h.countP_needsEntry (accumulate_ok hdeltas),
    if_neg (not_lt.mpr hroom)] at hplan
  cases hplan

/-- What the code checks: the request alone along the way, the adjustments on record at the end. -/
lemma Inv.tryop_range (h : st.Inv) (hfound : st.findSet semid = some i)
    (hne : operations ≠ []) (hacc : ∀ op ∈ operations, op.accepted (st.sets i).nsems = true)
    (hpass : ∀ k op, ¬ RefusedAt (st.sets i).values operations k op)
    (hroom : (List.range (st.sets i).nsems).countP (fun s =>
      decide (undoAmount operations s ≠ 0) &&
        decide (st.undoEntries.adjustmentOf pid semid s = 0)) ≤ st.undoEntries.freeEntries)
    (now : Int64) :
    (RunningInRange (fun _ => 0) operations ∧
        TotalInRange (st.undoEntries.adjustmentOf pid semid) operations) ∧
        (st.tryopDetail semid operations pid now).1 = 0 ∨
      ¬ (RunningInRange (fun _ => 0) operations ∧
        TotalInRange (st.undoEntries.adjustmentOf pid semid) operations) ∧
        (st.tryopDetail semid operations pid now).1 = -ERANGE := by
  have hvalid := h.valid_of_findSet hfound
  obtain ⟨working, heval, -⟩ := evaluate_passing hvalid.values_le (fun op hop => by
    rw [hvalid.values_length]
    exact SemOp.lt_of_accepted (hacc op hop)) hpass
  rcases h.tryopDetail_cases semid operations pid now with ⟨r, hplan, heq⟩ |
    ⟨plan, t, hplan, -, -, heq⟩
  · refine Or.inr ⟨?_, ?_⟩
    · rintro ⟨hrequest, htotal⟩
      have hfits : UndoFits st semid operations pid (st.sets i).nsems := by
        refine ⟨fun pre hpre s => ?_, fun s _ _ => ?_, hroom⟩
        · rw [← zero_sub]
          exact hrequest pre hpre s
        · rw [add_comm, ← sub_eq_add_neg]
          exact htotal s
      obtain ⟨plan, hplanned, -⟩ := h.planned hfound hne hacc heval hfits
      rw [planTryop_ok.mpr hplanned] at hplan
      cases hplan
    · rw [heq, h.planTryop_error_range hfound hne hacc heval hroom hplan]
      rfl
  · exact Or.inl ⟨h.planned_inRange hplan, by rw [heq]⟩

/-- `tryop` on a reachable store, for operations that pass the value checks and find room in the
undo table, applies the rule of Linux exactly if the request alone stays in range whenever the
adjustments on record do, and the other way round; where the adjustments end out of range, both
refuse. -/
theorem undo_range_linux (calls : List StoreOp) {semid : Int32} {i : Fin semMaxSets}
    (hfound : (create.run calls).findSet semid = some i) {operations : List SemOp}
    (hne : operations ≠ [])
    (hacc : ∀ op ∈ operations, op.accepted ((create.run calls).sets i).nsems = true)
    (hpass : ∀ k op, ¬ RefusedAt ((create.run calls).sets i).values operations k op)
    (pid : Int32) (now : Int64)
    (hroom : (List.range ((create.run calls).sets i).nsems).countP (fun s =>
      decide (undoAmount operations s ≠ 0) &&
        decide ((create.run calls).undoEntries.adjustmentOf pid semid s = 0)) ≤
      (create.run calls).undoEntries.freeEntries) :
    let recorded := (create.run calls).undoEntries.adjustmentOf pid semid
    let result := ((create.run calls).tryopDetail semid operations pid now).1
    ((result = 0 ↔ RunningInRange recorded operations) ∧
        (¬ RunningInRange recorded operations → result = -ERANGE)) ↔
      (TotalInRange recorded operations →
        (RunningInRange (fun _ => 0) operations ↔ RunningInRange recorded operations)) := by
  intro recorded result
  rcases (inv_run calls).tryop_range hfound hne hacc hpass hroom now with
    ⟨⟨hrequest, htotal⟩, hresult⟩ | ⟨hout, hresult⟩
  · have hzero : result = 0 := hresult
    constructor
    · rintro ⟨hiff, -⟩ -
      exact iff_of_true hrequest (hiff.mp hzero)
    · intro hagree
      have hrunning := (hagree htotal).mp hrequest
      exact ⟨iff_of_true hzero hrunning, fun hnot => absurd hrunning hnot⟩
  · have herange : result = -ERANGE := hresult
    have hnonzero : ¬ (-ERANGE : Int32) = 0 := by decide
    simp only [herange, hnonzero, false_iff, implies_true, and_true]
    constructor
    · intro hrunning htotal
      exact iff_of_false (fun hrequest => hout ⟨hrequest, htotal⟩) hrunning
    · intro hagree hrunning
      exact hout ⟨(hagree hrunning.total).mpr hrunning, hrunning.total⟩

/-- The rule of Linux is applied to every process that has no adjustment on record for the
semaphores it operates on with `SEM_UNDO`. -/
theorem undo_range_of_unrecorded (calls : List StoreOp) {semid : Int32} {i : Fin semMaxSets}
    (hfound : (create.run calls).findSet semid = some i) {operations : List SemOp}
    (hne : operations ≠ [])
    (hacc : ∀ op ∈ operations, op.accepted ((create.run calls).sets i).nsems = true)
    (hpass : ∀ k op, ¬ RefusedAt ((create.run calls).sets i).values operations k op)
    (pid : Int32) (now : Int64)
    (hroom : (List.range ((create.run calls).sets i).nsems).countP (fun s =>
      decide (undoAmount operations s ≠ 0) &&
        decide ((create.run calls).undoEntries.adjustmentOf pid semid s = 0)) ≤
      (create.run calls).undoEntries.freeEntries)
    (hnone : ∀ op ∈ operations, op.hasFlag semUndo = true →
      (create.run calls).undoEntries.adjustmentOf pid semid op.semNum.toNat = 0) :
    let recorded := (create.run calls).undoEntries.adjustmentOf pid semid
    let result := ((create.run calls).tryopDetail semid operations pid now).1
    (result = 0 ↔ RunningInRange recorded operations) ∧
      (¬ RunningInRange recorded operations → result = -ERANGE) := by
  intro recorded result
  have hrunning : RunningInRange recorded operations ↔ RunningInRange (fun _ => 0) operations :=
    runningInRange_iff_of_unrecorded ((inv_run calls).recorded_inRange pid semid) hnone
  rcases (inv_run calls).tryop_range hfound hne hacc hpass hroom now with
    ⟨⟨hrequest, -⟩, hresult⟩ | ⟨hout, hresult⟩
  · have hlinux := hrunning.mpr hrequest
    exact ⟨iff_of_true hresult hlinux, fun hnot => absurd hlinux hnot⟩
  · have hlinux : ¬ RunningInRange recorded operations :=
      fun hlinux => hout ⟨hrunning.mp hlinux, hlinux.total⟩
    refine ⟨iff_of_false (fun hzero => ?_) hlinux, fun _ => hresult⟩
    exact absurd (hresult.symm.trans hzero) (by decide)

/-- A process adds 30000 to the first semaphore of a pair, under `SEM_UNDO`. -/
def undoRecorded : List StoreOp := pairCreated ++ [.tryopDetail 65537 [⟨0, 30000, 0o10000⟩] 42 0]

/-- The request then takes the adjustment to -50000 and back. -/
def excursion : List SemOp := [⟨0, -30000, 0⟩, ⟨0, 20000, 0o10000⟩, ⟨0, -20000, 0o10000⟩]

/-- The excursion passes the value checks and needs no new entry. It is carried out, although the
adjustment is out of range after its second operation. -/
theorem excursion_accepted :
    (create.run undoRecorded).findSet 65537 = some ⟨0, by decide⟩ ∧
      (∀ op ∈ excursion, op.accepted ((create.run undoRecorded).sets ⟨0, by decide⟩).nsems = true) ∧
      (∃ working, excursion.foldlM evaluateOp
        ((create.run undoRecorded).sets ⟨0, by decide⟩).values = .ok working) ∧
      (create.run undoRecorded).undoEntries.adjustmentOf 42 65537 0 = -30000 ∧
      ((create.run undoRecorded).tryopDetail 65537 excursion 42 0).1 = 0 ∧
      ¬ RunningInRange ((create.run undoRecorded).undoEntries.adjustmentOf 42 65537) excursion := by
  refine ⟨by decide +kernel, by decide +kernel, ⟨[0, 0], by decide +kernel⟩, by decide +kernel,
    by decide +kernel, fun hrunning => ?_⟩
  have hsecond := hrunning (excursion.take 2) (List.take_prefix 2 excursion) 0
  exact absurd hsecond (by decide +kernel)

/-- Without an adjustment on record the two rules are one. -/
theorem undo_range_linux_pairCreated :
    ((create.run pairCreated).tryopDetail 65537 [⟨0, 3, 0o10000⟩] 42 0).1 = 0 ↔
      RunningInRange ((create.run pairCreated).undoEntries.adjustmentOf 42 65537)
        [⟨0, 3, 0o10000⟩] := by
  have hfound : (create.run pairCreated).findSet 65537 = some ⟨0, by decide⟩ := by decide +kernel
  have hset : ((create.run pairCreated).sets ⟨0, by decide⟩).values = [0, 0] := by
    decide +kernel
  have hnone : (create.run pairCreated).undoEntries.adjustmentOf 42 65537 = fun _ => 0 := by
    funext s
    exact UndoTable.adjustmentOf_create 42 65537 s
  refine ((undo_range_linux _ hfound (by simp) (by decide +kernel) ?_ 42 0
    (by decide +kernel)).mpr fun _ => by rw [hnone]).1
  rintro k op ⟨hop, hfails⟩
  obtain rfl : k = 0 := by
    have := (List.getElem?_eq_some_iff.mp hop).1
    simpa using this
  simp only [List.getElem?_cons_zero, Option.some.injEq] at hop
  subst hop
  rw [hset] at hfails
  exact hfails (by decide)

end SemStore

end Tgcompat
