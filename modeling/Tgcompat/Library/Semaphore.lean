import Mathlib.Algebra.BigOperators.Finprod
import Mathlib.Algebra.Order.BigOperators.Group.Finset
import Mathlib.Data.Set.Card
import Mathlib.Tactic

/-!
# Counting semaphores with undo

A semaphore that exists has a value between zero and a bound. A process may ask for its operations
to be undone when it exits: the ledger says, for each process and semaphore, what the exit will add.

Units are conserved. As long as a semaphore is only operated on with undo and nobody gives back more
than they took, its value and what the processes hold of it add up to the same number, also when
processes exit. So no more processes can hold a unit than there are units.
-/

namespace Semaphore

variable {Sem Pid : Type*} {bound v : ℤ} {x : Sem} {p : Pid}

/-- The values of the semaphores that exist, and the ledger. -/
@[ext] structure State (Sem Pid : Type*) where
  value : Sem → Option ℤ
  undo : Pid → Sem → ℤ

/-- What can happen to semaphores. -/
inductive Act (Sem Pid : Type*) where
  | create (sems : Set Sem)
  | destroy (sems : Set Sem)
  /-- the values that are given, for the semaphores that they are given for -/
  | assign (values : Sem → Option ℤ)
  /-- a process adds the amounts, and wants some of them undone when it exits -/
  | operate (pid : Pid) (amount undone : Sem → ℤ)
  | exit (pid : Pid)

/-- Nothing changes for the semaphore. -/
def Same (s s' : State Sem Pid) (x : Sem) : Prop :=
  s'.value x = s.value x ∧ ∀ p, s'.undo p x = s.undo p x

inductive Step [DecidableEq Pid] (bound : ℤ) (s : State Sem Pid) :
    Act Sem Pid → State Sem Pid → Prop
  | create {sems : Set Sem} {s' : State Sem Pid}
      (hfresh : ∀ x ∈ sems, s.value x = none)
      (hnew : ∀ x ∈ sems, s'.value x = some 0 ∧ ∀ p, s'.undo p x = 0)
      (hold : ∀ x ∉ sems, Same s s' x) : Step bound s (.create sems) s'
  | destroy {sems : Set Sem} {s' : State Sem Pid}
      (hgone : ∀ x ∈ sems, s'.value x = none ∧ ∀ p, s'.undo p x = 0)
      (hold : ∀ x ∉ sems, Same s s' x) : Step bound s (.destroy sems) s'
  | assign {values : Sem → Option ℤ} {s' : State Sem Pid}
      (hrange : ∀ x v, values x = some v → s.value x ≠ none ∧ 0 ≤ v ∧ v ≤ bound)
      (hset : ∀ x v, values x = some v → s'.value x = some v ∧ ∀ p, s'.undo p x = 0)
      (hold : ∀ x, values x = none → Same s s' x) : Step bound s (.assign values) s'
  | operate {pid : Pid} {amount undone : Sem → ℤ} {s' : State Sem Pid}
      (hnone : ∀ x, s.value x = none → undone x = 0)
      (hrange : ∀ x v, s.value x = some v → 0 ≤ v + amount x ∧ v + amount x ≤ bound)
      (hvalue : ∀ x, s'.value x = (s.value x).map (· + amount x))
      (hundo : ∀ p x, s'.undo p x = if p = pid then s.undo p x - undone x else s.undo p x) :
      Step bound s (.operate pid amount undone) s'
  | exit {pid : Pid} {s' : State Sem Pid}
      (hvalue : ∀ x, s'.value x = (s.value x).map fun v => max 0 (min bound (v + s.undo pid x)))
      (hundo : ∀ p x, s'.undo p x = if p = pid then 0 else s.undo p x) :
      Step bound s (.exit pid) s'

/-! ### The invariant -/

/-- What holds in every state. -/
structure Ok (bound : ℤ) (s : State Sem Pid) : Prop where
  range : ∀ x v, s.value x = some v → 0 ≤ v ∧ v ≤ bound
  owed : ∀ p x, s.value x = none → s.undo p x = 0
  finite : ∀ x, {p | s.undo p x ≠ 0}.Finite

variable {s s' : State Sem Pid} {act : Act Sem Pid}

lemma ok_empty (bound : ℤ) : Ok bound (⟨fun _ => none, fun _ _ => 0⟩ : State Sem Pid) where
  range := by
    intro x v hx
    cases hx
  owed := fun _ _ _ => rfl
  finite := by
    intro x
    simp

/-- A process more changes nothing about the finiteness of the ledger. -/
lemma finite_of_ne (hs : {p | s.undo p x ≠ 0}.Finite) (pid : Pid)
    (h : ∀ p, p ≠ pid → s'.undo p x = s.undo p x) : {p | s'.undo p x ≠ 0}.Finite := by
  refine (hs.insert pid).subset fun p hp => ?_
  by_cases hpid : p = pid
  · exact Set.mem_insert_iff.mpr (Or.inl hpid)
  · refine Set.mem_insert_of_mem _ ?_
    rwa [Set.mem_ofPred_eq, ← h p hpid]

variable [DecidableEq Pid]

theorem Step.ok (hbound : 0 ≤ bound) (hs : Ok bound s) (h : Step bound s act s') :
    Ok bound s' := by
  -- the semaphores that a step leaves alone, and those whose ledger it clears
  have hsame : ∀ {x}, Same s s' x → (∀ v, s'.value x = some v → 0 ≤ v ∧ v ≤ bound) ∧
      (s'.value x = none → ∀ p, s'.undo p x = 0) ∧ {p | s'.undo p x ≠ 0}.Finite := by
    rintro x ⟨hvalue, hundo⟩
    simp only [hvalue, hundo]
    exact ⟨hs.range x, fun hx p => hs.owed p x hx, hs.finite x⟩
  have hclear : ∀ {x}, (∀ p, s'.undo p x = 0) → {p | s'.undo p x ≠ 0}.Finite := by
    intro x hundo
    simp [hundo]
  have hall : ∀ x, (∀ v, s'.value x = some v → 0 ≤ v ∧ v ≤ bound) ∧
      (s'.value x = none → ∀ p, s'.undo p x = 0) ∧ {p | s'.undo p x ≠ 0}.Finite := by
    intro x
    cases h with
    | @create sems _ hfresh hnew hold =>
      by_cases hx : x ∈ sems
      · obtain ⟨hvalue, hundo⟩ := hnew x hx
        refine ⟨fun v hv => ?_, fun _ => hundo, hclear hundo⟩
        cases hvalue.symm.trans hv
        exact ⟨le_rfl, hbound⟩
      · exact hsame (hold x hx)
    | @destroy sems _ hgone hold =>
      by_cases hx : x ∈ sems
      · obtain ⟨hvalue, hundo⟩ := hgone x hx
        refine ⟨fun v hv => ?_, fun _ => hundo, hclear hundo⟩
        rw [hvalue] at hv
        cases hv
      · exact hsame (hold x hx)
    | @assign values _ hrange hset hold =>
      cases hx : values x with
      | none => exact hsame (hold x hx)
      | some w =>
        obtain ⟨hvalue, hundo⟩ := hset x w hx
        refine ⟨fun v hv => ?_, fun _ => hundo, hclear hundo⟩
        rw [hvalue, Option.some.injEq] at hv
        exact hv ▸ (hrange x w hx).2
    | @operate pid amount undone _ hnone hrange hvalue hundo =>
      refine ⟨fun v hv => ?_, fun hx p => ?_, ?_⟩
      · rw [hvalue] at hv
        obtain ⟨w, hw, rfl⟩ := Option.map_eq_some_iff.mp hv
        exact hrange x w hw
      · rw [hvalue, Option.map_eq_none_iff] at hx
        rw [hundo, hnone x hx, hs.owed p x hx]
        simp
      · refine finite_of_ne (hs.finite x) pid fun p hp => ?_
        rw [hundo, if_neg hp]
    | @exit pid _ hvalue hundo =>
      refine ⟨fun v hv => ?_, fun hx p => ?_, ?_⟩
      · rw [hvalue] at hv
        obtain ⟨w, hw, rfl⟩ := Option.map_eq_some_iff.mp hv
        exact ⟨le_max_left _ _, max_le hbound (min_le_left _ _)⟩
      · rw [hvalue, Option.map_eq_none_iff] at hx
        rw [hundo, hs.owed p x hx, ite_self]
      · refine finite_of_ne (hs.finite x) pid fun p hp => ?_
        rw [hundo, if_neg hp]
  exact ⟨fun x => (hall x).1, fun p x hx => (hall x).2.1 hx p, fun x => (hall x).2.2⟩

/-! ### Units -/

/-- What the processes hold of a semaphore. -/
noncomputable def held (s : State Sem Pid) (x : Sem) : ℤ := ∑ᶠ p, s.undo p x

/-- The value of the semaphore and what is held of it add up to `k`. -/
def Balanced (k : ℤ) (x : Sem) (s : State Sem Pid) : Prop :=
  ∃ v, s.value x = some v ∧ v + held s x = k

/-- The semaphore is at most operated on, and all of that is undone. -/
def Act.Reversible (x : Sem) : Act Sem Pid → Prop
  | destroy sems => x ∉ sems
  | assign values => values x = none
  | operate _ amount undone => amount x = undone x
  | create _ | exit _ => True

section Held

omit [DecidableEq Pid]

/-- One row of the ledger moves. -/
lemma held_of_ne (hs : {p | s.undo p x ≠ 0}.Finite) {pid : Pid}
    (h : ∀ p, p ≠ pid → s'.undo p x = s.undo p x) :
    held s' x = held s x + (s'.undo pid x - s.undo pid x) := by
  have hs' := finite_of_ne hs pid h
  have hdiff : held s' x - held s x = s'.undo pid x - s.undo pid x := by
    rw [held, held, ← finsum_sub_distrib hs' hs]
    exact finsum_eq_single _ pid fun p hp => by rw [h p hp, sub_self]
  omega

lemma held_congr (h : ∀ p, s'.undo p x = s.undo p x) : held s' x = held s x :=
  finsum_congr h

/-- A process holds no more than all of them, if none has given back too much. -/
lemma undo_le_held (hs : {p | s.undo p x ≠ 0}.Finite) (h : ∀ p, 0 ≤ s.undo p x) (p : Pid) :
    s.undo p x ≤ held s x := by
  rw [held, finsum_eq_sum_of_support_subset_of_finite _ (Set.Subset.refl _) hs]
  by_cases hp : s.undo p x = 0
  · rw [hp]
    exact Finset.sum_nonneg fun q _ => h q
  · exact Finset.single_le_sum (f := fun q => s.undo q x) (fun q _ => h q)
      (hs.mem_toFinset.mpr hp)

/-- There are no more holders than units held. -/
lemma ncard_holders_le (hs : {p | s.undo p x ≠ 0}.Finite) (h : ∀ p, 0 ≤ s.undo p x) :
    ({p | 0 < s.undo p x}.ncard : ℤ) ≤ held s x := by
  have hholders : {p | 0 < s.undo p x} = hs.toFinset := by
    ext p
    simp [lt_iff_le_and_ne, h p, eq_comm]
  rw [hholders, Set.ncard_coe_finset, held,
    finsum_eq_sum_of_support_subset_of_finite _ (Set.Subset.refl _) hs]
  have hone : ∀ p ∈ hs.toFinset, (1 : ℤ) ≤ s.undo p x := by
    intro p hp
    exact Int.add_one_le_iff.mpr (lt_of_le_of_ne (h p) (Ne.symm (hs.mem_toFinset.mp hp)))
  have hsum := Finset.card_nsmul_le_sum hs.toFinset (fun p => s.undo p x) 1 hone
  rw [nsmul_eq_mul, mul_one] at hsum
  exact hsum

end Held

/-- A reversible step keeps the balance. An exit may only come when nobody has given back too much,
or the value could be cut off at zero or at the bound. -/
theorem Step.conserves {k : ℤ} (hs : Ok bound s) (h : Step bound s act s')
    (hact : act.Reversible x) (hk : k ≤ bound) (hbalanced : Balanced k x s)
    (hheld : ∀ pid, act = .exit pid → ∀ p, 0 ≤ s.undo p x) : Balanced k x s' := by
  obtain ⟨v, hx, htotal⟩ := hbalanced
  have hsame : Same s s' x → Balanced k x s' :=
    fun h => ⟨v, h.1.trans hx, by rw [held_congr h.2, htotal]⟩
  cases h with
  | @create sems _ hfresh hnew hold =>
    refine hsame (hold x fun hmem => ?_)
    rw [hfresh x hmem] at hx
    cases hx
  | destroy hgone hold => exact hsame (hold x hact)
  | assign hrange hset hold => exact hsame (hold x hact)
  | @operate pid amount undone _ hnone hrange hvalue hundo =>
    refine ⟨v + amount x, by rw [hvalue, hx]; rfl, ?_⟩
    have hothers : ∀ p, p ≠ pid → s'.undo p x = s.undo p x := fun p hp => by
      rw [hundo, if_neg hp]
    have hbalance : amount x = undone x := hact
    rw [held_of_ne (hs.finite x) hothers, hundo, if_pos rfl]
    omega
  | @exit pid _ hvalue hundo =>
    -- what the process gives back fits below the bound, so nothing is cut off
    have hnonneg := hheld pid rfl
    have hle := undo_le_held (hs.finite x) hnonneg pid
    have hlo := (hs.range x v hx).1
    have hclamp : max 0 (min bound (v + s.undo pid x)) = v + s.undo pid x := by
      rw [min_eq_right (by omega), max_eq_right (add_nonneg hlo (hnonneg pid))]
    refine ⟨v + s.undo pid x, by rw [hvalue, hx, Option.map_some, hclamp], ?_⟩
    have hothers : ∀ p, p ≠ pid → s'.undo p x = s.undo p x := fun p hp => by
      rw [hundo, if_neg hp]
    rw [held_of_ne (hs.finite x) hothers, hundo, if_pos rfl]
    omega

end Semaphore
