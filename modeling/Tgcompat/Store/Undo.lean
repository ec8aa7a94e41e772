import Tgcompat.Library.Fold
import Tgcompat.Store.Tryop

/-!
# The undo table as a ledger

Seen from outside, the undo table records one integer for each process, set and semaphore:
`adjustmentOf`. Which slot holds an entry does not matter as long as no two active entries share
a key and no active entry records zero. Each operation on the table is described by its effect
on this ledger; the commit loop of `tryop` adds its deltas to it and, when the capacity check
passed, never runs out of slots.
-/

namespace Tgcompat

namespace UndoTable

variable {t u : UndoTable} {pid semid p id : Int32} {s semnum : ℕ} {k : Fin semMaxUndoEntries}

/-- No two active entries share a key and none records zero. -/
structure Wf (t : UndoTable) : Prop where
  distinct : keyed.Distinct t
  nonzero : ∀ k, (t k).active = true → (t k).adjustment ≠ 0

@[simp] lemma keyed_live (e : UndoEntry) : keyed.live e = e.active := rfl

@[simp] lemma keyed_key (e : UndoEntry) : keyed.key e = (e.pid, e.semid, e.semnum) := rfl

lemma Wf.find_eq_some (h : t.Wf) :
    t.findUndoEntry pid semid semnum = some k ↔
      (t k).active = true ∧ (t k).pid = pid ∧ (t k).semid = semid ∧ (t k).semnum = semnum := by
  rw [findUndoEntry_eq_find, h.distinct.find_eq_some]
  simp

lemma find_spec (h : t.findUndoEntry pid semid semnum = some k) :
    (t k).active = true ∧ (t k).pid = pid ∧ (t k).semid = semid ∧ (t k).semnum = semnum := by
  rw [findUndoEntry_eq_find] at h
  have hkey := Table.Keyed.key_of_find h
  simp only [keyed_key, Prod.mk.injEq] at hkey
  exact ⟨Table.Keyed.live_of_find h, hkey⟩

lemma find_eq_none :
    t.findUndoEntry pid semid semnum = none ↔
      ∀ k, (t k).active = true → ¬ ((t k).pid = pid ∧ (t k).semid = semid ∧
        (t k).semnum = semnum) := by
  rw [findUndoEntry_eq_find, Table.Keyed.find_eq_none]
  simp

lemma dead_of_findFreeUndoEntry (h : t.findFreeUndoEntry = some k) : (t k).active = false := by
  rw [findFreeUndoEntry_eq_findFree] at h
  exact Table.Keyed.dead_of_findFree h

/-- The entry of a slot is what the ledger says about its key. -/
lemma Wf.adjustmentOf_active (h : t.Wf) (hk : (t k).active = true) :
    t.adjustmentOf (t k).pid (t k).semid (t k).semnum = (t k).adjustment := by
  have hf : t.findUndoEntry (t k).pid (t k).semid (t k).semnum = some k :=
    h.find_eq_some.mpr ⟨hk, rfl, rfl, rfl⟩
  simp only [adjustmentOf, hf]

lemma Wf.adjustmentOf_ne_zero (h : t.Wf) :
    t.adjustmentOf pid semid semnum ≠ 0 ↔ ∃ k, t.findUndoEntry pid semid semnum = some k := by
  unfold adjustmentOf
  cases hf : t.findUndoEntry pid semid semnum with
  | none => simp
  | some k => simpa using h.nonzero k (find_spec hf).1

/-- A ledger entry is an active slot of the table. -/
lemma Wf.exists_active (h : t.Wf) (hne : t.adjustmentOf pid semid semnum ≠ 0) :
    ∃ k, (t k).active = true ∧ (t k).pid = pid ∧ (t k).semid = semid ∧ (t k).semnum = semnum ∧
      (t k).adjustment = t.adjustmentOf pid semid semnum := by
  obtain ⟨k, hk⟩ := h.adjustmentOf_ne_zero.mp hne
  obtain ⟨ha, h1, h2, h3⟩ := find_spec hk
  refine ⟨k, ha, h1, h2, h3, ?_⟩
  simp only [adjustmentOf, hk]

/-! ### The active entries -/

/-- The active entries of a table, whatever slots they are in. -/
def activeEntries (t : UndoTable) : Set UndoEntry := {e | e.active = true ∧ ∃ k, t k = e}

lemma Wf.mem_activeEntries (h : t.Wf) {e : UndoEntry} :
    e ∈ t.activeEntries ↔ e.active = true ∧ e.adjustment ≠ 0 ∧
      t.adjustmentOf e.pid e.semid e.semnum = e.adjustment := by
  constructor
  · rintro ⟨hactive, k, rfl⟩
    exact ⟨hactive, h.nonzero k hactive, h.adjustmentOf_active hactive⟩
  · rintro ⟨hactive, hne, hadj⟩
    rw [← hadj] at hne
    obtain ⟨k, hk, h1, h2, h3, h4⟩ := h.exists_active hne
    exact ⟨hactive, k, UndoEntry.ext h1 h2 (h4.trans hadj) h3 (hk.trans hactive.symm)⟩

/-- The ledger and the active entries determine each other. -/
theorem Wf.activeEntries_eq_iff (ht : t.Wf) (hu : u.Wf) :
    t.activeEntries = u.activeEntries ↔
      ∀ p id s, t.adjustmentOf p id s = u.adjustmentOf p id s := by
  constructor
  · intro heq p id s
    have key : ∀ {t u : UndoTable}, t.Wf → u.Wf → t.activeEntries = u.activeEntries →
        t.adjustmentOf p id s ≠ 0 → t.adjustmentOf p id s = u.adjustmentOf p id s := by
      intro t u ht hu heq hne
      have hmem : (⟨p, id, t.adjustmentOf p id s, s, true⟩ : UndoEntry) ∈ t.activeEntries :=
        ht.mem_activeEntries.mpr ⟨rfl, hne, rfl⟩
      rw [heq, hu.mem_activeEntries] at hmem
      exact hmem.2.2.symm
    by_cases hzero : t.adjustmentOf p id s = 0
    · by_contra hne
      rw [hzero] at hne
      exact hne (hzero ▸ (key hu ht heq.symm (Ne.symm hne)).symm)
    · exact key ht hu heq hzero
  · intro heq
    ext e
    rw [ht.mem_activeEntries, hu.mem_activeEntries, heq]

/-- The second table has the active entries of the first in other slots. -/
def Rearranges (t u : UndoTable) : Prop :=
  ∃ σ : Equiv.Perm (Fin semMaxUndoEntries), ∀ k, (u k).active = (t (σ k)).active ∧
    ((u k).active = true → u k = t (σ k))

lemma Rearranges.wf (h : t.Rearranges u) (ht : t.Wf) : u.Wf := by
  obtain ⟨σ, hσ⟩ := h
  refine ⟨?_, ?_⟩
  · intro i j hi hj hkey
    have hi' := (hσ i).2 hi
    have hj' := (hσ j).2 hj
    rw [hi'] at hi hkey
    rw [hj'] at hj hkey
    exact σ.injective (ht.distinct _ _ hi hj hkey)
  · intro k hk
    have hk' := (hσ k).2 hk
    rw [hk'] at hk ⊢
    exact ht.nonzero _ hk

lemma Rearranges.activeEntries (h : t.Rearranges u) : u.activeEntries = t.activeEntries := by
  obtain ⟨σ, hσ⟩ := h
  ext e
  constructor
  · rintro ⟨hactive, k, rfl⟩
    exact ⟨hactive, σ k, ((hσ k).2 hactive).symm⟩
  · rintro ⟨hactive, k, rfl⟩
    have hk := hσ (σ.symm k)
    rw [Equiv.apply_symm_apply] at hk
    exact ⟨hactive, σ.symm k, hk.2 (hk.1.trans hactive)⟩

/-! ### The empty table -/

lemma wf_create : SemStore.create.undoEntries.Wf where
  distinct := by
    intro i j hi
    simp [SemStore.create, UndoEntry.zero] at hi
  nonzero := by
    intro k hk
    simp [SemStore.create, UndoEntry.zero] at hk

lemma adjustmentOf_create (pid semid : Int32) (semnum : ℕ) :
    SemStore.create.undoEntries.adjustmentOf pid semid semnum = 0 := by
  have : SemStore.create.undoEntries.findUndoEntry pid semid semnum = none := by
    rw [find_eq_none]
    intro k hk
    simp [SemStore.create, UndoEntry.zero] at hk
  simp only [adjustmentOf, this]

/-! ### Switching entries off -/

/-- A table obtained by switching off the entries that satisfy `dead`. -/
lemma Wf.of_switch_off (h : t.Wf) {dead : UndoEntry → Prop}
    (hoff : ∀ k, dead (t k) → (u k).active = false)
    (hon : ∀ k, ¬ dead (t k) → u k = t k) : u.Wf where
  distinct := by
    apply h.distinct.of_live_le
    intro k hk
    by_cases hd : dead (t k)
    · rw [keyed_live, hoff k hd] at hk
      cases hk
    · rw [hon k hd] at hk ⊢
      exact ⟨hk, rfl⟩
  nonzero := by
    intro k hk
    by_cases hd : dead (t k)
    · rw [hoff k hd] at hk
      cases hk
    · rw [hon k hd] at hk ⊢
      exact h.nonzero k hk

/-- Switching entries off clears exactly their keys in the ledger. -/
lemma Wf.adjustmentOf_switch_off (h : t.Wf) {dead : UndoEntry → Prop}
    (hoff : ∀ k, dead (t k) → (u k).active = false)
    (hon : ∀ k, ¬ dead (t k) → u k = t k)
    (hkey : ∀ k, (t k).active = true → (t k).pid = pid → (t k).semid = semid →
      (t k).semnum = semnum → ¬ dead (t k)) :
    u.adjustmentOf pid semid semnum = t.adjustmentOf pid semid semnum := by
  have hu := h.of_switch_off hoff hon
  cases hf : t.findUndoEntry pid semid semnum with
  | some k =>
    obtain ⟨ha, h1, h2, h3⟩ := find_spec hf
    have heq : u k = t k := hon k (hkey k ha h1 h2 h3)
    have hfu : u.findUndoEntry pid semid semnum = some k := by
      rw [hu.find_eq_some, heq]
      exact ⟨ha, h1, h2, h3⟩
    simp only [adjustmentOf, hf, hfu, heq]
  | none =>
    have hfu : u.findUndoEntry pid semid semnum = none := by
      rw [find_eq_none] at hf ⊢
      intro k hk
      by_cases hd : dead (t k)
      · rw [hoff k hd] at hk
        cases hk
      · rw [hon k hd] at hk ⊢
        exact hf k hk
    simp only [adjustmentOf, hf, hfu]

lemma Wf.adjustmentOf_switched_off (h : t.Wf) {dead : UndoEntry → Prop}
    (hoff : ∀ k, dead (t k) → (u k).active = false)
    (hon : ∀ k, ¬ dead (t k) → u k = t k)
    (hkey : ∀ k, (t k).active = true → (t k).pid = pid → (t k).semid = semid →
      (t k).semnum = semnum → dead (t k)) :
    u.adjustmentOf pid semid semnum = 0 := by
  by_contra hne
  obtain ⟨k, ha, h1, h2, h3, -⟩ := (h.of_switch_off hoff hon).exists_active hne
  by_cases hd : dead (t k)
  · rw [hoff k hd] at ha
    cases ha
  · rw [hon k hd] at ha h1 h2 h3
    exact hd (hkey k ha h1 h2 h3)

/-! ### `clear_undo_entries` -/

/-- The entries `clear_undo_entries` retires. -/
def Cleared (semid : Int32) (semnum : ℕ) (allSemaphores : Bool) (e : UndoEntry) : Prop :=
  e.active = true ∧ e.semid = semid ∧ (allSemaphores = true ∨ e.semnum = semnum)

lemma clear_off {all : Bool} (k : Fin semMaxUndoEntries)
    (h : Cleared semid semnum all (t k)) :
    (t.clearUndoEntries semid semnum all k).active = false := by
  unfold Cleared at h
  simp [clearUndoEntries, h]

lemma clear_on {all : Bool} (k : Fin semMaxUndoEntries)
    (h : ¬ Cleared semid semnum all (t k)) :
    t.clearUndoEntries semid semnum all k = t k := by
  unfold Cleared at h
  simp only [clearUndoEntries, if_neg h]

lemma Wf.clear (h : t.Wf) (semid : Int32) (semnum : ℕ) (all : Bool) :
    (t.clearUndoEntries semid semnum all).Wf :=
  h.of_switch_off clear_off clear_on

lemma Wf.adjustmentOf_clear (h : t.Wf) (all : Bool) :
    (t.clearUndoEntries semid semnum all).adjustmentOf p id s =
      if id = semid ∧ (all = true ∨ s = semnum) then 0 else t.adjustmentOf p id s := by
  split_ifs with hc
  · apply h.adjustmentOf_switched_off clear_off clear_on
    intro k ha _ h2 h3
    exact ⟨ha, h2.trans hc.1, hc.2.imp_right fun hs => h3.trans hs⟩
  · apply h.adjustmentOf_switch_off clear_off clear_on
    rintro k _ _ h2 h3 ⟨_, h2', h3'⟩
    exact hc ⟨h2.symm.trans h2', h3'.imp_right fun hs => h3.symm.trans hs⟩

/-- Clearing only adds free slots. -/
lemma freeEntries_clear (t : UndoTable) (semid : Int32) (semnum : ℕ) (all : Bool) :
    t.freeEntries ≤ (t.clearUndoEntries semid semnum all).freeEntries := by
  rw [freeEntries_eq_freeCount, freeEntries_eq_freeCount]
  refine Table.countIndex_mono fun k hk => ?_
  by_cases hcleared : Cleared semid semnum all (t k)
  · simpa using clear_off k hcleared
  · rwa [clear_on k hcleared]

/-! ### The commit of one delta -/

/-- Writing a slot leaves the ledger alone outside the keys written over. -/
lemma adjustmentOf_update_of_ne {e : UndoEntry}
    (hold : (t k).active = true → ¬ ((t k).pid = p ∧ (t k).semid = id ∧ (t k).semnum = s))
    (hnew : e.active = true → ¬ (e.pid = p ∧ e.semid = id ∧ e.semnum = s)) :
    UndoTable.adjustmentOf (Function.update t k e) p id s = t.adjustmentOf p id s := by
  have hfind : findUndoEntry (Function.update t k e) p id s = findUndoEntry t p id s := by
    rw [findUndoEntry_eq_find, findUndoEntry_eq_find]
    apply Table.Keyed.find_update_of_ne
    · simpa using hold
    · simpa using hnew
  unfold adjustmentOf
  rw [hfind]
  cases hf : findUndoEntry t p id s with
  | none => rfl
  | some j =>
    obtain ⟨ha, hkey⟩ := find_spec hf
    have hjk : j ≠ k := by
      rintro rfl
      exact hold ha hkey
    simp only [Function.update_of_ne hjk]

lemma wf_update (h : t.Wf) {e : UndoEntry} (hne : e.active = true → e.adjustment ≠ 0)
    (hnew : e.active = true → ∀ j, j ≠ k → (t j).active = true →
      ¬ ((t j).pid = e.pid ∧ (t j).semid = e.semid ∧ (t j).semnum = e.semnum)) :
    UndoTable.Wf (Function.update t k e) where
  distinct := by
    apply h.distinct.update
    intro he j hj ha
    simpa using hnew he j hj ha
  nonzero := by
    intro j hj
    by_cases hjk : j = k
    · subst hjk
      simp only [Function.update_self] at hj ⊢
      exact hne hj
    · simp only [Function.update_of_ne hjk] at hj ⊢
      exact h.nonzero j hj

/-- What one iteration of the commit loop does to the ledger. -/
structure Committed (pid semid : Int32) (s : ℕ) (delta : ℤ) (t u : UndoTable) : Prop where
  wf : u.Wf
  here : u.adjustmentOf pid semid s = t.adjustmentOf pid semid s + delta
  elsewhere : ∀ p id n, ¬ (p = pid ∧ id = semid ∧ n = s) →
    u.adjustmentOf p id n = t.adjustmentOf p id n

/-- An entry that exists takes the delta, and is retired when it reaches zero. -/
lemma Wf.committed_addDelta (h : t.Wf) (hk : t.findUndoEntry pid semid s = some k) (delta : ℤ) :
    Committed pid semid s delta t (Function.update t k (addDelta (t k) delta)) := by
  obtain ⟨ha, h1, h2, h3⟩ := find_spec hk
  have hwf : UndoTable.Wf (Function.update t k (addDelta (t k) delta)) := by
    apply wf_update h
    · intro he hz
      simp only [addDelta] at he hz
      simp [hz] at he
    · intro _ j hj hja hkey
      exact hj (h.distinct j k hja ha (by simpa [addDelta] using hkey))
  have hold : t.adjustmentOf pid semid s = (t k).adjustment := by simp only [adjustmentOf, hk]
  refine ⟨hwf, ?_, ?_⟩
  · rw [hold]
    by_cases hz : (t k).adjustment + delta = 0
    · rw [hz]
      by_contra hne
      obtain ⟨j, hja, hj1, hj2, hj3, -⟩ := hwf.exists_active hne
      have hjk : j ≠ k := by
        rintro rfl
        simp [addDelta, hz] at hja
      rw [Function.update_of_ne hjk] at hja hj1 hj2 hj3
      exact hjk (h.distinct j k hja ha (by simp [h1, h2, h3, hj1, hj2, hj3]))
    · have hfind : findUndoEntry (Function.update t k (addDelta (t k) delta)) pid semid s =
          some k := by
        rw [hwf.find_eq_some]
        simp [addDelta, hz, ha, h1, h2, h3]
      simp only [adjustmentOf, hfind, Function.update_self]
      simp only [addDelta]
  · intro p id n hne
    apply adjustmentOf_update_of_ne
    · rintro - ⟨e1, e2, e3⟩
      exact hne ⟨e1.symm.trans h1, e2.symm.trans h2, e3.symm.trans h3⟩
    · rintro - ⟨e1, e2, e3⟩
      simp only [addDelta] at e1 e2 e3
      exact hne ⟨e1.symm.trans h1, e2.symm.trans h2, e3.symm.trans h3⟩

/-- A new entry is claimed for a key the ledger does not have. -/
lemma Wf.committed_claim (h : t.Wf) (hnone : t.findUndoEntry pid semid s = none)
    (hk : t.findFreeUndoEntry = some k) {delta : ℤ} (hdelta : delta ≠ 0) :
    Committed pid semid s delta t
      (Function.update t k (addDelta (newEntry pid semid s) delta)) := by
  have hdead := dead_of_findFreeUndoEntry hk
  have hfresh := find_eq_none.mp hnone
  have hwf : UndoTable.Wf (Function.update t k (addDelta (newEntry pid semid s) delta)) := by
    apply wf_update h
    · intro _
      simpa [addDelta, newEntry] using hdelta
    · intro _ j _ hja
      simpa [addDelta, newEntry] using hfresh j hja
  refine ⟨hwf, ?_, ?_⟩
  · have hfind : findUndoEntry
        (Function.update t k (addDelta (newEntry pid semid s) delta)) pid semid s = some k := by
      rw [hwf.find_eq_some]
      simp [addDelta, newEntry, hdelta]
    have hold : t.adjustmentOf pid semid s = 0 := by simp only [adjustmentOf, hnone]
    rw [hold]
    simp only [adjustmentOf, hfind, Function.update_self]
    simp only [addDelta, newEntry]
  · intro p id n hne
    apply adjustmentOf_update_of_ne
    · intro ha
      rw [hdead] at ha
      cases ha
    · rintro - ⟨e1, e2, e3⟩
      simp only [addDelta, newEntry] at e1 e2 e3
      exact hne ⟨e1.symm, e2.symm, e3.symm⟩

lemma freeEntries_addDelta (ha : (t k).active = true) (delta : ℤ) :
    t.freeEntries ≤ UndoTable.freeEntries (Function.update t k (addDelta (t k) delta)) := by
  rw [freeEntries_eq_freeCount, freeEntries_eq_freeCount]
  by_cases hz : (t k).adjustment + delta = 0
  · have := Table.Keyed.freeCount_retire (K := keyed) (t := t) (i := k)
      (a := addDelta (t k) delta) ha (by simp [addDelta, hz])
    omega
  · rw [Table.Keyed.freeCount_rewrite]
    simp [addDelta, hz]

lemma freeEntries_claim (pid semid : Int32) (s : ℕ) (hk : t.findFreeUndoEntry = some k)
    {delta : ℤ} (hdelta : delta ≠ 0) :
    t.freeEntries = UndoTable.freeEntries
      (Function.update t k (addDelta (newEntry pid semid s) delta)) + 1 := by
  rw [freeEntries_eq_freeCount, freeEntries_eq_freeCount]
  apply Table.Keyed.freeCount_claim
  · exact dead_of_findFreeUndoEntry hk
  · simp [addDelta, newEntry, hdelta]

/-! ### The capacity check and the commit loop -/

/-- The semaphores for which the commit has to claim a new entry. -/
def needsEntry (t : UndoTable) (pid semid : Int32) (deltas : ℕ → ℤ) (s : ℕ) : Bool :=
  decide (deltas s ≠ 0) && (t.findUndoEntry pid semid s).isNone

lemma reserveUndo_error {deltas : ℕ → ℤ} {required : ℕ} {r : Refusal}
    (h : t.reserveUndo pid semid deltas required s = .error r) : r = refuse (-ERANGE) := by
  rw [reserveUndo] at h
  by_cases hz : deltas s = 0
  · rw [if_pos hz] at h
    cases h
  · rw [if_neg hz] at h
    cases hf : t.findUndoEntry pid semid (s % 2 ^ 16) with
    | some k =>
      simp only [hf] at h
      split_ifs at h
      cases h
      rfl
    | none =>
      simp only [hf] at h
      split_ifs at h
      cases h
      rfl

/-- An entry is needed where the ledger has none. -/
lemma Wf.needsEntry_eq (h : t.Wf) (deltas : ℕ → ℤ) :
    t.needsEntry pid semid deltas s =
      (decide (deltas s ≠ 0) && decide (t.adjustmentOf pid semid s = 0)) := by
  have hentry : t.adjustmentOf pid semid s ≠ 0 ↔ ∃ k, t.findUndoEntry pid semid s = some k :=
    h.adjustmentOf_ne_zero
  cases hf : t.findUndoEntry pid semid s with
  | none =>
    have hzero : t.adjustmentOf pid semid s = 0 := by
      by_contra hne
      simpa [hf] using hentry.mp hne
    simp [needsEntry, hf, hzero]
  | some k =>
    have hne : t.adjustmentOf pid semid s ≠ 0 := hentry.mpr ⟨k, hf⟩
    simp [needsEntry, hf, hne]

/-- The semaphore numbers of a set fit into the 16 bits of an entry. -/
lemma lt_of_mem_range_nsems {nsems : ℕ} (hnsems : nsems ≤ semMaxPerSet) :
    ∀ s ∈ List.range nsems, s < 2 ^ 16 := by
  intro s hs
  exact lt_of_lt_of_le (List.mem_range.mp hs) (le_trans hnsems (by decide))

/-- One iteration of the capacity check in terms of the ledger. -/
lemma reserveUndo_eq {deltas : ℕ → ℤ} {required : ℕ} (hs : s < 2 ^ 16) :
    t.reserveUndo pid semid deltas required s =
      if deltas s = 0 ∨ undoInRange (deltas s + t.adjustmentOf pid semid s) then
        .ok (required + if t.needsEntry pid semid deltas s then 1 else 0)
      else .error (refuse (-ERANGE)) := by
  rw [reserveUndo, Nat.mod_eq_of_lt hs]
  by_cases hz : deltas s = 0
  · simp [hz, needsEntry]
  · cases hf : t.findUndoEntry pid semid s with
    | some k => simp [hz, needsEntry, adjustmentOf, hf]
    | none => simp [hz, needsEntry, adjustmentOf, hf]

/-- The capacity check counts the new entries and bounds every adjustment. -/
theorem reserve_ok {deltas : ℕ → ℤ} {l : List ℕ} {required : ℕ} (hl : ∀ s ∈ l, s < 2 ^ 16)
    (h : l.foldlM (t.reserveUndo pid semid deltas) 0 = .ok required) :
    required = l.countP (t.needsEntry pid semid deltas) ∧
      ∀ s ∈ l, deltas s ≠ 0 → undoInRange (deltas s + t.adjustmentOf pid semid s) := by
  apply Fold.foldlM_ok (I := fun pre required =>
    required = pre.countP (t.needsEntry pid semid deltas) ∧
      ∀ s ∈ pre, deltas s ≠ 0 → undoInRange (deltas s + t.adjustmentOf pid semid s)) _ _ h
  · simp
  · rintro pre s c c' hs ⟨hc, hrange⟩ hstep
    rw [reserveUndo_eq (hl s hs)] at hstep
    split_ifs at hstep with hfits hneeds
    all_goals
      simp only [Except.ok.injEq] at hstep
      refine ⟨by simp [hneeds, ← hstep, hc], ?_⟩
      intro n hn hne
      rcases List.mem_append.mp hn with hn | hn
      · exact hrange n hn hne
      · rw [List.mem_singleton.mp hn] at hne ⊢
        exact hfits.resolve_left hne

/-- The capacity check goes through when every adjustment is in bounds. -/
theorem reserve_total {deltas : ℕ → ℤ} {l : List ℕ} (hl : ∀ s ∈ l, s < 2 ^ 16)
    (h : ∀ s ∈ l, deltas s ≠ 0 → undoInRange (deltas s + t.adjustmentOf pid semid s)) :
    l.foldlM (t.reserveUndo pid semid deltas) 0 =
      .ok (l.countP (t.needsEntry pid semid deltas)) := by
  obtain ⟨required, hreq, hcount⟩ := Fold.foldlM_total (l := l) (b := 0)
    (f := t.reserveUndo pid semid deltas)
    (I := fun pre required => required = pre.countP (t.needsEntry pid semid deltas)) rfl (by
      rintro pre s post c hsplit rfl
      have hmem : s ∈ l := by simp [hsplit]
      refine ⟨_, ?_, rfl⟩
      rw [reserveUndo_eq (hl s hmem), if_pos (or_iff_not_imp_left.mpr (h s hmem)),
        List.countP_append, List.countP_singleton])
  rw [hreq, hcount]

/-- The ledger after the deltas of the semaphores in `done` were added. -/
def AddedTo (t : UndoTable) (pid semid : Int32) (deltas : ℕ → ℤ) (done : List ℕ)
    (u : UndoTable) : Prop :=
  ∀ p id s, u.adjustmentOf p id s =
    t.adjustmentOf p id s + if p = pid ∧ id = semid ∧ s ∈ done then deltas s else 0

/-- One iteration of the commit loop, when a slot is free in case one is needed. -/
lemma Wf.commit_step (h : t.Wf) {deltas : ℕ → ℤ} (hs : s < 2 ^ 16)
    (hfree : t.needsEntry pid semid deltas s = true → 0 < t.freeEntries) :
    ∃ u, commitUndo pid semid deltas t s = .ok u ∧ Committed pid semid s (deltas s) t u ∧
      t.freeEntries ≤ u.freeEntries + if t.needsEntry pid semid deltas s then 1 else 0 := by
  rw [commitUndo, Nat.mod_eq_of_lt hs]
  by_cases hz : deltas s = 0
  · refine ⟨t, by rw [if_pos hz], ⟨h, by rw [hz, add_zero], fun _ _ _ _ => rfl⟩, by omega⟩
  · rw [if_neg hz]
    cases hf : t.findUndoEntry pid semid s with
    | some k =>
      refine ⟨_, rfl, h.committed_addDelta hf _, ?_⟩
      have := freeEntries_addDelta (find_spec hf).1 (deltas s)
      omega
    | none =>
      have hneeds : t.needsEntry pid semid deltas s = true := by simp [needsEntry, hz, hf]
      obtain ⟨k, hk⟩ := Table.Keyed.findFree_isSome (K := keyed) (hfree hneeds)
      rw [← findFreeUndoEntry_eq_findFree] at hk
      refine ⟨_, by rw [hk], h.committed_claim hf hk hz, ?_⟩
      have := freeEntries_claim pid semid s hk hz
      rw [if_pos hneeds]
      omega

/-- With as many free slots as new entries are needed, the commit loop runs to its end, adds its
deltas to the ledger and claims no other slots. -/
theorem Wf.commit_total (h : t.Wf) {deltas : ℕ → ℤ} {l : List ℕ} (hl : ∀ s ∈ l, s < 2 ^ 16)
    (hnodup : l.Nodup) (hfree : l.countP (t.needsEntry pid semid deltas) ≤ t.freeEntries) :
    ∃ u, l.foldlM (commitUndo pid semid deltas) t = .ok u ∧ u.Wf ∧
      t.AddedTo pid semid deltas l u ∧
      t.freeEntries ≤ u.freeEntries + l.countP (t.needsEntry pid semid deltas) := by
  -- the free slots of the table cover the entries still to be claimed
  apply Fold.foldlM_total (I := fun done u => u.Wf ∧ t.AddedTo pid semid deltas done u ∧
    t.freeEntries ≤ u.freeEntries + done.countP (t.needsEntry pid semid deltas))
  · exact ⟨h, by intro p id s; simp, by simp⟩
  · rintro done s post u hsplit ⟨hwf, hadded, hcount⟩
    have hsl : s ∈ l := by simp [hsplit]
    have hnot : s ∉ done := by
      intro hmem
      rw [hsplit] at hnodup
      exact (List.nodup_append.mp hnodup).2.2 s hmem s (by simp) rfl
    have hsame : u.adjustmentOf pid semid s = t.adjustmentOf pid semid s := by
      rw [hadded]
      simp [hnot]
    have hneeds : u.needsEntry pid semid deltas s = t.needsEntry pid semid deltas s := by
      rw [hwf.needsEntry_eq, h.needsEntry_eq, hsame]
    have hcap : t.needsEntry pid semid deltas s = true → 0 < u.freeEntries := by
      intro hn
      rw [hsplit, List.countP_append, List.countP_cons, if_pos hn] at hfree
      omega
    obtain ⟨v, hv, hcommit, hvfree⟩ := hwf.commit_step (hl s hsl) (hneeds ▸ hcap)
    refine ⟨v, hv, hcommit.wf, ?_, ?_⟩
    · intro p id n
      by_cases hkey : p = pid ∧ id = semid ∧ n = s
      · obtain ⟨rfl, rfl, rfl⟩ := hkey
        rw [hcommit.here, hsame]
        simp
      · rw [hcommit.elsewhere p id n hkey, hadded]
        congr 1
        by_cases hn : n = s
        · have : ¬ (p = pid ∧ id = semid) := fun hc => hkey ⟨hc.1, hc.2, hn⟩
          simp [this, ← and_assoc]
        · simp [hn]
    · rw [hneeds] at hvfree
      rw [List.countP_append, List.countP_singleton]
      omega

end UndoTable

end Tgcompat
