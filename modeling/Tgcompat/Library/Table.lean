import Mathlib.Data.List.FinRange
import Mathlib.Data.Fintype.Card
import Mathlib.Logic.Function.Basic
import Mathlib.Tactic

/-!
# Fixed-size tables

A table with `n` slots is a function out of `Fin n`. Slots are searched and counted by a scan
from slot `0` upwards.

A `Keyed` view says which slots are live and which key a live slot carries. A table whose live
keys are pairwise different is a finite partial map: `Keyed.find` is its lookup, claiming a dead
slot extends the map and retiring a live slot shrinks it.
-/

namespace Table

variable {n : ℕ}

/-! ### Scans -/

/-- The first slot that satisfies `p`. -/
def firstIndex (p : Fin n → Bool) : Option (Fin n) :=
  (List.finRange n).find? p

/-- The number of slots that satisfy `p`. -/
def countIndex (p : Fin n → Bool) : ℕ :=
  (List.finRange n).countP p

lemma firstIndex_spec {p : Fin n → Bool} {i : Fin n} (h : firstIndex p = some i) :
    p i = true :=
  List.find?_some h

lemma firstIndex_eq_none {p : Fin n → Bool} : firstIndex p = none ↔ ∀ i, p i = false := by
  simp [firstIndex, List.find?_eq_none]

lemma firstIndex_isSome {p : Fin n → Bool} {i : Fin n} (h : p i = true) :
    ∃ j, firstIndex p = some j := by
  cases hf : firstIndex p with
  | some j => exact ⟨j, rfl⟩
  | none => simp [firstIndex_eq_none.mp hf i] at h

/-- When only one slot can satisfy `p`, the scan finds that slot. -/
lemma firstIndex_eq_some_of_unique {p : Fin n → Bool} {i : Fin n} (h : p i = true)
    (huniq : ∀ j, p j = true → j = i) : firstIndex p = some i := by
  obtain ⟨j, hj⟩ := firstIndex_isSome h
  rw [hj, huniq j (firstIndex_spec hj)]

/-- The scan stops at slot zero if that satisfies `p`. -/
lemma firstIndex_eq_zero {p : Fin n → Bool} {i : Fin n} (hi : i.val = 0) (h : p i = true) :
    firstIndex p = some i := by
  cases n with
  | zero => exact i.elim0
  | succ n =>
    have hzero : i = 0 := Fin.ext hi
    subst hzero
    rw [firstIndex, List.finRange_succ, List.find?_cons, h]

lemma countIndex_eq_card (p : Fin n → Bool) :
    countIndex p = (Finset.univ.filter fun i => p i = true).card := by
  rw [countIndex, List.countP_eq_length_filter, Finset.card, Finset.filter_val]
  rw [Finset.univ, Fin.fintype]
  simp [Multiset.filter_coe]

lemma countIndex_pos {p : Fin n → Bool} : 0 < countIndex p ↔ ∃ i, p i = true := by
  simp [countIndex, List.countP_pos_iff]

lemma countIndex_congr {p q : Fin n → Bool} (h : ∀ i, p i = q i) :
    countIndex p = countIndex q := by
  rw [funext h]

lemma countIndex_mono {p q : Fin n → Bool} (h : ∀ i, p i = true → q i = true) :
    countIndex p ≤ countIndex q := by
  rw [countIndex_eq_card, countIndex_eq_card]
  exact Finset.card_le_card (Finset.monotone_filter_right _ fun i _ => h i)

/-- Switching one slot off lowers the count by one. -/
lemma countIndex_switch_off {p q : Fin n → Bool} {i : Fin n} (hp : p i = true)
    (hq : q i = false) (hrest : ∀ j, j ≠ i → q j = p j) :
    countIndex p = countIndex q + 1 := by
  rw [countIndex_eq_card, countIndex_eq_card]
  have hi : i ∉ Finset.univ.filter fun j => q j = true := by simp [hq]
  rw [← Finset.card_insert_of_notMem hi]
  congr 1
  ext j
  by_cases hj : j = i
  · subst hj; simp [hp]
  · simp [hj, hrest j hj]

/-! ### Passes over all slots -/

/-- The slots that satisfy `p`, from slot `0` upwards. -/
def slots (p : Fin n → Bool) : List (Fin n) := (List.finRange n).filter p

lemma mem_slots {p : Fin n → Bool} {i : Fin n} : i ∈ slots p ↔ p i = true := by
  simp [slots]

lemma nodup_slots (p : Fin n → Bool) : (slots p).Nodup := (List.nodup_finRange n).filter p

/-- One pass over a list counts what satisfies `p`, adds it up and keeps the last. -/
lemma foldl_totals {α : Type*} (p : α → Bool) (f g : α → ℕ) (l : List α) :
    l.foldl (fun (acc : ℕ × ℕ × ℕ) a =>
        if p a then (acc.1 + 1, acc.2.1 + f a, g a) else acc) (0, 0, 0) =
      ((l.filter p).length, ((l.filter p).map f).sum,
        ((l.filter p).getLast?.map g).getD 0) := by
  induction l using List.reverseRecOn with
  | nil => rfl
  | append_singleton l a ih =>
    rw [List.foldl_concat, ih]
    by_cases ha : p a = true
    · simp [ha]
    · simp [ha]

/-- The last slot that satisfies `p` is the highest. -/
lemma le_getLast_slots {p : Fin n → Bool} {i : Fin n} (h : p i = true) :
    i.val ≤ ((slots p).getLast?.map Fin.val).getD 0 := by
  have hmem : i ∈ slots p := mem_slots.mpr h
  have hsorted : (slots p).Pairwise (· < ·) := (List.pairwise_lt_finRange n).filter p
  rcases List.eq_nil_or_concat (slots p) with hnil | ⟨before, last, hconcat⟩
  · rw [hnil] at hmem
    cases hmem
  · rw [List.concat_eq_append] at hconcat
    rw [hconcat] at hmem hsorted ⊢
    have hlast : ((before ++ [last]).getLast?.map Fin.val).getD 0 = last.val := by simp
    rw [hlast]
    rcases List.mem_append.mp hmem with hbefore | hsame
    · exact (List.pairwise_append.mp hsorted).2.2 i hbefore last (by simp) |>.le
    · rw [List.mem_singleton.mp hsame]

lemma filter_range_of_lt {q : ℕ → Bool} {m k : ℕ} (hq : ∀ index, q index = true → index < m)
    (hle : m ≤ k) : (List.range k).filter q = (List.range m).filter q := by
  obtain ⟨d, rfl⟩ := Nat.exists_eq_add_of_le hle
  have hrest : ((List.range d).map (m + ·)).filter q = [] := by
    rw [List.filter_eq_nil_iff]
    intro index hindex hsat
    obtain ⟨j, -, rfl⟩ := List.mem_map.mp hindex
    have hlt := hq _ hsat
    omega
  rw [List.range_add, List.filter_append, hrest, List.append_nil]

/-- The slots that satisfy `p`, as the indices up to any bound above the last of them. -/
lemma map_val_slots {p : Fin n → Bool} {q : ℕ → Bool} {bound : ℕ}
    (hq : ∀ index, q index = true ↔ ∃ h : index < n, p ⟨index, h⟩ = true)
    (hbound : ∀ index, q index = true → index < bound) :
    (slots p).map Fin.val = (List.range bound).filter q := by
  have hall : (slots p).map Fin.val = (List.range n).filter q := by
    have hp : p = q ∘ Fin.val := by
      funext i
      rw [Bool.eq_iff_iff, Function.comp_apply, hq]
      exact ⟨fun h => ⟨i.isLt, h⟩, fun ⟨_, h⟩ => h⟩
    rw [slots, hp, ← List.filter_map, List.map_coe_finRange_eq_range]
  have hslots : ∀ index, q index = true → index < min n bound := fun index hindex =>
    lt_min ((hq index).mp hindex).1 (hbound index hindex)
  rw [hall, filter_range_of_lt hslots (min_le_left n bound),
    filter_range_of_lt hslots (min_le_right n bound)]

/-! ### Keyed tables -/

/-- Which slots are live, and the key a live slot carries. -/
structure Keyed (α κ : Type*) where
  live : α → Bool
  key : α → κ

namespace Keyed

variable {α κ : Type*} (K : Keyed α κ)

/-- The first live slot with key `k`. -/
def find [DecidableEq κ] (t : Fin n → α) (k : κ) : Option (Fin n) :=
  firstIndex fun i => K.live (t i) && decide (K.key (t i) = k)

/-- The first dead slot. -/
def findFree (t : Fin n → α) : Option (Fin n) :=
  firstIndex fun i => !K.live (t i)

/-- The number of dead slots. -/
def freeCount (t : Fin n → α) : ℕ :=
  countIndex fun i => !K.live (t i)

/-- No two live slots carry the same key. -/
def Distinct (t : Fin n → α) : Prop :=
  ∀ i j, K.live (t i) = true → K.live (t j) = true → K.key (t i) = K.key (t j) → i = j

variable {K} {t : Fin n → α} {k : κ} {i : Fin n} {a : α}

section

variable [DecidableEq κ]

lemma live_of_find (h : K.find t k = some i) : K.live (t i) = true := by
  have := firstIndex_spec h
  simp only [Bool.and_eq_true, decide_eq_true_eq] at this
  exact this.1

lemma key_of_find (h : K.find t k = some i) : K.key (t i) = k := by
  have := firstIndex_spec h
  simp only [Bool.and_eq_true, decide_eq_true_eq] at this
  exact this.2

lemma find_eq_none : K.find t k = none ↔ ∀ i, K.live (t i) = true → K.key (t i) ≠ k := by
  simp [find, firstIndex_eq_none]

lemma Distinct.find_eq_some (hd : K.Distinct t) :
    K.find t k = some i ↔ K.live (t i) = true ∧ K.key (t i) = k := by
  constructor
  · intro h
    exact ⟨live_of_find h, key_of_find h⟩
  · rintro ⟨hl, rfl⟩
    apply firstIndex_eq_some_of_unique
    · simp [hl]
    · intro j hj
      simp only [Bool.and_eq_true, decide_eq_true_eq] at hj
      exact hd j i hj.1 hl hj.2

/-- Lookups of other keys do not see a write. -/
lemma find_update_of_ne (hold : K.live (t i) = true → K.key (t i) ≠ k)
    (hnew : K.live a = true → K.key a ≠ k) :
    K.find (Function.update t i a) k = K.find t k := by
  unfold find
  congr 1
  funext j
  by_cases hj : j = i
  · subst hj
    cases hl : K.live (t j) <;> cases ha : K.live a <;> simp [ha, hold, hnew, hl]
  · simp [hj]

end

lemma dead_of_findFree (h : K.findFree t = some i) : K.live (t i) = false := by
  simpa using firstIndex_spec h

lemma findFree_isSome (h : 0 < K.freeCount t) : ∃ i, K.findFree t = some i := by
  obtain ⟨i, hi⟩ := countIndex_pos.mp h
  exact firstIndex_isSome hi

/-! Writing one slot: the slot is claimed, changed in place or retired. -/

lemma Distinct.update (hd : K.Distinct t)
    (hnew : K.live a = true → ∀ j, j ≠ i → K.live (t j) = true → K.key (t j) ≠ K.key a) :
    K.Distinct (Function.update t i a) := by
  intro j l hj hl hkey
  by_cases hji : j = i <;> by_cases hli : l = i
  · rw [hji, hli]
  · subst hji
    simp only [Function.update_self, Function.update_of_ne hli] at hj hl hkey
    exact absurd hkey.symm (hnew hj l hli hl)
  · subst hli
    simp only [Function.update_self, Function.update_of_ne hji] at hj hl hkey
    exact absurd hkey (hnew hl j hji hj)
  · simp only [Function.update_of_ne hji, Function.update_of_ne hli] at hj hl hkey
    exact hd j l hj hl hkey

/-- Switching slots off keeps the live keys distinct. -/
lemma Distinct.of_live_le {u : Fin n → α} (hd : K.Distinct t)
    (h : ∀ i, K.live (u i) = true → K.live (t i) = true ∧ K.key (u i) = K.key (t i)) :
    K.Distinct u := by
  intro i j hi hj hkey
  obtain ⟨hi', hki⟩ := h i hi
  obtain ⟨hj', hkj⟩ := h j hj
  exact hd i j hi' hj' (by rw [← hki, ← hkj, hkey])

lemma freeCount_claim (hdead : K.live (t i) = false) (hlive : K.live a = true) :
    K.freeCount t = K.freeCount (Function.update t i a) + 1 := by
  apply countIndex_switch_off (i := i)
  · simp [hdead]
  · simp [hlive]
  · intro j hj; simp [hj]

lemma freeCount_retire (hlive : K.live (t i) = true) (hdead : K.live a = false) :
    K.freeCount (Function.update t i a) = K.freeCount t + 1 := by
  apply countIndex_switch_off (i := i)
  · simp [hdead]
  · simp [hlive]
  · intro j hj; simp [hj]

lemma freeCount_rewrite (hlive : K.live a = K.live (t i)) :
    K.freeCount (Function.update t i a) = K.freeCount t := by
  apply countIndex_congr
  intro j
  by_cases hj : j = i
  · subst hj; simp [hlive]
  · simp [hj]

end Keyed

end Table
