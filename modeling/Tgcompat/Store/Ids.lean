import Tgcompat.Store.Basic

/-!
# Semaphore set identifiers

An id packs a 15-bit generation above a 16-bit slot number. On the generations a store hands out
the packing is injective and strictly positive, and `decodeId` is its inverse. Hence `findSet`
resolves exactly the ids of the active slots.
-/

namespace Tgcompat

/-- The generations that occur in an id. -/
def GenerationOk (g : ℕ) : Prop := 1 ≤ g ∧ g ≤ semIdMaxGeneration

/-- The packed id as a number. -/
lemma packed_eq_add {i : ℕ} (hi : i < semMaxSets) (g : ℕ) :
    (g <<< semIdIndexBits) ||| (i + 1) = g * 65536 + (i + 1) := by
  have hlt : i + 1 < 2 ^ semIdIndexBits := by
    simp only [semMaxSets, semIdIndexBits] at hi ⊢
    omega
  rw [← Nat.shiftLeft_add_eq_or_of_lt hlt, Nat.shiftLeft_eq]
  simp [semIdIndexBits]

lemma toInt_makeId {i g : ℕ} (hi : i < semMaxSets) (hg : g ≤ semIdMaxGeneration) :
    (makeId i g).toInt = g * 65536 + (i + 1) := by
  rw [makeId, packed_eq_add hi, Int32.toInt_ofNat_of_lt]
  · push_cast; ring
  · simp only [semMaxSets, semIdMaxGeneration] at hi hg
    omega

lemma makeId_pos {i g : ℕ} (hi : i < semMaxSets) (hg : g ≤ semIdMaxGeneration) :
    0 < makeId i g := by
  rw [Int32.lt_iff_toInt_lt, toInt_makeId hi hg]
  simp only [Int32.toInt_zero]
  omega

/-- An id handed out for a set is larger than every status code. -/
lemma makeId_gt_one {i g : ℕ} (hi : i < semMaxSets) (hg : GenerationOk g) :
    1 < makeId i g := by
  rw [Int32.lt_iff_toInt_lt, toInt_makeId hi hg.2]
  have h1 := hg.1
  simp only [Int32.toInt_one]
  omega

lemma makeId_inj {i j g k : ℕ} (hi : i < semMaxSets) (hj : j < semMaxSets)
    (hg : g ≤ semIdMaxGeneration) (hk : k ≤ semIdMaxGeneration)
    (h : makeId i g = makeId j k) : i = j ∧ g = k := by
  have h' := congrArg Int32.toInt h
  rw [toInt_makeId hi hg, toInt_makeId hj hk] at h'
  simp only [semMaxSets] at hi hj
  omega

/-- What `decodeId` computes on a positive id, as arithmetic. -/
lemma decodeId_of_pos {semid : Int32} (hpos : 0 < semid) :
    ∃ n : ℕ, semid.toInt = n ∧ semid.toUInt32.toNat = n ∧ n < 2 ^ 31 := by
  have hle : (0 : Int32) ≤ semid := by
    rw [Int32.le_iff_toInt_le]
    rw [Int32.lt_iff_toInt_lt] at hpos
    omega
  refine ⟨semid.toNatClampNeg, ?_, Int32.toNat_toUInt32_of_le hle, Int32.toNatClampNeg_lt semid⟩
  rw [← Int32.toNat_toInt, Int.toNat_of_nonneg]
  simpa [Int32.le_iff_toInt_le] using hle

/-- `decodeId` inverts `makeId`, and accepts nothing else. -/
theorem decodeId_eq_some_iff {semid : Int32} {i : Fin semMaxSets} {g : ℕ} :
    decodeId semid = some (i, g) ↔ GenerationOk g ∧ semid = makeId i g := by
  by_cases hpos : 0 < semid
  · have hnle : ¬ semid ≤ 0 := by
      rw [Int32.le_iff_toInt_le]
      rw [Int32.lt_iff_toInt_lt] at hpos
      omega
    obtain ⟨n, hn, hu, hlt⟩ := decodeId_of_pos hpos
    have hand : n &&& semIdIndexMask = n % 65536 := by
      have := Nat.and_two_pow_sub_one_eq_mod n 16
      simpa [semIdIndexMask] using this
    have hshift : n >>> semIdIndexBits = n / 65536 := by
      simp [semIdIndexBits, Nat.shiftRight_eq_div_pow]
    have hsem : semid = makeId i g ∧ g ≤ semIdMaxGeneration ↔
        n = g * 65536 + (i + 1) ∧ g ≤ semIdMaxGeneration := by
      refine and_congr_left fun hg => ?_
      rw [← Int32.toInt_inj, hn, toInt_makeId i.isLt hg]
      omega
    have hi := i.isLt
    simp only [decodeId, if_neg hnle, hu, hand, hshift]
    rw [GenerationOk, and_assoc, and_comm (a := g ≤ semIdMaxGeneration), hsem]
    have hmax : semMaxSets = 128 := rfl
    simp only [semIdMaxGeneration]
    by_cases h : n % 65536 = 0 ∨ n % 65536 > semMaxSets ∨ n / 65536 % 2 ^ 16 = 0
    · rw [dif_pos h]
      simp only [reduceCtorEq, false_iff]
      omega
    · rw [dif_neg h]
      simp only [Option.some.injEq, Prod.mk.injEq, Fin.ext_iff]
      omega
  · have hle : semid ≤ 0 := by
      rw [Int32.le_iff_toInt_le]
      rw [Int32.lt_iff_toInt_lt] at hpos
      omega
    simp only [decodeId, if_pos hle, reduceCtorEq, false_iff, not_and]
    rintro hg rfl
    exact hpos (makeId_pos i.isLt hg.2)

namespace SemStore

variable {st : SemStore} {semid : Int32} {i j : Fin semMaxSets}

/-- `findSet` resolves exactly the ids of the active slots. -/
theorem findSet_eq_some_iff :
    st.findSet semid = some i ↔
      (st.sets i).active = true ∧ GenerationOk (st.sets i).generation ∧ semid = st.idOf i := by
  unfold findSet
  cases hd : decodeId semid with
  | none =>
    simp only [reduceCtorEq, false_iff, not_and]
    intro _ hg heq
    have := decodeId_eq_some_iff.mpr ⟨hg, heq⟩
    rw [hd] at this
    cases this
  | some p =>
    obtain ⟨k, g⟩ := p
    obtain ⟨hg, rfl⟩ := decodeId_eq_some_iff.mp hd
    simp only [Option.ite_none_right_eq_some, Option.some.injEq]
    constructor
    · rintro ⟨⟨ha, rfl⟩, rfl⟩
      exact ⟨ha, hg, rfl⟩
    · rintro ⟨ha, hg', heq⟩
      obtain ⟨hki, hgg⟩ := makeId_inj k.isLt i.isLt hg.2 hg'.2 heq
      have hki : k = i := Fin.ext hki
      subst hki
      exact ⟨⟨ha, hgg.symm⟩, rfl⟩

lemma active_of_findSet (h : st.findSet semid = some i) : (st.sets i).active = true :=
  (findSet_eq_some_iff.mp h).1

lemma eq_idOf_of_findSet (h : st.findSet semid = some i) : semid = st.idOf i :=
  (findSet_eq_some_iff.mp h).2.2

/-- Two slots never share an id. -/
lemma idOf_inj (hi : GenerationOk (st.sets i).generation)
    (hj : GenerationOk (st.sets j).generation) (h : st.idOf i = st.idOf j) : i = j :=
  Fin.ext (makeId_inj i.isLt j.isLt hi.2 hj.2 h).1

/-- `findSet` only looks at the active flags and the generations. -/
lemma findSet_congr {st' : SemStore} (hactive : ∀ k, (st'.sets k).active = (st.sets k).active)
    (hgen : ∀ k, (st'.sets k).generation = (st.sets k).generation) (semid : Int32) :
    st'.findSet semid = st.findSet semid := by
  unfold findSet
  cases decodeId semid with
  | none => rfl
  | some p => simp only [hactive, hgen]

end SemStore

end Tgcompat
