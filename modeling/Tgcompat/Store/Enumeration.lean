import Tgcompat.Store.Errors
import Tgcompat.Store.Run

/-!
# Enumeration of the sets

`tgc_sem_store_info` returns the highest index in use, and `tgc_sem_store_stat_index` is asked for
the indices up to it. On a reachable store this finds the sets that exist, each once and in the
order of their slots, whatever holes removals have left.
-/

namespace Tgcompat

namespace SemStore

variable {st : SemStore} {i : Fin semMaxSets} {index : ℕ}

def activeSlots (st : SemStore) : List (Fin semMaxSets) := Table.slots fun i => (st.sets i).active

lemma mem_activeSlots : i ∈ st.activeSlots ↔ (st.sets i).active = true := Table.mem_slots

/-! ### The totals -/

lemma infoTotals_eq (st : SemStore) : st.infoTotals =
    (st.activeSlots.length, (st.activeSlots.map fun i => (st.sets i).nsems).sum,
      (st.activeSlots.getLast?.map Fin.val).getD 0) :=
  Table.foldl_totals (fun i => (st.sets i).active) (fun i => (st.sets i).nsems) Fin.val _

/-- The highest index in use. -/
def highestIndex (st : SemStore) : ℕ := st.infoTotals.2.2

lemma le_highestIndex (h : (st.sets i).active = true) : i.val ≤ st.highestIndex := by
  rw [highestIndex, infoTotals_eq]
  exact Table.le_getLast_slots h

lemma highestIndex_lt (st : SemStore) : st.highestIndex < semMaxSets := by
  rw [highestIndex, infoTotals_eq]
  cases hlast : st.activeSlots.getLast? with
  | none => exact (by decide : 0 < semMaxSets)
  | some i => exact i.isLt

lemma toInt_info (st : SemStore) (dynamic : Bool) :
    (st.info dynamic).1.toInt = st.highestIndex := by
  have hlt := st.highestIndex_lt
  have hmax : semMaxSets = 128 := rfl
  exact Int32.toInt_ofNat_of_lt (show st.highestIndex < 2 ^ 31 by omega)

lemma info_nonneg (st : SemStore) (dynamic : Bool) : 0 ≤ (st.info dynamic).1 := by
  rw [Int32.le_iff_toInt_le, st.toInt_info dynamic]
  exact Int.natCast_nonneg _

lemma length_activeSlots_le (st : SemStore) : st.activeSlots.length ≤ semMaxSets := by
  have hle := List.length_filter_le (fun i => (st.sets i).active) (List.finRange semMaxSets)
  rwa [List.length_finRange] at hle

/-- The semaphores of all sets fit the 512 of each slot. -/
lemma sum_nsems_le (h : st.Inv) :
    (st.activeSlots.map fun i => (st.sets i).nsems).sum ≤ semMaxSets * semMaxPerSet := by
  have hsum := List.sum_le_card_nsmul (st.activeSlots.map fun i => (st.sets i).nsems) semMaxPerSet
    (by
      intro nsems hnsems
      obtain ⟨i, hi, rfl⟩ := List.mem_map.mp hnsems
      exact (h.valid i (mem_activeSlots.mp hi)).nsems_le)
  rw [List.length_map, smul_eq_mul] at hsum
  exact hsum.trans (Nat.mul_le_mul_right _ st.length_activeSlots_le)

/-! ### One index -/

/-- What `get_metadata` says about the set in slot `i`. -/
def metadataOf (st : SemStore) (i : Fin semMaxSets) : SemMetadata where
  key := (st.sets i).key
  uid := (st.sets i).uid
  gid := (st.sets i).gid
  cuid := (st.sets i).cuid
  cgid := (st.sets i).cgid
  mode := (st.sets i).mode
  nsems := UInt32.ofNat (st.sets i).nsems
  otime := (st.sets i).otime
  ctime := (st.sets i).ctime
  sequence := UInt32.ofNat (st.sets i).generation

lemma Inv.decodeId_idOf (h : st.Inv) (hi : (st.sets i).active = true) :
    decodeId (st.idOf i) = some (i, (st.sets i).generation) :=
  decodeId_eq_some_iff.mpr ⟨(h.valid i hi).generation, rfl⟩

lemma Inv.getMetadata_idOf (h : st.Inv) (hi : (st.sets i).active = true) :
    st.getMetadata (st.idOf i) = (0, some (st.metadataOf i)) := by
  rw [getMetadata, h.findSet_idOf hi, h.decodeId_idOf hi]
  rfl

lemma Inv.statIndex_of_active (h : st.Inv) (hi : (st.sets i).active = true) :
    st.statIndex i = (st.idOf i, some (st.metadataOf i)) := by
  have hmetadata := h.getMetadata_idOf hi
  rw [idOf] at hmetadata
  simp only [statIndex, i.isLt, dif_pos, Fin.eta, hi, if_true, hmetadata]
  rfl

lemma statIndex_of_inactive
    (hnone : ∀ hindex : index < semMaxSets, (st.sets ⟨index, hindex⟩).active = false) :
    st.statIndex index = (-EINVAL, none) := by
  rw [statIndex]
  split
  · rename_i hindex
    simp [hnone hindex]
  · rfl

/-- The indices for which `stat_index` succeeds are those of the active slots. -/
lemma Inv.statIndex_nonneg_iff (h : st.Inv) :
    0 ≤ (st.statIndex index).1 ↔ ∃ hindex : index < semMaxSets,
      (st.sets ⟨index, hindex⟩).active = true := by
  constructor
  · intro hnonneg
    by_contra hnone
    have hinactive : ∀ hindex : index < semMaxSets, (st.sets ⟨index, hindex⟩).active = false :=
      fun hindex => eq_false_of_ne_true fun hactive => hnone ⟨hindex, hactive⟩
    rw [statIndex_of_inactive hinactive] at hnonneg
    exact absurd hnonneg (by decide)
  · rintro ⟨hindex, hactive⟩
    have hstat := h.statIndex_of_active hactive
    rw [hstat]
    exact Int32.le_of_lt (makeId_pos hindex (h.generation_le _))

/-! ### All indices -/

/-- What the indices up to `highest` bring to light. -/
def enumeration (st : SemStore) (highest : Int32) : List (Int32 × Option SemMetadata) :=
  ((List.range (highest.toInt.toNat + 1)).map st.statIndex).filter fun answer =>
    decide (0 ≤ answer.1)

lemma Inv.lt_of_statIndex (h : st.Inv) (hindex : 0 ≤ (st.statIndex index).1) :
    index < st.highestIndex + 1 := by
  obtain ⟨hlt, hactive⟩ := h.statIndex_nonneg_iff.mp hindex
  exact Nat.lt_succ_of_le (le_highestIndex hactive)

/-- The enumeration goes over the active slots. -/
lemma Inv.enumeration_eq (h : st.Inv) (dynamic : Bool) :
    st.enumeration (st.info dynamic).1 =
      st.activeSlots.map fun i => (st.idOf i, some (st.metadataOf i)) := by
  have hslots : st.activeSlots.map Fin.val = (List.range (st.highestIndex + 1)).filter
      fun index => decide (0 ≤ (st.statIndex index).1) :=
    Table.map_val_slots (fun index => by rw [decide_eq_true_iff, h.statIndex_nonneg_iff])
      fun index hindex => h.lt_of_statIndex (of_decide_eq_true hindex)
  rw [enumeration, toInt_info, Int.toNat_natCast, List.filter_map]
  simp only [Function.comp_def]
  rw [← hslots, List.map_map]
  refine List.map_congr_left fun i hi => ?_
  exact h.statIndex_of_active (mem_activeSlots.mp hi)

lemma Inv.nodup_ids (h : st.Inv) : (st.activeSlots.map st.idOf).Nodup := by
  refine List.Nodup.map_on ?_ (Table.nodup_slots _)
  intro i hi j hj heq
  exact idOf_inj (h.valid i (mem_activeSlots.mp hi)).generation
    (h.valid j (mem_activeSlots.mp hj)).generation heq

/-- The metadata say how many semaphores a set has, without a wrap. -/
lemma Inv.nsems_metadataOf (h : st.Inv) (hi : (st.sets i).active = true) :
    (st.metadataOf i).nsems.toNat = (st.sets i).nsems := by
  have hle := (h.valid i hi).nsems_le
  have hmax : semMaxPerSet = 512 := rfl
  exact UInt32.toNat_ofNat_of_lt' (show (st.sets i).nsems < 2 ^ 32 by omega)

lemma Inv.sequence_metadataOf (h : st.Inv) : (st.metadataOf i).sequence.toNat =
    (st.sets i).generation := by
  have hle := h.generation_le i
  have hmax : semIdMaxGeneration = 32767 := rfl
  exact UInt32.toNat_ofNat_of_lt' (show (st.sets i).generation < 2 ^ 32 by omega)

/-- On a reachable store the indices up to the result of `info` enumerate the active sets, each
once and in the order of their slots, with the metadata that their ids have; no index above it
succeeds, and the dynamic totals are those of the enumeration. -/
theorem enumeration_complete (calls : List StoreOp) (dynamic : Bool) :
    let st := create.run calls
    let highest := (st.info dynamic).1
    0 ≤ highest ∧
      (∀ index : ℕ, highest.toInt < index → (st.statIndex index).1 < 0) ∧
      ((st.enumeration highest).map Prod.fst = st.activeSlots.map st.idOf ∧
        ((st.enumeration highest).map Prod.fst).Nodup ∧
        ∀ i, (st.sets i).active = true ↔ i ∈ st.activeSlots) ∧
      (∀ answer ∈ st.enumeration highest, ∃ metadata i generation,
        answer.2 = some metadata ∧ st.getMetadata answer.1 = (0, some metadata) ∧
          decodeId answer.1 = some (i, generation) ∧ metadata.sequence.toNat = generation) ∧
      (st.info true).2.semusz.toInt = (st.enumeration highest).length ∧
      (st.info true).2.semaem.toInt = ((st.enumeration highest).map fun answer =>
        (answer.2.map fun metadata => metadata.nsems.toNat).getD 0).sum := by
  intro st highest
  have h : st.Inv := inv_run calls
  have henumeration : st.enumeration highest = _ := h.enumeration_eq dynamic
  have hids : (st.enumeration highest).map Prod.fst = st.activeSlots.map st.idOf := by
    rw [henumeration, List.map_map]
    rfl
  refine ⟨?_, ?_, ⟨hids, hids ▸ h.nodup_ids, fun i => mem_activeSlots.symm⟩, ?_, ?_, ?_⟩
  · exact st.info_nonneg dynamic
  · intro index hindex
    rw [st.toInt_info dynamic] at hindex
    by_contra hsucceeds
    have hlt := h.lt_of_statIndex (Int32.not_lt.mp hsucceeds)
    omega
  · intro answer hanswer
    rw [henumeration] at hanswer
    obtain ⟨i, hi, rfl⟩ := List.mem_map.mp hanswer
    have hactive := mem_activeSlots.mp hi
    exact ⟨st.metadataOf i, i, _, rfl, h.getMetadata_idOf hactive, h.decodeId_idOf hactive,
      h.sequence_metadataOf⟩
  · have hle := st.length_activeSlots_le
    have hmax : semMaxSets = 128 := rfl
    rw [henumeration, List.length_map]
    have htotal : (st.info true).2.semusz = Int32.ofNat st.activeSlots.length := by
      simp only [info, infoTotals_eq, if_true]
    rw [htotal, Int32.toInt_ofNat_of_lt (by omega)]
  · have hle := sum_nsems_le h
    have hmax : semMaxSets * semMaxPerSet = 65536 := rfl
    have htotal : (st.info true).2.semaem =
        Int32.ofNat (st.activeSlots.map fun i => (st.sets i).nsems).sum := by
      simp only [info, infoTotals_eq, if_true]
    rw [htotal, Int32.toInt_ofNat_of_lt (by omega), henumeration, List.map_map]
    congr 2
    refine List.map_congr_left fun i hi => ?_
    exact (h.nsems_metadataOf (mem_activeSlots.mp hi)).symm

end SemStore

end Tgcompat
