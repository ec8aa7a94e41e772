import Mathlib.Tactic

/-!
# Paged memory

Bytes are addressed one by one; protections are kept page by page, and a page without one is not
mapped. Protecting, mapping and unmapping act on whole pages, so on every page that a range of
bytes overlaps, whereas a copy moves exactly the bytes it is asked for. The last section puts the
two together: what the pages of a range hold once fresh pages have replaced them and the range
has been copied back from a scratch range.
-/

namespace Paging

variable {β π : Type*} {size address length source destination scratch a page : ℕ}

/-- The pages that the `length` bytes from `address` on overlap. -/
def pages (size address length : ℕ) : List ℕ :=
  if length = 0 then []
  else List.range' (address / size) ((address + length - 1) / size + 1 - address / size)

lemma mem_pages : page ∈ pages size address length ↔
    0 < length ∧ address / size ≤ page ∧ page ≤ (address + length - 1) / size := by
  unfold pages
  split
  · rename_i hlength
    simp [hlength]
  · rename_i hlength
    have hle : address / size ≤ (address + length - 1) / size :=
      Nat.div_le_div_right (by omega)
    rw [List.mem_range'_1]
    omega

/-- They are the pages of the range's addresses. -/
lemma mem_pages_iff (hsize : 0 < size) : page ∈ pages size address length ↔
    ∃ a, address ≤ a ∧ a < address + length ∧ a / size = page := by
  rw [mem_pages]
  constructor
  · rintro ⟨hlength, hfirst, hlast⟩
    rcases hfirst.eq_or_lt with rfl | hlt
    · exact ⟨address, le_rfl, by omega, rfl⟩
    · -- a later page is overlapped from its first byte on
      have hbelow : address < page * size := (Nat.div_lt_iff_lt_mul hsize).mp hlt
      have habove : page * size ≤ address + length - 1 := (Nat.le_div_iff_mul_le hsize).mp hlast
      exact ⟨page * size, hbelow.le, by omega, Nat.mul_div_cancel page hsize⟩
  · rintro ⟨a, hle, hlt, rfl⟩
    exact ⟨by omega, Nat.div_le_div_right hle, Nat.div_le_div_right (by omega)⟩

lemma pages_nonempty (size address : ℕ) (hlength : 0 < length) :
    ∃ page, page ∈ pages size address length :=
  ⟨address / size, mem_pages.mpr ⟨hlength, le_rfl, Nat.div_le_div_right (by omega)⟩⟩

structure Memory (β π : Type*) where
  bytes : ℕ → β
  prot : ℕ → Option π

namespace Memory

variable {m : Memory β π} {touched : List ℕ} {p : π} {fill : β}

def Mapped (m : Memory β π) (touched : List ℕ) : Prop := ∀ page ∈ touched, (m.prot page).isSome

def Unmapped (m : Memory β π) (touched : List ℕ) : Prop := ∀ page ∈ touched, (m.prot page).isNone

instance (m : Memory β π) (touched : List ℕ) : Decidable (m.Mapped touched) :=
  inferInstanceAs (Decidable (∀ page ∈ touched, (m.prot page).isSome))

instance (m : Memory β π) (touched : List ℕ) : Decidable (m.Unmapped touched) :=
  inferInstanceAs (Decidable (∀ page ∈ touched, (m.prot page).isNone))

lemma Mapped.not_mem {other : List ℕ} (hmapped : m.Mapped touched) (hother : m.Unmapped other)
    (hpage : page ∈ touched) : page ∉ other := by
  intro hmem
  have hsome := hmapped page hpage
  have hnone := hother page hmem
  simp_all

/-! ### Whole pages -/

def protect (m : Memory β π) (touched : List ℕ) (p : π) : Memory β π :=
  { m with prot := fun page => if page ∈ touched then some p else m.prot page }

/-- Fresh pages, filled with one value. -/
def mapFresh (m : Memory β π) (size : ℕ) (touched : List ℕ) (p : π) (fill : β) : Memory β π :=
  { m.protect touched p with
    bytes := fun a => if a / size ∈ touched then fill else m.bytes a }

def unmap (m : Memory β π) (touched : List ℕ) : Memory β π :=
  { m with prot := fun page => if page ∈ touched then none else m.prot page }

@[simp] lemma bytes_protect : (m.protect touched p).bytes = m.bytes := rfl

@[simp] lemma bytes_unmap : (m.unmap touched).bytes = m.bytes := rfl

lemma bytes_mapFresh : (m.mapFresh size touched p fill).bytes a =
    if a / size ∈ touched then fill else m.bytes a := rfl

@[simp] lemma prot_protect : (m.protect touched p).prot page =
    if page ∈ touched then some p else m.prot page := rfl

@[simp] lemma prot_mapFresh : (m.mapFresh size touched p fill).prot page =
    if page ∈ touched then some p else m.prot page := rfl

@[simp] lemma prot_unmap : (m.unmap touched).prot page =
    if page ∈ touched then none else m.prot page := rfl

lemma mapped_protect : (m.protect touched p).Mapped touched := by
  intro page hpage
  simp [hpage]

/-! ### Single bytes -/

def store (m : Memory β π) (a : ℕ) (b : β) : Memory β π :=
  { m with bytes := Function.update m.bytes a b }

/-- Byte by byte, from the first on. -/
def copyBytes (m : Memory β π) (destination source length : ℕ) : Memory β π :=
  (List.range length).foldl
    (fun m index => m.store (destination + index) (m.bytes (source + index))) m

lemma copyBytes_succ : m.copyBytes destination source (length + 1) =
    (m.copyBytes destination source length).store (destination + length)
      ((m.copyBytes destination source length).bytes (source + length)) := by
  simp [copyBytes, List.range_succ]

@[simp] lemma prot_copyBytes : (m.copyBytes destination source length).prot = m.prot := by
  induction length with
  | zero => rfl
  | succ length ih => rw [copyBytes_succ, ← ih]; rfl

/-- A copy between ranges without a common byte. -/
lemma bytes_copyBytes (hdisjoint : ∀ i < length, ∀ j < length, destination + i ≠ source + j) :
    (m.copyBytes destination source length).bytes a =
      if destination ≤ a ∧ a < destination + length then m.bytes (source + (a - destination))
      else m.bytes a := by
  induction length generalizing a with
  | zero =>
    have hempty : ¬ (destination ≤ a ∧ a < destination + 0) := by omega
    rw [if_neg hempty]
    rfl
  | succ length ih =>
    have hprevious := fun b => @ih b fun i hi j hj => hdisjoint i (by omega) j (by omega)
    -- the source byte has not been overwritten yet
    have hsource : ¬ (destination ≤ source + length ∧ source + length < destination + length) := by
      rintro ⟨hle, hlt⟩
      exact hdisjoint (source + length - destination) (by omega) length (by omega) (by omega)
    rw [copyBytes_succ, store]
    simp only [Function.update_apply, hprevious, if_neg hsource]
    by_cases hlast : a = destination + length
    · subst hlast
      simp
    · have hsame : (destination ≤ a ∧ a < destination + (length + 1)) ↔
          (destination ≤ a ∧ a < destination + length) := by omega
      simp only [hlast, hsame, if_false]

/-! ### Replacing pages through a scratch range -/

/-- The range is copied out, its pages are replaced by fresh ones, and it is copied back. -/
def replaceThrough (m : Memory β π) (size address length scratch : ℕ) (p : π) (fill : β) :
    Memory β π :=
  ((m.copyBytes scratch address length).mapFresh size (pages size address length) p fill).copyBytes
    address scratch length

lemma mapped_replaceThrough :
    (m.replaceThrough size address length scratch p fill).Mapped (pages size address length) := by
  intro page hpage
  simp [replaceThrough, hpage]

lemma disjoint_of_pages (hsize : 0 < size)
    (hdisjoint : ∀ page ∈ pages size address length, page ∉ pages size scratch length)
    {i j : ℕ} (hi : i < length) (hj : j < length) : address + i ≠ scratch + j := by
  intro heq
  refine hdisjoint ((address + i) / size) ?_ ?_
  · exact (mem_pages_iff hsize).mpr ⟨address + i, by omega, by omega, rfl⟩
  · exact (mem_pages_iff hsize).mpr ⟨address + i, by omega, by omega, rfl⟩

/-- A copy into other pages is not seen. -/
lemma bytes_copyBytes_other (hsize : 0 < size)
    (hdisjoint : ∀ page ∈ pages size address length, page ∉ pages size scratch length)
    (ha : a / size ∈ pages size address length) :
    (m.copyBytes scratch address length).bytes a = m.bytes a := by
  rw [bytes_copyBytes fun i hi j hj => (disjoint_of_pages hsize hdisjoint hj hi).symm, if_neg]
  rintro ⟨hle, hlt⟩
  exact hdisjoint _ ha ((mem_pages_iff hsize).mpr ⟨a, hle, hlt, rfl⟩)

/-- The range's own bytes are back; what else its pages held is gone. -/
lemma bytes_replaceThrough (hsize : 0 < size)
    (hdisjoint : ∀ page ∈ pages size address length, page ∉ pages size scratch length)
    (ha : a / size ∈ pages size address length) :
    (m.replaceThrough size address length scratch p fill).bytes a =
      if address ≤ a ∧ a < address + length then m.bytes a else fill := by
  have hne := @disjoint_of_pages size address length scratch hsize hdisjoint
  rw [replaceThrough, bytes_copyBytes fun i hi j hj => hne hi hj]
  split
  · rename_i hin
    have hscratch : (scratch + (a - address)) / size ∈ pages size scratch length :=
      (mem_pages_iff hsize).mpr ⟨_, by omega, by omega, rfl⟩
    rw [bytes_mapFresh, if_neg fun hmem => hdisjoint _ hmem hscratch,
      bytes_copyBytes fun i hi j hj => (hne hj hi).symm, if_pos (by omega)]
    congr 1
    omega
  · rw [bytes_mapFresh, if_pos ha]

end Memory

end Paging
