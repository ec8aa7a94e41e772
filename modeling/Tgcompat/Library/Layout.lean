import Mathlib.Data.List.Pairwise
import Mathlib.Logic.Equiv.Defs
import Mathlib.Tactic

/-!
# Fields of a memory layout

Memory is a function from addresses to cells. A `Field` is a kind of value that occupies a fixed
number of consecutive cells, together with a reader and a writer that work at any address. Its
laws say that a value reads back as it was written, that no other cell is touched, and that the
cells hold nothing but the value, so that writing what was read restores them.

Fields stand one after the other in `Field.seq`, are seen through a bijection in `Field.map`, and
a loop that writes one of them at several addresses is a left fold.
-/

namespace Layout

/-- A value of type `α` that occupies `width` cells of type `κ`. -/
structure Field (κ α : Type*) where
  width : ℕ
  get : (ℕ → κ) → ℕ → α
  put : (ℕ → κ) → ℕ → α → ℕ → κ
  /-- Only the cells of the field are read. -/
  get_congr : ∀ {m m' : ℕ → κ} {off : ℕ},
    (∀ n, off ≤ n → n < off + width → m n = m' n) → get m off = get m' off
  get_put : ∀ (m : ℕ → κ) (off : ℕ) (v : α), get (put m off v) off = v
  put_outside : ∀ (m : ℕ → κ) {off n : ℕ} (v : α),
    n < off ∨ off + width ≤ n → put m off v n = m n
  /-- Written over other memory, the value determines the cells it was read from. -/
  put_get : ∀ (m m' : ℕ → κ) {off n : ℕ}, off ≤ n → n < off + width → put m' off (get m off) n = m n

namespace Field

variable {κ α β ι : Type*} {m m' : ℕ → κ} {off off' n : ℕ}

attribute [simp] get_put

/-! ### One field beside another -/

/-- A read sees through a write to other cells. -/
@[simp] lemma get_put_of_disjoint (f : Field κ α) (g : Field κ β) {v : β}
    (h : off + f.width ≤ off' ∨ off' + g.width ≤ off) :
    f.get (g.put m off' v) off = f.get m off := by
  apply f.get_congr
  intro n hlo hhi
  apply g.put_outside
  omega

/-- The cells written depend on the value alone. -/
lemma put_congr (f : Field κ α) {v : α} (hlo : off ≤ n) (hhi : n < off + f.width) :
    f.put m off v n = f.put m' off v n := by
  have h := f.put_get (f.put m off v) m' hlo hhi
  rw [f.get_put] at h
  exact h.symm

/-! ### Composite fields -/

/-- Two fields, the second right after the first. -/
def seq (f : Field κ α) (g : Field κ β) : Field κ (α × β) where
  width := f.width + g.width
  get m off := (f.get m off, g.get m (off + f.width))
  put m off v := g.put (f.put m off v.1) (off + f.width) v.2
  get_congr := by
    intro m m' off h
    refine Prod.ext ?_ ?_
    · exact f.get_congr fun n hlo hhi => h n hlo (by omega)
    · exact g.get_congr fun n hlo hhi => h n (by omega) (by omega)
  get_put m off v := by
    refine Prod.ext ?_ (g.get_put _ _ _)
    exact (f.get_put_of_disjoint g (Or.inl le_rfl)).trans (f.get_put _ _ _)
  put_outside m off n v h := by
    rw [g.put_outside _ _ (by omega), f.put_outside _ _ (by omega)]
  put_get m m' off n hlo hhi := by
    by_cases hn : n < off + f.width
    · rw [g.put_outside _ _ (Or.inl hn), f.put_get m m' hlo hn]
    · exact g.put_get m _ (not_lt.mp hn) (by omega)

/-- A field read and written through a bijection. -/
def map (f : Field κ α) (e : α ≃ β) : Field κ β where
  width := f.width
  get m off := e (f.get m off)
  put m off v := f.put m off (e.symm v)
  get_congr h := congrArg e (f.get_congr h)
  get_put m off v := by rw [f.get_put, e.apply_symm_apply]
  put_outside m _ _ v h := f.put_outside m (e.symm v) h
  put_get m m' _ _ hlo hhi := by rw [e.symm_apply_apply, f.put_get m m' hlo hhi]

/-! ### Loops -/

variable {l : List ι} {addr : ι → ℕ} {val : ι → α}

lemma foldl_put_outside (f : Field κ α) (h : ∀ x ∈ l, n < addr x ∨ addr x + f.width ≤ n) :
    l.foldl (fun m x => f.put m (addr x) (val x)) m n = m n := by
  induction l generalizing m with
  | nil => rfl
  | cons x l ih =>
    rw [List.foldl_cons, ih fun y hy => h y (List.mem_cons_of_mem x hy),
      f.put_outside m (val x) (h x List.mem_cons_self)]

/-- A read sees through a loop that writes to other cells. -/
lemma get_foldl_put_of_disjoint (f : Field κ α) (g : Field κ β) (addr : ι → ℕ)
    (h : ∀ x ∈ l, off + g.width ≤ addr x ∨ addr x + f.width ≤ off) :
    g.get (l.foldl (fun m x => f.put m (addr x) (val x)) m) off = g.get m off := by
  apply g.get_congr
  intro n hlo hhi
  apply f.foldl_put_outside
  intro x hx
  have := h x hx
  omega

/-- A loop over increasing addresses leaves each of its values where it wrote it. -/
lemma get_foldl_put (f : Field κ α) (addr : ι → ℕ) (val : ι → α)
    (hl : l.Pairwise fun x y => addr x + f.width ≤ addr y) {x : ι}
    (hx : x ∈ l) :
    f.get (l.foldl (fun m x => f.put m (addr x) (val x)) m) (addr x) = val x := by
  induction l generalizing m with
  | nil => cases hx
  | cons y l ih =>
    rw [List.pairwise_cons] at hl
    rw [List.foldl_cons]
    rcases List.mem_cons.mp hx with rfl | hx
    · rw [f.get_foldl_put_of_disjoint f addr fun z hz => Or.inl (hl.1 z hz), f.get_put]
    · exact ih hl.2 hx

/-! ### Arrays -/

variable {base stride : ℕ}

/-- The elements of a list, each at its position of an array. -/
lemma pairwise_zipIdx (xs : List ι) {width : ℕ} (h : width ≤ stride) :
    xs.zipIdx.Pairwise fun x y => base + x.2 * stride + width ≤ base + y.2 * stride := by
  have hpositions : (xs.zipIdx.map Prod.snd).Pairwise (· < ·) := by
    rw [List.zipIdx_map_snd]
    exact List.pairwise_lt_range'
  rw [List.pairwise_map] at hpositions
  refine hpositions.imp ?_
  intro x y hxy
  have := Nat.mul_le_mul_right stride (Nat.succ_le_of_lt hxy)
  rw [Nat.succ_mul] at this
  omega

/-- A read before the array sees through the loop that writes it. -/
lemma get_foldl_zipIdx_of_le (f : Field κ α) (g : Field κ β) (base stride : ℕ)
    (h : off + g.width ≤ base) (xs : List ι) (val : ι → α) (m : ℕ → κ) :
    g.get (xs.zipIdx.foldl (fun m x => f.put m (base + x.2 * stride) (val x.1)) m) off =
      g.get m off :=
  f.get_foldl_put_of_disjoint g (fun x : ι × ℕ => base + x.2 * stride)
    fun _ _ => Or.inl (h.trans (Nat.le_add_right _ _))

/-- An array written element by element reads back. -/
lemma get_foldl_zipIdx (f : Field κ α) (h : f.width ≤ stride) (xs : List ι) (val : ι → α)
    (m : ℕ → κ) {i : ℕ} (hi : i < xs.length) :
    f.get (xs.zipIdx.foldl (fun m x => f.put m (base + x.2 * stride) (val x.1)) m)
      (base + i * stride) = val xs[i] := by
  have hmem : (xs[i], i) ∈ xs.zipIdx := by simp [List.mem_zipIdx_iff_getElem?, hi]
  exact f.get_foldl_put (fun x => base + x.2 * stride) (fun x => val x.1)
    (pairwise_zipIdx xs h) hmem

lemma map_get_foldl_zipIdx (f : Field κ α) (base : ℕ) (h : f.width ≤ stride) (xs : List ι)
    (val : ι → α) (m : ℕ → κ) :
    (List.range xs.length).map (fun i =>
      f.get (xs.zipIdx.foldl (fun m x => f.put m (base + x.2 * stride) (val x.1)) m)
        (base + i * stride)) = xs.map val := by
  apply List.ext_getElem
  · simp
  · intro i hi _
    have hlt : i < xs.length := by simpa using hi
    rw [List.getElem_map, List.getElem_range, List.getElem_map]
    exact f.get_foldl_zipIdx h xs val m hlt

end Field

end Layout
