import Tgcompat.Library.Layout

/-!
# Writers of a memory layout

A writer takes memory to memory. It fills a range of cells when what it leaves there does not depend
on the memory it was given, and when it leaves all other cells alone. A record that is written field
by field over memory of any contents is a writer that fills the cells of the record.
-/

namespace Layout

variable {κ α ι : Type*} {g g' : (ℕ → κ) → ℕ → κ} {lo mid hi : ℕ}

/-- The writer sets the cells from `lo` up to `hi`, to values of its own, and no others. -/
structure Fills (g : (ℕ → κ) → ℕ → κ) (lo hi : ℕ) : Prop where
  outside : ∀ m n, n < lo ∨ hi ≤ n → g m n = m n
  inside : ∀ m m' n, lo ≤ n → n < hi → g m n = g m' n

lemma fills_id (lo : ℕ) : Fills (fun m : ℕ → κ => m) lo lo where
  outside _ _ _ := rfl
  inside _ _ _ hlo hhi := absurd hhi (not_lt.mpr hlo)

/-- One writer after the other, on the cells right behind. -/
lemma Fills.comp (h : Fills g lo mid) (h' : Fills g' mid hi) (hlo : lo ≤ mid) (hhi : mid ≤ hi) :
    Fills (fun m => g' (g m)) lo hi where
  outside m n hn := by
    rw [h'.outside _ _ (by omega), h.outside _ _ (by omega)]
  inside m m' n hn hn' := by
    by_cases hmid : n < mid
    · rw [h'.outside _ _ (Or.inl hmid), h'.outside _ _ (Or.inl hmid)]
      exact h.inside m m' n hn hmid
    · exact h'.inside _ _ n (not_lt.mp hmid) hn'

/-- A writer over memory that already holds what it writes changes nothing. -/
lemma Fills.eq_self (h : Fills g lo hi) {m m' : ℕ → κ}
    (heq : ∀ n, lo ≤ n → n < hi → m n = g m' n) : g m = m := by
  funext n
  by_cases hn : lo ≤ n ∧ n < hi
  · rw [heq n hn.1 hn.2]
    exact h.inside m m' n hn.1 hn.2
  · exact h.outside m n (by omega)

namespace Field

lemma fills (f : Field κ α) (off : ℕ) (v : α) :
    Fills (fun m => f.put m off v) off (off + f.width) where
  outside m _ hn := f.put_outside m v hn
  inside _ _ _ hlo hhi := f.put_congr hlo hhi

/-- An array that is written element by element. -/
lemma fills_foldl_zipIdx (f : Field κ α) (base : ℕ) (xs : List ι) (val : ι → α) :
    Fills (fun m => xs.zipIdx.foldl (fun m x => f.put m (base + x.2 * f.width) (val x.1)) m) base
      (base + xs.length * f.width) := by
  induction xs using List.reverseRecOn with
  | nil => simpa using fills_id base
  | append_singleton xs x ih =>
    have hlast := f.fills (base + xs.length * f.width) (val x)
    have hend : base + xs.length * f.width + f.width = base + (xs ++ [x]).length * f.width := by
      rw [List.length_append, List.length_singleton]
      ring
    rw [hend] at hlast
    have hboth := ih.comp hlast (Nat.le_add_right _ _) (by omega)
    simpa [List.zipIdx_append] using hboth

end Field

end Layout
