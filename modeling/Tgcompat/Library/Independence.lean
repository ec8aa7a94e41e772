import Mathlib.Tactic

/-!
# Requests on different parts of a state

A state is seen in parts that draw on one pool. A request on a part answers and changes that part
as a function of the part alone, keeps every other part, and takes no more from the pool than it
costs. Two requests on different parts can then be performed in either order, as long as the pool
covers both.
-/

namespace Independence

variable {σ ι ν τ τ' ρ ρ' : Type*}

/-- The parts of a state and what is left of the pool. -/
structure Parts (σ ι ν : Type*) where
  inv : σ → Prop
  part : σ → ι → ν
  free : σ → ℕ

/-- A request on part `i`. What it does may depend on an input, a clock say, that neither its
answer nor the parts show. -/
structure Request (P : Parts σ ι ν) (i : ι) (τ ρ : Type*) where
  perform : τ → σ → ρ × σ
  spec : ν → ρ × ν
  cost : ν → ℕ
  inv : ∀ {s}, P.inv s → ∀ c, P.inv (perform c s).2
  frame : ∀ {s}, P.inv s → cost (P.part s i) ≤ P.free s → ∀ c j, j ≠ i →
    P.part (perform c s).2 j = P.part s j
  claims : ∀ {s}, P.inv s → cost (P.part s i) ≤ P.free s → ∀ c,
    P.free s ≤ P.free (perform c s).2 + cost (P.part s i)
  meets : ∀ {s}, P.inv s → cost (P.part s i) ≤ P.free s → ∀ c,
    ((perform c s).1, P.part (perform c s).2 i) = spec (P.part s i)

namespace Request

variable {P : Parts σ ι ν} {i j : ι} {s : σ}

lemma answer (a : Request P i τ ρ) (hs : P.inv s) (hroom : a.cost (P.part s i) ≤ P.free s)
    (c : τ) : (a.perform c s).1 = (a.spec (P.part s i)).1 :=
  congrArg Prod.fst (a.meets hs hroom c)

lemma effect (a : Request P i τ ρ) (hs : P.inv s) (hroom : a.cost (P.part s i) ≤ P.free s)
    (c : τ) : P.part (a.perform c s).2 i = (a.spec (P.part s i)).2 :=
  congrArg Prod.snd (a.meets hs hroom c)

/-- After a request on another part, a request finds its part and its share of the pool. -/
lemma after (hij : i ≠ j) (a : Request P i τ ρ) (b : Request P j τ' ρ') (hs : P.inv s)
    (hroom : a.cost (P.part s i) + b.cost (P.part s j) ≤ P.free s) (c : τ) :
    P.part (a.perform c s).2 j = P.part s j ∧
      b.cost (P.part (a.perform c s).2 j) ≤ P.free (a.perform c s).2 := by
  have hroomA : a.cost (P.part s i) ≤ P.free s := by omega
  have hpart : P.part (a.perform c s).2 j = P.part s j := a.frame hs hroomA c j (Ne.symm hij)
  have hpool := a.claims hs hroomA c
  rw [hpart]
  exact ⟨rfl, by omega⟩

/-- Requests on different parts commute. -/
theorem commute (hij : i ≠ j) (a : Request P i τ ρ) (b : Request P j τ' ρ') (hs : P.inv s)
    (hroom : a.cost (P.part s i) + b.cost (P.part s j) ≤ P.free s) (c d : τ) (c' d' : τ') :
    (a.perform c s).1 = (a.perform d (b.perform d' s).2).1 ∧
      (b.perform c' (a.perform c s).2).1 = (b.perform d' s).1 ∧
      ∀ k, P.part (b.perform c' (a.perform c s).2).2 k =
        P.part (a.perform d (b.perform d' s).2).2 k := by
  have hroomA : a.cost (P.part s i) ≤ P.free s := by omega
  have hroomB : b.cost (P.part s j) ≤ P.free s := by omega
  obtain ⟨hpartB, hafterB⟩ := after hij a b hs hroom c
  obtain ⟨hpartA, hafterA⟩ := after (Ne.symm hij) b a hs (by rwa [add_comm]) d'
  have hinvA := a.inv hs c
  have hinvB := b.inv hs d'
  refine ⟨?_, ?_, fun k => ?_⟩
  · rw [a.answer hs hroomA, a.answer hinvB hafterA, hpartA]
  · rw [b.answer hs hroomB, b.answer hinvA hafterB, hpartB]
  · by_cases hi : k = i
    · subst hi
      rw [b.frame hinvA hafterB c' k hij, a.effect hs hroomA, a.effect hinvB hafterA, hpartA]
    · rw [a.frame hinvB hafterA d k hi]
      by_cases hj : k = j
      · subst hj
        rw [b.effect hs hroomB, b.effect hinvA hafterB, hpartB]
      · rw [b.frame hinvA hafterB c' k hj, a.frame hs hroomA c k hi, b.frame hs hroomB d' k hj]

end Request

end Independence
