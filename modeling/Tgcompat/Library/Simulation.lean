import Tgcompat.Library.Transition

/-!
# Simulation of a machine by a relation

A machine whose every event is enabled is simulated by a labelled relation on abstract states when
each of its steps is the step that its label names, or has no label and does not show. Then the
labels of a run are a run of the relation, and what holds of all runs of the relation holds of the
machine.
-/

namespace Simulation

variable {σ α τ ε : Type*} {R : σ → α → σ → Prop} {s t u : σ} {as : List α}

/-- A run of a labelled relation. -/
inductive Run (R : σ → α → σ → Prop) : σ → List α → σ → Prop
  | nil (s : σ) : Run R s [] s
  | cons {s t u : σ} {a : α} {as : List α} (h : R s a t) (hrest : Run R t as u) :
      Run R s (a :: as) u

/-- What every step keeps, a run keeps. -/
theorem Run.invariant {I : σ → Prop} (hstep : ∀ s a t, I s → R s a t → I t) (h : Run R s as t)
    (hs : I s) : I t := by
  induction h with
  | nil s => exact hs
  | cons h hrest ih => exact ih (hstep _ _ _ hs h)

/-- The step of the machine is the one its label names. -/
def Matches (R : σ → α → σ → Prop) (abs : τ → σ) (next : τ → ε → τ) (label : τ → ε → Option α)
    (t : τ) (e : ε) : Prop :=
  match label t e with
  | none => abs (next t e) = abs t
  | some a => R (abs t) a (abs (next t e))

/-- The labels of a run. -/
def labels (next : τ → ε → τ) (label : τ → ε → Option α) (t : τ) (es : List ε) : List α :=
  (Transition.history next t es).filterMap fun p => label p.1 p.2

theorem run_of_matches {abs : τ → σ} {next : τ → ε → τ} {label : τ → ε → Option α} {t : τ}
    {es : List ε}
    (h : ∀ p ∈ Transition.history next t es, Matches R abs next label p.1 p.2) :
    Run R (abs t) (labels next label t es) (abs (es.foldl next t)) := by
  induction es generalizing t with
  | nil => exact .nil _
  | cons e es ih =>
    have hrest := ih fun p hp => h p (List.mem_cons_of_mem _ hp)
    have hfirst := h (t, e) List.mem_cons_self
    rw [Matches] at hfirst
    rw [labels, Transition.history, List.filterMap_cons]
    cases hlabel : label t e with
    | none =>
      rw [hlabel] at hfirst
      simp only at hfirst ⊢
      rw [← hfirst]
      exact hrest
    | some a =>
      rw [hlabel] at hfirst
      exact .cons hfirst hrest

end Simulation
