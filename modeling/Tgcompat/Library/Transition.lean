import Mathlib.Data.List.Induction
import Mathlib.Tactic

/-!
# Executions of a labelled transition function

`step s e` is the state after event `e`, or `none` when `e` is not enabled in `s`. `exec` runs a
list of events. Two rules cover the proofs about whole executions: an invariant kept by every
step holds at the end of every execution, and so does a relation between the state and the
events executed so far that every step extends. A machine whose every event is enabled is run by
`List.foldl`; `history` lists its steps, each with the state it started from.
-/

namespace Transition

variable {σ ε : Type*} {step : σ → ε → Option σ}

/-- Run the events of a list in order. -/
def exec (step : σ → ε → Option σ) (s : σ) (es : List ε) : Option σ :=
  es.foldlM step s

@[simp] lemma exec_nil (s : σ) : exec step s [] = some s := rfl

@[simp] lemma exec_cons (s : σ) (e : ε) (es : List ε) :
    exec step s (e :: es) = (step s e).bind fun t => exec step t es := rfl

lemma exec_append (s : σ) (es fs : List ε) :
    exec step s (es ++ fs) = (exec step s es).bind fun t => exec step t fs := by
  simp only [exec, List.foldlM_append]
  rfl

lemma exec_snoc_eq_some {s u : σ} {es : List ε} {e : ε} :
    exec step s (es ++ [e]) = some u ↔ ∃ t, exec step s es = some t ∧ step t e = some u := by
  rw [exec_append]
  cases exec step s es with
  | none => simp
  | some t =>
    cases h : step t e with
    | none => simp [h]
    | some v => simp [h]

/-- A relation between the events executed so far and the state reached. -/
theorem exec_history {s : σ} {H : List ε → σ → Prop} (hinit : H [] s)
    (hstep : ∀ es t e u, exec step s es = some t → H es t → step t e = some u →
      H (es ++ [e]) u)
    {es : List ε} {t : σ} (h : exec step s es = some t) : H es t := by
  induction es using List.reverseRecOn generalizing t with
  | nil =>
    simp only [exec_nil, Option.some.injEq] at h
    exact h ▸ hinit
  | append_singleton es e ih =>
    obtain ⟨v, hv, he⟩ := exec_snoc_eq_some.mp h
    exact hstep es v e t hv (ih hv) he

/-- An invariant of every step holds at the end of every execution. -/
theorem exec_invariant {I : σ → Prop} (hstep : ∀ s e t, I s → step s e = some t → I t)
    {s t : σ} {es : List ε} (hinit : I s) (h : exec step s es = some t) : I t :=
  exec_history (H := fun _ s => I s) hinit (fun _ t e u _ ht he => hstep t e u ht he) h

/-- Every event of the list meets the condition in the state it is executed in. -/
def Along (step : σ → ε → Option σ) (C : σ → ε → Prop) (s : σ) (es : List ε) : Prop :=
  ∀ pre e post t, es = pre ++ e :: post → exec step s pre = some t → C t e

lemma Along.init {C : σ → ε → Prop} {s : σ} {es fs : List ε} (h : Along step C s (es ++ fs)) :
    Along step C s es := by
  intro pre e post t heq ht
  exact h pre e (post ++ fs) t (by simp [heq]) ht

/-- An invariant of the steps that meet a condition holds at the end of every execution whose
steps all meet it. -/
theorem exec_invariant_along {C : σ → ε → Prop} {I : σ → Prop}
    (hstep : ∀ s e t, I s → C s e → step s e = some t → I t) {s t : σ} {es : List ε}
    (hinit : I s) (hmeets : Along step C s es) (h : exec step s es = some t) : I t := by
  induction es using List.reverseRecOn generalizing t with
  | nil =>
    simp only [exec_nil, Option.some.injEq] at h
    exact h ▸ hinit
  | append_singleton es e ih =>
    obtain ⟨u, hu, he⟩ := exec_snoc_eq_some.mp h
    exact hstep u e t (ih hmeets.init hu) (hmeets es e [] u rfl hu) he

/-- Decide whether every event meets a condition by running the list. -/
def checkAlong (step : σ → ε → Option σ) (c : σ → ε → Bool) : σ → List ε → Bool
  | _, [] => true
  | s, e :: es => c s e && (step s e).all fun t => checkAlong step c t es

lemma along_of_checkAlong {c : σ → ε → Bool} {s : σ} {es : List ε}
    (h : checkAlong step c s es = true) : Along step (fun s e => c s e = true) s es := by
  induction es generalizing s with
  | nil =>
    intro pre e post t heq
    simp at heq
  | cons d es ih =>
    rw [checkAlong, Bool.and_eq_true] at h
    obtain ⟨hd, hrest⟩ := h
    intro pre e post t heq ht
    cases pre with
    | nil =>
      cases heq
      cases ht
      exact hd
    | cons d' pre =>
      cases heq
      obtain ⟨u, hu, hpre⟩ := Option.bind_eq_some_iff.mp ht
      rw [hu] at hrest
      exact ih hrest pre e post t rfl hpre

/-- The number of steps of an execution between states that `p` relates. -/
def countSteps (step : σ → ε → Option σ) (p : σ → σ → Bool) : σ → List ε → ℕ
  | _, [] => 0
  | s, e :: es =>
    match step s e with
    | none => 0
    | some t => (p s t).toNat + countSteps step p t es

lemma countSteps_append {p : σ → σ → Bool} {s t : σ} {es : List ε} (h : exec step s es = some t)
    (fs : List ε) :
    countSteps step p s (es ++ fs) = countSteps step p s es + countSteps step p t fs := by
  induction es generalizing s with
  | nil =>
    cases h
    simp [countSteps]
  | cons e es ih =>
    obtain ⟨u, hu, hrest⟩ := Option.bind_eq_some_iff.mp h
    simp only [List.cons_append, countSteps, hu, ih hrest, Nat.add_assoc]

lemma countSteps_le_length (p : σ → σ → Bool) (s : σ) (es : List ε) :
    countSteps step p s es ≤ es.length := by
  induction es generalizing s with
  | nil => exact le_rfl
  | cons e es ih =>
    rw [countSteps, List.length_cons]
    cases step s e with
    | none => exact Nat.zero_le _
    | some t =>
      have := Bool.toNat_le (p s t)
      have := ih t
      simp only
      omega

lemma countSteps_snoc {p : σ → σ → Bool} {s t u : σ} {es : List ε} {e : ε}
    (h : exec step s es = some t) (he : step t e = some u) :
    countSteps step p s (es ++ [e]) = countSteps step p s es + (p t u).toNat := by
  rw [countSteps_append h]
  simp [countSteps, he]

/-! ### Machines that are always enabled -/

section Total

variable {next : σ → ε → σ}

/-- The steps of a run, each with the state it started from. -/
def history (next : σ → ε → σ) : σ → List ε → List (σ × ε)
  | _, [] => []
  | s, e :: es => (s, e) :: history next (next s e) es

@[simp] lemma history_nil (s : σ) : history next s [] = [] := rfl

@[simp] lemma history_snoc (s : σ) (es : List ε) (e : ε) :
    history next s (es ++ [e]) = history next s es ++ [(es.foldl next s, e)] := by
  induction es generalizing s with
  | nil => rfl
  | cons d es ih => simp [history, ih]

lemma history_append (s : σ) (es fs : List ε) :
    history next s (es ++ fs) = history next s es ++ history next (es.foldl next s) fs := by
  induction es generalizing s with
  | nil => rfl
  | cons e es ih => simp [history, ih]

@[simp] lemma map_snd_history (s : σ) (es : List ε) : (history next s es).map Prod.snd = es := by
  induction es generalizing s with
  | nil => rfl
  | cons e es ih => simp [history, ih]

lemma mem_of_mem_history {s : σ} {es : List ε} {p : σ × ε} (h : p ∈ history next s es) :
    p.2 ∈ es := by
  rw [← @map_snd_history σ ε next s es]
  exact List.mem_map_of_mem h

lemma exists_mem_history (s : σ) {es : List ε} {e : ε} (h : e ∈ es) :
    ∃ t, (t, e) ∈ history next s es := by
  rw [← @map_snd_history σ ε next s es] at h
  obtain ⟨⟨t, d⟩, hp, rfl⟩ := List.mem_map.mp h
  exact ⟨t, hp⟩

/-- An invariant of every step holds at the end of every run. -/
theorem foldl_invariant {I : σ → Prop} (hstep : ∀ s e, I s → I (next s e)) {s : σ} (hinit : I s)
    (es : List ε) : I (es.foldl next s) := by
  induction es generalizing s with
  | nil => exact hinit
  | cons e es ih => exact ih (hstep s e hinit)

/-- An invariant of every step holds wherever a step of a run starts. -/
theorem history_invariant {I : σ → Prop} (hstep : ∀ s e, I s → I (next s e)) {s : σ} (hinit : I s)
    {es : List ε} {p : σ × ε} (h : p ∈ history next s es) : I p.1 := by
  induction es generalizing s with
  | nil => cases h
  | cons e es ih =>
    rcases List.mem_cons.mp h with rfl | h
    · exact hinit
    · exact ih (hstep s e hinit) h

/-- An invariant of the steps of a run holds at its end. -/
theorem foldl_invariant_history {I : σ → Prop} {s : σ} {es : List ε}
    (hstep : ∀ p ∈ history next s es, I p.1 → I (next p.1 p.2)) (hinit : I s) :
    I (es.foldl next s) := by
  induction es generalizing s with
  | nil => exact hinit
  | cons e es ih =>
    refine ih (fun p hp => hstep p (List.mem_cons_of_mem _ hp)) ?_
    exact hstep (s, e) List.mem_cons_self hinit

end Total

end Transition
