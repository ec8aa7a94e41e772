import Mathlib.Tactic

/-!
# Loops with an early exit

A loop that may leave early is `List.foldlM` in `Except ε`: the error is what it leaves with. The
rules below are the invariant rule for a loop that ran to its end, and the rule that also shows
that it does. The invariant may mention the elements already processed.
-/

namespace Fold

universe u

variable {α ε : Type*} {β : Type u} {f : β → α → Except ε β} {b b' : β} {l : List α}

lemma bind_eq_ok {γ : Type u} {x : Except ε β} {g : β → Except ε γ} {c : γ} :
    (x >>= g) = .ok c ↔ ∃ a, x = .ok a ∧ g a = .ok c := by
  cases x with
  | error e => simp [bind, Except.bind]
  | ok a => simp [bind, Except.bind]

lemma bind_eq_error {γ : Type u} {x : Except ε β} {g : β → Except ε γ} {e : ε} :
    (x >>= g) = .error e ↔ x = .error e ∨ ∃ a, x = .ok a ∧ g a = .error e := by
  cases x with
  | error e' => simp [bind, Except.bind]
  | ok a => simp [bind, Except.bind]

lemma foldlM_append_ok {l₁ l₂ : List α} :
    (l₁ ++ l₂).foldlM f b = .ok b' ↔
      ∃ c, l₁.foldlM f b = .ok c ∧ l₂.foldlM f c = .ok b' := by
  rw [List.foldlM_append, bind_eq_ok]

lemma foldlM_singleton {a : α} : [a].foldlM f b = f b a := by
  cases h : f b a with
  | error e => simp [h, bind, Except.bind]
  | ok c => simp [h, bind, Except.bind, pure, Except.pure]

/-- A loop that leaves early does so in one of its iterations. -/
lemma foldlM_error {e : ε} (h : l.foldlM f b = .error e) : ∃ a ∈ l, ∃ c, f c a = .error e := by
  induction l generalizing b with
  | nil => cases h
  | cons a l ih =>
    rw [List.foldlM_cons] at h
    cases ha : f b a with
    | error e' =>
      rw [ha] at h
      cases h
      exact ⟨a, by simp, b, ha⟩
    | ok c =>
      rw [ha] at h
      obtain ⟨x, hx, c', hc'⟩ := ih h
      exact ⟨x, by simp [hx], c', hc'⟩

/-- What a loop leaves with, when its iterations keep an invariant up to there. -/
lemma foldlM_error_of {I : β → Prop} {J : ε → Prop} {e : ε} (hinit : I b)
    (hok : ∀ c a c', I c → f c a = .ok c' → I c') (herr : ∀ c a e, I c → f c a = .error e → J e)
    (h : l.foldlM f b = .error e) : J e := by
  induction l generalizing b with
  | nil => cases h
  | cons a l ih =>
    rw [List.foldlM_cons] at h
    rcases bind_eq_error.mp h with ha | ⟨c, hc, h⟩
    · exact herr b a e hinit ha
    · exact ih (hok b a c hinit hc) h

lemma mapM_error {γ : Type u} {g : α → Except ε γ} {e : ε} (h : l.mapM g = .error e) :
    ∃ a ∈ l, g a = .error e := by
  induction l with
  | nil => cases h
  | cons a l ih =>
    rw [List.mapM_cons] at h
    rcases bind_eq_error.mp h with ha | ⟨c, -, h⟩
    · exact ⟨a, by simp, ha⟩
    · rcases bind_eq_error.mp h with hl | ⟨cs, -, h⟩
      · obtain ⟨x, hx, hgx⟩ := ih hl
        exact ⟨x, by simp [hx], hgx⟩
      · cases h

/-- Every value of a loop that collects comes from one of its iterations. -/
lemma mapM_ok {γ : Type u} {g : α → Except ε γ} {r : List γ} (h : l.mapM g = .ok r) :
    ∀ c ∈ r, ∃ a ∈ l, g a = .ok c := by
  induction l generalizing r with
  | nil =>
    cases h
    simp
  | cons a l ih =>
    rw [List.mapM_cons] at h
    obtain ⟨c, hc, h⟩ := bind_eq_ok.mp h
    obtain ⟨cs, hcs, h⟩ := bind_eq_ok.mp h
    cases h
    intro d hd
    rcases List.mem_cons.mp hd with rfl | hd
    · exact ⟨a, List.mem_cons_self, hc⟩
    · obtain ⟨a', ha', hga'⟩ := ih hcs d hd
      exact ⟨a', List.mem_cons_of_mem a ha', hga'⟩

/-- A loop that collects and never leaves early is a map. -/
lemma mapM_eq_ok {γ : Type u} {g : α → Except ε γ} {h : α → γ} (hg : ∀ a ∈ l, g a = .ok (h a)) :
    l.mapM g = .ok (l.map h) := by
  induction l with
  | nil => rfl
  | cons a l ih =>
    rw [List.mapM_cons, hg a List.mem_cons_self, ih fun b hb => hg b (List.mem_cons_of_mem a hb)]
    rfl

/-- A loop that ran to its end established what every iteration extends. -/
theorem foldlM_ok {I : List α → β → Prop} (hinit : I [] b)
    (hstep : ∀ pre a c c', a ∈ l → I pre c → f c a = .ok c' → I (pre ++ [a]) c')
    (h : l.foldlM f b = .ok b') : I l b' := by
  induction l using List.reverseRecOn generalizing b' with
  | nil =>
    simp only [List.foldlM_nil, pure, Except.pure, Except.ok.injEq] at h
    exact h ▸ hinit
  | append_singleton l a ih =>
    obtain ⟨c, hc, ha⟩ := foldlM_append_ok.mp h
    rw [foldlM_singleton] at ha
    have hI : I l c := ih (fun pre x y z hx => hstep pre x y z (by simp [hx])) hc
    exact hstep l a c b' (by simp) hI ha

/-- A loop whose every iteration goes on runs to its end. -/
theorem foldlM_total {I : List α → β → Prop} (hinit : I [] b)
    (hstep : ∀ pre a post c, l = pre ++ a :: post → I pre c →
      ∃ c', f c a = .ok c' ∧ I (pre ++ [a]) c') :
    ∃ b', l.foldlM f b = .ok b' ∧ I l b' := by
  induction l using List.reverseRecOn with
  | nil => exact ⟨b, rfl, hinit⟩
  | append_singleton l a ih =>
    have hprefix : ∀ pre x post c, l = pre ++ x :: post → I pre c →
        ∃ c', f c x = .ok c' ∧ I (pre ++ [x]) c' := by
      intro pre x post c hl hc
      exact hstep pre x (post ++ [a]) c (by simp [hl]) hc
    obtain ⟨c, hc, hI⟩ := ih hprefix
    obtain ⟨b', hb', hI'⟩ := hstep l a [] c rfl hI
    exact ⟨b', foldlM_append_ok.mpr ⟨c, hc, by rwa [foldlM_singleton]⟩, hI'⟩

/-- A loop in which only one iteration does something. -/
lemma foldl_single {f : β → α → β} {a : α} (hskip : ∀ c x, x ≠ a → f c x = c) (hnodup : l.Nodup)
    (ha : a ∈ l) : l.foldl f b = f b a := by
  have hrest : ∀ (l : List α) (c : β), a ∉ l → l.foldl f c = c := by
    intro l c hl
    induction l with
    | nil => rfl
    | cons x l ih =>
      rw [List.mem_cons, not_or] at hl
      rw [List.foldl_cons, hskip c x (Ne.symm hl.1), ih hl.2]
  induction l with
  | nil => cases ha
  | cons x l ih =>
    obtain ⟨hx, hl⟩ := List.nodup_cons.mp hnodup
    rcases List.mem_cons.mp ha with rfl | ha
    · rw [List.foldl_cons, hrest l _ hx]
    · have hne : x ≠ a := by
        rintro rfl
        exact hx ha
      rw [List.foldl_cons, hskip b x hne, ih hl ha]

end Fold
