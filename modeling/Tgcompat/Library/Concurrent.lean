import Mathlib.Logic.Function.Basic
import Mathlib.Logic.Relation
import Mathlib.Tactic
import Tgcompat.Library.Transition

/-!
# Threads that make calls

A thread is a program that makes calls of a kernel and goes on with the answers. What the kernel
does with a call depends on a choice that nobody controls; with some choices a call is not answered
yet. Threads are interleaved at their calls. A loop that does not end is a block that goes back to a
label.

Interference is handled by rely and guarantee. Each thread says what its calls may do to the state;
what a thread knows has to survive what the others may do. The conditions are those of one call
after the other, and the theorem is about every interleaving: no thread ever makes a call that is
not safe.
-/

namespace Concurrent

/-- A program that makes calls. -/
inductive Prog (Call : Type) (Answer : Call → Type) (α : Type) : Type
  | ret (a : α)
  | call (c : Call) (rest : Answer c → Prog Call Answer α)

variable {Call : Type} {Answer : Call → Type} {α β : Type}

namespace Prog

def bind : Prog Call Answer α → (α → Prog Call Answer β) → Prog Call Answer β
  | ret a, f => f a
  | call c rest, f => call c fun r => (rest r).bind f

instance : Monad (Prog Call Answer) where
  pure := ret
  bind := bind

/-- Make one call. -/
def perform (c : Call) : Prog Call Answer (Answer c) := call c ret

/-- Every call that the program can make satisfies `C`. -/
def All (C : Call → Prop) : Prog Call Answer α → Prop
  | ret _ => True
  | call c rest => C c ∧ ∀ r, (rest r).All C

variable {C : Call → Prop}

lemma All.bind {p : Prog Call Answer α} {f : α → Prog Call Answer β} (hp : p.All C)
    (hf : ∀ a, (f a).All C) : (p >>= f).All C := by
  induction p with
  | ret a => exact hf a
  | call c rest ih => exact ⟨hp.1, fun r => ih r (hp.2 r)⟩

end Prog

/-- Threads over one kernel. A thread that ends with a label goes on with the block there. -/
structure System (ι State Choice Call : Type) (Answer : Call → Type) (Label : Type) where
  kernel : ι → State → (c : Call) → Choice → Option (Answer c × State)
  block : ι → Label → Prog Call Answer (Option Label)

/-- A state, and what is left of each thread. -/
structure Config (ι State Call : Type) (Answer : Call → Type) (Label : Type) where
  state : State
  threads : ι → Prog Call Answer (Option Label)

variable {ι State Choice Label : Type} {S : System ι State Choice Call Answer Label}

/-- All threads start at a label. -/
def Config.start (s : State) (entry : ι → Label) : Config ι State Call Answer Label :=
  ⟨s, fun i => .ret (some (entry i))⟩

/-- One thread gets an answer, or goes on at a label. -/
def System.step [DecidableEq ι] (S : System ι State Choice Call Answer Label)
    (k : Config ι State Call Answer Label) (event : ι × Choice) :
    Option (Config ι State Call Answer Label) :=
  match k.threads event.1 with
  | .call c rest => (S.kernel event.1 k.state c event.2).map fun answer =>
      ⟨answer.2, Function.update k.threads event.1 (rest answer.1)⟩
  | .ret (some l) => some ⟨k.state, Function.update k.threads event.1 (S.block event.1 l)⟩
  | .ret none => none

/-! ### Rules -/

/-- What is claimed of a system: which calls are safe, what holds of the state, what a thread may do
to the state, and what it knows at a label. -/
structure Rules (ι State Call Label : Type) where
  Safe : ι → State → Call → Prop
  Inv : State → Prop
  Guarantee : ι → State → State → Prop
  At : ι → Label → State → Prop

namespace Rules

variable {R : Rules ι State Call Label} {i : ι} {s s' : State}

/-- What the other threads may do. -/
def Rely (R : Rules ι State Call Label) (i : ι) : State → State → Prop :=
  Relation.ReflTransGen fun s s' => ∃ j, j ≠ i ∧ R.Guarantee j s s'

/-- The others do not disturb it. -/
def Stable (R : Rules ι State Call Label) (i : ι) (P : State → Prop) : Prop :=
  ∀ j, j ≠ i → ∀ s s', R.Guarantee j s s' → P s → P s'

lemma Stable.rely {P : State → Prop} (h : R.Stable i P) (hrely : R.Rely i s s') (hs : P s) :
    P s' := by
  induction hrely with
  | refl => exact hs
  | tail _ hstep ih =>
    obtain ⟨j, hj, hguarantee⟩ := hstep
    exact h j hj _ _ hguarantee ih

lemma Stable.and {P Q : State → Prop} (hP : R.Stable i P) (hQ : R.Stable i Q) :
    R.Stable i fun s => P s ∧ Q s :=
  fun j hj s s' hguarantee hs => ⟨hP j hj s s' hguarantee hs.1, hQ j hj s s' hguarantee hs.2⟩

/-- The weakest condition under which a program makes only safe calls, keeps its promises whatever
the others do, and ends with `Q`. -/
def wp (S : System ι State Choice Call Answer Label) (R : Rules ι State Call Label) (i : ι) :
    Prog Call Answer α → (α → State → Prop) → State → Prop
  | .ret a, Q, s => Q a s
  | .call c rest, Q, s => ∀ s₁, R.Rely i s s₁ → R.Inv s₁ → R.Safe i s₁ c ∧
      ∀ choice r s₂, S.kernel i s₁ c choice = some (r, s₂) →
        R.Inv s₂ ∧ R.Guarantee i s₁ s₂ ∧ wp S R i (rest r) Q s₂

variable {Q Q' : α → State → Prop}

@[simp] lemma wp_ret (a : α) : wp S R i (.ret a) Q s ↔ Q a s := Iff.rfl

/-- The rule for a call: know something that is stable, and follow each answer. -/
lemma wp_call {P : State → Prop} (hP : R.Stable i P) (hs : P s) {c : Call}
    {rest : Answer c → Prog Call Answer α}
    (h : ∀ s, P s → R.Inv s → R.Safe i s c ∧ ∀ choice r s',
      S.kernel i s c choice = some (r, s') →
        R.Inv s' ∧ R.Guarantee i s s' ∧ wp S R i (rest r) Q s') :
    wp S R i (.call c rest) Q s :=
  fun s₁ hrely hinv => h s₁ (hP.rely hrely hs) hinv

/-- Every safe call keeps the invariant and the promise of its thread. -/
def Respects (R : Rules ι State Call Label) (S : System ι State Choice Call Answer Label) : Prop :=
  ∀ i s c choice r s', R.Inv s → R.Safe i s c → S.kernel i s c choice = some (r, s') →
    R.Inv s' ∧ R.Guarantee i s s'

/-- The rule for a call when safe calls are known to respect the rules. -/
lemma Respects.wp_call (hR : R.Respects S) {P : State → Prop} (hP : R.Stable i P) (hs : P s)
    {c : Call} {rest : Answer c → Prog Call Answer α}
    (hsafe : ∀ s, P s → R.Inv s → R.Safe i s c)
    (hrest : ∀ s choice r s', P s → R.Inv s → R.Inv s' → R.Guarantee i s s' →
      S.kernel i s c choice = some (r, s') → wp S R i (rest r) Q s') :
    wp S R i (.call c rest) Q s := by
  refine Rules.wp_call hP hs fun s hs hinv => ⟨hsafe s hs hinv, fun choice r s' hk => ?_⟩
  obtain ⟨hinv', hg⟩ := hR i s c choice r s' hinv (hsafe s hs hinv) hk
  exact ⟨hinv', hg, hrest s choice r s' hs hinv hinv' hg hk⟩

lemma wp_mono (hQ : ∀ a s, Q a s → Q' a s) {p : Prog Call Answer α} (h : wp S R i p Q s) :
    wp S R i p Q' s := by
  induction p generalizing s with
  | ret a => exact hQ a s h
  | call c rest ih =>
    intro s₁ hrely hinv
    obtain ⟨hsafe, hrest⟩ := h s₁ hrely hinv
    refine ⟨hsafe, fun choice r s₂ hkernel => ?_⟩
    obtain ⟨hinv', hguarantee, hwp⟩ := hrest choice r s₂ hkernel
    exact ⟨hinv', hguarantee, ih r hwp⟩

lemma wp_bind {p : Prog Call Answer α} {f : α → Prog Call Answer β} {Q : β → State → Prop}
    (h : wp S R i p (fun a => wp S R i (f a) Q) s) : wp S R i (p >>= f) Q s := by
  induction p generalizing s with
  | ret a => exact h
  | call c rest ih =>
    intro s₁ hrely hinv
    obtain ⟨hsafe, hrest⟩ := h s₁ hrely hinv
    refine ⟨hsafe, fun choice r s₂ hkernel => ?_⟩
    obtain ⟨hinv', hguarantee, hwp⟩ := hrest choice r s₂ hkernel
    exact ⟨hinv', hguarantee, ih r hwp⟩

/-- The rule for a program whose calls are all safe and keep what is known. -/
lemma Respects.wp_of_all (hR : R.Respects S) {C : Call → Prop} {P : State → Prop}
    (hP : R.Stable i P) (hsafe : ∀ c s, C c → P s → R.Inv s → R.Safe i s c)
    (hkeep : ∀ c s choice r s', C c → P s → S.kernel i s c choice = some (r, s') → P s')
    {p : Prog Call Answer α} (hp : p.All C) (hs : P s) : wp S R i p (fun _ => P) s := by
  induction p generalizing s with
  | ret a => exact hs
  | call c rest ih =>
    refine hR.wp_call hP hs (fun s hs hinv => hsafe c s hp.1 hs hinv) ?_
    intro s choice r s' hs _ _ _ hkernel
    exact ih r (hp.2 r) (hkeep c s choice r s' hp.1 hs hkernel)

/-- Knowing less about the past is no harm, if what is to hold at the end survives the others. -/
lemma wp_rely (hQ : ∀ a, R.Stable i (Q a)) {p : Prog Call Answer α} (h : wp S R i p Q s)
    (hrely : R.Rely i s s') : wp S R i p Q s' := by
  cases p with
  | ret a => exact (hQ a).rely hrely h
  | call c rest => exact fun s₁ hrely' hinv => h s₁ (hrely.trans hrely') hinv

/-- What a thread knows when it ends or jumps. -/
def Ends (R : Rules ι State Call Label) (i : ι) (l : Option Label) (s : State) : Prop :=
  ∀ l', l = some l' → R.At i l' s

/-- The proof obligations of a system. -/
structure Sound (R : Rules ι State Call Label) (S : System ι State Choice Call Answer Label) :
    Prop where
  stable : ∀ i l, R.Stable i (R.At i l)
  blocks : ∀ i l s, R.Inv s → R.At i l s → wp S R i (S.block i l) (R.Ends i) s

/-- What holds of every configuration. -/
structure Ok (R : Rules ι State Call Label) (S : System ι State Choice Call Answer Label)
    (k : Config ι State Call Answer Label) : Prop where
  inv : R.Inv k.state
  threads : ∀ i, wp S R i (k.threads i) (R.Ends i) k.state

lemma Sound.ends (h : R.Sound S) (i : ι) (l : Option Label) : R.Stable i (R.Ends i l) :=
  fun j hj s s' hguarantee hs l' hl => h.stable i l' j hj s s' hguarantee (hs l' hl)

lemma Ok.step [DecidableEq ι] (hR : R.Sound S) {k k' : Config ι State Call Answer Label}
    (h : R.Ok S k) {event : ι × Choice} (hstep : S.step k event = some k') : R.Ok S k' := by
  obtain ⟨i, choice⟩ := event
  have hwp := h.threads i
  simp only [System.step] at hstep
  split at hstep
  · next c rest hthread =>
    obtain ⟨⟨r, s'⟩, hkernel, rfl⟩ := Option.map_eq_some_iff.mp hstep
    rw [hthread] at hwp
    obtain ⟨-, hrest⟩ := hwp k.state .refl h.inv
    obtain ⟨hinv, hguarantee, hwp⟩ := hrest choice r s' hkernel
    refine ⟨hinv, fun j => ?_⟩
    by_cases hj : j = i
    · subst hj
      simpa only [Function.update_self] using hwp
    · simp only [Function.update_of_ne hj]
      exact wp_rely (hR.ends j) (h.threads j) (.single ⟨i, Ne.symm hj, hguarantee⟩)
  · next l hthread =>
    cases hstep
    rw [hthread, wp_ret] at hwp
    refine ⟨h.inv, fun j => ?_⟩
    by_cases hj : j = i
    · subst hj
      simp only [Function.update_self]
      exact hR.blocks j l k.state h.inv (hwp l rfl)
    · simp only [Function.update_of_ne hj]
      exact h.threads j
  · cases hstep

/-- Whatever the interleaving, the invariant holds and each thread is at a point that its proof has
reached. -/
theorem Sound.ok [DecidableEq ι] (hR : R.Sound S) {entry : ι → Label} (hinv : R.Inv s)
    (hentry : ∀ i, R.At i (entry i) s) {events : List (ι × Choice)}
    {k : Config ι State Call Answer Label}
    (h : Transition.exec S.step (Config.start s entry) events = some k) : R.Ok S k := by
  refine Transition.exec_invariant (I := R.Ok S) (fun _ _ _ hk hstep => hk.step hR hstep) ?_ h
  refine ⟨hinv, fun i l hl => ?_⟩
  cases hl
  exact hentry i

/-- The next call of a thread is safe. -/
theorem Ok.safe {k : Config ι State Call Answer Label} (h : R.Ok S k) {c : Call}
    {rest : Answer c → Prog Call Answer (Option Label)} (hthread : k.threads i = .call c rest) :
    R.Safe i k.state c := by
  have hwp := h.threads i
  simp only [hthread] at hwp
  exact (hwp k.state .refl h.inv).1

end Rules

end Concurrent
