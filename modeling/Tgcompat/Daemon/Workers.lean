import Tgcompat.Daemon.Exclusive

/-!
# The threads of a daemon

`main` of `tgcompatd.c` hands each connection to a thread of its own, through a table of 64 workers
that both sides use without a lock. At the end it shuts the connections down, joins the threads,
destroys the broker and leaves.

A descriptor is open as long as a thread owns it; with `pthread_create` the connection goes to the
new thread. Files and sockets are left to the kernel, whose answers are arbitrary, and so are the
descriptors that the broker opens for itself.
-/

namespace Tgcompat

namespace Daemon

/-- The threads of a daemon: the table of workers, the thread that each open descriptor is left to
(`none` is `main`), the threads that were created, in order, with their arguments, which of them
have returned and which were joined, and whether the broker exists. -/
structure Pool where
  slots : Fin maxClients → ClientWorker
  owner : ℕ → Option (Option ℕ)
  created : ℕ
  argument : ℕ → Fin maxClients
  ended : ℕ → Bool
  joined : ℕ → Bool
  broker : Bool

namespace Pool

def setSlot (p : Pool) (slot : Fin maxClients) (worker : ClientWorker) : Pool :=
  { p with slots := Function.update p.slots slot worker }

def setOwner (p : Pool) (fd : ℕ) (owner : Option (Option ℕ)) : Pool :=
  { p with owner := Function.update p.owner fd owner }

/-- A new descriptor under a number that is free. -/
def openDescriptor (p : Pool) (t : Option ℕ) (choice : Choice) : Option (Except Errno ℕ × Pool) :=
  match choice.error with
  | some error => some (.error error, p)
  | none =>
    if p.owner choice.number = none then
      some (.ok choice.number, p.setOwner choice.number (some t))
    else none

/-- `pthread_create`: the new thread gets the worker, and with it the connection. -/
def spawned (p : Pool) (slot : Fin maxClients) : Pool :=
  { p with
    created := p.created + 1
    argument := Function.update p.argument p.created slot
    slots := Function.update p.slots slot { p.slots slot with thread := p.created }
    owner := Function.update p.owner (p.slots slot).socketFd (some (some p.created)) }

def kernel (t : Option ℕ) (p : Pool) : (c : Call) → Choice → Option (Answer c × Pool)
  | .createSignalFd, choice => p.openDescriptor t choice
  | .socket, choice => p.openDescriptor t choice
  | .accept _, choice => p.openDescriptor t choice
  | .close fd, _ => some ((), p.setOwner fd none)
  | .brokerCreate, choice =>
    some (choice.other .brokerCreate, { p with broker := choice.other .brokerCreate })
  | .brokerDestroy, _ => some ((), { p with broker := false })
  | .load slot, _ => some (p.slots slot, p)
  | .claim slot fd uid, _ => some ((), p.setSlot slot
      { p.slots slot with
        expectedUid := uid, socketFd := fd, result := 0, active := true, done := false })
  | .spawn slot, choice =>
    match choice.error with
    | some error => some (some error, p)
    | none => some (none, p.spawned slot)
  | .release slot, _ => some ((), p.setSlot slot { p.slots slot with active := false })
  | .join n, _ =>
    -- waits until the thread has returned
    if p.ended n then some ((), { p with joined := Function.update p.joined n true }) else none
  | .started, _ =>
    match t with
    | some n => if n < p.created then some (p.argument n, p) else none
    | none => none
  | .storeResult slot result, _ =>
    some ((), p.setSlot slot { p.slots slot with result := result })
  | .storeDone slot, _ => some ((), p.setSlot slot { p.slots slot with done := true })
  | .ended, _ =>
    match t with
    | some n => some ((), { p with ended := Function.update p.ended n true })
    | none => none
  | c, choice => some (choice.other c, p)

/-! ### Rules -/

variable {t : Option ℕ} {p p' : Pool} {n fd : ℕ} {slot : Fin maxClients}

/-- No thread that may still run uses the worker. -/
def Unused (slot : Fin maxClients) (p : Pool) : Prop :=
  ∀ n < p.created, p.argument n = slot → p.joined n = true

/-- What a thread finds when it starts: the broker is there, and the connection is its own. -/
def Fresh (n : ℕ) (p : Pool) : Prop :=
  p.broker = true ∧ p.owner (p.slots (p.argument n)).socketFd = some (some n)

structure Inv (p : Pool) : Prop where
  ended_lt : ∀ n, p.ended n = true → n < p.created
  joined_ended : ∀ n, p.joined n = true → p.ended n = true
  owned : ∀ fd n, p.owner fd = some (some n) → n < p.created ∧ p.ended n = false
  unique : ∀ fd fd' n, p.owner fd = some (some n) → p.owner fd' = some (some n) → fd = fd'
  slot : ∀ n < p.created, p.joined n = false →
    (p.slots (p.argument n)).active = true ∧ (p.slots (p.argument n)).thread = n

/-- What the other threads can rely on when `t` makes a call. -/
structure Guarantee (t : Option ℕ) (p p' : Pool) : Prop where
  created : p.created ≤ p'.created
  argument : ∀ n < p.created, p'.argument n = p.argument n
  ended : ∀ n, some n ≠ t → p'.ended n = p.ended n
  live : ∀ n < p.created, some n ≠ t → p.ended n = false →
    (p'.slots (p.argument n)).socketFd = (p.slots (p.argument n)).socketFd ∧
      (p.broker = true → p'.broker = true)
  owned : ∀ fd n, some n ≠ t → n < p.created →
    (p'.owner fd = some (some n) ↔ p.owner fd = some (some n))
  fresh : ∀ n, p.created ≤ n → n < p'.created → Fresh n p'
  main : t ≠ none → p'.created = p.created ∧ p'.broker = p.broker ∧ p'.joined = p.joined ∧
    (∀ slot, (p'.slots slot).active = (p.slots slot).active ∧
      (p'.slots slot).thread = (p.slots slot).thread ∧
      (p'.slots slot).socketFd = (p.slots slot).socketFd) ∧
    ∀ fd, p'.owner fd = some none ↔ p.owner fd = some none

def Safe (t : Option ℕ) (p : Pool) : Call → Prop
  | .createSignalFd | .socket | .accept _ => t = none
  | .close fd => p.owner fd = some t
  | .serveBegin fd _ | .serveEnd fd => p.broker = true ∧ p.owner fd = some t
  | .claim slot _ _ | .release slot => t = none ∧ Unused slot p
  | .spawn slot => t = none ∧ Unused slot p ∧ (p.slots slot).active = true ∧ p.broker = true ∧
      p.owner (p.slots slot).socketFd = some none
  | .join n => t = none ∧ n < p.created ∧ p.joined n = false
  | .shutdown fd => p.owner fd ≠ some none
  | .storeResult slot _ | .storeDone slot => ∃ n, t = some n ∧ n < p.created ∧
      p.argument n = slot ∧ p.ended n = false
  | .ended => ∃ n, t = some n ∧ n < p.created ∧ ∀ fd, p.owner fd ≠ some (some n)
  | .brokerCreate => t = none ∧ p.created = 0
  | .brokerDestroy => t = none ∧ p.broker = true ∧ ∀ n < p.created, p.joined n = true
  | .exit _ => t = none ∧ (∀ fd, p.owner fd = none) ∧ p.broker = false ∧
      ∀ n < p.created, p.joined n = true
  | _ => True

lemma Guarantee.refl (t : Option ℕ) (p : Pool) : Guarantee t p p where
  created := le_rfl
  argument _ _ := rfl
  ended _ _ := rfl
  live _ _ _ _ := ⟨rfl, id⟩
  owned _ _ _ _ := Iff.rfl
  fresh _ hle hlt := absurd hlt (Nat.not_lt.mpr hle)
  main _ := ⟨rfl, rfl, rfl, fun _ => ⟨rfl, rfl, rfl⟩, fun _ => Iff.rfl⟩

/-! ### What each call does -/

lemma Inv.joined_of_not_ended (h : p.Inv) (hended : p.ended n = false) : p.joined n = false := by
  by_contra hjoined
  exact nomatch hended.symm.trans (h.joined_ended n (by simpa using hjoined))

lemma keeps_openDescriptor (h : p.Inv) {choice : Choice} {r : Except Errno ℕ}
    (hk : p.openDescriptor none choice = some (r, p')) : p'.Inv ∧ Guarantee none p p' := by
  simp only [openDescriptor] at hk
  split at hk
  · cases hk
    exact ⟨h, .refl _ _⟩
  · obtain ⟨hfree, hk⟩ := Option.ite_none_right_eq_some.mp hk
    cases hk
    have howner : ∀ fd n, (p.setOwner choice.number (some none)).owner fd = some (some n) ↔
        p.owner fd = some (some n) := by
      intro fd n
      simp only [setOwner, Function.update_apply]
      split
      · next heq => simp [heq, hfree]
      · rfl
    refine ⟨⟨h.ended_lt, h.joined_ended, fun fd n hfd => h.owned fd n ((howner fd n).mp hfd),
      fun fd fd' n hfd hfd' => h.unique fd fd' n ((howner fd n).mp hfd) ((howner fd' n).mp hfd'),
      h.slot⟩, ?_⟩
    exact { Guarantee.refl none p with
      owned := fun fd n _ _ => howner fd n
      fresh := fun _ hle hlt => absurd hlt (Nat.not_lt.mpr hle)
      main := fun hne => absurd rfl hne }

/-- A thread closes a descriptor of its own. -/
lemma keeps_close (h : p.Inv) (hown : p.owner fd = some t) :
    (p.setOwner fd none).Inv ∧ Guarantee t p (p.setOwner fd none) := by
  have hold : ∀ fd' o, (p.setOwner fd none).owner fd' = some o → p.owner fd' = some o := by
    intro fd' o hfd'
    simp only [setOwner, Function.update_apply] at hfd'
    split at hfd'
    · cases hfd'
    · exact hfd'
  have hnew : ∀ fd' o, o ≠ t → p.owner fd' = some o → (p.setOwner fd none).owner fd' = some o := by
    intro fd' o hne hfd'
    simp only [setOwner, Function.update_apply]
    split
    · next heq => exact absurd (Option.some.inj (hfd'.symm.trans (heq ▸ hown))) hne
    · exact hfd'
  refine ⟨⟨h.ended_lt, h.joined_ended, fun fd' n hfd => h.owned fd' n (hold _ _ hfd),
    fun fd₁ fd₂ n h₁ h₂ => h.unique fd₁ fd₂ n (hold _ _ h₁) (hold _ _ h₂), h.slot⟩, ?_⟩
  exact { Guarantee.refl t p with
    owned := fun fd' n hne _ => ⟨hold _ _, hnew _ _ hne⟩
    fresh := fun _ hle hlt => absurd hlt (Nat.not_lt.mpr hle)
    main := fun hne => ⟨rfl, rfl, rfl, fun _ => ⟨rfl, rfl, rfl⟩,
      fun fd' => ⟨hold _ _, hnew _ _ (Ne.symm hne)⟩⟩ }

/-- `main` sets the fields of a worker that nobody uses. -/
lemma keeps_setSlot_main (h : p.Inv) (hunused : Unused slot p) (worker : ClientWorker) :
    (p.setSlot slot worker).Inv ∧ Guarantee none p (p.setSlot slot worker) := by
  have hother : ∀ n < p.created, p.joined n = false →
      (p.setSlot slot worker).slots (p.argument n) = p.slots (p.argument n) := by
    intro n hn hjoined
    refine Function.update_of_ne (fun heq => ?_) ..
    exact nomatch hjoined.symm.trans (hunused n hn heq)
  refine ⟨⟨h.ended_lt, h.joined_ended, h.owned, h.unique, fun n hn hjoined => ?_⟩, ?_⟩
  · exact (hother n hn hjoined).symm ▸ h.slot n hn hjoined
  · exact { Guarantee.refl none p with
      live := fun n hn _ hended => ⟨congrArg _ (hother n hn (h.joined_of_not_ended hended)), id⟩
      fresh := fun _ hle hlt => absurd hlt (Nat.not_lt.mpr hle)
      main := fun hne => absurd rfl hne }

/-- A worker sets its result, or that it is done. -/
lemma keeps_setSlot_worker (h : p.Inv) {worker : ClientWorker}
    (hactive : worker.active = (p.slots slot).active)
    (hthread : worker.thread = (p.slots slot).thread)
    (hfd : worker.socketFd = (p.slots slot).socketFd) :
    (p.setSlot slot worker).Inv ∧ Guarantee t p (p.setSlot slot worker) := by
  have hsame : ∀ slot', ((p.setSlot slot worker).slots slot').active = (p.slots slot').active ∧
      ((p.setSlot slot worker).slots slot').thread = (p.slots slot').thread ∧
      ((p.setSlot slot worker).slots slot').socketFd = (p.slots slot').socketFd := by
    intro slot'
    simp only [setSlot, Function.update_apply]
    split
    · next heq => exact heq ▸ ⟨hactive, hthread, hfd⟩
    · exact ⟨rfl, rfl, rfl⟩
  refine ⟨⟨h.ended_lt, h.joined_ended, h.owned, h.unique, fun n hn hjoined => ?_⟩, ?_⟩
  · obtain ⟨hactive, hthread, -⟩ := hsame (p.argument n)
    exact ⟨hactive.trans (h.slot n hn hjoined).1, hthread.trans (h.slot n hn hjoined).2⟩
  · exact { Guarantee.refl t p with
      live := fun n _ _ _ => ⟨(hsame (p.argument n)).2.2, id⟩
      fresh := fun _ hle hlt => absurd hlt (Nat.not_lt.mpr hle)
      main := fun _ => ⟨rfl, rfl, rfl, hsame, fun _ => Iff.rfl⟩ }

/-- The connection goes from `main` to the new thread. -/
lemma keeps_spawned (h : p.Inv) (hunused : Unused slot p) (hactive : (p.slots slot).active = true)
    (hbroker : p.broker = true) (hown : p.owner (p.slots slot).socketFd = some none) :
    (p.spawned slot).Inv ∧ Guarantee none p (p.spawned slot) := by
  have hargument : ∀ n < p.created, (p.spawned slot).argument n = p.argument n :=
    fun n hn => Function.update_of_ne (Nat.ne_of_lt hn) ..
  have hslots : ∀ n < p.created, p.joined n = false →
      (p.spawned slot).slots (p.argument n) = p.slots (p.argument n) := by
    intro n hn hjoined
    refine Function.update_of_ne (fun heq => ?_) ..
    exact nomatch hjoined.symm.trans (hunused n hn heq)
  have hnew : (p.spawned slot).argument p.created = slot := Function.update_self ..
  have hslot : (p.spawned slot).slots slot = { p.slots slot with thread := p.created } :=
    Function.update_self ..
  have howner : ∀ fd n, (p.spawned slot).owner fd = some (some n) ↔
      (fd = (p.slots slot).socketFd ∧ n = p.created) ∨ p.owner fd = some (some n) := by
    intro fd n
    simp only [spawned, Function.update_apply]
    split
    · next heq => simp [heq, hown, eq_comm]
    · next hne => simp [hne]
  refine ⟨⟨?_, h.joined_ended, ?_, ?_, ?_⟩, ?_⟩
  · exact fun n hended => Nat.lt_succ_of_lt (h.ended_lt n hended)
  · intro fd n hfd
    rcases (howner fd n).mp hfd with ⟨-, rfl⟩ | hfd
    · refine ⟨Nat.lt_succ_self _, Bool.eq_false_iff.mpr fun hended => ?_⟩
      exact Nat.lt_irrefl _ (h.ended_lt p.created hended)
    · exact ⟨Nat.lt_succ_of_lt (h.owned fd n hfd).1, (h.owned fd n hfd).2⟩
  · intro fd fd' n hfd hfd'
    rcases (howner fd n).mp hfd with ⟨hsocket, hn⟩ | hfd <;>
      rcases (howner fd' n).mp hfd' with ⟨hsocket', hn'⟩ | hfd'
    · exact hsocket.trans hsocket'.symm
    · exact absurd hn (Nat.ne_of_lt (h.owned fd' n hfd').1)
    · exact absurd hn' (Nat.ne_of_lt (h.owned fd n hfd).1)
    · exact h.unique fd fd' n hfd hfd'
  · intro n hn hjoined
    rcases Nat.lt_succ_iff_lt_or_eq.mp hn with hn | rfl
    · rw [hargument n hn, hslots n hn hjoined]
      exact h.slot n hn hjoined
    · rw [hnew, hslot]
      exact ⟨hactive, rfl⟩
  · refine ⟨Nat.le_succ _, hargument, fun _ _ => rfl, fun n hn _ hended => ?_, fun fd n _ hn => ?_,
      fun n hle hlt => ?_, fun hne => absurd rfl hne⟩
    · exact ⟨congrArg _ (hslots n hn (h.joined_of_not_ended hended)), id⟩
    · rw [howner]
      exact ⟨fun hfd => hfd.resolve_left fun hnew => absurd hnew.2 (Nat.ne_of_lt hn), .inr⟩
    · obtain rfl : n = p.created := Nat.le_antisymm (Nat.le_of_lt_succ hlt) hle
      refine ⟨hbroker, ?_⟩
      rw [hnew, hslot]
      exact (howner _ _).mpr (.inl ⟨rfl, rfl⟩)

lemma keeps_join (h : p.Inv) (hended : p.ended n = true) :
    ({ p with joined := Function.update p.joined n true } : Pool).Inv ∧
      Guarantee none p { p with joined := Function.update p.joined n true } := by
  refine ⟨⟨h.ended_lt, fun m hm => ?_, h.owned, h.unique, fun m hm hjoined => ?_⟩, ?_⟩
  · simp only [Function.update_apply] at hm
    split at hm
    · next heq => exact heq ▸ hended
    · exact h.joined_ended m hm
  · simp only [Function.update_apply] at hjoined
    split at hjoined
    · cases hjoined
    · exact h.slot m hm hjoined
  · exact { Guarantee.refl none p with
      fresh := fun _ hle hlt => absurd hlt (Nat.not_lt.mpr hle)
      main := fun hne => absurd rfl hne }

lemma keeps_ended (h : p.Inv) (hn : n < p.created) (hclosed : ∀ fd, p.owner fd ≠ some (some n)) :
    ({ p with ended := Function.update p.ended n true } : Pool).Inv ∧
      Guarantee (some n) p { p with ended := Function.update p.ended n true } := by
  have hother : ∀ m, m ≠ n → Function.update p.ended n true m = p.ended m :=
    fun m hm => Function.update_of_ne hm ..
  refine ⟨⟨fun m hm => ?_, fun m hm => ?_, fun fd m hfd => ?_, h.unique, h.slot⟩, ?_⟩
  · by_cases heq : m = n
    · exact heq ▸ hn
    · exact h.ended_lt m ((hother m heq).symm.trans hm)
  · by_cases heq : m = n
    · exact heq ▸ Function.update_self ..
    · exact (hother m heq).trans (h.joined_ended m hm)
  · have hne : m ≠ n := fun heq => hclosed fd (heq ▸ hfd)
    exact ⟨(h.owned fd m hfd).1, (hother m hne).trans (h.owned fd m hfd).2⟩
  · exact { Guarantee.refl (some n) p with
      ended := fun m hm => hother m fun heq => hm (heq ▸ rfl)
      fresh := fun _ hle hlt => absurd hlt (Nat.not_lt.mpr hle) }

/-- The broker comes and goes while no thread runs. -/
lemma keeps_broker (h : p.Inv) (hended : ∀ n < p.created, p.ended n = true) (b : Bool) :
    ({ p with broker := b } : Pool).Inv ∧ Guarantee none p { p with broker := b } := by
  refine ⟨⟨h.ended_lt, h.joined_ended, h.owned, h.unique, h.slot⟩, ?_⟩
  exact { Guarantee.refl none p with
    live := fun n hn _ hlive => nomatch hlive.symm.trans (hended n hn)
    fresh := fun _ hle hlt => absurd hlt (Nat.not_lt.mpr hle)
    main := fun hne => absurd rfl hne }

/-- A safe call keeps the invariant, and the others can rely on it. -/
lemma kernel_keeps (h : p.Inv) {c : Call} (hsafe : Safe t p c) {choice : Choice} {r : Answer c}
    (hk : kernel t p c choice = some (r, p')) : p'.Inv ∧ Guarantee t p p' := by
  cases c
  case createSignalFd | socket | accept =>
    obtain rfl : t = none := hsafe
    exact keeps_openDescriptor h hk
  case close fd =>
    cases hk
    exact keeps_close h hsafe
  case brokerCreate =>
    obtain ⟨rfl, hnone⟩ := hsafe
    cases hk
    exact keeps_broker h (fun n hn => absurd (hnone ▸ hn) (Nat.not_lt_zero n)) _
  case brokerDestroy =>
    obtain ⟨rfl, -, hjoined⟩ := hsafe
    cases hk
    exact keeps_broker h (fun n hn => h.joined_ended n (hjoined n hn)) _
  case claim slot fd uid =>
    obtain ⟨rfl, hunused⟩ := hsafe
    cases hk
    exact keeps_setSlot_main h hunused _
  case release slot =>
    obtain ⟨rfl, hunused⟩ := hsafe
    cases hk
    exact keeps_setSlot_main h hunused _
  case spawn slot =>
    obtain ⟨rfl, hunused, hactive, hbroker, hown⟩ := hsafe
    simp only [kernel] at hk
    split at hk <;> cases hk
    · exact ⟨h, .refl _ _⟩
    · exact keeps_spawned h hunused hactive hbroker hown
  case join n =>
    obtain ⟨rfl, -, -⟩ := hsafe
    obtain ⟨hended, hk⟩ := Option.ite_none_right_eq_some.mp hk
    cases hk
    exact keeps_join h hended
  case started =>
    simp only [kernel] at hk
    split at hk
    · obtain ⟨-, hk⟩ := Option.ite_none_right_eq_some.mp hk
      cases hk
      exact ⟨h, .refl _ _⟩
    · cases hk
  case storeResult slot result =>
    cases hk
    exact keeps_setSlot_worker h rfl rfl rfl
  case storeDone slot =>
    cases hk
    exact keeps_setSlot_worker h rfl rfl rfl
  case ended =>
    obtain ⟨n, rfl, hn, hclosed⟩ := hsafe
    cases hk
    exact keeps_ended h hn hclosed
  all_goals
    cases hk
    exact ⟨h, .refl _ _⟩

/-! ### What `main` knows -/

/-- What `main` knows between two of its calls: which descriptors are its own, whether there is a
broker, that each active worker has a thread that was not joined (but for the one that `main` is
busy with), and during the setup that there are no threads. -/
structure Holds (setup : Bool) (fds : List ℕ) (broker : Bool) (gap : Option (Fin maxClients))
    (p : Pool) : Prop where
  setup : setup = true → p.created = 0
  nodup : fds.Nodup
  mine : ∀ fd, p.owner fd = some none ↔ fd ∈ fds
  broker : p.broker = broker
  table : ∀ slot, gap ≠ some slot → (p.slots slot).active = true →
    (p.slots slot).thread < p.created ∧ p.argument (p.slots slot).thread = slot ∧
      p.joined (p.slots slot).thread = false

/-- What a thread knows at a label. -/
def At : Option ℕ → Label → Pool → Prop
  | none, .main, p => Holds true [] false none p
  | none, .loop l, p => Holds false [l.listenerFd, l.signalFd] true none p
  | some n, .worker, p => p.ended n = false ∧ (n < p.created → Fresh n p)
  | _, _, _ => True

def rules : Concurrent.Rules (Option ℕ) Pool Call Label where
  Safe := Safe
  Inv := Inv
  Guarantee := Guarantee
  At := At

def block (socketVariable : Option CString) (arguments : List CString) :
    Option ℕ → Label → Prog (Option Label)
  | none, .main => main socketVariable arguments
  | none, .loop l => pollLoop l
  | some _, .worker => serveClient
  | _, _ => return none

/-- `main` and all the threads that it may create. -/
def threads (socketVariable : Option CString) (arguments : List CString) :
    Concurrent.System (Option ℕ) Pool Choice Call Answer Label where
  kernel := kernel
  block := block socketVariable arguments

lemma respects (socketVariable : Option CString) (arguments : List CString) :
    rules.Respects (threads socketVariable arguments) :=
  fun _ _ _ _ _ _ hinv hsafe hk => kernel_keeps hinv hsafe hk

variable {setup b : Bool} {fds : List ℕ} {gap : Option (Fin maxClients)}

lemma stable_holds : rules.Stable none (Holds setup fds b gap) := by
  intro j hj p p' hg hp
  obtain ⟨hcreated, hbroker, hjoined, hslots, howner⟩ := hg.main hj
  refine ⟨fun h => hcreated.trans (hp.setup h), hp.nodup, fun fd => (howner fd).trans (hp.mine fd),
    hbroker.trans hp.broker, fun slot hgap hactive => ?_⟩
  obtain ⟨hactive', hthread, -⟩ := hslots slot
  obtain ⟨hlt, hargument, hnot⟩ := hp.table slot hgap (hactive'.symm.trans hactive)
  rw [hthread, hcreated, hjoined, hg.argument _ hlt]
  exact ⟨hlt, hargument, hnot⟩

/-- What `main` has read of a worker; the thread of the worker does not change it. -/
def Reads (slot : Fin maxClients) (worker : ClientWorker) (p : Pool) : Prop :=
  (p.slots slot).active = worker.active ∧ (p.slots slot).thread = worker.thread ∧
    (p.slots slot).socketFd = worker.socketFd

lemma stable_reads {worker : ClientWorker} : rules.Stable none (Reads slot worker) := by
  intro j hj p p' hg hp
  obtain ⟨-, -, -, hslots, -⟩ := hg.main hj
  obtain ⟨hactive, hthread, hfd⟩ := hslots slot
  exact ⟨hactive.trans hp.1, hthread.trans hp.2.1, hfd.trans hp.2.2⟩

lemma stable_unused : rules.Stable none (Unused slot) := by
  intro j hj p p' hg hp n hn hargument
  obtain ⟨hcreated, -, hjoined, -, -⟩ := hg.main hj
  rw [hcreated] at hn
  rw [hjoined]
  exact hp n hn ((hg.argument n hn).symm.trans hargument)

/-- Workers that have no thread. -/
def Inactive (slots : Fin maxClients → Prop) (p : Pool) : Prop :=
  ∀ slot, slots slot → (p.slots slot).active = false

lemma stable_inactive {slots : Fin maxClients → Prop} : rules.Stable none (Inactive slots) := by
  intro j hj p p' hg hp slot hslot
  obtain ⟨-, -, -, hslots, -⟩ := hg.main hj
  exact (hslots slot).1.trans (hp slot hslot)

lemma Inv.unused (h : p.Inv) (hinactive : (p.slots slot).active = false) : Unused slot p := by
  intro n hn hargument
  by_contra hjoined
  have hactive := (h.slot n hn (by simpa using hjoined)).1
  rw [hargument] at hactive
  exact nomatch hinactive.symm.trans hactive

/-- All threads were joined. -/
def Idle (p : Pool) : Prop :=
  ∀ n < p.created, p.joined n = true

lemma stable_idle : rules.Stable none Idle := by
  intro j hj p p' hg hp n hn
  obtain ⟨hcreated, -, hjoined, -, -⟩ := hg.main hj
  rw [hjoined]
  exact hp n (hcreated ▸ hn)

lemma Holds.idle (h : Holds true fds b gap p) : Idle p :=
  fun n hn => absurd (h.setup rfl ▸ hn) (Nat.not_lt_zero n)

lemma Inv.idle (h : p.Inv) (hinactive : Inactive (fun _ => True) p) : Idle p :=
  fun n hn => h.unused (hinactive (p.argument n) trivial) n hn rfl

lemma openDescriptor_holds {choice : Choice} {r : Except Errno ℕ} (hp : Holds setup fds b gap p)
    (hk : p.openDescriptor none choice = some (r, p')) :
    (∃ error, r = .error error ∧ Holds setup fds b gap p') ∨
      ∃ fd, r = .ok fd ∧ Holds setup (fd :: fds) b gap p' := by
  simp only [openDescriptor] at hk
  split at hk
  · next error _ =>
    cases hk
    exact .inl ⟨error, rfl, hp⟩
  · obtain ⟨hfree, hk⟩ := Option.ite_none_right_eq_some.mp hk
    cases hk
    refine .inr ⟨choice.number, rfl, hp.setup, ?_, fun fd => ?_, hp.broker, hp.table⟩
    · refine List.nodup_cons.mpr ⟨fun hmem => ?_, hp.nodup⟩
      exact nomatch hfree.symm.trans ((hp.mine _).mpr hmem)
    · simp only [setOwner, Function.update_apply, List.mem_cons]
      split
      · next heq => simp [heq]
      · next hne => simp [hne, hp.mine]

lemma Holds.close (hp : Holds setup (fd :: fds) b gap p) :
    Holds setup fds b gap (p.setOwner fd none) := by
  obtain ⟨hnot, hnodup⟩ := List.nodup_cons.mp hp.nodup
  refine ⟨hp.setup, hnodup, fun fd' => ?_, hp.broker, hp.table⟩
  simp only [setOwner, Function.update_apply]
  split
  · next heq => simp [heq, hnot]
  · next hne => simp [hp.mine, hne]

/-! ### Rules for the programs -/

section Programs

variable {socketVariable : Option CString} {arguments : List CString} {α : Type}
  {P : Pool → Prop} {Q : α → Pool → Prop}

/-- A thread makes only safe calls in a program, and ends it with `Q`. -/
abbrev Wp (socketVariable : Option CString) (arguments : List CString) (t : Option ℕ)
    (prog : Prog α) (Q : α → Pool → Prop) (p : Pool) : Prop :=
  rules.wp (threads socketVariable arguments) t prog Q p

lemma wp_sys {c : Call} {rest : Answer c → Prog α} (hP : rules.Stable t P) (hp : P p)
    (hsafe : ∀ p, P p → p.Inv → Safe t p c)
    (hrest : ∀ p choice r p', P p → p.Inv → kernel t p c choice = some (r, p') →
      Wp socketVariable arguments t (rest r) Q p') :
    Wp socketVariable arguments t (sys c >>= rest) Q p :=
  (respects socketVariable arguments).wp_call hP hp hsafe
    fun p choice r p' hp hinv _ _ hk => hrest p choice r p' hp hinv hk

/-- A call that has nothing to do with threads. -/
def Quiet : Call → Prop
  | .geteuid | .mkdir _ _ | .lstat _ | .umask _ | .bind _ _ | .chmod _ _ | .listen _
  | .connect _ _ | .getPeerCredentials _ | .unlink _ | .exchange _ | .attrInit
  | .attrSetStackSize | .attrDestroy | .poll | .readSignal _ => True
  | _ => False

lemma wp_quiet {c : Call} {rest : Answer c → Prog α} (hc : Quiet c) (hP : rules.Stable t P)
    (hp : P p) (hrest : ∀ r p, P p → Wp socketVariable arguments t (rest r) Q p) :
    Wp socketVariable arguments t (sys c >>= rest) Q p := by
  refine wp_sys hP hp (fun _ _ _ => ?_) fun p choice r p' hp _ hk => ?_
  · cases c <;> first | exact hc.elim | trivial
  · have hsame : p' = p := by
      cases c <;> first | exact hc.elim | (cases hk; rfl)
    exact hrest r p' (hsame ▸ hp)

lemma wp_load {rest : ClientWorker → Prog α} (hP : rules.Stable t P) (hp : P p)
    (hrest : ∀ p, P p → Wp socketVariable arguments t (rest (p.slots slot)) Q p) :
    Wp socketVariable arguments t (sys (.load slot) >>= rest) Q p := by
  refine wp_sys hP hp (fun _ _ _ => trivial) fun p choice r p' hp _ hk => ?_
  cases hk
  exact hrest p hp

lemma wp_close {rest : Unit → Prog α} (hp : Holds setup (fd :: fds) b gap p)
    (hrest : ∀ p, Holds setup fds b gap p → Wp socketVariable arguments none (rest ()) Q p) :
    Wp socketVariable arguments none (sys (.close fd) >>= rest) Q p := by
  refine wp_sys stable_holds hp (fun p hp _ => (hp.mine fd).mpr List.mem_cons_self) ?_
  intro p choice r p' hp _ hk
  cases hk
  exact hrest _ hp.close

lemma wp_exitWith {code : UInt32} (hp : Holds setup [] false gap p ∧ Idle p) :
    Wp socketVariable arguments none (exitWith code) (rules.Ends none) p := by
  refine wp_sys (stable_holds.and stable_idle) hp (fun p hp hinv => ?_) ?_
  · refine ⟨rfl, fun fd => ?_, hp.1.broker, hp.2⟩
    match howner : p.owner fd with
    | none => rfl
    | some none => exact absurd ((hp.1.mine fd).mp howner) List.not_mem_nil
    | some (some n) =>
      obtain ⟨hn, hended⟩ := hinv.owned fd n howner
      exact nomatch hended.symm.trans (hinv.joined_ended n (hp.2 n hn))
  · intro p choice r p' _ _ _ _ hl
    cases hl

/-! ### Setup -/

/-- What `tgc_transport_listen` leaves open. -/
def Opened (fds : List ℕ) : Except Int32 ℕ → Pool → Prop
  | .ok fd, p => Holds true (fd :: fds) false none p
  | .error _, p => Holds true fds false none p

lemma wp_validate {directory : CString} {uid : UInt32} {rest : Int32 → Prog α}
    (hP : rules.Stable t P) (hp : P p)
    (hrest : ∀ r p, P p → Wp socketVariable arguments t (rest r) Q p) :
    Wp socketVariable arguments t (validateRuntimeDirectory directory uid >>= rest) Q p := by
  refine Concurrent.Rules.wp_bind (wp_quiet trivial hP hp fun r p hp => ?_)
  cases r with
  | error error => exact hrest _ p hp
  | ok status =>
    dsimp only
    split_ifs
    · exact hrest _ p hp
    · exact hrest _ p hp
    · exact hrest _ p hp

lemma wp_abandon {path : CString} {result : Int32} (hp : Holds true (fd :: fds) false none p) :
    Wp socketVariable arguments none (abandon fd path result) (Opened fds) p :=
  wp_close hp fun _ hp => wp_quiet trivial stable_holds hp fun _ _ hp => hp

lemma wp_finishListener {path : CString} {uid : UInt32}
    (hp : Holds true (fd :: fds) false none p) :
    Wp socketVariable arguments none (finishListener fd path uid) (Opened fds) p := by
  refine wp_quiet trivial stable_holds hp fun r p hp => ?_
  cases r with
  | some error => exact wp_abandon hp
  | none =>
    refine wp_quiet trivial stable_holds hp fun r p hp => ?_
    cases r with
    | error error => exact wp_abandon hp
    | ok created =>
      dsimp only
      split_ifs
      · exact wp_abandon hp
      · refine wp_quiet trivial stable_holds hp fun r p hp => ?_
        cases r with
        | some error => exact wp_abandon hp
        | none => exact hp

lemma wp_bindListener {path : CString} {uid : UInt32}
    (hp : Holds true (fd :: fds) false none p) :
    Wp socketVariable arguments none (bindListener fd path uid) (Opened fds) p := by
  refine wp_quiet trivial stable_holds hp fun mask p hp => ?_
  refine wp_quiet trivial stable_holds hp fun bound p hp => ?_
  refine wp_quiet trivial stable_holds hp fun _ p hp => ?_
  cases bound with
  | some error => exact wp_close hp fun _ hp => hp
  | none => exact wp_finishListener hp

lemma wp_transportListen {path : CString} {uid : UInt32} (hp : Holds true fds false none p) :
    Wp socketVariable arguments none (transportListen path uid) (Opened fds) p := by
  unfold transportListen
  split
  · exact hp
  refine wp_quiet trivial stable_holds hp fun r p hp => ?_
  split
  · exact hp
  refine wp_validate stable_holds hp fun r p hp => ?_
  split_ifs
  · exact hp
  refine wp_quiet trivial stable_holds hp fun r p hp => ?_
  cases r with
  | ok status => exact hp
  | error error =>
    dsimp only
    split_ifs
    · exact hp
    refine wp_sys stable_holds hp (fun _ _ _ => rfl) fun p choice r p' hp _ hk => ?_
    rcases openDescriptor_holds hp hk with ⟨error, rfl, hp⟩ | ⟨fd, rfl, hp⟩
    · exact hp
    · exact wp_bindListener hp

variable {l : Locals}

lemma wp_brokerDestroy {rest : Unit → Prog α} (hp : Holds setup fds true gap p ∧ Idle p)
    (hrest : ∀ p, Holds setup fds false gap p ∧ Idle p →
      Wp socketVariable arguments none (rest ()) Q p) :
    Wp socketVariable arguments none (sys .brokerDestroy >>= rest) Q p := by
  refine wp_sys (stable_holds.and stable_idle) hp (fun p hp _ => ⟨rfl, hp.1.broker, hp.2⟩) ?_
  intro p choice r p' hp _ hk
  cases hk
  exact hrest _ ⟨⟨hp.1.setup, hp.1.nodup, hp.1.mine, rfl, hp.1.table⟩, hp.2⟩

/-- The two descriptors of the setup are closed, and the daemon leaves. -/
lemma wp_leave {code : UInt32}
    (hp : Holds true [l.listenerFd, l.signalFd] false none p) :
    Wp socketVariable arguments none (do
      sys (.close l.listenerFd)
      sys (.close l.signalFd)
      let _ ← sys (.unlink l.socketPath)
      exitWith code) (rules.Ends none) p := by
  refine wp_close hp fun p hp => wp_close hp fun p hp => ?_
  exact wp_quiet trivial stable_holds hp fun _ p hp => wp_exitWith ⟨hp, hp.idle⟩

lemma wp_abortSetup (attributes : Bool)
    (hp : Holds true [l.listenerFd, l.signalFd] true none p) :
    Wp socketVariable arguments none (abortSetup l attributes) (rules.Ends none) p := by
  have hrest : ∀ p, Holds true [l.listenerFd, l.signalFd] true none p →
      Wp socketVariable arguments none (do
        sys .brokerDestroy
        sys (.close l.listenerFd)
        sys (.close l.signalFd)
        let _ ← sys (.unlink l.socketPath)
        exitWith exitFailure) (rules.Ends none) p :=
    fun p hp => wp_brokerDestroy ⟨hp, hp.idle⟩ fun p hp => wp_leave hp.1
  unfold abortSetup
  split
  · exact wp_quiet trivial stable_holds hp fun _ p hp => hrest p hp
  · exact hrest p hp

lemma Holds.started (hp : Holds true fds b gap p) : Holds false fds b gap p :=
  ⟨nofun, hp.nodup, hp.mine, hp.broker, hp.table⟩

lemma ends_loop (hp : Holds false [l.listenerFd, l.signalFd] true none p) :
    rules.Ends none (some (.loop l)) p := by
  rintro _ ⟨⟩
  exact hp

lemma wp_setUp (hp : Holds true [l.listenerFd, l.signalFd] false none p) :
    Wp socketVariable arguments none (setUp l) (rules.Ends none) p := by
  refine wp_sys stable_holds hp (fun p hp _ => ⟨rfl, hp.setup rfl⟩) fun p choice r p' hp _ hk => ?_
  have hp' : Holds true [l.listenerFd, l.signalFd] r none p' := by
    cases hk
    exact ⟨hp.setup, hp.nodup, hp.mine, rfl, hp.table⟩
  cases r with
  | false => exact wp_leave hp'
  | true =>
    refine wp_quiet trivial stable_holds hp' fun r p hp => ?_
    cases r with
    | some error => exact wp_abortSetup false hp
    | none =>
      refine wp_quiet trivial stable_holds hp fun r p hp => ?_
      cases r with
      | some error => exact wp_abortSetup true hp
      | none => exact ends_loop hp.started

lemma wp_main (hp : Holds true [] false none p) :
    Wp socketVariable arguments none (main socketVariable arguments) (rules.Ends none) p := by
  unfold main
  split
  · exact wp_exitWith ⟨hp, hp.idle⟩
  refine wp_sys stable_holds hp (fun _ _ _ => rfl) fun p choice r p' hp _ hk => ?_
  rcases openDescriptor_holds hp hk with ⟨error, rfl, hp⟩ | ⟨signalFd, rfl, hp⟩
  · exact wp_exitWith ⟨hp, hp.idle⟩
  refine wp_quiet trivial stable_holds hp fun uid p hp => ?_
  refine Concurrent.Rules.wp_bind (Concurrent.Rules.wp_mono ?_ (wp_transportListen hp))
  intro r p hp
  cases r with
  | error result => exact wp_close hp fun p hp => wp_exitWith ⟨hp, hp.idle⟩
  | ok listenerFd => exact wp_setUp hp

/-! ### The table of workers -/

variable {S : Fin maxClients → Prop}

lemma stable_table : rules.Stable none fun p => Holds setup fds b gap p ∧ Inactive S p :=
  stable_holds.and stable_inactive

/-- A slot that is not active does not matter. -/
lemma Holds.release (hp : Holds false fds b (some slot) p) :
    Holds false fds b none (p.setSlot slot { p.slots slot with active := false }) := by
  refine ⟨nofun, hp.nodup, hp.mine, hp.broker, fun slot' _ hactive => ?_⟩
  simp only [setSlot, Function.update_apply] at hactive ⊢
  split at hactive
  · cases hactive
  · next hne =>
    rw [if_neg hne]
    exact hp.table slot' (fun heq => hne (Option.some.inj heq).symm) hactive

/-- The other workers that are active have other threads: a thread has one worker as its
argument. -/
lemma Holds.join (hp : Holds false fds b none p) (hargument : p.argument n = slot) :
    Holds false fds b (some slot) { p with joined := Function.update p.joined n true } := by
  refine ⟨nofun, hp.nodup, hp.mine, hp.broker, fun slot' hgap hactive => ?_⟩
  obtain ⟨hlt, hargument', hjoined⟩ := hp.table slot' nofun hactive
  refine ⟨hlt, hargument', (Function.update_of_ne (fun heq => hgap ?_) ..).trans hjoined⟩
  rw [← hargument', heq, hargument]

/-- Only the thread that the worker names may still run for it. -/
lemma Inv.unused_join (h : p.Inv) (hthread : (p.slots slot).thread = n) :
    Unused slot { p with joined := Function.update p.joined n true } := by
  intro m hm hargument
  simp only [Function.update_apply]
  split
  · rfl
  · next hne =>
    by_contra hjoined
    have hslot := (h.slot m hm (by simpa using hjoined)).2
    rw [show p.argument m = slot from hargument, hthread] at hslot
    exact hne hslot.symm

/-- The thread of an active worker is joined, and the worker is free again. -/
lemma wp_joinRelease {worker : ClientWorker} {rest : Prog α}
    (hactive : worker.active = true)
    (hp : (Holds false fds b none p ∧ Inactive S p) ∧ Reads slot worker p)
    (hrest : ∀ p, Holds false fds b none p ∧ Inactive (fun s => s = slot ∨ S s) p →
      Wp socketVariable arguments none rest Q p) :
    Wp socketVariable arguments none (do
      sys (.join worker.thread)
      sys (.release slot)
      rest) Q p := by
  refine wp_sys (stable_table.and stable_reads) hp (fun p hp _ => ?_) ?_
  · obtain ⟨⟨hp, -⟩, hworker, hthread, -⟩ := hp
    obtain ⟨hlt, -, hjoined⟩ := hp.table slot nofun (hworker.trans hactive)
    exact ⟨rfl, hthread ▸ hlt, hthread ▸ hjoined⟩
  intro p choice r p' ⟨⟨hp, hinactive⟩, hworker, hthread, _⟩ hinv hk
  obtain ⟨-, hk⟩ := Option.ite_none_right_eq_some.mp hk
  cases hk
  obtain ⟨-, hargument, -⟩ := hp.table slot nofun (hworker.trans hactive)
  rw [hthread] at hargument
  refine wp_sys ((stable_table (S := S)).and stable_unused)
    ⟨⟨hp.join hargument, hinactive⟩, hinv.unused_join hthread⟩ (fun p hp _ => ⟨rfl, hp.2⟩) ?_
  intro p choice r p' ⟨⟨hp, hinactive⟩, _⟩ _ hk
  cases hk
  refine hrest _ ⟨hp.release, fun slot' hslot' => ?_⟩
  simp only [setSlot, Function.update_apply]
  split
  · rfl
  · next hne => exact hinactive slot' (hslot'.resolve_left hne)

/-- `main` reads a worker. -/
lemma wp_read {rest : ClientWorker → Prog α} (hP : rules.Stable none P) (hp : P p)
    (hrest : ∀ worker p, P p ∧ Reads slot worker p →
      Wp socketVariable arguments none (rest worker) Q p) :
    Wp socketVariable arguments none (sys (.load slot) >>= rest) Q p :=
  wp_load hP hp fun p hp => hrest (p.slots slot) p ⟨hp, rfl, rfl, rfl⟩

/-- One program after the other. -/
lemma wp_andThen {β : Type} {prog : Prog β} {f : β → Prog α} {M : β → Pool → Prop}
    (h : Wp socketVariable arguments t prog M p)
    (hrest : ∀ a p, M a p → Wp socketVariable arguments t (f a) Q p) :
    Wp socketVariable arguments t (prog >>= f) Q p :=
  Concurrent.Rules.wp_bind (Concurrent.Rules.wp_mono hrest h)

lemma Inactive.mono {S' : Fin maxClients → Prop} (h : Inactive S p) (hS : ∀ s, S' s → S s) :
    Inactive S' p :=
  fun slot hslot => h slot (hS slot hslot)

lemma wp_reapFinishedWorkers (slots : List (Fin maxClients)) (hp : Holds false fds b none p) :
    Wp socketVariable arguments none (reapFinishedWorkers slots)
      (fun _ => Holds false fds b none) p := by
  induction slots generalizing p with
  | nil => exact hp
  | cons slot slots ih =>
    refine wp_read (stable_table (S := fun _ => False)) ⟨hp, nofun⟩ fun worker p hp => ?_
    split_ifs with hbusy
    · exact ih hp.1.1
    · simp only [not_or, Bool.not_eq_false] at hbusy
      exact wp_joinRelease hbusy.1 hp fun p hp => ih hp.1

lemma wp_firstInactive (slots : List (Fin maxClients)) (hp : Holds false fds b none p) :
    Wp socketVariable arguments none (firstInactive slots)
      (fun slot p => Holds false fds b none p ∧ Inactive (fun s => slot = some s) p) p := by
  induction slots generalizing p with
  | nil => exact ⟨hp, nofun⟩
  | cons slot slots ih =>
    refine wp_read stable_holds hp fun worker p hp => ?_
    split_ifs with hfree
    · refine ⟨hp.1, ?_⟩
      rintro _ ⟨⟩
      exact hp.2.1.trans hfree
    · exact ih hp.1

lemma wp_availableWorker (hp : Holds false fds b none p) :
    Wp socketVariable arguments none availableWorker
      (fun slot p => Holds false fds b none p ∧ Inactive (fun s => slot = some s) p) p :=
  wp_andThen (wp_reapFinishedWorkers _ hp) fun _ _ hp => wp_firstInactive _ hp

/-- Once `main` has closed its own descriptors, only connections of threads are shut down. -/
lemma wp_stopWorkers (slots : List (Fin maxClients)) (hp : Holds false [] b none p) :
    Wp socketVariable arguments none (stopWorkers slots) (fun _ => Holds false [] b none) p := by
  induction slots generalizing p with
  | nil => exact hp
  | cons slot slots ih =>
    refine wp_read stable_holds hp fun worker p hp => ?_
    split_ifs
    · refine wp_sys stable_holds hp.1 (fun p hp _ howner => ?_) fun p choice r p' hp _ hk => ?_
      · exact List.not_mem_nil ((hp.mine _).mp howner)
      · cases hk
        exact ih hp
    · exact ih hp.1

lemma wp_joinWorkers (slots : List (Fin maxClients)) (S : Fin maxClients → Prop)
    (hp : Holds false fds b none p ∧ Inactive S p) :
    Wp socketVariable arguments none (joinWorkers slots)
      (fun _ p => Holds false fds b none p ∧ Inactive (fun s => s ∈ slots ∨ S s) p) p := by
  induction slots generalizing p S with
  | nil => exact ⟨hp.1, hp.2.mono (by simp)⟩
  | cons slot slots ih =>
    have hnext : ∀ p, Holds false fds b none p ∧ Inactive (fun s => s = slot ∨ S s) p →
        Wp socketVariable arguments none (joinWorkers slots) (fun _ p =>
          Holds false fds b none p ∧ Inactive (fun s => s ∈ slot :: slots ∨ S s) p) p := by
      intro p hp
      refine Concurrent.Rules.wp_mono (fun _ p hp => ⟨hp.1, hp.2.mono ?_⟩) (ih _ hp)
      intro s hs
      simp only [List.mem_cons] at hs
      tauto
    refine wp_read stable_table hp fun worker p hp => ?_
    split_ifs with hactive
    · exact wp_joinRelease hactive hp fun p hp => hnext p hp
    · refine hnext p ⟨hp.1.1, ?_⟩
      rintro s (rfl | hs)
      · exact hp.2.1.trans (Bool.eq_false_iff.mpr hactive)
      · exact hp.1.2 s hs

/-! ### The loop -/

lemma wp_finish (failed : Bool) (hp : Holds false [l.listenerFd, l.signalFd] true none p) :
    Wp socketVariable arguments none (finish l failed) (rules.Ends none) p := by
  refine wp_quiet trivial stable_holds hp fun _ p hp => ?_
  refine wp_close hp fun p hp => wp_close hp fun p hp => ?_
  refine wp_andThen (wp_stopWorkers _ hp) fun _ p hp => ?_
  refine wp_andThen (wp_joinWorkers _ (fun _ => False) ⟨hp, nofun⟩) fun _ p hp => ?_
  -- every worker is inactive now, so every thread was joined
  have hidle : ∀ p : Pool, p.Inv →
      Inactive (fun s => s ∈ List.finRange maxClients ∨ False) p → Idle p :=
    fun p hinv hinactive => hinv.idle (hinactive.mono fun s _ => .inl (List.mem_finRange s))
  refine wp_sys stable_table hp (fun p hp hinv => ⟨rfl, hp.1.broker, hidle p hinv hp.2⟩) ?_
  intro p choice r p' hp hinv hk
  cases hk
  have hp' : Holds false [] false none { p with broker := false } :=
    ⟨nofun, hp.1.nodup, hp.1.mine, rfl, hp.1.table⟩
  refine wp_quiet trivial (stable_holds.and stable_idle) ⟨hp', hidle p hinv hp.2⟩ ?_
  exact fun _ p hp => wp_exitWith hp

/-- The worker has a connection to serve and no thread yet. -/
def Claimed (slot : Fin maxClients) (fd : ℕ) (p : Pool) : Prop :=
  (p.slots slot).active = true ∧ (p.slots slot).socketFd = fd

lemma stable_claimed : rules.Stable none (Claimed slot fd) := by
  intro j hj p p' hg hp
  obtain ⟨-, -, -, hslots, -⟩ := hg.main hj
  exact ⟨(hslots slot).1.trans hp.1, (hslots slot).2.2.trans hp.2⟩

lemma Holds.claim (hp : Holds false fds b none p) (worker : ClientWorker) :
    Holds false fds b (some slot) (p.setSlot slot worker) := by
  refine ⟨nofun, hp.nodup, hp.mine, hp.broker, fun slot' hgap hactive => ?_⟩
  have hne : slot' ≠ slot := fun heq => hgap (heq ▸ rfl)
  simp only [setSlot, Function.update_of_ne hne] at hactive ⊢
  exact hp.table slot' nofun hactive

/-- With the thread the connection is gone from `main`, and the worker is complete. -/
lemma Holds.spawned (hp : Holds false (fd :: fds) b (some slot) p) (hinv : p.Inv)
    (hclaimed : Claimed slot fd p) : Holds false fds b none (p.spawned slot) := by
  obtain ⟨hnot, hnodup⟩ := List.nodup_cons.mp hp.nodup
  refine ⟨nofun, hnodup, fun fd' => ?_, hp.broker, fun slot' _ hactive => ?_⟩
  · simp only [Pool.spawned, hclaimed.2, Function.update_apply]
    split
    · next heq => simp [heq, hnot]
    · next hne => simp [hp.mine, hne]
  · by_cases hslot : slot' = slot
    · subst hslot
      simp only [Pool.spawned, Function.update_self]
      refine ⟨Nat.lt_succ_self _, trivial, hinv.joined_of_not_ended ?_⟩
      exact Bool.eq_false_iff.mpr fun hended => Nat.lt_irrefl _ (hinv.ended_lt _ hended)
    · simp only [Pool.spawned, Function.update_of_ne hslot] at hactive ⊢
      obtain ⟨hlt, hargument, hjoined⟩ :=
        hp.table slot' (fun heq => hslot (Option.some.inj heq).symm) hactive
      rw [Function.update_of_ne (Nat.ne_of_lt hlt)]
      exact ⟨Nat.lt_succ_of_lt hlt, hargument, hjoined⟩

lemma wp_serveInWorker (hp : Holds false [fd, l.listenerFd, l.signalFd] true none p) :
    Wp socketVariable arguments none (serveInWorker l fd) (rules.Ends none) p := by
  refine wp_andThen (wp_availableWorker hp) fun slot p hp => ?_
  cases slot with
  | none => exact wp_close hp.1 fun p hp => ends_loop hp
  | some slot =>
    refine wp_sys stable_table hp (fun p hp hinv => ⟨rfl, hinv.unused (hp.2 slot rfl)⟩) ?_
    intro p choice r p' hp hinv hk
    have hunused := hinv.unused (hp.2 slot rfl)
    cases hk
    have hstable : rules.Stable none fun p =>
        (Holds false [fd, l.listenerFd, l.signalFd] true (some slot) p ∧ Claimed slot fd p) ∧
          Unused slot p :=
      (stable_holds.and stable_claimed).and stable_unused
    refine wp_sys hstable ⟨⟨hp.1.claim _, ?_, ?_⟩, hunused⟩ (fun p hp _ => ?_) ?_
    · simp only [setSlot, Function.update_self]
    · simp only [setSlot, Function.update_self]
    · obtain ⟨⟨hp, hactive, hfd⟩, hunused⟩ := hp
      exact ⟨rfl, hunused, hactive, hp.broker, hfd ▸ (hp.mine fd).mpr List.mem_cons_self⟩
    intro p choice r p' hp hinv hk
    simp only [kernel] at hk
    split at hk <;> cases hk
    · refine wp_sys hstable hp (fun p hp _ => ⟨rfl, hp.2⟩) fun p choice r p' hp _ hk => ?_
      cases hk
      exact wp_close hp.1.1.release fun p hp => ends_loop hp
    · exact ends_loop (hp.1.1.spawned hinv hp.1.2)

lemma wp_pollLoop (hp : Holds false [l.listenerFd, l.signalFd] true none p) :
    Wp socketVariable arguments none (pollLoop l) (rules.Ends none) p := by
  refine wp_quiet trivial stable_holds hp fun r p hp => ?_
  match r with
  | .error error =>
    dsimp only
    split_ifs
    · exact ends_loop hp
    · exact wp_finish true hp
  | .ok (signal, listener) =>
    dsimp only
    split
    · exact wp_quiet trivial stable_holds hp fun _ p hp => wp_finish _ hp
    split
    · exact wp_finish true hp
    split
    · exact ends_loop hp
    refine wp_sys stable_holds hp (fun _ _ _ => rfl) fun p choice r p' hp _ hk => ?_
    rcases openDescriptor_holds hp hk with ⟨error, rfl, hp⟩ | ⟨clientFd, rfl, hp⟩
    · dsimp only
      split_ifs
      · exact ends_loop hp
      · exact wp_finish true hp
    · dsimp only
      split_ifs
      · have hsafe : ∀ p, Holds false [clientFd, l.listenerFd, l.signalFd] true none p →
            p.broker = true ∧ p.owner clientFd = some none :=
          fun p hp => ⟨hp.broker, (hp.mine clientFd).mpr List.mem_cons_self⟩
        refine wp_sys stable_holds hp (fun p hp _ => hsafe p hp) fun p choice r p' hp _ hk => ?_
        cases hk
        refine wp_sys stable_holds hp (fun p hp _ => hsafe p hp) fun p choice r p' hp _ hk => ?_
        cases hk
        exact wp_close hp fun p hp => wp_finish _ hp
      · exact wp_serveInWorker hp

/-! ### The threads of the workers -/

/-- Thread `n` serves its connection. -/
structure Runs (n : ℕ) (slot : Fin maxClients) (fd : ℕ) (p : Pool) : Prop where
  created : n < p.created
  argument : p.argument n = slot
  ended : p.ended n = false
  broker : p.broker = true
  socketFd : (p.slots slot).socketFd = fd
  owner : p.owner fd = some (some n)

/-- Thread `n` has closed its connection. -/
structure Closed (n : ℕ) (slot : Fin maxClients) (p : Pool) : Prop where
  created : n < p.created
  argument : p.argument n = slot
  ended : p.ended n = false
  owner : ∀ fd, p.owner fd ≠ some (some n)

lemma stable_runs : rules.Stable (some n) (Runs n slot fd) := by
  intro j hj p p' hg hp
  obtain ⟨hsocket, hbroker⟩ := hg.live n hp.created (Ne.symm hj) hp.ended
  rw [hp.argument] at hsocket
  exact ⟨hp.created.trans_le hg.created, (hg.argument n hp.created).trans hp.argument,
    (hg.ended n (Ne.symm hj)).trans hp.ended, hbroker hp.broker, hsocket.trans hp.socketFd,
    (hg.owned fd n (Ne.symm hj) hp.created).mpr hp.owner⟩

lemma stable_closed : rules.Stable (some n) (Closed n slot) := by
  intro j hj p p' hg hp
  refine ⟨hp.created.trans_le hg.created, (hg.argument n hp.created).trans hp.argument,
    (hg.ended n (Ne.symm hj)).trans hp.ended, fun fd hfd => hp.owner fd ?_⟩
  exact (hg.owned fd n (Ne.symm hj) hp.created).mp hfd

lemma stable_worker : rules.Stable (some n) (At (some n) .worker) := by
  intro j hj p p' hg hp
  have hended := (hg.ended n (Ne.symm hj)).trans hp.1
  refine ⟨hended, fun hn => ?_⟩
  by_cases hold : n < p.created
  · obtain ⟨hsocket, hbroker⟩ := hg.live n hold (Ne.symm hj) hp.1
    obtain ⟨hbroker', howner⟩ := hp.2 hold
    refine ⟨hbroker hbroker', ?_⟩
    rw [hg.argument n hold, hsocket]
    exact (hg.owned _ n (Ne.symm hj) hold).mpr howner
  · exact hg.fresh n (Nat.not_lt.mp hold) hn

lemma Runs.storeResult (hp : Runs n slot fd p) (result : Int32) :
    Runs n slot fd (p.setSlot slot { p.slots slot with result := result }) := by
  refine ⟨hp.created, hp.argument, hp.ended, hp.broker, ?_, hp.owner⟩
  simpa only [setSlot, Function.update_self] using hp.socketFd

lemma Runs.close (hp : Runs n slot fd p) (hinv : p.Inv) : Closed n slot (p.setOwner fd none) := by
  refine ⟨hp.created, hp.argument, hp.ended, fun fd' hfd' => ?_⟩
  simp only [setOwner, Function.update_apply] at hfd'
  split at hfd'
  · cases hfd'
  · next hne => exact hne (hinv.unique fd' fd n hfd' hp.owner)

lemma wp_serveClient (hp : At (some n) .worker p) :
    Wp socketVariable arguments (some n) serveClient (rules.Ends (some n)) p := by
  refine wp_sys stable_worker hp (fun _ _ _ => trivial) fun p choice slot p' hp _ hk => ?_
  obtain ⟨hn, hk⟩ := Option.ite_none_right_eq_some.mp hk
  cases hk
  obtain ⟨hbroker, howner⟩ := hp.2 hn
  have hruns : Runs n (p.argument n) (p.slots (p.argument n)).socketFd p :=
    ⟨hn, rfl, hp.1, hbroker, rfl, howner⟩
  generalize (p.slots (p.argument n)).socketFd = fd at hruns
  generalize p.argument n = slot at hruns
  refine wp_load stable_runs hruns fun p hp => ?_
  rw [hp.socketFd]
  refine wp_sys stable_runs hp (fun p hp _ => ⟨hp.broker, hp.owner⟩) fun p choice r p' hp _ hk => ?_
  cases hk
  refine wp_sys stable_runs hp (fun p hp _ => ⟨hp.broker, hp.owner⟩) fun p choice r p' hp _ hk => ?_
  cases hk
  refine wp_sys stable_runs hp (fun p hp _ => ⟨n, rfl, hp.created, hp.argument, hp.ended⟩) ?_
  intro p choice r p' hp _ hk
  cases hk
  refine wp_load stable_runs (hp.storeResult _) fun p hp => ?_
  rw [hp.socketFd]
  refine wp_sys stable_runs hp (fun p hp _ => hp.owner) fun p choice r p' hp hinv hk => ?_
  cases hk
  refine wp_sys stable_closed (hp.close hinv)
    (fun p hp _ => ⟨n, rfl, hp.created, hp.argument, hp.ended⟩) fun p choice r p' hp _ hk => ?_
  cases hk
  have hp' : Closed n slot (p.setSlot slot { p.slots slot with done := true }) :=
    ⟨hp.created, hp.argument, hp.ended, hp.owner⟩
  refine wp_sys stable_closed hp' (fun p hp _ => ⟨n, rfl, hp.created, hp.owner⟩) ?_
  intro p choice r p' _ _ _ _ hl
  cases hl

/-! ### Every interleaving -/

lemma rules_sound (socketVariable : Option CString) (arguments : List CString) :
    rules.Sound (threads socketVariable arguments) where
  stable t l := by
    match t, l with
    | none, .main | none, .loop _ => exact stable_holds
    | some n, .worker => exact stable_worker
    | none, .worker | some _, .main | some _, .loop _ => exact fun _ _ _ _ _ h => h
  blocks t l p _ hp := by
    match t, l with
    | none, .main => exact wp_main hp
    | none, .loop l => exact wp_pollLoop hp
    | some n, .worker => exact wp_serveClient hp
    | none, .worker | some _, .main | some _, .loop _ => exact fun _ hl => nomatch hl

end Programs

/-- Nothing is open, and no thread was created. -/
structure Initial (p : Pool) : Prop where
  slots : ∀ slot, (p.slots slot).active = false
  owner : ∀ fd, p.owner fd = none
  created : p.created = 0
  ended : ∀ n, p.ended n = false
  joined : ∀ n, p.joined n = false
  broker : p.broker = false

lemma Initial.inv (h : p.Initial) : p.Inv where
  ended_lt n hn := nomatch (h.ended n).symm.trans hn
  joined_ended n hn := nomatch (h.joined n).symm.trans hn
  owned fd _ hfd := nomatch (h.owner fd).symm.trans hfd
  unique fd _ _ hfd := nomatch (h.owner fd).symm.trans hfd
  slot n hn := absurd (h.created ▸ hn) (Nat.not_lt_zero n)

/-- Where the threads start. -/
def entry : Option ℕ → Label
  | none => .main
  | some _ => .worker

lemma Initial.entry (h : p.Initial) (t : Option ℕ) : At t (entry t) p := by
  cases t with
  | none =>
    exact ⟨fun _ => h.created, List.nodup_nil, by simp [h.owner], h.broker,
      fun slot _ hactive => nomatch (h.slots slot).symm.trans hactive⟩
  | some n => exact ⟨h.ended n, fun hn => absurd (h.created ▸ hn) (Nat.not_lt_zero n)⟩

/-- However `main` and its workers interleave, and whichever calls fail: a descriptor is closed
once, by the thread it is left to; a connection is served by its own thread while the broker exists;
a worker is only reused when its thread was joined, and each thread is joined once; the descriptors
of `main` itself are never shut down (the number may be of a connection that its thread has closed
already); the broker is destroyed once all threads have returned; and the daemon leaves with no
thread, no descriptor and no broker left over. -/
theorem workers_safe (socketVariable : Option CString) (arguments : List CString) {p : Pool}
    (hp : p.Initial) {events : List (Option ℕ × Choice)}
    {k : Concurrent.Config (Option ℕ) Pool Call Answer Label}
    (h : Transition.exec (threads socketVariable arguments).step
      (Concurrent.Config.start p entry) events = some k) :
    (∀ t fd rest, k.threads t = .call (.close fd) rest → k.state.owner fd = some t) ∧
    (∀ t fd uid rest, k.threads t = .call (.serveBegin fd uid) rest →
      k.state.broker = true ∧ k.state.owner fd = some t) ∧
    (∀ t fd rest, k.threads t = .call (.serveEnd fd) rest →
      k.state.broker = true ∧ k.state.owner fd = some t) ∧
    (∀ t slot fd uid rest, k.threads t = .call (.claim slot fd uid) rest →
      Unused slot k.state) ∧
    (∀ t n rest, k.threads t = .call (.join n) rest →
      n < k.state.created ∧ k.state.joined n = false) ∧
    (∀ t fd rest, k.threads t = .call (.shutdown fd) rest → k.state.owner fd ≠ some none) ∧
    (∀ t rest, k.threads t = .call .brokerDestroy rest →
      k.state.broker = true ∧ ∀ n < k.state.created, k.state.ended n = true) ∧
    (∀ t code rest, k.threads t = .call (.exit code) rest →
      (∀ fd, k.state.owner fd = none) ∧ k.state.broker = false ∧
        ∀ n < k.state.created, k.state.joined n = true) := by
  have hok := (rules_sound socketVariable arguments).ok hp.inv hp.entry h
  have hsafe : ∀ t c rest, k.threads t = .call c rest → Safe t k.state c :=
    fun _ _ _ hcall => hok.safe hcall
  refine ⟨fun t _ rest hcall => hsafe t _ rest hcall, fun t _ _ rest hcall => hsafe t _ rest hcall,
    fun t _ rest hcall => hsafe t _ rest hcall, fun t _ _ _ rest hcall => ?_,
    fun t _ rest hcall => ?_, fun t _ rest hcall => hsafe t _ rest hcall,
    fun t rest hcall => ?_, fun t _ rest hcall => ?_⟩
  · exact (hsafe t _ rest hcall).2
  · exact (hsafe t _ rest hcall).2
  · obtain ⟨-, hbroker, hjoined⟩ := hsafe t _ rest hcall
    exact ⟨hbroker, fun n hn => hok.inv.joined_ended n (hjoined n hn)⟩
  · exact (hsafe t _ rest hcall).2

/-- The answers when a connection waits, and `lstat` finds `status`. -/
def busy (status : Except Errno FileStatus) : (c : Call) → Answer c
  | .lstat _ => status
  | .poll => .ok (⟨false, false⟩, ⟨true, false⟩)
  | c => calm c

/-- The daemon starts, accepts a connection and hands it to the first thread, which serves it. -/
def served : List (Option ℕ × Choice) :=
  List.replicate 4 (none, ⟨none, 3, busy (.error enoent)⟩) ++
    (none, ⟨none, 4, busy (.ok ⟨.directory, 0, 0o700⟩)⟩) ::
    List.replicate 6 (none, ⟨none, 4, busy (.error enoent)⟩) ++
    List.replicate 8 (none, ⟨none, 5, busy (.ok ⟨.socket, 0, 0o600⟩)⟩) ++
    List.replicate 67 (none, ⟨none, 5, busy (.error enoent)⟩) ++
    List.replicate 4 (some 0, ⟨none, 6, busy (.error enoent)⟩)

def emptyPool : Pool where
  slots _ := ⟨0, 0, 0, 0, false, false⟩
  owner _ := none
  created := 0
  argument _ := calm .started
  ended _ := false
  joined _ := false
  broker := false

def isServing (k : Concurrent.Config (Option ℕ) Pool Call Answer Label) : Bool :=
  match k.threads (some 0) with
  | .call (.serveEnd 5) _ => true
  | _ => false

theorem workers_safe_served :
    ∃ k, Transition.exec (threads (some socketName) []).step
        (Concurrent.Config.start emptyPool entry) served = some k ∧ isServing k = true ∧
      k.state.broker = true ∧ k.state.owner 5 = some (some 0) := by
  have hrun : (Transition.exec (threads (some socketName) []).step
      (Concurrent.Config.start emptyPool entry) served).any isServing = true := by
    decide +kernel
  obtain ⟨k, hk, hserving⟩ := (Option.any_eq_true _ _).mp hrun
  have hinitial : emptyPool.Initial :=
    ⟨fun _ => rfl, fun _ => rfl, rfl, fun _ => rfl, fun _ => rfl, rfl⟩
  obtain ⟨-, -, hserve, -⟩ := workers_safe (some socketName) [] hinitial hk
  refine ⟨k, hk, hserving, ?_⟩
  simp only [isServing] at hserving
  split at hserving
  · next rest hcall => exact hserve (some 0) 5 rest hcall
  · cases hserving

end Pool

end Daemon

end Tgcompat
