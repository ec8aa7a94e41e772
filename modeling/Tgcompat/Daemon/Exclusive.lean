import Tgcompat.Daemon.Program

/-!
# One daemon for each socket

Any number of daemons and clients use the file system at the same time. A daemon that binds a socket
owns the file, and only its owner changes or removes it. So at most one daemon listens on a path; a
daemon that starts while another one serves, starts or shuts down fails and leaves the other's
socket alone; and a client only talks to a daemon of its own user.

The kernel is generous: every call may fail with any error at any time. A file name stands for a
file; there are no links.
-/

namespace Tgcompat

namespace Daemon

variable {ι : Type}

/-! ### The file system and the descriptors of each process -/

inductive Descriptor (ι : Type) where
  | signal
  | accepted
  | unbound
  | bound (path : CString)
  | listening (path : CString)
  | connected (peer : ι)
  deriving DecidableEq

/-- A file, and the process that has made it with `bind`. -/
structure World (ι : Type) where
  files : CString → Option (FileStatus × Option ι)
  umask : ι → UInt32
  descriptors : ι → ℕ → Option (Descriptor ι)

/-- What nobody controls: whether a call fails, which number a descriptor gets, and the answers of
calls that have nothing to do with files. -/
structure Choice where
  error : Option Errno
  number : ℕ
  other : (c : Call) → Answer c

def enoent : Errno := ⟨ENOENT, by decide⟩
def eexist : Errno := ⟨EEXIST, by decide⟩
def einval : Errno := ⟨EINVAL, by decide⟩
def eaddrinuse : Errno := ⟨EADDRINUSE, by decide⟩
def enotconn : Errno := ⟨107, by decide⟩
def econnrefused : Errno := ⟨111, by decide⟩

section Kernel

variable [DecidableEq ι]

namespace World

def setFile (w : World ι) (path : CString) (file : Option (FileStatus × Option ι)) : World ι :=
  { w with files := Function.update w.files path file }

def setDescriptor (w : World ι) (i : ι) (fd : ℕ) (descriptor : Option (Descriptor ι)) : World ι :=
  { w with descriptors :=
      Function.update w.descriptors i (Function.update (w.descriptors i) fd descriptor) }

/-- A new descriptor under a number that is free. -/
def openDescriptor (w : World ι) (i : ι) (choice : Choice) (descriptor : Descriptor ι) :
    Option (Except Errno ℕ × World ι) :=
  match choice.error with
  | some error => some (.error error, w)
  | none =>
    if w.descriptors i choice.number = none then
      some (.ok choice.number, w.setDescriptor i choice.number (some descriptor))
    else none

/-- A call that may fail, and then does nothing. -/
def attempt (w : World ι) (choice : Choice) (effect : Except Errno (World ι)) :
    Option (Option Errno × World ι) :=
  match choice.error, effect with
  | some error, _ => some (some error, w)
  | none, .error error => some (some error, w)
  | none, .ok w' => some (none, w')

end World

/-- The calls of process `i`. -/
def kernel (credentials : ι → Ucred) (i : ι) (w : World ι) :
    (c : Call) → Choice → Option (Answer c × World ι)
  | .geteuid, _ => some ((credentials i).uid, w)
  | .createSignalFd, choice => w.openDescriptor i choice .signal
  | .socket, choice => w.openDescriptor i choice .unbound
  | .accept _, choice => w.openDescriptor i choice .accepted
  | .mkdir path mode, choice => w.attempt choice <|
    match w.files path with
    | some _ => .error eexist
    | none => .ok (w.setFile path
        (some (⟨.directory, (credentials i).uid, mode &&& ~~~ w.umask i⟩, none)))
  | .lstat path, choice =>
    match choice.error, w.files path with
    | some error, _ => some (.error error, w)
    | none, none => some (.error enoent, w)
    | none, some (status, _) => some (.ok status, w)
  | .umask mask, _ => some (w.umask i, { w with umask := Function.update w.umask i mask })
  | .bind fd path, choice => w.attempt choice <|
    if w.files path = none ∧ w.descriptors i fd = some .unbound then
      .ok ((w.setFile path
        (some (⟨.socket, (credentials i).uid, 0o777 &&& ~~~ w.umask i⟩, some i))).setDescriptor i fd
          (some (.bound path)))
    else .error eaddrinuse
  | .chmod path mode, choice => w.attempt choice <|
    match w.files path with
    | none => .error enoent
    | some (status, owner) => .ok (w.setFile path (some ({ status with mode := mode }, owner)))
  | .listen fd, choice => w.attempt choice <|
    match w.descriptors i fd with
    | some (.bound path) => .ok (w.setDescriptor i fd (some (.listening path)))
    | _ => .error einval
  | .connect fd path, choice => w.attempt choice <|
    match w.files path with
    | some (_, some j) =>
      if w.descriptors j choice.number = some (.listening path) ∧
          w.descriptors i fd = some .unbound then
        .ok (w.setDescriptor i fd (some (.connected j)))
      else .error econnrefused
    | _ => .error econnrefused
  | .getPeerCredentials fd, choice =>
    match choice.error, w.descriptors i fd with
    | some error, _ => some (.error error, w)
    | none, some (.connected j) => some (.ok (sizeofUcred, credentials j), w)
    | none, _ => some (.error enotconn, w)
  | .close fd, _ => some ((), w.setDescriptor i fd none)
  | .unlink path, choice => w.attempt choice <|
    match w.files path with
    | none => .error enoent
    | some _ => .ok (w.setFile path none)
  | .exit _, _ => some ((), { w with
      descriptors := Function.update w.descriptors i fun _ => none })
  | c, choice => some (choice.other c, w)

end Kernel

/-! ### Programs -/

/-- The exchanges of a client over one connection. -/
def useConnection (fd : ℕ) : ℕ → Prog Unit
  | 0 => return
  | n + 1 => do
    sys (.exchange fd)
    useConnection fd n

/-- A client connects, uses its connection and closes it, again and again. -/
def client (socketPath : CString) (exchanges : ℕ) : Prog (Option Label) := do
  match ← transportConnect socketPath (← sys .geteuid) with
  | .error _ => return some .main
  | .ok fd =>
    useConnection fd exchanges
    sys (.close fd)
    return some .main

inductive Role where
  | daemon (socketVariable : Option CString) (arguments : List CString)
  | client (socketPath : CString) (exchanges : ℕ)

/-- The workers of a daemon do nothing with files and are left out here. -/
def block (roles : ι → Role) (i : ι) : Label → Prog (Option Label)
  | .main =>
    match roles i with
    | .daemon socketVariable arguments => main socketVariable arguments
    | .client socketPath exchanges => client socketPath exchanges
  | .loop l => pollLoop l
  | .worker => return none

def processes [DecidableEq ι] (credentials : ι → Ucred) (roles : ι → Role) :
    Concurrent.System ι (World ι) Choice Call Answer Label where
  kernel := kernel credentials
  block := block roles

/-! ### Ownership -/

variable {credentials : ι → Ucred} {i j : ι} {w w' : World ι} {path : CString} {fd : ℕ}

/-- Process `i` has made the file. -/
def Owns (i : ι) (path : CString) (w : World ι) : Prop :=
  ∃ status, w.files path = some (status, some i)

/-- A directory that only the user of process `i` can use. -/
def PrivateDirectory (credentials : ι → Ucred) (i : ι) (path : CString) (w : World ι) : Prop :=
  ∃ status, w.files path = some (status, none) ∧ status.kind = .directory ∧
    status.uid = (credentials i).uid ∧ status.mode &&& 0o777 = 0o700

/-- A socket of process `i` that only its user can use. -/
def PrivateSocket (credentials : ι → Ucred) (i : ι) (path : CString) (w : World ι) : Prop :=
  ∃ status, w.files path = some (status, some i) ∧ status.kind = .socket ∧
    status.uid = (credentials i).uid ∧ status.mode &&& 0o777 = 0o600

/-- A private socket in a private directory. -/
def Trusted (credentials : ι → Ucred) (i : ι) (path : CString) (w : World ι) : Prop :=
  PrivateSocket credentials i path w ∧ ∃ directory, runtimeDirectory (some path) = .ok directory ∧
    PrivateDirectory credentials i directory w

/-- At most the descriptor `listener` is bound to a path. -/
def Listener (i : ι) (listener : Option ℕ) (w : World ι) : Prop :=
  ∀ fd path, w.descriptors i fd = some (.bound path) ∨ w.descriptors i fd = some (.listening path) →
    listener = some fd

structure World.Inv (credentials : ι → Ucred) (w : World ι) : Prop where
  socket : ∀ path status i, w.files path = some (status, some i) → status.kind = .socket
  bound : ∀ i fd path, w.descriptors i fd = some (.bound path) → Owns i path w
  listening : ∀ i fd path, w.descriptors i fd = some (.listening path) →
    Trusted credentials i path w

/-- A process leaves the files and descriptors of the others alone. -/
structure Guarantee (i : ι) (w w' : World ι) : Prop where
  files : ∀ path file, w.files path = some file → file.2 ≠ some i → w'.files path = some file
  descriptors : ∀ j, j ≠ i → w'.descriptors j = w.descriptors j

def Safe (credentials : ι → Ucred) (i : ι) (w : World ι) : Call → Prop
  | .unlink path => Owns i path w ∧ ∀ fd, w.descriptors i fd ≠ some (.bound path) ∧
      w.descriptors i fd ≠ some (.listening path)
  | .chmod path _ => Owns i path w ∧ ∀ fd, w.descriptors i fd ≠ some (.listening path)
  | .listen fd => ∀ path, w.descriptors i fd = some (.bound path) → Trusted credentials i path w
  | .exchange fd => ∃ j, w.descriptors i fd = some (.connected j) ∧
      (credentials j).uid = (credentials i).uid
  | _ => True

/-- What a process knows at a label. -/
def At (i : ι) : Label → World ι → Prop
  | .main, w => Listener i none w
  | .loop l, w => Owns i l.socketPath w ∧ Listener i (some l.listenerFd) w
  | .worker, _ => True

def rules (credentials : ι → Ucred) : Concurrent.Rules ι (World ι) Call Label where
  Safe := Safe credentials
  Inv := World.Inv credentials
  Guarantee := Guarantee
  At := At

/-! ### What each process does to the world -/

lemma Guarantee.refl (i : ι) (w : World ι) : Guarantee i w w :=
  ⟨fun _ _ h _ => h, fun _ _ => rfl⟩

lemma Guarantee.trans {w'' : World ι} (h : Guarantee i w w') (h' : Guarantee i w' w'') :
    Guarantee i w w'' :=
  ⟨fun path file hfile hne => h'.files path file (h.files path file hfile hne) hne,
    fun j hj => (h'.descriptors j hj).trans (h.descriptors j hj)⟩

lemma Owns.guarantee (h : Owns i path w) (hj : j ≠ i) (hg : Guarantee j w w') : Owns i path w' := by
  obtain ⟨status, hfile⟩ := h
  exact ⟨status, hg.files _ _ hfile (by simpa using Ne.symm hj)⟩

lemma PrivateDirectory.guarantee (h : PrivateDirectory credentials i path w)
    (hg : Guarantee j w w') : PrivateDirectory credentials i path w' := by
  obtain ⟨status, hfile, hstatus⟩ := h
  exact ⟨status, hg.files _ _ hfile (by simp), hstatus⟩

lemma PrivateSocket.guarantee (h : PrivateSocket credentials i path w) (hj : j ≠ i)
    (hg : Guarantee j w w') : PrivateSocket credentials i path w' := by
  obtain ⟨status, hfile, hstatus⟩ := h
  exact ⟨status, hg.files _ _ hfile (by simpa using Ne.symm hj), hstatus⟩

lemma Trusted.guarantee (h : Trusted credentials i path w) (hj : j ≠ i) (hg : Guarantee j w w') :
    Trusted credentials i path w' := by
  obtain ⟨hsocket, directory, hdirectory, hprivate⟩ := h
  exact ⟨hsocket.guarantee hj hg, directory, hdirectory, hprivate.guarantee hg⟩

lemma PrivateSocket.owns (h : PrivateSocket credentials i path w) : Owns i path w := by
  obtain ⟨status, hfile, -⟩ := h
  exact ⟨status, hfile⟩

/-- The invariant only has to be checked for the process that makes the step. -/
lemma World.Inv.step (h : w.Inv credentials) (hg : Guarantee i w w')
    (hsocket : ∀ path status j, w'.files path = some (status, some j) → status.kind = .socket)
    (hbound : ∀ fd path, w'.descriptors i fd = some (.bound path) → Owns i path w')
    (hlistening : ∀ fd path, w'.descriptors i fd = some (.listening path) →
      Trusted credentials i path w') : w'.Inv credentials := by
  refine ⟨hsocket, fun j fd path hfd => ?_, fun j fd path hfd => ?_⟩
  · by_cases hj : j = i
    · exact hj ▸ hbound fd path (hj ▸ hfd)
    · rw [hg.descriptors j hj] at hfd
      exact (h.bound j fd path hfd).guarantee (Ne.symm hj) hg
  · by_cases hj : j = i
    · exact hj ▸ hlistening fd path (hj ▸ hfd)
    · rw [hg.descriptors j hj] at hfd
      exact (h.listening j fd path hfd).guarantee (Ne.symm hj) hg

lemma World.Inv.not_bound (h : w.Inv credentials) (hnone : w.files path = none) (fd : ℕ) :
    w.descriptors i fd ≠ some (.bound path) := by
  intro hfd
  obtain ⟨status, hfile⟩ := h.bound i fd path hfd
  exact nomatch hnone.symm.trans hfile

lemma World.Inv.not_listening (h : w.Inv credentials) (hnone : w.files path = none) (fd : ℕ) :
    w.descriptors i fd ≠ some (.listening path) := by
  intro hfd
  obtain ⟨status, hfile⟩ := (h.listening i fd path hfd).1.owns
  exact nomatch hnone.symm.trans hfile

/-- Two changes, one after the other. -/
lemma Guarantee.andThen {w'' : World ι} (h : w'.Inv credentials ∧ Guarantee i w w')
    (h' : w'.Inv credentials → w''.Inv credentials ∧ Guarantee i w' w'') :
    w''.Inv credentials ∧ Guarantee i w w'' := by
  obtain ⟨hinv, hg⟩ := h' h.1
  exact ⟨hinv, h.2.trans hg⟩

/-- A change of a file that nobody else has made, and on which the process does not listen. -/
lemma keeps_setFile (h : w.Inv credentials) {file : Option (FileStatus × Option ι)}
    (hown : ∀ old, w.files path = some old → old.2 = some i)
    (hsocket : ∀ status j, file = some (status, some j) → status.kind = .socket)
    (hbound : ∀ fd, w.descriptors i fd = some (.bound path) →
      ∃ status, file = some (status, some i))
    (hlistening : ∀ fd, w.descriptors i fd ≠ some (.listening path)) :
    (w.setFile path file).Inv credentials ∧ Guarantee i w (w.setFile path file) := by
  have hother : ∀ path' old, w.files path' = some old → (path' = path → old.2 ≠ some i) →
      (w.setFile path file).files path' = some old := by
    intro path' old hold hne
    refine (Function.update_of_ne (fun hpath => ?_) ..).trans hold
    subst hpath
    exact hne rfl (hown old hold)
  have hg : Guarantee i w (w.setFile path file) :=
    ⟨fun path' old hold hne => hother path' old hold fun _ => hne, fun _ _ => rfl⟩
  refine ⟨h.step hg (fun path' status j hfile => ?_) (fun fd path' hfd => ?_)
    fun fd path' hfd => ?_, hg⟩
  · simp only [World.setFile, Function.update_apply] at hfile
    split at hfile
    · exact hsocket status j hfile
    · exact h.socket path' status j hfile
  · by_cases hpath : path' = path
    · subst hpath
      obtain ⟨status, rfl⟩ := hbound fd hfd
      exact ⟨status, Function.update_self ..⟩
    · obtain ⟨status, hfile⟩ := h.bound i fd path' hfd
      exact ⟨status, hother _ _ hfile fun hpath' => absurd hpath' hpath⟩
  · have hpath : path' ≠ path := fun hpath => hlistening fd (hpath ▸ hfd)
    obtain ⟨⟨status, hfile, hstatus⟩, directory, hdirectory, status', hfile', hstatus'⟩ :=
      h.listening i fd path' hfd
    exact ⟨⟨status, hother _ _ hfile fun hpath' => absurd hpath' hpath, hstatus⟩, directory,
      hdirectory, status', hother _ _ hfile' fun _ => by simp, hstatus'⟩

lemma World.attempt_cases {choice : Choice} {effect : Except Errno (World ι)} {r : Option Errno}
    (hk : w.attempt choice effect = some (r, w')) :
    (r ≠ none ∧ w' = w) ∨ (r = none ∧ effect = .ok w') := by
  simp only [World.attempt] at hk
  split at hk <;> cases hk
  · exact .inl ⟨nofun, rfl⟩
  · exact .inl ⟨nofun, rfl⟩
  · exact .inr ⟨rfl, rfl⟩

variable [DecidableEq ι]

lemma World.setDescriptor_self (descriptor : Option (Descriptor ι)) :
    (w.setDescriptor i fd descriptor).descriptors i =
      Function.update (w.descriptors i) fd descriptor :=
  Function.update_self ..

/-- A change of an own descriptor. -/
lemma keeps_setDescriptor (h : w.Inv credentials) {descriptor : Option (Descriptor ι)}
    (hbound : ∀ path, descriptor = some (.bound path) → Owns i path w)
    (hlistening : ∀ path, descriptor = some (.listening path) → Trusted credentials i path w) :
    (w.setDescriptor i fd descriptor).Inv credentials ∧
      Guarantee i w (w.setDescriptor i fd descriptor) := by
  have hg : Guarantee i w (w.setDescriptor i fd descriptor) :=
    ⟨fun _ _ hfile _ => hfile, fun j hj => Function.update_of_ne hj ..⟩
  refine ⟨h.step hg h.socket (fun fd' path hfd => ?_) fun fd' path hfd => ?_, hg⟩
  all_goals
    rw [World.setDescriptor_self, Function.update_apply] at hfd
    split at hfd
  · exact hbound path hfd
  · exact h.bound i fd' path hfd
  · exact hlistening path hfd
  · exact h.listening i fd' path hfd

lemma keeps_openDescriptor (h : w.Inv credentials) {choice : Choice} {descriptor : Descriptor ι}
    (hbound : ∀ path, descriptor ≠ .bound path) (hlistening : ∀ path, descriptor ≠ .listening path)
    {r : Except Errno ℕ} (hk : w.openDescriptor i choice descriptor = some (r, w')) :
    w'.Inv credentials ∧ Guarantee i w w' := by
  simp only [World.openDescriptor] at hk
  split at hk
  · cases hk
    exact ⟨h, .refl i w⟩
  · obtain ⟨-, hk⟩ := Option.ite_none_right_eq_some.mp hk
    cases hk
    refine keeps_setDescriptor h (fun path hpath => ?_) fun path hpath => ?_
    · exact absurd (Option.some.inj hpath) (hbound path)
    · exact absurd (Option.some.inj hpath) (hlistening path)

/-- A safe call keeps the invariant and leaves the others alone. -/
lemma kernel_keeps (h : w.Inv credentials) {c : Call} (hsafe : Safe credentials i w c)
    {choice : Choice} {r : Answer c} (hk : kernel credentials i w c choice = some (r, w')) :
    w'.Inv credentials ∧ Guarantee i w w' := by
  cases c
  case createSignalFd => exact keeps_openDescriptor h (by simp) (by simp) hk
  case socket => exact keeps_openDescriptor h (by simp) (by simp) hk
  case accept => exact keeps_openDescriptor h (by simp) (by simp) hk
  case close fd =>
    cases hk
    exact keeps_setDescriptor h (by simp) (by simp)
  case mkdir path mode =>
    rcases World.attempt_cases hk with ⟨-, rfl⟩ | ⟨-, hk⟩
    · exact ⟨h, .refl i _⟩
    · split at hk <;> cases hk
      next hnone =>
        exact keeps_setFile h (by simp [hnone]) (by simp)
          (fun fd hfd => absurd hfd (h.not_bound hnone fd)) (h.not_listening hnone)
  case bind fd path =>
    rcases World.attempt_cases hk with ⟨-, rfl⟩ | ⟨-, hk⟩
    · exact ⟨h, .refl i _⟩
    · split at hk <;> cases hk
      next hnone =>
        -- the file is there before the descriptor is bound to it
        refine Guarantee.andThen (keeps_setFile h ?_ ?_ ?_ ?_) fun hinv =>
          keeps_setDescriptor hinv ?_ ?_
        · simp [hnone.1]
        · rintro _ _ ⟨⟩
          rfl
        · exact fun _ _ => ⟨_, rfl⟩
        · exact h.not_listening hnone.1
        · rintro _ ⟨⟩
          exact ⟨_, Function.update_self ..⟩
        · simp
  case chmod path mode =>
    obtain ⟨⟨status, hfile⟩, hnot⟩ := hsafe
    rcases World.attempt_cases hk with ⟨-, rfl⟩ | ⟨-, hk⟩
    · exact ⟨h, .refl i _⟩
    · simp only [hfile] at hk
      cases hk
      refine keeps_setFile h (by simp [hfile]) ?_ (fun _ _ => ⟨_, rfl⟩) hnot
      rintro _ _ ⟨⟩
      exact h.socket path status i hfile
  case listen fd =>
    rcases World.attempt_cases hk with ⟨-, rfl⟩ | ⟨-, hk⟩
    · exact ⟨h, .refl i _⟩
    · split at hk <;> cases hk
      next path hfd =>
        refine keeps_setDescriptor h (by simp) ?_
        rintro _ ⟨⟩
        exact hsafe path hfd
  case connect fd path =>
    rcases World.attempt_cases hk with ⟨-, rfl⟩ | ⟨-, hk⟩
    · exact ⟨h, .refl i _⟩
    · split at hk
      · split at hk <;> cases hk
        exact keeps_setDescriptor h (by simp) (by simp)
      · cases hk
  case unlink path =>
    obtain ⟨⟨status, hfile⟩, hnot⟩ := hsafe
    rcases World.attempt_cases hk with ⟨-, rfl⟩ | ⟨-, hk⟩
    · exact ⟨h, .refl i _⟩
    · simp only [hfile] at hk
      cases hk
      exact keeps_setFile h (by simp [hfile]) (by simp)
        (fun fd hfd => absurd hfd (hnot fd).1) fun fd => (hnot fd).2
  case lstat path =>
    simp only [kernel] at hk
    split at hk <;> cases hk <;> exact ⟨h, .refl i _⟩
  case getPeerCredentials fd =>
    simp only [kernel] at hk
    split at hk <;> cases hk <;> exact ⟨h, .refl i _⟩
  case umask mask =>
    cases hk
    exact ⟨⟨h.socket, h.bound, h.listening⟩, ⟨fun _ _ hfile _ => hfile, fun _ _ => rfl⟩⟩
  case exit code =>
    cases hk
    have hg : Guarantee i w
        { w with descriptors := Function.update w.descriptors i fun _ => none } :=
      ⟨fun _ _ hfile _ => hfile, fun j hj => Function.update_of_ne hj ..⟩
    exact ⟨h.step hg h.socket (by simp) (by simp), hg⟩
  all_goals
    cases hk
    exact ⟨h, .refl i _⟩

/-! ### Calls that bind and remove nothing -/

/-- A call that leaves every file there is, and binds no socket. -/
def Plain : Call → Prop
  | .bind _ _ | .listen _ | .unlink _ | .chmod _ _ | .exchange _ => False
  | _ => True

lemma openDescriptor_files {choice : Choice} {descriptor : Descriptor ι} {r : Except Errno ℕ}
    (hk : w.openDescriptor i choice descriptor = some (r, w')) : w'.files = w.files := by
  simp only [World.openDescriptor] at hk
  split at hk
  · cases hk
    rfl
  · obtain ⟨-, hk⟩ := Option.ite_none_right_eq_some.mp hk
    cases hk
    rfl

/-- Files survive a plain call. -/
lemma Plain.files {c : Call} (hc : Plain c) {choice : Choice} {r : Answer c}
    (hk : kernel credentials i w c choice = some (r, w')) {file : FileStatus × Option ι}
    (hfile : w.files path = some file) : w'.files path = some file := by
  cases c
  case bind | listen | unlink | chmod | exchange => exact hc.elim
  case createSignalFd | socket | accept => exact openDescriptor_files hk ▸ hfile
  case mkdir directory mode =>
    rcases World.attempt_cases hk with ⟨-, rfl⟩ | ⟨-, hk⟩
    · exact hfile
    · split at hk <;> cases hk
      next hnone =>
        refine (Function.update_of_ne (fun hpath => ?_) ..).trans hfile
        rw [hpath, hnone] at hfile
        cases hfile
  case connect fd socketPath =>
    rcases World.attempt_cases hk with ⟨-, rfl⟩ | ⟨-, hk⟩
    · exact hfile
    · split at hk
      · split at hk <;> cases hk
        exact hfile
      · cases hk
  case lstat | getPeerCredentials =>
    simp only [kernel] at hk
    split at hk <;> cases hk <;> exact hfile
  all_goals
    cases hk
    exact hfile

/-- A descriptor that is set to something harmless. -/
lemma setDescriptor_binds {descriptor : Option (Descriptor ι)} {fd' : ℕ} {d : Descriptor ι}
    (hd : descriptor ≠ some d)
    (h : (w.setDescriptor i fd descriptor).descriptors i fd' = some d) :
    w.descriptors i fd' = some d := by
  rw [World.setDescriptor_self, Function.update_apply] at h
  split at h
  · exact absurd h hd
  · exact h

lemma openDescriptor_binds {choice : Choice} {descriptor d : Descriptor ι} {r : Except Errno ℕ}
    (hk : w.openDescriptor i choice descriptor = some (r, w')) (hd : descriptor ≠ d)
    (h : w'.descriptors i fd = some d) : w.descriptors i fd = some d := by
  simp only [World.openDescriptor] at hk
  split at hk
  · cases hk
    exact h
  · obtain ⟨-, hk⟩ := Option.ite_none_right_eq_some.mp hk
    cases hk
    exact setDescriptor_binds (by simpa using hd) h

/-- A descriptor that is bound or listens. -/
def Descriptor.Binds : Descriptor ι → Prop
  | .bound _ | .listening _ => True
  | _ => False

/-- A plain call binds nothing. -/
lemma Plain.binds {c : Call} (hc : Plain c) {choice : Choice} {r : Answer c}
    (hk : kernel credentials i w c choice = some (r, w')) {d : Descriptor ι} (hd : d.Binds)
    (h : w'.descriptors i fd = some d) : w.descriptors i fd = some d := by
  cases c
  case bind | listen | unlink | chmod | exchange => exact hc.elim
  case createSignalFd | socket | accept =>
    refine openDescriptor_binds hk ?_ h
    rintro rfl
    exact hd
  case close fd' =>
    cases hk
    exact setDescriptor_binds (by simp) h
  case mkdir directory mode =>
    rcases World.attempt_cases hk with ⟨-, rfl⟩ | ⟨-, hk⟩
    · exact h
    · split at hk <;> cases hk
      exact h
  case connect fd' socketPath =>
    rcases World.attempt_cases hk with ⟨-, rfl⟩ | ⟨-, hk⟩
    · exact h
    · split at hk
      · split at hk <;> cases hk
        refine setDescriptor_binds ?_ h
        rintro ⟨⟩
        exact hd
      · cases hk
  case lstat | getPeerCredentials =>
    simp only [kernel] at hk
    split at hk <;> cases hk <;> exact h
  case exit code =>
    cases hk
    simp at h
  all_goals
    cases hk
    exact h

/-! ### What a process knows -/

/-- Something that neither the others nor a plain call of the process can spoil. -/
structure Kept (credentials : ι → Ucred) (i : ι) (P : World ι → Prop) : Prop where
  stable : (rules credentials).Stable i P
  plain : ∀ c w choice r w', Plain c → P w → kernel credentials i w c choice = some (r, w') → P w'

lemma Kept.and {P P' : World ι → Prop} (h : Kept credentials i P) (h' : Kept credentials i P') :
    Kept credentials i fun w => P w ∧ P' w :=
  ⟨h.stable.and h'.stable, fun c w choice r w' hc hw hk =>
    ⟨h.plain c w choice r w' hc hw.1 hk, h'.plain c w choice r w' hc hw.2 hk⟩⟩

lemma kept_owns (path : CString) : Kept credentials i (Owns i path) := by
  refine ⟨fun j hj w w' hg hw => hw.guarantee hj hg, ?_⟩
  rintro c w choice r w' hc ⟨status, hfile⟩ hk
  exact ⟨status, hc.files hk hfile⟩

lemma kept_directory (path : CString) :
    Kept credentials i (PrivateDirectory credentials i path) := by
  refine ⟨fun j _ w w' hg hw => hw.guarantee hg, ?_⟩
  rintro c w choice r w' hc ⟨status, hfile, hstatus⟩ hk
  exact ⟨status, hc.files hk hfile, hstatus⟩

lemma kept_listener (credentials : ι → Ucred) (i : ι) (listener : Option ℕ) :
    Kept credentials i (Listener i listener) := by
  refine ⟨fun j hj w w' hg hw fd path hfd => ?_, fun c w choice r w' hc hw hk fd path hfd => ?_⟩
  · rw [hg.descriptors i (Ne.symm hj)] at hfd
    exact hw fd path hfd
  · exact hw fd path (hfd.imp (hc.binds hk trivial) (hc.binds hk trivial))

omit [DecidableEq ι] in
lemma stable_descriptor (fd : ℕ) (d : Descriptor ι) :
    (rules credentials).Stable i fun w => w.descriptors i fd = some d := by
  intro j hj w w' hg hw
  exact (congrFun (hg.descriptors i (Ne.symm hj)) fd).trans hw

omit [DecidableEq ι] in
lemma stable_socket (path : CString) :
    (rules credentials).Stable i (PrivateSocket credentials i path) :=
  fun _ hj _ _ hg hw => hw.guarantee hj hg

/-- The descriptor that was bound or listens is closed. -/
lemma Listener.close {choice : Choice} {r : Unit} (h : Listener i (some fd) w)
    (hk : kernel credentials i w (.close fd) choice = some (r, w')) : Listener i none w' := by
  cases hk
  intro fd' path hfd
  rw [World.setDescriptor_self, Function.update_apply] at hfd
  split at hfd
  · simp at hfd
  · next hne => exact absurd (Option.some.inj (h fd' path hfd)).symm hne

/-! ### Rules for the programs -/

variable {roles : ι → Role} {α β : Type} {P : World ι → Prop}

lemma respects (credentials : ι → Ucred) (roles : ι → Role) :
    (rules credentials).Respects (processes credentials roles) :=
  fun _ _ _ _ _ _ hinv hsafe hk => kernel_keeps hinv hsafe hk

/-- Process `i` makes only safe calls in a program, and ends it with `Q`. -/
abbrev Wp (credentials : ι → Ucred) (roles : ι → Role) (i : ι) (p : Prog α)
    (Q : α → World ι → Prop) (w : World ι) : Prop :=
  (rules credentials).wp (processes credentials roles) i p Q w

/-- The rule for one call: it is safe, and each answer is followed. -/
lemma wp_sys {c : Call} {rest : Answer c → Prog α} {Q : α → World ι → Prop}
    (hP : (rules credentials).Stable i P) (hw : P w)
    (hsafe : ∀ w, P w → w.Inv credentials → Safe credentials i w c)
    (hrest : ∀ w choice r w', P w → w.Inv credentials → w'.Inv credentials → Guarantee i w w' →
      kernel credentials i w c choice = some (r, w') → Wp credentials roles i (rest r) Q w') :
    Wp credentials roles i (sys c >>= rest) Q w :=
  (respects credentials roles).wp_call hP hw hsafe hrest

omit [DecidableEq ι] in
lemma Plain.safe {c : Call} (hc : Plain c) : Safe credentials i w c := by
  cases c
  case bind | listen | unlink | chmod | exchange => exact hc.elim
  all_goals trivial

/-- The rule for a part of a program that only makes plain calls. -/
lemma wp_plain {p : Prog α} {f : α → Prog β} {Q : β → World ι → Prop} (hp : p.All Plain)
    (hP : Kept credentials i P) (hw : P w)
    (hrest : ∀ a w, P w → Wp credentials roles i (f a) Q w) :
    Wp credentials roles i (p >>= f) Q w := by
  refine Concurrent.Rules.wp_bind (Concurrent.Rules.wp_mono (fun a w hw => hrest a w hw) ?_)
  exact (respects credentials roles).wp_of_all hP.stable (fun _ _ hc _ _ => hc.safe) hP.plain hp hw

lemma all_sys {c : Call} {C : Call → Prop} (h : C c) : (sys c).All C :=
  ⟨h, fun _ => trivial⟩

/-- The rule for one plain call. -/
lemma wp_plainCall {c : Call} {rest : Answer c → Prog α} {Q : α → World ι → Prop} (hc : Plain c)
    (hP : Kept credentials i P) (hw : P w)
    (hrest : ∀ r w, P w → Wp credentials roles i (rest r) Q w) :
    Wp credentials roles i (sys c >>= rest) Q w :=
  wp_plain (all_sys hc) hP hw hrest

lemma kept_serving (credentials : ι → Ucred) (i : ι) (path : CString) (listener : Option ℕ) :
    Kept credentials i fun w => Owns i path w ∧ Listener i listener w :=
  (kept_owns path).and (kept_listener credentials i listener)

/-- The listener is closed; the socket is still there. -/
lemma wp_closeListener {rest : Unit → Prog α} {Q : α → World ι → Prop}
    (hw : Owns i path w ∧ Listener i (some fd) w)
    (hrest : ∀ w, Owns i path w ∧ Listener i none w → Wp credentials roles i (rest ()) Q w) :
    Wp credentials roles i (sys (.close fd) >>= rest) Q w := by
  refine wp_sys (kept_serving credentials i path (some fd)).stable hw (fun _ _ _ => trivial) ?_
  intro w choice r w' hw _ _ _ hk
  exact hrest w' ⟨(kept_owns path).plain _ w choice r w' trivial hw.1 hk, hw.2.close hk⟩

/-- The socket is removed once nothing listens on it. -/
lemma wp_unlink {rest : Option Errno → Prog α} {Q : α → World ι → Prop}
    (hw : Owns i path w ∧ Listener i none w)
    (hrest : ∀ r w, Listener i none w → Wp credentials roles i (rest r) Q w) :
    Wp credentials roles i (sys (.unlink path) >>= rest) Q w := by
  have hP := kept_serving credentials i path none
  refine wp_sys hP.stable hw (fun w hw _ => ⟨hw.1, fun fd => ?_⟩) ?_
  · exact ⟨fun hfd => (nomatch hw.2 fd path (.inl hfd)),
      fun hfd => (nomatch hw.2 fd path (.inr hfd))⟩
  · intro w choice r w' hw _ _ _ hk
    refine hrest r w' fun fd path' hfd => hw.2 fd path' ?_
    rcases World.attempt_cases hk with ⟨-, rfl⟩ | ⟨-, hk⟩
    · exact hfd
    · split at hk <;> cases hk
      exact hfd

lemma wp_exitWith (code : UInt32) :
    Wp credentials roles i (exitWith code) ((rules credentials).Ends i) w := by
  refine wp_sys (P := fun _ => True) (fun _ _ _ _ _ h => h) trivial (fun _ _ _ => trivial) ?_
  intro w choice r w' _ _ _ _ _
  exact fun _ hl => nomatch hl

/-! ### Opening and closing the socket -/

lemma lstat_ok {choice : Choice} {status : FileStatus}
    (hk : kernel credentials i w (.lstat path) choice = some (.ok status, w')) :
    ∃ owner, w.files path = some (status, owner) := by
  simp only [kernel] at hk
  split at hk <;> cases hk
  exact ⟨_, ‹_›⟩

lemma lstat_same {choice : Choice} {r : Except Errno FileStatus}
    (hk : kernel credentials i w (.lstat path) choice = some (r, w')) : w' = w := by
  simp only [kernel] at hk
  split at hk <;> cases hk <;> rfl

/-- A directory that passes the check is private. -/
lemma wp_validate {directory : CString} {f : Int32 → Prog α} {Q : α → World ι → Prop}
    (hP : Kept credentials i P) (hw : P w)
    (hrest : ∀ r w, P w → (r = 0 → PrivateDirectory credentials i directory w) →
      Wp credentials roles i (f r) Q w) :
    Wp credentials roles i
      (validateRuntimeDirectory directory (credentials i).uid >>= f) Q w := by
  refine Concurrent.Rules.wp_bind (wp_sys hP.stable hw (fun _ _ _ => trivial) ?_)
  intro w choice r w' hw hinv _ _ hk
  have hw' := hP.plain _ w choice r w' trivial hw hk
  cases r with
  | error error => exact hrest _ w' hw' fun hzero => absurd hzero (Broker.neg_errno_ne_zero error)
  | ok status =>
    obtain ⟨owner, hfile⟩ := lstat_ok hk
    obtain rfl := lstat_same hk
    dsimp only
    split_ifs with hkind huser
    · exact hrest _ _ hw' fun hzero => absurd hzero (by decide)
    · exact hrest _ _ hw' fun hzero => absurd hzero (by decide)
    · refine hrest _ _ hw' fun _ => ?_
      simp only [not_or, ne_eq, not_not] at hkind huser
      cases owner with
      | none => exact ⟨status, hfile, hkind, huser⟩
      | some j => exact nomatch hkind.symm.trans (hinv.socket directory status j hfile)

/-- What `tgc_transport_listen` leaves behind. -/
def Listened (i : ι) (path : CString) : Except Int32 ℕ → World ι → Prop
  | .ok fd, w => Owns i path w ∧ Listener i (some fd) w
  | .error _, w => Listener i none w

lemma wp_abandon {result : Int32} (hw : Owns i path w ∧ Listener i (some fd) w) :
    Wp credentials roles i (abandon fd path result) (Listened i path) w := by
  refine wp_closeListener hw fun w hw => ?_
  exact wp_unlink hw fun _ w hw => hw

/-- The socket is bound and nothing else is. -/
def Bound (i : ι) (fd : ℕ) (path : CString) (w : World ι) : Prop :=
  w.descriptors i fd = some (.bound path) ∧ Listener i (some fd) w

lemma stable_bound : (rules credentials).Stable i (Bound i fd path) :=
  (stable_descriptor fd (.bound path)).and (kept_listener credentials i (some fd)).stable

omit [DecidableEq ι] in
lemma Bound.serving (h : Bound i fd path w) (hinv : w.Inv credentials) :
    Owns i path w ∧ Listener i (some fd) w :=
  ⟨hinv.bound i fd path h.1, h.2⟩

omit [DecidableEq ι] in
lemma Bound.not_listening (h : Bound i fd path w) (fd' : ℕ) :
    w.descriptors i fd' ≠ some (.listening path) := by
  intro hfd
  cases h.2 fd' path (.inr hfd)
  exact nomatch hfd.symm.trans h.1

lemma Listener.setDescriptor (h : Listener i (some fd) w) (descriptor : Option (Descriptor ι)) :
    Listener i (some fd) (w.setDescriptor i fd descriptor) := by
  intro fd' path hfd
  rw [World.setDescriptor_self, Function.update_apply] at hfd
  split at hfd
  · next heq => rw [heq]
  · exact h fd' path hfd

lemma chmod_descriptors {mode : UInt32} {choice : Choice} {r : Option Errno}
    (hk : kernel credentials i w (.chmod path mode) choice = some (r, w')) :
    w'.descriptors = w.descriptors := by
  rcases World.attempt_cases hk with ⟨-, rfl⟩ | ⟨-, hk⟩
  · rfl
  · split at hk <;> cases hk
    rfl

/-- The last step: the descriptor listens, or nothing has happened. -/
lemma listen_cases {choice : Choice} {r : Option Errno} (hw : Bound i fd path w)
    (hk : kernel credentials i w (.listen fd) choice = some (r, w')) :
    (r ≠ none ∧ w' = w) ∨
      (r = none ∧ w' = w.setDescriptor i fd (some (.listening path))) := by
  rcases World.attempt_cases hk with hsame | ⟨hr, hk⟩
  · exact .inl hsame
  · simp only [hw.1] at hk
    cases hk
    exact .inr ⟨hr, rfl⟩

lemma wp_finishListener {directory : CString}
    (hdirectory : runtimeDirectory (some path) = .ok directory)
    (hw : Bound i fd path w ∧ PrivateDirectory credentials i directory w) :
    Wp credentials roles i (finishListener fd path (credentials i).uid) (Listened i path) w := by
  have hP : (rules credentials).Stable i fun w =>
      Bound i fd path w ∧ PrivateDirectory credentials i directory w :=
    stable_bound.and (kept_directory directory).stable
  refine wp_sys hP hw (fun w hw hinv => ⟨(hw.1.serving hinv).1, hw.1.not_listening⟩) ?_
  intro w choice r w' hw _ hinv hg hk
  have hdescriptors := chmod_descriptors hk
  replace hw : Bound i fd path w' ∧ PrivateDirectory credentials i directory w' := by
    refine ⟨?_, hw.2.guarantee hg⟩
    simpa only [Bound, Listener, hdescriptors] using hw.1
  cases r with
  | some error => exact wp_abandon (hw.1.serving hinv)
  | none =>
    refine wp_sys hP hw (fun _ _ _ => trivial) ?_
    intro w choice r w' hw _ hinv _ hk
    obtain rfl := lstat_same hk
    cases r with
    | error error => exact wp_abandon (hw.1.serving hinv)
    | ok created =>
      obtain ⟨owner, hfile⟩ := lstat_ok hk
      obtain ⟨status, howned⟩ := (hw.1.serving hinv).1
      cases hfile.symm.trans howned
      dsimp only
      split_ifs with hcheck
      · exact wp_abandon (hw.1.serving hinv)
      · simp only [not_or, ne_eq, not_not] at hcheck
        refine wp_sys (hP.and (stable_socket path)) ⟨hw, created, hfile, hcheck⟩ ?_ ?_
        · intro w hw _ path' hfd
          cases hw.1.1.1.symm.trans hfd
          exact ⟨hw.2, directory, hdirectory, hw.1.2⟩
        · intro w choice r w' hw _ hinv _ hk
          rcases listen_cases hw.1.1 hk with ⟨hr, rfl⟩ | ⟨rfl, rfl⟩
          · obtain ⟨error, rfl⟩ := Option.ne_none_iff_exists'.mp hr
            exact wp_abandon (hw.1.1.serving hinv)
          · exact ⟨hw.2.owns, hw.1.1.2.setDescriptor _⟩

/-- The socket is bound under a name that was free, or nothing has happened. -/
lemma bind_cases {choice : Choice} {r : Option Errno} (hw : Listener i none w)
    (hk : kernel credentials i w (.bind fd path) choice = some (r, w')) :
    (r ≠ none ∧ w' = w) ∨ (r = none ∧ Bound i fd path w') := by
  rcases World.attempt_cases hk with hsame | ⟨hr, hk⟩
  · exact .inl hsame
  · split at hk <;> cases hk
    refine .inr ⟨hr, ?_, fun fd' path' hfd => ?_⟩
    · simp only [World.setDescriptor_self, Function.update_self]
    · rw [World.setDescriptor_self, Function.update_apply] at hfd
      split at hfd
      · next heq => rw [heq]
      · exact nomatch hw fd' path' hfd

lemma wp_bindListener {directory : CString}
    (hdirectory : runtimeDirectory (some path) = .ok directory)
    (hw : Listener i none w ∧ PrivateDirectory credentials i directory w) :
    Wp credentials roles i (bindListener fd path (credentials i).uid) (Listened i path) w := by
  have hP : Kept credentials i fun w =>
      Listener i none w ∧ PrivateDirectory credentials i directory w :=
    (kept_listener credentials i none).and (kept_directory directory)
  refine wp_plainCall trivial hP hw fun oldMask w hw => ?_
  refine wp_sys hP.stable hw (fun _ _ _ => trivial) fun w choice r w' hw _ _ hg hk => ?_
  rcases bind_cases hw.1 hk with ⟨hr, rfl⟩ | ⟨rfl, hbound⟩
  · obtain ⟨error, rfl⟩ := Option.ne_none_iff_exists'.mp hr
    refine wp_plainCall trivial hP hw fun _ w hw => ?_
    exact wp_plainCall trivial hP hw fun _ w hw => hw.1
  · refine wp_sys (stable_bound.and (kept_directory directory).stable)
      ⟨hbound, hw.2.guarantee hg⟩ (fun _ _ _ => trivial) ?_
    intro w choice r w' hw _ _ _ hk
    cases hk
    exact wp_finishListener hdirectory hw

lemma wp_transportListen (hw : Listener i none w) :
    Wp credentials roles i (transportListen path (credentials i).uid) (Listened i path) w := by
  unfold transportListen
  split
  · exact hw
  next directory hdirectory =>
    refine wp_plainCall trivial (kept_listener credentials i none) hw fun r w hw => ?_
    split
    · exact hw
    refine wp_validate (kept_listener credentials i none) hw fun r w hw hprivate => ?_
    split_ifs with hr
    · exact hw
    have hP : Kept credentials i fun w =>
        Listener i none w ∧ PrivateDirectory credentials i directory w :=
      (kept_listener credentials i none).and (kept_directory directory)
    refine wp_plainCall trivial hP ⟨hw, hprivate (not_not.mp hr)⟩ fun r w hw => ?_
    cases r with
    | ok status => exact hw.1
    | error error =>
      dsimp only
      split_ifs
      · exact hw.1
      refine wp_plainCall trivial hP hw fun r w hw => ?_
      cases r with
      | error error => exact hw.1
      | ok fd => exact wp_bindListener hdirectory hw

/-! ### `main` -/

lemma all_serveConnection (fd : ℕ) (uid : UInt32) : (serveConnection fd uid).All Plain :=
  (all_sys trivial).bind fun _ => all_sys trivial

lemma all_reapFinishedWorkers (slots : List (Fin maxClients)) :
    (reapFinishedWorkers slots).All Plain := by
  induction slots with
  | nil => trivial
  | cons slot slots ih =>
    refine (all_sys trivial).bind fun worker => ?_
    split
    · exact ih
    · exact (all_sys trivial).bind fun _ => (all_sys trivial).bind fun _ => ih

lemma all_firstInactive (slots : List (Fin maxClients)) : (firstInactive slots).All Plain := by
  induction slots with
  | nil => trivial
  | cons slot slots ih =>
    refine (all_sys trivial).bind fun worker => ?_
    split
    · trivial
    · exact ih

lemma all_availableWorker : availableWorker.All Plain :=
  (all_reapFinishedWorkers _).bind fun _ => all_firstInactive _

lemma all_stopWorkers (slots : List (Fin maxClients)) : (stopWorkers slots).All Plain := by
  induction slots with
  | nil => trivial
  | cons slot slots ih =>
    refine (all_sys trivial).bind fun worker => ?_
    split
    · exact (all_sys trivial).bind fun _ => ih
    · exact ih

lemma all_joinWorkers (slots : List (Fin maxClients)) : (joinWorkers slots).All Plain := by
  induction slots with
  | nil => trivial
  | cons slot slots ih =>
    refine (all_sys trivial).bind fun worker => ?_
    split
    · exact (all_sys trivial).bind fun _ => (all_sys trivial).bind fun _ => ih
    · exact ih

variable {l : Locals}

omit [DecidableEq ι] in
lemma ends_loop (hw : Owns i l.socketPath w ∧ Listener i (some l.listenerFd) w) :
    (rules credentials).Ends i (some (.loop l)) w := by
  rintro _ ⟨⟩
  exact hw

lemma wp_finish (failed : Bool)
    (hw : Owns i l.socketPath w ∧ Listener i (some l.listenerFd) w) :
    Wp credentials roles i (finish l failed) ((rules credentials).Ends i) w := by
  refine wp_plainCall trivial (kept_serving credentials i l.socketPath _) hw fun _ w hw => ?_
  refine wp_closeListener hw fun w hw => ?_
  have hP := kept_serving credentials i l.socketPath none
  refine wp_plainCall trivial hP hw fun _ w hw => ?_
  refine wp_plain (all_stopWorkers _) hP hw fun _ w hw => ?_
  refine wp_plain (all_joinWorkers _) hP hw fun _ w hw => ?_
  refine wp_plainCall trivial hP hw fun _ w hw => ?_
  exact wp_unlink hw fun _ w _ => wp_exitWith _

lemma wp_serveInWorker (clientFd : ℕ)
    (hw : Owns i l.socketPath w ∧ Listener i (some l.listenerFd) w) :
    Wp credentials roles i (serveInWorker l clientFd) ((rules credentials).Ends i) w := by
  have hP := kept_serving credentials i l.socketPath (some l.listenerFd)
  refine wp_plain all_availableWorker hP hw fun slot w hw => ?_
  cases slot with
  | none => exact wp_plainCall trivial hP hw fun _ w hw => ends_loop hw
  | some slot =>
    refine wp_plainCall trivial hP hw fun _ w hw => ?_
    refine wp_plainCall trivial hP hw fun r w hw => ?_
    cases r with
    | none => exact ends_loop hw
    | some error =>
      refine wp_plainCall trivial hP hw fun _ w hw => ?_
      exact wp_plainCall trivial hP hw fun _ w hw => ends_loop hw

lemma wp_pollLoop (hw : Owns i l.socketPath w ∧ Listener i (some l.listenerFd) w) :
    Wp credentials roles i (pollLoop l) ((rules credentials).Ends i) w := by
  have hP := kept_serving credentials i l.socketPath (some l.listenerFd)
  refine wp_plainCall trivial hP hw fun r w hw => ?_
  match r with
  | .error error =>
    dsimp only
    split_ifs
    · exact ends_loop hw
    · exact wp_finish true hw
  | .ok (signal, listener) =>
    dsimp only
    split
    · exact wp_plainCall trivial hP hw fun _ w hw => wp_finish _ hw
    split
    · exact wp_finish true hw
    split
    · exact ends_loop hw
    refine wp_plainCall trivial hP hw fun r w hw => ?_
    cases r with
    | error error =>
      dsimp only
      split_ifs
      · exact ends_loop hw
      · exact wp_finish true hw
    | ok clientFd =>
      dsimp only
      split_ifs
      · refine wp_plain (all_serveConnection clientFd l.uid) hP hw fun result w hw => ?_
        exact wp_plainCall trivial hP hw fun _ w hw => wp_finish _ hw
      · exact wp_serveInWorker clientFd hw

lemma wp_abortSetup (attributes : Bool)
    (hw : Owns i l.socketPath w ∧ Listener i (some l.listenerFd) w) :
    Wp credentials roles i (abortSetup l attributes) ((rules credentials).Ends i) w := by
  have hP := kept_serving credentials i l.socketPath (some l.listenerFd)
  have hrest : ∀ w, Owns i l.socketPath w ∧ Listener i (some l.listenerFd) w →
      Wp credentials roles i (do
        sys .brokerDestroy
        sys (.close l.listenerFd)
        sys (.close l.signalFd)
        let _ ← sys (.unlink l.socketPath)
        exitWith exitFailure) ((rules credentials).Ends i) w := by
    intro w hw
    refine wp_plainCall trivial hP hw fun _ w hw => ?_
    refine wp_closeListener hw fun w hw => ?_
    refine wp_plainCall trivial (kept_serving credentials i l.socketPath none) hw fun _ w hw => ?_
    exact wp_unlink hw fun _ w _ => wp_exitWith _
  unfold abortSetup
  split
  · exact wp_plainCall trivial hP hw fun _ w hw => hrest w hw
  · exact hrest w hw

lemma wp_setUp (hw : Owns i l.socketPath w ∧ Listener i (some l.listenerFd) w) :
    Wp credentials roles i (setUp l) ((rules credentials).Ends i) w := by
  have hP := kept_serving credentials i l.socketPath (some l.listenerFd)
  refine wp_plainCall trivial hP hw fun created w hw => ?_
  cases created with
  | false =>
    refine wp_closeListener hw fun w hw => ?_
    refine wp_plainCall trivial (kept_serving credentials i l.socketPath none) hw fun _ w hw => ?_
    exact wp_unlink hw fun _ w _ => wp_exitWith _
  | true =>
    refine wp_plainCall trivial hP hw fun r w hw => ?_
    cases r with
    | some error => exact wp_abortSetup false hw
    | none =>
      refine wp_plainCall trivial hP hw fun r w hw => ?_
      cases r with
      | some error => exact wp_abortSetup true hw
      | none => exact ends_loop hw

lemma wp_main (socketVariable : Option CString) (arguments : List CString)
    (hw : Listener i none w) :
    Wp credentials roles i (main socketVariable arguments) ((rules credentials).Ends i) w := by
  have hP := kept_listener credentials i none
  unfold main
  split
  · exact wp_exitWith _
  next socketPath once _ =>
    refine wp_plainCall trivial hP hw fun r w hw => ?_
    cases r with
    | error error => exact wp_exitWith _
    | ok signalFd =>
      refine wp_sys hP.stable hw (fun _ _ _ => trivial) fun w choice uid w' hw _ _ _ hk => ?_
      cases hk
      refine Concurrent.Rules.wp_bind (Concurrent.Rules.wp_mono ?_ (wp_transportListen hw))
      intro r w hw
      cases r with
      | error result => exact wp_plainCall trivial hP hw fun _ w _ => wp_exitWith _
      | ok listenerFd => exact wp_setUp hw

/-! ### Clients -/

/-- A connection to a process of the same user. -/
def Connected (credentials : ι → Ucred) (i : ι) (fd : ℕ) (w : World ι) : Prop :=
  ∃ j, w.descriptors i fd = some (.connected j) ∧ (credentials j).uid = (credentials i).uid

omit [DecidableEq ι] in
lemma stable_connected : (rules credentials).Stable i (Connected credentials i fd) := by
  rintro j hj w w' hg ⟨peer, hfd, huid⟩
  exact ⟨peer, (congrFun (hg.descriptors i (Ne.symm hj)) fd).trans hfd, huid⟩

lemma wp_useConnection {rest : Unit → Prog α} {Q : α → World ι → Prop} (exchanges : ℕ)
    (hw : Connected credentials i fd w ∧ Listener i none w)
    (hrest : ∀ w, Connected credentials i fd w ∧ Listener i none w →
      Wp credentials roles i (rest ()) Q w) :
    Wp credentials roles i (useConnection fd exchanges >>= rest) Q w := by
  induction exchanges generalizing w with
  | zero => exact hrest w hw
  | succ n ih =>
    have hP : (rules credentials).Stable i fun w =>
        Connected credentials i fd w ∧ Listener i none w :=
      stable_connected.and (kept_listener credentials i none).stable
    refine wp_sys hP hw (fun w hw _ => hw.1) ?_
    intro w choice r w' hw _ _ _ hk
    cases hk
    exact ih hw

/-- What `tgc_transport_connect` leaves behind. -/
def ConnectedTo (credentials : ι → Ucred) (i : ι) : Except Int32 ℕ → World ι → Prop
  | .ok fd, w => Connected credentials i fd w ∧ Listener i none w
  | .error _, w => Listener i none w

/-- Credentials that pass the check are those of the peer, and the peer has the same user. -/
lemma connected_of_credentials {choice : Choice} {peer : Except Errno (ℕ × Ucred)} {found : Ucred}
    (hk : kernel credentials i w (.getPeerCredentials fd) choice = some (peer, w'))
    (hpeer : transportGetCredentials peer (credentials i).uid = .ok found) :
    Connected credentials i fd w' := by
  simp only [kernel] at hk
  split at hk <;> cases hk
  · cases hpeer
  · next j _ hfd =>
    simp only [transportGetCredentials] at hpeer
    split at hpeer
    · cases hpeer
    · next hcheck => exact ⟨j, hfd, by tauto⟩
  · cases hpeer

lemma wp_connectSocket (hw : Listener i none w) :
    Wp credentials roles i (connectSocket fd path (credentials i).uid)
      (ConnectedTo credentials i) w := by
  have hP := kept_listener credentials i none
  refine wp_plainCall trivial hP hw fun r w hw => ?_
  cases r with
  | some error => exact wp_plainCall trivial hP hw fun _ w hw => hw
  | none =>
    refine wp_sys hP.stable hw (fun _ _ _ => trivial) fun w choice peer w' hw _ _ _ hk => ?_
    have hw' := hP.plain _ w choice peer w' trivial hw hk
    split
    · exact wp_plainCall trivial hP hw' fun _ w hw => hw
    next found hpeer => exact ⟨connected_of_credentials hk hpeer, hw'⟩

lemma wp_transportConnect (hw : Listener i none w) :
    Wp credentials roles i (transportConnect path (credentials i).uid)
      (ConnectedTo credentials i) w := by
  have hP := kept_listener credentials i none
  unfold transportConnect
  split
  · exact hw
  refine wp_validate hP hw fun r w hw _ => ?_
  split_ifs
  · exact hw
  refine wp_plainCall trivial hP hw fun r w hw => ?_
  cases r with
  | error error => exact hw
  | ok status =>
    dsimp only
    split_ifs
    · exact hw
    refine wp_plainCall trivial hP hw fun r w hw => ?_
    cases r with
    | error error => exact hw
    | ok fd => exact wp_connectSocket hw

lemma wp_client (exchanges : ℕ) (hw : Listener i none w) :
    Wp credentials roles i (client path exchanges) ((rules credentials).Ends i) w := by
  have hP := kept_listener credentials i none
  have hends : ∀ w, Listener i none w → (rules credentials).Ends i (some .main) w := by
    rintro w hw _ ⟨⟩
    exact hw
  refine wp_sys hP.stable hw (fun _ _ _ => trivial) fun w choice uid w' hw _ _ _ hk => ?_
  cases hk
  refine Concurrent.Rules.wp_bind (Concurrent.Rules.wp_mono ?_ (wp_transportConnect hw))
  intro r w hw
  cases r with
  | error result => exact hends w hw
  | ok fd =>
    refine wp_useConnection exchanges hw fun w hw => ?_
    exact wp_plainCall trivial hP hw.2 fun _ w hw => hends w hw

/-! ### Every interleaving -/

lemma rules_sound (credentials : ι → Ucred) (roles : ι → Role) :
    (rules credentials).Sound (processes credentials roles) where
  stable i l := by
    cases l with
    | main => exact (kept_listener credentials i none).stable
    | loop l => exact (kept_serving credentials i l.socketPath (some l.listenerFd)).stable
    | worker => exact fun _ _ _ _ _ h => h
  blocks i l w _ hw := by
    cases l with
    | main =>
      simp only [processes, block]
      split
      · exact wp_main _ _ hw
      · exact wp_client _ hw
    | loop l => exact wp_pollLoop hw
    | worker => exact fun _ hl => nomatch hl

/-- No descriptor is open, and no socket was made yet. -/
structure World.Initial (w : World ι) : Prop where
  descriptors : ∀ i fd, w.descriptors i fd = none
  files : ∀ path status i, w.files path ≠ some (status, some i)

omit [DecidableEq ι] in
lemma World.Initial.inv (h : w.Initial) : w.Inv credentials where
  socket path status i hfile := absurd hfile (h.files path status i)
  bound i fd _ hfd := nomatch (h.descriptors i fd).symm.trans hfd
  listening i fd _ hfd := nomatch (h.descriptors i fd).symm.trans hfd

omit [DecidableEq ι] in
/-- Two owners of a file are the same. -/
lemma Owns.unique (h : Owns i path w) (h' : Owns j path w) : i = j := by
  obtain ⟨status, hfile⟩ := h
  obtain ⟨status', hfile'⟩ := h'
  exact Option.some.inj (Prod.mk.inj (Option.some.inj (hfile.symm.trans hfile'))).2

/-- However the calls of daemons and clients interleave, and whichever of them fail: at most one
daemon listens on a path, its socket and the directory of the socket are private, a daemon only
changes and removes a socket that it has made itself, and a client only talks to a daemon of its own
user. -/
theorem listeners_exclusive (credentials : ι → Ucred) (roles : ι → Role) {w : World ι}
    (hw : w.Initial) {events : List (ι × Choice)}
    {k : Concurrent.Config ι (World ι) Call Answer Label}
    (h : Transition.exec (processes credentials roles).step
      (Concurrent.Config.start w fun _ => .main) events = some k) :
    (∀ i j fd fd' path, k.state.descriptors i fd = some (.listening path) →
      k.state.descriptors j fd' = some (.listening path) → i = j) ∧
    (∀ i fd path, k.state.descriptors i fd = some (.listening path) →
      Trusted credentials i path k.state) ∧
    (∀ i path rest, k.threads i = .call (.unlink path) rest → Owns i path k.state) ∧
    (∀ i path mode rest, k.threads i = .call (.chmod path mode) rest → Owns i path k.state) ∧
    (∀ i fd rest, k.threads i = .call (.exchange fd) rest →
      Connected credentials i fd k.state) := by
  have hentry : ∀ i, (rules credentials).At i .main w := by
    intro i fd path hfd
    rw [hw.descriptors i fd] at hfd
    simp at hfd
  have hok := (rules_sound credentials roles).ok hw.inv hentry h
  refine ⟨fun i j fd fd' path hi hj => ?_, hok.inv.listening, fun _ _ _ hcall => (hok.safe hcall).1,
    fun _ _ _ _ hcall => (hok.safe hcall).1, fun _ _ _ hcall => hok.safe hcall⟩
  have hown := (hok.inv.listening i fd path hi).1.owns
  exact hown.unique (hok.inv.listening j fd' path hj).1.owns

/-- The answers when nothing fails and nothing arrives. -/
def calm : (c : Call) → Answer c
  | .geteuid | .umask _ => (0 : UInt32)
  | .createSignalFd | .socket | .accept _ => .ok 0
  | .mkdir _ _ | .bind _ _ | .chmod _ _ | .listen _ | .connect _ _ | .unlink _ => none
  | .attrInit | .attrSetStackSize | .spawn _ => none
  | .lstat _ => .ok ⟨.other, 0, 0⟩
  | .getPeerCredentials _ => .ok (0, ⟨0, 0, 0⟩)
  | .brokerCreate => true
  | .poll => .ok (⟨false, false⟩, ⟨false, false⟩)
  | .readSignal _ => .again
  | .serveEnd _ => (0 : Int32)
  | .load _ => ⟨0, 0, 0, 0, false, false⟩
  | .started => ⟨0, by decide⟩
  | .close _ | .exchange _ | .brokerDestroy | .attrDestroy | .serveBegin _ _ | .claim _ _ _
  | .release _ | .join _ | .shutdown _ | .storeResult _ _ | .storeDone _ | .ended | .exit _ => ()

def socketName : CString := cstr "/r/s"

/-- A daemon that starts, and a client that connects to it. -/
def served : List (Bool × Choice) :=
  (false, ⟨none, 3, calm⟩) :: (false, ⟨none, 3, calm⟩) ::
    List.replicate 14 (false, ⟨none, 4, calm⟩) ++
    (true, ⟨none, 3, calm⟩) :: List.replicate 4 (true, ⟨none, 3, calm⟩) ++
    List.replicate 2 (true, ⟨none, 4, calm⟩)

def sameUser (i : Bool) : Ucred := ⟨if i then 2 else 1, 1000, 1000⟩

def daemonAndClient (i : Bool) : Role :=
  if i then .client socketName 1 else .daemon (some socketName) []

def emptyWorld : World Bool := ⟨fun _ => none, fun _ => 0, fun _ _ => none⟩

def isListening (k : Concurrent.Config Bool (World Bool) Call Answer Label) : Bool :=
  k.state.descriptors false 4 == some (.listening socketName) &&
    match k.threads true with
    | .call (.exchange 3) _ => true
    | _ => false

theorem listeners_exclusive_served :
    ∃ k, Transition.exec (processes sameUser daemonAndClient).step
        (Concurrent.Config.start emptyWorld fun _ => .main) served = some k ∧
      k.state.descriptors false 4 = some (.listening socketName) ∧
      (∀ j fd, k.state.descriptors j fd = some (.listening socketName) → j = false) ∧
      Connected sameUser true 3 k.state := by
  have hrun : (Transition.exec (processes sameUser daemonAndClient).step
      (Concurrent.Config.start emptyWorld fun _ => .main) served).any isListening = true := by
    decide +kernel
  obtain ⟨k, hk, hlistening⟩ := (Option.any_eq_true _ _).mp hrun
  have hinitial : emptyWorld.Initial := ⟨fun _ _ => rfl, fun _ _ _ => nofun⟩
  obtain ⟨hone, -, -, -, htalk⟩ := listeners_exclusive sameUser daemonAndClient hinitial hk
  simp only [isListening, Bool.and_eq_true, beq_iff_eq] at hlistening
  obtain ⟨hlisten, hnext⟩ := hlistening
  refine ⟨k, hk, hlisten, fun j fd hj => hone j false fd 4 _ hj hlisten, ?_⟩
  split at hnext
  · next rest hcall => exact htalk true 3 rest hcall
  · cases hnext

end Daemon

end Tgcompat
