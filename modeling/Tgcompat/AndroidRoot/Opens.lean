import Tgcompat.AndroidRoot.Rewrite
import Tgcompat.Exec.Elf

/-!
# The interposed functions

The entry points of `android_root_shim.c`. Each decides whether its path may be rewritten and calls
the function of libc it stands in front of; the `openat` family may call it once more, for a
descriptor of `/proc/self/root`. A run is what is returned, with the calls made on the way.
-/

namespace Tgcompat.AndroidRoot

/-! ### Flags -/

def O_ACCMODE : UInt32 := 3
def O_RDONLY : UInt32 := 0
def O_CREAT : UInt32 := 0o100
def O_TRUNC : UInt32 := 0o1000
def O_CLOEXEC : UInt32 := 0o2000000
def O_PATH : UInt32 := 0o10000000

def O_DIRECTORY : ElfMachine → UInt32
  | .aarch64 => 0o40000
  | .x8664 => 0o200000

def O_NOFOLLOW : ElfMachine → UInt32
  | .aarch64 => 0o100000
  | .x8664 => 0o400000

def O_TMPFILE (machine : ElfMachine) : UInt32 := 0o20000000 ||| O_DIRECTORY machine

def W_OK : UInt32 := 2

/-- The characters `r` and `+` of a stream's mode. -/
def readLetter : UInt8 := 114
def plusSign : UInt8 := 43

def flagsHaveMode (machine : ElfMachine) (flags : UInt32) : Bool :=
  decide (flags &&& O_CREAT ≠ 0) || decide (flags &&& O_TMPFILE machine = O_TMPFILE machine)

def readOnlyOpen (machine : ElfMachine) (flags : UInt32) : Bool :=
  decide (flags &&& O_ACCMODE = O_RDONLY) && !flagsHaveMode machine flags

def readOnlyFopenMode (mode : Option CString) : Bool :=
  match mode with
  | none => false
  | some mode => charAt mode 0 == readLetter && !decide (plusSign ∈ mode)

/-! ### Calls of libc -/

/-- The functions that are looked up behind the shim. -/
inductive Symbol where
  | open_ | open64 | openat | openat64 | open_2 | open64_2 | openat_2 | openat64_2
  | fopen | fopen64 | opendir | access | stat | lstat
  deriving DecidableEq, Repr

/-- The last argument of a call; buffers for results are left out. -/
inductive Argument where
  | flags (flags : UInt32) (mode : Option UInt32)
  | stream (mode : Option CString)
  | access (mode : UInt32)
  | nothing
  deriving DecidableEq, Repr

structure RealCall where
  function : Symbol
  directory : Option Int32
  path : CString
  argument : Argument
  deriving DecidableEq, Repr

/-- A descriptor or a pointer, or the `errno` of a failure. -/
abbrev Answer := Except Int32 ℕ

/-- Everything outside the arguments of a call that the shim looks at. -/
structure Shim where
  machine : ElfMachine
  getenv : Getenv
  /-- whether `dlsym` found the function -/
  resolved : Symbol → Bool
  /-- what libc answers -/
  answer : RealCall → Answer
  /-- `errno` before the call -/
  errno : Int32
  /-- the bytes of `rewritten` before it is filled -/
  stack : Buffer

structure Run where
  answer : Answer
  calls : List RealCall

variable (shim : Shim)

/-- The string behind the pointer that is handed on; a null pointer comes with the `errno` that is
then returned. -/
def Shim.pointer (path : Option CString) : Rewrite → Except Int32 CString
  | .path =>
    match path with
    | some path => .ok path
    | none => .error shim.errno
  | .output buffer => .ok (stringOf (readBytes buffer 0 pathMax))
  | .null errno => .error errno

/-- A path that is handed on as it is. -/
def Shim.unmapped (path : Option CString) : Except Int32 CString := shim.pointer path .path

/-- A path that is rewritten into a buffer on the stack. -/
def Shim.rewritten (path : Option CString) : Except Int32 CString :=
  shim.pointer path
    (rewriteProc shim.getenv path (some shim.stack) (UInt64.ofNat pathMax))

/-- The check that precedes every call of libc. -/
def Shim.forward (function : Symbol) (mapped : Except Int32 CString) (run : CString → Run) : Run :=
  if shim.resolved function = false then ⟨.error ENOSYS, []⟩
  else
    match mapped with
    | .error errno => ⟨.error errno, []⟩
    | .ok path => run path

def Shim.call (call : RealCall) : Run := ⟨shim.answer call, [call]⟩

/-! ### The retry -/

def oPathName : CString := cstr "TGCOMPAT_ANDROID_ROOT_O_PATH"

def enabled (getenv : Getenv) : Bool := decide (getenv oPathName = some (cstr "1"))

/-- `tgcompat_android_root_retry_flags`. -/
def retryFlags (path : CString) (flags : UInt32) (error : Int32) : Option UInt32 :=
  if enabled shim.getenv = false ∨ (error ≠ EACCES ∧ error ≠ EPERM) ∨
      (path ≠ cstr "/proc/self/root" ∧ path ≠ cstr "/proc/self/root/") ∨
      flags &&& O_DIRECTORY shim.machine = 0 ∨ flags &&& O_PATH ≠ 0 ∨
      flags &&& O_ACCMODE ≠ O_RDONLY then none
  else
    some (O_PATH ||| (flags &&&
      (O_CLOEXEC ||| O_DIRECTORY shim.machine ||| O_NOFOLLOW shim.machine)))

def retryOpenat (function : Symbol) (directory : Int32) (path : CString) (flags : UInt32)
    (first : Run) : Run :=
  match first.answer with
  | .ok _ => first
  | .error error =>
    if shim.resolved function = false then first
    else
      match retryFlags shim path flags error with
      | none => first
      | some flags =>
        let call : RealCall := ⟨function, some directory, path, .flags flags none⟩
        ⟨shim.answer call, first.calls ++ [call]⟩

/-! ### Opening -/

def mappedOpenPath (path : Option CString) (flags : UInt32) : Except Int32 CString :=
  if readOnlyOpen shim.machine flags = false then shim.unmapped path else shim.rewritten path

/-- The mode is an argument only if the flags call for one. -/
def openArgument (flags mode : UInt32) : Argument :=
  .flags flags (if flagsHaveMode shim.machine flags then some mode else none)

def callOpen (function : Symbol) (path : Option CString) (flags mode : UInt32) : Run :=
  shim.forward function (mappedOpenPath shim path flags) fun mapped =>
    shim.call ⟨function, none, mapped, openArgument shim flags mode⟩

def callOpenat (function : Symbol) (directory : Int32) (path : Option CString)
    (flags mode : UInt32) : Run :=
  shim.forward function (mappedOpenPath shim path flags) fun mapped =>
    retryOpenat shim function directory mapped flags
      (shim.call ⟨function, some directory, mapped, openArgument shim flags mode⟩)

def callCheckedOpen (checkedFunction : Symbol) (path : Option CString) (flags : UInt32) : Run :=
  shim.forward checkedFunction (mappedOpenPath shim path flags) fun mapped =>
    shim.call ⟨checkedFunction, none, mapped, .flags flags none⟩

def callCheckedOpenat (checkedFunction fallbackFunction : Symbol) (directory : Int32)
    (path : Option CString) (flags : UInt32) : Run :=
  shim.forward checkedFunction (mappedOpenPath shim path flags) fun mapped =>
    retryOpenat shim fallbackFunction directory mapped flags
      (shim.call ⟨checkedFunction, some directory, mapped, .flags flags none⟩)

def callFopen (function : Symbol) (path mode : Option CString) : Run :=
  shim.forward function
    (if readOnlyFopenMode mode then shim.rewritten path else shim.unmapped path) fun mapped =>
      shim.call ⟨function, none, mapped, .stream mode⟩

/-! ### Metadata -/

def opendir (path : Option CString) : Run :=
  shim.forward .opendir (shim.rewritten path) fun mapped =>
    shim.call ⟨.opendir, none, mapped, .nothing⟩

def access (path : Option CString) (mode : UInt32) : Run :=
  shim.forward .access
    (if mode &&& W_OK = 0 then shim.rewritten path else shim.unmapped path) fun mapped =>
      shim.call ⟨.access, none, mapped, .access mode⟩

def callStat (function : Symbol) (path : Option CString) : Run :=
  shim.forward function (shim.rewritten path) fun mapped =>
    shim.call ⟨function, none, mapped, .nothing⟩

/-! ### Entry points -/

/-- A call of an interposed function. -/
inductive Request where
  | open_ (path : Option CString) (flags mode : UInt32)
  | open64 (path : Option CString) (flags mode : UInt32)
  | openat (directory : Int32) (path : Option CString) (flags mode : UInt32)
  | openat64 (directory : Int32) (path : Option CString) (flags mode : UInt32)
  | open_2 (path : Option CString) (flags : UInt32)
  | open64_2 (path : Option CString) (flags : UInt32)
  | openat_2 (directory : Int32) (path : Option CString) (flags : UInt32)
  | openat64_2 (directory : Int32) (path : Option CString) (flags : UInt32)
  | fopen (path mode : Option CString)
  | fopen64 (path mode : Option CString)
  | opendir (path : Option CString)
  | access (path : Option CString) (mode : UInt32)
  | stat (path : Option CString)
  | lstat (path : Option CString)
  deriving DecidableEq, Repr

namespace Request

def run : Request → Run
  | open_ path flags mode => callOpen shim .open_ path flags mode
  | open64 path flags mode => callOpen shim .open64 path flags mode
  | openat directory path flags mode => callOpenat shim .openat directory path flags mode
  | openat64 directory path flags mode => callOpenat shim .openat64 directory path flags mode
  | open_2 path flags => callCheckedOpen shim .open_2 path flags
  | open64_2 path flags => callCheckedOpen shim .open64_2 path flags
  | openat_2 directory path flags =>
    callCheckedOpenat shim .openat_2 .openat directory path flags
  | openat64_2 directory path flags =>
    callCheckedOpenat shim .openat64_2 .openat64 directory path flags
  | fopen path mode => callFopen shim .fopen path mode
  | fopen64 path mode => callFopen shim .fopen64 path mode
  | opendir path => AndroidRoot.opendir shim path
  | access path mode => AndroidRoot.access shim path mode
  | stat path => callStat shim .stat path
  | lstat path => callStat shim .lstat path

/-- The function of libc that is called first. -/
def symbol : Request → Symbol
  | open_ _ _ _ => .open_
  | open64 _ _ _ => .open64
  | openat _ _ _ _ => .openat
  | openat64 _ _ _ _ => .openat64
  | open_2 _ _ => .open_2
  | open64_2 _ _ => .open64_2
  | openat_2 _ _ _ => .openat_2
  | openat64_2 _ _ _ => .openat64_2
  | fopen _ _ => .fopen
  | fopen64 _ _ => .fopen64
  | opendir _ => .opendir
  | access _ _ => .access
  | stat _ => .stat
  | lstat _ => .lstat

def path : Request → Option CString
  | open_ path _ _ | open64 path _ _ | openat _ path _ _ | openat64 _ path _ _ | open_2 path _
  | open64_2 path _ | openat_2 _ path _ | openat64_2 _ path _ | fopen path _ | fopen64 path _
  | opendir path | access path _ | stat path | lstat path => path

/-- The flags of a request that opens a descriptor. -/
def flags : Request → Option UInt32
  | open_ _ flags _ | open64 _ flags _ | openat _ _ flags _ | openat64 _ _ flags _
  | open_2 _ flags | open64_2 _ flags | openat_2 _ _ flags | openat64_2 _ _ flags => some flags
  | _ => none

end Request

/-! ### Requests that can modify their target -/

/-- Flags with which `open` can modify its target on Linux. -/
def FlagsMutate (machine : ElfMachine) (flags : UInt32) : Prop :=
  flags &&& O_ACCMODE ≠ O_RDONLY ∨ flags &&& O_CREAT ≠ 0 ∨
    flags &&& O_TMPFILE machine = O_TMPFILE machine ∨ flags &&& O_TRUNC ≠ 0

/-- The mode of a stream that is only read. -/
def PlainReading (mode : Option CString) : Prop :=
  ∃ rest, mode = some (readLetter :: rest) ∧ plusSign ∉ rest

def Request.Mutates (machine : ElfMachine) : Request → Prop
  | open_ _ flags _ | open64 _ flags _ | openat _ _ flags _ | openat64 _ _ flags _
  | open_2 _ flags | open64_2 _ flags | openat_2 _ _ flags | openat64_2 _ _ flags =>
    FlagsMutate machine flags
  | fopen _ mode | fopen64 _ mode => ¬ PlainReading mode
  | access _ mode => mode &&& W_OK ≠ 0
  | opendir _ | stat _ | lstat _ => False

/-- Truncating is the only way in which the request can modify its target. -/
def Request.OnlyTruncates (machine : ElfMachine) (request : Request) : Prop :=
  ∃ flags, request.flags = some flags ∧ readOnlyOpen machine flags = true ∧ flags &&& O_TRUNC ≠ 0

/-- The path, if it is rewritten, becomes another one. -/
def Shim.Redirects (path : Option CString) : Prop :=
  ∃ text, shim.rewritten path = .ok text ∧ path ≠ some text

variable {shim} {machine : ElfMachine} {flags : UInt32} {mode path : Option CString}
  {function : Symbol} {mapped : Except Int32 CString} {run : CString → Run}

lemma truncates_of_readOnlyOpen (h : FlagsMutate machine flags)
    (hread : readOnlyOpen machine flags = true) : flags &&& O_TRUNC ≠ 0 := by
  simp only [readOnlyOpen, flagsHaveMode, Bool.and_eq_true, decide_eq_true_eq, Bool.not_eq_true',
    Bool.or_eq_false_iff, decide_eq_false_iff_not] at hread
  obtain ⟨haccess, hcreat, htmpfile⟩ := hread
  rcases h with h | h | h | h
  · exact absurd haccess h
  · exact absurd h hcreat
  · exact absurd h htmpfile
  · exact h

lemma readOnlyFopenMode_iff : readOnlyFopenMode mode = true ↔ PlainReading mode := by
  cases mode with
  | none => simp [readOnlyFopenMode, PlainReading]
  | some mode =>
    cases mode with
    | nil => simp [readOnlyFopenMode, PlainReading, charAt, readLetter]
    | cons c rest =>
      have hne : plusSign ≠ readLetter := by decide
      simp only [readOnlyFopenMode, PlainReading, charAt, List.getD_cons_zero, Bool.and_eq_true,
        beq_iff_eq, Bool.not_eq_true', decide_eq_false_iff_not, List.mem_cons, Option.some.injEq,
        List.cons.injEq]
      constructor
      · rintro ⟨rfl, hplus⟩
        exact ⟨rest, ⟨rfl, rfl⟩, fun hmem => hplus (Or.inr hmem)⟩
      · rintro ⟨_, ⟨rfl, rfl⟩, hplus⟩
        exact ⟨rfl, fun hmem => hmem.elim hne hplus⟩

/-! ### The path that is handed on -/

/-- Some call of libc is made, and every one of them gets the path. -/
def Run.Uses (run : Run) (path : CString) : Prop :=
  run.calls ≠ [] ∧ ∀ call ∈ run.calls, call.path = path

lemma Shim.uses_call (shim : Shim) (call : RealCall) : (shim.call call).Uses call.path := by
  simp [Run.Uses, Shim.call]

/-- A retry keeps the path. -/
lemma Run.Uses.retryOpenat {first : Run} {text : CString} (h : first.Uses text)
    (directory : Int32) (flags : UInt32) :
    (retryOpenat shim function directory text flags first).Uses text := by
  unfold AndroidRoot.retryOpenat
  cases first.answer with
  | ok value => exact h
  | error error =>
    dsimp only
    split_ifs
    · exact h
    · cases retryFlags shim text flags error with
      | none => exact h
      | some flags =>
        refine ⟨by simp, fun call hcall => ?_⟩
        rcases List.mem_append.mp hcall with hmem | hmem
        · exact h.2 call hmem
        · rw [List.mem_singleton.mp hmem]

/-- The caller's path is kept unless the function was found and the mapped path differs. -/
lemma forward_keeps_iff (hrun : ∀ text, (run text).Uses text) (path : Option CString) :
    (∀ call ∈ (shim.forward function mapped run).calls, some call.path = path) ↔
      ¬ (shim.resolved function = true ∧ ∃ text, mapped = .ok text ∧ path ≠ some text) := by
  unfold Shim.forward
  cases shim.resolved function with
  | false => simp
  | true =>
    cases mapped with
    | error errno => simp
    | ok text =>
      obtain ⟨hne, huses⟩ := hrun text
      obtain ⟨call, hcall⟩ := List.exists_mem_of_ne_nil _ hne
      simp only [reduceCtorEq, if_false, true_and, Except.ok.injEq, exists_eq_left', ne_eq, not_not]
      constructor
      · intro h
        rw [← h call hcall, huses call hcall]
      · intro h call hcall
        rw [h, huses call hcall]

lemma unmapped_eq {text : CString} (h : shim.unmapped path = .ok text) : path = some text := by
  cases path with
  | none => cases h
  | some path =>
    cases h
    rfl

lemma forward_unmapped_keeps (hrun : ∀ text, (run text).Uses text) (path : Option CString) :
    ∀ call ∈ (shim.forward function (shim.unmapped path) run).calls, some call.path = path := by
  refine (forward_keeps_iff hrun path).mpr ?_
  rintro ⟨-, text, htext, hne⟩
  exact hne (unmapped_eq htext)

/-- The functions that open a descriptor hand another path on if they take the flags for reading
ones and the path is redirected. -/
lemma forward_open_keeps_iff (hrun : ∀ text, (run text).Uses text) (path : Option CString) :
    (∀ call ∈ (shim.forward function (mappedOpenPath shim path flags) run).calls,
        some call.path = path) ↔
      ¬ (readOnlyOpen shim.machine flags = true ∧ shim.resolved function = true ∧
        shim.Redirects path) := by
  unfold mappedOpenPath
  cases readOnlyOpen shim.machine flags with
  | false => simpa using forward_unmapped_keeps hrun path
  | true =>
    rw [if_neg (by simp), forward_keeps_iff hrun path]
    simp [Shim.Redirects]

lemma onlyTruncates_iff {request : Request} (hflags : request.flags = some flags)
    (h : FlagsMutate machine flags) :
    request.OnlyTruncates machine ↔ readOnlyOpen machine flags = true := by
  constructor
  · rintro ⟨_, heq, hread, -⟩
    rw [hflags] at heq
    cases heq
    exact hread
  · intro hread
    exact ⟨flags, hflags, hread, truncates_of_readOnlyOpen h hread⟩

namespace Request

/-- The eight functions that open a descriptor hand their path on in one way. -/
lemma run_of_flags (request : Request) (hflags : request.flags = some flags) :
    ∃ run : CString → Run, (∀ text, (run text).Uses text) ∧
      request.run shim =
        shim.forward request.symbol (mappedOpenPath shim request.path flags) run := by
  cases request with
  | open_ path flags mode | open64 path flags mode =>
    cases hflags
    exact ⟨_, fun text => shim.uses_call _, rfl⟩
  | open_2 path flags | open64_2 path flags =>
    cases hflags
    exact ⟨_, fun text => shim.uses_call _, rfl⟩
  | openat directory path flags mode | openat64 directory path flags mode =>
    cases hflags
    exact ⟨_, fun text => (shim.uses_call _).retryOpenat directory flags, rfl⟩
  | openat_2 directory path flags | openat64_2 directory path flags =>
    cases hflags
    exact ⟨_, fun text => (shim.uses_call _).retryOpenat directory flags, rfl⟩
  | _ => cases hflags

lemma flagsMutate_of_mutates {request : Request} (hflags : request.flags = some flags)
    (h : request.Mutates machine) : FlagsMutate machine flags := by
  cases request <;> cases hflags <;> exact h

/-- The other requests that can modify their target are recognised. -/
lemma keeps_of_no_flags {request : Request} (hflags : request.flags = none)
    (h : request.Mutates machine) :
    ∀ call ∈ (request.run shim).calls, some call.path = request.path := by
  cases request with
  | fopen path mode | fopen64 path mode =>
    have hmode : ¬ readOnlyFopenMode mode = true := fun hread => h (readOnlyFopenMode_iff.mp hread)
    rw [run, callFopen, if_neg hmode]
    exact forward_unmapped_keeps (fun text => shim.uses_call _) path
  | access path mode =>
    rw [run, AndroidRoot.access, if_neg h]
    exact forward_unmapped_keeps (fun text => shim.uses_call _) path
  | opendir path | stat path | lstat path => exact h.elim
  | _ => cases hflags

end Request

/-- A request that can modify its target reaches libc with the caller's path, unless it opens for
reading with `O_TRUNC` a path that is redirected: such flags are taken for reading ones. -/
theorem mutating_requests_keep_path (shim : Shim) (request : Request)
    (h : request.Mutates shim.machine) :
    (∀ call ∈ (request.run shim).calls, some call.path = request.path) ↔
      ¬ (request.OnlyTruncates shim.machine ∧ shim.resolved request.symbol = true ∧
        shim.Redirects request.path) := by
  cases hflags : request.flags with
  | some flags =>
    obtain ⟨run, hrun, hrequest⟩ := request.run_of_flags hflags
    rw [hrequest, onlyTruncates_iff hflags (Request.flagsMutate_of_mutates hflags h)]
    exact forward_open_keeps_iff hrun request.path
  | none =>
    refine iff_of_true (Request.keeps_of_no_flags hflags h) ?_
    rintro ⟨⟨flags, heq, -⟩, -⟩
    rw [hflags] at heq
    cases heq

/-- A shim with a shadow of `/proc/net`, in front of a libc that grants everything. -/
def shadowShim : Shim where
  machine := .aarch64
  getenv := fun name => if name = procNetName then some (cstr "/a/b") else none
  resolved := fun _ => true
  answer := fun _ => .ok 3
  errno := 0
  stack := fun _ => 0

/-- Writing is not redirected. -/
theorem mutating_requests_keep_path_writing :
    let request := Request.open_ (some (cstr "/proc/net/route")) 1 0
    (request.run shadowShim).calls ≠ [] ∧
      ∀ call ∈ (request.run shadowShim).calls, some call.path = request.path := by
  intro request
  refine ⟨by decide, (mutating_requests_keep_path shadowShim request (Or.inl (by decide))).mpr ?_⟩
  rintro ⟨⟨flags, heq, hread, -⟩, -⟩
  cases heq
  revert hread
  decide

/-- Truncating is. -/
theorem truncating_open_redirected :
    (Request.open_ (some (cstr "/proc/net/route")) (O_RDONLY ||| O_TRUNC) 0).Mutates .aarch64 ∧
      ((Request.open_ (some (cstr "/proc/net/route")) (O_RDONLY ||| O_TRUNC) 0).run
        shadowShim).calls =
          [⟨.open_, none, cstr "/a/b/route", .flags (O_RDONLY ||| O_TRUNC) none⟩] :=
  ⟨.inr (.inr (.inr (by decide))), by decide +kernel⟩

end Tgcompat.AndroidRoot
