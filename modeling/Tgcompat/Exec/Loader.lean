import Tgcompat.Exec.Elf

/-!
# Wrapping a program with its loader

The policies of `exec_shim.c` that choose what is launched, and `build_loader_arguments`, which
turns the launch of a program into the launch of a loader that runs it.
-/

namespace Tgcompat

def shellRedirectName : CString := cstr "TGCOMPAT_EXEC_SHELL"
def pathFromName : CString := cstr "TGCOMPAT_EXEC_PATH_FROM"
def pathToName : CString := cstr "TGCOMPAT_EXEC_PATH_TO"
def disableName : CString := cstr "TGCOMPAT_EXEC_DISABLE"
def ldSoName : CString := cstr "TGCOMPAT_LD_SO"
def matchInterpreterName : CString := cstr "TGCOMPAT_EXEC_MATCH_INTERPRETER"
def execLdPreloadName : CString := cstr "TGCOMPAT_EXEC_LD_PRELOAD"
def libraryPathName : CString := cstr "TGCOMPAT_LIBRARY_PATH"

def inhibitCacheOption : CString := cstr "--inhibit-cache"
def argv0Option : CString := cstr "--argv0"
def libraryPathOption : CString := cstr "--library-path"

/-- Everything outside the arguments of a call that the shim looks at. -/
structure ExecSystem where
  machine : ElfMachine
  fs : FileSystem
  environ : EnvVector

/-! ### Redirects -/

/-- The path starts with a slash and goes on. -/
def isAbsolute (path : CString) : Bool := charAt path 0 == slash && charAt path 1 != 0

def disabledByEnvironment (envp : EnvVector) : Bool :=
  match environmentValue envp disableName with
  | none => false
  | some value => charAt value 0 != 0 && decide (value ≠ cstr "0")

def interpreterMatches (machine : ElfMachine) (interpreter : CString) (envp : EnvVector) : Bool :=
  match environmentValue envp matchInterpreterName with
  | some value =>
    if charAt value 0 ≠ 0 then decide (interpreter = value)
    else decide (interpreter ∈ machine.defaultInterpreters)
  | none => decide (interpreter ∈ machine.defaultInterpreters)

/-- The path in place of a shell; `none` where the source returns the pointer it was given. -/
def redirectShellPath (environ : EnvVector) (filename : CString) (envp : EnvVector) :
    Option CString :=
  if filename ≠ cstr "/bin/sh" ∧ filename ≠ cstr "/usr/bin/sh" then none
  else
    match configuredEnvironmentValue environ envp shellRedirectName with
    | none => none
    | some redirect => if isAbsolute redirect then some redirect else none

/-- The path in place of the configured one. Both ends of the policy come from one environment. -/
def redirectConfiguredPath (environ : EnvVector) (filename : CString) (envp : EnvVector) :
    Option CString :=
  let ends :=
    match environmentValue envp pathFromName, environmentValue envp pathToName with
    | none, none => (environmentValue environ pathFromName, environmentValue environ pathToName)
    | source, target => (source, target)
  match ends with
  | (some source, some target) =>
    if isAbsolute source && isAbsolute target && decide (filename = source) then some target
    else none
  | _ => none

def redirectExecPath (sys : ExecSystem) (filename : CString) (envp : EnvVector) : CString :=
  match redirectConfiguredPath sys.environ filename envp with
  | some redirect => redirect
  | none =>
    match redirectShellPath sys.environ filename envp with
    | some redirect => redirect
    | none =>
      if disabledByEnvironment envp || !interpreterMatches sys.machine filename envp then filename
      else
        match environmentValue envp ldSoName with
        | none => filename
        | some loader => if isAbsolute loader then loader else filename

def shouldWrap (sys : ExecSystem) (filename : CString) (envp : EnvVector) : Bool :=
  match environmentValue envp ldSoName with
  | none => false
  | some loader =>
    charAt loader 0 == slash && !disabledByEnvironment envp &&
      match readElfInterpreter sys.machine sys.fs filename pathMax with
      | none => false
      | some interpreter => interpreterMatches sys.machine (stringOf interpreter) envp

/-! ### `build_loader_arguments` -/

structure LoaderInvocation where
  arguments : PointerVector
  environment : PointerVector
  deriving DecidableEq, Repr

inductive WrapResult where
  | error (errno : Int32)
  | no
  | yes (invocation : LoaderInvocation)
  deriving DecidableEq, Repr

/-- The argument vector of the loader. -/
def loaderArguments (loader launchFilename : CString) (libraryPath : Option CString)
    (argv : List CString) : PointerVector where
  slots := argv.length + 8
  pointers :=
    [loader, inhibitCacheOption, argv0Option, argv.head?.getD launchFilename] ++
      (match libraryPath with
        | none => []
        | some path => if charAt path 0 ≠ 0 then [libraryPathOption, path] else []) ++
      launchFilename :: argv.drop 1

def buildLoaderArguments (sys : ExecSystem) (filename : CString) (argv : List CString)
    (envp : EnvVector) : WrapResult :=
  let launchFilename := redirectExecPath sys filename envp
  let loader := (environmentValue envp ldSoName).getD []
  if shouldWrap sys launchFilename envp = false then .no
  else
    match sys.fs.realpath launchFilename with
    | .error errno => .error errno
    | .ok originalPath =>
      .yes {
        arguments := loaderArguments loader launchFilename (environmentValue envp libraryPathName)
          argv
        environment := loaderEnvironment
          (configuredEnvironmentValue sys.environ envp execLdPreloadName) originalPath envp }

variable {sys : ExecSystem} {filename : CString} {argv : List CString} {envp : EnvVector}
  {invocation : LoaderInvocation}

/-- When a program is wrapped, and what is launched for it. -/
lemma buildLoaderArguments_eq_yes :
    buildLoaderArguments sys filename argv envp = .yes invocation ↔
      shouldWrap sys (redirectExecPath sys filename envp) envp = true ∧
      ∃ originalPath, sys.fs.realpath (redirectExecPath sys filename envp) = .ok originalPath ∧
        invocation =
          { arguments := loaderArguments ((environmentValue envp ldSoName).getD [])
              (redirectExecPath sys filename envp) (environmentValue envp libraryPathName) argv
            environment := loaderEnvironment
              (configuredEnvironmentValue sys.environ envp execLdPreloadName) originalPath
              envp } := by
  simp only [buildLoaderArguments]
  cases hwrap : shouldWrap sys (redirectExecPath sys filename envp) envp with
  | false => simp
  | true =>
    cases hpath : sys.fs.realpath (redirectExecPath sys filename envp) with
    | error errno => simp
    | ok originalPath => simp [eq_comm]

/-! ### The environments -/

/-- Both environments the shim builds are the given one with the names of their policy replaced. -/
theorem environment_rewriting (sys : ExecSystem) (filename : CString) (argv : List CString)
    (envp : EnvVector) :
    (∀ invocation, buildLoaderArguments sys filename argv envp = .yes invocation →
      ∃ originalPath, sys.fs.realpath (redirectExecPath sys filename envp) = .ok originalPath ∧
        Rewrites envp
          (loaderReplaced (configuredEnvironmentValue sys.environ envp execLdPreloadName)
            originalPath) invocation.environment) ∧
    ∀ values, buildFinalEnvironment sys.environ filename envp = .ok (some values) →
      ∃ preload, configuredEnvironmentValue sys.environ envp finalLdPreloadName = some preload ∧
        Rewrites envp
          (finalReplaced preload
            (configuredEnvironmentValue sys.environ envp finalProcSelfExeName)) values := by
  constructor
  · intro invocation h
    obtain ⟨-, originalPath, hpath, rfl⟩ := buildLoaderArguments_eq_yes.mp h
    exact ⟨originalPath, hpath, loaderEnvironment_rewrites _ originalPath envp⟩
  · intro values h
    exact buildFinalEnvironment_eq_some h

/-! ### What the loader reads -/

/-- The outcome of reading the arguments of `ld.so`. -/
inductive LdSoReading where
  | run (program : CString) (argv0 libraryPath : Option CString) (arguments : List CString)
  | option (argument : CString)
  | incomplete
  deriving DecidableEq, Repr

/-- `ld.so` takes its options from left to right; the first argument that does not look like one
is the program, and the rest is for it. -/
def ldSoRead (argv0 libraryPath : Option CString) : List CString → LdSoReading
  | [] => .incomplete
  | argument :: rest =>
    if argument = inhibitCacheOption then ldSoRead argv0 libraryPath rest
    else if argument = argv0Option then
      match rest with
      | [] => .incomplete
      | value :: rest => ldSoRead (some value) libraryPath rest
    else if argument = libraryPathOption then
      match rest with
      | [] => .incomplete
      | value :: rest => ldSoRead argv0 (some value) rest
    else if cstr "--" <+: argument then .option argument
    else .run argument argv0 libraryPath rest

section

variable {argument value program : CString} {argv0 libraryPath argv0' libraryPath' : Option CString}
  {arguments rest : List CString}

@[simp] lemma ldSoRead_inhibitCache :
    ldSoRead argv0 libraryPath (inhibitCacheOption :: rest) = ldSoRead argv0 libraryPath rest := by
  rw [ldSoRead.eq_def]
  exact if_pos rfl

@[simp] lemma ldSoRead_argv0 :
    ldSoRead argv0 libraryPath (argv0Option :: value :: rest) =
      ldSoRead (some value) libraryPath rest := by
  rw [ldSoRead, if_neg (by decide), if_pos rfl]

@[simp] lemma ldSoRead_libraryPath :
    ldSoRead argv0 libraryPath (libraryPathOption :: value :: rest) =
      ldSoRead argv0 (some value) rest := by
  rw [ldSoRead, if_neg (by decide), if_neg (by decide), if_pos rfl]

/-- An argument that does not look like an option is the program. -/
lemma ldSoRead_program (h : ¬ cstr "--" <+: argument) :
    ldSoRead argv0 libraryPath (argument :: rest) = .run argument argv0 libraryPath rest := by
  have hne : ∀ name, cstr "--" <+: name → argument ≠ name := by
    rintro name hname rfl
    exact h hname
  rw [ldSoRead.eq_def]
  simp only [if_neg (hne inhibitCacheOption (by decide)), if_neg (hne argv0Option (by decide)),
    if_neg (hne libraryPathOption (by decide)), if_neg h]

/-- The program never looks like an option. -/
lemma not_option_of_ldSoRead
    (h : ldSoRead argv0 libraryPath arguments = .run program argv0' libraryPath' rest) :
    ¬ cstr "--" <+: program := by
  fun_induction ldSoRead argv0 libraryPath arguments with
  | case1 => cases h
  | case2 argv0 libraryPath rest ih => exact ih h
  | case3 => cases h
  | case4 argv0 libraryPath _ value rest ih => exact ih h
  | case5 => cases h
  | case6 argv0 libraryPath _ _ value rest ih => exact ih h
  | case7 => cases h
  | case8 argv0 libraryPath argument rest _ _ _ hoption =>
    cases h
    exact hoption

end

/-- The loader comes to the launched file with the name and the library path it is to use. -/
lemma ldSoRead_loaderArguments (loader launchFilename : CString) (libraryPath : Option CString)
    (argv : List CString) :
    ldSoRead none none (loaderArguments loader launchFilename libraryPath argv).pointers.tail =
      ldSoRead (some (argv.head?.getD launchFilename))
        (libraryPath.filter fun path => charAt path 0 != 0) (launchFilename :: argv.drop 1) := by
  cases libraryPath with
  | none => simp [loaderArguments]
  | some path =>
    by_cases hpath : charAt path 0 = 0
    · simp [loaderArguments, hpath, Option.filter]
    · simp [loaderArguments, hpath, Option.filter]

lemma loaderArguments_fits (loader launchFilename : CString) (libraryPath : Option CString)
    (argv : List CString) : (loaderArguments loader launchFilename libraryPath argv).Fits := by
  have hoption : (match libraryPath with
      | none => []
      | some path => if charAt path 0 ≠ 0 then [libraryPathOption, path] else []).length ≤ 2 := by
    cases libraryPath with
    | none => simp
    | some path =>
      simp only
      split_ifs <;> simp
  simp only [PointerVector.Fits, loaderArguments, List.length_append, List.length_cons,
    List.length_nil, List.length_drop]
  omega

/-- The loader reads back what the caller passed exactly if the launched file does not look like
an option; the vector fits its allocation in any case. -/
theorem loader_arguments_read {sys : ExecSystem} {filename : CString} {argv : List CString}
    {envp : EnvVector} {invocation : LoaderInvocation}
    (h : buildLoaderArguments sys filename argv envp = .yes invocation) :
    invocation.arguments.Fits ∧
      (ldSoRead none none invocation.arguments.pointers.tail =
          .run (redirectExecPath sys filename envp)
            (some (argv.head?.getD (redirectExecPath sys filename envp)))
            ((environmentValue envp libraryPathName).filter fun path => charAt path 0 != 0)
            argv.tail ↔
        ¬ cstr "--" <+: redirectExecPath sys filename envp) := by
  obtain ⟨-, originalPath, -, rfl⟩ := buildLoaderArguments_eq_yes.mp h
  refine ⟨loaderArguments_fits _ _ _ _, ?_⟩
  rw [ldSoRead_loaderArguments]
  constructor
  · exact not_option_of_ldSoRead
  · intro hoption
    rw [ldSoRead_program hoption, List.drop_one]

/-- A program for AArch64 with the interpreter `/i`. -/
def guestImage : List UInt8 :=
  elfMagic ++ [2, 1] ++ List.replicate 12 0 ++ [183, 0] ++ List.replicate 12 0 ++
    [64, 0, 0, 0, 0, 0, 0, 0] ++ List.replicate 14 0 ++ [56, 0, 1, 0] ++ List.replicate 6 0 ++
    [3, 0, 0, 0, 0, 0, 0, 0, 120, 0, 0, 0, 0, 0, 0, 0] ++ List.replicate 16 0 ++
    [3, 0, 0, 0, 0, 0, 0, 0] ++ List.replicate 16 0 ++ cstr "/i" ++ [0]

/-- A file system with that one program. -/
def guestSystem (file : CString) : ExecSystem where
  machine := .aarch64
  fs := {
    node := fun path => if path = file then some ⟨true, true, true, guestImage⟩ else none
    realpath := fun path => .ok (slash :: path) }
  environ := some []

/-- Programs with the interpreter `/i` are run by the loader `/l`. -/
def guestEnvironment : EnvVector :=
  some [cstr "TGCOMPAT_LD_SO=/l", cstr "TGCOMPAT_EXEC_MATCH_INTERPRETER=/i", cstr "LD_PRELOAD=/p"]

/-- The file `--x` is wrapped, and the loader takes it for an option. -/
theorem dashed_file_read_as_option :
    ∃ invocation, buildLoaderArguments (guestSystem (cstr "--x")) (cstr "--x") [cstr "a"]
        guestEnvironment = .yes invocation ∧
      ldSoRead none none invocation.arguments.pointers.tail = .option (cstr "--x") :=
  ⟨_, buildLoaderArguments_eq_yes.mpr ⟨by decide +kernel, _, rfl, rfl⟩, by decide +kernel⟩

theorem loader_arguments_read_guest :
    ∃ invocation, buildLoaderArguments (guestSystem (cstr "x")) (cstr "x") [cstr "a", cstr "b"]
        guestEnvironment = .yes invocation ∧
      ldSoRead none none invocation.arguments.pointers.tail =
        .run (cstr "x") (some (cstr "a")) none [cstr "b"] := by
  refine ⟨_, buildLoaderArguments_eq_yes.mpr ⟨by decide +kernel, _, rfl, rfl⟩, ?_⟩
  exact (loader_arguments_read (buildLoaderArguments_eq_yes.mpr
    ⟨by decide +kernel, _, rfl, rfl⟩)).2.mpr (by decide +kernel)

end Tgcompat
