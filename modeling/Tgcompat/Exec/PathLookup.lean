import Tgcompat.Exec.Loader

/-!
# Executing a program by its name

The entry points of `exec_shim.c`, as what they hand to the kernel: a path, an argument vector and
an environment. A direct call wraps the program, or redirects it and may override its environment.
A call that searches `PATH` looks for a candidate to wrap and runs it like a direct call; without
one it leaves the search to libc, which calls the kernel with its arguments as they are. The last
section is about the variable that disables the shim.
-/

namespace Tgcompat

/-- What the kernel is asked to execute. -/
structure Invocation where
  path : CString
  argv : List CString
  envp : EnvVector
  deriving DecidableEq, Repr

def colon : UInt8 := 58

def pathName : CString := cstr "PATH"

/-! ### Direct execution -/

def execve (sys : ExecSystem) (filename : CString) (argv : List CString) (envp : EnvVector) :
    Except Int32 Invocation :=
  match buildLoaderArguments sys filename argv envp with
  | .no =>
    match buildFinalEnvironment sys.environ filename envp with
    | .error errno => .error errno
    | .ok none => .ok ⟨redirectExecPath sys filename envp, argv, envp⟩
    | .ok (some values) =>
      .ok ⟨redirectExecPath sys filename envp, argv, some values.pointers⟩
  | .error errno => .error errno
  | .yes invocation =>
    .ok ⟨invocation.arguments.pointers.headD [], invocation.arguments.pointers,
      some invocation.environment.pointers⟩

/-- The errno that a spawn returns. -/
def spawnError (errno : Int32) : Int32 := if errno ≠ 0 then errno else ENOMEM

def spawnWrapped (sys : ExecSystem) (path : CString) (argv : List CString) (envp : EnvVector) :
    Except Int32 Invocation :=
  match buildLoaderArguments sys path argv envp with
  | .error errno => .error (spawnError errno)
  | .no =>
    match buildFinalEnvironment sys.environ path envp with
    | .error errno => .error (spawnError errno)
    | .ok none => .ok ⟨redirectExecPath sys path envp, argv, envp⟩
    | .ok (some values) => .ok ⟨redirectExecPath sys path envp, argv, some values.pointers⟩
  | .yes invocation =>
    .ok ⟨invocation.arguments.pointers.headD [], invocation.arguments.pointers,
      some invocation.environment.pointers⟩

def posixSpawn (sys : ExecSystem) (path : CString) (argv : List CString) (envp : EnvVector) :
    Except Int32 Invocation :=
  spawnWrapped sys path argv envp

/-! ### The search -/

/-- The file in a directory of `PATH`; an empty component is the current directory. -/
def pathCandidate (file directory : CString) : CString :=
  if directory.length = 0 then file else directory ++ slash :: file

def pathCandidates (sys : ExecSystem) (file : CString) : List CString :=
  (((environmentValue sys.environ pathName).getD (cstr "/bin:/usr/bin")).splitOn colon).map
    (pathCandidate file)

def findMatchingPath (sys : ExecSystem) (file : CString) (envp : EnvVector) : Option CString :=
  if slash ∈ file then (if shouldWrap sys file envp then some file else none)
  else
    (pathCandidates sys file).find? fun candidate =>
      sys.fs.accessExecutable candidate && shouldWrap sys candidate envp

/-- The search of libc: the first candidate that the kernel agrees to run. -/
def libcSearch (sys : ExecSystem) (file : CString) : Option CString :=
  (pathCandidates sys file).find? sys.fs.executableFile

/-- The `execvpe` and the `posix_spawnp` of libc, which call the kernel directly. -/
def libcRun (sys : ExecSystem) (file : CString) (argv : List CString) (envp : EnvVector) :
    Except Int32 Invocation :=
  match libcSearch sys file with
  | none => .error ENOENT
  | some path => .ok ⟨path, argv, envp⟩

def execvpe (sys : ExecSystem) (file : CString) (argv : List CString) (envp : EnvVector) :
    Except Int32 Invocation :=
  if slash ∈ file then execve sys file argv envp
  else
    match findMatchingPath sys file envp with
    | some candidate => execve sys candidate argv envp
    | none => libcRun sys file argv envp

def posixSpawnp (sys : ExecSystem) (file : CString) (argv : List CString) (envp : EnvVector) :
    Except Int32 Invocation :=
  if slash ∈ file then spawnWrapped sys file argv envp
  else
    match findMatchingPath sys file envp with
    | none => libcRun sys file argv envp
    | some candidate => spawnWrapped sys candidate argv envp

variable {sys : ExecSystem} {file path : CString} {argv : List CString} {envp : EnvVector}

/-- A spawn hands the kernel what `execve` does. -/
lemma spawnWrapped_toOption (sys : ExecSystem) (path : CString) (argv : List CString)
    (envp : EnvVector) :
    (spawnWrapped sys path argv envp).toOption = (execve sys path argv envp).toOption := by
  unfold spawnWrapped execve
  cases buildLoaderArguments sys path argv envp with
  | error errno => rfl
  | yes invocation => rfl
  | no =>
    cases buildFinalEnvironment sys.environ path envp with
    | error errno => rfl
    | ok values =>
      cases values with
      | none => rfl
      | some values => rfl

/-! ### The candidate that is wrapped -/

/-- A stricter search that accepts the first find of a search finds it too. -/
lemma find?_eq_of_imp {α : Type*} {p q : α → Bool} {l : List α} {a : α}
    (himp : ∀ b, q b = true → p b = true) (hfind : l.find? p = some a) (ha : q a = true) :
    l.find? q = some a := by
  obtain ⟨-, before, after, rfl, hbefore⟩ := List.find?_eq_some_iff_append.mp hfind
  refine List.find?_eq_some_iff_append.mpr ⟨ha, before, after, rfl, fun b hb => ?_⟩
  have hnot := hbefore b hb
  simp only [Bool.not_eq_true'] at hnot ⊢
  exact eq_false_of_ne_true fun hq => absurd (himp b hq) (by simp [hnot])

lemma openRegular_of_shouldWrap (h : shouldWrap sys path envp = true) :
    ∃ content, sys.fs.openRegular path = some content := by
  unfold shouldWrap readElfInterpreter at h
  cases hopen : sys.fs.openRegular path with
  | none =>
    rw [hopen] at h
    cases hloader : environmentValue envp ldSoName with
    | none => simp [hloader] at h
    | some loader => simp [hloader] at h
  | some content => exact ⟨content, rfl⟩

/-- Only a regular file is wrapped, so a candidate for wrapping is one the kernel would run. -/
lemma executableFile_of_wrapped
    (h : (sys.fs.accessExecutable path && shouldWrap sys path envp) = true) :
    sys.fs.executableFile path = true := by
  rw [Bool.and_eq_true] at h
  obtain ⟨content, hopen⟩ := openRegular_of_shouldWrap h.2
  have haccess := h.1
  unfold FileSystem.openRegular at hopen
  unfold FileSystem.accessExecutable at haccess
  unfold FileSystem.executableFile
  cases hnode : sys.fs.node path with
  | none =>
    rw [hnode] at haccess
    cases haccess
  | some node =>
    simp only [hnode, Option.ite_none_right_eq_some, Bool.and_eq_true] at hopen haccess ⊢
    exact ⟨hopen.1.2, haccess⟩

/-- The shim finds the program of libc if that is wrapped. -/
lemma findMatchingPath_eq (hslash : slash ∉ file) (hsearch : libcSearch sys file = some path)
    (hwrap : shouldWrap sys path envp = true) : findMatchingPath sys file envp = some path := by
  have hexecutable : sys.fs.executableFile path = true := List.find?_some hsearch
  rw [findMatchingPath, if_neg hslash]
  refine find?_eq_of_imp (fun candidate => executableFile_of_wrapped) hsearch ?_
  rw [FileSystem.accessExecutable_of_executableFile hexecutable, hwrap]
  rfl

/-! ### The final environment -/

/-- `TGCOMPAT_EXEC_FINAL_PATH_PREFIX` names an absolute directory, with a slash at its end, and the
file is under it. -/
def UnderFinalPath (environ : EnvVector) (filename : CString) (envp : EnvVector) : Prop :=
  charAt filename 0 = slash ∧ ∃ root,
    configuredEnvironmentValue environ envp finalPathPrefixName = some root ∧
      charAt root 0 = slash ∧ 1 < root.length ∧ charAt root (root.length - 1) = slash ∧
      root <+: filename

/-- The final environment cannot be built: `TGCOMPAT_EXEC_FINAL_LD_PRELOAD` is missing, or there is
no environment to start from. -/
def FinalMissing (environ envp : EnvVector) : Prop :=
  configuredEnvironmentValue environ envp finalLdPreloadName = none ∨ envp = none

/-- The final environment is the given one: `TGCOMPAT_EXEC_FINAL_LD_PRELOAD` and
`TGCOMPAT_EXEC_FINAL_PROC_SELF_EXE`, where they are set, assign what the last entries do already. -/
def KeepsEntries (environ envp : EnvVector) : Prop :=
  ∃ preload entries, configuredEnvironmentValue environ envp finalLdPreloadName = some preload ∧
    envp = some entries ∧
    Assignments.override equalsSign entries
      (finalReplaced preload (configuredEnvironmentValue environ envp finalProcSelfExeName)) =
        entries

/-- The file is not under the final path, or the final environment is the given one. -/
def KeepsEnvironment (environ : EnvVector) (filename : CString) (envp : EnvVector) : Prop :=
  UnderFinalPath environ filename envp → KeepsEntries environ envp

/-- The environment of a program that is not wrapped. -/
def finalEnvironment (environ : EnvVector) (filename : CString) (envp : EnvVector) : EnvVector :=
  match buildFinalEnvironment environ filename envp with
  | .ok (some values) => some values.pointers
  | _ => envp

variable {environ : EnvVector} {candidate : CString}

lemma finalPathMatches_iff :
    finalPathMatches environ path envp = true ↔ UnderFinalPath environ path envp := by
  rw [finalPathMatches, UnderFinalPath]
  cases configuredEnvironmentValue environ envp finalPathPrefixName with
  | none => simp
  | some root =>
    have hstarts : strncmpEq path root root.length = true ↔ root <+: path := by
      rw [strncmpEq, decide_eq_true_iff, List.take_length, List.prefix_iff_eq_take, eq_comm]
    simp [hstarts, and_assoc]

lemma not_finalMissing {preload : CString} {entries : List CString}
    (hpreload : configuredEnvironmentValue environ envp finalLdPreloadName = some preload)
    (henvp : envp = some entries) : ¬ FinalMissing environ envp := by
  rintro (hnone | hnone)
  · cases hpreload.symm.trans hnone
  · cases henvp.symm.trans hnone

/-- What `build_final_environment` does, by its variables. -/
lemma buildFinalEnvironment_cases (environ : EnvVector) (path : CString) (envp : EnvVector) :
    (¬ UnderFinalPath environ path envp ∧ buildFinalEnvironment environ path envp = .ok none) ∨
    (UnderFinalPath environ path envp ∧ FinalMissing environ envp ∧
      buildFinalEnvironment environ path envp = .error EINVAL) ∨
    (UnderFinalPath environ path envp ∧ ∃ preload entries values,
      configuredEnvironmentValue environ envp finalLdPreloadName = some preload ∧
        envp = some entries ∧ buildFinalEnvironment environ path envp = .ok (some values) ∧
        values.pointers = Assignments.override equalsSign entries (finalReplaced preload
          (configuredEnvironmentValue environ envp finalProcSelfExeName))) := by
  rw [← finalPathMatches_iff]
  by_cases hmatch : finalPathMatches environ path envp = true
  · refine Or.inr ?_
    cases hpreload : configuredEnvironmentValue environ envp finalLdPreloadName with
    | none =>
      refine Or.inl ⟨hmatch, Or.inl hpreload, ?_⟩
      simp [buildFinalEnvironment, hmatch, hpreload]
    | some preload =>
      cases envp with
      | none =>
        refine Or.inl ⟨hmatch, Or.inr rfl, ?_⟩
        simp [buildFinalEnvironment, hmatch, hpreload]
      | some entries =>
        have hbuild : ∃ values, buildFinalEnvironment environ path (some entries) =
            .ok (some values) := by
          simp [buildFinalEnvironment, hmatch, hpreload]
        obtain ⟨values, hbuild⟩ := hbuild
        obtain ⟨preload', hpreload', hrewrites⟩ := buildFinalEnvironment_eq_some hbuild
        cases hpreload.symm.trans hpreload'
        exact Or.inr ⟨hmatch, preload, entries, values, rfl, rfl, hbuild, hrewrites.pointers⟩
  · exact Or.inl ⟨hmatch, by simp [buildFinalEnvironment, hmatch]⟩

lemma finalEnvironment_of_not_under (h : ¬ UnderFinalPath environ path envp) :
    finalEnvironment environ path envp = envp := by
  simp [finalEnvironment, buildFinalEnvironment, mt finalPathMatches_iff.mp h]

/-- The environment of a file under the final path. -/
lemma finalEnvironment_eq_self_iff (hunder : UnderFinalPath environ path envp)
    (hmissing : ¬ FinalMissing environ envp) :
    finalEnvironment environ path envp = envp ↔ KeepsEntries environ envp := by
  rcases buildFinalEnvironment_cases environ path envp with ⟨hnot, -⟩ | ⟨-, hmissing', -⟩ |
    ⟨-, preload, entries, values, hpreload, henvp, hbuild, hpointers⟩
  · exact absurd hunder hnot
  · exact absurd hmissing' hmissing
  · rw [finalEnvironment, hbuild, KeepsEntries, hpreload]
    simp only [hpointers, henvp, Option.some.injEq]
    constructor
    · exact fun heq => ⟨preload, entries, rfl, rfl, heq⟩
    · rintro ⟨_, _, rfl, rfl, heq⟩
      exact heq

lemma finalEnvironment_eq_keeps
    (hfinal : ¬ (UnderFinalPath environ path envp ∧ FinalMissing environ envp)) :
    finalEnvironment environ path envp = envp ↔ KeepsEnvironment environ path envp := by
  by_cases hunder : UnderFinalPath environ path envp
  · rw [finalEnvironment_eq_self_iff hunder fun hmissing => hfinal ⟨hunder, hmissing⟩]
    exact ⟨fun hkeeps _ => hkeeps, fun hkeeps => hkeeps hunder⟩
  · exact iff_of_true (finalEnvironment_of_not_under hunder) fun h => absurd h hunder

/-- The environments of two files are the same if both are under the final path or neither is, or
if it makes no difference. -/
lemma finalEnvironment_eq_iff
    (hcandidate : ¬ (UnderFinalPath environ candidate envp ∧ FinalMissing environ envp))
    (hpath : ¬ (UnderFinalPath environ path envp ∧ FinalMissing environ envp)) :
    finalEnvironment environ candidate envp = finalEnvironment environ path envp ↔
      (UnderFinalPath environ candidate envp ↔ UnderFinalPath environ path envp) ∨
        KeepsEntries environ envp := by
  by_cases hunder : UnderFinalPath environ candidate envp <;>
    by_cases hunder' : UnderFinalPath environ path envp
  · have hsame : finalEnvironment environ candidate envp = finalEnvironment environ path envp := by
      rw [finalEnvironment, finalEnvironment, buildFinalEnvironment, buildFinalEnvironment,
        finalPathMatches_iff.mpr hunder, finalPathMatches_iff.mpr hunder']
    simp [hunder, hunder', hsame]
  · rw [finalEnvironment_of_not_under hunder',
      finalEnvironment_eq_self_iff hunder fun h => hcandidate ⟨hunder, h⟩]
    simp [hunder, hunder']
  · rw [finalEnvironment_of_not_under hunder, eq_comm,
      finalEnvironment_eq_self_iff hunder' fun h => hpath ⟨hunder', h⟩]
    simp [hunder, hunder']
  · rw [finalEnvironment_of_not_under hunder, finalEnvironment_of_not_under hunder']
    simp [hunder, hunder']

/-! ### Execution of the program that libc would run -/

/-- A direct call of the path fails before it reaches the kernel: the file to wrap has no canonical
name, or the final environment cannot be built. -/
def Refused (sys : ExecSystem) (path : CString) (envp : EnvVector) : Prop :=
  if shouldWrap sys (redirectExecPath sys path envp) envp = true then
    ∃ errno, sys.fs.realpath (redirectExecPath sys path envp) = .error errno
  else UnderFinalPath sys.environ path envp ∧ FinalMissing sys.environ envp

/-- The policies treat two files alike: both are refused, or neither is, both are redirected to one
file, and that is wrapped or the final environment is the same for both. -/
def SameLaunch (sys : ExecSystem) (candidate path : CString) (envp : EnvVector) : Prop :=
  (Refused sys candidate envp ∧ Refused sys path envp) ∨
    (¬ Refused sys candidate envp ∧ ¬ Refused sys path envp ∧
      redirectExecPath sys candidate envp = redirectExecPath sys path envp ∧
      (shouldWrap sys (redirectExecPath sys path envp) envp = true ∨
        (UnderFinalPath sys.environ candidate envp ↔ UnderFinalPath sys.environ path envp) ∨
        KeepsEntries sys.environ envp))

/-- The vector of the loader is longer than the one it is made from. -/
lemma loaderArguments_ne (loader launchFilename : CString) (libraryPath : Option CString)
    (argv : List CString) :
    (loaderArguments loader launchFilename libraryPath argv).pointers ≠ argv := by
  intro heq
  have hlength := congrArg List.length heq
  simp only [loaderArguments, List.length_append, List.length_cons, List.length_drop] at hlength
  omega

/-- The vector of the loader tells which file is launched. -/
lemma launchFilename_of_loaderArguments {loader launch launch' : CString}
    {libraryPath : Option CString}
    (h : (loaderArguments loader launch libraryPath argv).pointers =
      (loaderArguments loader launch' libraryPath argv).pointers) : launch = launch' := by
  simp only [loaderArguments, List.append_assoc] at h
  obtain ⟨-, h⟩ := List.append_inj h rfl
  exact (List.cons.inj (List.append_cancel_left h)).1

/-- What a direct call hands over for a file that is wrapped. -/
lemma execve_of_wrap (hwrap : shouldWrap sys (redirectExecPath sys path envp) envp = true) :
    (execve sys path argv envp).toOption =
      (sys.fs.realpath (redirectExecPath sys path envp)).toOption.map fun originalPath =>
        let arguments := (loaderArguments ((environmentValue envp ldSoName).getD [])
          (redirectExecPath sys path envp) (environmentValue envp libraryPathName) argv).pointers
        ⟨arguments.headD [], arguments, some (loaderEnvironment
          (configuredEnvironmentValue sys.environ envp execLdPreloadName) originalPath
          envp).pointers⟩ := by
  simp only [execve, buildLoaderArguments, hwrap, Bool.true_eq_false, if_false]
  cases sys.fs.realpath (redirectExecPath sys path envp) with
  | error errno => rfl
  | ok originalPath => rfl

/-- What a direct call hands over for a file that is not wrapped. -/
lemma execve_of_not_wrap
    (hwrap : ¬ shouldWrap sys (redirectExecPath sys path envp) envp = true)
    (hfinal : ¬ (UnderFinalPath sys.environ path envp ∧ FinalMissing sys.environ envp)) :
    (execve sys path argv envp).toOption =
      some ⟨redirectExecPath sys path envp, argv, finalEnvironment sys.environ path envp⟩ := by
  simp only [execve, buildLoaderArguments, Bool.not_eq_true _ ▸ hwrap, if_true, finalEnvironment]
  rcases buildFinalEnvironment_cases sys.environ path envp with ⟨-, hbuild⟩ |
    ⟨hunder, hmissing, -⟩ | ⟨-, preload, entries, values, -, -, hbuild, -⟩
  · rw [hbuild]
    rfl
  · exact absurd ⟨hunder, hmissing⟩ hfinal
  · rw [hbuild]
    rfl

/-- A call is refused exactly if nothing reaches the kernel. -/
lemma execve_eq_none_iff : (execve sys path argv envp).toOption = none ↔ Refused sys path envp := by
  rw [Refused]
  split_ifs with hwrap
  · rw [execve_of_wrap hwrap]
    cases sys.fs.realpath (redirectExecPath sys path envp) with
    | error errno => simp [Except.toOption]
    | ok originalPath => simp [Except.toOption]
  · by_cases hfinal : UnderFinalPath sys.environ path envp ∧ FinalMissing sys.environ envp
    · refine iff_of_true ?_ hfinal
      rcases buildFinalEnvironment_cases sys.environ path envp with ⟨hnot, -⟩ | ⟨-, -, hbuild⟩ |
        ⟨-, preload, entries, values, hpreload, henvp, -, -⟩
      · exact absurd hfinal.1 hnot
      · simp [execve, buildLoaderArguments, hwrap, hbuild, Except.toOption]
      · exact absurd hfinal.2 (not_finalMissing hpreload henvp)
    · rw [execve_of_not_wrap hwrap hfinal]
      exact iff_of_false (Option.some_ne_none _) hfinal

lemma exists_realpath (hwrap : shouldWrap sys (redirectExecPath sys path envp) envp = true)
    (hrefused : ¬ Refused sys path envp) :
    ∃ original, sys.fs.realpath (redirectExecPath sys path envp) = .ok original := by
  rw [Refused, if_pos hwrap] at hrefused
  cases hreal : sys.fs.realpath (redirectExecPath sys path envp) with
  | error errno => exact absurd ⟨errno, hreal⟩ hrefused
  | ok original => exact ⟨original, rfl⟩

/-- The vector of a wrapped program tells its file, so two of them are launched alike only if they
are redirected to one file. -/
lemma execve_eq_iff_of_wrap (argv : List CString)
    (hwrap : shouldWrap sys (redirectExecPath sys candidate envp) envp = true)
    (hwrap' : shouldWrap sys (redirectExecPath sys path envp) envp = true)
    (hrefused : ¬ Refused sys candidate envp) (hrefused' : ¬ Refused sys path envp) :
    (execve sys candidate argv envp).toOption = (execve sys path argv envp).toOption ↔
      redirectExecPath sys candidate envp = redirectExecPath sys path envp := by
  obtain ⟨original, hreal⟩ := exists_realpath hwrap hrefused
  obtain ⟨original', hreal'⟩ := exists_realpath hwrap' hrefused'
  rw [execve_of_wrap hwrap, execve_of_wrap hwrap', hreal, hreal']
  constructor
  · intro heq
    exact launchFilename_of_loaderArguments (congrArg Invocation.argv (Option.some.inj heq))
  · intro hredirect
    rw [hredirect] at hreal
    cases hreal.symm.trans hreal'
    rw [hredirect]

/-- A wrapped program gets a longer vector than one that is not. -/
lemma execve_ne_of_wrap (argv : List CString)
    (hwrap : shouldWrap sys (redirectExecPath sys candidate envp) envp = true)
    (hwrap' : ¬ shouldWrap sys (redirectExecPath sys path envp) envp = true)
    (hrefused : ¬ Refused sys candidate envp) (hrefused' : ¬ Refused sys path envp) :
    (execve sys candidate argv envp).toOption ≠ (execve sys path argv envp).toOption := by
  obtain ⟨original, hreal⟩ := exists_realpath hwrap hrefused
  rw [Refused, if_neg hwrap'] at hrefused'
  rw [execve_of_wrap hwrap, hreal, execve_of_not_wrap hwrap' hrefused']
  intro heq
  exact loaderArguments_ne _ _ _ _ (congrArg Invocation.argv (Option.some.inj heq))

/-- Direct calls of two files hand over the same exactly if the policies treat them alike. -/
lemma execve_eq_iff (argv : List CString) :
    (execve sys candidate argv envp).toOption = (execve sys path argv envp).toOption ↔
      SameLaunch sys candidate path envp := by
  by_cases hrefused : Refused sys candidate envp <;> by_cases hrefused' : Refused sys path envp
  · rw [execve_eq_none_iff.mpr hrefused, execve_eq_none_iff.mpr hrefused']
    exact iff_of_true rfl (Or.inl ⟨hrefused, hrefused'⟩)
  · rw [execve_eq_none_iff.mpr hrefused, eq_comm, execve_eq_none_iff, SameLaunch]
    simp [hrefused, hrefused']
  · rw [execve_eq_none_iff.mpr hrefused', execve_eq_none_iff, SameLaunch]
    simp [hrefused, hrefused']
  -- both calls reach the kernel
  simp only [SameLaunch, hrefused, hrefused', and_self, false_or, not_false_eq_true, true_and]
  by_cases hwrap : shouldWrap sys (redirectExecPath sys candidate envp) envp = true <;>
    by_cases hwrap' : shouldWrap sys (redirectExecPath sys path envp) envp = true
  · rw [execve_eq_iff_of_wrap argv hwrap hwrap' hrefused hrefused']
    simp only [hwrap', true_or, and_true]
  · exact iff_of_false (execve_ne_of_wrap argv hwrap hwrap' hrefused hrefused')
      fun h => hwrap' (h.1 ▸ hwrap)
  · exact iff_of_false (execve_ne_of_wrap argv hwrap' hwrap hrefused' hrefused).symm
      fun h => hwrap (h.1 ▸ hwrap')
  · rw [Refused, if_neg hwrap] at hrefused
    rw [Refused, if_neg hwrap'] at hrefused'
    rw [execve_of_not_wrap hwrap hrefused, execve_of_not_wrap hwrap' hrefused',
      ← finalEnvironment_eq_iff hrefused hrefused']
    simp [hwrap']

/-- A direct call hands over its own arguments when the program is neither wrapped nor redirected
and keeps its environment. -/
lemma execve_unchanged_iff (hwrap : shouldWrap sys path envp = false) :
    (execve sys path argv envp).toOption = some ⟨path, argv, envp⟩ ↔
      redirectExecPath sys path envp = path ∧ KeepsEnvironment sys.environ path envp := by
  by_cases hlaunch : shouldWrap sys (redirectExecPath sys path envp) envp = true
  · have hredirect : redirectExecPath sys path envp ≠ path := by
      intro hredirect
      rw [hredirect, hwrap] at hlaunch
      cases hlaunch
    rw [execve_of_wrap hlaunch]
    refine iff_of_false (fun heq => ?_) fun h => hredirect h.1
    obtain ⟨original, -, heq⟩ := Option.map_eq_some_iff.mp heq
    exact loaderArguments_ne _ _ _ _ (congrArg Invocation.argv heq)
  · by_cases hfinal : UnderFinalPath sys.environ path envp ∧ FinalMissing sys.environ envp
    · rw [execve_eq_none_iff.mpr (by rwa [Refused, if_neg hlaunch])]
      refine iff_of_false (Option.some_ne_none _).symm fun h => ?_
      obtain ⟨preload, entries, hpreload, henvp, -⟩ := h.2 hfinal.1
      exact not_finalMissing hpreload henvp hfinal.2
    · rw [execve_of_not_wrap hlaunch hfinal, ← finalEnvironment_eq_keeps hfinal]
      simp

/-- For a name without a slash, let `path` be the program that libc would run. The calls that
search `PATH` hand the kernel what the direct calls of `path` do exactly if `path` is wrapped, or
another candidate is and the policies treat both alike, or none is and `path` is neither redirected
nor given another environment. -/
theorem path_lookup_agrees {sys : ExecSystem} {file path : CString} (hslash : slash ∉ file)
    (hsearch : libcSearch sys file = some path) (argv : List CString) (envp : EnvVector) :
    ((execvpe sys file argv envp).toOption = (execve sys path argv envp).toOption ∧
        (posixSpawnp sys file argv envp).toOption = (posixSpawn sys path argv envp).toOption) ↔
      shouldWrap sys path envp = true ∨
        (∃ candidate, findMatchingPath sys file envp = some candidate ∧
          SameLaunch sys candidate path envp) ∨
        (findMatchingPath sys file envp = none ∧ redirectExecPath sys path envp = path ∧
          KeepsEnvironment sys.environ path envp) := by
  simp only [execvpe, posixSpawnp, posixSpawn, if_neg hslash]
  cases hmatch : findMatchingPath sys file envp with
  | some candidate =>
    simp only [spawnWrapped_toOption, and_self, Option.some.injEq, exists_eq_left',
      reduceCtorEq, false_and, or_false, execve_eq_iff]
    constructor
    · exact Or.inr
    · rintro (hwrap | hsame)
      · rw [findMatchingPath_eq hslash hsearch hwrap, Option.some.injEq] at hmatch
        rw [← hmatch, ← execve_eq_iff argv]
      · exact hsame
  | none =>
    have hwrap : shouldWrap sys path envp = false := by
      by_contra hwrap
      rw [findMatchingPath_eq hslash hsearch (eq_true_of_ne_false hwrap)] at hmatch
      cases hmatch
    have hrun : (libcRun sys file argv envp).toOption = some ⟨path, argv, envp⟩ := by
      rw [libcRun, hsearch]
      rfl
    simp only [spawnWrapped_toOption, and_self, hwrap, reduceCtorEq, false_and, exists_false,
      false_or, true_and, hrun]
    rw [eq_comm, execve_unchanged_iff hwrap]

/-- A shell in `/bin`, the only directory of `PATH`. -/
def shellSystem : ExecSystem where
  machine := .aarch64
  fs := {
    node := fun path => if path = cstr "/bin/sh" then some ⟨true, true, true, []⟩ else none
    realpath := fun path => .ok path }
  environ := some [cstr "PATH=/bin"]

/-- The policy that another shell takes its place. -/
def shellPolicy : EnvVector := some [cstr "TGCOMPAT_EXEC_SHELL=/g/sh"]

/-- By its path the shell is redirected, by its name it is not. -/
theorem shell_by_name_not_redirected :
    libcSearch shellSystem (cstr "sh") = some (cstr "/bin/sh") ∧
      (execve shellSystem (cstr "/bin/sh") [cstr "sh"] shellPolicy).toOption =
        some ⟨cstr "/g/sh", [cstr "sh"], shellPolicy⟩ ∧
      (execvpe shellSystem (cstr "sh") [cstr "sh"] shellPolicy).toOption =
        some ⟨cstr "/bin/sh", [cstr "sh"], shellPolicy⟩ ∧
      (posixSpawnp shellSystem (cstr "sh") [cstr "sh"] shellPolicy).toOption =
        some ⟨cstr "/bin/sh", [cstr "sh"], shellPolicy⟩ := by
  decide +kernel

/-- A wrapped program is run in one way by its path and by its name. -/
theorem path_lookup_agrees_guest :
    (execvpe (guestSystem (cstr "/bin/x")) (cstr "x") [cstr "x"] guestEnvironment).toOption =
      (execve (guestSystem (cstr "/bin/x")) (cstr "/bin/x") [cstr "x"]
        guestEnvironment).toOption :=
  ((path_lookup_agrees (by decide) (by decide +kernel) [cstr "x"] guestEnvironment).mpr
    (Or.inl (by decide +kernel))).1

/-! ### The bypass -/

/-- `TGCOMPAT_EXEC_PATH_FROM` and `TGCOMPAT_EXEC_PATH_TO` name two absolute paths. Both are read
from the environment of the child, or from that of the caller if the child has neither. -/
def PathPolicy (environ envp : EnvVector) (source target : CString) : Prop :=
  let origin :=
    if environmentValue envp pathFromName = none ∧ environmentValue envp pathToName = none then
      environ
    else envp
  environmentValue origin pathFromName = some source ∧
    environmentValue origin pathToName = some target ∧
    isAbsolute source = true ∧ isAbsolute target = true

/-- `TGCOMPAT_EXEC_SHELL` names an absolute path. -/
def ShellPolicy (environ envp : EnvVector) (target : CString) : Prop :=
  configuredEnvironmentValue environ envp shellRedirectName = some target ∧
    isAbsolute target = true

/-- The file is not redirected: where `TGCOMPAT_EXEC_PATH_FROM` names it, `TGCOMPAT_EXEC_PATH_TO` is
the file itself, and where it does not and the file is a shell, `TGCOMPAT_EXEC_SHELL` is. -/
def KeepsPath (environ : EnvVector) (filename : CString) (envp : EnvVector) : Prop :=
  (∀ target, PathPolicy environ envp filename target → target = filename) ∧
    ((∃ target, PathPolicy environ envp filename target) ∨
      (filename = cstr "/bin/sh" ∨ filename = cstr "/usr/bin/sh" →
        ∀ target, ShellPolicy environ envp target → target = filename))

/-- The last test of `redirect_configured_path`. -/
lemma configured_eq_some {source target target' : CString} :
    (if isAbsolute source && isAbsolute target && decide (path = source) then some target
      else none) = some target' ↔
      source = path ∧ target = target' ∧ isAbsolute path = true ∧ isAbsolute target' = true := by
  simp only [Option.ite_none_right_eq_some, Bool.and_eq_true, decide_eq_true_eq,
    Option.some.injEq]
  constructor
  · rintro ⟨⟨⟨hsource, htarget⟩, rfl⟩, rfl⟩
    exact ⟨rfl, rfl, hsource, htarget⟩
  · rintro ⟨rfl, rfl, hsource, htarget⟩
    exact ⟨⟨⟨hsource, htarget⟩, rfl⟩, rfl⟩

lemma redirectConfiguredPath_eq_some {target : CString} :
    redirectConfiguredPath environ path envp = some target ↔
      PathPolicy environ envp path target := by
  simp only [redirectConfiguredPath, PathPolicy]
  cases hfrom : environmentValue envp pathFromName with
  | none =>
    cases hto : environmentValue envp pathToName with
    | none =>
      cases hfrom' : environmentValue environ pathFromName with
      | none => simp [hfrom']
      | some source =>
        cases hto' : environmentValue environ pathToName with
        | none => simp [hto']
        | some target => simpa [hfrom', hto'] using configured_eq_some
    | some target => simp [hfrom]
  | some source =>
    cases hto : environmentValue envp pathToName with
    | none => simp [hto]
    | some target => simpa [hfrom, hto] using configured_eq_some

lemma redirectShellPath_eq_some {target : CString} :
    redirectShellPath environ path envp = some target ↔
      (path = cstr "/bin/sh" ∨ path = cstr "/usr/bin/sh") ∧ ShellPolicy environ envp target := by
  rw [redirectShellPath, ShellPolicy]
  by_cases hshell : path = cstr "/bin/sh" ∨ path = cstr "/usr/bin/sh"
  · rw [if_neg (by tauto)]
    cases configuredEnvironmentValue environ envp shellRedirectName with
    | none => simp
    | some redirect =>
      simp only [hshell, true_and, Option.some.injEq]
      split_ifs with habsolute
      · simp only [Option.some.injEq]
        exact ⟨fun h => ⟨h, h ▸ habsolute⟩, And.left⟩
      · simp only [false_iff]
        rintro ⟨rfl, h⟩
        exact habsolute h
  · rw [if_pos (by tauto)]
    simp [hshell]

/-- The redirects that are left once the shim is disabled keep the path. -/
lemma redirects_eq_self_iff :
    ((redirectConfiguredPath environ path envp).or (redirectShellPath environ path envp)).getD
        path = path ↔ KeepsPath environ path envp := by
  rw [KeepsPath]
  simp only [← redirectConfiguredPath_eq_some]
  cases redirectConfiguredPath environ path envp with
  | some target => simp
  | none =>
    have hshell : (path = cstr "/bin/sh" ∨ path = cstr "/usr/bin/sh" →
        ∀ target, ShellPolicy environ envp target → target = path) ↔
        ∀ target, redirectShellPath environ path envp = some target → target = path := by
      simp only [redirectShellPath_eq_some, and_imp]
      exact ⟨fun h target hsh => h hsh target, fun h hsh target => h target hsh⟩
    rw [hshell]
    cases redirectShellPath environ path envp with
    | none => simp
    | some target => simp

/-- What is left of the redirects once the shim is disabled. -/
lemma redirectExecPath_of_disabled (hdisabled : disabledByEnvironment envp = true) :
    redirectExecPath sys path envp =
      ((redirectConfiguredPath sys.environ path envp).or
        (redirectShellPath sys.environ path envp)).getD path := by
  rw [redirectExecPath]
  cases redirectConfiguredPath sys.environ path envp with
  | some redirect => rfl
  | none =>
    cases redirectShellPath sys.environ path envp with
    | some redirect => rfl
    | none => simp [hdisabled]

lemma shouldWrap_of_disabled (hdisabled : disabledByEnvironment envp = true) :
    shouldWrap sys path envp = false := by
  rw [shouldWrap]
  cases environmentValue envp ldSoName with
  | none => rfl
  | some loader => simp [hdisabled]

lemma toOption_eq_some_iff {ε α : Type*} {x : Except ε α} {a : α} :
    x.toOption = some a ↔ x = .ok a := by
  cases x <;> simp [Except.toOption]

/-- A disabled shim wraps nothing. It calls the real functions with the caller's arguments exactly
if `TGCOMPAT_EXEC_PATH_FROM` and `TGCOMPAT_EXEC_PATH_TO`, `TGCOMPAT_EXEC_SHELL` and the variables
`TGCOMPAT_EXEC_FINAL_*` leave the file and its environment alone: these policies do not ask whether
the shim is disabled. -/
theorem bypass_passes_through (sys : ExecSystem) (filename : CString) (argv : List CString)
    {envp : EnvVector} {value : CString} (hset : environmentValue envp disableName = some value)
    (hnonempty : charAt value 0 ≠ 0) (hzero : value ≠ cstr "0") :
    (∀ path, shouldWrap sys path envp = false) ∧
    ((execve sys filename argv envp = .ok ⟨filename, argv, envp⟩ ∧
        posixSpawn sys filename argv envp = .ok ⟨filename, argv, envp⟩) ↔
      KeepsPath sys.environ filename envp ∧ KeepsEnvironment sys.environ filename envp) := by
  have hdisabled : disabledByEnvironment envp = true := by
    simp [disabledByEnvironment, hset, hnonempty, hzero]
  refine ⟨fun path => shouldWrap_of_disabled hdisabled, ?_⟩
  rw [← toOption_eq_some_iff, ← toOption_eq_some_iff, posixSpawn, spawnWrapped_toOption, and_self,
    execve_unchanged_iff (shouldWrap_of_disabled hdisabled), redirectExecPath_of_disabled hdisabled,
    redirects_eq_self_iff]

/-- A program that would be wrapped is passed through. -/
theorem bypass_passes_through_guest :
    let envp : EnvVector := guestEnvironment.map (cstr "TGCOMPAT_EXEC_DISABLE=1" :: ·)
    execve (guestSystem (cstr "/bin/x")) (cstr "/bin/x") [cstr "x"] envp =
        .ok ⟨cstr "/bin/x", [cstr "x"], envp⟩ ∧
      posixSpawn (guestSystem (cstr "/bin/x")) (cstr "/bin/x") [cstr "x"] envp =
        .ok ⟨cstr "/bin/x", [cstr "x"], envp⟩ := by
  intro envp
  have hset : environmentValue envp disableName = some (cstr "1") := by decide +kernel
  refine (bypass_passes_through (guestSystem (cstr "/bin/x")) (cstr "/bin/x") [cstr "x"] hset
    (by decide) (by decide)).2.mpr ⟨redirects_eq_self_iff.mp (by decide +kernel), fun hunder => ?_⟩
  exact absurd (finalPathMatches_iff.mpr hunder) (by decide +kernel)

/-- A disabled shim still puts another shell in place of `/bin/sh`. -/
theorem disabled_shim_redirects_shell :
    let envp : EnvVector := some [cstr "TGCOMPAT_EXEC_DISABLE=1", cstr "TGCOMPAT_EXEC_SHELL=/g/sh"]
    disabledByEnvironment envp = true ∧
      (execve shellSystem (cstr "/bin/sh") [cstr "sh"] envp).toOption =
        some ⟨cstr "/g/sh", [cstr "sh"], envp⟩ ∧
      (posixSpawn shellSystem (cstr "/bin/sh") [cstr "sh"] envp).toOption =
        some ⟨cstr "/g/sh", [cstr "sh"], envp⟩ := by
  decide +kernel

end Tgcompat
