import Mathlib.Data.List.GetD
import Tgcompat.Library.Assignments
import Tgcompat.Store.Basic

/-!
# Environment vectors

The lookups of `exec_shim.c` in an environment vector, and the two places that build a new one:
for the program a loader is going to run, and for a program under the configured final path. Both
count the entries they keep, allocate, and go over the entries again to copy them; the two passes
test an entry in their own ways.
-/

namespace Tgcompat

/-- The bytes of a C string before its terminator. -/
abbrev CString := List UInt8

def cstr (s : String) : CString := s.toList.map fun c => c.val.toUInt8

/-- `strncmp(s, t, n) == 0`. -/
def strncmpEq (s t : CString) (n : ℕ) : Bool := decide (s.take n = t.take n)

/-- `s[n]`, up to the terminator. -/
def charAt (s : CString) (n : ℕ) : UInt8 := s.getD n 0

def equalsSign : UInt8 := 61

def slash : UInt8 := 47

/-- A vector of strings up to its terminating `NULL`, or `NULL` itself. -/
abbrev EnvVector := Option (List CString)

/-- An allocated vector of pointers: its slots, and what was written before the final `NULL`. -/
structure PointerVector where
  slots : ℕ
  pointers : List CString
  deriving DecidableEq, Repr

/-- The pointers and the `NULL` behind them fit into the slots. -/
def PointerVector.Fits (v : PointerVector) : Prop := v.pointers.length + 1 ≤ v.slots

def ldPreloadName : CString := cstr "LD_PRELOAD"
def procSelfExeName : CString := cstr "TGCOMPAT_PROC_SELF_EXE"
def finalPathPrefixName : CString := cstr "TGCOMPAT_EXEC_FINAL_PATH_PREFIX"
def finalLdPreloadName : CString := cstr "TGCOMPAT_EXEC_FINAL_LD_PRELOAD"
def finalProcSelfExeName : CString := cstr "TGCOMPAT_EXEC_FINAL_PROC_SELF_EXE"

/-! ### Lookup -/

def environmentValue (envp : EnvVector) (name : CString) : Option CString :=
  match envp with
  | none => none
  | some entries =>
    (entries.find? fun entry =>
      strncmpEq entry name name.length && charAt entry name.length == equalsSign).map
        fun entry => entry.drop (name.length + 1)

/-- The value in the child's environment, or else in that of the calling process. -/
def configuredEnvironmentValue (environ envp : EnvVector) (name : CString) : Option CString :=
  match environmentValue envp name with
  | some value => some value
  | none => environmentValue environ name

def finalPathMatches (environ : EnvVector) (filename : CString) (envp : EnvVector) : Bool :=
  match configuredEnvironmentValue environ envp finalPathPrefixName with
  | none => false
  | some root =>
    charAt filename 0 == slash && charAt root 0 == slash &&
      (decide (root.length > 1) && charAt root (root.length - 1) == slash &&
        strncmpEq filename root root.length)

/-! ### The final environment -/

/-- The string that `memcpy` puts together: a name, the sign and a value. -/
def assignmentString (name value : CString) : CString := name ++ equalsSign :: value

/-- The entries that the first pass of `build_final_environment` counts. -/
def finalKeepCount (replaceProcSelfExe : Bool) (entries : List CString) : ℕ :=
  entries.countP fun entry =>
    (!strncmpEq entry ldPreloadName ldPreloadName.length ||
        charAt entry ldPreloadName.length != equalsSign) &&
      (!replaceProcSelfExe || !strncmpEq entry procSelfExeName procSelfExeName.length ||
        charAt entry procSelfExeName.length != equalsSign)

/-- The entries that its second pass copies. -/
def finalKept (replaceProcSelfExe : Bool) (entries : List CString) : List CString :=
  entries.filter fun entry =>
    !(strncmpEq entry ldPreloadName ldPreloadName.length &&
        charAt entry ldPreloadName.length == equalsSign) &&
      !(replaceProcSelfExe && strncmpEq entry procSelfExeName procSelfExeName.length &&
        charAt entry procSelfExeName.length == equalsSign)

/-- The outcome: an errno, no override, or the environment to use. -/
def buildFinalEnvironment (environ : EnvVector) (filename : CString) (envp : EnvVector) :
    Except Int32 (Option PointerVector) :=
  if finalPathMatches environ filename envp = false then .ok none
  else
    let procSelfExe := configuredEnvironmentValue environ envp finalProcSelfExeName
    match configuredEnvironmentValue environ envp finalLdPreloadName, envp with
    | some preload, some entries =>
      .ok (some {
        slots := finalKeepCount procSelfExe.isSome entries +
          if procSelfExe.isSome then 3 else 2
        pointers := finalKept procSelfExe.isSome entries ++
          assignmentString ldPreloadName preload ::
            (procSelfExe.map (assignmentString procSelfExeName)).toList })
    | _, _ => .error EINVAL

/-! ### The environment of a wrapped program -/

/-- The entries that the first pass of `build_loader_arguments` counts. -/
def loaderKeepCount (preload : Option CString) (entries : List CString) : ℕ :=
  entries.countP fun entry =>
    if !strncmpEq entry procSelfExeName procSelfExeName.length ||
        charAt entry procSelfExeName.length != equalsSign then
      if preload.isSome && strncmpEq entry ldPreloadName ldPreloadName.length &&
          charAt entry ldPreloadName.length == equalsSign then false
      else true
    else false

/-- The entries that its second pass copies. -/
def loaderKept (preload : Option CString) (entries : List CString) : List CString :=
  entries.filter fun entry =>
    !(strncmpEq entry procSelfExeName procSelfExeName.length &&
        charAt entry procSelfExeName.length == equalsSign) &&
      !(preload.isSome && strncmpEq entry ldPreloadName ldPreloadName.length &&
        charAt entry ldPreloadName.length == equalsSign)

/-- The environment part of `build_loader_arguments`. -/
def loaderEnvironment (preload : Option CString) (originalPath : CString) (envp : EnvVector) :
    PointerVector where
  slots := loaderKeepCount preload (envp.getD []) + if preload.isSome then 3 else 2
  pointers := loaderKept preload (envp.getD []) ++
    (preload.map (assignmentString ldPreloadName)).toList ++
    [assignmentString procSelfExeName originalPath]

/-! ### Both as an override -/

open Assignments

variable {entry name : CString} {entries : List CString} {envp : EnvVector}

/-- The test of both passes: the entry assigns to the name. -/
lemma strncmp_charAt_eq (entry name : CString) :
    (strncmpEq entry name name.length && charAt entry name.length == equalsSign) =
      decide (Assigns equalsSign name entry) := by
  rw [Bool.eq_iff_iff, Bool.and_eq_true, decide_eq_true_iff, beq_iff_eq, strncmpEq,
    decide_eq_true_iff, List.take_length]
  constructor
  · rintro ⟨htake, hchar⟩
    have hlt : name.length < entry.length := by
      by_contra hge
      rw [charAt, List.getD_eq_default _ _ (not_lt.mp hge)] at hchar
      exact absurd hchar (by decide)
    rw [charAt, List.getD_eq_getElem _ _ hlt] at hchar
    refine ⟨entry.drop (name.length + 1), ?_⟩
    rw [← hchar, List.append_assoc, List.singleton_append, ← List.drop_eq_getElem_cons hlt]
    conv_lhs => rw [← htake]
    rw [List.length_take, min_eq_left hlt.le, List.take_append_drop]
  · rintro ⟨rest, rfl⟩
    simp [charAt]

/-- The same test as it stands in the first passes. -/
lemma not_strncmp_charAt_eq (entry name : CString) :
    (!strncmpEq entry name name.length || charAt entry name.length != equalsSign) =
      !decide (Assigns equalsSign name entry) := by
  rw [← strncmp_charAt_eq, Bool.not_and]
  rfl

lemma environmentValue_eq (envp : EnvVector) (name : CString) :
    environmentValue envp name = lookup equalsSign (envp.getD []) name := by
  cases envp with
  | none => rfl
  | some entries => simp only [environmentValue, lookup, strncmp_charAt_eq, Option.getD_some]

/-- A vector is an environment with some names replaced: the entries that assign to none of them,
in order, then one assignment for each, in a vector with room for all of it. -/
structure Rewrites (envp : EnvVector) (replaced : List (CString × CString))
    (v : PointerVector) : Prop where
  pointers : v.pointers = (envp.getD []).filter (fun entry =>
      replaced.all fun r => !decide (Assigns equalsSign r.1 entry)) ++
    replaced.map fun r => assignmentString r.1 r.2
  fits : v.Fits
  replaced_value : ∀ r ∈ replaced, environmentValue (some v.pointers) r.1 = some r.2
  other_value : ∀ name, (∀ r ∈ replaced, ¬ Assigns equalsSign r.1 (name ++ [equalsSign])) →
    environmentValue (some v.pointers) name = environmentValue envp name

/-- Names without the sign, each replaced once. -/
lemma rewrites_of_pointers {replaced : List (CString × CString)} {v : PointerVector}
    (hsign : ∀ r ∈ replaced, equalsSign ∉ r.1) (hnodup : (replaced.map Prod.fst).Nodup)
    (hpointers : v.pointers = override equalsSign (envp.getD []) replaced)
    (hslots : v.slots = v.pointers.length + 1) : Rewrites envp replaced v where
  pointers := hpointers
  fits := hslots.ge
  replaced_value := by
    intro r hr
    rw [environmentValue_eq, hpointers]
    exact lookup_override_self hsign hnodup hr
  other_value := by
    intro name hother
    rw [environmentValue_eq, environmentValue_eq, hpointers]
    exact lookup_override_other hsign hother

/-- What the environment of a wrapped program replaces. -/
def loaderReplaced (preload : Option CString) (originalPath : CString) :
    List (CString × CString) :=
  (preload.map fun value => (ldPreloadName, value)).toList ++ [(procSelfExeName, originalPath)]

/-- What the final environment replaces. -/
def finalReplaced (preload : CString) (procSelfExe : Option CString) : List (CString × CString) :=
  (ldPreloadName, preload) :: (procSelfExe.map fun value => (procSelfExeName, value)).toList

lemma equalsSign_notMem_ldPreloadName : equalsSign ∉ ldPreloadName := by decide

lemma equalsSign_notMem_procSelfExeName : equalsSign ∉ procSelfExeName := by decide

lemma ldPreloadName_ne : ldPreloadName ≠ procSelfExeName := by decide

section

variable (preload procSelfExe : Option CString) (originalPath value : CString)

/-- The second pass keeps what assigns to no replaced name. -/
lemma loaderKept_eq (entries : List CString) :
    loaderKept preload entries =
      entries.filter (keeps equalsSign (loaderReplaced preload originalPath)) := by
  refine List.filter_congr fun entry _ => ?_
  rw [Bool.and_assoc, strncmp_charAt_eq, strncmp_charAt_eq]
  cases preload with
  | none => simp [keeps, loaderReplaced]
  | some value => simp [keeps, loaderReplaced, Bool.and_comm]

/-- The first pass counts what the second keeps. -/
lemma loaderKeepCount_eq (entries : List CString) :
    loaderKeepCount preload entries = (loaderKept preload entries).length := by
  rw [loaderKeepCount, loaderKept, ← List.countP_eq_length_filter]
  refine List.countP_congr fun entry _ => ?_
  rw [not_strncmp_charAt_eq, Bool.and_assoc, strncmp_charAt_eq, strncmp_charAt_eq]
  cases decide (Assigns equalsSign procSelfExeName entry) with
  | true => simp
  | false => simp

lemma finalKept_eq (entries : List CString) :
    finalKept procSelfExe.isSome entries =
      entries.filter (keeps equalsSign (finalReplaced value procSelfExe)) := by
  refine List.filter_congr fun entry _ => ?_
  rw [Bool.and_assoc, strncmp_charAt_eq, strncmp_charAt_eq]
  cases procSelfExe with
  | none => simp [keeps, finalReplaced]
  | some path => simp [keeps, finalReplaced]

lemma finalKeepCount_eq (replaceProcSelfExe : Bool) (entries : List CString) :
    finalKeepCount replaceProcSelfExe entries = (finalKept replaceProcSelfExe entries).length := by
  rw [finalKeepCount, finalKept, ← List.countP_eq_length_filter]
  refine List.countP_congr fun entry _ => ?_
  rw [Bool.or_assoc, not_strncmp_charAt_eq, not_strncmp_charAt_eq, Bool.and_assoc,
    strncmp_charAt_eq, strncmp_charAt_eq, Bool.not_and replaceProcSelfExe]

/-- The environment of a wrapped program is the given one with its names replaced. -/
theorem loaderEnvironment_rewrites (envp : EnvVector) :
    Rewrites envp (loaderReplaced preload originalPath)
      (loaderEnvironment preload originalPath envp) := by
  cases preload with
  | none =>
    refine rewrites_of_pointers ?_ ?_ ?_ ?_
    · simp [loaderReplaced, equalsSign_notMem_procSelfExeName]
    · simp [loaderReplaced]
    · rw [override, ← loaderKept_eq]
      simp [loaderEnvironment, loaderReplaced, assignmentString, assignment]
    · rw [loaderEnvironment, loaderKeepCount_eq]
      simp
  | some value =>
    refine rewrites_of_pointers ?_ ?_ ?_ ?_
    · simp [loaderReplaced, equalsSign_notMem_ldPreloadName, equalsSign_notMem_procSelfExeName]
    · simp [loaderReplaced, ldPreloadName_ne]
    · rw [override, ← loaderKept_eq]
      simp [loaderEnvironment, loaderReplaced, assignmentString, assignment]
    · rw [loaderEnvironment, loaderKeepCount_eq]
      simp

/-- The final environment is the given one with its names replaced. -/
theorem finalEnvironment_rewrites (envp : EnvVector) :
    Rewrites envp (finalReplaced value procSelfExe)
      { slots := finalKeepCount procSelfExe.isSome (envp.getD []) +
          if procSelfExe.isSome then 3 else 2
        pointers := finalKept procSelfExe.isSome (envp.getD []) ++
          assignmentString ldPreloadName value ::
            (procSelfExe.map (assignmentString procSelfExeName)).toList } := by
  cases procSelfExe with
  | none =>
    refine rewrites_of_pointers ?_ ?_ ?_ ?_
    · simp [finalReplaced, equalsSign_notMem_ldPreloadName]
    · simp [finalReplaced]
    · rw [override, ← finalKept_eq]
      simp [finalReplaced, assignmentString, assignment]
    · rw [finalKeepCount_eq]
      simp
  | some path =>
    refine rewrites_of_pointers ?_ ?_ ?_ ?_
    · simp [finalReplaced, equalsSign_notMem_ldPreloadName, equalsSign_notMem_procSelfExeName]
    · simp [finalReplaced, ldPreloadName_ne]
    · rw [override, ← finalKept_eq]
      simp [finalReplaced, assignmentString, assignment]
    · rw [finalKeepCount_eq]
      simp

end

lemma buildFinalEnvironment_eq_some {environ : EnvVector} {filename : CString}
    {values : PointerVector}
    (h : buildFinalEnvironment environ filename envp = .ok (some values)) :
    ∃ preload, configuredEnvironmentValue environ envp finalLdPreloadName = some preload ∧
      Rewrites envp
        (finalReplaced preload (configuredEnvironmentValue environ envp finalProcSelfExeName))
        values := by
  rw [buildFinalEnvironment] at h
  by_cases hmatch : finalPathMatches environ filename envp = false
  · rw [if_pos hmatch] at h
    cases h
  · rw [if_neg hmatch] at h
    cases hpreload : configuredEnvironmentValue environ envp finalLdPreloadName with
    | none =>
      simp only [hpreload] at h
      cases h
    | some preload =>
      cases envp with
      | none =>
        simp only [hpreload] at h
        cases h
      | some entries =>
        simp only [hpreload, Except.ok.injEq, Option.some.injEq] at h
        subst h
        exact ⟨preload, rfl, finalEnvironment_rewrites _ preload (some entries)⟩

end Tgcompat
