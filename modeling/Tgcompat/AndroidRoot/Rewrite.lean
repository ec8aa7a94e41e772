import Tgcompat.Exec.Environment
import Tgcompat.Library.Pathname
import Tgcompat.Protocol.Transport

/-!
# Shadows of proc files

The functions of `android_root_shim.c` that put a private directory in place of `/proc/net` and a
private file in place of `/proc/stat`. They return the pointer they were given, or `NULL`, or the
output buffer with the path to use instead.
-/

namespace Tgcompat.AndroidRoot

open Pathname

/-- The environment of the process, as `getenv` reads it. -/
abbrev Getenv := CString → Option CString

def procNetName : CString := cstr "TGCOMPAT_PROC_NET"
def procStatName : CString := cstr "TGCOMPAT_PROC_STAT"

/-- What a rewriting function returns. -/
inductive Rewrite where
  /-- the caller's path -/
  | path
  /-- the output buffer -/
  | output (buffer : Buffer)
  | null (errno : Int32)

/-! ### The functions -/

def procNetPrefixes : List CString :=
  [cstr "/proc/net", cstr "/proc/self/net", cstr "/proc/thread-self/net"]

/-- The part of a path that follows one of the directories; `none` also for the path `NULL`. -/
def procNetSuffix (path : Option CString) : Option CString :=
  match path with
  | none => none
  | some path =>
    procNetPrefixes.findSome? fun start =>
      if path = start then some (path.drop start.length)
      else if strncmpEq path start start.length && charAt path start.length == slash then
        some (path.drop start.length)
      else none

/-- The value of a variable that can take the place of a proc path: absolute, not the root, and
without a slash at its end. -/
def shadow (getenv : Getenv) (name : CString) : Option CString :=
  match getenv name with
  | none => none
  | some root =>
    if charAt root 0 ≠ slash then none
    else if root.length < 2 ∨ charAt root (root.length - 1) = slash then none
    else some root

lemma shadow_eq_some {getenv : Getenv} {name root : CString} (h : shadow getenv name = some root) :
    getenv name = some root := by
  unfold shadow at h
  cases hget : getenv name with
  | none => simp [hget] at h
  | some value =>
    simp only [hget] at h
    split_ifs at h
    exact h

/-- `tgcompat_android_root_rewrite_proc_net`. -/
def rewriteProcNet (getenv : Getenv) (path : Option CString) (output : Option Buffer)
    (outputSize : UInt64) : Rewrite :=
  match procNetSuffix path with
  | none => .path
  | some suffix =>
    match shadow getenv procNetName with
    | none => .path
    | some root =>
      match output with
      | none => .null ENAMETOOLONG
      | some output =>
        if outputSize = 0 ∨ suffix.length ≥ outputSize.toNat ∨
            root.length > (outputSize - UInt64.ofNat suffix.length - 1).toNat then
          .null ENAMETOOLONG
        else .output (writeBytes (writeBytes output 0 root) root.length (suffix ++ [0]))

/-- `tgcompat_android_root_rewrite_proc_stat`. -/
def rewriteProcStat (getenv : Getenv) (path : Option CString) (output : Option Buffer)
    (outputSize : UInt64) : Rewrite :=
  if path ≠ some (cstr "/proc/stat") then .path
  else
    match shadow getenv procStatName with
    | none => .path
    | some target =>
      match output with
      | none => .null ENAMETOOLONG
      | some output =>
        if outputSize = 0 ∨ target.length ≥ outputSize.toNat then .null ENAMETOOLONG
        else .output (writeBytes output 0 (target ++ [0]))

/-- `tgcompat_android_root_rewrite_proc`; the output buffer is not the caller's path. -/
def rewriteProc (getenv : Getenv) (path : Option CString) (output : Option Buffer)
    (outputSize : UInt64) : Rewrite :=
  match rewriteProcStat getenv path output outputSize with
  | .path => rewriteProcNet getenv path output outputSize
  | mapped => mapped

/-! ### The suffix -/

variable {getenv : Getenv} {path : Option CString} {output : Option Buffer} {outputSize : UInt64}
  {root suffix : CString} {buffer : Buffer}

/-- The path is one of the directories, or goes on with a slash behind it. -/
lemma procNetSuffix_eq_some (h : procNetSuffix path = some suffix) :
    ∃ start ∈ procNetPrefixes, path = some (start ++ suffix) ∧
      (suffix = [] ∨ suffix.head? = some slash) := by
  cases path with
  | none => cases h
  | some path =>
    obtain ⟨start, hstart, htest⟩ := List.exists_of_findSome?_eq_some h
    refine ⟨start, hstart, ?_⟩
    split_ifs at htest with heq hmore
    · cases htest
      subst heq
      simp
    · cases htest
      obtain ⟨htake, hslash⟩ := Bool.and_eq_true_iff.mp hmore
      have hsplit : path.take start.length = start := by simpa [strncmpEq] using htake
      refine ⟨?_, Or.inr ?_⟩
      · nth_rewrite 1 [← List.take_append_drop start.length path, hsplit]
        rfl
      · rw [List.head?_drop]
        have hchar : path.getD start.length 0 = slash := eq_of_beq hslash
        cases hget : path[start.length]? with
        | none => simp [hget, slash] at hchar
        | some c => simpa [hget] using hchar

/-! ### The sizes -/

/-- The check leaves room for both strings and the terminator. -/
lemma fits_of_checks (h : ¬ (outputSize = 0 ∨ suffix.length ≥ outputSize.toNat ∨
    root.length > (outputSize - UInt64.ofNat suffix.length - 1).toNat)) :
    root.length + suffix.length + 1 ≤ outputSize.toNat := by
  have hsize := outputSize.toNat_lt
  have hsuffix : (UInt64.ofNat suffix.length).toNat = suffix.length :=
    UInt64.toNat_ofNat_of_lt' (show _ < 2 ^ 64 by omega)
  have hfirst : (outputSize - UInt64.ofNat suffix.length).toNat =
      outputSize.toNat - suffix.length := by
    rw [UInt64.toNat_sub_of_le _ _ (by rw [UInt64.le_iff_toNat_le]; omega), hsuffix]
  have hsecond : (outputSize - UInt64.ofNat suffix.length - 1).toNat =
      outputSize.toNat - suffix.length - 1 := by
    have hone : 1 ≤ outputSize - UInt64.ofNat suffix.length := by
      rw [UInt64.le_iff_toNat_le, hfirst, UInt64.toNat_one]
      omega
    rw [UInt64.toNat_sub_of_le _ _ hone, hfirst, UInt64.toNat_one]
  omega

lemma rewriteProcNet_cases (getenv : Getenv) (path : Option CString) (output : Option Buffer)
    (outputSize : UInt64) :
    rewriteProcNet getenv path output outputSize = .path ∨
    rewriteProcNet getenv path output outputSize = .null ENAMETOOLONG ∨
    ∃ given root suffix, output = some given ∧ shadow getenv procNetName = some root ∧
      procNetSuffix path = some suffix ∧
      root.length + suffix.length + 1 ≤ outputSize.toNat ∧
      rewriteProcNet getenv path output outputSize =
        .output (writeBytes given 0 (root ++ (suffix ++ [0]))) := by
  simp only [rewriteProcNet]
  cases procNetSuffix path with
  | none => exact .inl rfl
  | some suffix =>
    cases shadow getenv procNetName with
    | none => exact .inl rfl
    | some root =>
      cases output with
      | none => exact .inr (.inl rfl)
      | some given =>
        dsimp only
        split_ifs with hsize
        · exact .inr (.inl rfl)
        · refine .inr (.inr ⟨given, root, suffix, rfl, rfl, rfl, fits_of_checks hsize, ?_⟩)
          have happend := writeBytes_append given 0 root (suffix ++ [0])
          rw [Nat.zero_add] at happend
          rw [happend]

/-! ### The directory that is reached -/

def dot : UInt8 := 46

/-- The directory of an absolute path without dots and repeated slashes, innermost name first. -/
def normalisedPath (path : CString) : List CString := normalise slash dot path

/-- What a suffix does to the directory it follows. -/
def suffixClimb (suffix : CString) : Climb CString := climb (components slash dot suffix)

/-- The rewriting returns the path it was given, or fails for lack of room, or has put the shadow
directory in front of the suffix, within the output buffer. The path it then returns is below the
shadow directory exactly if the names that the suffix climbs over are the ones it comes back to. -/
theorem proc_net_rewriting (getenv : Getenv) (path : Option CString) (output : Option Buffer)
    (outputSize : UInt64) :
    rewriteProcNet getenv path output outputSize = .path ∨
    rewriteProcNet getenv path output outputSize = .null ENAMETOOLONG ∨
    ∃ given buffer root suffix, output = some given ∧
      rewriteProcNet getenv path output outputSize = .output buffer ∧
      getenv procNetName = some root ∧
      (∃ start ∈ procNetPrefixes, path = some (start ++ suffix)) ∧
      root.length + suffix.length + 1 ≤ outputSize.toNat ∧
      readBytes buffer 0 (root.length + suffix.length + 1) = root ++ suffix ++ [0] ∧
      (∀ n, root.length + suffix.length + 1 ≤ n → buffer n = given n) ∧
      (normalisedPath root <:+ normalisedPath (root ++ suffix) ↔
        (normalisedPath root).take (suffixClimb suffix).ups <:+ (suffixClimb suffix).names) := by
  rcases rewriteProcNet_cases getenv path output outputSize with
    h | h | ⟨given, root, suffix, rfl, hshadow, hsuffix, hfits, h⟩
  · exact .inl h
  · exact .inr (.inl h)
  · obtain ⟨start, hstart, hpath, hslash⟩ := procNetSuffix_eq_some hsuffix
    have hlength : (root ++ suffix ++ [0]).length = root.length + suffix.length + 1 := by
      rw [List.length_append, List.length_append]
      rfl
    rw [← List.append_assoc] at h
    refine .inr (.inr ⟨given, _, root, suffix, rfl, h, shadow_eq_some hshadow,
      ⟨start, hstart, hpath⟩, hfits, ?_, ?_, ?_⟩)
    · have hread := readBytes_writeBytes_take given (root ++ suffix ++ [0]) le_rfl
      rwa [List.take_length, hlength] at hread
    · intro n hn
      rw [writeBytes, if_neg (by omega)]
    · rw [normalisedPath, normalisedPath, normalise_append slash dot hslash]
      exact suffix_resolve_iff _ _

/-- A path that climbs out of the shadow directory. -/
theorem proc_net_rewriting_leaves_shadow :
    let getenv : Getenv := fun name => if name = procNetName then some (cstr "/a/b") else none
    ∃ buffer, rewriteProcNet getenv (some (cstr "/proc/net/../../etc/passwd"))
        (some fun _ => 0) 4096 = .output buffer ∧
      readBytes buffer 0 22 = cstr "/a/b/../../etc/passwd" ++ [0] ∧
      normalisedPath (cstr "/a/b/../../etc/passwd") = [cstr "passwd", cstr "etc"] ∧
      ¬ normalisedPath (cstr "/a/b") <:+ normalisedPath (cstr "/a/b/../../etc/passwd") :=
  ⟨_, rfl, by decide +kernel, by decide +kernel, by decide +kernel⟩

end Tgcompat.AndroidRoot
