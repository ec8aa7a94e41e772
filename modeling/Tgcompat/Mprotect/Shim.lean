import Tgcompat.Library.Paging
import Tgcompat.Store.Basic

/-!
# The mprotect shim

When the kernel refuses an executable mapping with `EACCES`, the shim makes the range readable,
copies it to a scratch mapping, replaces its pages by anonymous ones and copies it back. What the
kernel answers to each of the calls is an input here; a call it refuses has no effect, one it
serves acts on every page that the range overlaps.
-/

namespace Tgcompat

open Paging

namespace Mprotect

def PROT_READ : Int32 := 1
def PROT_WRITE : Int32 := 2
def PROT_EXEC : Int32 := 4

structure Process where
  memory : Memory UInt8 Int32
  errno : Int32

/-- The kernel's answers, in the order of the calls: an error number where it refuses one. -/
structure KernelReplies where
  initial : Option Int32
  readable : Option Int32
  scratch : Except Int32 ℕ
  replacement : Option Int32
  final : Option Int32
  release : Option Int32

/-! ### The system calls -/

def rawMprotect (size : ℕ) (refusal : Option Int32) (address length : ℕ) (protection : Int32)
    (process : Process) : Int32 × Process :=
  match refusal with
  | some errno => (-1, { process with errno := errno })
  | none =>
    if process.memory.Mapped (pages size address length) then
      (0, { process with
        memory := process.memory.protect (pages size address length) protection })
    else (-1, { process with errno := ENOMEM })

/-- An anonymous mapping where the kernel finds room; `none` is `MAP_FAILED`. -/
def rawMmap (size : ℕ) (reply : Except Int32 ℕ) (length : ℕ) (protection : Int32)
    (process : Process) : Option ℕ × Process :=
  match reply with
  | .error errno => (none, { process with errno := errno })
  | .ok address =>
    if process.memory.Unmapped (pages size address length) then
      (some address, { process with
        memory := process.memory.mapFresh size (pages size address length) protection 0 })
    else (none, { process with errno := ENOMEM })

/-- An anonymous mapping with `MAP_FIXED`, in place of whatever the pages were. -/
def rawMmapFixed (size : ℕ) (refusal : Option Int32) (address length : ℕ) (protection : Int32)
    (process : Process) : Option ℕ × Process :=
  match refusal with
  | some errno => (none, { process with errno := errno })
  | none => (some address, { process with
      memory := process.memory.mapFresh size (pages size address length) protection 0 })

def rawMunmap (size : ℕ) (refusal : Option Int32) (address length : ℕ) (process : Process) :
    Int32 × Process :=
  match refusal with
  | some errno => (-1, { process with errno := errno })
  | none => (0, { process with memory := process.memory.unmap (pages size address length) })

def copyBytes (destination source length : ℕ) (process : Process) : Process :=
  { process with memory := process.memory.copyBytes destination source length }

/-! ### The shim -/

def readableProtection (protection : Int32) : Int32 := PROT_READ ||| (protection &&& PROT_WRITE)

/-- Unmapping the scratch range, with the error number kept over the call. -/
def releaseScratch (size : ℕ) (refusal : Option Int32) (scratch length : ℕ) (process : Process) :
    Process :=
  { (rawMunmap size refusal scratch length process).2 with errno := process.errno }

def makeAnonymousExecutableCopy (size : ℕ) (kernel : KernelReplies) (address length : ℕ)
    (protection : Int32) (process : Process) : Int32 × Process :=
  if length = 0 then (-1, { process with errno := EINVAL })
  else
    match rawMprotect size kernel.readable address length (readableProtection protection)
      process with
    | (result, process) =>
      if result ≠ 0 then (-1, process)
      else
        match rawMmap size kernel.scratch length (PROT_READ ||| PROT_WRITE) process with
        | (none, process) => (-1, process)
        | (some scratch, process) =>
          let process := copyBytes scratch address length process
          match rawMmapFixed size kernel.replacement address length (PROT_READ ||| PROT_WRITE)
            process with
          | (none, process) => (-1, releaseScratch size kernel.release scratch length process)
          | (some _, process) =>
            let process := copyBytes address scratch length process
            match rawMprotect size kernel.final address length protection process with
            | (result, process) =>
              if result ≠ 0 then (-1, releaseScratch size kernel.release scratch length process)
              else (0, releaseScratch size kernel.release scratch length process)

def mprotect (size : ℕ) (kernel : KernelReplies) (address length : ℕ) (protection : Int32)
    (process : Process) : Int32 × Process :=
  match rawMprotect size kernel.initial address length protection process with
  | (result, process) =>
    if result = -1 ∧ process.errno = EACCES ∧ protection &&& PROT_EXEC ≠ 0 then
      makeAnonymousExecutableCopy size kernel address length protection process
    else (result, process)

/-! ### The exits of the fallback -/

section

variable {size address length scratch : ℕ} {kernel : KernelReplies} {protection : Int32}
  {m : Memory UInt8 Int32} {process : Process}

/-- The range with the protection that lets the fallback read it. -/
def lowered (size address length : ℕ) (protection : Int32) (m : Memory UInt8 Int32) :
    Memory UInt8 Int32 :=
  m.protect (pages size address length) (readableProtection protection)

/-- The kernel hands out a scratch range where nothing is mapped. -/
def Obtains (size : ℕ) (kernel : KernelReplies) (length scratch : ℕ) (m : Memory UInt8 Int32) :
    Prop :=
  kernel.scratch = .ok scratch ∧ m.Unmapped (pages size scratch length)

/-- The lowered range together with a scratch mapping. -/
def withScratch (size address length : ℕ) (protection : Int32) (scratch : ℕ)
    (m : Memory UInt8 Int32) : Memory UInt8 Int32 :=
  (lowered size address length protection m).mapFresh size (pages size scratch length)
    (PROT_READ ||| PROT_WRITE) 0

def released (size : ℕ) (kernel : KernelReplies) (length scratch : ℕ) (m : Memory UInt8 Int32) :
    Memory UInt8 Int32 :=
  if kernel.release = none then m.unmap (pages size scratch length) else m

/-- Where the fallback stops, with what it returns and the memory it leaves. -/
inductive Exit (size : ℕ) (kernel : KernelReplies) (address length : ℕ) (protection : Int32)
    (m : Memory UInt8 Int32) : Int32 → Memory UInt8 Int32 → Prop where
  | unread
      (hstop : length = 0 ∨ kernel.readable ≠ none ∨ ¬ m.Mapped (pages size address length)) :
      Exit size kernel address length protection m (-1) m
  | unscratched (hlength : 0 < length) (hread : kernel.readable = none)
      (hstop : ∀ scratch,
        ¬ Obtains size kernel length scratch (lowered size address length protection m)) :
      Exit size kernel address length protection m (-1) (lowered size address length protection m)
  | unreplaced (scratch : ℕ) (hlength : 0 < length) (hread : kernel.readable = none)
      (hobtain : Obtains size kernel length scratch (lowered size address length protection m))
      (hstop : kernel.replacement ≠ none) :
      Exit size kernel address length protection m (-1)
        (released size kernel length scratch
          ((withScratch size address length protection scratch m).copyBytes scratch address length))
  | unprotected (scratch : ℕ) (hlength : 0 < length) (hread : kernel.readable = none)
      (hobtain : Obtains size kernel length scratch (lowered size address length protection m))
      (hreplace : kernel.replacement = none) (hstop : kernel.final ≠ none) :
      Exit size kernel address length protection m (-1)
        (released size kernel length scratch
          ((withScratch size address length protection scratch m).replaceThrough size address
            length scratch (PROT_READ ||| PROT_WRITE) 0))
  | finished (scratch : ℕ) (hlength : 0 < length) (hread : kernel.readable = none)
      (hobtain : Obtains size kernel length scratch (lowered size address length protection m)) :
      Exit size kernel address length protection m 0
        (released size kernel length scratch
          (((withScratch size address length protection scratch m).replaceThrough size address
            length scratch (PROT_READ ||| PROT_WRITE) 0).protect (pages size address length)
              protection))

lemma rawMprotect_cases (size : ℕ) (refusal : Option Int32) (address length : ℕ)
    (protection : Int32) (process : Process) :
    (∃ errno, (refusal ≠ none ∨ ¬ process.memory.Mapped (pages size address length)) ∧
      rawMprotect size refusal address length protection process =
        (-1, { process with errno := errno })) ∨
    (refusal = none ∧ process.memory.Mapped (pages size address length) ∧
      rawMprotect size refusal address length protection process =
        (0, { process with
          memory := process.memory.protect (pages size address length) protection })) := by
  cases refusal with
  | some errno => exact .inl ⟨errno, .inl (by simp), rfl⟩
  | none =>
    by_cases hmapped : process.memory.Mapped (pages size address length)
    · exact .inr ⟨rfl, hmapped, by simp [rawMprotect, hmapped]⟩
    · exact .inl ⟨ENOMEM, .inr hmapped, by simp [rawMprotect, hmapped]⟩

lemma rawMmap_cases (size : ℕ) (kernel : KernelReplies) (length : ℕ) (protection : Int32)
    (process : Process) :
    (∃ errno, (∀ scratch, ¬ Obtains size kernel length scratch process.memory) ∧
      rawMmap size kernel.scratch length protection process =
        (none, { process with errno := errno })) ∨
    (∃ scratch, Obtains size kernel length scratch process.memory ∧
      rawMmap size kernel.scratch length protection process =
        (some scratch, { process with
          memory := process.memory.mapFresh size (pages size scratch length) protection 0 })) := by
  cases hreply : kernel.scratch with
  | error errno => exact .inl ⟨errno, by simp [Obtains, hreply], rfl⟩
  | ok scratch =>
    by_cases hfree : process.memory.Unmapped (pages size scratch length)
    · exact .inr ⟨scratch, ⟨hreply, hfree⟩, by simp [rawMmap, hfree]⟩
    · refine .inl ⟨ENOMEM, ?_, by simp [rawMmap, hfree]⟩
      rintro other ⟨hother, hunmapped⟩
      obtain rfl : scratch = other := by simpa [hreply] using hother
      exact hfree hunmapped

lemma memory_releaseScratch : (releaseScratch size kernel.release scratch length process).memory =
    released size kernel length scratch process.memory := by
  unfold releaseScratch released rawMunmap
  cases kernel.release with
  | none => rfl
  | some errno => rfl

/-- Every call of the fallback stops at one of the exits. -/
lemma makeAnonymousExecutableCopy_exit (size : ℕ) (kernel : KernelReplies) (address length : ℕ)
    (protection : Int32) (process : Process) :
    Exit size kernel address length protection process.memory
      (makeAnonymousExecutableCopy size kernel address length protection process).1
      (makeAnonymousExecutableCopy size kernel address length protection process).2.memory := by
  unfold makeAnonymousExecutableCopy
  by_cases hzero : length = 0
  · rw [if_pos hzero]
    exact .unread (.inl hzero)
  rw [if_neg hzero]
  have hlength : 0 < length := Nat.pos_of_ne_zero hzero
  rcases rawMprotect_cases size kernel.readable address length (readableProtection protection)
    process with ⟨errno, hrefused, heq⟩ | ⟨hread, -, heq⟩
  · rw [heq]
    exact .unread (.inr hrefused)
  rw [heq]
  simp only [ne_eq, not_true_eq_false, if_false]
  rcases rawMmap_cases size kernel length (PROT_READ ||| PROT_WRITE)
    { process with
      memory := process.memory.protect (pages size address length)
        (readableProtection protection) } with ⟨errno, hnone, heq⟩ | ⟨scratch, hobtain, heq⟩
  · rw [heq]
    exact .unscratched hlength hread hnone
  rw [heq]
  cases hreplace : kernel.replacement with
  | some errno =>
    simp only [rawMmapFixed, memory_releaseScratch]
    exact .unreplaced scratch hlength hread hobtain (by simp [hreplace])
  | none =>
    simp only [rawMmapFixed, copyBytes]
    rcases rawMprotect_cases size kernel.final address length protection
      { process with
        memory := (withScratch size address length protection scratch
          process.memory).replaceThrough size address length scratch (PROT_READ ||| PROT_WRITE) 0 }
      with ⟨errno, hrefused | hunmapped, heq⟩ | ⟨-, -, heq⟩
    · simp only [withScratch, lowered, Memory.replaceThrough] at heq
      simp only [heq]
      rw [if_pos (by decide), memory_releaseScratch]
      exact .unprotected scratch hlength hread hobtain hreplace hrefused
    · exact absurd Memory.mapped_replaceThrough hunmapped
    · simp only [withScratch, lowered, Memory.replaceThrough] at heq
      simp only [heq]
      rw [if_neg (by decide), memory_releaseScratch]
      exact .finished scratch hlength hread hobtain

/-- The refusal that the shim answers with the fallback. -/
def FallsBack (kernel : KernelReplies) (protection : Int32) : Prop :=
  kernel.initial = some EACCES ∧ protection &&& PROT_EXEC ≠ 0

lemma mprotect_cases (size : ℕ) (kernel : KernelReplies) (address length : ℕ)
    (protection : Int32) (process : Process) :
    (FallsBack kernel protection ∧ Exit size kernel address length protection process.memory
      (mprotect size kernel address length protection process).1
      (mprotect size kernel address length protection process).2.memory) ∨
    (¬ FallsBack kernel protection ∧
      (mprotect size kernel address length protection process).1 = -1 ∧
      (mprotect size kernel address length protection process).2.memory = process.memory) ∨
    (kernel.initial = none ∧
      (mprotect size kernel address length protection process).1 = 0) := by
  unfold mprotect
  cases hinitial : kernel.initial with
  | some errno =>
    simp only [rawMprotect, true_and]
    by_cases hback : errno = EACCES ∧ protection &&& PROT_EXEC ≠ 0
    · refine .inl ⟨⟨by rw [hinitial, hback.1], hback.2⟩, ?_⟩
      rw [if_pos hback]
      exact makeAnonymousExecutableCopy_exit size kernel address length protection
        { process with errno := errno }
    · refine .inr (.inl ⟨fun h => hback ⟨?_, h.2⟩, ?_⟩)
      · simpa [hinitial] using h.1
      · rw [if_neg hback]
        exact ⟨rfl, rfl⟩
  | none =>
    by_cases hmapped : process.memory.Mapped (pages size address length)
    · refine .inr (.inr ⟨rfl, ?_⟩)
      simp [rawMprotect, hmapped]
    · -- an unmapped page is refused with another error number
      refine .inr (.inl ⟨by simp [FallsBack, hinitial], ?_⟩)
      have hother : ¬ (ENOMEM = EACCES) := by decide
      simp [rawMprotect, hmapped, hother]

end

end Mprotect

end Tgcompat
