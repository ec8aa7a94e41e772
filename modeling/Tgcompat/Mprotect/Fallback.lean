import Tgcompat.Mprotect.Shim

/-!
# What the noexec fallback does to memory

The fallback copies the bytes of the range and no others, and the kernel replaces whole pages: the
bytes of the last page after the range come out as zero. A fallback that stops halfway undoes the
scratch mapping only, so the range keeps the protection that the last call gave it.
-/

namespace Tgcompat.Mprotect

open Paging

variable {size address length scratch a page : ℕ} {kernel : KernelReplies}
  {protection prior : Int32} {m : Memory UInt8 Int32} {process : Process}

/-! ### The memory at an exit -/

section

variable (hobtain : Obtains size kernel length scratch (lowered size address length protection m))

include hobtain

/-- The scratch mapping shares no page with the range. -/
lemma Obtains.not_mem (hpage : page ∈ pages size address length) :
    page ∉ pages size scratch length :=
  Memory.mapped_protect.not_mem hobtain.2 hpage

lemma Obtains.prot_eq_none (hpage : page ∈ pages size scratch length) : m.prot page = none := by
  have hnone := hobtain.2 page hpage
  have hother : page ∉ pages size address length := fun hmem => hobtain.not_mem hmem hpage
  simpa [lowered, hother] using hnone

lemma Obtains.bytes_withScratch (ha : a / size ∈ pages size address length) :
    (withScratch size address length protection scratch m).bytes a = m.bytes a := by
  rw [withScratch, Memory.bytes_mapFresh, if_neg (hobtain.not_mem ha)]
  rfl

lemma Obtains.bytes_copied (hsize : 0 < size) (ha : a / size ∈ pages size address length) :
    ((withScratch size address length protection scratch m).copyBytes scratch address
      length).bytes a = m.bytes a := by
  rw [Memory.bytes_copyBytes_other hsize (fun _ => hobtain.not_mem) ha,
    hobtain.bytes_withScratch ha]

lemma Obtains.bytes_replaced {p : Int32} (hsize : 0 < size)
    (ha : a / size ∈ pages size address length) :
    ((withScratch size address length protection scratch m).replaceThrough size address length
      scratch p 0).bytes a = if address ≤ a ∧ a < address + length then m.bytes a else 0 := by
  rw [Memory.bytes_replaceThrough hsize (fun _ => hobtain.not_mem) ha,
    hobtain.bytes_withScratch ha]

end

@[simp] lemma bytes_released :
    (released size kernel length scratch m).bytes = m.bytes := by
  unfold released
  split <;> rfl

lemma prot_released_other (hpage : page ∉ pages size scratch length) :
    (released size kernel length scratch m).prot page = m.prot page := by
  unfold released
  split
  · simp [hpage]
  · rfl

/-! ### A fallback that succeeds -/

/-- Every byte of the range's pages is what it was, and the pages have the protection asked for. -/
def Identical (size address length : ℕ) (protection : Int32) (before after : Memory UInt8 Int32) :
    Prop :=
  (∀ a, a / size ∈ pages size address length → after.bytes a = before.bytes a) ∧
    ∀ page ∈ pages size address length, after.prot page = some protection

/-- The bytes that the range's pages hold beside the range are zero. In an aligned range these are
the bytes after it. -/
def ZeroAround (size address length : ℕ) (m : Memory UInt8 Int32) : Prop :=
  ∀ a, a / size ∈ pages size address length → ¬ (address ≤ a ∧ a < address + length) →
    m.bytes a = 0

/-- A replaced range is what it was exactly when nothing but zeros stood around it. -/
lemma Obtains.replaced_iff {p : Int32} (hsize : 0 < size)
    (hobtain : Obtains size kernel length scratch (lowered size address length protection m)) :
    (∀ a, a / size ∈ pages size address length →
      ((withScratch size address length protection scratch m).replaceThrough size address length
        scratch p 0).bytes a = m.bytes a) ↔ ZeroAround size address length m := by
  constructor
  · intro hbytes a ha houtside
    rw [← hbytes a ha, hobtain.bytes_replaced hsize ha, if_neg houtside]
  · intro hzero a ha
    rw [hobtain.bytes_replaced hsize ha]
    split
    · rfl
    · rename_i houtside
      exact (hzero a ha houtside).symm

/-- A fallback that succeeds gives the pages the protection asked for, and keeps their bytes as
long as nothing but zeros stands around the range. -/
theorem fallback_identical_iff (hsize : 0 < size) (hrefused : kernel.initial = some EACCES)
    (hserved : (mprotect size kernel address length protection process).1 = 0) :
    Identical size address length protection process.memory
        (mprotect size kernel address length protection process).2.memory ↔
      ZeroAround size address length process.memory := by
  rcases mprotect_cases size kernel address length protection process with
    ⟨-, hexit⟩ | ⟨-, hfailed, -⟩ | ⟨hnone, -⟩
  · generalize mprotect size kernel address length protection process = outcome at *
    obtain ⟨result, after⟩ := outcome
    subst hserved
    generalize after.memory = final at *
    cases hexit with
    | finished scratch hlength hread hobtain =>
      have hprot : ∀ page ∈ pages size address length, (released size kernel length scratch
          (((withScratch size address length protection scratch process.memory).replaceThrough
            size address length scratch (PROT_READ ||| PROT_WRITE) 0).protect
              (pages size address length) protection)).prot page = some protection := by
        intro page hpage
        rw [prot_released_other (hobtain.not_mem hpage), Memory.prot_protect, if_pos hpage]
      simp only [Identical, bytes_released, Memory.bytes_protect]
      rw [hobtain.replaced_iff hsize]
      exact and_iff_left hprot
  · rw [hfailed] at hserved
    exact absurd hserved (by decide)
  · rw [hnone] at hrefused
    cases hrefused

/-- One page of 4096 bytes, two of which are set. -/
def markedPage (prior : Int32) : Process where
  memory :=
    { bytes := fun a => if a = 4096 then 5 else if a = 4097 then 7 else 0
      prot := fun page => if page = 1 then some prior else none }
  errno := 0

/-- A kernel that refuses the first call only. -/
def noexecKernel : KernelReplies where
  initial := some EACCES
  readable := none
  scratch := .ok 8192
  replacement := none
  final := none
  release := none

/-- Two bytes, with zeros after them. -/
theorem fallback_identical_iff_pair :
    Identical 4096 4096 2 (PROT_READ ||| PROT_EXEC) (markedPage PROT_READ).memory
      (mprotect 4096 noexecKernel 4096 2 (PROT_READ ||| PROT_EXEC)
        (markedPage PROT_READ)).2.memory := by
  refine (fallback_identical_iff (by decide) rfl (by decide +kernel)).mpr ?_
  intro a ha houtside
  have hfirst : a ≠ 4096 := by omega
  have hsecond : a ≠ 4097 := by omega
  simp [markedPage, hfirst, hsecond]

/-- One byte: the byte after it is lost. -/
theorem short_range_loses_tail :
    noexecKernel.initial = some EACCES ∧ 4096 ∣ 4096 ∧
      (PROT_READ ||| PROT_EXEC) &&& PROT_EXEC ≠ 0 ∧
      (mprotect 4096 noexecKernel 4096 1 (PROT_READ ||| PROT_EXEC) (markedPage PROT_READ)).1 = 0 ∧
      4097 / 4096 ∈ pages 4096 4096 1 ∧ (markedPage PROT_READ).memory.bytes 4097 = 7 ∧
      (mprotect 4096 noexecKernel 4096 1 (PROT_READ ||| PROT_EXEC)
        (markedPage PROT_READ)).2.memory.bytes 4097 = 0 ∧
      ¬ Identical 4096 4096 1 (PROT_READ ||| PROT_EXEC) (markedPage PROT_READ).memory
        (mprotect 4096 noexecKernel 4096 1 (PROT_READ ||| PROT_EXEC)
          (markedPage PROT_READ)).2.memory := by
  have hafter : (mprotect 4096 noexecKernel 4096 1 (PROT_READ ||| PROT_EXEC)
      (markedPage PROT_READ)).2.memory.bytes 4097 = 0 := by decide +kernel
  refine ⟨rfl, dvd_rfl, by decide, by decide +kernel, by decide, by decide, hafter, ?_⟩
  rintro ⟨hbytes, -⟩
  have hsame := hbytes 4097 (by decide)
  rw [hafter] at hsame
  exact absurd hsame (by decide)

/-! ### A fallback that fails -/

/-- The range is as it was, and what was not mapped is not mapped. -/
def LeftAlone (size address length : ℕ) (before after : Memory UInt8 Int32) : Prop :=
  (∀ a, a / size ∈ pages size address length → after.bytes a = before.bytes a) ∧
    (∀ page ∈ pages size address length, after.prot page = before.prot page) ∧
    ∀ page, before.prot page = none → after.prot page = none

lemma leftAlone_refl (size address length : ℕ) (m : Memory UInt8 Int32) :
    LeftAlone size address length m m :=
  ⟨fun _ _ => rfl, fun _ _ => rfl, fun _ h => h⟩

lemma leftAlone_lowered_iff (hlength : 0 < length)
    (huniform : ∀ page ∈ pages size address length, m.prot page = some prior) :
    LeftAlone size address length m (lowered size address length protection m) ↔
      prior = readableProtection protection := by
  constructor
  · rintro ⟨-, hprot, -⟩
    obtain ⟨page, hpage⟩ := pages_nonempty size address hlength
    have hsame := hprot page hpage
    rw [huniform page hpage, lowered, Memory.prot_protect, if_pos hpage] at hsame
    exact (Option.some.inj hsame).symm
  · rintro rfl
    have hsame : ∀ page, (lowered size address length protection m).prot page = m.prot page := by
      intro page
      rw [lowered, Memory.prot_protect]
      split
      · rename_i hpage
        exact (huniform page hpage).symm
      · rfl
    exact ⟨fun _ _ => rfl, fun page _ => hsame page, fun page h => (hsame page).trans h⟩

/-- A memory with a scratch mapping that the fallback gives back or not. -/
lemma leftAlone_released_iff {after : Memory UInt8 Int32} {now : Int32} (hlength : 0 < length)
    (huniform : ∀ page ∈ pages size address length, m.prot page = some prior)
    (hobtain : Obtains size kernel length scratch (lowered size address length protection m))
    (hnow : ∀ page ∈ pages size address length, after.prot page = some now)
    (hscratch : after.Mapped (pages size scratch length))
    (helse : ∀ page ∉ pages size address length, page ∉ pages size scratch length →
      after.prot page = m.prot page) :
    LeftAlone size address length m (released size kernel length scratch after) ↔
      kernel.release = none ∧ prior = now ∧
        ∀ a, a / size ∈ pages size address length → after.bytes a = m.bytes a := by
  constructor
  · rintro ⟨hbytes, hprot, hnone⟩
    refine ⟨?_, ?_, by simpa using hbytes⟩
    · by_contra hkept
      obtain ⟨page, hpage⟩ := pages_nonempty size scratch hlength
      have hgone := hnone page (hobtain.prot_eq_none hpage)
      have hthere := hscratch page hpage
      rw [released, if_neg hkept] at hgone
      rw [hgone] at hthere
      cases hthere
    · obtain ⟨page, hpage⟩ := pages_nonempty size address hlength
      have hsame := hprot page hpage
      rw [prot_released_other (hobtain.not_mem hpage), hnow page hpage, huniform page hpage]
        at hsame
      exact (Option.some.inj hsame).symm
  · rintro ⟨hrelease, rfl, hbytes⟩
    refine ⟨by simpa using hbytes, ?_, ?_⟩
    · intro page hpage
      rw [prot_released_other (hobtain.not_mem hpage), hnow page hpage, huniform page hpage]
    · intro page hnone
      by_cases hpage : page ∈ pages size scratch length
      · rw [released, if_pos hrelease, Memory.prot_unmap, if_pos hpage]
      · have hother : page ∉ pages size address length := by
          intro hmem
          rw [huniform page hmem] at hnone
          cases hnone
        rw [prot_released_other hpage, helse page hother hpage, hnone]

/-- The exit after the scratch copy: the range is readable and unchanged. -/
lemma Obtains.leftAlone_copied_iff (hsize : 0 < size) (hlength : 0 < length)
    (huniform : ∀ page ∈ pages size address length, m.prot page = some prior)
    (hobtain : Obtains size kernel length scratch (lowered size address length protection m)) :
    LeftAlone size address length m (released size kernel length scratch
        ((withScratch size address length protection scratch m).copyBytes scratch address
          length)) ↔
      kernel.release = none ∧ prior = readableProtection protection := by
  rw [leftAlone_released_iff hlength huniform hobtain]
  · exact and_congr_right fun _ => and_iff_left fun a ha => hobtain.bytes_copied hsize ha
  · intro page hpage
    simp [withScratch, lowered, hpage, hobtain.not_mem hpage]
  · intro page hpage
    simp [withScratch, hpage]
  · intro page hrange hscratch
    simp [withScratch, lowered, hrange, hscratch]

/-- The exit after the replacement: the range is writable and holds zeros around it. -/
lemma Obtains.leftAlone_replaced_iff (hsize : 0 < size) (hlength : 0 < length)
    (huniform : ∀ page ∈ pages size address length, m.prot page = some prior)
    (hobtain : Obtains size kernel length scratch (lowered size address length protection m)) :
    LeftAlone size address length m (released size kernel length scratch
        ((withScratch size address length protection scratch m).replaceThrough size address length
          scratch (PROT_READ ||| PROT_WRITE) 0)) ↔
      kernel.release = none ∧ prior = PROT_READ ||| PROT_WRITE ∧
        ZeroAround size address length m := by
  rw [leftAlone_released_iff hlength huniform hobtain, hobtain.replaced_iff hsize]
  · intro page hpage
    simp [Memory.replaceThrough, hpage]
  · intro page hpage
    have hother : page ∉ pages size address length := fun hmem => hobtain.not_mem hmem hpage
    simp [Memory.replaceThrough, withScratch, hpage, hother]
  · intro page hrange hscratch
    simp [Memory.replaceThrough, withScratch, lowered, hrange, hscratch]

/-- What it takes for a failed call to leave a range of protection `prior` alone. Once the fallback
has made the range readable, its old protection must be the one that the failed call finds, the
scratch mapping must be given back, and a range already replaced must have had zeros around it. -/
def Undoes (size : ℕ) (kernel : KernelReplies) (address length : ℕ) (protection prior : Int32)
    (m : Memory UInt8 Int32) : Prop :=
  FallsBack kernel protection → 0 < length → kernel.readable = none →
    ((∀ scratch, ¬ Obtains size kernel length scratch (lowered size address length protection m)) →
      prior = readableProtection protection) ∧
    ∀ scratch, Obtains size kernel length scratch (lowered size address length protection m) →
      kernel.release = none ∧
      (kernel.replacement ≠ none → prior = readableProtection protection) ∧
      (kernel.replacement = none →
        prior = PROT_READ ||| PROT_WRITE ∧ ZeroAround size address length m)

/-- Only one scratch range is ever obtained. -/
lemma Obtains.undoes_iff (hback : FallsBack kernel protection) (hlength : 0 < length)
    (hread : kernel.readable = none)
    (hobtain : Obtains size kernel length scratch (lowered size address length protection m)) :
    Undoes size kernel address length protection prior m ↔
      kernel.release = none ∧
      (kernel.replacement ≠ none → prior = readableProtection protection) ∧
      (kernel.replacement = none →
        prior = PROT_READ ||| PROT_WRITE ∧ ZeroAround size address length m) := by
  constructor
  · intro h
    exact (h hback hlength hread).2 scratch hobtain
  · intro h _ _ _
    exact ⟨fun hnone => absurd hobtain (hnone scratch), fun _ _ => h⟩

/-- A failed call leaves the range alone exactly when the protection it lowered, the bytes it
replaced and the scratch mapping it made happen to come out as they were. -/
theorem failure_leaves_alone_iff (hsize : 0 < size)
    (huniform : ∀ page ∈ pages size address length, process.memory.prot page = some prior)
    (hfailed : (mprotect size kernel address length protection process).1 = -1) :
    LeftAlone size address length process.memory
        (mprotect size kernel address length protection process).2.memory ↔
      Undoes size kernel address length protection prior process.memory := by
  rcases mprotect_cases size kernel address length protection process with
    ⟨hback, hexit⟩ | ⟨hback, -, hsame⟩ | ⟨-, hserved⟩
  · rw [hfailed] at hexit
    generalize (mprotect size kernel address length protection process).2.memory = after at *
    cases hexit with
    | unread hstop =>
      refine iff_of_true (leftAlone_refl size address length _) fun _ hlength hread => ?_
      have hmapped : process.memory.Mapped (pages size address length) := by
        intro page hpage
        rw [huniform page hpage]
        rfl
      rcases hstop with hzero | hrefused | hunmapped
      · omega
      · exact absurd hread hrefused
      · exact absurd hmapped hunmapped
    | unscratched hlength hread hstop =>
      rw [leftAlone_lowered_iff hlength huniform]
      constructor
      · intro hprior _ _ _
        exact ⟨fun _ => hprior, fun scratch hobtain => absurd hobtain (hstop scratch)⟩
      · intro h
        exact (h hback hlength hread).1 hstop
    | unreplaced scratch hlength hread hobtain hstop =>
      rw [hobtain.undoes_iff hback hlength hread,
        hobtain.leftAlone_copied_iff hsize hlength huniform]
      simp [hstop]
    | unprotected scratch hlength hread hobtain hreplace hstop =>
      rw [hobtain.undoes_iff hback hlength hread,
        hobtain.leftAlone_replaced_iff hsize hlength huniform]
      simp [hreplace]
  · rw [hsame]
    exact iff_of_true (leftAlone_refl size address length _) fun h => absurd h hback
  · rw [hfailed] at hserved
    exact absurd hserved (by decide)

/-- Without room for the scratch mapping, a range that was readable only stays so. -/
theorem failure_leaves_alone_iff_readable :
    LeftAlone 4096 4096 2 (markedPage PROT_READ).memory
      (mprotect 4096 { noexecKernel with scratch := .error ENOMEM } 4096 2
        (PROT_READ ||| PROT_EXEC) (markedPage PROT_READ)).2.memory := by
  have huniform : ∀ page ∈ pages 4096 4096 2,
      (markedPage PROT_READ).memory.prot page = some PROT_READ := by decide
  refine (failure_leaves_alone_iff (by decide) huniform (by decide +kernel)).mpr ?_
  intro _ _ _
  refine ⟨fun _ => by decide, fun scratch hobtain => ?_⟩
  cases hobtain.1

/-- When the last call is refused, a range that was readable only is left writable. -/
theorem refused_range_left_writable :
    (∀ page ∈ pages 4096 4096 2, (markedPage PROT_READ).memory.prot page = some PROT_READ) ∧
      (mprotect 4096 { noexecKernel with final := some EACCES } 4096 2
        (PROT_READ ||| PROT_EXEC) (markedPage PROT_READ)).1 = -1 ∧
      (mprotect 4096 { noexecKernel with final := some EACCES } 4096 2
        (PROT_READ ||| PROT_EXEC) (markedPage PROT_READ)).2.memory.prot 1 =
          some (PROT_READ ||| PROT_WRITE) ∧
      ¬ LeftAlone 4096 4096 2 (markedPage PROT_READ).memory
        (mprotect 4096 { noexecKernel with final := some EACCES } 4096 2
          (PROT_READ ||| PROT_EXEC) (markedPage PROT_READ)).2.memory := by
  have hafter : (mprotect 4096 { noexecKernel with final := some EACCES } 4096 2
      (PROT_READ ||| PROT_EXEC) (markedPage PROT_READ)).2.memory.prot 1 =
        some (PROT_READ ||| PROT_WRITE) := by decide +kernel
  refine ⟨by decide, by decide +kernel, hafter, ?_⟩
  rintro ⟨-, hprot, -⟩
  have hsame := hprot 1 (by decide)
  rw [hafter] at hsame
  exact absurd hsame (by decide)

end Tgcompat.Mprotect
