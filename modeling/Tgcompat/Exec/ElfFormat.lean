import Tgcompat.Exec.Elf

/-!
# The files with an interpreter

Which files `read_elf_interpreter` accepts, said about the bytes of the file: where the fields of
its headers are, and that what they point to lies inside the file.
-/

namespace Tgcompat

/-! ### The format -/

/-- The program header at a position of the file points to a string in the file. -/
structure PointsTo (capacity : ℕ) (content : List UInt8) (position : ℕ) (bytes : List UInt8) :
    Prop where
  long : 2 ≤ elfField content (position + 32) 8
  short : elfField content (position + 32) 8 ≤ capacity
  inside : elfField content (position + 8) 8 + elfField content (position + 32) 8 ≤ content.length
  bytes_eq : bytes = (content.drop (elfField content (position + 8) 8)).take
    (elfField content (position + 32) 8)
  terminated : bytes.getLast? = some 0

/-- The position of a program header. -/
def headerPosition (content : List UInt8) (index : ℕ) : ℕ :=
  elfField content 32 8 + index * phdrSize

def IsInterp (content : List UInt8) (index : ℕ) : Prop :=
  elfField content (headerPosition content index) 4 = ptInterp

/-- The file is an ELF file of the machine with an interpreter, `bytes`: its first `PT_INTERP`
header points to them, and they fit into `capacity`. -/
structure HasInterpreter (machine : ElfMachine) (capacity : ℕ) (content bytes : List UInt8) :
    Prop where
  header : ehdrSize ≤ content.length
  magic : content.take 4 = elfMagic
  is64Bit : elfField content 4 1 = 2
  isLittleEndian : elfField content 5 1 = 1
  isMachine : elfField content 18 2 = machine.code
  entrySize : elfField content 54 2 = phdrSize
  entries : 1 ≤ elfField content 56 2 ∧ elfField content 56 2 ≤ 128
  table : headerPosition content (elfField content 56 2) ≤ content.length
  first : ∃ index < elfField content 56 2, IsInterp content index ∧
    (∀ earlier < index, ¬ IsInterp content earlier) ∧
      PointsTo capacity content (headerPosition content index) bytes

/-! ### Windows of a file -/

variable {content bytes : List UInt8} {length offset capacity : ℕ} {machine : ElfMachine}

/-- A field that was read with its surroundings. -/
lemma elfField_window {position width off n : ℕ} (h : off + n ≤ width) :
    elfField ((content.drop position).take width) off n = elfField content (position + off) n := by
  rw [elfField, elfField, List.drop_take, List.take_take, List.drop_drop, min_eq_left (by omega)]

/-- A file is not longer than an `off_t` can say, so the bound of `read_exact_at` is no bound. -/
lemma readExactAt_eq_some_iff (hsize : content.length ≤ int64Max) (hpos : 0 < length) :
    readExactAt content length offset = some bytes ↔
      offset + length ≤ content.length ∧ (content.drop offset).take length = bytes := by
  unfold readExactAt
  split_ifs with hbound hinside
  · simp only [false_iff, not_and]
    omega
  · simp only [Option.some.injEq, iff_and_self]
    omega
  · simp only [false_iff, not_and]
    omega

lemma tableAccepted_iff {phoff phnum size : ℕ} (hsize : size ≤ int64Max) :
    tableAccepted phoff phnum size = true ↔ phoff + phnum * phdrSize ≤ size := by
  have hmax : int64Max = 2 ^ 63 - 1 := rfl
  have hentry : phdrSize = 56 := rfl
  simp only [tableAccepted, Bool.and_eq_true, decide_eq_true_eq, hentry]
  omega

/-! ### Acceptance -/

lemma charAt_eq_zero_iff (hlength : bytes.length = length) (hpos : 0 < length) :
    charAt bytes (length - 1) = 0 ↔ bytes.getLast? = some 0 := by
  subst hlength
  rw [List.getLast?_eq_getElem?, charAt, List.getD_eq_getElem?_getD,
    List.getElem?_eq_getElem (by omega)]
  simp

/-- A program header that is read at `position`. -/
lemma readInterpreter_eq_some_iff (hsize : content.length ≤ int64Max) {position : ℕ} :
    readInterpreter content capacity ((content.drop position).take phdrSize) = some bytes ↔
      PointsTo capacity content position bytes := by
  have hmax : int64Max = 2 ^ 63 - 1 := rfl
  have hfilesz : elfField ((content.drop position).take phdrSize) 32 8 =
      elfField content (position + 32) 8 := elfField_window (by decide)
  have hoffset : elfField ((content.drop position).take phdrSize) 8 8 =
      elfField content (position + 8) 8 := elfField_window (by decide)
  simp only [readInterpreter, hfilesz, hoffset]
  constructor
  · intro h
    split_ifs at h with hchecks
    cases hread : readExactAt content (elfField content (position + 32) 8)
        (elfField content (position + 8) 8) with
    | none => simp [hread] at h
    | some interpreter =>
      simp only [hread, Option.ite_none_right_eq_some, Option.some.injEq] at h
      obtain ⟨hzero, rfl⟩ := h
      obtain ⟨hinside, heq⟩ := (readExactAt_eq_some_iff hsize (by omega)).mp hread
      have hlength : interpreter.length = elfField content (position + 32) 8 := by
        rw [← heq, List.length_take, List.length_drop]
        omega
      exact ⟨by omega, by omega, hinside, heq.symm,
        (charAt_eq_zero_iff hlength (by omega)).mp hzero⟩
  · rintro ⟨hlong, hshort, hinside, rfl, hterminated⟩
    have hlength : ((content.drop (elfField content (position + 8) 8)).take
        (elfField content (position + 32) 8)).length = elfField content (position + 32) 8 := by
      rw [List.length_take, List.length_drop]
      omega
    have hread : readExactAt content (elfField content (position + 32) 8)
        (elfField content (position + 8) 8) = some _ :=
      (readExactAt_eq_some_iff hsize (by omega)).mpr ⟨hinside, rfl⟩
    rw [if_neg (by omega), hread]
    simp [(charAt_eq_zero_iff hlength (by omega)).mpr hterminated]

/-- The loop stops at the first `PT_INTERP` header. -/
lemma scanProgramHeaders_eq (hsize : content.length ≤ int64Max) {phoff : ℕ} {indices : List ℕ}
    (hin : ∀ index ∈ indices, phoff + index * phdrSize + phdrSize ≤ content.length) :
    scanProgramHeaders content capacity phoff indices =
      (indices.find? fun index =>
        decide (elfField content (phoff + index * phdrSize) 4 = ptInterp)).bind fun index =>
          readInterpreter content capacity
            ((content.drop (phoff + index * phdrSize)).take phdrSize) := by
  induction indices with
  | nil => rfl
  | cons index rest ih =>
    have hread := (readExactAt_eq_some_iff hsize (show 0 < phdrSize by decide)).mpr
      ⟨hin index List.mem_cons_self, rfl⟩
    have htype : elfField ((content.drop (phoff + index * phdrSize)).take phdrSize) 0 4 =
        elfField content (phoff + index * phdrSize) 4 := elfField_window (by decide)
    simp only [scanProgramHeaders, hread, htype, List.find?_cons]
    by_cases hinterp : elfField content (phoff + index * phdrSize) 4 = ptInterp
    · simp [hinterp]
    · rw [if_pos hinterp, decide_eq_false hinterp]
      exact ih fun i hi => hin i (List.mem_cons_of_mem _ hi)

lemma scanProgramHeaders_eq_some_iff (hsize : content.length ≤ int64Max)
    (htable : headerPosition content (elfField content 56 2) ≤ content.length) :
    scanProgramHeaders content capacity (elfField content 32 8)
        (List.range (elfField content 56 2)) = some bytes ↔
      ∃ index < elfField content 56 2, IsInterp content index ∧
        (∀ earlier < index, ¬ IsInterp content earlier) ∧
          PointsTo capacity content (headerPosition content index) bytes := by
  have hin : ∀ index ∈ List.range (elfField content 56 2),
      elfField content 32 8 + index * phdrSize + phdrSize ≤ content.length := by
    intro index hindex
    have hle := Nat.mul_le_mul_right phdrSize (List.mem_range.mp hindex)
    rw [Nat.succ_mul] at hle
    rw [headerPosition] at htable
    omega
  rw [scanProgramHeaders_eq hsize hin, Option.bind_eq_some_iff]
  simp only [List.find?_range_eq_some, readInterpreter_eq_some_iff hsize, decide_eq_true_eq,
    List.mem_range, Bool.not_eq_true', decide_eq_false_iff_not]
  constructor
  · rintro ⟨index, ⟨hinterp, hlt, hearlier⟩, hpoints⟩
    exact ⟨index, hlt, hinterp, hearlier, hpoints⟩
  · rintro ⟨index, hlt, hinterp, hearlier, hpoints⟩
    exact ⟨index, ⟨hinterp, hlt, hearlier⟩, hpoints⟩

lemma headerAccepted_iff : headerAccepted machine ((content.drop 0).take ehdrSize) = true ↔
    content.take 4 = elfMagic ∧ elfField content 4 1 = 2 ∧ elfField content 5 1 = 1 ∧
      elfField content 18 2 = machine.code ∧ elfField content 54 2 = phdrSize ∧
      elfField content 56 2 ≠ 0 ∧ elfField content 56 2 ≤ 128 := by
  have hfield : ∀ off n, off + n ≤ ehdrSize →
      elfField ((content.drop 0).take ehdrSize) off n = elfField content off n := by
    intro off n h
    rw [elfField_window h, Nat.zero_add]
  have hmagic : ((content.drop 0).take ehdrSize).take 4 = content.take 4 := by
    rw [List.drop_zero, List.take_take]
    rfl
  simp only [headerAccepted, Bool.and_eq_true, decide_eq_true_eq, hmagic,
    hfield 4 1 (by decide), hfield 5 1 (by decide), hfield 18 2 (by decide),
    hfield 54 2 (by decide), hfield 56 2 (by decide), and_assoc]

/-- What is asked of a file before its program headers are looked at. -/
lemma interpreterOf_eq_some (hsize : content.length ≤ int64Max) :
    interpreterOf machine capacity content = some bytes ↔
      ehdrSize ≤ content.length ∧
      headerAccepted machine ((content.drop 0).take ehdrSize) = true ∧
      headerPosition content (elfField content 56 2) ≤ content.length ∧
      scanProgramHeaders content capacity (elfField content 32 8)
        (List.range (elfField content 56 2)) = some bytes := by
  have hphoff : elfField ((content.drop 0).take ehdrSize) 32 8 = elfField content 32 8 := by
    rw [elfField_window (by decide), Nat.zero_add]
  have hphnum : elfField ((content.drop 0).take ehdrSize) 56 2 = elfField content 56 2 := by
    rw [elfField_window (by decide), Nat.zero_add]
  have hread : ∀ header, readExactAt content ehdrSize 0 = some header ↔
      0 + ehdrSize ≤ content.length ∧ (content.drop 0).take ehdrSize = header :=
    fun header => readExactAt_eq_some_iff hsize (by decide)
  unfold interpreterOf
  cases hheader : readExactAt content ehdrSize 0 with
  | none =>
    simp only [reduceCtorEq, false_iff, not_and]
    intro hlength
    have hsome := (hread _).mpr ⟨by omega, rfl⟩
    rw [hheader] at hsome
    cases hsome
  | some header =>
    obtain ⟨hlength, rfl⟩ := (hread header).mp hheader
    rw [Nat.zero_add] at hlength
    simp only [hphoff, hphnum, Option.ite_none_right_eq_some, Bool.and_eq_true,
      tableAccepted_iff hsize, hlength, true_and, and_assoc, headerPosition]

/-- The reader accepts the files of the format. -/
lemma interpreterOf_eq_some_iff (hsize : content.length ≤ int64Max) :
    interpreterOf machine capacity content = some bytes ↔
      HasInterpreter machine capacity content bytes := by
  rw [interpreterOf_eq_some hsize, headerAccepted_iff]
  constructor
  · rintro ⟨hheader, ⟨hmagic, hclass, hdata, hmachine, hentry, hpos, hle⟩, htable, hfound⟩
    exact ⟨hheader, hmagic, hclass, hdata, hmachine, hentry, ⟨by omega, hle⟩, htable,
      (scanProgramHeaders_eq_some_iff hsize htable).mp hfound⟩
  · rintro ⟨hheader, hmagic, hclass, hdata, hmachine, hentry, ⟨hpos, hle⟩, htable, hfirst⟩
    exact ⟨hheader, ⟨hmagic, hclass, hdata, hmachine, hentry, by omega, hle⟩, htable,
      (scanProgramHeaders_eq_some_iff hsize htable).mpr hfirst⟩

end Tgcompat
