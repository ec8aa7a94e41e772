import Tgcompat.Exec.ElfFormat
import Tgcompat.Exec.Loader
import Tgcompat.Protocol.Transport

/-!
# Reading an ELF file piece by piece

`read_exact_at` and `read_elf_interpreter` with their calls of `pread`, which may be short or
interrupted. As for the transport, what the kernel does with each call is a list of outcomes, and a
reader that has used up the list has not returned yet. Buffers are memory, so that it can be said
what is written where, and a reader keeps a record of the 64-bit values it computes.
-/

namespace Tgcompat

open Cut

/-- A file; its size is an `off_t`. -/
structure RegularFile where
  content : List UInt8
  size_le : content.length ≤ int64Max

/-- A value that is computed with 64 bits: what it would be without a bound. -/
inductive Computed where
  | unsigned (exact : ℤ)
  | signed (exact : ℤ)
  deriving DecidableEq, Repr

/-- The value is not wrapped. -/
def Computed.Fits : Computed → Prop
  | unsigned exact => 0 ≤ exact ∧ exact < 2 ^ 64
  | signed exact => -2 ^ 63 ≤ exact ∧ exact < 2 ^ 63

/-- A return: its value, the buffer, the outcomes to come and the values computed. -/
structure Reading where
  ok : Bool
  buffer : Buffer
  cuts : List Cut
  computed : List Computed

def Reading.after (computed : List Computed) (r : Reading) : Reading :=
  { r with computed := computed ++ r.computed }

/-! ### `read_exact_at` -/

def pread (cut : Cut) (content : List UInt8) (length offset : ℕ) : Except Int32 (List UInt8) :=
  recv cut (content.drop offset) length

/-- The loop of `read_exact_at`. -/
def preadLoop (content : List UInt8) (length offset : ℕ) :
    Buffer → ℕ → List Cut → Option Reading
  | buffer, consumed, [] => if consumed < length then none else some ⟨true, buffer, [], []⟩
  | buffer, consumed, cut :: cuts =>
    if consumed < length then
      Option.map (Reading.after [.unsigned (length - consumed), .signed (offset + consumed)])
        (match pread cut content (length - consumed) (offset + consumed) with
        | .ok [] => some ⟨false, buffer, cuts, []⟩
        | .ok (byte :: data) =>
          Option.map (Reading.after [.unsigned (consumed + (data.length + 1))])
            (preadLoop content length offset (writeBytes buffer consumed (byte :: data))
              (consumed + (data.length + 1)) cuts)
        | .error errno =>
          if errno = EINTR then preadLoop content length offset buffer consumed cuts
          else some ⟨false, buffer, cuts, []⟩)
    else some ⟨true, buffer, cut :: cuts, []⟩

/-- `read_exact_at`. The offset is not negative: its callers check it before they convert it. -/
def runReadExactAt (content : List UInt8) (buffer : Buffer) (length offset : ℕ)
    (cuts : List Cut) : Option Reading :=
  if length > int64Max then some ⟨false, buffer, cuts, []⟩
  else
    Option.map (Reading.after [.unsigned (int64Max - length)])
      (if offset > int64Max - length then some ⟨false, buffer, cuts, []⟩
      else preadLoop content length offset buffer 0 cuts)

/-! ### `read_elf_interpreter` -/

/-- The interpreter that a `PT_INTERP` header points to. -/
def runReadInterpreter (content : List UInt8) (capacity : ℕ) (programHeader : List UInt8)
    (interpreter : Buffer) (cuts : List Cut) : Option Reading :=
  let filesz := elfField programHeader 32 8
  let offset := elfField programHeader 8 8
  if filesz < 2 ∨ filesz > capacity ∨ offset > int64Max then some ⟨false, interpreter, cuts, []⟩
  else
    Option.map (Reading.after [.unsigned (offset + filesz), .signed offset])
      (if (offset + filesz) % 2 ^ 64 > content.length then some ⟨false, interpreter, cuts, []⟩
      else
        Option.map
          (fun r => ⟨r.ok && decide (r.buffer (filesz - 1) = 0), r.buffer, r.cuts,
            r.computed ++ if r.ok then [.unsigned (filesz - 1)] else []⟩)
          (runReadExactAt content interpreter filesz offset cuts))

/-- The loop over the program headers; each is read into memory that held `stack`. -/
def runScanProgramHeaders (content : List UInt8) (capacity phoff : ℕ) (stack : Buffer) :
    List ℕ → Buffer → List Cut → Option Reading
  | [], interpreter, cuts => some ⟨false, interpreter, cuts, []⟩
  | index :: rest, interpreter, cuts =>
    Option.bind (runReadExactAt content stack phdrSize (phoff + index * phdrSize) cuts)
      fun header =>
        Option.map
          (Reading.after ([.signed phoff, .unsigned (index * phdrSize), .signed (index * phdrSize),
            .signed (phoff + index * phdrSize)] ++ header.computed))
          (if header.ok = false then some ⟨false, interpreter, header.cuts, []⟩
          else if elfField (readBytes header.buffer 0 phdrSize) 0 4 ≠ ptInterp then
            runScanProgramHeaders content capacity phoff stack rest interpreter header.cuts
          else
            runReadInterpreter content capacity (readBytes header.buffer 0 phdrSize) interpreter
              header.cuts)

/-- The sums of the check on the program header table. -/
def tableComputed (phoff phnum : ℕ) : List Computed :=
  if phoff > int64Max then []
  else if phnum > (int64Max - phoff) / phdrSize then [.unsigned (int64Max - phoff)]
  else [.unsigned (int64Max - phoff), .unsigned (phnum * phdrSize),
    .unsigned (phoff + phnum * phdrSize)]

/-- `read_elf_interpreter` of a regular file that could be opened. -/
def runReadElfInterpreter (machine : ElfMachine) (file : RegularFile) (capacity : ℕ)
    (stack interpreter : Buffer) (cuts : List Cut) : Option Reading :=
  Option.bind (runReadExactAt file.content stack ehdrSize 0 cuts) fun read =>
    let header := readBytes read.buffer 0 ehdrSize
    let phoff := elfField header 32 8
    let phnum := elfField header 56 2
    Option.map (Reading.after read.computed)
      (if read.ok = false ∨ headerAccepted machine header = false then
        some ⟨false, interpreter, read.cuts, []⟩
      else
        Option.map (Reading.after (tableComputed phoff phnum))
          (if tableAccepted phoff phnum file.content.length = false then
            some ⟨false, interpreter, read.cuts, []⟩
          else
            runScanProgramHeaders file.content capacity phoff stack (List.range phnum) interpreter
              read.cuts))

/-! ### Rules for runs -/

variable {cuts : List Cut} {n m : ℕ} {x : Option Reading} {p q : Reading → Prop}

/-- Under a smooth schedule, a run that returns does so with `p` and has used at most `n` moves,
and `n` moves are enough for it to return. -/
structure Completes (cuts : List Cut) (n : ℕ) (x : Option Reading) (p : Reading → Prop) : Prop where
  returns : n ≤ moves cuts → x.isSome = true
  holds : ∀ r, x = some r → p r ∧ Leaves cuts r.cuts n

namespace Completes

lemma of_some {r : Reading} (hsmooth : ∀ cut ∈ r.cuts, cut.isSmooth = true) (h : p r) :
    Completes r.cuts n (some r) p where
  returns _ := rfl
  holds r' heq := by
    cases heq
    exact ⟨h, hsmooth, Nat.le_add_right _ _⟩

lemma weaken (h : Completes cuts n x p) (himp : ∀ r, p r → q r) (hle : n ≤ m) :
    Completes cuts m x q where
  returns hmoves := h.returns (hle.trans hmoves)
  holds r heq := by
    obtain ⟨hp, hsmooth, hmoves⟩ := h.holds r heq
    exact ⟨himp r hp, hsmooth, by omega⟩

lemma map {f : Reading → Reading} (h : Completes cuts n x p) (hcuts : ∀ r, (f r).cuts = r.cuts)
    (himp : ∀ r, p r → q (f r)) : Completes cuts n (x.map f) q where
  returns hmoves := by
    rw [Option.isSome_map]
    exact h.returns hmoves
  holds r heq := by
    obtain ⟨r', hr', rfl⟩ := Option.map_eq_some_iff.mp heq
    obtain ⟨hp, hleaves⟩ := h.holds r' hr'
    exact ⟨himp r' hp, hcuts r' ▸ hleaves⟩

lemma bind {f : Reading → Option Reading} (h : Completes cuts n x p)
    (hnext : ∀ r, p r → (∀ cut ∈ r.cuts, cut.isSmooth = true) → Completes r.cuts m (f r) q) :
    Completes cuts (n + m) (x.bind f) q where
  returns hmoves := by
    obtain ⟨r, hr⟩ := Option.isSome_iff_exists.mp (h.returns (by omega))
    obtain ⟨hp, hsmooth, hle⟩ := h.holds r hr
    rw [hr]
    exact (hnext r hp hsmooth).returns (by omega)
  holds r heq := by
    obtain ⟨r', hr', hf⟩ := Option.bind_eq_some_iff.mp heq
    obtain ⟨hp, hsmooth, hle⟩ := h.holds r' hr'
    obtain ⟨hq, hsmooth', hle'⟩ := (hnext r' hp hsmooth).holds r hf
    exact ⟨hq, hsmooth', by omega⟩

/-- An interrupted call changes nothing. -/
lemma interrupted (h : Completes cuts n x p) : Completes (.interrupted :: cuts) n x p where
  returns hmoves := h.returns (by simpa using hmoves)
  holds r heq := ⟨(h.holds r heq).1, (h.holds r heq).2.interrupted⟩

lemma moved {extra : ℕ} (h : Completes cuts n x p) (hle : n + 1 ≤ m) :
    Completes (.moved extra :: cuts) m x p where
  returns hmoves := by
    rw [moves_moved] at hmoves
    exact h.returns (by omega)
  holds r heq := ⟨(h.holds r heq).1, (h.holds r heq).2.moved hle⟩

end Completes

/-- What a run does that reads `result`: it says so, writes it to the start of the buffer and no
byte beyond the limit, and computes nothing that does not fit, if the sizes are `exact`. -/
structure ReadsInto (result : Option (List UInt8)) (limit : ℕ) (exact : Prop) (buffer : Buffer)
    (r : Reading) : Prop where
  ok : r.ok = result.isSome
  written : ∀ bytes, result = some bytes → r.buffer = writeBytes buffer 0 bytes
  outside : ∀ n, limit ≤ n → r.buffer n = buffer n
  fits : exact → ∀ c ∈ r.computed, c.Fits

namespace ReadsInto

variable {result : Option (List UInt8)} {limit : ℕ} {exact : Prop} {buffer : Buffer} {r : Reading}
  {computed : List Computed}

/-- Nothing is read and nothing is written. -/
lemma refused : ReadsInto none limit exact buffer ⟨false, buffer, cuts, []⟩ where
  ok := rfl
  written _ h := by cases h
  outside _ _ := rfl
  fits _ _ h := by cases h

lemma after (h : ReadsInto result limit exact buffer r)
    (hcomputed : exact → ∀ c ∈ computed, c.Fits) :
    ReadsInto result limit exact buffer (r.after computed) where
  ok := h.ok
  written := h.written
  outside := h.outside
  fits hexact := List.forall_mem_append.mpr ⟨hcomputed hexact, h.fits hexact⟩

end ReadsInto

lemma Completes.refused {limit : ℕ} {exact : Prop} {buffer : Buffer}
    (hsmooth : ∀ cut ∈ cuts, cut.isSmooth = true) :
    Completes cuts n (some ⟨false, buffer, cuts, []⟩) (ReadsInto none limit exact buffer) :=
  Completes.of_some (r := ⟨false, buffer, cuts, []⟩) hsmooth ReadsInto.refused

/-! ### The loop of `pread` calls -/

section Loop

variable {content : List UInt8} {length offset consumed : ℕ} {buffer : Buffer}

/-- What the loop does from `consumed` on: the bytes up to `length` are there, or the file ends
before them; what there is is copied. -/
structure LoopReads (content : List UInt8) (length offset : ℕ) (buffer : Buffer) (consumed : ℕ)
    (r : Reading) : Prop where
  ok : r.ok = decide (length - consumed ≤ (content.drop (offset + consumed)).length)
  buffer_eq : r.buffer =
    writeBytes buffer consumed ((content.drop (offset + consumed)).take (length - consumed))
  fits : ∀ c ∈ r.computed, c.Fits

lemma LoopReads.after {r : Reading} {computed : List Computed}
    (h : LoopReads content length offset buffer consumed r) (hcomputed : ∀ c ∈ computed, c.Fits) :
    LoopReads content length offset buffer consumed (r.after computed) where
  ok := h.ok
  buffer_eq := h.buffer_eq
  fits := List.forall_mem_append.mpr ⟨hcomputed, h.fits⟩

lemma LoopReads.of_done (hdone : length ≤ consumed) :
    LoopReads content length offset buffer consumed ⟨true, buffer, cuts, []⟩ where
  ok := by simp [Nat.sub_eq_zero_of_le hdone]
  buffer_eq := by simp [Nat.sub_eq_zero_of_le hdone]
  fits _ hc := by cases hc

/-- The file ends where the loop stands. -/
lemma LoopReads.of_end (hlt : consumed < length) (hend : content.drop (offset + consumed) = []) :
    LoopReads content length offset buffer consumed ⟨false, buffer, cuts, []⟩ where
  ok := by
    rw [hend]
    simp [Nat.sub_ne_zero_of_lt hlt]
  buffer_eq := by simp [hend]
  fits _ hc := by cases hc

/-- One `pread` has copied the first of the bytes that are left. -/
lemma LoopReads.of_moved {data : List UInt8} {r : Reading}
    (hlength : consumed + data.length ≤ length)
    (hdata : (content.drop (offset + consumed)).take data.length = data)
    (h : LoopReads content length offset (writeBytes buffer consumed data)
      (consumed + data.length) r) :
    LoopReads content length offset buffer consumed r where
  ok := by
    have hle : data.length ≤ (content.drop (offset + consumed)).length := by
      rw [← hdata, List.length_take]
      exact min_le_right _ _
    rw [h.ok, decide_eq_decide, List.length_drop, List.length_drop]
    rw [List.length_drop] at hle
    omega
  buffer_eq := by
    have hsplit : length - consumed = data.length + (length - (consumed + data.length)) := by omega
    rw [h.buffer_eq, writeBytes_append, hsplit, List.take_add, hdata, List.drop_drop, add_assoc]
  fits := h.fits

lemma preadLoop_completes (hbound : offset + length ≤ int64Max)
    (hsmooth : ∀ cut ∈ cuts, cut.isSmooth = true) (hle : consumed ≤ length) :
    Completes cuts (length - consumed) (preadLoop content length offset buffer consumed cuts)
      (LoopReads content length offset buffer consumed) := by
  have hmax : int64Max = 2 ^ 63 - 1 := rfl
  induction cuts generalizing buffer consumed with
  | nil =>
    rw [preadLoop]
    split_ifs with hlt
    · refine ⟨fun hmoves => ?_, fun r hr => by cases hr⟩
      simp only [moves, List.countP_nil] at hmoves
      omega
    · exact Completes.of_some hsmooth (LoopReads.of_done (not_lt.mp hlt))
  | cons cut cuts ih =>
    have hcuts : ∀ c ∈ cuts, c.isSmooth = true := fun c hc => hsmooth c (List.mem_cons_of_mem _ hc)
    rw [preadLoop]
    by_cases hlt : consumed < length
    · rw [if_pos hlt]
      have hfits : ∀ c ∈ [Computed.unsigned (length - consumed), .signed (offset + consumed)],
          c.Fits := by
        simp only [List.mem_cons, List.not_mem_nil, or_false, forall_eq_or_imp, forall_eq,
          Computed.Fits]
        omega
      refine Completes.map ?_ (fun r => rfl) fun r hr => LoopReads.after hr hfits
      rcases smooth_cases (hsmooth cut List.mem_cons_self) with rfl | ⟨extra, rfl⟩
      · exact (ih hcuts hle).interrupted
      · simp only [pread, recv]
        have hlen : ((content.drop (offset + consumed)).take
            (min (extra + 1) (length - consumed))).length =
              min (min (extra + 1) (length - consumed)) (content.drop (offset + consumed)).length :=
          List.length_take
        cases hdata : (content.drop (offset + consumed)).take
            (min (extra + 1) (length - consumed)) with
        | nil =>
          -- the end of the file
          rw [hdata, List.length_nil] at hlen
          have hend : content.drop (offset + consumed) = [] :=
            List.length_eq_zero_iff.mp (by omega)
          exact (Completes.of_some (r := ⟨false, buffer, cuts, []⟩) (n := 0) hcuts
            (LoopReads.of_end hlt hend)).moved (by omega)
        | cons byte data =>
          rw [hdata] at hlen
          have hstep : consumed + (byte :: data).length ≤ length := by omega
          have htake : (content.drop (offset + consumed)).take (byte :: data).length =
              byte :: data := by
            rw [hlen, ← hdata, List.take_eq_take_iff]
            omega
          have hfits' : ∀ c ∈ [Computed.unsigned (consumed + (data.length + 1))], c.Fits := by
            rw [List.length_cons] at hstep
            simp only [List.mem_singleton, forall_eq, Computed.Fits]
            omega
          refine Completes.moved (n := length - (consumed + (byte :: data).length)) ?_
            (by simp only [List.length_cons] at hstep ⊢; omega)
          exact (ih hcuts hstep).map (fun r => rfl) fun r hr =>
            (LoopReads.of_moved hstep htake hr).after hfits'
    · rw [if_neg hlt]
      exact Completes.of_some hsmooth (LoopReads.of_done (not_lt.mp hlt))

/-- The loop reads what one `pread` of everything would. -/
lemma LoopReads.readsInto {r : Reading} (h : LoopReads content length offset buffer 0 r)
    (hbound : offset + length ≤ int64Max) :
    ReadsInto (readExactAt content length offset) length True buffer r := by
  have hchecks : ¬ (length > int64Max ∨ offset > int64Max - length) := by omega
  have hwritten := h.buffer_eq
  have hok := h.ok
  simp only [Nat.add_zero, Nat.sub_zero, List.length_drop] at hwritten hok
  rw [readExactAt, if_neg hchecks]
  refine ⟨?_, ?_, ?_, fun _ => h.fits⟩
  · rw [hok]
    split_ifs with hinside
    · exact decide_eq_true (by omega)
    · exact decide_eq_false (by omega)
  · intro bytes hbytes
    split_ifs at hbytes
    cases hbytes
    exact hwritten
  · intro n hn
    have hlen : ((content.drop offset).take length).length ≤ length := List.length_take_le _ _
    rw [hwritten, writeBytes, if_neg (by omega)]

lemma runReadExactAt_completes (hsmooth : ∀ cut ∈ cuts, cut.isSmooth = true) :
    Completes cuts length (runReadExactAt content buffer length offset cuts)
      (ReadsInto (readExactAt content length offset) length True buffer) := by
  have hmax : int64Max = 2 ^ 63 - 1 := rfl
  rw [runReadExactAt]
  by_cases hlength : length > int64Max
  · rw [if_pos hlength, readExactAt, if_pos (Or.inl hlength)]
    exact Completes.refused hsmooth
  · rw [if_neg hlength]
    have hfits : ∀ c ∈ [Computed.unsigned (int64Max - length)], c.Fits := by
      simp only [List.mem_singleton, forall_eq, Computed.Fits]
      omega
    refine Completes.map ?_ (fun r => rfl) fun r hr => ReadsInto.after hr fun _ => hfits
    by_cases hoffset : offset > int64Max - length
    · rw [if_pos hoffset, readExactAt, if_pos (Or.inr hoffset)]
      exact Completes.refused hsmooth
    · rw [if_neg hoffset]
      have hbound : offset + length ≤ int64Max := by omega
      exact (preadLoop_completes hbound hsmooth (Nat.zero_le length)).weaken
        (fun r hr => hr.readsInto hbound) le_rfl

/-- What was read is in the buffer. -/
lemma ReadsInto.readBytes_eq {limit : ℕ} {exact : Prop} {bytes : List UInt8} {r : Reading}
    (h : ReadsInto (some bytes) limit exact buffer r) :
    readBytes r.buffer 0 bytes.length = bytes := by
  have hread := readBytes_writeBytes_take buffer bytes le_rfl
  rwa [List.take_length, ← h.written bytes rfl] at hread

lemma length_of_readExactAt {bytes : List UInt8}
    (h : readExactAt content length offset = some bytes) : bytes.length = length := by
  unfold readExactAt at h
  split_ifs at h with _ hinside
  cases h
  rw [List.length_take, List.length_drop]
  omega

end Loop

/-! ### The interpreter and the program headers -/

section Scan

variable {content programHeader : List UInt8} {capacity phoff : ℕ} {interpreter stack : Buffer}

/-- The check of the terminator. -/
lemma ReadsInto.terminated {filesz offset : ℕ} {r : Reading} (hpos : 1 ≤ filesz)
    (hle : filesz ≤ capacity)
    (h : ReadsInto (readExactAt content filesz offset) filesz True interpreter r) :
    ReadsInto
      (match readExactAt content filesz offset with
        | none => none
        | some bytes => if charAt bytes (filesz - 1) = 0 then some bytes else none)
      capacity (capacity ≤ int64Max) interpreter
      ⟨r.ok && decide (r.buffer (filesz - 1) = 0), r.buffer, r.cuts,
        r.computed ++ if r.ok then [.unsigned (filesz - 1)] else []⟩ := by
  have hmax : int64Max = 2 ^ 63 - 1 := rfl
  refine ⟨?_, ?_, fun n hn => h.outside n (hle.trans hn), ?_⟩
  · cases hread : readExactAt content filesz offset with
    | none =>
      rw [hread] at h
      simp [h.ok]
    | some bytes =>
      have hlength := length_of_readExactAt hread
      rw [hread] at h
      have hlast : r.buffer (filesz - 1) = charAt bytes (filesz - 1) := by
        rw [h.written bytes rfl, writeBytes, if_pos (by omega), Nat.sub_zero, charAt]
      simp only [h.ok, hlast, Option.isSome_some, Bool.true_and]
      split_ifs with hzero
      · exact decide_eq_true hzero
      · exact decide_eq_false hzero
  · intro bytes hbytes
    cases hread : readExactAt content filesz offset with
    | none =>
      rw [hread] at hbytes
      cases hbytes
    | some bytes' =>
      simp only [hread] at hbytes
      split_ifs at hbytes
      cases hbytes
      exact h.written bytes hread
  · intro hcapacity c hc
    rcases List.mem_append.mp hc with hmem | hmem
    · exact h.fits trivial c hmem
    · split_ifs at hmem
      · rw [List.mem_singleton.mp hmem, Computed.Fits]
        omega
      · cases hmem

lemma runReadInterpreter_completes (hsmooth : ∀ cut ∈ cuts, cut.isSmooth = true) :
    Completes cuts capacity (runReadInterpreter content capacity programHeader interpreter cuts)
      (ReadsInto (readInterpreter content capacity programHeader) capacity (capacity ≤ int64Max)
        interpreter) := by
  have hmax : int64Max = 2 ^ 63 - 1 := rfl
  simp only [runReadInterpreter, readInterpreter]
  set filesz := elfField programHeader 32 8
  set offset := elfField programHeader 8 8
  by_cases hchecks : filesz < 2 ∨ filesz > capacity ∨ offset > int64Max
  · have hrefused : filesz < 2 ∨ filesz > capacity ∨ offset > int64Max ∨
        (offset + filesz) % 2 ^ 64 > content.length := by omega
    rw [if_pos hchecks, if_pos hrefused]
    exact Completes.refused hsmooth
  · rw [if_neg hchecks]
    have hfits : capacity ≤ int64Max →
        ∀ c ∈ [Computed.unsigned (offset + filesz), .signed offset], c.Fits := by
      intro hcapacity
      simp only [List.mem_cons, List.not_mem_nil, or_false, forall_eq_or_imp, forall_eq,
        Computed.Fits]
      omega
    refine Completes.map ?_ (fun r => rfl) fun r hr => ReadsInto.after hr hfits
    by_cases hinside : (offset + filesz) % 2 ^ 64 > content.length
    · rw [if_pos hinside, if_pos (by omega)]
      exact Completes.refused hsmooth
    · rw [if_neg hinside, if_neg (by omega)]
      refine ((runReadExactAt_completes hsmooth).weaken (fun r hr => hr) (by omega)).map
        (fun r => rfl) fun r hr => hr.terminated (by omega) (by omega)

lemma runScanProgramHeaders_completes {indices : List ℕ}
    (hsmooth : ∀ cut ∈ cuts, cut.isSmooth = true)
    (hbound : ∀ index ∈ indices, phoff + index * phdrSize ≤ int64Max) :
    Completes cuts (indices.length * phdrSize + capacity)
      (runScanProgramHeaders content capacity phoff stack indices interpreter cuts)
      (ReadsInto (scanProgramHeaders content capacity phoff indices) capacity (capacity ≤ int64Max)
        interpreter) := by
  have hmax : int64Max = 2 ^ 63 - 1 := rfl
  induction indices generalizing cuts with
  | nil => exact Completes.refused hsmooth
  | cons index rest ih =>
    have hindex := hbound index List.mem_cons_self
    have hfits : ∀ c ∈ [Computed.signed phoff, .unsigned (index * phdrSize),
        .signed (index * phdrSize), .signed (phoff + index * phdrSize)], c.Fits := by
      simp only [List.mem_cons, List.not_mem_nil, or_false, forall_eq_or_imp, forall_eq,
        Computed.Fits]
      omega
    rw [runScanProgramHeaders, scanProgramHeaders, List.length_cons]
    refine ((runReadExactAt_completes hsmooth).bind
      (m := rest.length * phdrSize + capacity) ?_).weaken (fun r hr => hr)
        (by rw [Nat.succ_mul]; omega)
    intro header hheader hcuts
    refine Completes.map ?_ (fun r => rfl) fun r hr =>
      ReadsInto.after hr fun _ => List.forall_mem_append.mpr ⟨hfits, hheader.fits trivial⟩
    cases hread : readExactAt content phdrSize (phoff + index * phdrSize) with
    | none =>
      rw [hread] at hheader
      rw [if_pos (show header.ok = false from hheader.ok)]
      exact Completes.refused hcuts
    | some programHeader =>
      have hlength := length_of_readExactAt hread
      rw [hread] at hheader
      have hbytes := hheader.readBytes_eq
      rw [hlength] at hbytes
      rw [if_neg (by simp [hheader.ok]), hbytes]
      dsimp only
      split_ifs
      · exact ih hcuts fun i hi => hbound i (List.mem_cons_of_mem _ hi)
      · exact (runReadInterpreter_completes hcuts).weaken (fun r hr => hr)
          (Nat.le_add_left capacity _)

end Scan

/-! ### The whole reader -/

lemma fits_of_mem_tableComputed {phoff phnum : ℕ} (hphnum : phnum ≤ 128) :
    ∀ c ∈ tableComputed phoff phnum, c.Fits := by
  have hmax : int64Max = 2 ^ 63 - 1 := rfl
  have hsize : phdrSize = 56 := rfl
  intro c hc
  simp only [tableComputed] at hc
  split_ifs at hc with hphoff hroom
  · cases hc
  · rw [List.mem_singleton.mp hc, Computed.Fits]
    omega
  · simp only [List.mem_cons, List.not_mem_nil, or_false] at hc
    rcases hc with rfl | rfl | rfl <;> simp only [Computed.Fits, hsize] <;> omega

/-- The table that was accepted ends at a position that is an `off_t`. -/
lemma table_le_of_accepted {phoff phnum size : ℕ} (h : tableAccepted phoff phnum size = true) :
    phoff + phnum * phdrSize ≤ int64Max := by
  have hsize : phdrSize = 56 := rfl
  simp only [tableAccepted, Bool.and_eq_true, decide_eq_true_eq, hsize] at h ⊢
  omega

lemma phnum_le_of_accepted {machine : ElfMachine} {header : List UInt8}
    (h : headerAccepted machine header = true) : elfField header 56 2 ≤ 128 := by
  simp only [headerAccepted, Bool.and_eq_true, decide_eq_true_eq] at h
  exact h.2

lemma runReadElfInterpreter_completes (machine : ElfMachine) (file : RegularFile) (capacity : ℕ)
    (stack interpreter : Buffer) (hsmooth : ∀ cut ∈ cuts, cut.isSmooth = true) :
    Completes cuts (ehdrSize + (128 * phdrSize + capacity))
      (runReadElfInterpreter machine file capacity stack interpreter cuts)
      (ReadsInto (interpreterOf machine capacity file.content) capacity (capacity ≤ int64Max)
        interpreter) := by
  refine (runReadExactAt_completes hsmooth).bind ?_
  intro read hread hcuts
  refine Completes.map ?_ (fun r => rfl) fun r hr => ReadsInto.after hr fun _ => hread.fits trivial
  rw [interpreterOf]
  cases hheader : readExactAt file.content ehdrSize 0 with
  | none =>
    rw [hheader] at hread
    rw [if_pos (Or.inl (show read.ok = false from hread.ok))]
    exact Completes.refused hcuts
  | some header =>
    have hlength := length_of_readExactAt hheader
    rw [hheader] at hread
    have hbytes := hread.readBytes_eq
    rw [hlength] at hbytes
    have hok : read.ok = true := hread.ok
    simp only [hbytes, hok]
    cases haccepted : headerAccepted machine header with
    | false => simpa using Completes.refused hcuts
    | true =>
      have hphnum := phnum_le_of_accepted haccepted
      simp only [reduceCtorEq, or_self, if_false, Bool.true_and]
      refine Completes.map ?_ (fun r => rfl) fun r hr => ReadsInto.after hr fun _ =>
        fits_of_mem_tableComputed hphnum
      cases htable : tableAccepted (elfField header 32 8) (elfField header 56 2)
          file.content.length with
      | false => exact Completes.refused hcuts
      | true =>
        have hend := table_le_of_accepted htable
        refine (runScanProgramHeaders_completes hcuts fun index hindex => ?_).weaken
          (fun r hr => hr) ?_
        · have hlt := Nat.mul_le_mul_right phdrSize (List.mem_range.mp hindex).le
          omega
        · rw [List.length_range]
          have hle := Nat.mul_le_mul_right phdrSize hphnum
          omega

/-- The reader that goes piece by piece does what the one that reads at once does. -/
theorem runReadElfInterpreter_refines {machine : ElfMachine} {fs : FileSystem}
    {filename : CString} {file : RegularFile} (hopen : fs.openRegular filename = some file.content)
    {capacity : ℕ} {stack interpreter : Buffer} (hsmooth : ∀ cut ∈ cuts, cut.isSmooth = true)
    {r : Reading}
    (h : runReadElfInterpreter machine file capacity stack interpreter cuts = some r) :
    r.ok = (readElfInterpreter machine fs filename capacity).isSome ∧
      ∀ bytes, readElfInterpreter machine fs filename capacity = some bytes →
        r.buffer = writeBytes interpreter 0 bytes := by
  have hreads := ((runReadElfInterpreter_completes machine file capacity stack interpreter
    hsmooth).holds r h).1
  rw [readElfInterpreter, hopen]
  exact ⟨hreads.ok, hreads.written⟩

/-- However its `pread` calls are cut or interrupted, the reader returns, and says whether the file
is of the format. It writes the bytes of the interpreter and nothing beyond the buffer, and no
offset wraps. -/
theorem elf_reader_accepts_format (machine : ElfMachine) (file : RegularFile) (capacity : ℕ)
    (stack interpreter : Buffer) {cuts : List Cut}
    (hsmooth : ∀ cut ∈ cuts, cut.isSmooth = true) :
    (ehdrSize + 128 * phdrSize + capacity ≤ moves cuts →
      ∃ r, runReadElfInterpreter machine file capacity stack interpreter cuts = some r) ∧
    ∀ r, runReadElfInterpreter machine file capacity stack interpreter cuts = some r →
      (r.ok = true ↔ ∃ bytes, HasInterpreter machine capacity file.content bytes) ∧
      (r.ok = true → ∃ bytes, HasInterpreter machine capacity file.content bytes ∧
        readBytes r.buffer 0 bytes.length = bytes ∧
        ∀ n, bytes.length ≤ n → r.buffer n = interpreter n) ∧
      (∀ n, capacity ≤ n → r.buffer n = interpreter n) ∧
      (capacity ≤ int64Max → ∀ c ∈ r.computed, c.Fits) := by
  have hcompletes := runReadElfInterpreter_completes machine file capacity stack interpreter hsmooth
  refine ⟨fun hmoves => Option.isSome_iff_exists.mp (hcompletes.returns (by omega)), ?_⟩
  intro r hr
  have hreads := (hcompletes.holds r hr).1
  have hformat : r.ok = true ↔ ∃ bytes, HasInterpreter machine capacity file.content bytes := by
    rw [hreads.ok, Option.isSome_iff_exists]
    exact exists_congr fun bytes => interpreterOf_eq_some_iff file.size_le
  refine ⟨hformat, ?_, hreads.outside, hreads.fits⟩
  intro hok
  obtain ⟨bytes, hbytes⟩ := hformat.mp hok
  rw [(interpreterOf_eq_some_iff file.size_le).mpr hbytes] at hreads
  refine ⟨bytes, hbytes, hreads.readBytes_eq, fun n hn => ?_⟩
  rw [hreads.written bytes rfl, writeBytes, if_neg (by omega)]

def guestFile : RegularFile := ⟨guestImage, by decide +kernel⟩

/-- The image of a guest, one byte at a time. -/
theorem elf_reader_accepts_format_guest :
    ∃ r, runReadElfInterpreter .aarch64 guestFile 64 (fun _ => 0) (fun _ => 0)
        (List.replicate 8000 (.moved 0)) = some r ∧ r.ok = true := by
  have hformat : HasInterpreter .aarch64 64 guestFile.content (cstr "/i" ++ [0]) :=
    (interpreterOf_eq_some_iff guestFile.size_le).mp (by decide +kernel)
  have hsmooth : ∀ cut ∈ List.replicate 8000 (Cut.moved 0), cut.isSmooth = true := by
    intro cut hcut
    rw [List.eq_of_mem_replicate hcut]
    rfl
  have hmoves : moves (List.replicate 8000 (Cut.moved 0)) = 8000 := List.countP_replicate
  have h := elf_reader_accepts_format .aarch64 guestFile 64 (fun _ => 0) (fun _ => 0) hsmooth
  obtain ⟨r, hr⟩ := h.1 (by rw [hmoves]; decide)
  exact ⟨r, hr, (h.2 r hr).1.mpr ⟨_, hformat⟩⟩

end Tgcompat
