import Tgcompat.Exec.Environment

/-!
# The interpreter of a program file

`read_elf_interpreter`: the path in the first `PT_INTERP` program header of a 64-bit little-endian
ELF file. A file is what `open`, `fstat`, `access` and `realpath` tell about its path; its content
does not change while it is read.
-/

namespace Tgcompat

def int64Max : ℕ := 2 ^ 63 - 1

def pathMax : ℕ := 4096

/-- What a path names. -/
structure FileNode where
  regular : Bool
  readable : Bool
  executable : Bool
  content : List UInt8
  deriving DecidableEq, Repr

structure FileSystem where
  node : CString → Option FileNode
  realpath : CString → Except Int32 CString

namespace FileSystem

/-- The content of a regular file that can be opened for reading. -/
def openRegular (fs : FileSystem) (filename : CString) : Option (List UInt8) :=
  match fs.node filename with
  | none => none
  | some node => if node.readable && node.regular then some node.content else none

/-- `access(path, X_OK) == 0`. -/
def accessExecutable (fs : FileSystem) (path : CString) : Bool :=
  match fs.node path with
  | none => false
  | some node => node.executable

/-- What the kernel agrees to run. -/
def executableFile (fs : FileSystem) (path : CString) : Bool :=
  match fs.node path with
  | none => false
  | some node => node.regular && node.executable

lemma accessExecutable_of_executableFile {fs : FileSystem} {path : CString}
    (h : fs.executableFile path = true) : fs.accessExecutable path = true := by
  unfold executableFile at h
  unfold accessExecutable
  cases hnode : fs.node path with
  | none =>
    rw [hnode] at h
    cases h
  | some node =>
    rw [hnode, Bool.and_eq_true] at h
    exact h.2

end FileSystem

/-- The machines the shim is built for. -/
inductive ElfMachine where
  | aarch64
  | x8664
  deriving DecidableEq, Repr

/-- The value of `e_machine`. -/
def ElfMachine.code : ElfMachine → ℕ
  | .aarch64 => 183
  | .x8664 => 62

def ElfMachine.defaultInterpreters : ElfMachine → List CString
  | .aarch64 => [cstr "/lib/ld-linux-aarch64.so.1", cstr "/lib64/ld-linux-aarch64.so.1"]
  | .x8664 =>
    [cstr "/lib64/ld-linux-x86-64.so.2", cstr "/lib/x86_64-linux-gnu/ld-linux-x86-64.so.2"]

/-! ### Reading -/

/-- The little-endian field of `n` bytes at `off`. -/
def elfField (bytes : List UInt8) (off n : ℕ) : ℕ :=
  ((bytes.drop off).take n).foldr (fun b acc => b.toNat + 256 * acc) 0

def ehdrSize : ℕ := 64
def phdrSize : ℕ := 56
def elfMagic : List UInt8 := [0x7f, 0x45, 0x4c, 0x46]
def ptInterp : ℕ := 3

/-- `read_exact_at`: `pread` until everything is there, or it reports the end of the file. -/
def readExactAt (content : List UInt8) (length offset : ℕ) : Option (List UInt8) :=
  if length > int64Max ∨ offset > int64Max - length then none
  else if length = 0 ∨ offset + length ≤ content.length then
    some ((content.drop offset).take length)
  else none

/-- The checks on the ELF header. -/
def headerAccepted (machine : ElfMachine) (header : List UInt8) : Bool :=
  decide (header.take 4 = elfMagic) && decide (elfField header 4 1 = 2) &&
    decide (elfField header 5 1 = 1) && decide (elfField header 18 2 = machine.code) &&
    decide (elfField header 54 2 = phdrSize) && decide (elfField header 56 2 ≠ 0) &&
    decide (elfField header 56 2 ≤ 128)

/-- The program header table lies in the file. The sum is one of 64-bit words. -/
def tableAccepted (phoff phnum size : ℕ) : Bool :=
  decide (phoff ≤ int64Max) && decide (phnum ≤ (int64Max - phoff) / phdrSize) &&
    decide ((phoff + phnum * phdrSize) % 2 ^ 64 ≤ size)

/-- The bytes of the interpreter that a `PT_INTERP` header points to. -/
def readInterpreter (content : List UInt8) (capacity : ℕ) (programHeader : List UInt8) :
    Option (List UInt8) :=
  let filesz := elfField programHeader 32 8
  let offset := elfField programHeader 8 8
  if filesz < 2 ∨ filesz > capacity ∨ offset > int64Max ∨
      (offset + filesz) % 2 ^ 64 > content.length then none
  else
    match readExactAt content filesz offset with
    | none => none
    | some interpreter => if charAt interpreter (filesz - 1) = 0 then some interpreter else none

/-- The loop over the program headers from `index` on. -/
def scanProgramHeaders (content : List UInt8) (capacity phoff : ℕ) :
    List ℕ → Option (List UInt8)
  | [] => none
  | index :: rest =>
    match readExactAt content phdrSize (phoff + index * phdrSize) with
    | none => none
    | some programHeader =>
      if elfField programHeader 0 4 ≠ ptInterp then
        scanProgramHeaders content capacity phoff rest
      else readInterpreter content capacity programHeader

/-- `read_elf_interpreter` on the content of a regular file. -/
def interpreterOf (machine : ElfMachine) (capacity : ℕ) (content : List UInt8) :
    Option (List UInt8) :=
  match readExactAt content ehdrSize 0 with
  | none => none
  | some header =>
    let phoff := elfField header 32 8
    let phnum := elfField header 56 2
    if headerAccepted machine header && tableAccepted phoff phnum content.length then
      scanProgramHeaders content capacity phoff (List.range phnum)
    else none

/-- The buffer on success. -/
def readElfInterpreter (machine : ElfMachine) (fs : FileSystem) (filename : CString)
    (capacity : ℕ) : Option (List UInt8) :=
  (fs.openRegular filename).bind (interpreterOf machine capacity)

/-- The string in a buffer. -/
def stringOf (buffer : List UInt8) : CString := buffer.takeWhile (· != 0)

end Tgcompat
