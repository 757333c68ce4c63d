import VgiDisasm.SweepRows

/-!
# Fixtures

Handles and blobs small enough to check by hand, and the layouts they are written in.  What one
module alone needs stands there, next to its use.

* `x64Handle` decodes the one-byte x64 instructions `nop` (90) and `ret` (c3).  On inputs
  made of these and of bytes that open no x64 instruction, such as 06, it answers as
  Capstone does.
* `riscvHandle` decodes nothing, which is what Capstone's RV64 mode answers on bytes where
  no 32-bit encoding matches (compressed encodings are not part of that mode).
-/

namespace VgiDisasm.Fixtures

open VgiDisasm.Engine

/-! ### Handles -/

def X86_INS_NOP : UInt32 := 504
def X86_INS_RET : UInt32 := 635

/-- One-byte x64 instructions, at any address. -/
def x64Decode : List UInt8 → UInt64 → Option CsInsn
  | [], _ => none
  | b :: _, a =>
    if b = 0x90 then some ⟨X86_INS_NOP, a, [b], some "nop", some ""⟩
    else if b = 0xc3 then some ⟨X86_INS_RET, a, [b], some "ret", some ""⟩
    else none

theorem x64Decode_some {bs : List UInt8} {a : UInt64} {i : CsInsn} (h : x64Decode bs a = some i) :
    i.address = a ∧ ∃ b rest, bs = b :: rest ∧ i.bytes = [b] := by
  cases bs with
  | nil => cases h
  | cons b rest =>
    rw [x64Decode] at h
    split at h
    · cases h
      exact ⟨rfl, b, rest, rfl, rfl⟩
    · split at h
      · cases h
        exact ⟨rfl, b, rest, rfl, rfl⟩
      · cases h

def x64Decoder : Decoder UInt8 UInt64 CsInsn CsInsn.len where
  decode := x64Decode
  len_pos := by
    intro bs a i h
    obtain ⟨-, b, rest, -, hi⟩ := x64Decode_some h
    simp [CsInsn.len, hi]
  len_le := by
    intro bs a i h
    obtain ⟨-, b, rest, rfl, hi⟩ := x64Decode_some h
    simp [CsInsn.len, hi]

def x64Handle : Capstone where
  disasmAll bs a := some (x64Decoder.bulk bs a)
  insnDetail insn := some (if insn.id = X86_INS_RET then [3] else [])
  groupName g := if g = 3 then some "ret" else none

theorem x64Handle_iterates : x64Handle.Iterates x64Decoder := fun _ _ => rfl

theorem x64Bulk_tiles (bs : List UInt8) (a : UInt64) :
    Extents.Consecutive CsInsn.address CsInsn.bytes a (x64Decoder.bulk bs a) ∧
      (x64Decoder.bulk bs a).flatMap CsInsn.bytes <+: bs ∧
      ∀ i ∈ x64Decoder.bulk bs a, i.len = 1 := by
  fun_induction Decoder.bulk x64Decoder bs a with
  | case1 bs a h => simp [Extents.Consecutive]
  | case2 bs a i h ih =>
    obtain ⟨haddr, b, rest, rfl, hi⟩ := x64Decode_some h
    have hlen : i.len = 1 := by simp [CsInsn.len, hi]
    rw [hlen] at ih ⊢
    obtain ⟨htile, hpre, hall⟩ := ih
    refine ⟨⟨haddr, by simp [hi], ?_⟩, ?_, ?_⟩
    · rw [hi]
      exact htile
    · rw [List.flatMap_cons, hi, List.singleton_append, List.cons_prefix_cons]
      exact ⟨rfl, hpre⟩
    · exact List.forall_mem_cons.mpr ⟨hlen, hall⟩

theorem x64Handle_tiles : x64Handle.AnswersTile where
  len_pos := by
    intro bs a i hi
    have := (x64Bulk_tiles bs a).2.2 i hi
    omega
  bytes_le bs a := (x64Bulk_tiles bs a).2.1
  len_le := by
    intro bs a i hi
    have := (x64Bulk_tiles bs a).2.2 i hi
    omega
  address bs a j hj := (Extents.consecutive_iff_getElem.mp (x64Bulk_tiles bs a).1).2 j hj

/-- The `x86`/`x64` selection's builder. -/
def x64Builder : CsBuilder := ⟨.x86 .mode64 .intel, true⟩

def riscvHandle : Capstone where
  disasmAll _ _ := some []
  insnDetail _ := some []
  groupName _ := none

theorem riscvHandle_tiles : riscvHandle.AnswersTile where
  len_pos := by
    intro bs a i hi
    cases hi
  bytes_le _ _ := List.nil_prefix
  len_le := by
    intro bs a i hi
    cases hi
  address := by
    intro bs a j hj
    cases hj

def riscvBuilder : CsBuilder := ⟨.riscv .riscV64, true⟩

/-! ### Crates -/

/-- Crates that parse the listed blobs and build the listed handles, and no others. -/
def crates (objects : List (List UInt8 × Object)) (handles : List (CsBuilder × Capstone)) :
    Crates where
  objectParse := fun blob => objects.lookup blob
  capstoneBuild := fun builder => handles.lookup builder

theorem crates_objectParse (blob : List UInt8) (obj : Object)
    (handles : List (CsBuilder × Capstone)) :
    (crates [(blob, obj)] handles).objectParse blob = some obj :=
  List.lookup_cons_self

theorem crates_handles {P : Capstone → Prop} {objects : List (List UInt8 × Object)}
    {builder : CsBuilder} {cs : Capstone} (h : P cs) :
    (crates objects [(builder, cs)]).Handles P := by
  intro b cs' hb
  simp only [crates, List.lookup_cons, List.lookup_nil] at hb
  split at hb
  · cases hb
    exact h
  · cases hb

/-! ### ELF blobs -/

/-- Little-endian bytes of `n`. -/
def le (width n : ℕ) : List UInt8 := (List.range width).map fun i => UInt8.ofNat (n / 256 ^ i)

/-- Big-endian bytes of `n`. -/
def be (width n : ℕ) : List UInt8 := (le width n).reverse

/-- A 64-byte little-endian ELF64 section header. -/
def elf64Shdr (sh : SectionHeader) : List UInt8 :=
  le 4 sh.shName ++ le 4 sh.shType.toNat ++ le 8 sh.shFlags.toNat ++ le 8 sh.shAddr.toNat ++
    le 8 sh.shOffset.toNat ++ le 8 sh.shSize.toNat ++ le 4 0 ++ le 4 0 ++ le 8 1 ++ le 8 0

/-- A little-endian ELF64: the file header, `data` at offset 64, the section headers. -/
def elf64Blob (elf : Elf) (data : List UInt8) : List UInt8 :=
  let shnum := elf.sectionHeaders.length
  let shoff := if shnum = 0 then 0 else 64 + data.length
  [0x7f, 0x45, 0x4c, 0x46, 2, 1, 1, 0] ++ le 8 0 ++ le 2 1 ++ le 2 elf.eMachine.toNat ++ le 4 1 ++
    le 8 elf.entry.toNat ++ le 8 0 ++ le 8 shoff ++ le 4 0 ++ le 2 64 ++ le 2 0 ++ le 2 0 ++
    le 2 64 ++ le 2 shnum ++ le 2 0 ++ data ++ elf.sectionHeaders.flatMap elf64Shdr

/-- What goblin reads from such a blob; there is no section name table. -/
def elf64 (machine : UInt16) (entry : UInt64) (headers : List SectionHeader) : Elf where
  eMachine := machine
  is64 := true
  littleEndian := true
  entry := entry
  sectionHeaders := headers
  shdrStrtab := fun _ => none

/-- An executable `SHT_PROGBITS` header (`SHF_ALLOC | SHF_EXECINSTR`). -/
def execShdr (addr offset size : UInt64) : SectionHeader := ⟨0, 1, 0x6, addr, offset, size⟩

/-- The `SHT_NULL` header every section table begins with. -/
def nullShdr : SectionHeader := ⟨0, 0, 0, 0, 0, 0⟩

/-- An x86-64 object with one executable section: `nop; ret`. -/
def elfX64 : Elf := elf64 Probe.EM_X86_64 0 [nullShdr, execShdr 0x1000 64 2]

def elfX64Blob : List UInt8 := elf64Blob elfX64 [0x90, 0xc3]

def elfX64Crates : Crates := crates [(elfX64Blob, .elf elfX64)] [(x64Builder, x64Handle)]

/-- A RISC-V file header with no section table. -/
def elfStripped : Elf := elf64 Probe.EM_RISCV 0 []

def elfStrippedBlob : List UInt8 := elf64Blob elfStripped []

def elfStrippedCrates : Crates :=
  crates [(elfStrippedBlob, .elf elfStripped)] [(riscvBuilder, riscvHandle)]

/-- An ELF32 file header alone, in the byte order of `num`. -/
def elf32Blob (num : ℕ → ℕ → List UInt8) (elf : Elf) : List UInt8 :=
  [0x7f, 0x45, 0x4c, 0x46, 1, if elf.littleEndian then 1 else 2, 1, 0] ++ num 8 0 ++ num 2 2 ++
    num 2 elf.eMachine.toNat ++ num 4 1 ++ num 4 elf.entry.toNat ++ num 4 0 ++ num 4 0 ++
    num 4 0 ++ num 2 52 ++ num 2 0 ++ num 2 0 ++ num 2 40 ++ num 2 0 ++ num 2 0

def elf32 (machine : UInt16) (littleEndian : Bool) (entry : UInt64) : Elf where
  eMachine := machine
  is64 := false
  littleEndian := littleEndian
  entry := entry
  sectionHeaders := []
  shdrStrtab := fun _ => none

/-- The NUL-terminated string at an offset of a string table of ASCII bytes. -/
def getAt (table : List UInt8) (offset : ℕ) : Option String :=
  if offset < table.length then
    some (String.ofList
      (((table.drop offset).takeWhile (· != 0)).map fun b => Char.ofNat b.toNat))
  else none

/-- An ELF64 with section names: section 1 is their table, at file offset 64. -/
def elf64Named (machine : UInt16) (entry : UInt64) (table : List UInt8)
    (headers : List SectionHeader) : Elf :=
  { elf64 machine entry (nullShdr :: ⟨1, 3, 0, 0, 64, UInt64.ofNat table.length⟩ :: headers) with
    shdrStrtab := getAt table }

/-- The file of such an ELF64: as without names, with `e_shstrndx` set to 1. -/
def elf64NamedBlob (elf : Elf) (table : List UInt8) : List UInt8 := (elf64Blob elf table).set 62 1

/-- The table of the one name `.shstrtab`. -/
def shstrtab : List UInt8 := [0, 0x2e, 0x73, 0x68, 0x73, 0x74, 0x72, 0x74, 0x61, 0x62, 0]

/-- The names `.shstrtab`, `.text` and `.init`. -/
def twoCodeNames : List UInt8 :=
  shstrtab ++ [0x2e, 0x74, 0x65, 0x78, 0x74, 0] ++ [0x2e, 0x69, 0x6e, 0x69, 0x74, 0]

/-- An x86-64 object with two named executable sections: `nop; ret` in `.text`, `ret` in `.init`,
one behind the other after the name table. -/
def elfTwoCode : Elf :=
  elf64Named Probe.EM_X86_64 0 twoCodeNames
    [⟨11, 1, 0x6, 0x1000, 87, 2⟩, ⟨17, 1, 0x6, 0x2000, 89, 1⟩]

def elfTwoCodeBlob : List UInt8 := elf64NamedBlob elfTwoCode (twoCodeNames ++ [0x90, 0xc3, 0xc3])

def elfTwoCodeCrates : Crates :=
  crates [(elfTwoCodeBlob, .elf elfTwoCode)] [(x64Builder, x64Handle)]

/-! ### PE blobs -/

/-- The `.text` header of a minimal PE: one byte of code at RVA 0x1000. -/
def textTable : SectionTable where
  name := some ".text"
  virtualSize := 1
  virtualAddress := 0x1000
  sizeOfRawData := 0x200
  pointerToRawData := 0x200
  characteristics := 0x60000020

/-- An AMD64 PE32+ whose entry is the start of `.text`. -/
def pe64 (imageBase : UInt64) : PE where
  machine := Probe.IMAGE_FILE_MACHINE_AMD64
  is64 := true
  imageBase := imageBase
  entry := 0x1000
  sections := [textTable]

/-- The file of `pe64 imageBase`: DOS header, COFF header at 0x84, PE32+ optional header,
one section header, `ret` at 0x200. -/
def pe64Blob (imageBase : UInt64) : List UInt8 :=
  [0x4d, 0x5a] ++ le 58 0 ++ le 4 0x80 ++ le 64 0 ++ [0x50, 0x45, 0, 0] ++
    le 2 0x8664 ++ le 2 1 ++ le 12 0 ++ le 2 0xf0 ++ le 2 0x22 ++
    le 2 0x20b ++ le 14 0 ++ le 4 0x1000 ++ le 4 0x1000 ++ le 8 imageBase.toNat ++
    le 4 0x1000 ++ le 4 0x200 ++ le 8 6 ++ le 8 6 ++ le 4 0x2000 ++ le 4 0x200 ++ le 4 0 ++
    le 2 3 ++ le 38 0 ++ le 4 16 ++ le 128 0 ++
    [0x2e, 0x74, 0x65, 0x78, 0x74, 0, 0, 0] ++ le 4 1 ++ le 4 0x1000 ++ le 4 0x200 ++
    le 4 0x200 ++ le 12 0 ++ le 4 0x60000020 ++ le 80 0 ++ [0xc3] ++ le 511 0

end VgiDisasm.Fixtures
