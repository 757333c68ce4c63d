import VgiDisasm.Library.Capped
import VgiDisasm.Text
import VgiDisasm.Limits
import VgiDisasm.Crates
import VgiDisasm.Build

/-!
# Section enumeration

One row per section of a container, with an executable flag, the entropy of its file bytes
and a byte range clamped to the blob.  A blob that does not parse has no sections.
-/

namespace VgiDisasm

open VgiDisasm.Capped VgiDisasm.Text

structure Section where
  name : String
  /-- `code | data | rodata | bss | debug | other`. -/
  kind : String
  vaddr : UInt64
  /-- Declared size in memory; may exceed the file bytes. -/
  size : UInt64
  fileOff : UInt64
  exec : Bool
  entropy : Float
  /-- Clamped `(offset, len)` of the readable file bytes, `none` without any. -/
  dataRange : Option (ℕ × ℕ)

/-- `&xs[lo..hi]`. -/
def slice {α : Type*} (xs : List α) (lo hi : ℕ) : List α := (xs.take hi).drop lo

/-- The section's file bytes.  `saturating_add` cannot be seen here: its result goes through
`min(blob.len())`. -/
def Section.bytes (s : Section) (blob : List UInt8) : List UInt8 :=
  match s.dataRange with
  | some (off, len) =>
    if off ≤ blob.length then slice blob off (min (off + len) blob.length) else []
  | none => []

def shannonEntropy (data : List UInt8) : Float :=
  if data.isEmpty then 0.0
  else
    let len := data.length.toFloat
    (List.range 256).foldl
      (fun h v =>
        let c := data.count (UInt8.ofNat v)
        if c > 0 then
          let p := c.toFloat / len
          h - p * p.log2
        else h)
      0.0

namespace Sections

/-- A clamped `(offset, len)` range into a blob of length `blobLen`. -/
def clampRange (usizeMax : ℕ) (off len : UInt64) (blobLen : ℕ) : Option (ℕ × ℕ) :=
  -- `usize::try_from(off).ok()?`
  if off.toNat > usizeMax then none
  else if off.toNat ≥ blobLen then none
  else
    -- `usize::try_from(len).unwrap_or(usize::MAX)`
    let len := min len.toNat usizeMax
    let len := min (min len (blobLen - off.toNat)) MAX_SECTION_BYTES
    if len = 0 then none else some (off.toNat, len)

def finalize (s : Section) (blob : List UInt8) : Section :=
  { s with entropy := shannonEntropy (s.bytes blob) }

/-! ### ELF -/

def SHF_EXECINSTR : UInt64 := 0x4
def SHF_WRITE : UInt64 := 0x1
def SHT_NOBITS : UInt32 := 8
def SHT_PROGBITS : UInt32 := 1

/-- The body of the loop of `elf_sections`. -/
def elfSection (usizeMax : ℕ) (elf : Elf) (blob : List UInt8) (sh : SectionHeader) : Section :=
  let name := (elf.shdrStrtab sh.shName).getD ""
  let exec := sh.shFlags &&& SHF_EXECINSTR != 0
  let nobits := sh.shType == SHT_NOBITS
  let dataRange :=
    if nobits then none else clampRange usizeMax sh.shOffset sh.shSize blob.length
  let kind :=
    if exec then "code"
    else if startsWith name ".debug" then "debug"
    else if nobits then "bss"
    else if sh.shType == SHT_PROGBITS && sh.shFlags &&& SHF_WRITE != 0 then "data"
    else if startsWith name ".rodata" || name == ".rdata" then "rodata"
    else "other"
  finalize
    { name := name
      kind := kind
      vaddr := sh.shAddr
      size := sh.shSize
      fileOff := sh.shOffset
      exec := exec
      entropy := 0.0
      dataRange := dataRange }
    blob

def elfSections (usizeMax : ℕ) (elf : Elf) (blob : List UInt8) (out : List Section) :
    List Section :=
  pushCapped MAX_SECTIONS (elfSection usizeMax elf blob) elf.sectionHeaders out

/-! ### PE -/

def IMAGE_SCN_MEM_EXECUTE : UInt32 := 0x20000000
def IMAGE_SCN_MEM_WRITE : UInt32 := 0x80000000
def IMAGE_SCN_CNT_CODE : UInt32 := 0x00000020
def IMAGE_SCN_CNT_UNINIT : UInt32 := 0x00000080

/-- The body of the loop of `pe_sections`; the address addition is the build's. -/
def peSection {m : Type → Type} [Monad m] (B : Build m) (pe : PE) (blob : List UInt8)
    (s : SectionTable) : m Section := do
  let name := trimEndMatches (s.name.getD "") (Char.ofNat 0)
  let ch := s.characteristics
  let exec := ch &&& IMAGE_SCN_MEM_EXECUTE != 0 || ch &&& IMAGE_SCN_CNT_CODE != 0
  -- file bytes are min(virtual_size, size_of_raw_data) at pointer_to_raw_data
  let rawLen := min s.sizeOfRawData.toUInt64 s.virtualSize.toUInt64
  let uninit := ch &&& IMAGE_SCN_CNT_UNINIT != 0
  let dataRange :=
    if uninit then none
    else clampRange B.usizeMax s.pointerToRawData.toUInt64 rawLen blob.length
  let kind :=
    if exec then "code"
    else if startsWith name ".debug" then "debug"
    else if uninit then "bss"
    else if ch &&& IMAGE_SCN_MEM_WRITE != 0 then "data"
    else if name == ".rdata" || name == ".rodata" then "rodata"
    else "other"
  let vaddr ← B.add pe.imageBase s.virtualAddress.toUInt64
  pure <| finalize
    { name := name
      kind := kind
      vaddr := vaddr
      size := s.virtualSize.toUInt64
      fileOff := s.pointerToRawData.toUInt64
      exec := exec
      entropy := 0.0
      dataRange := dataRange }
    blob

def peSections {m : Type → Type} [Monad m] (B : Build m) (pe : PE) (blob : List UInt8)
    (out : List Section) : m (List Section) :=
  pushCappedM MAX_SECTIONS (peSection B pe blob) pe.sections out

/-! ### Mach-O -/

def S_ATTR_PURE_INSTRUCTIONS : UInt32 := 0x80000000
def S_ATTR_SOME_INSTRUCTIONS : UInt32 := 0x00000400
def S_TYPE_ZEROFILL : UInt32 := 0x1

/-- The section type in the low 8 bits is plain zero-fill. -/
def zerofill (sect : MachSection) : Bool := sect.flags &&& 0xff == S_TYPE_ZEROFILL

/-- The inner loop's body of `mach_sections`, in a segment named `segname`. -/
def machSection (usizeMax : ℕ) (blob : List UInt8) (segname : String) (sect : MachSection) :
    Section :=
  let sectname := sect.name.getD ""
  let flags := sect.flags
  let exec := flags &&& S_ATTR_PURE_INSTRUCTIONS != 0 || flags &&& S_ATTR_SOME_INSTRUCTIONS != 0 ||
    (segname == "__TEXT" && sectname == "__text")
  let dataRange :=
    if zerofill sect then none
    else clampRange usizeMax sect.offset.toUInt64 sect.size blob.length
  let kind :=
    if exec then "code"
    else if contains segname "DEBUG" || contains sectname "debug" then "debug"
    else if zerofill sect || segname == "__BSS" then "bss"
    else if sectname == "__const" || segname == "__TEXT" then "rodata"
    else if segname == "__DATA" then "data"
    else "other"
  let full := segname ++ "," ++ sectname
  finalize
    { name := full
      kind := kind
      vaddr := sect.addr
      size := sect.size
      fileOff := sect.offset.toUInt64
      exec := exec
      entropy := 0.0
      dataRange := dataRange }
    blob

/-- One pass of the outer loop: a segment whose sections do not parse is skipped. -/
def machSegment (usizeMax : ℕ) (blob : List UInt8) (out : List Section) (seg : Segment) :
    List Section :=
  match seg.sections with
  | none => out
  | some sects =>
    pushCapped MAX_SECTIONS (machSection usizeMax blob (seg.name.getD "")) sects out

def machSections (usizeMax : ℕ) (macho : MachO) (blob : List UInt8) (out : List Section) :
    List Section :=
  macho.segments.foldl (machSegment usizeMax blob) out

/-! ### All containers -/

/-- The `match` of `parse` on the container kind; a fat binary contributes its first slice. -/
def objectSections {m : Type → Type} [Monad m] (B : Build m) (blob : List UInt8) :
    Object → m (List Section)
  | .elf elf => pure (elfSections B.usizeMax elf blob [])
  | .pe pe => peSections B pe blob []
  | .mach (.binary macho) => pure (machSections B.usizeMax macho blob [])
  | .mach (.fat fat) =>
    match fat.firstMachO with
    | some macho => pure (machSections B.usizeMax macho blob [])
    | none => pure []
  | .other => pure []

def parse {m : Type → Type} [Monad m] (B : Build m) (K : Crates) (bytes : List UInt8) :
    m (Option (List Section)) :=
  match K.objectParse bytes with
  | none => pure none
  | some obj => do
    let out ← objectSections B bytes obj
    pure (some (out.take MAX_SECTIONS))

end Sections

/-- `sections` under a build configuration. -/
def sectionsWith {m : Type → Type} [Monad m] (B : Build m) (K : Crates) (bytes : List UInt8) :
    m (List Section) := do
  let secs ← Sections.parse B K bytes
  pure (secs.getD [])

def sections (K : Crates) (bytes : List UInt8) : List Section :=
  Id.run (sectionsWith Build.release K bytes)

end VgiDisasm
