import Mathlib.Data.Nat.Notation

/-!
# The third-party crates

Container parsing is goblin's and instruction decoding is Capstone's.  Neither is part of
this repository, so both are parameters: a `Crates` value gives the parse of every blob and
the handle of every builder.  The records below are what the engine reads from them, with
the crates' own field names; a `Result` or `Option` of the crate is an `Option` here, since
the engine never looks at an error value.

Nothing is assumed of either crate in this file.  What a result needs of them is a named
predicate on `Crates` or on `Capstone`, stated where it is used.
-/

namespace VgiDisasm

/-! ### goblin: parsed containers -/

/-- `goblin::elf::SectionHeader`; 32-bit headers arrive widened. -/
structure SectionHeader where
  shName : ℕ
  shType : UInt32
  shFlags : UInt64
  shAddr : UInt64
  shOffset : UInt64
  shSize : UInt64

/-- `goblin::elf::Sym`. -/
structure Sym where
  stName : ℕ
  /-- `is_import()`. -/
  isImport : Bool

structure Elf where
  eMachine : UInt16
  is64 : Bool
  littleEndian : Bool
  entry : UInt64
  sectionHeaders : List SectionHeader
  /-- `shdr_strtab.get_at`. -/
  shdrStrtab : ℕ → Option String
  dynsyms : List Sym := []
  /-- `dynstrtab.get_at`. -/
  dynstrtab : ℕ → Option String := fun _ => none

/-- `goblin::pe::section_table::SectionTable`. -/
structure SectionTable where
  name : Option String
  virtualSize : UInt32
  virtualAddress : UInt32
  sizeOfRawData : UInt32
  pointerToRawData : UInt32
  characteristics : UInt32

/-- `goblin::pe::import::Import`. -/
structure PeImport where
  name : String
  dll : String
  ordinal : UInt16

structure PE where
  machine : UInt16
  is64 : Bool
  imageBase : UInt64
  entry : UInt32
  sections : List SectionTable
  imports : List PeImport := []

/-- `goblin::mach::segment::Section`: `offset` is the stored value, relative to the start of
the Mach-O image it was parsed from. -/
structure MachSection where
  name : Option String
  addr : UInt64
  size : UInt64
  offset : UInt32
  flags : UInt32

structure Segment where
  name : Option String
  /-- `Segment::sections()`, `none` for an `Err`. -/
  sections : Option (List MachSection)

/-- `goblin::mach::imports::Import`. -/
structure MachImport where
  dylib : String
  name : String
  isLazy : Bool

structure MachO where
  cputype : UInt32
  is64 : Bool
  littleEndian : Bool
  entry : UInt64
  segments : List Segment
  /-- The command numbers of `load_commands`. -/
  loadCommands : List UInt32 := []
  /-- `MachO::imports()`, `none` for an `Err`. -/
  imports : Option (List MachImport) := some []

/-- `goblin::mach::SingleArch`. -/
inductive SingleArch
  | machO (macho : MachO)
  | archive

/-- One `fat_arch` entry of a fat header. -/
structure FatArch where
  offset : UInt32
  size : UInt32

/-- The bytes a `fat_arch` entry designates. -/
def FatArch.slice (a : FatArch) (blob : List UInt8) : List UInt8 :=
  (blob.drop a.offset.toNat).take a.size.toNat

/-- `goblin::mach::MultiArch`: the header's entries, and what iterating the value yields. -/
structure MultiArch where
  arches : List FatArch
  intoIter : List (Option SingleArch)

/-- The engine's pattern `if let Some(Ok(SingleArch::MachO(macho))) = fat.into_iter().next()`. -/
def MultiArch.firstMachO (fat : MultiArch) : Option MachO :=
  match fat.intoIter.head? with
  | some (some (.machO macho)) => some macho
  | _ => none

inductive Mach
  | binary (macho : MachO)
  | fat (fat : MultiArch)

/-- `goblin::Object`; `other` stands for the kinds the engine treats alike. -/
inductive Object
  | elf (elf : Elf)
  | pe (pe : PE)
  | mach (mach : Mach)
  | other

/-! ### Capstone: handles and their builders -/

inductive Endian
  | big
  | little
  deriving DecidableEq, Repr

inductive X86Mode
  | mode16
  | mode32
  | mode64
  deriving DecidableEq, Repr

inductive ArmMode
  | arm
  | thumb
  deriving DecidableEq, Repr

inductive MipsMode
  | mips32
  | mips64
  deriving DecidableEq, Repr

inductive PpcMode
  | mode32
  | mode64
  deriving DecidableEq, Repr

inductive RiscvMode
  | riscV32
  | riscV64
  deriving DecidableEq, Repr

inductive X86Syntax
  | intel
  | att
  deriving DecidableEq, Repr

/-- What a `Capstone::new()` chain selects before `build()`: the architecture with the
options set on it, a byte order only where `.endian(..)` is called. -/
inductive CsArch
  | x86 (mode : X86Mode) (syn : X86Syntax)
  | arm (mode : ArmMode) (endian : Endian)
  | arm64
  | mips (mode : MipsMode) (endian : Endian)
  | ppc (mode : PpcMode) (endian : Endian)
  | sysz
  | riscv (mode : RiscvMode)
  deriving DecidableEq, Repr

structure CsBuilder where
  arch : CsArch
  detail : Bool
  deriving DecidableEq, Repr

/-- `capstone::Insn`, as far as it is read. -/
structure CsInsn where
  id : UInt32
  address : UInt64
  bytes : List UInt8
  mnemonic : Option String
  opStr : Option String
  deriving DecidableEq, Repr

def CsInsn.len (insn : CsInsn) : ℕ := insn.bytes.length

/-- A built handle.  `disasmAll` is a function of the bytes and the address: one sweep never
hands the same remaining bytes over twice, so no two of its calls constrain each other. -/
structure Capstone where
  /-- `disasm_all`, `none` for an `Err`. -/
  disasmAll : List UInt8 → UInt64 → Option (List CsInsn)
  /-- The group ids of `insn_detail`, `none` for an `Err`. -/
  insnDetail : CsInsn → Option (List UInt8)
  groupName : UInt8 → Option String

/-- The two crates, as the engine calls them. -/
structure Crates where
  /-- `goblin::Object::parse`. -/
  objectParse : List UInt8 → Option Object
  /-- `build()` at the end of a `Capstone::new()` chain. -/
  capstoneBuild : CsBuilder → Option Capstone

end VgiDisasm
