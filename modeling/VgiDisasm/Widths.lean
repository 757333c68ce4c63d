import VgiDisasm.Engine
import VgiDisasm.Fixtures

/-!
# Instruction widths

A probe reports the width of a header in `bits`.  A selection carries a width only where the
mode is one, for x86; for PowerPC, RISC-V and MIPS the mode is the byte order and `build` takes
the 64-bit mode of the architecture.  `elf_width_fixed` is what that leaves of the header's
width.
-/

namespace VgiDisasm

open VgiDisasm.Probe

/-- The width of the code a handle decodes. -/
def CsArch.width : CsArch → UInt8
  | .x86 .mode16 _ => 16
  | .x86 .mode32 _ => 32
  | .x86 .mode64 _ => 64
  | .arm _ _ => 32
  | .arm64 => 64
  | .mips .mips32 _ => 32
  | .mips .mips64 _ => 64
  | .ppc .mode32 _ => 32
  | .ppc .mode64 _ => 64
  | .sysz => 64
  | .riscv .riscV32 => 32
  | .riscv .riscV64 => 64

/-- The ELF machines that come in both widths and have no width in their selection. -/
def widthlessMachines : List UInt16 := [EM_PPC, EM_PPC64, EM_RISCV, EM_MIPS]

/-- The handle built from the blob's probe decodes code of the width the probe reports. -/
def WidthSurvives (K : Crates) (blob : List UInt8) : Prop :=
  ∃ sel, (probe K blob).archSel = some sel ∧
    (probe K blob).bits = some (Engine.builder sel).arch.width

theorem widthlessMachines_arch {machine : UInt16} (h : machine ∈ widthlessMachines) (big : Bool)
    (entry : UInt64) :
    ∃ arch ∈ ["ppc", "riscv", "mips"],
      elfArch machine big entry = (some arch, some (endianStr big)) := by
  simp only [widthlessMachines, List.mem_cons, List.not_mem_nil, or_false] at h
  rcases h with rfl | rfl | rfl | rfl
  · exact ⟨"ppc", by decide, rfl⟩
  · exact ⟨"ppc", by decide, rfl⟩
  · exact ⟨"riscv", by decide, rfl⟩
  · exact ⟨"mips", by decide, rfl⟩

theorem builder_width {arch : String} (h : arch ∈ ["ppc", "riscv", "mips"]) (mode : String)
    (big : Bool) : (Engine.builder ⟨arch, mode, big⟩).arch.width = 64 := by
  simp only [List.mem_cons, List.not_mem_nil, or_false] at h
  rcases h with rfl | rfl | rfl <;> rfl

theorem endianStr_eq_big (big : Bool) : (some (endianStr big) == some "big") = big := by
  cases big <;> decide

section Elf

variable {K : Crates} {blob : List UInt8} {elf : Elf}
  (hobj : K.objectParse blob = some (.elf elf)) (hm : elf.eMachine ∈ widthlessMachines)

include hobj

theorem elf_bits : (probe K blob).bits = some (if elf.is64 then 64 else 32) := by
  rw [probe_of_some hobj]
  rfl

include hm

/-- The selection is an arch and a byte order, and the reported arch is that arch. -/
theorem elf_archSel :
    ∃ arch ∈ ["ppc", "riscv", "mips"], (probe K blob).arch = some arch ∧
      (probe K blob).archSel = some ⟨arch, endianStr !elf.littleEndian, !elf.littleEndian⟩ := by
  obtain ⟨arch, hmem, harch⟩ := widthlessMachines_arch hm (!elf.littleEndian) elf.entry
  have hprobe : probe K blob = elfProbe elf := by
    rw [probe_of_some hobj]
    rfl
  refine ⟨arch, hmem, ?_, ?_⟩
  · rw [hprobe, elfProbe, harch]
  · simp only [hprobe, Probe.archSel, elfProbe, harch, endianStr_eq_big]

end Elf

/-- **The width of PowerPC, RISC-V and MIPS is fixed.**  Every ELF blob of one of these
machines is decoded in the 64-bit mode of its architecture, which is the reported width exactly
for the 64-bit headers; blobs of one architecture and byte order share a selection. -/
theorem elf_width_fixed (K : Crates) (blob : List UInt8) (elf : Elf)
    (hobj : K.objectParse blob = some (.elf elf)) (hm : elf.eMachine ∈ widthlessMachines) :
    (∃ sel, (probe K blob).archSel = some sel ∧ (Engine.builder sel).arch.width = 64) ∧
      (WidthSurvives K blob ↔ elf.is64 = true) ∧
      ∀ blob' elf', K.objectParse blob' = some (.elf elf') → elf'.eMachine ∈ widthlessMachines →
        (probe K blob').arch = (probe K blob).arch → elf'.littleEndian = elf.littleEndian →
          (probe K blob').archSel = (probe K blob).archSel := by
  obtain ⟨arch, hmem, harch, hsel⟩ := elf_archSel hobj hm
  have hwidth := builder_width hmem (endianStr !elf.littleEndian) (!elf.littleEndian)
  refine ⟨⟨_, hsel, hwidth⟩, ?_, ?_⟩
  · unfold WidthSurvives
    rw [hsel, elf_bits hobj]
    simp only [Option.some.injEq, exists_eq_left', hwidth]
    cases elf.is64 <;> decide
  · intro blob' elf' hobj' hm' harch' hendian
    obtain ⟨arch', -, harch'', hsel'⟩ := elf_archSel hobj' hm'
    have heq : arch' = arch := Option.some.inj (harch''.symm.trans (harch'.trans harch))
    rw [hsel', hsel, heq, hendian]

theorem elf_width_fixed_rv64 :
    WidthSurvives Fixtures.elfStrippedCrates Fixtures.elfStrippedBlob :=
  (elf_width_fixed Fixtures.elfStrippedCrates Fixtures.elfStrippedBlob Fixtures.elfStripped
    (Fixtures.crates_objectParse _ _ _) (by decide)).2.1.mpr rfl

namespace Fixtures

/-- A 32-bit RISC-V header, next to the 64-bit one. -/
def elfRv32 : Elf := elf32 Probe.EM_RISCV true 0

def elfRv32Blob : List UInt8 := elf32Blob le elfRv32

def riscvCrates : Crates :=
  crates [(elfRv32Blob, .elf elfRv32), (elfStrippedBlob, .elf elfStripped)] []

end Fixtures

/-- A 32-bit RISC-V header is decoded as RV64, with the selection of the 64-bit header. -/
theorem rv32_width_lost :
    (probe Fixtures.riscvCrates Fixtures.elfRv32Blob).bits = some 32 ∧
      (probe Fixtures.riscvCrates Fixtures.elfStrippedBlob).bits = some 64 ∧
      (probe Fixtures.riscvCrates Fixtures.elfRv32Blob).archSel =
        (probe Fixtures.riscvCrates Fixtures.elfStrippedBlob).archSel ∧
      ¬ WidthSurvives Fixtures.riscvCrates Fixtures.elfRv32Blob := by
  have h32 : Fixtures.riscvCrates.objectParse Fixtures.elfRv32Blob =
      some (.elf Fixtures.elfRv32) := by
    simp only [Fixtures.riscvCrates, Fixtures.crates, List.lookup_cons, BEq.rfl]
  have h64 : Fixtures.riscvCrates.objectParse Fixtures.elfStrippedBlob =
      some (.elf Fixtures.elfStripped) := by
    have hne : (Fixtures.elfStrippedBlob == Fixtures.elfRv32Blob) = false := by decide +kernel
    simp only [Fixtures.riscvCrates, Fixtures.crates, List.lookup_cons, hne, BEq.rfl]
  refine ⟨elf_bits h32, elf_bits h64, ?_, ?_⟩
  · rw [probe_of_some h32, probe_of_some h64]
    rfl
  · rintro ⟨sel, hsel, hbits⟩
    rw [probe_of_some h32] at hsel hbits
    cases hsel
    revert hbits
    decide

end VgiDisasm
