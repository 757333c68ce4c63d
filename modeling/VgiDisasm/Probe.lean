import VgiDisasm.Text
import VgiDisasm.Crates
import VgiDisasm.Build

/-!
# Container sniffing and `(arch, mode)` resolution

`probe` answers from the container header alone: the format, the decoder's arch and mode,
bitness, byte order, entry address.  `resolveExplicit` is the other way to a selection,
from the caller's argument strings.
-/

namespace VgiDisasm

open VgiDisasm.Text

/-- The resolved decoder selection. -/
structure ArchSel where
  /-- `x86 | arm | arm64 | mips | ppc | sysz | riscv`. -/
  arch : String
  /-- `x16|x32|x64` for x86, `arm|thumb` for 32-bit ARM, `little|big` for the rest. -/
  mode : String
  bigEndian : Bool
  deriving DecidableEq, Repr

structure Probe where
  /-- `pe | elf | macho | fat-macho | raw`. -/
  container : String
  arch : Option String := none
  mode : Option String := none
  bits : Option UInt8 := none
  endian : Option String := none
  entry : Option UInt64 := none
  deriving DecidableEq, Repr

namespace Probe

def raw : Probe where
  container := "raw"

def archSel (p : Probe) : Option ArchSel :=
  match p.arch, p.mode with
  | some arch, some mode => some ⟨arch, mode, p.endian == some "big"⟩
  | _, _ => none

/-! ### Header tables -/

def EM_386 : UInt16 := 3
def EM_MIPS : UInt16 := 8
def EM_PPC : UInt16 := 20
def EM_PPC64 : UInt16 := 21
def EM_S390 : UInt16 := 22
def EM_ARM : UInt16 := 40
def EM_X86_64 : UInt16 := 62
def EM_AARCH64 : UInt16 := 183
def EM_RISCV : UInt16 := 243

def endianStr (big : Bool) : String := if big then "big" else "little"

def elfArch (machine : UInt16) (big : Bool) (entry : UInt64) : Option String × Option String :=
  if machine = EM_386 then (some "x86", some "x32")
  else if machine = EM_X86_64 then (some "x86", some "x64")
  -- the entry's low bit marks Thumb
  else if machine = EM_ARM then (some "arm", some (if entry &&& 1 = 1 then "thumb" else "arm"))
  else if machine = EM_AARCH64 then (some "arm64", some (endianStr big))
  else if machine = EM_MIPS then (some "mips", some (endianStr big))
  else if machine = EM_PPC then (some "ppc", some (endianStr big))
  else if machine = EM_PPC64 then (some "ppc", some (endianStr big))
  else if machine = EM_S390 then (some "sysz", some "big")
  else if machine = EM_RISCV then (some "riscv", some (endianStr big))
  else (none, none)

def IMAGE_FILE_MACHINE_I386 : UInt16 := 0x014c
def IMAGE_FILE_MACHINE_ARM : UInt16 := 0x01c0
def IMAGE_FILE_MACHINE_ARMNT : UInt16 := 0x01c4
def IMAGE_FILE_MACHINE_AMD64 : UInt16 := 0x8664
def IMAGE_FILE_MACHINE_ARM64 : UInt16 := 0xaa64
def IMAGE_FILE_MACHINE_RISCV64 : UInt16 := 0x5064

def peArch (machine : UInt16) : Option String × Option String :=
  if machine = IMAGE_FILE_MACHINE_I386 then (some "x86", some "x32")
  else if machine = IMAGE_FILE_MACHINE_AMD64 then (some "x86", some "x64")
  else if machine = IMAGE_FILE_MACHINE_ARM ∨ machine = IMAGE_FILE_MACHINE_ARMNT then
    (some "arm", some "thumb")
  else if machine = IMAGE_FILE_MACHINE_ARM64 then (some "arm64", some "little")
  else if machine = IMAGE_FILE_MACHINE_RISCV64 then (some "riscv", some "little")
  else (none, none)

def CPU_TYPE_X86 : UInt32 := 7
def CPU_TYPE_X86_64 : UInt32 := 0x01000007
def CPU_TYPE_ARM : UInt32 := 12
def CPU_TYPE_ARM64 : UInt32 := 0x0100000c
def CPU_TYPE_POWERPC : UInt32 := 18
def CPU_TYPE_POWERPC64 : UInt32 := 0x01000012

def machArch (cputype : UInt32) (big : Bool) : Option String × Option String :=
  if cputype = CPU_TYPE_X86 then (some "x86", some "x32")
  else if cputype = CPU_TYPE_X86_64 then (some "x86", some "x64")
  else if cputype = CPU_TYPE_ARM then (some "arm", some "arm")
  else if cputype = CPU_TYPE_ARM64 then (some "arm64", some (endianStr big))
  else if cputype = CPU_TYPE_POWERPC then (some "ppc", some "big")
  else if cputype = CPU_TYPE_POWERPC64 then (some "ppc", some "big")
  else (none, none)

/-! ### The probe -/

/-- The ELF arm of `parse`. -/
def elfProbe (elf : Elf) : Probe :=
  let big := !elf.littleEndian
  let am := elfArch elf.eMachine big elf.entry
  { container := "elf"
    arch := am.1
    mode := am.2
    bits := some (if elf.is64 then 64 else 32)
    endian := some (endianStr big)
    entry := some elf.entry }

/-- The PE arm of `parse`; the entry is made absolute, image base plus RVA. -/
def peProbe {m : Type → Type} [Monad m] (B : Build m) (pe : PE) : m Probe := do
  let am := peArch pe.machine
  let entry ← B.add pe.imageBase pe.entry.toUInt64
  pure
    { container := "pe"
      arch := am.1
      mode := am.2
      bits := some (if pe.is64 then 64 else 32)
      endian := some "little"
      entry := some entry }

def machProbe (macho : MachO) : Probe :=
  let big := !macho.littleEndian
  let am := machArch macho.cputype big
  { container := "macho"
    arch := am.1
    mode := am.2
    bits := some (if macho.is64 then 64 else 32)
    endian := some (endianStr big)
    entry := some macho.entry }

/-- The fat arm of `parse`: the first slice's fields under the fat container's name. -/
def fatProbe (fat : MultiArch) : Probe :=
  match fat.firstMachO with
  | some macho => { machProbe macho with container := "fat-macho" }
  | none => { container := "fat-macho" }

/-- The `match` of `parse` on the container kind. -/
def objectProbe {m : Type → Type} [Monad m] (B : Build m) : Object → m Probe
  | .elf elf => pure (elfProbe elf)
  | .pe pe => peProbe B pe
  | .mach (.binary macho) => pure (machProbe macho)
  | .mach (.fat fat) => pure (fatProbe fat)
  | .other => pure raw

def parse {m : Type → Type} [Monad m] (B : Build m) (K : Crates) (bytes : List UInt8) :
    m (Option Probe) :=
  match K.objectParse bytes with
  | none => pure none
  | some obj => some <$> objectProbe B obj

end Probe

/-- `probe` under a build configuration. -/
def probeWith {m : Type → Type} [Monad m] (B : Build m) (K : Crates) (bytes : List UInt8) :
    m Probe := do
  let p ← Probe.parse B K bytes
  pure (p.getD Probe.raw)

def probe (K : Crates) (bytes : List UInt8) : Probe := Id.run (probeWith Build.release K bytes)

theorem probe_of_none {K : Crates} {bytes : List UInt8} (h : K.objectParse bytes = none) :
    probe K bytes = Probe.raw := by
  simp [probe, probeWith, Probe.parse, h]

theorem probeWith_of_some {m : Type → Type} [Monad m] [LawfulMonad m] (B : Build m) {K : Crates}
    {bytes : List UInt8} {obj : Object} (h : K.objectParse bytes = some obj) :
    probeWith B K bytes = Probe.objectProbe B obj := by
  simp [probeWith, Probe.parse, h]

theorem probe_of_some {K : Crates} {bytes : List UInt8} {obj : Object}
    (h : K.objectParse bytes = some obj) :
    probe K bytes = Id.run (Probe.objectProbe Build.release obj) := by
  rw [probe, probeWith_of_some Build.release h]

/-! ### Explicit arguments -/

def SUPPORTED_ARCHES : List String := ["x86", "arm", "arm64", "mips", "ppc", "sysz", "riscv"]

def SUPPORTED_MODES : List String := ["x16", "x32", "x64", "arm", "thumb", "big", "little"]

/-- Both arguments are trimmed and lower-cased before they are looked at. -/
def argToken (arg : String) : String := toAsciiLowercase (trim arg)

/-- The `match` of `resolve_explicit`, on the normalized arguments. -/
def resolveTokens (arch : String) (m : Option String) : Option ArchSel :=
  let big := m == some "big"
  match arch with
  | "x86" | "x86_64" | "x64" | "i386" =>
    let mode := match m with
      | some "x16" => "x16"
      | some "x32" | some "32" => "x32"
      -- 64-bit for `x64`, `64`, no mode and any other mode
      | _ => "x64"
    some ⟨"x86", mode, false⟩
  | "arm" =>
    let mode := match m with
      | some "thumb" => "thumb"
      | _ => "arm"
    some ⟨"arm", mode, big⟩
  | "arm64" | "aarch64" => some ⟨"arm64", Probe.endianStr big, big⟩
  | "mips" => some ⟨"mips", Probe.endianStr big, big⟩
  | "ppc" | "powerpc" => some ⟨"ppc", Probe.endianStr big, big⟩
  | "sysz" | "s390" | "systemz" => some ⟨"sysz", "big", true⟩
  | "riscv" => some ⟨"riscv", Probe.endianStr big, big⟩
  | _ => none

/-- An explicit `arch` and optional `mode` argument; `none` for an unknown arch string. -/
def resolveExplicit (arch : String) (mode : Option String) : Option ArchSel :=
  resolveTokens (argToken arch) (mode.map argToken)

example : resolveExplicit " X86_64 " (some "X32") = some ⟨"x86", "x32", false⟩ := by decide

example : resolveExplicit "bogus" none = none := by decide

end VgiDisasm
