import VgiDisasm.Library.Loop
import VgiDisasm.Groups
import VgiDisasm.Limits
import VgiDisasm.Probe

/-!
# The decode engine

A handle for an `ArchSel`, and the linear sweep with bad-byte resume: decode in bulk, emit
one row per instruction until the shared row cap, emit a one-byte `.byte` row where nothing
decodes, resume behind it.
-/

namespace VgiDisasm

/-- One instruction row. -/
structure Insn where
  address : UInt64
  /-- Length in bytes; 0 only for the synthetic `(error)` row. -/
  size : UInt8
  bytes : List UInt8
  mnemonic : String
  opStr : String
  groups : List String
  deriving DecidableEq, Repr

namespace Insn

/-- The row of one undecodable byte. -/
def bad (addr : UInt64) (byte : UInt8) : Insn where
  address := addr
  size := 1
  bytes := [byte]
  mnemonic := ".byte"
  opStr := Text.hexByte byte
  groups := []

/-- The single diagnostic row. -/
def archRequired : Insn where
  address := 0
  size := 0
  bytes := []
  mnemonic := "(error)"
  opStr := "arch required for raw blob"
  groups := []

end Insn

namespace Engine

/-! ### Handles -/

/-- The `Capstone::new()` chain for a selection. -/
def builder (sel : ArchSel) : CsBuilder :=
  let endian := if sel.bigEndian then Endian.big else Endian.little
  let arch := match sel.arch with
    | "x86" =>
      let mode := match sel.mode with
        | "x16" => X86Mode.mode16
        | "x32" => X86Mode.mode32
        | _ => X86Mode.mode64
      CsArch.x86 mode .intel
    | "arm" => CsArch.arm (if sel.mode == "thumb" then .thumb else .arm) endian
    | "arm64" => CsArch.arm64
    | "mips" => CsArch.mips .mips64 endian
    | "ppc" => CsArch.ppc .mode64 endian
    | "sysz" => CsArch.sysz
    | "riscv" => CsArch.riscv .riscV64
    -- unknown arch: resolution upstream should prevent reaching here
    | _ => CsArch.x86 .mode64 .intel
  { arch := arch, detail := true }

def build (K : Crates) (sel : ArchSel) : Option Capstone := K.capstoneBuild (builder sel)

/-! ### The sweep -/

/-- The row of a decoded instruction. -/
def insnRow (cs : Capstone) (insn : CsInsn) : Insn where
  address := insn.address
  size := UInt8.ofNat (min insn.bytes.length 255)
  bytes := insn.bytes
  mnemonic := insn.mnemonic.getD ""
  opStr := insn.opStr.getD ""
  groups :=
    match cs.insnDetail insn with
    | some ids => Groups.normalizeAll (ids.filterMap cs.groupName)
    | none => []

/-- The loop over one decoded batch: rows under the cap, and the bytes they consumed. -/
def pushBatch (cs : Capstone) (maxTotal : ℕ) : List CsInsn → List Insn → ℕ → List Insn × ℕ
  | [], out, consumed => (out, consumed)
  | insn :: rest, out, consumed =>
    if out.length ≥ maxTotal then (out, consumed)
    else pushBatch cs maxTotal rest (out ++ [insnRow cs insn]) (consumed + insn.bytes.length)

/-- The mutable state of `sweep_into`. -/
structure SweepState where
  offset : ℕ
  out : List Insn

/-- One pass of the loop of `sweep_into`, `none` where it ends. -/
def sweepStep (cs : Capstone) (code : List UInt8) (base : UInt64) (maxTotal : ℕ)
    (s : SweepState) : Option SweepState :=
  if h : s.offset < code.length then
    if s.out.length ≥ maxTotal then none
    else
      let addr := base + UInt64.ofNat s.offset
      let remaining := code.drop s.offset
      match cs.disasmAll remaining addr with
      | some (insn :: insns) =>
        let (out, consumed) := pushBatch cs maxTotal (insn :: insns) s.out 0
        if consumed = 0 then
          -- defensive: nothing advanced
          some ⟨s.offset + 1, out ++ [Insn.bad addr code[s.offset]]⟩
        else some ⟨s.offset + consumed, out⟩
      | _ => some ⟨s.offset + 1, s.out ++ [Insn.bad addr code[s.offset]]⟩
  else none

/-- Sweep `code` from `base`, appending to `out` up to `maxTotal` rows in all; the second
component is the returned number of rows.  Every pass advances the offset, so `code.length`
passes are enough (`sweepInto_exits`). -/
def sweepInto (cs : Capstone) (code : List UInt8) (base : UInt64) (out : List Insn)
    (maxTotal : ℕ) : List Insn × ℕ :=
  let s := Loop.run (sweepStep cs code base maxTotal) code.length ⟨0, out⟩
  (s.out, s.out.length - out.length)

/-- A standalone slice in one call; without a handle, no rows. -/
def decode (K : Crates) (sel : ArchSel) (code : List UInt8) (base : UInt64) : List Insn :=
  match build K sel with
  | some cs => (sweepInto cs code base [] MAX_INSNS).1
  | none => []

end Engine

end VgiDisasm
