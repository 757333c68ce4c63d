import Mathlib.Data.Nat.Notation

/-!
# Hard caps

The input is hostile by assumption, so every fan-out is clamped by one of these.
-/

namespace VgiDisasm

/-- Instruction rows of one `disassemble` call, over all the regions it sweeps. -/
def MAX_INSNS : ℕ := 5_000_000

/-- Bytes fed to the decoder from any one section. -/
def MAX_SECTION_BYTES : ℕ := 64 * 1024 * 1024

/-- Rows of `sections`. -/
def MAX_SECTIONS : ℕ := 4_096

/-- Rows of `imports`. -/
def MAX_IMPORTS : ℕ := 65_536

/-- Rows of `strings`. -/
def MAX_STRINGS : ℕ := 200_000

/-- Characters of one extracted string; longer runs are cut. -/
def MAX_STRING_LEN : ℕ := 4_096

/-- Rows of `capabilities`. -/
def MAX_CAPABILITIES : ℕ := 4_096

/-- Bytes of the whole file that a string scan looks at, and the longest file read by path. -/
def MAX_SCAN_BYTES : ℕ := 256 * 1024 * 1024

end VgiDisasm
