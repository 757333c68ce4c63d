import VgiDisasm.SweepRows
import VgiDisasm.Fixtures

/-!
# The sweep refines the one-instruction-at-a-time reference

The reference is `Decoder.sweep`: at each offset the one-step decoder's instruction, or the
one bad byte.  The engine decodes in bulk, re-enters the decoder behind each bad byte and may
meet the cap inside a batch; when the bulk decode iterates the one-step decoder, none of that
shows in the rows.
-/

namespace VgiDisasm

open VgiDisasm.Engine

theorem Capstone.Iterates.lengthsPositive {cs : Capstone}
    {D : Decoder UInt8 UInt64 CsInsn CsInsn.len} (h : cs.Iterates D) : cs.LengthsPositive := by
  intro rem addr i hi
  rw [h rem addr] at hi
  exact D.len_pos_of_mem_bulk i hi

/-- Batch by batch, the uncapped sweep is the reference sweep. -/
theorem sweepRows_eq_reference {cs : Capstone} {D : Decoder UInt8 UInt64 CsInsn CsInsn.len}
    (h : cs.Iterates D) (code : List UInt8) (addr : UInt64) :
    sweepRows cs code addr = D.sweep (insnRow cs) Insn.bad code addr := by
  induction code, addr using sweepRows_induction h.lengthsPositive with
  | nil addr => rw [sweepRows_nil, D.sweep_nil]
  | bad b rest addr hnil ih =>
    have hfail : D.decode (b :: rest) addr = none := by
      rwa [h, D.bulk_eq_nil] at hnil
    rw [sweepRows_bad hnil, D.sweep_none _ _ hfail, ih]
  | batch code addr hcode hne ih =>
    rw [sweepRows_batch h.lengthsPositive hcode hne, ih,
      D.sweep_eq_bulk (insnRow cs) Insn.bad code addr, h]
    rfl

/-- **`sweep_into` refines the reference sweep.**  For every decoder, code, base, initial
rows and cap: the initial rows are untouched, the appended rows are the first
`maxTotal - out.length` rows of the reference, and their number is returned. -/
theorem sweepInto_refines_reference (cs : Capstone)
    (D : Decoder UInt8 UInt64 CsInsn CsInsn.len) (h : cs.Iterates D) (code : List UInt8)
    (base : UInt64) (out : List Insn) (maxTotal : ℕ) :
    let rows := (D.sweep (insnRow cs) Insn.bad code base).take (maxTotal - out.length)
    sweepInto cs code base out maxTotal = (out ++ rows, rows.length) := by
  intro rows
  rw [sweepInto_eq h.lengthsPositive, sweepRows_eq_reference h]

/-- Bad byte, `nop`, bad byte, `ret`, with the cap before the last. -/
theorem sweepInto_refines_reference_x64 :
    let rows := (Fixtures.x64Decoder.sweep (insnRow Fixtures.x64Handle) Insn.bad
      [0x06, 0x90, 0x06, 0xc3] 0x1000).take 3
    sweepInto Fixtures.x64Handle [0x06, 0x90, 0x06, 0xc3] 0x1000 [] 3 = ([] ++ rows, rows.length) :=
  sweepInto_refines_reference Fixtures.x64Handle Fixtures.x64Decoder Fixtures.x64Handle_iterates
    [0x06, 0x90, 0x06, 0xc3] 0x1000 [] 3

end VgiDisasm
