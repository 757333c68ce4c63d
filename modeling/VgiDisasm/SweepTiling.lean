import VgiDisasm.SweepRows
import VgiDisasm.Fixtures

/-!
# The sweep tiles the code

Under `AnswersTile` every answer tiles a prefix of the bytes it was asked about, but answers
need not agree with each other.  The rows of an uncapped sweep then tile the whole code, and
the rows `sweep_into` appends tile a prefix of it, the whole of it unless the cap is met.
Addresses are 64-bit and wrap; "the next address" is the action of lengths on them.
-/

namespace VgiDisasm

open VgiDisasm.Engine VgiDisasm.Extents

/-! ### One answer -/

theorem consumed_eq_length (insns : List CsInsn) :
    consumed insns = (insns.flatMap CsInsn.bytes).length := by
  rw [List.length_flatMap]
  rfl

theorem Capstone.AnswersTile.consecutive_answer {cs : Capstone} (h : cs.AnswersTile)
    (rem : List UInt8) (addr : UInt64) :
    Consecutive CsInsn.address CsInsn.bytes addr (cs.answer rem addr) := by
  rw [consecutive_iff_getElem]
  refine ⟨fun i hi => ?_, fun j hj => ?_⟩
  · have hlen : 0 < i.bytes.length := h.len_pos rem addr i hi
    exact List.length_pos_iff.mp hlen
  · rw [h.address rem addr j hj, vadd_def]
    rfl

/-- The bytes of an answer, then the bytes it left, are the bytes asked about. -/
theorem Capstone.AnswersPrefix.answer_append_drop {cs : Capstone} (h : cs.AnswersPrefix)
    (rem : List UInt8) (addr : UInt64) :
    (cs.answer rem addr).flatMap CsInsn.bytes ++ rem.drop (consumed (cs.answer rem addr)) =
      rem := by
  rw [consumed_eq_length]
  exact (List.prefix_append_drop (h.bytes_le rem addr)).symm

theorem insnRow_size {cs : Capstone} {insn : CsInsn} (h : insn.len ≤ 255) :
    (insnRow cs insn).size.toNat = insn.bytes.length := by
  have hlen : insn.bytes.length ≤ 255 := h
  show (UInt8.ofNat (min insn.bytes.length 255)).toNat = insn.bytes.length
  rw [UInt8.toNat_ofNat', Nat.min_eq_left hlen]
  omega

/-! ### The uncapped sweep -/

/-- No byte is lost, none is emitted twice. -/
theorem flatMap_bytes_sweepRows {cs : Capstone} (h : cs.AnswersPrefix) (code : List UInt8)
    (addr : UInt64) : (sweepRows cs code addr).flatMap Insn.bytes = code := by
  induction code, addr using sweepRows_induction h.len_pos with
  | nil addr => rw [sweepRows_nil, List.flatMap_nil]
  | bad b rest addr hnil ih =>
    rw [sweepRows_bad hnil, List.flatMap_cons, ih]
    rfl
  | batch code addr hcode hne ih =>
    rw [sweepRows_batch h.len_pos hcode hne, List.flatMap_append, ih, List.flatMap_map]
    exact h.answer_append_drop code addr

theorem consecutive_sweepRows {cs : Capstone} (h : cs.AnswersTile) (code : List UInt8)
    (addr : UInt64) : Consecutive Insn.address Insn.bytes addr (sweepRows cs code addr) := by
  induction code, addr using sweepRows_induction h.len_pos with
  | nil addr => rw [sweepRows_nil]; exact trivial
  | bad b rest addr hnil ih =>
    rw [sweepRows_bad hnil]
    exact ⟨rfl, List.cons_ne_nil b [], ih⟩
  | batch code addr hcode hne ih =>
    rw [sweepRows_batch h.len_pos hcode hne, consecutive_append, consecutive_map,
      List.flatMap_map]
    refine ⟨h.consecutive_answer code addr, ?_⟩
    rw [consumed_eq_length] at ih ⊢
    exact ih

theorem sweepRows_size {cs : Capstone} (h : cs.AnswersTile) {code : List UInt8} {addr : UInt64} :
    ∀ r ∈ sweepRows cs code addr, r.size.toNat = r.bytes.length :=
  forall_mem_sweepRows (fun rem a i hi => insnRow_size (h.len_le rem a i hi)) (fun _ _ => rfl)
    code addr

theorem sweepRows_bytes_ne_nil {cs : Capstone} (h : cs.LengthsPositive) {code : List UInt8}
    {addr : UInt64} : ∀ r ∈ sweepRows cs code addr, r.bytes ≠ [] :=
  forall_mem_sweepRows (fun rem a i hi => List.length_pos_iff.mp (h rem a i hi))
    (fun _ b => List.cons_ne_nil b []) code addr

/-! ### Under the cap -/

/-- **The sweep is lossless and tiles the code.**  The appended rows cover a prefix of the
code, all of it unless the cap is met; each has the size of its bytes, at least one; and
each stands at `base` plus the sizes before it, modulo `2^64`. -/
theorem sweepInto_tiles (cs : Capstone) (h : cs.AnswersTile) (code : List UInt8) (base : UInt64)
    (out : List Insn) (maxTotal : ℕ) (hout : out.length ≤ maxTotal) :
    ∃ rows, (sweepInto cs code base out maxTotal).1 = out ++ rows ∧
      rows.flatMap Insn.bytes <+: code ∧
      ((out ++ rows).length ≠ maxTotal → rows.flatMap Insn.bytes = code) ∧
      (∀ r ∈ rows, r.size.toNat = r.bytes.length ∧ 1 ≤ r.size.toNat) ∧
      ∀ (j : ℕ) (hj : j < rows.length), rows[j].address =
        base + UInt64.ofNat ((rows.take j).map fun r => r.size.toNat).sum := by
  have hall := flatMap_bytes_sweepRows h.toAnswersPrefix code base
  have hcons := (consecutive_sweepRows h code base).take (maxTotal - out.length)
  have hsize : ∀ r ∈ (sweepRows cs code base).take (maxTotal - out.length),
      r.size.toNat = r.bytes.length := fun r hr => sweepRows_size h r (List.mem_of_mem_take hr)
  obtain ⟨hne, haddr⟩ := consecutive_iff_getElem.mp hcons
  refine ⟨(sweepRows cs code base).take (maxTotal - out.length),
    sweepInto_fst h.len_pos code base out maxTotal, ?_, ?_, ?_, ?_⟩
  · have hpre := (List.take_prefix (maxTotal - out.length) (sweepRows cs code base)).flatMap
      Insn.bytes
    rwa [hall] at hpre
  · intro hcap
    -- fewer rows than the cap leaves room for: none was cut
    rw [List.length_append, List.length_take] at hcap
    rw [List.take_of_length_le (by omega), hall]
  · intro r hr
    rw [hsize r hr]
    exact ⟨rfl, List.length_pos_iff.mpr (hne r hr)⟩
  · intro j hj
    rw [haddr j hj, vadd_def]
    congr 3
    exact List.map_congr_left fun r hr => (hsize r (List.mem_of_mem_take hr)).symm

/-- The address wraps behind the first row; the cap stops the sweep before the `ret`. -/
theorem sweepInto_tiles_wrapping :
    let result := sweepInto Fixtures.x64Handle [0x06, 0x90, 0xc3] 0xffffffffffffffff [] 2
    ∃ rows, result.1 = [] ++ rows ∧ rows.flatMap Insn.bytes <+: [0x06, 0x90, 0xc3] ∧
      (([] ++ rows).length ≠ 2 → rows.flatMap Insn.bytes = [0x06, 0x90, 0xc3]) ∧
      (∀ r ∈ rows, r.size.toNat = r.bytes.length ∧ 1 ≤ r.size.toNat) ∧
      ∀ (j : ℕ) (hj : j < rows.length), rows[j].address =
        0xffffffffffffffff + UInt64.ofNat ((rows.take j).map fun r => r.size.toNat).sum :=
  sweepInto_tiles Fixtures.x64Handle Fixtures.x64Handle_tiles [0x06, 0x90, 0xc3]
    0xffffffffffffffff [] 2 (by decide)

end VgiDisasm
