import Mathlib.Data.UInt
import VgiDisasm.Library.Decoder
import VgiDisasm.Library.Extents
import VgiDisasm.Engine

/-!
# The uncapped sweep, and `sweep_into` as its truncation

`sweepRows cs code addr` is what the sweep of `code` says when nothing limits the number of
rows: the answer to the bulk decode of the whole rest, a bad row where that answer consumes
nothing, then the same from where the answer ended.  It recurses on the remaining bytes, so
facts about it are plain inductions.

**`sweepInto_fst`** is the bridge to the loop of the source: as long as the handle never
returns a zero-length instruction, `sweep_into` appends exactly the rows of `sweepRows` that
fit under the cap.  The invariant of the loop is that the rows out so far, followed by the
truncated sweep of the bytes still ahead, is a constant.
-/

namespace VgiDisasm

open VgiDisasm.Engine

/-! ### Addresses -/

/-- Lengths advance a 64-bit address with wrap-around. -/
instance wrappingAdvance : AddAction ℕ UInt64 where
  vadd n a := a + UInt64.ofNat n
  zero_vadd a := by
    show a + UInt64.ofNat 0 = a
    simp
  add_vadd m n a := by
    show a + UInt64.ofNat (m + n) = a + UInt64.ofNat n + UInt64.ofNat m
    rw [UInt64.ofNat_add, add_assoc, add_comm (UInt64.ofNat m)]

theorem vadd_def (n : ℕ) (a : UInt64) : n +ᵥ a = a + UInt64.ofNat n := rfl

theorem toNat_vadd (n : ℕ) (a : UInt64) : (n +ᵥ a).toNat = (a.toNat + n) % 2 ^ 64 := by
  rw [vadd_def, UInt64.toNat_add, UInt64.toNat_ofNat']
  omega

theorem toNat_vadd_of_lt {n : ℕ} {a : UInt64} (h : a.toNat + n < 2 ^ 64) :
    (n +ᵥ a).toNat = a.toNat + n := by
  rw [toNat_vadd, Nat.mod_eq_of_lt h]

/-! ### What is assumed of a handle -/

namespace Capstone

/-- The instructions of the bulk decode; an `Err` gives none. -/
def answer (cs : Capstone) (rem : List UInt8) (addr : UInt64) : List CsInsn :=
  (cs.disasmAll rem addr).getD []

/-- No answer has a zero-length instruction. -/
def LengthsPositive (cs : Capstone) : Prop :=
  ∀ rem addr, ∀ i ∈ cs.answer rem addr, 0 < i.len

/-- The bulk decode iterates the one-step decoder `D`. -/
def Iterates (cs : Capstone) (D : Decoder UInt8 UInt64 CsInsn CsInsn.len) : Prop :=
  ∀ rem addr, cs.answer rem addr = D.bulk rem addr

/-- Answers read off the front of the bytes, at least one byte an instruction. -/
structure AnswersPrefix (cs : Capstone) : Prop where
  len_pos : cs.LengthsPositive
  bytes_le : ∀ rem addr, (cs.answer rem addr).flatMap CsInsn.bytes <+: rem

/-- Answers moreover have lengths that fit a `u8` and consecutive addresses from the one
asked for, modulo `2^64`.  Two answers need not agree with each other. -/
structure AnswersTile (cs : Capstone) : Prop extends AnswersPrefix cs where
  len_le : ∀ rem addr, ∀ i ∈ cs.answer rem addr, i.len ≤ 255
  address : ∀ rem addr (j : ℕ) (hj : j < (cs.answer rem addr).length),
    ((cs.answer rem addr)[j]).address =
      addr + UInt64.ofNat (((cs.answer rem addr).take j).map CsInsn.len).sum

end Capstone

/-- Every handle the crate builds has the property. -/
def Crates.Handles (K : Crates) (P : Capstone → Prop) : Prop :=
  ∀ b cs, K.capstoneBuild b = some cs → P cs

/-! ### The uncapped sweep -/

/-- The bytes an answer consumes. -/
def consumed (insns : List CsInsn) : ℕ := (insns.map CsInsn.len).sum

theorem consumed_cons (i : CsInsn) (is : List CsInsn) : consumed (i :: is) = i.len + consumed is :=
  rfl

theorem consumed_pos {insns : List CsInsn} (hpos : ∀ i ∈ insns, 0 < i.len) (hne : insns ≠ []) :
    0 < consumed insns := by
  cases insns with
  | nil => exact absurd rfl hne
  | cons i is =>
    have := hpos i List.mem_cons_self
    rw [consumed_cons]
    omega

/-- Every row of the sweep of `code` from `addr`. -/
def sweepRows (cs : Capstone) (code : List UInt8) (addr : UInt64) : List Insn :=
  match code with
  | [] => []
  | b :: rest =>
    if _h : consumed (cs.answer (b :: rest) addr) = 0 then
      (cs.answer (b :: rest) addr).map (insnRow cs) ++
        Insn.bad addr b :: sweepRows cs rest (1 +ᵥ addr)
    else
      (cs.answer (b :: rest) addr).map (insnRow cs) ++
        sweepRows cs ((b :: rest).drop (consumed (cs.answer (b :: rest) addr)))
          (consumed (cs.answer (b :: rest) addr) +ᵥ addr)
termination_by code.length
decreasing_by
  · simp
  · simp only [List.length_drop, List.length_cons]
    omega

theorem sweepRows_nil (cs : Capstone) (addr : UInt64) : sweepRows cs [] addr = [] := by
  rw [sweepRows]

/-- Nothing decodes at the front: one bad row. -/
theorem sweepRows_bad {cs : Capstone} {b : UInt8} {rest : List UInt8} {addr : UInt64}
    (h : cs.answer (b :: rest) addr = []) :
    sweepRows cs (b :: rest) addr = Insn.bad addr b :: sweepRows cs rest (1 +ᵥ addr) := by
  rw [sweepRows]
  simp [h, consumed]

/-- A batch: its rows, then the sweep of what it left. -/
theorem sweepRows_batch {cs : Capstone} (hpos : cs.LengthsPositive) {code : List UInt8}
    {addr : UInt64} (hcode : code ≠ []) (h : cs.answer code addr ≠ []) :
    sweepRows cs code addr =
      (cs.answer code addr).map (insnRow cs) ++
        sweepRows cs (code.drop (consumed (cs.answer code addr)))
          (consumed (cs.answer code addr) +ᵥ addr) := by
  cases code with
  | nil => exact absurd rfl hcode
  | cons b rest =>
    have := consumed_pos (hpos _ _) h
    rw [sweepRows]
    rw [dif_neg (by omega)]

/-- Induction along a sweep whose handle answers with positive lengths: the code ends, or
nothing decodes at its front, or a batch is followed by what it left. -/
theorem sweepRows_induction {cs : Capstone} (hpos : cs.LengthsPositive)
    {motive : List UInt8 → UInt64 → Prop} (nil : ∀ addr, motive [] addr)
    (bad : ∀ b rest addr, cs.answer (b :: rest) addr = [] → motive rest (1 +ᵥ addr) →
      motive (b :: rest) addr)
    (batch : ∀ code addr, code ≠ [] → cs.answer code addr ≠ [] →
      motive (code.drop (consumed (cs.answer code addr)))
        (consumed (cs.answer code addr) +ᵥ addr) →
      motive code addr)
    (code : List UInt8) (addr : UInt64) : motive code addr := by
  fun_induction sweepRows cs code addr with
  | case1 addr => exact nil addr
  | case2 addr b rest hzero ih =>
    refine bad b rest addr ?_ ih
    by_contra hne
    have := consumed_pos (hpos _ _) hne
    omega
  | case3 addr b rest hzero ih =>
    refine batch (b :: rest) addr (List.cons_ne_nil b rest) ?_ ih
    intro hnil
    rw [hnil] at hzero
    exact hzero rfl

/-- What holds of every decoded instruction's row and of every bad row holds of every row. -/
theorem forall_mem_sweepRows {cs : Capstone} {P : Insn → Prop}
    (good : ∀ rem a, ∀ i ∈ cs.answer rem a, P (insnRow cs i)) (bad : ∀ a b, P (Insn.bad a b))
    (code : List UInt8) (addr : UInt64) : ∀ r ∈ sweepRows cs code addr, P r := by
  have hbatch : ∀ rem a, ∀ r ∈ (cs.answer rem a).map (insnRow cs), P r := by
    intro rem a r hr
    obtain ⟨i, hi, rfl⟩ := List.mem_map.mp hr
    exact good rem a i hi
  fun_induction sweepRows cs code addr with
  | case1 => simp
  | case2 addr b rest hzero ih =>
    rw [List.forall_mem_append, List.forall_mem_cons]
    exact ⟨hbatch _ _, bad _ _, ih⟩
  | case3 addr b rest hzero ih =>
    rw [List.forall_mem_append]
    exact ⟨hbatch _ _, ih⟩

/-! ### One pass of the loop -/

theorem pushBatch_eq (cs : Capstone) (maxTotal : ℕ) (insns : List CsInsn) (out : List Insn)
    (n : ℕ) :
    pushBatch cs maxTotal insns out n =
      (out ++ (insns.take (maxTotal - out.length)).map (insnRow cs),
        n + consumed (insns.take (maxTotal - out.length))) := by
  induction insns generalizing out n with
  | nil => simp [pushBatch, consumed]
  | cons i is ih =>
    rw [pushBatch]
    split
    · rename_i h
      simp [Nat.sub_eq_zero_of_le h, consumed]
    · rename_i h
      rw [ih, show maxTotal - out.length = (maxTotal - (out ++ [insnRow cs i]).length) + 1 from by
        simp only [List.length_append, List.length_singleton]; omega]
      simp only [List.take_succ_cons, List.map_cons, List.append_assoc, List.singleton_append,
        consumed_cons, CsInsn.len, Nat.add_assoc]

/-- The loop ends exactly at the end of the code or at the cap. -/
theorem sweepStep_eq_none {cs : Capstone} {code : List UInt8} {base : UInt64} {maxTotal : ℕ}
    {s : SweepState} :
    sweepStep cs code base maxTotal s = none ↔
      code.length ≤ s.offset ∨ maxTotal ≤ s.out.length := by
  unfold sweepStep
  split
  · rename_i h
    split
    · rename_i hcap
      simp [hcap]
    · rename_i hcap
      have hno : ¬ (code.length ≤ s.offset ∨ maxTotal ≤ s.out.length) := by omega
      simp only [hno, iff_false]
      split
      · split <;> simp
      · simp
  · rename_i h
    simp [Nat.not_lt.mp h]

/-- **What one pass does.**  The part of the answer that fits is pushed; if it consumed
nothing, one bad row follows and the offset moves by one, else by what was consumed. -/
theorem sweepStep_eq_some {cs : Capstone} {code : List UInt8} {base : UInt64} {maxTotal : ℕ}
    {s : SweepState} (h : s.offset < code.length) (hcap : s.out.length < maxTotal) :
    sweepStep cs code base maxTotal s =
      (let pushed := (cs.answer (code.drop s.offset) (s.offset +ᵥ base)).take
          (maxTotal - s.out.length)
        if consumed pushed = 0 then
          some ⟨s.offset + 1, s.out ++ pushed.map (insnRow cs) ++
            [Insn.bad (s.offset +ᵥ base) code[s.offset]]⟩
        else some ⟨s.offset + consumed pushed, s.out ++ pushed.map (insnRow cs)⟩) := by
  unfold sweepStep Capstone.answer
  rw [dif_pos h, if_neg (Nat.not_le.mpr hcap)]
  simp only [← vadd_def]
  cases cs.disasmAll (code.drop s.offset) (s.offset +ᵥ base) with
  | none => simp [consumed]
  | some insns =>
    cases insns with
    | nil => simp [consumed]
    | cons i is => simp only [pushBatch_eq, Nat.zero_add, Option.getD_some]

/-- Without an answer the pass is one bad row. -/
theorem sweepStep_of_nil {cs : Capstone} {code : List UInt8} {base : UInt64} {maxTotal : ℕ}
    {s : SweepState} (hoff : s.offset < code.length) (hcap : s.out.length < maxTotal)
    (hans : cs.answer (code.drop s.offset) (s.offset +ᵥ base) = []) :
    sweepStep cs code base maxTotal s =
      some ⟨s.offset + 1, s.out ++ [Insn.bad (s.offset +ᵥ base) code[s.offset]]⟩ := by
  rw [sweepStep_eq_some hoff hcap, hans]
  simp [consumed]

/-- With one it pushes what fits, and moves on behind it. -/
theorem sweepStep_of_ne_nil {cs : Capstone} (hpos : cs.LengthsPositive) {code : List UInt8}
    {base : UInt64} {maxTotal : ℕ} {s : SweepState} (hoff : s.offset < code.length)
    (hcap : s.out.length < maxTotal)
    (hans : cs.answer (code.drop s.offset) (s.offset +ᵥ base) ≠ []) :
    sweepStep cs code base maxTotal s =
      some ⟨s.offset + consumed ((cs.answer (code.drop s.offset) (s.offset +ᵥ base)).take
          (maxTotal - s.out.length)),
        s.out ++ ((cs.answer (code.drop s.offset) (s.offset +ᵥ base)).take
          (maxTotal - s.out.length)).map (insnRow cs)⟩ := by
  have hne : (cs.answer (code.drop s.offset) (s.offset +ᵥ base)).take
      (maxTotal - s.out.length) ≠ [] := by
    rw [ne_eq, List.take_eq_nil_iff]
    exact fun h => h.elim (by omega) hans
  have hconsumed := consumed_pos
    (fun i hi => hpos (code.drop s.offset) (s.offset +ᵥ base) i (List.mem_of_mem_take hi)) hne
  rw [sweepStep_eq_some hoff hcap]
  exact if_neg (Nat.ne_of_gt hconsumed)

theorem sweepStep_go {cs : Capstone} {code : List UInt8} {base : UInt64} {maxTotal : ℕ}
    {s s' : SweepState} (h : sweepStep cs code base maxTotal s = some s') :
    s.offset < code.length ∧ s.out.length < maxTotal := by
  by_contra hstop
  rw [sweepStep_eq_none.mpr (by omega)] at h
  cases h

/-- Every pass moves on, so no two calls of the decoder see the same bytes. -/
theorem sweepStep_offset_lt {cs : Capstone} {code : List UInt8} {base : UInt64} {maxTotal : ℕ}
    {s s' : SweepState} (h : sweepStep cs code base maxTotal s = some s') :
    s.offset < s'.offset := by
  obtain ⟨hoff, hcap⟩ := sweepStep_go h
  rw [sweepStep_eq_some hoff hcap] at h
  simp only at h
  split at h <;> cases h <;> simp only <;> omega

theorem sweepStep_measure {cs : Capstone} {code : List UInt8} {base : UInt64} {maxTotal : ℕ}
    (s s' : SweepState) (h : sweepStep cs code base maxTotal s = some s') :
    code.length - s'.offset < code.length - s.offset := by
  have hoff := (sweepStep_go h).1
  have hlt := sweepStep_offset_lt h
  omega

/-- The fuel of `sweepInto` is enough: it ends where the loop of the source ends. -/
theorem sweepInto_exits (cs : Capstone) (code : List UInt8) (base : UInt64) (out : List Insn)
    (maxTotal : ℕ) :
    sweepStep cs code base maxTotal
      (Loop.run (sweepStep cs code base maxTotal) code.length ⟨0, out⟩) = none :=
  Loop.run_exits (fun s => code.length - s.offset) sweepStep_measure _ _ (by simp)

/-! ### The whole loop -/

/-- The loop invariant: rows out, then the truncated sweep of the bytes ahead. -/
def Pending (cs : Capstone) (code : List UInt8) (base : UInt64) (maxTotal : ℕ)
    (total : List Insn) (s : SweepState) : Prop :=
  s.out ++ (sweepRows cs (code.drop s.offset) (s.offset +ᵥ base)).take (maxTotal - s.out.length) =
    total

theorem pending_bad {cs : Capstone} {code : List UInt8} {base : UInt64} {maxTotal : ℕ}
    {total : List Insn} {s : SweepState} (hs : Pending cs code base maxTotal total s)
    (hoff : s.offset < code.length) (hcap : s.out.length < maxTotal)
    (hnil : cs.answer (code.drop s.offset) (s.offset +ᵥ base) = []) :
    Pending cs code base maxTotal total
      ⟨s.offset + 1, s.out ++ [Insn.bad (s.offset +ᵥ base) code[s.offset]]⟩ := by
  have hdrop : code.drop s.offset = code[s.offset] :: code.drop (s.offset + 1) :=
    List.drop_eq_getElem_cons hoff
  have hroom : maxTotal - s.out.length = maxTotal - (s.out.length + 1) + 1 := by omega
  unfold Pending at hs ⊢
  rw [hdrop] at hnil hs
  rw [sweepRows_bad hnil, hroom, List.take_succ_cons, ← add_vadd, Nat.add_comm 1] at hs
  rw [List.length_append, List.length_singleton, List.append_assoc, List.singleton_append]
  exact hs

theorem pending_batch {cs : Capstone} (hpos : cs.LengthsPositive) {code : List UInt8}
    {base : UInt64} {maxTotal : ℕ} {total : List Insn} {s : SweepState}
    (hs : Pending cs code base maxTotal total s) (hoff : s.offset < code.length)
    (hne : cs.answer (code.drop s.offset) (s.offset +ᵥ base) ≠ [])
    {pushed : List CsInsn} (hpushed : pushed =
      (cs.answer (code.drop s.offset) (s.offset +ᵥ base)).take (maxTotal - s.out.length)) :
    Pending cs code base maxTotal total
      ⟨s.offset + consumed pushed, s.out ++ pushed.map (insnRow cs)⟩ := by
  have hcode : code.drop s.offset ≠ [] := by
    rw [List.drop_eq_getElem_cons hoff]
    exact List.cons_ne_nil _ _
  unfold Pending at hs ⊢
  rw [sweepRows_batch hpos hcode hne, List.take_append, ← List.map_take, ← hpushed,
    List.length_map] at hs
  rw [List.length_append, List.length_map, List.append_assoc, ← hs]
  rcases Nat.le_total (cs.answer (code.drop s.offset) (s.offset +ᵥ base)).length
    (maxTotal - s.out.length) with hle | hle
  · -- the batch fits whole
    rw [List.take_of_length_le hle] at hpushed
    rw [← hpushed, List.drop_drop, ← add_vadd, Nat.add_comm (consumed pushed), Nat.sub_sub]
  · -- the cap falls inside the batch
    have hlen : pushed.length = maxTotal - s.out.length := by
      rw [hpushed, List.length_take, Nat.min_eq_left hle]
    rw [Nat.sub_eq_zero_of_le hle, hlen,
      show maxTotal - (s.out.length + (maxTotal - s.out.length)) = 0 from by omega,
      List.take_zero, List.take_zero]

theorem pending_step {cs : Capstone} (hpos : cs.LengthsPositive) {code : List UInt8}
    {base : UInt64} {maxTotal : ℕ} {total : List Insn} (s s' : SweepState)
    (hs : Pending cs code base maxTotal total s)
    (h : sweepStep cs code base maxTotal s = some s') :
    Pending cs code base maxTotal total s' := by
  obtain ⟨hoff, hcap⟩ := sweepStep_go h
  by_cases hnil : cs.answer (code.drop s.offset) (s.offset +ᵥ base) = []
  · cases h.symm.trans (sweepStep_of_nil hoff hcap hnil)
    exact pending_bad hs hoff hcap hnil
  · cases h.symm.trans (sweepStep_of_ne_nil hpos hoff hcap hnil)
    exact pending_batch hpos hs hoff hnil rfl

theorem pending_exit {cs : Capstone} {code : List UInt8} {base : UInt64} {maxTotal : ℕ}
    {total : List Insn} (s : SweepState) (hs : Pending cs code base maxTotal total s)
    (h : sweepStep cs code base maxTotal s = none) : s.out = total := by
  unfold Pending at hs
  rw [← hs]
  rcases sweepStep_eq_none.mp h with hend | hcap
  · rw [List.drop_eq_nil_of_le hend, sweepRows_nil, List.take_nil, List.append_nil]
  · rw [Nat.sub_eq_zero_of_le hcap, List.take_zero, List.append_nil]

/-- **`sweep_into` is the truncated sweep.** -/
theorem sweepInto_fst {cs : Capstone} (hpos : cs.LengthsPositive) (code : List UInt8)
    (base : UInt64) (out : List Insn) (maxTotal : ℕ) :
    (sweepInto cs code base out maxTotal).1 =
      out ++ (sweepRows cs code base).take (maxTotal - out.length) := by
  have hstart : Pending cs code base maxTotal
      (out ++ (sweepRows cs code base).take (maxTotal - out.length)) ⟨0, out⟩ := by
    show out ++ (sweepRows cs (code.drop 0) (0 +ᵥ base)).take (maxTotal - out.length) = _
    rw [List.drop_zero, zero_vadd]
  exact Loop.run_spec (fun s => code.length - s.offset) sweepStep_measure (pending_step hpos)
    pending_exit (Nat.sub_le _ _) hstart

theorem sweepInto_eq {cs : Capstone} (hpos : cs.LengthsPositive) (code : List UInt8)
    (base : UInt64) (out : List Insn) (maxTotal : ℕ) :
    sweepInto cs code base out maxTotal =
      (out ++ (sweepRows cs code base).take (maxTotal - out.length),
        ((sweepRows cs code base).take (maxTotal - out.length)).length) := by
  have hfst := sweepInto_fst hpos code base out maxTotal
  refine Prod.ext hfst ?_
  show (sweepInto cs code base out maxTotal).1.length - out.length = _
  rw [hfst, List.length_append, Nat.add_sub_cancel_left]

end VgiDisasm
