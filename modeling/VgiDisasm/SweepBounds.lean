import VgiDisasm.SweepRows
import VgiDisasm.Fixtures

/-!
# The sweep under an arbitrary decoder

Here nothing is assumed of the handle: it may fail, answer with nothing, with instructions of
length zero or with more bytes than there are.  The loop still ends, reads no byte outside the
code, leaves the rows it was given in place and counts what it appends.  The cap holds unless
the defensive row is pushed behind a batch that has already filled the room
(`sweepBounded_iff`).
-/

namespace VgiDisasm

open VgiDisasm.Engine

variable {cs : Capstone} {code : List UInt8} {base : UInt64} {maxTotal : ℕ}

/-! ### The property and its condition -/

/-- One call of `sweep_into` ends, within the code and within the cap. -/
structure SweepBounded (cs : Capstone) (code : List UInt8) (base : UInt64) (out : List Insn)
    (maxTotal : ℕ) : Prop where
  exits : sweepStep cs code base maxTotal
    (Loop.run (sweepStep cs code base maxTotal) code.length ⟨0, out⟩) = none
  /-- The index of `code[offset]` and of `&code[offset..]`, in every pass. -/
  inside : ∀ s ∈ Loop.trace (sweepStep cs code base maxTotal) code.length ⟨0, out⟩,
    s.offset < code.length
  kept : out <+: (sweepInto cs code base out maxTotal).1
  capped : (sweepInto cs code base out maxTotal).1.length ≤ max out.length maxTotal
  returned : (sweepInto cs code base out maxTotal).1.length =
    out.length + (sweepInto cs code base out maxTotal).2

/-- The answer at `s` fills the room that is left with instructions of length zero. -/
structure EmptyBatchFills (cs : Capstone) (code : List UInt8) (base : UInt64) (maxTotal : ℕ)
    (s : SweepState) : Prop where
  fills : maxTotal - s.out.length ≤ (cs.answer (code.drop s.offset) (s.offset +ᵥ base)).length
  zero : ∀ i ∈ (cs.answer (code.drop s.offset) (s.offset +ᵥ base)).take
    (maxTotal - s.out.length), i.len = 0

theorem consumed_eq_zero {insns : List CsInsn} : consumed insns = 0 ↔ ∀ i ∈ insns, i.len = 0 := by
  rw [consumed, List.sum_eq_zero_iff_forall_eq_nat, List.forall_mem_map]

/-! ### One pass -/

/-- A pass appends. -/
theorem prefix_of_sweepStep {s s' : SweepState}
    (h : sweepStep cs code base maxTotal s = some s') : s.out <+: s'.out := by
  obtain ⟨hoff, hcap⟩ := sweepStep_go h
  rw [sweepStep_eq_some hoff hcap] at h
  simp only at h
  split at h
  · cases h
    exact ⟨_, (List.append_assoc _ _ _).symm⟩
  · cases h
    exact List.prefix_append _ _

/-- **Where the cap is missed.**  A pass stays within the cap unless its batch fills the room
and consumes nothing. -/
theorem length_sweepStep_le_iff {s s' : SweepState}
    (h : sweepStep cs code base maxTotal s = some s') :
    s'.out.length ≤ maxTotal ↔ ¬ EmptyBatchFills cs code base maxTotal s := by
  obtain ⟨hoff, hcap⟩ := sweepStep_go h
  rw [sweepStep_eq_some hoff hcap] at h
  simp only at h
  split at h
  · -- the defensive row is pushed without another look at the cap
    rename_i hzero
    cases h
    have hfills : EmptyBatchFills cs code base maxTotal s ↔ maxTotal - s.out.length ≤
        (cs.answer (code.drop s.offset) (s.offset +ᵥ base)).length :=
      ⟨fun hfill => hfill.fills, fun hfill => ⟨hfill, consumed_eq_zero.mp hzero⟩⟩
    rw [hfills, List.length_append, List.length_append, List.length_map, List.length_take,
      List.length_singleton]
    omega
  · rename_i hpos
    cases h
    refine iff_of_true ?_ fun hfill => hpos (consumed_eq_zero.mpr hfill.zero)
    rw [List.length_append, List.length_map, List.length_take]
    omega

/-! ### All passes -/

theorem prefix_run (n : ℕ) (s : SweepState) :
    s.out <+: (Loop.run (sweepStep cs code base maxTotal) n s).out :=
  Loop.run_invariant (I := fun t : SweepState => s.out <+: t.out)
    (fun _ _ ht hstep => ht.trans (prefix_of_sweepStep hstep)) n s (List.prefix_refl _)

/-- The run stays within the cap exactly if each of its passes does: behind a pass that does
not, the rows only grow. -/
theorem length_run_le_iff (n : ℕ) (s : SweepState) :
    (Loop.run (sweepStep cs code base maxTotal) n s).out.length ≤ max s.out.length maxTotal ↔
      ∀ t ∈ Loop.trace (sweepStep cs code base maxTotal) n s,
        ¬ EmptyBatchFills cs code base maxTotal t := by
  induction n generalizing s with
  | zero => exact iff_of_true (Nat.le_max_left _ _) (List.forall_mem_nil _)
  | succ n ih =>
    cases hstep : sweepStep cs code base maxTotal s with
    | none =>
      rw [Loop.run_none hstep, Loop.trace_none hstep]
      exact iff_of_true (Nat.le_max_left _ _) (List.forall_mem_nil _)
    | some s' =>
      obtain ⟨-, hcap⟩ := sweepStep_go hstep
      have hone := length_sweepStep_le_iff hstep
      rw [Loop.run_some hstep, Loop.trace_some hstep, List.forall_mem_cons, ← ih s', ← hone,
        Nat.max_eq_right (Nat.le_of_lt hcap)]
      have hgrow : s'.out.length ≤
          (Loop.run (sweepStep cs code base maxTotal) n s').out.length :=
        (prefix_run n s').length_le
      constructor
      · intro h
        exact ⟨hgrow.trans h, h.trans (Nat.le_max_right _ _)⟩
      · rintro ⟨hle, h⟩
        rwa [Nat.max_eq_right hle] at h

/-- **When the sweep is bounded.**  For every decoder, code, base, initial rows and cap: exactly
when no pass of the run has its room filled by instructions of length zero. -/
theorem sweepBounded_iff (cs : Capstone) (code : List UInt8) (base : UInt64) (out : List Insn)
    (maxTotal : ℕ) :
    SweepBounded cs code base out maxTotal ↔
      ∀ s ∈ Loop.trace (sweepStep cs code base maxTotal) code.length ⟨0, out⟩,
        ¬ EmptyBatchFills cs code base maxTotal s := by
  rw [← length_run_le_iff]
  constructor
  · exact fun h => h.capped
  · intro hcapped
    have hkept : out <+: (sweepInto cs code base out maxTotal).1 := prefix_run _ ⟨0, out⟩
    refine ⟨sweepInto_exits cs code base out maxTotal, fun s hs => ?_, hkept, hcapped, ?_⟩
    · obtain ⟨s', hstep⟩ := Loop.step_of_mem_trace hs
      exact (sweepStep_go hstep).1
    · exact (Nat.add_sub_of_le hkept.length_le).symm

namespace Fixtures

/-- A handle that answers with one instruction of length zero, the case of the engine's
defensive branch. -/
def emptyHandle : Capstone where
  disasmAll _ a := some [⟨0, a, [], some "nop", some ""⟩]
  insnDetail _ := some []
  groupName _ := none

end Fixtures

/-- The defensive branch under a cap of one row: the batch of one empty instruction fills it,
and the bad row comes on top. -/
theorem empty_batch_overshoots :
    (sweepInto Fixtures.emptyHandle [0x90] 0 [] 1).1.length = 2 ∧
      ¬ SweepBounded Fixtures.emptyHandle [0x90] 0 [] 1 := by
  have hlen : (sweepInto Fixtures.emptyHandle [0x90] 0 [] 1).1.length = 2 := by decide
  refine ⟨hlen, fun h => ?_⟩
  have hcapped := h.capped
  rw [hlen] at hcapped
  exact absurd hcapped (by decide)

end VgiDisasm
