import VgiDisasm.SweepReference
import VgiDisasm.RowCap

/-!
# The calls of the bulk decoder

The row cap is tested on rows, but one call of `disasm_all` decodes everything up to the next
undecodable byte.  The loops are instrumented with their calls: what each returns, and how many
rows were still allowed when it was made.  A call returns more than its room exactly when the
cap falls inside a batch, and that can be read off the reference sweep
(`decodesWithinCap_iff`).
-/

namespace VgiDisasm

open VgiDisasm.Engine VgiDisasm.Sweep

/-! ### Instrumented loops -/

/-- A call of `disasm_all`, and the number of rows still allowed when it is made. -/
structure DecodeCall where
  returned : List CsInsn
  room : ℕ

def DecodeCall.Within (call : DecodeCall) : Prop := call.returned.length ≤ call.room

/-- The call of one pass of `sweep_into`. -/
def passCall (cs : Capstone) (code : List UInt8) (base : UInt64) (maxTotal : ℕ)
    (s : SweepState) : DecodeCall where
  returned := cs.answer (code.drop s.offset) (s.offset +ᵥ base)
  room := maxTotal - s.out.length

def sweepCalls (cs : Capstone) (code : List UInt8) (base : UInt64) (out : List Insn)
    (maxTotal : ℕ) : List DecodeCall :=
  (Loop.trace (sweepStep cs code base maxTotal) code.length ⟨0, out⟩).map
    (passCall cs code base maxTotal)

/-- The calls of step 4 of `disassemble`. -/
def regionCalls (cs : Capstone) : List (UInt64 × List UInt8) → List Insn → List DecodeCall
  | [], _ => []
  | region :: rest, out =>
    if out.length ≥ MAX_INSNS then []
    else
      sweepCalls cs region.2 region.1 out MAX_INSNS ++
        regionCalls cs rest (sweepInto cs region.2 region.1 out MAX_INSNS).1

def disassembleCalls (K : Crates) (blob : List UInt8) (arch mode : Option String)
    (base : Option UInt64) (sect : String) : List DecodeCall :=
  match resolve K blob arch mode with
  | none => []
  | some sel =>
    match build K sel with
    | none => []
    | some cs => regionCalls cs (selectRegions blob (sections K blob) sect base) []

/-! ### The property and its condition -/

/-- No call returns more than may still be emitted; at most `MAX_INSNS` instructions are
materialised, and each of them is emitted. -/
structure DecodesWithinCap (K : Crates) (blob : List UInt8) (arch mode : Option String)
    (base : Option UInt64) (sect : String) : Prop where
  within : ∀ call ∈ disassembleCalls K blob arch mode base sect, call.Within
  total : ((disassembleCalls K blob arch mode base sect).flatMap (·.returned)).length ≤ MAX_INSNS
  kept : (((disassembleCalls K blob arch mode base sect).flatMap (·.returned)).map
      fun i => (i.address, i.bytes)).Sublist
    ((disassemble K blob arch mode base sect).map fun r => (r.address, r.bytes))

/-- Region by region, the rows left over by the earlier ones do not run out between two
instructions that follow each other without a bad byte. -/
def RegionsFit (D : Decoder UInt8 UInt64 CsInsn CsInsn.len) :
    List (UInt64 × List UInt8) → ℕ → Prop
  | [], _ => True
  | region :: rest, room =>
    Decoder.FitsAt (D.items region.2 region.1) room ∧
      RegionsFit D rest (room - (D.items region.2 region.1).length)

/-! ### One sweep -/

section OneSweep

variable {cs : Capstone} {D : Decoder UInt8 UInt64 CsInsn CsInsn.len} {code : List UInt8}
  {base : UInt64} {maxTotal : ℕ}

/-- An answer that fits is emitted whole. -/
theorem sweepStep_of_fits {s : SweepState} (hpos : cs.LengthsPositive)
    (hoff : s.offset < code.length) (hcap : s.out.length < maxTotal)
    (hans : cs.answer (code.drop s.offset) (s.offset +ᵥ base) ≠ [])
    (hfits : (passCall cs code base maxTotal s).Within) :
    sweepStep cs code base maxTotal s =
      some ⟨s.offset + consumed (cs.answer (code.drop s.offset) (s.offset +ᵥ base)),
        s.out ++ (cs.answer (code.drop s.offset) (s.offset +ᵥ base)).map (insnRow cs)⟩ := by
  have hle : (cs.answer (code.drop s.offset) (s.offset +ᵥ base)).length ≤
      maxTotal - s.out.length := hfits
  rw [sweepStep_of_ne_nil hpos hoff hcap hans, List.take_of_length_le hle]

/-- The cap does not fall inside a batch of the bytes ahead of `s`. -/
def FitsFrom (D : Decoder UInt8 UInt64 CsInsn CsInsn.len) (code : List UInt8) (base : UInt64)
    (maxTotal : ℕ) (s : SweepState) : Prop :=
  Decoder.FitsAt (D.items (code.drop s.offset) (s.offset +ᵥ base)) (maxTotal - s.out.length)

theorem fitsFrom_exit {s : SweepState} (h : sweepStep cs code base maxTotal s = none) :
    FitsFrom D code base maxTotal s := by
  unfold FitsFrom
  rcases sweepStep_eq_none.mp h with hend | hfull
  · rw [List.drop_eq_nil_of_le hend, D.items_nil]
    exact Decoder.fitsAt_of_le (Nat.zero_le _)
  · rw [Nat.sub_eq_zero_of_le hfull]
    exact Decoder.fitsAt_zero _

/-- A bad byte takes one row of the room. -/
theorem fitsFrom_bad (h : cs.Iterates D) {s s' : SweepState}
    (hstep : sweepStep cs code base maxTotal s = some s')
    (hnil : cs.answer (code.drop s.offset) (s.offset +ᵥ base) = []) :
    FitsFrom D code base maxTotal s' ↔ FitsFrom D code base maxTotal s := by
  obtain ⟨hoff, hcap⟩ := sweepStep_go hstep
  cases hstep.symm.trans (sweepStep_of_nil hoff hcap hnil)
  have hdecode : D.decode (code[s.offset] :: code.drop (s.offset + 1)) (s.offset +ᵥ base) =
      none := by
    rw [← List.drop_eq_getElem_cons hoff]
    exact D.bulk_eq_nil.mp ((h _ _).symm.trans hnil)
  have hroom : maxTotal - s.out.length = maxTotal - (s.out.length + 1) + 1 := by omega
  unfold FitsFrom
  rw [List.drop_eq_getElem_cons hoff, D.items_none hdecode, hroom, Decoder.fitsAt_bad, ← add_vadd,
    Nat.add_comm 1, List.length_append, List.length_singleton]

/-- A batch that fits takes its length. -/
theorem fitsFrom_batch (h : cs.Iterates D) {s s' : SweepState}
    (hstep : sweepStep cs code base maxTotal s = some s')
    (hne : cs.answer (code.drop s.offset) (s.offset +ᵥ base) ≠ [])
    (hfits : (passCall cs code base maxTotal s).Within) :
    FitsFrom D code base maxTotal s' ↔ FitsFrom D code base maxTotal s := by
  obtain ⟨hoff, hcap⟩ := sweepStep_go hstep
  cases hstep.symm.trans (sweepStep_of_fits h.lengthsPositive hoff hcap hne hfits)
  have hans := h (code.drop s.offset) (s.offset +ᵥ base)
  have hle : (cs.answer (code.drop s.offset) (s.offset +ᵥ base)).length ≤
      maxTotal - s.out.length := hfits
  have hhead := D.items_head (D.decode_after_bulk (code.drop s.offset) (s.offset +ᵥ base))
  rw [← hans] at hhead
  unfold FitsFrom
  rw [D.items_eq_bulk (code.drop s.offset), ← hans, Decoder.fitsAt_batch hhead hle, List.drop_drop,
    ← add_vadd, Nat.add_comm _ s.offset, List.length_append, List.length_map, Nat.sub_sub]
  rfl

/-- One pass: the bytes ahead fit exactly if its call does and the bytes behind it do. -/
theorem fitsFrom_step (h : cs.Iterates D) {s s' : SweepState}
    (hstep : sweepStep cs code base maxTotal s = some s') :
    (passCall cs code base maxTotal s).Within ∧ FitsFrom D code base maxTotal s' ↔
      FitsFrom D code base maxTotal s := by
  have hcap := (sweepStep_go hstep).2
  by_cases hnil : cs.answer (code.drop s.offset) (s.offset +ᵥ base) = []
  · have hwithin : (passCall cs code base maxTotal s).Within := by
      show (cs.answer _ _).length ≤ _
      rw [hnil]
      exact Nat.zero_le _
    rw [and_iff_right hwithin, fitsFrom_bad h hstep hnil]
  · by_cases hfits : (passCall cs code base maxTotal s).Within
    · rw [and_iff_right hfits, fitsFrom_batch h hstep hnil hfits]
    · refine iff_of_false (fun hall => hfits hall.1) ?_
      unfold FitsFrom
      rw [D.items_eq_bulk, ← h]
      exact Decoder.not_fitsAt_batch (Nat.sub_pos_of_lt hcap) (Nat.not_le.mp hfits)

/-- The calls from a state on are within their room exactly when the cap does not fall inside
a batch of the bytes ahead. -/
theorem within_trace_iff (h : cs.Iterates D) (n : ℕ) (s : SweepState)
    (hn : code.length - s.offset ≤ n) :
    (∀ t ∈ Loop.trace (sweepStep cs code base maxTotal) n s,
        (passCall cs code base maxTotal t).Within) ↔ FitsFrom D code base maxTotal s := by
  induction n generalizing s with
  | zero =>
    have hexit : sweepStep cs code base maxTotal s = none :=
      sweepStep_eq_none.mpr (Or.inl (by omega))
    exact iff_of_true (List.forall_mem_nil _) (fitsFrom_exit hexit)
  | succ n ih =>
    cases hstep : sweepStep cs code base maxTotal s with
    | none =>
      rw [Loop.trace_none hstep]
      exact iff_of_true (List.forall_mem_nil _) (fitsFrom_exit hstep)
    | some s' =>
      have hlt := sweepStep_offset_lt hstep
      rw [Loop.trace_some hstep, List.forall_mem_cons, ih s' (by omega), fitsFrom_step h hstep]

theorem within_sweepCalls_iff (h : cs.Iterates D) (out : List Insn) :
    (∀ call ∈ sweepCalls cs code base out maxTotal, call.Within) ↔
      Decoder.FitsAt (D.items code base) (maxTotal - out.length) := by
  have htrace := @within_trace_iff cs D code base maxTotal h code.length ⟨0, out⟩ (Nat.sub_le _ _)
  rw [FitsFrom, List.drop_zero, zero_vadd] at htrace
  rw [sweepCalls, List.forall_mem_map]
  exact htrace

end OneSweep

/-! ### What is emitted of the answers -/

/-- The instructions of the calls are among the rows appended from a state on. -/
theorem kept_trace {cs : Capstone} (hpos : cs.LengthsPositive) {code : List UInt8}
    {base : UInt64} {maxTotal : ℕ} (n : ℕ) (s : SweepState)
    (hwithin : ∀ t ∈ Loop.trace (sweepStep cs code base maxTotal) n s,
      (passCall cs code base maxTotal t).Within) :
    ∃ rows, (Loop.run (sweepStep cs code base maxTotal) n s).out = s.out ++ rows ∧
      ((Loop.trace (sweepStep cs code base maxTotal) n s).flatMap fun t =>
        (passCall cs code base maxTotal t).returned.map (insnRow cs)).Sublist rows := by
  induction n generalizing s with
  | zero => exact ⟨[], (List.append_nil _).symm, List.Sublist.refl _⟩
  | succ n ih =>
    cases hstep : sweepStep cs code base maxTotal s with
    | none =>
      rw [Loop.trace_none hstep, Loop.run_none hstep]
      exact ⟨[], (List.append_nil _).symm, List.Sublist.refl _⟩
    | some s' =>
      obtain ⟨hoff, hcap⟩ := sweepStep_go hstep
      rw [Loop.trace_some hstep] at hwithin ⊢
      rw [Loop.run_some hstep, List.flatMap_cons]
      obtain ⟨hfits, hrest⟩ := List.forall_mem_cons.mp hwithin
      obtain ⟨rows, hrun, hsub⟩ := ih s' hrest
      by_cases hnil : cs.answer (code.drop s.offset) (s.offset +ᵥ base) = []
      · cases hstep.symm.trans (sweepStep_of_nil hoff hcap hnil)
        refine ⟨_, by rw [hrun, List.append_assoc], ?_⟩
        rw [show (passCall cs code base maxTotal s).returned = [] from hnil]
        exact hsub.cons _
      · cases hstep.symm.trans (sweepStep_of_fits hpos hoff hcap hnil hfits)
        refine ⟨_, by rw [hrun, List.append_assoc], ?_⟩
        exact (List.Sublist.refl _).append hsub

theorem kept_sweepCalls {cs : Capstone} (hpos : cs.LengthsPositive) {code : List UInt8}
    {base : UInt64} {out : List Insn} {maxTotal : ℕ}
    (hwithin : ∀ call ∈ sweepCalls cs code base out maxTotal, call.Within) :
    ∃ rows, (sweepInto cs code base out maxTotal).1 = out ++ rows ∧
      (((sweepCalls cs code base out maxTotal).flatMap (·.returned)).map (insnRow cs)).Sublist
        rows := by
  rw [sweepCalls, List.forall_mem_map] at hwithin
  obtain ⟨rows, hrun, hsub⟩ := kept_trace hpos code.length ⟨0, out⟩ hwithin
  refine ⟨rows, hrun, ?_⟩
  rwa [sweepCalls, List.flatMap_map, List.map_flatMap]

/-! ### All regions -/

section Regions

variable {cs : Capstone} {D : Decoder UInt8 UInt64 CsInsn CsInsn.len}

theorem regionsFit_zero (regions : List (UInt64 × List UInt8)) : RegionsFit D regions 0 := by
  induction regions with
  | nil => trivial
  | cons region rest ih =>
    rw [RegionsFit, Nat.zero_sub]
    exact ⟨Decoder.fitsAt_zero _, ih⟩

/-- A region leaves the room its items do not use. -/
theorem room_sweepInto (h : cs.Iterates D) (code : List UInt8) (base : UInt64) (out : List Insn)
    (maxTotal : ℕ) :
    maxTotal - (sweepInto cs code base out maxTotal).1.length =
      maxTotal - out.length - (D.items code base).length := by
  rw [sweepInto_fst h.lengthsPositive, sweepRows_eq_reference h, List.length_append,
    List.length_take, D.length_sweep]
  omega

theorem within_regionCalls_iff (h : cs.Iterates D) (regions : List (UInt64 × List UInt8))
    (out : List Insn) :
    (∀ call ∈ regionCalls cs regions out, call.Within) ↔
      RegionsFit D regions (MAX_INSNS - out.length) := by
  induction regions generalizing out with
  | nil => exact iff_of_true (fun call hcall => by cases hcall) trivial
  | cons region rest ih =>
    rw [regionCalls]
    split
    · rename_i hfull
      rw [Nat.sub_eq_zero_of_le hfull]
      exact iff_of_true (fun call hcall => by cases hcall) (regionsFit_zero _)
    · rw [List.forall_mem_append, within_sweepCalls_iff h, ih, room_sweepInto h, RegionsFit]

theorem kept_regionCalls (hpos : cs.LengthsPositive) (regions : List (UInt64 × List UInt8))
    (out : List Insn) (hwithin : ∀ call ∈ regionCalls cs regions out, call.Within) :
    ∃ rows, Capped.runsCapped MAX_INSNS
        (fun region out => (sweepInto cs region.2 region.1 out MAX_INSNS).1) regions out =
          out ++ rows ∧
      (((regionCalls cs regions out).flatMap (·.returned)).map (insnRow cs)).Sublist rows := by
  induction regions generalizing out with
  | nil => exact ⟨[], (List.append_nil _).symm, List.Sublist.refl _⟩
  | cons region rest ih =>
    rw [regionCalls] at hwithin ⊢
    rw [Capped.runsCapped]
    split at hwithin
    · rename_i hfull
      rw [if_pos hfull, if_pos hfull]
      exact ⟨[], (List.append_nil _).symm, List.Sublist.refl _⟩
    · rename_i hroom
      rw [if_neg hroom, if_neg hroom]
      obtain ⟨hfirst, hrest⟩ := List.forall_mem_append.mp hwithin
      obtain ⟨rows, hrun, hsub⟩ := kept_sweepCalls hpos hfirst
      obtain ⟨rows', hrun', hsub'⟩ := ih _ hrest
      refine ⟨rows ++ rows', by rw [hrun', hrun, List.append_assoc], ?_⟩
      rw [List.flatMap_append, List.map_append]
      exact hsub.append hsub'

end Regions

/-! ### The request -/

theorem disassembleCalls_of_unbuilt {K : Crates} {blob : List UInt8} {arch mode : Option String}
    {base : Option UInt64} {sect : String}
    (h : ∀ sel, resolve K blob arch mode = some sel → build K sel = none) :
    disassembleCalls K blob arch mode base sect = [] := by
  cases hsel : resolve K blob arch mode with
  | none => simp only [disassembleCalls, hsel]
  | some sel => simp only [disassembleCalls, hsel, h sel hsel]

theorem disassembleCalls_of_built {K : Crates} {blob : List UInt8} {arch mode : Option String}
    {base : Option UInt64} {sect : String} {sel : ArchSel} {cs : Capstone}
    (hsel : resolve K blob arch mode = some sel) (hcs : build K sel = some cs) :
    disassembleCalls K blob arch mode base sect =
      regionCalls cs (selectRegions blob (sections K blob) sect base) [] := by
  simp only [disassembleCalls, hsel, hcs]

/-- With every call within its room, all that is decoded is emitted. -/
theorem decodesWithinCap_of_within {K : Crates} {blob : List UInt8} {arch mode : Option String}
    {base : Option UInt64} {sect : String} {sel : ArchSel} {cs : Capstone}
    (hsel : resolve K blob arch mode = some sel) (hcs : build K sel = some cs)
    (hpos : cs.LengthsPositive)
    (hwithin : ∀ call ∈ disassembleCalls K blob arch mode base sect, call.Within) :
    DecodesWithinCap K blob arch mode base sect := by
  have hcalls : disassembleCalls K blob arch mode base sect = _ :=
    disassembleCalls_of_built hsel hcs
  have hrows : disassemble K blob arch mode base sect = _ := disassemble_of_built hsel hcs
  obtain ⟨rows, hrun, hsub⟩ := kept_regionCalls hpos _ [] (hcalls ▸ hwithin)
  have hout : disassemble K blob arch mode base sect = rows := hrows.trans hrun
  have hlen : rows.length ≤ MAX_INSNS := by
    rw [← hout, hrows, sweepRegions_eq hpos]
    exact List.length_take_le _ _
  refine ⟨hwithin, ?_, ?_⟩
  · rw [hcalls, ← List.length_map (insnRow cs)]
    exact hsub.length_le.trans hlen
  · rw [hcalls, hout]
    have hpairs := hsub.map fun r => (r.address, r.bytes)
    rwa [List.map_map] at hpairs

/-- **When the sweep decodes no more than the cap allows.**  For every decoder: a sweep, exactly
when the room left by `out` does not end between two instructions of the reference sweep that
follow each other; a whole request, exactly when none of its regions is cut so. -/
theorem decodesWithinCap_iff (K : Crates)
    (D : CsBuilder → Decoder UInt8 UInt64 CsInsn CsInsn.len)
    (hK : ∀ b cs, K.capstoneBuild b = some cs → cs.Iterates (D b)) :
    (∀ b cs, K.capstoneBuild b = some cs → ∀ code base out maxTotal,
      (∀ call ∈ sweepCalls cs code base out maxTotal, call.Within) ↔
        Decoder.FitsAt ((D b).items code base) (maxTotal - out.length)) ∧
    ∀ blob arch mode base sect,
      DecodesWithinCap K blob arch mode base sect ↔
        ∀ sel cs, resolve K blob arch mode = some sel → build K sel = some cs →
          RegionsFit (D (builder sel)) (selectRegions blob (sections K blob) sect base)
            MAX_INSNS := by
  refine ⟨fun b cs hcs code base out maxTotal => within_sweepCalls_iff (hK b cs hcs) out, ?_⟩
  intro blob arch mode base sect
  constructor
  · intro h sel cs hsel hcs
    refine (within_regionCalls_iff (hK _ cs hcs) _ []).mp ?_
    rw [← disassembleCalls_of_built hsel hcs]
    exact h.within
  · intro h
    by_cases hbuilt : ∀ sel, resolve K blob arch mode = some sel → build K sel = none
    · have hcalls : disassembleCalls K blob arch mode base sect = [] :=
        disassembleCalls_of_unbuilt hbuilt
      refine ⟨?_, ?_, ?_⟩ <;> rw [hcalls]
      · intro call hcall
        cases hcall
      · exact Nat.zero_le _
      · exact List.nil_sublist _
    · obtain ⟨sel, cs, hsel, hcs⟩ := exists_built hbuilt
      refine decodesWithinCap_of_within hsel hcs (hK _ cs hcs).lengthsPositive ?_
      rw [disassembleCalls_of_built hsel hcs]
      exact (within_regionCalls_iff (hK _ cs hcs) _ []).mpr (h sel cs hsel hcs)

/-- Regions of fewer bytes than there is room for are not cut. -/
theorem regionsFit_of_le {D : Decoder UInt8 UInt64 CsInsn CsInsn.len}
    {regions : List (UInt64 × List UInt8)} {room : ℕ}
    (h : (regions.map (·.2.length)).sum ≤ room) : RegionsFit D regions room := by
  induction regions generalizing room with
  | nil => trivial
  | cons region rest ih =>
    rw [List.map_cons, List.sum_cons] at h
    have hlen := D.length_items_le region.2 region.1
    exact ⟨Decoder.fitsAt_of_le (by omega), ih (by omega)⟩

/-- A bad byte before the cap, which falls before the `nop`; and a file of two executable
sections. -/
theorem decodesWithinCap_iff_x64 :
    (∀ call ∈ sweepCalls Fixtures.x64Handle [0x06, 0x90] 0x1000 [] 1, call.Within) ∧
      DecodesWithinCap Fixtures.elfTwoCodeCrates Fixtures.elfTwoCodeBlob none none none
        "auto" := by
  have h := decodesWithinCap_iff Fixtures.elfTwoCodeCrates (fun _ => Fixtures.x64Decoder)
    (Fixtures.crates_handles Fixtures.x64Handle_iterates)
  constructor
  · refine (h.1 Fixtures.x64Builder Fixtures.x64Handle rfl _ _ _ _).mpr ?_
    rw [Fixtures.x64Decoder.items_none rfl]
    exact (Decoder.fitsAt_bad _ 0).mpr (Decoder.fitsAt_zero _)
  · have hbytes : ((selectRegions Fixtures.elfTwoCodeBlob
        (sections Fixtures.elfTwoCodeCrates Fixtures.elfTwoCodeBlob) "auto" none).map
          (·.2.length)).sum = 3 := by decide +kernel
    refine (h.2 Fixtures.elfTwoCodeBlob none none none "auto").mpr ?_
    intro sel cs _ _
    -- the regions are not to be computed again
    generalize selectRegions Fixtures.elfTwoCodeBlob _ "auto" none = regions at hbytes ⊢
    exact regionsFit_of_le (hbytes.le.trans (by decide))

/-- The first call of a sweep decodes all of the code. -/
theorem mem_sweepCalls {cs : Capstone} {code : List UInt8} (base : UInt64) {out : List Insn}
    {maxTotal : ℕ} (hcode : code ≠ []) (hcap : out.length < maxTotal) :
    ⟨cs.answer code base, maxTotal - out.length⟩ ∈ sweepCalls cs code base out maxTotal := by
  obtain ⟨n, hn⟩ := Nat.exists_eq_succ_of_ne_zero (List.length_pos_iff.mpr hcode).ne'
  cases hstep : sweepStep cs code base maxTotal ⟨0, out⟩ with
  | none =>
    rcases sweepStep_eq_none.mp hstep with hend | hfull
    · rw [hn] at hend
      exact absurd hend (Nat.not_succ_le_zero n)
    · exact absurd hcap (Nat.not_lt.mpr hfull)
  | some s' =>
    rw [sweepCalls, hn, Nat.succ_eq_add_one, Loop.trace_some hstep, List.map_cons, passCall,
      List.drop_zero, zero_vadd]
    exact List.mem_cons_self

namespace Fixtures

theorem length_x64Bulk_nops (n : ℕ) (a : UInt64) :
    (x64Decoder.bulk (List.replicate n 0x90) a).length = n := by
  induction n generalizing a with
  | zero => rw [x64Decoder.bulk_none rfl, List.length_nil]
  | succ n ih =>
    have hdecode : x64Decoder.decode (List.replicate (n + 1) 0x90) a =
        some ⟨X86_INS_NOP, a, [0x90], some "nop", some ""⟩ := rfl
    rw [x64Decoder.bulk_some hdecode, List.length_cons]
    exact congrArg (· + 1) (ih _)

end Fixtures

/-- A run of more than `MAX_INSNS` one-byte instructions is decoded whole. -/
theorem nops_not_within {n : ℕ} (hcap : MAX_INSNS < n) (hn : n ≤ MAX_SECTION_BYTES) :
    ¬ DecodesWithinCap (Fixtures.crates [] [(Fixtures.x64Builder, Fixtures.x64Handle)])
      (List.replicate n 0x90) (some "x86") none none "all" := by
  intro h
  have hcs : build (Fixtures.crates [] [(Fixtures.x64Builder, Fixtures.x64Handle)])
      ⟨"x86", "x64", false⟩ = some Fixtures.x64Handle := rfl
  have hwhole : (List.replicate n (0x90 : UInt8)).take MAX_SECTION_BYTES = List.replicate n 0x90 :=
    List.take_of_length_le (by rwa [List.length_replicate])
  have hne : List.replicate n (0x90 : UInt8) ≠ [] := by
    rw [Ne, List.replicate_eq_nil_iff]
    omega
  have hwithin := h.within
  rw [disassembleCalls_of_built rfl hcs, selectRegions, if_pos rfl, hwhole, regionCalls,
    if_neg (by decide)] at hwithin
  have hcall := hwithin _ (List.mem_append_left _ (mem_sweepCalls _ hne (by decide)))
  have hlen : (Fixtures.x64Handle.answer (List.replicate n 0x90) 0).length ≤ MAX_INSNS := hcall
  rw [Fixtures.x64Handle_iterates, Fixtures.length_x64Bulk_nops] at hlen
  omega

/-- Two one-byte instructions under a cap of one row; and a blob of 5 000 001 of them. -/
theorem nop_sled_decoded_whole :
    (∃ call ∈ sweepCalls Fixtures.x64Handle [0x90, 0x90] 0 [] 1, ¬ call.Within) ∧
      ¬ DecodesWithinCap (Fixtures.crates [] [(Fixtures.x64Builder, Fixtures.x64Handle)])
        (List.replicate 5000001 0x90) (some "x86") none none "all" := by
  refine ⟨⟨_, mem_sweepCalls 0 (List.cons_ne_nil _ _) (by decide), ?_⟩,
    nops_not_within (by decide) (by decide)⟩
  show ¬ (Fixtures.x64Handle.answer (List.replicate 2 0x90) 0).length ≤ 1
  rw [Fixtures.x64Handle_iterates, Fixtures.length_x64Bulk_nops]
  decide

end VgiDisasm
