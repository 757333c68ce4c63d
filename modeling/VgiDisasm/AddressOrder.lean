import VgiDisasm.Provenance

/-!
# Address order

Inside one region the addresses of the rows only grow, as long as the region does not wrap
(`sweepRows_isChain`).  Across regions nothing sorts them: the rows come in the order of the
section table.  `disassemble_ordered_iff` says exactly when that order is the address order,
and `boundariesOrdered_of_ascending` gives a condition on the section table alone.
-/

namespace VgiDisasm

open VgiDisasm.Engine VgiDisasm.Sweep VgiDisasm.Extents

/-! ### One region -/

theorem vadd_le_vadd_of_le {a : UInt64} {j k : ℕ} (hjk : j ≤ k) (hk : a.toNat + k < 2 ^ 64) :
    j +ᵥ a ≤ k +ᵥ a := by
  show (j +ᵥ a).toNat ≤ (k +ᵥ a).toNat
  rw [toNat_vadd_of_lt (by omega), toNat_vadd_of_lt hk]
  omega

theorem sweepRows_isChain {cs : Capstone} (h : cs.AnswersTile) {code : List UInt8}
    {addr : UInt64} (hwrap : addr.toNat + code.length ≤ 2 ^ 64) :
    ((sweepRows cs code addr).map Insn.address).IsChain (· ≤ ·) := by
  refine (consecutive_sweepRows h code addr).isChain fun j k hjk hk => ?_
  rw [flatMap_bytes_sweepRows h.toAnswersPrefix] at hk
  exact vadd_le_vadd_of_le hjk (by omega)

theorem sweepRows_head {cs : Capstone} (h : cs.AnswersTile) (code : List UInt8) (addr : UInt64) :
    ∀ r ∈ (sweepRows cs code addr).head?, r.address = addr :=
  (consecutive_sweepRows h code addr).head?

/-- The last row of a region that does not wrap starts below the region's end. -/
theorem sweepRows_getLast_lt {cs : Capstone} (h : cs.AnswersTile) {code : List UInt8}
    {addr : UInt64} (hwrap : addr.toNat + code.length ≤ 2 ^ 64) :
    ∀ r ∈ (sweepRows cs code addr).getLast?, r.address.toNat < addr.toNat + code.length := by
  intro r hr
  have hmem : r ∈ sweepRows cs code addr := List.mem_of_getLast? hr
  obtain ⟨k, haddr, hend, -⟩ := (consecutive_sweepRows h code addr).extent hmem
  have hpos := List.length_pos_iff.mpr (sweepRows_bytes_ne_nil h.len_pos r hmem)
  rw [flatMap_bytes_sweepRows h.toAnswersPrefix] at hend
  rw [haddr, toNat_vadd_of_lt (by omega)]
  omega

/-! ### All regions -/

/-- Of any two regions with rows swept one after the other before the cap, the first one's
last instruction starts no later than the second. -/
def BoundariesOrdered (cs : Capstone) (regions : List (UInt64 × List UInt8)) : Prop :=
  (Capped.occupied MAX_INSNS (fun region => sweepRows cs region.2 region.1) regions 0).IsChain
    fun region next => ∀ last ∈ (sweepRows cs region.2 region.1).getLast?, last.address ≤ next.1

theorem sweepRegions_ordered_iff {cs : Capstone} (h : cs.AnswersTile)
    {regions : List (UInt64 × List UInt8)}
    (hwrap : ∀ region ∈ regions, region.1.toNat + region.2.length ≤ 2 ^ 64) :
    ((sweepRegions cs regions).map Insn.address).IsChain (· ≤ ·) ↔
      BoundariesOrdered cs regions := by
  rw [sweepRegions_eq h.len_pos, ← Nat.sub_zero MAX_INSNS]
  exact Capped.isChain_take_flatMap (fun region _ => sweepRows_head h region.2 region.1)
    (fun region hr => sweepRows_isChain h (hwrap region hr)) 0

/-- Regions with bytes in ascending order without overlap are in order, whatever the decoder
makes of them. -/
theorem boundariesOrdered_of_ascending {cs : Capstone} (h : cs.AnswersTile)
    {regions : List (UInt64 × List UInt8)}
    (hwrap : ∀ region ∈ regions, region.1.toNat + region.2.length ≤ 2 ^ 64)
    (hasc : regions.Pairwise fun region next =>
      region.1.toNat + region.2.length ≤ next.1.toNat) :
    BoundariesOrdered cs regions := by
  have hsub : (Capped.occupied MAX_INSNS (fun region => sweepRows cs region.2 region.1) regions
      0).Sublist regions := Capped.occupied_sublist regions 0
  refine List.Pairwise.isChain ?_
  refine (hasc.sublist hsub).imp_of_mem ?_
  intro region next hregion _ hle last hlast
  have hlt := sweepRows_getLast_lt h (hwrap region (hsub.subset hregion)) last hlast
  show last.address.toNat ≤ next.1.toNat
  omega

/-! ### The request -/

/-- If no executable section wraps, no region of `auto` does. -/
theorem selectRegions_auto_noWrap {K : Crates} {blob : List UInt8}
    (hwrap : ∀ s ∈ sections K blob, s.exec = true → s.vaddr.toNat + s.size.toNat ≤ 2 ^ 64) :
    ∀ region ∈ selectRegions blob (sections K blob) "auto" none,
      region.1.toNat + region.2.length ≤ 2 ^ 64 := by
  intro region hregion
  by_cases hsecs : sections K blob = []
  · rw [hsecs, selectRegions_nil, List.mem_singleton] at hregion
    subst hregion
    have hmax : (blob.take MAX_SECTION_BYTES).length ≤ 67108864 := List.length_take_le _ _
    show (0 : UInt64).toNat + (blob.take MAX_SECTION_BYTES).length ≤ 2 ^ 64
    rw [UInt64.toNat_zero]
    omega
  · rw [selectRegions_auto hsecs] at hregion
    obtain ⟨s, hs, rfl⟩ := List.mem_map.mp hregion
    obtain ⟨hs, hexec⟩ := List.mem_filter.mp hs
    have hlen := (sections_clamped hs).length_bytes_le
    have := hwrap s hs hexec
    show s.vaddr.toNat + (s.bytes blob).length ≤ 2 ^ 64
    omega

/-- **When the rows are address-ordered.**  If no executable section wraps, the addresses of
an `auto` request never decrease exactly when the boundaries between its regions do not. -/
theorem disassemble_ordered_iff (K : Crates) (hK : K.Handles Capstone.AnswersTile)
    (blob : List UInt8)
    (hwrap : ∀ s ∈ sections K blob, s.exec = true → s.vaddr.toNat + s.size.toNat ≤ 2 ^ 64) :
    ((disassemble K blob none none none "auto").map Insn.address).IsChain (· ≤ ·) ↔
      ∀ sel cs, (probe K blob).archSel = some sel → build K sel = some cs →
        BoundariesOrdered cs (selectRegions blob (sections K blob) "auto" none) := by
  have hregions := selectRegions_auto_noWrap hwrap
  by_cases hbuilt : ∀ sel, resolve K blob none none = some sel → build K sel = none
  · -- the diagnostic row alone
    rw [disassemble_of_unbuilt hbuilt]
    refine iff_of_true (List.isChain_singleton _) fun sel cs hsel hcs => ?_
    rw [hbuilt sel hsel] at hcs
    cases hcs
  · obtain ⟨sel, cs, hsel, hcs⟩ := exists_built hbuilt
    rw [disassemble_of_built hsel hcs, sweepRegions_ordered_iff (hK _ cs hcs) hregions]
    constructor
    · intro h sel' cs' hsel' hcs'
      rw [show resolve K blob none none = (probe K blob).archSel from rfl, hsel'] at hsel
      cases hsel
      rw [hcs'] at hcs
      cases hcs
      exact h
    · intro h
      exact h sel cs hsel hcs

/-- Two executable sections in ascending order. -/
theorem disassemble_ordered_iff_elf :
    let K := Fixtures.elfTwoCodeCrates
    let blob := Fixtures.elfTwoCodeBlob
    ((disassemble K blob none none none "auto").map Insn.address).IsChain (· ≤ ·) ↔
      ∀ sel cs, (probe K blob).archSel = some sel → build K sel = some cs →
        BoundariesOrdered cs (selectRegions blob (sections K blob) "auto" none) :=
  disassemble_ordered_iff Fixtures.elfTwoCodeCrates
    (Fixtures.crates_handles Fixtures.x64Handle_tiles) Fixtures.elfTwoCodeBlob (by decide +kernel)

namespace Fixtures

/-- A RISC-V object with two executable sections, both at address 0 as before linking. -/
def elfRelocatable : Elf := elf64 Probe.EM_RISCV 0 [nullShdr, execShdr 0 64 2, execShdr 0 66 2]

def elfRelocatableBlob : List UInt8 := elf64Blob elfRelocatable [0, 0, 0, 0]

def elfRelocatableCrates : Crates :=
  crates [(elfRelocatableBlob, .elf elfRelocatable)] [(riscvBuilder, riscvHandle)]

end Fixtures

/-- Two executable sections at address 0, as in any relocatable object. -/
theorem elf_relocatable_not_ordered :
    let K := Fixtures.elfRelocatableCrates
    let blob := Fixtures.elfRelocatableBlob
    K.Handles Capstone.AnswersTile ∧
      (∀ s ∈ sections K blob, s.exec = true → s.vaddr.toNat + s.size.toNat ≤ 2 ^ 64) ∧
      (disassemble K blob none none none "auto").map Insn.address = [0, 1, 0, 1] ∧
      ¬ ((disassemble K blob none none none "auto").map Insn.address).IsChain (· ≤ ·) := by
  intro K blob
  have haddr : (disassemble K blob none none none "auto").map Insn.address = [0, 1, 0, 1] := by
    decide +kernel
  refine ⟨Fixtures.crates_handles Fixtures.riscvHandle_tiles, by decide +kernel, haddr, ?_⟩
  rw [haddr]
  decide

end VgiDisasm
