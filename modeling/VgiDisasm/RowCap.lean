import VgiDisasm.Sweep
import VgiDisasm.SweepTiling

/-!
# The row cap

`MAX_INSNS` is tested before each region, at the top of the sweep loop and inside each
decoded batch, always against the one shared vector.  `sweepRegions_eq` composes the three
tests to a single `take` of the uncapped sweeps, one behind the other; `disassemble_of_built`
and `disassemble_of_unbuilt` say when that is the answer and when the diagnostic row is.
-/

namespace VgiDisasm

open VgiDisasm.Engine VgiDisasm.Sweep

/-! ### Uncapped sweeps -/

theorem length_sweepRows_le {cs : Capstone} (h : cs.AnswersPrefix) (code : List UInt8)
    (addr : UInt64) : (sweepRows cs code addr).length ≤ code.length := by
  have hne : ∀ r ∈ sweepRows cs code addr, r.bytes ≠ [] := sweepRows_bytes_ne_nil h.len_pos
  have hle := Extents.length_le_length_flatMap hne
  rwa [flatMap_bytes_sweepRows h] at hle

/-- A cap of at least one row per byte is never met. -/
theorem sweepInto_uncapped {cs : Capstone} (h : cs.AnswersPrefix) {code : List UInt8}
    (base : UInt64) {cap : ℕ} (hcap : code.length ≤ cap) :
    (sweepInto cs code base [] cap).1 = sweepRows cs code base := by
  have hlen := length_sweepRows_le h code base
  rw [sweepInto_fst h.len_pos, List.nil_append, List.length_nil, Nat.sub_zero,
    List.take_of_length_le (by omega)]

/-- The cap on a decoded row's `size` keeps it positive, and a bad row has size 1. -/
theorem sweepRows_size_ne_zero {cs : Capstone} (h : cs.LengthsPositive) {code : List UInt8}
    {addr : UInt64} : ∀ r ∈ sweepRows cs code addr, r.size ≠ 0 := by
  refine forall_mem_sweepRows (fun rem a i hi hzero => ?_) (fun a b => ?_) code addr
  · have hpos : 0 < i.bytes.length := h rem a i hi
    have hnat : (UInt8.ofNat (min i.bytes.length 255)).toNat = 0 := congrArg UInt8.toNat hzero
    rw [UInt8.toNat_ofNat'] at hnat
    omega
  · show (1 : UInt8) ≠ 0
    decide

theorem sweepRows_mnemonic_ne_error {cs : Capstone}
    (h : ∀ rem a, ∀ i ∈ cs.answer rem a, i.mnemonic ≠ some "(error)") {code : List UInt8}
    {addr : UInt64} : ∀ r ∈ sweepRows cs code addr, r.mnemonic ≠ "(error)" := by
  refine forall_mem_sweepRows (fun rem a i hi => ?_) (fun a b => ?_) code addr
  · have hm := h rem a i hi
    show i.mnemonic.getD "" ≠ "(error)"
    cases hmn : i.mnemonic with
    | none => decide
    | some m =>
      rw [hmn] at hm
      simpa using hm
  · show ".byte" ≠ "(error)"
    decide

/-! ### All regions -/

/-- **Three caps, one `take`.** -/
theorem sweepRegions_eq {cs : Capstone} (h : cs.LengthsPositive)
    (regions : List (UInt64 × List UInt8)) :
    sweepRegions cs regions =
      (regions.flatMap fun region => sweepRows cs region.2 region.1).take MAX_INSNS := by
  unfold sweepRegions
  rw [Capped.runsCapped_eq MAX_INSNS
    (fun region out => sweepInto_fst h region.2 region.1 out MAX_INSNS) regions [],
    List.nil_append, List.length_nil, Nat.sub_zero]

theorem mem_sweepRegions {cs : Capstone} (h : cs.LengthsPositive)
    {regions : List (UInt64 × List UInt8)} {r : Insn} (hr : r ∈ sweepRegions cs regions) :
    ∃ region ∈ regions, r ∈ sweepRows cs region.2 region.1 := by
  rw [sweepRegions_eq h] at hr
  exact List.mem_flatMap.mp (List.mem_of_mem_take hr)

/-! ### The request -/

section Request

variable {K : Crates} {blob : List UInt8} {arch mode : Option String} {base : Option UInt64}
  {sect : String}

/-- Unless none is built, there is a selection with a handle. -/
theorem exists_built {requested : Option ArchSel}
    (h : ¬ ∀ sel, requested = some sel → build K sel = none) :
    ∃ sel cs, requested = some sel ∧ build K sel = some cs := by
  push Not at h
  obtain ⟨sel, hsel, hne⟩ := h
  obtain ⟨cs, hcs⟩ := Option.ne_none_iff_exists'.mp hne
  exact ⟨sel, cs, hsel, hcs⟩

theorem disassemble_of_built {sel : ArchSel} {cs : Capstone}
    (hsel : resolve K blob arch mode = some sel) (hcs : build K sel = some cs) :
    disassemble K blob arch mode base sect =
      sweepRegions cs (selectRegions blob (sections K blob) sect base) := by
  simp only [disassemble, hsel, hcs]

/-- The rows of a built request. -/
theorem disassemble_rows {sel : ArchSel} {cs : Capstone} (hpos : cs.LengthsPositive)
    (hsel : resolve K blob arch mode = some sel) (hcs : build K sel = some cs) :
    disassemble K blob arch mode base sect =
      ((selectRegions blob (sections K blob) sect base).flatMap fun region =>
        sweepRows cs region.2 region.1).take MAX_INSNS := by
  rw [disassemble_of_built hsel hcs, sweepRegions_eq hpos]

theorem disassemble_single {sel : ArchSel} {cs : Capstone} (hpos : cs.LengthsPositive)
    (hsel : resolve K blob arch mode = some sel) (hcs : build K sel = some cs) {addr : UInt64}
    {code : List UInt8}
    (hregion : selectRegions blob (sections K blob) sect base = [(addr, code)]) :
    disassemble K blob arch mode base sect = (sweepRows cs code addr).take MAX_INSNS := by
  rw [disassemble_rows hpos hsel hcs, hregion, List.flatMap_singleton]

theorem disassemble_of_unbuilt
    (h : ∀ sel, resolve K blob arch mode = some sel → build K sel = none) :
    disassemble K blob arch mode base sect = [Insn.archRequired] := by
  cases hsel : resolve K blob arch mode with
  | none => simp only [disassemble, hsel]
  | some sel => simp only [disassemble, hsel, h sel hsel]

end Request

/-- **The shared cap is a prefix truncation.**  Either nothing resolves or no handle is built,
and the answer is the one diagnostic row; or it is the first `MAX_INSNS` rows of the sweeps
of all selected regions, each from an empty output under a cap it cannot meet, and no row is
a diagnostic. -/
theorem disassemble_cap (K : Crates) (hK : K.Handles Capstone.AnswersPrefix)
    (blob : List UInt8) (arch mode : Option String) (base : Option UInt64) (sect : String) :
    (disassemble K blob arch mode base sect = [Insn.archRequired] ↔
      ∀ sel, resolve K blob arch mode = some sel → build K sel = none) ∧
    ∀ sel cs, resolve K blob arch mode = some sel → build K sel = some cs →
      (∀ cap : ℕ, (∀ region ∈ selectRegions blob (sections K blob) sect base,
          region.2.length ≤ cap) →
        disassemble K blob arch mode base sect =
          ((selectRegions blob (sections K blob) sect base).flatMap fun region =>
            (sweepInto cs region.2 region.1 [] cap).1).take MAX_INSNS) ∧
      ∀ r ∈ disassemble K blob arch mode base sect,
        r ≠ Insn.archRequired ∧ r.size ≠ 0 ∧
          ((∀ rem a, ∀ i ∈ cs.answer rem a, i.mnemonic ≠ some "(error)") →
            r.mnemonic ≠ "(error)") := by
  have hrows : ∀ sel cs, resolve K blob arch mode = some sel → build K sel = some cs →
      ∀ r ∈ disassemble K blob arch mode base sect,
        ∃ region : UInt64 × List UInt8, r ∈ sweepRows cs region.2 region.1 := by
    intro sel cs hsel hcs r hr
    rw [disassemble_of_built hsel hcs] at hr
    obtain ⟨region, -, hmem⟩ := mem_sweepRegions (hK _ cs hcs).len_pos hr
    exact ⟨region, hmem⟩
  constructor
  · constructor
    · intro herr sel hsel
      cases hcs : build K sel with
      | none => rfl
      | some cs =>
        -- a built handle yields no row of size 0
        obtain ⟨region, hmem⟩ := hrows sel cs hsel hcs Insn.archRequired (by simp [herr])
        exact absurd rfl (sweepRows_size_ne_zero (hK _ cs hcs).len_pos _ hmem)
    · exact disassemble_of_unbuilt
  · intro sel cs hsel hcs
    have hpre := hK _ cs hcs
    constructor
    · intro cap hcap
      rw [disassemble_rows hpre.len_pos hsel hcs]
      congr 1
      exact List.flatMap_congr fun region hr =>
        (sweepInto_uncapped hpre region.1 (hcap region hr)).symm
    · intro r hr
      obtain ⟨region, hmem⟩ := hrows sel cs hsel hcs r hr
      have hsize := sweepRows_size_ne_zero hpre.len_pos r hmem
      refine ⟨?_, hsize, fun hmn => sweepRows_mnemonic_ne_error hmn r hmem⟩
      rintro rfl
      exact hsize rfl

/-- Two executable sections, decoded as the header says. -/
theorem disassemble_cap_elf :
    let K := Fixtures.elfTwoCodeCrates
    let blob := Fixtures.elfTwoCodeBlob
    let rows := disassemble K blob none none none "auto"
    let regions := selectRegions blob (sections K blob) "auto" none
    (rows = [Insn.archRequired] ↔
      ∀ sel, resolve K blob none none = some sel → build K sel = none) ∧
    ∀ sel cs, resolve K blob none none = some sel → build K sel = some cs →
      (∀ cap : ℕ, (∀ region ∈ regions, region.2.length ≤ cap) →
        rows = (regions.flatMap fun region =>
          (sweepInto cs region.2 region.1 [] cap).1).take MAX_INSNS) ∧
      ∀ r ∈ rows, r ≠ Insn.archRequired ∧ r.size ≠ 0 ∧
        ((∀ rem a, ∀ i ∈ cs.answer rem a, i.mnemonic ≠ some "(error)") →
          r.mnemonic ≠ "(error)") :=
  disassemble_cap Fixtures.elfTwoCodeCrates
    (Fixtures.crates_handles Fixtures.x64Handle_tiles.toAnswersPrefix) Fixtures.elfTwoCodeBlob
    none none none "auto"

end VgiDisasm
