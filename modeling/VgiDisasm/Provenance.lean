import VgiDisasm.RowCap
import VgiDisasm.SectionRows

/-!
# Where instruction rows come from

With `section = "auto"` and no base, a container with sections is swept section by section.
`mem_disassemble_auto` ties every row to an executable section and an offset into its file
bytes; the byte-range facts of `Header.row_clamped` turn that into an offset into the blob
that agrees with the row's address.

A container without section headers takes the branch meant for raw blobs, and is swept whole:
`sweepsExecOnly_iff` says that this is the only way the sweep leaves executable code.
-/

namespace VgiDisasm

open VgiDisasm.Engine VgiDisasm.Sweep VgiDisasm.Extents

/-! ### Regions -/

/-- No sections: the whole blob, whatever it is. -/
theorem selectRegions_nil (blob : List UInt8) (sect : String) (base : Option UInt64) :
    selectRegions blob [] sect base = [(base.getD 0, blob.take MAX_SECTION_BYTES)] := by
  unfold selectRegions
  split <;> rfl

/-- The sections an argument other than `all` picks. -/
def pickedSections (secs : List Section) (sect : String) : List Section :=
  if sect = "auto" then secs.filter (·.exec)
  else secs.filter fun s => sectionNameMatches s.name sect

theorem selectRegions_whole {blob : List UInt8} {secs : List Section} {sect : String}
    (h : sect = "all" ∨ secs = []) (base : Option UInt64) :
    selectRegions blob secs sect base = [(base.getD 0, blob.take MAX_SECTION_BYTES)] := by
  rcases h with rfl | rfl
  · rw [selectRegions, if_pos rfl]
  · exact selectRegions_nil blob sect base

theorem selectRegions_picked {blob : List UInt8} {secs : List Section} {sect : String}
    (hall : sect ≠ "all") (hsecs : secs ≠ []) (base : Option UInt64) :
    selectRegions blob secs sect base = placeRegions blob base (pickedSections secs sect) := by
  have hne : ¬ secs.isEmpty = true := by
    rwa [List.isEmpty_iff]
  rw [selectRegions, if_neg hall, if_neg hne, pickedSections]
  split
  · rfl
  · rfl

/-- Without a base every section stands at its own address. -/
theorem placeRegions_none (blob : List UInt8) (picked : List Section) :
    placeRegions blob none picked = picked.map fun s => (s.vaddr, s.bytes blob) := by
  simp only [placeRegions, Option.getD_none, ite_self]

theorem selectRegions_auto {blob : List UInt8} {secs : List Section} (h : secs ≠ []) :
    selectRegions blob secs "auto" none =
      (secs.filter (·.exec)).map fun s => (s.vaddr, s.bytes blob) := by
  rw [selectRegions_picked (by decide) h, placeRegions_none, pickedSections, if_pos rfl]

/-! ### Rows and sections -/

namespace Section

/-- The row is an instruction of the section: its bytes stand at an offset `k` of the
section's file bytes, its address is the section's advanced by that `k`. -/
def Covers (s : Section) (blob : List UInt8) (r : Insn) : Prop :=
  ∃ k : ℕ, r.address = s.vaddr + UInt64.ofNat k ∧
    k + r.bytes.length ≤ (s.bytes blob).length ∧
    r.bytes = ((s.bytes blob).drop k).take r.bytes.length

theorem covers_of_mem_sweepRows {cs : Capstone} (h : cs.AnswersTile) {s : Section}
    {blob : List UInt8} {r : Insn} (hr : r ∈ sweepRows cs (s.bytes blob) s.vaddr) :
    s.Covers blob r := by
  obtain ⟨k, haddr, hend, hbytes⟩ := (consecutive_sweepRows h (s.bytes blob) s.vaddr).extent hr
  rw [flatMap_bytes_sweepRows h.toAnswersPrefix] at hend hbytes
  exact ⟨k, haddr, hend, hbytes⟩

/-- Inside a clamped section, offsets into the section are offsets into the blob. -/
theorem Covers.window {s : Section} {blob : List UInt8} {r : Insn} (h : s.Covers blob r)
    (hclamp : s.Clamped blob.length) (hne : r.bytes ≠ []) :
    ∃ k : ℕ, r.address = s.vaddr + UInt64.ofNat k ∧ k + r.bytes.length ≤ s.size.toNat ∧
      s.fileOff.toNat + k + r.bytes.length ≤ blob.length ∧
      r.bytes = slice blob (s.fileOff.toNat + k) (s.fileOff.toNat + k + r.bytes.length) := by
  obtain ⟨k, haddr, hend, hbytes⟩ := h
  have hpos : 0 < r.bytes.length := List.length_pos_iff.mpr hne
  obtain ⟨hwindow, hblob, hsize⟩ := hclamp.bytes_eq (List.length_pos_iff.mp (by omega))
  refine ⟨k, haddr, by omega, by omega, ?_⟩
  rw [slice, List.drop_take, Nat.add_sub_cancel_left]
  calc r.bytes = ((s.bytes blob).drop k).take r.bytes.length := hbytes
    _ = (((blob.drop s.fileOff.toNat).take (s.bytes blob).length).drop k).take
          r.bytes.length := by rw [← hwindow]
    _ = (blob.drop (s.fileOff.toNat + k)).take r.bytes.length := by
      rw [List.drop_take, List.drop_drop, List.take_take, Nat.min_eq_left (by omega)]

end Section

/-- **Every row of `auto` is an executable section's.** -/
theorem mem_disassemble_auto {K : Crates} {blob : List UInt8} {arch mode : Option String}
    {sel : ArchSel} {cs : Capstone} (h : cs.AnswersTile) (hsecs : sections K blob ≠ [])
    (hsel : resolve K blob arch mode = some sel) (hcs : build K sel = some cs) {r : Insn}
    (hr : r ∈ disassemble K blob arch mode none "auto") :
    r.size.toNat = r.bytes.length ∧ r.bytes ≠ [] ∧
      ∃ s ∈ sections K blob, s.exec = true ∧ s.Covers blob r := by
  rw [disassemble_of_built hsel hcs, selectRegions_auto hsecs] at hr
  obtain ⟨region, hregion, hmem⟩ := mem_sweepRegions h.len_pos hr
  obtain ⟨s, hs, rfl⟩ := List.mem_map.mp hregion
  obtain ⟨hs, hexec⟩ := List.mem_filter.mp hs
  exact ⟨sweepRows_size h r hmem, sweepRows_bytes_ne_nil h.len_pos r hmem, s, hs, hexec,
    Section.covers_of_mem_sweepRows h hmem⟩

/-- **Provenance.**  In a blob with sections, every instruction row comes from an executable
section `s` and an offset `k` into it: the address is `k` past the section's, the row ends
inside the section's declared size and inside the blob, and its bytes are the blob's. -/
theorem disassemble_provenance (K : Crates) (hK : K.Handles Capstone.AnswersTile)
    (blob : List UInt8) (arch mode : Option String) (hsecs : sections K blob ≠ [])
    (sel : ArchSel) (hsel : resolve K blob arch mode = some sel)
    (cs : Capstone) (hcs : build K sel = some cs) :
    ∀ r ∈ disassemble K blob arch mode none "auto",
      ∃ s ∈ sections K blob, s.exec = true ∧
        ∃ k : ℕ, r.address = s.vaddr + UInt64.ofNat k ∧ k + r.size.toNat ≤ s.size.toNat ∧
          s.fileOff.toNat + k + r.size.toNat ≤ blob.length ∧
          r.bytes = slice blob (s.fileOff.toNat + k) (s.fileOff.toNat + k + r.size.toNat) := by
  intro r hr
  obtain ⟨hsize, hne, s, hs, hexec, hcov⟩ := mem_disassemble_auto (hK _ cs hcs) hsecs hsel hcs hr
  rw [hsize]
  exact ⟨s, hs, hexec, hcov.window (sections_clamped hs) hne⟩

theorem Fixtures.elfX64_sections_ne_nil :
    sections Fixtures.elfX64Crates Fixtures.elfX64Blob ≠ [] := by
  have hobj : Fixtures.elfX64Crates.objectParse Fixtures.elfX64Blob = some (.elf Fixtures.elfX64) :=
    Fixtures.crates_objectParse _ _ _
  rw [ne_eq, sections_eq_nil, Crates.headers, hobj]
  exact List.cons_ne_nil _ _

theorem disassemble_provenance_elf :
    let K := Fixtures.elfX64Crates
    let blob := Fixtures.elfX64Blob
    ∀ r ∈ disassemble K blob none none none "auto",
      ∃ s ∈ sections K blob, s.exec = true ∧
        ∃ k : ℕ, r.address = s.vaddr + UInt64.ofNat k ∧ k + r.size.toNat ≤ s.size.toNat ∧
          s.fileOff.toNat + k + r.size.toNat ≤ blob.length ∧
          r.bytes = slice blob (s.fileOff.toNat + k) (s.fileOff.toNat + k + r.size.toNat) :=
  disassemble_provenance Fixtures.elfX64Crates
    (Fixtures.crates_handles Fixtures.x64Handle_tiles) Fixtures.elfX64Blob none none
    Fixtures.elfX64_sections_ne_nil ⟨"x86", "x64", false⟩ (by decide) Fixtures.x64Handle (by rfl)

/-! ### Containers without sections -/

/-- The blob's `auto` sweep stays within executable sections, and is empty if there is none. -/
def SweepsExecOnly (K : Crates) (blob : List UInt8) : Prop :=
  (∀ r ∈ disassemble K blob none none none "auto",
    ∃ s ∈ sections K blob, s.exec = true ∧ s.Covers blob r) ∧
  ((∀ s ∈ sections K blob, s.exec = false) → disassemble K blob none none none "auto" = [])

theorem sweepRows_eq_nil {cs : Capstone} (h : cs.AnswersPrefix) {code : List UInt8}
    {addr : UInt64} : sweepRows cs code addr = [] ↔ code = [] := by
  constructor
  · intro hrows
    rw [← flatMap_bytes_sweepRows h code addr, hrows, List.flatMap_nil]
  · rintro rfl
    exact sweepRows_nil cs addr

/-- Without sections the answer is empty only for an empty blob. -/
theorem disassemble_auto_eq_nil {K : Crates} {blob : List UInt8} {sel : ArchSel} {cs : Capstone}
    (h : cs.AnswersPrefix) (hsecs : sections K blob = [])
    (hsel : resolve K blob none none = some sel) (hcs : build K sel = some cs) :
    disassemble K blob none none none "auto" = [] ↔ blob = [] := by
  rw [disassemble_single h.len_pos hsel hcs (selectRegions_whole (Or.inr hsecs) none),
    List.take_eq_nil_iff, sweepRows_eq_nil h, List.take_eq_nil_iff]
  simp [MAX_INSNS, MAX_SECTION_BYTES]

/-- **When `auto` sweeps executable code only.**  For a container whose arch resolves and
whose handle builds: exactly when it lists a section header at all (or the blob is empty). -/
theorem sweepsExecOnly_iff (K : Crates) (hK : K.Handles Capstone.AnswersTile)
    (blob : List UInt8) (sel : ArchSel) (hsel : (probe K blob).archSel = some sel)
    (cs : Capstone) (hcs : build K sel = some cs) :
    SweepsExecOnly K blob ↔ K.headers blob ≠ [] ∨ blob = [] := by
  have htile := hK _ cs hcs
  have hres : resolve K blob none none = some sel := hsel
  constructor
  · rintro ⟨-, hnone⟩
    by_cases hheaders : K.headers blob = []
    · have hsecs := sections_eq_nil.mpr hheaders
      right
      rw [← disassemble_auto_eq_nil htile.toAnswersPrefix hsecs hres hcs]
      exact hnone (by simp [hsecs])
    · exact Or.inl hheaders
  · intro hwhen
    by_cases hsecs : sections K blob = []
    · -- no headers, so the blob is empty and so is the answer
      have hblob : blob = [] := hwhen.resolve_left (not_not.mpr (sections_eq_nil.mp hsecs))
      have hnil := (disassemble_auto_eq_nil htile.toAnswersPrefix hsecs hres hcs).mpr hblob
      exact ⟨by simp [hnil], fun _ => hnil⟩
    · have hrows : ∀ r ∈ disassemble K blob none none none "auto",
          ∃ s ∈ sections K blob, s.exec = true ∧ s.Covers blob r :=
        fun r hr => (mem_disassemble_auto htile hsecs hres hcs hr).2.2
      refine ⟨hrows, fun hexec => List.eq_nil_iff_forall_not_mem.mpr fun r hr => ?_⟩
      obtain ⟨s, hs, hs', -⟩ := hrows r hr
      rw [hexec s hs] at hs'
      cases hs'

theorem sweepsExecOnly_iff_elf :
    SweepsExecOnly Fixtures.elfX64Crates Fixtures.elfX64Blob ↔
      Fixtures.elfX64Crates.headers Fixtures.elfX64Blob ≠ [] ∨ Fixtures.elfX64Blob = [] :=
  sweepsExecOnly_iff Fixtures.elfX64Crates (Fixtures.crates_handles Fixtures.x64Handle_tiles)
    Fixtures.elfX64Blob ⟨"x86", "x64", false⟩ (by decide) Fixtures.x64Handle (by rfl)

/-- A RISC-V ELF with an empty section table: its 64 header bytes come out as rows. -/
theorem elf_without_sections_is_swept :
    let K := Fixtures.elfStrippedCrates
    let blob := Fixtures.elfStrippedBlob
    K.Handles Capstone.AnswersTile ∧ (probe K blob).container = "elf" ∧
      (probe K blob).archSel.bind (build K) = some Fixtures.riscvHandle ∧
      sections K blob = [] ∧ (disassemble K blob none none none "auto").length = 64 ∧
      ¬ SweepsExecOnly K blob := by
  intro K blob
  have hsecs : sections K blob = [] := by rfl
  have hlen : (disassemble K blob none none none "auto").length = 64 := by decide +kernel
  refine ⟨Fixtures.crates_handles Fixtures.riscvHandle_tiles, by decide, by rfl, hsecs, hlen,
    fun h => ?_⟩
  have hnil := h.2 (by simp [hsecs])
  rw [hnil] at hlen
  cases hlen

end VgiDisasm
