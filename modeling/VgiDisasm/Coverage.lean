import VgiDisasm.EntryBytes
import VgiDisasm.Provenance

/-!
# What the rows leave out

`disassemble_provenance` says that no row is made up; here the other direction.  The rows of
any request cover the bytes of the selected regions from the first one on, and all of them below
the row cap.  Under `auto` every file byte of every executable section is then in a row at the
matching address, the byte at the entry point among them.
-/

namespace VgiDisasm

open VgiDisasm.Engine VgiDisasm.Sweep VgiDisasm.Extents

/-! ### Bytes -/

/-- The uncapped rows of regions are the bytes of the regions. -/
theorem flatMap_bytes_regions {cs : Capstone} (h : cs.AnswersPrefix)
    (regions : List (UInt64 × List UInt8)) :
    (regions.flatMap fun region => sweepRows cs region.2 region.1).flatMap Insn.bytes =
      regions.flatMap Prod.snd := by
  induction regions with
  | nil => rfl
  | cons region regions ih =>
    rw [List.flatMap_cons, List.flatMap_append, List.flatMap_cons, ih,
      flatMap_bytes_sweepRows h]

/-- A list of fewer than `cap` places after a cut was not cut. -/
theorem take_eq_self_of_lt {γ : Type*} {xs : List γ} {cap : ℕ} (h : (xs.take cap).length < cap) :
    xs.take cap = xs := by
  rw [List.length_take] at h
  exact List.take_of_length_le (by omega)

/-- Below the cap the rows have every byte of the selected regions. -/
theorem bytes_of_uncapped {K : Crates} {blob : List UInt8} {arch mode : Option String}
    {base : Option UInt64} {sect : String} {sel : ArchSel} {cs : Capstone}
    (h : cs.AnswersPrefix) (hsel : resolve K blob arch mode = some sel) (hcs : build K sel = some cs)
    (hcap : (disassemble K blob arch mode base sect).length < MAX_INSNS) :
    (disassemble K blob arch mode base sect).flatMap Insn.bytes =
      (selectRegions blob (sections K blob) sect base).flatMap Prod.snd := by
  rw [disassemble_rows h.len_pos hsel hcs] at hcap ⊢
  rw [take_eq_self_of_lt hcap, flatMap_bytes_regions h]

/-- **Nothing selected is left out.**  The bytes of the rows are, in order, a front of the bytes of
the selected regions: all of them if there are fewer rows than the cap, and at least as many
bytes as rows if not. -/
theorem disassemble_complete (K : Crates) (hK : K.Handles Capstone.AnswersPrefix)
    (blob : List UInt8) (arch mode : Option String) (base : Option UInt64) (sect : String)
    (sel : ArchSel) (hsel : resolve K blob arch mode = some sel) (cs : Capstone)
    (hcs : build K sel = some cs) :
    let rows := disassemble K blob arch mode base sect
    let bytes := (selectRegions blob (sections K blob) sect base).flatMap Prod.snd
    rows.flatMap Insn.bytes <+: bytes ∧
      (rows.length < MAX_INSNS → rows.flatMap Insn.bytes = bytes) ∧
      rows.length ≤ (rows.flatMap Insn.bytes).length := by
  intro rows bytes
  have hprefix := hK _ cs hcs
  have hrows : rows = ((selectRegions blob (sections K blob) sect base).flatMap fun region =>
      sweepRows cs region.2 region.1).take MAX_INSNS :=
    disassemble_rows hprefix.len_pos hsel hcs
  have hall := flatMap_bytes_regions hprefix (selectRegions blob (sections K blob) sect base)
  refine ⟨?_, bytes_of_uncapped hprefix hsel hcs, ?_⟩
  · show rows.flatMap Insn.bytes <+: (selectRegions blob _ sect base).flatMap Prod.snd
    rw [hrows, ← hall]
    exact (List.take_prefix _ _).flatMap Insn.bytes
  · apply length_le_length_flatMap
    intro r hr
    rw [hrows] at hr
    obtain ⟨region, -, hmem⟩ := List.mem_flatMap.mp (List.mem_of_mem_take hr)
    exact sweepRows_bytes_ne_nil hprefix.len_pos r hmem

theorem disassemble_complete_elf :
    let rows := disassemble Fixtures.elfX64Crates Fixtures.elfX64Blob none none none "auto"
    let bytes := (selectRegions Fixtures.elfX64Blob
      (sections Fixtures.elfX64Crates Fixtures.elfX64Blob) "auto" none).flatMap Prod.snd
    rows.flatMap Insn.bytes <+: bytes ∧
      (rows.length < MAX_INSNS → rows.flatMap Insn.bytes = bytes) ∧
      rows.length ≤ (rows.flatMap Insn.bytes).length :=
  disassemble_complete Fixtures.elfX64Crates
    (Fixtures.crates_handles Fixtures.x64Handle_tiles.toAnswersPrefix) Fixtures.elfX64Blob none
    none none "auto" ⟨"x86", "x64", false⟩ (by decide) Fixtures.x64Handle (by rfl)

/-! ### Addresses -/

/-- The row has the byte of the section at offset `k`, at the section's address advanced by `k`. -/
def Insn.Has (r : Insn) (s : Section) (blob : List UInt8) (k : ℕ) : Prop :=
  ∃ j : ℕ, r.address = s.vaddr + UInt64.ofNat j ∧ j ≤ k ∧ k < j + r.size.toNat ∧
    r.bytes[k - j]? = (s.bytes blob)[k]?

theorem exists_row_of_section {cs : Capstone} (h : cs.AnswersTile) {s : Section}
    {blob : List UInt8} {k : ℕ} (hk : k < (s.bytes blob).length) :
    ∃ r ∈ sweepRows cs (s.bytes blob) s.vaddr, r.Has s blob k := by
  have hbytes := flatMap_bytes_sweepRows h.toAnswersPrefix (s.bytes blob) s.vaddr
  obtain ⟨r, hr, j, haddr, hle, hlt, hbyte⟩ :=
    (consecutive_sweepRows h (s.bytes blob) s.vaddr).cover (k := k) (by rwa [hbytes])
  rw [hbytes] at hbyte
  refine ⟨r, hr, j, haddr, hle, ?_, hbyte⟩
  rwa [sweepRows_size h r hr]

theorem exists_row_of_exec {K : Crates} {blob : List UInt8} {arch mode : Option String}
    {sel : ArchSel} {cs : Capstone} (h : cs.AnswersTile)
    (hsel : resolve K blob arch mode = some sel) (hcs : build K sel = some cs)
    (hcap : (disassemble K blob arch mode none "auto").length < MAX_INSNS) {s : Section}
    (hs : s ∈ sections K blob) (hexec : s.exec = true) {k : ℕ} (hk : k < (s.bytes blob).length) :
    ∃ r ∈ disassemble K blob arch mode none "auto", r.Has s blob k := by
  obtain ⟨r, hr, hhas⟩ := exists_row_of_section h hk
  refine ⟨r, ?_, hhas⟩
  rw [disassemble_rows h.len_pos hsel hcs] at hcap ⊢
  rw [take_eq_self_of_lt hcap, selectRegions_auto (List.ne_nil_of_mem hs), List.flatMap_map]
  exact List.mem_flatMap.mpr ⟨s, List.mem_filter.mpr ⟨hs, hexec⟩, hr⟩

/-- **Every executable byte is in a row.**  Below the row cap, `auto` has for every file byte of
every executable section a row with that byte at that byte's address. -/
theorem disassemble_covers (K : Crates) (hK : K.Handles Capstone.AnswersTile)
    (blob : List UInt8) (arch mode : Option String) (sel : ArchSel)
    (hsel : resolve K blob arch mode = some sel) (cs : Capstone) (hcs : build K sel = some cs)
    (hcap : (disassemble K blob arch mode none "auto").length < MAX_INSNS) :
    ∀ s ∈ sections K blob, s.exec = true → ∀ k < (s.bytes blob).length,
      ∃ r ∈ disassemble K blob arch mode none "auto", r.Has s blob k := by
  intro s hs hexec k hk
  exact exists_row_of_exec (hK _ cs hcs) hsel hcs hcap hs hexec hk

theorem disassemble_covers_elf :
    let K := Fixtures.elfX64Crates
    let blob := Fixtures.elfX64Blob
    ∀ s ∈ sections K blob, s.exec = true → ∀ k < (s.bytes blob).length,
      ∃ r ∈ disassemble K blob none none none "auto", r.Has s blob k :=
  disassemble_covers Fixtures.elfX64Crates (Fixtures.crates_handles Fixtures.x64Handle_tiles)
    Fixtures.elfX64Blob none none ⟨"x86", "x64", false⟩ (by decide) Fixtures.x64Handle (by rfl)
    (by decide +kernel)

/-! ### The entry point -/

/-- The row's address range contains `va`, and the byte it has there is the blob's at `o`. -/
def Insn.Shows (r : Insn) (blob : List UInt8) (va : UInt64) (o : ℕ) : Prop :=
  r.address.toNat ≤ va.toNat ∧ va.toNat < r.address.toNat + r.size.toNat ∧
    r.bytes[va.toNat - r.address.toNat]? = blob[o]?

/-- Byte `k` of a section's file bytes is the blob's. -/
theorem Section.Clamped.getElem_bytes {s : Section} {blob : List UInt8}
    (h : s.Clamped blob.length) {k : ℕ} (hk : k < (s.bytes blob).length) :
    (s.bytes blob)[k]? = blob[s.fileOff.toNat + k]? := by
  have hne : s.bytes blob ≠ [] := List.length_pos_iff.mp (by omega)
  rw [(h.bytes_eq hne).1, List.getElem?_take_of_lt hk, List.getElem?_drop]

theorem Insn.Has.shows {r : Insn} {s : Section} {blob : List UInt8} {va : UInt64}
    (hclamp : s.Clamped blob.length) (hva : s.vaddr ≤ va)
    (hk : va.toNat - s.vaddr.toNat < (s.bytes blob).length)
    (h : r.Has s blob (va.toNat - s.vaddr.toNat)) :
    r.Shows blob va (s.fileOff.toNat + (va.toNat - s.vaddr.toNat)) := by
  obtain ⟨j, haddr, hle, hlt, hbyte⟩ := h
  have hle' : s.vaddr.toNat ≤ va.toNat := hva
  have := va.toNat_lt
  have haddr' : r.address.toNat = s.vaddr.toNat + j := by
    rw [haddr]
    exact toNat_vadd_of_lt (by omega)
  rw [hclamp.getElem_bytes hk] at hbyte
  refine ⟨by omega, by omega, ?_⟩
  rw [← hbyte, haddr', Nat.sub_add_eq]

/-- **The entry point is disassembled.**  If `entrypoint` finds the entry in an executable section
whose file bytes reach that far, `auto` has a row at the entry's address with the file's byte
at the reported offset. -/
theorem disassemble_entry (K : Crates) (hK : K.Handles Capstone.AnswersTile)
    (blob : List UInt8) (hblob : blob.length ≤ Build.release.usizeMax) (arch mode : Option String)
    (sel : ArchSel) (hsel : resolve K blob arch mode = some sel) (cs : Capstone)
    (hcs : build K sel = some cs)
    (hcap : (disassemble K blob arch mode none "auto").length < MAX_INSNS) (va : UInt64)
    (s : Section) (hentry : EntrySection K blob va s) (hexec : s.exec = true)
    (hbytes : va.toNat < s.vaddr.toNat + (s.bytes blob).length) :
    ∃ o, (entrypoint K blob).fileOff = some o ∧ o.toNat < blob.length ∧
      ∃ r ∈ disassemble K blob arch mode none "auto", r.Shows blob va o.toNat := by
  have hle : s.vaddr.toNat ≤ va.toNat := hentry.vaddr_le
  have hclamp := hentry.clamped
  have hk : va.toNat - s.vaddr.toNat < (s.bytes blob).length := by omega
  have hend := (hclamp.bytes_eq (List.length_pos_iff.mp (by omega))).2.1
  have hsize : blob.length < 2 ^ 64 := Nat.lt_of_le_pred (by decide) hblob
  have ho : (s.fileOff + (va - s.vaddr)).toNat =
      s.fileOff.toNat + (va.toNat - s.vaddr.toNat) := by
    rw [UInt64.toNat_add, UInt64.toNat_sub_of_le _ _ hentry.vaddr_le]
    exact Nat.mod_eq_of_lt (by omega)
  obtain ⟨r, hr, hhas⟩ := exists_row_of_exec (hK _ cs hcs) hsel hcs hcap
    (List.mem_of_find?_eq_some hentry.first) hexec hk
  refine ⟨_, hentry.fileOff, by omega, r, hr, ?_⟩
  rw [ho]
  exact hhas.shows hclamp hentry.vaddr_le hk

namespace Fixtures

/-- `elfX64` with the entry at the second of its two instructions. -/
def elfEntry : Elf := elf64 Probe.EM_X86_64 0x1001 [nullShdr, execShdr 0x1000 64 2]

def elfEntryBlob : List UInt8 := elf64Blob elfEntry [0x90, 0xc3]

def elfEntryCrates : Crates := crates [(elfEntryBlob, .elf elfEntry)] [(x64Builder, x64Handle)]

theorem elfEntry_section :
    EntrySection elfEntryCrates elfEntryBlob 0x1001
      (Header.row elfEntryBlob (.elf elfEntry (execShdr 0x1000 64 2))) :=
  .of_headers (crates_objectParse _ (.elf elfEntry) _) rfl rfl

end Fixtures

theorem disassemble_entry_elf :
    let K := Fixtures.elfEntryCrates
    let blob := Fixtures.elfEntryBlob
    ∃ o, (entrypoint K blob).fileOff = some o ∧ o.toNat < blob.length ∧
      ∃ r ∈ disassemble K blob none none none "auto", r.Shows blob 0x1001 o.toNat :=
  disassemble_entry Fixtures.elfEntryCrates (Fixtures.crates_handles Fixtures.x64Handle_tiles)
    Fixtures.elfEntryBlob (by decide +kernel) none none ⟨"x86", "x64", false⟩ (by decide)
    Fixtures.x64Handle (by rfl) (by decide +kernel) 0x1001 _ Fixtures.elfEntry_section (by rfl)
    (by decide +kernel)

end VgiDisasm
