import VgiDisasm.EntryRows
import VgiDisasm.Provenance
import VgiDisasm.Fixtures

/-!
# Fat Mach-O files

Every reader takes the first slice of a fat file, but the byte ranges of its sections, which
count from the start of the slice, are applied to the whole file.  `triagedAsSlice_iff` says
when a fat file `F` is nevertheless triaged as its first slice `T` is: the section table
determines everything but the bytes, so it comes down to whether the bytes read from `F` and
from `T` happen to agree, and to the two places where an offset or a whole blob is reported.
-/

namespace VgiDisasm

open VgiDisasm.Engine VgiDisasm.Sweep

/-! ### What is assumed of goblin -/

/-- Iterating a fat file parses the bytes of each slice alone, where the file has them. -/
def Crates.FatParsesSlice (K : Crates) : Prop :=
  ∀ blob fat a macho, K.objectParse blob = some (.mach (.fat fat)) →
    fat.arches.head? = some a → a.offset.toNat + a.size.toNat ≤ blob.length →
    K.objectParse (a.slice blob) = some (.mach (.binary macho)) →
      fat.intoIter.head? = some (some (.machO macho))

/-- The magic numbers: `ca fe ba be` for a fat file, `fe ed fa ce`, `fe ed fa cf` or their
byte-swapped forms for a thin one. -/
structure Crates.MachMagic (K : Crates) : Prop where
  fat : ∀ blob fat, K.objectParse blob = some (.mach (.fat fat)) → blob.head? = some 0xca
  thin : ∀ blob macho, K.objectParse blob = some (.mach (.binary macho)) →
    blob.head? = some 0xfe ∨ blob.head? = some 0xce ∨ blob.head? = some 0xcf

/-! ### The property and its condition -/

/-- The fat file `F` is triaged as the slice of its entry `a` is: the same section bytes and
entropies, the entry byte at the slice's offset plus its own, the same instruction rows. -/
structure TriagedAsSlice (K : Crates) (F : List UInt8) (a : FatArch) : Prop where
  sections : List.Forall₂ (fun s t => s.bytes F = t.bytes (a.slice F) ∧ s.entropy = t.entropy)
    (sections K F) (sections K (a.slice F))
  fileOff : (entrypoint K F).fileOff.map UInt64.toNat =
    (entrypoint K (a.slice F)).fileOff.map fun off => a.offset.toNat + off.toNat
  rows : disassemble K F none none none "auto" = disassemble K (a.slice F) none none none "auto"

/-- On the headers of the slice: the bytes they declare are the same read from either base,
none of them contains the entry, and if there are none then nothing is decoded either. -/
structure SliceIndependent (K : Crates) (F : List UInt8) (a : FatArch) (macho : MachO) : Prop where
  bytes : ∀ h ∈ macho.headers.take MAX_SECTIONS, h.fileBytes F = h.fileBytes (a.slice F)
  entry : ∀ h ∈ macho.headers.take MAX_SECTIONS, h.containsVa macho.entry = false
  code : macho.headers ≠ [] ∨
    ∀ sel, (Probe.machProbe macho).archSel = some sel → build K sel = none

/-! ### Rows of two blobs with the same headers -/

theorem forall₂_sections_iff {K : Crates} {F T : List UInt8} (h : K.headers F = K.headers T) :
    List.Forall₂ (fun s t => s.bytes F = t.bytes T ∧ s.entropy = t.entropy)
        (sections K F) (sections K T) ↔
      ∀ hdr ∈ (K.headers T).take MAX_SECTIONS, hdr.fileBytes F = hdr.fileBytes T := by
  rw [sections_eq, sections_eq, h, List.forall₂_map_left_iff, List.forall₂_map_right_iff,
    List.forall₂_same]
  simp only [Header.row_entropy, Header.row_bytes]
  constructor
  · intro hall hdr hmem
    exact (hall hdr hmem).1
  · intro hall hdr hmem
    have hbytes := hall hdr hmem
    exact ⟨hbytes, by rw [hbytes]⟩

/-- Everything a region of `auto` is made of comes from the headers, except the bytes. -/
theorem selectRegions_auto_congr {K : Crates} {F T : List UInt8} (h : K.headers F = K.headers T)
    (hne : K.headers T ≠ [])
    (hbytes : ∀ hdr ∈ (K.headers T).take MAX_SECTIONS, hdr.fileBytes F = hdr.fileBytes T) :
    selectRegions F (sections K F) "auto" none = selectRegions T (sections K T) "auto" none := by
  rw [selectRegions_auto (sections_eq_nil.not.mpr (h ▸ hne)),
    selectRegions_auto (sections_eq_nil.not.mpr hne), sections_eq, sections_eq, h,
    List.filter_map, List.filter_map, List.map_map, List.map_map]
  simp only [Function.comp_def, Header.row_exec, Header.row_vaddr, Header.row_bytes]
  refine List.map_congr_left fun hdr hmem => ?_
  rw [hbytes hdr (List.mem_filter.mp hmem).1]

/-- The reported file offset, from the headers. -/
theorem entrypoint_fileOff (K : Crates) (blob : List UInt8) :
    (entrypoint K blob).fileOff = (probe K blob).entry.bind fun va =>
      (((K.headers blob).take MAX_SECTIONS).find? (·.containsVa va)).map fun hdr =>
        hdr.offset + (va - hdr.addr) := by
  rw [fileOff_eq]
  simp only [find?_sections, Option.map_map, Function.comp_def, Header.row_fileOff,
    Header.row_vaddr]

/-- A nonempty run of rows begins with the first byte of the code. -/
theorem head?_flatMap_sweepRegions {cs : Capstone} (h : cs.AnswersPrefix) {code : List UInt8}
    (hcode : code ≠ []) (addr : UInt64) :
    ((sweepRegions cs [(addr, code.take MAX_SECTION_BYTES)]).flatMap Insn.bytes).head? =
      code.head? := by
  have hne : code.take MAX_SECTION_BYTES ≠ [] := by
    simpa [List.take_eq_nil_iff, MAX_SECTION_BYTES] using hcode
  rw [sweepRegions_eq h.len_pos, List.flatMap_singleton]
  have hrows : sweepRows cs (code.take MAX_SECTION_BYTES) addr ≠ [] :=
    (sweepRows_eq_nil h).not.mpr hne
  obtain ⟨r, rest, hcons⟩ := List.exists_cons_of_ne_nil hrows
  have hmem : r ∈ sweepRows cs (code.take MAX_SECTION_BYTES) addr := by
    rw [hcons]
    exact List.mem_cons_self
  have hr : r.bytes ≠ [] := sweepRows_bytes_ne_nil h.len_pos r hmem
  have hall := flatMap_bytes_sweepRows h (code.take MAX_SECTION_BYTES) addr
  rw [hcons, List.flatMap_cons] at hall
  have hhead : (code.take MAX_SECTION_BYTES).head? = r.bytes.head? := by
    rw [← hall, List.head?_append_of_ne_nil _ hr]
  rw [hcons, show MAX_INSNS = 4999999 + 1 from rfl, List.take_succ_cons, List.flatMap_cons,
    List.head?_append_of_ne_nil _ hr, ← hhead, List.head?_take]
  simp [MAX_SECTION_BYTES]

/-! ### A fat file and its first slice -/

section FirstSlice

variable {K : Crates} {F : List UInt8} {fat : MultiArch} {a : FatArch} {macho : MachO}

/-- The first bytes differ, so the slice is not the front of the file. -/
theorem head?_ne_head?_slice (hmagic : K.MachMagic)
    (hF : K.objectParse F = some (.mach (.fat fat)))
    (hT : K.objectParse (a.slice F) = some (.mach (.binary macho))) :
    F.head? ≠ (a.slice F).head? := by
  rw [hmagic.fat F fat hF]
  rcases hmagic.thin _ macho hT with h | h | h <;> rw [h] <;> decide

theorem slice_offset_ne_zero (hmagic : K.MachMagic)
    (hF : K.objectParse F = some (.mach (.fat fat)))
    (hT : K.objectParse (a.slice F) = some (.mach (.binary macho))) : a.offset.toNat ≠ 0 := by
  intro hzero
  have hne := head?_ne_head?_slice hmagic hF hT
  rw [FatArch.slice, hzero, List.drop_zero, List.head?_take] at hne
  split at hne
  · -- an empty slice has no magic
    rename_i hsize
    rcases hmagic.thin _ macho hT with h | h | h <;>
      simp [FatArch.slice, hsize] at h
  · exact hne rfl

variable (hF : K.objectParse F = some (.mach (.fat fat))) (hfirst : fat.firstMachO = some macho)
  (hT : K.objectParse (a.slice F) = some (.mach (.binary macho)))

include hF hfirst in
theorem headers_fat : K.headers F = macho.headers := by
  simp only [Crates.headers, hF, Object.headers, hfirst]

include hF hfirst in
theorem probe_fat :
    probe K F = { Probe.machProbe macho with container := "fat-macho" } := by
  rw [probe_of_some hF]
  show Probe.fatProbe fat = _
  simp only [Probe.fatProbe, hfirst]

include hT in
theorem headers_thin : K.headers (a.slice F) = macho.headers := by
  simp only [Crates.headers, hT, Object.headers]

include hT in
theorem probe_thin : probe K (a.slice F) = Probe.machProbe macho := by
  rw [probe_of_some hT]
  rfl

include hF hfirst hT in
/-- Both files report the slice-relative offset, so the fat file's is never the slice's offset
plus it. -/
theorem fileOff_iff (ho : a.offset.toNat ≠ 0) :
    (entrypoint K F).fileOff.map UInt64.toNat =
        ((entrypoint K (a.slice F)).fileOff.map fun off => a.offset.toNat + off.toNat) ↔
      ∀ h ∈ macho.headers.take MAX_SECTIONS, h.containsVa macho.entry = false := by
  have hprobeF := probe_fat hF hfirst
  have hprobeT := probe_thin hT
  rw [entrypoint_fileOff, entrypoint_fileOff, headers_fat hF hfirst,
    headers_thin hT, hprobeF, hprobeT]
  simp only [Probe.machProbe, Option.bind_some]
  cases hfind : (macho.headers.take MAX_SECTIONS).find? (·.containsVa macho.entry) with
  | none =>
    refine iff_of_true rfl fun h hmem => ?_
    simpa using List.find?_eq_none.mp hfind h hmem
  | some hdr =>
    refine iff_of_false ?_ fun h => ?_
    · simp only [Option.map_some, Option.some.injEq]
      omega
    · have hva := List.find?_some hfind
      rw [h hdr (List.mem_of_find?_eq_some hfind)] at hva
      cases hva

include hF hfirst hT in
/-- With equal section bytes the rows agree, unless both files are swept whole. -/
theorem rows_iff (hmagic : K.MachMagic) (hK : K.Handles Capstone.AnswersPrefix)
    (hbytes : ∀ h ∈ macho.headers.take MAX_SECTIONS, h.fileBytes F = h.fileBytes (a.slice F)) :
    disassemble K F none none none "auto" = disassemble K (a.slice F) none none none "auto" ↔
      macho.headers ≠ [] ∨
        ∀ sel, (Probe.machProbe macho).archSel = some sel → build K sel = none := by
  have hresF : resolve K F none none = (Probe.machProbe macho).archSel := by
    show (probe K F).archSel = _
    rw [probe_fat hF hfirst]
    rfl
  have hresT : resolve K (a.slice F) none none = (Probe.machProbe macho).archSel := by
    show (probe K (a.slice F)).archSel = _
    rw [probe_thin hT]
  by_cases hbuilt : ∀ sel, (Probe.machProbe macho).archSel = some sel → build K sel = none
  · rw [disassemble_of_unbuilt (by rwa [hresF]), disassemble_of_unbuilt (by rwa [hresT])]
    exact iff_of_true rfl (Or.inr hbuilt)
  · rw [or_iff_left hbuilt]
    obtain ⟨sel, cs, hsel, hcs⟩ := exists_built hbuilt
    rw [disassemble_of_built (hresF.trans hsel) hcs, disassemble_of_built (hresT.trans hsel) hcs]
    by_cases hheaders : macho.headers = []
    · -- swept whole, each file from its own magic
      have hsecsF := sections_eq_nil.mpr ((headers_fat hF hfirst).trans hheaders)
      have hsecsT := sections_eq_nil.mpr ((headers_thin hT).trans hheaders)
      have hhead := head?_ne_head?_slice hmagic hF hT
      have hF0 : F ≠ [] := by
        rintro rfl
        simpa using hmagic.fat [] fat hF
      have hT0 : a.slice F ≠ [] := by
        intro hnil
        rw [hnil] at hT
        simpa using hmagic.thin [] macho hT
      rw [hsecsF, hsecsT, selectRegions_nil, selectRegions_nil]
      refine iff_of_false (fun hrows => hhead ?_) (not_not.mpr hheaders)
      rw [← head?_flatMap_sweepRegions (hK _ cs hcs) hF0 0,
        ← head?_flatMap_sweepRegions (hK _ cs hcs) hT0 0]
      exact congrArg (fun rows => (rows.flatMap Insn.bytes).head?) hrows
    · refine iff_of_true ?_ hheaders
      rw [selectRegions_auto_congr ((headers_fat hF hfirst).trans (headers_thin hT).symm)
        (by rwa [headers_thin hT]) (by rwa [headers_thin hT])]

end FirstSlice

/-- **When a fat file is triaged as its first slice.**  For every fat Mach-O whose first entry
designates a thin Mach-O: exactly when the slice's headers are `SliceIndependent`. -/
theorem triagedAsSlice_iff (K : Crates) (hslice : K.FatParsesSlice) (hmagic : K.MachMagic)
    (hK : K.Handles Capstone.AnswersPrefix) (F : List UInt8) (fat : MultiArch) (a : FatArch)
    (macho : MachO) (hF : K.objectParse F = some (.mach (.fat fat)))
    (ha : fat.arches.head? = some a) (hbound : a.offset.toNat + a.size.toNat ≤ F.length)
    (hT : K.objectParse (a.slice F) = some (.mach (.binary macho))) :
    TriagedAsSlice K F a ↔ SliceIndependent K F a macho := by
  have hfirst : fat.firstMachO = some macho := by
    rw [MultiArch.firstMachO, hslice F fat a macho hF ha hbound hT]
  have ho := slice_offset_ne_zero hmagic hF hT
  have hsections := forall₂_sections_iff ((headers_fat hF hfirst).trans (headers_thin hT).symm)
  rw [headers_thin hT] at hsections
  have hfileOff := fileOff_iff hF hfirst hT ho
  constructor
  · rintro ⟨hsecs, hoff, hrows⟩
    have hbytes := hsections.mp hsecs
    exact ⟨hbytes, hfileOff.mp hoff, (rows_iff hF hfirst hT hmagic hK hbytes).mp hrows⟩
  · rintro ⟨hbytes, hentry, hcode⟩
    exact ⟨hsections.mpr hbytes, hfileOff.mpr hentry,
      (rows_iff hF hfirst hT hmagic hK hbytes).mpr hcode⟩

namespace Fixtures

/-- The `__TEXT,__text` header of a Mach-O object: one byte of code behind the load command. -/
def textSection : MachSection where
  name := some "__text"
  addr := 0x1000
  size := 1
  offset := 184
  flags := 0x80000400

def machX64 : MachO where
  cputype := Probe.CPU_TYPE_X86_64
  is64 := true
  littleEndian := true
  entry := 0
  segments := [⟨some "__TEXT", some [textSection]⟩]

def segname : List UInt8 := [0x5f, 0x5f, 0x54, 0x45, 0x58, 0x54] ++ le 10 0

def sectname : List UInt8 := [0x5f, 0x5f, 0x74, 0x65, 0x78, 0x74] ++ le 10 0

/-- The file of `machX64`: header, one `LC_SEGMENT_64` with one section (aligned to 64
bytes), `ret` at 184. -/
def machX64Blob : List UInt8 :=
  [0xcf, 0xfa, 0xed, 0xfe] ++ le 4 0x01000007 ++ le 4 3 ++ le 4 1 ++ le 4 1 ++ le 4 152 ++ le 8 0 ++
    le 4 0x19 ++ le 4 152 ++ segname ++ le 8 0x1000 ++ le 8 1 ++ le 8 184 ++ le 8 1 ++ le 4 7 ++
    le 4 5 ++ le 4 1 ++ le 4 0 ++
    sectname ++ segname ++ le 8 0x1000 ++ le 8 1 ++ le 4 184 ++ le 4 6 ++ le 8 0 ++
    le 4 0x80000400 ++ le 12 0 ++ [0xc3]

/-- The fat header, and the slice right behind it. -/
def fatArch : FatArch := ⟨28, 185⟩

def fatMulti : MultiArch := ⟨[fatArch], [some (.machO machX64)]⟩

def fatBlob : List UInt8 :=
  [0xca, 0xfe, 0xba, 0xbe] ++ be 4 1 ++ be 4 0x01000007 ++ be 4 3 ++ be 4 28 ++ be 4 185 ++
    be 4 0 ++ machX64Blob

def fatCrates : Crates :=
  crates [(fatBlob, .mach (.fat fatMulti)), (machX64Blob, .mach (.binary machX64))]
    [(x64Builder, x64Handle)]

theorem fatArch_slice : fatArch.slice fatBlob = machX64Blob := by decide +kernel

theorem fatCrates_cases {blob : List UInt8} {obj : Object}
    (h : fatCrates.objectParse blob = some obj) :
    (blob = fatBlob ∧ obj = .mach (.fat fatMulti)) ∨
      (blob = machX64Blob ∧ obj = .mach (.binary machX64)) := by
  simp only [fatCrates, crates, List.lookup_cons, List.lookup_nil] at h
  split at h
  · rename_i heq
    cases h
    exact Or.inl ⟨eq_of_beq heq, rfl⟩
  · split at h
    · rename_i heq
      cases h
      exact Or.inr ⟨eq_of_beq heq, rfl⟩
    · cases h

theorem fatCrates_fat : fatCrates.objectParse fatBlob = some (.mach (.fat fatMulti)) := by
  simp only [fatCrates, crates, List.lookup_cons, BEq.rfl]

theorem fatCrates_thin :
    fatCrates.objectParse (fatArch.slice fatBlob) = some (.mach (.binary machX64)) := by
  have hne : (machX64Blob == fatBlob) = false := by decide +kernel
  rw [fatArch_slice]
  simp only [fatCrates, crates, List.lookup_cons, hne, BEq.rfl]

theorem fatCrates_parsesSlice : fatCrates.FatParsesSlice := by
  intro blob fat a macho hF ha _ hT
  rcases fatCrates_cases hF with ⟨rfl, hobj⟩ | ⟨rfl, hobj⟩
  · cases hobj
    cases ha
    rw [fatCrates_thin] at hT
    cases hT
    rfl
  · cases hobj

theorem fatCrates_magic : fatCrates.MachMagic where
  fat := by
    intro blob fat hF
    rcases fatCrates_cases hF with ⟨rfl, hobj⟩ | ⟨rfl, hobj⟩
    · rfl
    · cases hobj
  thin := by
    intro blob macho hT
    rcases fatCrates_cases hT with ⟨rfl, hobj⟩ | ⟨rfl, hobj⟩
    · cases hobj
    · exact Or.inr (Or.inr rfl)

end Fixtures

theorem triagedAsSlice_iff_object :
    TriagedAsSlice Fixtures.fatCrates Fixtures.fatBlob Fixtures.fatArch ↔
      SliceIndependent Fixtures.fatCrates Fixtures.fatBlob Fixtures.fatArch Fixtures.machX64 :=
  triagedAsSlice_iff Fixtures.fatCrates Fixtures.fatCrates_parsesSlice Fixtures.fatCrates_magic
    (Fixtures.crates_handles Fixtures.x64Handle_tiles.toAnswersPrefix) Fixtures.fatBlob
    Fixtures.fatMulti Fixtures.fatArch Fixtures.machX64 Fixtures.fatCrates_fat rfl
    (by decide +kernel) Fixtures.fatCrates_thin

/-- The slice's one code byte is `ret`; read from the fat file, its section is the alignment
field of the section header, 28 bytes earlier in the slice, which decodes as nothing. -/
theorem fat_not_triagedAsSlice :
    let K := Fixtures.fatCrates
    let F := Fixtures.fatBlob
    let T := Fixtures.fatArch.slice F
    K.FatParsesSlice ∧ K.Handles Capstone.AnswersTile ∧
      K.objectParse F = some (.mach (.fat Fixtures.fatMulti)) ∧
      K.objectParse T = some (.mach (.binary Fixtures.machX64)) ∧
      (sections K F).map (·.bytes F) = [[0x06]] ∧ (sections K T).map (·.bytes T) = [[0xc3]] ∧
      (disassemble K F none none none "auto").map Insn.mnemonic = [".byte"] ∧
      (disassemble K T none none none "auto").map Insn.mnemonic = ["ret"] ∧
      ¬ TriagedAsSlice K F Fixtures.fatArch := by
  intro K F T
  have hF : (disassemble K F none none none "auto").map Insn.mnemonic = [".byte"] := by
    decide +kernel
  have hT : (disassemble K T none none none "auto").map Insn.mnemonic = ["ret"] := by
    decide +kernel
  refine ⟨Fixtures.fatCrates_parsesSlice, Fixtures.crates_handles Fixtures.x64Handle_tiles,
    Fixtures.fatCrates_fat, Fixtures.fatCrates_thin, by decide +kernel, by decide +kernel,
    hF, hT, fun h => ?_⟩
  have hrows : disassemble K F none none none "auto" = disassemble K T none none none "auto" :=
    h.rows
  rw [hrows, hT] at hF
  exact absurd hF (by decide)

end VgiDisasm
