import VgiDisasm.Entrypoint

/-!
# Section rows are headers read against the blob

The three enumerations push one row per header under the cap.  `Header` is a header of any
container, and `sections_eq` says the same of all of them at once: the first `MAX_SECTIONS`
headers, each turned into its row.  What a row promises about its byte range is then one
statement, `Header.row_clamped`, with a case per container.
-/

namespace VgiDisasm

open VgiDisasm.Capped VgiDisasm.Sections VgiDisasm.Text

/-! ### Headers -/

/-- A section header, with what else of its container its row is computed from. -/
inductive Header
  | elf (elf : Elf) (sh : SectionHeader)
  | pe (pe : PE) (s : SectionTable)
  | mach (segname : String) (sect : MachSection)

/-- Segment by segment; a segment whose sections do not parse has none. -/
def MachO.headers (macho : MachO) : List Header :=
  macho.segments.flatMap fun seg =>
    (seg.sections.getD []).map fun sect => .mach (seg.name.getD "") sect

/-- The headers of a container, of a fat one those of its first slice. -/
def Object.headers : Object → List Header
  | .elf e => e.sectionHeaders.map fun sh => .elf e sh
  | .pe p => p.sections.map fun s => .pe p s
  | .mach (.binary macho) => macho.headers
  | .mach (.fat fat) =>
    match fat.firstMachO with
    | some macho => macho.headers
    | none => []
  | .other => []

def Crates.headers (K : Crates) (blob : List UInt8) : List Header :=
  match K.objectParse blob with
  | some obj => obj.headers
  | none => []

namespace Header

/-- The row of a header under a build configuration. -/
def rowWith {m : Type → Type} [Monad m] (B : Build m) (blob : List UInt8) : Header → m Section
  | .elf e sh => pure (elfSection B.usizeMax e blob sh)
  | .pe p s => peSection B p blob s
  | .mach segname sect => pure (machSection B.usizeMax blob segname sect)

def row (blob : List UInt8) (h : Header) : Section := Id.run (h.rowWith Build.release blob)

/-- The name in the section table; a Mach-O's is qualified by its segment. -/
def name : Header → String
  | .elf e sh => (e.shdrStrtab sh.shName).getD ""
  | .pe _ s => trimEndMatches (s.name.getD "") (Char.ofNat 0)
  | .mach segname sect => segname ++ "," ++ sect.name.getD ""

/-- The virtual address of the row; a PE's is relative to the image base. -/
def addr : Header → UInt64
  | .elf _ sh => sh.shAddr
  | .pe p s => p.imageBase + s.virtualAddress.toUInt64
  | .mach _ sect => sect.addr

def size : Header → UInt64
  | .elf _ sh => sh.shSize
  | .pe _ s => s.virtualSize.toUInt64
  | .mach _ sect => sect.size

def offset : Header → UInt64
  | .elf _ sh => sh.shOffset
  | .pe _ s => s.pointerToRawData.toUInt64
  | .mach _ sect => sect.offset.toUInt64

def exec : Header → Bool
  | .elf _ sh => sh.shFlags &&& SHF_EXECINSTR != 0
  | .pe _ s =>
    s.characteristics &&& IMAGE_SCN_MEM_EXECUTE != 0 ||
      s.characteristics &&& IMAGE_SCN_CNT_CODE != 0
  | .mach segname sect =>
    sect.flags &&& S_ATTR_PURE_INSTRUCTIONS != 0 || sect.flags &&& S_ATTR_SOME_INSTRUCTIONS != 0 ||
      (segname == "__TEXT" && sect.name.getD "" == "__text")

/-- The format says that the section has no bytes in the file. -/
def skip : Header → Bool
  | .elf _ sh => sh.shType == SHT_NOBITS
  | .pe _ s => s.characteristics &&& IMAGE_SCN_CNT_UNINIT != 0
  | .mach _ sect => zerofill sect

/-- The declared number of file bytes; a PE's is cut to its virtual size. -/
def fileSize : Header → UInt64
  | .elf _ sh => sh.shSize
  | .pe _ s => min s.sizeOfRawData.toUInt64 s.virtualSize.toUInt64
  | .mach _ sect => sect.size

/-- The file bytes the header declares, as far as `blob` has them. -/
def fileBytes (h : Header) (blob : List UInt8) : List UInt8 :=
  if h.skip then []
  else (blob.drop h.offset.toNat).take (min h.fileSize.toNat MAX_SECTION_BYTES)

theorem row_name (blob : List UInt8) (h : Header) : (h.row blob).name = h.name := by
  cases h <;> rfl

@[simp] theorem row_vaddr (blob : List UInt8) (h : Header) : (h.row blob).vaddr = h.addr := by
  cases h <;> rfl

@[simp] theorem row_size (blob : List UInt8) (h : Header) : (h.row blob).size = h.size := by
  cases h <;> rfl

@[simp] theorem row_fileOff (blob : List UInt8) (h : Header) :
    (h.row blob).fileOff = h.offset := by
  cases h <;> rfl

@[simp] theorem row_exec (blob : List UInt8) (h : Header) : (h.row blob).exec = h.exec := by
  cases h <;> rfl

theorem row_dataRange (blob : List UInt8) (h : Header) :
    (h.row blob).dataRange =
      if h.skip then none
      else clampRange Build.release.usizeMax h.offset h.fileSize blob.length := by
  cases h <;> rfl

theorem row_entropy (blob : List UInt8) (h : Header) :
    (h.row blob).entropy = shannonEntropy ((h.row blob).bytes blob) := by
  cases h <;> rfl

end Header

/-! ### Enumeration -/

theorem machSegment_eq (usizeMax : ℕ) (blob : List UInt8) (out : List Section) (seg : Segment) :
    machSegment usizeMax blob out seg =
      pushCapped MAX_SECTIONS (machSection usizeMax blob (seg.name.getD ""))
        (seg.sections.getD []) out := by
  unfold machSegment
  cases seg.sections with
  | none => rfl
  | some sects => rfl

section Generic

variable {m : Type → Type} [Monad m] [LawfulMonad m] (B : Build m) (blob : List UInt8)

theorem machSections_eq (macho : MachO) :
    (pure (machSections B.usizeMax macho blob []) : m (List Section)) =
      pushCappedM MAX_SECTIONS (Header.rowWith B blob) macho.headers [] := by
  -- name the two components, so that the inner loops run over one list with one body
  let row := fun h : String × MachSection => machSection B.usizeMax blob h.1 h.2
  let named := fun seg : Segment => (seg.sections.getD []).map fun sect => (seg.name.getD "", sect)
  have hfold : machSections B.usizeMax macho blob [] =
      pushCapped MAX_SECTIONS row (macho.segments.flatMap named) [] := by
    rw [← foldl_pushCapped]
    unfold machSections
    congr 1
    funext out seg
    rw [machSegment_eq, pushCapped_map]
  have hheaders : macho.headers = (macho.segments.flatMap named).map fun h => .mach h.1 h.2 := by
    rw [MachO.headers, List.map_flatMap]
    congr 1
    funext seg
    rw [List.map_map]
    rfl
  rw [hfold, hheaders, pushCappedM_map]
  exact (pushCappedM_pure MAX_SECTIONS row _ []).symm

/-- Every enumeration is the capped loop over the headers. -/
theorem objectSections_eq (obj : Object) :
    objectSections B blob obj =
      pushCappedM MAX_SECTIONS (Header.rowWith B blob) obj.headers [] := by
  cases obj with
  | elf elf =>
    rw [Object.headers, pushCappedM_map]
    exact (pushCappedM_pure MAX_SECTIONS (elfSection B.usizeMax elf blob) _ []).symm
  | pe pe =>
    rw [Object.headers, pushCappedM_map]
    rfl
  | mach mach =>
    cases mach with
    | binary macho => exact machSections_eq B blob macho
    | fat fat =>
      simp only [objectSections, Object.headers]
      cases fat.firstMachO with
      | none => rfl
      | some macho => exact machSections_eq B blob macho
  | other => rfl

theorem sectionsWith_eq (K : Crates) :
    sectionsWith B K blob =
      (List.take MAX_SECTIONS) <$>
        pushCappedM MAX_SECTIONS (Header.rowWith B blob) (K.headers blob) [] := by
  unfold sectionsWith Sections.parse Crates.headers
  cases K.objectParse blob with
  | none => simp [pushCappedM]
  | some obj => simp [objectSections_eq]

end Generic

/-- **One row per header, up to the cap.** -/
theorem sections_eq (K : Crates) (blob : List UInt8) :
    sections K blob = ((K.headers blob).take MAX_SECTIONS).map (Header.row blob) := by
  have hpure := pushCappedM_pure (m := Id) MAX_SECTIONS (Header.row blob) (K.headers blob) []
  have hrow : (fun h => (pure (Header.row blob h) : Id Section)) =
      Header.rowWith Build.release blob := rfl
  rw [hrow] at hpure
  unfold sections
  rw [sectionsWith_eq, hpure, pushCapped_eq, List.nil_append, List.length_nil, Nat.sub_zero]
  -- the final `truncate` has nothing left to cut
  exact List.take_of_length_le ((List.length_map _).trans_le (List.length_take_le _ _))

theorem mem_sections {K : Crates} {blob : List UInt8} {s : Section} (hs : s ∈ sections K blob) :
    ∃ h ∈ K.headers blob, s = h.row blob := by
  rw [sections_eq] at hs
  obtain ⟨h, hmem, rfl⟩ := List.mem_map.mp hs
  exact ⟨h, List.mem_of_mem_take hmem, rfl⟩

theorem sections_eq_nil {K : Crates} {blob : List UInt8} :
    sections K blob = [] ↔ K.headers blob = [] := by
  rw [sections_eq, List.map_eq_nil_iff, List.take_eq_nil_iff]
  simp [MAX_SECTIONS]

/-! ### Byte ranges -/

theorem clampRange_eq_some {usizeMax : ℕ} {off len : UInt64} {blobLen o l : ℕ}
    (h : clampRange usizeMax off len blobLen = some (o, l)) :
    o = off.toNat ∧ 0 < l ∧ l ≤ len.toNat ∧ o + l ≤ blobLen ∧ l ≤ MAX_SECTION_BYTES := by
  unfold clampRange at h
  split at h
  · cases h
  · split at h
    · cases h
    · simp only at h
      split at h
      · cases h
      · cases h
        omega

/-- With 64-bit pointers the range is the declared length, cut at the byte cap and at the
blob's end, unless nothing is left of it. -/
theorem clampRange_release (off len : UInt64) (blobLen : ℕ) :
    clampRange Build.release.usizeMax off len blobLen =
      if min (min len.toNat MAX_SECTION_BYTES) (blobLen - off.toNat) = 0 then none
      else some (off.toNat, min (min len.toNat MAX_SECTION_BYTES) (blobLen - off.toNat)) := by
  have hoff : ¬ off.toNat > Build.release.usizeMax :=
    Nat.not_lt.mpr (Nat.le_pred_of_lt off.toNat_lt)
  have hlen : min len.toNat Build.release.usizeMax = len.toNat :=
    Nat.min_eq_left (Nat.le_pred_of_lt len.toNat_lt)
  unfold clampRange
  rw [if_neg hoff, hlen]
  by_cases hend : off.toNat ≥ blobLen
  · rw [if_pos hend, if_pos (by omega)]
  · rw [if_neg hend, Nat.min_right_comm]

/-- The raw length of a PE section never exceeds its virtual size. -/
theorem rawLen_le (rawSize virtualSize : UInt64) : min rawSize virtualSize ≤ virtualSize := by
  show (if rawSize ≤ virtualSize then rawSize else virtualSize) ≤ virtualSize
  split
  · assumption
  · exact UInt64.le_refl virtualSize

theorem Header.fileSize_le_size (h : Header) : h.fileSize ≤ h.size := by
  cases h with
  | elf e sh => exact UInt64.le_refl _
  | pe p s => exact rawLen_le _ _
  | mach segname sect => exact UInt64.le_refl _

namespace Section

/-- A readable range starts at the section's file offset, is not empty, and stays within the
section's declared size, the blob and the byte cap. -/
def Clamped (s : Section) (blobLen : ℕ) : Prop :=
  ∀ off len, s.dataRange = some (off, len) →
    off = s.fileOff.toNat ∧ 0 < len ∧ len ≤ s.size.toNat ∧ off + len ≤ blobLen ∧
      len ≤ MAX_SECTION_BYTES

theorem bytes_of_none {s : Section} {blob : List UInt8} (h : s.dataRange = none) :
    s.bytes blob = [] := by
  rw [Section.bytes, h]

/-- The file bytes of a clamped section are its range of the blob. -/
theorem Clamped.bytes_of_some {s : Section} {blob : List UInt8} (h : s.Clamped blob.length)
    {off len : ℕ} (hrange : s.dataRange = some (off, len)) :
    s.bytes blob = (blob.drop off).take len ∧ (s.bytes blob).length = len := by
  obtain ⟨-, -, -, hend, -⟩ := h off len hrange
  have hbytes : s.bytes blob = (blob.drop off).take len := by
    rw [Section.bytes, hrange]
    show (if off ≤ blob.length then slice blob off (min (off + len) blob.length) else []) = _
    rw [if_pos (by omega), Nat.min_eq_left hend, slice, List.drop_take, Nat.add_sub_cancel_left]
  refine ⟨hbytes, ?_⟩
  rw [hbytes, List.length_take, List.length_drop]
  omega

theorem Clamped.bytes_eq {s : Section} {blob : List UInt8} (h : s.Clamped blob.length)
    (hne : s.bytes blob ≠ []) :
    s.bytes blob = (blob.drop s.fileOff.toNat).take (s.bytes blob).length ∧
      s.fileOff.toNat + (s.bytes blob).length ≤ blob.length ∧
      (s.bytes blob).length ≤ s.size.toNat := by
  cases hrange : s.dataRange with
  | none => exact absurd (bytes_of_none hrange) hne
  | some range =>
    obtain ⟨off, len⟩ := range
    obtain ⟨rfl, -, hsize, hend, -⟩ := h off len hrange
    obtain ⟨hbytes, hlen⟩ := h.bytes_of_some hrange
    rw [hlen]
    exact ⟨hbytes, hend, hsize⟩

theorem Clamped.length_bytes_le {s : Section} {blob : List UInt8}
    (h : s.Clamped blob.length) : (s.bytes blob).length ≤ s.size.toNat := by
  by_cases hne : s.bytes blob = []
  · rw [hne]
    exact Nat.zero_le _
  · exact (h.bytes_eq hne).2.2

end Section

namespace Header

/-- **Lying headers are clamped**, whatever their container. -/
theorem row_clamped (blob : List UInt8) (h : Header) : (h.row blob).Clamped blob.length := by
  intro o l hrange
  have hsize : h.fileSize.toNat ≤ h.size.toNat := h.fileSize_le_size
  rw [row_dataRange] at hrange
  split at hrange
  · cases hrange
  · obtain ⟨ho, hpos, hle, hend, hmax⟩ := clampRange_eq_some hrange
    rw [row_fileOff, row_size]
    exact ⟨ho, hpos, by omega, hend, hmax⟩

/-- A row's file bytes are the declared ones, as far as the blob has them. -/
theorem row_bytes (blob : List UInt8) (h : Header) :
    (h.row blob).bytes blob = h.fileBytes blob := by
  have hrange := h.row_dataRange blob
  have hlen : ((blob.drop h.offset.toNat).take (min h.fileSize.toNat MAX_SECTION_BYTES)).length =
      min (min h.fileSize.toNat MAX_SECTION_BYTES) (blob.length - h.offset.toNat) := by
    rw [List.length_take, List.length_drop]
  rw [clampRange_release, ← hlen] at hrange
  unfold fileBytes
  split
  · rename_i hskip
    rw [if_pos hskip] at hrange
    exact Section.bytes_of_none hrange
  · rename_i hskip
    rw [if_neg hskip] at hrange
    split at hrange
    · rename_i hzero
      rw [Section.bytes_of_none hrange, List.length_eq_zero_iff.mp hzero]
    · rw [((h.row_clamped blob).bytes_of_some hrange).1, List.length_take, List.take_eq_take_iff]
      omega

end Header

theorem sections_clamped {K : Crates} {blob : List UInt8} {s : Section}
    (hs : s ∈ sections K blob) : s.Clamped blob.length := by
  obtain ⟨h, -, rfl⟩ := mem_sections hs
  exact h.row_clamped blob

/-! ### The section of an address -/

def Header.containsVa (h : Header) (va : UInt64) : Bool :=
  h.addr ≤ va && va < saturatingAdd h.addr h.size

theorem Header.row_containsVa (blob : List UInt8) (h : Header) (va : UInt64) :
    (h.row blob).containsVa va = h.containsVa va := by
  simp [Section.containsVa, Header.containsVa]

theorem find?_sections (K : Crates) (blob : List UInt8) (va : UInt64) :
    (sections K blob).find? (·.containsVa va) =
      (((K.headers blob).take MAX_SECTIONS).find? (·.containsVa va)).map (Header.row blob) := by
  rw [sections_eq, List.find?_map]
  simp only [Function.comp_def, Header.row_containsVa]

end VgiDisasm
