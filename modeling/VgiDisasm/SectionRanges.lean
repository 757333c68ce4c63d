import VgiDisasm.SectionRows
import VgiDisasm.Fixtures

/-!
# The byte range of a section row

Three enumerations with their own notion of size feed `clamp_range`, and `Section::bytes` clamps
once more.  `sections_clampExact` says what comes out: the declared file bytes as far as the blob
and the byte cap let them, and none only for the reasons a header can give.

One of these reasons is the section type.  The Mach-O enumeration knows one of the three
zero-fill types; `noBytesBorrowed_iff` says when the other two read file bytes that are not
theirs.
-/

namespace VgiDisasm

open VgiDisasm.Engine VgiDisasm.Sections

/-! ### Exact ranges -/

/-- What the row `s` of the header `h` says of its file bytes. -/
structure ClampExact (blob : List UInt8) (h : Header) (s : Section) : Prop where
  some : ∀ off len, s.dataRange = some (off, len) →
    off = s.fileOff.toNat ∧ 1 ≤ len ∧ off + len ≤ blob.length ∧
      len = min (min h.fileSize.toNat (blob.length - off)) MAX_SECTION_BYTES ∧
      len ≤ s.size.toNat ∧ s.bytes blob = slice blob off (off + len)
  none : s.dataRange = none →
    s.bytes blob = [] ∧ (h.skip = true ∨ blob.length ≤ s.fileOff.toNat ∨ h.fileSize = 0)

theorem clampRange_eq_none (off len : UInt64) (blobLen : ℕ) :
    clampRange Build.release.usizeMax off len blobLen = none ↔
      blobLen ≤ off.toNat ∨ len = 0 := by
  have hlen : len = 0 ↔ len.toNat = 0 := by
    rw [← UInt64.toNat_inj, UInt64.toNat_zero]
  have hcap : MAX_SECTION_BYTES ≠ 0 := by decide
  rw [clampRange_release, hlen]
  split
  · rename_i hzero
    exact iff_of_true rfl (by omega)
  · rename_i hpos
    exact iff_of_false (Option.some_ne_none _) (by omega)

namespace Header

theorem row_dataRange_eq_none (blob : List UInt8) (h : Header) :
    (h.row blob).dataRange = none ↔
      h.skip = true ∨ blob.length ≤ h.offset.toNat ∨ h.fileSize = 0 := by
  rw [row_dataRange]
  split
  · rename_i hskip
    exact iff_of_true rfl (Or.inl hskip)
  · rename_i hskip
    rw [or_iff_right hskip]
    exact clampRange_eq_none _ _ _

/-- A range is as long as it can be. -/
theorem row_dataRange_len {blob : List UInt8} {h : Header} {off len : ℕ}
    (hrange : (h.row blob).dataRange = some (off, len)) :
    len = min (min h.fileSize.toNat (blob.length - off)) MAX_SECTION_BYTES := by
  rw [row_dataRange, clampRange_release] at hrange
  split at hrange
  · cases hrange
  · split at hrange
    · cases hrange
    · cases hrange
      exact Nat.min_right_comm _ _ _

theorem row_clampExact (blob : List UInt8) (h : Header) : ClampExact blob h (h.row blob) where
  some := by
    intro off len hrange
    have hclamped := h.row_clamped blob
    obtain ⟨hoff, hpos, hsize, hend, -⟩ := hclamped off len hrange
    refine ⟨hoff, hpos, hend, row_dataRange_len hrange, hsize, ?_⟩
    rw [(hclamped.bytes_of_some hrange).1, slice, List.drop_take, Nat.add_sub_cancel_left]
  none := by
    intro hrange
    refine ⟨Section.bytes_of_none hrange, ?_⟩
    rw [row_fileOff]
    exact (h.row_dataRange_eq_none blob).mp hrange

end Header

/-- A fact about the row of every header within the cap, as one about headers and rows. -/
theorem forall₂_headers_sections {K : Crates} {blob : List UInt8} {R : Header → Section → Prop} :
    List.Forall₂ R ((K.headers blob).take MAX_SECTIONS) (sections K blob) ↔
      ∀ h ∈ (K.headers blob).take MAX_SECTIONS, R h (h.row blob) := by
  rw [sections_eq, List.forall₂_map_right_iff, List.forall₂_same]

/-- **Clamping is safe and exact.**  Row by row, whatever the headers declare: a range starts at
the file offset, is not empty, ends in the blob and within the declared size, is the declared
number of file bytes cut at the blob's end and the byte cap, and is what `bytes` gives; without a
range there are no bytes, and the header is marked as having none, starts behind the blob or
declares none. -/
theorem sections_clampExact (K : Crates) (blob : List UInt8) :
    List.Forall₂ (ClampExact blob) ((K.headers blob).take MAX_SECTIONS) (sections K blob) :=
  forall₂_headers_sections.mpr fun h _ => h.row_clampExact blob

/-! ### Sections without file content -/

def S_GB_ZEROFILL : UInt32 := 0xc
def S_THREAD_LOCAL_ZEROFILL : UInt32 := 0x12

/-- The section type, in the low 8 bits of the flags. -/
def MachSection.type (sect : MachSection) : UInt32 := sect.flags &&& 0xff

/-- A zero-fill type that `mach_sections` does not know. -/
def MachSection.otherZerofill (sect : MachSection) : Bool :=
  sect.type == S_GB_ZEROFILL || sect.type == S_THREAD_LOCAL_ZEROFILL

/-- The format gives the section no file content. -/
def Header.withoutContent : Header → Bool
  | .elf _ sh => sh.shType == SHT_NOBITS
  | .pe _ s => s.characteristics &&& IMAGE_SCN_CNT_UNINIT != 0 && s.sizeOfRawData == 0
  | .mach _ sect => sect.type == S_TYPE_ZEROFILL || sect.otherZerofill

/-- No byte of the blob is the section's: none in its range, none in its entropy, and a sweep of
it appends nothing. -/
structure NothingBorrowed (blob : List UInt8) (s : Section) : Prop where
  range : s.dataRange = none
  bytes : s.bytes blob = []
  entropy : s.entropy = 0.0
  swept : ∀ cs base out maxTotal, (sweepInto cs (s.bytes blob) base out maxTotal).1 = out

/-- Every section without file content borrows none. -/
def NoBytesBorrowed (K : Crates) (blob : List UInt8) : Prop :=
  List.Forall₂ (fun h s => h.withoutContent = true → NothingBorrowed blob s)
    ((K.headers blob).take MAX_SECTIONS) (sections K blob)

theorem Header.nothingBorrowed_iff (blob : List UInt8) (h : Header) :
    NothingBorrowed blob (h.row blob) ↔ (h.row blob).dataRange = none := by
  constructor
  · exact fun hnone => hnone.range
  · intro hrange
    have hbytes : (h.row blob).bytes blob = [] := Section.bytes_of_none hrange
    refine ⟨hrange, hbytes, ?_, fun cs base out maxTotal => ?_⟩
    · rw [h.row_entropy, hbytes]
      rfl
    · rw [hbytes]
      rfl

/-- Only the two unknown types are not skipped. -/
theorem Header.skip_of_withoutContent {h : Header} (hwithout : h.withoutContent = true) :
    h.skip = true ∨ ∃ segname sect, h = .mach segname sect ∧ sect.otherZerofill = true := by
  cases h with
  | elf e sh => exact Or.inl hwithout
  | pe p s => exact Or.inl (Bool.and_eq_true_iff.mp hwithout).1
  | mach segname sect =>
    rcases Bool.or_eq_true_iff.mp hwithout with hplain | hother
    · exact Or.inl hplain
    · exact Or.inr ⟨segname, sect, rfl, hother⟩

theorem MachSection.not_zerofill {sect : MachSection} (h : sect.otherZerofill = true) :
    zerofill sect = false := by
  rw [otherZerofill, Bool.or_eq_true, beq_iff_eq, beq_iff_eq] at h
  have htype : zerofill sect = (sect.type == S_TYPE_ZEROFILL) := rfl
  rcases h with h | h
  · rw [htype, h]
    decide
  · rw [htype, h]
    decide

/-- **When no section borrows bytes.**  For every blob: exactly when each Mach-O section of one
of the two other zero-fill types, among the first `MAX_SECTIONS` headers, is empty or starts
behind the blob. -/
theorem noBytesBorrowed_iff (K : Crates) (blob : List UInt8) :
    NoBytesBorrowed K blob ↔
      ∀ segname sect, Header.mach segname sect ∈ (K.headers blob).take MAX_SECTIONS →
        sect.otherZerofill = true → blob.length ≤ sect.offset.toNat ∨ sect.size = 0 := by
  rw [NoBytesBorrowed, forall₂_headers_sections]
  simp only [Header.nothingBorrowed_iff, Header.row_dataRange_eq_none]
  constructor
  · intro h segname sect hmem hother
    have hwithout : (Header.mach segname sect).withoutContent = true :=
      Bool.or_eq_true_iff.mpr (Or.inr hother)
    rcases h _ hmem hwithout with hskip | hrange
    · exact absurd hskip (Bool.eq_false_iff.mp (MachSection.not_zerofill hother))
    · have hoff : sect.offset.toUInt64.toNat = sect.offset.toNat := UInt32.toNat_toUInt64 _
      rwa [Header.offset, hoff] at hrange
  · intro h hdr hmem hwithout
    rcases Header.skip_of_withoutContent hwithout with hskip | ⟨segname, sect, rfl, hother⟩
    · exact Or.inl hskip
    · right
      have hoff : sect.offset.toUInt64.toNat = sect.offset.toNat := UInt32.toNat_toUInt64 _
      rw [Header.offset, hoff]
      exact h segname sect hmem hother

namespace Fixtures

/-- A `__DATA,__thread_bss` header: 16 bytes of thread-local zero-fill, at offset 0 as linkers
write it. -/
def threadBss : MachSection where
  name := some "__thread_bss"
  addr := 0x2000
  size := 16
  offset := 0
  flags := 0x12

def machTls : MachO where
  cputype := Probe.CPU_TYPE_X86_64
  is64 := true
  littleEndian := true
  entry := 0
  segments := [⟨some "__DATA", some [threadBss]⟩]

def dataSegname : List UInt8 := [0x5f, 0x5f, 0x44, 0x41, 0x54, 0x41] ++ le 10 0

def threadBssSectname : List UInt8 :=
  [0x5f, 0x5f, 0x74, 0x68, 0x72, 0x65, 0x61, 0x64, 0x5f, 0x62, 0x73, 0x73] ++ le 4 0

/-- The file of `machTls`: header and one `LC_SEGMENT_64` without file bytes. -/
def machTlsBlob : List UInt8 :=
  [0xcf, 0xfa, 0xed, 0xfe] ++ le 4 0x01000007 ++ le 4 3 ++ le 4 1 ++ le 4 1 ++ le 4 152 ++ le 8 0 ++
    le 4 0x19 ++ le 4 152 ++ dataSegname ++ le 8 0x2000 ++ le 8 16 ++ le 8 0 ++ le 8 0 ++ le 4 7 ++
    le 4 3 ++ le 4 1 ++ le 4 0 ++
    threadBssSectname ++ dataSegname ++ le 8 0x2000 ++ le 8 16 ++ le 4 0 ++ le 4 4 ++ le 8 0 ++
    le 4 0x12 ++ le 12 0

def machTlsCrates : Crates := crates [(machTlsBlob, .mach (.binary machTls))] []

end Fixtures

/-- Sixteen bytes of thread-local zero-fill at offset 0: the Mach-O header itself. -/
theorem thread_bss_reads_header :
    (sections Fixtures.machTlsCrates Fixtures.machTlsBlob).map (·.dataRange) = [some (0, 16)] ∧
      ¬ NoBytesBorrowed Fixtures.machTlsCrates Fixtures.machTlsBlob := by
  have hobj : Fixtures.machTlsCrates.objectParse Fixtures.machTlsBlob =
      some (.mach (.binary Fixtures.machTls)) := Fixtures.crates_objectParse _ _ _
  have hheaders : Fixtures.machTlsCrates.headers Fixtures.machTlsBlob =
      [.mach "__DATA" Fixtures.threadBss] := by
    rw [Crates.headers, hobj]
    rfl
  have hrange : (Header.row Fixtures.machTlsBlob (.mach "__DATA" Fixtures.threadBss)).dataRange =
      some (0, 16) := by decide +kernel
  constructor
  · rw [sections_eq, hheaders]
    exact congrArg (fun range => [range]) hrange
  · intro h
    rw [NoBytesBorrowed, forall₂_headers_sections, hheaders] at h
    have hnone := (h _ List.mem_cons_self (by decide)).range
    rw [hrange] at hnone
    cases hnone

end VgiDisasm
