import VgiDisasm.EntryRows
import VgiDisasm.Fixtures

/-!
# Overflow of the address arithmetic

Three `u64` additions take their operands straight from header fields: image base plus entry
RVA in the probe, image base plus section RVA in the PE enumeration, file offset plus distance
in the entry point.  Under the checked build each of them is `none` where it overflows, so
"no addition overflows" is "the checked build returns, and returns what the release build
does".  `noOverflow_iff` turns that into bounds on the header fields alone.
-/

namespace VgiDisasm

open VgiDisasm.Capped

/-! ### Probe -/

/-- Image base plus entry RVA fits. -/
def Object.EntryFits : Object → Prop
  | .pe p => p.imageBase.toNat + p.entry.toNat < 2 ^ 64
  | _ => True

theorem objectProbe_checked_cases (obj : Object) :
    (Probe.objectProbe Build.checked obj = none ∧ ¬ obj.EntryFits) ∨
      (Probe.objectProbe Build.checked obj =
          some (Id.run (Probe.objectProbe Build.release obj)) ∧ obj.EntryFits) := by
  cases obj with
  | pe p =>
    rcases em (p.imageBase.toNat + p.entry.toUInt64.toNat < 2 ^ 64) with h | h
    · exact Or.inr ⟨Build.checked_bind_of_fits h _, by rwa [UInt32.toNat_toUInt64] at h⟩
    · exact Or.inl ⟨Build.checked_bind_of_overflow h _, by rwa [UInt32.toNat_toUInt64] at h⟩
  | elf e => exact Or.inr ⟨rfl, trivial⟩
  | mach mach => cases mach <;> exact Or.inr ⟨rfl, trivial⟩
  | other => exact Or.inr ⟨rfl, trivial⟩

theorem objectProbe_checked (obj : Object) :
    Probe.objectProbe Build.checked obj =
        some (Id.run (Probe.objectProbe Build.release obj)) ↔ obj.EntryFits := by
  rcases objectProbe_checked_cases obj with ⟨hp, hfits⟩ | ⟨hp, hfits⟩ <;> simp [hp, hfits]

/-! ### Sections -/

/-- Image base plus section RVA fits. -/
def Header.AddrFits : Header → Prop
  | .pe p s => p.imageBase.toNat + s.virtualAddress.toNat < 2 ^ 64
  | _ => True

theorem Header.rowWith_checked_cases (blob : List UInt8) (h : Header) :
    (h.rowWith Build.checked blob = none ∧ ¬ h.AddrFits) ∨
      (h.rowWith Build.checked blob = some (h.row blob) ∧ h.AddrFits) := by
  cases h with
  | pe p s =>
    rcases em (p.imageBase.toNat + s.virtualAddress.toUInt64.toNat < 2 ^ 64) with h | h
    · exact Or.inr ⟨Build.checked_bind_of_fits h _, by rwa [UInt32.toNat_toUInt64] at h⟩
    · exact Or.inl ⟨Build.checked_bind_of_overflow h _, by rwa [UInt32.toNat_toUInt64] at h⟩
  | elf e sh => exact Or.inr ⟨rfl, trivial⟩
  | mach segname sect => exact Or.inr ⟨rfl, trivial⟩

theorem Header.rowWith_checked (blob : List UInt8) (h : Header) :
    h.rowWith Build.checked blob = some (h.row blob) ↔ h.AddrFits := by
  rcases h.rowWith_checked_cases blob with ⟨hrow, hfits⟩ | ⟨hrow, hfits⟩ <;> simp [hrow, hfits]

theorem sectionsWith_checked (K : Crates) (blob : List UInt8) :
    sectionsWith Build.checked K blob = some (sections K blob) ↔
      ∀ h ∈ (K.headers blob).take MAX_SECTIONS, h.AddrFits := by
  have hfg : ∀ h : Header, h.rowWith Build.checked blob = none ∨
      h.rowWith Build.checked blob = some (h.row blob) := fun h =>
    (h.rowWith_checked_cases blob).imp And.left And.left
  have hloop := pushCappedM_option MAX_SECTIONS hfg (K.headers blob) []
  have hpure : sections K blob = pushCapped MAX_SECTIONS (Header.row blob) (K.headers blob) [] := by
    rw [sections_eq, pushCapped_eq]
    rfl
  simp only [Header.rowWith_checked, List.length_nil, Nat.sub_zero] at hloop
  rw [sectionsWith_eq, ← hloop, hpure]
  rcases pushCappedM_option_cases MAX_SECTIONS hfg (K.headers blob) [] with hnone | hsome
  · simp [hnone]
  · rw [hsome]
    refine iff_of_true ?_ rfl
    rw [← hpure, sections_eq]
    simp

/-! ### Entry point -/

/-- File offset plus distance fits, in the first enumerated header that contains the entry. -/
def Object.OffsetFits (obj : Object) : Prop :=
  ∀ va h, obj.entry = some va →
    (obj.headers.take MAX_SECTIONS).find? (·.containsVa va) = some h →
      h.offset.toNat + (va - h.addr).toNat < 2 ^ 64

theorem locate_checked (p : Probe) (secs : List Section) :
    locate Build.checked p secs = some (Id.run (locate Build.release p secs)) ↔
      ∀ va s, p.entry = some va → secs.find? (·.containsVa va) = some s →
        s.fileOff.toNat + (va - s.vaddr).toNat < 2 ^ 64 := by
  cases hentry : p.entry with
  | none =>
    refine iff_of_true (by simp only [locate, hentry]; rfl) ?_
    intro va s hva
    cases hva
  | some va =>
    cases hfind : secs.find? (·.containsVa va) with
    | none =>
      refine iff_of_true (by simp only [locate, hentry, Option.bind_some, hfind]; rfl) ?_
      intro va' s hva hs
      cases hva
      rw [hfind] at hs
      cases hs
    | some s =>
      have hfits : (∀ va' s', some va = some va' → secs.find? (·.containsVa va') = some s' →
          s'.fileOff.toNat + (va' - s'.vaddr).toNat < 2 ^ 64) ↔
            s.fileOff.toNat + (va - s.vaddr).toNat < 2 ^ 64 := by
        constructor
        · intro h
          exact h va s rfl hfind
        · intro h va' s' hva hs
          cases hva
          rw [hfind] at hs
          cases hs
          exact h
      rw [hfits]
      simp only [locate, hentry, Option.bind_some, hfind]
      rcases em (s.fileOff.toNat + (va - s.vaddr).toNat < 2 ^ 64) with h | h
      · refine iff_of_true ?_ h
        rw [map_eq_pure_bind, bind_assoc, Build.checked_bind_of_fits h]
        rfl
      · refine iff_of_false ?_ h
        rw [map_eq_pure_bind, bind_assoc, Build.checked_bind_of_overflow h]
        exact nofun

/-! ### The three functions -/

/-- No addition overflows: the checked build returns what the release build returns. -/
def NoOverflow (K : Crates) (blob : List UInt8) : Prop :=
  probeWith Build.checked K blob = some (probe K blob) ∧
    sectionsWith Build.checked K blob = some (sections K blob) ∧
    entrypointWith Build.checked K blob = some (entrypoint K blob)

/-- Every address addition on the container's header fields fits. -/
def Object.AdditionsFit : Object → Prop
  | .pe p =>
    p.imageBase.toNat + p.entry.toNat < 2 ^ 64 ∧
      ∀ s ∈ p.sections.take MAX_SECTIONS, p.imageBase.toNat + s.virtualAddress.toNat < 2 ^ 64
  | obj => obj.OffsetFits

/-- In a PE the distance and the offset are 32-bit numbers: their sum always fits. -/
theorem Object.offsetFits_pe (p : PE) : (Object.pe p).OffsetFits := by
  intro va h _ hfind
  have hdist := Header.sub_addr_lt (List.find?_some (p := fun h : Header => h.containsVa va) hfind)
  obtain ⟨s, -, rfl⟩ := List.mem_map.mp (List.mem_of_mem_take (List.mem_of_find?_eq_some hfind))
  have hsize : (Header.pe p s).size.toNat < 2 ^ 32 := s.virtualSize.toNat_lt
  have hoff : (Header.pe p s).offset.toNat < 2 ^ 32 := s.pointerToRawData.toNat_lt
  omega

theorem MachO.pe_not_mem_headers (macho : MachO) (p : PE) (s : SectionTable) :
    Header.pe p s ∉ macho.headers := by
  simp [MachO.headers]

/-- Only a PE has PE headers. -/
theorem Object.pe_of_mem_headers {obj : Object} {p : PE} {s : SectionTable}
    (h : Header.pe p s ∈ obj.headers) : obj = .pe p := by
  cases obj with
  | elf e => simp [Object.headers] at h
  | pe p' =>
    obtain ⟨s', -, heq⟩ := List.mem_map.mp h
    cases heq
    rfl
  | mach mach =>
    cases mach with
    | binary macho => exact absurd h (macho.pe_not_mem_headers p s)
    | fat fat =>
      rw [Object.headers] at h
      cases hfirst : fat.firstMachO with
      | none =>
        rw [hfirst] at h
        cases h
      | some macho =>
        rw [hfirst] at h
        exact absurd h (macho.pe_not_mem_headers p s)
  | other => cases h

theorem Object.addrFits_of_ne_pe {obj : Object} (h : ∀ p, obj ≠ .pe p) :
    ∀ hdr ∈ obj.headers, hdr.AddrFits := by
  intro hdr hmem
  cases hdr with
  | pe p s => exact absurd (Object.pe_of_mem_headers hmem) (h p)
  | elf e sh => trivial
  | mach segname sect => trivial

/-- An ELF or a Mach-O adds in the entry point alone. -/
theorem Object.fits_iff_of_ne_pe {obj : Object} (h : ∀ p, obj ≠ .pe p) (hentry : obj.EntryFits) :
    obj.OffsetFits ↔
      obj.EntryFits ∧ (∀ h ∈ obj.headers.take MAX_SECTIONS, h.AddrFits) ∧ obj.OffsetFits := by
  have haddr : ∀ hdr ∈ obj.headers.take MAX_SECTIONS, hdr.AddrFits := fun hdr hmem =>
    Object.addrFits_of_ne_pe h hdr (List.mem_of_mem_take hmem)
  exact ⟨fun hoffset => ⟨hentry, haddr, hoffset⟩, fun hall => hall.2.2⟩

/-- The condition covers all three additions. -/
theorem Object.additionsFit_iff (obj : Object) :
    obj.AdditionsFit ↔
      obj.EntryFits ∧ (∀ h ∈ obj.headers.take MAX_SECTIONS, h.AddrFits) ∧ obj.OffsetFits := by
  cases obj with
  | pe p =>
    have haddr : (∀ h ∈ (Object.pe p).headers.take MAX_SECTIONS, h.AddrFits) ↔
        ∀ s ∈ p.sections.take MAX_SECTIONS,
          p.imageBase.toNat + s.virtualAddress.toNat < 2 ^ 64 := by
      rw [Object.headers, ← List.map_take, List.forall_mem_map]
      rfl
    rw [haddr, and_iff_left (Object.offsetFits_pe p)]
    rfl
  | elf e => exact Object.fits_iff_of_ne_pe (fun p h => by cases h) trivial
  | mach mach => exact Object.fits_iff_of_ne_pe (fun p h => by cases h) trivial
  | other => exact Object.fits_iff_of_ne_pe (fun p h => by cases h) trivial

theorem entrypointWith_checked {K : Crates} {blob : List UInt8}
    (hp : probeWith Build.checked K blob = some (probe K blob))
    (hs : sectionsWith Build.checked K blob = some (sections K blob)) :
    entrypointWith Build.checked K blob = some (entrypoint K blob) ↔
      ((probe K blob).container ≠ "raw" → ∀ va s, (probe K blob).entry = some va →
        (sections K blob).find? (·.containsVa va) = some s →
          s.fileOff.toNat + (va - s.vaddr).toNat < 2 ^ 64) := by
  rw [← locate_checked, entrypoint_eq]
  simp only [entrypointWith, hp, hs, Option.bind_eq_bind, Option.bind_some]
  split
  · rename_i hraw
    exact iff_of_true rfl fun hne => absurd hraw hne
  · rename_i hraw
    simp [hraw]

/-- **When no address addition overflows**, as bounds on the parsed header fields: for a PE,
image base plus entry RVA and image base plus each enumerated section RVA (`offsetFits_pe`: the
third addition then fits); for an ELF or a Mach-O, file offset plus distance in the first section
that contains the entry. -/
theorem noOverflow_iff (K : Crates) (blob : List UInt8) :
    NoOverflow K blob ↔ ∀ obj, K.objectParse blob = some obj → obj.AdditionsFit := by
  cases hobj : K.objectParse blob with
  | none =>
    refine iff_of_true ⟨?_, ?_, ?_⟩ (fun obj h => by cases h)
    · simp [probeWith, Probe.parse, hobj, probe_of_none hobj]
    · simp [sectionsWith, Sections.parse, hobj, sections]
    · simp [entrypointWith, entrypoint, probeWith, Probe.parse, hobj, Probe.raw]
  | some obj =>
    simp only [Object.additionsFit_iff]
    have hheaders : K.headers blob = obj.headers := by rw [Crates.headers, hobj]
    have hprobe : probeWith Build.checked K blob = some (probe K blob) ↔ obj.EntryFits := by
      rw [probe_of_some hobj, probeWith_of_some Build.checked hobj, objectProbe_checked]
    have hentry := probe_entry_of_some hobj
    have hsections := sectionsWith_checked K blob
    rw [hheaders] at hsections
    have hoffset : ((probe K blob).container ≠ "raw" → ∀ va s, (probe K blob).entry = some va →
        (sections K blob).find? (·.containsVa va) = some s →
          s.fileOff.toNat + (va - s.vaddr).toNat < 2 ^ 64) ↔ obj.OffsetFits := by
      simp only [hentry, find?_sections, hheaders]
      constructor
      · intro h va hdr hva hfind
        have hraw : (probe K blob).container ≠ "raw" := by
          intro hraw
          rw [← hentry, probe_entry_of_raw hraw] at hva
          cases hva
        simpa using h hraw va (hdr.row blob) hva (by rw [hfind]; rfl)
      · intro h _ va s hva hs
        obtain ⟨hdr, hfind, rfl⟩ := Option.map_eq_some_iff.mp hs
        simpa using h va hdr hva hfind
    constructor
    · rintro ⟨hp, hs, he⟩ obj' hobj'
      cases hobj'
      exact ⟨hprobe.mp hp, hsections.mp hs, hoffset.mp ((entrypointWith_checked hp hs).mp he)⟩
    · intro h
      obtain ⟨hentryFits, haddr, hoff⟩ := h obj rfl
      have hp := hprobe.mpr hentryFits
      have hs := hsections.mpr haddr
      exact ⟨hp, hs, (entrypointWith_checked hp hs).mpr (hoffset.mpr hoff)⟩

namespace Fixtures

/-- An image base one page below `2^64`, and a page-sized entry RVA. -/
def peHigh : PE := pe64 0xfffffffffffff000

def peHighBlob : List UInt8 := pe64Blob 0xfffffffffffff000

def peHighCrates : Crates := crates [(peHighBlob, .pe peHigh)] []

end Fixtures

/-- A PE with image base `2^64 - 0x1000` and entry RVA 0x1000: with overflow checks the probe
panics, without them it reports entry 0. -/
theorem pe_image_base_overflows :
    ¬ NoOverflow Fixtures.peHighCrates Fixtures.peHighBlob ∧
      probeWith Build.checked Fixtures.peHighCrates Fixtures.peHighBlob = none ∧
      (probe Fixtures.peHighCrates Fixtures.peHighBlob).entry = some 0 := by
  have hobj : Fixtures.peHighCrates.objectParse Fixtures.peHighBlob = some (.pe Fixtures.peHigh) :=
    Fixtures.crates_objectParse _ _ _
  have hprobe : probeWith Build.checked Fixtures.peHighCrates Fixtures.peHighBlob = none := by
    rw [probeWith_of_some Build.checked hobj]
    rfl
  refine ⟨?_, hprobe, ?_⟩
  · rintro ⟨hp, -⟩
    rw [hprobe] at hp
    cases hp
  · rw [probe_entry_of_some hobj]
    rfl

end VgiDisasm
