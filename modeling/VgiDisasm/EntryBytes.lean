import VgiDisasm.EntryRows
import VgiDisasm.Fixtures

/-!
# The file byte of the entry

`entrypoint` adds the entry's distance into its section to the section's file offset.  Whether
the file has a byte there is what the section's clamped range says, and `entrypoint` does not
look at it; and the distance of a Thumb entry counts the marker bit.  `fileOffReal_iff` says
when neither shows.
-/

namespace VgiDisasm

/-! ### The entry byte -/

/-- An ELF ARM entry with the Thumb marker bit. -/
def Probe.isElfThumb (p : Probe) : Bool := p.container == "elf" && p.mode == some "thumb"

/-- The address of the entry's first byte, without the marker bit. -/
def Probe.entryByte (p : Probe) (va : UInt64) : UInt64 :=
  if p.isElfThumb then va &&& ~~~1 else va

/-- The file byte at `o` is the one the section has at address `e`. -/
def Section.ByteAt (s : Section) (e : UInt64) (o : ℕ) : Prop :=
  ∃ off len, s.dataRange = some (off, len) ∧ off ≤ o ∧ o < off + len ∧
    o + s.vaddr.toNat = off + e.toNat

/-- `s` is the first section whose address range contains the entry `va`. -/
structure EntrySection (K : Crates) (blob : List UInt8) (va : UInt64) (s : Section) : Prop where
  entry : (probe K blob).entry = some va
  first : (sections K blob).find? (·.containsVa va) = some s

/-- A reported file offset is that of the entry byte, and an entry without a file byte has
none. -/
structure FileOffReal (K : Crates) (blob : List UInt8) : Prop where
  real : ∀ o, (entrypoint K blob).fileOff = some o →
    o.toNat < blob.length ∧
      ∃ va s, EntrySection K blob va s ∧ s.ByteAt ((probe K blob).entryByte va) o.toNat
  absent : ∀ va s, EntrySection K blob va s →
    (∀ o, ¬ s.ByteAt ((probe K blob).entryByte va) o) → (entrypoint K blob).fileOff = none

/-- The entry is not a Thumb entry and is reached by the file bytes of its section, if it has
a section at all. -/
def EntryInBytes (K : Crates) (blob : List UInt8) : Prop :=
  ∀ va s, EntrySection K blob va s →
    (probe K blob).isElfThumb = false ∧
      ∃ off len, s.dataRange = some (off, len) ∧ va.toNat < s.vaddr.toNat + len

namespace EntrySection

variable {K : Crates} {blob : List UInt8} {va : UInt64} {s : Section}

theorem unique (h : EntrySection K blob va s) {va' : UInt64} {s' : Section}
    (h' : EntrySection K blob va' s') : va' = va ∧ s' = s := by
  have hva : va' = va := Option.some.inj (h'.entry.symm.trans h.entry)
  subst hva
  exact ⟨rfl, Option.some.inj (h'.first.symm.trans h.first)⟩

theorem clamped (h : EntrySection K blob va s) : s.Clamped blob.length :=
  sections_clamped (List.mem_of_find?_eq_some h.first)

theorem vaddr_le (h : EntrySection K blob va s) : s.vaddr ≤ va :=
  (le_of_contains (List.find?_some (p := fun s : Section => s.containsVa va) h.first)).1

/-- The entry and its section, from the parsed headers. -/
theorem of_headers {obj : Object} {h : Header} (hobj : K.objectParse blob = some obj)
    (hva : obj.entry = some va)
    (hfind : (obj.headers.take MAX_SECTIONS).find? (·.containsVa va) = some h) :
    EntrySection K blob va (h.row blob) where
  entry := (probe_entry_of_some hobj).trans hva
  first := by
    rw [find?_sections, Crates.headers, hobj]
    exact congrArg (Option.map (Header.row blob)) hfind

theorem fileOff (h : EntrySection K blob va s) :
    (entrypoint K blob).fileOff = some (s.fileOff + (va - s.vaddr)) := by
  rw [fileOff_eq, h.entry, Option.bind_some, h.first, Option.map_some]

end EntrySection

theorem fileOff_eq_some {K : Crates} {blob : List UInt8} {o : UInt64}
    (h : (entrypoint K blob).fileOff = some o) : ∃ va s, EntrySection K blob va s := by
  rw [fileOff_eq] at h
  obtain ⟨va, hva, hmap⟩ := Option.bind_eq_some_iff.mp h
  obtain ⟨s, hs, -⟩ := Option.map_eq_some_iff.mp hmap
  exact ⟨va, s, hva, hs⟩

/-! ### Thumb entries -/

theorem and_not_add_and (a m : UInt64) : (a &&& ~~~m) + (a &&& m) = a := by
  rw [← UInt64.toBitVec_inj, UInt64.toBitVec_add, UInt64.toBitVec_and, UInt64.toBitVec_and,
    UInt64.toBitVec_not, BitVec.add_eq_or_of_and_eq_zero]
  · ext i hi
    cases h : a.toBitVec[i] <;> simp [h, Bool.not_or_self]
  · ext i hi
    cases h : a.toBitVec[i] <;> simp [h]

theorem toNat_clear_bit {va : UInt64} (h : va &&& 1 = 1) :
    (va &&& ~~~1).toNat + 1 = va.toNat := by
  have hsplit := congrArg UInt64.toNat (and_not_add_and va 1)
  rw [h, UInt64.toNat_add, UInt64.toNat_one] at hsplit
  have hle := Nat.and_le_left (n := va.toNat) (m := (~~~(1 : UInt64)).toNat)
  rw [← UInt64.toNat_and] at hle
  have := va.toNat_lt
  omega

theorem elfArch_thumb {machine : UInt16} {big : Bool} {entry : UInt64}
    (h : (Probe.elfArch machine big entry).2 = some "thumb") : entry &&& 1 = 1 := by
  have hendian : Probe.endianStr big ≠ "thumb" := by cases big <;> decide
  revert h
  fun_cases Probe.elfArch machine big entry with
  | case3 =>
    intro h
    by_contra hne
    rw [if_neg hne] at h
    exact absurd h (by decide)
  | _ =>
    -- every other mode is fixed or a byte order
    intro h
    first
      | exact absurd (Option.some.inj h) hendian
      | exact absurd h (by decide)

theorem thumb_odd {K : Crates} {blob : List UInt8} {va : UInt64}
    (hva : (probe K blob).entry = some va) (h : (probe K blob).isElfThumb = true) :
    va &&& 1 = 1 := by
  rw [Probe.isElfThumb, Bool.and_eq_true, beq_iff_eq, beq_iff_eq] at h
  obtain ⟨hcont, hmode⟩ := h
  cases hobj : K.objectParse blob with
  | none =>
    rw [probe_of_none hobj] at hva
    cases hva
  | some obj =>
    rw [probe_of_some hobj] at hva hcont hmode
    cases obj with
    | elf e =>
      cases hva
      exact elfArch_thumb hmode
    | pe p => exact absurd hcont (by decide : ¬ "pe" = "elf")
    | mach mach =>
      cases mach with
      | binary macho => exact absurd hcont (by decide : ¬ "macho" = "elf")
      | fat fat =>
        have hfat : (Probe.fatProbe fat).container = "elf" := hcont
        rw [fatProbe_container] at hfat
        exact absurd hfat (by decide)
    | other => cases hva

/-! ### When the offset is real -/

section Offset

variable {s : Section} {va : UInt64} {blobLen : ℕ} (hclamped : s.Clamped blobLen)
  (hva : s.vaddr ≤ va)

include hclamped hva in
/-- The reported offset is that of the byte at the entry, if the range reaches so far. -/
theorem byteAt_iff (hlen : blobLen ≤ Build.release.usizeMax) :
    s.ByteAt va (s.fileOff + (va - s.vaddr)).toNat ↔
      ∃ off len, s.dataRange = some (off, len) ∧ va.toNat < s.vaddr.toNat + len := by
  have hle : s.vaddr.toNat ≤ va.toNat := hva
  constructor
  · rintro ⟨off, len, hrange, -, hlt, heq⟩
    exact ⟨off, len, hrange, by omega⟩
  · rintro ⟨off, len, hrange, hlt⟩
    obtain ⟨rfl, -, -, hend, -⟩ := hclamped off len hrange
    have husize : blobLen < 2 ^ 64 := Nat.lt_of_le_pred (by decide) hlen
    have hsum : (s.fileOff + (va - s.vaddr)).toNat =
        s.fileOff.toNat + (va.toNat - s.vaddr.toNat) := by
      rw [UInt64.toNat_add, UInt64.toNat_sub_of_le _ _ hva]
      exact Nat.mod_eq_of_lt (by omega)
    rw [hsum]
    exact ⟨_, len, hrange, by omega, by omega, by omega⟩

include hclamped hva in
/-- With the marker bit counted the offset is one too large. -/
theorem not_byteAt_thumb (hodd : va &&& 1 = 1) :
    ¬ s.ByteAt (va &&& ~~~1) (s.fileOff + (va - s.vaddr)).toNat := by
  rintro ⟨off, len, hrange, hle, hlt, heq⟩
  obtain ⟨rfl, -⟩ := hclamped off len hrange
  have hbit := toNat_clear_bit hodd
  have hle' : s.vaddr.toNat ≤ va.toNat := hva
  rw [UInt64.toNat_add, UInt64.toNat_sub_of_le _ _ hva] at heq
  have := va.toNat_lt
  omega

end Offset

/-- **When a reported file offset is real.**  For every blob a slice can hold: exactly when the
entry is `EntryInBytes`. -/
theorem fileOffReal_iff (K : Crates) (blob : List UInt8)
    (hblob : blob.length ≤ Build.release.usizeMax) :
    FileOffReal K blob ↔ EntryInBytes K blob := by
  constructor
  · intro h va s hs
    obtain ⟨-, va', s', hs', hbyte⟩ := h.real _ hs.fileOff
    obtain ⟨rfl, rfl⟩ := hs.unique hs'
    unfold Probe.entryByte at hbyte
    split at hbyte
    · rename_i hthumb
      exact absurd hbyte (not_byteAt_thumb hs.clamped hs.vaddr_le (thumb_odd hs.entry hthumb))
    · rename_i hthumb
      exact ⟨Bool.eq_false_iff.mpr hthumb, (byteAt_iff hs.clamped hs.vaddr_le hblob).mp hbyte⟩
  · intro h
    have hbyte : ∀ va s, EntrySection K blob va s →
        s.ByteAt ((probe K blob).entryByte va) (s.fileOff + (va - s.vaddr)).toNat := by
      intro va s hs
      obtain ⟨hthumb, hrange⟩ := h va s hs
      rw [Probe.entryByte, hthumb]
      exact (byteAt_iff hs.clamped hs.vaddr_le hblob).mpr hrange
    constructor
    · intro o ho
      obtain ⟨va, s, hs⟩ := fileOff_eq_some ho
      have hat := hbyte va s hs
      rw [hs.fileOff] at ho
      cases ho
      refine ⟨?_, va, s, hs, hat⟩
      obtain ⟨off, len, hrange, -, hlt, -⟩ := hat
      have hend := (hs.clamped off len hrange).2.2.2.1
      omega
    · intro va s hs hnone
      exact absurd (hbyte va s hs) (hnone _)

theorem fileOffReal_iff_pe :
    FileOffReal (Fixtures.crates [(Fixtures.pe64Blob 0, .pe (Fixtures.pe64 0))] [])
      (Fixtures.pe64Blob 0) := by
  refine (fileOffReal_iff _ _ (by decide +kernel)).mpr fun va s hs => ?_
  have hobj := Fixtures.crates_objectParse (Fixtures.pe64Blob 0) (.pe (Fixtures.pe64 0)) []
  have hsect : EntrySection _ (Fixtures.pe64Blob 0) 0x1000
      (Header.row (Fixtures.pe64Blob 0) (.pe (Fixtures.pe64 0) Fixtures.textTable)) :=
    .of_headers hobj rfl rfl
  obtain ⟨rfl, rfl⟩ := hsect.unique hs
  rw [probe_of_some hobj, Header.row_dataRange, Header.row_vaddr]
  exact ⟨rfl, 0x200, 1, by decide +kernel, by decide +kernel⟩

namespace Fixtures

/-- An x86-64 object whose entry is in its one section, which has no file bytes; the section
headers start where its file offset points. -/
def elfBss : Elf := elf64 Probe.EM_X86_64 0x2000 [nullShdr, ⟨0, 8, 0x3, 0x2000, 64, 16⟩]

def elfBssBlob : List UInt8 := elf64Blob elfBss []

def elfBssCrates : Crates := crates [(elfBssBlob, .elf elfBss)] []

/-- A 40-byte little-endian ELF32 section header. -/
def elf32Shdr (sh : SectionHeader) : List UInt8 :=
  le 4 sh.shName ++ le 4 sh.shType.toNat ++ le 4 sh.shFlags.toNat ++ le 4 sh.shAddr.toNat ++
    le 4 sh.shOffset.toNat ++ le 4 sh.shSize.toNat ++ le 4 0 ++ le 4 0 ++ le 4 1 ++ le 4 0

/-- A little-endian ELF32: the file header, `data` at offset 52, the section headers. -/
def elf32SectionsBlob (elf : Elf) (data : List UInt8) : List UInt8 :=
  [0x7f, 0x45, 0x4c, 0x46, 1, 1, 1, 0] ++ le 8 0 ++ le 2 2 ++ le 2 elf.eMachine.toNat ++ le 4 1 ++
    le 4 elf.entry.toNat ++ le 4 0 ++ le 4 (52 + data.length) ++ le 4 0 ++ le 2 52 ++ le 2 0 ++
    le 2 0 ++ le 2 40 ++ le 2 elf.sectionHeaders.length ++ le 2 0 ++ data ++
    elf.sectionHeaders.flatMap elf32Shdr

/-- A Thumb program: `bx lr` at 0x8000, and the entry with the marker bit. -/
def elfThumb : Elf :=
  { elf32 Probe.EM_ARM true 0x8001 with sectionHeaders := [nullShdr, execShdr 0x8000 52 2] }

def elfThumbBlob : List UInt8 := elf32SectionsBlob elfThumb [0x70, 0x47]

def elfThumbCrates : Crates := crates [(elfThumbBlob, .elf elfThumb)] []

end Fixtures

/-- The entry of `elfBss` is reported at the first section header, that of `elfThumb` at the
second byte of its `bx lr`. -/
theorem entry_without_byte :
    ((entrypoint Fixtures.elfBssCrates Fixtures.elfBssBlob).fileOff = some 64 ∧
        ¬ FileOffReal Fixtures.elfBssCrates Fixtures.elfBssBlob) ∧
      (entrypoint Fixtures.elfThumbCrates Fixtures.elfThumbBlob).fileOff = some 53 ∧
        ¬ FileOffReal Fixtures.elfThumbCrates Fixtures.elfThumbBlob := by
  have hobj : Fixtures.elfThumbCrates.objectParse Fixtures.elfThumbBlob =
      some (.elf Fixtures.elfThumb) := Fixtures.crates_objectParse _ _ _
  have hbss : EntrySection Fixtures.elfBssCrates Fixtures.elfBssBlob 0x2000 _ :=
    .of_headers (Fixtures.crates_objectParse _ _ _) rfl rfl
  have hthumb : EntrySection Fixtures.elfThumbCrates Fixtures.elfThumbBlob 0x8001 _ :=
    .of_headers hobj rfl rfl
  have hbssOff := hbss.fileOff
  have hthumbOff := hthumb.fileOff
  rw [Header.row_fileOff, Header.row_vaddr] at hbssOff hthumbOff
  refine ⟨⟨hbssOff, fun h => ?_⟩, hthumbOff, fun h => ?_⟩
  · obtain ⟨-, va, s, hs, off, len, hrange, -⟩ := h.real _ hbssOff
    obtain ⟨rfl, rfl⟩ := hbss.unique hs
    rw [Header.row_dataRange] at hrange
    cases hrange
  · obtain ⟨-, va, s, hs, hbyte⟩ := h.real _ hthumb.fileOff
    obtain ⟨rfl, rfl⟩ := hthumb.unique hs
    have hentry : (probe Fixtures.elfThumbCrates Fixtures.elfThumbBlob).entryByte 0x8001 =
        0x8001 &&& ~~~1 := by
      rw [probe_of_some hobj]
      rfl
    rw [hentry] at hbyte
    exact not_byteAt_thumb hthumb.clamped hthumb.vaddr_le (by decide) hbyte

end VgiDisasm
