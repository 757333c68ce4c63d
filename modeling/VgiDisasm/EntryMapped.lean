import VgiDisasm.EntryBytes

/-!
# The section of the entry

The search for the section of an entry runs over every section row.  Sections that are not
loaded have address 0 and any size, and a container without an entry point has the entry 0:
`entryNamed_iff` says when the search nevertheless names the loaded section of a real entry.
-/

namespace VgiDisasm

/-! ### Entries and mapped sections -/

def LC_MAIN : UInt32 := 0x80000028
def LC_UNIXTHREAD : UInt32 := 0x5
def SHF_ALLOC : UInt64 := 0x2

def MachO.declaresEntry (macho : MachO) : Bool :=
  macho.loadCommands.contains LC_MAIN || macho.loadCommands.contains LC_UNIXTHREAD

/-- The container names an entry point. -/
def Object.declaresEntry : Object → Bool
  | .elf e => e.entry != 0
  | .pe p => p.entry != 0
  | .mach (.binary macho) => macho.declaresEntry
  | .mach (.fat fat) => fat.firstMachO.any (·.declaresEntry)
  | .other => false

def Crates.declaresEntry (K : Crates) (blob : List UInt8) : Bool :=
  (K.objectParse blob).any (·.declaresEntry)

/-- The loader puts the section at its address. -/
def Header.mapped : Header → Bool
  | .elf _ sh => sh.shFlags &&& SHF_ALLOC != 0
  | .pe _ _ => true
  | .mach _ _ => true

/-- Where the file has the byte at `va`. -/
def Header.fileOffOf (h : Header) (va : UInt64) : UInt64 := h.offset + (va - h.addr)

/-- `h` is the first mapped section of the table whose range contains `va`. -/
def MappedAt (K : Crates) (blob : List UInt8) (va : UInt64) (h : Header) : Prop :=
  (K.headers blob).find? (fun h => h.mapped && h.containsVa va) = some h

/-- A section is named, and an offset given, only for a declared entry, and then those of the
first mapped section that contains it; without a declared entry the probe has none. -/
structure EntryNamed (K : Crates) (blob : List UInt8) : Prop where
  absent : K.declaresEntry blob = false → (probe K blob).entry = none
  sect : ∀ name, (entrypoint K blob).sect = some name →
    K.declaresEntry blob = true ∧
      ∃ va h, (probe K blob).entry = some va ∧ MappedAt K blob va h ∧ name = h.name
  fileOff : ∀ o, (entrypoint K blob).fileOff = some o →
    K.declaresEntry blob = true ∧
      ∃ va h, (probe K blob).entry = some va ∧ MappedAt K blob va h ∧ o = h.fileOffOf va

/-- The entry, if there is one, is declared, and the first section that contains it is mapped
or looks like the first mapped one. -/
def EntryMapped (K : Crates) (blob : List UInt8) : Prop :=
  ∀ va, (probe K blob).entry = some va →
    K.declaresEntry blob = true ∧
      ∀ h, ((K.headers blob).take MAX_SECTIONS).find? (·.containsVa va) = some h →
        h.mapped = true ∨
          ∃ h', MappedAt K blob va h' ∧ h'.name = h.name ∧ h'.fileOffOf va = h.fileOffOf va

/-! ### The first section and the first mapped one -/

theorem find?_and_of_find?_take {α : Type*} {p q : α → Bool} {n : ℕ} {l : List α} {a : α}
    (h : (l.take n).find? q = some a) (hp : p a = true) :
    l.find? (fun x => p x && q x) = some a := by
  obtain ⟨hq, front, back, hsplit, hfront⟩ := List.find?_eq_some_iff_append.mp h
  refine List.find?_eq_some_iff_append.mpr ⟨by simp [hp, hq], front, back ++ l.drop n, ?_, ?_⟩
  · rw [← List.cons_append, ← List.append_assoc, ← hsplit, List.take_append_drop]
  · intro x hx
    simp only [Bool.not_eq_true', Bool.and_eq_false_iff]
    exact Or.inr (by simpa using hfront x hx)

/-- A mapped first section is the first mapped section. -/
theorem mappedAt_of_mapped {K : Crates} {blob : List UInt8} {va : UInt64} {h : Header}
    (hfind : ((K.headers blob).take MAX_SECTIONS).find? (·.containsVa va) = some h)
    (hmapped : h.mapped = true) : MappedAt K blob va h :=
  find?_and_of_find?_take hfind hmapped

section Reported

variable {K : Crates} {blob : List UInt8} {va : UInt64} (hva : (probe K blob).entry = some va)

include hva

theorem sect_of_entry :
    (entrypoint K blob).sect =
      (((K.headers blob).take MAX_SECTIONS).find? (·.containsVa va)).map Header.name := by
  rw [sect_eq, hva, Option.bind_some, find?_sections, Option.map_map]
  simp only [Function.comp_def, Header.row_name]

theorem fileOff_of_entry :
    (entrypoint K blob).fileOff =
      (((K.headers blob).take MAX_SECTIONS).find? (·.containsVa va)).map
        fun h => h.fileOffOf va := by
  rw [fileOff_eq, hva, Option.bind_some, find?_sections, Option.map_map]
  simp only [Function.comp_def, Header.row_fileOff, Header.row_vaddr, Header.fileOffOf]

end Reported

/-- A name comes from a header that contains the entry. -/
theorem exists_of_sect {K : Crates} {blob : List UInt8} {name : String}
    (h : (entrypoint K blob).sect = some name) :
    ∃ va hdr, (probe K blob).entry = some va ∧
      ((K.headers blob).take MAX_SECTIONS).find? (·.containsVa va) = some hdr ∧
        hdr.name = name := by
  have hentry := h
  rw [sect_eq] at hentry
  obtain ⟨va, hva, -⟩ := Option.bind_eq_some_iff.mp hentry
  rw [sect_of_entry hva] at h
  obtain ⟨hdr, hfind, hname⟩ := Option.map_eq_some_iff.mp h
  exact ⟨va, hdr, hva, hfind, hname⟩

/-- So does an offset. -/
theorem exists_of_fileOff {K : Crates} {blob : List UInt8} {o : UInt64}
    (h : (entrypoint K blob).fileOff = some o) :
    ∃ va hdr, (probe K blob).entry = some va ∧
      ((K.headers blob).take MAX_SECTIONS).find? (·.containsVa va) = some hdr ∧
        hdr.fileOffOf va = o := by
  obtain ⟨va, s, hs⟩ := fileOff_eq_some h
  rw [fileOff_of_entry hs.entry] at h
  obtain ⟨hdr, hfind, ho⟩ := Option.map_eq_some_iff.mp h
  exact ⟨va, hdr, hs.entry, hfind, ho⟩

/-- **When an entry's section is the one it is loaded from**: exactly when the blob is
`EntryMapped`. -/
theorem entryNamed_iff (K : Crates) (blob : List UInt8) :
    EntryNamed K blob ↔ EntryMapped K blob := by
  constructor
  · intro h va hva
    refine ⟨?_, fun hdr hfind => ?_⟩
    · by_contra hundeclared
      have habsent := h.absent (Bool.eq_false_iff.mpr hundeclared)
      rw [hva] at habsent
      cases habsent
    · have hsect := sect_of_entry hva
      have hoff := fileOff_of_entry hva
      rw [hfind, Option.map_some] at hsect hoff
      obtain ⟨-, va', hdr', hva', hat, hname⟩ := h.sect _ hsect
      obtain ⟨-, va'', hdr'', hva'', hat', ho⟩ := h.fileOff _ hoff
      cases hva.symm.trans hva'
      cases hva.symm.trans hva''
      cases hat.symm.trans hat'
      exact Or.inr ⟨hdr', hat, hname.symm, ho.symm⟩
  · intro h
    -- the section found stands for the first mapped one
    have hmapped : ∀ va hdr, (probe K blob).entry = some va →
        ((K.headers blob).take MAX_SECTIONS).find? (·.containsVa va) = some hdr →
          ∃ hdr', MappedAt K blob va hdr' ∧ hdr'.name = hdr.name ∧
            hdr'.fileOffOf va = hdr.fileOffOf va := by
      intro va hdr hva hfind
      rcases (h va hva).2 hdr hfind with hm | hlike
      · exact ⟨hdr, mappedAt_of_mapped hfind hm, rfl, rfl⟩
      · exact hlike
    refine ⟨fun hundeclared => ?_, fun name hname => ?_, fun o ho => ?_⟩
    · rw [Option.eq_none_iff_forall_not_mem]
      intro va hva
      rw [(h va hva).1] at hundeclared
      cases hundeclared
    · obtain ⟨va, hdr, hva, hfind, rfl⟩ := exists_of_sect hname
      obtain ⟨hdr', hat, hlike, -⟩ := hmapped va hdr hva hfind
      exact ⟨(h va hva).1, va, hdr', hva, hat, hlike.symm⟩
    · obtain ⟨va, hdr, hva, hfind, rfl⟩ := exists_of_fileOff ho
      obtain ⟨hdr', hat, -, hlike⟩ := hmapped va hdr hva hfind
      exact ⟨(h va hva).1, va, hdr', hva, hat, hlike.symm⟩

namespace Fixtures

/-- A shared object without an entry point, stripped down to its section names. -/
def elfNoEntry : Elf := elf64Named Probe.EM_X86_64 0 shstrtab []

def elfNoEntryBlob : List UInt8 := elf64NamedBlob elfNoEntry shstrtab

def elfNoEntryCrates : Crates := crates [(elfNoEntryBlob, .elf elfNoEntry)] []

end Fixtures

/-- Without an entry point the entry is 0, and that is in the unmapped `.shstrtab`. -/
theorem shstrtab_named :
    (entrypoint Fixtures.elfNoEntryCrates Fixtures.elfNoEntryBlob).sect = some ".shstrtab" ∧
      (entrypoint Fixtures.elfNoEntryCrates Fixtures.elfNoEntryBlob).fileOff = some 64 ∧
      ¬ EntryNamed Fixtures.elfNoEntryCrates Fixtures.elfNoEntryBlob := by
  have hobj : Fixtures.elfNoEntryCrates.objectParse Fixtures.elfNoEntryBlob =
      some (.elf Fixtures.elfNoEntry) := Fixtures.crates_objectParse _ _ _
  have hva := probe_entry_of_some hobj
  have hheaders : Fixtures.elfNoEntryCrates.headers Fixtures.elfNoEntryBlob =
      (Object.elf Fixtures.elfNoEntry).headers := by
    rw [Crates.headers, hobj]
  refine ⟨?_, ?_, fun h => ?_⟩
  · rw [sect_of_entry hva, hheaders]
    decide +kernel
  · rw [fileOff_of_entry hva, hheaders]
    decide +kernel
  · have habsent := h.absent (by rw [Crates.declaresEntry, hobj]; decide)
    rw [hva] at habsent
    cases habsent

end VgiDisasm
