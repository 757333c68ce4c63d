import VgiDisasm.SectionRows

/-!
# What an entry point is made of

The entry address comes from the header alone (`probe_entry_of_some`); the file offset and the
name come from the first section row that contains it (`fileOff_eq`, `sect_eq`).
-/

namespace VgiDisasm

/-! ### The entry address -/

/-- The entry address a probe reports, wrapped where it does not fit. -/
def Object.entry : Object → Option UInt64
  | .elf e => some e.entry
  | .pe p => some (p.imageBase + p.entry.toUInt64)
  | .mach (.binary macho) => some macho.entry
  | .mach (.fat fat) => fat.firstMachO.map (·.entry)
  | .other => none

theorem objectProbe_entry (obj : Object) :
    (Id.run (Probe.objectProbe Build.release obj)).entry = obj.entry := by
  cases obj with
  | pe p => rfl
  | elf e => rfl
  | mach mach =>
    cases mach with
    | binary macho => rfl
    | fat fat =>
      show (Probe.fatProbe fat).entry = fat.firstMachO.map (·.entry)
      unfold Probe.fatProbe
      cases fat.firstMachO <;> rfl
  | other => rfl

theorem fatProbe_container (fat : MultiArch) : (Probe.fatProbe fat).container = "fat-macho" := by
  unfold Probe.fatProbe
  cases fat.firstMachO <;> rfl

/-- A container that probes as raw has no entry. -/
theorem objectProbe_raw {obj : Object}
    (h : (Id.run (Probe.objectProbe Build.release obj)).container = "raw") : obj.entry = none := by
  cases obj with
  | elf e => exact absurd h (by decide : ¬ "elf" = "raw")
  | pe p => exact absurd h (by decide : ¬ "pe" = "raw")
  | mach mach =>
    cases mach with
    | binary macho => exact absurd h (by decide : ¬ "macho" = "raw")
    | fat fat =>
      have hraw : (Probe.fatProbe fat).container = "raw" := h
      rw [fatProbe_container] at hraw
      exact absurd hraw (by decide)
  | other => rfl

theorem probe_entry_of_some {K : Crates} {blob : List UInt8} {obj : Object}
    (h : K.objectParse blob = some obj) : (probe K blob).entry = obj.entry := by
  rw [probe_of_some h, objectProbe_entry]

theorem probe_entry_of_raw {K : Crates} {blob : List UInt8}
    (h : (probe K blob).container = "raw") : (probe K blob).entry = none := by
  cases hobj : K.objectParse blob with
  | none =>
    rw [probe_of_none hobj]
    rfl
  | some obj =>
    rw [probe_of_some hobj] at h
    rw [probe_entry_of_some hobj, objectProbe_raw h]

/-! ### The section of the entry -/

/-- Both fields are read off the first section row that contains the entry. -/
theorem locate_release (p : Probe) (secs : List Section) :
    (Id.run (locate Build.release p secs)).fileOff =
        (p.entry.bind fun va =>
          (secs.find? (·.containsVa va)).map fun s => s.fileOff + (va - s.vaddr)) ∧
      (Id.run (locate Build.release p secs)).sect =
        p.entry.bind fun va => (secs.find? (·.containsVa va)).map (·.name) := by
  unfold locate
  cases p.entry with
  | none => exact ⟨rfl, rfl⟩
  | some va =>
    simp only [Option.bind_some]
    cases secs.find? (·.containsVa va) with
    | none => exact ⟨rfl, rfl⟩
    | some s => exact ⟨rfl, rfl⟩

/-- The result of `entrypoint`, for a raw blob too. -/
theorem entrypoint_eq_locate (K : Crates) (blob : List UInt8) :
    (entrypoint K blob).fileOff =
        (Id.run (locate Build.release (probe K blob) (sections K blob))).fileOff ∧
      (entrypoint K blob).sect =
        (Id.run (locate Build.release (probe K blob) (sections K blob))).sect := by
  rw [entrypoint_eq]
  by_cases hraw : (probe K blob).container = "raw"
  · rw [if_pos hraw, (locate_release _ _).1, (locate_release _ _).2, probe_entry_of_raw hraw]
    exact ⟨rfl, rfl⟩
  · rw [if_neg hraw]
    exact ⟨rfl, rfl⟩

theorem fileOff_eq (K : Crates) (blob : List UInt8) :
    (entrypoint K blob).fileOff = (probe K blob).entry.bind fun va =>
      ((sections K blob).find? (·.containsVa va)).map fun s => s.fileOff + (va - s.vaddr) :=
  (entrypoint_eq_locate K blob).1.trans (locate_release _ _).1

theorem sect_eq (K : Crates) (blob : List UInt8) :
    (entrypoint K blob).sect = (probe K blob).entry.bind fun va =>
      ((sections K blob).find? (·.containsVa va)).map (·.name) :=
  (entrypoint_eq_locate K blob).2.trans (locate_release _ _).2

/-! ### Addresses in a range -/

/-- Saturation only shrinks a range. -/
theorem le_of_contains {start size va : UInt64}
    (h : (start ≤ va && va < saturatingAdd start size) = true) :
    start ≤ va ∧ va.toNat < start.toNat + size.toNat := by
  rw [Bool.and_eq_true, decide_eq_true_eq, decide_eq_true_eq] at h
  obtain ⟨hle, hlt⟩ := h
  have hlt' : va.toNat < (saturatingAdd start size).toNat := hlt
  rw [saturatingAdd, UInt64.toNat_ofNat'] at hlt'
  exact ⟨hle, by omega⟩

/-- The distance of an address from the start of a range that contains it. -/
theorem Header.sub_addr_lt {h : Header} {va : UInt64} (hva : h.containsVa va = true) :
    (va - h.addr).toNat < h.size.toNat := by
  obtain ⟨hle, hlt⟩ := le_of_contains hva
  have hle' : h.addr.toNat ≤ va.toNat := hle
  rw [UInt64.toNat_sub_of_le _ _ hle]
  omega

end VgiDisasm
