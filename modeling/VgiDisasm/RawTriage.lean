import VgiDisasm.Detection
import VgiDisasm.EntryRows
import VgiDisasm.Provenance
import VgiDisasm.StringsCompose

/-!
# Raw blobs

Bytes that are no container have no header to read: every function answers with its empty
result, `disassemble` asks for an architecture and then sweeps the whole, and what is left of
the indicators are the strings.  Strings do not reach over a separator, so neither do the
indicators: a blob that contains another one reports what each of its pieces reports.
-/

namespace VgiDisasm

open VgiDisasm.Sweep VgiDisasm.Capabilities

/-- The probe finds no container. -/
def Crates.Raw (K : Crates) (blob : List UInt8) : Prop := (probe K blob).container = "raw"

instance (K : Crates) (blob : List UInt8) : Decidable (K.Raw blob) :=
  inferInstanceAs (Decidable (_ = _))

theorem objectProbe_other {obj : Object}
    (h : (Id.run (Probe.objectProbe Build.release obj)).container = "raw") : obj = .other := by
  cases obj with
  | elf e => exact absurd h (by decide : ¬ "elf" = "raw")
  | pe p => exact absurd h (by decide : ¬ "pe" = "raw")
  | mach mach =>
    cases mach with
    | binary macho => exact absurd h (by decide : ¬ "macho" = "raw")
    | fat fat =>
      have hraw : (Probe.fatProbe fat).container = "raw" := h
      rw [fatProbe_container] at hraw
      exact absurd hraw (by decide)
  | other => rfl

namespace Crates.Raw

variable {K : Crates} {blob : List UInt8} (h : K.Raw blob)

include h

/-- Nothing is parsed, or nothing that the engine knows. -/
theorem parse : K.objectParse blob = none ∨ K.objectParse blob = some .other := by
  cases hobj : K.objectParse blob with
  | none => exact Or.inl rfl
  | some obj =>
    have hraw : (probe K blob).container = "raw" := h
    rw [probe_of_some hobj] at hraw
    rw [objectProbe_other hraw]
    exact Or.inr rfl

theorem probe_eq : probe K blob = Probe.raw := by
  rcases h.parse with hobj | hobj
  · exact probe_of_none hobj
  · rw [probe_of_some hobj]
    rfl

theorem headers_eq : K.headers blob = [] := by
  rw [Crates.headers]
  rcases h.parse with hobj | hobj <;> rw [hobj]
  rfl

theorem importRows_eq : K.importRows blob = [] := by
  rw [Crates.importRows]
  rcases h.parse with hobj | hobj <;> rw [hobj]
  rfl

theorem allMatches_eq : allMatches K blob = (strings blob 4).flatMap stringMatches :=
  allMatches_of_raw h.importRows_eq h.probe_eq

end Crates.Raw

/-- **What a raw blob answers**: no header field but the container's name, no sections, no
imports, no entry point; without an architecture one diagnostic row, with one the sweep of the
whole, whatever `section` says; and of the indicators those of its strings. -/
theorem raw_answers (K : Crates) (blob : List UInt8) (h : K.Raw blob) :
    probe K blob = { container := "raw" } ∧ sections K blob = [] ∧ imports K blob = [] ∧
      entrypoint K blob = {} ∧
      (∀ mode base sect, disassemble K blob none mode base sect = [Insn.archRequired]) ∧
      (∀ arch mode base sect, disassemble K blob arch mode base sect =
        disassemble K blob arch mode base "all") ∧
      ∀ row ∈ capabilities K blob, ∃ hit ∈ strings blob 4, row ∈ stringMatches hit := by
  have hsections := sections_eq_nil.mpr h.headers_eq
  refine ⟨h.probe_eq, hsections, ?_, ?_, fun mode base sect => ?_, fun arch mode base sect => ?_,
    fun row hrow => ?_⟩
  · rw [imports_eq, h.importRows_eq]
    rfl
  · rw [entrypoint_eq]
    exact if_pos h
  · refine disassemble_of_unbuilt fun sel hsel => ?_
    rw [resolve, h.probe_eq] at hsel
    cases hsel
  · have hregions : selectRegions blob (sections K blob) sect base =
        selectRegions blob (sections K blob) "all" base := by
      rw [selectRegions_whole (Or.inr hsections), selectRegions_whole (Or.inl rfl)]
    unfold disassemble
    simp only [hregions]
  · have hmatch := mem_allMatches_of_mem hrow
    rw [h.allMatches_eq] at hmatch
    exact List.mem_flatMap.mp hmatch

/-! ### Indicators of a container of strings -/

/-- Behind the row cap nothing is known; below it the rows of fewer matches are not cut either. -/
theorem length_capabilities_lt {K : Crates} {blob blob' : List UInt8}
    (h : ∀ m ∈ allMatches K blob', m ∈ allMatches K blob)
    (hcap : (capabilities K blob).length < MAX_CAPABILITIES) :
    (capabilities K blob').length < MAX_CAPABILITIES := by
  have hle : (Dedup.fresh key (allMatches K blob')).length ≤
      (Dedup.fresh key (allMatches K blob)).length :=
    Dedup.length_fresh_le fun m hm => List.mem_map_of_mem (h m hm)
  rw [capabilities_eq, List.length_take] at hcap ⊢
  omega

/-- **Indicators split at a separator.**  Where two raw pieces stand in a raw blob on the two sides
of a byte that is neither printable nor zero, the rows of the blob are those of the pieces: none is
hidden by what surrounds it, and none arises between them. -/
theorem capabilities_concat (K : Crates) (a b : List UInt8) (sep : UInt8) (hsep : Separates sep)
    (ha : K.Raw a) (hb : K.Raw b) (hraw : K.Raw (a ++ sep :: b))
    (hscan : (a ++ sep :: b).length ≤ MAX_SCAN_BYTES)
    (hstrings : (strings (a ++ sep :: b) 4).length < MAX_STRINGS)
    (hcap : (capabilities K (a ++ sep :: b)).length < MAX_CAPABILITIES) (row : Capability) :
    row ∈ capabilities K (a ++ sep :: b) ↔ row ∈ capabilities K a ∨ row ∈ capabilities K b := by
  have hmatch : ∀ m, m ∈ allMatches K (a ++ sep :: b) ↔
      m ∈ allMatches K a ∨ m ∈ allMatches K b := by
    intro m
    rw [hraw.allMatches_eq, ha.allMatches_eq, hb.allMatches_eq]
    simp only [List.mem_flatMap, mem_strings_pieces hsep hscan hstrings]
    constructor
    · intro ⟨hit, hhit, hm⟩
      rcases hhit with hhit | ⟨h, hh, rfl⟩
      · exact Or.inl ⟨hit, hhit, hm⟩
      · exact Or.inr ⟨h, hh, hm⟩
    · intro hpiece
      rcases hpiece with ⟨hit, hhit, hm⟩ | ⟨hit, hhit, hm⟩
      · exact ⟨hit, Or.inl hhit, hm⟩
      · exact ⟨hit.shift (a.length + 1), Or.inr ⟨hit, hhit, rfl⟩, hm⟩
  rw [mem_capabilities_iff hcap,
    mem_capabilities_iff (length_capabilities_lt (fun m hm => (hmatch m).mpr (Or.inl hm)) hcap),
    mem_capabilities_iff (length_capabilities_lt (fun m hm => (hmatch m).mpr (Or.inr hm)) hcap),
    hmatch]

/-- An onion address behind a separator. -/
theorem capabilities_concat_onion :
    let K := Fixtures.crates [] []
    let a : List UInt8 := [0x6f, 0x6b]
    let b : List UInt8 := [0x78, 0x2e, 0x4f, 0x6e, 0x69, 0x6f, 0x6e]
    ∀ row ∈ capabilities K b, row ∈ capabilities K (a ++ 0xff :: b) := by
  intro K a b row hrow
  exact (capabilities_concat (Fixtures.crates [] []) [0x6f, 0x6b]
    [0x78, 0x2e, 0x4f, 0x6e, 0x69, 0x6f, 0x6e] 0xff (by decide) (by decide) (by decide) (by decide)
    (by decide) (by decide) (by decide +kernel) row).mpr (Or.inr hrow)

end VgiDisasm
