import Mathlib.Data.List.Forall2
import VgiDisasm.CapabilityMatches
import VgiDisasm.Fixtures

/-!
# PE imports by ordinal and by name

A PE imports a symbol by ordinal or by a name of the hint/name table.  The parser returns both
under one string, a by-ordinal entry under the name `ORDINAL <n>`, and the kind of the row is read
back from that string.  `importsFaithful_iff` says for which tables this recovers what was there.
-/

namespace VgiDisasm

open VgiDisasm.Text VgiDisasm.Capabilities

/-- What an entry of an import lookup table refers to. -/
inductive Lookup
  | byOrdinal (ordinal : UInt16)
  | byName (hint : UInt16) (name : String)

/-- An entry of the import table of a PE. -/
structure ImportEntry where
  dll : String
  lookup : Lookup

/-- The parser's value for an entry. -/
def ImportEntry.synthesize (e : ImportEntry) : PeImport :=
  match e.lookup with
  | .byOrdinal ordinal => ⟨"ORDINAL " ++ toString ordinal.toNat, e.dll, ordinal⟩
  | .byName hint name => ⟨name, e.dll, hint⟩

/-- The row says how the entry is imported. -/
structure Classified (e : ImportEntry) (row : Import) : Prop where
  name_none : row.name = none ↔ ∃ ordinal, e.lookup = .byOrdinal ordinal
  kind_ordinal : row.kind = "ordinal" ↔ ∃ ordinal, e.lookup = .byOrdinal ordinal
  named : ∀ hint name, e.lookup = .byName hint name → name ≠ "" →
    row.name = some name ∧ row.kind = "named"

/-- A by-name import is looked up among the suspicious names. -/
def ReachesMatcher (rows : List Import) (e : ImportEntry) : Prop :=
  ∀ hint name, e.lookup = .byName hint name → ∀ api ∈ API_MAP,
    eqIgnoreAsciiCase api.pattern name = true →
      Capability.fromEntry api name ∈ rows.flatMap importMatches

/-- One row per entry in order, up to the cap, each saying how its entry is imported. -/
structure ImportsFaithful (K : Crates) (blob : List UInt8) (table : List ImportEntry) : Prop where
  rows : List.Forall₂ Classified (table.take MAX_IMPORTS) (imports K blob)
  reaches : ∀ e ∈ table.take MAX_IMPORTS, ReachesMatcher (imports K blob) e

/-- A by-name entry does not look like a synthesised name. -/
def ImportEntry.Plain (e : ImportEntry) : Prop :=
  ∀ hint name, e.lookup = .byName hint name → name ≠ "" ∧ startsWith name "ORDINAL" = false

/-! ### One entry -/

theorem startsWith_synthesized (ordinal : UInt16) :
    startsWith ("ORDINAL " ++ toString ordinal.toNat) "ORDINAL" = true := by
  rw [startsWith, List.isPrefixOf_iff_prefix, String.toList_append]
  have hfront : "ORDINAL".toList <+: "ORDINAL ".toList := by decide
  exact hfront.trans (List.prefix_append _ _)

theorem peImport_byOrdinal {e : ImportEntry} {ordinal : UInt16}
    (h : e.lookup = .byOrdinal ordinal) :
    (Imports.peImport e.synthesize).name = none ∧
      (Imports.peImport e.synthesize).kind = "ordinal" := by
  have hname : e.synthesize.name = "ORDINAL " ++ toString ordinal.toNat := by
    rw [ImportEntry.synthesize, h]
  rw [Imports.peImport, hname, startsWith_synthesized, Bool.or_true, if_pos rfl]
  exact ⟨rfl, rfl⟩

theorem peImport_byName {e : ImportEntry} {hint : UInt16} {name : String}
    (h : e.lookup = .byName hint name) (hne : name ≠ "")
    (hstarts : startsWith name "ORDINAL" = false) :
    (Imports.peImport e.synthesize).name = some name ∧
      (Imports.peImport e.synthesize).kind = "named" := by
  have hname : e.synthesize.name = name := by
    rw [ImportEntry.synthesize, h]
  have hempty : name.isEmpty = false := by
    rwa [← Bool.not_eq_true, String.isEmpty_iff]
  rw [Imports.peImport, hname, hstarts, hempty]
  exact ⟨rfl, rfl⟩

/-- Any other name is taken for an ordinal. -/
theorem peImport_confused {e : ImportEntry} {hint : UInt16} {name : String}
    (h : e.lookup = .byName hint name)
    (hconfused : ¬ (name ≠ "" ∧ startsWith name "ORDINAL" = false)) :
    (Imports.peImport e.synthesize).name = none := by
  have hname : e.synthesize.name = name := by
    rw [ImportEntry.synthesize, h]
  have hordinal : (name.isEmpty || startsWith name "ORDINAL") = true := by
    rw [Bool.or_eq_true, String.isEmpty_iff]
    by_contra hnot
    rw [not_or, Bool.not_eq_true] at hnot
    exact hconfused hnot
  rw [Imports.peImport, hname, if_pos hordinal]

theorem classified_iff (e : ImportEntry) :
    Classified e (Imports.peImport e.synthesize) ↔ e.Plain := by
  constructor
  · intro hclass hint name h
    by_contra hconfused
    obtain ⟨ordinal, hordinal⟩ := hclass.name_none.mp (peImport_confused h hconfused)
    rw [h] at hordinal
    cases hordinal
  · intro hplain
    cases h : e.lookup with
    | byOrdinal ordinal =>
      obtain ⟨hname, hkind⟩ := peImport_byOrdinal h
      refine ⟨iff_of_true hname ⟨ordinal, h⟩, iff_of_true hkind ⟨ordinal, h⟩, ?_⟩
      intro hint name hbyName
      rw [h] at hbyName
      cases hbyName
    | byName hint name =>
      obtain ⟨hne, hstarts⟩ := hplain hint name h
      obtain ⟨hname, hkind⟩ := peImport_byName h hne hstarts
      have hnot : ¬ ∃ ordinal, e.lookup = .byOrdinal ordinal := by
        rintro ⟨ordinal, hordinal⟩
        rw [h] at hordinal
        cases hordinal
      refine ⟨iff_of_false (by rw [hname]; exact Option.some_ne_none _) hnot,
        iff_of_false (by rw [hkind]; decide) hnot, ?_⟩
      intro hint' name' hbyName _
      rw [h] at hbyName
      cases hbyName
      exact ⟨hname, hkind⟩

/-! ### Suspicious names -/

/-- No suspicious name looks like a synthesised one, in either case. -/
theorem api_plain : ∀ api ∈ API_MAP,
    (!(api.pattern.toList.map Char.toLower).isEmpty &&
      !"ordinal".toList.isPrefixOf (api.pattern.toList.map Char.toLower)) = true := by
  decide +kernel

theorem plain_of_api {api : MapEntry} (hapi : api ∈ API_MAP) {name : String}
    (h : eqIgnoreAsciiCase api.pattern name = true) :
    name ≠ "" ∧ startsWith name "ORDINAL" = false := by
  have hplain := api_plain api hapi
  rw [eqIgnoreAsciiCase_iff.mp h, Bool.and_eq_true, Bool.not_eq_true', Bool.not_eq_true']
    at hplain
  obtain ⟨hne, hnot⟩ := hplain
  refine ⟨?_, ?_⟩
  · rintro rfl
    cases hne
  · rw [← Bool.not_eq_true]
    intro hstarts
    have hcase : "ORDINAL".toList.map Char.toLower = "ordinal".toList := by decide
    have hfront := (List.isPrefixOf_iff_prefix.mp hstarts).map Char.toLower
    rw [hcase, ← List.isPrefixOf_iff_prefix, hnot] at hfront
    cases hfront

/-! ### The table -/

section Table

variable {K : Crates} {blob : List UInt8} {pe : PE} {table : List ImportEntry}

theorem imports_pe (hparse : K.objectParse blob = some (.pe pe))
    (hsynth : pe.imports = table.map ImportEntry.synthesize) :
    imports K blob =
      (table.take MAX_IMPORTS).map fun e => Imports.peImport e.synthesize := by
  rw [imports_eq, Crates.importRows, hparse]
  show (pe.imports.map Imports.peImport).take MAX_IMPORTS = _
  rw [hsynth, List.map_map, ← List.map_take]
  rfl

/-- No suspicious name is lost, whatever else is in the table. -/
theorem reachesMatcher_of_parsed (hparse : K.objectParse blob = some (.pe pe))
    (hsynth : pe.imports = table.map ImportEntry.synthesize) {e : ImportEntry}
    (he : e ∈ table.take MAX_IMPORTS) : ReachesMatcher (imports K blob) e := by
  intro hint name h api hapi heq
  obtain ⟨hne, hstarts⟩ := plain_of_api hapi heq
  obtain ⟨hname, -⟩ := peImport_byName h hne hstarts
  rw [imports_pe hparse hsynth]
  refine List.mem_flatMap.mpr ⟨_, List.mem_map_of_mem he, ?_⟩
  exact mem_importMatches.mpr ⟨name, hname, api, hapi, heq, rfl⟩

/-- **What is recovered.**  The rows say how the entries are imported exactly if no entry within
the cap is imported by an empty name or by a name that starts with `ORDINAL`. -/
theorem importsFaithful_iff (hparse : K.objectParse blob = some (.pe pe))
    (hsynth : pe.imports = table.map ImportEntry.synthesize) :
    ImportsFaithful K blob table ↔ ∀ e ∈ table.take MAX_IMPORTS, e.Plain := by
  have hrows : List.Forall₂ Classified (table.take MAX_IMPORTS) (imports K blob) ↔
      ∀ e ∈ table.take MAX_IMPORTS, e.Plain := by
    rw [imports_pe hparse hsynth, List.forall₂_map_right_iff, List.forall₂_same]
    exact forall₂_congr fun e _ => classified_iff e
  constructor
  · intro h
    exact hrows.mp h.rows
  · intro hplain
    exact ⟨hrows.mpr hplain, fun e he => reachesMatcher_of_parsed hparse hsynth he⟩

end Table

/-! ### A name that looks like an ordinal -/

def ordinalXTable : List ImportEntry :=
  [⟨"a.dll", .byOrdinal 7⟩, ⟨"a.dll", .byName 0 "ORDINAL_X"⟩]

namespace Fixtures

/-- An AMD64 PE32+ whose one section is an import directory. -/
def peImporting (imps : List PeImport) : PE where
  machine := Probe.IMAGE_FILE_MACHINE_AMD64
  is64 := true
  imageBase := 0x140000000
  entry := 0
  sections := [⟨some ".idata", 0x6a, 0x1000, 0x200, 0x200, 0x40000040⟩]
  imports := imps

/-- `ORDINAL_X` and the terminator. -/
def ordinalXName : List UInt8 := [0x4f, 0x52, 0x44, 0x49, 0x4e, 0x41, 0x4c, 0x5f, 0x58, 0]

/-- The file of a PE that imports from `a.dll` ordinal 7 and the name `ORDINAL_X`.  The section at
RVA 0x1000 holds the descriptor and the null descriptor, the lookup table and the address table,
the hint/name entry and the library's name. -/
def peOrdinalXBlob : List UInt8 :=
  let thunks := le 8 0x8000000000000007 ++ le 8 0x1058 ++ le 8 0
  [0x4d, 0x5a] ++ le 58 0 ++ le 4 0x80 ++ le 64 0 ++ [0x50, 0x45, 0, 0] ++
    le 2 0x8664 ++ le 2 1 ++ le 12 0 ++ le 2 0xf0 ++ le 2 0x22 ++
    le 2 0x20b ++ le 14 0 ++ le 4 0 ++ le 4 0x1000 ++ le 8 0x140000000 ++
    le 4 0x1000 ++ le 4 0x200 ++ le 8 6 ++ le 8 6 ++ le 4 0x2000 ++ le 4 0x200 ++ le 4 0 ++
    le 2 3 ++ le 38 0 ++ le 4 16 ++ le 8 0 ++ le 4 0x1000 ++ le 4 0x28 ++ le 112 0 ++
    [0x2e, 0x69, 0x64, 0x61, 0x74, 0x61, 0, 0] ++ le 4 0x6a ++ le 4 0x1000 ++ le 4 0x200 ++
    le 4 0x200 ++ le 12 0 ++ le 4 0x40000040 ++ le 80 0 ++
    le 4 0x1028 ++ le 8 0 ++ le 4 0x1064 ++ le 4 0x1040 ++ le 20 0 ++ thunks ++ thunks ++
    le 2 0 ++ ordinalXName ++ [0x61, 0x2e, 0x64, 0x6c, 0x6c, 0] ++ le 406 0

def peOrdinalX : PE := peImporting [⟨"ORDINAL 7", "a.dll", 7⟩, ⟨"ORDINAL_X", "a.dll", 0⟩]

def peOrdinalXCrates : Crates := crates [(peOrdinalXBlob, .pe peOrdinalX)] []

end Fixtures

theorem ordinalX_parsed :
    Fixtures.peOrdinalXCrates.objectParse Fixtures.peOrdinalXBlob =
      some (.pe Fixtures.peOrdinalX) :=
  Fixtures.crates_objectParse _ _ _

theorem ordinalX_synthesized :
    Fixtures.peOrdinalX.imports = ordinalXTable.map ImportEntry.synthesize := by
  have hname : "ORDINAL 7" = "ORDINAL " ++ toString (7 : UInt16).toNat := by decide
  exact congrArg
    (fun name => [PeImport.mk name "a.dll" 7, PeImport.mk "ORDINAL_X" "a.dll" 0]) hname

theorem importsFaithful_iff_ordinalX :
    ImportsFaithful Fixtures.peOrdinalXCrates Fixtures.peOrdinalXBlob ordinalXTable ↔
      ∀ e ∈ ordinalXTable.take MAX_IMPORTS, e.Plain :=
  importsFaithful_iff ordinalX_parsed ordinalX_synthesized

/-- The import of `ORDINAL_X` has no name in the rows. -/
theorem ordinalX_confused :
    Fixtures.peOrdinalXCrates.objectParse Fixtures.peOrdinalXBlob =
        some (.pe Fixtures.peOrdinalX) ∧
      Fixtures.peOrdinalX.imports = ordinalXTable.map ImportEntry.synthesize ∧
      ¬ ImportsFaithful Fixtures.peOrdinalXCrates Fixtures.peOrdinalXBlob ordinalXTable := by
  refine ⟨ordinalX_parsed, ordinalX_synthesized, fun h => ?_⟩
  have hrows := h.rows
  rw [imports_pe ordinalX_parsed ordinalX_synthesized] at hrows
  have hlast := List.Forall₂.get hrows (i := 1) (by decide) (by decide)
  obtain ⟨hname, -⟩ := hlast.named 0 "ORDINAL_X" rfl (by decide)
  exact absurd hname (by decide)

end VgiDisasm
