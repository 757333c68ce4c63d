import VgiDisasm.RowCap
import VgiDisasm.CapabilityMatches
import VgiDisasm.StringsExact
import VgiDisasm.Fixtures

/-!
# What the string indicators detect

The indicators are looked for in the extracted strings, which are cut to `MAX_STRING_LEN`
characters.  `detects_iff` says exactly which rules that finds: those with a pattern inside the
first `MAX_STRING_LEN` characters of some maximal run.
-/

namespace VgiDisasm

open VgiDisasm.Chains VgiDisasm.Strings VgiDisasm.Text VgiDisasm.Capabilities

/-- `text` contains the pattern of `entry`, in either case. -/
def Contains (text : List Char) (entry : MapEntry) : Prop :=
  contains (toAsciiLowercase (String.ofList text)) entry.pattern = true

/-- A row with the entry's rule, technique and severity. -/
def HasRow (rows : List Capability) (entry : MapEntry) : Prop :=
  ∃ row ∈ rows, row.rule = entry.rule ∧ row.attackId = entry.attackId ∧
    row.severity = entry.severity

theorem contains_lower_iff {text : List Char} {entry : MapEntry} :
    Contains text entry ↔ entry.pattern.toList <:+: text.map Char.toLower := by
  rw [Contains, contains_toAsciiLowercase_iff, String.toList_ofList]

theorem contains_length {text : List Char} {entry : MapEntry} (h : Contains text entry) :
    entry.pattern.length ≤ text.length := by
  have hlen := (contains_lower_iff.mp h).length_le
  rwa [List.length_map, String.length_toList] at hlen

/-! ### The tables -/

/-- No pattern is shorter than the extraction threshold. -/
theorem pattern_length : ∀ entry ∈ STRING_MAP, 4 ≤ entry.pattern.length := by
  decide +kernel

/-- String rules are not shared with the other two signals. -/
theorem string_rule_ne : ∀ entry ∈ STRING_MAP,
    (∀ api ∈ API_MAP, api.rule ≠ entry.rule) ∧
      ∀ row ∈ [rdtscRow, cpuidRow, int3Row, int2dRow], row.rule ≠ entry.rule := by
  decide +kernel

theorem string_rule : ∀ a ∈ STRING_MAP, ∀ b ∈ STRING_MAP, a.rule = b.rule →
    a.attackId = b.attackId ∧ a.severity = b.severity := by
  decide +kernel

/-! ### Rows with a string rule -/

/-- The matches with a string entry's rule come from the strings. -/
theorem hasRow_allMatches {K : Crates} {blob : List UInt8} {entry : MapEntry}
    (hentry : entry ∈ STRING_MAP) :
    HasRow (allMatches K blob) entry ↔
      ∃ e ∈ STRING_MAP, e.rule = entry.rule ∧ ∃ hit ∈ strings blob 4,
        contains (toAsciiLowercase hit.value) e.pattern = true := by
  obtain ⟨hapi, hinsn⟩ := string_rule_ne entry hentry
  constructor
  · rintro ⟨row, hrow, hrule, -⟩
    rcases mem_allMatches.mp hrow with ⟨imp, -, hrow⟩ | ⟨hit, hhit, hrow⟩ | hrow
    · obtain ⟨name, -, api, hmem, -, rfl⟩ := mem_importMatches.mp hrow
      exact absurd hrule (hapi api hmem)
    · obtain ⟨e, hmem, hcontains, rfl⟩ := mem_stringMatches.mp hrow
      exact ⟨e, hmem, hrule, hit, hhit, hcontains⟩
    · exact absurd hrule (hinsn row (mem_insnMatches hrow))
  · rintro ⟨e, hmem, hrule, hit, hhit, hcontains⟩
    obtain ⟨hid, hseverity⟩ := string_rule e hmem entry hentry hrule
    refine ⟨Capability.fromEntry e (truncateEvidence hit.value), ?_, hrule, hid, hseverity⟩
    have hmatch := mem_stringMatches.mpr ⟨e, hmem, hcontains, rfl⟩
    exact mem_allMatches.mpr (Or.inr (Or.inl ⟨hit, hhit, hmatch⟩))

theorem hasRow_capabilities {K : Crates} {blob : List UInt8} {entry : MapEntry}
    (hcap : (capabilities K blob).length < MAX_CAPABILITIES) :
    HasRow (capabilities K blob) entry ↔ HasRow (allMatches K blob) entry := by
  constructor
  · rintro ⟨row, hrow, hfields⟩
    exact ⟨row, (mem_capabilities_iff hcap).mp hrow, hfields⟩
  · rintro ⟨row, hrow, hfields⟩
    exact ⟨row, (mem_capabilities_iff hcap).mpr hrow, hfields⟩

/-- **What is detected.**  Below the two row caps there is a row with a string entry's rule,
technique and severity exactly when some maximal run contains, within its first
`MAX_STRING_LEN` characters, a pattern of that rule. -/
theorem detects_iff (K : Crates) (blob : List UInt8)
    (hstrings : (strings blob 4).length < MAX_STRINGS)
    (hcapabilities : (capabilities K blob).length < MAX_CAPABILITIES)
    (entry : MapEntry) (hentry : entry ∈ STRING_MAP) :
    HasRow (capabilities K blob) entry ↔
      ∃ e ∈ STRING_MAP, e.rule = entry.rule ∧
        ∃ text, IsRun (blob.take MAX_SCAN_BYTES) text ∧
          Contains (text.take MAX_STRING_LEN) e := by
  rw [hasRow_capabilities hcapabilities, hasRow_allMatches hentry]
  have hvalue : ∀ {e : MapEntry}, e ∈ STRING_MAP →
      ((∃ hit ∈ strings blob 4, contains (toAsciiLowercase hit.value) e.pattern = true) ↔
        ∃ text, IsRun (blob.take MAX_SCAN_BYTES) text ∧
          Contains (text.take MAX_STRING_LEN) e) := by
    intro e he
    constructor
    · rintro ⟨hit, hhit, hcontains⟩
      obtain ⟨text, hrun, -, hval⟩ := (mem_strings_iff hstrings).mp ⟨hit, hhit, rfl⟩
      refine ⟨text, hrun, ?_⟩
      rw [Contains, ← hval]
      exact hcontains
    · rintro ⟨text, hrun, hcontains⟩
      -- the pattern alone makes the run long enough to be extracted
      have hlen : max 4 1 ≤ text.length := by
        have hpattern := pattern_length e he
        have hle := contains_length hcontains
        rw [List.length_take] at hle
        omega
      obtain ⟨hit, hhit, hval⟩ := (mem_strings_iff hstrings).mpr ⟨text, hrun, hlen, rfl⟩
      refine ⟨hit, hhit, ?_⟩
      rw [hval]
      exact hcontains
  constructor
  · rintro ⟨e, he, hrule, hhit⟩
    exact ⟨e, he, hrule, (hvalue he).mp hhit⟩
  · rintro ⟨e, he, hrule, htext⟩
    exact ⟨e, he, hrule, (hvalue he).mpr htext⟩

theorem detects_iff_onion :
    let K := Fixtures.crates [] []
    let blob : List UInt8 := [0x78, 0x2e, 0x4f, 0x6e, 0x69, 0x6f, 0x6e]
    let entry : MapEntry := ⟨".onion", "net:tor", "T1090.003", "Proxy: Multi-hop Proxy", "high"⟩
    HasRow (capabilities K blob) entry ↔
      ∃ e ∈ STRING_MAP, e.rule = entry.rule ∧
        ∃ text, IsRun (blob.take MAX_SCAN_BYTES) text ∧
          Contains (text.take MAX_STRING_LEN) e :=
  detects_iff (Fixtures.crates [] []) [0x78, 0x2e, 0x4f, 0x6e, 0x69, 0x6f, 0x6e]
    (by decide +kernel) (by decide +kernel)
    ⟨".onion", "net:tor", "T1090.003", "Proxy: Multi-hop Proxy", "high"⟩ (by decide +kernel)

/-! ### A run that is longer than the limit -/

/-- No pattern is made of one letter alone. -/
theorem pattern_not_filler : ∀ entry ∈ STRING_MAP,
    (entry.pattern.toList.any fun c => c != 'a') = true := by
  decide +kernel

theorem not_contains_filler (n : ℕ) {entry : MapEntry} (hentry : entry ∈ STRING_MAP) :
    ¬ Contains (List.replicate n 'a') entry := by
  intro hcontains
  obtain ⟨c, hc, hne⟩ := List.any_eq_true.mp (pattern_not_filler entry hentry)
  rw [contains_lower_iff, List.map_replicate] at hcontains
  rw [List.eq_of_mem_replicate (hcontains.subset hc)] at hne
  exact absurd hne (by decide)

theorem stringMatches_filler (offset : UInt64) (encoding : String) (n : ℕ) :
    stringMatches ⟨offset, encoding, String.ofList (List.replicate n 'a')⟩ = [] := by
  rw [List.eq_nil_iff_forall_not_mem]
  intro cap hcap
  obtain ⟨entry, hentry, hcontains, -⟩ := mem_stringMatches.mp hcap
  exact not_contains_filler n hentry hcontains

/-- Without a container the strings are the only signal. -/
theorem allMatches_of_raw {K : Crates} {blob : List UInt8} (himports : K.importRows blob = [])
    (hraw : probe K blob = Probe.raw) :
    allMatches K blob = (strings blob 4).flatMap stringMatches := by
  have hinsns : disassemble K blob none none none "auto" = [Insn.archRequired] := by
    refine disassemble_of_unbuilt fun sel hsel => ?_
    rw [Sweep.resolve, hraw] at hsel
    cases hsel
  rw [allMatches, imports_eq, himports, hinsns, List.take_nil, List.flatMap_nil, List.nil_append,
    show insnMatches [Insn.archRequired] = [] from by decide, List.append_nil]

theorem allMatches_of_unparsed {K : Crates} {blob : List UInt8} (h : K.objectParse blob = none) :
    allMatches K blob = (strings blob 4).flatMap stringMatches :=
  allMatches_of_raw (by rw [Crates.importRows, h]) (probe_of_none h)

theorem allMatches_of_other {K : Crates} {blob : List UInt8}
    (h : K.objectParse blob = some .other) :
    allMatches K blob = (strings blob 4).flatMap stringMatches :=
  allMatches_of_raw (by rw [Crates.importRows, h]; rfl) (by rw [probe_of_some h]; rfl)

def onionEntry : MapEntry :=
  ⟨".onion", "net:tor", "T1090.003", "Proxy: Multi-hop Proxy", "high"⟩

theorem contains_onion (front : List UInt8) :
    Contains ((front ++ [0x2e, 0x6f, 0x6e, 0x69, 0x6f, 0x6e]).map Char.ofUInt8) onionEntry := by
  have htail : onionEntry.pattern.toList =
      (List.map Char.ofUInt8 [0x2e, 0x6f, 0x6e, 0x69, 0x6f, 0x6e]).map Char.toLower := by decide
  rw [contains_lower_iff, List.map_append, List.map_append, htail]
  exact (List.suffix_append _ _).isInfix

theorem filler_onion_printable (n : ℕ) :
    ∀ b ∈ List.replicate n 0x61 ++ [0x2e, 0x6f, 0x6e, 0x69, 0x6f, 0x6e], printable b = true := by
  intro b hb
  rcases List.mem_append.mp hb with hb | hb
  · rw [List.eq_of_mem_replicate hb]
    decide
  · have htail : [0x2e, 0x6f, 0x6e, 0x69, 0x6f, 0x6e].all printable = true := by decide
    exact List.all_eq_true.mp htail b hb

/-- Filler as long as the limit, then an indicator. -/
def longRun : List UInt8 :=
  List.replicate MAX_STRING_LEN 0x61 ++ [0x2e, 0x6f, 0x6e, 0x69, 0x6f, 0x6e]

theorem length_longRun : longRun.length = 4102 := by
  rw [longRun, List.length_append, List.length_replicate]
  rfl

theorem longRun_printable : ∀ b ∈ longRun, printable b = true :=
  filler_onion_printable MAX_STRING_LEN

/-- The run contains `.onion`, but not within its first `MAX_STRING_LEN` characters, and nothing
at all is reported. -/
theorem longRun_not_detected :
    let K := Fixtures.crates [] []
    onionEntry ∈ STRING_MAP ∧ (strings longRun 4).length < MAX_STRINGS ∧
      (capabilities K longRun).length < MAX_CAPABILITIES ∧
      (∃ text, IsRun (longRun.take MAX_SCAN_BYTES) text ∧ Contains text onionEntry) ∧
      ¬ HasRow (capabilities K longRun) onionEntry := by
  intro K
  have hscan : longRun.length ≤ MAX_SCAN_BYTES := by
    rw [length_longRun]
    decide
  have hlen : max 4 1 ≤ longRun.length := by
    rw [length_longRun]
    decide
  have hstrings := strings_of_printable hlen hscan longRun_printable
  have hfront : (longRun.map Char.ofUInt8).take MAX_STRING_LEN =
      List.replicate MAX_STRING_LEN 'a' := by
    rw [longRun, List.map_append, List.map_replicate, List.take_left' List.length_replicate]
    rfl
  rw [hfront] at hstrings
  have hparse : K.objectParse longRun = none := rfl
  have hnone : capabilities K longRun = [] := by
    rw [capabilities_eq, allMatches_of_unparsed hparse, hstrings, List.flatMap_singleton,
      stringMatches_filler]
    rfl
  have hrun : IsRun (longRun.take MAX_SCAN_BYTES) (longRun.map Char.ofUInt8) := by
    have hne : longRun ≠ [] := List.length_pos_iff.mp (by rw [length_longRun]; decide)
    have hfound := found_of_printable hne longRun_printable
    have hmax := (boundary_zero Nat.one_pos).isMaximal hfound
    rw [List.take_of_length_le hscan]
    refine Or.inl ⟨0, longRun.length, hmax, ?_⟩
    rw [runChars_one (by omega), List.drop_zero, List.take_length]
  refine ⟨by decide +kernel, ?_, ?_, ⟨_, hrun, contains_onion _⟩, ?_⟩
  · rw [hstrings]
    decide
  · rw [hnone]
    decide
  · rw [hnone]
    rintro ⟨row, hrow, -⟩
    cases hrow

end VgiDisasm
