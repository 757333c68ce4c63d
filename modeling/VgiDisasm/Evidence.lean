import VgiDisasm.Detection

/-!
# The evidence of a string match

The patterns are looked for in the whole of an extracted string, but the evidence of the row is
the string cut to 120 characters.  `evidence_shows_iff` says what a reader of the evidence still
sees: a pattern of the rule exactly if one lies in front of the cut.
-/

namespace VgiDisasm

open VgiDisasm.Strings VgiDisasm.Text VgiDisasm.Capabilities

/-- `capabilities` derives the row from the hit. -/
structure FromHit (K : Crates) (blob : List UInt8) (row : Capability) (hit : StringHit) : Prop where
  mem_rows : row ∈ capabilities K blob
  mem_hits : hit ∈ strings blob 4
  isMatch : row ∈ stringMatches hit

/-- The text contains a pattern that belongs to the row's rule. -/
def ShowsRule (text : List Char) (row : Capability) : Prop :=
  ∃ entry ∈ STRING_MAP, entry.rule = row.rule ∧ Contains text entry

/-! ### The cut -/

/-- The mark of the cut is in no pattern. -/
theorem pattern_not_dots : ∀ entry ∈ STRING_MAP,
    (entry.pattern.toList.any fun c => c == '…') = false := by
  decide +kernel

theorem infix_concat_of_not_mem {α : Type*} {pat xs : List α} {c : α} (h : c ∉ pat) :
    pat <:+: xs ++ [c] ↔ pat <:+: xs := by
  rw [List.infix_concat_iff, List.suffix_concat_iff]
  constructor
  · rintro ((rfl | ⟨front, rfl, -⟩) | hold)
    · exact List.nil_infix
    · exact absurd (List.mem_append_right front (List.mem_singleton_self c)) h
    · exact hold
  · exact Or.inr

theorem contains_dots {text : List Char} {entry : MapEntry} (hentry : entry ∈ STRING_MAP) :
    Contains (text ++ ['…']) entry ↔ Contains text entry := by
  have hdots : '…' ∉ entry.pattern.toList := by
    intro hmem
    have hany : (entry.pattern.toList.any fun c => c == '…') = true :=
      List.any_eq_true.mpr ⟨'…', hmem, BEq.rfl⟩
    rw [pattern_not_dots entry hentry] at hany
    cases hany
  have hlower : [Char.toLower '…'] = ['…'] := by decide
  rw [contains_lower_iff, contains_lower_iff, List.map_append, List.map_singleton, hlower,
    infix_concat_of_not_mem hdots]

/-- What is cut off is not shown, what is left is. -/
theorem contains_truncateEvidence {s : String} {entry : MapEntry} (hentry : entry ∈ STRING_MAP) :
    Contains (truncateEvidence s).toList entry ↔ Contains (s.toList.take 120) entry := by
  unfold truncateEvidence
  split
  · rename_i hshort
    rw [List.take_of_length_le (by rwa [String.length_toList])]
  · have hdots : "…".toList = ['…'] := by decide
    rw [String.toList_append, String.toList_ofList, hdots, contains_dots hentry]

/-! ### Rows and hits -/

namespace FromHit

variable {K : Crates} {blob : List UInt8} {row : Capability} {hit : StringHit}
  (h : FromHit K blob row hit)

include h

theorem evidence_eq : row.evidence = truncateEvidence hit.value := by
  obtain ⟨entry, -, -, rfl⟩ := mem_stringMatches.mp h.isMatch
  rfl

/-- The hit has the pattern that was matched. -/
theorem showsRule : ShowsRule hit.value.toList row := by
  obtain ⟨entry, hentry, hcontains, rfl⟩ := mem_stringMatches.mp h.isMatch
  refine ⟨entry, hentry, rfl, ?_⟩
  rwa [Contains, String.ofList_toList]

theorem evidence_showsRule_iff :
    ShowsRule row.evidence.toList row ↔ ShowsRule (hit.value.toList.take 120) row := by
  rw [h.evidence_eq]
  constructor
  · rintro ⟨entry, hentry, hrule, hcontains⟩
    exact ⟨entry, hentry, hrule, (contains_truncateEvidence hentry).mp hcontains⟩
  · rintro ⟨entry, hentry, hrule, hcontains⟩
    exact ⟨entry, hentry, hrule, (contains_truncateEvidence hentry).mpr hcontains⟩

end FromHit

/-- A row with a string rule comes from a hit. -/
theorem exists_fromHit {K : Crates} {blob : List UInt8} {row : Capability}
    (hrow : row ∈ capabilities K blob) {entry : MapEntry} (hentry : entry ∈ STRING_MAP)
    (hrule : entry.rule = row.rule) : ∃ hit, FromHit K blob row hit := by
  obtain ⟨hapi, hinsn⟩ := string_rule_ne entry hentry
  rcases mem_allMatches.mp (mem_allMatches_of_mem hrow) with
    ⟨imp, -, himp⟩ | ⟨hit, hhit, hmatch⟩ | hinsns
  · obtain ⟨name, -, api, hmem, -, rfl⟩ := mem_importMatches.mp himp
    exact absurd hrule.symm (hapi api hmem)
  · exact ⟨hit, hrow, hhit, hmatch⟩
  · exact absurd hrule.symm (hinsn row (mem_insnMatches hinsns))

/-- **What the evidence shows.**  Every row with a string rule comes from a hit; for every hit it
comes from, the evidence is the hit's value, cut to 120 characters, the hit contains a pattern of
the rule, and the evidence contains one exactly if the first 120 characters of the hit do, as
they always do for a hit that is not cut. -/
theorem evidence_shows_iff (K : Crates) (blob : List UInt8) :
    (∀ row ∈ capabilities K blob, ∀ entry ∈ STRING_MAP, entry.rule = row.rule →
      ∃ hit, FromHit K blob row hit) ∧
    ∀ row hit, FromHit K blob row hit →
      row.evidence = truncateEvidence hit.value ∧
        ShowsRule hit.value.toList row ∧
        (ShowsRule row.evidence.toList row ↔ ShowsRule (hit.value.toList.take 120) row) ∧
        (hit.value.length ≤ 120 → ShowsRule row.evidence.toList row) := by
  refine ⟨fun row hrow entry hentry hrule => exists_fromHit hrow hentry hrule, ?_⟩
  intro row hit h
  refine ⟨h.evidence_eq, h.showsRule, h.evidence_showsRule_iff, fun hshort => ?_⟩
  rw [h.evidence_showsRule_iff, List.take_of_length_le (by rwa [String.length_toList])]
  exact h.showsRule

/-! ### A match behind the cut -/

/-- Filler up to the cut, then an indicator. -/
def lateMatch : List UInt8 := List.replicate 120 0x61 ++ [0x2e, 0x6f, 0x6e, 0x69, 0x6f, 0x6e]

theorem length_lateMatch : lateMatch.length = 126 := by
  rw [lateMatch, List.length_append, List.length_replicate]
  rfl

theorem filler_not_showsRule (n : ℕ) (row : Capability) :
    ¬ ShowsRule (List.replicate n 'a') row := by
  rintro ⟨entry, hentry, -, hcontains⟩
  exact not_contains_filler n hentry hcontains

/-- One hit leaves the rows below their cap. -/
theorem capabilities_of_hit {K : Crates} {blob : List UInt8} {hit : StringHit}
    (hparse : K.objectParse blob = some .other) (hstrings : strings blob 4 = [hit])
    {row : Capability} : row ∈ capabilities K blob ↔ row ∈ stringMatches hit := by
  have hall : allMatches K blob = stringMatches hit := by
    rw [allMatches_of_other hparse, hstrings, List.flatMap_singleton]
  have hcap : (capabilities K blob).length < MAX_CAPABILITIES := by
    have hfresh : (Dedup.fresh key (stringMatches hit)).length ≤ (stringMatches hit).length :=
      (Dedup.fresh_sublist _).length_le
    have hmatches : (stringMatches hit).length ≤ STRING_MAP.length := by
      rw [stringMatches, List.length_map]
      exact List.length_filter_le _ _
    have htable : STRING_MAP.length < MAX_CAPABILITIES := by decide
    rw [capabilities_eq, hall, List.length_take]
    omega
  rw [mem_capabilities_iff hcap, hall]

/-- The one hit of the file. -/
def lateHit : StringHit := ⟨0, "ascii", String.ofList (lateMatch.map Char.ofUInt8)⟩

theorem strings_lateMatch : strings lateMatch 4 = [lateHit] := by
  have hscan : lateMatch.length ≤ MAX_SCAN_BYTES := by
    rw [length_lateMatch]
    decide
  have hlen : max 4 1 ≤ lateMatch.length := by
    rw [length_lateMatch]
    decide
  have hcut : (lateMatch.map Char.ofUInt8).length ≤ MAX_STRING_LEN := by
    rw [List.length_map, length_lateMatch]
    decide
  rw [strings_of_printable hlen hscan (filler_onion_printable 120), List.take_of_length_le hcut]
  rfl

theorem lateHit_isMatch :
    Capability.fromEntry onionEntry (truncateEvidence lateHit.value) ∈ stringMatches lateHit :=
  mem_stringMatches.mpr ⟨onionEntry, by decide +kernel, contains_onion _, rfl⟩

/-- The row of `.onion` has the filler as its evidence. -/
theorem lateMatch_not_shown :
    ∃ row hit, FromHit (Fixtures.crates [(lateMatch, .other)] []) lateMatch row hit ∧
      row.rule = onionEntry.rule ∧ ¬ ShowsRule row.evidence.toList row := by
  have hparse := Fixtures.crates_objectParse lateMatch .other []
  have hfrom : FromHit (Fixtures.crates [(lateMatch, .other)] []) lateMatch
      (Capability.fromEntry onionEntry (truncateEvidence lateHit.value)) lateHit := by
    refine ⟨(capabilities_of_hit hparse strings_lateMatch).mpr lateHit_isMatch, ?_,
      lateHit_isMatch⟩
    rw [strings_lateMatch]
    exact List.mem_singleton_self lateHit
  refine ⟨_, lateHit, hfrom, rfl, ?_⟩
  have hcut : (lateMatch.map Char.ofUInt8).take 120 = List.replicate 120 'a' := by
    rw [lateMatch, List.map_append, List.map_replicate, List.take_left' List.length_replicate]
    rfl
  rw [hfrom.evidence_showsRule_iff, lateHit, String.toList_ofList, hcut]
  exact filler_not_showsRule 120 _

end VgiDisasm
