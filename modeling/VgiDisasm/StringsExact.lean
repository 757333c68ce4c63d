import VgiDisasm.StringRuns

/-!
# String extraction is exact

Declaratively: the rows of each encoding are the maximal chains of its test, long enough, in
the order of their offsets, as far as the shared cap lets them through.
-/

namespace VgiDisasm

open VgiDisasm.Chains VgiDisasm.Strings

/-- With stride 1 the characters are a slice of the data. -/
theorem runChars_one {data : List UInt8} {s k : ℕ} (h : s + k ≤ data.length) :
    runChars data 1 s k = ((data.drop s).take k).map Char.ofUInt8 := by
  apply List.ext_getElem
  · rw [length_runChars, List.length_map, List.length_take, List.length_drop]
    omega
  · intro j hj hj'
    rw [length_runChars] at hj
    simp only [runChars, List.getElem_map, List.getElem_range, Nat.one_mul, List.getElem_take,
      List.getElem_drop]
    rw [List.getD_eq_getElem _ _ (by omega)]

theorem run_end_le {data : List UInt8} {s k : ℕ}
    (h : IsMaximal (printableAt data) 1 s k) : s + k ≤ data.length := by
  have hpos := h.pos
  have hlast := printableAt_lt _ (h.mem (k - 1) (by omega))
  omega

/-- **ASCII extraction is exact.**  In the order of their offsets, the ASCII hits are the first
`MAX_STRINGS` maximal runs of at least `max minLen 1` printable bytes, each with the offset of
its first byte and its bytes cut to `MAX_STRING_LEN` characters. -/
theorem strings_ascii_exact (bytes : List UInt8) (minLen : ℕ) :
    let data := bytes.take MAX_SCAN_BYTES
    ∃ runs : List (ℕ × ℕ),
      runs.Pairwise (fun a b => a.1 < b.1) ∧
      (∀ s k, (s, k) ∈ runs ↔ IsMaximal (printableAt data) 1 s k ∧ max minLen 1 ≤ k) ∧
      (strings bytes minLen).filter (·.encoding == "ascii") =
        (runs.take MAX_STRINGS).map (chainHit "ascii" 1 data) ∧
      ∀ s k, (s, k) ∈ runs →
        (chainHit "ascii" 1 data (s, k)).offset.toNat = s ∧
        (chainHit "ascii" 1 data (s, k)).value =
          String.ofList ((((data.drop s).take k).map Char.ofUInt8).take MAX_STRING_LEN) := by
  intro data
  have hmem :=
    @mem_longChains (printableAt data) 1 (max minLen 1) data Nat.one_pos printableAt_lt
  refine ⟨_, pairwise_chains.filter _, hmem, ?_, ?_⟩
  · rw [(filter_strings bytes minLen).1, asciiHits, hitsFrom, List.map_take]
    rfl
  · intro s k hrun
    have hmax := ((hmem s k).mp hrun).1
    refine ⟨toNat_offset printableAt_lt hmax, ?_⟩
    rw [← runChars_one (run_end_le hmax)]
    rfl

/-- **UTF-16LE extraction is exact at every alignment.**  Both loops end.  In the order of
their offsets, and behind the ASCII hits, the UTF-16LE hits are the maximal chains of at least
`max minLen 1` pair starts, as far as the cap the two passes share lets them through. -/
theorem strings_utf16le_exact (bytes : List UInt8) (minLen : ℕ) :
    let data := bytes.take MAX_SCAN_BYTES
    let n := max minLen 1
    let ascii := (strings bytes minLen).filter (·.encoding == "ascii")
    (∀ out, utf16Step data n
      (Loop.run (utf16Step data n) data.length ⟨0, out, false⟩) = none) ∧
    (∀ s, unitStep data (Loop.run (unitStep data) data.length s) = none) ∧
    ∃ pairs : List (ℕ × ℕ),
      pairs.Pairwise (fun a b => a.1 < b.1) ∧
      (∀ s k, (s, k) ∈ pairs ↔ IsMaximal (pairAt data) 2 s k ∧ n ≤ k) ∧
      (strings bytes minLen).filter (·.encoding == "utf16le") =
        (pairs.take (MAX_STRINGS - ascii.length)).map (chainHit "utf16le" 2 data) ∧
      strings bytes minLen =
        (ascii ++ pairs.map (chainHit "utf16le" 2 data)).take MAX_STRINGS ∧
      ∀ s k, (s, k) ∈ pairs → (chainHit "utf16le" 2 data (s, k)).offset.toNat = s := by
  intro data n ascii
  have hmem := @mem_longChains (pairAt data) 2 n data Nat.two_pos pairAt_lt
  have hascii : ascii = (asciiHits data n).take MAX_STRINGS := (filter_strings bytes minLen).1
  have hroom : MAX_STRINGS - ascii.length = MAX_STRINGS - (asciiHits data n).length := by
    rw [hascii, List.length_take]
    omega
  refine ⟨utf16Run_exits data n, unitRun_exits data, _, pairwise_chains.filter _, hmem, ?_, ?_,
    fun s k hrun => toNat_offset pairAt_lt ((hmem s k).mp hrun).1⟩
  · rw [(filter_strings bytes minLen).2, hroom, utf16Hits, hitsFrom, List.map_take]
    rfl
  · rw [strings_eq, List.take_append, ← hascii, ← hroom, List.take_append,
      List.take_of_length_le (l := ascii)]
    · rfl
    · rw [hascii]
      exact List.length_take_le _ _

/-! ### Runs of either encoding -/

/-- The whole text of a maximal printable run of the data, of either encoding. -/
def IsRun (data : List UInt8) (text : List Char) : Prop :=
  (∃ s k, IsMaximal (printableAt data) 1 s k ∧ text = runChars data 1 s k) ∨
    ∃ s k, IsMaximal (pairAt data) 2 s k ∧ text = runChars data 2 s k

theorem IsRun.length_le {data : List UInt8} {text : List Char} (h : IsRun data text) :
    text.length ≤ data.length := by
  rcases h with ⟨s, k, hmax, rfl⟩ | ⟨s, k, hmax, rfl⟩
  · rw [length_runChars]
    exact hmax.length_le Nat.one_pos printableAt_lt
  · rw [length_runChars]
    exact hmax.length_le Nat.two_pos pairAt_lt

/-- Without the row cap every long enough run is a hit, cut to the limit, and every hit is one. -/
theorem mem_hits_iff {data : List UInt8} {n : ℕ} {value : String} :
    (∃ hit ∈ asciiHits data n ++ utf16Hits data n, hit.value = value) ↔
      ∃ text, IsRun data text ∧ n ≤ text.length ∧
        value = String.ofList (text.take MAX_STRING_LEN) := by
  have hmem : ∀ {P : ℕ → Bool} {encoding : String} {d : ℕ}, 0 < d →
      (∀ i, P i = true → i < data.length) →
      ((∃ hit ∈ hitsFrom P encoding d data n 0, hit.value = value) ↔
        ∃ s k, IsMaximal P d s k ∧ n ≤ k ∧
          value = String.ofList ((runChars data d s k).take MAX_STRING_LEN)) := by
    intro P encoding d hd hP
    constructor
    · rintro ⟨hit, hhit, rfl⟩
      obtain ⟨⟨s, k⟩, hc, rfl⟩ := List.mem_map.mp hhit
      obtain ⟨hmax, hlen⟩ := (mem_longChains hd hP s k).mp hc
      exact ⟨s, k, hmax, hlen, rfl⟩
    · rintro ⟨s, k, hmax, hlen, rfl⟩
      exact ⟨_, List.mem_map_of_mem ((mem_longChains hd hP s k).mpr ⟨hmax, hlen⟩), rfl⟩
  simp only [List.mem_append, or_and_right, exists_or]
  rw [asciiHits, utf16Hits, hmem Nat.one_pos printableAt_lt, hmem Nat.two_pos pairAt_lt]
  constructor
  · rintro (⟨s, k, hmax, hlen, rfl⟩ | ⟨s, k, hmax, hlen, rfl⟩)
    · exact ⟨_, Or.inl ⟨s, k, hmax, rfl⟩, by rwa [length_runChars], rfl⟩
    · exact ⟨_, Or.inr ⟨s, k, hmax, rfl⟩, by rwa [length_runChars], rfl⟩
  · rintro ⟨text, ⟨s, k, hmax, rfl⟩ | ⟨s, k, hmax, rfl⟩, hlen, rfl⟩
    · rw [length_runChars] at hlen
      exact Or.inl ⟨s, k, hmax, hlen, rfl⟩
    · rw [length_runChars] at hlen
      exact Or.inr ⟨s, k, hmax, hlen, rfl⟩

/-- Below the row cap the strings are all the hits. -/
theorem mem_strings_iff {blob : List UInt8} {minLen : ℕ} {value : String}
    (hcap : (strings blob minLen).length < MAX_STRINGS) :
    (∃ hit ∈ strings blob minLen, hit.value = value) ↔
      ∃ text, IsRun (blob.take MAX_SCAN_BYTES) text ∧ max minLen 1 ≤ text.length ∧
        value = String.ofList (text.take MAX_STRING_LEN) := by
  have heq := strings_eq blob minLen
  rw [heq, List.length_take] at hcap
  rw [heq, List.take_of_length_le (by omega), mem_hits_iff]

/-- Nothing is extracted exactly when no run is long enough. -/
theorem strings_eq_nil_iff (blob : List UInt8) (minLen : ℕ) :
    strings blob minLen = [] ↔
      ∀ text, IsRun (blob.take MAX_SCAN_BYTES) text → text.length < max minLen 1 := by
  rw [strings_eq, List.take_eq_nil_iff, or_iff_right (by decide)]
  constructor
  · intro hnil text hrun
    by_contra hlen
    obtain ⟨hit, hhit, -⟩ := mem_hits_iff.mpr ⟨text, hrun, Nat.not_lt.mp hlen, rfl⟩
    rw [hnil] at hhit
    cases hhit
  · intro hall
    rw [List.eq_nil_iff_forall_not_mem]
    intro hit hhit
    obtain ⟨text, hrun, hlen, -⟩ := mem_hits_iff.mp ⟨hit, hhit, rfl⟩
    exact absurd (hall text hrun) (Nat.not_lt.mpr hlen)

/-! ### Printable data -/

/-- Data made of printable bytes alone is one run. -/
theorem found_of_printable {data : List UInt8} (hne : data ≠ [])
    (h : ∀ b ∈ data, printable b = true) : Found (printableAt data) 1 0 data.length where
  pos := List.length_pos_iff.mpr hne
  mem := by
    intro j hj
    rw [Nat.zero_add, Nat.one_mul, printableAt, dif_pos hj]
    exact h _ (List.getElem_mem hj)
  right := by rw [Nat.zero_add, Nat.one_mul, printableAt, dif_neg (Nat.lt_irrefl _)]

/-- No pair starts in it. -/
theorem pairAt_of_printable {data : List UInt8} (h : ∀ b ∈ data, printable b = true) (i : ℕ) :
    pairAt data i = false := by
  cases hpair : pairAt data i with
  | false => rfl
  | true =>
    have hzero := h 0 (List.mem_of_getElem? (pairAt_iff.mp hpair).2)
    exact absurd hzero (by decide)

/-- What is extracted from such data is its front. -/
theorem strings_of_printable {data : List UInt8} {minLen : ℕ} (hlen : max minLen 1 ≤ data.length)
    (hle : data.length ≤ MAX_SCAN_BYTES) (h : ∀ b ∈ data, printable b = true) :
    strings data minLen =
      [⟨0, "ascii", String.ofList ((data.map Char.ofUInt8).take MAX_STRING_LEN)⟩] := by
  have hne : data ≠ [] := by
    rintro rfl
    rw [List.length_nil] at hlen
    omega
  have hascii : asciiHits data (max minLen 1) = [chainHit "ascii" 1 data (0, data.length)] := by
    rw [asciiHits, hitsFrom, chainsFrom_of_chain Nat.one_pos printableAt_lt separated_one
      (boundary_zero Nat.one_pos) (found_of_printable hne h), chainsFrom_of_le (by omega),
      List.filter_cons_of_pos (by simpa using hlen), List.filter_nil]
    rfl
  have hutf16 : utf16Hits data (max minLen 1) = [] := by
    rw [utf16Hits, hitsFrom, List.map_eq_nil_iff, List.eq_nil_iff_forall_not_mem]
    rintro ⟨s, k⟩ hmem
    have hmax := ((mem_longChains Nat.two_pos pairAt_lt s k).mp hmem).1
    have hpair := hmax.mem 0 hmax.pos
    rw [pairAt_of_printable h] at hpair
    cases hpair
  have htext : runChars data 1 0 data.length = data.map Char.ofUInt8 := by
    rw [runChars_one (by omega), List.drop_zero, List.take_length]
  rw [strings_eq, List.take_of_length_le hle, hascii, hutf16, List.append_nil, chainHit, htext]
  rfl

end VgiDisasm
