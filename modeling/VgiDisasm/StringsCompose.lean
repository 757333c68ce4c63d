import VgiDisasm.StringsExact

/-!
# How extracted strings fit together

* `strings_disjoint`: hits of one encoding share no byte, and an ASCII hit shares at most its
  last byte with a UTF-16LE hit, as that one's first.
* `strings_minLen`: the answers for all thresholds are filters of one another.
* `strings_concat`: a byte that is neither printable nor zero splits the extraction in two.
-/

namespace VgiDisasm

open VgiDisasm.Chains VgiDisasm.Strings

/-! ### Hits and their chains -/

/-- The chain behind an ASCII hit. -/
theorem mem_strings_ascii {bytes : List UInt8} {minLen : ℕ} {x : StringHit}
    (hx : x ∈ strings bytes minLen) (henc : x.encoding = "ascii") :
    ∃ s k, IsMaximal (printableAt (bytes.take MAX_SCAN_BYTES)) 1 s k ∧
      x = chainHit "ascii" 1 (bytes.take MAX_SCAN_BYTES) (s, k) := by
  have hmem : x ∈ (strings bytes minLen).filter (·.encoding == "ascii") :=
    List.mem_filter.mpr ⟨hx, beq_iff_eq.mpr henc⟩
  rw [(filter_strings bytes minLen).1] at hmem
  obtain ⟨⟨s, k⟩, hc, rfl⟩ := List.mem_map.mp (List.mem_of_mem_take hmem)
  exact ⟨s, k, ((mem_longChains Nat.one_pos printableAt_lt s k).mp hc).1, rfl⟩

/-- The chain behind a UTF-16LE hit. -/
theorem mem_strings_utf16le {bytes : List UInt8} {minLen : ℕ} {x : StringHit}
    (hx : x ∈ strings bytes minLen) (henc : x.encoding = "utf16le") :
    ∃ s k, IsMaximal (pairAt (bytes.take MAX_SCAN_BYTES)) 2 s k ∧
      x = chainHit "utf16le" 2 (bytes.take MAX_SCAN_BYTES) (s, k) := by
  have hmem : x ∈ (strings bytes minLen).filter (·.encoding == "utf16le") :=
    List.mem_filter.mpr ⟨hx, beq_iff_eq.mpr henc⟩
  rw [(filter_strings bytes minLen).2] at hmem
  obtain ⟨⟨s, k⟩, hc, rfl⟩ := List.mem_map.mp (List.mem_of_mem_take hmem)
  exact ⟨s, k, ((mem_longChains Nat.two_pos pairAt_lt s k).mp hc).1, rfl⟩

/-- Every hit has one of the two encodings. -/
theorem encoding_cases {bytes : List UInt8} {minLen : ℕ} {x : StringHit}
    (hx : x ∈ strings bytes minLen) : x.encoding = "ascii" ∨ x.encoding = "utf16le" := by
  rw [strings_eq] at hx
  exact (List.mem_append.mp (List.mem_of_mem_take hx)).imp encoding_of_mem encoding_of_mem

theorem length_chainHit (encoding : String) (d : ℕ) (data : List UInt8) (s k : ℕ) :
    (chainHit encoding d data (s, k)).value.length = min MAX_STRING_LEN k := by
  show (String.ofList ((runChars data d s k).take MAX_STRING_LEN)).length = _
  rw [String.length_ofList, List.length_take, length_runChars]

/-! ### Occupied bytes -/

/-- Bytes a character. -/
def StringHit.unit (h : StringHit) : ℕ := if h.encoding = "ascii" then 1 else 2

/-- The hit's value takes up the byte at `p`. -/
def StringHit.Occupies (h : StringHit) (p : ℕ) : Prop :=
  h.offset.toNat ≤ p ∧ p < h.offset.toNat + h.unit * h.value.length

instance (h : StringHit) (p : ℕ) : Decidable (h.Occupies p) :=
  inferInstanceAs (Decidable (_ ∧ _))

theorem occupies_ascii {bytes : List UInt8} {s k p : ℕ}
    (hmax : IsMaximal (printableAt (bytes.take MAX_SCAN_BYTES)) 1 s k) :
    (chainHit "ascii" 1 (bytes.take MAX_SCAN_BYTES) (s, k)).Occupies p ↔
      s ≤ p ∧ p < s + min MAX_STRING_LEN k := by
  have hunit : (chainHit "ascii" 1 (bytes.take MAX_SCAN_BYTES) (s, k)).unit = 1 := rfl
  rw [StringHit.Occupies, toNat_offset printableAt_lt hmax, length_chainHit, hunit, Nat.one_mul]

theorem occupies_utf16le {bytes : List UInt8} {s k p : ℕ}
    (hmax : IsMaximal (pairAt (bytes.take MAX_SCAN_BYTES)) 2 s k) :
    (chainHit "utf16le" 2 (bytes.take MAX_SCAN_BYTES) (s, k)).Occupies p ↔
      s ≤ p ∧ p < s + 2 * min MAX_STRING_LEN k := by
  have hunit : (chainHit "utf16le" 2 (bytes.take MAX_SCAN_BYTES) (s, k)).unit = 2 := rfl
  rw [StringHit.Occupies, toNat_offset pairAt_lt hmax, length_chainHit, hunit]

/-- Chains of one test that meet are the same. -/
theorem chain_unique {P : ℕ → Bool} {d : ℕ} (hd : 0 < d) (hsep : Separated P d) {s k s' k' p : ℕ}
    (h : IsMaximal P d s k) (h' : IsMaximal P d s' k') (hp : s ≤ p ∧ p < s + d * k)
    (hp' : s' ≤ p ∧ p < s' + d * k') : (s, k) = (s', k') := by
  rcases Nat.lt_trichotomy s s' with hlt | rfl | hgt
  · have := h.le_of_lt hd hsep h' hlt
    omega
  · rw [h.unique h']
  · have := h'.le_of_lt hd hsep h hgt
    omega

/-- What an ASCII run of two bytes or more and a chain of pairs can share. -/
theorem ascii_meets_utf16le {data : List UInt8} {s k s' k' p : ℕ}
    (h : IsMaximal (printableAt data) 1 s k) (h' : IsMaximal (pairAt data) 2 s' k') (hk : 2 ≤ k)
    (hp : s ≤ p ∧ p < s + k) (hp' : s' ≤ p ∧ p < s' + 2 * k') : p = s' ∧ p + 1 = s + k := by
  -- the zeros of the pairs are not printable
  have hprint : ∀ i, s ≤ i → i < s + k → printableAt data i = true := by
    intro i hle hlt
    have := h.mem (i - s) (by omega)
    rwa [Nat.one_mul, Nat.add_sub_cancel' hle] at this
  have hzero : ∀ j < k', printableAt data (s' + 2 * j + 1) = false := by
    intro j hj
    obtain ⟨-, hget⟩ := pairAt_iff.mp (h'.mem j hj)
    obtain ⟨hlt, hget⟩ := List.getElem?_eq_some_iff.mp hget
    rw [printableAt, dif_pos hlt, hget]
    decide
  have hodd : ∀ j < k', ¬ (s ≤ s' + 2 * j + 1 ∧ s' + 2 * j + 1 < s + k) := by
    intro j hj hin
    have hP := hprint _ hin.1 hin.2
    rw [hzero j hj] at hP
    cases hP
  -- so `p` is the first byte of a pair, and the run ends with it
  have hself := hodd ((p - s') / 2) (by omega)
  have hend : p + 1 = s + k := by omega
  refine ⟨?_, hend⟩
  by_contra hne
  exact hodd ((p - s') / 2 - 1) (by omega) (by omega)

/-- **Hits do not overlap.**  Two hits of one encoding that share a byte are the same hit.  An ASCII
hit of two characters or more and a UTF-16LE hit share at most one byte: the last of the
former and the first of the latter. -/
theorem strings_disjoint (bytes : List UInt8) (minLen : ℕ) (x y : StringHit)
    (hx : x ∈ strings bytes minLen) (hy : y ∈ strings bytes minLen) (p : ℕ)
    (hpx : x.Occupies p) (hpy : y.Occupies p) :
    (x.encoding = y.encoding → x = y) ∧
      (x.encoding = "ascii" → y.encoding = "utf16le" → 2 ≤ x.value.length →
        p = y.offset.toNat ∧ p + 1 = x.offset.toNat + x.value.length) := by
  constructor
  · intro henc
    rcases encoding_cases hx with hascii | hutf16
    · obtain ⟨s, k, hmax, rfl⟩ := mem_strings_ascii hx hascii
      obtain ⟨s', k', hmax', rfl⟩ := mem_strings_ascii hy (henc.symm.trans hascii)
      rw [occupies_ascii hmax] at hpx
      rw [occupies_ascii hmax'] at hpy
      rw [chain_unique Nat.one_pos separated_one hmax hmax' (p := p) (by omega) (by omega)]
    · obtain ⟨s, k, hmax, rfl⟩ := mem_strings_utf16le hx hutf16
      obtain ⟨s', k', hmax', rfl⟩ := mem_strings_utf16le hy (henc.symm.trans hutf16)
      rw [occupies_utf16le hmax] at hpx
      rw [occupies_utf16le hmax'] at hpy
      rw [chain_unique Nat.two_pos (separated_pairAt _) hmax hmax' (p := p) (by omega) (by omega)]
  · intro hascii hutf16 hlen
    obtain ⟨s, k, hmax, rfl⟩ := mem_strings_ascii hx hascii
    obtain ⟨s', k', hmax', rfl⟩ := mem_strings_utf16le hy hutf16
    rw [occupies_ascii hmax] at hpx
    rw [occupies_utf16le hmax'] at hpy
    rw [length_chainHit] at hlen
    rw [toNat_offset pairAt_lt hmax', toNat_offset printableAt_lt hmax, length_chainHit]
    obtain ⟨hfirst, hlast⟩ := ascii_meets_utf16le hmax hmax' (p := p) (by omega) (by omega)
      (by omega)
    exact ⟨hfirst, by omega⟩

/-- `ok` in ASCII, with its `k` as the first unit of `khi` in UTF-16LE. -/
theorem strings_disjoint_khi :
    let x : StringHit := ⟨1, "ascii", "ok"⟩
    let y : StringHit := ⟨2, "utf16le", "khi"⟩
    (x.encoding = y.encoding → x = y) ∧
      (x.encoding = "ascii" → y.encoding = "utf16le" → 2 ≤ x.value.length →
        2 = y.offset.toNat ∧ 2 + 1 = x.offset.toNat + x.value.length) :=
  strings_disjoint [0x00, 0x6f, 0x6b, 0x00, 0x68, 0x00, 0x69, 0x00] 2 ⟨1, "ascii", "ok"⟩
    ⟨2, "utf16le", "khi"⟩ (by decide) (by decide) 2 (by decide) (by decide)

/-! ### Thresholds -/

/-- Below the row cap the strings are all the hits. -/
theorem strings_uncapped {bytes : List UInt8} {minLen : ℕ}
    (hcap : (strings bytes minLen).length < MAX_STRINGS) :
    strings bytes minLen =
      asciiHits (bytes.take MAX_SCAN_BYTES) (max minLen 1) ++
        utf16Hits (bytes.take MAX_SCAN_BYTES) (max minLen 1) := by
  rw [strings_eq] at hcap ⊢
  rw [List.length_take] at hcap
  exact List.take_of_length_le (by omega)

/-- A higher threshold keeps the hits that are long enough; up to the length a value is cut to,
the value tells. -/
theorem hitsFrom_filter (P : ℕ → Bool) (encoding : String) (d : ℕ) (data : List UInt8) {m n : ℕ}
    (hmn : m ≤ n) (hn : n ≤ MAX_STRING_LEN) (i : ℕ) :
    (hitsFrom P encoding d data m i).filter (fun h => decide (n ≤ h.value.length)) =
      hitsFrom P encoding d data n i := by
  rw [hitsFrom, hitsFrom, List.filter_map, List.filter_filter]
  congr 1
  apply List.filter_congr
  rintro ⟨s, k⟩ -
  show (decide (n ≤ (chainHit encoding d data (s, k)).value.length) && decide (m ≤ k)) =
    decide (n ≤ k)
  rw [length_chainHit, ← Bool.decide_and, decide_eq_decide]
  omega

/-- **Raising the threshold only filters.**  Below the row cap, the strings of at least `n`
characters are the strings of at least `m ≤ n` whose value has `n` characters, in the same
order, for every `n` a value can show. -/
theorem strings_minLen (bytes : List UInt8) (m n : ℕ) (hmn : m ≤ n) (hn : n ≤ MAX_STRING_LEN)
    (hcap : (strings bytes m).length < MAX_STRINGS) :
    strings bytes n = (strings bytes m).filter fun h => decide (max n 1 ≤ h.value.length) := by
  have hmax : max m 1 ≤ max n 1 := by omega
  have hle : max n 1 ≤ MAX_STRING_LEN := Nat.max_le.mpr ⟨hn, by decide⟩
  have hfilter : (strings bytes m).filter (fun h => decide (max n 1 ≤ h.value.length)) =
      asciiHits (bytes.take MAX_SCAN_BYTES) (max n 1) ++
        utf16Hits (bytes.take MAX_SCAN_BYTES) (max n 1) := by
    rw [strings_uncapped hcap, List.filter_append, asciiHits, utf16Hits,
      hitsFrom_filter _ _ _ _ hmax hle, hitsFrom_filter _ _ _ _ hmax hle]
    rfl
  have hlen := List.length_filter_le (fun h => decide (max n 1 ≤ h.value.length))
    (strings bytes m)
  rw [hfilter] at hlen ⊢
  rw [strings_eq]
  exact List.take_of_length_le (by omega)

theorem strings_minLen_khi :
    strings [0x00, 0x6f, 0x6b, 0x00, 0x68, 0x00, 0x69, 0x00] 3 =
      (strings [0x00, 0x6f, 0x6b, 0x00, 0x68, 0x00, 0x69, 0x00] 2).filter
        fun h => decide (max 3 1 ≤ h.value.length) :=
  strings_minLen [0x00, 0x6f, 0x6b, 0x00, 0x68, 0x00, 0x69, 0x00] 2 3 (by decide) (by decide)
    (by decide)

/-! ### Separators -/

/-- The byte ends a run of either encoding: it is no character, and no half of one. -/
def Separates (b : UInt8) : Prop := printable b = false ∧ b ≠ 0

instance (b : UInt8) : Decidable (Separates b) := inferInstanceAs (Decidable (_ ∧ _))

/-- The hit with its offset moved on. -/
def StringHit.shift (n : ℕ) (h : StringHit) : StringHit :=
  { h with offset := h.offset + UInt64.ofNat n }

theorem printableAt_eq (data : List UInt8) (i : ℕ) :
    printableAt data i = (data[i]?).any printable := by
  unfold printableAt
  split
  · rename_i h
    rw [List.getElem?_eq_getElem h, Option.any_some]
  · rename_i h
    rw [List.getElem?_eq_none (Nat.not_lt.mp h), Option.any_none]

theorem pairAt_eq (data : List UInt8) (i : ℕ) :
    pairAt data i = (printableAt data i && data[i + 1]? == some 0) := by
  rw [Bool.eq_iff_iff, pairAt_iff, Bool.and_eq_true, beq_iff_eq]

section Split

variable {a b : List UInt8} {sep : UInt8}

theorem getElem?_front {i : ℕ} (h : i < a.length) : (a ++ sep :: b)[i]? = a[i]? :=
  List.getElem?_append_left h

theorem getElem?_sep : (a ++ sep :: b)[a.length]? = some sep := by
  rw [List.getElem?_append_right (Nat.le_refl _), Nat.sub_self, List.getElem?_cons_zero]

theorem getElem?_back (i : ℕ) : (a ++ sep :: b)[a.length + 1 + i]? = b[i]? := by
  rw [List.getElem?_append_right (by omega),
    show a.length + 1 + i - a.length = i + 1 from by omega, List.getElem?_cons_succ]

theorem concat_printableAt (hsep : Separates sep) :
    Concat (printableAt (a ++ sep :: b)) (printableAt a) (printableAt b) 1 a.length
      (a.length + 1) := by
  have hgap : printableAt (a ++ sep :: b) a.length = false := by
    rw [printableAt_eq, getElem?_sep, Option.any_some, hsep.1]
  refine ⟨Nat.le_succ _, fun i hi => ?_, printableAt_lt, fun i hi hi' => ?_, fun i hi hi' => ?_,
    fun i => ?_⟩
  · rw [printableAt_eq, printableAt_eq, getElem?_front hi]
  · rwa [show i = a.length from by omega]
  · rwa [show i = a.length from by omega]
  · rw [printableAt_eq, printableAt_eq, getElem?_back]

theorem concat_pairAt (hsep : Separates sep) :
    Concat (pairAt (a ++ sep :: b)) (pairAt a) (pairAt b) 2 a.length (a.length + 1) := by
  have hgap : pairAt (a ++ sep :: b) a.length = false := by
    rw [pairAt_eq, printableAt_eq, getElem?_sep, Option.any_some, hsep.1, Bool.false_and]
  -- the separator is not the zero of a last byte of `a`
  have hlast : ∀ i, i + 1 = a.length → pairAt (a ++ sep :: b) i = false := by
    intro i hi
    rw [pairAt_eq, hi, getElem?_sep, Bool.and_eq_false_iff]
    right
    rw [beq_eq_false_iff_ne, ne_eq, Option.some.injEq]
    exact hsep.2
  refine ⟨Nat.le_succ _, fun i hi => ?_, pairAt_lt, fun i hi hi' => ?_, fun i hi hi' => ?_,
    fun i => ?_⟩
  · rcases Nat.lt_or_ge (i + 1) a.length with hlt | hge
    · rw [pairAt_eq, pairAt_eq, printableAt_eq, printableAt_eq, getElem?_front hi,
        getElem?_front hlt]
    · rw [hlast i (by omega), pairAt_eq, List.getElem?_eq_none hge]
      exact (Bool.and_false _).symm
  · rwa [show i = a.length from by omega]
  · rcases Nat.lt_or_ge i a.length with hlt | hge
    · exact hlast i (by omega)
    · rwa [show i = a.length from by omega]
  · rw [pairAt_eq, pairAt_eq, printableAt_eq, printableAt_eq, getElem?_back,
      Nat.add_assoc (a.length + 1), getElem?_back]

theorem runChars_front {d s k : ℕ} (h : ∀ j < k, s + d * j < a.length) :
    runChars (a ++ sep :: b) d s k = runChars a d s k := by
  apply List.map_congr_left
  intro j hj
  rw [List.getD_append _ _ _ _ (h j (List.mem_range.mp hj))]

theorem runChars_back (d s k : ℕ) :
    runChars (a ++ sep :: b) d (a.length + 1 + s) k = runChars b d s k := by
  apply List.map_congr_left
  intro j _
  rw [List.getD_eq_getElem?_getD, List.getD_eq_getElem?_getD, Nat.add_assoc, getElem?_back]

theorem chainHit_back (encoding : String) (d : ℕ) (x : ℕ × ℕ) :
    chainHit encoding d (a ++ sep :: b) (a.length + 1 + x.1, x.2) =
      (chainHit encoding d b x).shift (a.length + 1) := by
  show (⟨UInt64.ofNat (a.length + 1 + x.1), encoding, _⟩ : StringHit) =
    ⟨UInt64.ofNat x.1 + UInt64.ofNat (a.length + 1), encoding, _⟩
  rw [runChars_back, UInt64.ofNat_add, UInt64.add_comm]
  rfl

/-- The hits of one encoding: those of the first piece, then those of the second, moved. -/
theorem hitsFrom_concat {P P₁ P₂ : ℕ → Bool} {d : ℕ} (encoding : String) (hd : 0 < d)
    (hP : ∀ i, P i = true → i < (a ++ sep :: b).length)
    (h : Concat P P₁ P₂ d a.length (a.length + 1)) (minLen : ℕ) :
    hitsFrom P encoding d (a ++ sep :: b) minLen 0 =
      hitsFrom P₁ encoding d a minLen 0 ++
        (hitsFrom P₂ encoding d b minLen 0).map (StringHit.shift (a.length + 1)) := by
  have hlen : (a ++ sep :: b).length = a.length + 1 + b.length := by
    rw [List.length_append, List.length_cons]
    omega
  have hchains := chains_concat hd hP (by omega) h
  rw [hlen, Nat.add_sub_cancel_left] at hchains
  show ((chains P d (a ++ sep :: b).length).filter _).map _ =
    ((chains P₁ d a.length).filter _).map _ ++ (((chains P₂ d b.length).filter _).map _).map _
  rw [hlen, hchains, List.filter_append, List.filter_map, List.map_append, List.map_map,
    List.map_map]
  congr 1
  · apply List.map_congr_left
    rintro ⟨s, k⟩ hmem
    have hmax := ((mem_longChains hd h.front_lt s k).mp hmem).1
    show (⟨_, _, _⟩ : StringHit) = ⟨_, _, _⟩
    rw [runChars_front fun j hj => h.front_lt _ (hmax.mem j hj)]
  · apply List.map_congr_left
    intro x _
    exact chainHit_back encoding d x

end Split

theorem filter_hitsFrom {P : ℕ → Bool} {encoding encoding' : String} {d minLen i : ℕ}
    {data : List UInt8} (h : encoding ≠ encoding') :
    (hitsFrom P encoding d data minLen i).filter (·.encoding == encoding') = [] := by
  rw [List.filter_eq_nil_iff]
  intro x hx
  rw [encoding_of_mem hx, beq_iff_eq]
  exact h

theorem filter_shift (n : ℕ) (hits : List StringHit) (encoding : String) :
    (hits.map (StringHit.shift n)).filter (·.encoding == encoding) =
      (hits.filter (·.encoding == encoding)).map (StringHit.shift n) :=
  List.filter_map

section Pieces

variable {a b : List UInt8} {sep : UInt8} (hsep : Separates sep) {minLen : ℕ}
  (hscan : (a ++ sep :: b).length ≤ MAX_SCAN_BYTES)
  (hcap : (strings (a ++ sep :: b) minLen).length < MAX_STRINGS)

include hsep hscan hcap

/-- Neither encoding joins the pieces, and neither piece meets the cap. -/
theorem strings_pieces :
    strings (a ++ sep :: b) minLen =
        (asciiHits a (max minLen 1) ++
            (asciiHits b (max minLen 1)).map (StringHit.shift (a.length + 1))) ++
          (utf16Hits a (max minLen 1) ++
            (utf16Hits b (max minLen 1)).map (StringHit.shift (a.length + 1))) ∧
      strings a minLen = asciiHits a (max minLen 1) ++ utf16Hits a (max minLen 1) ∧
      strings b minLen = asciiHits b (max minLen 1) ++ utf16Hits b (max minLen 1) := by
  have hlen : (a ++ sep :: b).length = a.length + (b.length + 1) := by
    rw [List.length_append, List.length_cons]
  have hascii : asciiHits (a ++ sep :: b) (max minLen 1) = asciiHits a (max minLen 1) ++
      (asciiHits b (max minLen 1)).map (StringHit.shift (a.length + 1)) :=
    hitsFrom_concat "ascii" Nat.one_pos printableAt_lt (concat_printableAt hsep) _
  have hutf16 : utf16Hits (a ++ sep :: b) (max minLen 1) = utf16Hits a (max minLen 1) ++
      (utf16Hits b (max minLen 1)).map (StringHit.shift (a.length + 1)) :=
    hitsFrom_concat "utf16le" Nat.two_pos pairAt_lt (concat_pairAt hsep) _
  have hall := strings_uncapped hcap
  rw [List.take_of_length_le hscan, hascii, hutf16] at hall
  have hroom := hcap
  rw [hall] at hroom
  simp only [List.length_append, List.length_map] at hroom
  have hpiece : ∀ data : List UInt8, data.length ≤ MAX_SCAN_BYTES →
      (asciiHits data (max minLen 1)).length + (utf16Hits data (max minLen 1)).length <
        MAX_STRINGS →
      strings data minLen = asciiHits data (max minLen 1) ++ utf16Hits data (max minLen 1) := by
    intro data hdata hlt
    rw [strings_eq, List.take_of_length_le hdata]
    apply List.take_of_length_le
    rw [List.length_append]
    omega
  exact ⟨hall, hpiece a (by omega) (by omega), hpiece b (by omega) (by omega)⟩

/-- A string of the whole is one of a piece, in its place. -/
theorem mem_strings_pieces {hit : StringHit} :
    hit ∈ strings (a ++ sep :: b) minLen ↔
      hit ∈ strings a minLen ∨ ∃ h ∈ strings b minLen, h.shift (a.length + 1) = hit := by
  obtain ⟨hall, hfront, hback⟩ := strings_pieces hsep hscan hcap
  rw [hall, hfront, hback]
  simp only [List.mem_append, List.mem_map]
  grind

end Pieces

/-- **Extraction splits at a separator.**  Behind a byte that is neither printable nor zero the
strings of each encoding are those of the bytes behind it, with their offsets moved, whatever
stands in front. -/
theorem strings_concat (a b : List UInt8) (sep : UInt8) (hsep : Separates sep) (minLen : ℕ)
    (hscan : (a ++ sep :: b).length ≤ MAX_SCAN_BYTES)
    (hcap : (strings (a ++ sep :: b) minLen).length < MAX_STRINGS) (encoding : String) :
    (strings (a ++ sep :: b) minLen).filter (·.encoding == encoding) =
      (strings a minLen).filter (·.encoding == encoding) ++
        ((strings b minLen).filter (·.encoding == encoding)).map
          (StringHit.shift (a.length + 1)) := by
  obtain ⟨hall, hfront, hback⟩ := strings_pieces hsep hscan hcap
  rw [hall, hfront, hback]
  simp only [List.filter_append, filter_shift, List.map_append]
  by_cases henc : encoding = "ascii"
  · have hne : "utf16le" ≠ encoding := by
      rw [henc]
      decide
    simp only [utf16Hits, filter_hitsFrom hne, List.map_nil, List.append_nil]
  · simp only [asciiHits, filter_hitsFrom (Ne.symm henc), List.map_nil, List.nil_append]

theorem strings_concat_khi :
    let a : List UInt8 := [0x6f, 0x6b]
    let b : List UInt8 := [0x68, 0x00, 0x69, 0x00]
    (strings (a ++ 0xff :: b) 2).filter (·.encoding == "utf16le") =
      (strings a 2).filter (·.encoding == "utf16le") ++
        ((strings b 2).filter (·.encoding == "utf16le")).map (StringHit.shift (a.length + 1)) :=
  strings_concat [0x6f, 0x6b] [0x68, 0x00, 0x69, 0x00] 0xff (by decide) 2 (by decide) (by decide)
    "utf16le"

end VgiDisasm
