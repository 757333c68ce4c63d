import Mathlib.Data.List.GetD
import VgiDisasm.Library.Chains
import VgiDisasm.Strings

/-!
# What the string scan extracts

The ASCII hits are the maximal runs of printable bytes, the UTF-16LE hits the maximal chains of
stride 2 of pair starts; both are `Chains` of a test on the data.  `strings_eq` is the whole
result as one `take` of the two lists of chains, turned into hits.

Each pass is a scan over positions.  Its invariant has the shape of the sweep's: the rows out so
far, followed by the capped hits of the chains that start at or behind the scan, is a constant.
-/

namespace VgiDisasm

open VgiDisasm.Chains VgiDisasm.Strings

/-! ### Tests and hits -/

/-- There is a printable byte at `i`. -/
def printableAt (data : List UInt8) (i : ℕ) : Bool :=
  if h : i < data.length then printable data[i] else false

/-- The characters of `k` bytes from `s` on in steps of `d`. -/
def runChars (data : List UInt8) (d s k : ℕ) : List Char :=
  (List.range k).map fun j => Char.ofUInt8 (data.getD (s + d * j) 0)

/-- The hit of the chain `c` of stride `d`: its start, and its characters cut to the limit. -/
def chainHit (encoding : String) (d : ℕ) (data : List UInt8) (c : ℕ × ℕ) : StringHit where
  offset := UInt64.ofNat c.1
  encoding := encoding
  value := String.ofList ((runChars data d c.1 c.2).take MAX_STRING_LEN)

/-- The hits of the chains from `i` on that are long enough. -/
def hitsFrom (P : ℕ → Bool) (encoding : String) (d : ℕ) (data : List UInt8) (minLen i : ℕ) :
    List StringHit :=
  ((chainsFrom P d data.length i).filter fun c => decide (minLen ≤ c.2)).map
    (chainHit encoding d data)

def asciiHits (data : List UInt8) (minLen : ℕ) : List StringHit :=
  hitsFrom (printableAt data) "ascii" 1 data minLen 0

def utf16Hits (data : List UInt8) (minLen : ℕ) : List StringHit :=
  hitsFrom (pairAt data) "utf16le" 2 data minLen 0

theorem printableAt_lt {data : List UInt8} (i : ℕ) (h : printableAt data i = true) :
    i < data.length := by
  unfold printableAt at h
  split at h
  · assumption
  · cases h

theorem pairAt_iff {data : List UInt8} {i : ℕ} :
    pairAt data i = true ↔ printableAt data i = true ∧ data[i + 1]? = some 0 := by
  unfold pairAt printableAt
  by_cases h : i + 1 < data.length
  · rw [dif_pos h, dif_pos (by omega), Bool.and_eq_true, beq_iff_eq, List.getElem?_eq_getElem h,
      Option.some.injEq]
  · rw [dif_neg h, List.getElem?_eq_none (Nat.not_lt.mp h)]
    simp

theorem pairAt_lt {data : List UInt8} (i : ℕ) (h : pairAt data i = true) : i < data.length :=
  printableAt_lt i (pairAt_iff.mp h).1

/-- A byte cannot be both printable and zero. -/
theorem separated_pairAt (data : List UInt8) : Separated (pairAt data) 2 := by
  intro i hi e hpos hlt
  obtain rfl : e = 1 := by omega
  obtain ⟨-, hzero⟩ := pairAt_iff.mp hi
  cases h : pairAt data (i + 1) with
  | false => rfl
  | true =>
    have hprint := (pairAt_iff.mp h).1
    obtain ⟨hlt, hget⟩ := List.getElem?_eq_some_iff.mp hzero
    rw [printableAt, dif_pos hlt, hget] at hprint
    exact absurd hprint (by decide)

theorem length_runChars (data : List UInt8) (d s k : ℕ) : (runChars data d s k).length = k := by
  rw [runChars, List.length_map, List.length_range]

theorem runChars_zero (data : List UInt8) (d s : ℕ) : runChars data d s 0 = [] := rfl

theorem runChars_succ (data : List UInt8) (d s k : ℕ) :
    runChars data d s (k + 1) =
      runChars data d s k ++ [Char.ofUInt8 (data.getD (s + d * k) 0)] := by
  rw [runChars, List.range_succ, List.map_append]
  rfl

theorem hitsFrom_of_le {P : ℕ → Bool} {encoding : String} {d : ℕ} {data : List UInt8}
    {minLen i : ℕ} (h : data.length ≤ i) : hitsFrom P encoding d data minLen i = [] := by
  rw [hitsFrom, chainsFrom_of_le h]
  rfl

theorem hitsFrom_of_false {P : ℕ → Bool} {encoding : String} {d : ℕ} {data : List UInt8}
    {minLen i : ℕ} (h : P i = false) :
    hitsFrom P encoding d data minLen i = hitsFrom P encoding d data minLen (i + 1) := by
  rw [hitsFrom, hitsFrom, chainsFrom_of_false h]

/-! ### Pushing a run -/

theorem pushRun_eq (out : List StringHit) (s k d : ℕ) (encoding : String) (data : List UInt8) :
    pushRun out s encoding (runChars data d s k) =
      out ++ [chainHit encoding d data (s, k)].take (MAX_STRINGS - out.length) := by
  unfold pushRun
  split
  · rename_i h
    rw [Nat.sub_eq_zero_of_le h, List.take_zero, List.append_nil]
  · rename_i h
    have hroom : [chainHit encoding d data (s, k)].length ≤ MAX_STRINGS - out.length := by
      rw [List.length_singleton]
      omega
    rw [List.take_of_length_le hroom]
    rfl

/-- The vector after a run that was found, pushed if it is long enough. -/
def flushRun (out : List StringHit) (s minLen : ℕ) (encoding : String) (run : List Char) :
    List StringHit :=
  if run.length ≥ minLen then pushRun out s encoding run else out

/-- Flushing a chain moves its hit from the pending ones to the vector. -/
theorem flushRun_pending {P : ℕ → Bool} {d k s minLen : ℕ} {encoding : String}
    {data : List UInt8} (hchain : chainsFrom P d data.length s =
      (s, k) :: chainsFrom P d data.length (s + d * k)) (out : List StringHit) :
    let out' := flushRun out s minLen encoding (runChars data d s k)
    out' ++ (hitsFrom P encoding d data minLen (s + d * k)).take (MAX_STRINGS - out'.length) =
      out ++ (hitsFrom P encoding d data minLen s).take (MAX_STRINGS - out.length) := by
  intro out'
  have hout' : out' = flushRun out s minLen encoding (runChars data d s k) := rfl
  rw [flushRun, length_runChars] at hout'
  rw [hitsFrom, hitsFrom, hchain]
  by_cases hlen : k ≥ minLen
  · rw [if_pos hlen, pushRun_eq] at hout'
    rw [List.filter_cons_of_pos (by simpa using hlen), List.map_cons, hout']
    rcases Nat.lt_or_ge out.length MAX_STRINGS with hlt | hge
    · obtain ⟨m, hm⟩ : ∃ m, MAX_STRINGS - out.length = m + 1 :=
        ⟨MAX_STRINGS - out.length - 1, by omega⟩
      rw [hm, List.take_succ_cons, List.take_succ_cons, List.take_nil, List.append_assoc,
        List.singleton_append, List.length_append, List.length_singleton,
        show MAX_STRINGS - (out.length + 1) = m from by omega]
    · simp [Nat.sub_eq_zero_of_le hge]
  · rw [if_neg hlen] at hout'
    rw [List.filter_cons_of_neg (by simpa using hlen), hout']

/-! ### The ASCII pass -/

/-- The scan stands at `i` in or behind a run that starts at `st`. -/
structure AsciiScan (data : List UInt8) (st i : ℕ) (s : AsciiState) : Prop where
  le : st ≤ i
  cur : s.cur = runChars data 1 st (i - st)
  start : st < i → s.start = st
  mem : ∀ j < i - st, printableAt data (st + 1 * j) = true
  boundary : Boundary (printableAt data) 1 st

theorem asciiScan_start (data : List UInt8) (out : List StringHit) :
    AsciiScan data 0 0 ⟨0, [], out⟩ where
  le := Nat.le_refl 0
  cur := rfl
  start := fun h => absurd h (Nat.lt_irrefl 0)
  mem := fun j hj => absurd hj (Nat.not_lt_zero j)
  boundary := boundary_zero Nat.one_pos

/-- At a position without a hit the run that was open, if any, is the next chain. -/
theorem AsciiScan.flush {data : List UInt8} {st i minLen : ℕ} {s : AsciiState}
    (h : AsciiScan data st i s) (hmin : 1 ≤ minLen) (hi : printableAt data i = false) :
    let out := flushRun s.out s.start minLen "ascii" s.cur
    out ++ (hitsFrom (printableAt data) "ascii" 1 data minLen i).take (MAX_STRINGS - out.length) =
      s.out ++ (hitsFrom (printableAt data) "ascii" 1 data minLen st).take
        (MAX_STRINGS - s.out.length) := by
  rcases Nat.lt_or_ge st i with hlt | hge
  · have hfound : Found (printableAt data) 1 st (i - st) :=
      ⟨by omega, h.mem, by rw [Nat.one_mul, Nat.add_sub_cancel' h.le]; exact hi⟩
    have hchain :=
      chainsFrom_of_chain Nat.one_pos printableAt_lt separated_one h.boundary hfound
    have hpending :=
      @flushRun_pending (printableAt data) 1 (i - st) st minLen "ascii" data hchain s.out
    rw [Nat.one_mul, Nat.add_sub_cancel' h.le] at hpending
    rw [h.start hlt, h.cur]
    exact hpending
  · -- no run is open: an empty one is too short for `minLen`
    obtain rfl : st = i := Nat.le_antisymm h.le hge
    have hcur : s.cur.length = 0 := by
      rw [h.cur, length_runChars, Nat.sub_self]
    rw [flushRun, if_neg (by omega)]

theorem asciiByte_of_not_printable {minLen i : ℕ} {b : UInt8} {s : AsciiState}
    (h : printable b = false) :
    asciiByte minLen i b s =
      { s with cur := [], out := flushRun s.out s.start minLen "ascii" s.cur } := by
  simp only [asciiByte, h, Bool.false_eq_true, if_false, flushRun]

theorem asciiByte_of_printable {minLen i : ℕ} {b : UInt8} {s : AsciiState}
    (h : printable b = true) :
    asciiByte minLen i b s =
      { s with
        start := if s.cur.isEmpty then i else s.start
        cur := s.cur ++ [Char.ofUInt8 b] } := by
  simp only [asciiByte, h, if_true]

/-- A printable byte extends the run, or opens one. -/
theorem AsciiScan.extend {data : List UInt8} {st i minLen : ℕ} {s : AsciiState}
    (h : AsciiScan data st i s) (hi : i < data.length) (hprint : printable data[i] = true) :
    AsciiScan data st (i + 1) (asciiByte minLen i data[i] s) := by
  rw [asciiByte_of_printable hprint]
  have hle := h.le
  refine ⟨by omega, ?_, fun _ => ?_, ?_, h.boundary⟩
  · show s.cur ++ [Char.ofUInt8 data[i]] = _
    rw [show i + 1 - st = (i - st) + 1 from by omega, runChars_succ, h.cur, Nat.one_mul,
      Nat.add_sub_cancel' hle, List.getD_eq_getElem _ _ hi]
  · show (if s.cur.isEmpty then i else s.start) = st
    rcases Nat.lt_or_ge st i with hlt | hge
    · have hne : s.cur.isEmpty = false := by
        rw [List.isEmpty_eq_false_iff, ← List.length_pos_iff, h.cur, length_runChars]
        omega
      rw [hne]
      exact h.start hlt
    · obtain rfl : st = i := Nat.le_antisymm hle hge
      have hnil : s.cur = [] := by rw [h.cur, Nat.sub_self, runChars_zero]
      rw [hnil]
      rfl
  · intro j hj
    by_cases hlast : j < i - st
    · exact h.mem j hlast
    · rw [Nat.one_mul, show st + j = i from by omega, printableAt, dif_pos hi]
      exact hprint

/-- Any other byte closes it. -/
theorem asciiScan_close {data : List UInt8} {i minLen : ℕ} {s : AsciiState}
    (hi : i < data.length) (hprint : printable data[i] = false) :
    AsciiScan data (i + 1) (i + 1) (asciiByte minLen i data[i] s) := by
  rw [asciiByte_of_not_printable hprint]
  have hP : printableAt data i = false := by
    rw [printableAt, dif_pos hi]
    exact hprint
  refine ⟨Nat.le_refl _, ?_, fun hlt => absurd hlt (Nat.lt_irrefl _), ?_, ?_⟩
  · rw [Nat.sub_self]
    rfl
  · intro j hj
    rw [Nat.sub_self] at hj
    exact absurd hj (Nat.not_lt_zero j)
  · refine ⟨fun e hpos hlt => by omega, fun _ hprev => ?_⟩
    rw [Nat.add_sub_cancel, hP] at hprev
    cases hprev

/-- One byte moves no hit but from the pending ones to the vector. -/
theorem asciiScan_step {data : List UInt8} {minLen : ℕ} (hmin : 1 ≤ minLen) {i st : ℕ}
    {s : AsciiState} (h : AsciiScan data st i s) (hi : i < data.length) :
    ∃ st', AsciiScan data st' (i + 1) (asciiByte minLen i data[i] s) ∧
      (asciiByte minLen i data[i] s).out ++
          (hitsFrom (printableAt data) "ascii" 1 data minLen st').take
            (MAX_STRINGS - (asciiByte minLen i data[i] s).out.length) =
        s.out ++ (hitsFrom (printableAt data) "ascii" 1 data minLen st).take
          (MAX_STRINGS - s.out.length) := by
  cases hprint : printable data[i] with
  | true =>
    refine ⟨st, h.extend hi hprint, ?_⟩
    rw [asciiByte_of_printable hprint]
  | false =>
    have hP : printableAt data i = false := by rw [printableAt, dif_pos hi, hprint]
    refine ⟨i + 1, asciiScan_close hi hprint, ?_⟩
    rw [asciiByte_of_not_printable hprint, ← hitsFrom_of_false hP]
    exact h.flush hmin hP

/-- **The ASCII pass** appends the capped hits of the chains from where its run starts. -/
theorem extractAsciiFrom_eq {data : List UInt8} {minLen : ℕ} (hmin : 1 ≤ minLen)
    (rest : List UInt8) : ∀ (i st : ℕ) (s : AsciiState), data.drop i = rest →
      AsciiScan data st i s →
      extractAsciiFrom minLen rest i s =
        s.out ++ (hitsFrom (printableAt data) "ascii" 1 data minLen st).take
          (MAX_STRINGS - s.out.length) := by
  induction rest with
  | nil =>
    intro i st s hdrop h
    have hend : data.length ≤ i := List.drop_eq_nil_iff.mp hdrop
    have hP : printableAt data i = false := by
      rw [printableAt, dif_neg (Nat.not_lt.mpr hend)]
    rw [← h.flush hmin hP, hitsFrom_of_le hend, List.take_nil, List.append_nil]
    rfl
  | cons b rest ih =>
    intro i st s hdrop h
    have hi : i < data.length := by
      by_contra hge
      rw [List.drop_eq_nil_of_le (Nat.not_lt.mp hge)] at hdrop
      cases hdrop
    rw [List.drop_eq_getElem_cons hi, List.cons.injEq] at hdrop
    obtain ⟨rfl, hrest⟩ := hdrop
    obtain ⟨st', hscan, hpending⟩ := asciiScan_step hmin h hi
    rw [extractAsciiFrom]
    split
    · rename_i hcap
      rw [← hpending, Nat.sub_eq_zero_of_le hcap, List.take_zero, List.append_nil]
    · rw [ih (i + 1) st' _ hrest hscan, hpending]

theorem extractAscii_eq {data : List UInt8} {minLen : ℕ} (hmin : 1 ≤ minLen)
    (out : List StringHit) :
    extractAscii data minLen out =
      out ++ (asciiHits data minLen).take (MAX_STRINGS - out.length) :=
  extractAsciiFrom_eq hmin data 0 0 ⟨0, [], out⟩ rfl (asciiScan_start data out)

/-! ### The UTF-16LE pass -/

/-- The inner loop ends: each pass moves `i` on, and no pair starts behind the data. -/
theorem unitRun_exits (data : List UInt8) (s : ℕ × List Char) :
    unitStep data (Loop.run (unitStep data) data.length s) = none := by
  refine Loop.run_exits (fun s => data.length - s.1) ?_ _ _ (Nat.sub_le _ _)
  intro s s' h
  unfold unitStep at h
  split at h
  · rename_i hpair
    cases h
    have := pairAt_lt s.1 hpair
    simp only
    omega
  · cases h

/-- What the inner loop has collected: a stretch of pair starts, read off every other byte. -/
structure UnitScan (data : List UInt8) (st k : ℕ) (s : ℕ × List Char) : Prop where
  index : s.1 = st + 2 * k
  cur : s.2 = runChars data 2 st k
  mem : ∀ j < k, pairAt data (st + 2 * j) = true

theorem unitScan_step {data : List UInt8} {st k : ℕ} {s s' : ℕ × List Char}
    (hs : UnitScan data st k s) (h : unitStep data s = some s') : UnitScan data st (k + 1) s' := by
  unfold unitStep at h
  split at h
  · rename_i hpair
    cases h
    rw [hs.index] at hpair
    refine ⟨?_, ?_, ?_⟩
    · show s.1 + 2 = _
      rw [hs.index]
      omega
    · show s.2 ++ _ = _
      rw [hs.cur, hs.index, runChars_succ]
    · intro j hj
      by_cases hlast : j < k
      · exact hs.mem j hlast
      · rw [show j = k from by omega]
        exact hpair
  · cases h

/-- **The inner loop finds the chain** that starts at a pair start. -/
theorem unitRun_found {data : List UInt8} {st : ℕ} (h : pairAt data st = true) :
    ∃ k, Found (pairAt data) 2 st k ∧
      Loop.run (unitStep data) data.length (st, []) = (st + 2 * k, runChars data 2 st k) := by
  have hstart : UnitScan data st 0 (st, []) :=
    ⟨rfl, rfl, fun j hj => absurd hj (Nat.not_lt_zero j)⟩
  obtain ⟨k, hk⟩ := Loop.run_invariant (I := fun s => ∃ k, UnitScan data st k s)
    (fun s s' ⟨k, hs⟩ hstep => ⟨k + 1, unitScan_step hs hstep⟩) data.length _ ⟨0, hstart⟩
  have hexit := unitRun_exits data (st, [])
  have hright : pairAt data (st + 2 * k) = false := by
    rw [unitStep, hk.index] at hexit
    split at hexit
    · cases hexit
    · rename_i hno
      simpa using hno
  refine ⟨k, ⟨?_, hk.mem, hright⟩, Prod.ext hk.index hk.cur⟩
  apply Nat.pos_of_ne_zero
  rintro rfl
  rw [Nat.mul_zero, Nat.add_zero, h] at hright
  cases hright

theorem utf16Step_eq_none {data : List UInt8} {minLen : ℕ} {s : Utf16State} :
    utf16Step data minLen s = none ↔ s.returned = true ∨ data.length ≤ s.i + 1 := by
  unfold utf16Step
  by_cases hret : s.returned = true
  · rw [if_pos hret]
    exact iff_of_true rfl (Or.inl hret)
  · rw [if_neg hret]
    by_cases hlt : s.i + 1 < data.length
    · rw [if_pos hlt]
      split <;> simp [hret, hlt]
    · rw [if_neg hlt]
      exact iff_of_true rfl (Or.inr (Nat.not_lt.mp hlt))

/-- **What one pass does**: outside a chain it moves on by one; at a pair start it flushes the
chain found there and resumes behind it. -/
theorem utf16Step_cases {data : List UInt8} {minLen : ℕ} {s s' : Utf16State}
    (h : utf16Step data minLen s = some s') :
    s.i + 1 < data.length ∧
      ((pairAt data s.i = false ∧ s' = { s with i := s.i + 1 }) ∨
        ∃ k, Found (pairAt data) 2 s.i k ∧
          s'.i = s.i + 2 * k ∧
          s'.out = flushRun s.out s.i minLen "utf16le" (runChars data 2 s.i k) ∧
          (s'.returned = true → MAX_STRINGS ≤ s'.out.length)) := by
  have hgo : ¬ (s.returned = true ∨ data.length ≤ s.i + 1) := by
    intro hstop
    rw [utf16Step_eq_none.mpr hstop] at h
    cases h
  rw [not_or, Bool.not_eq_true, Nat.not_le] at hgo
  refine ⟨hgo.2, ?_⟩
  rw [utf16Step, hgo.1, if_neg Bool.false_ne_true, if_pos hgo.2] at h
  cases hpair : pairAt data s.i with
  | false =>
    rw [hpair, if_neg Bool.false_ne_true, Option.some.injEq] at h
    refine Or.inl ⟨rfl, ?_⟩
    rw [← h, hgo.1]
  | true =>
    obtain ⟨k, hfound, hrun⟩ := unitRun_found hpair
    rw [hpair, if_pos rfl, hrun] at h
    simp only [Option.some.injEq] at h
    subst h
    refine Or.inr ⟨k, hfound, rfl, rfl, ?_⟩
    intro hret
    simpa using hret

/-- Every pass moves on. -/
theorem utf16Run_exits (data : List UInt8) (minLen : ℕ) (out : List StringHit) :
    utf16Step data minLen
      (Loop.run (utf16Step data minLen) data.length ⟨0, out, false⟩) = none := by
  refine Loop.run_exits (fun s => data.length - s.i) ?_ _ _ (Nat.sub_le _ _)
  intro s s' h
  obtain ⟨hlt, ⟨-, rfl⟩ | ⟨k, hfound, hi, -, -⟩⟩ := utf16Step_cases h
  · simp only
    omega
  · have hk := hfound.pos
    simp only [hi]
    omega

/-- The loop invariant: rows out, then the capped hits of the chains ahead, is a constant; the
scan stands at a boundary; it only returns at the cap. -/
structure Utf16Scan (data : List UInt8) (minLen : ℕ) (total : List StringHit)
    (s : Utf16State) : Prop where
  pending : s.out ++ (hitsFrom (pairAt data) "utf16le" 2 data minLen s.i).take
    (MAX_STRINGS - s.out.length) = total
  boundary : Boundary (pairAt data) 2 s.i
  returned : s.returned = true → MAX_STRINGS ≤ s.out.length

theorem utf16Scan_step {data : List UInt8} {minLen : ℕ} {total : List StringHit}
    (s s' : Utf16State) (hs : Utf16Scan data minLen total s)
    (h : utf16Step data minLen s = some s') : Utf16Scan data minLen total s' := by
  obtain ⟨-, ⟨hpair, rfl⟩ | ⟨k, hfound, hi, hout, hret⟩⟩ := utf16Step_cases h
  · refine ⟨?_, boundary_succ Nat.two_pos hs.boundary hpair, hs.returned⟩
    rw [← hs.pending, hitsFrom_of_false hpair]
  · refine ⟨?_, ?_, hret⟩
    · have hchain := chainsFrom_of_chain Nat.two_pos pairAt_lt (separated_pairAt data) hs.boundary
        hfound
      rw [← hs.pending, hi, hout]
      exact flushRun_pending hchain s.out
    · rw [hi]
      exact boundary_chain (separated_pairAt data) hfound

theorem utf16Scan_exit {data : List UInt8} {minLen : ℕ} {total : List StringHit}
    (s : Utf16State) (hs : Utf16Scan data minLen total s) (h : utf16Step data minLen s = none) :
    s.out = total := by
  rw [← hs.pending]
  rcases utf16Step_eq_none.mp h with hret | hend
  · rw [Nat.sub_eq_zero_of_le (hs.returned hret), List.take_zero, List.append_nil]
  · -- the last byte is followed by none, so it starts no pair
    have hpair : pairAt data s.i = false := by
      rw [pairAt, dif_neg (Nat.not_lt.mpr hend)]
    rw [hitsFrom_of_false hpair, hitsFrom_of_le hend, List.take_nil, List.append_nil]

/-- **The UTF-16LE pass** appends the capped hits of the chains. -/
theorem extractUtf16le_eq (data : List UInt8) (minLen : ℕ) (out : List StringHit) :
    extractUtf16le data minLen out =
      out ++ (utf16Hits data minLen).take (MAX_STRINGS - out.length) := by
  have hstart : Utf16Scan data minLen
      (out ++ (utf16Hits data minLen).take (MAX_STRINGS - out.length)) ⟨0, out, false⟩ :=
    ⟨rfl, boundary_zero Nat.two_pos, fun h => absurd h Bool.false_ne_true⟩
  exact utf16Scan_exit _ (Loop.run_invariant utf16Scan_step data.length _ hstart)
    (utf16Run_exits data minLen out)

/-! ### The result -/

/-- **The strings of a blob**: the hits of the ASCII chains, then those of the UTF-16LE chains,
cut at the row cap. -/
theorem strings_eq (bytes : List UInt8) (minLen : ℕ) :
    strings bytes minLen =
      (asciiHits (bytes.take MAX_SCAN_BYTES) (max minLen 1) ++
        utf16Hits (bytes.take MAX_SCAN_BYTES) (max minLen 1)).take MAX_STRINGS := by
  unfold strings
  simp only [extractUtf16le_eq, extractAscii_eq (Nat.le_max_right minLen 1), List.nil_append,
    List.length_nil, Nat.sub_zero]
  -- the ASCII hits are cut before the others are counted
  have hroom : MAX_STRINGS - min MAX_STRINGS
      (asciiHits (bytes.take MAX_SCAN_BYTES) (max minLen 1)).length =
        MAX_STRINGS - (asciiHits (bytes.take MAX_SCAN_BYTES) (max minLen 1)).length := by omega
  rw [List.length_take, hroom, ← List.take_append, List.take_take, Nat.min_self]

/-- The long enough chains of a test, in the order of their starts. -/
theorem mem_longChains {P : ℕ → Bool} {d minLen : ℕ} {data : List UInt8} (hd : 0 < d)
    (hP : ∀ i, P i = true → i < data.length) (s k : ℕ) :
    (s, k) ∈ (chains P d data.length).filter (fun c => decide (minLen ≤ c.2)) ↔
      IsMaximal P d s k ∧ minLen ≤ k := by
  rw [List.mem_filter, mem_chains hd hP, decide_eq_true_iff]

theorem encoding_of_mem {P : ℕ → Bool} {encoding : String} {d minLen i : ℕ}
    {data : List UInt8} {h : StringHit} (hmem : h ∈ hitsFrom P encoding d data minLen i) :
    h.encoding = encoding := by
  obtain ⟨c, -, rfl⟩ := List.mem_map.mp hmem
  rfl

/-- The hits of one encoding among all of them. -/
theorem filter_strings (bytes : List UInt8) (minLen : ℕ) :
    (strings bytes minLen).filter (·.encoding == "ascii") =
        (asciiHits (bytes.take MAX_SCAN_BYTES) (max minLen 1)).take MAX_STRINGS ∧
      (strings bytes minLen).filter (·.encoding == "utf16le") =
        (utf16Hits (bytes.take MAX_SCAN_BYTES) (max minLen 1)).take
          (MAX_STRINGS - (asciiHits (bytes.take MAX_SCAN_BYTES) (max minLen 1)).length) := by
  have hascii : ∀ h ∈ (asciiHits (bytes.take MAX_SCAN_BYTES) (max minLen 1)).take MAX_STRINGS,
      h.encoding = "ascii" := fun h hmem => encoding_of_mem (List.mem_of_mem_take hmem)
  have hutf16 : ∀ n, ∀ h ∈ (utf16Hits (bytes.take MAX_SCAN_BYTES) (max minLen 1)).take n,
      h.encoding = "utf16le" := fun n h hmem => encoding_of_mem (List.mem_of_mem_take hmem)
  rw [strings_eq, List.take_append, List.filter_append, List.filter_append]
  constructor
  · rw [List.filter_eq_self.mpr fun h hmem => by rw [hascii h hmem]; rfl,
      List.filter_eq_nil_iff.mpr fun h hmem => by rw [hutf16 _ h hmem]; decide, List.append_nil]
  · rw [List.filter_eq_nil_iff.mpr fun h hmem => by rw [hascii h hmem]; decide,
      List.filter_eq_self.mpr fun h hmem => by rw [hutf16 _ h hmem]; rfl, List.nil_append]

/-- Offsets are the starts: the scanned data is far shorter than `2^64`. -/
theorem toNat_offset {P : ℕ → Bool} {encoding : String} {d s k : ℕ} {bytes : List UInt8}
    (hP : ∀ i, P i = true → i < (bytes.take MAX_SCAN_BYTES).length) (h : IsMaximal P d s k) :
    (chainHit encoding d (bytes.take MAX_SCAN_BYTES) (s, k)).offset.toNat = s := by
  have hlt := hP s (by simpa using h.mem 0 h.pos)
  rw [List.length_take, MAX_SCAN_BYTES] at hlt
  show (UInt64.ofNat s).toNat = s
  rw [UInt64.toNat_ofNat', Nat.mod_eq_of_lt (by omega)]

end VgiDisasm
