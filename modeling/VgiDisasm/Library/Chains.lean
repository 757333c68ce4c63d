import Mathlib.Data.List.Range
import Mathlib.Algebra.Ring.Nat

/-!
# Maximal chains of a stride

A *chain* of stride `d` is a maximal sequence of positions `s, s + d, …, s + d (k - 1)` that
satisfy a test `P`.  `IsMaximal` says this declaratively, `chains P d n` lists the chains that
start below `n` in the order of their starts, and `chainsFrom` lists those from a position on.

* `mem_chains`, `pairwise_chains`: the list is exactly the maximal chains, each once.
* `chainsFrom_of_false`, `chainsFrom_of_chain`: how the list unfolds along a scan that advances
  by one outside a chain and past the chain inside one.  The second holds at a `Boundary`, a
  position no earlier chain reaches past; `boundary_succ` and `boundary_chain` say that such a
  scan only ever stands at boundaries, provided that positions inside the stride of a chain
  fail the test (`Separated`).
* `chains_concat`: two tests in one, with no hit in the last stride in front of the second,
  have the chains of the first and then those of the second.
-/

namespace VgiDisasm.Chains

variable {P : ℕ → Bool} {d n : ℕ}

/-- `k` positions from `s` satisfy `P`, and the chain extends to neither side. -/
structure IsMaximal (P : ℕ → Bool) (d s k : ℕ) : Prop where
  pos : 0 < k
  mem : ∀ j < k, P (s + d * j) = true
  left : d ≤ s → P (s - d) = false
  right : P (s + d * k) = false

/-- How far `P` holds from `s` in steps of `d`, at most `fuel` steps. -/
def chainLen (P : ℕ → Bool) (d : ℕ) : ℕ → ℕ → ℕ
  | 0, _ => 0
  | fuel + 1, s => if P s then chainLen P d fuel (s + d) + 1 else 0

/-- `P` holds at `s` and not one stride before it. -/
def isStart (P : ℕ → Bool) (d s : ℕ) : Bool := P s && !(decide (d ≤ s) && P (s - d))

/-- The chains that start at `i` or later, below `n`. -/
def chainsFrom (P : ℕ → Bool) (d n i : ℕ) : List (ℕ × ℕ) :=
  ((List.range' i (n - i)).filter (isStart P d)).map fun s => (s, chainLen P d n s)

def chains (P : ℕ → Bool) (d n : ℕ) : List (ℕ × ℕ) := chainsFrom P d n 0

/-! ### Lengths -/

theorem chainLen_mem (fuel s : ℕ) : ∀ j < chainLen P d fuel s, P (s + d * j) = true := by
  induction fuel generalizing s with
  | zero =>
    intro j hj
    exact absurd hj (Nat.not_lt_zero j)
  | succ fuel ih =>
    intro j hj
    rw [chainLen] at hj
    split at hj
    · rename_i hs
      cases j with
      | zero => simpa using hs
      | succ j =>
        have := ih (s + d) j (by omega)
        rwa [Nat.add_assoc, Nat.add_comm d, ← Nat.mul_succ] at this
    · exact absurd hj (Nat.not_lt_zero j)

theorem chainLen_right {fuel s : ℕ} (h : chainLen P d fuel s < fuel) :
    P (s + d * chainLen P d fuel s) = false := by
  induction fuel generalizing s with
  | zero => exact absurd h (Nat.not_lt_zero _)
  | succ fuel ih =>
    rw [chainLen] at h ⊢
    split
    · rename_i hs
      rw [if_pos hs] at h
      have := ih (s := s + d) (by omega)
      rwa [Nat.add_assoc, Nat.add_comm d, ← Nat.mul_succ] at this
    · rename_i hs
      simpa using hs

/-- A chain of at most `fuel` steps is measured exactly. -/
theorem chainLen_eq {k fuel s : ℕ} (hk : k ≤ fuel) (hmem : ∀ j < k, P (s + d * j) = true)
    (hright : P (s + d * k) = false) : chainLen P d fuel s = k := by
  rcases Nat.lt_trichotomy (chainLen P d fuel s) k with hlt | heq | hgt
  · have hstop := chainLen_right (P := P) (d := d) (Nat.lt_of_lt_of_le hlt hk)
    rw [hmem _ hlt] at hstop
    cases hstop
  · exact heq
  · rw [chainLen_mem fuel s k hgt] at hright
    cases hright

/-! ### The list of chains -/

theorem isStart_iff {s : ℕ} : isStart P d s = true ↔ P s = true ∧ (d ≤ s → P (s - d) = false) := by
  by_cases h : d ≤ s <;> simp [isStart, h]

theorem pairwise_chainsFrom (i : ℕ) : (chainsFrom P d n i).Pairwise fun a b => a.1 < b.1 := by
  unfold chainsFrom
  rw [List.pairwise_map]
  exact List.Pairwise.filter _ List.pairwise_lt_range'

/-- The chains are listed in the order of their starts, each once. -/
theorem pairwise_chains : (chains P d n).Pairwise fun a b => a.1 < b.1 := pairwise_chainsFrom 0

section Bounded

variable (hd : 0 < d) (hn : ∀ i, P i = true → i < n)

include hd hn

theorem IsMaximal.length_le {s k : ℕ} (h : IsMaximal P d s k) : k ≤ n := by
  have hpos := h.pos
  have hlast := hn _ (h.mem (k - 1) (by omega))
  have hle := Nat.le_mul_of_pos_left (k - 1) hd
  omega

theorem chainLen_maximal (s : ℕ) : P (s + d * chainLen P d n s) = false := by
  rcases Nat.lt_or_ge (chainLen P d n s) n with hlt | hge
  · exact chainLen_right hlt
  · cases h : P (s + d * chainLen P d n s) with
    | false => rfl
    | true =>
      have hlast := hn _ h
      have hle := Nat.le_mul_of_pos_left (chainLen P d n s) hd
      omega

theorem mem_chainsFrom {i s k : ℕ} :
    (s, k) ∈ chainsFrom P d n i ↔ i ≤ s ∧ IsMaximal P d s k := by
  simp only [chainsFrom, List.mem_map, List.mem_filter, List.mem_range'_1, isStart_iff,
    Prod.mk.injEq]
  constructor
  · rintro ⟨s', ⟨hs, hP, hleft⟩, rfl, rfl⟩
    have hright := chainLen_maximal hd hn s'
    refine ⟨hs.1, ?_, chainLen_mem n s', hleft, hright⟩
    apply Nat.pos_of_ne_zero
    intro hzero
    rw [hzero, Nat.mul_zero, Nat.add_zero, hP] at hright
    cases hright
  · rintro ⟨hi, h⟩
    have hP : P s = true := by simpa using h.mem 0 h.pos
    have hlt := hn s hP
    exact ⟨s, ⟨by omega, hP, h.left⟩, rfl, chainLen_eq (h.length_le hd hn) h.mem h.right⟩

/-- **The list is the maximal chains**, no other and none missed. -/
theorem mem_chains {s k : ℕ} : (s, k) ∈ chains P d n ↔ IsMaximal P d s k := by
  rw [chains, mem_chainsFrom hd hn, and_iff_right (Nat.zero_le s)]

end Bounded

/-! ### Unfolding along a scan -/

/-- The positions strictly inside a stride that begins at a hit are no hits. -/
def Separated (P : ℕ → Bool) (d : ℕ) : Prop :=
  ∀ i, P i = true → ∀ e, 0 < e → e < d → P (i + e) = false

theorem separated_one : Separated P 1 := by
  intro i _ e hpos hlt
  omega

/-- No chain that starts before `i` reaches `i` or jumps over it. -/
structure Boundary (P : ℕ → Bool) (d i : ℕ) : Prop where
  inside : ∀ e, 0 < e → e < d → e ≤ i → P (i - e) = false
  stride : d ≤ i → P (i - d) = true → P i = false

theorem boundary_zero (hd : 0 < d) : Boundary P d 0 where
  inside := by
    intro e hpos _ hle
    omega
  stride := by
    intro hle
    omega

theorem boundary_succ {i : ℕ} (hd : 0 < d) (h : Boundary P d i) (hi : P i = false) :
    Boundary P d (i + 1) where
  inside := by
    intro e hpos hlt hle
    by_cases hone : e = 1
    · rw [hone, Nat.add_sub_cancel]
      exact hi
    · rw [show i + 1 - e = i - (e - 1) from by omega]
      exact h.inside (e - 1) (by omega) (by omega) (by omega)
  stride := by
    intro hle hprev
    by_cases hone : d ≤ 1
    · rw [show i + 1 - d = i from by omega, hi] at hprev
      cases hprev
    · rw [show i + 1 - d = i - (d - 1) from by omega,
        h.inside (d - 1) (by omega) (by omega) (by omega)] at hprev
      cases hprev

/-- What the scan of one chain from `i` has seen: `k` hits, then none. -/
structure Found (P : ℕ → Bool) (d i k : ℕ) : Prop where
  pos : 0 < k
  mem : ∀ j < k, P (i + d * j) = true
  right : P (i + d * k) = false

theorem boundary_chain {i k : ℕ} (hsep : Separated P d) (h : Found P d i k) :
    Boundary P d (i + d * k) where
  inside := by
    intro e hpos hlt _
    have hk := h.pos
    obtain ⟨k, rfl⟩ : ∃ k', k = k' + 1 := ⟨k - 1, by omega⟩
    rw [show i + d * (k + 1) - e = i + d * k + (d - e) from by rw [Nat.mul_succ]; omega]
    exact hsep _ (h.mem k (Nat.lt_succ_self k)) (d - e) (by omega) (by omega)
  stride := fun _ _ => h.right

theorem Boundary.isMaximal {i k : ℕ} (hb : Boundary P d i) (h : Found P d i k) :
    IsMaximal P d i k where
  pos := h.pos
  mem := h.mem
  left := by
    intro hle
    cases hprev : P (i - d) with
    | false => rfl
    | true =>
      have hi : P i = true := by simpa using h.mem 0 h.pos
      rw [hb.stride hle hprev] at hi
      cases hi
  right := h.right

theorem chainsFrom_of_le {i : ℕ} (h : n ≤ i) : chainsFrom P d n i = [] := by
  rw [chainsFrom, Nat.sub_eq_zero_of_le h]
  rfl

theorem chainsFrom_of_not_start {i : ℕ} (h : isStart P d i = false) :
    chainsFrom P d n i = chainsFrom P d n (i + 1) := by
  rcases Nat.lt_or_ge i n with hlt | hge
  · rw [chainsFrom, chainsFrom, show n - i = (n - (i + 1)) + 1 from by omega,
      List.range'_succ, List.filter_cons_of_neg (by simp [h])]
  · rw [chainsFrom_of_le hge, chainsFrom_of_le (Nat.le_succ_of_le hge)]

/-- Outside a chain the scan moves on by one. -/
theorem chainsFrom_of_false {i : ℕ} (h : P i = false) :
    chainsFrom P d n i = chainsFrom P d n (i + 1) :=
  chainsFrom_of_not_start (by simp [isStart, h])

/-- A stretch without starts is skipped. -/
theorem chainsFrom_skip {i m : ℕ} (h : ∀ r < m, isStart P d (i + r) = false) :
    chainsFrom P d n i = chainsFrom P d n (i + m) := by
  induction m with
  | zero => rfl
  | succ m ih =>
    rw [ih fun r hr => h r (Nat.lt_succ_of_lt hr),
      chainsFrom_of_not_start (h m (Nat.lt_succ_self m))]
    rfl

/-- Between the start of a chain and its end nothing else starts: a position is either on the
chain, with a hit one stride before it, or inside a stride. -/
theorem not_isStart_of_found {i k r : ℕ} (hd : 0 < d) (hsep : Separated P d)
    (h : Found P d i k) (hpos : 0 < r) (hlt : r < d * k) : isStart P d (i + r) = false := by
  have hdiv := Nat.div_add_mod r d
  have hmod := Nat.mod_lt r hd
  have hq : r / d < k := Nat.div_lt_of_lt_mul hlt
  by_cases hzero : r % d = 0
  · have hne : r / d ≠ 0 := by
      intro hnil
      rw [hnil, Nat.mul_zero] at hdiv
      omega
    obtain ⟨q, hq'⟩ := Nat.exists_eq_succ_of_ne_zero hne
    have hprev : P (i + r - d) = true := by
      rw [hq', Nat.mul_succ] at hdiv
      rw [show i + r - d = i + d * q from by omega]
      exact h.mem q (by omega)
    simp only [isStart, hprev, Bool.and_true, Bool.and_eq_false_iff, Bool.not_eq_false',
      decide_eq_true_eq]
    right
    rw [hq', Nat.mul_succ] at hdiv
    omega
  · have hnone := hsep _ (h.mem _ hq) (r % d) (by omega) hmod
    rw [Nat.add_assoc, hdiv] at hnone
    simp [isStart, hnone]

/-- **A chain found at a boundary** is the next one listed, and the scan resumes behind it. -/
theorem chainsFrom_of_chain {i k : ℕ} (hd : 0 < d) (hn : ∀ i, P i = true → i < n)
    (hsep : Separated P d) (hb : Boundary P d i) (h : Found P d i k) :
    chainsFrom P d n i = (i, k) :: chainsFrom P d n (i + d * k) := by
  have hmax := hb.isMaximal h
  have hP : P i = true := by simpa using h.mem 0 h.pos
  have hlen : chainLen P d n i = k := chainLen_eq (hmax.length_le hd hn) h.mem h.right
  have hstart : isStart P d i = true := isStart_iff.mpr ⟨hP, hmax.left⟩
  have hrest : chainsFrom P d n (i + 1) = chainsFrom P d n (i + d * k) := by
    have hk : 0 < d * k := Nat.mul_pos hd h.pos
    rw [chainsFrom_skip (m := d * k - 1), show i + 1 + (d * k - 1) = i + d * k from by omega]
    intro r hr
    rw [Nat.add_assoc]
    exact not_isStart_of_found hd hsep h (by omega) (by omega)
  rw [← hrest, chainsFrom, chainsFrom, show n - i = (n - (i + 1)) + 1 from by
    have := hn i hP
    omega, List.range'_succ, List.filter_cons_of_pos hstart, List.map_cons, hlen]

/-! ### Disjointness -/

/-- A start belongs to one maximal chain only. -/
theorem IsMaximal.unique {s k k' : ℕ} (h : IsMaximal P d s k) (h' : IsMaximal P d s k') :
    k = k' := by
  rcases Nat.lt_trichotomy k k' with hlt | heq | hgt
  · have hmem := h'.mem k hlt
    rw [h.right] at hmem
    cases hmem
  · exact heq
  · have hmem := h.mem k' hgt
    rw [h'.right] at hmem
    cases hmem

/-- Maximal chains follow one another: the next one starts behind the last stride. -/
theorem IsMaximal.le_of_lt {s k s' k' : ℕ} (hd : 0 < d) (hsep : Separated P d)
    (h : IsMaximal P d s k) (h' : IsMaximal P d s' k') (hlt : s < s') : s + d * k ≤ s' := by
  by_contra hinside
  have hnone := not_isStart_of_found hd hsep ⟨h.pos, h.mem, h.right⟩
    (show 0 < s' - s by omega) (by omega)
  have hP : P s' = true := by simpa using h'.mem 0 h'.pos
  rw [Nat.add_sub_cancel' (Nat.le_of_lt hlt), isStart_iff.mpr ⟨hP, h'.left⟩] at hnone
  cases hnone

/-! ### Two tests in one -/

/-- `P` is `P₁` up to `m`, nothing from there to `m'`, and `P₂` moved by `m'` behind that; it has
no hit in the last stride in front of `m'`. -/
structure Concat (P P₁ P₂ : ℕ → Bool) (d m m' : ℕ) : Prop where
  le : m ≤ m'
  front : ∀ i < m, P i = P₁ i
  front_lt : ∀ i, P₁ i = true → i < m
  gap : ∀ i, m ≤ i → i < m' → P i = false
  stride : ∀ i, i < m' → m' ≤ i + d → P i = false
  back : ∀ i, P (m' + i) = P₂ i

namespace Concat

variable {P₁ P₂ : ℕ → Bool} {m m' : ℕ} (h : Concat P P₁ P₂ d m m')

include h

/-- In front of the gap the two tests agree, and so do the chains. -/
theorem isMaximal_front (hd : 0 < d) {s k : ℕ} (hmax : IsMaximal P₁ d s k) :
    IsMaximal P d s k := by
  have hmem : ∀ j < k, P (s + d * j) = true := by
    intro j hj
    have hP₁ := hmax.mem j hj
    rw [h.front _ (h.front_lt _ hP₁)]
    exact hP₁
  refine ⟨hmax.pos, hmem, fun hle => ?_, ?_⟩
  · have hlt := h.front_lt s (by simpa using hmax.mem 0 hmax.pos)
    rw [h.front _ (by omega)]
    exact hmax.left hle
  · have hpos := hmax.pos
    have hlast := h.front_lt _ (hmax.mem (k - 1) (by omega))
    have hnext : s + d * k = s + d * (k - 1) + d := by
      obtain ⟨k, rfl⟩ : ∃ k', k = k' + 1 := ⟨k - 1, by omega⟩
      rw [Nat.add_sub_cancel, Nat.mul_succ, Nat.add_assoc]
    rcases Nat.lt_or_ge (s + d * k) m with hlt | hge
    · rw [h.front _ hlt]
      exact hmax.right
    · apply h.gap _ hge
      -- a chain that jumped the gap would have a hit in the last stride
      by_contra hjump
      have hle := h.le
      have hnone := h.stride (s + d * (k - 1)) (by omega) (by omega)
      rw [hmem (k - 1) (by omega)] at hnone
      cases hnone

theorem isMaximal_back {s k : ℕ} (hmax : IsMaximal P₂ d s k) : IsMaximal P d (m' + s) k := by
  refine ⟨hmax.pos, fun j hj => ?_, fun hle => ?_, ?_⟩
  · rw [Nat.add_assoc, h.back]
    exact hmax.mem j hj
  · rcases Nat.lt_or_ge s d with hlt | hge
    · exact h.stride _ (by omega) (by omega)
    · rw [show m' + s - d = m' + (s - d) from by omega, h.back]
      exact hmax.left hge
  · rw [Nat.add_assoc, h.back]
    exact hmax.right

/-- A start in front of the gap is one of the first test. -/
theorem isStart_front {s : ℕ} (hs : s < m) : isStart P d s = isStart P₁ d s := by
  unfold isStart
  rw [h.front s hs]
  by_cases hle : d ≤ s
  · rw [h.front (s - d) (by omega)]
  · simp [hle]

theorem isStart_gap {s : ℕ} (hs : m ≤ s) (hs' : s < m') : isStart P d s = false := by
  rw [isStart, h.gap s hs hs', Bool.false_and]

theorem isStart_back (s : ℕ) : isStart P d (m' + s) = isStart P₂ d s := by
  unfold isStart
  rw [h.back]
  by_cases hle : d ≤ s
  · have hle' : d ≤ m' + s := by omega
    rw [show m' + s - d = m' + (s - d) from by omega, h.back]
    simp [hle, hle']
  · by_cases hle' : d ≤ m' + s
    · rw [h.stride (m' + s - d) (by omega) (by omega)]
      simp [hle]
    · simp [hle, hle']

end Concat

/-- **Chains of two tests in one** are the chains of the first and then those of the second. -/
theorem chains_concat {P₁ P₂ : ℕ → Bool} {m m' : ℕ} (hd : 0 < d)
    (hn : ∀ i, P i = true → i < n) (hle : m' ≤ n) (h : Concat P P₁ P₂ d m m') :
    chains P d n =
      chains P₁ d m ++ (chains P₂ d (n - m')).map fun c => (m' + c.1, c.2) := by
  have hn₂ : ∀ i, P₂ i = true → i < n - m' := by
    intro i hi
    rw [← h.back] at hi
    have := hn _ hi
    omega
  have hsplit : List.range' 0 n =
      List.range' 0 m ++ (List.range' m (m' - m) ++ (List.range' 0 (n - m')).map (m' + ·)) := by
    have hmm := h.le
    have hlow := @List.range'_append_1 0 m (n - m)
    have hhigh := @List.range'_append_1 m (m' - m) (n - m')
    rw [Nat.zero_add, Nat.add_sub_cancel' (Nat.le_trans hmm hle)] at hlow
    rw [Nat.add_sub_cancel' hmm, show m' - m + (n - m') = n - m from by omega] at hhigh
    rw [List.map_add_range', Nat.add_zero, hhigh, hlow]
  have hgap : (List.range' m (m' - m)).filter (isStart P d) = [] := by
    rw [List.filter_eq_nil_iff]
    intro s hs
    rw [List.mem_range'_1] at hs
    rw [h.isStart_gap hs.1 (by omega)]
    exact Bool.false_ne_true
  have hfront : (List.range' 0 m).filter (isStart P d) =
      (List.range' 0 m).filter (isStart P₁ d) := by
    apply List.filter_congr
    intro s hs
    rw [List.mem_range'_1] at hs
    exact h.isStart_front (by omega)
  have hback : ((List.range' 0 (n - m')).map (m' + ·)).filter (isStart P d) =
      ((List.range' 0 (n - m')).filter (isStart P₂ d)).map (m' + ·) := by
    rw [List.filter_map]
    congr 2
    funext s
    exact h.isStart_back s
  unfold chains chainsFrom
  rw [Nat.sub_zero, Nat.sub_zero, Nat.sub_zero, hsplit, List.filter_append, List.filter_append,
    hgap, List.nil_append, hfront, hback, List.map_append, List.map_map, List.map_map]
  congr 1
  · apply List.map_congr_left
    intro s hs
    have hmem : (s, chainLen P₁ d m s) ∈ chains P₁ d m := List.mem_map_of_mem hs
    have hmax := h.isMaximal_front hd ((mem_chains hd h.front_lt).mp hmem)
    rw [chainLen_eq (hmax.length_le hd hn) hmax.mem hmax.right]
  · apply List.map_congr_left
    intro s hs
    have hmem : (s, chainLen P₂ d (n - m') s) ∈ chains P₂ d (n - m') := List.mem_map_of_mem hs
    have hmax := h.isMaximal_back ((mem_chains hd hn₂).mp hmem)
    show (m' + s, chainLen P d n (m' + s)) = (m' + s, chainLen P₂ d (n - m') s)
    rw [chainLen_eq (hmax.length_le hd hn) hmax.mem hmax.right]

end VgiDisasm.Chains
