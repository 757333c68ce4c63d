import Mathlib.Algebra.Group.Action.Defs
import Mathlib.Algebra.Ring.Nat
import Mathlib.Data.List.Chain
import Mathlib.Data.List.Forall2

/-!
# Rows that tile a byte string

A row has an address and a non-empty list of bytes.  Addresses live in any type on which
lengths act additively (`AddAction ℕ α`; machine words act by wrapping addition), so
"the next address" makes sense modulo the word size.  `Consecutive a rows` says that the
rows lie one behind the other from `a`: no gap, no overlap.  The bytes they cover are
`rows.flatMap bytes`.

* `consecutive_append`, `consecutive_map`, `Consecutive.take`: splitting, relabelling and
  truncating.
* `consecutive_iff_getElem`: the address of row `j` is `a` advanced by the lengths before it.
* `Consecutive.extent`: every row is a window of the covered bytes, at the matching address.
* `Consecutive.cover`: every covered byte is in some row, at the matching place.
* `Consecutive.isChain`: if advancing from `a` is monotone over the covered length, the
  addresses are ordered.
* `Consecutive.lockstep`: two tilings of one byte string with equal lengths have equal bytes, and
  addresses that stay related if advancing keeps the relation.
-/

namespace VgiDisasm.Extents

variable {α β ρ : Type*} [AddAction ℕ α] {addr : ρ → α} {bytes : ρ → List β}

/-- `rows` start at `a` and each one begins where the previous one ends. -/
def Consecutive (addr : ρ → α) (bytes : ρ → List β) : α → List ρ → Prop
  | _, [] => True
  | a, r :: rs =>
    addr r = a ∧ bytes r ≠ [] ∧ Consecutive addr bytes ((bytes r).length +ᵥ a) rs

theorem consecutive_append {xs ys : List ρ} {a : α} :
    Consecutive addr bytes a (xs ++ ys) ↔
      Consecutive addr bytes a xs ∧
        Consecutive addr bytes ((xs.flatMap bytes).length +ᵥ a) ys := by
  induction xs generalizing a with
  | nil => simp [Consecutive]
  | cons x xs ih =>
    simp only [List.cons_append, Consecutive, ih, List.flatMap_cons, List.length_append,
      and_assoc]
    rw [← add_vadd, Nat.add_comm]

theorem consecutive_map {ι : Type*} (f : ι → ρ) {xs : List ι} {a : α} :
    Consecutive addr bytes a (xs.map f) ↔ Consecutive (addr ∘ f) (bytes ∘ f) a xs := by
  induction xs generalizing a with
  | nil => simp [Consecutive]
  | cons x xs ih => simp only [List.map_cons, Consecutive, ih, Function.comp_apply]

theorem Consecutive.take {rows : List ρ} {a : α} (h : Consecutive addr bytes a rows) (n : ℕ) :
    Consecutive addr bytes a (rows.take n) := by
  rw [← List.take_append_drop n rows] at h
  exact (consecutive_append.mp h).1

theorem Consecutive.head? {rows : List ρ} {a : α} (h : Consecutive addr bytes a rows) :
    ∀ r ∈ rows.head?, addr r = a := by
  intro r hr
  cases rows with
  | nil => simp at hr
  | cons x xs =>
    obtain rfl : x = r := by simpa using hr
    exact h.1

/-- Rows with bytes are no more than the bytes they cover. -/
theorem length_le_length_flatMap {rows : List ρ} (h : ∀ r ∈ rows, bytes r ≠ []) :
    rows.length ≤ (rows.flatMap bytes).length := by
  induction rows with
  | nil => simp
  | cons x xs ih =>
    obtain ⟨hx, hxs⟩ := List.forall_mem_cons.mp h
    have hpos := List.length_pos_iff.mpr hx
    have := ih hxs
    rw [List.flatMap_cons, List.length_append, List.length_cons]
    omega

/-- Row by row: non-empty bytes, and the address advanced by the lengths before it. -/
theorem consecutive_iff_getElem {rows : List ρ} {a : α} :
    Consecutive addr bytes a rows ↔
      (∀ r ∈ rows, bytes r ≠ []) ∧
        ∀ (j : ℕ) (hj : j < rows.length),
          addr rows[j] = ((rows.take j).map fun r => (bytes r).length).sum +ᵥ a := by
  induction rows generalizing a with
  | nil => simp [Consecutive]
  | cons x xs ih =>
    rw [Consecutive, ih]
    constructor
    · rintro ⟨hx, hne, hall, haddr⟩
      refine ⟨List.forall_mem_cons.mpr ⟨hne, hall⟩, ?_⟩
      intro j hj
      cases j with
      | zero => simpa using hx
      | succ j =>
        have := haddr j (by simpa using hj)
        rw [← add_vadd] at this
        simpa [Nat.add_comm] using this
    · rintro ⟨hall, haddr⟩
      obtain ⟨hne, hall⟩ := List.forall_mem_cons.mp hall
      have hx := haddr 0 (Nat.zero_lt_succ _)
      simp only [List.getElem_cons_zero, List.take_zero, List.map_nil, List.sum_nil,
        zero_vadd] at hx
      refine ⟨hx, hne, hall, ?_⟩
      intro j hj
      have := haddr (j + 1) (by simpa using hj)
      rw [← add_vadd]
      simpa [Nat.add_comm] using this

/-- **Every row is a window.**  It covers `k .. k + len` of the covered bytes and stands at
the start address advanced by that same `k`. -/
theorem Consecutive.extent {rows : List ρ} {a : α} (h : Consecutive addr bytes a rows)
    {r : ρ} (hr : r ∈ rows) :
    ∃ k : ℕ, addr r = k +ᵥ a ∧ k + (bytes r).length ≤ (rows.flatMap bytes).length ∧
      bytes r = ((rows.flatMap bytes).drop k).take (bytes r).length := by
  obtain ⟨pre, post, rfl⟩ := List.append_of_mem hr
  have hmid := (consecutive_append.mp h).2
  refine ⟨(pre.flatMap bytes).length, hmid.1, ?_, ?_⟩
  · simp only [List.flatMap_append, List.flatMap_cons, List.length_append]
    omega
  · rw [List.flatMap_append, List.flatMap_cons, List.drop_left, List.take_left]

/-- **Every byte is in a row.**  The byte at `k` is byte `k - j` of a row that stands at the start
address advanced by some `j ≤ k`. -/
theorem Consecutive.cover {rows : List ρ} {a : α} (h : Consecutive addr bytes a rows) {k : ℕ}
    (hk : k < (rows.flatMap bytes).length) :
    ∃ r ∈ rows, ∃ j : ℕ, addr r = j +ᵥ a ∧ j ≤ k ∧ k < j + (bytes r).length ∧
      (bytes r)[k - j]? = (rows.flatMap bytes)[k]? := by
  induction rows generalizing a k with
  | nil => exact absurd hk (Nat.not_lt_zero k)
  | cons x xs ih =>
    obtain ⟨hx, -, htail⟩ := h
    rw [List.flatMap_cons, List.length_append] at hk
    rcases Nat.lt_or_ge k (bytes x).length with hlt | hge
    · refine ⟨x, List.mem_cons_self, 0, ?_, Nat.zero_le k, by omega, ?_⟩
      · rw [hx, zero_vadd]
      · rw [List.flatMap_cons, List.getElem?_append_left hlt, Nat.sub_zero]
    · obtain ⟨r, hr, j, haddr, hle, hlt, hbyte⟩ :=
        ih htail (show k - (bytes x).length < (xs.flatMap bytes).length by omega)
      refine ⟨r, List.mem_cons_of_mem x hr, (bytes x).length + j, ?_, by omega, by omega, ?_⟩
      · rw [haddr, ← add_vadd, Nat.add_comm]
      · rw [List.flatMap_cons, List.getElem?_append_right hge, ← hbyte, Nat.sub_add_eq]

theorem Consecutive.isChain {R : α → α → Prop} {rows : List ρ} {a : α}
    (h : Consecutive addr bytes a rows)
    (hR : ∀ j k : ℕ, j ≤ k → k < (rows.flatMap bytes).length → R (j +ᵥ a) (k +ᵥ a)) :
    (rows.map addr).IsChain R := by
  induction rows generalizing a with
  | nil => simp
  | cons x xs ih =>
    obtain ⟨rfl, hne, htail⟩ := h
    rw [List.map_cons, List.isChain_cons]
    constructor
    · intro y hy
      cases xs with
      | nil => simp at hy
      | cons z zs =>
        obtain rfl : addr z = y := by simpa using hy
        rw [htail.1]
        have hz : 0 < (bytes z).length := List.length_pos_iff.mpr htail.2.1
        have := hR 0 (bytes x).length (Nat.zero_le _) (by simp; omega)
        rwa [zero_vadd] at this
    · apply ih htail
      intro j k hjk hk
      rw [← add_vadd, ← add_vadd]
      apply hR _ _ (by omega)
      simp only [List.flatMap_cons, List.length_append]
      omega

/-- **Two tilings in lock-step.**  Rows of equal features, hence of equal lengths, that tile the
same bytes from related addresses have the same bytes at related addresses. -/
theorem Consecutive.lockstep {δ : Type*} {feature : ρ → δ} {R : α → α → Prop}
    (hlen : ∀ x y, feature x = feature y → (bytes x).length = (bytes y).length)
    (hR : ∀ (n : ℕ) (a b : α), R a b → R (n +ᵥ a) (n +ᵥ b)) {xs ys : List ρ} {a b : α}
    (hxs : Consecutive addr bytes a xs) (hys : Consecutive addr bytes b ys)
    (hfeature : xs.map feature = ys.map feature) (hbytes : xs.flatMap bytes = ys.flatMap bytes)
    (hab : R a b) :
    List.Forall₂ (fun x y => R (addr x) (addr y) ∧ bytes x = bytes y ∧ feature x = feature y)
      xs ys := by
  induction xs generalizing ys a b with
  | nil =>
    cases List.map_eq_nil_iff.mp hfeature.symm
    exact List.Forall₂.nil
  | cons x xs ih =>
    cases ys with
    | nil => cases hfeature
    | cons y ys =>
      obtain ⟨rfl, -, hxs⟩ := hxs
      obtain ⟨rfl, -, hys⟩ := hys
      rw [List.map_cons, List.map_cons, List.cons.injEq] at hfeature
      obtain ⟨hhead, htail⟩ := hfeature
      have hlength := hlen x y hhead
      rw [List.flatMap_cons, List.flatMap_cons] at hbytes
      obtain ⟨hx, hrest⟩ := List.append_inj hbytes hlength
      rw [← hlength] at hys
      exact List.Forall₂.cons ⟨hab, hx, hhead⟩ (ih hxs hys htail hrest (hR _ _ _ hab))

end VgiDisasm.Extents
