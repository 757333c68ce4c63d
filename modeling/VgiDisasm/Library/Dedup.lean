import Mathlib.Data.List.Induction
import Mathlib.Data.List.Perm.Subperm

/-!
# First occurrences under a cap

`fresh key xs` keeps of `xs` the elements whose key no earlier element has.  `pushNew` is the
accumulator step

    if out.len() >= cap { return }
    if !seen.contains(key(x)) { seen.push(key(x)); out.push(x) }

* `foldl_pushNew`: any run of such steps leaves the first `cap` elements of `fresh`.
* `mem_map_fresh`: no key is lost.
* `mem_fresh`: where the key determines the element, no element is lost either.
* `pairwise_fresh`, `fresh_append`: the order is that of the first occurrences, and the elements
  of a second list come behind those of the first.
* `length_fresh_le`: fewer keys leave fewer elements.
-/

namespace VgiDisasm.Dedup

variable {α κ : Type*} [DecidableEq κ] {key : α → κ}

/-- The elements of `xs` whose key neither an element of `pre` nor an earlier one of `xs` has. -/
def freshAfter (key : α → κ) : List α → List α → List α
  | _, [] => []
  | pre, x :: xs =>
    if key x ∈ pre.map key then freshAfter key (pre ++ [x]) xs
    else x :: freshAfter key (pre ++ [x]) xs

def fresh (key : α → κ) (xs : List α) : List α := freshAfter key [] xs

theorem freshAfter_append (pre xs ys : List α) :
    freshAfter key pre (xs ++ ys) = freshAfter key pre xs ++ freshAfter key (pre ++ xs) ys := by
  induction xs generalizing pre with
  | nil => rw [List.nil_append, List.append_nil, freshAfter, List.nil_append]
  | cons x xs ih =>
    rw [List.cons_append, freshAfter, freshAfter, ih, List.append_assoc, List.singleton_append]
    split
    · rfl
    · rfl

/-- One more element is kept exactly if its key is new. -/
theorem fresh_concat (xs : List α) (x : α) :
    fresh key (xs ++ [x]) = fresh key xs ++ if key x ∈ xs.map key then [] else [x] := by
  rw [fresh, freshAfter_append, List.nil_append, freshAfter]
  rfl

theorem fresh_concat_old {xs : List α} {x : α} (h : key x ∈ xs.map key) :
    fresh key (xs ++ [x]) = fresh key xs := by
  rw [fresh_concat, if_pos h, List.append_nil]

theorem fresh_concat_new {xs : List α} {x : α} (h : key x ∉ xs.map key) :
    fresh key (xs ++ [x]) = fresh key xs ++ [x] := by
  rw [fresh_concat, if_neg h]

theorem mem_map_freshAfter (pre xs : List α) {k : κ} (hk : k ∉ pre.map key) :
    k ∈ (freshAfter key pre xs).map key ↔ k ∈ xs.map key := by
  induction xs generalizing pre with
  | nil => rfl
  | cons x xs ih =>
    rw [freshAfter]
    by_cases hx : k = key x
    · rw [if_neg (hx ▸ hk), hx]
      simp
    · have hpre : k ∉ (pre ++ [x]).map key := by
        rw [List.map_append, List.mem_append, not_or]
        exact ⟨hk, by simpa using hx⟩
      have hrest := ih (pre ++ [x]) hpre
      split
      · rw [hrest, List.map_cons, List.mem_cons, or_iff_right hx]
      · rw [List.map_cons, List.map_cons, List.mem_cons, List.mem_cons, hrest]

/-- No key is lost. -/
theorem mem_map_fresh (xs : List α) (k : κ) : k ∈ (fresh key xs).map key ↔ k ∈ xs.map key :=
  mem_map_freshAfter [] xs (List.not_mem_nil)

theorem fresh_sublist (xs : List α) : (fresh key xs).Sublist xs := by
  have hall : ∀ pre, (freshAfter key pre xs).Sublist xs := by
    induction xs with
    | nil => exact fun pre => List.Sublist.refl []
    | cons x xs ih =>
      intro pre
      rw [freshAfter]
      split
      · exact (ih _).cons x
      · exact (ih _).cons_cons x
  exact hall []

theorem fresh_subset (xs : List α) : fresh key xs ⊆ xs := (fresh_sublist xs).subset

/-- **A key that determines the element loses nothing.** -/
theorem mem_fresh {xs : List α} (hkey : ∀ a ∈ xs, ∀ b ∈ xs, key a = key b → a = b) {x : α}
    (hx : x ∈ xs) : x ∈ fresh key xs := by
  obtain ⟨y, hy, hyx⟩ := List.mem_map.mp ((mem_map_fresh xs (key x)).mpr (List.mem_map_of_mem hx))
  rwa [← hkey y (fresh_subset xs hy) x hx hyx]

/-! ### Order and concatenation -/

theorem freshAfter_eq_filter (pre xs : List α) :
    freshAfter key pre xs = (fresh key xs).filter fun x => key x ∉ pre.map key := by
  induction xs using List.reverseRecOn with
  | nil => rfl
  | append_singleton xs x ih =>
    rw [freshAfter_append, ih, fresh_concat, List.filter_append, freshAfter]
    congr 1
    have hmem : key x ∈ (pre ++ xs).map key ↔ key x ∈ pre.map key ∨ key x ∈ xs.map key := by
      rw [List.map_append, List.mem_append]
    by_cases hxs : key x ∈ xs.map key
    · rw [if_pos (hmem.mpr (Or.inr hxs)), if_pos hxs]
      rfl
    · rw [if_neg hxs]
      by_cases hpre : key x ∈ pre.map key
      · rw [if_pos (hmem.mpr (Or.inl hpre)), List.filter_cons_of_neg (by simpa using hpre)]
        rfl
      · rw [if_neg (hmem.not.mpr (not_or.mpr ⟨hpre, hxs⟩)),
          List.filter_cons_of_pos (by simpa using hpre)]
        rfl

/-- Of a second list only the new keys are kept. -/
theorem fresh_append (xs ys : List α) :
    fresh key (xs ++ ys) = fresh key xs ++ (fresh key ys).filter fun y => key y ∉ xs.map key := by
  rw [fresh, freshAfter_append, List.nil_append, freshAfter_eq_filter xs ys]
  rfl

/-- **First occurrences keep their order.** -/
theorem pairwise_fresh (xs : List α) :
    (fresh key xs).Pairwise fun a b =>
      xs.findIdx (fun x => decide (key x = key a)) <
        xs.findIdx (fun x => decide (key x = key b)) := by
  induction xs using List.reverseRecOn with
  | nil => exact List.Pairwise.nil
  | append_singleton xs x ih =>
    have hold : ∀ a ∈ fresh key xs,
        xs.findIdx (fun x => decide (key x = key a)) < xs.length := by
      intro a ha
      exact List.findIdx_lt_length.mpr ⟨a, fresh_subset xs ha, decide_eq_true rfl⟩
    have hpairs : (fresh key xs).Pairwise fun a b =>
        (xs ++ [x]).findIdx (fun x => decide (key x = key a)) <
          (xs ++ [x]).findIdx (fun x => decide (key x = key b)) := by
      refine ih.imp_of_mem fun {a b} ha hb hlt => ?_
      rw [List.findIdx_append, List.findIdx_append, if_pos (hold a ha), if_pos (hold b hb)]
      exact hlt
    by_cases hx : key x ∈ xs.map key
    · rwa [fresh_concat_old hx]
    · rw [fresh_concat_new hx, List.pairwise_append]
      refine ⟨hpairs, List.pairwise_singleton _ _, fun a ha b hb => ?_⟩
      cases List.mem_singleton.mp hb
      have hlast : ¬ xs.findIdx (fun y => decide (key y = key x)) < xs.length := by
        intro hlt
        obtain ⟨y, hy, hkey⟩ := List.findIdx_lt_length.mp hlt
        exact hx (List.mem_map.mpr ⟨y, hy, of_decide_eq_true hkey⟩)
      rw [List.findIdx_append, List.findIdx_append, if_pos (hold a ha), if_neg hlast]
      exact Nat.lt_of_lt_of_le (hold a ha) (Nat.le_add_left _ _)

/-- The kept elements have different keys. -/
theorem nodup_map_fresh (xs : List α) : ((fresh key xs).map key).Nodup := by
  have horder : (fresh key xs).Pairwise fun a b =>
      xs.findIdx (fun x => decide (key x = key a)) <
        xs.findIdx (fun x => decide (key x = key b)) := pairwise_fresh xs
  rw [List.nodup_iff_pairwise_ne, List.pairwise_map]
  refine horder.imp fun {a b} hlt hkey => ?_
  rw [hkey] at hlt
  exact Nat.lt_irrefl _ hlt

/-- Fewer keys, fewer elements. -/
theorem length_fresh_le {xs ys : List α} (h : ∀ x ∈ xs, key x ∈ ys.map key) :
    (fresh key xs).length ≤ (fresh key ys).length := by
  have hsub : (fresh key xs).map key ⊆ (fresh key ys).map key := by
    intro k hk
    rw [mem_map_fresh] at hk ⊢
    obtain ⟨x, hx, rfl⟩ := List.mem_map.mp hk
    exact h x hx
  have hlen := ((nodup_map_fresh xs).subperm hsub).length_le
  rwa [List.length_map, List.length_map] at hlen

/-! ### The accumulator -/

/-- The rows out so far and the keys they have. -/
structure Acc (α κ : Type*) where
  out : List α
  seen : List κ

def pushNew (cap : ℕ) (key : α → κ) (s : Acc α κ) (x : α) : Acc α κ :=
  if s.out.length ≥ cap then s
  else if s.seen.contains (key x) then s
  else { out := s.out ++ [x], seen := s.seen ++ [key x] }

/-- What the accumulator holds after the elements of `pre`. -/
structure Holds (cap : ℕ) (key : α → κ) (pre : List α) (s : Acc α κ) : Prop where
  out : s.out = (fresh key pre).take cap
  seen : s.seen = s.out.map key

theorem holds_pushNew {cap : ℕ} {pre : List α} {s : Acc α κ} (h : Holds cap key pre s) (x : α) :
    Holds cap key (pre ++ [x]) (pushNew cap key s x) := by
  unfold pushNew
  split
  · -- the cap is reached: whatever follows is cut
    rename_i hcap
    refine ⟨?_, h.seen⟩
    have hlen : cap ≤ (fresh key pre).length := by
      rw [h.out, List.length_take] at hcap
      omega
    rw [h.out, fresh_concat, List.take_append_of_le_length hlen]
  · rename_i hcap
    have hout : s.out = fresh key pre := by
      rw [h.out, List.length_take] at hcap
      rw [h.out, List.take_of_length_le (by omega)]
    have hseen : s.seen.contains (key x) = true ↔ key x ∈ pre.map key := by
      rw [List.contains_iff_mem, h.seen, hout, mem_map_fresh]
    split
    · rename_i hold
      refine ⟨?_, h.seen⟩
      rw [fresh_concat_old (hseen.mp hold), ← h.out]
    · rename_i hnew
      refine ⟨?_, ?_⟩
      · rw [fresh_concat_new (hseen.not.mp hnew), ← hout, List.take_of_length_le]
        rw [List.length_append, List.length_singleton]
        omega
      · rw [List.map_append, ← h.seen]
        rfl

theorem foldl_holds {cap : ℕ} (xs pre : List α) {s : Acc α κ} (h : Holds cap key pre s) :
    Holds cap key (pre ++ xs) (xs.foldl (pushNew cap key) s) := by
  induction xs generalizing pre s with
  | nil => rwa [List.append_nil]
  | cons x xs ih =>
    have hrest := ih (pre ++ [x]) (holds_pushNew h x)
    rwa [List.append_assoc] at hrest

/-- **The accumulator is `fresh` under the cap.** -/
theorem foldl_pushNew (cap : ℕ) (key : α → κ) (xs : List α) :
    (xs.foldl (pushNew cap key) ⟨[], []⟩).out = (fresh key xs).take cap :=
  (foldl_holds xs [] ⟨List.take_nil.symm, rfl⟩).out

end VgiDisasm.Dedup
