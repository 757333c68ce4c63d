import Mathlib.Algebra.Group.Action.Defs
import Mathlib.Algebra.Ring.Nat

/-!
# One-step decoders, bulk decoding and the resuming sweep

A `Decoder` reads one item off the front of a byte string standing at an address, and
reports how many bytes it read: at least one, at most what is there.  Two programs run it:

* `bulk` decodes item after item and stops at the first failure or the end of the bytes;
* `sweep` never stops early: where the decoder fails it reports the single byte and
  resumes at the next one.

`sweep_eq_bulk` is the link an implementation in terms of the bulk decoder needs: a sweep
is one bulk answer followed by the sweep of what that answer left over.
-/

namespace VgiDisasm

/-- A stateless one-step decoder whose items have lengths `len`. -/
structure Decoder (β α ι : Type*) (len : ι → ℕ) where
  decode : List β → α → Option ι
  len_pos : ∀ {bs a i}, decode bs a = some i → 0 < len i
  len_le : ∀ {bs a i}, decode bs a = some i → len i ≤ bs.length

namespace Decoder

variable {α β ι ρ : Type*} {len : ι → ℕ} (D : Decoder β α ι len)

/-- What a decode leaves is shorter: every recursion below descends on it. -/
theorem length_drop_lt {bs : List β} {a : α} {i : ι} (h : D.decode bs a = some i) :
    (bs.drop (len i)).length < bs.length := by
  have hpos := D.len_pos h
  have hle := D.len_le h
  rw [List.length_drop]
  omega

theorem decode_nil (a : α) : D.decode [] a = none := by
  cases h : D.decode [] a with
  | none => rfl
  | some i =>
    have hlt := D.length_drop_lt h
    simp at hlt

variable [AddAction ℕ α]

/-- Decode item after item until the first failure. -/
def bulk (bs : List β) (a : α) : List ι :=
  match _h : D.decode bs a with
  | none => []
  | some i => i :: bulk (bs.drop (len i)) (len i +ᵥ a)
termination_by bs.length
decreasing_by exact D.length_drop_lt _h

/-- The reference sweep: at each offset the decoder's item, or the one bad byte. -/
def sweep (good : ι → ρ) (bad : α → β → ρ) (bs : List β) (a : α) : List ρ :=
  match bs with
  | [] => []
  | b :: rest =>
    match _h : D.decode (b :: rest) a with
    | none => bad a b :: sweep good bad rest (1 +ᵥ a)
    | some i => good i :: sweep good bad ((b :: rest).drop (len i)) (len i +ᵥ a)
termination_by bs.length
decreasing_by
  · simp
  · exact D.length_drop_lt _h

theorem bulk_none {bs : List β} {a : α} (h : D.decode bs a = none) : D.bulk bs a = [] := by
  rw [bulk]
  split
  · rfl
  · simp_all

theorem bulk_some {bs : List β} {a : α} {i : ι} (h : D.decode bs a = some i) :
    D.bulk bs a = i :: D.bulk (bs.drop (len i)) (len i +ᵥ a) := by
  rw [bulk]
  split
  · simp_all
  · simp_all

theorem bulk_eq_nil {bs : List β} {a : α} : D.bulk bs a = [] ↔ D.decode bs a = none := by
  cases h : D.decode bs a with
  | none => simp [D.bulk_none h]
  | some i => simp [D.bulk_some h]

/-- Every item of a bulk answer is decoded somewhere. -/
theorem decode_of_mem_bulk {bs : List β} {a : α} :
    ∀ i ∈ D.bulk bs a, ∃ bs' a', D.decode bs' a' = some i := by
  fun_induction bulk D bs a with
  | case1 => simp
  | case2 bs a i h ih => exact List.forall_mem_cons.mpr ⟨⟨bs, a, h⟩, ih⟩

theorem len_pos_of_mem_bulk {bs : List β} {a : α} : ∀ i ∈ D.bulk bs a, 0 < len i := by
  intro i hi
  obtain ⟨bs', a', h⟩ := D.decode_of_mem_bulk i hi
  exact D.len_pos h

variable (good : ι → ρ) (bad : α → β → ρ)

theorem sweep_nil (a : α) : D.sweep good bad [] a = [] := by
  rw [sweep]

theorem sweep_none {b : β} {bs : List β} {a : α} (h : D.decode (b :: bs) a = none) :
    D.sweep good bad (b :: bs) a = bad a b :: D.sweep good bad bs (1 +ᵥ a) := by
  rw [sweep]
  split
  · rfl
  · simp_all

theorem sweep_some {bs : List β} {a : α} {i : ι} (h : D.decode bs a = some i) :
    D.sweep good bad bs a = good i :: D.sweep good bad (bs.drop (len i)) (len i +ᵥ a) := by
  cases bs with
  | nil => simp [D.decode_nil] at h
  | cons b bs =>
    rw [sweep]
    split
    · simp_all
    · simp_all

/-- **A sweep is one bulk answer and the sweep of the rest.** -/
theorem sweep_eq_bulk (bs : List β) (a : α) :
    D.sweep good bad bs a =
      (D.bulk bs a).map good ++
        D.sweep good bad (bs.drop ((D.bulk bs a).map len).sum)
          (((D.bulk bs a).map len).sum +ᵥ a) := by
  fun_induction bulk D bs a with
  | case1 bs a h => simp
  | case2 bs a i h ih =>
    rw [D.sweep_some good bad h]
    simp only [List.map_cons, List.sum_cons, List.cons_append, List.cons.injEq, true_and]
    rw [ih, List.drop_drop, ← add_vadd, Nat.add_comm ((List.map len _).sum)]

/-! ### Items and the cap of a batched sweep -/

theorem map_sweep {κ : Type*} (f : ρ → κ) (bs : List β) (a : α) :
    (D.sweep good bad bs a).map f =
      D.sweep (fun i => f (good i)) (fun a b => f (bad a b)) bs a := by
  fun_induction sweep D good bad bs a with
  | case1 a => rw [D.sweep_nil, List.map_nil]
  | case2 a b rest h ih => rw [List.map_cons, ih, D.sweep_none _ _ h]
  | case3 a b rest i h ih => rw [List.map_cons, ih, D.sweep_some _ _ h]

/-- The sweep as decoded items and bad bytes. -/
def items (bs : List β) (a : α) : List (Option ι) := D.sweep some (fun _ _ => none) bs a

theorem length_sweep (bs : List β) (a : α) :
    (D.sweep good bad bs a).length = (D.items bs a).length := by
  have hgood := congrArg List.length (D.map_sweep good bad (fun _ => ()) bs a)
  have hitems := congrArg List.length (D.map_sweep some (fun _ _ => none) (fun _ => ()) bs a)
  rw [List.length_map] at hgood hitems
  exact hgood.trans hitems.symm

/-- Every item takes a byte. -/
theorem length_items_le (bs : List β) (a : α) : (D.items bs a).length ≤ bs.length := by
  unfold items
  fun_induction sweep D some (fun _ _ => none) bs a with
  | case1 a => exact Nat.le_refl 0
  | case2 a b rest h ih =>
    rw [List.length_cons, List.length_cons]
    exact Nat.succ_le_succ ih
  | case3 a b rest i h ih =>
    have hpos := D.len_pos h
    rw [List.length_drop, List.length_cons] at ih
    rw [List.length_cons, List.length_cons]
    omega

theorem items_nil (a : α) : D.items [] a = [] := D.sweep_nil _ _ a

theorem items_none {b : β} {bs : List β} {a : α} (h : D.decode (b :: bs) a = none) :
    D.items (b :: bs) a = none :: D.items bs (1 +ᵥ a) := D.sweep_none _ _ h

theorem items_eq_bulk (bs : List β) (a : α) :
    D.items bs a =
      (D.bulk bs a).map some ++
        D.items (bs.drop ((D.bulk bs a).map len).sum) (((D.bulk bs a).map len).sum +ᵥ a) :=
  D.sweep_eq_bulk _ _ bs a

/-- A bulk answer ends where nothing decodes. -/
theorem decode_after_bulk (bs : List β) (a : α) :
    D.decode (bs.drop ((D.bulk bs a).map len).sum) (((D.bulk bs a).map len).sum +ᵥ a) = none := by
  fun_induction bulk D bs a with
  | case1 bs a h => simpa using h
  | case2 bs a i h ih =>
    simp only [List.map_cons, List.sum_cons]
    rwa [List.drop_drop, ← add_vadd, Nat.add_comm _ (len i)] at ih

/-- Where nothing decodes, no item is first. -/
theorem items_head {bs : List β} {a : α} (h : D.decode bs a = none) (j : ι) :
    (D.items bs a)[0]? ≠ some (some j) := by
  cases bs with
  | nil => simp [D.items_nil]
  | cons b bs => simp [D.items_none h]

/-- A cap of `room` does not fall between two decoded items. -/
def FitsAt (items : List (Option ι)) (room : ℕ) : Prop :=
  ∀ k, room = k + 1 → ∀ i j, items[k]? = some (some i) → items[k + 1]? ≠ some (some j)

theorem fitsAt_zero (items : List (Option ι)) : FitsAt items 0 := by
  intro k hk
  omega

/-- A cap that is not reached cuts nothing. -/
theorem fitsAt_of_le {items : List (Option ι)} {room : ℕ} (h : items.length ≤ room) :
    FitsAt items room := by
  intro k hk i j hi
  rw [List.getElem?_eq_none (by omega)]
  exact Option.some_ne_none _ |>.symm

/-- A bad byte uses up one place. -/
theorem fitsAt_bad (items : List (Option ι)) (room : ℕ) :
    FitsAt (none :: items) (room + 1) ↔ FitsAt items room := by
  constructor
  · intro h k hk i j hi
    exact h (k + 1) (by omega) i j (by simpa using hi)
  · intro h k hk i j hi
    cases k with
    | zero => simp at hi
    | succ k => simpa using h k (by omega) i j (by simpa using hi)

/-- A whole batch uses up its length; its end is no place between two decoded items. -/
theorem fitsAt_batch {batch : List ι} {items : List (Option ι)} {room : ℕ}
    (hhead : ∀ j, items[0]? ≠ some (some j)) (hle : batch.length ≤ room) :
    FitsAt (batch.map some ++ items) room ↔ FitsAt items (room - batch.length) := by
  have hshift : ∀ k, batch.length ≤ k →
      (batch.map some ++ items)[k]? = items[k - batch.length]? := by
    intro k hk
    rw [List.getElem?_append_right (by simpa using hk), List.length_map]
  constructor
  · intro h k hk i j hi
    have hsub : batch.length + k - batch.length = k := by omega
    have hsub' : batch.length + k + 1 - batch.length = k + 1 := by omega
    have hcut := h (batch.length + k) (by omega) i j
    rw [hshift _ (by omega), hshift _ (by omega), hsub, hsub'] at hcut
    exact hcut hi
  · intro h k hk i j hi
    rcases Nat.lt_or_ge k batch.length with hlt | hge
    · rw [hshift _ (by omega), show k + 1 - batch.length = 0 from by omega]
      exact hhead j
    · rw [hshift _ hge] at hi
      rw [hshift _ (by omega), show k + 1 - batch.length = k - batch.length + 1 from by omega]
      exact h (k - batch.length) (by omega) i j hi

/-- The cap falls inside a batch that is longer than the room. -/
theorem not_fitsAt_batch {batch : List ι} {items : List (Option ι)} {room : ℕ}
    (hpos : 0 < room) (hlt : room < batch.length) : ¬ FitsAt (batch.map some ++ items) room := by
  obtain ⟨k, rfl⟩ : ∃ k, room = k + 1 := ⟨room - 1, by omega⟩
  intro h
  have hin : ∀ n (hn : n < batch.length), (batch.map some ++ items)[n]? = some (some batch[n]) := by
    intro n hn
    rw [List.getElem?_append_left (by simpa using hn), List.getElem?_map,
      List.getElem?_eq_getElem hn, Option.map_some]
  exact h k rfl _ _ (hin k (by omega)) (hin (k + 1) hlt)

end Decoder

end VgiDisasm
