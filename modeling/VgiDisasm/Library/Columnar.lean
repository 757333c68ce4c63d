import Mathlib.Algebra.Ring.Nat
import Mathlib.Data.List.Induction

/-!
# Columnar builders

A columnar format keeps the cells of a variable-length column back to back in one value buffer,
with an offset behind each of them, and the rows of a table as one column per field.  A builder
takes the rows one by one; it panics where an offset no longer fits its integer type.

`Builder` is a builder with its laws: which rows it can take, and that what it has built has
arrays of one length and reads back as these rows.  `plain` is a fixed-width column, `chunks` one of byte strings that may be
null, `list` a column of lists, `prod` two columns of one table and `comap` the encoding of a row.
`build_spec` then holds of every table made of them.
-/

namespace VgiDisasm.Columnar

variable {α β γ σ τ ρ : Type}

/-! ### Offsets -/

/-- What lies between successive offsets. -/
def slices (xs : List α) : List ℕ → List (List α)
  | lo :: hi :: offsets => (xs.take hi).drop lo :: slices xs (hi :: offsets)
  | _ => []

/-- The offsets of a buffer that ends at `n`. -/
structure Marks (offsets : List ℕ) (n : ℕ) : Prop where
  last : offsets.getLast? = some n
  inside : ∀ o ∈ offsets, o ≤ n

theorem Marks.start : Marks [0] 0 := ⟨rfl, fun _ ho => Nat.le_of_eq (List.mem_singleton.mp ho)⟩

theorem Marks.snoc {offsets : List ℕ} {n : ℕ} (h : Marks offsets n) (k : ℕ) :
    Marks (offsets ++ [n + k]) (n + k) := by
  refine ⟨List.getLast?_concat, fun o ho => ?_⟩
  rcases List.mem_append.mp ho with ho | ho
  · exact Nat.le_trans (h.inside o ho) (Nat.le_add_right n k)
  · exact Nat.le_of_eq (List.mem_singleton.mp ho)

/-- Cells already closed do not change when the buffer grows. -/
theorem slices_append (xs ys : List α) {offsets : List ℕ} (h : ∀ o ∈ offsets, o ≤ xs.length) :
    slices (xs ++ ys) offsets = slices xs offsets := by
  induction offsets with
  | nil => rfl
  | cons lo offsets ih =>
    cases offsets with
    | nil => rfl
    | cons hi offsets =>
      have hhi : hi ≤ xs.length := h hi (List.mem_cons_of_mem _ List.mem_cons_self)
      show ((xs ++ ys).take hi).drop lo :: slices (xs ++ ys) (hi :: offsets) = _
      rw [ih (fun o ho => h o (List.mem_cons_of_mem _ ho)), List.take_append_of_le_length hhi]
      rfl

theorem length_slices (xs : List α) (offsets : List ℕ) :
    (slices xs offsets).length = offsets.length - 1 := by
  fun_induction slices xs offsets with
  | case1 lo hi offsets ih =>
    rw [List.length_cons, ih]
    rfl
  | case2 offsets hshort =>
    cases offsets with
    | nil => rfl
    | cons o offsets =>
      cases offsets with
      | nil => rfl
      | cons o' offsets => exact absurd rfl (hshort o o' offsets)

theorem slices_concat (xs : List α) {offsets : List ℕ} {lo : ℕ}
    (h : offsets.getLast? = some lo) (hi : ℕ) :
    slices xs (offsets ++ [hi]) = slices xs offsets ++ [(xs.take hi).drop lo] := by
  induction offsets with
  | nil => cases h
  | cons o offsets ih =>
    cases offsets with
    | nil =>
      cases h
      rfl
    | cons o' offsets =>
      rw [List.getLast?_cons_cons] at h
      show (xs.take o').drop o :: slices xs ((o' :: offsets) ++ [hi]) = _
      rw [ih h]
      rfl

/-- One more cell, behind the others. -/
theorem Marks.slices_snoc {offsets : List ℕ} {xs : List α} (h : Marks offsets xs.length)
    (ys : List α) :
    slices (xs ++ ys) (offsets ++ [xs.length + ys.length]) = slices xs offsets ++ [ys] := by
  rw [slices_concat _ h.last, slices_append xs ys h.inside, ← List.length_append, List.take_length,
    List.drop_left]

/-! ### Builders -/

/-- A builder of rows of type `β` with state `σ`. -/
structure Builder (β σ : Type) where
  empty : σ
  /-- `none` is a panic. -/
  append : σ → β → Option σ
  /-- The rows a reader finds in the finished state. -/
  read : σ → List β
  /-- The lengths of the arrays the finished state consists of. -/
  heights : σ → List ℕ
  /-- The rows that can be built. -/
  Fits : List β → Prop
  /-- The state holds these rows. -/
  Holds : σ → List β → Prop
  fits_of_concat : ∀ {xs x}, Fits (xs ++ [x]) → Fits xs
  fits_of_holds : ∀ {s xs}, Holds s xs → Fits xs
  holds_empty : Holds empty []
  read_of_holds : ∀ {s xs}, Holds s xs → read s = xs
  heights_of_holds : ∀ {s xs}, Holds s xs → ∀ n ∈ heights s, n = xs.length
  append_of_fits : ∀ {s xs x}, Holds s xs → Fits (xs ++ [x]) →
    ∃ s', append s x = some s' ∧ Holds s' (xs ++ [x])
  append_of_not_fits : ∀ {s xs x}, Holds s xs → ¬ Fits (xs ++ [x]) → append s x = none

namespace Builder

/-- The loop over the rows. -/
def extend (A : Builder β σ) (s : σ) (xs : List β) : Option σ := xs.foldlM A.append s

def build (A : Builder β σ) (xs : List β) : Option σ := A.extend A.empty xs

theorem fits_nil (A : Builder β σ) : A.Fits [] := A.fits_of_holds A.holds_empty

theorem fits_of_append (A : Builder β σ) {xs ys : List β} (h : A.Fits (xs ++ ys)) : A.Fits xs := by
  induction ys using List.reverseRecOn with
  | nil => rwa [List.append_nil] at h
  | append_singleton ys y ih => exact ih (A.fits_of_concat (by rwa [List.append_assoc]))

/-- **A run of the loop.**  It returns a state with the rows behind those it started from if
they all fit, and panics if not. -/
theorem extend_spec (A : Builder β σ) {s : σ} {xs : List β} (hs : A.Holds s xs) (ys : List β) :
    (A.Fits (xs ++ ys) → ∃ s', A.extend s ys = some s' ∧ A.Holds s' (xs ++ ys)) ∧
      (¬ A.Fits (xs ++ ys) → A.extend s ys = none) := by
  induction ys generalizing s xs with
  | nil =>
    rw [List.append_nil]
    exact ⟨fun _ => ⟨s, rfl, hs⟩, fun hno => absurd (A.fits_of_holds hs) hno⟩
  | cons y ys ih =>
    have hconcat : xs ++ y :: ys = (xs ++ [y]) ++ ys := by rw [List.append_assoc]; rfl
    rw [hconcat]
    constructor
    · intro hfits
      obtain ⟨s', hstep, hs'⟩ := A.append_of_fits hs (A.fits_of_append hfits)
      obtain ⟨t, hrun, ht⟩ := (ih hs').1 hfits
      refine ⟨t, ?_, ht⟩
      show (A.append s y >>= fun s => A.extend s ys) = some t
      rw [hstep]
      exact hrun
    · intro hno
      show (A.append s y >>= fun s => A.extend s ys) = none
      by_cases hy : A.Fits (xs ++ [y])
      · obtain ⟨s', hstep, hs'⟩ := A.append_of_fits hs hy
        rw [hstep]
        exact (ih hs').2 hno
      · rw [A.append_of_not_fits hs hy]
        rfl

/-- **What is built reads back**, its arrays have a cell a row, and exactly the rows that fit are
built. -/
theorem build_spec (A : Builder β σ) (xs : List β) :
    (A.Fits xs → ∃ s, A.build xs = some s ∧ A.read s = xs ∧ ∀ n ∈ A.heights s, n = xs.length) ∧
      (¬ A.Fits xs → A.build xs = none) := by
  obtain ⟨hfits, hno⟩ := A.extend_spec A.holds_empty xs
  constructor
  · intro h
    obtain ⟨s, hrun, hs⟩ := hfits h
    exact ⟨s, hrun, A.read_of_holds hs, A.heights_of_holds hs⟩
  · exact hno

/-! ### Columns -/

/-- A column of fixed-width cells. -/
def plain (β : Type) : Builder β (List β) where
  empty := []
  append s x := some (s ++ [x])
  read s := s
  heights s := [s.length]
  Fits _ := True
  Holds s xs := s = xs
  fits_of_concat _ := trivial
  fits_of_holds _ := trivial
  holds_empty := rfl
  read_of_holds h := h
  heights_of_holds h n hn := by rw [List.mem_singleton.mp hn, h]
  append_of_fits h _ := ⟨_, rfl, by rw [h]⟩
  append_of_not_fits _ h := absurd trivial h

/-- Rows encoded by `f`, read back with `g`. -/
def comap (A : Builder β σ) (f : ρ → β) (g : β → ρ) (hgf : ∀ r, g (f r) = r) : Builder ρ σ where
  empty := A.empty
  append s r := A.append s (f r)
  read s := (A.read s).map g
  heights := A.heights
  Fits rs := A.Fits (rs.map f)
  Holds s rs := A.Holds s (rs.map f)
  fits_of_concat h := A.fits_of_concat (by simpa using h)
  fits_of_holds := A.fits_of_holds
  holds_empty := A.holds_empty
  read_of_holds h := by
    rw [A.read_of_holds h, List.map_map, show g ∘ f = id from funext hgf, List.map_id]
  heights_of_holds h n hn := by rw [A.heights_of_holds h n hn, List.length_map]
  append_of_fits hs h := by simpa using A.append_of_fits hs (by simpa using h)
  append_of_not_fits hs h := A.append_of_not_fits hs (by simpa using h)

/-- Two columns of one table: every row has a cell in each. -/
def prod (A : Builder β σ) (B : Builder γ τ) : Builder (β × γ) (σ × τ) where
  empty := (A.empty, B.empty)
  append s x := do
    let a ← A.append s.1 x.1
    let b ← B.append s.2 x.2
    pure (a, b)
  read s := (A.read s.1).zip (B.read s.2)
  heights s := A.heights s.1 ++ B.heights s.2
  Fits xs := A.Fits (xs.map (·.1)) ∧ B.Fits (xs.map (·.2))
  Holds s xs := A.Holds s.1 (xs.map (·.1)) ∧ B.Holds s.2 (xs.map (·.2))
  fits_of_concat h :=
    ⟨A.fits_of_concat (by simpa using h.1), B.fits_of_concat (by simpa using h.2)⟩
  fits_of_holds h := ⟨A.fits_of_holds h.1, B.fits_of_holds h.2⟩
  holds_empty := ⟨A.holds_empty, B.holds_empty⟩
  read_of_holds {s xs} h := by
    rw [A.read_of_holds h.1, B.read_of_holds h.2]
    exact (List.zip_of_prod rfl rfl).symm
  heights_of_holds {s xs} h n hn := by
    rcases List.mem_append.mp hn with hn | hn
    · rw [A.heights_of_holds h.1 n hn, List.length_map]
    · rw [B.heights_of_holds h.2 n hn, List.length_map]
  append_of_fits {s xs x} hs h := by
    obtain ⟨a, ha, hold_a⟩ := A.append_of_fits (x := x.1) hs.1 (by simpa using h.1)
    obtain ⟨b, hb, hold_b⟩ := B.append_of_fits (x := x.2) hs.2 (by simpa using h.2)
    refine ⟨(a, b), ?_, by simpa using hold_a, by simpa using hold_b⟩
    rw [ha, hb]
    rfl
  append_of_not_fits {s xs x} hs h := by
    by_cases hA : A.Fits (xs.map (·.1) ++ [x.1])
    · have hB : ¬ B.Fits (xs.map (·.2) ++ [x.2]) := fun hB => h (by simpa using ⟨hA, hB⟩)
      obtain ⟨a, ha, -⟩ := A.append_of_fits hs.1 hA
      rw [ha, B.append_of_not_fits hs.2 hB]
      rfl
    · rw [A.append_of_not_fits hs.1 hA]
      rfl

end Builder

/-! ### Byte strings -/

/-- A value buffer, the offsets behind its cells and a validity bit for each of them. -/
structure Chunks (α : Type) where
  values : List α
  offsets : List ℕ
  validity : List Bool
  marks : Marks offsets values.length

namespace Chunks

def empty : Chunks α := ⟨[], [0], [], Marks.start⟩

/-- A null cell takes no values; the new offset must not exceed `limit`. -/
def append (limit : ℕ) (c : Chunks α) (cell : Option (List α)) : Option (Chunks α) :=
  if c.values.length + (cell.getD []).length ≤ limit then
    some
      { values := c.values ++ cell.getD []
        offsets := c.offsets ++ [c.values.length + (cell.getD []).length]
        validity := c.validity ++ [cell.isSome]
        marks := by rw [List.length_append]; exact c.marks.snoc _ }
  else none

def read (c : Chunks α) : List (Option (List α)) :=
  List.zipWith (fun valid chunk => if valid then some chunk else none) c.validity
    (slices c.values c.offsets)

/-- The length of the value buffer behind these cells. -/
def total (cells : List (Option (List α))) : ℕ := (cells.map fun cell => (cell.getD []).length).sum

theorem total_concat (cells : List (Option (List α))) (cell : Option (List α)) :
    total (cells ++ [cell]) = total cells + (cell.getD []).length := by
  simp [total]

structure Holds (c : Chunks α) (cells : List (Option (List α))) : Prop where
  validity : c.validity = cells.map Option.isSome
  slices : slices c.values c.offsets = cells.map (·.getD [])
  total : c.values.length = total cells

theorem Holds.read {c : Chunks α} {cells : List (Option (List α))} (h : c.Holds cells) :
    c.read = cells := by
  rw [Chunks.read, h.validity, h.slices, List.zipWith_map, List.zipWith_self]
  refine (List.map_congr_left fun cell _ => ?_).trans (List.map_id cells)
  cases cell <;> rfl

theorem Holds.append {limit : ℕ} {c : Chunks α} {cells : List (Option (List α))}
    {cell : Option (List α)} (h : c.Holds cells) (hfits : Chunks.total (cells ++ [cell]) ≤ limit) :
    ∃ c', c.append limit cell = some c' ∧ c'.Holds (cells ++ [cell]) := by
  have htotal := total_concat cells cell
  refine ⟨_, if_pos (by rw [h.total, ← htotal]; exact hfits), ?_, ?_, ?_⟩
  · show c.validity ++ [cell.isSome] = _
    rw [h.validity, List.map_append]
    rfl
  · show Columnar.slices (c.values ++ cell.getD []) (c.offsets ++ [_]) = _
    rw [c.marks.slices_snoc, h.slices, List.map_append]
    rfl
  · show (c.values ++ cell.getD []).length = _
    rw [List.length_append, h.total, htotal]

end Chunks

/-- The state of a column of lists: the cells of all of them, and where each ends. -/
structure Lists (σ : Type) where
  values : σ
  offsets : List ℕ

namespace Builder

def chunks (limit : ℕ) : Builder (Option (List α)) (Chunks α) where
  empty := Chunks.empty
  append := Chunks.append limit
  read := Chunks.read
  heights c := [c.validity.length]
  Fits cells := Chunks.total cells ≤ limit
  Holds c cells := c.Holds cells ∧ Chunks.total cells ≤ limit
  fits_of_concat h := by
    rw [Chunks.total_concat] at h
    omega
  fits_of_holds h := h.2
  holds_empty := ⟨⟨rfl, rfl, rfl⟩, Nat.zero_le limit⟩
  read_of_holds h := h.1.read
  heights_of_holds h n hn := by rw [List.mem_singleton.mp hn, h.1.validity, List.length_map]
  append_of_fits h hfits := by
    obtain ⟨c', happend, hc'⟩ := h.1.append hfits
    exact ⟨c', happend, hc', hfits⟩
  append_of_not_fits h hno := by
    rw [Chunks.total_concat, ← h.1.total] at hno
    exact if_neg hno

/-! ### Lists -/

/-- The cells of a list go into the column `A`; closing the list appends the offset behind
them. -/
def list (A : Builder β σ) (limit : ℕ) : Builder (List β) (Lists σ) where
  empty := ⟨A.empty, [0]⟩
  append s xs := do
    let values ← A.extend s.values xs
    let offset := (A.read values).length
    if offset ≤ limit then some ⟨values, s.offsets ++ [offset]⟩ else none
  read s := slices (A.read s.values) s.offsets
  heights s := [s.offsets.length - 1]
  Fits xss := A.Fits xss.flatten ∧ xss.flatten.length ≤ limit
  Holds s xss := A.Holds s.values xss.flatten ∧ Marks s.offsets xss.flatten.length ∧
    slices xss.flatten s.offsets = xss ∧ xss.flatten.length ≤ limit
  fits_of_concat {xss xs} h := by
    rw [List.flatten_concat, List.length_append] at h
    exact ⟨A.fits_of_append h.1, by omega⟩
  fits_of_holds h := ⟨A.fits_of_holds h.1, h.2.2.2⟩
  holds_empty := ⟨A.holds_empty, Marks.start, rfl, Nat.zero_le limit⟩
  read_of_holds h := by rw [A.read_of_holds h.1, h.2.2.1]
  heights_of_holds {s xss} h n hn := by
    rw [List.mem_singleton.mp hn, ← length_slices xss.flatten, h.2.2.1]
  append_of_fits {s xss xs} hs h := by
    rw [List.flatten_concat] at h
    obtain ⟨values, hrun, hvalues⟩ := (A.extend_spec hs.1 xs).1 h.1
    have hread := A.read_of_holds hvalues
    refine ⟨⟨values, s.offsets ++ [(A.read values).length]⟩, ?_, ?_, ?_, ?_, ?_⟩
    · rw [hrun, Option.bind_eq_bind, Option.bind_some]
      exact if_pos (by rw [hread]; exact h.2)
    · rw [List.flatten_concat]
      exact hvalues
    · rw [hread, List.flatten_concat, List.length_append]
      exact hs.2.1.snoc xs.length
    · rw [hread, List.flatten_concat, List.length_append, hs.2.1.slices_snoc, hs.2.2.1]
    · rw [List.flatten_concat]
      exact h.2
  append_of_not_fits {s xss xs} hs h := by
    rw [List.flatten_concat] at h
    by_cases hA : A.Fits (xss.flatten ++ xs)
    · obtain ⟨values, hrun, hvalues⟩ := (A.extend_spec hs.1 xs).1 hA
      rw [hrun, Option.bind_eq_bind, Option.bind_some]
      exact if_neg (by rw [A.read_of_holds hvalues]; exact fun hle => h ⟨hA, hle⟩)
    · rw [(A.extend_spec hs.1 xs).2 hA]
      rfl

end Builder

end VgiDisasm.Columnar
