import VgiDisasm.Library.Loop

/-!
# Operators that can panic

An index or a slice bound outside the list, or a subtraction below zero, ends the program.  Here
each of these operators answers `none` where it panics, so a function written with them answers
`none` exactly where it cannot return.  The rules give the value under the bound a guard
establishes; a loop whose passes all return is the loop without the checks.
-/

namespace VgiDisasm.Panics

variable {α σ : Type*}

/-! ### Operators -/

/-- `xs[i]`. -/
def index (xs : List α) (i : ℕ) : Option α := xs[i]?

/-- `&xs[lo..]`. -/
def sliceFrom (xs : List α) (lo : ℕ) : Option (List α) :=
  if lo ≤ xs.length then some (xs.drop lo) else none

/-- `&xs[..hi]`. -/
def sliceTo (xs : List α) (hi : ℕ) : Option (List α) :=
  if hi ≤ xs.length then some (xs.take hi) else none

/-- `&xs[lo..hi]`. -/
def sliceRange (xs : List α) (lo hi : ℕ) : Option (List α) :=
  if lo ≤ hi ∧ hi ≤ xs.length then some ((xs.take hi).drop lo) else none

/-- `xs[i] += 1`, as an assignment to the element. -/
def update (f : α → α) (xs : List α) (i : ℕ) : Option (List α) :=
  if i < xs.length then some (xs.modify i f) else none

/-- `a - b` on unsigned numbers. -/
def sub (a b : ℕ) : Option ℕ := if b ≤ a then some (a - b) else none

theorem index_of_lt {xs : List α} {i : ℕ} (h : i < xs.length) : index xs i = some xs[i] :=
  List.getElem?_eq_getElem h

theorem sliceFrom_of_le {xs : List α} {lo : ℕ} (h : lo ≤ xs.length) :
    sliceFrom xs lo = some (xs.drop lo) :=
  if_pos h

theorem sliceTo_min (xs : List α) (n : ℕ) : sliceTo xs (min xs.length n) = some (xs.take n) := by
  have htake : xs.take (min xs.length n) = xs.take n := by
    rw [List.take_eq_take_iff]
    omega
  rw [sliceTo, if_pos (Nat.min_le_left _ _), htake]

theorem sliceRange_of_le {xs : List α} {lo hi : ℕ} (hlo : lo ≤ hi) (hhi : hi ≤ xs.length) :
    sliceRange xs lo hi = some ((xs.take hi).drop lo) :=
  if_pos ⟨hlo, hhi⟩

theorem update_of_lt (f : α → α) {xs : List α} {i : ℕ} (h : i < xs.length) :
    update f xs i = some (xs.modify i f) :=
  if_pos h

theorem sub_of_le {a b : ℕ} (h : b ≤ a) : sub a b = some (a - b) := if_pos h

/-! ### Panic conditions -/

/-- `x` returns `v` if `P` holds and panics if not. -/
structure Returns {α : Type} (x : Option α) (v : α) (P : Prop) : Prop where
  value : P → x = some v
  panic : ¬ P → x = none

namespace Returns

variable {α β : Type} {x : Option α} {v : α} {P Q : Prop}

theorem congr (h : Returns x v P) (hPQ : P ↔ Q) : Returns x v Q := propext hPQ ▸ h

theorem of_eq (h : x = some v) : Returns x v True := ⟨fun _ => h, fun hP => absurd trivial hP⟩

/-- What returns one value or panics returns it if and only if it does. -/
theorem of_cases (h : x = none ∨ x = some v) : Returns x v (x = some v) :=
  ⟨id, fun hne => h.resolve_right hne⟩

/-- **Sequencing.**  The second step only matters where the first returns. -/
theorem bind (h : Returns x v P) {f : α → Option β} {w : β} (hf : Returns (f v) w Q) :
    Returns (x >>= f) w (P ∧ Q) := by
  constructor
  · intro hPQ
    rw [h.value hPQ.1]
    exact hf.value hPQ.2
  · intro hPQ
    by_cases hP : P
    · rw [h.value hP]
      exact hf.panic fun hQ => hPQ ⟨hP, hQ⟩
    · rw [h.panic hP]
      rfl

/-- A second step that always returns adds no condition. -/
theorem bind_total (h : Returns x v P) {f : α → Option β} {w : β} (hf : f v = some w) :
    Returns (x >>= f) w P :=
  (h.bind (of_eq hf)).congr (and_iff_left trivial)

end Returns

/-! ### Loops -/

/-- `Loop.run` over a body that can panic. -/
def run (step : σ → Option (Option σ)) : ℕ → σ → Option σ
  | 0, s => some s
  | n + 1, s =>
    match step s with
    | none => none
    | some none => some s
    | some (some s') => run step n s'

/-- **The loop returns**, with the state of the unchecked loop, if no pass of its body panics. -/
theorem run_eq {stepP : σ → Option (Option σ)} {step : σ → Option σ}
    (h : ∀ s, stepP s = some (step s)) :
    ∀ (n : ℕ) (s : σ), run stepP n s = some (Loop.run step n s) := by
  intro n
  induction n with
  | zero => intro s; rfl
  | succ n ih =>
    intro s
    show (match stepP s with
      | none => none
      | some none => some s
      | some (some s') => run stepP n s') = _
    rw [h s]
    cases hs : step s with
    | none => rw [Loop.run_none hs]
    | some s' =>
      rw [Loop.run_some hs]
      exact ih s'

/-- Likewise for an iterator collected into a vector. -/
theorem mapM_eq {α β : Type} {fP : α → Option β} {f : α → β} {xs : List α}
    (h : ∀ x ∈ xs, fP x = some (f x)) : xs.mapM fP = some (xs.map f) := by
  induction xs with
  | nil => rfl
  | cons x xs ih =>
    obtain ⟨hx, hxs⟩ := List.forall_mem_cons.mp h
    rw [List.mapM_cons, hx, ih hxs]
    rfl

end VgiDisasm.Panics
