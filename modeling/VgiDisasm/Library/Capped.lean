import Mathlib.Data.List.TakeDrop
import Mathlib.Data.List.Chain

/-!
# Accumulators with a row cap

`pushCapped cap f xs out` is the loop

    for x in xs { if out.len() >= cap { break }; out.push(f(x)) }

and `pushCappedM` is the same loop where computing a row is an effect; `filterCapped` is the
one whose body may `continue` instead of pushing.  `runsCapped` is the outer form: each pass
appends a whole run of rows, itself cut at the cap.

* `pushCapped_eq`, `filterCapped_eq`, `runsCapped_eq`: each is one `take` of the uncapped rows.
* `take_flatMap_take`: a cap on each run is absorbed by the same cap on all of them.
* `pushCappedM_option`: the effectful loop succeeds exactly when the rows that fit do.
* `isChain_take_flatMap`: whether the capped concatenation of ordered runs is ordered is
  decided at the boundaries between the runs the cap lets through.
-/

namespace VgiDisasm.Capped

universe u v

variable {α : Type*} {β : Type u} {γ κ : Type*}

/-! ### Rows one by one -/

def pushCapped (cap : ℕ) (f : α → β) : List α → List β → List β
  | [], out => out
  | x :: xs, out => if out.length ≥ cap then out else pushCapped cap f xs (out ++ [f x])

/-- The loop appends exactly the rows that fit under the cap. -/
theorem pushCapped_eq (cap : ℕ) (f : α → β) (xs : List α) (out : List β) :
    pushCapped cap f xs out = out ++ (xs.take (cap - out.length)).map f := by
  induction xs generalizing out with
  | nil => simp [pushCapped]
  | cons x xs ih =>
    rw [pushCapped]
    split
    · rename_i h
      rw [Nat.sub_eq_zero_of_le h]
      simp
    · rename_i h
      rw [ih, show cap - out.length = (cap - (out ++ [f x]).length) + 1 from by
        simp only [List.length_append, List.length_singleton]; omega]
      simp

/-- The loop over `ys = xs.map h` is the loop over `xs`. -/
theorem pushCapped_map {δ : Type*} (cap : ℕ) (f : α → β) (h : δ → α) (xs : List δ)
    (out : List β) :
    pushCapped cap f (xs.map h) out = pushCapped cap (fun x => f (h x)) xs out := by
  simp only [pushCapped_eq, ← List.map_take, List.map_map]
  rfl

/-- Loops over one list after the other, under one cap, are the loop over the concatenation. -/
theorem foldl_pushCapped (cap : ℕ) (f : α → β) (xs : γ → List α) (gs : List γ) (out : List β) :
    gs.foldl (fun out g => pushCapped cap f (xs g) out) out =
      pushCapped cap f (gs.flatMap xs) out := by
  induction gs generalizing out with
  | nil => rfl
  | cons g gs ih =>
    rw [List.foldl_cons, ih, List.flatMap_cons]
    simp only [pushCapped_eq, List.take_append, List.map_append, List.append_assoc,
      List.length_append, List.length_map, List.length_take]
    congr 4
    omega

def pushCappedM {m : Type u → Type v} [Monad m] (cap : ℕ) (f : α → m β) :
    List α → List β → m (List β)
  | [], out => pure out
  | x :: xs, out =>
    if out.length ≥ cap then pure out
    else do
      let y ← f x
      pushCappedM cap f xs (out ++ [y])

/-- Over effects that never fail the effectful loop is the pure one. -/
theorem pushCappedM_pure {m : Type u → Type v} [Monad m] [LawfulMonad m] (cap : ℕ) (f : α → β)
    (xs : List α) (out : List β) :
    pushCappedM cap (fun x => (pure (f x) : m β)) xs out = pure (pushCapped cap f xs out) := by
  induction xs generalizing out with
  | nil => rfl
  | cons x xs ih =>
    rw [pushCappedM, pushCapped]
    split
    · rfl
    · rw [pure_bind, ih]

theorem pushCappedM_map {m : Type u → Type v} [Monad m] {δ : Type*} (cap : ℕ) (f : α → m β)
    (h : δ → α) (xs : List δ) (out : List β) :
    pushCappedM cap f (xs.map h) out = pushCappedM cap (fun x => f (h x)) xs out := by
  induction xs generalizing out with
  | nil => rfl
  | cons x xs ih => simp only [List.map_cons, pushCappedM, ih]

/-- **The partial loop.**  If `f` either fails or agrees with `g`, the loop over `f` returns
what the loop over `g` does exactly when `f` is defined on every row that fits. -/
theorem pushCappedM_option (cap : ℕ) {f : α → Option β} {g : α → β}
    (hfg : ∀ x, f x = none ∨ f x = some (g x)) (xs : List α) (out : List β) :
    pushCappedM cap f xs out = some (pushCapped cap g xs out) ↔
      ∀ x ∈ xs.take (cap - out.length), f x = some (g x) := by
  induction xs generalizing out with
  | nil => simp [pushCappedM, pushCapped]
  | cons x xs ih =>
    rw [pushCappedM, pushCapped]
    split
    · rename_i h
      simp [Nat.sub_eq_zero_of_le h]
    · rename_i h
      have hcap : cap - out.length = (cap - (out ++ [g x]).length) + 1 := by
        simp only [List.length_append, List.length_singleton]; omega
      rw [hcap, List.take_succ_cons, List.forall_mem_cons]
      rcases hfg x with hx | hx
      · simp [hx]
      · rw [hx]
        simp only [Option.bind_eq_bind, Option.bind_some, true_and]
        exact ih (out ++ [g x])

theorem pushCappedM_option_cases (cap : ℕ) {f : α → Option β} {g : α → β}
    (hfg : ∀ x, f x = none ∨ f x = some (g x)) (xs : List α) (out : List β) :
    pushCappedM cap f xs out = none ∨
      pushCappedM cap f xs out = some (pushCapped cap g xs out) := by
  induction xs generalizing out with
  | nil => exact Or.inr rfl
  | cons x xs ih =>
    rw [pushCappedM, pushCapped]
    split
    · exact Or.inr rfl
    · rcases hfg x with hx | hx
      · exact Or.inl (by rw [hx]; rfl)
      · rw [hx]
        exact ih (out ++ [g x])

/-! ### Rows that may be skipped -/

def filterCapped (cap : ℕ) (f : α → Option β) : List α → List β → List β
  | [], out => out
  | x :: xs, out =>
    if out.length ≥ cap then out
    else
      match f x with
      | none => filterCapped cap f xs out
      | some y => filterCapped cap f xs (out ++ [y])

/-- Skipped elements do not count against the cap. -/
theorem filterCapped_eq (cap : ℕ) (f : α → Option β) (xs : List α) (out : List β) :
    filterCapped cap f xs out = out ++ (xs.filterMap f).take (cap - out.length) := by
  induction xs generalizing out with
  | nil => simp [filterCapped]
  | cons x xs ih =>
    rw [filterCapped]
    split
    · rename_i h
      rw [Nat.sub_eq_zero_of_le h, List.take_zero, List.append_nil]
    · rename_i h
      cases hx : f x with
      | none => simp only [List.filterMap_cons, hx, ih]
      | some y =>
        have hcap : cap - out.length = (cap - (out ++ [y]).length) + 1 := by
          rw [List.length_append, List.length_singleton]
          omega
        simp only [List.filterMap_cons, hx, ih]
        rw [hcap, List.take_succ_cons, List.append_assoc, List.singleton_append]

/-! ### Whole runs of rows -/

def runsCapped (cap : ℕ) (f : γ → List β → List β) : List γ → List β → List β
  | [], out => out
  | g :: gs, out => if out.length ≥ cap then out else runsCapped cap f gs (f g out)

/-- **Caps compose to one `take`.**  If every pass appends its run cut at the shared cap,
the whole loop appends the concatenation of the runs cut at that cap. -/
theorem runsCapped_eq (cap : ℕ) {f : γ → List β → List β} {rows : γ → List β}
    (hf : ∀ g out, f g out = out ++ (rows g).take (cap - out.length))
    (gs : List γ) (out : List β) :
    runsCapped cap f gs out = out ++ (gs.flatMap rows).take (cap - out.length) := by
  induction gs generalizing out with
  | nil => simp [runsCapped]
  | cons g gs ih =>
    rw [runsCapped]
    split
    · rename_i h
      rw [Nat.sub_eq_zero_of_le h, List.take_zero, List.append_nil]
    · rw [ih, hf, List.flatMap_cons, List.take_append, List.append_assoc]
      congr 3
      simp only [List.length_append, List.length_take]
      omega

/-- Runs that are cut at the cap themselves make no difference under it. -/
theorem take_flatMap_take {cap n : ℕ} (h : n ≤ cap) (rows : γ → List β) (gs : List γ) :
    (gs.flatMap fun g => (rows g).take cap).take n = (gs.flatMap rows).take n := by
  induction gs generalizing n with
  | nil => rfl
  | cons g gs ih =>
    rw [List.flatMap_cons, List.flatMap_cons, List.take_append, List.take_append, List.take_take,
      Nat.min_eq_left h, List.length_take,
      show n - min cap (rows g).length = n - (rows g).length from by omega,
      ih (Nat.sub_le_of_le_add (by omega))]

/-- The runs that are started before `cap` rows are out, `n` being out already. -/
def reached (cap : ℕ) (rows : γ → List β) : List γ → ℕ → List γ
  | [], _ => []
  | g :: gs, n => if n ≥ cap then [] else g :: reached cap rows gs (n + (rows g).length)

theorem reached_of_ge {cap : ℕ} {rows : γ → List β} (gs : List γ) {n : ℕ} (h : cap ≤ n) :
    reached cap rows gs n = [] := by
  cases gs with
  | nil => rfl
  | cons g gs => rw [reached, if_pos h]

/-- The reached runs that have rows at all. -/
def occupied (cap : ℕ) (rows : γ → List β) (gs : List γ) (n : ℕ) : List γ :=
  (reached cap rows gs n).filter fun g => !(rows g).isEmpty

theorem occupied_cons_nil {cap : ℕ} {rows : γ → List β} {g : γ} {gs : List γ} {n : ℕ}
    (h : n < cap) (hg : rows g = []) :
    occupied cap rows (g :: gs) n = occupied cap rows gs n := by
  simp [occupied, reached, hg, Nat.not_le.mpr h]

theorem occupied_cons {cap : ℕ} {rows : γ → List β} {g : γ} {gs : List γ} {n : ℕ}
    (h : n < cap) (hg : rows g ≠ []) :
    occupied cap rows (g :: gs) n = g :: occupied cap rows gs (n + (rows g).length) := by
  simp [occupied, reached, hg, Nat.not_le.mpr h]

theorem occupied_sublist {cap : ℕ} {rows : γ → List β} (gs : List γ) (n : ℕ) :
    (occupied cap rows gs n).Sublist gs := by
  refine List.filter_sublist.trans ?_
  induction gs generalizing n with
  | nil => exact List.Sublist.refl []
  | cons g gs ih =>
    rw [reached]
    split
    · exact List.nil_sublist _
    · exact (ih _).cons_cons g

section Order

variable {cap : ℕ} {rows : γ → List β} {addr : β → κ} {start : γ → κ} {R : κ → κ → Prop}

theorem take_flatMap_cons (g : γ) (gs : List γ) (n : ℕ) :
    ((g :: gs).flatMap rows).take (cap - n) =
      (rows g).take (cap - n) ++ (gs.flatMap rows).take (cap - (n + (rows g).length)) := by
  rw [List.flatMap_cons, List.take_append, Nat.sub_sub]

/-- The first capped row stands at the start of the first occupied run. -/
theorem head?_take_flatMap {gs : List γ}
    (hhead : ∀ g ∈ gs, ∀ b ∈ (rows g).head?, addr b = start g) (n : ℕ) :
    (((gs.flatMap rows).take (cap - n)).map addr).head? =
      ((occupied cap rows gs n).map start).head? := by
  induction gs generalizing n with
  | nil => simp [occupied, reached]
  | cons g gs ih =>
    rcases Nat.lt_or_ge n cap with hn | hn
    · rw [take_flatMap_cons]
      cases hg : rows g with
      | nil =>
        rw [occupied_cons_nil hn hg]
        simpa using ih (fun g' hg' => hhead g' (List.mem_cons_of_mem g hg')) n
      | cons b bs =>
        have hb : addr b = start g := hhead g List.mem_cons_self b (by simp [hg])
        rw [occupied_cons hn (by simp [hg])]
        obtain ⟨k, hk⟩ : ∃ k, cap - n = k + 1 := ⟨cap - n - 1, by omega⟩
        simp [hk, hb]
    · simp [Nat.sub_eq_zero_of_le hn, occupied, reached_of_ge _ hn]

/-- **Order is decided at the boundaries.**  Runs that are `R`-chains, each starting at its
own `start`, concatenate under the cap to an `R`-chain exactly when the last row of every
occupied run is `R`-related to the start of the next occupied one. -/
theorem isChain_take_flatMap {gs : List γ}
    (hhead : ∀ g ∈ gs, ∀ b ∈ (rows g).head?, addr b = start g)
    (hrun : ∀ g ∈ gs, ((rows g).map addr).IsChain R) (n : ℕ) :
    (((gs.flatMap rows).take (cap - n)).map addr).IsChain R ↔
      (occupied cap rows gs n).IsChain fun g h =>
        ∀ b ∈ (rows g).getLast?, R (addr b) (start h) := by
  induction gs generalizing n with
  | nil => simp [occupied, reached]
  | cons g gs ih =>
    have ih' := ih (fun g' hg' => hhead g' (List.mem_cons_of_mem g hg'))
      (fun g' hg' => hrun g' (List.mem_cons_of_mem g hg'))
    have hg := hrun g List.mem_cons_self
    rcases Nat.lt_or_ge n cap with hn | hn
    · rw [take_flatMap_cons]
      by_cases hnil : rows g = []
      · rw [occupied_cons_nil hn hnil]
        simpa [hnil] using ih' n
      · rw [occupied_cons hn hnil, List.isChain_cons, List.map_append, List.isChain_append]
        rcases Nat.lt_or_ge (n + (rows g).length) cap with hlt | hge
        · -- the run fits whole: the boundary to the next run is really crossed
          rw [List.take_of_length_le (by omega), ih', head?_take_flatMap
            (fun g' hg' => hhead g' (List.mem_cons_of_mem g hg'))]
          simp only [List.getLast?_map, List.head?_map, Option.mem_def, Option.map_eq_some_iff]
          constructor
          · rintro ⟨-, hrest, hb⟩
            exact ⟨fun h hh b hbl => hb _ ⟨b, hbl, rfl⟩ _ ⟨h, hh, rfl⟩, hrest⟩
          · rintro ⟨hb, hrest⟩
            refine ⟨hg, hrest, ?_⟩
            rintro _ ⟨b, hbl, rfl⟩ _ ⟨h, hh, rfl⟩
            exact hb h hh b hbl
        · -- the cap falls inside this run: nothing follows it on either side
          have htake : (((rows g).map addr).take (cap - n)).IsChain R := hg.take _
          simp [Nat.sub_eq_zero_of_le hge, occupied, reached_of_ge _ hge, htake]
    · simp [Nat.sub_eq_zero_of_le hn, occupied, reached_of_ge _ hn]

end Order

end VgiDisasm.Capped
