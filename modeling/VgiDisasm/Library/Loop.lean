import Mathlib.Data.Nat.Notation

/-!
# Guarded loops run with fuel

A `while` loop is a step function `σ → Option σ`: `none` is the failing guard (or a
`break`), `some s'` is one pass through the body.  `run step n s` makes at most `n`
passes.  The rules below are the ones a verification of such a loop needs: an
invariant survives any number of passes, a decreasing measure bounds the passes, and
together they give the loop its exit condition.
-/

namespace VgiDisasm.Loop

variable {σ : Type*} {step : σ → Option σ}

/-- At most `n` passes of the loop from `s`, stopping where `step` answers `none`. -/
def run (step : σ → Option σ) : ℕ → σ → σ
  | 0, s => s
  | n + 1, s =>
    match step s with
    | none => s
    | some s' => run step n s'

theorem run_none {s : σ} (h : step s = none) (n : ℕ) : run step n s = s := by
  cases n with
  | zero => rfl
  | succ n => simp only [run, h]

theorem run_some {s s' : σ} (h : step s = some s') (n : ℕ) :
    run step (n + 1) s = run step n s' := by
  simp only [run, h]

/-- **Invariant rule.**  What one pass preserves, every run preserves. -/
theorem run_invariant {I : σ → Prop} (hstep : ∀ s s', I s → step s = some s' → I s') :
    ∀ (n : ℕ) (s : σ), I s → I (run step n s) := by
  intro n
  induction n with
  | zero => intro s hs; exact hs
  | succ n ih =>
    intro s hs
    cases h : step s with
    | none => rw [run_none h]; exact hs
    | some s' => rw [run_some h]; exact ih s' (hstep s s' hs h)

/-- **Termination rule.**  If every pass decreases `μ`, then `μ s` passes reach the exit. -/
theorem run_exits (μ : σ → ℕ) (hμ : ∀ s s', step s = some s' → μ s' < μ s) :
    ∀ (n : ℕ) (s : σ), μ s ≤ n → step (run step n s) = none := by
  intro n
  induction n with
  | zero =>
    intro s hs
    cases h : step s with
    | none => rw [run_none h]; exact h
    | some s' =>
      have := hμ s s' h
      omega
  | succ n ih =>
    intro s hs
    cases h : step s with
    | none => rw [run_none h]; exact h
    | some s' =>
      rw [run_some h]
      have := hμ s s' h
      exact ih s' (by omega)

/-- **Total correctness of a loop.**  Invariant, measure and exit condition give the
postcondition of the whole run. -/
theorem run_spec {I Q : σ → Prop} (μ : σ → ℕ)
    (hμ : ∀ s s', step s = some s' → μ s' < μ s)
    (hstep : ∀ s s', I s → step s = some s' → I s')
    (hexit : ∀ s, I s → step s = none → Q s)
    {n : ℕ} {s : σ} (hn : μ s ≤ n) (hs : I s) : Q (run step n s) :=
  hexit _ (run_invariant hstep n s hs) (run_exits μ hμ n s hn)

/-! ### Traces -/

/-- The states in which the run makes a pass. -/
def trace (step : σ → Option σ) : ℕ → σ → List σ
  | 0, _ => []
  | n + 1, s =>
    match step s with
    | none => []
    | some s' => s :: trace step n s'

theorem trace_none {s : σ} (h : step s = none) (n : ℕ) : trace step n s = [] := by
  cases n with
  | zero => rfl
  | succ n => simp only [trace, h]

theorem trace_some {s s' : σ} (h : step s = some s') (n : ℕ) :
    trace step (n + 1) s = s :: trace step n s' := by
  simp only [trace, h]

/-- Every state of the trace makes a pass. -/
theorem step_of_mem_trace {n : ℕ} {s t : σ} (h : t ∈ trace step n s) :
    ∃ t', step t = some t' := by
  induction n generalizing s with
  | zero => cases h
  | succ n ih =>
    cases hs : step s with
    | none =>
      rw [trace_none hs] at h
      cases h
    | some s' =>
      rw [trace_some hs] at h
      rcases List.mem_cons.mp h with rfl | hrest
      · exact ⟨s', hs⟩
      · exact ih hrest

end VgiDisasm.Loop
