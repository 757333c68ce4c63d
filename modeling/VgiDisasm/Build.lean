import Mathlib.Algebra.Ring.Nat

/-!
# Build configurations

The same source means different things under different compiler settings: a `u64` `+`
wraps in a release build and panics where overflow checks are on, and `usize` is as wide
as the target's pointers.  Functions whose outcome depends on either take a `Build`; its
monad is the effect an addition can have.
-/

namespace VgiDisasm

structure Build (m : Type → Type) where
  /-- The `u64` operator `+`. -/
  add : UInt64 → UInt64 → m UInt64
  /-- `usize::MAX`. -/
  usizeMax : ℕ

namespace Build

/-- The shipped native build: `+` wraps. -/
def release : Build Id where
  add := fun a b => a + b
  usizeMax := 2 ^ 64 - 1

/-- The browser build: `usize` has 32 bits. -/
def wasm32 : Build Id where
  add := fun a b => a + b
  usizeMax := 2 ^ 32 - 1

/-- `n as usize` for an unsigned `n`: the low bits. -/
def asUsize {m : Type → Type} (B : Build m) (n : ℕ) : ℕ := n % (B.usizeMax + 1)

/-- A native build with overflow checks: `none` is the panic. -/
def checked : Build Option where
  add := fun a b => if a.toNat + b.toNat < 2 ^ 64 then some (a + b) else none
  usizeMax := 2 ^ 64 - 1

theorem checked_bind_of_fits {α : Type} {a b : UInt64} (h : a.toNat + b.toNat < 2 ^ 64)
    (f : UInt64 → Option α) : checked.add a b >>= f = f (a + b) := by
  rw [show checked.add a b = some (a + b) from if_pos h]
  rfl

theorem checked_bind_of_overflow {α : Type} {a b : UInt64} (h : ¬ a.toNat + b.toNat < 2 ^ 64)
    (f : UInt64 → Option α) : checked.add a b >>= f = none := by
  rw [show checked.add a b = none from if_neg h]
  rfl

end Build

end VgiDisasm
