import Mathlib.Data.List.Basic

/-!
# Result — Rust's `Result` and its `?`, as `Except`

Every fallible function of the model returns an `Except`, and its `do` block is the Rust function's
body with `?` as `←`.  The lemmas here let a proof run such a block one bind at a time without
unfolding the monad: a bind on `Ok` continues, a bind on `Err` stops, and a bind that ends in `Ok`
ran both halves.
-/

namespace Rfs

@[simp] theorem pure_eq_ok {ε α : Type} (a : α) : (pure a : Except ε α) = .ok a := rfl

@[simp] theorem throw_eq_error {ε α : Type} (e : ε) : (throw e : Except ε α) = .error e := rfl

@[simp] theorem ok_bind {ε α β : Type} (a : α) (f : α → Except ε β) :
    (Except.ok a >>= f) = f a := rfl

@[simp] theorem error_bind {ε α β : Type} (e : ε) (f : α → Except ε β) :
    (Except.error e >>= f) = .error e := rfl

/-- A bind that returns `Ok` ran both halves. -/
theorem bind_eq_ok {ε α β : Type} {x : Except ε α} {f : α → Except ε β} {b : β} :
    x >>= f = .ok b ↔ ∃ a, x = .ok a ∧ f a = .ok b := by
  cases x <;> simp

end Rfs
