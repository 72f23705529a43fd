import Mathlib.Tactic.Basic

/-! # Steps that can fail: `Except` as a sequence of calls -/

namespace Outcome
variable {ε α β : Type} {x : α} {e : ε} {f : α → Except ε β}

@[simp] theorem ok_bind : (Except.ok x >>= f : Except ε β) = f x := rfl

@[simp] theorem error_bind : (Except.error e >>= f : Except ε β) = .error e := rfl

@[simp] theorem pure_eq_ok : (pure x : Except ε α) = .ok x := rfl

theorem bind_eq_ok {m : Except ε α} {y : β} (h : m >>= f = .ok y) :
    ∃ x, m = .ok x ∧ f x = .ok y := by
  cases m with
  | error e => cases h
  | ok x => exact ⟨x, rfl, h⟩

theorem eq_ok_of_toOption {m : Except ε α} {y : α} (h : m.toOption = some y) : m = .ok y := by
  cases m with
  | error e => cases h
  | ok x => exact congrArg Except.ok (Option.some.inj h)

end Outcome
