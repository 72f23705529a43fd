import Mathlib.Algebra.Order.Floor.Div

/-!
# Equal slots inside a range

`slot base size i` is the start of the `i`-th of consecutive slots of `size` units from `base`.
The first `n` slots end at `base + n * size`, so they fit a range of length `len` exactly when
`n * size ≤ len` (`slots_inside_iff`), and different slots do not overlap (`slot_disjoint`).
`roundUp n k` is the least multiple of `k` that is at least `n`.
-/

namespace Slots

def slot (base size i : Nat) : Nat := base + i * size

/-- The ranges `[a, a + size)` and `[b, b + size)` do not overlap. -/
def Apart (size a b : Nat) : Prop := a + size ≤ b ∨ b + size ≤ a

def roundUp (n k : Nat) : Nat := k * (n ⌈/⌉ k)

variable {base size len i j n k : Nat}

theorem slot_succ : slot base size (i + 1) = slot base size i + size := by
  simp [slot, Nat.succ_mul, Nat.add_assoc]

theorem base_le_slot : base ≤ slot base size i := Nat.le_add_right _ _

theorem slot_end_le (h : i < n) : slot base size i + size ≤ slot base size n := by
  rw [← slot_succ]
  exact Nat.add_le_add_left (Nat.mul_le_mul_right size h) base

theorem slot_disjoint (h : i ≠ j) : Apart size (slot base size i) (slot base size j) := by
  rcases Nat.lt_or_gt_of_ne h with h | h
  · exact .inl (slot_end_le h)
  · exact .inr (slot_end_le h)

/-- The first `n` slots lie inside a range of length `len` exactly when their total does. -/
theorem slots_inside_iff (hn : 0 < n) :
    (∀ i < n, slot base size i + size ≤ base + len) ↔ n * size ≤ len := by
  constructor
  · intro h
    have hlast := h (n - 1) (by omega)
    rw [← slot_succ, Nat.sub_add_cancel hn, slot] at hlast
    omega
  · intro h i hi
    have hend : slot base size n ≤ base + len := Nat.add_le_add_left h base
    exact (slot_end_le hi).trans hend

@[simp] theorem zero_roundUp : roundUp 0 k = 0 := by simp [roundUp]

theorem le_roundUp (hk : 0 < k) : n ≤ roundUp n k := le_smul_ceilDiv hk

theorem roundUp_pos (hk : 0 < k) (hn : 0 < n) : 0 < roundUp n k :=
  Nat.lt_of_lt_of_le hn (le_roundUp hk)

end Slots
