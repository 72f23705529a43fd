import Mathlib.Data.List.Perm.Basic

/-!
# Ledgers

A ledger is the list of what is outstanding: taking a resource puts its token at the front, giving
it back removes one copy, and fails when there is none. Ledgers are compared up to order.
-/

namespace Ledger
variable {τ : Type*} [DecidableEq τ] {t u : τ} {l l' rest : List τ}

def giveBack (t : τ) (l : List τ) : Option (List τ) := if t ∈ l then some (l.erase t) else none

@[simp] theorem giveBack_cons_self : giveBack t (t :: l) = some l := by simp [giveBack]

theorem giveBack_cons_of_ne (h : u ≠ t) : giveBack t (u :: l) = (giveBack t l).map (u :: ·) := by
  by_cases hm : t ∈ l
  · simp [giveBack, hm, h]
  · simp [giveBack, hm, h.symm]

theorem giveBack_of_perm (h : l.Perm (t :: rest)) :
    ∃ l', giveBack t l = some l' ∧ l'.Perm rest := by
  have hm : t ∈ l := h.symm.subset List.mem_cons_self
  exact ⟨l.erase t, by rw [giveBack, if_pos hm], (List.perm_cons_erase hm).symm.trans h |>.cons_inv⟩

end Ledger
