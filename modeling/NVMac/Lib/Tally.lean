import NVMac.Lib.Machine

/-!
# Units and grants

A lock knows how many of its units are taken, and its clients what they were granted. A call is `Fair`
if it moves both alike, and `Mistaken` if it takes a unit and grants nothing, or grants what it has
not taken. A tally counts the mistakes of both kinds, and units and grants differ by just these
(`Balanced`): so it says when a client that gives back what it was granted finds nothing to give back.
-/

structure Tally where
  untold : Nat
  unbacked : Nat
deriving DecidableEq, Repr

namespace Tally

/-- From `u` units and `g` grants to `u'` and `g'`. -/
inductive Fair : Nat → Nat → Nat → Nat → Prop
  | granted (u g : Nat) : Fair u g (u + 1) (g + 1)
  | returned (u g : Nat) : Fair (u + 1) (g + 1) u g
  | idle (u g : Nat) : Fair u g u g

inductive Mistaken : Nat → Nat → Nat → Nat → Prop
  | untold (u g : Nat) : Mistaken u g (u + 1) g
  | unbacked (u g : Nat) : Mistaken u g u (g + 1)

def zero : Tally := ⟨0, 0⟩

def mistakes (t : Tally) : Nat := t.untold + t.unbacked

/-- The tally after a call. -/
def count (t : Tally) (u g u' g' : Nat) : Tally where
  untold := t.untold + if u < u' ∧ ¬ g < g' then 1 else 0
  unbacked := t.unbacked + if g < g' ∧ ¬ u < u' then 1 else 0

def Balanced (t : Tally) (u g : Nat) : Prop := g + t.untold = u + t.unbacked

variable {t : Tally} {u g u' g' : Nat}

@[simp] theorem count_untold : t.count u g (u + 1) g = ⟨t.untold + 1, t.unbacked⟩ := by simp [count]

@[simp] theorem count_unbacked : t.count u g u (g + 1) = ⟨t.untold, t.unbacked + 1⟩ := by simp [count]

theorem Fair.count_eq (h : Fair u g u' g') : t.count u g u' g' = t := by
  cases h with
  | granted => simp [count]
  | returned => simp [count, Nat.not_lt.2 (Nat.le_succ _)]
  | idle => simp [count]

theorem Mistaken.mistakes_count (h : Mistaken u g u' g') : (t.count u g u' g').mistakes = t.mistakes + 1 := by
  cases h with
  | untold =>
    simp only [count_untold, mistakes]
    omega
  | unbacked =>
    simp only [count_unbacked, mistakes]
    omega

theorem Balanced.fair (ht : t.Balanced u g) (h : Fair u g u' g') : (t.count u g u' g').Balanced u' g' := by
  rw [h.count_eq]
  unfold Balanced at ht ⊢
  cases h <;> omega

theorem Balanced.mistaken (ht : t.Balanced u g) (h : Mistaken u g u' g') :
    (t.count u g u' g').Balanced u' g' := by
  unfold Balanced at ht
  cases h with
  | untold =>
    simp only [count_untold, Balanced]
    omega
  | unbacked =>
    simp only [count_unbacked, Balanced]
    omega

theorem Balanced.units_eq_iff (ht : t.Balanced u g) (n : Nat) : u = n ↔ g + t.untold = t.unbacked + n := by
  unfold Balanced at ht
  omega

/-! ### Machines with a tally -/

variable {σ ι ρ : Type*} (M : Machine σ ι ρ) (units grants : σ → Nat)

/-- The machine with the tally of its calls beside it. -/
def tallied : Machine (σ × Tally) ι (ρ × σ × Tally) where
  call s l := (M.call s.1 l, s)
  next a := (M.next a.1).map fun s' => (s', a.2.2.count (units a.2.1) (grants a.2.1) (units s') (grants s'))

theorem next_tallied {s s' : σ × Tally} {l : ι}
    (h : (tallied M units grants).next ((tallied M units grants).call s l) = some s') :
    M.next (M.call s.1 l) = some s'.1 ∧ s'.2 = s.2.count (units s.1) (grants s.1) (units s'.1) (grants s'.1) := by
  obtain ⟨s₁, hs₁, rfl⟩ := Option.map_eq_some_iff.1 h
  exact ⟨hs₁, rfl⟩

end Tally
