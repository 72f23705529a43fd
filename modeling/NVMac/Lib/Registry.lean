import Mathlib.Logic.Function.Basic

/-!
# Registries under a key

A registry keeps something about each live object under the object's key. `Tracks` says that it
holds an entry for each live object and no other. Keys need not be injective; what is asked of them
is asked of the live objects, where an object comes or goes (`Tracks.insert`, `Tracks.erase`).
-/

namespace Registry
variable {α κ β γ : Type*}

/-- The registry holds `enc b` under the key of each live object with data `b`, and nothing else. -/
structure Tracks (key : α → κ) (enc : β → γ) (live : α → Option β) (registry : κ → Option γ) :
    Prop where
  stored : ∀ p b, live p = some b → registry (key p) = some (enc b)
  owned : ∀ k c, registry k = some c → ∃ p b, key p = k ∧ live p = some b

/-- No other live object has the key of `p`. -/
def Alone (key : α → κ) (live : α → Option β) (p : α) : Prop :=
  ∀ q b, live q = some b → key q = key p → q = p

variable {key : α → κ} {enc : β → γ} {live : α → Option β} {registry : κ → Option γ} {p : α}

theorem Tracks.empty : Tracks key enc (fun _ => none) (fun _ => none) :=
  ⟨fun _ _ h => (by cases h), fun _ _ h => (by cases h)⟩

theorem Tracks.lookup (h : Tracks key enc live registry) (hp : Alone key live p) :
    registry (key p) = (live p).map enc := by
  cases hlive : live p with
  | some b => exact h.stored p b hlive
  | none =>
    cases hreg : registry (key p) with
    | none => rfl
    | some c =>
      obtain ⟨q, b, hkey, hq⟩ := h.owned _ _ hreg
      rw [hp q b hq hkey, hlive] at hq
      cases hq

variable [DecidableEq α] [DecidableEq κ]

/-- What an updated function holds at a place it holds either from the update or from before. -/
theorem update_apply_eq_iff {f : α → β} {q : α} {x y : β} :
    Function.update f p x q = y ↔ (q = p ∧ x = y) ∨ (q ≠ p ∧ f q = y) := by
  by_cases hq : q = p
  · simp [hq]
  · simp [hq]

/-- What is not the update is from before. -/
theorem apply_of_update_eq {f : α → β} {q : α} {x y : β} (h : Function.update f p x q = y) (hne : x ≠ y) :
    q ≠ p ∧ f q = y :=
  (update_apply_eq_iff.1 h).resolve_left fun hp => hne hp.2

/-- An update is not seen where something else was than at its place. -/
theorem update_eq_of_apply_ne {f : α → β} {q : α} {x y z : β} (hp : f p = x) (hq : f q = y) (hne : x ≠ y) :
    Function.update f p z q = y := by
  have hqp : q ≠ p := by
    rintro rfl
    exact hne (hp.symm.trans hq)
  rw [Function.update_of_ne hqp, hq]

theorem Tracks.insert (h : Tracks key enc live registry) (hp : Alone key live p) (b : β) :
    Tracks key enc (Function.update live p (some b))
      (Function.update registry (key p) (some (enc b))) := by
  constructor
  · intro q b' hq
    by_cases hqp : q = p
    · subst hqp
      rw [Function.update_self] at hq ⊢
      exact congrArg (some ∘ enc) (Option.some.inj hq)
    · rw [Function.update_of_ne hqp] at hq
      rw [Function.update_of_ne fun hkey => hqp (hp q b' hq hkey)]
      exact h.stored q b' hq
  · intro k c hk
    by_cases hkp : k = key p
    · exact ⟨p, b, hkp.symm, Function.update_self ..⟩
    · rw [Function.update_of_ne hkp] at hk
      obtain ⟨q, b', hkey, hq⟩ := h.owned k c hk
      refine ⟨q, b', hkey, ?_⟩
      rw [Function.update_of_ne fun hqp => hkp (by rw [← hkey, hqp]), hq]

theorem Tracks.erase (h : Tracks key enc live registry) (hp : Alone key live p) :
    Tracks key enc (Function.update live p none) (Function.update registry (key p) none) := by
  constructor
  · intro q b hq
    by_cases hqp : q = p
    · rw [hqp, Function.update_self] at hq
      cases hq
    · rw [Function.update_of_ne hqp] at hq
      rw [Function.update_of_ne fun hkey => hqp (hp q b hq hkey)]
      exact h.stored q b hq
  · intro k c hk
    by_cases hkp : k = key p
    · rw [hkp, Function.update_self] at hk
      cases hk
    · rw [Function.update_of_ne hkp] at hk
      obtain ⟨q, b, hkey, hq⟩ := h.owned k c hk
      refine ⟨q, b, hkey, ?_⟩
      rw [Function.update_of_ne fun hqp => hkp (by rw [← hkey, hqp]), hq]

end Registry
