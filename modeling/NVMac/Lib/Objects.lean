import Mathlib.Logic.Function.Basic

/-!
# Objects at addresses

What there is, by address. A release names what it releases, and fails (`none`) where that is not
what is there.
-/

namespace Objects
variable {η α : Type} {objects objects' objects'' : η → Option α} {a x : η} {o : α}

/-- All that was there is there still. -/
def Extends (objects objects' : η → Option α) : Prop := ∀ x o, objects x = some o → objects' x = some o

theorem Extends.trans (h : Extends objects objects') (h' : Extends objects' objects'') :
    Extends objects objects'' := fun x o hx => h' x o (h x o hx)

variable [DecidableEq η]

/-- An answer of `null` makes nothing. -/
def create (null : η) (objects : η → Option α) (a : η) (o : α) : η → Option α :=
  if a = null then objects else Function.update objects a (some o)

def release (matching : α → Bool) (objects : η → Option α) (a : η) : Option (η → Option α) :=
  match objects a with
  | none => none
  | some o => if matching o then some (Function.update objects a none) else none

theorem create_null (null : η) : create null objects null o = objects := if_pos rfl

theorem create_of_ne {null : η} (h : a ≠ null) : create null objects a o = Function.update objects a (some o) :=
  if_neg h

theorem extends_update (h : objects a = none) : Extends objects (Function.update objects a (some o)) := by
  intro x p hx
  have hne : x ≠ a := by
    rintro rfl
    rw [h] at hx
    cases hx
  rw [Function.update_of_ne hne, hx]

theorem release_of_eq {matching : α → Bool} (h : objects a = some o) (ho : matching o = true) :
    release matching objects a = some (Function.update objects a none) := by
  rw [release, h]
  exact if_pos ho

theorem release_of_none {matching : α → Bool} (h : objects a = none) : release matching objects a = none := by
  rw [release, h]

theorem release_of_mismatch {matching : α → Bool} (h : objects a = some o) (ho : matching o = false) :
    release matching objects a = none := by
  rw [release, h]
  exact if_neg (by rw [ho]; exact Bool.false_ne_true)

end Objects
