import Mathlib.Logic.Function.Basic

/-!
# Reference counts

A heap of objects that live as long as somebody retains them. An object is kept with the number of
its retains beyond the first, so that there is none without a retain. `none` as a result says that
the object is not there: a release too many.
-/

namespace Refs

structure Object (α : Type*) where
  value : α
  more : Nat

abbrev Heap (η α : Type*) := η → Option (Object α)

variable {η α : Type*}

def Heap.empty : Heap η α := fun _ => none

def count (heap : Heap η α) (h : η) : Nat :=
  match heap h with
  | none => 0
  | some o => o.more + 1

variable [DecidableEq η]

def create (heap : Heap η α) (h : η) (value : α) : Heap η α := Function.update heap h (some ⟨value, 0⟩)

def retain (heap : Heap η α) (h : η) : Option (Heap η α) :=
  (heap h).map fun o => Function.update heap h (some { o with more := o.more + 1 })

/-- What a release leaves of an object. -/
def Object.released : Object α → Option (Object α)
  | ⟨_, 0⟩ => none
  | ⟨value, more + 1⟩ => some ⟨value, more⟩

def release (heap : Heap η α) (h : η) : Option (Heap η α) :=
  (heap h).map fun o => Function.update heap h o.released

variable {heap : Heap η α} {h : η} {value : α}

theorem retain_create : retain (create heap h value) h =
    some (Function.update heap h (some ⟨value, 1⟩)) := by
  simp [retain, create]

theorem release_eq {o : Object α} (hh : heap h = some o) :
    release heap h = some (Function.update heap h o.released) := by
  rw [release, hh, Option.map_some]

theorem release_create (hh : heap h = none) : release (create heap h value) h = some heap := by
  have hcreated : create heap h value h = some ⟨value, 0⟩ := Function.update_self ..
  rw [release_eq hcreated, create, Function.update_idem, Object.released, ← hh, Function.update_eq_self]

end Refs
