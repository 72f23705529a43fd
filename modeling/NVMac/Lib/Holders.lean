import Mathlib.Data.Set.Card
import NVMac.Lib.Refs

/-!
# Places that hold references

`Balanced heap places` says that each object is retained as often as there are places that hold it.
A place is anything with room for one reference: an entry of a dictionary, a variable of a thread, a
handle given away. Whatever changes one place and moves the counts along with it keeps the balance
(`Balanced.update`), so that nothing is released that is gone, and nothing is left that no place holds
(`Balanced.live_iff`). Where each object has one owner, the heap is what the owners know (`Owned`).
-/

namespace Refs
variable {η α ρ : Type*}

def holders (places : ρ → Option η) (h : η) : Set ρ := {r | places r = some h}

structure Balanced (heap : Heap η α) (places : ρ → Option η) : Prop where
  finite : ∀ h, (holders places h).Finite
  counted : ∀ h, count heap h = (holders places h).ncard

variable {heap heap' : Heap η α} {places : ρ → Option η} {h x : η} {r : ρ} {value : α} {o : Object α}

theorem count_of_some (hh : heap h = some o) : count heap h = o.more + 1 := by
  rw [count, hh]

theorem count_eq_zero_iff : count heap h = 0 ↔ heap h = none := by
  unfold count
  cases heap h <;> simp

/-! ### What the operations do to the counts -/

section
variable [DecidableEq η]

theorem count_update (v : Option (Object α)) :
    count (Function.update heap h v) x = if x = h then count (fun _ => v) h else count heap x := by
  by_cases hx : x = h
  · simp [count, hx]
  · simp [count, hx]

theorem count_create (hh : heap h = none) : count (create heap h value) x = count heap x + if h = x then 1 else 0 := by
  rw [create, count_update]
  by_cases hx : x = h
  · obtain rfl := hx
    simp [count, hh]
  · rw [if_neg hx, if_neg (Ne.symm hx), Nat.add_zero]

theorem count_retain (hretain : retain heap h = some heap') :
    count heap' x = count heap x + if h = x then 1 else 0 := by
  obtain ⟨o, hh, rfl⟩ := Option.map_eq_some_iff.1 hretain
  rw [count_update]
  by_cases hx : x = h
  · obtain rfl := hx
    simp [count, hh]
  · rw [if_neg hx, if_neg (Ne.symm hx), Nat.add_zero]

theorem count_release (hrelease : release heap h = some heap') :
    count heap' x + (if h = x then 1 else 0) = count heap x := by
  obtain ⟨o, hh, rfl⟩ := Option.map_eq_some_iff.1 hrelease
  rw [count_update]
  by_cases hx : x = h
  · obtain rfl := hx
    obtain ⟨value, more⟩ := o
    rw [if_pos rfl, if_pos rfl, count_of_some hh]
    cases more <;> rfl
  · rw [if_neg hx, if_neg (Ne.symm hx), Nat.add_zero]

theorem exists_retain (hh : heap h ≠ none) : ∃ heap', retain heap h = some heap' := by
  obtain ⟨o, ho⟩ := Option.ne_none_iff_exists'.1 hh
  exact ⟨_, by rw [retain, ho, Option.map_some]⟩

theorem exists_release (hh : heap h ≠ none) : ∃ heap', release heap h = some heap' := by
  obtain ⟨o, ho⟩ := Option.ne_none_iff_exists'.1 hh
  exact ⟨_, release_eq ho⟩

/-! ### Values -/

/-- What is there in `heap'` was there in `heap`, with the same value. -/
def SameValues (heap heap' : Heap η α) : Prop :=
  ∀ x o, heap' x = some o → ∃ o', heap x = some o' ∧ o'.value = o.value

theorem sameValues_retain (hretain : retain heap h = some heap') : SameValues heap heap' := by
  obtain ⟨o, hh, rfl⟩ := Option.map_eq_some_iff.1 hretain
  intro x p hp
  by_cases hx : x = h
  · obtain rfl := hx
    rw [Function.update_self] at hp
    exact ⟨o, hh, by rw [← Option.some.inj hp]⟩
  · rw [Function.update_of_ne hx] at hp
    exact ⟨p, hp, rfl⟩

theorem sameValues_release (hrelease : release heap h = some heap') : SameValues heap heap' := by
  obtain ⟨o, hh, rfl⟩ := Option.map_eq_some_iff.1 hrelease
  intro x p hp
  by_cases hx : x = h
  · obtain rfl := hx
    rw [Function.update_self] at hp
    obtain ⟨value, - | more⟩ := o
    · cases hp
    · exact ⟨_, hh, by rw [← Option.some.inj hp]⟩
  · rw [Function.update_of_ne hx] at hp
    exact ⟨p, hp, rfl⟩

end

theorem sameValues_create [DecidableEq η] (hvalues : SameValues heap heap') (ho : heap h = some o) :
    SameValues heap (create heap' h o.value) := by
  intro x p hp
  by_cases hx : x = h
  · obtain rfl := hx
    rw [create, Function.update_self] at hp
    exact ⟨o, ho, by rw [← Option.some.inj hp]⟩
  · rw [create, Function.update_of_ne hx] at hp
    exact hvalues x p hp

theorem SameValues.of_live {heap'' : Heap η α} (h : SameValues heap heap') (h' : SameValues heap heap'')
    (hlive : ∀ x, heap'' x ≠ none → heap' x ≠ none) : SameValues heap' heap'' := by
  intro x o hx
  obtain ⟨o', hx'⟩ := Option.ne_none_iff_exists'.1 (hlive x (by rw [hx]; nofun))
  obtain ⟨p, hp, hvalue⟩ := h' x o hx
  obtain ⟨p', hp', hvalue'⟩ := h x o' hx'
  obtain rfl := Option.some.inj (hp.symm.trans hp')
  exact ⟨o', hx', hvalue'.symm.trans hvalue⟩

theorem SameValues.trans {heap'' : Heap η α} (h : SameValues heap heap') (h' : SameValues heap' heap'') :
    SameValues heap heap'' := by
  intro x o hx
  obtain ⟨o', hx', hvalue'⟩ := h' x o hx
  obtain ⟨o'', hx'', hvalue''⟩ := h x o' hx'
  exact ⟨o'', hx'', hvalue''.trans hvalue'⟩

/-- Heaps with the same counts and values are the same. -/
theorem SameValues.eq_of_count (h : SameValues heap heap') (hcount : ∀ x, count heap x = count heap' x) :
    heap = heap' := by
  funext x
  have hx := hcount x
  rcases heq' : heap' x with - | o
  · rw [count_eq_zero_iff.2 heq', count_eq_zero_iff] at hx
    exact hx
  · obtain ⟨o', heq, hvalue⟩ := h x o heq'
    rw [count_of_some heq, count_of_some heq'] at hx
    obtain ⟨v, n⟩ := o
    obtain ⟨v', n'⟩ := o'
    obtain rfl : v' = v := hvalue
    obtain rfl : n' = n := Nat.succ.inj hx
    exact heq

/-! ### The balance -/

theorem Balanced.empty : Balanced (.empty : Heap η α) (fun _ : ρ => none) := by
  have hnone : ∀ h : η, holders (fun _ : ρ => none) h = ∅ := fun h => by
    ext r
    simp [holders]
  exact ⟨fun h => hnone h ▸ Set.finite_empty, fun h => by rw [hnone h, Set.ncard_empty]; rfl⟩

theorem Balanced.live_iff (hb : Balanced heap places) : heap h ≠ none ↔ ∃ r, places r = some h := by
  rw [ne_eq, ← count_eq_zero_iff, hb.counted h, Set.ncard_eq_zero (hb.finite h)]
  exact Set.nonempty_iff_ne_empty.symm

theorem Balanced.live (hb : Balanced heap places) (hr : places r = some h) : heap h ≠ none :=
  hb.live_iff.2 ⟨r, hr⟩

theorem Balanced.one_of_only (hb : Balanced heap places) (hr : places r = some h)
    (honly : ∀ r', places r' = some h → r' = r) : count heap h = 1 := by
  have hset : holders places h = {r} := by
    ext r'
    exact ⟨honly r', fun h' => h' ▸ hr⟩
  rw [hb.counted h, hset, Set.ncard_singleton]

/-- Places that hold nothing make no difference. -/
theorem balanced_elim_none {κ : Type*} :
    Balanced heap (Sum.elim places fun _ : κ => none) ↔ Balanced heap places := by
  have himage : ∀ h, holders (Sum.elim places fun _ : κ => none) h = Sum.inl '' holders places h := by
    intro h
    ext (r | r)
    · simp [holders]
    · simp [holders]
  constructor
  · rintro ⟨hfinite, hcounted⟩
    refine ⟨fun h => ?_, fun h => ?_⟩
    · exact (Set.finite_image_iff Sum.inl_injective.injOn).1 (himage h ▸ hfinite h)
    · rw [hcounted h, himage h, Set.ncard_image_of_injective _ Sum.inl_injective]
  · rintro ⟨hfinite, hcounted⟩
    refine ⟨fun h => ?_, fun h => ?_⟩
    · exact himage h ▸ (hfinite h).image _
    · rw [hcounted h, himage h, Set.ncard_image_of_injective _ Sum.inl_injective]

section
variable [DecidableEq η] [DecidableEq ρ]

theorem holders_eq (places : ρ → Option η) (r : ρ) : holders places x =
    if places r = some x then insert r (holders (Function.update places r none) x)
    else holders (Function.update places r none) x := by
  ext r'
  by_cases hr' : r' = r
  · obtain rfl := hr'
    split_ifs with hr <;> simp [holders, hr]
  · split_ifs with hr <;> simp [holders, hr']

theorem finite_holders_iff (places : ρ → Option η) (r : ρ) :
    (holders places x).Finite ↔ (holders (Function.update places r none) x).Finite := by
  rw [holders_eq places r]
  split_ifs
  · exact Set.finite_insert
  · exact Iff.rfl

theorem ncard_holders (places : ρ → Option η) (r : ρ) (hfinite : (holders places x).Finite) :
    (holders places x).ncard =
      (holders (Function.update places r none) x).ncard + if places r = some x then 1 else 0 := by
  have hout : r ∉ holders (Function.update places r none) x := by simp [holders]
  rw [holders_eq places r]
  split_ifs
  · exact Set.ncard_insert_of_notMem hout ((finite_holders_iff places r).1 hfinite)
  · rfl

/-- One place changes, and the counts of what it held and of what it holds move along. -/
theorem Balanced.update (hb : Balanced heap places) (r : ρ) (v : Option η)
    (hcount : ∀ x, count heap' x + (if places r = some x then 1 else 0) = count heap x + if v = some x then 1 else 0) :
    Balanced heap' (Function.update places r v) := by
  have hfinite : ∀ x, (holders (Function.update places r v) x).Finite := by
    intro x
    rw [finite_holders_iff _ r, Function.update_idem, ← finite_holders_iff]
    exact hb.finite x
  refine ⟨hfinite, fun x => ?_⟩
  have hbefore := ncard_holders places r (hb.finite x)
  have hafter := ncard_holders (Function.update places r v) r (hfinite x)
  rw [Function.update_idem, Function.update_self] at hafter
  have hx := hcount x
  rw [hb.counted x] at hx
  omega

theorem Balanced.create (hb : Balanced heap places) (hr : places r = none) (hh : heap h = none) (value : α) :
    Balanced (create heap h value) (Function.update places r (some h)) := by
  refine hb.update r (some h) fun x => ?_
  simp [count_create hh, hr]

theorem Balanced.retain (hb : Balanced heap places) (hr : places r = none) (hretain : retain heap h = some heap') :
    Balanced heap' (Function.update places r (some h)) := by
  refine hb.update r (some h) fun x => ?_
  simp [count_retain hretain, hr]

theorem Balanced.release (hb : Balanced heap places) (hr : places r = some h) (hrelease : release heap h = some heap') :
    Balanced heap' (Function.update places r none) := by
  refine hb.update r none fun x => ?_
  have hx := count_release (x := x) hrelease
  simpa [hr] using hx

/-- A place takes a reference before it gives up the one it had. -/
theorem Balanced.replace {heap'' : Heap η α} {old : η} (hb : Balanced heap places) (hr : places r = some old)
    (hretain : Refs.retain heap h = some heap') (hrelease : Refs.release heap' old = some heap'') :
    Balanced heap'' (Function.update places r (some h)) := by
  refine hb.update r (some h) fun x => ?_
  have hx := count_release (x := x) hrelease
  rw [count_retain hretain] at hx
  simpa [hr] using hx

end

/-! ### One owner -/

/-- Each object has the value that its owner knows of it, and one retain, which is the owner's. -/
def Owned (heap : Heap η α) (owned : η → Option α) : Prop := ∀ h, heap h = (owned h).map fun value => ⟨value, 0⟩

section
variable {owned : η → Option α}

theorem Owned.empty : Owned (.empty : Heap η α) fun _ => none := fun _ => rfl

theorem Owned.live_iff (ho : Owned heap owned) : heap h = some ⟨value, 0⟩ ↔ owned h = some value := by
  rw [ho h]
  cases owned h <;> simp

variable [DecidableEq η]

theorem Owned.create (ho : Owned heap owned) (h : η) (value : α) :
    Owned (create heap h value) (Function.update owned h (some value)) := by
  intro x
  by_cases hx : x = h
  · rw [hx, Refs.create, Function.update_self, Function.update_self]
    rfl
  · rw [Refs.create, Function.update_of_ne hx, Function.update_of_ne hx, ho x]

theorem Owned.release (ho : Owned heap owned) (hh : owned h = some value) :
    Refs.release heap h = some (Function.update heap h none) ∧
      Owned (Function.update heap h none) (Function.update owned h none) := by
  refine ⟨release_eq (ho.live_iff.2 hh), fun x => ?_⟩
  by_cases hx : x = h
  · rw [hx, Function.update_self, Function.update_self]
    rfl
  · rw [Function.update_of_ne hx, Function.update_of_ne hx, ho x]

end

end Refs
