import NVMac.Keys
import NVMac.Lib.Outcome
import NVMac.Lib.Refs
import NVMac.Lib.Registry

/-!
# The registry of mappings

In both ports `global_mapped_memory` keeps the `IOMemoryMap` behind an address that
`os_map_kernel_space` returned, and `os_unmap_kernel_space` takes it out again. The dictionary holds
a retain on each of its entries; `α` is what a port's mapping is about.
-/

namespace NVMac
open Refs Registry Outcome

abbrev MapHandle := Nat

/-- The result of a release or a retain; there is none on an object that is gone. -/
def live {β : Type} : Option β → Except Fault β
  | some x => .ok x
  | none => .error .overRelease

structure Mappings (α : Type) where
  maps : Heap MapHandle α
  globalMappedMemory : List Char → Option MapHandle

namespace Mappings
variable {α : Type}

def empty : Mappings α := ⟨.empty, fun _ => none⟩

def create (s : Mappings α) (h : MapHandle) (value : α) : Mappings α :=
  { s with maps := Refs.create s.maps h value }

def release (s : Mappings α) (h : MapHandle) : Except Fault (Mappings α) := do
  let maps ← live (Refs.release s.maps h)
  pure { s with maps := maps }

/-- The new entry is retained before an old one under the key is released. -/
def setObject (s : Mappings α) (key : List Char) (h : MapHandle) : Except Fault (Mappings α) := do
  let maps ← live (Refs.retain s.maps h)
  let maps ← match s.globalMappedMemory key with
    | none => pure maps
    | some old => live (Refs.release maps old)
  pure ⟨maps, Function.update s.globalMappedMemory key (some h)⟩

def removeObject (s : Mappings α) (key : List Char) : Except Fault (Mappings α) :=
  match s.globalMappedMemory key with
  | none => .ok s
  | some old => do
    let maps ← live (Refs.release s.maps old)
    pure ⟨maps, Function.update s.globalMappedMemory key none⟩

/-- The cast of `NULL` is `NULL`, and all entries are mappings. -/
def osUnmapKernelSpace (s : Mappings α) (addressBase : NvU64) : Except Fault (Mappings α) :=
  match s.globalMappedMemory (keyName addressBase) with
  | none => .ok s
  | some _ => s.removeObject (keyName addressBase)

variable {s : Mappings α} {h old : MapHandle} {key : List Char} {value : α} {o : Object α} {address : NvU64}

theorem setObject_create (hkey : s.globalMappedMemory key = none) :
    (s.create h value).setObject key h =
      .ok ⟨Function.update s.maps h (some ⟨value, 1⟩), Function.update s.globalMappedMemory key (some h)⟩ := by
  simp only [setObject, create, retain_create, live, ok_bind, hkey]
  rfl

theorem setObject_create_of_taken (hh : h ≠ old) (hkey : s.globalMappedMemory key = some old)
    (hold : s.maps old = some o) :
    (s.create h value).setObject key h =
      .ok ⟨Function.update (Function.update s.maps h (some ⟨value, 1⟩)) old o.released,
        Function.update s.globalMappedMemory key (some h)⟩ := by
  have hold' : Function.update s.maps h (some ⟨value, 1⟩) old = some o := by
    rw [Function.update_of_ne hh.symm, hold]
  simp only [setObject, create, retain_create, live, ok_bind, hkey, release_eq hold']
  rfl

theorem release_of_second (hh : s.maps h = some ⟨value, 1⟩) : s.release h = .ok (s.create h value) := by
  show (live (Refs.release s.maps h) >>= fun _ => _) = _
  rw [release_eq hh]
  rfl

/-- The end of `os_map_kernel_space`, where the key is free: the registry's retain is the one left. -/
theorem setObject_release (hkey : s.globalMappedMemory key = none) :
    ((s.create h value).setObject key h >>= fun s => s.release h) =
      .ok ⟨Refs.create s.maps h value, Function.update s.globalMappedMemory key (some h)⟩ := by
  have hsecond : Function.update s.maps h (some ⟨value, 1⟩) h = some ⟨value, 1⟩ := Function.update_self ..
  rw [setObject_create hkey, ok_bind, release_of_second hsecond]
  show Except.ok (Mappings.mk (Function.update (Function.update _ _ _) _ _) _) = _
  rw [Function.update_idem]
  rfl

/-- Where it is not, the old entry loses the retain it had. -/
theorem setObject_release_of_taken (hh : h ≠ old) (hkey : s.globalMappedMemory key = some old)
    (hold : s.maps old = some o) :
    ((s.create h value).setObject key h >>= fun s => s.release h) =
      .ok ⟨Function.update (Refs.create s.maps h value) old o.released,
        Function.update s.globalMappedMemory key (some h)⟩ := by
  have hsecond : Function.update (Function.update s.maps h (some ⟨value, 1⟩)) old o.released h =
      some ⟨value, 1⟩ := by
    rw [Function.update_of_ne hh, Function.update_self]
  rw [setObject_create_of_taken hh hkey hold, ok_bind, release_of_second hsecond]
  show Except.ok (Mappings.mk (Function.update (Function.update (Function.update _ _ _) _ _) _ _) _) = _
  rw [Function.update_comm hh, Function.update_idem, Function.update_comm hh.symm]
  rfl

/-- The entries of the dictionary are there, as it retains them. -/
def EntriesLive (s : Mappings α) : Prop := ∀ key h, s.globalMappedMemory key = some h → s.maps h ≠ none

/-- In any case the new mapping is there, under its key. -/
theorem exists_setObject_release (value : α) (hlive : s.EntriesLive) (hh : s.maps h = none) :
    ∃ s', ((s.create h value).setObject key h >>= fun s => s.release h) = .ok s' ∧
      s'.maps h = some ⟨value, 0⟩ ∧ s'.globalMappedMemory key = some h := by
  cases hkey : s.globalMappedMemory key with
  | none => exact ⟨_, setObject_release hkey, Function.update_self .., Function.update_self ..⟩
  | some old =>
    obtain ⟨o, hold⟩ := Option.ne_none_iff_exists'.1 (hlive key old hkey)
    have hne : h ≠ old := by
      rintro rfl
      rw [hh] at hold
      cases hold
    refine ⟨_, setObject_release_of_taken hne hkey hold, ?_, Function.update_self ..⟩
    show Function.update (Function.update _ _ _) _ _ _ = _
    rw [Function.update_of_ne hne, Function.update_self]

theorem osUnmapKernelSpace_of_absent (hkey : s.globalMappedMemory (keyName address) = none) :
    s.osUnmapKernelSpace address = .ok s := by
  rw [osUnmapKernelSpace, hkey]

theorem osUnmapKernelSpace_of_present (hkey : s.globalMappedMemory (keyName address) = some h)
    (hh : s.maps h = some o) :
    s.osUnmapKernelSpace address =
      .ok ⟨Function.update s.maps h o.released, Function.update s.globalMappedMemory (keyName address) none⟩ := by
  rw [osUnmapKernelSpace, removeObject, hkey]
  show (live (Refs.release s.maps h) >>= fun _ => _) = _
  rw [release_eq hh]
  rfl

/-! ### Mappings by address -/

/-- There is an entry for the mapping at each outstanding address, with one retain on it, and there
is no other entry or mapping. -/
structure Exact (s : Mappings α) (outstanding : NvU64 → Option MapHandle) : Prop where
  entries : Tracks keyName id outstanding s.globalMappedMemory
  counted : ∀ address h, outstanding address = some h → ∃ value, s.maps h = some ⟨value, 0⟩
  single : ∀ address address' h, outstanding address = some h → outstanding address' = some h → address = address'
  gone : ∀ h, (∀ address, outstanding address ≠ some h) → s.maps h = none

namespace Exact
variable {outstanding : NvU64 → Option MapHandle}

theorem empty : (Mappings.empty : Mappings α).Exact fun _ => none where
  entries := Tracks.empty
  counted := nofun
  single := nofun
  gone := fun _ _ => rfl

theorem lookup (hs : s.Exact outstanding) (halone : Alone keyName outstanding address) :
    s.globalMappedMemory (keyName address) = outstanding address := by
  rw [hs.entries.lookup halone, Option.map_id]
  rfl

theorem unused (hs : s.Exact outstanding) (hh : s.maps h = none) (address : NvU64) :
    outstanding address ≠ some h := by
  intro hout
  obtain ⟨value, hvalue⟩ := hs.counted address h hout
  rw [hh] at hvalue
  cases hvalue

/-- A new mapping at an address that has none, whose key is free. -/
theorem insert (hs : s.Exact outstanding) (halone : Alone keyName outstanding address)
    (hnew : outstanding address = none) (hh : s.maps h = none) (value : α) :
    Exact ⟨Refs.create s.maps h value, Function.update s.globalMappedMemory (keyName address) (some h)⟩
      (Function.update outstanding address (some h)) where
  entries := hs.entries.insert halone h
  counted := by
    intro address' h' hout
    rcases update_apply_eq_iff.1 hout with ⟨-, heq⟩ | ⟨-, hold⟩
    · obtain rfl := Option.some.inj heq
      exact ⟨value, Function.update_self ..⟩
    · obtain ⟨value', hvalue'⟩ := hs.counted address' h' hold
      exact ⟨value', update_eq_of_apply_ne hh hvalue' nofun⟩
  single := by
    intro p q h' hp hq
    rcases update_apply_eq_iff.1 hp with ⟨hpa, hp'⟩ | ⟨-, hp'⟩ <;>
      rcases update_apply_eq_iff.1 hq with ⟨hqa, hq'⟩ | ⟨-, hq'⟩
    · rw [hpa, hqa]
    · exact absurd (hq'.trans hp'.symm) (hs.unused hh q)
    · exact absurd (hp'.trans hq'.symm) (hs.unused hh p)
    · exact hs.single p q h' hp' hq'
  gone := by
    intro h' hout
    have hne : h' ≠ h := by
      rintro rfl
      exact hout address (Function.update_self ..)
    refine (Function.update_of_ne hne _ _).trans (hs.gone h' fun address' heq => ?_)
    exact hout address' (update_eq_of_apply_ne hnew heq nofun)

theorem erase (hs : s.Exact outstanding) (halone : Alone keyName outstanding address)
    (hh : outstanding address = some h) :
    Exact ⟨Function.update s.maps h none, Function.update s.globalMappedMemory (keyName address) none⟩
      (Function.update outstanding address none) where
  entries := hs.entries.erase halone
  counted := by
    intro address' h' hout
    obtain ⟨haddress', hout⟩ := apply_of_update_eq hout nofun
    obtain ⟨value, hvalue⟩ := hs.counted address' h' hout
    have hne : h' ≠ h := by
      rintro rfl
      exact haddress' (hs.single _ _ _ hout hh)
    exact ⟨value, (Function.update_of_ne hne _ _).trans hvalue⟩
  single := by
    intro p q h' hp hq
    exact hs.single p q h' (apply_of_update_eq hp nofun).2 (apply_of_update_eq hq nofun).2
  gone := by
    intro h' hout
    by_cases hne : h' = h
    · rw [hne]
      exact Function.update_self ..
    · refine (Function.update_of_ne hne _ _).trans (hs.gone h' fun address' heq => ?_)
      have hother : some h ≠ some h' := fun hsame => hne (Option.some.inj hsame).symm
      exact hout address' (update_eq_of_apply_ne hh heq hother)

end Exact

end Mappings

end NVMac
