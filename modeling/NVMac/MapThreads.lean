import Mathlib.Data.Sum.Basic
import NVMac.MappingsDriverKit
import NVMac.MappingsKernel
import NVMac.Lib.Holders

/-!
# The registry of mappings under threads (`memory_driverkit.cpp`, `memory_kernel.cpp`)

`os_map_kernel_space` and `os_unmap_kernel_space` cut into the steps that the system makes atomic. The
ports differ where the system makes no mapping: one returns `NULL`, the other asks `NULL` for its address.
From there on they share their steps: the thread that maps holds a retain of its own on the mapping it
makes, and the one that unmaps has none on the mapping it finds. Whatever the threads do, retains are
counted right (`mapThreads_keepsCounts`), and while nothing fails the registry is that of the calls one
after the other, in the order of their steps on the dictionary (`mapThreads_linearizable`).
-/

namespace NVMac
open Refs Outcome

/-! ### Operations of the dictionary with other holders about -/

namespace Mappings
variable {α τ : Type} {s : Mappings α} {holds : τ → Option MapHandle} {h : MapHandle} {key : List Char} {t : τ}

/-- The entries, and what else holds mappings. -/
def places (s : Mappings α) (holds : τ → Option MapHandle) : List Char ⊕ τ → Option MapHandle :=
  Sum.elim s.globalMappedMemory holds

@[simp] theorem places_inl : s.places holds (.inl key) = s.globalMappedMemory key := rfl

@[simp] theorem places_inr : s.places holds (.inr t) = holds t := rfl

variable [DecidableEq τ]

theorem places_update_registry (maps : Heap MapHandle α) (v : Option MapHandle) :
    places ⟨maps, Function.update s.globalMappedMemory key v⟩ holds =
      Function.update (s.places holds) (.inl key) v := Sum.update_elim_inl.symm

theorem places_update_holds (v : Option MapHandle) :
    s.places (Function.update holds t v) = Function.update (s.places holds) (.inr t) v := Sum.update_elim_inr.symm

@[simp] theorem live_some {β : Type} (x : β) : live (some x) = .ok x := rfl

theorem setObject_balanced (hs : Balanced s.maps (s.places holds)) (key : List Char) (hh : s.maps h ≠ none) :
    ∃ maps, s.setObject key h = .ok ⟨maps, Function.update s.globalMappedMemory key (some h)⟩ ∧
      Balanced maps (Function.update (s.places holds) (.inl key) (some h)) ∧ SameValues s.maps maps := by
  obtain ⟨maps, hretain⟩ := exists_retain hh
  unfold setObject
  rw [hretain]
  rcases hkey : s.globalMappedMemory key with - | old
  · have hplace : s.places holds (.inl key) = none := hkey
    exact ⟨maps, rfl, hs.retain hplace hretain, sameValues_retain hretain⟩
  · have hplace : s.places holds (.inl key) = some old := hkey
    have hold : maps old ≠ none := by
      have hlive := hs.live hplace
      rw [ne_eq, ← count_eq_zero_iff] at hlive ⊢
      rw [count_retain hretain]
      omega
    obtain ⟨maps', hrelease⟩ := exists_release hold
    simp only [live_some, ok_bind, hrelease]
    exact ⟨maps', rfl, hs.replace hplace hretain hrelease,
      (sameValues_retain hretain).trans (sameValues_release hrelease)⟩

theorem removeObject_balanced (hs : Balanced s.maps (s.places holds)) (key : List Char) :
    ∃ maps, s.removeObject key = .ok ⟨maps, Function.update s.globalMappedMemory key none⟩ ∧
      Balanced maps (Function.update (s.places holds) (.inl key) none) ∧ SameValues s.maps maps := by
  unfold removeObject
  rcases hkey : s.globalMappedMemory key with - | old
  · have hsame : Function.update s.globalMappedMemory key none = s.globalMappedMemory := by
      rw [← hkey, Function.update_eq_self]
    rw [← places_update_registry s.maps, hsame]
    exact ⟨s.maps, rfl, hs, fun x o hx => ⟨o, hx, rfl⟩⟩
  · have hplace : s.places holds (.inl key) = some old := hkey
    obtain ⟨maps, hrelease⟩ := exists_release (hs.live hplace)
    simp only [hrelease, live_some, ok_bind]
    exact ⟨maps, rfl, hs.release hplace hrelease, sameValues_release hrelease⟩

theorem release_balanced (hs : Balanced s.maps (s.places holds)) (ht : holds t = some h) :
    ∃ maps, s.release h = .ok { s with maps := maps } ∧
      Balanced maps (Function.update (s.places holds) (.inr t) none) ∧ SameValues s.maps maps := by
  have hplace : s.places holds (.inr t) = some h := ht
  obtain ⟨maps, hrelease⟩ := exists_release (hs.live hplace)
  unfold release
  rw [hrelease]
  exact ⟨maps, rfl, hs.release hplace hrelease, sameValues_release hrelease⟩

theorem osUnmapKernelSpace_eq (addressBase : NvU64) : s.osUnmapKernelSpace addressBase = s.removeObject (keyName addressBase) := by
  unfold osUnmapKernelSpace
  rcases hkey : s.globalMappedMemory (keyName addressBase) with - | h
  · rw [removeObject, hkey]
  · rfl

end Mappings

/-! ### Calls one after the other -/

/-- A map that gets the mapping `h` from the system, and an unmap. -/
inductive MapAction (α : Type)
  | map (h : MapHandle) (addressBase : NvU64) (value : α)
  | unmap (addressBase : NvU64)

def MapAction.run {α : Type} (m : Mappings α) : MapAction α → Except Fault (Mappings α)
  | .map h addressBase value =>
    (m.create h value).setObject (keyName addressBase) h >>= fun m => m.release h
  | .unmap addressBase => m.osUnmapKernelSpace addressBase

/-! ### Threads -/

/-- Where a thread is: outside; with a mapping that it has made, before `setObject` and before
`release`; and in an unmap before `getObject`, before the cast of what it found and before
`removeObject`. -/
inductive MapPhase
  | idle
  | made (addressBase : NvU64) (h : MapHandle)
  | entered (addressBase : NvU64) (h : MapHandle)
  | unmapping (addressBase : NvU64)
  | found (addressBase : NvU64) (h : MapHandle)
  | checked (addressBase : NvU64)

/-- The retain of the thread itself. -/
def MapPhase.holds : MapPhase → Option MapHandle
  | .made _ h | .entered _ h => some h
  | _ => none

structure MapThreads (τ α : Type) where
  mappings : Mappings α
  phase : τ → MapPhase

/-- `create` is the call of the system that makes the mapping, and `noMapping` one that makes none. -/
inductive MapStep (τ α : Type)
  | create (t : τ) (h : MapHandle) (addressBase : NvU64) (value : α)
  | noMapping (t : τ)
  | setObject (t : τ)
  | release (t : τ)
  | osUnmapKernelSpace (t : τ) (addressBase : NvU64)
  | getObject (t : τ)
  | requiredCast (t : τ)
  | removeObject (t : τ)

variable {τ α : Type}

namespace MapThreads

def empty : MapThreads τ α := ⟨.empty, fun _ => .idle⟩

def holds (s : MapThreads τ α) (t : τ) : Option MapHandle := (s.phase t).holds

/-- The places with a retain of their own: the entries, and the threads that make mappings. -/
def places (s : MapThreads τ α) : List Char ⊕ τ → Option MapHandle := s.mappings.places s.holds

/-- The call that takes effect with a step. -/
def action (s : MapThreads τ α) : MapStep τ α → Option (MapAction α)
  | .setObject t =>
    match s.phase t with
    | .made addressBase h => (s.mappings.maps h).map fun o => .map h addressBase o.value
    | _ => none
  | .getObject t =>
    match s.phase t with
    | .unmapping addressBase =>
      match s.mappings.globalMappedMemory (keyName addressBase) with
      | none => some (.unmap addressBase)
      | some _ => none
    | _ => none
  | .removeObject t =>
    match s.phase t with
    | .checked addressBase => some (.unmap addressBase)
    | _ => none
  | _ => none

variable [DecidableEq τ]

def enter (s : MapThreads τ α) (t : τ) (phase : MapPhase) (mappings : Mappings α) : MapThreads τ α :=
  ⟨mappings, Function.update s.phase t phase⟩

/-- A map for which the system makes no mapping is over: in the kernel port it reads the address of the
mapping through `NULL`. -/
def withoutMapping (s : MapThreads τ α) : Port → Except Fault (MapThreads τ α)
  | .driverKit => .ok s
  | .kernel => .error .nullDereference

/-- The next step of a thread; `none` if the thread is not before it. The cast asks the mapping for its
class, which must be there for it. -/
def step (port : Port) (s : MapThreads τ α) : MapStep τ α → Option (Except Fault (MapThreads τ α))
  | .create t h addressBase value =>
    match s.phase t with
    | .idle => some (.ok (s.enter t (.made addressBase h) (s.mappings.create h value)))
    | _ => none
  | .noMapping t =>
    match s.phase t with
    | .idle => some (s.withoutMapping port)
    | _ => none
  | .setObject t =>
    match s.phase t with
    | .made addressBase h =>
      some (s.enter t (.entered addressBase h) <$> s.mappings.setObject (keyName addressBase) h)
    | _ => none
  | .release t =>
    match s.phase t with
    | .entered _ h => some (s.enter t .idle <$> s.mappings.release h)
    | _ => none
  | .osUnmapKernelSpace t addressBase =>
    match s.phase t with
    | .idle => some (.ok (s.enter t (.unmapping addressBase) s.mappings))
    | _ => none
  | .getObject t =>
    match s.phase t with
    | .unmapping addressBase =>
      match s.mappings.globalMappedMemory (keyName addressBase) with
      | none => some (.ok (s.enter t .idle s.mappings))
      | some h => some (.ok (s.enter t (.found addressBase h) s.mappings))
    | _ => none
  | .requiredCast t =>
    match s.phase t with
    | .found addressBase h =>
      some ((fun _ => s.enter t (.checked addressBase) s.mappings) <$> live (s.mappings.maps h))
    | _ => none
  | .removeObject t =>
    match s.phase t with
    | .checked addressBase => some (s.enter t .idle <$> s.mappings.removeObject (keyName addressBase))
    | _ => none

/-- The calls of a run, in the order in which they take effect. -/
def actions (port : Port) : MapThreads τ α → List (MapStep τ α) → List (MapAction α)
  | _, [] => []
  | s, l :: ls =>
    match s.step port l with
    | some (.ok s') => (s.action l).toList ++ actions port s' ls
    | _ => []

end MapThreads

def mapThreadMachine (port : Port) (τ α : Type) [DecidableEq τ] :
    Machine (MapThreads τ α) (MapStep τ α) (Option (Except Fault (MapThreads τ α))) where
  call := MapThreads.step port
  next a := a.bind Except.toOption

/-- The system makes no mapping that is still there. -/
def MapFresh (s : MapThreads τ α) : MapStep τ α → Prop
  | .create _ h _ _ => s.mappings.maps h = none
  | _ => True

/-- The cast is of a mapping that is gone since it was found, or the kernel port maps without one. -/
inductive MapFails (port : Port) (s : MapThreads τ α) : MapStep τ α → Fault → Prop
  | gone {t : τ} {addressBase : NvU64} {h : MapHandle} (found : s.phase t = .found addressBase h)
      (gone : s.mappings.maps h = none) : MapFails port s (.requiredCast t) .overRelease
  | noMapping (t : τ) (kernel : port = .kernel) : MapFails port s (.noMapping t) .nullDereference

/-- Each mapping is retained as often as there are places with a retain, and nothing else fails. -/
def KeepsCounts (port : Port) (s : MapThreads τ α) (l : MapStep τ α) :
    Option (Except Fault (MapThreads τ α)) → Prop
  | none => True
  | some (.error e) => MapFails port s l e
  | some (.ok s') => Balanced s'.mappings.maps s'.places

/-- The mappings of calls one after the other: the registry is the same, and its entries have the only
retains. -/
structure Sequential (s : MapThreads τ α) (m : Mappings α) : Prop where
  registry : m.globalMappedMemory = s.mappings.globalMappedMemory
  threads : Balanced s.mappings.maps s.places
  entries : Balanced m.maps m.globalMappedMemory
  values : SameValues s.mappings.maps m.maps
  made : ∀ t addressBase h, s.phase t = .made addressBase h → ∀ p, s.places p = some h → p = .inr t

section
variable {m : Mappings α} {h : MapHandle}

theorem MapAction.map_run (hm : Balanced m.maps m.globalMappedMemory) (hh : m.maps h = none) (addressBase : NvU64)
    (value : α) :
    ∃ maps, (MapAction.map h addressBase value).run m =
        .ok ⟨maps, Function.update m.globalMappedMemory (keyName addressBase) (some h)⟩ ∧
      Balanced maps (Function.update m.globalMappedMemory (keyName addressBase) (some h)) ∧
      SameValues (create m.maps h value) maps := by
  -- The call itself is the only other place.
  have hcall : Balanced (m.create h value).maps ((m.create h value).places fun _ : Unit => some h) := by
    have hcreated := (balanced_elim_none (κ := Unit).2 hm).create (r := .inr ()) rfl hh value
    have hplaces : Function.update (Sum.elim m.globalMappedMemory fun _ : Unit => none) (.inr ()) (some h) =
        (m.create h value).places fun _ => some h := by
      funext p
      rcases p with key | t <;> rfl
    exact hplaces ▸ hcreated
  have hlive : (m.create h value).maps h ≠ none := hcall.live (r := .inr ()) rfl
  obtain ⟨maps, hset, hbalanced, hvalues⟩ := Mappings.setObject_balanced hcall (keyName addressBase) hlive
  rw [← Mappings.places_update_registry maps] at hbalanced
  have hheld : (fun _ : Unit => some h) () = some h := rfl
  obtain ⟨maps', hrelease, hbalanced', hvalues'⟩ := Mappings.release_balanced (s := ⟨maps, _⟩) (t := ()) hbalanced hheld
  refine ⟨maps', ?_, ?_, hvalues.trans hvalues'⟩
  · rw [MapAction.run, hset, ok_bind, hrelease]
    rfl
  · refine balanced_elim_none.1 (?_ : Balanced maps' (Sum.elim _ fun _ : Unit => none))
    rw [← Mappings.places_update_holds] at hbalanced'
    have hholds : Function.update (fun _ : Unit => some h) () none = fun _ => none := by
      funext t
      rfl
    rw [hholds] at hbalanced'
    exact hbalanced'

theorem MapAction.unmap_run (hm : Balanced m.maps m.globalMappedMemory) (addressBase : NvU64) :
    ∃ maps, (MapAction.unmap addressBase).run m =
        .ok ⟨maps, Function.update m.globalMappedMemory (keyName addressBase) none⟩ ∧
      Balanced maps (Function.update m.globalMappedMemory (keyName addressBase) none) ∧ SameValues m.maps maps := by
  obtain ⟨maps, hremove, hbalanced, hvalues⟩ := Mappings.removeObject_balanced
    (balanced_elim_none (κ := Unit).2 hm : Balanced m.maps (m.places fun _ => none)) (keyName addressBase)
  rw [← Mappings.places_update_registry maps] at hbalanced
  exact ⟨maps, by rw [MapAction.run, Mappings.osUnmapKernelSpace_eq, hremove], balanced_elim_none.1 hbalanced, hvalues⟩

end

/-! ### One step -/

theorem Sequential.empty : Sequential (.empty : MapThreads τ α) .empty where
  registry := rfl
  threads := balanced_elim_none.2 .empty
  entries := .empty
  values := nofun
  made := nofun

section
variable {port : Port} {s : MapThreads τ α} {m : Mappings α} {l : MapStep τ α} {t : τ} {phase : MapPhase}

/-- When all threads are outside, nothing is left that calls one after the other would not have. -/
theorem Sequential.eq_of_idle (hs : Sequential s m) (hidle : ∀ t, s.phase t = .idle) : m = s.mappings := by
  have hholds : s.holds = fun _ => none := funext fun t => congrArg MapPhase.holds (hidle t)
  have hthreads : Balanced s.mappings.maps s.mappings.globalMappedMemory := by
    refine balanced_elim_none.1 (?_ : Balanced _ (Sum.elim _ fun _ : τ => none))
    rw [← hholds]
    exact hs.threads
  have hmaps : s.mappings.maps = m.maps := by
    refine hs.values.eq_of_count fun x => ?_
    rw [hthreads.counted, hs.entries.counted, hs.registry]
  obtain ⟨maps, registry⟩ := m
  obtain rfl : registry = _ := hs.registry
  obtain rfl : _ = maps := hmaps
  rfl

variable [DecidableEq τ]

@[simp] theorem MapThreads.phase_enter_self (mappings : Mappings α) : (s.enter t phase mappings).phase t = phase :=
  Function.update_self ..

theorem MapThreads.phase_enter_of_ne {t' : τ} (h : t' ≠ t) (mappings : Mappings α) :
    (s.enter t phase mappings).phase t' = s.phase t' := Function.update_of_ne h ..

theorem MapThreads.places_enter (maps : Heap MapHandle α) (registry : List Char → Option MapHandle) :
    (s.enter t phase ⟨maps, registry⟩).places =
      Function.update (Sum.elim registry s.holds) (.inr t) phase.holds := by
  have hholds : (s.enter t phase ⟨maps, registry⟩).holds = Function.update s.holds t phase.holds :=
    Function.comp_update MapPhase.holds s.phase t phase
  rw [places, hholds]
  exact Sum.update_elim_inr.symm

/-- What a thread holds it holds alone while it is making it, whatever the others do: they come by what
is fresh, or by what they hold. -/
theorem Sequential.made_enter (hs : Sequential s m) {maps : Heap MapHandle α} {registry : List Char → Option MapHandle}
    (hold : ∀ p x, (s.enter t phase ⟨maps, registry⟩).places p = some x →
      s.places p = some x ∨ s.places (.inr t) = some x ∨ s.mappings.maps x = none)
    (hnew : ∀ addressBase h, phase = .made addressBase h →
      ∀ p, (s.enter t phase ⟨maps, registry⟩).places p = some h → p = .inr t) :
    ∀ t' addressBase h, (s.enter t phase ⟨maps, registry⟩).phase t' = .made addressBase h →
      ∀ p, (s.enter t phase ⟨maps, registry⟩).places p = some h → p = .inr t' := by
  intro t' addressBase h ht' p hp
  by_cases htt : t' = t
  · obtain rfl := htt
    exact hnew addressBase h ((Function.update_self ..).symm.trans ht') p hp
  · have ht : s.phase t' = .made addressBase h := (Function.update_of_ne htt _ _).symm.trans ht'
    have hheld : s.places (.inr t') = some h := congrArg MapPhase.holds ht
    rcases hold p h hp with h₁ | h₁ | h₁
    · exact hs.made t' addressBase h ht p h₁
    · have hsame := hs.made t' addressBase h ht (.inr t) h₁
      exact absurd (Sum.inr_injective hsame).symm htt
    · exact absurd h₁ (hs.threads.live hheld)

/-- A thread goes on without a step on the mappings, and without one that it holds. -/
theorem Sequential.enter (hs : Sequential s m) (ht : (s.phase t).holds = none) (hphase : phase.holds = none) :
    Sequential (s.enter t phase s.mappings) m := by
  have hplaces : (s.enter t phase s.mappings).places = s.places := by
    rw [← show (⟨s.mappings.maps, s.mappings.globalMappedMemory⟩ : Mappings α) = s.mappings from rfl,
      MapThreads.places_enter, hphase]
    have hsame : s.places (.inr t) = none := ht
    exact (congrArg _ hsame.symm).trans (Function.update_eq_self ..)
  refine ⟨hs.registry, ?_, hs.entries, hs.values, ?_⟩
  · rw [hplaces]
    exact hs.threads
  · refine hs.made_enter (fun p x hp => .inl (hplaces ▸ hp)) ?_
    rintro addressBase h rfl
    cases hphase

theorem Sequential.create (hs : Sequential s m) {h : MapHandle} (hh : s.mappings.maps h = none)
    (ht : s.phase t = .idle) (addressBase : NvU64) (value : α) :
    Sequential (s.enter t (.made addressBase h) (s.mappings.create h value)) m := by
  have hfree : s.places (.inr t) = none := congrArg MapPhase.holds ht
  have hplaces : (s.enter t (.made addressBase h) (s.mappings.create h value)).places =
      Function.update s.places (.inr t) (some h) := MapThreads.places_enter _ _
  have hgone : m.maps h = none := by
    rcases hm : m.maps h with - | o
    · rfl
    · obtain ⟨o', ho', -⟩ := hs.values h o hm
      rw [hh] at ho'
      cases ho'
  refine ⟨hs.registry, ?_, hs.entries, ?_, hs.made_enter ?_ ?_⟩
  · rw [hplaces]
    exact hs.threads.create hfree hh value
  · intro x o hx
    refine (hs.values x o hx).imp fun o' ho' => ⟨Registry.update_eq_of_apply_ne hh ho'.1 nofun, ho'.2⟩
  · intro p x hp
    change (s.enter t (.made addressBase h) (s.mappings.create h value)).places p = some x at hp
    rw [hplaces] at hp
    rcases Registry.update_apply_eq_iff.1 hp with ⟨-, hx⟩ | ⟨-, hx⟩
    · exact .inr (.inr (Option.some.inj hx ▸ hh))
    · exact .inl hx
  · rintro addressBase' h' ⟨⟩ p hp
    change (s.enter t (.made addressBase h) (s.mappings.create h value)).places p = some h at hp
    rw [hplaces] at hp
    rcases Registry.update_apply_eq_iff.1 hp with ⟨rfl, -⟩ | ⟨-, hx⟩
    · rfl
    · exact absurd hh (hs.threads.live hx)

theorem Sequential.setObject (hs : Sequential s m) {addressBase : NvU64} {h : MapHandle}
    (ht : s.phase t = .made addressBase h) :
    ∃ mappings o m', s.mappings.setObject (keyName addressBase) h = .ok mappings ∧ s.mappings.maps h = some o ∧
      (MapAction.map h addressBase o.value).run m = .ok m' ∧
      Sequential (s.enter t (.entered addressBase h) mappings) m' := by
  have hheld : s.places (.inr t) = some h := congrArg MapPhase.holds ht
  obtain ⟨o, ho⟩ := Option.ne_none_iff_exists'.1 (hs.threads.live hheld)
  -- No entry is one for the mapping yet, so that it is new where calls come one after the other.
  have hnew : m.maps h = none := by
    by_contra hlive
    obtain ⟨key, hkey⟩ := hs.entries.live_iff.1 hlive
    rw [hs.registry] at hkey
    cases hs.made t addressBase h ht (.inl key) hkey
  obtain ⟨maps, hset, hbalanced, hvalues⟩ := Mappings.setObject_balanced hs.threads (keyName addressBase)
    (hs.threads.live hheld)
  obtain ⟨maps', hrun, hbalanced', hvalues'⟩ := MapAction.map_run hs.entries hnew addressBase o.value
  have hplaces : (s.enter t (.entered addressBase h)
      ⟨maps, Function.update s.mappings.globalMappedMemory (keyName addressBase) (some h)⟩).places =
      Function.update s.places (.inl (keyName addressBase)) (some h) := by
    rw [MapThreads.places_enter, ← Sum.update_elim_inl]
    refine (congrArg _ (?_ : some h = Function.update s.places _ (some h) (.inr t))).trans (Function.update_eq_self ..)
    rw [Function.update_of_ne Sum.inr_ne_inl, hheld]
  refine ⟨_, o, _, hset, ho, hrun, congrArg (Function.update · _ _) hs.registry, ?_, hbalanced', ?_, hs.made_enter ?_ nofun⟩
  · rw [hplaces]
    exact hbalanced
  · refine hvalues.of_live ((sameValues_create hs.values ho).trans hvalues') fun x hx => ?_
    obtain ⟨key, hkey⟩ := hbalanced'.live_iff.1 hx
    rw [hs.registry] at hkey
    refine hbalanced.live (r := .inl key) ?_
    rw [← Mappings.places_update_registry maps]
    exact hkey
  · intro p x hp
    rw [hplaces] at hp
    rcases Registry.update_apply_eq_iff.1 hp with ⟨-, hx⟩ | ⟨-, hx⟩
    · exact .inr (.inl (hx ▸ hheld))
    · exact .inl hx

theorem Sequential.release (hs : Sequential s m) {addressBase : NvU64} {h : MapHandle}
    (ht : s.phase t = .entered addressBase h) :
    ∃ mappings, s.mappings.release h = .ok mappings ∧ Sequential (s.enter t .idle mappings) m := by
  have hheld : s.holds t = some h := congrArg MapPhase.holds ht
  obtain ⟨maps, hrelease, hbalanced, hvalues⟩ := Mappings.release_balanced hs.threads hheld
  have hplaces : (s.enter t .idle ⟨maps, s.mappings.globalMappedMemory⟩).places =
      Function.update s.places (.inr t) none := MapThreads.places_enter _ _
  refine ⟨_, hrelease, hs.registry, ?_, hs.entries, ?_, hs.made_enter ?_ nofun⟩
  · rw [hplaces]
    exact hbalanced
  · refine hvalues.of_live hs.values fun x hx => ?_
    obtain ⟨key, hkey⟩ := hs.entries.live_iff.1 hx
    rw [hs.registry] at hkey
    refine hbalanced.live (r := .inl key) ?_
    rw [Function.update_of_ne Sum.inl_ne_inr]
    exact hkey
  · intro p x hp
    rw [hplaces] at hp
    exact .inl (Registry.apply_of_update_eq hp nofun).2

theorem Sequential.removeObject (hs : Sequential s m) {addressBase : NvU64} (ht : s.phase t = .checked addressBase) :
    ∃ mappings m', s.mappings.removeObject (keyName addressBase) = .ok mappings ∧
      (MapAction.unmap addressBase).run m = .ok m' ∧ Sequential (s.enter t .idle mappings) m' := by
  have hfree : s.places (.inr t) = none := congrArg MapPhase.holds ht
  obtain ⟨maps, hremove, hbalanced, hvalues⟩ := Mappings.removeObject_balanced hs.threads (keyName addressBase)
  obtain ⟨maps', hrun, hbalanced', hvalues'⟩ := MapAction.unmap_run hs.entries addressBase
  have hplaces : (s.enter t .idle
      ⟨maps, Function.update s.mappings.globalMappedMemory (keyName addressBase) none⟩).places =
      Function.update s.places (.inl (keyName addressBase)) none := by
    rw [MapThreads.places_enter, ← Sum.update_elim_inl]
    refine (congrArg _ (?_ : none = Function.update s.places _ none (.inr t))).trans (Function.update_eq_self ..)
    rw [Function.update_of_ne Sum.inr_ne_inl, hfree]
  refine ⟨_, _, hremove, hrun, congrArg (Function.update · _ _) hs.registry, ?_, hbalanced', ?_, hs.made_enter ?_ nofun⟩
  · rw [hplaces]
    exact hbalanced
  · refine hvalues.of_live (hs.values.trans hvalues') fun x hx => ?_
    obtain ⟨key, hkey⟩ := hbalanced'.live_iff.1 hx
    rw [hs.registry] at hkey
    refine hbalanced.live (r := .inl key) ?_
    rw [← Mappings.places_update_registry maps]
    exact hkey
  · intro p x hp
    rw [hplaces] at hp
    exact .inl (Registry.apply_of_update_eq hp nofun).2

/-- A step that does not fail is one of no call, or one of the call that takes effect with it. -/
theorem Sequential.step (hs : Sequential s m) (hfresh : MapFresh s l) {r : Except Fault (MapThreads τ α)}
    (hstep : s.step port l = some r) :
    (∃ e, r = .error e ∧ MapFails port s l e) ∨
    ∃ s' m', r = .ok s' ∧ (s.action l).toList.foldlM MapAction.run m = .ok m' ∧ Sequential s' m' := by
  cases l with
  | create t h addressBase value =>
    rw [MapThreads.step] at hstep
    cases ht : s.phase t with
    | idle =>
      rw [ht] at hstep
      exact .inr ⟨_, m, (Option.some.inj hstep).symm, rfl, hs.create hfresh ht addressBase value⟩
    | _ => rw [ht] at hstep; cases hstep
  | noMapping t =>
    rw [MapThreads.step] at hstep
    cases ht : s.phase t with
    | idle =>
      rw [ht] at hstep
      cases port with
      | driverKit => exact .inr ⟨s, m, (Option.some.inj hstep).symm, rfl, hs⟩
      | kernel => exact .inl ⟨.nullDereference, (Option.some.inj hstep).symm, .noMapping t rfl⟩
    | _ => rw [ht] at hstep; cases hstep
  | setObject t =>
    rw [MapThreads.step] at hstep
    cases ht : s.phase t with
    | made addressBase h =>
      obtain ⟨mappings, o, m', hset, ho, hrun, hs'⟩ := hs.setObject ht
      rw [ht] at hstep
      simp only [hset] at hstep
      refine .inr ⟨_, m', (Option.some.inj hstep).symm, ?_, hs'⟩
      simp only [MapThreads.action, ht, ho, Option.map_some, Option.toList_some, List.foldlM_cons, hrun]
      rfl
    | _ => rw [ht] at hstep; cases hstep
  | release t =>
    rw [MapThreads.step] at hstep
    cases ht : s.phase t with
    | entered addressBase h =>
      obtain ⟨mappings, hrelease, hs'⟩ := hs.release ht
      rw [ht] at hstep
      simp only [hrelease] at hstep
      exact .inr ⟨_, m, (Option.some.inj hstep).symm, rfl, hs'⟩
    | _ => rw [ht] at hstep; cases hstep
  | osUnmapKernelSpace t addressBase =>
    rw [MapThreads.step] at hstep
    cases ht : s.phase t with
    | idle =>
      rw [ht] at hstep
      exact .inr ⟨_, m, (Option.some.inj hstep).symm, rfl, hs.enter (congrArg MapPhase.holds ht) rfl⟩
    | _ => rw [ht] at hstep; cases hstep
  | getObject t =>
    rw [MapThreads.step] at hstep
    cases ht : s.phase t with
    | unmapping addressBase =>
      have hholds : (s.phase t).holds = none := congrArg MapPhase.holds ht
      rw [ht] at hstep
      rcases hkey : s.mappings.globalMappedMemory (keyName addressBase) with - | h
      · simp only [hkey] at hstep
        refine .inr ⟨_, m, (Option.some.inj hstep).symm, ?_, hs.enter hholds rfl⟩
        have habsent : m.globalMappedMemory (keyName addressBase) = none := by rw [hs.registry, hkey]
        simp only [MapThreads.action, ht, hkey, Option.toList_some, List.foldlM_cons, MapAction.run,
          Mappings.osUnmapKernelSpace_of_absent habsent]
        rfl
      · simp only [hkey] at hstep
        refine .inr ⟨_, m, (Option.some.inj hstep).symm, ?_, hs.enter hholds rfl⟩
        simp only [MapThreads.action, ht, hkey]
        rfl
    | _ => rw [ht] at hstep; cases hstep
  | requiredCast t =>
    rw [MapThreads.step] at hstep
    cases ht : s.phase t with
    | found addressBase h =>
      rw [ht] at hstep
      rcases hh : s.mappings.maps h with - | o
      · simp only [hh] at hstep
        exact .inl ⟨.overRelease, (Option.some.inj hstep).symm, .gone ht hh⟩
      · simp only [hh] at hstep
        exact .inr ⟨_, m, (Option.some.inj hstep).symm, rfl, hs.enter (congrArg MapPhase.holds ht) rfl⟩
    | _ => rw [ht] at hstep; cases hstep
  | removeObject t =>
    rw [MapThreads.step] at hstep
    cases ht : s.phase t with
    | checked addressBase =>
      obtain ⟨mappings, m', hremove, hrun, hs'⟩ := hs.removeObject ht
      rw [ht] at hstep
      simp only [hremove] at hstep
      refine .inr ⟨_, m', (Option.some.inj hstep).symm, ?_, hs'⟩
      simp only [MapThreads.action, ht, Option.toList_some, List.foldlM_cons, hrun]
      rfl
    | _ => rw [ht] at hstep; cases hstep

theorem Sequential.keepsCounts (hs : Sequential s m) (hfresh : MapFresh s l) :
    KeepsCounts port s l (s.step port l) := by
  rcases hstep : s.step port l with - | r
  · trivial
  rcases hs.step hfresh hstep with ⟨e, rfl, hfails⟩ | ⟨s', m', rfl, -, hs'⟩
  · exact hfails
  · exact hs'.threads

theorem Sequential.run {steps : List (MapStep τ α)} {s' : MapThreads τ α} (hs : Sequential s m)
    (hfresh : (mapThreadMachine port τ α).Along (fun s l _ => MapFresh s l) s steps)
    (hafter : (mapThreadMachine port τ α).after s steps = some s') :
    ∃ m', (s.actions port steps).foldlM MapAction.run m = .ok m' ∧ Sequential s' m' := by
  induction steps generalizing s m with
  | nil =>
    obtain rfl := Option.some.inj hafter
    exact ⟨m, rfl, hs⟩
  | cons l ls ih =>
    obtain ⟨s₁, hnext, hrest⟩ := Option.bind_eq_some_iff.1 hafter
    obtain ⟨r, hstep, hr⟩ := Option.bind_eq_some_iff.1 hnext
    obtain rfl := eq_ok_of_toOption hr
    rcases hs.step hfresh.1 hstep with ⟨e, hfail, -⟩ | ⟨s₂, m₁, heq, hrun, hs₁⟩
    · cases hfail
    obtain rfl := Except.ok.inj heq
    obtain ⟨m', hrun', hs'⟩ := ih hs₁ (hfresh.2 _ hnext) hrest
    change s.step port l = _ at hstep
    refine ⟨m', ?_, hs'⟩
    rw [MapThreads.actions, hstep, List.foldlM_append, hrun, ok_bind, hrun']

end

/-! ### The calls of the ports -/

/-- A call of the DriverKit port fails and changes nothing, or is a map with the system's answers. -/
theorem DriverKit.osMapKernelSpace_action (regions : Nat) (bars : NvBars) {s : DriverKit.MapState}
    (start sizeBytes : NvU64) (mode : NvMemoryType) {a : DriverKit.MapAnswers} (hfresh : a.Fresh s) :
    (∃ result, DriverKit.osMapKernelSpace regions bars s start sizeBytes mode a = .ok (result, s)) ∨
    ∃ i h address, a.mapping = some (h, address) ∧
      DriverKit.osMapKernelSpace regions bars s start sizeBytes mode a =
        (MapAction.map h address (DriverKit.madeMap i sizeBytes mode address)).run s.mappings >>=
          fun mappings => pure (.mapped address, { s with mappings := mappings }) := by
  rcases DriverKit.osMapKernelSpace_cases regions bars start sizeBytes mode hfresh with
    ⟨result, heq, -⟩ | ⟨i, h, address, -, hmapping, -, heq⟩
  · exact .inl ⟨result, heq⟩
  · exact .inr ⟨i, h, address, hmapping, heq⟩

/-- A call of the kernel port that does not use `NULL` returns it, or is a map. -/
theorem Kernel.osMapKernelSpace_action (lookup : Nat → Option NvU64) (bars : NvBars) (m : Mappings Kernel.IOMemoryMap)
    (start size : NvU64) (mode : NvMemoryType) (h : MapHandle)
    (hsafe : Kernel.osMapKernelSpace lookup bars m start size mode h ≠ .error .nullDereference) :
    Kernel.osMapKernelSpace lookup bars m start size mode h = .ok (none, m) ∨
    ∃ addressBase options, Kernel.osMapKernelSpace lookup bars m start size mode h =
      (MapAction.map h addressBase ⟨addressBase, options⟩).run m >>= fun m => pure (some addressBase, m) := by
  rcases hfind : bars.find start with - | i
  · exact .inl (Kernel.osMapKernelSpace_unknown (.inl hfind))
  rcases hmode : Kernel.memoryMode mode with - | options
  · exact .inl (Kernel.osMapKernelSpace_unknown (.inr hmode))
  rcases hlookup : lookup i with - | addressBase
  · exact absurd (Kernel.osMapKernelSpace_null hfind hmode hlookup) hsafe
  · exact .inr ⟨addressBase, options, Kernel.osMapKernelSpace_found hfind hmode hlookup⟩

/-! ### Runs -/

/-- In every interleaving, whatever is mapped and unmapped, retains are counted right. -/
theorem mapThreads_keepsCounts (port : Port) (τ α : Type) [DecidableEq τ] (steps : List (MapStep τ α))
    (hfresh : (mapThreadMachine port τ α).Along (fun s l _ => MapFresh s l) .empty steps) :
    (mapThreadMachine port τ α).Along (KeepsCounts port) .empty steps := by
  refine Machine.along_of_legal (I := fun s => ∃ m, Sequential s m) (fun s l ⟨m, hs⟩ => hs.keepsCounts) ?_
    ⟨_, .empty⟩ hfresh
  rintro s l ⟨m, hs⟩ hl s' hs'
  obtain ⟨r, hstep, hr⟩ := Option.bind_eq_some_iff.1 hs'
  obtain rfl := eq_ok_of_toOption hr
  rcases hs.step hl hstep with ⟨e, hfail, -⟩ | ⟨s'', m', heq, -, hs''⟩
  · cases hfail
  · exact ⟨m', Except.ok.inj heq ▸ hs''⟩

/-- One thread maps, and the other unmaps before the first has come back. -/
def unmappedEarly : List (MapStep Bool Unit) :=
  [.create false 0 0x1000 (), .setObject false, .osUnmapKernelSpace true 0x1000, .getObject true, .requiredCast true,
    .removeObject true, .release false]

theorem along_mapFresh_unmappedEarly :
    (mapThreadMachine .kernel Bool Unit).Along (fun s l _ => MapFresh s l) .empty unmappedEarly :=
  ⟨rfl, fun _ _ => ⟨trivial, fun _ _ => ⟨trivial, fun _ _ => ⟨trivial, fun _ _ => ⟨trivial, fun _ _ =>
    ⟨trivial, fun _ _ => ⟨trivial, fun _ _ => trivial⟩⟩⟩⟩⟩⟩⟩

theorem mapThreads_keepsCounts_unmappedEarly :
    (mapThreadMachine .kernel Bool Unit).Along (KeepsCounts .kernel) .empty unmappedEarly :=
  mapThreads_keepsCounts .kernel Bool Unit unmappedEarly along_mapFresh_unmappedEarly

/-- Every interleaving in which nothing fails leaves the registry that its calls leave one after the
other, in the order of their steps on the dictionary. When all threads are outside, it leaves the same
mappings too. -/
theorem mapThreads_linearizable (port : Port) (τ α : Type) [DecidableEq τ] (steps : List (MapStep τ α))
    (s : MapThreads τ α) (hfresh : (mapThreadMachine port τ α).Along (fun s l _ => MapFresh s l) .empty steps)
    (hafter : (mapThreadMachine port τ α).after .empty steps = some s) :
    ∃ m, (MapThreads.empty.actions port steps).foldlM MapAction.run .empty = .ok m ∧
      m.globalMappedMemory = s.mappings.globalMappedMemory ∧ ((∀ t, s.phase t = .idle) → m = s.mappings) := by
  obtain ⟨m, hrun, hs⟩ := Sequential.run .empty hfresh hafter
  exact ⟨m, hrun, hs.registry, hs.eq_of_idle⟩

/-- It is the run of a map and an unmap. -/
theorem mapThreads_linearizable_unmappedEarly :
    MapThreads.empty.actions .kernel unmappedEarly = [.map 0 0x1000 (), .unmap 0x1000] ∧
    ∃ m, [MapAction.map 0 0x1000 (), .unmap 0x1000].foldlM MapAction.run .empty = .ok m ∧ m.maps 0 = none := by
  refine ⟨rfl, ?_⟩
  obtain ⟨m, hrun, -, hmappings⟩ :=
    mapThreads_linearizable .kernel Bool Unit unmappedEarly _ along_mapFresh_unmappedEarly rfl
  refine ⟨m, hrun, ?_⟩
  rw [hmappings (by rintro (- | -) <;> rfl)]
  rfl

end NVMac
