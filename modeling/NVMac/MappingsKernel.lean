import NVMac.BarsKernel
import NVMac.Mappings
import NVMac.Lib.Machine

/-!
# Mappings in the kernel port (`memory_kernel.cpp`)

`os_map_kernel_space` asks for the mapping of a register under the number of a slot, where a
configuration offset is asked for, and uses the answer unseen. With the right mapping in its place,
the registry still has room for one mapping at an address only: `mapRun_balanced_iff`.
-/

namespace NVMac.Kernel
open Refs Registry Outcome

def kIOMapAnywhere : NvU32 := 1

def kIOMapDefaultCache : NvU32 := 0

def kIOMapInhibitCache : NvU32 := 0x100

def kIOMapWriteCombineCache : NvU32 := 0x400

def memoryMode : NvMemoryType → Option NvU32
  | .cached => some (kIOMapDefaultCache ||| kIOMapAnywhere)
  | .writecombined => some (kIOMapWriteCombineCache ||| kIOMapAnywhere)
  | .uncached | .default => some (kIOMapInhibitCache ||| kIOMapAnywhere)
  | _ => none

structure IOMemoryMap where
  physicalAddress : NvU64
  options : NvU32

/-- `mapDeviceMemoryWithRegister` answers the physical address of the range it maps, and the mapping
that it makes is `h`. The result is `none` where `NULL` is returned. -/
def osMapKernelSpace (mapDeviceMemoryWithRegister : Nat → Option NvU64) (bars : NvBars)
    (s : Mappings IOMemoryMap) (start _size : NvU64) (mode : NvMemoryType) (h : MapHandle) :
    Except Fault (Option NvU64 × Mappings IOMemoryMap) :=
  match bars.find start with
  | none => .ok (none, s)
  | some memoryIndex =>
    match memoryMode mode with
    | none => .ok (none, s)
    | some memoryMode =>
      match mapDeviceMemoryWithRegister memoryIndex with
      | none => .error .nullDereference
      | some addressBase => do
        let s ← (s.create h ⟨addressBase, memoryMode⟩).setObject (keyName addressBase) h >>=
          fun s => s.release h
        pure (some addressBase, s)

section
variable {lookup : Nat → Option NvU64} {bars : NvBars} {s : Mappings IOMemoryMap} {start size addressBase : NvU64}
  {mode : NvMemoryType} {h : MapHandle} {i : Fin nvGpuNumBars} {options : NvU32}

theorem osMapKernelSpace_unknown (hfail : bars.find start = none ∨ memoryMode mode = none) :
    osMapKernelSpace lookup bars s start size mode h = .ok (none, s) := by
  unfold osMapKernelSpace
  rcases hfail with hfind | hmode
  · rw [hfind]
  · rw [hmode]
    cases bars.find start <;> rfl

theorem osMapKernelSpace_null (hfind : bars.find start = some i) (hmode : memoryMode mode = some options)
    (hlookup : lookup i = none) : osMapKernelSpace lookup bars s start size mode h = .error .nullDereference := by
  unfold osMapKernelSpace
  simp only [hfind, hmode, hlookup]

theorem osMapKernelSpace_found (hfind : bars.find start = some i) (hmode : memoryMode mode = some options)
    (hlookup : lookup i = some addressBase) : osMapKernelSpace lookup bars s start size mode h = (do
      let s ← (s.create h ⟨addressBase, options⟩).setObject (keyName addressBase) h >>= fun s => s.release h
      pure (some addressBase, s)) := by
  unfold osMapKernelSpace
  simp only [hfind, hmode, hlookup]

end

/-! ### The range -/

/-- `mapDeviceMemoryWithRegister`, which knows a range by the configuration offset of its register. -/
def rangeWithRegister (memory : List DeviceMemory) (register : Nat) : Option NvU64 :=
  (memory.find? (·.register = BitVec.ofNat 32 register)).map (·.physicalAddress)

/-- No `NULL` is dereferenced, and a slot's address is mapped to the range that it is the address of. -/
structure SelectsOwnRange (memory : List DeviceMemory) (bars : NvBars) : Prop where
  safe : ∀ s start size mode h,
    osMapKernelSpace (rangeWithRegister memory) bars s start size mode h ≠ .error .nullDereference
  own : ∀ (s : Mappings IOMemoryMap) (j : Fin nvGpuNumBars) mode h, s.EntriesLive → s.maps h = none →
    memoryMode mode ≠ none → ∃ s', osMapKernelSpace (rangeWithRegister memory) bars s
      (bars j).cpuAddress (bars j).size mode h = .ok (some (bars j).cpuAddress, s')

/-- The registers of a device's ranges are base address registers. -/
def OnBaseRegisters (memory : List DeviceMemory) : Prop :=
  ∀ m ∈ memory, ∃ r < nvrmPcicfgNumBars, m.register = nvrmPcicfgBarOffset r

theorem rangeWithRegister_slot {memory : List DeviceMemory} (hmemory : OnBaseRegisters memory)
    (i : Fin nvGpuNumBars) : rangeWithRegister memory i = none := by
  unfold rangeWithRegister
  rw [Option.map_eq_none_iff, List.find?_eq_none]
  intro m hm
  obtain ⟨r, hr, hregister⟩ := hmemory m hm
  have hi := i.2
  rw [hregister, decide_eq_true_iff, ← BitVec.toNat_inj, nvrmPcicfgBarOffset, BitVec.toNat_ofNat, BitVec.toNat_ofNat]
  unfold nvrmPcicfgNumBars at hr
  unfold nvGpuNumBars at hi
  omega

/-- Whatever `start` fills the table with, every request for a slot's address in a known mode uses a
mapping that is `NULL`. -/
theorem osMapKernelSpace_never_own (memory : List DeviceMemory) (bars : NvBars) (hmemory : OnBaseRegisters memory) :
    ¬ SelectsOwnRange memory bars ∧
    ∀ s (j : Fin nvGpuNumBars) size mode h, memoryMode mode ≠ none →
      osMapKernelSpace (rangeWithRegister memory) bars s (bars j).cpuAddress size mode h =
        .error .nullDereference := by
  have hnull : ∀ s (j : Fin nvGpuNumBars) size mode h, memoryMode mode ≠ none →
      osMapKernelSpace (rangeWithRegister memory) bars s (bars j).cpuAddress size mode h =
        .error .nullDereference := by
    intro s j size mode h hmode
    obtain ⟨i, hfind⟩ := bars.exists_find j
    obtain ⟨options, hoptions⟩ := Option.ne_none_iff_exists'.1 hmode
    exact osMapKernelSpace_null hfind hoptions (rangeWithRegister_slot hmemory i)
  exact ⟨fun h => h.safe _ _ _ _ _ (hnull .empty ⟨0, by decide⟩ 0 .cached 0 nofun), hnull⟩

/-- Three 32-bit BARs. -/
def narrowBars : List DeviceMemory :=
  [⟨0x10, 0x80000000, 0x2000⟩, ⟨0x14, 0x80010000, 0x1000⟩, ⟨0x18, 0x80020000, 0x1000⟩]

theorem osMapKernelSpace_never_own_narrowBars :
    ∃ bars, startBars narrowBars .passing = .ok (some bars) ∧ ¬ SelectsOwnRange narrowBars bars := by
  refine ⟨_, rfl, (osMapKernelSpace_never_own narrowBars _ fun m hm => ?_).1⟩
  simp only [narrowBars, List.mem_cons, List.not_mem_nil, or_false] at hm
  rcases hm with rfl | rfl | rfl
  · exact ⟨0, by decide, rfl⟩
  · exact ⟨1, by decide, rfl⟩
  · exact ⟨2, by decide, rfl⟩

/-- `start` fills the table as it should, and mapping the first BAR uses `NULL`. -/
theorem osMapKernelSpace_narrowBars_null :
    ∃ bars, startBars narrowBars .passing = .ok (some bars) ∧
      bars ⟨0, by decide⟩ = ⟨0x10, 0x80000000, 0x2000⟩ ∧
      osMapKernelSpace (rangeWithRegister narrowBars) bars .empty 0x80000000 0x2000 .uncached 0 =
        .error .nullDereference ∧
      ¬ SelectsOwnRange narrowBars bars :=
  ⟨_, rfl, rfl, rfl, fun h => h.safe .empty 0x80000000 0x2000 .uncached 0 rfl⟩

/-! ### The life of a mapping -/

/-- `held` is the mappings that were returned at an address since there was none, and `unmapped` how
many unmaps of it have followed; `made` is the next mapping that the system makes. -/
structure MapRun where
  mappings : Mappings IOMemoryMap
  held : NvU64 → List MapHandle
  unmapped : NvU64 → Nat
  made : MapHandle

namespace MapRun

def empty : MapRun := ⟨.empty, fun _ => [], fun _ => 0, 0⟩

def returned (r : MapRun) (addressBase : NvU64) : MapRun :=
  { r with held := Function.update r.held addressBase (r.held addressBase ++ [r.made]), made := r.made + 1 }

/-- The last unmap closes the account of the address. There is nothing to count where it has none. -/
def gaveBack (r : MapRun) (addressBase : NvU64) : MapRun :=
  if r.held addressBase = [] then r
  else if r.unmapped addressBase + 1 < (r.held addressBase).length then
    { r with unmapped := Function.update r.unmapped addressBase (r.unmapped addressBase + 1) }
  else { r with held := Function.update r.held addressBase [], unmapped := Function.update r.unmapped addressBase 0 }

/-- The mapping at an address that has one. -/
def outstanding (r : MapRun) (address : NvU64) : Option MapHandle := (r.held address).head?

variable {r : MapRun} {address : NvU64} (m : Mappings IOMemoryMap)

theorem outstanding_of_nil (h : r.held address = []) : r.outstanding address = none := by
  rw [outstanding, h, List.head?_nil]

theorem outstanding_of_single {h : MapHandle} (hh : r.held address = [h]) : r.outstanding address = some h := by
  rw [outstanding, hh, List.head?_cons]

theorem outstanding_returned (h : r.held address = []) :
    (returned { r with mappings := m } address).outstanding = Function.update r.outstanding address (some r.made) := by
  funext q
  show (Function.update r.held address _ q).head? = _
  by_cases hq : q = address
  · rw [hq, Function.update_self, Function.update_self, h]
    rfl
  · rw [Function.update_of_ne hq, Function.update_of_ne hq]
    rfl

theorem gaveBack_of_single {h : MapHandle} (hh : r.held address = [h]) (hunmapped : r.unmapped address = 0) :
    gaveBack { r with mappings := m } address =
      { r with mappings := m, held := Function.update r.held address [] } := by
  have hsame : Function.update r.unmapped address 0 = r.unmapped := by
    rw [← hunmapped, Function.update_eq_self]
  show (if r.held address = [] then _ else if r.unmapped address + 1 < (r.held address).length then _ else _) = _
  rw [hh, hunmapped, hsame]
  rfl

theorem mappings_gaveBack : (r.gaveBack address).mappings = r.mappings := by
  unfold gaveBack
  split
  · rfl
  split <;> rfl

theorem held_gaveBack {q : NvU64} (hq : q ≠ address) : (r.gaveBack address).held q = r.held q := by
  unfold gaveBack
  split
  · rfl
  split
  · rfl
  · exact Function.update_of_ne hq _ _

theorem outstanding_cleared :
    outstanding { r with mappings := m, held := Function.update r.held address [] } =
      Function.update r.outstanding address none := by
  funext q
  show (Function.update r.held address [] q).head? = _
  by_cases hq : q = address
  · rw [hq, Function.update_self, Function.update_self]
    rfl
  · rw [Function.update_of_ne hq, Function.update_of_ne hq]
    rfl

end MapRun

inductive MapCall
  | map (start size : NvU64) (mode : NvMemoryType)
  | unmap (addressBase sizeBytes : NvU64)

/-- The physical address of the BAR of a slot. -/
def selectedBar (bars : NvBars) (memoryIndex : Nat) : Option NvU64 :=
  if h : memoryIndex < nvGpuNumBars then some (bars ⟨memoryIndex, h⟩).cpuAddress else none

def mapCall (bars : NvBars) (r : MapRun) : MapCall → Except Fault MapRun
  | .map start size mode => do
    let (addressBase?, mappings) ← osMapKernelSpace (selectedBar bars) bars r.mappings start size mode r.made
    match addressBase? with
    | none => pure { r with mappings := mappings }
    | some addressBase => pure ({ r with mappings := mappings }.returned addressBase)
  | .unmap addressBase _ => do
    let mappings ← r.mappings.osUnmapKernelSpace addressBase
    pure ({ r with mappings := mappings }.gaveBack addressBase)

def mapMachine (bars : NvBars) : Machine MapRun MapCall (Except Fault MapRun) where
  call := mapCall bars
  next := Except.toOption

/-- The mappings of an address are there until as many unmaps of it have followed, and then gone. -/
structure MapsBalanced (r : MapRun) : Prop where
  held : ∀ address, ∀ h ∈ r.held address, r.mappings.maps h ≠ none
  gone : ∀ h, (∀ address, h ∉ r.held address) → r.mappings.maps h = none

def StaysMapsBalanced (_ : MapRun) (_ : MapCall) : Except Fault MapRun → Prop
  | .error _ => False
  | .ok r => MapsBalanced r

/-- A map finds nothing held under its key, and an unmap nothing of another address. -/
def KeyFree (bars : NvBars) (r : MapRun) : MapCall → Prop
  | .map start _ mode => bars.find start ≠ none → memoryMode mode ≠ none →
      ∀ address, keyName address = keyName start → r.held address = []
  | .unmap addressBase _ => ∀ address, address ≠ addressBase → keyName address = keyName addressBase →
      r.held address = []

/-- At most one mapping is held at an address, and the registry is that of the mappings held. -/
structure OneEach (r : MapRun) : Prop where
  mappings : r.mappings.Exact r.outstanding
  one : ∀ address, (r.held address).length ≤ 1
  unmapped : ∀ address, r.unmapped address = 0
  made : ∀ h, r.made ≤ h → r.mappings.maps h = none

section
variable {bars : NvBars} {r : MapRun} {l : MapCall} {address start size : NvU64} {h : MapHandle} {mode : NvMemoryType}

theorem OneEach.empty : OneEach .empty where
  mappings := .empty
  one := fun _ => Nat.zero_le _
  unmapped := fun _ => rfl
  made := fun _ _ => rfl

/-- What is held at an address, with the registry's retain on it. -/
theorem OneEach.held_of_mem (hr : OneEach r) (hheld : h ∈ r.held address) :
    r.held address = [h] ∧ h ≠ r.made ∧ ∃ map, r.mappings.maps h = some ⟨map, 0⟩ := by
  have hone := hr.one address
  rcases heq : r.held address with - | ⟨h', rest⟩
  · rw [heq] at hheld
    cases hheld
  rw [heq, List.length_cons] at hone
  obtain rfl : rest = [] := List.length_eq_zero_iff.1 (by omega)
  rw [heq] at hheld
  obtain rfl := List.mem_singleton.1 hheld
  obtain ⟨map, hmap⟩ := hr.mappings.counted address h (MapRun.outstanding_of_single heq)
  refine ⟨rfl, ?_, map, hmap⟩
  rintro rfl
  rw [hr.made _ (Nat.le_refl _)] at hmap
  cases hmap

theorem OneEach.balanced (hr : OneEach r) : MapsBalanced r where
  held := by
    intro address h hheld
    obtain ⟨-, -, map, hmap⟩ := hr.held_of_mem hheld
    rw [hmap]
    nofun
  gone := fun h hh => hr.mappings.gone h fun address hout => hh address (List.mem_of_head? hout)

theorem OneEach.entry (hr : OneEach r) (hheld : r.held address = [h]) (hkey : keyName address = keyName start) :
    r.mappings.globalMappedMemory (keyName start) = some h := by
  rw [← hkey]
  exact hr.mappings.entries.stored address h (MapRun.outstanding_of_single hheld)

theorem OneEach.no_entry (hr : OneEach r) (halone : Alone keyName r.outstanding address)
    (hheld : r.held address = []) : r.mappings.globalMappedMemory (keyName address) = none := by
  rw [hr.mappings.lookup halone, MapRun.outstanding_of_nil hheld]

theorem alone_of_held (hfree : ∀ q, q ≠ address → keyName q = keyName address → r.held q = []) :
    Alone keyName r.outstanding address := by
  intro q h hq hkey
  by_contra hne
  rw [MapRun.outstanding_of_nil (hfree q hne hkey)] at hq
  cases hq

theorem OneEach.insert (hr : OneEach r) (hfree : ∀ address, keyName address = keyName start → r.held address = [])
    (map : IOMemoryMap) :
    OneEach (MapRun.returned { r with mappings := ⟨create r.mappings.maps r.made map,
      Function.update r.mappings.globalMappedMemory (keyName start) (some r.made)⟩ } start) where
  mappings := by
    have hnil := hfree start rfl
    have halone : Alone keyName r.outstanding start := alone_of_held fun q _ => hfree q
    rw [MapRun.outstanding_returned _ hnil]
    exact hr.mappings.insert halone (MapRun.outstanding_of_nil hnil) (hr.made _ (Nat.le_refl _)) map
  one := by
    intro address
    show (Function.update r.held start _ address).length ≤ 1
    by_cases haddress : address = start
    · rw [haddress, Function.update_self, hfree start rfl]
      exact Nat.le_refl 1
    · rw [Function.update_of_ne haddress]
      exact hr.one address
  unmapped := hr.unmapped
  made := by
    intro h hh
    have hne : h ≠ r.made := by
      rintro rfl
      exact Nat.not_succ_le_self _ hh
    exact (Function.update_of_ne hne _ _).trans (hr.made h (Nat.le_of_succ_le hh))

theorem OneEach.erase (hr : OneEach r) (hheld : r.held address = [h])
    (hfree : ∀ q, q ≠ address → keyName q = keyName address → r.held q = []) :
    OneEach (MapRun.gaveBack { r with mappings := ⟨Function.update r.mappings.maps h none,
      Function.update r.mappings.globalMappedMemory (keyName address) none⟩ } address) := by
  rw [MapRun.gaveBack_of_single _ hheld (hr.unmapped address)]
  constructor
  · rw [MapRun.outstanding_cleared]
    exact hr.mappings.erase (alone_of_held hfree) (MapRun.outstanding_of_single hheld)
  · intro q
    show (Function.update r.held address [] q).length ≤ 1
    by_cases hq : q = address
    · rw [hq, Function.update_self]
      exact Nat.zero_le 1
    · rw [Function.update_of_ne hq]
      exact hr.one q
  · exact hr.unmapped
  · intro h' hh'
    show Function.update r.mappings.maps h none h' = none
    by_cases hne : h' = h
    · rw [hne, Function.update_self]
    · rw [Function.update_of_ne hne]
      exact hr.made h' hh'

theorem mapCall_map_unknown (hfail : bars.find start = none ∨ memoryMode mode = none) :
    mapCall bars r (.map start size mode) = .ok r := by
  rw [mapCall, osMapKernelSpace_unknown hfail]
  rfl

/-- A successful map returns the address that was asked for. -/
theorem mapCall_map_found (r : MapRun) (size : NvU64) (hfind : bars.find start ≠ none) (hmode : memoryMode mode ≠ none) :
    ∃ map, mapCall bars r (.map start size mode) =
      ((r.mappings.create r.made map).setObject (keyName start) r.made >>= fun s => s.release r.made) >>=
        fun mappings => .ok ({ r with mappings := mappings }.returned start) := by
  obtain ⟨i, hi⟩ := Option.ne_none_iff_exists'.1 hfind
  obtain ⟨options, hoptions⟩ := Option.ne_none_iff_exists'.1 hmode
  have hlookup : selectedBar bars i = some start := by
    rw [selectedBar, dif_pos i.2, ← (NvBars.find_eq_some_iff.1 hi).1]
  refine ⟨⟨start, options⟩, ?_⟩
  rw [mapCall, osMapKernelSpace_found hi hoptions hlookup]
  cases (r.mappings.create r.made ⟨start, options⟩).setObject (keyName start) r.made >>= fun s => s.release r.made <;> rfl

theorem mapCall_of_keyFree (hr : OneEach r) (hfree : KeyFree bars r l) :
    ∃ r', mapCall bars r l = .ok r' ∧ OneEach r' := by
  cases l with
  | map start size mode =>
    by_cases hfail : bars.find start = none ∨ memoryMode mode = none
    · exact ⟨r, mapCall_map_unknown hfail, hr⟩
    obtain ⟨hfind, hmode⟩ := not_or.1 hfail
    have hheld := hfree hfind hmode
    obtain ⟨map, heq⟩ := mapCall_map_found r size hfind hmode
    have hkey := hr.no_entry (alone_of_held fun q _ => hheld q) (hheld start rfl)
    rw [heq, Mappings.setObject_release hkey]
    exact ⟨_, rfl, hr.insert hheld map⟩
  | unmap addressBase sizeBytes =>
    rw [mapCall]
    rcases hheld : r.held addressBase with - | ⟨h, rest⟩
    · rw [Mappings.osUnmapKernelSpace_of_absent (hr.no_entry (alone_of_held hfree) hheld)]
      refine ⟨r, ?_, hr⟩
      show Except.ok (r.gaveBack addressBase) = .ok r
      rw [MapRun.gaveBack, if_pos hheld]
    · obtain ⟨heq, -, map, hmap⟩ := hr.held_of_mem (h := h) (by rw [hheld]; exact List.mem_cons_self)
      rw [Mappings.osUnmapKernelSpace_of_present (hr.entry heq rfl) hmap]
      exact ⟨_, rfl, hr.erase heq hfree⟩

/-- Otherwise a mapping goes that is still held. -/
theorem mapCall_of_not_keyFree (hr : OneEach r) (hfree : ¬ KeyFree bars r l) :
    ¬ StaysMapsBalanced r l (mapCall bars r l) := by
  cases l with
  | map start size mode =>
    simp only [KeyFree, not_forall] at hfree
    obtain ⟨hfind, hmode, address, hkey, hheld⟩ := hfree
    obtain ⟨h, hmem⟩ := List.exists_mem_of_ne_nil _ hheld
    obtain ⟨heq, hne, map, hmap⟩ := hr.held_of_mem hmem
    obtain ⟨map', hcall⟩ := mapCall_map_found r size hfind hmode
    rw [hcall, Mappings.setObject_release_of_taken hne.symm (hr.entry heq hkey) hmap]
    intro hbalanced
    refine hbalanced.held address h ?_ (Function.update_self ..)
    show h ∈ Function.update r.held start _ address
    by_cases haddress : address = start
    · rw [haddress, Function.update_self, ← haddress]
      exact List.mem_append_left _ hmem
    · rw [Function.update_of_ne haddress]
      exact hmem
  | unmap addressBase sizeBytes =>
    simp only [KeyFree, not_forall] at hfree
    obtain ⟨address, hne, hkey, hheld⟩ := hfree
    obtain ⟨h, hmem⟩ := List.exists_mem_of_ne_nil _ hheld
    obtain ⟨heq, -, map, hmap⟩ := hr.held_of_mem hmem
    rw [mapCall, Mappings.osUnmapKernelSpace_of_present (hr.entry heq hkey) hmap]
    intro hbalanced
    refine hbalanced.held address h ?_ ?_
    · rw [MapRun.held_gaveBack hne]
      exact hmem
    · rw [MapRun.mappings_gaveBack]
      exact Function.update_self ..

end

/-- Mappings live as they should exactly as long as no call finds another one held under its key. -/
theorem mapRun_balanced_iff (bars : NvBars) (calls : List MapCall) :
    (mapMachine bars).Along StaysMapsBalanced .empty calls ↔
      (mapMachine bars).Along (fun r l _ => KeyFree bars r l) .empty calls := by
  refine Machine.along_iff (I := OneEach) ?_ ?_ .empty
  · intro r l hr
    refine ⟨fun h => by_contra fun hfree => mapCall_of_not_keyFree hr hfree h, fun hfree => ?_⟩
    obtain ⟨r', hcall, hr'⟩ := mapCall_of_keyFree hr hfree
    show StaysMapsBalanced r l (mapCall bars r l)
    rw [hcall]
    exact hr'.balanced
  · intro r l hr hfree r' hr'
    obtain ⟨r'', hcall, hone⟩ := mapCall_of_keyFree hr hfree
    change (mapCall bars r l).toOption = _ at hr'
    rw [hcall] at hr'
    exact Option.some.inj hr' ▸ hone

/-- Mapping a BAR again releases its first mapping, and one unmap releases the second. -/
theorem mapRun_mapped_twice :
    (∃ r, (mapMachine .oneBar).after .empty
        [.map 0x80000000 0x1000 .uncached, .map 0x80000000 0x1000 .uncached] = some r ∧
      r.held 0x80000000 = [0, 1] ∧ r.unmapped 0x80000000 = 0 ∧ count r.mappings.maps 0 = 0) ∧
    (∃ r, (mapMachine .oneBar).after .empty [.map 0x80000000 0x1000 .uncached,
        .map 0x80000000 0x1000 .uncached, .unmap 0x80000000 0x1000] = some r ∧
      r.held 0x80000000 = [0, 1] ∧ r.unmapped 0x80000000 = 1 ∧ count r.mappings.maps 1 = 0) ∧
    ¬ (mapMachine .oneBar).Along StaysMapsBalanced .empty
      [.map 0x80000000 0x1000 .uncached, .map 0x80000000 0x1000 .uncached] := by
  refine ⟨⟨_, rfl, rfl, rfl, rfl⟩, ⟨_, rfl, rfl, rfl, rfl⟩, fun h => ?_⟩
  exact ((h.2 _ rfl).1).held 0x80000000 0 (List.mem_cons_self ..) rfl

end NVMac.Kernel
