import NVMac.BarsDriverKit
import NVMac.Mappings
import NVMac.Lib.Machine
import NVMac.Lib.Registry

/-!
# Mappings in the DriverKit port (`memory_driverkit.cpp`)

`os_map_kernel_space` looks the address up in `nv->bars` and takes the number of the slot for the
memory index of the region. `startBars_mapsOwnRegion_iff` says for which devices that is the same
region; `mapRun_keepsRegistry` is about the registry, which is right in every run.
-/

namespace NVMac.DriverKit
open Pci Refs Registry Outcome

def kIOMemoryMapCacheModeDefault : NvU64 := 0

def kIOMemoryMapCacheModeInhibit : NvU64 := 0x100

def kIOMemoryMapCacheModeCopyback : NvU64 := 0x200

def kIOMemoryMapCacheModeWriteThrough : NvU64 := 0x400

def nvCacheToIOOption : NvMemoryType → NvU64
  | .cached => kIOMemoryMapCacheModeDefault
  | .writecombined => kIOMemoryMapCacheModeWriteThrough ||| kIOMemoryMapCacheModeCopyback
  | .writeback => kIOMemoryMapCacheModeWriteThrough
  | .uncached | .default => kIOMemoryMapCacheModeInhibit
  | .other => kIOMemoryMapCacheModeDefault

structure IOMemoryDescriptor where
  memoryIndex : Nat

structure IOMemoryMap where
  address : NvU64
  memoryIndex : Nat
  options : NvU64
  length : NvU64

abbrev DescriptorHandle := Nat

structure MapState where
  descriptors : Heap DescriptorHandle IOMemoryDescriptor
  mappings : Mappings IOMemoryMap

def MapState.empty : MapState := ⟨.empty, .empty⟩

/-- What `_CopyDeviceMemoryWithIndex` and `CreateMapping` make, if they succeed. -/
structure MapAnswers where
  descriptor : Option DescriptorHandle
  mapping : Option (MapHandle × NvU64)

inductive MapResult
  | unknownBar | copyFailed | mappingFailed
  | mapped (addressBase : NvU64)

def MapResult.returned : MapResult → NvU64
  | .mapped addressBase => addressBase
  | _ => 0

/-- There is no descriptor of a region that the device does not have. -/
def copyDeviceMemoryWithIndex (regions memoryIndex : Nat) (answer : Option DescriptorHandle) :
    Option (DescriptorHandle × IOMemoryDescriptor) :=
  if memoryIndex < regions then answer.map (·, ⟨memoryIndex⟩) else none

/-- It maps from the start of the descriptor's region. -/
def createMapping (memory : IOMemoryDescriptor) (options length : NvU64)
    (answer : Option (MapHandle × NvU64)) : Option (MapHandle × IOMemoryMap) :=
  answer.map fun (h, address) => (h, ⟨address, memory.memoryIndex, options, length⟩)

def MapState.releaseDescriptor (s : MapState) (d : DescriptorHandle) : Except Fault MapState := do
  let descriptors ← live (release s.descriptors d)
  pure { s with descriptors := descriptors }

/-- `regions` is the number of the device's regions. -/
def osMapKernelSpace (regions : Nat) (bars : NvBars) (s : MapState) (start sizeBytes : NvU64)
    (mode : NvMemoryType) (a : MapAnswers) : Except Fault (MapResult × MapState) :=
  match bars.find start with
  | none => .ok (.unknownBar, s)
  | some memoryIndex =>
    match copyDeviceMemoryWithIndex regions memoryIndex a.descriptor with
    | none => .ok (.copyFailed, s)
    | some (returnMemory, descriptor) =>
      let s := { s with descriptors := create s.descriptors returnMemory descriptor }
      match createMapping descriptor (nvCacheToIOOption mode) sizeBytes a.mapping with
      | none => do
        let s ← s.releaseDescriptor returnMemory
        pure (.mappingFailed, s)
      | some (mapping, map) => do
        let addressBase := map.address
        let mappings ← (s.mappings.create mapping map).setObject (keyName addressBase) mapping >>=
          fun mappings => mappings.release mapping
        let s ← { s with mappings := mappings }.releaseDescriptor returnMemory
        pure (.mapped addressBase, s)

/-- The system hands out no object that is still there. -/
def MapAnswers.Fresh (s : MapState) (a : MapAnswers) : Prop :=
  (∀ d, a.descriptor = some d → s.descriptors d = none) ∧
  ∀ h address, a.mapping = some (h, address) → s.mappings.maps h = none

/-- The address is known, and so is the region, and both calls succeed. -/
def MapAnswers.Granted (regions : Nat) (bars : NvBars) (start : NvU64) (a : MapAnswers) : Prop :=
  (∃ i, bars.find start = some i ∧ i.1 < regions) ∧ a.descriptor ≠ none ∧ a.mapping ≠ none

/-! ### What one call does -/

section
variable {regions : Nat} {bars : NvBars} {s : MapState} {start sizeBytes : NvU64} {mode : NvMemoryType}
  {a : MapAnswers} {i : Fin nvGpuNumBars} {d : DescriptorHandle} {h : MapHandle} {address : NvU64}

theorem releaseDescriptor_create (mappings : Mappings IOMemoryMap) {descriptor : IOMemoryDescriptor}
    (hd : s.descriptors d = none) :
    (MapState.mk (create s.descriptors d descriptor) mappings).releaseDescriptor d =
      .ok ⟨s.descriptors, mappings⟩ := by
  show (live (release (create s.descriptors d descriptor) d) >>= fun _ => _) = _
  rw [release_create hd]
  rfl

/-- The mapping that a call makes of the slot `i`. -/
def madeMap (i : Fin nvGpuNumBars) (sizeBytes : NvU64) (mode : NvMemoryType) (address : NvU64) : IOMemoryMap :=
  ⟨address, i, nvCacheToIOOption mode, sizeBytes⟩

/-- A call fails and changes nothing, or keeps the mapping that the system made. -/
theorem osMapKernelSpace_cases (regions : Nat) (bars : NvBars) (start sizeBytes : NvU64) (mode : NvMemoryType)
    (hfresh : a.Fresh s) :
    (∃ result, osMapKernelSpace regions bars s start sizeBytes mode a = .ok (result, s) ∧
      (∀ addressBase, result ≠ .mapped addressBase) ∧ (result = .unknownBar → bars.find start = none) ∧
      ¬ a.Granted regions bars start) ∨
    ∃ i h address, bars.find start = some i ∧ a.mapping = some (h, address) ∧ a.Granted regions bars start ∧
      osMapKernelSpace regions bars s start sizeBytes mode a = (do
        let mappings ← (s.mappings.create h (madeMap i sizeBytes mode address)).setObject (keyName address) h >>=
          fun mappings => mappings.release h
        pure (.mapped address, { s with mappings := mappings })) := by
  rcases a with ⟨descriptor?, mapping?⟩
  unfold osMapKernelSpace copyDeviceMemoryWithIndex createMapping
  cases hfind : bars.find start with
  | none =>
    refine .inl ⟨.unknownBar, rfl, nofun, fun _ => rfl, ?_⟩
    rintro ⟨⟨i, hi, -⟩, -⟩
    rw [hfind] at hi
    cases hi
  | some i =>
    dsimp only
    by_cases hi : i.1 < regions
    · rw [if_pos hi]
      rcases descriptor? with - | d
      · exact .inl ⟨.copyFailed, rfl, nofun, nofun, fun h => h.2.1 rfl⟩
      have hd : s.descriptors d = none := hfresh.1 d rfl
      rcases mapping? with - | ⟨h, address⟩
      · refine .inl ⟨.mappingFailed, ?_, nofun, nofun, fun h => h.2.2 rfl⟩
        show (MapState.releaseDescriptor _ d >>= fun _ => _) = _
        rw [releaseDescriptor_create _ hd]
        rfl
      · refine .inr ⟨i, h, address, rfl, rfl, ⟨⟨i, hfind, hi⟩, nofun, nofun⟩, ?_⟩
        show (((s.mappings.create h _).setObject (keyName address) h >>= _) >>= fun _ => _) = _
        congr 1
        funext mappings
        rw [releaseDescriptor_create _ hd]
        rfl
    · rw [if_neg hi]
      refine .inl ⟨.copyFailed, rfl, nofun, nofun, ?_⟩
      rintro ⟨⟨i', hi', hlt⟩, -⟩
      rw [hfind] at hi'
      exact hi (Option.some.inj hi' ▸ hlt)

end

/-! ### The region -/

/-- A call returns `NULL` because a call of the system failed, or keeps a mapping of the region. -/
def OwnRegion (region : Nat) : Except Fault (MapResult × MapState) → Prop
  | .ok (.copyFailed, _) | .ok (.mappingFailed, _) => True
  | .ok (.mapped addressBase, s) => ∃ h map, s.mappings.globalMappedMemory (keyName addressBase) = some h ∧
      s.mappings.maps h = some ⟨map, 0⟩ ∧ map.address = addressBase ∧ map.memoryIndex = region
  | _ => False

/-- Every mapping of a slot's address is one of the region of the BAR that the slot was filled from. -/
def MapsOwnRegion (l : Layout) (bars : NvBars) : Prop :=
  ∀ (s : MapState) (j : Fin nvGpuNumBars) (sizeBytes : NvU64) (mode : NvMemoryType) (a : MapAnswers),
    s.mappings.EntriesLive → a.Fresh s → 0 < (bars j).size → sizeBytes ≤ (bars j).size →
    OwnRegion (l.memoryIndex j)
      (osMapKernelSpace l.implemented.length bars s (bars j).cpuAddress sizeBytes mode a)

/-- Of the registers with the contents of one where a BAR starts, the first has the number of that
BAR's region, or that of none. -/
def FirstContentsOwn (l : Layout) : Prop :=
  ∀ i j : Fin nvGpuNumBars, l.barAt j ≠ none → l.registers.getD i 0 = l.registers.getD j 0 →
    (∀ i' < i, l.registers.getD i' 0 ≠ l.registers.getD j 0) →
    i.1 = l.memoryIndex j ∨ l.implemented.length ≤ i.1

section
variable {l : Layout} {bars : NvBars} {i j : Fin nvGpuNumBars} {s : MapState} {start sizeBytes : NvU64}
  {mode : NvMemoryType} {a : MapAnswers}

/-- A call for a known address maps the region with the number of the slot, if it maps one. -/
theorem ownRegion_iff {regions region : Nat} (hlive : s.mappings.EntriesLive) (hfresh : a.Fresh s)
    (hfind : bars.find start = some i) :
    OwnRegion region (osMapKernelSpace regions bars s start sizeBytes mode a) ↔
      (a.Granted regions bars start → i.1 = region) := by
  rcases osMapKernelSpace_cases regions bars start sizeBytes mode hfresh with ⟨result, heq, hnull, hknown, hdenied⟩ |
    ⟨i', h, address, hfind', hmapping, hgranted, heq⟩
  · rw [heq]
    refine iff_of_true ?_ fun h => absurd h hdenied
    rcases result with - | - | - | addressBase
    · rw [hknown rfl] at hfind
      cases hfind
    · trivial
    · trivial
    · exact absurd rfl (hnull addressBase)
  · obtain rfl : i = i' := Option.some.inj (hfind.symm.trans hfind')
    obtain ⟨mappings, hset, hmap, hkey⟩ := s.mappings.exists_setObject_release (madeMap i sizeBytes mode address)
      hlive (hfresh.2 h address hmapping)
    rw [heq, hset]
    simp only [hgranted, true_implies]
    constructor
    · rintro ⟨h', map, hkey', hmap', -, hregion⟩
      obtain rfl : h = h' := Option.some.inj (hkey.symm.trans hkey')
      obtain rfl : madeMap i sizeBytes mode address = map := (Object.mk.inj (Option.some.inj (hmap.symm.trans hmap'))).1
      exact hregion
    · intro hregion
      exact ⟨h, _, hkey, hmap, rfl, hregion⟩

theorem barAperture_size_pos_iff : 0 < (barAperture l j).size ↔ l.barAt j ≠ none := by
  cases hbar : l.barAt j with
  | none =>
    have hzero : (barAperture l j).size = 0 := by
      show (getBARInfo l j 0 0).2 = 0
      rw [getBARInfo, hbar]
    rw [hzero]
    exact iff_of_false (BitVec.lt_irrefl _) (not_not.2 rfl)
  | some b =>
    have hb : b.size ≠ 0 := fun h =>
      (Layout.mem_implemented.1 (Layout.barAt_eq_some_iff.1 hbar)).2 (Bar.size_eq_zero_iff.1 h)
    rw [barAperture_size hbar]
    exact iff_of_true (BitVec.pos_iff_ne_zero _ |>.2 hb) (fun h => by cases h)

theorem barAperture_cpuAddress_inj : (barAperture l i).cpuAddress = (barAperture l j).cpuAddress ↔
    l.registers.getD i 0 = l.registers.getD j 0 := by
  rw [barAperture_cpuAddress, barAperture_cpuAddress, ← BitVec.toNat_inj, ← BitVec.toNat_inj]
  simp only [BitVec.toNat_setWidth]
  have hi := (l.registers.getD i 0).isLt
  have hj := (l.registers.getD j 0).isLt
  omega

/-- The search finds the first register with the same contents. -/
theorem find_startBars_iff (hbars : ∀ j : Fin nvGpuNumBars, bars j = barAperture l j) :
    bars.find (bars j).cpuAddress = some i ↔ l.registers.getD i 0 = l.registers.getD j 0 ∧
      ∀ i' < i, l.registers.getD i' 0 ≠ l.registers.getD j 0 := by
  rw [NvBars.find_eq_some_iff]
  simp only [hbars, barAperture_cpuAddress_inj, ne_eq]

end

/-- The mapped region is always the right one exactly when the first slots with an address have the
numbers of their regions. -/
theorem startBars_mapsOwnRegion_iff (l : Layout) :
    (∃ bars, startBars l = .ok bars ∧ MapsOwnRegion l bars) ↔ FirstContentsOwn l := by
  constructor
  · rintro ⟨bars, hbars, hmaps⟩ i j hbar hsame hfirst
    have hslots := startBars_eq_ok_iff.1 hbars
    have hfind := (find_startBars_iff hslots).2 ⟨hsame, hfirst⟩
    refine or_iff_not_imp_right.2 fun hregion => ?_
    have hgranted : MapAnswers.Granted l.implemented.length bars (bars j).cpuAddress ⟨some 0, some (0, 0x1000)⟩ :=
      ⟨⟨i, hfind, Nat.not_le.1 hregion⟩, nofun, nofun⟩
    have hfresh : MapAnswers.Fresh .empty ⟨some 0, some (0, 0x1000)⟩ := ⟨fun _ _ => rfl, fun _ _ _ => rfl⟩
    have hsize : 0 < (bars j).size := by rw [hslots]; exact barAperture_size_pos_iff.2 hbar
    have hlive : MapState.empty.mappings.EntriesLive := fun _ _ h => by cases h
    exact (ownRegion_iff hlive hfresh hfind).1
      (hmaps .empty j 0 .cached _ hlive hfresh hsize (BitVec.le_def.2 (Nat.zero_le _))) hgranted
  · intro h
    refine ⟨_, startBars_eq_ok_iff.2 fun _ => rfl, ?_⟩
    intro s j sizeBytes mode a hlive hfresh hsize _
    obtain ⟨i, hfind⟩ := NvBars.exists_find (fun j => barAperture l j) j
    obtain ⟨hsame, hfirst⟩ := (find_startBars_iff fun _ => rfl).1 hfind
    refine (ownRegion_iff hlive hfresh hfind).2 ?_
    rintro ⟨⟨i', hfind', hregion⟩, -⟩
    obtain rfl : i = i' := Option.some.inj (hfind.symm.trans hfind')
    exact (h i j (barAperture_size_pos_iff.1 hsize) hsame hfirst).resolve_right (Nat.not_le.2 hregion)

/-- The BAR after a 64-bit one has the second region and the third slot, and a request for it maps
the third region. -/
theorem startBars_mixedLayout_mapsNext :
    mixedLayout.barAt 2 = some (.memory32 0x8000000 false false ⟨0x2000, by decide⟩) ∧
    mixedLayout.memoryIndex 2 = 1 ∧ mixedLayout.memoryIndex 3 = 2 ∧
    (barAperture mixedLayout 2).cpuAddress = 0x80000000 ∧
    (∃ s, osMapKernelSpace mixedLayout.implemented.length (fun j => barAperture mixedLayout j) .empty
        0x80000000 0x2000 .uncached ⟨some 0, some (0, 0x1000)⟩ = .ok (.mapped 0x1000, s) ∧
      s.mappings.maps 0 = some ⟨⟨0x1000, 2, kIOMemoryMapCacheModeInhibit, 0x2000⟩, 0⟩) ∧
    ¬ ∃ bars, startBars mixedLayout = .ok bars ∧ MapsOwnRegion mixedLayout bars := by
  refine ⟨by decide, by decide, by decide, by decide, ⟨_, rfl, rfl⟩, ?_⟩
  rintro ⟨bars, hbars, hmaps⟩
  obtain rfl : bars = fun j : Fin nvGpuNumBars => barAperture mixedLayout j := funext (startBars_eq_ok_iff.1 hbars)
  obtain ⟨h, map, hkey, hmap, -, hregion⟩ := hmaps .empty ⟨2, by decide⟩ 0x2000 .uncached
    ⟨some 0, some (0, 0x1000)⟩ (fun _ _ h => by cases h) ⟨fun _ _ => rfl, fun _ _ _ => rfl⟩ (by decide) (by decide)
  cases hkey
  cases hmap
  exact absurd hregion (by decide)

/-! ### The registry -/

/-- The state, and the mapping at each address returned and not yet unmapped. -/
structure MapRun where
  state : MapState
  outstanding : NvU64 → Option MapHandle

def MapRun.empty : MapRun := ⟨.empty, fun _ => none⟩

inductive MapCall
  | map (start sizeBytes : NvU64) (mode : NvMemoryType) (a : MapAnswers)
  | unmap (addressBase sizeBytes : NvU64)

/-- `osUnmapKernelSpace` has no result. -/
abbrev MapAnswer := Except Fault (NvU64 × MapRun)

def mapCall (regions : Nat) (bars : NvBars) (r : MapRun) : MapCall → MapAnswer
  | .map start sizeBytes mode a => do
    let (result, s) ← osMapKernelSpace regions bars r.state start sizeBytes mode a
    match result, a.mapping with
    | .mapped addressBase, some (h, _) =>
      pure (addressBase, ⟨s, Function.update r.outstanding addressBase (some h)⟩)
    | _, _ => pure (result.returned, ⟨s, r.outstanding⟩)
  | .unmap addressBase _ => do
    let mappings ← r.state.mappings.osUnmapKernelSpace addressBase
    pure (0, ⟨{ r.state with mappings := mappings }, Function.update r.outstanding addressBase none⟩)

def mapMachine (regions : Nat) (bars : NvBars) : Machine MapRun MapCall MapAnswer where
  call := mapCall regions bars
  next answer := answer.toOption.map (·.2)

/-- New objects are new, a new address is that of no live mapping, and addresses are below 2^60. -/
def MapLegal (r : MapRun) : MapCall → Prop
  | .map _ _ _ a => a.Fresh r.state ∧ ∀ h address, a.mapping = some (h, address) →
      address ≠ 0 ∧ address.toNat < 2 ^ 60 ∧
      ∀ h' o, r.state.mappings.maps h' = some o → o.value.address ≠ address
  | .unmap addressBase _ => addressBase.toNat < 2 ^ 60

/-- The registry is that of the outstanding addresses, and no descriptor is left. -/
structure RegistryExact (r : MapRun) : Prop where
  mappings : r.state.mappings.Exact r.outstanding
  addressed : ∀ address h, r.outstanding address = some h → address.toNat < 2 ^ 60 ∧
    ∃ o, r.state.mappings.maps h = some o ∧ o.value.address = address
  descriptors : ∀ d, r.state.descriptors d = none

/-- The registry is exact afterwards. A map that fails returns `NULL` and changes nothing, and an
unmap of an address that is not mapped changes nothing. -/
def KeepsRegistry (regions : Nat) (bars : NvBars) (r : MapRun) (l : MapCall) : MapAnswer → Prop
  | .error _ => False
  | .ok (returned, r') => RegistryExact r' ∧
    match l with
    | .map start _ _ a =>
      (¬ a.Granted regions bars start → returned = 0 ∧ r' = r) ∧
      (a.Granted regions bars start → ∃ h, a.mapping = some (h, returned) ∧
        r'.outstanding = Function.update r.outstanding returned (some h))
    | .unmap addressBase _ => r'.outstanding = Function.update r.outstanding addressBase none ∧
      (r.outstanding addressBase = none → r'.state = r.state)

section
variable {regions : Nat} {bars : NvBars} {r : MapRun} {l : MapCall} {h : MapHandle} {address : NvU64}

theorem RegistryExact.empty : RegistryExact .empty where
  mappings := .empty
  addressed := nofun
  descriptors := fun _ => rfl

theorem RegistryExact.alone (hr : RegistryExact r) (haddress : address.toNat < 2 ^ 60) :
    Alone keyName r.outstanding address :=
  alone_of_short (fun q h hq => (hr.addressed q h hq).1) haddress

theorem RegistryExact.insert (hr : RegistryExact r) (map : IOMemoryMap) (haddress : map.address.toNat < 2 ^ 60)
    (hh : r.state.mappings.maps h = none) (hnew : r.outstanding map.address = none) :
    RegistryExact ⟨{ r.state with mappings := ⟨create r.state.mappings.maps h map,
        Function.update r.state.mappings.globalMappedMemory (keyName map.address) (some h)⟩ },
      Function.update r.outstanding map.address (some h)⟩ where
  mappings := hr.mappings.insert (hr.alone haddress) hnew hh map
  descriptors := hr.descriptors
  addressed := by
    intro address' h' hout
    rcases update_apply_eq_iff.1 hout with ⟨rfl, heq⟩ | ⟨-, hold⟩
    · obtain rfl := Option.some.inj heq
      exact ⟨haddress, _, Function.update_self .., rfl⟩
    · obtain ⟨hlt, o, ho, haddress'⟩ := hr.addressed address' h' hold
      exact ⟨hlt, o, update_eq_of_apply_ne hh ho nofun, haddress'⟩

theorem RegistryExact.erase (hr : RegistryExact r) (haddress : address.toNat < 2 ^ 60)
    (hh : r.outstanding address = some h) :
    RegistryExact ⟨{ r.state with mappings := ⟨Function.update r.state.mappings.maps h none,
        Function.update r.state.mappings.globalMappedMemory (keyName address) none⟩ },
      Function.update r.outstanding address none⟩ where
  mappings := hr.mappings.erase (hr.alone haddress) hh
  descriptors := hr.descriptors
  addressed := by
    intro address' h' hout
    obtain ⟨haddress', hout'⟩ := apply_of_update_eq hout nofun
    obtain ⟨hlt, o, ho, rfl⟩ := hr.addressed address' h' hout'
    have hne : h' ≠ h := by
      rintro rfl
      exact haddress' (hr.mappings.single _ _ _ hout' hh)
    exact ⟨hlt, o, (Function.update_of_ne hne _ _).trans ho, rfl⟩

theorem mapCall_keepsRegistry (regions : Nat) (bars : NvBars) (hr : RegistryExact r) (hlegal : MapLegal r l) :
    KeepsRegistry regions bars r l (mapCall regions bars r l) := by
  cases l with
  | map start sizeBytes mode a =>
    obtain ⟨hfresh, haddress⟩ := hlegal
    rw [mapCall]
    rcases osMapKernelSpace_cases regions bars start sizeBytes mode hfresh with
      ⟨result, heq, hnull, -, hdenied⟩ | ⟨i, h, address, -, hmapping, hgranted, heq⟩
    · rw [heq, ok_bind]
      rcases result with - | - | - | addressBase
      · exact ⟨hr, fun _ => ⟨rfl, rfl⟩, fun h => absurd h hdenied⟩
      · exact ⟨hr, fun _ => ⟨rfl, rfl⟩, fun h => absurd h hdenied⟩
      · exact ⟨hr, fun _ => ⟨rfl, rfl⟩, fun h => absurd h hdenied⟩
      · exact absurd rfl (hnull addressBase)
    · obtain ⟨-, hlt, hunused⟩ := haddress h address hmapping
      have hnew : r.outstanding address = none := by
        cases hout : r.outstanding address with
        | none => rfl
        | some h' =>
          obtain ⟨-, o, ho, hsame⟩ := hr.addressed address h' hout
          exact absurd hsame (hunused h' o ho)
      have hkey := (hr.mappings.lookup (hr.alone hlt)).trans hnew
      rw [heq, Mappings.setObject_release hkey, hmapping]
      exact ⟨hr.insert (madeMap i sizeBytes mode address) hlt (hfresh.2 h address hmapping) hnew,
        fun h => absurd hgranted h, fun _ => ⟨h, hmapping, rfl⟩⟩
  | unmap addressBase sizeBytes =>
    have hlookup := hr.mappings.lookup (hr.alone hlegal)
    rw [mapCall]
    cases hout : r.outstanding addressBase with
    | none =>
      rw [Mappings.osUnmapKernelSpace_of_absent (hlookup.trans hout)]
      have hsame : Function.update r.outstanding addressBase none = r.outstanding := by
        rw [← hout, Function.update_eq_self]
      refine ⟨?_, rfl, fun _ => rfl⟩
      show RegistryExact ⟨r.state, Function.update r.outstanding addressBase none⟩
      rw [hsame]
      exact hr
    | some h =>
      obtain ⟨map, hmap⟩ := hr.mappings.counted addressBase h hout
      rw [Mappings.osUnmapKernelSpace_of_present (hlookup.trans hout) hmap]
      refine ⟨hr.erase hlegal hout, rfl, fun hnone => ?_⟩
      rw [hout] at hnone
      cases hnone

end

/-- In every run of maps and unmaps, whatever fails, the registry is exact after each call. -/
theorem mapRun_keepsRegistry (regions : Nat) (bars : NvBars) (calls : List MapCall)
    (hlegal : (mapMachine regions bars).Along (fun r l _ => MapLegal r l) .empty calls) :
    (mapMachine regions bars).Along (KeepsRegistry regions bars) .empty calls := by
  refine Machine.along_of_legal (I := RegistryExact) (fun r l => mapCall_keepsRegistry regions bars) ?_ .empty hlegal
  intro r l hr hl r' hr'
  have hkeeps := mapCall_keepsRegistry regions bars hr hl
  obtain ⟨⟨returned, r''⟩, hok, rfl⟩ := Option.map_eq_some_iff.1 hr'
  have hcall : mapCall regions bars r l = .ok (returned, r'') := eq_ok_of_toOption hok
  rw [hcall] at hkeeps
  exact hkeeps.1

def mapThenUnmap : List MapCall :=
  [.map 0x80000000 0x1000 .uncached ⟨some 0, some (0, 0x100000)⟩, .map 0x80000000 0x1000 .uncached ⟨some 0, none⟩,
    .unmap 0x100000 0x1000, .unmap 0x100000 0x1000]

theorem mapRun_keepsRegistry_mapThenUnmap :
    (mapMachine 1 .oneBar).Along (KeepsRegistry 1 .oneBar) .empty mapThenUnmap := by
  refine mapRun_keepsRegistry 1 .oneBar mapThenUnmap ⟨⟨⟨fun _ _ => rfl, fun _ _ _ => rfl⟩, ?_⟩, ?_⟩
  · rintro h address heq
    obtain ⟨rfl, rfl⟩ := Prod.mk.inj (Option.some.inj heq)
    exact ⟨by decide, by decide, nofun⟩
  rintro r ⟨⟩
  refine ⟨⟨⟨fun d hd => ?_, nofun⟩, nofun⟩, ?_⟩
  · cases hd
    rfl
  rintro r ⟨⟩
  refine ⟨show (0x100000#64).toNat < 2 ^ 60 by decide, ?_⟩
  rintro r ⟨⟩
  exact ⟨show (0x100000#64).toNat < 2 ^ 60 by decide, fun _ _ => trivial⟩

end NVMac.DriverKit
