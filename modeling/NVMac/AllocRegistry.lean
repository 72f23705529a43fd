import NVMac.Keys
import NVMac.Lib.Machine
import NVMac.Lib.Registry

/-!
# The allocation registry (`libc.cpp`)

`os_alloc_mem` keeps the size of each block in the dictionary `global_allocations` under the address
in print, and `os_free_mem` reads it there to pass to `IOFree`. The number kept has
`sizeof(NvU64) = 8` bits, and the buffer for the print has no room for a sixteenth digit. Where keys
stay apart, `memRun_sizedFree_iff` says which frees are right.
-/

namespace NVMac
open Registry

structure OSNumber where
  value : NvU64
deriving DecidableEq, Repr

def OSNumber.withNumber (value : NvU64) (numberOfBits : Nat) : OSNumber :=
  ⟨BitVec.ofNat 64 (value.toNat % 2 ^ numberOfBits)⟩

def OSNumber.unsigned64BitValue (n : OSNumber) : NvU64 := n.value

def sizeofNvU64 : Nat := 8

/-- The size of each live block, and `global_allocations`. -/
structure Memory where
  live : NvU64 → Option NvU64
  globalAllocations : List Char → Option OSNumber

namespace Memory

def empty : Memory := ⟨fun _ => none, fun _ => none⟩

def ioMallocZero (m : Memory) (size block : NvU64) : Memory :=
  if block = 0 then m else { m with live := Function.update m.live block (some size) }

def ioFree (m : Memory) (ptr : NvU64) : Memory :=
  { m with live := Function.update m.live ptr none }

def setObject (m : Memory) (key : List Char) (value : OSNumber) : Memory :=
  { m with globalAllocations := Function.update m.globalAllocations key (some value) }

def removeObject (m : Memory) (key : List Char) : Memory :=
  { m with globalAllocations := Function.update m.globalAllocations key none }

end Memory

/-- What the system answers to the calls of one `os_alloc_mem`: the block, and whether the key, the
value and the entry are made. -/
structure AllocAnswers where
  block : NvU64
  key : Bool
  value : Bool
  entry : Bool

def osAllocMem (m : Memory) (size : NvU64) (a : AllocAnswers) : NvStatus × Option NvU64 × Memory :=
  let m := m.ioMallocZero size a.block
  if a.block = 0 then (.errNoMemory, none, m)
  else if a.key && a.value && a.entry then
    (.ok, some a.block, m.setObject (keyName a.block) (OSNumber.withNumber size sizeofNvU64))
  else (.ok, some a.block, m)

/-- The call of `IOFree`, if one is made, as pointer and size. `key`: whether the key is made; a
lookup under no key finds nothing. -/
def osFreeMem (m : Memory) (ptr : NvU64) (key : Bool) : Option (NvU64 × NvU64) × Memory :=
  match if key then m.globalAllocations (keyName ptr) else none with
  | none => (none, m)
  | some allocationValue =>
    (some (ptr, allocationValue.unsigned64BitValue), (m.ioFree ptr).removeObject (keyName ptr))

/-! ### Runs -/

inductive MemCall
  | alloc (size : NvU64) (a : AllocAnswers)
  | free (ptr : NvU64) (key : Bool)

abbrev MemAnswer := Option (NvU64 × NvU64) × Memory

def memCall (m : Memory) : MemCall → MemAnswer
  | .alloc size a => (none, (osAllocMem m size a).2.2)
  | .free ptr key => osFreeMem m ptr key

def memMachine : Machine Memory MemCall MemAnswer where
  call := memCall
  next a := some a.2

/-- The allocator hands out no live block, and all objects are made. -/
def MemLegal (m : Memory) : MemCall → Prop
  | .alloc _ a => (a.block ≠ 0 → m.live a.block = none) ∧ a.key ∧ a.value ∧ a.entry
  | .free _ key => key

/-- No other live block has the key of the block that comes or goes. -/
def KeyAlone (m : Memory) : MemCall → Prop
  | .alloc _ a => a.block ≠ 0 → Alone keyName m.live a.block
  | .free ptr _ => Alone keyName m.live ptr

def SizedFree (m : Memory) (_ : MemCall) (a : MemAnswer) : Prop :=
  ∀ ptr n, a.1 = some (ptr, n) → m.live ptr = some n

def FreesSmall (m : Memory) : MemCall → Prop
  | .alloc _ _ => True
  | .free ptr _ => ∀ size, m.live ptr = some size → size.toNat < 2 ^ 8

/-- The registry keeps eight bits of the size of each live block. -/
def Registered (m : Memory) : Prop :=
  Tracks keyName (OSNumber.withNumber · sizeofNvU64) m.live m.globalAllocations

section
variable {m m' : Memory} {l : MemCall} {ptr size : NvU64}

theorem withNumber_eq_iff : (OSNumber.withNumber size sizeofNvU64).unsigned64BitValue = size ↔
    size.toNat < 2 ^ 8 := by
  have hlt := size.isLt
  show BitVec.ofNat 64 (size.toNat % 2 ^ 8) = size ↔ _
  rw [← BitVec.toNat_inj, BitVec.toNat_ofNat]
  omega

theorem osFreeMem_of_alone (hm : Registered m) (hp : Alone keyName m.live ptr) :
    osFreeMem m ptr true =
      match m.live ptr with
      | none => (none, m)
      | some size => (some (ptr, (OSNumber.withNumber size sizeofNvU64).unsigned64BitValue),
          (m.ioFree ptr).removeObject (keyName ptr)) := by
  rw [osFreeMem, if_pos rfl, hm.lookup hp]
  cases m.live ptr <;> rfl

theorem osAllocMem_eq {a : AllocAnswers} (hlegal : MemLegal m (.alloc size a)) (hblock : a.block ≠ 0) :
    osAllocMem m size a = (.ok, some a.block, (m.ioMallocZero size a.block).setObject
      (keyName a.block) (OSNumber.withNumber size sizeofNvU64)) := by
  obtain ⟨-, hkey, hvalue, hentry⟩ := hlegal
  rw [osAllocMem, if_neg hblock, hkey, hvalue, hentry]
  rfl

theorem sizedFree_iff (hm : Registered m) (hlegal : MemLegal m l) (hkey : KeyAlone m l) :
    SizedFree m l (memCall m l) ↔ FreesSmall m l := by
  cases l with
  | alloc size a => exact iff_of_true (fun _ _ h => by cases h) trivial
  | free ptr key =>
    obtain rfl : key = true := hlegal
    simp only [memCall, SizedFree, FreesSmall, osFreeMem_of_alone hm hkey]
    cases hlive : m.live ptr with
    | none => exact iff_of_true (fun _ _ h => by cases h) (fun _ h => by cases h)
    | some size =>
      constructor
      · intro h size' hsize
        obtain rfl : size = size' := Option.some.inj hsize
        have heq := h ptr _ rfl
        rw [hlive] at heq
        exact withNumber_eq_iff.1 (Option.some.inj heq).symm
      · intro h ptr' n heq
        have hsmall := withNumber_eq_iff.2 (h size rfl)
        cases heq
        rw [hlive, hsmall]

theorem registered_next (hm : Registered m) (hlegal : MemLegal m l) (hkey : KeyAlone m l) :
    Registered (memCall m l).2 := by
  cases l with
  | alloc size a =>
    by_cases hblock : a.block = 0
    · simp only [memCall, osAllocMem, Memory.ioMallocZero, if_pos hblock]
      exact hm
    · simp only [memCall, osAllocMem_eq hlegal hblock, Memory.ioMallocZero, if_neg hblock]
      exact hm.insert (hkey hblock) size
  | free ptr key =>
    obtain rfl : key = true := hlegal
    simp only [memCall, osFreeMem_of_alone hm hkey]
    cases m.live ptr with
    | none => exact hm
    | some size => exact hm.erase hkey

end

/-- A run whose blocks have their keys alone frees them with their sizes exactly when each block that
it frees has a size of eight bits. -/
theorem memRun_sizedFree_iff (calls : List MemCall)
    (hlegal : memMachine.Along (fun m l _ => MemLegal m l) .empty calls)
    (hkeys : memMachine.Along (fun m l _ => KeyAlone m l) .empty calls) :
    memMachine.Along SizedFree .empty calls ↔
      memMachine.Along (fun m l _ => FreesSmall m l) .empty calls := by
  refine Machine.along_iff_of_legal (I := Registered) (L := fun m l => MemLegal m l ∧ KeyAlone m l)
    (fun m l hm hl => sizedFree_iff hm hl.1 hl.2) ?_ Tracks.empty (hlegal.and hkeys)
  intro m l hm hl _ m' hm'
  exact Option.some.inj hm' ▸ registered_next hm hl.1 hl.2

def AllocAnswers.granted (block : NvU64) : AllocAnswers := ⟨block, true, true, true⟩

def allocThenFree (size block : NvU64) : List MemCall :=
  [.alloc size (.granted block), .free block true]

theorem memRun_sizedFree_allocThenFree :
    memMachine.Along SizedFree .empty (allocThenFree 64 0x1000) := by
  refine (memRun_sizedFree_iff (allocThenFree 64 0x1000) ?_ ?_).2 ?_
  · exact ⟨⟨fun _ => rfl, rfl, rfl, rfl⟩, fun _ _ => ⟨rfl, fun _ _ => trivial⟩⟩
  · refine ⟨fun _ q b hq => (by cases hq), fun m hm => ⟨fun q b hq _ => ?_, fun _ _ => trivial⟩⟩
    cases hm
    by_contra hne
    have hnone : (Function.update (fun _ => none) 0x1000 (some 64) : NvU64 → Option NvU64) q = none :=
      Function.update_of_ne hne _ _
    cases hq.symm.trans hnone
  · refine ⟨trivial, fun m hm => ⟨fun size hsize => ?_, fun _ _ => trivial⟩⟩
    cases hm
    cases hsize
    decide

/-- A block of 256 bytes is freed with size 0. Two blocks at addresses of sixteen digits share a key,
and the first is freed with the size of the second. -/
theorem memRun_freed_with_wrong_size :
    (∃ m, memMachine.after .empty [.alloc 256 (.granted 0x1000)] = some m ∧
      m.live 0x1000 = some 256 ∧ (memMachine.call m (.free 0x1000 true)).1 = some (0x1000, 0)) ∧
    (∃ m, memMachine.after .empty [.alloc 8 (.granted 0xfffffe0000001000),
        .alloc 16 (.granted 0xfffffe0000001008)] = some m ∧
      m.live 0xfffffe0000001000 = some 8 ∧
      (memMachine.call m (.free 0xfffffe0000001000 true)).1 = some (0xfffffe0000001000, 16)) ∧
    ¬ memMachine.Along SizedFree .empty (allocThenFree 256 0x1000) := by
  refine ⟨⟨_, rfl, by decide, by decide⟩, ⟨_, rfl, by decide, ?_⟩, fun h => ?_⟩
  · have hkey : keyName 0xfffffe0000001000 = keyName 0xfffffe0000001008 := by decide
    show (osFreeMem _ 0xfffffe0000001000 true).1 = _
    rw [osFreeMem, if_pos rfl, hkey]
    rfl
  · have hfree := (h.2 _ rfl).1 0x1000 0 (by decide)
    cases hfree

/-! ### Short pointers -/

/-- Blocks and pointers are below 2^60; a pointer to free may be anything else. -/
def ShortPointers (m : Memory) : MemCall → Prop
  | .alloc size a => MemLegal m (.alloc size a) ∧ a.block.toNat < 2 ^ 60
  | .free ptr key => MemLegal m (.free ptr key) ∧ ptr.toNat < 2 ^ 60

/-- There is an entry for each live block, under a key of its own, and no other. -/
structure KeysOfLive (m : Memory) : Prop where
  keys : ∀ k, m.globalAllocations k ≠ none ↔ ∃ p, m.live p ≠ none ∧ keyName p = k
  distinct : ∀ p q, m.live p ≠ none → m.live q ≠ none → keyName p = keyName q → p = q

/-- The live blocks after a call. -/
def liveAfter (m : Memory) : MemCall → NvU64 → Option NvU64
  | .alloc size a => if a.block = 0 then m.live else Function.update m.live a.block (some size)
  | .free ptr _ => Function.update m.live ptr none

/-- The registry has the keys of the live blocks afterwards. A block comes with each allocation that
succeeds, and goes with the one `IOFree` of a free; a pointer to nothing live is not freed. -/
def KeepsAllocations (m : Memory) (l : MemCall) (a : MemAnswer) : Prop :=
  KeysOfLive a.2 ∧ a.2.live = liveAfter m l ∧
  match l with
  | .alloc _ _ => a.1 = none
  | .free ptr _ => (m.live ptr = none → a = (none, m)) ∧ (m.live ptr ≠ none → ∃ n, a.1 = some (ptr, n))

/-- The registry tracks blocks whose pointers are short. -/
structure ShortRegistered (m : Memory) : Prop where
  registered : Registered m
  short : ∀ p, m.live p ≠ none → p.toNat < 2 ^ 60

section
variable {m : Memory} {l : MemCall} {ptr : NvU64}

theorem ShortRegistered.alone (hm : ShortRegistered m) (hptr : ptr.toNat < 2 ^ 60) :
    Alone keyName m.live ptr :=
  alone_of_short (fun q _ hq => hm.short q (by rw [hq]; nofun)) hptr

theorem ShortRegistered.keyAlone (hm : ShortRegistered m) (hl : ShortPointers m l) : KeyAlone m l := by
  cases l with
  | alloc size a => exact fun _ => hm.alone hl.2
  | free ptr key => exact hm.alone hl.2

theorem ShortPointers.legal (hl : ShortPointers m l) : MemLegal m l := by
  cases l with
  | alloc size a => exact hl.1
  | free ptr key => exact hl.1

theorem ShortRegistered.keysOfLive (hm : ShortRegistered m) : KeysOfLive m where
  keys := by
    intro k
    constructor
    · intro hk
      obtain ⟨n, hn⟩ := Option.ne_none_iff_exists'.1 hk
      obtain ⟨p, size, hkey, hp⟩ := hm.registered.owned k n hn
      exact ⟨p, by rw [hp]; nofun, hkey⟩
    · rintro ⟨p, hp, rfl⟩
      obtain ⟨size, hsize⟩ := Option.ne_none_iff_exists'.1 hp
      rw [hm.registered.stored p size hsize]
      nofun
  distinct := fun p q hp hq hkey => keyName_inj (hm.short p hp) (hm.short q hq) hkey

theorem live_memCall (hm : ShortRegistered m) (hl : ShortPointers m l) :
    (memCall m l).2.live = liveAfter m l := by
  cases l with
  | alloc size a =>
    by_cases hblock : a.block = 0
    · simp only [memCall, osAllocMem, Memory.ioMallocZero, liveAfter, if_pos hblock]
    · simp only [memCall, osAllocMem_eq hl.1 hblock, Memory.ioMallocZero, liveAfter, if_neg hblock]
      rfl
  | free ptr key =>
    obtain rfl : key = true := hl.1
    simp only [memCall, osFreeMem_of_alone hm.registered (hm.alone hl.2)]
    cases hlive : m.live ptr with
    | none => exact (hlive ▸ Function.update_eq_self ptr m.live).symm
    | some size => rfl

theorem ShortRegistered.next (hm : ShortRegistered m) (hl : ShortPointers m l) :
    ShortRegistered (memCall m l).2 where
  registered := registered_next hm.registered hl.legal (hm.keyAlone hl)
  short := by
    intro p hp
    rw [live_memCall hm hl] at hp
    cases l with
    | alloc size a =>
      rw [liveAfter] at hp
      by_cases hblock : a.block = 0
      · exact hm.short p (by rwa [if_pos hblock] at hp)
      · rw [if_neg hblock] at hp
        by_cases hpa : p = a.block
        · exact hpa ▸ hl.2
        · exact hm.short p (by rwa [Function.update_of_ne hpa] at hp)
    | free ptr key =>
      rw [liveAfter] at hp
      by_cases hpp : p = ptr
      · exact hpp ▸ hl.2
      · exact hm.short p (by rwa [Function.update_of_ne hpp] at hp)

theorem memCall_keepsAllocations (hm : ShortRegistered m) (hl : ShortPointers m l) :
    KeepsAllocations m l (memCall m l) := by
  refine ⟨(hm.next hl).keysOfLive, live_memCall hm hl, ?_⟩
  cases l with
  | alloc size a => rfl
  | free ptr key =>
    obtain rfl : key = true := hl.1
    have heq := osFreeMem_of_alone hm.registered (hm.alone hl.2)
    constructor
    · intro hnone
      show osFreeMem m ptr true = _
      rw [heq, hnone]
    · intro hsome
      obtain ⟨size, hsize⟩ := Option.ne_none_iff_exists'.1 hsome
      refine ⟨(OSNumber.withNumber size sizeofNvU64).unsigned64BitValue, ?_⟩
      show (osFreeMem m ptr true).1 = _
      rw [heq, hsize]

end

/-- In every run with short pointers, whatever is freed, the registry keeps exactly the live blocks. -/
theorem memRun_keepsAllocations (calls : List MemCall)
    (hshort : memMachine.Along (fun m l _ => ShortPointers m l) .empty calls) :
    memMachine.Along KeepsAllocations .empty calls := by
  refine Machine.along_of_legal (I := ShortRegistered) (fun _ _ => memCall_keepsAllocations) ?_
    ⟨Tracks.empty, fun _ h => absurd rfl h⟩ hshort
  intro m l hm hl m' hm'
  exact Option.some.inj hm' ▸ hm.next hl

/-- A free of a pointer to nothing, and a block freed twice. -/
theorem memRun_keepsAllocations_freedTwice : memMachine.Along KeepsAllocations .empty
    [.free 0 true, .alloc 64 (.granted 0x1000), .free 0x1008 true, .free 0x1000 true, .free 0x1000 true] := by
  have hfree : ∀ m, ∀ ptr ∈ [(0 : NvU64), 0x1008, 0x1000], ShortPointers m (.free ptr true) := by
    intro m ptr hptr
    simp only [List.mem_cons, List.not_mem_nil, or_false] at hptr
    rcases hptr with rfl | rfl | rfl
    · exact ⟨rfl, by decide⟩
    · exact ⟨rfl, by decide⟩
    · exact ⟨rfl, by decide⟩
  refine memRun_keepsAllocations _ ⟨hfree _ _ (by decide), ?_⟩
  rintro m ⟨⟩
  refine ⟨⟨⟨fun _ => rfl, rfl, rfl, rfl⟩, by decide⟩, ?_⟩
  rintro m ⟨⟩
  refine ⟨hfree _ _ (by decide), fun m _ => ⟨hfree _ _ (by decide), fun m _ => ⟨hfree _ _ (by decide), ?_⟩⟩⟩
  exact fun _ _ => trivial

end NVMac
