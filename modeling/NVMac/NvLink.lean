import NVMac.AllocRegistry

/-!
# Allocations for links (`nvlink.cpp`)

Of the four calls that can fail in `os_alloc_mem`, only the first is checked, and `nvlink_malloc`
drops the status that says so. `nvlinkMalloc_allOrNothing_iff` says when all is done or nothing
through both.
-/

namespace NVMac

/-- `ptr` is what the local variable holds, which is not initialised. -/
def nvlinkMalloc (m : Memory) (size ptr : NvU64) (a : AllocAnswers) : NvU64 × Memory :=
  let (_, address, m) := osAllocMem m size a
  (address.getD ptr, m)

def nvlinkFree (m : Memory) (ptr : NvU64) (key : Bool) : Option (NvU64 × NvU64) × Memory := osFreeMem m ptr key

/-- The block is live, with the entry that its size is kept in. -/
def Enters (m : Memory) (ptr size : NvU64) : Prop :=
  m.live ptr = some size ∧ m.globalAllocations (keyName ptr) = some (OSNumber.withNumber size sizeofNvU64)

/-- All is done, or nothing and there is an error. -/
def AllocAtomic (m : Memory) (size block : NvU64) : NvStatus × Option NvU64 × Memory → Prop
  | (status, address, m') => (status = .ok ∧ address = some block ∧ block ≠ 0 ∧ Enters m' block size) ∨
      (status ≠ .ok ∧ address = none ∧ m' = m)

/-- An error becomes `NULL`, and all else is a block that can be freed. -/
def MallocAtomic (size : NvU64) (status : NvStatus) : NvU64 × Memory → Prop
  | (ptr, m') => (status ≠ .ok → ptr = 0) ∧ (ptr ≠ 0 → Enters m' ptr size ∧
      ∃ n m'', nvlinkFree m' ptr true = (some (ptr, n), m'') ∧ m''.live ptr = none)

/-- Without a block the local variable happens to hold `NULL`; with one, the entry is made, or was there. -/
def AllMade (m : Memory) (size ptr : NvU64) (a : AllocAnswers) : Prop :=
  (a.block = 0 ∧ ptr = 0) ∨ (a.block ≠ 0 ∧ ((a.key = true ∧ a.value = true ∧ a.entry = true) ∨
    m.globalAllocations (keyName a.block) = some (OSNumber.withNumber size sizeofNvU64)))

section
variable {m m' : Memory} {size ptr : NvU64} {a : AllocAnswers}

theorem osAllocMem_no_block (h : a.block = 0) : osAllocMem m size a = (.errNoMemory, none, m) := by
  rw [osAllocMem, if_pos h, Memory.ioMallocZero, if_pos h]

/-- With a block, an entry that cannot be made changes nothing else. -/
theorem osAllocMem_of_block (m : Memory) (size : NvU64) (h : a.block ≠ 0) :
    ∃ m', osAllocMem m size a = (.ok, some a.block, m') ∧ m'.live a.block = some size ∧ m'.globalAllocations (keyName a.block) =
      if a.key = true ∧ a.value = true ∧ a.entry = true then some (OSNumber.withNumber size sizeofNvU64)
      else m.globalAllocations (keyName a.block) := by
  have hlive : (m.ioMallocZero size a.block).live a.block = some size := by
    rw [Memory.ioMallocZero, if_neg h]
    exact Function.update_self ..
  have hsame : (m.ioMallocZero size a.block).globalAllocations = m.globalAllocations := by
    rw [Memory.ioMallocZero, if_neg h]
  rw [osAllocMem, if_neg h]
  by_cases hmade : a.key = true ∧ a.value = true ∧ a.entry = true
  · obtain ⟨hkey, hvalue, hentry⟩ := hmade
    rw [hkey, hvalue, hentry]
    exact ⟨_, rfl, hlive, Function.update_self ..⟩
  · have hnot : ¬ (a.key && a.value && a.entry) = true := by
      rw [Bool.and_eq_true, Bool.and_eq_true, and_assoc]
      exact hmade
    rw [if_neg hnot, if_neg hmade]
    exact ⟨_, rfl, hlive, congrFun hsame _⟩

/-- A block that is entered is freed. -/
theorem nvlinkFree_of_enters (h : Enters m ptr size) :
    ∃ n m', nvlinkFree m ptr true = (some (ptr, n), m') ∧ m'.live ptr = none := by
  rw [nvlinkFree, osFreeMem, if_pos rfl, h.2]
  exact ⟨_, _, rfl, Function.update_self ..⟩

end

/-- Through both calls all is done or nothing exactly where what is not checked does not fail. -/
theorem nvlinkMalloc_allOrNothing_iff (m : Memory) (size ptr : NvU64) (a : AllocAnswers) :
    (AllocAtomic m size a.block (osAllocMem m size a) ∧
      MallocAtomic size (osAllocMem m size a).1 (nvlinkMalloc m size ptr a)) ↔ AllMade m size ptr a := by
  rw [nvlinkMalloc]
  by_cases hblock : a.block = 0
  · rw [osAllocMem_no_block hblock, AllMade, or_iff_left fun h => h.1 hblock, and_iff_right hblock]
    constructor
    · rintro ⟨-, hnull, -⟩
      exact hnull nofun
    · rintro rfl
      exact ⟨.inr ⟨nofun, rfl, rfl⟩, fun _ => rfl, fun h => absurd rfl h⟩
  · obtain ⟨m', halloc, hlive, hentry⟩ := osAllocMem_of_block m size hblock
    have henters : Enters m' a.block size ↔ (a.key = true ∧ a.value = true ∧ a.entry = true) ∨
        m.globalAllocations (keyName a.block) = some (OSNumber.withNumber size sizeofNvU64) := by
      rw [Enters, hentry, and_iff_right hlive]
      split_ifs with hmade
      · exact iff_of_true rfl (.inl hmade)
      · rw [or_iff_right hmade]
    rw [halloc, AllMade, or_iff_right fun h => hblock h.1, and_iff_right hblock, ← henters]
    constructor
    · rintro ⟨⟨-, -, -, h⟩ | ⟨herror, -⟩, -⟩
      · exact h
      · exact absurd rfl herror
    · intro h
      exact ⟨.inl ⟨rfl, rfl, hblock, h⟩, fun herror => absurd rfl herror, fun _ => ⟨h, nvlinkFree_of_enters h⟩⟩

/-- Without memory, what the local variable held is returned as a block; and a block without an entry
is not freed. -/
theorem nvlinkMalloc_returns_garbage :
    nvlinkMalloc .empty 16 0xdead ⟨0, true, true, true⟩ = (0xdead, .empty) ∧
    ¬ MallocAtomic 16 (osAllocMem .empty 16 ⟨0, true, true, true⟩).1
      (nvlinkMalloc .empty 16 0xdead ⟨0, true, true, true⟩) ∧
    (osAllocMem .empty 16 ⟨0x1000, true, true, false⟩).1 = .ok ∧
    (nvlinkFree (nvlinkMalloc .empty 16 0xdead ⟨0x1000, true, true, false⟩).2 0x1000 true).1 = none ∧
    ¬ AllocAtomic .empty 16 0x1000 (osAllocMem .empty 16 ⟨0x1000, true, true, false⟩) := by
  refine ⟨rfl, ?_, rfl, rfl, ?_⟩
  · rintro ⟨hnull, -⟩
    exact absurd (hnull nofun) (by decide)
  · rintro (⟨-, -, -, -, hentry⟩ | ⟨herror, -⟩)
    · cases hentry
    · exact herror rfl

end NVMac
