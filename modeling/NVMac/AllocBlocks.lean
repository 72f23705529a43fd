import NVMac.NvLink

/-!
# The registry where its objects cannot be made (`libc.cpp`, `nvlink.cpp`)

What `os_alloc_mem` and `os_free_mem`, and the two functions for links, do to memory is that of a heap
with two kinds of blocks (`Blocks`): those that are owned, with an entry, and those that have leaked,
because a key, a value or the entry could not be made. A free takes an owned block back and does
nothing to any other pointer, and a leaked block stays for good (`memRun_implements`).
-/

namespace NVMac
open Registry

/-- The sizes of the blocks. -/
structure Blocks where
  owned : NvU64 → Option NvU64
  leaked : NvU64 → Option NvU64

def AllocAnswers.made (a : AllocAnswers) : Bool := a.key && a.value && a.entry

namespace Blocks

def empty : Blocks := ⟨fun _ => none, fun _ => none⟩

def call (h : Blocks) : MemCall → Blocks
  | .alloc size a =>
    if a.block = 0 then h
    else if a.made then { h with owned := Function.update h.owned a.block (some size) }
    else { h with leaked := Function.update h.leaked a.block (some size) }
  | .free ptr key => if key then { h with owned := Function.update h.owned ptr none } else h

/-- The call of `IOFree`, with the eight bits of the size that the registry keeps. -/
def freed (h : Blocks) : MemCall → Option (NvU64 × NvU64)
  | .alloc .. => none
  | .free ptr key => if key then (h.owned ptr).map (ptr, OSNumber.withNumber · sizeofNvU64 |>.value) else none

end Blocks

/-- The functions that go to the registry. -/
inductive BlocksCall
  | os (l : MemCall)
  | nvlinkMalloc (size ptr : NvU64) (a : AllocAnswers)
  | nvlinkFree (ptr : NvU64) (key : Bool)

def BlocksCall.mem : BlocksCall → MemCall
  | os l => l
  | nvlinkMalloc size _ a => .alloc size a
  | nvlinkFree ptr key => .free ptr key

structure Implements (m : Memory) (h : Blocks) : Prop where
  live : ∀ p, m.live p = (h.owned p).or (h.leaked p)
  apart : ∀ p, h.owned p = none ∨ h.leaked p = none
  registered : Tracks keyName (OSNumber.withNumber · sizeofNvU64) h.owned m.globalAllocations

/-- The allocator hands out no live block, and no other live block has the key of the one that comes
or goes. -/
def Fresh (s : Memory × Blocks) (l : BlocksCall) : Prop :=
  (∀ size a, l.mem = .alloc size a → a.block ≠ 0 → s.1.live a.block = none) ∧ KeyAlone s.1 l.mem

section
variable {m m' : Memory} {h h' : Blocks} {p size ptr : NvU64} {a : AllocAnswers} {key : Bool} {l : BlocksCall}

theorem Implements.empty : Implements .empty .empty :=
  ⟨fun _ => rfl, fun _ => .inl rfl, Tracks.empty⟩

theorem Implements.alone (hm : Implements m h) (hp : Alone keyName m.live p) : Alone keyName h.owned p := by
  intro q b hq hkey
  refine hp q b ?_ hkey
  rw [hm.live q, hq]
  rfl

theorem Implements.lookup (hm : Implements m h) (hp : Alone keyName m.live ptr) :
    m.globalAllocations (keyName ptr) = (h.owned ptr).map (OSNumber.withNumber · sizeofNvU64) :=
  hm.registered.lookup (hm.alone hp)

theorem Implements.free (hm : Implements m h) (hp : Alone keyName m.live ptr) (howned : h.owned ptr = some size) :
    Implements ((m.ioFree ptr).removeObject (keyName ptr))
      { h with owned := Function.update h.owned ptr none } := by
  refine ⟨fun q => ?_, fun q => ?_, hm.registered.erase (hm.alone hp)⟩
  · show Function.update m.live ptr none q = (Function.update h.owned ptr none q).or (h.leaked q)
    by_cases hq : q = ptr
    · subst hq
      have hleaked : h.leaked q = none := (hm.apart q).resolve_left (by simp [howned])
      simp [hleaked]
    · rw [Function.update_of_ne hq, Function.update_of_ne hq, hm.live q]
  · by_cases hq : q = ptr
    · exact .inl (by simp [hq])
    · refine (hm.apart q).imp_left fun hnone => ?_
      show Function.update h.owned ptr none q = none
      rw [Function.update_of_ne hq, hnone]

end

end NVMac
