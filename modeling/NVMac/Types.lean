import Mathlib.Data.BitVec

/-!
# Integers, statuses and faults

The integer types of the RM interface are bit vectors, so that every product, sum and cast of the
source has the width it has there. `Fault` lists the ways in which a function of the library fails
to come back: what C++ leaves undefined, a dereferenced `NULL`, a method called on an object of
another class, an object released more often than it was retained, and the library's own `panic`.
-/

namespace NVMac

abbrev NvU8 := BitVec 8
abbrev NvU32 := BitVec 32
abbrev NvU64 := BitVec 64
abbrev NvBool := Bool

/-- `IOReturn` and `kern_return_t`. -/
abbrev IOReturn := BitVec 32

def kernSuccess : IOReturn := 0

def kIOReturnSuccess : IOReturn := 0

def kIOReturnNoDevice : IOReturn := 0xe00002c0

inductive NvStatus
  | ok | errNoMemory | errTimeoutRetry | errGeneric | errNotSupported
deriving DecidableEq, Repr

inductive Port
  | driverKit | kernel
deriving DecidableEq, Repr

/-- The status that a call returned, if it did not wait, and the state it left; `none` when it broke
the contract of the object that the system provides. -/
abbrev SyncAnswer (σ : Type) := Option (Option NvStatus × σ)

inductive Fault
  | signedOverflow | nullDereference | wrongClass | overRelease | panic
deriving DecidableEq, Repr

/-- The memory types of `os/nv_memory_type.h` that the library tells apart. -/
inductive NvMemoryType
  | cached | writecombined | writeback | uncached | default | other
deriving DecidableEq, Repr

/-- The OS page: a power of two that the 32-bit `os_page_size` can hold. -/
structure OsPage where
  shift : Nat
  shift_lt : shift < 32

def OsPage.sixteenK : OsPage := ⟨14, by decide⟩

def OsPage.osPageSize (g : OsPage) : NvU32 := 1#32 <<< g.shift

theorem OsPage.toNat_osPageSize (g : OsPage) : g.osPageSize.toNat = 2 ^ g.shift := by
  have h : 2 ^ g.shift < 2 ^ 32 := Nat.pow_lt_pow_right (by decide) g.shift_lt
  simp only [osPageSize, BitVec.toNat_shiftLeft, BitVec.toNat_ofNat, Nat.shiftLeft_eq]
  omega

theorem OsPage.osPageSize_pos (g : OsPage) : 0 < g.osPageSize.toNat := by
  rw [g.toNat_osPageSize]; exact Nat.two_pow_pos _

/-- `x << n` on a `w`-bit operand. C++ gives it no value from `n = w` on; `wide` stands for what the
compiled shift yields there. -/
def shiftLeft {w : Nat} (x : BitVec w) (n : Nat) (wide : BitVec w) : BitVec w :=
  if n < w then x <<< n else wide

theorem shiftLeft_one_sub_one {w n : Nat} (wide : BitVec w) (h : n < w) :
    shiftLeft 1#w n wide - 1#w = BitVec.ofNat w (2 ^ n - 1) := by
  have h2 : 2 ^ n < 2 ^ w := Nat.pow_lt_pow_right (by omega) h
  have h1 : 1 ≤ 2 ^ n := Nat.one_le_two_pow
  have hw : 1 < 2 ^ w := Nat.one_lt_two_pow (by omega)
  rw [shiftLeft, if_pos h]
  apply BitVec.eq_of_toNat_eq
  simp only [BitVec.toNat_sub, BitVec.toNat_shiftLeft, BitVec.toNat_ofNat, Nat.shiftLeft_eq]
  have hwrap : 2 ^ w - 1 + 2 ^ n = 2 ^ n - 1 + 2 ^ w := by omega
  rw [Nat.mod_eq_of_lt hw, Nat.one_mul, Nat.mod_eq_of_lt h2, hwrap, Nat.add_mod_right]

end NVMac
