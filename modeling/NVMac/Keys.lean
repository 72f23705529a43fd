import NVMac.Types
import NVMac.Lib.CString
import NVMac.Lib.Digits
import NVMac.Lib.Registry

/-!
# Pointers in print

The library's dictionaries keep their entries under a pointer in print. The buffer of 18 bytes takes
`0x`, fifteen digits and the end, so that a pointer of sixteen digits loses the last one.
`keyString_ne_iff` says which two pointers have keys of their own.
-/

namespace NVMac
open CString Registry

def keyNameLength : Nat := 18

/-- What `snprintf` leaves of `%p` in a buffer of `keyNameLength` bytes, its end not counted. -/
def keyName (ptr : NvU64) : List Char :=
  (['0', 'x'] ++ Nat.toDigits 16 ptr.toNat).take (keyNameLength - 1)

/-- The number that the key prints. -/
def printed (ptr : NvU64) : Nat := if ptr.toNat < 2 ^ 60 then ptr.toNat else ptr.toNat / 16

variable {p q : NvU64}

theorem keyName_eq (ptr : NvU64) : keyName ptr = ['0', 'x'] ++ Nat.toDigits 16 (printed ptr) := by
  show ['0', 'x'] ++ (Nat.toDigits 16 ptr.toNat).take 15 = _
  unfold printed
  split
  · rename_i h
    rw [Digits.take_toDigits_of_lt (by decide) (by decide) (show ptr.toNat < 16 ^ 15 by omega)]
  · rename_i h
    have hlt := ptr.isLt
    rw [Digits.take_toDigits_of_le (by decide) (by decide) (show 16 ^ 15 ≤ ptr.toNat by omega) (by omega)]

theorem keyName_eq_iff : keyName p = keyName q ↔ printed p = printed q := by
  rw [keyName_eq, keyName_eq]
  constructor
  · intro h
    exact Digits.toDigits_inj (by decide) (by decide) (List.append_cancel_left h)
  · intro h
    rw [h]

/-- Pointers of at most fifteen digits have keys of their own. -/
theorem keyName_inj (hp : p.toNat < 2 ^ 60) (hq : q.toNat < 2 ^ 60) (h : keyName p = keyName q) :
    p = q := by
  rw [keyName_eq_iff, printed, printed, if_pos hp, if_pos hq] at h
  exact BitVec.eq_of_toNat_eq h

/-! ### The string in the buffer -/

/-- What `%p` prints. -/
def pointerText (ptr : NvU64) : List Char := ['0', 'x'] ++ Nat.toDigits 16 ptr.toNat

/-- The array starts as zeros. `none`: it is left. -/
def keyBuffer (ptr : NvU64) : Option (List Char) :=
  store '\x00' keyNameLength (List.replicate keyNameLength '\x00') (pointerText ptr)

/-- What the dictionary takes for the key. -/
def keyString (ptr : NvU64) : Option (List Char) := (keyBuffer ptr).map (scan '\x00' keyNameLength)

theorem nul_not_mem_pointerText (ptr : NvU64) : '\x00' ∉ pointerText ptr := by
  intro h
  rcases List.mem_append.mp h with hprefix | hdigits
  · exact absurd hprefix (by decide)
  · exact Digits.nul_not_mem_toDigits (by decide) (by decide) hdigits

theorem keyString_eq (ptr : NvU64) : keyString ptr = some (keyName ptr) := by
  have hroom : keyNameLength ≤ (List.replicate keyNameLength '\x00').length := Nat.le_of_eq List.length_replicate.symm
  have hlength : (keyName ptr).length ≤ keyNameLength := by
    rw [keyName, List.length_take]
    omega
  have hnul : '\x00' ∉ keyName ptr := fun h => nul_not_mem_pointerText ptr (List.mem_of_mem_take h)
  rw [keyString, keyBuffer, store_of_pos (by decide) hroom, Option.map_some]
  show some (scan '\x00' keyNameLength (keyName ptr ++ '\x00' :: _)) = _
  rw [scan_of_holds ⟨hnul, _, rfl⟩, List.take_of_length_le hlength]

/-! ### Keys of two pointers -/

/-- Two pointers of sixteen digits that differ in the last, or one of sixteen digits and what is left
of it without the last. -/
def Collide (p q : NvU64) : Prop :=
  (2 ^ 60 ≤ p.toNat ∧ 2 ^ 60 ≤ q.toNat ∧ p.toNat / 16 = q.toNat / 16) ∨
  (2 ^ 60 ≤ p.toNat ∧ p.toNat / 16 = q.toNat) ∨ (2 ^ 60 ≤ q.toNat ∧ q.toNat / 16 = p.toNat)

instance (p q : NvU64) : Decidable (Collide p q) := inferInstanceAs (Decidable (_ ∨ _))

theorem keyName_eq_iff_collide (hne : p ≠ q) : keyName p = keyName q ↔ Collide p q := by
  have hne' : p.toNat ≠ q.toNat := fun h => hne (BitVec.eq_of_toNat_eq h)
  have hp := p.isLt
  have hq := q.isLt
  rw [keyName_eq_iff, printed, printed, Collide]
  split_ifs <;> omega

/-- Two pointers have keys of their own exactly if they do not collide. -/
theorem keyString_ne_iff (p q : NvU64) (hne : p ≠ q) : keyString p ≠ keyString q ↔ ¬ Collide p q := by
  rw [keyString_eq, keyString_eq, ne_eq, Option.some_inj, keyName_eq_iff_collide hne]

theorem keyString_ne_aligned : keyString 0xfffffe0000001000 ≠ keyString 0xfffffe0000001010 :=
  (keyString_ne_iff 0xfffffe0000001000 0xfffffe0000001010 (by decide)).mpr (by decide)

/-- Two addresses of the kernel that are eight bytes apart have one key, and it is also that of what is
left of them without their last digit. -/
theorem keyString_not_injective :
    keyString 0xfffffe0000001000 = keyString 0xfffffe0000001008 ∧
    keyString 0xfffffe0000001008 = keyString 0xfffffe000000100 ∧
    ¬ ∀ p q, p ≠ q → keyString p ≠ keyString q := by
  have hsame : keyString 0xfffffe0000001000 = keyString 0xfffffe0000001008 := by
    rw [keyString_eq, keyString_eq]
    exact congrArg some ((keyName_eq_iff_collide (by decide)).mpr (by decide))
  have hleft : keyString 0xfffffe0000001008 = keyString 0xfffffe000000100 := by
    rw [keyString_eq, keyString_eq]
    exact congrArg some ((keyName_eq_iff_collide (by decide)).mpr (by decide))
  exact ⟨hsame, hleft, fun h => h _ _ (by decide) hsame⟩

/-- A pointer is alone under its key exactly if no live one collides with it. -/
theorem alone_keyName_iff {β : Type} {live : NvU64 → Option β} :
    Alone keyName live p ↔ ∀ q b, live q = some b → q ≠ p → ¬ Collide q p := by
  constructor
  · intro h q b hq hne hcollide
    exact hne (h q b hq ((keyName_eq_iff_collide hne).mpr hcollide))
  · intro h q b hq hkey
    by_contra hne
    exact h q b hq hne ((keyName_eq_iff_collide hne).mp hkey)

theorem not_collide_of_short (hp : p.toNat < 2 ^ 60) (hq : q.toNat < 2 ^ 60) : ¬ Collide p q := by
  unfold Collide
  omega

theorem alone_of_short {β : Type} {live : NvU64 → Option β} (hlive : ∀ q b, live q = some b → q.toNat < 2 ^ 60)
    (hp : p.toNat < 2 ^ 60) : Alone keyName live p :=
  alone_keyName_iff.mpr fun q b hq _ => not_collide_of_short (hlive q b hq) hp

end NVMac
