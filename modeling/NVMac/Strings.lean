import NVMac.Types
import NVMac.Lib.CString
import NVMac.Lib.Format

/-!
# Strings (`libc.cpp`)

`os_string_copy` takes the length of what is in the destination for its size. `os_snprintf` hands its
`va_list` to `snprintf`, which takes it for the first argument.
-/

namespace NVMac
open CString Format

/-- A byte in a comparison, an `unsigned char`. -/
def byteOrder (c : NvU8) : Int := c.toNat

/-- The pointer that is returned, and the destination. `none`: a buffer is left. -/
def osStringCopy (dstAddress : NvU64) (dst src : List NvU8) : Option (NvU64 × List NvU8) := do
  let hack ← strlen 0 dst
  let (_, dst) ← strlcpy 0 dst src hack
  return (dstAddress, dst)

def osStringLength (str : List NvU8) : Option NvU32 := (strlen 0 str).map (BitVec.ofNat 32)

def osStringCompare (s1 s2 : List NvU8) : Option Int := strcmp 0 byteOrder s1 s2

/-- The destination holds the source, and nothing changes after its terminator. -/
def CopiedTo (dstAddress : NvU64) (dst src : List NvU8) (n : Nat) : Option (NvU64 × List NvU8) → Prop
  | none => False
  | some (address, dst') => address = dstAddress ∧ osStringCompare dst' src = some 0 ∧
      osStringLength dst' = osStringLength src ∧ osStringLength src ≠ none ∧
      dst'.length = dst.length ∧ dst'.drop (n + 1) = dst.drop (n + 1)

section
variable {dstAddress : NvU64} {dst src text : List NvU8} {n hack : Nat}

theorem byteOrder_injective : Function.Injective byteOrder :=
  fun _ _ h => BitVec.eq_of_toNat_eq (Int.ofNat.inj h)

theorem osStringCopy_unterminated (h : strlen 0 dst = none) : osStringCopy dstAddress dst src = none := by
  rw [osStringCopy, h]
  rfl

theorem osStringCopy_eq (hdst : strlen 0 dst = some hack) (hsrc : Holds 0 src text) :
    osStringCopy dstAddress dst src = (store 0 hack dst text).map (dstAddress, ·) := by
  rw [osStringCopy, hdst]
  show (strlcpy 0 dst src hack >>= _) = _
  rw [strlcpy_of_holds hsrc]
  cases store 0 hack dst text <;> rfl

/-- Where the destination comes to hold a string, it is the right one if it is the source's. -/
theorem copiedTo_iff {dst' text' : List NvU8} (hsrc : Holds 0 src text) (hdst' : Holds 0 dst' text')
    (hlength : dst'.length = dst.length) (hdrop : dst'.drop (text'.length + 1) = dst.drop (text'.length + 1)) :
    CopiedTo dstAddress dst src text.length (some (dstAddress, dst')) ↔ text' = text := by
  constructor
  · intro h
    exact (strcmp_eq_zero_iff byteOrder_injective hdst' hsrc).mp h.2.1
  · rintro rfl
    refine ⟨rfl, strcmp_self hdst' hsrc, ?_, ?_, hlength, hdrop⟩
    · rw [osStringLength, osStringLength, strlen_of_holds hdst', strlen_of_holds hsrc]
    · rw [osStringLength, strlen_of_holds hsrc]
      nofun

end

/-- A copy is right exactly where the destination already holds a longer string, or both are empty. -/
theorem osStringCopy_copies_iff (dstAddress : NvU64) (dst src : List NvU8) (n : Nat)
    (hsrc : strlen 0 src = some n) (hroom : n < dst.length) :
    CopiedTo dstAddress dst src n (osStringCopy dstAddress dst src) ↔
      ∃ hack, strlen 0 dst = some hack ∧ (n < hack ∨ (n = 0 ∧ hack = 0)) := by
  obtain ⟨text, htext, rfl⟩ := holds_of_strlen hsrc
  cases hdst : strlen 0 dst with
  | none =>
    rw [osStringCopy_unterminated hdst]
    exact iff_of_false id fun ⟨hack, h, _⟩ => by cases h
  | some hack =>
    obtain ⟨old, hold, rfl⟩ := holds_of_strlen hdst
    rw [osStringCopy_eq hdst htext]
    have hcond : (∃ hack, some old.length = some hack ∧ (text.length < hack ∨ (text.length = 0 ∧ hack = 0))) ↔
        (text.length < old.length ∨ (text.length = 0 ∧ old.length = 0)) := by simp
    rw [hcond]
    rcases Nat.eq_zero_or_pos old.length with hzero | hpos
    · -- Nothing is copied, and the destination stays empty.
      obtain rfl := List.length_eq_zero_iff.mp hzero
      show CopiedTo dstAddress dst src text.length (some (dstAddress, dst)) ↔ _
      rw [copiedTo_iff htext hold rfl rfl]
      constructor
      · rintro rfl
        exact .inr ⟨rfl, rfl⟩
      · rintro (hlt | ⟨hempty, -⟩)
        · exact absurd hlt (Nat.not_lt_zero _)
        · exact (List.length_eq_zero_iff.mp hempty).symm
    · rw [store_of_pos hpos (Nat.le_of_lt hold.length_lt)]
      have hlen : (text.take (old.length - 1)).length = min (old.length - 1) text.length := List.length_take
      have hroom := hold.length_lt
      have hholds : Holds 0 (text.take (old.length - 1) ++
          0 :: dst.drop ((text.take (old.length - 1)).length + 1)) (text.take (old.length - 1)) :=
        ⟨fun hmem => htext.1 (List.mem_of_mem_take hmem), _, rfl⟩
      show CopiedTo dstAddress dst src text.length (some (dstAddress, _)) ↔ _
      rw [copiedTo_iff htext hholds ?_ ?_, List.take_eq_self_iff]
      · omega
      · simp only [List.length_append, List.length_cons, List.length_drop]
        omega
      · rw [← List.singleton_append, ← List.append_assoc]
        exact List.drop_left' (by rw [List.length_append, List.length_singleton])

theorem osStringCopy_copies_shorter :
    CopiedTo 0x1000 [104, 105, 33, 0] [97, 0] 1 (osStringCopy 0x1000 [104, 105, 33, 0] [97, 0]) :=
  (osStringCopy_copies_iff 0x1000 [104, 105, 33, 0] [97, 0] 1 (by decide) (by decide)).mpr
    ⟨3, by decide, .inl (by decide)⟩

/-- An empty destination stays empty, one of the same length loses the last character, and the end of
one without a terminator is passed. -/
theorem osStringCopy_loses :
    osStringCopy 0x1000 [0, 0, 0, 0] [97, 98, 0] = some (0x1000, [0, 0, 0, 0]) ∧
    osStringCopy 0x1000 [120, 121, 0, 0] [97, 98, 0] = some (0x1000, [97, 0, 0, 0]) ∧
    osStringCopy 0x1000 [120, 120, 120, 120] [97, 98, 0] = none ∧
    ¬ CopiedTo 0x1000 [0, 0, 0, 0] [97, 98, 0] 2 (osStringCopy 0x1000 [0, 0, 0, 0] [97, 98, 0]) :=
  ⟨by decide, by decide, by decide, fun h => absurd h.2.1 (by decide)⟩

/-! ### Formatting -/

/-- `snprintf` is called with the `va_list` as its only argument. -/
def osSnprintf (str : List Char) (size : NvU32) (fmt : List Char) (args : List Arg) : Option (Nat × List Char) :=
  snprintf str size.toNat fmt [.vaList args]

/-- The result is that of `vsnprintf`: the length of the text, whose start is stored. -/
def FormatsAll (str : List Char) (size : NvU32) (fmt : List Char) (args : List Arg)
    (result : Option (Nat × List Char)) : Prop :=
  result = vsnprintf str size.toNat fmt args ∧
  ∃ text str', format fmt args = some text ∧ result = some (text.length, str') ∧
    (size = 0 → str' = str) ∧
    (size ≠ 0 → str' = text.take (size.toNat - 1) ++ '\x00' :: str.drop ((text.take (size.toNat - 1)).length + 1))

section
variable {str fmt : List Char} {size : NvU32} {args : List Arg}

theorem formatsAll_vsnprintf (hmatch : Matches fmt args) (hroom : size.toNat ≤ str.length) :
    FormatsAll str size fmt args (vsnprintf str size.toNat fmt args) := by
  obtain ⟨text, htext⟩ := hmatch.exists_format
  refine ⟨rfl, text, ?_⟩
  rw [vsnprintf, snprintf_eq htext]
  rcases Nat.eq_zero_or_pos size.toNat with hzero | hpos
  · have hsize : size = 0 := BitVec.eq_of_toNat_eq hzero
    refine ⟨str, htext, ?_, fun _ => rfl, fun hne => absurd hsize hne⟩
    rw [hzero, store_zero]
    rfl
  · refine ⟨_, htext, ?_, fun hsize => ?_, fun _ => rfl⟩
    · rw [store_of_pos hpos hroom]
      rfl
    · rw [hsize] at hpos
      exact absurd hpos (by decide)

end

/-- `os_snprintf` formats as it should exactly where there is no argument to format. -/
theorem osSnprintf_formatsAll_iff (str : List Char) (size : NvU32) (fmt : List Char) (args : List Arg)
    (hmatch : Matches fmt args) (hroom : size.toNat ≤ str.length) :
    FormatsAll str size fmt args (osSnprintf str size fmt args) ↔ args = [] := by
  have hlist := format_vaList args hmatch
  constructor
  · rintro ⟨-, text, str', -, hresult, -⟩
    by_contra hargs
    rw [if_neg hargs] at hlist
    rw [osSnprintf, snprintf, hlist] at hresult
    cases hresult
  · intro hargs
    rw [if_pos hargs] at hlist
    have hsame : osSnprintf str size fmt args = vsnprintf str size.toNat fmt args := by
      rw [osSnprintf, vsnprintf, snprintf, snprintf, hlist]
    rw [hsame]
    exact formatsAll_vsnprintf hmatch hroom

theorem osSnprintf_formatsAll_percent : FormatsAll ['a', 'b', 'c'] 2 ['%', '%', '!'] []
    (osSnprintf ['a', 'b', 'c'] 2 ['%', '%', '!'] []) :=
  (osSnprintf_formatsAll_iff ['a', 'b', 'c'] 2 ['%', '%', '!'] [] ⟨_, rfl, rfl⟩ (by decide)).mpr rfl

/-- A number is not printed. -/
theorem osSnprintf_number :
    vsnprintf ['a', 'b', 'c'] 3 ['%', 'd'] [.int 42] = some (2, ['4', '2', '\x00']) ∧
    osSnprintf ['a', 'b', 'c'] 3 ['%', 'd'] [.int 42] = none ∧
    ¬ FormatsAll ['a', 'b', 'c'] 3 ['%', 'd'] [.int 42] (osSnprintf ['a', 'b', 'c'] 3 ['%', 'd'] [.int 42]) :=
  ⟨by decide, rfl, fun ⟨_, _, _, _, h, _⟩ => by cases h⟩

end NVMac
