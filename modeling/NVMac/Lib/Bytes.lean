import Mathlib.Data.BitVec

/-!
# A byte-addressed store

`read` and `write` take and put little-endian numbers of `w` bytes. A number read is the one last
written if it was written there (`read_write`), and a write changes nothing exactly where its number
is there already (`write_eq_self_iff`). After writes that overlap, a read finds each byte as it was
written last (`read_writes_byte`).
-/

namespace Bytes

abbrev Store := Nat → BitVec 8

def read (m : Store) (o : Nat) : Nat → Nat
  | 0 => 0
  | w + 1 => (m o).toNat + 256 * read m (o + 1) w

def write (m : Store) (o w v : Nat) : Store :=
  fun a => if o ≤ a ∧ a < o + w then BitVec.ofNat 8 (v / 256 ^ (a - o)) else m a

variable {m m' : Store} {o w v a : Nat}

theorem write_of_not_mem (h : ¬ (o ≤ a ∧ a < o + w)) : write m o w v a = m a := if_neg h

theorem read_lt : read m o w < 256 ^ w := by
  induction w generalizing o with
  | zero => exact Nat.one_pos
  | succ w ih =>
    have hbyte := (m o).isLt
    have hrest : read m (o + 1) w < 256 ^ w := ih
    rw [read, Nat.pow_succ]
    omega

theorem read_eq_iff : read m o w = read m' o w ↔ ∀ i < w, m (o + i) = m' (o + i) := by
  induction w generalizing o with
  | zero => exact iff_of_true rfl fun i hi => absurd hi (Nat.not_lt_zero i)
  | succ w ih =>
    have hbyte := (m o).isLt
    have hbyte' := (m' o).isLt
    rw [read, read]
    constructor
    · intro h i hi
      have hlow : m o = m' o := BitVec.eq_of_toNat_eq (by omega)
      have hhigh : read m (o + 1) w = read m' (o + 1) w := by omega
      cases i with
      | zero => exact hlow
      | succ i =>
        have hi' := ih.1 hhigh i (by omega)
        rwa [Nat.add_assoc, Nat.add_comm 1 i] at hi'
    · intro h
      have hlow : m o = m' o := h 0 (Nat.succ_pos w)
      have hhigh : read m (o + 1) w = read m' (o + 1) w := ih.2 fun i hi => by
        have hi' := h (i + 1) (by omega)
        rwa [← Nat.add_assoc, Nat.add_right_comm] at hi'
      rw [hlow, hhigh]

theorem read_write : read (write m o w v) o w = v % 256 ^ w := by
  induction w generalizing o v m with
  | zero => exact (Nat.mod_one v).symm
  | succ w ih =>
    have hlow : write m o (w + 1) v o = BitVec.ofNat 8 v := by
      rw [write, if_pos (by omega), Nat.sub_self, Nat.pow_zero, Nat.div_one]
    have hhigh : read (write m o (w + 1) v) (o + 1) w = read (write m (o + 1) w (v / 256)) (o + 1) w := by
      refine read_eq_iff.2 fun i hi => ?_
      have hexp : o + 1 + i - o = (o + 1 + i - (o + 1)) + 1 := by omega
      rw [write, write, if_pos (by omega), if_pos (by omega), hexp, Nat.pow_succ, Nat.mul_comm,
        Nat.div_div_eq_div_mul]
    rw [read, hlow, hhigh, ih, Nat.pow_succ, Nat.mul_comm (256 ^ w), Nat.mod_mul]
    rfl

theorem write_eq_self_iff : write m o w v = m ↔ read m o w = v % 256 ^ w := by
  constructor
  · intro h
    rw [← read_write (m := m) (o := o), h]
  · intro h
    rw [← read_write (m := m) (o := o)] at h
    have hbytes := read_eq_iff.1 h
    funext a
    by_cases ha : o ≤ a ∧ a < o + w
    · have hsame := hbytes (a - o) (by omega)
      rw [Nat.add_sub_cancel' ha.1] at hsame
      exact hsame.symm
    · exact write_of_not_mem ha

/-! ### Writes one after the other -/

structure Write where
  offset : Nat
  width : Nat
  value : Nat

/-- The byte that a write puts at an address, if it reaches it. -/
def Write.byte (a : Nat) (u : Write) : Option (BitVec 8) :=
  if u.offset ≤ a ∧ a < u.offset + u.width then some (BitVec.ofNat 8 (u.value / 256 ^ (a - u.offset)))
  else none

def writes (m : Store) (us : List Write) : Store := us.foldl (fun m u => write m u.offset u.width u.value) m

/-- The byte put at an address last, or the one that was there. -/
def lastByte (m : Store) (us : List Write) (a : Nat) : BitVec 8 := (us.reverse.findSome? (·.byte a)).getD (m a)

theorem writes_eq (m : Store) (us : List Write) (a : Nat) : writes m us a = lastByte m us a := by
  unfold writes lastByte
  induction us using List.reverseRecOn with
  | nil => rfl
  | append_singleton us u ih =>
    rw [List.foldl_append, List.reverse_append, List.reverse_singleton, List.singleton_append,
      List.findSome?_cons]
    show write _ u.offset u.width u.value a = _
    by_cases ha : u.offset ≤ a ∧ a < u.offset + u.width
    · have hbyte : u.byte a = some (BitVec.ofNat 8 (u.value / 256 ^ (a - u.offset))) := if_pos ha
      rw [write, if_pos ha, hbyte]
      rfl
    · have hbyte : u.byte a = none := if_neg ha
      rw [write_of_not_mem ha, hbyte]
      exact ih

theorem read_byte {i : Nat} (hi : i < w) : BitVec.ofNat 8 (read m o w / 256 ^ i) = m (o + i) := by
  induction w generalizing o i with
  | zero => exact absurd hi (Nat.not_lt_zero i)
  | succ w ih =>
    have hbyte := (m o).isLt
    rw [read]
    cases i with
    | zero =>
      apply BitVec.eq_of_toNat_eq
      rw [Nat.pow_zero, Nat.div_one, BitVec.toNat_ofNat, Nat.add_mul_mod_self_left, Nat.mod_eq_of_lt hbyte]
      rfl
    | succ i =>
      have hrest : ((m o).toNat + 256 * read m (o + 1) w) / 256 = read m (o + 1) w := by omega
      rw [Nat.pow_succ', ← Nat.div_div_eq_div_mul, hrest, ih (Nat.lt_of_succ_lt_succ hi),
        Nat.add_assoc, Nat.add_comm 1]

theorem read_writes_byte {us : List Write} {i : Nat} (hi : i < w) :
    BitVec.ofNat 8 (read (writes m us) o w / 256 ^ i) = lastByte m us (o + i) := by
  rw [read_byte hi, writes_eq]

/-- Where no write reaches, nothing changes. -/
theorem lastByte_untouched {us : List Write} (h : ∀ u ∈ us, u.offset + u.width ≤ a) : lastByte m us a = m a := by
  have hnone : us.reverse.findSome? (·.byte a) = none := List.findSome?_eq_none_iff.2 fun u hu => by
    have hend := h u (List.mem_reverse.1 hu)
    exact if_neg (by omega)
  rw [lastByte, hnone]
  rfl

end Bytes
