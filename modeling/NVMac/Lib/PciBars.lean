import Mathlib.Data.BitVec

/-!
# Base address registers of a PCI device

A `Bar` is what one base address register says, or two for a 64-bit BAR, and a `Layout` is a list of
them that fills the six registers of a device. `placed` gives each BAR the number of its (low)
register, and `memoryIndex` its number among the implemented ones.
-/

namespace Pci

abbrev BarSize := {n : BitVec 64 // n ≠ 0}

/-- `base` is the address without the bits that an address of its kind has no room for. -/
inductive Bar
  | unimplemented
  | io (base : BitVec 30) (size : BarSize)
  | memory32 (base : BitVec 28) (below1M prefetchable : Bool) (size : BarSize)
  | memory64 (base : BitVec 60) (prefetchable : Bool) (size : BarSize)
deriving DecidableEq

namespace Bar

/-- The contents of its registers, the low one first. -/
def registers : Bar → List (BitVec 32)
  | unimplemented => [0]
  | io base _ => [BitVec.ofNat 32 (4 * base.toNat + 1)]
  | memory32 base below1M prefetchable _ =>
    [BitVec.ofNat 32 (16 * base.toNat + 8 * prefetchable.toNat + 2 * below1M.toNat)]
  | memory64 base prefetchable _ =>
    [BitVec.ofNat 32 (16 * (base.toNat % 2 ^ 28) + 8 * prefetchable.toNat + 4),
      BitVec.ofNat 32 (base.toNat / 2 ^ 28)]

def size : Bar → BitVec 64
  | unimplemented => 0
  | io _ size | memory32 _ _ _ size | memory64 _ _ size => size.1

/-- The physical address of a memory BAR. -/
def address : Bar → BitVec 64
  | memory32 base _ _ _ => BitVec.ofNat 64 (16 * base.toNat)
  | memory64 base _ _ => BitVec.ofNat 64 (16 * base.toNat)
  | _ => 0

def isMemory : Bar → Bool
  | memory32 .. | memory64 .. => true
  | _ => false

/-- A 32-bit memory BAR whose type bits are all zero. -/
def Plain : Bar → Prop
  | memory32 _ below1M prefetchable _ => below1M = false ∧ prefetchable = false
  | _ => False

instance : (b : Bar) → Decidable b.Plain
  | memory32 _ below1M prefetchable _ =>
    inferInstanceAs (Decidable (below1M = false ∧ prefetchable = false))
  | unimplemented | io .. | memory64 .. => .isFalse id

variable {b : Bar}

theorem registers_ne_nil : b.registers ≠ [] := by
  cases b <;> exact List.cons_ne_nil _ _

theorem size_eq_zero_iff : b.size = 0 ↔ b = unimplemented := by
  cases b with
  | unimplemented => exact iff_of_true rfl rfl
  | io base size => exact iff_of_false size.2 (fun h => by cases h)
  | memory32 base below1M prefetchable size => exact iff_of_false size.2 (fun h => by cases h)
  | memory64 base prefetchable size => exact iff_of_false size.2 (fun h => by cases h)

theorem Plain.isMemory (h : b.Plain) : b.isMemory = true := by
  cases b with
  | memory32 base below1M prefetchable size => rfl
  | _ => exact h.elim

theorem ne_unimplemented_of_isMemory (h : b.isMemory = true) : b ≠ unimplemented := by
  rintro rfl
  cases h

/-- The low register of a memory BAR reads as its address only if it has no type bits. -/
theorem register_eq_address_iff (hb : b.isMemory = true) {register : BitVec 32}
    (hr : b.registers[0]? = some register) : register.setWidth 64 = b.address ↔ b.Plain := by
  rw [← BitVec.toNat_inj]
  cases b with
  | memory32 base below1M prefetchable size =>
    obtain rfl := Option.some.inj hr
    have hbase := base.isLt
    cases below1M <;> cases prefetchable <;> simp [address, Plain] <;> omega
  | memory64 base prefetchable size =>
    obtain rfl := Option.some.inj hr
    have hbase := base.isLt
    refine iff_of_false (fun h => ?_) id
    cases prefetchable <;> simp [address] at h <;> omega
  | unimplemented => cases hb
  | io base size => cases hb

end Bar

/-- BARs with the number of their low register, from `n` on. -/
def place : Nat → List Bar → List (Nat × Bar)
  | _, [] => []
  | n, b :: bs => (n, b) :: place (n + b.registers.length) bs

structure Layout where
  bars : List Bar
  width : (bars.flatMap Bar.registers).length = 6

namespace Layout
variable (l : Layout)

def registers : List (BitVec 32) := l.bars.flatMap Bar.registers

def placed : List (Nat × Bar) := place 0 l.bars

def implemented : List (Nat × Bar) := l.placed.filter (·.2 ≠ .unimplemented)

/-- The memory BARs in register order. -/
def memoryBars : List (Nat × Bar) := l.placed.filter (·.2.isMemory)

/-- Memory indices number the implemented BARs. -/
def memoryIndex (register : Nat) : Nat := l.implemented.countP (·.1 < register)

/-- The BAR whose low register this is, if it is implemented. -/
def barAt (register : Nat) : Option Bar := (l.implemented.find? (·.1 = register)).map (·.2)

end Layout

/-! ### Register order -/

section
variable {bars : List Bar} {n r : Nat} {b : Bar}

theorem place_bounds {p : Nat × Bar} (hp : p ∈ place n bars) :
    n ≤ p.1 ∧ p.1 < n + (bars.flatMap Bar.registers).length := by
  induction bars generalizing n with
  | nil => cases hp
  | cons b₀ bs ih =>
    have hpos : 0 < b₀.registers.length := List.length_pos_of_ne_nil Bar.registers_ne_nil
    rw [List.flatMap_cons, List.length_append]
    rcases List.mem_cons.1 hp with rfl | hp
    · exact ⟨Nat.le_refl _, by show n < _; omega⟩
    · have htail := ih hp
      omega

theorem place_sorted : (place n bars).Pairwise (·.1 < ·.1) := by
  induction bars generalizing n with
  | nil => exact .nil
  | cons b₀ bs ih =>
    have hpos : 0 < b₀.registers.length := List.length_pos_of_ne_nil Bar.registers_ne_nil
    refine .cons (fun p hp => ?_) ih
    have hbounds := place_bounds hp
    show n < p.1
    omega

theorem place_register (hp : (r, b) ∈ place n bars) :
    (bars.flatMap Bar.registers)[r - n]? = b.registers[0]? := by
  induction bars generalizing n with
  | nil => cases hp
  | cons b₀ bs ih =>
    have hpos : 0 < b₀.registers.length := List.length_pos_of_ne_nil Bar.registers_ne_nil
    rw [List.flatMap_cons]
    rcases List.mem_cons.1 hp with hp | hp
    · obtain ⟨rfl, rfl⟩ := Prod.mk.inj hp
      rw [Nat.sub_self, List.getElem?_append_left hpos]
    · have hbounds := place_bounds hp
      have hle : b₀.registers.length ≤ r - n := Nat.le_sub_of_add_le' hbounds.1
      rw [List.getElem?_append_right hle, Nat.sub_sub]
      exact ih hp

/-- Of BARs in register order, the one with the `j`th number stands at `j` if no number is left out
below it. -/
theorem exists_getElem?_of_sorted {ps : List (Nat × Bar)} {j : Nat}
    (hsorted : ps.Pairwise (·.1 < ·.1)) (hfirst : ∀ p ∈ ps, n ≤ p.1)
    (hall : ∀ i ≤ j, ∃ b, (n + i, b) ∈ ps) : ∃ b, ps[j]? = some (n + j, b) := by
  induction ps generalizing n j with
  | nil =>
    obtain ⟨b, hb⟩ := hall 0 (Nat.zero_le _)
    cases hb
  | cons p ps ih =>
    obtain ⟨hp, hps⟩ := List.pairwise_cons.1 hsorted
    have hhead : p.1 = n := by
      obtain ⟨b, hb⟩ := hall 0 (Nat.zero_le _)
      have hn := hfirst p List.mem_cons_self
      rcases List.mem_cons.1 hb with hb | hb
      · rw [← hb]; rfl
      · have hlt : p.1 < n + 0 := hp _ hb
        omega
    cases j with
    | zero => exact ⟨p.2, by rw [← hhead]; rfl⟩
    | succ j =>
      obtain ⟨b, hb⟩ := ih (n := n + 1) (j := j) hps (fun q hq => hhead ▸ hp q hq) fun i hi => by
        obtain ⟨b, hb⟩ := hall (i + 1) (by omega)
        rcases List.mem_cons.1 hb with hb | hb
        · rw [← hb] at hhead
          exact absurd hhead (by show n + (i + 1) ≠ n; omega)
        · exact ⟨b, by rwa [Nat.add_right_comm, Nat.add_assoc]⟩
      exact ⟨b, by rw [List.getElem?_cons_succ, hb, Nat.add_right_comm, Nat.add_assoc]⟩

theorem eq_of_mem_sorted {ps : List (Nat × Bar)} {p q : Nat × Bar} (hsorted : ps.Pairwise (·.1 < ·.1))
    (hp : p ∈ ps) (hq : q ∈ ps) (h : p.1 = q.1) : p = q := by
  have hnodup : (ps.map Prod.fst).Nodup := List.pairwise_map.2 (hsorted.imp Nat.ne_of_lt)
  exact List.inj_on_of_nodup_map hnodup hp hq h

end

namespace Layout
variable {l : Layout} {r : Nat} {b : Bar}

theorem placed_lt (h : (r, b) ∈ l.placed) : r < 6 := by
  have hlt := (place_bounds h).2
  rw [l.width, Nat.zero_add] at hlt
  exact hlt

theorem mem_implemented : (r, b) ∈ l.implemented ↔ (r, b) ∈ l.placed ∧ b ≠ .unimplemented := by
  rw [implemented, List.mem_filter, decide_eq_true_iff]

theorem mem_memoryBars : (r, b) ∈ l.memoryBars ↔ (r, b) ∈ l.implemented ∧ b.isMemory := by
  rw [mem_implemented, memoryBars, List.mem_filter]
  constructor
  · rintro ⟨hplaced, hb⟩
    exact ⟨⟨hplaced, Bar.ne_unimplemented_of_isMemory hb⟩, hb⟩
  · rintro ⟨⟨hplaced, -⟩, hb⟩
    exact ⟨hplaced, hb⟩

theorem implemented_sorted : l.implemented.Pairwise (·.1 < ·.1) := place_sorted.filter _

theorem memoryBars_sorted : l.memoryBars.Pairwise (·.1 < ·.1) := place_sorted.filter _

theorem barAt_eq_some_iff : l.barAt r = some b ↔ (r, b) ∈ l.implemented := by
  constructor
  · intro h
    obtain ⟨p, hfind, rfl⟩ := Option.map_eq_some_iff.1 h
    obtain rfl : p.1 = r := by simpa using List.find?_some hfind
    exact List.mem_of_find?_eq_some hfind
  · intro h
    cases hfind : l.implemented.find? (·.1 = r) with
    | none => exact absurd (decide_eq_true rfl) (List.find?_eq_none.1 hfind _ h)
    | some p =>
      have hp : p.1 = r := by simpa using List.find?_some hfind
      have heq := eq_of_mem_sorted implemented_sorted (List.mem_of_find?_eq_some hfind) h hp
      rw [barAt, hfind, heq]
      rfl

theorem register_of_mem (h : (r, b) ∈ l.implemented) : l.registers[r]? = b.registers[0]? :=
  place_register (n := 0) (mem_implemented.1 h).1

end Layout

end Pci
