import NVMac.Types

/-!
# The geometry of a page (`memory_driverkit.cpp`, `memory_kernel.cpp`)

Each port gives the RM a page size, a mask and a shift. The DriverKit port complements the page size
less one in 32 bits and widens the result, so that its mask clears the high half of an address. The
kernel port takes the mask of the system, which has the low bits, for one that has the high bits.
-/

namespace NVMac

/-- `IOVMPageSize`, in the kernel `PAGE_SIZE`. -/
def OsPage.pageSize (g : OsPage) : NvU64 := 1#64 <<< g.shift

structure PageGlobals where
  osPageSize : NvU32
  osPageMask : NvU64
  osPageShift : NvU8

namespace DriverKit

/-- `std::countr_zero` counts in `int`. -/
def pageGlobals (g : OsPage) : PageGlobals :=
  let osPageSize : NvU32 := g.pageSize.setWidth 32
  { osPageSize
    osPageMask := (~~~(osPageSize - 1)).setWidth 64
    osPageShift := osPageSize.ctz.setWidth 8 }

end DriverKit

namespace Kernel

def pageMask (g : OsPage) : NvU64 := g.pageSize - 1

def pageGlobals (g : OsPage) : PageGlobals where
  osPageSize := g.pageSize.setWidth 32
  osPageMask := pageMask g
  osPageShift := BitVec.ofNat 8 g.shift

end Kernel

def Port.pageGlobals : Port → OsPage → PageGlobals
  | .driverKit => DriverKit.pageGlobals
  | .kernel => Kernel.pageGlobals

/-- The three globals are about one page, and the mask keeps what is above it of the address. -/
structure Coherent (p : PageGlobals) (a : NvU64) : Prop where
  size : p.osPageSize.toNat = 2 ^ p.osPageShift.toNat
  masked : a &&& p.osPageMask = (a >>> p.osPageShift.toNat) <<< p.osPageShift.toNat
  whole : a = (a &&& p.osPageMask) + a % p.osPageSize.setWidth 64

section
variable {g : OsPage} {a : NvU64} {k i : Nat}

theorem OsPage.toNat_pageSize (g : OsPage) : g.pageSize.toNat = 2 ^ g.shift := by
  have h : 2 ^ g.shift < 2 ^ 32 := Nat.pow_lt_pow_right (by decide) g.shift_lt
  rw [pageSize, BitVec.toNat_shiftLeft, BitVec.toNat_ofNat, Nat.shiftLeft_eq]
  omega

theorem OsPage.pageSize_setWidth (g : OsPage) : g.pageSize.setWidth 32 = g.osPageSize := by
  apply BitVec.eq_of_toNat_eq
  have h : 2 ^ g.shift < 2 ^ 32 := Nat.pow_lt_pow_right (by decide) g.shift_lt
  rw [BitVec.toNat_setWidth, g.toNat_pageSize, g.toNat_osPageSize, Nat.mod_eq_of_lt h]

theorem OsPage.ctz_osPageSize (g : OsPage) : g.osPageSize.ctz.toNat = g.shift := by
  have hne : g.osPageSize ≠ 0#32 := by
    intro h
    have hpos := g.osPageSize_pos
    rw [h] at hpos
    exact absurd hpos (by decide)
  have hbit := BitVec.getLsbD_true_ctz_of_ne_zero hne
  rw [BitVec.getLsbD, g.toNat_osPageSize, Nat.testBit_two_pow] at hbit
  exact (of_decide_eq_true hbit).symm

/-- Both ports publish the size and the shift of the page. -/
theorem Port.pageGlobals_size (port : Port) (g : OsPage) : (port.pageGlobals g).osPageSize = g.osPageSize := by
  cases port <;> exact g.pageSize_setWidth

theorem Port.pageGlobals_shift (port : Port) (g : OsPage) :
    (port.pageGlobals g).osPageShift.toNat = g.shift := by
  have hlt := g.shift_lt
  cases port with
  | driverKit =>
    show ((g.pageSize.setWidth 32).ctz.setWidth 8).toNat = g.shift
    rw [g.pageSize_setWidth, BitVec.toNat_setWidth, g.ctz_osPageSize]
    omega
  | kernel =>
    show (BitVec.ofNat 8 g.shift).toNat = g.shift
    rw [BitVec.toNat_ofNat]
    omega

theorem toNat_shiftRight_shiftLeft (a : NvU64) (k : Nat) :
    ((a >>> k) <<< k).toNat = a.toNat - a.toNat % 2 ^ k := by
  have hdiv := Nat.div_add_mod' a.toNat (2 ^ k)
  have hlt := a.isLt
  rw [BitVec.toNat_shiftLeft, BitVec.toNat_ushiftRight, Nat.shiftRight_eq_div_pow, Nat.shiftLeft_eq]
  omega

/-- The mask decides: the rest follows from it. -/
theorem Port.coherent_iff (port : Port) (g : OsPage) (a : NvU64) : Coherent (port.pageGlobals g) a ↔
    a &&& (port.pageGlobals g).osPageMask = (a >>> g.shift) <<< g.shift := by
  constructor
  · intro h
    rw [h.masked, port.pageGlobals_shift]
  · intro h
    refine ⟨?_, ?_, ?_⟩
    · rw [port.pageGlobals_size, port.pageGlobals_shift, g.toNat_osPageSize]
    · rw [h, port.pageGlobals_shift]
    · apply BitVec.eq_of_toNat_eq
      have hpos := Nat.two_pow_pos g.shift
      have hle := Nat.mod_le a.toNat (2 ^ g.shift)
      have hlt := a.isLt
      have h32 : 2 ^ g.shift < 2 ^ 32 := Nat.pow_lt_pow_right (by decide) g.shift_lt
      rw [h, port.pageGlobals_size, BitVec.toNat_add, toNat_shiftRight_shiftLeft, BitVec.toNat_umod,
        BitVec.toNat_setWidth, g.toNat_osPageSize, Nat.mod_eq_of_lt (by omega : 2 ^ g.shift < 2 ^ 64)]
      omega

/-- The mask of the DriverKit port has the bits from the page up to the 32nd. -/
theorem getLsbD_osPageMask : (DriverKit.pageGlobals g).osPageMask.getLsbD i =
    (decide (i < 32) && decide (g.shift ≤ i)) := by
  have h32 : 2 ^ g.shift < 2 ^ 32 := Nat.pow_lt_pow_right (by decide) g.shift_lt
  have hpos := Nat.two_pow_pos g.shift
  have hlow : (g.osPageSize - 1).toNat = 2 ^ g.shift - 1 := by
    rw [BitVec.toNat_sub, g.toNat_osPageSize, show (1 : NvU32).toNat = 1 from rfl]
    omega
  show ((~~~(g.pageSize.setWidth 32 - 1)).setWidth 64).getLsbD i = _
  rw [g.pageSize_setWidth, BitVec.getLsbD_setWidth, BitVec.getLsbD_not, BitVec.getLsbD, hlow,
    Nat.testBit_two_pow_sub_one]
  by_cases hi : i < 32
  · by_cases hk : i < g.shift
    · simp [hi, hk, Nat.lt_trans hi (by decide : 32 < 64)]
    · simp [hi, hk, Nat.lt_trans hi (by decide : 32 < 64), Nat.not_lt.1 hk]
  · simp [hi]

theorem driverKit_masked_iff : a &&& (DriverKit.pageGlobals g).osPageMask = (a >>> g.shift) <<< g.shift ↔
    a.toNat < 2 ^ 32 := by
  have hbit : ∀ i, i < 64 → ((a >>> g.shift) <<< g.shift).getLsbD i = (decide (g.shift ≤ i) && a.getLsbD i) := by
    intro i hi
    rw [BitVec.getLsbD_shiftLeft, BitVec.getLsbD_ushiftRight]
    by_cases hk : g.shift ≤ i
    · simp [hi, hk, Nat.not_lt.2 hk, Nat.add_sub_cancel' hk]
    · simp [hk, Nat.not_le.1 hk]
  constructor
  · intro h
    refine Nat.lt_pow_two_of_testBit a.toNat fun i hi => ?_
    by_cases h64 : i < 64
    · have hat : (a &&& (DriverKit.pageGlobals g).osPageMask).getLsbD i = _ := congrArg (·.getLsbD i) h
      have hshift : g.shift ≤ i := Nat.le_of_lt (Nat.lt_of_lt_of_le g.shift_lt hi)
      rw [hbit i h64, BitVec.getLsbD_and, getLsbD_osPageMask, decide_eq_false (Nat.not_lt.2 hi),
        decide_eq_true hshift, Bool.false_and, Bool.and_false, Bool.true_and] at hat
      exact hat.symm
    · exact BitVec.getLsbD_of_ge a i (Nat.not_lt.1 h64)
  · intro h
    apply BitVec.eq_of_getLsbD_eq
    intro i hi
    rw [BitVec.getLsbD_and, getLsbD_osPageMask, hbit i hi]
    by_cases h32 : i < 32
    · simp [h32, Bool.and_comm]
    · have hhigh : a.getLsbD i = false :=
        Nat.testBit_lt_two_pow (Nat.lt_of_lt_of_le h (Nat.pow_le_pow_right (by decide) (Nat.not_lt.1 h32)))
      simp [hhigh]

theorem kernel_masked_iff : a &&& (Kernel.pageGlobals g).osPageMask = (a >>> g.shift) <<< g.shift ↔
    a = 0 := by
  have h32 : 2 ^ g.shift < 2 ^ 32 := Nat.pow_lt_pow_right (by decide) g.shift_lt
  have hpos := Nat.two_pow_pos g.shift
  have hmask : (g.pageSize - 1).toNat = 2 ^ g.shift - 1 := by
    rw [BitVec.toNat_sub, g.toNat_pageSize, show (1 : NvU64).toNat = 1 from rfl]
    omega
  have hand : (a &&& (Kernel.pageGlobals g).osPageMask).toNat = a.toNat % 2 ^ g.shift := by
    show (a &&& (g.pageSize - 1)).toNat = _
    rw [BitVec.toNat_and, hmask, Nat.and_two_pow_sub_one_eq_mod]
  rw [← BitVec.toNat_inj, ← BitVec.toNat_inj, hand, toNat_shiftRight_shiftLeft]
  show _ ↔ a.toNat = 0
  have hdiv := Nat.div_add_mod' a.toNat (2 ^ g.shift)
  have hmod := Nat.mod_lt a.toNat hpos
  constructor
  · intro h
    -- A multiple of the page size that is less than the page size.
    have hzero : a.toNat / 2 ^ g.shift = 0 := by
      by_contra hne
      have hge : 2 ^ g.shift ≤ a.toNat / 2 ^ g.shift * 2 ^ g.shift :=
        Nat.le_mul_of_pos_left _ (Nat.pos_of_ne_zero hne)
      omega
    rw [hzero, Nat.zero_mul] at hdiv
    omega
  · intro h
    rw [h, Nat.zero_mod]

end

/-- The addresses of which a port's mask keeps what it should: the low half of the address space, or
none but 0. -/
def Port.Maskable : Port → NvU64 → Prop
  | .driverKit, a => a.toNat < 2 ^ 32
  | .kernel, a => a = 0

/-- The three globals agree at an address exactly if it is one of those. -/
theorem pageGlobals_coherent_iff (port : Port) (g : OsPage) (a : NvU64) :
    Coherent (port.pageGlobals g) a ↔ port.Maskable a := by
  rw [port.coherent_iff]
  cases port with
  | driverKit => exact driverKit_masked_iff
  | kernel => exact kernel_masked_iff

/-- Pages of 16 KiB, at an address past 4 GiB and at the second page. -/
theorem pageGlobals_sixteenK :
    ((0x100004000 : NvU64) &&& (DriverKit.pageGlobals .sixteenK).osPageMask = 0x4000 ∧
      ¬ Coherent (DriverKit.pageGlobals .sixteenK) 0x100004000) ∧
    ((0x4001 : NvU64) &&& (Kernel.pageGlobals .sixteenK).osPageMask = 1 ∧
      ¬ Coherent (Kernel.pageGlobals .sixteenK) 0x4001) :=
  ⟨⟨by decide, fun h => absurd ((Port.driverKit.coherent_iff _ _).1 h) (by decide)⟩,
    by decide, fun h => absurd ((Port.kernel.coherent_iff _ _).1 h) (by decide)⟩

end NVMac
