import NVMac.Types
import NVMac.Lib.Outcome

/-!
# The table of apertures

Both ports fill `nv->bars` when the device starts, and both look an address up there when the RM
asks for a mapping.
-/

namespace NVMac

def nvGpuNumBars : Nat := 3

def nvrmPcicfgNumBars : Nat := 6

def nvrmPcicfgBarOffset (i : Nat) : NvU32 := BitVec.ofNat 32 (0x10 + 4 * i)

structure NvAperture where
  offset : NvU32
  cpuAddress : NvU64
  size : NvU64
deriving DecidableEq, Repr

abbrev NvBars := Fin nvGpuNumBars → NvAperture

/-- The state starts as zeros. -/
def NvBars.zero : NvBars := fun _ => ⟨0, 0, 0⟩

def NvBars.set (bars : NvBars) (j : Nat) (aperture : NvAperture) : NvBars :=
  fun i => if i.1 = j then aperture else bars i

def NvBars.oneBar : NvBars := NvBars.zero.set 0 ⟨nvrmPcicfgBarOffset 0, 0x80000000, 0x2000⟩

/-- The first slot with the address, as `os_map_kernel_space` searches for it. -/
def NvBars.find (bars : NvBars) (start : NvU64) : Option (Fin nvGpuNumBars) :=
  Fin.find? fun barIndex => (bars barIndex).cpuAddress = start

/-- The loop that fills the table, from the slot `j` on, with what `aperture` reads for each
`currentBAR`. -/
def fillBars (aperture : Nat → Except Fault NvAperture) :
    List Nat → Nat → NvBars → Except Fault NvBars
  | [], _, bars => .ok bars
  | currentBAR :: rest, j, bars =>
    if j < nvGpuNumBars then do
      let bar ← aperture currentBAR
      fillBars aperture rest (j + 1) (bars.set j bar)
    else .ok bars

variable {bars : NvBars} {i j : Nat} {aperture : NvAperture} {start : NvU64}

theorem nvrmPcicfgBarOffset_inj (hi : i < nvrmPcicfgNumBars) (hj : j < nvrmPcicfgNumBars)
    (h : nvrmPcicfgBarOffset i = nvrmPcicfgBarOffset j) : i = j := by
  have hnat := congrArg BitVec.toNat h
  simp only [nvrmPcicfgBarOffset, nvrmPcicfgNumBars, BitVec.toNat_ofNat] at hi hj hnat
  omega

theorem NvBars.find_eq_some_iff {i : Fin nvGpuNumBars} : bars.find start = some i ↔
    (bars i).cpuAddress = start ∧ ∀ j < i, (bars j).cpuAddress ≠ start := by
  rw [NvBars.find, Fin.find?_eq_some_iff]
  simp only [decide_eq_true_iff, decide_eq_false_iff_not]

/-- A slot's own address is found, there or before. -/
theorem NvBars.exists_find (bars : NvBars) (j : Fin nvGpuNumBars) :
    ∃ i, bars.find (bars j).cpuAddress = some i := by
  rw [← Option.isSome_iff_exists, NvBars.find, Fin.isSome_find?_iff]
  exact ⟨j, decide_eq_true rfl⟩

theorem NvBars.set_self {i : Fin nvGpuNumBars} : bars.set i.1 aperture i = aperture := if_pos rfl

theorem NvBars.set_of_ne {i : Fin nvGpuNumBars} (h : i.1 ≠ j) : bars.set j aperture i = bars i :=
  if_neg h

/-- The loop reads one aperture for each slot it fills, in order, and leaves the other slots alone. -/
theorem fillBars_eq_ok_iff {aperture : Nat → Except Fault NvAperture} {bars' : NvBars} {n m : Nat} :
    fillBars aperture (List.range' n m) j bars = .ok bars' ↔ ∀ i : Fin nvGpuNumBars,
      (j ≤ i.1 ∧ i.1 < j + m → aperture (n + (i.1 - j)) = .ok (bars' i)) ∧
      (¬ (j ≤ i.1 ∧ i.1 < j + m) → bars' i = bars i) := by
  induction m generalizing n j bars with
  | zero =>
    constructor
    · intro h i
      obtain rfl : bars = bars' := Except.ok.inj h
      exact ⟨fun hi => absurd hi.2 (by omega), fun _ => rfl⟩
    · intro h
      exact congrArg Except.ok (funext fun i => ((h i).2 (by omega)).symm)
  | succ m ih =>
    rw [List.range'_succ, fillBars]
    by_cases hj : j < nvGpuNumBars
    · rw [if_pos hj]
      constructor
      · intro h i
        obtain ⟨bar, hbar, hrest⟩ := Outcome.bind_eq_ok h
        obtain ⟨hfilled, hleft⟩ := ih.1 hrest i
        rcases Nat.lt_trichotomy i.1 j with hlt | heq | hgt
        · refine ⟨fun hi => absurd hi.1 (by omega), fun _ => ?_⟩
          rw [hleft (by omega), NvBars.set_of_ne (by omega)]
        · subst heq
          refine ⟨fun _ => ?_, fun hi => absurd (by omega) hi⟩
          rw [hleft (by omega), NvBars.set_self, Nat.sub_self]
          exact hbar
        · refine ⟨fun hi => ?_, fun hi => ?_⟩
          · rw [← hfilled (by omega)]
            congr 1
            omega
          · rw [hleft (by omega), NvBars.set_of_ne (by omega)]
      · intro h
        have hbar := (h ⟨j, hj⟩).1 ⟨Nat.le_refl _, Nat.lt_add_of_pos_right (Nat.succ_pos m)⟩
        rw [Nat.sub_self, Nat.add_zero] at hbar
        rw [hbar, Outcome.ok_bind]
        refine ih.2 fun i => ⟨fun hi => ?_, fun hi => ?_⟩
        · rw [← (h i).1 (by omega)]
          congr 1
          omega
        · by_cases heq : i.1 = j
          · obtain rfl : i = ⟨j, hj⟩ := Fin.ext heq
            exact NvBars.set_self.symm
          · rw [(h i).2 (by omega), NvBars.set_of_ne heq]
    · rw [if_neg hj]
      constructor
      · intro h i
        obtain rfl : bars = bars' := Except.ok.inj h
        exact ⟨fun hi => absurd hi.1 (by omega), fun _ => rfl⟩
      · intro h
        exact congrArg Except.ok (funext fun i => ((h i).2 (by omega)).symm)

/-- There are registers for all slots. -/
theorem fillBars_all {aperture : Nat → Except Fault NvAperture} {bars' : NvBars} :
    fillBars aperture (List.range nvrmPcicfgNumBars) 0 bars = .ok bars' ↔
      ∀ i : Fin nvGpuNumBars, aperture i = .ok (bars' i) := by
  rw [List.range_eq_range', fillBars_eq_ok_iff]
  simp only [Nat.sub_zero, Nat.zero_add]
  refine forall_congr' fun i => ?_
  have hi : 0 ≤ i.1 ∧ i.1 < nvrmPcicfgNumBars := ⟨Nat.zero_le _, Nat.lt_trans i.2 (by decide)⟩
  exact ⟨fun h => h.1 hi, fun h => ⟨fun _ => h, fun hn => absurd hi hn⟩⟩

end NVMac
