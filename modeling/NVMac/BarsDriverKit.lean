import NVMac.Apertures
import NVMac.Lib.PciBars

/-!
# The table of apertures, filled by `PCIHorrorKit::Start_Impl`

The loop gives the slot `j` to the register `j`, whatever stands there, and keeps the register's 32
bits as they are.
-/

namespace NVMac.DriverKit
open Pci

def kIOPCIConfigurationOffsetBaseAddress0 : NvU64 := 0x10

def kIOPCIConfigurationOffsetBaseAddress1 : NvU64 := 0x14

def kIOPCIConfigurationOffsetBaseAddress2 : NvU64 := 0x18

/-- The outputs of `GetBARInfo` that the loop reads. They stay as they were where no BAR starts. -/
def getBARInfo (l : Layout) (register : Nat) (memoryIndex : Nat) (barSize : NvU64) : Nat × NvU64 :=
  match l.barAt register with
  | some bar => (l.memoryIndex register, bar.size)
  | none => (memoryIndex, barSize)

/-- Only base address registers are read here. -/
def configurationRead32 (l : Layout) (offset : NvU64) : NvU32 :=
  l.registers.getD ((offset.toNat - 0x10) / 4) 0

def barAddressOffset (currentBAR : Nat) : NvU64 :=
  match currentBAR with
  | 0 => kIOPCIConfigurationOffsetBaseAddress0
  | 1 => kIOPCIConfigurationOffsetBaseAddress1
  | 2 => kIOPCIConfigurationOffsetBaseAddress2
  | _ => kIOPCIConfigurationOffsetBaseAddress0

def barAperture (l : Layout) (currentBAR : Nat) : NvAperture where
  offset := nvrmPcicfgBarOffset currentBAR
  cpuAddress := (configurationRead32 l (barAddressOffset currentBAR)).setWidth 64
  size := (getBARInfo l currentBAR 0 0).2

/-- `nv->bars` when `Start_Impl` has run past its BAR loop. The search for a BAR before it only logs. -/
def startBars (l : Layout) : Except Fault NvBars :=
  fillBars (fun currentBAR => .ok (barAperture l currentBAR)) (List.range nvrmPcicfgNumBars) 0 .zero

/-- The first slots are the first memory BARs, and no register without a BAR of its own has a slot. -/
structure MemoryBarsFirst (l : Layout) (bars : NvBars) : Prop where
  first : ∀ (j : Fin nvGpuNumBars) r b, l.memoryBars[j.1]? = some (r, b) →
    bars j = ⟨nvrmPcicfgBarOffset r, b.address, b.size⟩
  taken : ∀ (j : Fin nvGpuNumBars) r, r < nvrmPcicfgNumBars → l.barAt r = none →
    (bars j).offset ≠ nvrmPcicfgBarOffset r

/-- A BAR starts at each of the first registers, and those that the table has memory BARs for hold
one whose type bits are all zero. -/
def SlotsPlain (l : Layout) : Prop :=
  ∀ j : Fin nvGpuNumBars, ∃ b, l.barAt j = some b ∧ (j.1 < l.memoryBars.length → b.Plain)

variable {l : Layout} {bars : NvBars}

theorem startBars_eq_ok_iff : startBars l = .ok bars ↔ ∀ j, bars j = barAperture l j := by
  rw [startBars, fillBars_all]
  exact forall_congr' fun j => ⟨fun h => (Except.ok.inj h).symm, fun h => congrArg _ h.symm⟩

theorem barAddressOffset_register :
    ∀ j, j < nvGpuNumBars → ((barAddressOffset j).toNat - 0x10) / 4 = j := by
  decide

theorem barAperture_cpuAddress (j : Fin nvGpuNumBars) :
    (barAperture l j).cpuAddress = (l.registers.getD j 0).setWidth 64 := by
  show (configurationRead32 l (barAddressOffset j)).setWidth 64 = _
  rw [configurationRead32, barAddressOffset_register j j.2]

theorem barAperture_size {r : Nat} {b : Bar} (h : l.barAt r = some b) : (barAperture l r).size = b.size := by
  show (getBARInfo l r 0 0).2 = b.size
  rw [getBARInfo, h]

theorem barAperture_cpuAddress_eq_iff {j : Fin nvGpuNumBars} {b : Bar} (hbar : l.barAt j = some b)
    (hb : b.isMemory = true) : (barAperture l j).cpuAddress = b.address ↔ b.Plain := by
  have hlt : j.1 < l.registers.length := Nat.lt_of_lt_of_eq (Nat.lt_trans j.2 (by decide)) l.width.symm
  have hregister := Layout.register_of_mem (Layout.barAt_eq_some_iff.1 hbar)
  rw [List.getElem?_eq_getElem hlt] at hregister
  rw [barAperture_cpuAddress, List.getD_eq_getElem?_getD, List.getElem?_eq_getElem hlt]
  exact Bar.register_eq_address_iff hb hregister.symm

theorem barAt_of_memoryBars {j r : Nat} {b : Bar} (h : l.memoryBars[j]? = some (r, b)) :
    l.barAt r = some b ∧ b.isMemory = true := by
  obtain ⟨himpl, hb⟩ := Layout.mem_memoryBars.1 (List.mem_of_getElem? h)
  exact ⟨Layout.barAt_eq_some_iff.2 himpl, hb⟩

/-- Plain registers come first, so the `j`th memory BAR is at the register `j`. -/
theorem SlotsPlain.memoryBars (h : SlotsPlain l) {j : Fin nvGpuNumBars} {r : Nat} {b : Bar}
    (hget : l.memoryBars[j.1]? = some (r, b)) : r = j ∧ b.Plain := by
  obtain ⟨hlt, -⟩ := List.getElem?_eq_some_iff.1 hget
  have hall : ∀ i ≤ j.1, ∃ b, (0 + i, b) ∈ l.memoryBars := by
    intro i hi
    obtain ⟨b', hbar, hplain⟩ := h ⟨i, Nat.lt_of_le_of_lt hi j.2⟩
    have hmem := (hplain (Nat.lt_of_le_of_lt hi hlt)).isMemory
    exact ⟨b', by rw [Nat.zero_add]; exact Layout.mem_memoryBars.2 ⟨Layout.barAt_eq_some_iff.1 hbar, hmem⟩⟩
  obtain ⟨b', hb'⟩ := exists_getElem?_of_sorted Layout.memoryBars_sorted (fun _ _ => Nat.zero_le _) hall
  rw [Nat.zero_add, hget] at hb'
  obtain ⟨rfl, rfl⟩ := Prod.mk.inj (Option.some.inj hb')
  obtain ⟨b', hbar, hplain⟩ := h j
  obtain rfl := Option.some.inj ((barAt_of_memoryBars hget).1.symm.trans hbar)
  exact ⟨rfl, hplain hlt⟩

/-- The table of `Start_Impl` is right exactly when the first registers are plain. -/
theorem startBars_memoryBarsFirst_iff (l : Layout) :
    (∃ bars, startBars l = .ok bars ∧ MemoryBarsFirst l bars) ↔ SlotsPlain l := by
  have hregisters : ∀ j : Fin nvGpuNumBars, j.1 < nvrmPcicfgNumBars := fun j => Nat.lt_trans j.2 (by decide)
  constructor
  · rintro ⟨bars, hbars, hfirst, htaken⟩ j
    have hslot := startBars_eq_ok_iff.1 hbars j
    cases hbar : l.barAt j with
    | none => exact absurd (congrArg NvAperture.offset hslot) (htaken j j (hregisters j) hbar)
    | some b =>
      refine ⟨b, rfl, fun hlt => ?_⟩
      obtain ⟨⟨r, b'⟩, hget⟩ : ∃ p, l.memoryBars[j.1]? = some p := ⟨_, List.getElem?_eq_getElem hlt⟩
      obtain ⟨hbar', hb'⟩ := barAt_of_memoryBars hget
      have heq := hslot.symm.trans (hfirst j r b' hget)
      have hr : j.1 = r := nvrmPcicfgBarOffset_inj (hregisters j)
        (Layout.placed_lt (Layout.mem_implemented.1 (Layout.barAt_eq_some_iff.1 hbar')).1)
        (congrArg NvAperture.offset heq)
      obtain rfl := Option.some.inj (hbar.symm.trans (hr ▸ hbar'))
      exact (barAperture_cpuAddress_eq_iff hbar hb').1 (congrArg NvAperture.cpuAddress heq)
  · intro h
    refine ⟨_, startBars_eq_ok_iff.2 fun _ => rfl, fun j r b hget => ?_, fun j r hr hnone heq => ?_⟩
    · obtain ⟨rfl, hplain⟩ := h.memoryBars hget
      obtain ⟨hbar, hb⟩ := barAt_of_memoryBars hget
      show NvAperture.mk _ (barAperture l j).cpuAddress (barAperture l j).size = _
      rw [(barAperture_cpuAddress_eq_iff hbar hb).2 hplain, barAperture_size hbar]
    · obtain ⟨b, hbar, -⟩ := h j
      obtain rfl := nvrmPcicfgBarOffset_inj (hregisters j) hr heq
      rw [hbar] at hnone
      cases hnone

/-- A 64-bit BAR in registers 0 and 1, two 32-bit BARs, an I/O BAR and an unimplemented one. -/
def mixedLayout : Layout where
  bars := [.memory64 0x80000000 true ⟨0x10000000, by decide⟩, .memory32 0x8000000 false false ⟨0x2000, by decide⟩,
    .memory32 0x8001000 false false ⟨0x1000, by decide⟩, .io 0x400 ⟨0x80, by decide⟩, .unimplemented]
  width := rfl

/-- The low half keeps its type bits and loses the high half, and the high half takes the slot of
the second BAR. -/
theorem startBars_mixedLayout :
    startBars mixedLayout = .ok (fun j => barAperture mixedLayout j) ∧
    mixedLayout.memoryBars[0]? = some (0, .memory64 0x80000000 true ⟨0x10000000, by decide⟩) ∧
    (Bar.memory64 0x80000000 true ⟨0x10000000, by decide⟩).address = 0x800000000 ∧
    barAperture mixedLayout 0 = ⟨0x10, 0xc, 0x10000000⟩ ∧
    barAperture mixedLayout 1 = ⟨0x14, 8, 0⟩ ∧
    ¬ ∃ bars, startBars mixedLayout = .ok bars ∧ MemoryBarsFirst mixedLayout bars := by
  refine ⟨startBars_eq_ok_iff.2 fun _ => rfl, by decide, by decide, by decide, by decide, ?_⟩
  rintro ⟨bars, hbars, -, htaken⟩
  exact htaken ⟨1, by decide⟩ 1 (by decide) (by decide) (by rw [startBars_eq_ok_iff.1 hbars]; rfl)

end NVMac.DriverKit
