import NVMac.Apertures

/-!
# The table of apertures, filled by `NVMacRMService::start`

Here the ranges of the device's memory are published as a list, one for each implemented BAR. Both
loops of `start` take the number of the register for a position in it, and neither asks whether the
list is that long. `start` comes back before them on three answers of the system, the first of them
a `bool` that it reads as a `kern_return_t`.
-/

namespace NVMac.Kernel

/-- A range that `IOPCIDevice` publishes. `register` is the configuration offset of its base address
register. -/
structure DeviceMemory where
  register : NvU32
  physicalAddress : NvU64
  length : NvU64
deriving DecidableEq, Repr

def getDeviceMemoryWithIndex (memory : List DeviceMemory) (index : Nat) : Option DeviceMemory :=
  memory[index]?

/-- What `IOService::start`, the cast of the provider and `open` answer. -/
structure StartAnswers where
  serviceStart : Bool
  provider : Bool
  deviceOpen : IOReturn
deriving DecidableEq, Repr

/-- A `bool` in a `kern_return_t`. -/
def kernReturn (b : Bool) : IOReturn := BitVec.ofNat 32 b.toNat

/-- The first loop, which stops at the first range that is not empty. -/
def probeBars (memory : List DeviceMemory) : List Nat → Except Fault Unit
  | [] => .ok ()
  | currentBAR :: rest =>
    match getDeviceMemoryWithIndex memory currentBAR with
    | none => .error .nullDereference
    | some barInfo => if barInfo.length = 0 then probeBars memory rest else .ok ()

def barAperture (memory : List DeviceMemory) (currentBAR : Nat) : Except Fault NvAperture :=
  match getDeviceMemoryWithIndex memory currentBAR with
  | none => .error .nullDereference
  | some barInfo => .ok ⟨nvrmPcicfgBarOffset currentBAR, barInfo.physicalAddress, barInfo.length⟩

/-- `nv->bars` when `start` has run past its BAR loops, or `none` if it came back before them. -/
def startBars (memory : List DeviceMemory) (a : StartAnswers) : Except Fault (Option NvBars) :=
  if kernReturn a.serviceStart ≠ kernSuccess then .ok none
  else if ¬ a.provider then .ok none
  else if a.deviceOpen ≠ kIOReturnSuccess then .ok none
  else do
    probeBars memory (List.range nvGpuNumBars)
    let bars ← fillBars (barAperture memory) (List.range nvrmPcicfgNumBars) 0 .zero
    pure (some bars)

/-- The loops are reached. -/
def StartAnswers.Passed (a : StartAnswers) : Prop :=
  a.serviceStart = false ∧ a.provider = true ∧ a.deviceOpen = kIOReturnSuccess

/-- No `NULL` is dereferenced, and each slot that there is a range for holds it. -/
def RangesPublished (memory : List DeviceMemory) : Except Fault (Option NvBars) → Prop
  | .error _ => False
  | .ok none => True
  | .ok (some bars) => ∀ (j : Fin nvGpuNumBars) m, memory[j.1]? = some m →
      bars j = ⟨m.register, m.physicalAddress, m.length⟩

/-- There is a range for each slot, from the register of the same number. -/
def SlotsOwnRegisters (memory : List DeviceMemory) : Prop :=
  ∀ j : Fin nvGpuNumBars, ∃ m, memory[j.1]? = some m ∧ m.register = nvrmPcicfgBarOffset j

section
variable {memory : List DeviceMemory} {a : StartAnswers} {bars : NvBars} {r : Nat}

theorem barAperture_eq_ok_iff {bar : NvAperture} : barAperture memory r = .ok bar ↔
    ∃ m, memory[r]? = some m ∧ bar = ⟨nvrmPcicfgBarOffset r, m.physicalAddress, m.length⟩ := by
  rw [barAperture, getDeviceMemoryWithIndex]
  cases memory[r]? with
  | none => exact iff_of_false (fun h => by cases h) (fun ⟨_, h, _⟩ => by cases h)
  | some m =>
    constructor
    · intro h
      exact ⟨m, rfl, (Except.ok.inj h).symm⟩
    · rintro ⟨m', hm', rfl⟩
      rw [Option.some.inj hm']

theorem fillBars_barAperture_iff :
    fillBars (barAperture memory) (List.range nvrmPcicfgNumBars) 0 .zero = .ok bars ↔
      ∀ j : Fin nvGpuNumBars, ∃ m, memory[j.1]? = some m ∧
        bars j = ⟨nvrmPcicfgBarOffset j, m.physicalAddress, m.length⟩ := by
  rw [fillBars_all]
  exact forall_congr' fun j => barAperture_eq_ok_iff

/-- The first loop comes back if the list is long enough for the second. -/
theorem probeBars_eq_ok {registers : List Nat} (h : ∀ r ∈ registers, ∃ m, memory[r]? = some m) :
    probeBars memory registers = .ok () := by
  induction registers with
  | nil => rfl
  | cons r rest ih =>
    obtain ⟨m, hm⟩ := h r List.mem_cons_self
    rw [probeBars, getDeviceMemoryWithIndex, hm]
    show (if m.length = 0 then _ else _) = _
    split
    · exact ih fun r' hr' => h r' (List.mem_cons_of_mem _ hr')
    · rfl

theorem startBars_of_passed (ha : a.Passed) : startBars memory a = (do
    probeBars memory (List.range nvGpuNumBars)
    let bars ← fillBars (barAperture memory) (List.range nvrmPcicfgNumBars) 0 .zero
    pure (some bars)) := by
  obtain ⟨hstart, hprovider, hopen⟩ := ha
  rw [startBars, hstart, hprovider, hopen]
  rfl

theorem startBars_of_not_passed (ha : ¬ a.Passed) : startBars memory a = .ok none := by
  unfold startBars
  split
  · rfl
  split
  · rfl
  split
  · rfl
  rename_i hstart hprovider hopen
  refine absurd ⟨?_, not_not.1 hprovider, not_not.1 hopen⟩ ha
  cases hservice : a.serviceStart with
  | false => rfl
  | true => exact absurd (by rw [hservice]; decide) hstart

theorem startBars_eq_ok_iff (ha : a.Passed) (bars? : Option NvBars) : startBars memory a = .ok bars? ↔
    ∃ bars, bars? = some bars ∧ ∀ j : Fin nvGpuNumBars, ∃ m, memory[j.1]? = some m ∧
      bars j = ⟨nvrmPcicfgBarOffset j, m.physicalAddress, m.length⟩ := by
  rw [startBars_of_passed ha]
  constructor
  · intro h
    obtain ⟨_, -, h⟩ := Outcome.bind_eq_ok h
    obtain ⟨bars, hbars, h⟩ := Outcome.bind_eq_ok h
    exact ⟨bars, (Except.ok.inj h).symm, fillBars_barAperture_iff.1 hbars⟩
  · rintro ⟨bars, rfl, hranges⟩
    have hprobe : probeBars memory (List.range nvGpuNumBars) = .ok () := probeBars_eq_ok fun r hr => by
      obtain ⟨m, hm, -⟩ := hranges ⟨r, List.mem_range.1 hr⟩
      exact ⟨m, hm⟩
    rw [hprobe, fillBars_barAperture_iff.2 hranges]
    rfl

end

/-- `start` comes back early, or fills the table as it should exactly when the ranges are those of
the first registers, with none left out. -/
theorem startBars_rangesPublished_iff (memory : List DeviceMemory) (a : StartAnswers) :
    RangesPublished memory (startBars memory a) ↔ (a.Passed → SlotsOwnRegisters memory) := by
  by_cases ha : a.Passed
  · simp only [ha, true_implies]
    constructor
    · intro h j
      cases hstart : startBars memory a with
      | error e =>
        rw [hstart] at h
        exact h.elim
      | ok bars? =>
        obtain ⟨bars, rfl, hranges⟩ := (startBars_eq_ok_iff ha bars?).1 hstart
        rw [hstart] at h
        obtain ⟨m, hm, hbars⟩ := hranges j
        exact ⟨m, hm, (congrArg NvAperture.offset ((h j m hm).symm.trans hbars))⟩
    · intro h
      choose m hm hregister using h
      rw [(startBars_eq_ok_iff ha _).2 ⟨_, rfl, fun j => ⟨m j, hm j, rfl⟩⟩]
      intro j m' hm'
      rw [← Option.some.inj ((hm j).symm.trans hm'), hregister j]
  · rw [startBars_of_not_passed ha]
    exact iff_of_true trivial fun h => absurd h ha

/-- The answers that `start` takes for success. -/
def StartAnswers.passing : StartAnswers := ⟨false, true, kIOReturnSuccess⟩

/-- A device whose first BAR takes two registers, as 64-bit BARs do. -/
def wideFirstBar : List DeviceMemory :=
  [⟨0x10, 0x800000000, 0x10000000⟩, ⟨0x18, 0x80000000, 0x2000⟩, ⟨0x1c, 0x80010000, 0x1000⟩]

/-- The second BAR gets the offset of the high half of the first; and one range is too few. -/
theorem startBars_wideFirstBar :
    (∃ bars, startBars wideFirstBar .passing = .ok (some bars) ∧
      bars ⟨1, by decide⟩ = ⟨0x14, 0x80000000, 0x2000⟩) ∧
    ¬ RangesPublished wideFirstBar (startBars wideFirstBar .passing) ∧
    startBars [⟨0x10, 0x80000000, 0x2000⟩] .passing = .error .nullDereference := by
  refine ⟨⟨_, rfl, rfl⟩, fun h => ?_, rfl⟩
  have hslot := h ⟨1, by decide⟩ ⟨0x18, 0x80000000, 0x2000⟩ rfl
  exact absurd (congrArg NvAperture.offset hslot) (by decide)

end NVMac.Kernel
