import NVMac.BarsKernel
import NVMac.ServiceDriverKit

/-!
# The life of the kernel service (`NVMacRMService.cpp`)

The callbacks and what they share are those of the DriverKit service. `start` is declared `bool` and
works with `kern_return_t`, whose zero is success: it takes the success of `IOService::start` for a
failure, and says `true` where it fails and `false` where it does not.
-/

namespace NVMac.Kernel
open Outcome
open DriverKit (Driver NvDarwinState)

/-- `setBusLeadEnable` and `setMemoryEnable` change bits of the command register. -/
def setCommand (bits : BitVec 16) (enable : Bool) (d : Driver) : Driver :=
  { d with
    command := if enable then d.command ||| bits else d.command &&& ~~~bits
    closedAccess := d.closedAccess || !d.isOpen }

def setBusLeadEnable : Bool → Driver → Driver := setCommand DriverKit.kIOPCICommandBusLead

def setMemoryEnable : Bool → Driver → Driver := setCommand DriverKit.kIOPCICommandMemorySpace

/-- The text is that of the other port. -/
def init (superResult newZero : Bool) (d : Driver) : Bool × Driver := DriverKit.init superResult newZero d

/-- The text is that of the other port. -/
def free (d : Driver) : Except Fault Driver := DriverKit.free d

/-- A `kern_return_t` where a `bool` is returned. -/
def returned (ret : IOReturn) : Bool := ret ≠ 0

/-- `Stop` of the superclass, called on the first three exits, touches nothing that is modelled here,
as what `start` does for the RM does not. -/
def start (memory : List DeviceMemory) (a : StartAnswers) (d : Driver) : Except Fault (Bool × Driver) :=
  let ret := kernReturn a.serviceStart
  if ret ≠ kernSuccess then .ok (returned ret, d)
  else do
    let state ← d.state
    if ¬ a.provider then pure (returned kIOReturnNoDevice, d)
    else if a.deviceOpen ≠ kIOReturnSuccess then pure (returned kIOReturnNoDevice, d)
    else
      let d := setBusLeadEnable true (setMemoryEnable true d.deviceOpen)
      probeBars memory (List.range nvGpuNumBars)
      let d := { d with nvdState := some { state with device := true } }.deviceRetain
      let _ ← fillBars (barAperture memory) (List.range nvrmPcicfgNumBars) 0 .zero
      pure (returned a.deviceOpen, d)

def stop (d : Driver) : Except Fault Driver := do
  let state ← d.state
  if state.device then
    let d := setMemoryEnable false (setBusLeadEnable false d.deviceClose)
    pure { d with nvdState := some { state with device := false } }
  else pure d

/-! ### Lifetimes -/

inductive Stage
  | outside | initFailed | initialized | started | notStarted | stopped
deriving DecidableEq

structure Life where
  driver : Driver
  stage : Stage

inductive Callback
  | init (superResult newZero : Bool)
  | start (memory : List DeviceMemory) (a : StartAnswers)
  | stop
  | free

/-- What the callback returns, if it is a `bool`. -/
abbrev LifeAnswer := Except Fault (Bool × Life)

def lifeCall (r : Life) : Callback → LifeAnswer
  | .init superResult newZero =>
    let (ok, d) := init superResult newZero r.driver
    .ok (ok, ⟨d, if ok then .initialized else .initFailed⟩)
  | .start memory a => do
    let (ok, d) ← start memory a r.driver
    pure (ok, ⟨d, if ok then .started else .notStarted⟩)
  | .stop => do
    let d ← stop r.driver
    pure (true, ⟨d, .stopped⟩)
  | .free => do
    let d ← free r.driver
    pure (true, ⟨d, .outside⟩)

def lifeMachine : Machine Life Callback LifeAnswer where
  call := lifeCall
  next answer := answer.toOption.map (·.2)

/-- The order in which the system calls. -/
def InOrder (r : Life) : Callback → Prop
  | .init .. => r.stage = .outside
  | .start .. => r.stage = .initialized
  | .stop => r.stage = .started
  | .free => r.stage = .initFailed ∨ r.stage = .notStarted ∨ r.stage = .stopped

def StartAnswers.Granted (a : StartAnswers) : Prop :=
  a.serviceStart = true ∧ a.provider = true ∧ a.deviceOpen = kIOReturnSuccess

/-- The device is open, retained once and published. -/
def Held (d : Driver) : Prop := d.isOpen = true ∧ d.retains = 1 ∧ d.nvdState = some ⟨true⟩

/-- It is none of these. -/
def Clear (d : Driver) : Prop := d.isOpen = false ∧ d.retains = 0 ∧ d.nvdState ≠ some ⟨true⟩

/-- No `NULL` is read through. `start` says whether all was granted, and the device is held if so and
clear if not; and after `free` it is neither open nor retained. -/
def Agrees : Callback → LifeAnswer → Prop
  | _, .error _ => False
  | .start _ a, .ok (ok, r) => (ok = true ↔ a.Granted) ∧ (ok = true → Held r.driver) ∧ (ok = false → Clear r.driver)
  | .free, .ok (_, r) => r.driver.isOpen = false ∧ r.driver.retains = 0
  | _, .ok _ => True

def IsInit : Callback → Prop
  | .init .. => True
  | _ => False

/-- The driver at the stages that a run comes to by `init`. -/
def Stage.Holds : Stage → Driver → Prop
  | outside, d | initFailed, d => d.nvdState = none ∧ d.isOpen = false ∧ d.retains = 0
  | initialized, d => d.nvdState = some ⟨false⟩ ∧ d.isOpen = false ∧ d.retains = 0
  | _, _ => False

section
variable {d : Driver} {r : Life} {l : Callback} {memory : List DeviceMemory} {a : StartAnswers}

/-- With the device open, `start` can only say `false`. -/
theorem start_of_passed (memory : List DeviceMemory) (hd : d.nvdState = some ⟨false⟩) (ha : a.Passed) :
    (∃ e, start memory a d = .error e) ∨ ∃ d', start memory a d = .ok (false, d') ∧ d'.isOpen = true := by
  obtain ⟨hservice, hprovider, hopen⟩ := ha
  have hstate : d.state = .ok ⟨false⟩ := by rw [Driver.state, hd]
  unfold start
  simp only [hservice, hprovider, hopen, hstate, ok_bind]
  show (∃ e, (probeBars memory (List.range nvGpuNumBars) >>= _) = _) ∨ _
  cases probeBars memory (List.range nvGpuNumBars) with
  | error e => exact .inl ⟨e, rfl⟩
  | ok _ =>
    show (∃ e, (fillBars _ _ 0 .zero >>= _) = _) ∨ ∃ d', (fillBars _ _ 0 .zero >>= _) = _ ∧ _
    cases fillBars (barAperture memory) (List.range nvrmPcicfgNumBars) 0 .zero with
    | error e => exact .inl ⟨e, rfl⟩
    | ok bars => exact .inr ⟨_, rfl, rfl⟩

/-- On its other exits it says `true`. -/
theorem start_of_not_passed (hd : d.nvdState = some ⟨false⟩) (ha : ¬ a.Passed) :
    start memory a d = .ok (true, d) := by
  have hstate : d.state = .ok ⟨false⟩ := by rw [Driver.state, hd]
  unfold start
  cases hservice : a.serviceStart with
  | true => rfl
  | false =>
    simp only [hstate, ok_bind]
    show (if ¬ a.provider = true then _ else _) = _
    by_cases hprovider : a.provider = true
    · have hopen : a.deviceOpen ≠ kIOReturnSuccess := fun h => ha ⟨hservice, hprovider, h⟩
      rw [if_neg (not_not.mpr hprovider), if_pos hopen]
      rfl
    · rw [if_pos hprovider]
      rfl

/-- So it never says what it should. -/
theorem start_disagrees (hd : d.nvdState = some ⟨false⟩) (hclosed : d.isOpen = false) :
    ¬ Agrees (.start memory a) (lifeCall ⟨d, .initialized⟩ (.start memory a)) := by
  rw [lifeCall]
  by_cases ha : a.Passed
  · rcases start_of_passed memory hd ha with ⟨e, hstart⟩ | ⟨d', hstart, hopen⟩
    · rw [hstart]
      exact id
    · rw [hstart]
      rintro ⟨-, -, hclear⟩
      have hopen' : d'.isOpen = false := (hclear rfl).1
      rw [hopen] at hopen'
      cases hopen'
  · rw [start_of_not_passed hd ha]
    rintro ⟨-, hheld, -⟩
    have hopen : d.isOpen = true := (hheld rfl).1
    rw [hclosed] at hopen
    cases hopen

theorem lifeCall_agrees_iff (hr : r.stage.Holds r.driver) (hl : InOrder r l) :
    Agrees l (lifeCall r l) ↔ IsInit l := by
  obtain ⟨d, stage⟩ := r
  cases l with
  | init superResult newZero => exact iff_of_true trivial trivial
  | start memory a =>
    obtain rfl : stage = .initialized := hl
    exact iff_of_false (start_disagrees hr.1 hr.2.1) id
  | stop =>
    obtain rfl : stage = .started := hl
    exact hr.elim
  | free =>
    rcases hl with hl | hl | hl <;> obtain rfl : stage = _ := hl
    · rw [lifeCall, free, DriverKit.free_null hr.1]
      exact iff_of_false id id
    · exact hr.elim
    · exact hr.elim

theorem lifeCall_init_holds (hr : r.stage.Holds r.driver) (superResult newZero : Bool)
    (hl : InOrder r (.init superResult newZero)) :
    ∃ r', lifeCall r (.init superResult newZero) = .ok r' ∧ r'.2.stage.Holds r'.2.driver := by
  obtain ⟨d, stage⟩ := r
  obtain rfl : stage = .outside := hl
  refine ⟨_, rfl, ?_⟩
  cases superResult with
  | false => exact hr
  | true =>
    cases newZero with
    | false => exact ⟨rfl, hr.2⟩
    | true => exact ⟨rfl, hr.2⟩

end

/-- Of lifetimes one after the other, all is as it should be exactly until the first `init` has
returned. -/
theorem lifeRun_agrees_iff (command : BitVec 16) (calls : List Callback)
    (horder : lifeMachine.Along (fun r l _ => InOrder r l) ⟨.initial command, .outside⟩ calls) :
    lifeMachine.Along (fun _ l answer => Agrees l answer) ⟨.initial command, .outside⟩ calls ↔
      lifeMachine.Along (fun _ l _ => IsInit l) ⟨.initial command, .outside⟩ calls := by
  refine Machine.along_iff_of_legal (I := fun r => r.stage.Holds r.driver)
    (fun r l hr hl => lifeCall_agrees_iff hr hl) ?_ ⟨rfl, rfl, rfl⟩ horder
  intro r l hr hl hinit r' hr'
  cases l with
  | init superResult newZero =>
    obtain ⟨answer, hcall, hholds⟩ := lifeCall_init_holds hr superResult newZero hl
    change (lifeCall r (.init superResult newZero)).toOption.map _ = _ at hr'
    rw [hcall] at hr'
    exact Option.some.inj hr' ▸ hholds
  | start memory a => exact hinit.elim
  | stop => exact hinit.elim
  | free => exact hinit.elim

theorem lifeRun_agrees_init : lifeMachine.Along (fun _ l answer => Agrees l answer)
    ⟨.initial 0x400, .outside⟩ [.init true true] :=
  (lifeRun_agrees_iff 0x400 [.init true true] ⟨rfl, fun _ _ => trivial⟩).mpr ⟨trivial, fun _ _ => trivial⟩

/-- Where all is granted, `start` says so and the device is not open. Where `IOService::start` fails,
it goes on, and says `false` with the device open, and so it stays after `free`. -/
theorem lifeRun_started_wrong :
    (∃ r, lifeMachine.after ⟨.initial 0x400, .outside⟩
        [.init true true, .start wideFirstBar ⟨true, true, kIOReturnSuccess⟩] = some r ∧
      r.stage = .started ∧ r.driver.isOpen = false) ∧
    (∃ r, lifeMachine.after ⟨.initial 0x400, .outside⟩
        [.init true true, .start wideFirstBar .passing, .free] = some r ∧ r.driver.isOpen = true) ∧
    ¬ lifeMachine.Along (fun _ l answer => Agrees l answer) ⟨.initial 0x400, .outside⟩
      [.init true true, .start wideFirstBar ⟨true, true, kIOReturnSuccess⟩, .stop, .free] ∧
    ¬ lifeMachine.Along (fun _ l answer => Agrees l answer) ⟨.initial 0x400, .outside⟩
      [.init false true, .free] := by
  refine ⟨⟨_, rfl, rfl, rfl⟩, ⟨_, rfl, rfl⟩, fun h => ?_, fun h => ?_⟩
  · have hstart := (h.2 _ rfl).1
    exact absurd (hstart.2.1 rfl).1 (by decide)
  · exact (h.2 _ rfl).1

end NVMac.Kernel
