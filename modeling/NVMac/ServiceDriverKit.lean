import NVMac.Types
import NVMac.Lib.Machine
import NVMac.Lib.Outcome

/-!
# The life of the DriverKit service (`PCIHorrorKit.cpp`)

`init`, `Start`, `Stop` and `free` share `nvd_state`, a retain and an `Open` of the PCI device, and
its command register. `lifeRun_clean_iff` says which lifetimes leave all of this as it should be:
those that get as far as `init` and no farther than a `Start` that fails.
-/

namespace NVMac.DriverKit
open Outcome

def kIOPCICommandMemorySpace : BitVec 16 := 0x2

def kIOPCICommandBusLead : BitVec 16 := 0x4

def commandBits : BitVec 16 := kIOPCICommandBusLead ||| kIOPCICommandMemorySpace

/-- `device` says whether the field is the PCI device and not `NULL`. -/
structure NvDarwinState where
  device : Bool

/-- The driver's state, and the device's as far as the driver has to do with it. -/
structure Driver where
  nvdState : Option NvDarwinState
  retains : Nat
  opens : Nat
  closes : Nat
  isOpen : Bool
  command : BitVec 16
  /-- The command register was read or written while the device was closed. -/
  closedAccess : Bool

namespace Driver

def initial (command : BitVec 16) : Driver := ⟨none, 0, 0, 0, false, command, false⟩

def deviceOpen (d : Driver) : Driver := { d with opens := d.opens + 1, isOpen := true }

def deviceClose (d : Driver) : Driver := { d with closes := d.closes + 1, isOpen := false }

def deviceRetain (d : Driver) : Driver := { d with retains := d.retains + 1 }

def deviceRelease (d : Driver) : Except Fault Driver :=
  if d.retains = 0 then .error .overRelease else .ok { d with retains := d.retains - 1 }

/-- `ConfigurationRead16` of the command register, an or, and `ConfigurationWrite16`. -/
def orCommand (d : Driver) (bits : BitVec 16) : Driver :=
  { d with command := d.command ||| bits, closedAccess := d.closedAccess || !d.isOpen }

/-- The memory that `nvd_state` points to, for a read or a write of a field. -/
def state (d : Driver) : Except Fault NvDarwinState :=
  match d.nvdState with
  | none => .error .nullDereference
  | some state => .ok state

end Driver

/-- The answers of `super::init` and `IONewZero`. -/
def init (superInit newZero : Bool) (d : Driver) : Bool × Driver :=
  if ¬ superInit then (false, d)
  else if ¬ newZero then (false, { d with nvdState := none })
  else (true, { d with nvdState := some ⟨false⟩ })

def free (d : Driver) : Except Fault Driver := do
  let state ← d.state
  let d ← if state.device then d.deviceRelease else pure d
  pure { d with nvdState := none }

def stopImpl (d : Driver) : Except Fault Driver := do
  let state ← d.state
  if state.device then
    let d := (d.deviceClose.orCommand commandBits)
    pure { d with nvdState := some { state with device := false } }
  else pure d

/-- What `Start` of the superclass, the cast of the provider and `Open` answer. -/
structure StartAnswers where
  superStart : IOReturn
  provider : Bool
  deviceOpen : IOReturn

/-- Past `Open`, nothing of what `Start_Impl` does for the RM touches the fields modelled here. -/
def startImpl (a : StartAnswers) (d : Driver) : Except Fault (IOReturn × Driver) :=
  if a.superStart ≠ kernSuccess then do
    let d ← stopImpl d
    pure (a.superStart, d)
  else do
    let state ← d.state
    if ¬ a.provider then
      let d ← stopImpl d
      pure (kIOReturnNoDevice, d)
    else if a.deviceOpen ≠ kIOReturnSuccess then
      let d ← stopImpl d
      pure (kIOReturnNoDevice, d)
    else
      let d := d.deviceOpen.orCommand commandBits
      pure (a.deviceOpen, { d with nvdState := some { state with device := true } }.deviceRetain)

/-! ### Lifetimes -/

/-- How far a lifetime has come; `found` is the command register as `Start` found it. -/
inductive Stage
  | outside | initFailed | initialized | startFailed
  | completed (found : BitVec 16)
  | stopped (found : BitVec 16)
deriving DecidableEq

structure Life where
  driver : Driver
  stage : Stage

inductive Callback
  | init (superInit newZero : Bool)
  | start (a : StartAnswers)
  | stop
  | free

def Stage.afterStop : Stage → Stage
  | completed found | stopped found => stopped found
  | stage => stage

def lifeCall (r : Life) : Callback → Except Fault Life
  | .init superInit newZero =>
    let (ok, d) := init superInit newZero r.driver
    .ok ⟨d, if ok then .initialized else .initFailed⟩
  | .start a => do
    let (ret, d) ← startImpl a r.driver
    pure ⟨d, if ret = kernSuccess then .completed r.driver.command else .startFailed⟩
  | .stop => do
    let d ← stopImpl r.driver
    pure ⟨d, r.stage.afterStop⟩
  | .free => do
    let d ← free r.driver
    pure ⟨d, .outside⟩

def lifeMachine : Machine Life Callback (Except Fault Life) where
  call := lifeCall
  next := Except.toOption

/-- The order in which the system calls: `Stop` at least once after a `Start` that completed. -/
def InOrder (r : Life) : Callback → Prop
  | .init .. => r.stage = .outside
  | .start _ => r.stage = .initialized
  | .stop => r.stage = .startFailed ∨ ∃ found, r.stage = .completed found ∨ r.stage = .stopped found
  | .free => r.stage = .initFailed ∨ r.stage = .startFailed ∨ ∃ found, r.stage = .stopped found

/-- `nvd_state` is not `NULL` where it is read. After `free` the device is neither retained nor open,
and after the `Stop` of a completed `Start` it is quiet, by accesses made while it was open. -/
def Clean (r : Life) (l : Callback) : Except Fault Life → Prop
  | .error _ => False
  | .ok r' =>
    match l with
    | .free => r'.driver.retains = 0 ∧ r'.driver.opens = r'.driver.closes
    | .stop => ∀ found, r.stage = .completed found ∨ r.stage = .stopped found →
        r'.driver.command = found &&& ~~~commandBits ∧ r'.driver.closedAccess = false
    | _ => True

/-- `Stop` and `free` come after a `Start` that failed. -/
def StartFailed (r : Life) : Callback → Prop
  | .stop | .free => r.stage = .startFailed
  | _ => True

/-- What `nvd_state` is at each stage that a clean run comes to. -/
def Stage.Holds : Stage → Driver → Prop
  | outside, d | initFailed, d => d.nvdState = none ∧ d.retains = 0 ∧ d.opens = d.closes
  | initialized, d | startFailed, d => d.nvdState = some ⟨false⟩ ∧ d.retains = 0 ∧ d.opens = d.closes
  | completed _, d => d.nvdState = some ⟨true⟩
  | stopped _, _ => False

section
variable {d : Driver} {r : Life} {l : Callback}

theorem stopImpl_unpublished (hd : d.nvdState = some ⟨false⟩) : stopImpl d = .ok d := by
  rw [stopImpl, Driver.state, hd]
  rfl

theorem stopImpl_published (hd : d.nvdState = some ⟨true⟩) :
    stopImpl d = .ok { d.deviceClose.orCommand commandBits with nvdState := some ⟨false⟩ } := by
  rw [stopImpl, Driver.state, hd]
  rfl

theorem free_unpublished (hd : d.nvdState = some ⟨false⟩) : free d = .ok { d with nvdState := none } := by
  rw [free, Driver.state, hd]
  rfl

theorem free_null (hd : d.nvdState = none) : free d = .error .nullDereference := by
  rw [free, Driver.state, hd]
  rfl

/-- A `Start` fails and changes nothing, or completes and publishes the device. -/
theorem startImpl_cases (a : StartAnswers) (hd : d.nvdState = some ⟨false⟩) :
    (∃ ret, startImpl a d = .ok (ret, d) ∧ ret ≠ kernSuccess) ∨
    ∃ d', startImpl a d = .ok (kernSuccess, d') ∧ d'.nvdState = some ⟨true⟩ := by
  have hstate : d.state = .ok ⟨false⟩ := by rw [Driver.state, hd]
  unfold startImpl
  by_cases hsuper : a.superStart ≠ kernSuccess
  · rw [if_pos hsuper, stopImpl_unpublished hd]
    exact .inl ⟨_, rfl, hsuper⟩
  rw [if_neg hsuper, hstate, ok_bind]
  by_cases hprovider : ¬ a.provider = true
  · rw [if_pos hprovider, stopImpl_unpublished hd]
    exact .inl ⟨_, rfl, by decide⟩
  rw [if_neg hprovider]
  by_cases hopen : a.deviceOpen ≠ kIOReturnSuccess
  · rw [if_pos hopen, stopImpl_unpublished hd]
    exact .inl ⟨_, rfl, by decide⟩
  rw [if_neg hopen, not_not.1 hopen]
  exact .inr ⟨_, rfl, rfl⟩

theorem or_commandBits_ne (command found : BitVec 16) :
    command ||| commandBits ≠ found &&& ~~~commandBits := by
  intro h
  have hbit := congrArg (·.getLsbD 1) h
  simp [commandBits, kIOPCICommandBusLead, kIOPCICommandMemorySpace] at hbit

theorem lifeCall_holds (hr : r.stage.Holds r.driver) (hl : InOrder r l) (hfailed : StartFailed r l) :
    ∃ r', lifeCall r l = .ok r' ∧ r'.stage.Holds r'.driver := by
  obtain ⟨d, stage⟩ := r
  cases l with
  | init superInit newZero =>
    obtain rfl : stage = .outside := hl
    obtain ⟨hnull, hbalance⟩ := hr
    refine ⟨_, rfl, ?_⟩
    cases superInit with
    | false => exact ⟨hnull, hbalance⟩
    | true =>
      cases newZero with
      | false => exact ⟨rfl, hbalance⟩
      | true => exact ⟨rfl, hbalance⟩
  | start a =>
    obtain rfl : stage = .initialized := hl
    rw [lifeCall]
    rcases startImpl_cases a hr.1 with ⟨ret, hstart, hret⟩ | ⟨d', hstart, hpublished⟩
    · rw [hstart]
      refine ⟨_, rfl, ?_⟩
      show Stage.Holds (if ret = kernSuccess then _ else _) d
      rw [if_neg hret]
      exact hr
    · rw [hstart]
      exact ⟨_, rfl, hpublished⟩
  | stop =>
    obtain rfl : stage = .startFailed := hfailed
    rw [lifeCall, stopImpl_unpublished hr.1]
    exact ⟨_, rfl, hr⟩
  | free =>
    obtain rfl : stage = .startFailed := hfailed
    rw [lifeCall, free_unpublished hr.1]
    exact ⟨_, rfl, rfl, hr.2⟩

/-- A `Stop` after a completed `Start` leaves the bits set, and a `free` after a failed `init` reads
through `NULL`. -/
theorem lifeCall_clean_iff (hr : r.stage.Holds r.driver) (hl : InOrder r l) :
    Clean r l (lifeCall r l) ↔ StartFailed r l := by
  cases l with
  | init superInit newZero => exact iff_of_true trivial trivial
  | start a =>
    obtain ⟨r', hcall, -⟩ := lifeCall_holds hr hl trivial
    rw [hcall]
    exact iff_of_true trivial trivial
  | stop =>
    obtain ⟨d, stage⟩ := r
    rw [lifeCall]
    rcases hl with hl | ⟨found, hl | hl⟩ <;> obtain rfl : stage = _ := hl
    · rw [stopImpl_unpublished hr.1]
      refine iff_of_true (fun found h => ?_) rfl
      rcases h with h | h <;> cases h
    · rw [stopImpl_published hr]
      refine iff_of_false (fun h => ?_) nofun
      exact or_commandBits_ne _ _ (h found (.inl rfl)).1
    · exact hr.elim
  | free =>
    obtain ⟨d, stage⟩ := r
    rw [lifeCall]
    rcases hl with hl | hl | ⟨found, hl⟩ <;> obtain rfl : stage = _ := hl
    · rw [free_null hr.1]
      exact iff_of_false id nofun
    · rw [free_unpublished hr.1]
      exact iff_of_true hr.2 rfl
    · exact hr.elim

end

/-- Of lifetimes one after the other, all is as it should be exactly while no `Stop` follows a `Start`
that completed and no `free` a failed `init`. -/
theorem lifeRun_clean_iff (command : BitVec 16) (calls : List Callback)
    (horder : lifeMachine.Along (fun r l _ => InOrder r l) ⟨.initial command, .outside⟩ calls) :
    lifeMachine.Along Clean ⟨.initial command, .outside⟩ calls ↔
      lifeMachine.Along (fun r l _ => StartFailed r l) ⟨.initial command, .outside⟩ calls := by
  refine Machine.along_iff_of_legal (I := fun r => r.stage.Holds r.driver)
    (fun r l hr hl => lifeCall_clean_iff hr hl) ?_ ⟨rfl, rfl, rfl⟩ horder
  intro r l hr hl hfailed r' hr'
  obtain ⟨r'', hcall, hholds⟩ := lifeCall_holds hr hl hfailed
  change (lifeCall r l).toOption = _ at hr'
  rw [hcall] at hr'
  exact Option.some.inj hr' ▸ hholds

def StartAnswers.granted : StartAnswers := ⟨kernSuccess, true, kIOReturnSuccess⟩

/-- The device is open for another, and the service is stopped and let go. -/
def openedByAnother : List Callback :=
  [.init true true, .start ⟨kernSuccess, true, 0xe00002c5⟩, .stop, .free]

theorem lifeRun_clean_openedByAnother :
    lifeMachine.Along Clean ⟨.initial 0x406, .outside⟩ openedByAnother := by
  refine (lifeRun_clean_iff 0x406 openedByAnother ⟨rfl, ?_⟩).2 ⟨trivial, ?_⟩
  · rintro r ⟨⟩
    refine ⟨rfl, ?_⟩
    rintro r ⟨⟩
    refine ⟨.inl rfl, ?_⟩
    rintro r ⟨⟩
    exact ⟨.inr (.inl rfl), fun _ _ => trivial⟩
  · rintro r ⟨⟩
    refine ⟨trivial, ?_⟩
    rintro r ⟨⟩
    refine ⟨rfl, ?_⟩
    rintro r ⟨⟩
    exact ⟨rfl, fun _ _ => trivial⟩

/-- A whole lifetime leaves a retain and the bits that `Start` set, written while the device is
closed. After a failed `init`, `free` reads through `NULL`. -/
theorem lifeRun_startedAndStopped :
    (∃ r, lifeMachine.after ⟨.initial 0x400, .outside⟩
        [.init true true, .start .granted, .stop, .free] = some r ∧
      r.driver.retains = 1 ∧ r.driver.command = 0x406 ∧ r.driver.closedAccess = true) ∧
    ¬ lifeMachine.Along Clean ⟨.initial 0x400, .outside⟩ [.init true true, .start .granted, .stop, .free] ∧
    ¬ lifeMachine.Along Clean ⟨.initial 0x400, .outside⟩ [.init false true, .free] := by
  refine ⟨⟨_, rfl, rfl, rfl, rfl⟩, fun h => ?_, fun h => ?_⟩
  · have hstop := ((h.2 _ rfl).2 _ rfl).1 0x400 (.inl rfl)
    exact absurd hstop.1 (by decide)
  · exact (h.2 _ rfl).1

end NVMac.DriverKit
