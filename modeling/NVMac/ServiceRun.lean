import NVMac.DmaRun
import NVMac.PciConfig
import NVMac.ServiceKernel

/-!
# The service and the RM

The RM calls the library from its own threads, before, between and after the callbacks of the service,
and what it calls goes through `nvd_state`. The RM calls that `Start` makes itself are covered too:
`rm_init_rm` is called before the device is published, as if before the callback, and the others after,
as if after it.

In the DriverKit port an accessor gets to the device exactly between a `Start` that completed and the
next `Stop`, and each such `Start` leaves one retain for good (`serviceRun_reaches`). In the kernel
port it gets there only between a `start` that said `false` and the `free` after it, never while the
service is started, and nothing ever closes the device (`Kernel.serviceRun_reachesUnstarted`).
-/

namespace NVMac
open Outcome
open DriverKit (Driver NvDarwinState)

/-- The functions of the library that look at `nvd_state`. -/
inductive RmCall
  | pci (call : PciCall)
  | setDmaAddressSize (physAddrBits : NvU32) (wideShift : NvU64)

/-- The service, `dma_mask` of its `nvd_state`, and the spaces of the device. -/
structure Service (L : Type) where
  life : L
  dmaMask : NvU64
  pci : PciDevice

def Service.initial {L : Type} (life : L) (pci : PciDevice) : Service L := ⟨life, 0, pci⟩

inductive ServiceCall (C : Type)
  | callback (l : C)
  | rm (call : RmCall)

/-- `NV_GLOBAL_DEVICE`, for a call of one of its methods. -/
def globalDevice (d : Driver) : Except Fault Unit := do
  let state ← d.state
  if state.device then pure () else .error .nullDereference

/-- The accessors look at the offset before they look at the device. -/
def PciCall.reachesDevice : PciCall → Bool
  | .read _ offset | .write _ offset _ => offset < nvPcieCfgMaxOffset
  | .initHandle => true

def reach (d : Driver) (call : PciCall) : Except Fault Unit :=
  if call.reachesDevice then globalDevice d else .ok ()

/-- What `nv_set_dma_address_size` stores. -/
def dmaMaskOf (physAddrBits : NvU32) (wideShift : NvU64) : NvU64 :=
  (Kernel.nvSetDmaAddressSize ⟨0, [], []⟩ physAddrBits wideShift).dmaMask

section
variable {L C : Type} (port : Port) (driver : L → Driver)

def rmCall (s : Service L) : RmCall → Except Fault (Service L)
  | .pci call => do
    reach (driver s.life) call
    pure { s with pci := pciCall port s.pci call }
  | .setDmaAddressSize physAddrBits wideShift => do
    let _ ← (driver s.life).state
    pure { s with dmaMask := dmaMaskOf physAddrBits wideShift }

/-- A callback, and `isNew` of one that makes a new `nvd_state`, zeroed. -/
def serviceCall (call : L → C → Except Fault L) (isNew : C → Bool) (s : Service L) :
    ServiceCall C → Except Fault (Service L)
  | .callback l => do
    let life ← call s.life l
    pure { s with life, dmaMask := if isNew l then 0 else s.dmaMask }
  | .rm call => rmCall port driver s call

def serviceMachine (call : L → C → Except Fault L) (isNew : C → Bool) :
    Machine (Service L) (ServiceCall C) (Except Fault (Service L)) where
  call := serviceCall port driver call isNew
  next := Except.toOption

/-- The calls of the RM reach an open device where the service is `serving`, and `nvd_state` where it
is `allocated`; elsewhere they read through `NULL`, but for the accesses that are refused. -/
def RmServed (serving allocated : Prop) (s : Service L) : RmCall → Except Fault (Service L) → Prop
  | .pci call, answer =>
    (call.reachesDevice = false ∨ serving → answer = .ok { s with pci := pciCall port s.pci call }) ∧
    (call.reachesDevice = true ∧ serving → (driver s.life).isOpen = true) ∧
    (call.reachesDevice = true ∧ ¬ serving → answer = .error .nullDereference)
  | .setDmaAddressSize physAddrBits wideShift, answer =>
    (allocated → answer = .ok { s with dmaMask := dmaMaskOf physAddrBits wideShift }) ∧
    (¬ allocated → answer = .error .nullDereference)

/-- The mask that a call leaves, if it stores one. -/
def storedMask (isNew : C → Bool) : ServiceCall C → Option NvU64
  | .callback l => if isNew l then some 0 else none
  | .rm (.setDmaAddressSize physAddrBits wideShift) => some (dmaMaskOf physAddrBits wideShift)
  | .rm (.pci _) => none

/-- The mask stored last. -/
def lastMask (isNew : C → Bool) (calls : List (ServiceCall C)) : NvU64 :=
  (calls.reverse.findSome? (storedMask isNew)).getD 0

variable {port driver} {call : L → C → Except Fault L} {isNew : C → Bool} {s s' : Service L}
  {l : ServiceCall C} {made : List (ServiceCall C)} {serving allocated : Prop}

theorem lastMask_append : lastMask isNew (made ++ [l]) = (storedMask isNew l).getD (lastMask isNew made) := by
  unfold lastMask
  rw [List.reverse_append, List.reverse_singleton, List.singleton_append, List.findSome?_cons]
  cases storedMask isNew l <;> rfl

/-- The three values of the field `device`: no `nvd_state`, `NULL`, and the device. -/
theorem rmServed (rm : RmCall) (hserving : serving ↔ (driver s.life).nvdState = some ⟨true⟩)
    (hallocated : allocated ↔ (driver s.life).nvdState ≠ none)
    (hopen : serving → (driver s.life).isOpen = true) :
    RmServed port driver serving allocated s rm (rmCall port driver s rm) := by
  cases rm with
  | pci call =>
    refine ⟨fun h => ?_, fun h => hopen h.2, fun h => ?_⟩
    · cases hreach : call.reachesDevice with
      | false => simp [rmCall, reach, hreach]
      | true =>
        have hstate := hserving.1 (h.resolve_left (by simp [hreach]))
        simp [rmCall, reach, hreach, globalDevice, Driver.state, hstate]
    · obtain ⟨hreach, hnot⟩ := h
      rw [hserving] at hnot
      rcases hstate : (driver s.life).nvdState with _ | ⟨_ | _⟩
      · simp [rmCall, reach, hreach, globalDevice, Driver.state, hstate]
      · simp [rmCall, reach, hreach, globalDevice, Driver.state, hstate]
      · exact absurd hstate hnot
  | setDmaAddressSize physAddrBits wideShift =>
    rw [RmServed, hallocated]
    rcases hstate : (driver s.life).nvdState with _ | state
    · refine ⟨fun h => absurd rfl h, fun _ => ?_⟩
      simp [rmCall, Driver.state, hstate]
    · refine ⟨fun _ => ?_, fun h => absurd (Option.some_ne_none _) h⟩
      simp [rmCall, Driver.state, hstate]

/-- The RM leaves the service as it is. -/
theorem life_rmCall {rm : RmCall} (hs' : rmCall port driver s rm = .ok s') : s'.life = s.life := by
  cases rm with
  | pci call =>
    obtain ⟨_, -, h⟩ := bind_eq_ok hs'
    rw [← Except.ok.inj h]
  | setDmaAddressSize physAddrBits wideShift =>
    obtain ⟨_, -, h⟩ := bind_eq_ok hs'
    rw [← Except.ok.inj h]

theorem dmaMask_serviceCall (hs' : serviceCall port driver call isNew s l = .ok s') :
    s'.dmaMask = (storedMask isNew l).getD s.dmaMask := by
  cases l with
  | callback l =>
    obtain ⟨life, -, h⟩ := bind_eq_ok hs'
    rw [← Except.ok.inj h]
    show (if isNew l = true then (0 : NvU64) else s.dmaMask) = (if isNew l = true then some 0 else none).getD _
    split <;> rfl
  | rm rm =>
    cases rm with
    | pci call =>
      obtain ⟨_, -, h⟩ := bind_eq_ok hs'
      rw [← Except.ok.inj h]
      rfl
    | setDmaAddressSize physAddrBits wideShift =>
      obtain ⟨_, -, h⟩ := bind_eq_ok hs'
      rw [← Except.ok.inj h]
      rfl

end

end NVMac

namespace NVMac.DriverKit
open Outcome

/-- All that `Start` asks for is granted. -/
def StartAnswers.Completes (a : StartAnswers) : Prop :=
  a.superStart = kernSuccess ∧ a.provider = true ∧ a.deviceOpen = kIOReturnSuccess

instance (a : StartAnswers) : Decidable a.Completes := inferInstanceAs (Decidable (_ ∧ _ ∧ _))

def Callback.isNew : Callback → Bool
  | .init superInit newZero => superInit && newZero
  | _ => false

def Callback.completes : Callback → Bool
  | .start a => decide a.Completes
  | _ => false

/-- A `Start` completed, and there was no `Stop` since. -/
def Stage.serving : Stage → Bool
  | completed _ => true
  | _ => false

def Stage.nvdState : Stage → Option NvDarwinState
  | outside | initFailed => none
  | completed _ => some ⟨true⟩
  | _ => some ⟨false⟩

/-- The driver after `completed` completed `Start`s. Each of them leaves a retain. -/
structure Accounts (completed : Nat) (r : Life) : Prop where
  nvdState : r.driver.nvdState = r.stage.nvdState
  isOpen : r.driver.isOpen = r.stage.serving
  retains : r.driver.retains = completed
  opens : r.driver.opens = completed
  closes : r.driver.closes + r.stage.serving.toNat = completed

abbrev serviceRun : Machine (Service Life) (ServiceCall Callback) (Except Fault (Service Life)) :=
  serviceMachine .driverKit Life.driver lifeCall Callback.isNew

def Life.initial (command : BitVec 16) : Life := ⟨.initial command, .outside⟩

/-- The RM calls at any time. -/
def InTurn (s : Service Life) : ServiceCall Callback → Prop
  | .callback l => InOrder s.life l
  | .rm _ => True

/-- The only callback that does not come back is the `free` after a failed `init`. -/
def Reaches (s : Service Life) : ServiceCall Callback → Except Fault (Service Life) → Prop
  | .callback l, answer => (∃ s', answer = .ok s') ↔ ¬ (l = .free ∧ s.life.stage = .initFailed)
  | .rm rm, answer => RmServed .driverKit Life.driver (s.life.stage.serving = true)
      (s.life.stage.nvdState ≠ none) s rm answer

def ServiceCall.completes : ServiceCall Callback → Bool
  | .callback l => l.completes
  | .rm _ => false

section
variable {d : Driver} {a : StartAnswers} {r : Life} {l : Callback} {completed : Nat}

theorem startImpl_completes (hd : d.nvdState = some ⟨false⟩) (ha : a.Completes) : startImpl a d =
    .ok (kernSuccess, { d.deviceOpen.orCommand commandBits with nvdState := some ⟨true⟩ }.deviceRetain) := by
  obtain ⟨hsuper, hprovider, hopen⟩ := ha
  have hstate : d.state = .ok ⟨false⟩ := by rw [Driver.state, hd]
  simp only [startImpl, hsuper, hprovider, hopen, hstate, ok_bind]
  rfl

theorem startImpl_refused (hd : d.nvdState = some ⟨false⟩) (ha : ¬ a.Completes) :
    ∃ ret, startImpl a d = .ok (ret, d) ∧ ret ≠ kernSuccess := by
  have hstate : d.state = .ok ⟨false⟩ := by rw [Driver.state, hd]
  unfold startImpl
  by_cases hsuper : a.superStart ≠ kernSuccess
  · rw [if_pos hsuper, stopImpl_unpublished hd]
    exact ⟨_, rfl, hsuper⟩
  rw [if_neg hsuper, hstate, ok_bind]
  by_cases hprovider : ¬ a.provider = true
  · rw [if_pos hprovider, stopImpl_unpublished hd]
    exact ⟨_, rfl, by decide⟩
  have hopen : a.deviceOpen ≠ kIOReturnSuccess :=
    fun hopen => ha ⟨not_not.1 hsuper, not_not.1 hprovider, hopen⟩
  rw [if_neg hprovider, if_pos hopen, stopImpl_unpublished hd]
  exact ⟨_, rfl, by decide⟩

theorem lifeCall_accounts (hr : Accounts completed r) (hl : InOrder r l)
    (hback : ¬ (l = .free ∧ r.stage = .initFailed)) :
    ∃ r', lifeCall r l = .ok r' ∧ Accounts (completed + l.completes.toNat) r' := by
  obtain ⟨d, stage⟩ := r
  obtain ⟨hstate, hopen, hretains, hopens, hcloses⟩ := hr
  cases l with
  | init superInit newZero =>
    obtain rfl : stage = .outside := hl
    refine ⟨_, rfl, ?_⟩
    cases superInit with
    | false => exact ⟨hstate, hopen, hretains, hopens, hcloses⟩
    | true =>
      cases newZero with
      | false => exact ⟨rfl, hopen, hretains, hopens, hcloses⟩
      | true => exact ⟨rfl, hopen, hretains, hopens, hcloses⟩
  | start a =>
    obtain rfl : stage = .initialized := hl
    rw [lifeCall]
    by_cases ha : a.Completes
    · have hcompletes : (Callback.start a).completes = true := decide_eq_true ha
      rw [startImpl_completes hstate ha, hcompletes]
      refine ⟨_, rfl, rfl, rfl, ?_, ?_, ?_⟩
      · exact congrArg Nat.succ hretains
      · exact congrArg Nat.succ hopens
      · exact congrArg Nat.succ hcloses
    · have hcompletes : (Callback.start a).completes = false := decide_eq_false ha
      obtain ⟨ret, hstart, hret⟩ := startImpl_refused hstate ha
      rw [hstart, hcompletes]
      refine ⟨_, rfl, ?_⟩
      show Accounts completed ⟨d, if ret = kernSuccess then _ else _⟩
      rw [if_neg hret]
      exact ⟨hstate, hopen, hretains, hopens, hcloses⟩
  | stop =>
    rw [lifeCall]
    rcases hl with hl | ⟨found, hl | hl⟩ <;> obtain rfl : stage = _ := hl
    · rw [stopImpl_unpublished hstate]
      exact ⟨_, rfl, hstate, hopen, hretains, hopens, hcloses⟩
    · rw [stopImpl_published hstate]
      exact ⟨_, rfl, rfl, rfl, hretains, hopens, hcloses⟩
    · rw [stopImpl_unpublished hstate]
      exact ⟨_, rfl, hstate, hopen, hretains, hopens, hcloses⟩
  | free =>
    rw [lifeCall]
    rcases hl with hl | hl | ⟨found, hl⟩ <;> obtain rfl : stage = _ := hl
    · exact absurd ⟨rfl, rfl⟩ hback
    · rw [free_unpublished hstate]
      exact ⟨_, rfl, rfl, hopen, hretains, hopens, hcloses⟩
    · rw [free_unpublished hstate]
      exact ⟨_, rfl, rfl, hopen, hretains, hopens, hcloses⟩

theorem lifeCall_free_initFailed (hr : Accounts completed r) (hl : l = .free ∧ r.stage = .initFailed) :
    lifeCall r l = .error .nullDereference := by
  obtain ⟨rfl, hstage⟩ := hl
  have hnull : r.driver.nvdState = none := by rw [hr.nvdState, hstage]; rfl
  rw [lifeCall, free_null hnull]
  rfl

end

section
variable {s s' : Service Life} {l : ServiceCall Callback} {made : List (ServiceCall Callback)}

/-- The state that a run comes to by the calls `made`. -/
def Tallied (made : List (ServiceCall Callback)) (s : Service Life) : Prop :=
  Accounts (made.countP ServiceCall.completes) s.life ∧ s.dmaMask = lastMask Callback.isNew made

theorem serviceCall_reaches (hs : Tallied made s) (hl : InTurn s l) : Reaches s l (serviceRun.call s l) := by
  cases l with
  | callback l =>
    by_cases hback : l = .free ∧ s.life.stage = .initFailed
    · refine iff_of_false ?_ (not_not.2 hback)
      rintro ⟨s', hs'⟩
      obtain ⟨life, hlife, -⟩ := bind_eq_ok hs'
      rw [lifeCall_free_initFailed hs.1 hback] at hlife
      cases hlife
    · obtain ⟨r', hr', -⟩ := lifeCall_accounts hs.1 hl hback
      refine iff_of_true ?_ hback
      show ∃ s', serviceCall .driverKit Life.driver lifeCall Callback.isNew s (.callback l) = .ok s'
      rw [serviceCall, hr']
      exact ⟨_, rfl⟩
  | rm rm =>
    have hstate := hs.1.nvdState
    have hopen := hs.1.isOpen
    refine rmServed rm ?_ (by rw [hstate]) fun hserving => hopen.trans hserving
    rw [hstate]
    cases s.life.stage <;> simp [Stage.serving, Stage.nvdState]

theorem serviceCall_accounted (hs : Tallied made s) (hl : InTurn s l)
    (hs' : serviceRun.next (serviceRun.call s l) = some s') : Tallied (made ++ [l]) s' := by
  have hcall : serviceCall .driverKit Life.driver lifeCall Callback.isNew s l = .ok s' := eq_ok_of_toOption hs'
  refine ⟨?_, ?_⟩
  · rw [List.countP_append, List.countP_singleton]
    cases l with
    | callback l =>
      obtain ⟨life, hlife, heq⟩ := bind_eq_ok hcall
      have hback : ¬ (l = .free ∧ s.life.stage = .initFailed) := fun h => by
        rw [lifeCall_free_initFailed hs.1 h] at hlife
        cases hlife
      obtain ⟨r', hr', haccounts⟩ := lifeCall_accounts hs.1 hl hback
      obtain rfl : life = r' := Except.ok.inj (hlife.symm.trans hr')
      rw [← Except.ok.inj heq]
      cases hcompletes : l.completes <;> simpa [ServiceCall.completes, hcompletes] using haccounts
    | rm rm =>
      rw [life_rmCall hcall]
      exact hs.1
  · rw [dmaMask_serviceCall hcall, lastMask_append, hs.2]

end

/-- Along every run in which the system keeps to its order and the RM calls whenever it likes: the
accessors reach the device, open, while a completed `Start` was not stopped, and read through `NULL`
otherwise. Each completed `Start` has added a retain that nothing takes back. -/
theorem serviceRun_reaches (command : BitVec 16) (pci : PciDevice) (calls : List (ServiceCall Callback))
    (horder : serviceRun.Along (fun s l _ => InTurn s l) (.initial (.initial command) pci) calls) :
    serviceRun.Along Reaches (.initial (.initial command) pci) calls ∧
      ∀ s, serviceRun.after (.initial (.initial command) pci) calls = some s → Tallied calls s :=
  Machine.along_of_history (I := Tallied) [] (fun _ _ _ hs hl => serviceCall_reaches hs hl)
    (fun _ _ _ _ hs hl hs' => serviceCall_accounted hs hl hs') ⟨⟨rfl, rfl, rfl, rfl, rfl⟩, rfl⟩ horder

/-- A read while the service runs and one after `Stop`, which is the last of the run. -/
def readAfterStop : List (ServiceCall Callback) :=
  [.callback (.init true true), .rm (.setDmaAddressSize 40 0), .callback (.start .granted),
    .rm (.pci (.read .word 0)), .callback .stop, .rm (.pci (.read .word 0))]

theorem serviceRun_reaches_readAfterStop :
    serviceRun.Along Reaches (.initial (.initial 0x400) idDevice) readAfterStop := by
  refine (serviceRun_reaches 0x400 idDevice readAfterStop ⟨rfl, ?_⟩).1
  rintro s ⟨⟩
  refine ⟨trivial, ?_⟩
  rintro s ⟨⟩
  refine ⟨rfl, ?_⟩
  rintro s ⟨⟩
  refine ⟨trivial, ?_⟩
  rintro s ⟨⟩
  refine ⟨.inr ⟨0x400, .inl rfl⟩, ?_⟩
  rintro s ⟨⟩
  exact ⟨trivial, fun s hs => trivial⟩

end NVMac.DriverKit

namespace NVMac.Kernel
open Outcome
open DriverKit (Driver NvDarwinState)

def Callback.isNew : Callback → Bool
  | .init superResult newZero => superResult && newZero
  | _ => false

/-- The `start` opens the device. -/
def Callback.opens : Callback → Bool
  | .start _ a => !a.serviceStart && a.provider && decide (a.deviceOpen = kIOReturnSuccess)
  | _ => false

/-- `start` said `false` with the device open, and there was no `free` since. -/
def Stage.serving : Stage → Bool
  | notStarted => true
  | _ => false

def Stage.nvdState : Stage → Option NvDarwinState
  | outside | initFailed => none
  | notStarted => some ⟨true⟩
  | _ => some ⟨false⟩

/-- The driver after `opened` calls of `open`. The device is never closed again, and the retain is
given back by `free`. -/
structure Accounts (opened : Nat) (r : Life) : Prop where
  nvdState : r.driver.nvdState = r.stage.nvdState
  isOpen : r.driver.isOpen = true ↔ 0 < opened
  retains : r.driver.retains = r.stage.serving.toNat
  opens : r.driver.opens = opened
  closes : r.driver.closes = 0
  serving : r.stage.serving = true → 0 < opened

def Life.initial (command : BitVec 16) : Life := ⟨.initial command, .outside⟩

/-- Whatever the callback returns. -/
def lifeAfter (r : Life) (l : Callback) : Except Fault Life := (lifeCall r l).map (·.2)

abbrev serviceRun : Machine (Service Life) (ServiceCall Callback) (Except Fault (Service Life)) :=
  serviceMachine .kernel Life.driver lifeAfter Callback.isNew

/-- The RM calls at any time. -/
def InTurn (s : Service Life) : ServiceCall Callback → Prop
  | .callback l => InOrder s.life l
  | .rm _ => True

/-- The callbacks that do not come back: the `free` after a failed `init`, and a `start` for which the
device publishes too few ranges. -/
def Lost (stage : Stage) : Callback → Prop
  | .free => stage = .initFailed
  | .start memory a => ∃ e, startBars memory a = .error e
  | _ => False

def Reaches (s : Service Life) : ServiceCall Callback → Except Fault (Service Life) → Prop
  | .callback l, answer => (∃ s', answer = .ok s') ↔ ¬ Lost s.life.stage l
  | .rm rm, answer => RmServed .kernel Life.driver (s.life.stage.serving = true)
      (s.life.stage.nvdState ≠ none) s rm answer

def ServiceCall.opens : ServiceCall Callback → Bool
  | .callback l => l.opens
  | .rm _ => false

section
variable {d : Driver} {memory : List DeviceMemory} {a : StartAnswers} {r : Life} {l : Callback} {opened : Nat}

theorem opens_iff : (Callback.start memory a).opens = true ↔ a.Passed := by
  simp [Callback.opens, StartAnswers.Passed, and_assoc]

theorem start_passed (hd : d.nvdState = some ⟨false⟩) (ha : a.Passed) :
    start memory a d = (startBars memory a).map fun _ =>
      (false, { setBusLeadEnable true (setMemoryEnable true d.deviceOpen) with
        nvdState := some ⟨true⟩ }.deviceRetain) := by
  rw [startBars_of_passed ha]
  obtain ⟨hservice, hprovider, hopen⟩ := ha
  have hstate : d.state = .ok ⟨false⟩ := by rw [Driver.state, hd]
  simp only [start, hservice, hprovider, hopen, hstate, ok_bind]
  cases probeBars memory (List.range nvGpuNumBars) with
  | error e => rfl
  | ok _ =>
    cases fillBars (barAperture memory) (List.range nvrmPcicfgNumBars) 0 .zero with
    | error e => rfl
    | ok bars => rfl

theorem lifeCall_accounts (hr : Accounts opened r) (hl : InOrder r l) (hback : ¬ Lost r.stage l) :
    ∃ r', lifeAfter r l = .ok r' ∧ Accounts (opened + l.opens.toNat) r' := by
  obtain ⟨d, stage⟩ := r
  obtain ⟨hstate, hopen, hretains, hopens, hcloses, hserving⟩ := hr
  cases l with
  | init superResult newZero =>
    obtain rfl : stage = .outside := hl
    refine ⟨_, rfl, ?_⟩
    cases superResult with
    | false => exact ⟨hstate, hopen, hretains, hopens, hcloses, hserving⟩
    | true =>
      cases newZero with
      | false => exact ⟨rfl, hopen, hretains, hopens, hcloses, hserving⟩
      | true => exact ⟨rfl, hopen, hretains, hopens, hcloses, hserving⟩
  | start memory a =>
    obtain rfl : stage = .initialized := hl
    rw [lifeAfter, lifeCall]
    by_cases ha : a.Passed
    · rw [start_passed hstate ha, opens_iff.2 ha]
      cases hbars : startBars memory a with
      | error e => exact absurd ⟨e, hbars⟩ hback
      | ok bars =>
        refine ⟨_, rfl, rfl, iff_of_true rfl (Nat.succ_pos _), ?_, ?_, hcloses, fun _ => Nat.succ_pos _⟩
        · exact congrArg Nat.succ hretains
        · exact congrArg Nat.succ hopens
    · have hopens' : (Callback.start memory a).opens = false := Bool.eq_false_iff.2 fun h => ha (opens_iff.1 h)
      rw [start_of_not_passed hstate ha, hopens']
      exact ⟨_, rfl, hstate, hopen, hretains, hopens, hcloses, fun h => by cases h⟩
  | stop =>
    obtain rfl : stage = .started := hl
    have hstop : stop d = .ok d := by
      rw [stop, Driver.state, hstate]
      rfl
    rw [lifeAfter, lifeCall, hstop]
    exact ⟨_, rfl, hstate, hopen, hretains, hopens, hcloses, fun h => by cases h⟩
  | free =>
    rw [lifeAfter, lifeCall]
    rcases hl with hl | hl | hl <;> obtain rfl : stage = _ := hl
    · exact absurd rfl hback
    · have hone : d.retains = 1 := hretains
      have hrelease : free d = .ok { d with retains := d.retains - 1, nvdState := none } := by
        rw [free, DriverKit.free, Driver.state, hstate]
        simp [Stage.nvdState, Driver.deviceRelease, hone]
      rw [hrelease]
      exact ⟨_, rfl, rfl, hopen, by rw [hretains]; rfl, hopens, hcloses, fun h => by cases h⟩
    · rw [free, DriverKit.free_unpublished hstate]
      exact ⟨_, rfl, rfl, hopen, hretains, hopens, hcloses, fun h => by cases h⟩

theorem lifeCall_lost (hr : Accounts opened r) (hl : InOrder r l) (hlost : Lost r.stage l) :
    ∃ e, lifeAfter r l = .error e := by
  cases l with
  | init superResult newZero => exact hlost.elim
  | stop => exact hlost.elim
  | free =>
    have hnull : r.driver.nvdState = none := by
      rw [hr.nvdState, show r.stage = .initFailed from hlost]
      rfl
    rw [lifeAfter, lifeCall, free, DriverKit.free_null hnull]
    exact ⟨_, rfl⟩
  | start memory a =>
    obtain ⟨e, he⟩ := hlost
    have hstate : r.driver.nvdState = some ⟨false⟩ := by
      rw [hr.nvdState, show r.stage = .initialized from hl]
      rfl
    have ha : a.Passed := by
      by_contra ha
      rw [startBars_of_not_passed ha] at he
      cases he
    rw [lifeAfter, lifeCall, start_passed hstate ha, he]
    exact ⟨e, rfl⟩

end

section
variable {s s' : Service Life} {l : ServiceCall Callback} {made : List (ServiceCall Callback)}

/-- The state that a run comes to by the calls `made`. -/
def Tallied (made : List (ServiceCall Callback)) (s : Service Life) : Prop :=
  Accounts (made.countP ServiceCall.opens) s.life ∧ s.dmaMask = lastMask Callback.isNew made

theorem serviceCall_reaches (hs : Tallied made s) (hl : InTurn s l) : Reaches s l (serviceRun.call s l) := by
  cases l with
  | callback l =>
    by_cases hlost : Lost s.life.stage l
    · obtain ⟨e, he⟩ := lifeCall_lost hs.1 hl hlost
      refine iff_of_false ?_ (not_not.2 hlost)
      rintro ⟨s', hs'⟩
      obtain ⟨life, hlife, -⟩ := bind_eq_ok hs'
      rw [he] at hlife
      cases hlife
    · obtain ⟨r', hr', -⟩ := lifeCall_accounts hs.1 hl hlost
      refine iff_of_true ?_ hlost
      show ∃ s', serviceCall .kernel Life.driver lifeAfter Callback.isNew s (.callback l) = .ok s'
      rw [serviceCall, hr']
      exact ⟨_, rfl⟩
  | rm rm =>
    have hstate := hs.1.nvdState
    refine rmServed rm ?_ (by rw [hstate]) fun hserving => hs.1.isOpen.2 (hs.1.serving hserving)
    rw [hstate]
    cases s.life.stage <;> simp [Stage.serving, Stage.nvdState]

theorem serviceCall_accounted (hs : Tallied made s) (hl : InTurn s l)
    (hs' : serviceRun.next (serviceRun.call s l) = some s') : Tallied (made ++ [l]) s' := by
  have hcall : serviceCall .kernel Life.driver lifeAfter Callback.isNew s l = .ok s' := eq_ok_of_toOption hs'
  refine ⟨?_, ?_⟩
  · rw [List.countP_append, List.countP_singleton]
    cases l with
    | callback l =>
      obtain ⟨life, hlife, heq⟩ := bind_eq_ok hcall
      have hback : ¬ Lost s.life.stage l := fun hlost => by
        obtain ⟨e, he⟩ := lifeCall_lost hs.1 hl hlost
        rw [he] at hlife
        cases hlife
      obtain ⟨r', hr', haccounts⟩ := lifeCall_accounts hs.1 hl hback
      rw [hr'] at hlife
      obtain rfl : r' = life := Except.ok.inj hlife
      rw [← Except.ok.inj heq]
      cases hopens : l.opens <;> simpa [ServiceCall.opens, hopens] using haccounts
    | rm rm =>
      rw [life_rmCall hcall]
      exact hs.1
  · rw [dmaMask_serviceCall hcall, lastMask_append, hs.2]

end

/-- Along every run in which the system keeps to its order and the RM calls whenever it likes: the
accessors reach the device from a `start` that said `false` to the next `free`, and read through `NULL`
otherwise, while the service is started too. Every device that was opened stays open. -/
theorem serviceRun_reachesUnstarted (command : BitVec 16) (pci : PciDevice) (calls : List (ServiceCall Callback))
    (horder : serviceRun.Along (fun s l _ => InTurn s l) (.initial (.initial command) pci) calls) :
    serviceRun.Along Reaches (.initial (.initial command) pci) calls ∧
      ∀ s, serviceRun.after (.initial (.initial command) pci) calls = some s → Tallied calls s :=
  Machine.along_of_history (I := Tallied) [] (fun _ _ _ hs hl => serviceCall_reaches hs hl)
    (fun _ _ _ _ hs hl hs' => serviceCall_accounted hs hl hs')
    ⟨⟨rfl, iff_of_false Bool.false_ne_true (Nat.lt_irrefl 0), rfl, rfl, rfl, fun h => by cases h⟩, rfl⟩ horder

/-- Everything was granted, and the accessor of the started service reads through `NULL`. -/
def readWhileStarted : List (ServiceCall Callback) :=
  [.callback (.init true true), .callback (.start wideFirstBar ⟨true, true, kIOReturnSuccess⟩),
    .rm (.pci (.read .word 0))]

theorem serviceRun_reachesUnstarted_readWhileStarted :
    serviceRun.Along Reaches (.initial (.initial 0x400) idDevice) readWhileStarted := by
  refine (serviceRun_reachesUnstarted 0x400 idDevice readWhileStarted ⟨rfl, ?_⟩).1
  rintro s ⟨⟩
  refine ⟨rfl, ?_⟩
  rintro s ⟨⟩
  exact ⟨trivial, fun s hs => trivial⟩

end NVMac.Kernel
