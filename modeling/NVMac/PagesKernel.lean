import NVMac.Types
import NVMac.Lib.Ledger
import NVMac.Lib.Outcome
import NVMac.Lib.Slots

/-!
# DMA pages in the kernel port (`memory_kernel.cpp`)

Objects live in a list and a handle is a position in it; a handle says nothing about the class of
its object, as a `void*` does not. The ledger of a `Kernel` holds a token for each retain,
`prepare()`, memory descriptor set on a command, and `IONew` block that has not been given back.

`nvAllocPages_of_no_command` and `nvAllocPages_of_command` say what a call can do, and everything
later about `nv_alloc_pages` is derived from them: here, that no success backs the pages it was asked
for (`nvAllocPages_not_backs`).
-/

namespace NVMac.Kernel
open Slots Ledger Outcome

abbrev Handle := Nat

/-- `byteAddress` and `ioAddress` are the physical and the I/O address of each byte. -/
structure IOBufferMemoryDescriptor where
  length : Nat
  byteAddress : Nat → NvU64
  ioAddress : Nat → NvU64

/-- `memory` is the descriptor set by `setMemoryDescriptor`. -/
structure IODMACommand where
  maxSegmentSize : NvU64
  maxTransferSize : NvU64
  memory : Option Handle

structure DMACommandDescriptorPairing where
  command : Option Handle
  descriptor : Option Handle

inductive Object
  | descriptor (d : IOBufferMemoryDescriptor)
  | command (c : IODMACommand)
  | pairing (p : DMACommandDescriptorPairing)

inductive Token
  | retained (h : Handle)
  | prepared (descriptor : Handle)
  | attached (command descriptor : Handle)
  | block (h : Handle)
deriving DecidableEq, Repr

/-- The kernel as the page functions see it; `dmaMask` is `nvd_state->dma_mask`. -/
structure State where
  dmaMask : NvU64
  objects : List Object
  ledger : List Token

namespace State

def create (k : State) (o : Object) (t : Handle → Token) : State :=
  { k with objects := k.objects ++ [o], ledger := t k.objects.length :: k.ledger }

def giveBack (k : State) (t : Token) : Except Fault State :=
  match Ledger.giveBack t k.ledger with
  | some ledger => .ok { k with ledger := ledger }
  | none => .error .overRelease

def descriptorAt (k : State) (h : Handle) : Except Fault IOBufferMemoryDescriptor :=
  match k.objects[h]? with
  | some (.descriptor d) => .ok d
  | _ => .error .wrongClass

def commandAt (k : State) (h : Handle) : Except Fault IODMACommand :=
  match k.objects[h]? with
  | some (.command c) => .ok c
  | _ => .error .wrongClass

def pairingAt (k : State) (h : Handle) : Except Fault DMACommandDescriptorPairing :=
  match k.objects[h]? with
  | some (.pairing p) => .ok p
  | _ => .error .wrongClass

def prepare (k : State) (descriptor : Handle) : State :=
  { k with ledger := .prepared descriptor :: k.ledger }

def complete (k : State) (descriptor : Handle) : Except Fault State :=
  k.giveBack (.prepared descriptor)

def release (k : State) (h : Handle) : Except Fault State := k.giveBack (.retained h)

/-- The command takes a reference on the descriptor. -/
def setMemoryDescriptor (k : State) (command descriptor : Handle) : Except Fault State := do
  let c ← k.commandAt command
  return { k with
    objects := k.objects.set command (.command { c with memory := some descriptor })
    ledger := .attached command descriptor :: k.ledger }

/-- Only this drops the reference that `setMemoryDescriptor` took. -/
def clearMemoryDescriptor (k : State) (command : Handle) : Except Fault State := do
  let c ← k.commandAt command
  match c.memory with
  | none => return k
  | some descriptor =>
    let k ← k.giveBack (.attached command descriptor)
    return { k with objects := k.objects.set command (.command { c with memory := none }) }

end State

def deref (h : Option Handle) : Except Fault Handle :=
  match h with
  | some h => .ok h
  | none => .error .nullDereference

/-! ### `nv_alloc_pages` -/

structure PageRequest where
  pageCount : NvU32
  pageSize : NvU64
  contiguous : NvBool
  cacheType : NvMemoryType
  zeroed : NvBool

inductive IOMapCache
  | defaultCache | writeCombineCache | inhibitCache
deriving DecidableEq, Repr

/-- The arguments of `inTaskWithPhysicalMask`, and whether the shift that made the mask is one to
which C++ gives a value. -/
structure BufferRequest where
  cache : IOMapCache
  contiguous : NvBool
  capacity : NvU64
  mask : NvU64
  shiftDefined : Bool
deriving DecidableEq, Repr

structure Segment64 where
  fIOVMAddr : NvU64
  fLength : NvU64
deriving DecidableEq, Repr

structure Placement where
  byteAddress : Nat → NvU64
  ioAddress : Nat → NvU64

/-- What the system answers to the calls of one `nv_alloc_pages`: the buffer, whether
`withSpecification` succeeds, the segments, whether `IONew` succeeds, and what a shift past the
width of its operand yields. -/
structure PageAnswers where
  buffer : Option Placement
  command : Bool
  segments : Option (List Segment64)
  pairing : Bool
  wideShift : NvU32

def mapCache : NvMemoryType → Option IOMapCache
  | .cached => some .defaultCache
  | .writecombined => some .writeCombineCache
  | .uncached => some .inhibitCache
  | .default => some .inhibitCache
  | _ => none

/-- `bitMask` is computed from `1U`, in 32 bits. -/
def bufferRequest (dmaMask : NvU64) (req : PageRequest) (wideShift : NvU32) : Option BufferRequest :=
  (mapCache req.cacheType).map fun cache =>
    { cache
      contiguous := req.contiguous
      capacity := req.pageSize
      mask := (shiftLeft 1#32 dmaMask.toNat wideShift - 1#32).setWidth 64
      shiftDefined := dmaMask.toNat < 32 }

def inTaskWithPhysicalMask (g : OsPage) (q : BufferRequest) (answer : Option Placement) :
    Option IOBufferMemoryDescriptor :=
  answer.map fun at_ =>
    ⟨roundUp q.capacity.toNat g.osPageSize.toNat, at_.byteAddress, at_.ioAddress⟩

/-- The declared length of the array `segment` of `nv_alloc_pages`, `segment[] = {}`. -/
def segmentLength : Nat := 0

/-- The segments that `gen64IOVMSegments` writes, from slot 0 of `segment` on; it fills at most
`segmentCount`. -/
def gen64IOVMSegments (segmentCount : Nat) (answer : Option (List Segment64)) :
    Option (List Segment64) :=
  answer.map (·.take segmentCount)

/-- What `nv_alloc_pages` leaves: `segments` are the slots of `segment` that were written, in memory
past the declared array where they exceed it, `pteArray` the entries written to `pte_array`, and
`privData` what it stored in `*priv_data` (`none`: nothing). -/
structure PageOutcome where
  status : NvStatus
  kernel : State
  segments : List Segment64
  pteArray : List NvU64
  zeroed : List (NvU64 × NvU64)
  privData : Option Handle

def PageOutcome.failed (status : NvStatus) (k : State) : PageOutcome := ⟨status, k, [], [], [], none⟩

def persistPages (k : State) (req : PageRequest) (segments : List Segment64) (pairing : Bool)
    (command descriptor : Handle) : Except Fault PageOutcome :=
  if pairing then
    .ok {
      status := .ok
      kernel := k.create (.pairing ⟨some command, some descriptor⟩) .block
      segments
      pteArray := segments.map (·.fIOVMAddr)
      zeroed := if req.zeroed then segments.map (·.fIOVMAddr, req.pageSize) else []
      privData := some k.objects.length }
  else .error .nullDereference

def generatePages (k : State) (req : PageRequest) (a : PageAnswers) (descriptor : Handle) :
    Except Fault PageOutcome :=
  if a.command then do
    let command := k.objects.length
    let k := k.create
      (.command ⟨req.pageSize, req.pageCount.setWidth 64 * req.pageSize, none⟩) .retained
    let k ← k.setMemoryDescriptor command descriptor
    match gen64IOVMSegments 1 a.segments with
    | some segments => persistPages k req segments a.pairing command descriptor
    | none =>
      let k ← k.complete descriptor
      let k ← k.release descriptor
      let k ← k.release command
      return .failed .errNoMemory k
  else do
    let k ← k.complete descriptor
    let k ← k.release descriptor
    return .failed .errNoMemory k

def nvAllocPages (g : OsPage) (k : State) (req : PageRequest) (a : PageAnswers) :
    Except Fault PageOutcome :=
  match bufferRequest k.dmaMask req a.wideShift with
  | none => .ok (.failed .errNotSupported k)
  | some q =>
    match inTaskWithPhysicalMask g q a.buffer with
    | none => .ok (.failed .errNoMemory k)
    | some d =>
      let descriptor := k.objects.length
      generatePages ((k.create (.descriptor d) .retained).prepare descriptor) req a descriptor

/-! ### `nv_free_pages` and the mappings -/

def nvFreePages (k : State) (privData : Handle) : Except Fault (NvStatus × State) := do
  let pairing ← k.pairingAt privData
  let command ← deref pairing.command
  let k ← k.clearMemoryDescriptor command
  let descriptor ← deref pairing.descriptor
  let k ← k.complete descriptor
  let k ← k.release command
  let k ← k.release descriptor
  return (.ok, { k with objects := k.objects.set privData (.pairing ⟨none, none⟩) })

def nvAllocKernelMapping (g : OsPage) (k : State) (pAllocPrivate : Handle) (pageIndex : NvU64)
    (pageOffset : NvU32) : Except Fault NvU64 := do
  let descriptor ← k.descriptorAt pAllocPrivate
  return descriptor.byteAddress 0 + pageIndex * g.osPageSize.setWidth 64 + pageOffset.setWidth 64

def nvAllocUserMapping (g : OsPage) (k : State) (pAllocPrivate : Handle) (pageIndex : NvU64)
    (pageOffset : NvU32) : Except Fault (NvStatus × NvU64) := do
  let descriptor ← k.descriptorAt pAllocPrivate
  return (.ok,
    descriptor.byteAddress 0 + pageIndex * g.osPageSize.setWidth 64 + pageOffset.setWidth 64)

/-! ### What one call can do -/

def GetsCommand (req : PageRequest) (a : PageAnswers) : Prop :=
  (mapCache req.cacheType).isSome ∧ a.buffer.isSome ∧ a.command = true

instance (req : PageRequest) (a : PageAnswers) : Decidable (GetsCommand req a) :=
  inferInstanceAs (Decidable (_ ∧ _ ∧ _))

def State.withCommand (k : State) (req : PageRequest) (d : IOBufferMemoryDescriptor) : State :=
  let n := k.objects.length
  { k with
    objects := k.objects ++ [.descriptor d, .command
      ⟨req.pageSize, req.pageCount.setWidth 64 * req.pageSize, some n⟩]
    ledger := .attached (n + 1) n :: .retained (n + 1) :: .prepared n :: .retained n :: k.ledger }

@[simp] theorem State.length_withCommand (k : State) (req : PageRequest)
    (d : IOBufferMemoryDescriptor) : (k.withCommand req d).objects.length = k.objects.length + 2 := by
  simp [State.withCommand]

theorem setMemoryDescriptor_fresh (k : State) (req : PageRequest) (d : IOBufferMemoryDescriptor) :
    (((k.create (.descriptor d) .retained).prepare k.objects.length).create (.command
        ⟨req.pageSize, req.pageCount.setWidth 64 * req.pageSize, none⟩) .retained).setMemoryDescriptor
      (k.objects.length + 1) k.objects.length = .ok (k.withCommand req d) := by
  simp [State.create, State.prepare, State.setMemoryDescriptor, State.commandAt, State.withCommand]

section nvAllocPages
variable {g : OsPage} {k : State} {req : PageRequest} {a : PageAnswers}

theorem generatePages_of_command {d : IOBufferMemoryDescriptor} (h : a.command = true) :
    generatePages ((k.create (.descriptor d) .retained).prepare k.objects.length) req a
        k.objects.length =
      match gen64IOVMSegments 1 a.segments with
      | some segments =>
        persistPages (k.withCommand req d) req segments a.pairing (k.objects.length + 1) k.objects.length
      | none => .ok (.failed .errNoMemory { k.withCommand req d with
          ledger := .attached (k.objects.length + 1) k.objects.length :: k.ledger }) := by
  have hlen : ((k.create (.descriptor d) .retained).prepare k.objects.length).objects.length =
      k.objects.length + 1 := by simp [State.create, State.prepare]
  rw [generatePages, if_pos h, hlen]
  simp only [setMemoryDescriptor_fresh, ok_bind]
  cases gen64IOVMSegments 1 a.segments with
  | some segments => rfl
  | none =>
    simp [State.complete, State.release, State.giveBack, State.withCommand, giveBack_cons_of_ne]

/-- Before a command is made, a call fails and gives back what it took. -/
theorem nvAllocPages_of_no_command (h : ¬ GetsCommand req a) : ∃ status more,
    status ≠ .ok ∧ nvAllocPages g k req a =
      .ok (.failed status { k with objects := k.objects ++ more }) := by
  have hself : k = { k with objects := k.objects ++ [] } := by simp
  cases hcache : mapCache req.cacheType with
  | none =>
    refine ⟨.errNotSupported, [], by decide, ?_⟩
    rw [nvAllocPages, bufferRequest, hcache, ← hself]
    rfl
  | some cache =>
    cases hbuf : a.buffer with
    | none =>
      refine ⟨.errNoMemory, [], by decide, ?_⟩
      simp [nvAllocPages, bufferRequest, hcache, inTaskWithPhysicalMask, hbuf]
    | some at_ =>
      have hcmd : a.command = false := by
        cases hc : a.command with
        | false => rfl
        | true => exact absurd ⟨by rw [hcache]; rfl, by rw [hbuf]; rfl, hc⟩ h
      refine ⟨.errNoMemory, [.descriptor ⟨roundUp req.pageSize.toNat g.osPageSize.toNat,
        at_.byteAddress, at_.ioAddress⟩], by decide, ?_⟩
      simp [nvAllocPages, bufferRequest, hcache, inTaskWithPhysicalMask, hbuf, generatePages, hcmd,
        State.create, State.prepare, State.complete, State.release, State.giveBack]

/-- With a command made, everything hangs on the segments and on the pairing. -/
theorem nvAllocPages_of_command (h : GetsCommand req a) : ∃ d : IOBufferMemoryDescriptor,
    d.length = roundUp req.pageSize.toNat g.osPageSize.toNat ∧ nvAllocPages g k req a =
      match gen64IOVMSegments 1 a.segments with
      | some segments =>
        persistPages (k.withCommand req d) req segments a.pairing (k.objects.length + 1) k.objects.length
      | none => .ok (.failed .errNoMemory { k.withCommand req d with
          ledger := .attached (k.objects.length + 1) k.objects.length :: k.ledger }) := by
  obtain ⟨hcache, hbuf, hcmd⟩ := h
  obtain ⟨cache, hcache⟩ := Option.isSome_iff_exists.1 hcache
  obtain ⟨at_, hbuf⟩ := Option.isSome_iff_exists.1 hbuf
  refine ⟨⟨roundUp req.pageSize.toNat g.osPageSize.toNat, at_.byteAddress, at_.ioAddress⟩, rfl, ?_⟩
  simp only [nvAllocPages, bufferRequest, hcache, Option.map_some, inTaskWithPhysicalMask, hbuf]
  exact generatePages_of_command hcmd

theorem nvAllocPages_ok {out : PageOutcome} (h : nvAllocPages g k req a = .ok out)
    (hok : out.status = .ok) : ∃ (d : IOBufferMemoryDescriptor) (segments : List Segment64),
      d.length = roundUp req.pageSize.toNat g.osPageSize.toNat ∧
      out.kernel = (k.withCommand req d).create
        (.pairing ⟨some (k.objects.length + 1), some k.objects.length⟩) .block ∧
      out.segments = segments ∧ out.pteArray = segments.map (·.fIOVMAddr) ∧
      out.privData = some (k.objects.length + 2) := by
  by_cases hget : GetsCommand req a
  · obtain ⟨d, hd, heq⟩ := nvAllocPages_of_command hget
    rw [heq] at h
    cases hseg : gen64IOVMSegments 1 a.segments with
    | none =>
      rw [hseg] at h
      cases h
      cases hok
    | some segments =>
      rw [hseg] at h
      cases hp : a.pairing with
      | false => simp [persistPages, hp] at h
      | true =>
        simp only [persistPages, hp, if_true, Except.ok.injEq] at h
        subst h
        exact ⟨d, segments, hd, rfl, rfl, rfl, by simp⟩
  · obtain ⟨status, more, hne, heq⟩ := nvAllocPages_of_no_command (g := g) (k := k) hget
    rw [heq] at h
    cases h
    exact absurd hok hne

end nvAllocPages

/-! ### The pages a success delivers -/

def State.pairedDescriptor (k : State) (privData : Handle) : Except Fault IOBufferMemoryDescriptor := do
  let pairing ← k.pairingAt privData
  let descriptor ← deref pairing.descriptor
  k.descriptorAt descriptor

/-- The buffer `d` backs the pages asked for: it is long enough, the segments went into the array
made for them, and the page table gives the I/O address of each page. -/
structure Backs (req : PageRequest) (out : PageOutcome) (d : IOBufferMemoryDescriptor) : Prop where
  size : req.pageCount.toNat * req.pageSize.toNat ≤ d.length
  inArray : out.segments.length ≤ segmentLength
  scattered : req.contiguous = false → ∀ i < req.pageCount.toNat,
    out.pteArray[i]? = some (d.ioAddress (i * req.pageSize.toNat))
  contiguous : req.contiguous = true → ∃ start, out.pteArray[0]? = some start ∧
    ∀ b < req.pageCount.toNat * req.pageSize.toNat, d.ioAddress b = start + BitVec.ofNat 64 b

section success
variable {g : OsPage} {k : State} {req : PageRequest} {a : PageAnswers} {out : PageOutcome}

theorem pairedDescriptor_create (k : State) (req : PageRequest) (d : IOBufferMemoryDescriptor) :
    ((k.withCommand req d).create (.pairing ⟨some (k.objects.length + 1), some k.objects.length⟩)
      .block).pairedDescriptor (k.objects.length + 2) = .ok d := by
  simp [State.pairedDescriptor, State.pairingAt, State.create, State.withCommand, deref,
    State.descriptorAt]

/-- Either a segment is written past the empty array, or no page is published at all. -/
theorem not_backs_of_pteArray {d : IOBufferMemoryDescriptor}
    (hpte : out.pteArray = out.segments.map (·.fIOVMAddr)) (hcount : 1 ≤ req.pageCount.toNat) :
    ¬ Backs req out d := by
  intro h
  have hnil : out.segments = [] := List.eq_nil_of_length_eq_zero (Nat.le_zero.1 h.inArray)
  have hnone : out.pteArray[0]? = none := by rw [hpte, hnil]; rfl
  cases hc : req.contiguous with
  | false =>
    have := h.scattered hc 0 hcount
    rw [hnone] at this
    cases this
  | true =>
    obtain ⟨start, hstart, -⟩ := h.contiguous hc
    rw [hnone] at hstart
    cases hstart

end success

theorem nvAllocPages_not_backs (g : OsPage) (k : State) (req : PageRequest) (a : PageAnswers)
    (out : PageOutcome) (h : nvAllocPages g k req a = .ok out) (hok : out.status = .ok)
    (hcount : 1 ≤ req.pageCount.toNat) : ∃ privData d, out.privData = some privData ∧
      out.kernel.pairedDescriptor privData = .ok d ∧ ¬ Backs req out d := by
  obtain ⟨d, segments, -, hk, hseg, hpte, hpriv⟩ := nvAllocPages_ok h hok
  refine ⟨_, d, hpriv, ?_, not_backs_of_pteArray (by rw [hpte, hseg]) hcount⟩
  rw [hk, pairedDescriptor_create]

/-- Two pages of 16 KiB, for which the system grants all it is asked for. -/
def twoPages : PageRequest := ⟨2, 0x4000, false, .cached, false⟩

def granted : PageAnswers :=
  ⟨some ⟨fun b => 0x10000 + BitVec.ofNat 64 b, fun b => 0x80000 + BitVec.ofNat 64 b⟩, true,
    some [⟨0x80000, 0x4000⟩], true, 0⟩

theorem nvAllocPages_not_backs_two :
    ∃ out, nvAllocPages .sixteenK ⟨0, [], []⟩ twoPages granted = .ok out ∧ out.status = .ok ∧
      ∃ privData d, out.privData = some privData ∧
        out.kernel.pairedDescriptor privData = .ok d ∧ ¬ Backs twoPages out d :=
  ⟨_, rfl, rfl, nvAllocPages_not_backs .sixteenK ⟨0, [], []⟩ twoPages granted _ rfl rfl (by decide)⟩

/-- The buffer has one page, one segment goes past the array, and page 1 has no entry. -/
theorem nvAllocPages_backs_one_of_two :
    ∃ out d, nvAllocPages .sixteenK ⟨0, [], []⟩ twoPages granted = .ok out ∧ out.status = .ok ∧
      out.privData = some 2 ∧ out.kernel.pairedDescriptor 2 = .ok d ∧ d.length = 0x4000 ∧
      out.segments.length = 1 ∧ out.pteArray[1]? = none ∧ ¬ Backs twoPages out d :=
  ⟨_, _, rfl, rfl, rfl, rfl, by decide, rfl, rfl, fun h => absurd h.size (by decide)⟩

end NVMac.Kernel
