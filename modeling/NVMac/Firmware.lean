import NVMac.Types
import NVMac.Lib.CString
import NVMac.Lib.Machine
import NVMac.Lib.Objects
import NVMac.Lib.Outcome
import NVMac.Lib.Registry

/-!
# Firmware in the kernel port (`firmware_kernel.cpp`)

`nv_get_firmware` copies the subpath over the directory that the path starts as. Of what it acquires
it gives back the vnode and the context of the file system on each exit, and its own two blocks on
none; and `nv_put_firmware` releases the data to another heap than it came from.
-/

namespace NVMac.Kernel
open CString Objects Outcome Registry

/-! ### Blocks, vnodes and files -/

inductive HeapKind
  | malloc | mallocData
deriving DecidableEq, Repr

structure NvDarwinFwContext where
  buffer : NvU64
  bufferSize : NvU64
deriving DecidableEq, Repr

/-- `bytes` are those that were read into the block. -/
inductive BlockContent
  | raw
  | context (c : NvDarwinFwContext)
  | bytes (read : List NvU8)
deriving DecidableEq, Repr

structure Block where
  heap : HeapKind
  size : Nat
  content : BlockContent
deriving DecidableEq, Repr

structure FirmwareState where
  blocks : NvU64 → Option Block
  vnodeRefs : Nat
  vfsContexts : Nat

/-- The content of the file at each absolute path; other paths are taken from the current directory. -/
structure FileSystem where
  files : List Char → Option (List NvU8)
  currentDirectory : List Char

def FileSystem.find (fs : FileSystem) (path : List Char) : Option (List NvU8) :=
  if path.head? = some '/' then fs.files path else fs.files (fs.currentDirectory ++ '/' :: path)

/-- The addresses that `IOMalloc` and `IOMallocData` answer, and whether the other calls succeed. -/
structure FirmwareAnswers where
  context : NvU64
  lookup : Bool
  getattr : Bool
  buffer : NvU64
  rdwr : Bool

namespace FirmwareState

def empty : FirmwareState := ⟨fun _ => none, 0, 0⟩

def alloc (s : FirmwareState) (heap : HeapKind) (size : Nat) (answer : NvU64) : FirmwareState :=
  { s with blocks := create 0 s.blocks answer ⟨heap, size, .raw⟩ }

def ioFree (s : FirmwareState) (ptr : NvU64) (size : Nat) : Except Fault FirmwareState :=
  match release (fun b => b.heap == .malloc && b.size == size) s.blocks ptr with
  | some blocks => .ok { s with blocks := blocks }
  | none => .error .overRelease

def vnodeGet (s : FirmwareState) : FirmwareState := { s with vnodeRefs := s.vnodeRefs + 1 }

def vnodePut (s : FirmwareState) : Except Fault FirmwareState :=
  if s.vnodeRefs = 0 then .error .overRelease else .ok { s with vnodeRefs := s.vnodeRefs - 1 }

def vfsContextCreate (s : FirmwareState) : FirmwareState := { s with vfsContexts := s.vfsContexts + 1 }

def vfsContextRele (s : FirmwareState) : Except Fault FirmwareState :=
  if s.vfsContexts = 0 then .error .overRelease else .ok { s with vfsContexts := s.vfsContexts - 1 }

def fill (s : FirmwareState) (ptr : NvU64) (block : Block) : FirmwareState :=
  { s with blocks := Function.update s.blocks ptr (some block) }

end FirmwareState

/-- What `vn_rdwr` reads of a file, if it reads: there is no reading of a negative `int` of bytes. -/
def vnRdwr (file : List NvU8) (len : NvU32) (succeeds : Bool) : Option (List NvU8) :=
  if len.toInt < 0 ∨ ¬ succeeds then none else some (file.take len.toNat)

/-! ### The functions -/

def pathMax : Nat := 1024

def sizeofFwContext : Nat := 16

/-- `NV_FIRMWARE_FOR_NAME`. -/
def nvFirmwareForName (name : List Char) : List Char := "firmware/".toList ++ name ++ ".bin".toList

/-- `NVIDIA_FIRMWARE_DIR` in an array of `PATH_MAX`, and the copy over it. -/
def firmwarePath (firmwareDir firmwareSubpath : List Char) : List Char :=
  let firmwarePath := (firmwareDir ++ List.replicate pathMax '\x00').take pathMax
  (strncpy '\x00' firmwarePath (firmwareSubpath ++ ['\x00']) pathMax).getD firmwarePath

/-- The path given to `vnode_lookup`. -/
def lookedUpPath (firmwareDir name : List Char) : List Char :=
  scan '\x00' pathMax (firmwarePath firmwareDir (nvFirmwareForName name))

/-- The file that `vnode_lookup` finds. -/
def foundFile (fs : FileSystem) (firmwareDir name : List Char) (a : FirmwareAnswers) : Option (List NvU8) :=
  if a.lookup then fs.find (lookedUpPath firmwareDir name) else none

/-- `out` is what is written to `*fw_buf` and `*fw_size`. -/
structure FirmwareResult where
  lookedUp : Option (List Char)
  handle : NvU64
  out : Option (NvU64 × NvU32)

/-- The end of each exit from the lookup on. -/
def putVnode (s : FirmwareState) (result : FirmwareResult) : Except Fault (FirmwareResult × FirmwareState) := do
  let s ← s.vnodePut
  let s ← s.vfsContextRele
  pure (result, s)

/-- `nv_get_firmware` from the lookup on. -/
def readFirmware (path : List Char) (file : List NvU8) (s : FirmwareState) (a : FirmwareAnswers) :
    Except Fault (FirmwareResult × FirmwareState) :=
  if ¬ a.getattr then putVnode s ⟨some path, 0, none⟩
  else
    let bufferSize : NvU64 := BitVec.ofNat 64 file.length
    let s := s.alloc .mallocData bufferSize.toNat a.buffer
    if a.buffer = 0 then .error .panic
    else
      let s := s.fill a.context ⟨.malloc, sizeofFwContext, .context ⟨a.buffer, bufferSize⟩⟩
      match vnRdwr file (bufferSize.setWidth 32) a.rdwr with
      | none => putVnode s ⟨some path, 0, none⟩
      | some read =>
        putVnode (s.fill a.buffer ⟨.mallocData, bufferSize.toNat, .bytes read⟩)
          ⟨some path, a.context, some (a.buffer, bufferSize.setWidth 32)⟩

def nvGetFirmware (fs : FileSystem) (firmwareDir name : List Char) (s : FirmwareState) (a : FirmwareAnswers) :
    Except Fault (FirmwareResult × FirmwareState) :=
  let s := s.alloc .malloc sizeofFwContext a.context
  if a.context = 0 then .ok (⟨none, 0, none⟩, s)
  else
    let path := lookedUpPath firmwareDir name
    let s := s.vfsContextCreate
    match foundFile fs firmwareDir name a with
    | none => do
      let s ← s.vfsContextRele
      pure (⟨some path, 0, none⟩, s)
    | some file => readFirmware path file s.vnodeGet a

def nvPutFirmware (s : FirmwareState) (fwHandle : NvU64) : Except Fault FirmwareState :=
  match s.blocks fwHandle with
  | some ⟨_, _, .context c⟩ => do
    let s ← if c.buffer ≠ 0 then s.ioFree c.buffer c.bufferSize.toNat else pure s
    s.ioFree fwHandle sizeofFwContext
  | _ => .error .wrongClass

/-! ### What a call returns -/

section
variable {fs : FileSystem} {firmwareDir name : List Char} {s s' : FirmwareState} {a : FirmwareAnswers}
  {file read : List NvU8} {result : FirmwareResult}

/-- Nothing of the directory is left in the path. -/
theorem lookedUpPath_eq (firmwareDir name : List Char) :
    lookedUpPath firmwareDir name = scan '\x00' pathMax (nvFirmwareForName name ++ ['\x00']) := by
  have hlength : ((firmwareDir ++ List.replicate pathMax '\x00').take pathMax).length = pathMax := by
    rw [List.length_take, List.length_append, List.length_replicate]
    omega
  rw [lookedUpPath, firmwarePath, strncpy_eq hlength, Option.getD_some, scan_fill]

theorem length_lookedUpPath_le (firmwareDir name : List Char) :
    (lookedUpPath firmwareDir name).length ≤ (nvFirmwareForName name).length := by
  rw [lookedUpPath_eq]
  exact length_scan_terminated ..

theorem nvGetFirmware_no_context (h : a.context = 0) :
    nvGetFirmware fs firmwareDir name s a = .ok (⟨none, 0, none⟩, s) := by
  rw [nvGetFirmware, h, if_pos rfl, FirmwareState.alloc, create_null]

/-- The first block is left. -/
theorem nvGetFirmware_not_found (hcontext : a.context ≠ 0) (hfile : foundFile fs firmwareDir name a = none) :
    nvGetFirmware fs firmwareDir name s a = .ok (⟨some (lookedUpPath firmwareDir name), 0, none⟩,
      s.alloc .malloc sizeofFwContext a.context) := by
  rw [nvGetFirmware, if_neg hcontext, hfile]
  rfl

theorem nvGetFirmware_of_found (hcontext : a.context ≠ 0) (hfile : foundFile fs firmwareDir name a = some file) :
    nvGetFirmware fs firmwareDir name s a = readFirmware (lookedUpPath firmwareDir name) file
      (s.alloc .malloc sizeofFwContext a.context).vfsContextCreate.vnodeGet a := by
  rw [nvGetFirmware, if_neg hcontext, hfile]

theorem nvGetFirmware_no_size (hcontext : a.context ≠ 0) (hfile : foundFile fs firmwareDir name a = some file)
    (hattr : a.getattr ≠ true) :
    nvGetFirmware fs firmwareDir name s a = .ok (⟨some (lookedUpPath firmwareDir name), 0, none⟩,
      s.alloc .malloc sizeofFwContext a.context) := by
  rw [nvGetFirmware_of_found hcontext hfile, readFirmware, if_pos hattr]
  rfl

theorem nvGetFirmware_no_buffer (hcontext : a.context ≠ 0) (hfile : foundFile fs firmwareDir name a = some file)
    (hattr : a.getattr = true) (hbuffer : a.buffer = 0) : nvGetFirmware fs firmwareDir name s a = .error .panic := by
  rw [nvGetFirmware_of_found hcontext hfile, readFirmware, if_neg (not_not.mpr hattr)]
  exact if_pos hbuffer

theorem putVnode_eq_ok {result' : FirmwareResult} (h : putVnode s result' = .ok (result, s')) : result = result' := by
  obtain ⟨s₁, -, h⟩ := bind_eq_ok h
  obtain ⟨s₂, -, h⟩ := bind_eq_ok h
  cases h
  rfl

/-- Whatever comes back has looked up that path. -/
theorem lookedUp_of_ok (hcontext : a.context ≠ 0) (h : nvGetFirmware fs firmwareDir name s a = .ok (result, s')) :
    result.lookedUp = some (lookedUpPath firmwareDir name) := by
  cases hfile : foundFile fs firmwareDir name a with
  | none =>
    rw [nvGetFirmware_not_found hcontext hfile] at h
    cases h
    rfl
  | some file =>
    rw [nvGetFirmware_of_found hcontext hfile, readFirmware] at h
    dsimp only at h
    split_ifs at h with hattr hbuffer
    · split at h
      · rw [putVnode_eq_ok h]
      · rw [putVnode_eq_ok h]
    · rw [putVnode_eq_ok h]

/-- With the two blocks of a handle, the context filled in. -/
def FirmwareState.retaining (s : FirmwareState) (fwHandle : NvU64) (c : NvDarwinFwContext) (content : BlockContent) :
    FirmwareState :=
  { s with
    blocks := Function.update (Function.update s.blocks fwHandle (some ⟨.malloc, sizeofFwContext, .context c⟩))
      c.buffer (some ⟨.mallocData, c.bufferSize.toNat, content⟩) }

/-- The context that is filled in for a file. -/
def FirmwareAnswers.fwContext (a : FirmwareAnswers) (file : List NvU8) : NvDarwinFwContext :=
  ⟨a.buffer, BitVec.ofNat 64 file.length⟩

/-- From the read on. -/
theorem nvGetFirmware_of_buffer (hcontext : a.context ≠ 0) (hfile : foundFile fs firmwareDir name a = some file)
    (hattr : a.getattr = true) (hbuffer : a.buffer ≠ 0) (hne : a.buffer ≠ a.context) :
    nvGetFirmware fs firmwareDir name s a =
      match vnRdwr file ((BitVec.ofNat 64 file.length).setWidth 32) a.rdwr with
      | none => .ok (⟨some (lookedUpPath firmwareDir name), 0, none⟩, s.retaining a.context (a.fwContext file) .raw)
      | some read => .ok (⟨some (lookedUpPath firmwareDir name), a.context,
          some (a.buffer, (BitVec.ofNat 64 file.length).setWidth 32)⟩,
          s.retaining a.context (a.fwContext file) (.bytes read)) := by
  have hblocks : ∀ x y z : Option Block, Function.update (Function.update (Function.update s.blocks a.context x)
      a.buffer y) a.context z = Function.update (Function.update s.blocks a.context z) a.buffer y := by
    intro x y z
    rw [Function.update_comm hne, Function.update_idem]
  rw [nvGetFirmware_of_found hcontext hfile, readFirmware, if_neg (not_not.mpr hattr)]
  dsimp only
  rw [if_neg hbuffer]
  cases vnRdwr file ((BitVec.ofNat 64 file.length).setWidth 32) a.rdwr with
  | none =>
    simp only [FirmwareState.alloc, FirmwareState.fill, FirmwareState.vfsContextCreate, FirmwareState.vnodeGet,
      create_of_ne hcontext, create_of_ne hbuffer, hblocks]
    rfl
  | some read =>
    simp only [FirmwareState.alloc, FirmwareState.fill, FirmwareState.vfsContextCreate, FirmwareState.vnodeGet,
      create_of_ne hcontext, create_of_ne hbuffer, hblocks, Function.update_idem]
    rfl

/-- The length of a file, as it comes out of the three types that it goes through. -/
theorem toNat_readLength (n : Nat) : ((BitVec.ofNat 64 n).setWidth 32).toNat = n % 2 ^ 32 := by
  rw [BitVec.toNat_setWidth, BitVec.toNat_ofNat]
  exact Nat.mod_mod_of_dvd n (by decide)

theorem readLength_neg_iff (n : Nat) :
    ((BitVec.ofNat 64 n).setWidth 32).toInt < 0 ↔ 2 ^ 31 ≤ n % 2 ^ 32 := by
  rw [BitVec.toInt_eq_toNat_cond, toNat_readLength]
  split_ifs <;> omega

/-- A file that is read is read up to that length. -/
theorem vnRdwr_eq_some {succeeds : Bool}
    (h : vnRdwr file ((BitVec.ofNat 64 file.length).setWidth 32) succeeds = some read) :
    read = file.take (file.length % 2 ^ 32) ∧ ¬ 2 ^ 31 ≤ file.length % 2 ^ 32 := by
  rw [vnRdwr, toNat_readLength] at h
  split_ifs at h with hrefused
  cases h
  exact ⟨rfl, fun hbit => hrefused (.inl ((readLength_neg_iff _).mpr hbit))⟩

end

/-! ### The file that is delivered -/

/-- The whole file is handed out, with its length. -/
def DeliversWhole (file : List NvU8) (result : FirmwareResult) (s : FirmwareState) : Prop :=
  ∃ buffer size block, result.out = some (buffer, size) ∧ size.toNat = file.length ∧
    s.blocks buffer = some block ∧ block.content = .bytes file

/-- What is handed out of the file that is found is the whole of it, unless it has `2 ^ 32` bytes or
more and bit 31 of its length is clear. -/
theorem nvGetFirmware_whole_iff {fs : FileSystem} {firmwareDir name : List Char} {a : FirmwareAnswers}
    {file : List NvU8} (s : FirmwareState) (hcontext : a.context ≠ 0)
    (hfile : foundFile fs firmwareDir name a = some file) (hattr : a.getattr = true) (hbuffer : a.buffer ≠ 0)
    (hne : a.buffer ≠ a.context) (hrdwr : a.rdwr = true) :
    (∀ result s', nvGetFirmware fs firmwareDir name s a = .ok (result, s') → result.handle ≠ 0 →
      DeliversWhole file result s') ↔ file.length < 2 ^ 32 ∨ 2 ^ 31 ≤ file.length % 2 ^ 32 := by
  rw [nvGetFirmware_of_buffer hcontext hfile hattr hbuffer hne, hrdwr]
  cases hread : vnRdwr file ((BitVec.ofNat 64 file.length).setWidth 32) true with
  | none =>
    rw [vnRdwr] at hread
    split_ifs at hread with hrefused
    · have hbit := (readLength_neg_iff _).mp (hrefused.resolve_right (not_not.mpr rfl))
      refine iff_of_true ?_ (.inr hbit)
      rintro result s' ⟨⟩ h
      exact absurd rfl h
  | some read =>
    have hblock : (s.retaining a.context (a.fwContext file) (.bytes read)).blocks a.buffer =
        some ⟨.mallocData, (BitVec.ofNat 64 file.length).toNat, .bytes read⟩ := Function.update_self ..
    obtain ⟨rfl, hbit⟩ := vnRdwr_eq_some hread
    rw [or_iff_left hbit]
    constructor
    · intro h
      obtain ⟨buffer, size, block, hout, hsize, -⟩ := h _ _ rfl hcontext
      cases hout
      rw [toNat_readLength] at hsize
      omega
    · rintro hlt result s' ⟨⟩ -
      have hmod : file.length % 2 ^ 32 = file.length := Nat.mod_eq_of_lt hlt
      have hwhole : file.take (file.length % 2 ^ 32) = file := by rw [hmod, List.take_length]
      exact ⟨_, _, _, rfl, (toNat_readLength _).trans hmod, hblock, congrArg BlockContent.bytes hwhole⟩

/-- No other file is delivered than the one at `path`, and no less than the whole of it. -/
def DeliversExactly (fs : FileSystem) (path : List Char) : Except Fault (FirmwareResult × FirmwareState) → Prop
  | .error _ => False
  | .ok (result, s) =>
    (∀ lookedUp, result.lookedUp = some lookedUp → lookedUp = path) ∧
    (fs.files path = none → result.handle = 0) ∧
    (result.handle ≠ 0 → ∃ file, fs.files path = some file ∧ DeliversWhole file result s)

/-- Only where there is no memory for the context is nothing else delivered: the path that is looked
up is too short. -/
theorem nvGetFirmware_delivers_iff (fs : FileSystem) (firmwareDir name : List Char) (s : FirmwareState)
    (a : FirmwareAnswers) :
    DeliversExactly fs (firmwareDir ++ '/' :: nvFirmwareForName name) (nvGetFirmware fs firmwareDir name s a) ↔
      a.context = 0 := by
  constructor
  · intro h
    by_contra hcontext
    cases hget : nvGetFirmware fs firmwareDir name s a with
    | error e =>
      rw [hget] at h
      exact h
    | ok answer =>
      rw [hget] at h
      have hpath := h.1 _ (lookedUp_of_ok hcontext hget)
      have hle := length_lookedUpPath_le firmwareDir name
      rw [hpath, List.length_append, List.length_cons] at hle
      omega
  · intro hcontext
    rw [nvGetFirmware_no_context hcontext]
    exact ⟨nofun, fun _ => rfl, fun h => absurd rfl h⟩

/-- A file system with one file. -/
def oneFirmware (currentDirectory : List Char) : FileSystem :=
  ⟨fun path => if path = "/nvd/firmware/gsp.bin".toList then some [1, 2, 3] else none, currentDirectory⟩

theorem lookedUpPath_gsp (firmwareDir : List Char) :
    lookedUpPath firmwareDir "gsp".toList = "firmware/gsp.bin".toList := by
  rw [lookedUpPath_eq]
  rfl

def FirmwareAnswers.passing : FirmwareAnswers := ⟨0x1000, true, true, 0x2000, true⟩

theorem foundFile_gsp_elsewhere : foundFile (oneFirmware []) "/nvd".toList "gsp".toList .passing = none := by
  rw [foundFile, lookedUpPath_gsp]
  decide

/-- The file is there, and another path is looked up. -/
theorem nvGetFirmware_looks_elsewhere :
    (oneFirmware []).files ("/nvd".toList ++ '/' :: nvFirmwareForName "gsp".toList) = some [1, 2, 3] ∧
    (∃ s, nvGetFirmware (oneFirmware []) "/nvd".toList "gsp".toList .empty .passing =
      .ok (⟨some "firmware/gsp.bin".toList, 0, none⟩, s)) ∧
    ¬ DeliversExactly (oneFirmware []) ("/nvd".toList ++ '/' :: nvFirmwareForName "gsp".toList)
      (nvGetFirmware (oneFirmware []) "/nvd".toList "gsp".toList .empty .passing) := by
  have hget := nvGetFirmware_not_found (s := .empty) (by decide) foundFile_gsp_elsewhere
  rw [lookedUpPath_gsp] at hget
  refine ⟨by decide, ⟨_, hget⟩, ?_⟩
  rw [hget]
  rintro ⟨hlookedUp, -⟩
  exact absurd (hlookedUp _ rfl) (by decide)

/-! ### Runs -/

structure FirmwareRun where
  state : FirmwareState
  handles : NvU64 → Bool

def FirmwareRun.empty : FirmwareRun := ⟨.empty, fun _ => false⟩

inductive FirmwareCall
  | get (fs : FileSystem) (name : List Char) (a : FirmwareAnswers)
  | put (fwHandle : NvU64)

abbrev FirmwareAnswer := Except Fault (Option FirmwareResult × FirmwareRun)

/-- Another handle is out, unless it is `NULL`. -/
def FirmwareRun.handOut (r : FirmwareRun) (result : FirmwareResult) (s : FirmwareState) : FirmwareRun :=
  ⟨s, if result.handle = 0 then r.handles else Function.update r.handles result.handle true⟩

def firmwareCall (firmwareDir : List Char) (r : FirmwareRun) : FirmwareCall → FirmwareAnswer
  | .get fs name a =>
    (nvGetFirmware fs firmwareDir name r.state a).map fun answer => (some answer.1, r.handOut answer.1 answer.2)
  | .put fwHandle =>
    (nvPutFirmware r.state fwHandle).map fun s => (none, ⟨s, Function.update r.handles fwHandle false⟩)

def firmwareMachine (firmwareDir : List Char) : Machine FirmwareRun FirmwareCall FirmwareAnswer where
  call := firmwareCall firmwareDir
  next answer := answer.toOption.map (·.2)

/-- Blocks are made where there is none, and a handle is put that is out. -/
def FirmwareLegal (r : FirmwareRun) : FirmwareCall → Prop
  | .get _ _ a => r.state.blocks a.context = none ∧ r.state.blocks a.buffer = none ∧
      (a.buffer ≠ 0 → a.buffer ≠ a.context)
  | .put fwHandle => r.handles fwHandle = true

/-- `NULL` leaves all as it was; a handle leaves its two blocks, and no more. -/
def GetBalanced (s : FirmwareState) (result : FirmwareResult) (s' : FirmwareState) : Prop :=
  (result.handle = 0 → s' = s ∧ result.out = none) ∧
  (result.handle ≠ 0 → ∃ c content size, result.out = some (c.buffer, size) ∧
    s' = s.retaining result.handle c content)

/-- The two blocks are gone. -/
def PutBalanced (s : FirmwareState) (fwHandle : NvU64) (s' : FirmwareState) : Prop :=
  ∃ c, s.blocks fwHandle = some ⟨.malloc, sizeofFwContext, .context c⟩ ∧
    s' = { s with blocks := Function.update (Function.update s.blocks c.buffer none) fwHandle none }

/-- A call does what it should, or panics; and nothing is left where no handle is out. -/
def FirmwareBalanced (r : FirmwareRun) : FirmwareCall → FirmwareAnswer → Prop
  | .get .., .error e => e = .panic
  | .put _, .error _ => False
  | l, .ok (result, r') =>
    (∀ result', result = some result' → GetBalanced r.state result' r'.state) ∧
    (∀ fwHandle, l = .put fwHandle → PutBalanced r.state fwHandle r'.state) ∧
    ((∀ fwHandle, r'.handles fwHandle = false) → r'.state = .empty)

/-- There is no memory for the context, or the file is found and read, or there is no memory for it. -/
def Completes (firmwareDir : List Char) (fs : FileSystem) (name : List Char) (a : FirmwareAnswers) : Prop :=
  a.context = 0 ∨ ∃ file, foundFile fs firmwareDir name a = some file ∧ a.getattr = true ∧
    (a.buffer = 0 ∨ vnRdwr file ((BitVec.ofNat 64 file.length).setWidth 32) a.rdwr ≠ none)

def FirmwareKept (firmwareDir : List Char) : FirmwareCall → Prop
  | .get fs name a => Completes firmwareDir fs name a
  | .put _ => False

/-- Of a handle, the context and the buffer that it names. -/
structure BacksHandle (blocks : NvU64 → Option Block) (fwHandle : NvU64) (c : NvDarwinFwContext) : Prop where
  context : blocks fwHandle = some ⟨.malloc, sizeofFwContext, .context c⟩
  buffer : ∃ content, blocks c.buffer = some ⟨.mallocData, c.bufferSize.toNat, content⟩
  buffer_ne : c.buffer ≠ 0

/-- The blocks are those of the handles that are out. -/
structure FirmwareRun.Backed (r : FirmwareRun) : Prop where
  null : r.state.blocks 0 = none
  vnodes : r.state.vnodeRefs = 0
  contexts : r.state.vfsContexts = 0
  held : ∀ h, r.handles h = true → ∃ c, BacksHandle r.state.blocks h c
  owned : ∀ x, r.state.blocks x ≠ none → ∃ h c, r.handles h = true ∧ BacksHandle r.state.blocks h c ∧ (x = h ∨ x = c.buffer)

section
variable {firmwareDir : List Char} {fs : FileSystem} {name : List Char} {a : FirmwareAnswers}
  {s : FirmwareState} {r : FirmwareRun} {l : FirmwareCall} {h x : NvU64} {c c' : NvDarwinFwContext}
  {content : BlockContent} {blocks blocks' : NvU64 → Option Block}

theorem FirmwareRun.Backed.empty : FirmwareRun.empty.Backed :=
  ⟨rfl, rfl, rfl, nofun, fun _ h => absurd rfl h⟩

theorem FirmwareRun.Backed.nothing_left (hr : r.Backed) (hnone : ∀ h, r.handles h = false) : r.state = .empty := by
  have hblocks : r.state.blocks = fun _ => none := by
    funext x
    by_contra hx
    obtain ⟨h, -, hh, -⟩ := hr.owned x hx
    rw [hnone h] at hh
    cases hh
  obtain ⟨⟨_, _, _⟩, _⟩ := r
  obtain rfl := hblocks
  obtain rfl := hr.vnodes
  obtain rfl := hr.contexts
  rfl

theorem BacksHandle.mono (hb : BacksHandle blocks x c) (hext : Extends blocks blocks') : BacksHandle blocks' x c :=
  ⟨hext _ _ hb.context, hb.buffer.imp fun _ h => hext _ _ h, hb.buffer_ne⟩

theorem backs_retaining (hne : c.buffer ≠ h) (hbuffer : c.buffer ≠ 0) : BacksHandle (s.retaining h c content).blocks h c :=
  ⟨(Function.update_of_ne hne.symm ..).trans (Function.update_self ..), ⟨content, Function.update_self ..⟩, hbuffer⟩

theorem extends_retaining (hh : s.blocks h = none) (hbuffer : s.blocks c.buffer = none) (hne : c.buffer ≠ h) :
    Extends s.blocks (s.retaining h c content).blocks := by
  have hbuffer' : Function.update s.blocks h (some ⟨.malloc, sizeofFwContext, .context c⟩) c.buffer = none := by
    rw [Function.update_of_ne hne, hbuffer]
  exact (extends_update hh).trans (extends_update hbuffer')

theorem completes_iff {file : List NvU8} (hcontext : a.context ≠ 0)
    (hfile : foundFile fs firmwareDir name a = some file) : Completes firmwareDir fs name a ↔ a.getattr = true ∧
      (a.buffer = 0 ∨ vnRdwr file ((BitVec.ofNat 64 file.length).setWidth 32) a.rdwr ≠ none) := by
  rw [Completes, or_iff_right hcontext]
  constructor
  · rintro ⟨file', hfile', h⟩
    rw [hfile] at hfile'
    cases hfile'
    exact h
  · intro h
    exact ⟨file, hfile, h⟩

/-- All that `nv_get_firmware` can do. -/
theorem nvGetFirmware_cases (fs : FileSystem) (firmwareDir name : List Char) (s : FirmwareState)
    (hne : a.buffer ≠ 0 → a.buffer ≠ a.context) :
    (Completes firmwareDir fs name a ∧ (nvGetFirmware fs firmwareDir name s a = .ok (⟨none, 0, none⟩, s) ∨
      nvGetFirmware fs firmwareDir name s a = .error .panic ∨
      ∃ lookedUp c size content, a.context ≠ 0 ∧ a.buffer ≠ 0 ∧ c.buffer = a.buffer ∧
        nvGetFirmware fs firmwareDir name s a =
          .ok (⟨lookedUp, a.context, some (c.buffer, size)⟩, s.retaining a.context c content))) ∨
    (¬ Completes firmwareDir fs name a ∧ ∃ lookedUp s', s'.blocks a.context ≠ none ∧
      nvGetFirmware fs firmwareDir name s a = .ok (⟨lookedUp, 0, none⟩, s')) := by
  by_cases hcontext : a.context = 0
  · exact .inl ⟨.inl hcontext, .inl (nvGetFirmware_no_context hcontext)⟩
  have hleft : (s.alloc .malloc sizeofFwContext a.context).blocks a.context ≠ none := by
    show create 0 s.blocks a.context _ a.context ≠ none
    rw [create_of_ne hcontext, Function.update_self]
    nofun
  cases hfile : foundFile fs firmwareDir name a with
  | none =>
    refine .inr ⟨?_, _, _, hleft, nvGetFirmware_not_found hcontext hfile⟩
    rintro (hnull | ⟨file, hfound, -⟩)
    · exact hcontext hnull
    · rw [hfile] at hfound
      cases hfound
  | some file =>
    have hcompletes := completes_iff hcontext hfile
    by_cases hattr : a.getattr = true
    · rw [and_iff_right hattr] at hcompletes
      by_cases hbuffer : a.buffer = 0
      · exact .inl ⟨hcompletes.mpr (.inl hbuffer),
          .inr (.inl (nvGetFirmware_no_buffer hcontext hfile hattr hbuffer))⟩
      rw [or_iff_right hbuffer] at hcompletes
      have hget := nvGetFirmware_of_buffer (s := s) hcontext hfile hattr hbuffer (hne hbuffer)
      cases hread : vnRdwr file ((BitVec.ofNat 64 file.length).setWidth 32) a.rdwr with
      | none =>
        rw [hread] at hget hcompletes
        have hbacks : BacksHandle (s.retaining a.context (a.fwContext file) .raw).blocks a.context (a.fwContext file) :=
          backs_retaining (hne hbuffer) hbuffer
        exact .inr ⟨fun h => hcompletes.mp h rfl, _, _, Option.ne_none_iff_exists'.mpr ⟨_, hbacks.context⟩, hget⟩
      | some read =>
        rw [hread] at hget hcompletes
        exact .inl ⟨hcompletes.mpr nofun, .inr (.inr ⟨_, a.fwContext file, _, _, hcontext, hbuffer, rfl, hget⟩)⟩
    · exact .inr ⟨fun h => hattr (hcompletes.mp h).1, _, _, hleft, nvGetFirmware_no_size hcontext hfile hattr⟩

/-- A run that hands out another handle is backed if the run before was. -/
theorem FirmwareRun.Backed.handOut (hr : r.Backed) {result : FirmwareResult} (hh : result.handle ≠ 0)
    (hhandle : r.state.blocks result.handle = none) (hbuffer : r.state.blocks c.buffer = none)
    (hne : c.buffer ≠ result.handle) (hbuffer' : c.buffer ≠ 0) :
    (r.handOut result (r.state.retaining result.handle c content)).Backed := by
  have hext : Extends r.state.blocks (r.state.retaining result.handle c content).blocks :=
    extends_retaining hhandle hbuffer hne
  have hnew : BacksHandle (r.state.retaining result.handle c content).blocks result.handle c := backs_retaining hne hbuffer'
  have hhandles : (r.handOut result (r.state.retaining result.handle c content)).handles =
      Function.update r.handles result.handle true := if_neg hh
  refine ⟨?_, hr.vnodes, hr.contexts, fun h hh' => ?_, fun x hx => ?_⟩
  · show Function.update (Function.update r.state.blocks result.handle _) c.buffer _ 0 = none
    rw [Function.update_of_ne hbuffer'.symm, Function.update_of_ne hh.symm, hr.null]
  · rw [hhandles] at hh'
    by_cases heq : h = result.handle
    · subst heq
      exact ⟨c, hnew⟩
    · rw [Function.update_of_ne heq] at hh'
      obtain ⟨c', hc'⟩ := hr.held h hh'
      exact ⟨c', hc'.mono hext⟩
  · rw [hhandles]
    by_cases hxh : x = result.handle
    · exact ⟨_, c, Function.update_self .., hnew, .inl hxh⟩
    by_cases hxb : x = c.buffer
    · exact ⟨_, c, Function.update_self .., hnew, .inr hxb⟩
    · change Function.update (Function.update r.state.blocks result.handle _) c.buffer _ x ≠ none at hx
      rw [Function.update_of_ne hxb, Function.update_of_ne hxh] at hx
      obtain ⟨h, c', hh', hc', hxc⟩ := hr.owned x hx
      have hne' : h ≠ result.handle := by
        rintro rfl
        rw [hc'.context] at hhandle
        cases hhandle
      exact ⟨h, c', (Function.update_of_ne hne' ..).trans hh', hc'.mono hext, hxc⟩

theorem firmwareMachine_get {result : FirmwareResult} (hget : nvGetFirmware fs firmwareDir name r.state a = .ok (result, s)) :
    (firmwareMachine firmwareDir).call r (.get fs name a) = .ok (some result, r.handOut result s) :=
  congrArg (Except.map _) hget

theorem firmwareMachine_next_get {result : FirmwareResult}
    (hget : nvGetFirmware fs firmwareDir name r.state a = .ok (result, s)) :
    (firmwareMachine firmwareDir).next ((firmwareMachine firmwareDir).call r (.get fs name a)) =
      some (r.handOut result s) := by
  rw [firmwareMachine_get hget]
  rfl

/-- What a call owes: it is balanced exactly if its condition holds, and keeps the invariant if so. -/
def MeetsFirmware (firmwareDir : List Char) (r : FirmwareRun) (l : FirmwareCall) (answer : FirmwareAnswer) : Prop :=
  (FirmwareBalanced r l answer ↔ FirmwareKept firmwareDir l) ∧
    (FirmwareKept firmwareDir l → ∀ result, answer = .ok result → result.2.Backed)

theorem get_meets (hr : r.Backed) (hl : FirmwareLegal r (.get fs name a)) :
    MeetsFirmware firmwareDir r (.get fs name a) ((firmwareMachine firmwareDir).call r (.get fs name a)) := by
  obtain ⟨hcontext, hbuffer, hne⟩ := hl
  rcases nvGetFirmware_cases fs firmwareDir name r.state hne with
    ⟨hcompletes, hget | hget | ⟨lookedUp, c, size, content, hcontext', hbuffer', hc, hget⟩⟩ |
    ⟨hnot, lookedUp, s', hleft, hget⟩
  · rw [firmwareMachine_get hget]
    refine ⟨iff_of_true ⟨?_, nofun, hr.nothing_left⟩ hcompletes, ?_⟩
    · rintro result ⟨⟩
      exact ⟨fun _ => ⟨rfl, rfl⟩, fun h => absurd rfl h⟩
    · rintro - result ⟨⟩
      exact hr
  · have hpanic : (firmwareMachine firmwareDir).call r (.get fs name a) = .error .panic :=
      congrArg (Except.map _) hget
    rw [hpanic]
    exact ⟨iff_of_true rfl hcompletes, nofun⟩
  · rw [firmwareMachine_get hget]
    have hbacked : (r.handOut ⟨lookedUp, a.context, some (c.buffer, size)⟩
        (r.state.retaining a.context c content)).Backed :=
      hr.handOut hcontext' hcontext (hc ▸ hbuffer) (hc ▸ hne hbuffer') (hc ▸ hbuffer')
    refine ⟨iff_of_true ⟨?_, nofun, hbacked.nothing_left⟩ hcompletes, ?_⟩
    · rintro result ⟨⟩
      exact ⟨fun h => absurd h hcontext', fun _ => ⟨c, content, size, rfl, rfl⟩⟩
    · rintro - result ⟨⟩
      exact hbacked
  · rw [firmwareMachine_get hget]
    refine ⟨iff_of_false ?_ hnot, fun h => absurd h hnot⟩
    rintro ⟨hbalanced, -⟩
    have hsame : s' = r.state := ((hbalanced _ rfl).1 rfl).1
    rw [hsame, hcontext] at hleft
    exact hleft rfl

/-- The buffer does not go back to the heap that it is given to. -/
theorem nvPutFirmware_of_backs (hb : BacksHandle s.blocks h c) : nvPutFirmware s h = .error .overRelease := by
  obtain ⟨content, hbuffer⟩ := hb.buffer
  have hfree : s.ioFree c.buffer c.bufferSize.toNat = .error .overRelease := by
    rw [FirmwareState.ioFree, release_of_mismatch hbuffer rfl]
  rw [nvPutFirmware, hb.context]
  dsimp only
  rw [if_pos hb.buffer_ne, hfree]
  rfl

theorem firmwareMachine_put (hb : BacksHandle r.state.blocks h c) :
    (firmwareMachine firmwareDir).call r (.put h) = .error .overRelease :=
  congrArg (Except.map _) (nvPutFirmware_of_backs hb)

theorem put_meets (hr : r.Backed) (hh : r.handles h = true) :
    MeetsFirmware firmwareDir r (.put h) ((firmwareMachine firmwareDir).call r (.put h)) := by
  obtain ⟨c, hc⟩ := hr.held h hh
  rw [firmwareMachine_put hc]
  exact ⟨iff_of_false id id, nofun⟩

end

/-- A run is balanced exactly if no call fails once it has the context, and no handle is put. -/
theorem firmwareRun_balanced_iff (firmwareDir : List Char) (calls : List FirmwareCall)
    (hlegal : (firmwareMachine firmwareDir).Along (fun r l _ => FirmwareLegal r l) .empty calls) :
    (firmwareMachine firmwareDir).Along FirmwareBalanced .empty calls ↔
      (firmwareMachine firmwareDir).Along (fun _ l _ => FirmwareKept firmwareDir l) .empty calls := by
  have hmeets : ∀ r l, r.Backed → FirmwareLegal r l →
      MeetsFirmware firmwareDir r l ((firmwareMachine firmwareDir).call r l) := by
    intro r l hr hl
    cases l with
    | get fs name a => exact get_meets hr hl
    | put fwHandle => exact put_meets hr hl
  refine Machine.along_iff_of_legal (I := FirmwareRun.Backed) (fun r l hr hl => (hmeets r l hr hl).1) ?_ .empty hlegal
  intro r l hr hl hkept r' hr'
  obtain ⟨result, hok, rfl⟩ := Option.map_eq_some_iff.mp hr'
  exact (hmeets r l hr hl).2 hkept result (eq_ok_of_toOption hok)

/-- The directory that relative paths are taken from is the one with the firmware. -/
theorem foundFile_gsp_here (firmwareDir : List Char) :
    foundFile (oneFirmware "/nvd".toList) firmwareDir "gsp".toList .passing = some [1, 2, 3] := by
  rw [foundFile, lookedUpPath_gsp]
  decide

theorem firmwareRun_balanced_found : (firmwareMachine "/nvd".toList).Along FirmwareBalanced .empty
    [.get (oneFirmware "/nvd".toList) "gsp".toList .passing] := by
  refine (firmwareRun_balanced_iff "/nvd".toList [.get (oneFirmware "/nvd".toList) "gsp".toList .passing] ?_).mpr ?_
  · exact ⟨⟨rfl, rfl, fun _ => by decide⟩, fun _ _ => trivial⟩
  · exact ⟨.inr ⟨[1, 2, 3], foundFile_gsp_here _, rfl, .inr (by decide)⟩, fun _ _ => trivial⟩

/-- Where no file is found, the context is left; and a handle that is put breaks the heap. -/
theorem firmwareRun_unbalanced :
    (∃ r, (firmwareMachine "/nvd".toList).after .empty [.get (oneFirmware []) "gsp".toList .passing] = some r ∧
      r.state.blocks 0x1000 = some ⟨.malloc, sizeofFwContext, .raw⟩ ∧ ∀ h, r.handles h = false) ∧
    ¬ (firmwareMachine "/nvd".toList).Along FirmwareBalanced .empty
      [.get (oneFirmware []) "gsp".toList .passing] ∧
    ¬ (firmwareMachine "/nvd".toList).Along FirmwareBalanced .empty
      [.get (oneFirmware "/nvd".toList) "gsp".toList .passing, .put 0x1000] := by
  have hget := nvGetFirmware_not_found (s := .empty) (by decide) foundFile_gsp_elsewhere
  have hleft := firmwareMachine_next_get (r := .empty) hget
  have hread : nvGetFirmware (oneFirmware "/nvd".toList) "/nvd".toList "gsp".toList .empty .passing =
      .ok (⟨some (lookedUpPath "/nvd".toList "gsp".toList), 0x1000, some (0x2000, 3)⟩,
        FirmwareState.empty.retaining 0x1000 ⟨0x2000, 3⟩ (.bytes [1, 2, 3])) :=
    nvGetFirmware_of_buffer (by decide) (foundFile_gsp_here _) rfl (by decide) (by decide)
  have hheld := firmwareMachine_next_get (r := .empty) hread
  have hput : ∀ result, (firmwareMachine "/nvd".toList).call (FirmwareRun.empty.handOut result
      (FirmwareState.empty.retaining 0x1000 ⟨0x2000, 3⟩ (.bytes [1, 2, 3]))) (.put 0x1000) = .error .overRelease :=
    fun _ => firmwareMachine_put (backs_retaining (by decide) (by decide))
  refine ⟨⟨_, Machine.after_cons_of_next hleft, rfl, fun _ => rfl⟩, ?_, ?_⟩
  · rw [Machine.along_cons_of_next hleft, firmwareMachine_get (r := .empty) hget]
    rintro ⟨⟨hbalanced, -⟩, -⟩
    have hblocks := congrArg (FirmwareState.blocks · 0x1000) ((hbalanced _ rfl).1 rfl).1
    cases hblocks
  · rw [Machine.along_cons_of_next hheld, Machine.along_cons]
    rw [hput]
    exact fun h => h.2.1

end NVMac.Kernel
