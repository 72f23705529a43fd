import NVMac.Firmware
import NVMac.Mappings
import NVMac.Lib.Holders

/-!
# Firmware in the DriverKit port (`firmware_driverkit.cpp`)

The DriverKit port maps the resource of the bundle, and the handle is the mapped file, with the one
retain that `nv_put_firmware` releases. `firmwareRun_delivers` is about all runs of both calls: a file
is mapped as long as its handle is out, and all of it is delivered if it has fewer than 2^32 bytes.
-/

namespace NVMac.DriverKit
open Refs Registry Outcome

abbrev FileHandle := Nat

/-- `data` is where the file is mapped. -/
structure OSMappedFile where
  data : NvU64
  content : List NvU8

def OSMappedFile.size (file : OSMappedFile) : Nat := file.content.length

/-- The resources of the bundle by their paths. -/
abbrev OSBundle := List Char → Option (List NvU8)

/-- `answer` is the object that the system makes, and where it maps the file; `none`: it fails. -/
def loadResource (bundle : OSBundle) (path : List Char) (answer : Option (FileHandle × NvU64)) :
    Option (FileHandle × OSMappedFile) :=
  match bundle path, answer with
  | some content, some (h, data) => some (h, ⟨data, content⟩)
  | _, _ => none

/-- `out` is what is written to `*fw_buf` and `*fw_size`; no handle is `NULL`. -/
structure FirmwareResult where
  lookedUp : List Char
  handle : Option FileHandle
  out : Option (NvU64 × NvU32)

def nvGetFirmware (bundle : OSBundle) (name : List Char) (files : Heap FileHandle OSMappedFile)
    (answer : Option (FileHandle × NvU64)) : FirmwareResult × Heap FileHandle OSMappedFile :=
  let firmwarePath := Kernel.nvFirmwareForName name
  match loadResource bundle firmwarePath answer with
  | none => (⟨firmwarePath, none, none⟩, files)
  | some (h, outputFile) =>
    (⟨firmwarePath, some h, some (outputFile.data, BitVec.ofNat 32 outputFile.size)⟩, create files h outputFile)

def nvPutFirmware (files : Heap FileHandle OSMappedFile) (fwHandle : Option FileHandle) :
    Except Fault (Heap FileHandle OSMappedFile) :=
  match fwHandle with
  | none => .ok files
  | some h => live (release files h)

/-! ### Runs -/

/-- `held` are the files by the handles that are out. -/
structure FirmwareRun where
  files : Heap FileHandle OSMappedFile
  held : FileHandle → Option OSMappedFile

def FirmwareRun.empty : FirmwareRun := ⟨.empty, fun _ => none⟩

inductive FirmwareCall
  | get (name : List Char) (answer : Option (FileHandle × NvU64))
  | put (fwHandle : Option FileHandle)

def FirmwareRun.got (r : FirmwareRun) (files : Heap FileHandle OSMappedFile) : Option FileHandle → FirmwareRun
  | none => ⟨files, r.held⟩
  | some h => ⟨files, Function.update r.held h ((files h).map (·.value))⟩

def FirmwareRun.putBack (r : FirmwareRun) (files : Heap FileHandle OSMappedFile) : Option FileHandle → FirmwareRun
  | none => ⟨files, r.held⟩
  | some h => ⟨files, Function.update r.held h none⟩

/-- `nvPutFirmware` has no result. -/
abbrev FirmwareAnswer := Except Fault (Option FirmwareResult × FirmwareRun)

def firmwareCall (bundle : OSBundle) (r : FirmwareRun) : FirmwareCall → FirmwareAnswer
  | .get name answer =>
    let (result, files) := nvGetFirmware bundle name r.files answer
    .ok (some result, r.got files result.handle)
  | .put fwHandle => do
    let files ← nvPutFirmware r.files fwHandle
    pure (none, r.putBack files fwHandle)

def firmwareMachine (bundle : OSBundle) : Machine FirmwareRun FirmwareCall FirmwareAnswer where
  call := firmwareCall bundle
  next a := a.toOption.map Prod.snd

/-- The system makes no object that is there, and each handle is put once. -/
def FirmwareLegal (r : FirmwareRun) : FirmwareCall → Prop
  | .get _ answer => ∀ h data, answer = some (h, data) → r.files h = none
  | .put fwHandle => ∀ h, fwHandle = some h → r.held h ≠ none

/-- The whole resource is mapped at the delivered address. As many bytes of it as the delivered size
says are all of it if there are fewer than 2^32. -/
structure Readable (file : OSMappedFile) (content : List NvU8) (out : Option (NvU64 × NvU32)) : Prop where
  mapped : file.content = content
  size : out = some (file.data, BitVec.ofNat 32 content.length)
  whole : content.length < 2 ^ 32 → ∀ data size, out = some (data, size) → file.content.take size.toNat = content

/-- The mapped files are those of the handles that are out. A call that fails changes nothing; one that
does not delivers the resource under its path. -/
def DeliversFirmware (bundle : OSBundle) (r : FirmwareRun) (l : FirmwareCall) : FirmwareAnswer → Prop
  | .error _ => False
  | .ok (result, r') => Owned r'.files r'.held ∧
    match l with
    | .get name answer => ∃ res, result = some res ∧ res.lookedUp = Kernel.nvFirmwareForName name ∧
      (bundle res.lookedUp = none ∨ answer = none → res.handle = none ∧ res.out = none ∧ r' = r) ∧
      ∀ content h data, bundle res.lookedUp = some content → answer = some (h, data) → res.handle = some h ∧
        ∃ file, r'.held = Function.update r.held h (some file) ∧ Readable file content res.out
    | .put fwHandle => ∀ h, r'.held h = if fwHandle = some h then none else r.held h

section
variable {bundle : OSBundle} {r : FirmwareRun} {l : FirmwareCall} {name : List Char} {files : Heap FileHandle OSMappedFile}

theorem nvGetFirmware_failed {answer : Option (FileHandle × NvU64)}
    (h : bundle (Kernel.nvFirmwareForName name) = none ∨ answer = none) :
    nvGetFirmware bundle name files answer = (⟨Kernel.nvFirmwareForName name, none, none⟩, files) := by
  unfold nvGetFirmware loadResource
  rcases h with h | rfl
  · simp only [h]
  · rcases hcontent : bundle (Kernel.nvFirmwareForName name) with - | content
    · simp only [hcontent]
    · simp only [hcontent]

theorem nvGetFirmware_found {content : List NvU8} (h : FileHandle) (data : NvU64)
    (hcontent : bundle (Kernel.nvFirmwareForName name) = some content) :
    nvGetFirmware bundle name files (some (h, data)) =
      (⟨Kernel.nvFirmwareForName name, some h, some (data, BitVec.ofNat 32 content.length)⟩,
        create files h ⟨data, content⟩) := by
  unfold nvGetFirmware loadResource
  simp only [hcontent]
  rfl

theorem readable (data : NvU64) (content : List NvU8) :
    Readable ⟨data, content⟩ content (some (data, BitVec.ofNat 32 content.length)) where
  mapped := rfl
  size := rfl
  whole := by
    rintro hsize _ _ ⟨⟩
    rw [BitVec.toNat_ofNat, Nat.mod_eq_of_lt hsize]
    exact List.take_length

theorem firmwareCall_delivers (hr : Owned r.files r.held) (hl : FirmwareLegal r l) :
    DeliversFirmware bundle r l (firmwareCall bundle r l) := by
  cases l with
  | get name answer =>
    by_cases hfailed : bundle (Kernel.nvFirmwareForName name) = none ∨ answer = none
    · simp only [firmwareCall, nvGetFirmware_failed hfailed]
      refine ⟨hr, _, rfl, rfl, fun _ => ⟨rfl, rfl, rfl⟩, fun content h data hcontent hanswer => ?_⟩
      rcases hfailed with hnone | hnone
      · cases hnone.symm.trans hcontent
      · cases hnone.symm.trans hanswer
    · obtain ⟨hfound, hmade⟩ := not_or.1 hfailed
      obtain ⟨content, hcontent⟩ := Option.ne_none_iff_exists'.1 hfound
      obtain ⟨⟨h, data⟩, rfl⟩ := Option.ne_none_iff_exists'.1 hmade
      have hgot : r.got (create r.files h ⟨data, content⟩) (some h) =
          ⟨create r.files h ⟨data, content⟩, Function.update r.held h (some ⟨data, content⟩)⟩ := by
        simp [FirmwareRun.got, Refs.create]
      simp only [firmwareCall, nvGetFirmware_found h data hcontent, hgot]
      refine ⟨hr.create h _, _, rfl, rfl, fun hnone => absurd hnone hfailed, ?_⟩
      intro content' h' data' hcontent' hanswer
      obtain rfl := Option.some.inj (hcontent.symm.trans hcontent')
      cases hanswer
      exact ⟨rfl, _, rfl, readable data content⟩
  | put fwHandle =>
    rcases fwHandle with - | h
    · exact ⟨hr, fun h => by simp [FirmwareRun.putBack]⟩
    · obtain ⟨file, hfile⟩ := Option.ne_none_iff_exists'.1 (hl h rfl)
      obtain ⟨hrelease, howned⟩ := hr.release hfile
      simp only [firmwareCall, nvPutFirmware, hrelease]
      refine ⟨howned, fun h' => ?_⟩
      by_cases hh : h' = h
      · simp [FirmwareRun.putBack, hh]
      · simp [FirmwareRun.putBack, hh, Ne.symm hh]

end

/-- In every run, whatever fails, the mapped files are those of the handles that are out, and each get
delivers the resource or nothing. -/
theorem firmwareRun_delivers (bundle : OSBundle) (calls : List FirmwareCall)
    (hlegal : (firmwareMachine bundle).Along (fun r l _ => FirmwareLegal r l) .empty calls) :
    (firmwareMachine bundle).Along (DeliversFirmware bundle) .empty calls := by
  refine Machine.along_of_legal (I := fun r => Owned r.files r.held) (fun r l => firmwareCall_delivers) ?_ .empty hlegal
  intro r l hr hl r' hr'
  have hdelivers : DeliversFirmware bundle r l (firmwareCall bundle r l) := firmwareCall_delivers hr hl
  obtain ⟨⟨result, r''⟩, hok, rfl⟩ := Option.map_eq_some_iff.1 hr'
  have hcall : firmwareCall bundle r l = .ok (result, r'') := eq_ok_of_toOption hok
  rw [hcall] at hdelivers
  exact hdelivers.1

/-- A bundle with one resource of three bytes. -/
def oneResource : OSBundle := fun path => if path = Kernel.nvFirmwareForName ['g'] then some [1, 2, 3] else none

theorem firmwareRun_delivers_oneResource : (firmwareMachine oneResource).Along (DeliversFirmware oneResource) .empty
    [.get ['g'] none, .get ['h'] (some (0, 0x1000)), .get ['g'] (some (0, 0x1000)), .put none, .put (some 0)] := by
  refine firmwareRun_delivers oneResource _ ⟨nofun, ?_⟩
  rintro r ⟨⟩
  refine ⟨fun _ _ _ => rfl, ?_⟩
  rintro r ⟨⟩
  refine ⟨fun _ _ _ => rfl, ?_⟩
  rintro r ⟨⟩
  refine ⟨nofun, ?_⟩
  rintro r ⟨⟩
  refine ⟨?_, fun _ _ => trivial⟩
  rintro h ⟨⟩
  exact show some _ ≠ none from nofun

end NVMac.DriverKit
