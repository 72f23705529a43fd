import NVMac.Types
import NVMac.Lib.Bytes
import NVMac.Lib.Machine

/-!
# PCI configuration access (`pci_driverkit.cpp`, `pci_kernel.cpp`)

The accessors of the RM for configuration space go to the first BAR in the DriverKit port and to I/O
space in the kernel port. They look at the first byte of an access only, and a word that is refused
reads as a byte of ones. `pciRun_law_iff` says where none of this is seen.
-/

namespace NVMac
open Bytes

inductive Width
  | byte | word | dword
deriving DecidableEq, Repr

def Width.bytes : Width → Nat
  | byte => 1
  | word => 2
  | dword => 4

abbrev Width.Value (w : Width) := BitVec (8 * w.bytes)

/-- The bytes of configuration space from `nvPcieCfgMaxOffset` on mean nothing. -/
structure PciDevice where
  config : Store
  memory : Store
  io : Store

def nvPcieCfgMaxOffset : NvU32 := 0x1000

def kIOPCIConfigurationOffsetVendorID : NvU32 := 0

def kIOPCIConfigurationOffsetDeviceID : NvU32 := 2

namespace PciDevice

/-- Where `MemoryRead*` and `MemoryWrite*` go, and `ioRead*` and `ioWrite*`. -/
def space (d : PciDevice) : Port → Store
  | .driverKit => d.memory
  | .kernel => d.io

def setSpace (d : PciDevice) (space : Store) : Port → PciDevice
  | .driverKit => { d with memory := space }
  | .kernel => { d with io := space }

end PciDevice

def value (s : Store) (w : Width) (offset : NvU32) : w.Value := BitVec.ofNat _ (read s offset.toNat w.bytes)

def osPciInitHandle (d : PciDevice) : Width.word.Value × Width.word.Value :=
  (value d.config .word kIOPCIConfigurationOffsetVendorID, value d.config .word kIOPCIConfigurationOffsetDeviceID)

section
variable (port : Port)

/-- The accessors of one kind; `refused` is what is stored if nothing is read. -/
def osPciRead (w : Width) (refused : w.Value) (d : PciDevice) (offset : NvU32) : NvStatus × w.Value :=
  if offset ≥ nvPcieCfgMaxOffset then (.errNotSupported, refused)
  else (.ok, value (d.space port) w offset)

def osPciWrite (w : Width) (d : PciDevice) (offset : NvU32) (value : w.Value) : NvStatus × PciDevice :=
  if offset ≥ nvPcieCfgMaxOffset then (.errNotSupported, d)
  else (.ok, d.setSpace (write (d.space port) offset.toNat w.bytes value.toNat) port)

def osPciReadByte : PciDevice → NvU32 → NvStatus × Width.byte.Value := osPciRead port .byte 0xFF

def osPciReadWord : PciDevice → NvU32 → NvStatus × Width.word.Value := osPciRead port .word 0xFF

def osPciReadDword : PciDevice → NvU32 → NvStatus × Width.dword.Value := osPciRead port .dword 0xFFFFFFFF

def osPciWriteByte : PciDevice → NvU32 → Width.byte.Value → NvStatus × PciDevice := osPciWrite port .byte

def osPciWriteWord : PciDevice → NvU32 → Width.word.Value → NvStatus × PciDevice := osPciWrite port .word

def osPciWriteDword : PciDevice → NvU32 → Width.dword.Value → NvStatus × PciDevice := osPciWrite port .dword

def osPciReadOf (d : PciDevice) (offset : NvU32) : (w : Width) → NvStatus × w.Value
  | .byte => osPciReadByte port d offset
  | .word => osPciReadWord port d offset
  | .dword => osPciReadDword port d offset

def osPciWriteOf (d : PciDevice) (offset : NvU32) : (w : Width) → w.Value → NvStatus × PciDevice
  | .byte => osPciWriteByte port d offset
  | .word => osPciWriteWord port d offset
  | .dword => osPciWriteDword port d offset

inductive PciCall
  | read (w : Width) (offset : NvU32)
  | write (w : Width) (offset : NvU32) (value : w.Value)
  | initHandle

/-- The device after a call. -/
def pciCall (d : PciDevice) : PciCall → PciDevice
  | .write w offset value => (osPciWriteOf port d offset w value).2
  | _ => d

def pciMachine : Machine PciDevice PciCall PciDevice where
  call := pciCall port
  next := some

end

/-- All bytes of the access are in configuration space. -/
def Fits (w : Width) (offset : NvU32) : Prop := offset.toNat + w.bytes ≤ nvPcieCfgMaxOffset.toNat

instance (w : Width) (offset : NvU32) : Decidable (Fits w offset) :=
  inferInstanceAs (Decidable (_ ≤ _))

/-- The law of configuration space: accesses that fit see its bytes and no other, the others are
refused, and the ids are the words at 0 and 2. -/
def PciLaw (port : Port) (d : PciDevice) : PciCall → PciDevice → Prop
  | .read w offset, d' => d' = d ∧
    ((osPciReadOf port d offset w).1 = .ok ↔ Fits w offset) ∧
    (osPciReadOf port d offset w).2 = if Fits w offset then value d.config w offset else BitVec.allOnes _
  | .write w offset value, d' =>
    ((osPciWriteOf port d offset w value).1 = .ok ↔ Fits w offset) ∧
    d' = if Fits w offset then { d with config := write d.config offset.toNat w.bytes value.toNat } else d
  | .initHandle, d' => d' = d ∧
    osPciInitHandle d = ((osPciReadWord port d 0).2, (osPciReadWord port d 2).2)

/-- A read is of bytes that the space accessed has the same as configuration space, or is refused and
not of a word. A write is refused, or writes what is in both already. -/
def SpacesAgree (port : Port) (d : PciDevice) : PciCall → Prop
  | .read w offset => if offset ≥ nvPcieCfgMaxOffset then w ≠ .word
    else Fits w offset ∧ value (d.space port) w offset = value d.config w offset
  | .write w offset v => offset ≥ nvPcieCfgMaxOffset ∨
    Fits w offset ∧ value (d.space port) w offset = v ∧ value d.config w offset = v
  | .initHandle => value (d.space port) .word 0 = value d.config .word 0 ∧
    value (d.space port) .word 2 = value d.config .word 2

section
variable {port : Port} {d : PciDevice} {w : Width} {offset : NvU32} {refused v : w.Value}

theorem not_fits (h : offset ≥ nvPcieCfgMaxOffset) : ¬ Fits w offset := by
  have hle : nvPcieCfgMaxOffset.toNat ≤ offset.toNat := BitVec.le_def.1 h
  have hpos : 0 < w.bytes := by cases w <;> decide
  unfold Fits
  omega

theorem two_pow_bits (w : Width) : 2 ^ (8 * w.bytes) = 256 ^ w.bytes := by cases w <;> rfl

theorem value_eq_iff {s : Store} : value s w offset = v ↔ read s offset.toNat w.bytes = v.toNat := by
  have hlt : read s offset.toNat w.bytes < 2 ^ (8 * w.bytes) := two_pow_bits w ▸ read_lt
  rw [value, ← BitVec.toNat_inj, BitVec.toNat_ofNat, Nat.mod_eq_of_lt hlt]

theorem write_eq_self_iff_value {s : Store} :
    s = write s offset.toNat w.bytes v.toNat ↔ value s w offset = v := by
  rw [eq_comm, write_eq_self_iff, value_eq_iff, ← two_pow_bits, Nat.mod_eq_of_lt v.isLt]

/-- What a refused read stores. -/
def refusedValue : (w : Width) → w.Value
  | .byte => 0xFF
  | .word => 0xFF
  | .dword => 0xFFFFFFFF

theorem refusedValue_eq_iff : refusedValue w = BitVec.allOnes _ ↔ w ≠ .word := by
  cases w <;> decide

theorem osPciReadOf_eq : osPciReadOf port d offset w = osPciRead port w (refusedValue w) d offset := by
  cases w <;> rfl

theorem osPciWriteOf_eq : osPciWriteOf port d offset w v = osPciWrite port w d offset v := by
  cases w <;> rfl

/-- A write elsewhere is one to configuration space where it changes neither. -/
theorem setSpace_eq_iff {space config : Store} :
    d.setSpace space port = { d with config := config } ↔ d.space port = space ∧ d.config = config := by
  obtain ⟨c, m, i⟩ := d
  cases port with
  | driverKit =>
    constructor
    · intro h
      obtain ⟨hc, hm, -⟩ := PciDevice.mk.inj h
      exact ⟨hm.symm, hc⟩
    · rintro ⟨rfl, rfl⟩
      rfl
  | kernel =>
    constructor
    · intro h
      obtain ⟨hc, -, hi⟩ := PciDevice.mk.inj h
      exact ⟨hi.symm, hc⟩
    · rintro ⟨rfl, rfl⟩
      rfl

theorem pciLaw_read_iff : PciLaw port d (.read w offset) (pciCall port d (.read w offset)) ↔
    SpacesAgree port d (.read w offset) := by
  rw [PciLaw, SpacesAgree, osPciReadOf_eq, osPciRead]
  by_cases hoffset : offset ≥ nvPcieCfgMaxOffset
  · rw [if_pos hoffset, if_pos hoffset, if_neg (not_fits hoffset)]
    have hrefused : (NvStatus.errNotSupported = .ok) ↔ Fits w offset := iff_of_false nofun (not_fits hoffset)
    exact ⟨fun h => refusedValue_eq_iff.1 h.2.2, fun h => ⟨rfl, hrefused, refusedValue_eq_iff.2 h⟩⟩
  · rw [if_neg hoffset, if_neg hoffset]
    constructor
    · rintro ⟨-, hfits, hvalue⟩
      rw [if_pos (hfits.1 rfl)] at hvalue
      exact ⟨hfits.1 rfl, hvalue⟩
    · rintro ⟨hfits, hvalue⟩
      rw [if_pos hfits]
      exact ⟨rfl, iff_of_true rfl hfits, hvalue⟩

theorem pciLaw_write_iff : PciLaw port d (.write w offset v) (pciCall port d (.write w offset v)) ↔
    SpacesAgree port d (.write w offset v) := by
  rw [PciLaw, SpacesAgree, pciCall, osPciWriteOf_eq, osPciWrite]
  by_cases hoffset : offset ≥ nvPcieCfgMaxOffset
  · rw [if_pos hoffset, if_neg (not_fits hoffset)]
    have hrefused : (NvStatus.errNotSupported = .ok) ↔ Fits w offset := iff_of_false nofun (not_fits hoffset)
    exact iff_of_true ⟨hrefused, rfl⟩ (.inl hoffset)
  · rw [if_neg hoffset]
    constructor
    · rintro ⟨hfits, hdevice⟩
      rw [if_pos (hfits.1 rfl), setSpace_eq_iff, write_eq_self_iff_value, write_eq_self_iff_value] at hdevice
      exact .inr ⟨hfits.1 rfl, hdevice⟩
    · intro h
      obtain ⟨hfits, hdevice⟩ := h.resolve_left hoffset
      rw [if_pos hfits, setSpace_eq_iff, write_eq_self_iff_value, write_eq_self_iff_value]
      exact ⟨iff_of_true rfl hfits, hdevice⟩

theorem pciLaw_initHandle_iff : PciLaw port d .initHandle (pciCall port d .initHandle) ↔
    SpacesAgree port d .initHandle := by
  rw [PciLaw, SpacesAgree]
  constructor
  · rintro ⟨-, h⟩
    obtain ⟨hvendor, hdevice⟩ := Prod.mk.inj h
    exact ⟨hvendor.symm, hdevice.symm⟩
  · rintro ⟨hvendor, hdevice⟩
    exact ⟨rfl, Prod.ext hvendor.symm hdevice.symm⟩

end

/-- The law holds along a run exactly as far as the spaces agree on what is accessed. -/
theorem pciRun_law_iff (port : Port) (d : PciDevice) (calls : List PciCall) :
    (pciMachine port).Along (PciLaw port) d calls ↔
      (pciMachine port).Along (fun d l _ => SpacesAgree port d l) d calls := by
  refine Machine.along_iff (I := fun _ => True) (fun d l _ => ?_) (fun _ _ _ _ _ _ => trivial) trivial
  cases l with
  | read w offset => exact pciLaw_read_iff
  | write w offset v => exact pciLaw_write_iff
  | initHandle => exact pciLaw_initHandle_iff

/-- A device with a vendor and a device id, whose BAR and I/O space read as zeros. -/
def idDevice : PciDevice where
  config a := if a = 0 then 0xde else if a = 1 then 0x10 else if a = 2 then 0x84 else if a = 3 then 0x26 else 0
  memory _ := 0
  io _ := 0

/-- The vendor id reads as 0, an access past the end is taken, and a word that is refused reads as a
byte of ones. -/
theorem pciRun_idDevice :
    osPciInitHandle idDevice = (0x10de, 0x2684) ∧
    osPciReadWord .driverKit idDevice 0 = (.ok, 0) ∧ osPciReadWord .kernel idDevice 0 = (.ok, 0) ∧
    (osPciWriteDword .driverKit idDevice 0xffe 1).1 = .ok ∧
    osPciReadWord .kernel idDevice 0x1000 = (.errNotSupported, 0x00ff) ∧
    ¬ (pciMachine .driverKit).Along (PciLaw .driverKit) idDevice [.read .word 0] ∧
    ¬ (pciMachine .kernel).Along (PciLaw .kernel) idDevice [.read .word 0] := by
  refine ⟨by decide, by decide, by decide, by decide, by decide, fun h => ?_, fun h => ?_⟩
  · exact absurd h.1.2.2 (by decide)
  · exact absurd h.1.2.2 (by decide)

end NVMac
