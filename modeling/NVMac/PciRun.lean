import NVMac.PciConfig

/-!
# The accessors of configuration space over a run

Of configuration space they show nothing, but the space that they go to they serve as a store of bytes:
a read of any width finds each byte as the last access that was taken and covered it left it, and as it
was before the run if there was none (`pciRun_remembers`). They reach three bytes past the end.
-/

namespace NVMac
open Bytes

/-- The write that a call makes, if it is one that is taken. -/
def PciCall.taken : PciCall → Option Write
  | .write w offset value =>
    if offset ≥ nvPcieCfgMaxOffset then none else some ⟨offset.toNat, w.bytes, value.toNat⟩
  | _ => none

def takenWrites (calls : List PciCall) : List Write := calls.filterMap PciCall.taken

/-- Byte `i` of a value, the lowest first. -/
def byteOf {w : Width} (v : w.Value) (i : Nat) : BitVec 8 := v.extractLsb' (8 * i) 8

/-- What the run `calls` has left of the device `d`, and what the accessors answer then. -/
structure Remembers (port : Port) (d : PciDevice) (calls : List PciCall) (d' : PciDevice) : Prop where
  read : ∀ w offset, offset < nvPcieCfgMaxOffset → (osPciReadOf port d' offset w).1 = .ok ∧
    ∀ i < w.bytes, byteOf (osPciReadOf port d' offset w).2 i =
      lastByte (d.space port) (takenWrites calls) (offset.toNat + i)
  refused : ∀ w offset, offset ≥ nvPcieCfgMaxOffset →
    osPciReadOf port d' offset w = (.errNotSupported, refusedValue w)
  beyond : ∀ a ≥ nvPcieCfgMaxOffset.toNat + 3, d'.space port a = d.space port a
  others : ∀ other ≠ port, d'.space other = d.space other
  config : d'.config = d.config
  ids : osPciInitHandle d' = osPciInitHandle d

section
variable {port other : Port} {d : PciDevice} {w : Width} {s : Store} {offset : NvU32}

@[simp] theorem space_setSpace : (d.setSpace s port).space port = s := by cases port <;> rfl

theorem space_setSpace_ne (h : other ≠ port) : (d.setSpace s port).space other = d.space other := by
  cases port with
  | driverKit =>
    cases other with
    | driverKit => exact absurd rfl h
    | kernel => rfl
  | kernel =>
    cases other with
    | driverKit => rfl
    | kernel => exact absurd rfl h

@[simp] theorem config_setSpace : (d.setSpace s port).config = d.config := by cases port <;> rfl

theorem pciCall_eq (l : PciCall) :
    pciCall port d l = (d.setSpace (writes (d.space port) l.taken.toList) port) := by
  have hself : d.setSpace (d.space port) port = d := by cases port <;> rfl
  cases l with
  | read w offset => exact hself.symm
  | initHandle => exact hself.symm
  | write w offset value =>
    rw [pciCall, osPciWriteOf_eq, osPciWrite, PciCall.taken]
    by_cases hoffset : offset ≥ nvPcieCfgMaxOffset
    · rw [if_pos hoffset, if_pos hoffset]
      exact hself.symm
    · rw [if_neg hoffset, if_neg hoffset]
      rfl

theorem bytes_le (w : Width) : w.bytes ≤ 4 := by cases w <;> decide

/-- A write that is taken starts in configuration space. -/
theorem takenWrites_end {calls : List PciCall} {u : Write} (hu : u ∈ takenWrites calls) :
    u.offset + u.width ≤ nvPcieCfgMaxOffset.toNat + 3 := by
  obtain ⟨l, -, hl⟩ := List.mem_filterMap.1 hu
  cases l with
  | read w offset => cases hl
  | initHandle => cases hl
  | write w offset value =>
    rw [PciCall.taken] at hl
    split at hl
    · cases hl
    · rename_i hoffset
      obtain rfl := Option.some.inj hl
      have hlt : offset.toNat < nvPcieCfgMaxOffset.toNat := BitVec.lt_def.1 (BitVec.not_le.1 hoffset)
      have hwidth := bytes_le w
      show offset.toNat + w.bytes ≤ _
      omega

theorem byteOf_value (i : Nat) :
    byteOf (value s w offset) i = BitVec.ofNat 8 (read s offset.toNat w.bytes / 256 ^ i) := by
  have hlt : read s offset.toNat w.bytes < 2 ^ (8 * w.bytes) := two_pow_bits w ▸ read_lt
  apply BitVec.eq_of_toNat_eq
  rw [byteOf, value, BitVec.extractLsb'_toNat, BitVec.toNat_ofNat, BitVec.toNat_ofNat, Nat.mod_eq_of_lt hlt,
    Nat.shiftRight_eq_div_pow, Nat.pow_mul]

end

/-- The state that a run comes to. -/
theorem after_pciMachine (port : Port) (calls : List PciCall) (d : PciDevice) : ∃ d',
    (pciMachine port).after d calls = some d' ∧ d'.space port = writes (d.space port) (takenWrites calls) ∧
      d'.config = d.config ∧ ∀ other ≠ port, d'.space other = d.space other := by
  induction calls generalizing d with
  | nil => exact ⟨d, rfl, rfl, rfl, fun _ _ => rfl⟩
  | cons l calls ih =>
    obtain ⟨d', hafter, hspace, hconfig, hothers⟩ := ih (pciCall port d l)
    rw [pciCall_eq, space_setSpace] at hspace
    rw [pciCall_eq, config_setSpace] at hconfig
    refine ⟨d', hafter, hspace.trans ?_, hconfig, fun other hother => ?_⟩
    · have hcons : takenWrites (l :: calls) = l.taken.toList ++ takenWrites calls := by
        rw [takenWrites, List.filterMap_cons]
        cases l.taken <;> rfl
      rw [hcons, writes, writes, writes, List.foldl_append]
    · rw [hothers other hother, pciCall_eq, space_setSpace_ne hother]

/-- After every run of accesses of any width, at any offsets, the accessors answer as a store of bytes
that holds the last writes. -/
theorem pciRun_remembers (port : Port) (d : PciDevice) (calls : List PciCall) :
    ∃ d', (pciMachine port).after d calls = some d' ∧ Remembers port d calls d' := by
  obtain ⟨d', hafter, hspace, hconfig, hothers⟩ := after_pciMachine port calls d
  refine ⟨d', hafter, fun w offset hoffset => ?_, fun w offset hoffset => ?_, fun a ha => ?_, hothers,
    hconfig, ?_⟩
  · rw [osPciReadOf_eq, osPciRead, if_neg (BitVec.not_le.2 hoffset)]
    refine ⟨rfl, fun i hi => ?_⟩
    rw [byteOf_value, hspace, read_writes_byte hi]
  · rw [osPciReadOf_eq, osPciRead, if_pos hoffset]
  · rw [hspace, writes_eq, lastByte_untouched fun u hu => (takenWrites_end hu).trans ha]
  · rw [osPciInitHandle, hconfig]
    rfl

/-- A word written over half of a dword, then read across both ends. -/
example : ((pciMachine .kernel).after idDevice [.write .dword 0x10 0x44332211, .write .word 0x12 0xbbaa]).map
    (osPciReadDword .kernel · 0x11) = some (.ok, 0x00bbaa22) := by decide

end NVMac
