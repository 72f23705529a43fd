import NVMac.Types
import NVMac.Lib.Slots

/-!
# DMA pages in the DriverKit port (`memory_driverkit.cpp`)

`nvAllocPages` asks for one buffer and publishes the page addresses in it as page table entries;
the mapping functions compute CPU addresses from the same buffer. The capacity asked for and the
page table agree exactly when `FitsRequest` holds and the loop's `int` counter does not overflow
(`nvAllocPages_neverOutside_iff`); the two views of page `i` agree exactly when they step by the
same page size (`mapping_sameByte_iff`).
-/

namespace NVMac.DriverKit
open Slots

/-- The address range of a buffer; it does not run past the 64-bit address space. -/
structure IOAddressSegment where
  address : NvU64
  length : Nat
  fits : address.toNat + length ≤ 2 ^ 64
deriving DecidableEq

/-- `IOBufferMemoryDescriptor::Create`: `answer` is where the system would put the buffer (`none`:
it fails). The range is the capacity rounded up to a whole OS page. -/
def create (g : OsPage) (capacity : NvU64) (answer : Option NvU64) : Option IOAddressSegment :=
  answer.bind fun address =>
    if h : address.toNat + roundUp capacity.toNat g.osPageSize.toNat ≤ 2 ^ 64 then
      some ⟨address, _, h⟩
    else none

/-- `totalSize`, as `nv_alloc_pages` hands it to `Create`: the second product is made of `NvU32` and
`int` factors, in 32 bits. -/
def totalSize (pageCount : NvU32) (pageSize : NvU64) : NvU64 :=
  let totalSize := pageCount.setWidth 64 * pageSize
  if 1 * 1024 * 1024 * 1024 ≤ totalSize then
    (pageCount * 1 * 1024 * 1024 * 1024).setWidth 64
  else totalSize

/-- The page table loop from `i`, with `n` iterations to go. `i` is an `int`. -/
def pteLoop (address pageSize : NvU64) : Nat → Nat → Except Fault (List NvU64)
  | _, 0 => .ok []
  | i, n + 1 => do
    let pte := address + BitVec.ofNat 64 i * pageSize
    if i + 1 = 2 ^ 31 then .error .signedOverflow
    else return pte :: (← pteLoop address pageSize (i + 1) n)

/-- What a successful `nv_alloc_pages` leaves: the descriptor in `*priv_data`, the entries written
to `pte_array`, and the range it zeroed. -/
structure Pages where
  descriptor : IOAddressSegment
  pteArray : List NvU64
  zeroed : Option IOAddressSegment
deriving DecidableEq

def nvAllocPages (g : OsPage) (pageCount : NvU32) (pageSize : NvU64) (contiguous zeroed : NvBool)
    (answer : Option NvU64) : Except Fault (NvStatus × Option Pages) :=
  match create g (totalSize pageCount pageSize) answer with
  | none => .ok (.errNoMemory, none)
  | some range =>
    if range.address = 0 then .error .panic
    else do
      let pteArray ← if contiguous then pure [range.address]
        else pteLoop range.address pageSize 0 pageCount.toNat
      return (.ok, some ⟨range, pteArray, if zeroed then some range else none⟩)

def nvAllocKernelMapping (g : OsPage) (descriptor : IOAddressSegment) (pageIndex : NvU64)
    (pageOffset : NvU32) : NvU64 :=
  descriptor.address + pageIndex * g.osPageSize.setWidth 64 + pageOffset.setWidth 64

def nvAllocUserMapping (g : OsPage) (descriptor : IOAddressSegment) (pageIndex : NvU64)
    (pageOffset : NvU32) : NvStatus × NvU64 :=
  (.ok, descriptor.address + pageIndex * g.osPageSize.setWidth 64 + pageOffset.setWidth 64)

section create
variable {g : OsPage} {capacity : NvU64} {answer : Option NvU64} {range : IOAddressSegment}

theorem length_of_create (h : create g capacity answer = some range) :
    range.length = roundUp capacity.toNat g.osPageSize.toNat := by
  obtain ⟨address, -, h⟩ := Option.bind_eq_some_iff.1 h
  split at h
  · rw [← Option.some.inj h]
  · cases h

end create

theorem toNat_totalSize {pageCount : NvU32} {pageSize : NvU64}
    (hfit : pageCount.toNat * pageSize.toNat < 2 ^ 64) :
    (totalSize pageCount pageSize).toNat =
      if pageCount.toNat * pageSize.toNat < 2 ^ 30 then pageCount.toNat * pageSize.toNat
      else pageCount.toNat % 4 * 2 ^ 30 := by
  have hprod : (pageCount.setWidth 64 * pageSize).toNat = pageCount.toNat * pageSize.toNat := by
    have h32 : pageCount.toNat < 2 ^ 64 := by have := pageCount.isLt; omega
    rw [BitVec.toNat_mul, BitVec.toNat_setWidth, Nat.mod_eq_of_lt h32, Nat.mod_eq_of_lt hfit]
  have hwrap : ((pageCount * 1 * 1024 * 1024 * 1024).setWidth 64).toNat =
      pageCount.toNat % 4 * 2 ^ 30 := by
    have h1 : (1 : NvU32).toNat = 1 := rfl
    have hkib : (1024 : NvU32).toNat = 1024 := rfl
    have h32 := pageCount.isLt
    simp only [BitVec.toNat_setWidth, BitVec.toNat_mul, h1, hkib]
    omega
  have hgib : (1 * 1024 * 1024 * 1024 : NvU64).toNat = 2 ^ 30 := rfl
  unfold totalSize
  simp only [BitVec.le_def, hprod, hgib]
  by_cases h : pageCount.toNat * pageSize.toNat < 2 ^ 30
  · rw [if_neg (by omega), if_pos h, hprod]
  · rw [if_pos (by omega), if_neg h, hwrap]

/-! ### The page table loop -/

section pteLoop
variable {address pageSize : NvU64} {i n : Nat}

theorem pteLoop_eq (h : i + n < 2 ^ 31) : pteLoop address pageSize i n =
    .ok ((List.range' i n).map fun j => address + BitVec.ofNat 64 j * pageSize) := by
  induction n generalizing i with
  | zero => rfl
  | succ n ih =>
    rw [pteLoop, if_neg (by omega), ih (by omega)]
    rfl

theorem pteLoop_overflow (hi : i < 2 ^ 31) (h : 2 ^ 31 ≤ i + n) :
    pteLoop address pageSize i n = .error .signedOverflow := by
  induction n generalizing i with
  | zero => omega
  | succ n ih =>
    rw [pteLoop]
    by_cases hlast : i + 1 = 2 ^ 31
    · rw [if_pos hlast]
    · rw [if_neg hlast, ih (by omega) (by omega)]
      rfl

end pteLoop

/-! ### Page addresses -/

/-- Inside a buffer, the 64-bit address of the `i`-th page is the `i`-th slot. -/
theorem toNat_pageAddress {range : IOAddressSegment} {step : NvU64} {i n : Nat} (hi : i < n)
    (hn : n < 2 ^ 64) (hlen : n * step.toNat ≤ range.length) :
    (range.address + BitVec.ofNat 64 i * step).toNat = slot range.address.toNat step.toNat i := by
  have hend : slot range.address.toNat step.toNat i + step.toNat ≤
      slot range.address.toNat step.toNat n := slot_end_le hi
  have hfits := range.fits
  have haddr := range.address.isLt
  have hprod : i * step.toNat < 2 ^ 64 := by
    rcases Nat.eq_zero_or_pos step.toNat with h0 | h0
    · rw [h0, Nat.mul_zero]; decide
    · simp only [slot] at hend; omega
  have hsum : range.address.toNat + i * step.toNat < 2 ^ 64 := by
    rcases Nat.eq_zero_or_pos step.toNat with h0 | h0
    · rw [h0, Nat.mul_zero, Nat.add_zero]; exact haddr
    · simp only [slot] at hend; omega
  rw [BitVec.toNat_add, BitVec.toNat_mul, BitVec.toNat_ofNat, Nat.mod_eq_of_lt (by omega : i < 2 ^ 64),
    Nat.mod_eq_of_lt hprod, Nat.mod_eq_of_lt hsum, slot]

def pageTable (range : IOAddressSegment) (pageSize : NvU64) (n : Nat) : List NvU64 :=
  (List.range' 0 n).map fun i => range.address + BitVec.ofNat 64 i * pageSize

theorem pageTable_getElem? {range : IOAddressSegment} {pageSize : NvU64} {i n : Nat} (hi : i < n) :
    (pageTable range pageSize n)[i]? = some (range.address + BitVec.ofNat 64 i * pageSize) := by
  simp [pageTable, hi]

/-! ### Successful allocations -/

section nvAllocPages
variable {g : OsPage} {pageCount : NvU32} {pageSize : NvU64} {contiguous zeroed : NvBool}
  {answer : Option NvU64} {range : IOAddressSegment} {p : Pages}

theorem nvAllocPages_contiguous
    (hbuf : create g (totalSize pageCount pageSize) answer = some range) (hnull : range.address ≠ 0) :
    nvAllocPages g pageCount pageSize true zeroed answer =
      .ok (.ok, some ⟨range, [range.address], if zeroed then some range else none⟩) := by
  simp only [nvAllocPages, hbuf, if_neg hnull]
  rfl

theorem nvAllocPages_scattered
    (hbuf : create g (totalSize pageCount pageSize) answer = some range) (hnull : range.address ≠ 0)
    (hcount : pageCount.toNat < 2 ^ 31) :
    nvAllocPages g pageCount pageSize false zeroed answer =
      .ok (.ok, some ⟨range, pageTable range pageSize pageCount.toNat,
        if zeroed then some range else none⟩) := by
  have hloop : pteLoop range.address pageSize 0 pageCount.toNat =
      .ok (pageTable range pageSize pageCount.toNat) := pteLoop_eq (by omega)
  simp only [nvAllocPages, hbuf, if_neg hnull, hloop]
  rfl

theorem nvAllocPages_overflow
    (hbuf : create g (totalSize pageCount pageSize) answer = some range) (hnull : range.address ≠ 0)
    (hcount : 2 ^ 31 ≤ pageCount.toNat) :
    nvAllocPages g pageCount pageSize false zeroed answer = .error .signedOverflow := by
  have hloop : pteLoop range.address pageSize 0 pageCount.toNat = .error .signedOverflow :=
    pteLoop_overflow (by decide) (by omega)
  simp only [nvAllocPages, hbuf, if_neg hnull, hloop]
  rfl

theorem nvAllocPages_inv
    (h : nvAllocPages g pageCount pageSize contiguous zeroed answer = .ok (.ok, some p)) :
    create g (totalSize pageCount pageSize) answer = some p.descriptor ∧ p.descriptor.address ≠ 0 ∧
      (contiguous = false → pageCount.toNat < 2 ^ 31 ∧
        p.pteArray = pageTable p.descriptor pageSize pageCount.toNat) := by
  cases hbuf : create g (totalSize pageCount pageSize) answer with
  | none => simp [nvAllocPages, hbuf] at h
  | some range =>
    by_cases hnull : range.address = 0
    · simp [nvAllocPages, hbuf, hnull] at h
    · cases contiguous with
      | true =>
        rw [nvAllocPages_contiguous hbuf hnull] at h
        cases h
        exact ⟨rfl, hnull, fun h => by cases h⟩
      | false =>
        rcases Nat.lt_or_ge pageCount.toNat (2 ^ 31) with hcount | hcount
        · rw [nvAllocPages_scattered hbuf hnull hcount] at h
          cases h
          exact ⟨rfl, hnull, fun _ => ⟨hcount, rfl⟩⟩
        · rw [nvAllocPages_overflow hbuf hnull hcount] at h
          cases h

end nvAllocPages

/-! ### The page table against the buffer -/

/-- The buffer holds the request, and every published page lies in it, apart from the others. -/
structure Inside (pageCount : NvU32) (pageSize : NvU64) (contiguous : NvBool) (p : Pages) : Prop where
  size : pageCount.toNat * pageSize.toNat ≤ p.descriptor.length
  start : contiguous = true → p.pteArray[0]? = some p.descriptor.address
  page : contiguous = false → ∀ i < pageCount.toNat, ∃ pte, p.pteArray[i]? = some pte ∧
    p.descriptor.address.toNat ≤ pte.toNat ∧
    pte.toNat + pageSize.toNat ≤ p.descriptor.address.toNat + p.descriptor.length
  apart : contiguous = false → ∀ i < pageCount.toNat, ∀ j < pageCount.toNat, i ≠ j →
    ∀ a b, p.pteArray[i]? = some a → p.pteArray[j]? = some b → Apart pageSize.toNat a.toNat b.toNat

/-- What `nv_alloc_pages` may do: fail, stop the driver itself, or succeed with pages inside the
buffer. Undefined behaviour is not among it. -/
def NeverOutside (pageCount : NvU32) (pageSize : NvU64) (contiguous : NvBool) :
    Except Fault (NvStatus × Option Pages) → Prop
  | .ok (_, some p) => Inside pageCount pageSize contiguous p
  | .ok (_, none) => True
  | .error f => f = .panic

/-- The capacity that `totalSize` asks for covers the request. From 1 GiB on it is counted in GiB
modulo 4. -/
def FitsRequest (g : OsPage) (pageCount : NvU32) (pageSize : NvU64) : Prop :=
  pageCount.toNat * pageSize.toNat < 2 ^ 30 ∨
    pageCount.toNat * pageSize.toNat ≤ roundUp (pageCount.toNat % 4 * 2 ^ 30) g.osPageSize.toNat

instance (g : OsPage) (pageCount : NvU32) (pageSize : NvU64) :
    Decidable (FitsRequest g pageCount pageSize) :=
  inferInstanceAs (Decidable (_ ∨ _))

theorem fitsRequest_iff {g : OsPage} {pageCount : NvU32} {pageSize : NvU64} {answer : Option NvU64}
    {range : IOAddressSegment} (hfit : pageCount.toNat * pageSize.toNat < 2 ^ 64)
    (hbuf : create g (totalSize pageCount pageSize) answer = some range) :
    FitsRequest g pageCount pageSize ↔ pageCount.toNat * pageSize.toNat ≤ range.length := by
  rw [length_of_create hbuf, toNat_totalSize hfit, FitsRequest]
  by_cases h : pageCount.toNat * pageSize.toNat < 2 ^ 30
  · simp only [h, true_or, if_true, true_iff]
    exact le_roundUp g.osPageSize_pos
  · simp only [h, false_or, if_false]

theorem inside_pageTable {pageCount : NvU32} {pageSize : NvU64} {range : IOAddressSegment}
    {zeroed : Option IOAddressSegment} (hsize : pageCount.toNat * pageSize.toNat ≤ range.length) :
    Inside pageCount pageSize false ⟨range, pageTable range pageSize pageCount.toNat, zeroed⟩ := by
  have hcount : pageCount.toNat < 2 ^ 64 := by have := pageCount.isLt; omega
  have hpage : ∀ i < pageCount.toNat, ∀ pte,
      (pageTable range pageSize pageCount.toNat)[i]? = some pte →
      pte.toNat = slot range.address.toNat pageSize.toNat i := by
    intro i hi pte hpte
    rw [pageTable_getElem? hi] at hpte
    rw [← Option.some.inj hpte, toNat_pageAddress hi hcount hsize]
  refine ⟨hsize, fun h => (by cases h), fun _ i hi => ?_, fun _ i hi j hj hij a b ha hb => ?_⟩
  · refine ⟨_, pageTable_getElem? hi, ?_⟩
    rw [hpage i hi _ (pageTable_getElem? hi)]
    exact ⟨base_le_slot, (slots_inside_iff (by omega)).2 hsize i hi⟩
  · rw [hpage i hi a ha, hpage j hj b hb]
    exact slot_disjoint hij

/-- With a buffer granted, `nv_alloc_pages` keeps to it exactly when the capacity covers the request
and the loop's counter stays an `int`. -/
theorem nvAllocPages_neverOutside_iff (g : OsPage) (pageCount : NvU32) (pageSize : NvU64)
    (contiguous zeroed : NvBool) (answer : Option NvU64) (range : IOAddressSegment)
    (hfit : pageCount.toNat * pageSize.toNat < 2 ^ 64)
    (hbuf : create g (totalSize pageCount pageSize) answer = some range)
    (hnull : range.address ≠ 0) :
    NeverOutside pageCount pageSize contiguous
        (nvAllocPages g pageCount pageSize contiguous zeroed answer) ↔
      FitsRequest g pageCount pageSize ∧ (contiguous = true ∨ pageCount.toNat < 2 ^ 31) := by
  rw [fitsRequest_iff hfit hbuf]
  cases contiguous with
  | true =>
    rw [nvAllocPages_contiguous hbuf hnull]
    constructor
    · exact fun h => ⟨h.size, .inl rfl⟩
    · exact fun h => ⟨h.1, fun _ => rfl, fun h => (by cases h), fun h => (by cases h)⟩
  | false =>
    rcases Nat.lt_or_ge pageCount.toNat (2 ^ 31) with hcount | hcount
    · rw [nvAllocPages_scattered hbuf hnull hcount]
      constructor
      · exact fun h => ⟨h.size, .inr hcount⟩
      · exact fun h => inside_pageTable h.1
    · rw [nvAllocPages_overflow hbuf hnull hcount]
      constructor
      · intro h; cases h
      · rintro ⟨-, h | h⟩
        · cases h
        · omega

theorem nvAllocPages_neverOutside_two :
    NeverOutside 2 4096 false (nvAllocPages .sixteenK 2 4096 false false (some 0x4000)) :=
  (nvAllocPages_neverOutside_iff .sixteenK 2 4096 false false (some 0x4000)
    ⟨0x4000, 16384, by decide⟩ (by decide) rfl (by decide)).2 ⟨by decide, .inr (by decide)⟩

/-- Five pages of 256 MiB get a buffer of 1 GiB; the last one is published at its end. -/
theorem nvAllocPages_outside_five :
    (5 : NvU32).toNat * (256 * 1024 * 1024 : NvU64).toNat < 2 ^ 64 ∧
      ∃ p, nvAllocPages .sixteenK 5 (256 * 1024 * 1024) false false (some 0x100000000) =
          .ok (.ok, some p) ∧
        p.descriptor.length = 2 ^ 30 ∧
        p.pteArray[4]? = some (p.descriptor.address + 2 ^ 30) ∧
        ¬ Inside 5 (256 * 1024 * 1024) false p :=
  ⟨by decide, _, rfl, by decide, by decide, fun h => absurd h.size (by decide)⟩

/-! ### The page table against the CPU mappings -/

section mapping
variable {g : OsPage} {pageCount : NvU32} {pageSize : NvU64} {p : Pages}

/-- Byte `pageOffset` of page `i` is the same byte of the buffer for the device and for both CPU
mappings. -/
def SameByte (g : OsPage) (p : Pages) (i : Nat) (pageOffset : NvU32) : Prop :=
  ∃ pte, p.pteArray[i]? = some pte ∧
    nvAllocKernelMapping g p.descriptor (BitVec.ofNat 64 i) pageOffset =
      pte + pageOffset.setWidth 64 ∧
    nvAllocUserMapping g p.descriptor (BitVec.ofNat 64 i) pageOffset =
      (.ok, pte + pageOffset.setWidth 64) ∧
    p.descriptor.address.toNat ≤ (pte + pageOffset.setWidth 64).toNat ∧
    (pte + pageOffset.setWidth 64).toNat < p.descriptor.address.toNat + p.descriptor.length

theorem toNat_setWidth_64 (x : NvU32) : (x.setWidth 64).toNat = x.toNat := by
  have := x.isLt
  rw [BitVec.toNat_setWidth, Nat.mod_eq_of_lt (by omega)]

theorem toNat_pageByte {range : IOAddressSegment} {i n : Nat} {pageOffset : NvU32} (hi : i < n)
    (hn : n < 2 ^ 64) (hlen : n * pageSize.toNat ≤ range.length)
    (hoff : pageOffset.toNat < pageSize.toNat) :
    (range.address + BitVec.ofNat 64 i * pageSize + pageOffset.setWidth 64).toNat =
      slot range.address.toNat pageSize.toNat i + pageOffset.toNat := by
  have hend : slot range.address.toNat pageSize.toNat i + pageSize.toNat ≤
      range.address.toNat + range.length := (slots_inside_iff (by omega)).2 hlen i hi
  have hfits := range.fits
  rw [BitVec.toNat_add, toNat_pageAddress hi hn hlen, toNat_setWidth_64, Nat.mod_eq_of_lt (by omega)]

theorem sameByte_of_step {i : Nat} {pageOffset : NvU32}
    (hpte : p.pteArray = pageTable p.descriptor pageSize pageCount.toNat)
    (hlen : pageCount.toNat * pageSize.toNat ≤ p.descriptor.length) (hi : i < pageCount.toNat)
    (hoff : pageOffset.toNat < pageSize.toNat)
    (hstep : BitVec.ofNat 64 i * pageSize = BitVec.ofNat 64 i * g.osPageSize.setWidth 64) :
    SameByte g p i pageOffset := by
  have hcount : pageCount.toNat < 2 ^ 64 := by have := pageCount.isLt; omega
  have hbyte := toNat_pageByte hi hcount hlen hoff
  have hend : slot p.descriptor.address.toNat pageSize.toNat i + pageSize.toNat ≤
      p.descriptor.address.toNat + p.descriptor.length := (slots_inside_iff (by omega)).2 hlen i hi
  have hbase : p.descriptor.address.toNat ≤ slot p.descriptor.address.toNat pageSize.toNat i :=
    base_le_slot
  refine ⟨p.descriptor.address + BitVec.ofNat 64 i * pageSize, ?_, ?_, ?_, ?_, ?_⟩
  · rw [hpte, pageTable_getElem? hi]
  · rw [nvAllocKernelMapping, hstep]
  · rw [nvAllocUserMapping, hstep]
  · rw [hbyte]; omega
  · rw [hbyte]; omega

/-- At the first byte of page 1 the two views differ by the difference of their page sizes. -/
theorem step_eq_of_sameByte
    (hpte : p.pteArray = pageTable p.descriptor pageSize pageCount.toNat)
    (hcount : 2 ≤ pageCount.toNat) (h : SameByte g p 1 0) : pageSize = g.osPageSize.setWidth 64 := by
  obtain ⟨pte, hpte', hkernel, -⟩ := h
  rw [hpte, pageTable_getElem? (by omega)] at hpte'
  rw [← Option.some.inj hpte', nvAllocKernelMapping] at hkernel
  have hone : BitVec.ofNat 64 1 = 1#64 := rfl
  rw [hone, BitVec.one_mul, BitVec.one_mul] at hkernel
  exact ((BitVec.add_right_inj _).1 ((BitVec.add_left_inj _).1 hkernel)).symm

/-- The page table and the CPU mappings of a non-contiguous buffer below 1 GiB agree exactly when
they step by the same page size, or have no second page to step to. -/
theorem mapping_sameByte_iff (g : OsPage) (pageCount : NvU32) (pageSize : NvU64) (zeroed : NvBool)
    (answer : Option NvU64) (p : Pages)
    (hsmall : pageCount.toNat * pageSize.toNat < 2 ^ 30)
    (h : nvAllocPages g pageCount pageSize false zeroed answer = .ok (.ok, some p)) :
    (∀ i < pageCount.toNat, ∀ pageOffset : NvU32, pageOffset.toNat < pageSize.toNat →
        SameByte g p i pageOffset) ↔
      pageCount.toNat ≤ 1 ∨ pageSize = g.osPageSize.setWidth 64 ∨ pageSize = 0 := by
  obtain ⟨hbuf, -, hscattered⟩ := nvAllocPages_inv h
  have hpte := (hscattered rfl).2
  have hlen := (fitsRequest_iff (by omega) hbuf).1 (.inl hsmall)
  constructor
  · intro hall
    by_cases hcount : pageCount.toNat ≤ 1
    · exact .inl hcount
    by_cases hsize : pageSize = 0
    · exact .inr (.inr hsize)
    have hpos : 0 < pageSize.toNat :=
      Nat.pos_of_ne_zero fun h0 => hsize (BitVec.eq_of_toNat_eq h0)
    exact .inr (.inl (step_eq_of_sameByte hpte (by omega) (hall 1 (by omega) 0 hpos)))
  · intro hcond i hi pageOffset hoff
    refine sameByte_of_step hpte hlen hi hoff ?_
    rcases hcond with hcount | hsize | hsize
    · obtain rfl : i = 0 := by omega
      rw [BitVec.zero_mul, BitVec.zero_mul]
    · rw [← hsize]
    · rw [hsize] at hoff
      exact absurd hoff (Nat.not_lt_zero _)

end mapping

theorem mapping_sameByte_two :
    ∃ p, nvAllocPages .sixteenK 2 0x4000 false false (some 0x4000) = .ok (.ok, some p) ∧
      ∀ i < 2, ∀ pageOffset : NvU32, pageOffset.toNat < (0x4000 : NvU64).toNat →
        SameByte .sixteenK p i pageOffset :=
  ⟨_, rfl, (mapping_sameByte_iff .sixteenK 2 0x4000 false (some 0x4000) _ (by decide) rfl).2
    (.inr (.inl (by decide)))⟩

/-- Two pages of 4 KiB on a host with pages of 16 KiB: the CPU view of page 1 is past the buffer. -/
theorem mapping_differs_two :
    ∃ p, nvAllocPages .sixteenK 2 4096 false false (some 0x4000) = .ok (.ok, some p) ∧
      p.pteArray[1]? = some 0x5000 ∧
      nvAllocKernelMapping .sixteenK p.descriptor 1 0 = 0x8000 ∧
      p.descriptor.address.toNat + p.descriptor.length = 0x8000 ∧
      ¬ SameByte .sixteenK p 1 0 :=
  ⟨_, rfl, by decide, by decide, by decide, fun h =>
    absurd (@step_eq_of_sameByte .sixteenK 2 4096 _ rfl (by decide) h) (by decide)⟩

end NVMac.DriverKit
