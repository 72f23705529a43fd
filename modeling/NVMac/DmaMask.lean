import NVMac.DmaRun

/-!
# The DMA mask of the kernel port

`nv_set_dma_address_size` stores the mask `2 ^ bits - 1` in `dma_mask`, and `nv_alloc_pages` uses it
as the amount of a shift. So the mask that a request gets is `2 ^ (2 ^ bits - 1) - 1`, where the
shift is defined at all: the right one for one bit only (`maskRespected_iff`).
-/

namespace NVMac.Kernel
open Slots Outcome

/-- The buffer is asked for below `2 ^ bits`. `below` takes an allocator that keeps to the mask. -/
structure MaskRespected (g : OsPage) (bits : NvU32) (q : BufferRequest) (buffer : Option Placement) :
    Prop where
  shiftDefined : q.shiftDefined = true
  mask : q.mask.toNat = 2 ^ bits.toNat - 1
  below : ∀ d, inTaskWithPhysicalMask g q buffer = some d →
    (∀ i < d.length, d.byteAddress i &&& ~~~q.mask = 0) →
    ∀ i < d.length, (d.byteAddress i).toNat < 2 ^ bits.toNat

/-- No shift is undefined, and each buffer is asked for under the size set last. -/
def DmaSizeRespected (g : OsPage) (s : DmaState) : DmaCall → DmaAnswer → Prop
  | .setAddressSize physAddrBits _, _ => physAddrBits.toNat < 64
  | .allocPages req a, _ => ∀ q, bufferRequest s.kernel.dmaMask req a.wideShift = some q →
    ∃ bits, s.addressSize = some bits ∧ MaskRespected g bits q a.buffer
  | .freePages _, _ => True

def AtMostOneBit (s : DmaState) : DmaCall → DmaAnswer → Prop
  | .setAddressSize physAddrBits _, _ => physAddrBits.toNat < 64
  | .allocPages req _, _ =>
    (mapCache req.cacheType).isSome → ∃ bits, s.addressSize = some bits ∧ bits.toNat ≤ 1
  | .freePages _, _ => True

theorem toNat_le_of_and_not {x mask : NvU64} (h : x &&& ~~~mask = 0) : x.toNat ≤ mask.toNat := by
  have hand : x = x &&& mask := by
    apply BitVec.eq_of_getLsbD_eq
    intro i hi
    have hbit : (x &&& ~~~mask).getLsbD i = false := by rw [h]; exact BitVec.getLsbD_zero
    rw [BitVec.getLsbD_and, BitVec.getLsbD_not] at hbit
    rw [BitVec.getLsbD_and]
    cases hx : x.getLsbD i <;> simp_all
  rw [hand, BitVec.toNat_and]
  exact Nat.and_le_right

section
variable {g : OsPage} {dmaMask : NvU64} {bits : NvU32} {req : PageRequest} {wideShift : NvU32}
  {q : BufferRequest} {buffer : Option Placement}

theorem bufferRequest_mask (hq : bufferRequest dmaMask req wideShift = some q)
    (hlt : dmaMask.toNat < 32) : q.mask.toNat = 2 ^ dmaMask.toNat - 1 := by
  obtain ⟨cache, -, rfl⟩ := Option.map_eq_some_iff.1 hq
  have h2 : 2 ^ dmaMask.toNat < 2 ^ 32 := Nat.pow_lt_pow_right (by omega) hlt
  show ((shiftLeft 1#32 dmaMask.toNat wideShift - 1#32).setWidth 64).toNat = _
  rw [shiftLeft_one_sub_one _ hlt, BitVec.toNat_setWidth, BitVec.toNat_ofNat]
  omega

theorem bufferRequest_shiftDefined (hq : bufferRequest dmaMask req wideShift = some q) :
    q.shiftDefined = true ↔ dmaMask.toNat < 32 := by
  obtain ⟨cache, -, rfl⟩ := Option.map_eq_some_iff.1 hq
  exact decide_eq_true_iff

/-- The mask of the mask is the mask only up to one bit. -/
theorem maskRespected_iff (hmask : dmaMask.toNat = 2 ^ bits.toNat - 1)
    (hq : bufferRequest dmaMask req wideShift = some q) :
    MaskRespected g bits q buffer ↔ bits.toNat ≤ 1 := by
  constructor
  · intro h
    have hlt := (bufferRequest_shiftDefined hq).1 h.shiftDefined
    have hpow : 2 ^ dmaMask.toNat = 2 ^ bits.toNat := by
      have heq := h.mask
      rw [bufferRequest_mask hq hlt] at heq
      have h1 : 1 ≤ 2 ^ dmaMask.toNat := Nat.one_le_two_pow
      have h2 : 1 ≤ 2 ^ bits.toNat := Nat.one_le_two_pow
      omega
    have hinj : 2 ^ bits.toNat - 1 = bits.toNat := hmask ▸ Nat.pow_right_injective le_rfl hpow
    by_contra hgt
    obtain ⟨n, hn⟩ : ∃ n, bits.toNat = n + 2 := ⟨bits.toNat - 2, by omega⟩
    have hbig : n < 2 ^ n := Nat.lt_two_pow_self
    rw [hn, Nat.pow_add] at hinj
    omega
  · intro hle
    have hfix : 2 ^ bits.toNat - 1 = bits.toNat := by
      rcases Nat.le_one_iff_eq_zero_or_eq_one.1 hle with h | h <;> rw [h] <;> rfl
    have hlt : dmaMask.toNat < 32 := by omega
    have hqmask : q.mask.toNat = 2 ^ bits.toNat - 1 := by
      rw [bufferRequest_mask hq hlt, hmask, hfix, hfix]
    refine ⟨(bufferRequest_shiftDefined hq).2 hlt, hqmask, fun d _ hin i hi => ?_⟩
    have hbyte := toNat_le_of_and_not (hin i hi)
    have hpos : 1 ≤ 2 ^ bits.toNat := Nat.one_le_two_pow
    omega

end

def MaskOfSize (s : DmaState) : Prop :=
  ∀ bits, s.addressSize = some bits → s.kernel.dmaMask.toNat = 2 ^ bits.toNat - 1

section
variable {g : OsPage} {s s' : DmaState} {l : DmaCall}

theorem sizeRespected_iff (hs : MaskOfSize s) {answer : DmaAnswer} :
    DmaSizeRespected g s l answer ↔ AtMostOneBit s l answer := by
  cases l with
  | setAddressSize physAddrBits wideShift => rfl
  | freePages privData => rfl
  | allocPages req a =>
    constructor
    · intro h hcache
      obtain ⟨cache, hcache⟩ := Option.isSome_iff_exists.1 hcache
      have hq : ∃ q, bufferRequest s.kernel.dmaMask req a.wideShift = some q :=
        ⟨_, by rw [bufferRequest, hcache]; rfl⟩
      obtain ⟨q, hq⟩ := hq
      obtain ⟨bits, hbits, hmask⟩ := h q hq
      exact ⟨bits, hbits, (maskRespected_iff (hs bits hbits) hq).1 hmask⟩
    · intro h q hq
      obtain ⟨cache, hcache, -⟩ := Option.map_eq_some_iff.1 hq
      obtain ⟨bits, hbits, hle⟩ := h (Option.isSome_iff_exists.2 ⟨cache, hcache⟩)
      exact ⟨bits, hbits, (maskRespected_iff (hs bits hbits) hq).2 hle⟩

theorem maskOfSize_next (hs : MaskOfSize s)
    (hone : AtMostOneBit s l ((dmaMachine g).call s l))
    (hnext : (dmaMachine g).next ((dmaMachine g).call s l) = some s') : MaskOfSize s' := by
  cases l with
  | setAddressSize physAddrBits wideShift =>
    cases hnext
    intro bits hbits
    cases hbits
    have hlt : 2 ^ physAddrBits.toNat < 2 ^ 64 := Nat.pow_lt_pow_right (by omega) hone
    show (shiftLeft 1#64 physAddrBits.toNat wideShift - 1#64).toNat = _
    rw [shiftLeft_one_sub_one _ hone, BitVec.toNat_ofNat]
    omega
  | allocPages req a =>
    obtain ⟨out, hout, rfl⟩ := next_allocPages hnext
    obtain ⟨ledger, more, hk⟩ := nvAllocPages_eq hout
    intro bits hbits
    rw [hk]
    exact hs bits hbits
  | freePages privData =>
    obtain ⟨status, k, hk, rfl⟩ := next_freePages hnext
    obtain ⟨command, ledger, objects, rfl, -⟩ := nvFreePages_eq hk
    exact hs

end

/-- A run respects the sizes it sets exactly when they are below 64 and, at each allocation, at most
one bit. -/
theorem dmaRun_sizeRespected_iff (g : OsPage) (calls : List DmaCall) :
    (dmaMachine g).Along (DmaSizeRespected g) .init calls ↔
      (dmaMachine g).Along AtMostOneBit .init calls :=
  Machine.along_iff (I := MaskOfSize) (fun _ _ hs => sizeRespected_iff hs)
    (fun _ _ hs hone _ hnext => maskOfSize_next hs hone hnext) (fun _ hbits => by cases hbits)

/-- Five bits: the buffer is asked for under 31 bits, and may lie above the five. -/
theorem dmaRun_size_exceeded_five :
    let k := nvSetDmaAddressSize DmaState.init.kernel 5 0
    bufferRequest k.dmaMask twoPages 0 = some ⟨.defaultCache, false, 0x4000, 0x7fffffff, true⟩ ∧
      ¬ (dmaMachine .sixteenK).Along (DmaSizeRespected .sixteenK) .init
        [.setAddressSize 5 0, .allocPages twoPages granted] := by
  refine ⟨by decide, fun h => ?_⟩
  obtain ⟨bits, hbits, hmask⟩ := (h.2 _ rfl).1 _ rfl
  cases hbits
  exact absurd hmask.mask (by decide)

end NVMac.Kernel
