import NVMac.Lib.Machine
import NVMac.PagesKernel

/-!
# Runs of the kernel port's DMA calls

`dmaMachine` makes `nv_set_dma_address_size`, `nv_alloc_pages` and `nv_free_pages` the calls of one
machine. Beside the kernel its state remembers which handles were delivered and not freed, and the
address size set last; the functions read neither.

Objects are never forgotten and a pairing stays one (`isPairing_next`), so what
`nv_alloc_pages` stores in `*priv_data` is no descriptor for the mapping functions, at any later
point of any run (`nvAllocPages_mapping_iff`).
-/

namespace NVMac.Kernel
open Slots Ledger Outcome

def nvSetDmaAddressSize (k : State) (physAddrBits : NvU32) (wideShift : NvU64) : State :=
  { k with dmaMask := shiftLeft 1#64 physAddrBits.toNat wideShift - 1#64 }

inductive DmaCall
  | setAddressSize (physAddrBits : NvU32) (wideShift : NvU64)
  | allocPages (req : PageRequest) (a : PageAnswers)
  | freePages (privData : Handle)

structure DmaState where
  kernel : State
  outstanding : List Handle
  addressSize : Option NvU32

def DmaState.init : DmaState := ⟨⟨0, [], []⟩, [], none⟩

abbrev DmaAnswer := Except Fault (DmaState × Option PageOutcome)

def dmaCall (g : OsPage) (s : DmaState) : DmaCall → DmaAnswer
  | .setAddressSize physAddrBits wideShift =>
    .ok ({ s with
      kernel := nvSetDmaAddressSize s.kernel physAddrBits wideShift
      addressSize := some physAddrBits }, none)
  | .allocPages req a => do
    let out ← nvAllocPages g s.kernel req a
    return ({ s with
      kernel := out.kernel
      outstanding := out.privData.toList ++ s.outstanding }, some out)
  | .freePages privData => do
    let (_, kernel) ← nvFreePages s.kernel privData
    return ({ s with kernel, outstanding := s.outstanding.erase privData }, none)

/-- A call that faults does not come back. -/
def dmaMachine (g : OsPage) : Machine DmaState DmaCall DmaAnswer where
  call := dmaCall g
  next
    | .ok (s, _) => some s
    | .error _ => none

section step
variable {g : OsPage} {s s' : DmaState} {k k' : State} {req : PageRequest} {a : PageAnswers}
  {h h' : Handle}

/-! ### What a call leaves alone -/

theorem giveBack_eq {t : Token} (hk : k.giveBack t = .ok k') :
    ∃ ledger, k' = { k with ledger := ledger } := by
  unfold State.giveBack at hk
  split at hk
  · cases hk
    exact ⟨_, rfl⟩
  · cases hk

theorem clearMemoryDescriptor_eq (hk : k.clearMemoryDescriptor h = .ok k') : ∃ ledger objects,
    k' = { k with objects := objects, ledger := ledger } ∧
      (objects = k.objects ∨ ∃ c c', k.objects[h]? = some (.command c) ∧
        objects = k.objects.set h (.command c')) := by
  obtain ⟨c, hc, hk⟩ := bind_eq_ok hk
  have hc : k.objects[h]? = some (.command c) := by
    unfold State.commandAt at hc
    split at hc
    next hget => cases hc; exact hget
    next => cases hc
  cases hm : c.memory with
  | none =>
    simp only [hm, pure_eq_ok, Except.ok.injEq] at hk
    exact ⟨_, _, hk.symm, .inl rfl⟩
  | some d =>
    simp only [hm] at hk
    obtain ⟨k₁, hk₁, hk⟩ := bind_eq_ok hk
    obtain ⟨ledger, rfl⟩ := giveBack_eq hk₁
    cases hk
    exact ⟨_, _, rfl, .inr ⟨c, _, hc, rfl⟩⟩

/-- Freeing changes one command at most, the pairing freed, and the ledger. -/
theorem nvFreePages_eq {status : NvStatus} (hk : nvFreePages k h = .ok (status, k')) :
    ∃ command ledger objects,
      k' = { k with objects := objects.set h (.pairing ⟨none, none⟩), ledger := ledger } ∧
      (objects = k.objects ∨ ∃ c c', k.objects[command]? = some (.command c) ∧
        objects = k.objects.set command (.command c')) := by
  obtain ⟨pairing, -, hk⟩ := bind_eq_ok hk
  obtain ⟨command, -, hk⟩ := bind_eq_ok hk
  obtain ⟨k₁, h₁, hk⟩ := bind_eq_ok hk
  obtain ⟨descriptor, -, hk⟩ := bind_eq_ok hk
  obtain ⟨k₂, h₂, hk⟩ := bind_eq_ok hk
  obtain ⟨k₃, h₃, hk⟩ := bind_eq_ok hk
  obtain ⟨k₄, h₄, hk⟩ := bind_eq_ok hk
  cases hk
  obtain ⟨ledger, objects, rfl, hobj⟩ := clearMemoryDescriptor_eq h₁
  obtain ⟨ledger₂, rfl⟩ := giveBack_eq h₂
  obtain ⟨ledger₃, rfl⟩ := giveBack_eq h₃
  obtain ⟨ledger₄, rfl⟩ := giveBack_eq h₄
  exact ⟨command, ledger₄, objects, rfl, hobj⟩

theorem nvAllocPages_eq {out : PageOutcome} (hout : nvAllocPages g k req a = .ok out) :
    ∃ ledger more, out.kernel = { k with objects := k.objects ++ more, ledger := ledger } := by
  by_cases hget : GetsCommand req a
  · obtain ⟨d, -, heq⟩ := nvAllocPages_of_command (g := g) (k := k) hget
    rw [heq] at hout
    cases hseg : gen64IOVMSegments 1 a.segments with
    | none =>
      rw [hseg] at hout
      cases hout
      exact ⟨_, _, rfl⟩
    | some segments =>
      simp only [hseg, persistPages] at hout
      split at hout
      · cases hout
        exact ⟨_, _, congrArg (State.mk _ · _) (List.append_assoc _ _ _)⟩
      · cases hout
  · obtain ⟨status, more, -, heq⟩ := nvAllocPages_of_no_command (g := g) (k := k) hget
    rw [heq] at hout
    cases hout
    exact ⟨_, more, rfl⟩

theorem next_allocPages
    (hnext : (dmaMachine g).next ((dmaMachine g).call s (.allocPages req a)) = some s') :
    ∃ out, nvAllocPages g s.kernel req a = .ok out ∧ s' = { s with
      kernel := out.kernel, outstanding := out.privData.toList ++ s.outstanding } := by
  cases hout : nvAllocPages g s.kernel req a with
  | error f => simp [dmaMachine, dmaCall, hout] at hnext
  | ok out =>
    simp only [dmaMachine, dmaCall, hout, ok_bind, pure_eq_ok, Option.some.injEq] at hnext
    exact ⟨out, rfl, hnext.symm⟩

theorem next_freePages
    (hnext : (dmaMachine g).next ((dmaMachine g).call s (.freePages h)) = some s') :
    ∃ status k', nvFreePages s.kernel h = .ok (status, k') ∧
      s' = { s with kernel := k', outstanding := s.outstanding.erase h } := by
  cases hk : nvFreePages s.kernel h with
  | error f => simp [dmaMachine, dmaCall, hk] at hnext
  | ok r =>
    simp only [dmaMachine, dmaCall, hk, ok_bind, pure_eq_ok, Option.some.injEq] at hnext
    exact ⟨r.1, r.2, rfl, hnext.symm⟩

/-! ### Pairings stay pairings -/

def IsPairing (k : State) (h : Handle) : Prop := ∃ p, k.objects[h]? = some (.pairing p)

theorem isPairing_nvFreePages {status : NvStatus} (hp : IsPairing k h)
    (hk : nvFreePages k h' = .ok (status, k')) : IsPairing k' h := by
  obtain ⟨command, ledger, objects, rfl, hobj⟩ := nvFreePages_eq hk
  have hp' : ∃ p, objects[h]? = some (.pairing p) := by
    rcases hobj with rfl | ⟨c, c', hc, rfl⟩
    · exact hp
    · obtain ⟨p, hp⟩ := hp
      have hne : command ≠ h := by
        rintro rfl
        rw [hc] at hp
        cases hp
      exact ⟨p, by rw [List.getElem?_set_ne hne, hp]⟩
  obtain ⟨p, hp'⟩ := hp'
  by_cases hne : h' = h
  · subst hne
    exact ⟨_, List.getElem?_set_self (List.getElem?_eq_some_iff.1 hp').1⟩
  · exact ⟨p, by rw [List.getElem?_set_ne hne, hp']⟩

theorem isPairing_next {l : DmaCall} (hp : IsPairing s.kernel h)
    (hs : (dmaMachine g).next ((dmaMachine g).call s l) = some s') : IsPairing s'.kernel h := by
  cases l with
  | setAddressSize physAddrBits wideShift =>
    cases hs
    exact hp
  | allocPages req a =>
    obtain ⟨out, hout, rfl⟩ := next_allocPages hs
    obtain ⟨ledger, more, hk⟩ := nvAllocPages_eq hout
    obtain ⟨p, hp⟩ := hp
    have hlt : h < s.kernel.objects.length := (List.getElem?_eq_some_iff.1 hp).1
    exact ⟨p, by rw [hk, List.getElem?_append_left hlt, hp]⟩
  | freePages privData =>
    obtain ⟨status, k', hk, rfl⟩ := next_freePages hs
    exact isPairing_nvFreePages hp hk

end step

/-! ### Mappings of a delivered handle -/

/-- Both mapping functions read the handle as the descriptor `d`, and give the address of each of
its bytes. -/
def MappingAgrees (g : OsPage) (k : State) (h : Handle) (d : IOBufferMemoryDescriptor) : Prop :=
  ∀ (pageIndex : NvU64) (pageOffset : NvU32),
    pageIndex.toNat * g.osPageSize.toNat + pageOffset.toNat < d.length →
    nvAllocKernelMapping g k h pageIndex pageOffset =
      .ok (d.byteAddress (pageIndex.toNat * g.osPageSize.toNat + pageOffset.toNat)) ∧
    nvAllocUserMapping g k h pageIndex pageOffset =
      .ok (.ok, d.byteAddress (pageIndex.toNat * g.osPageSize.toNat + pageOffset.toNat))

theorem nvAllocKernelMapping_pairing {g : OsPage} {k : State} {h : Handle} (hp : IsPairing k h)
    (pageIndex : NvU64) (pageOffset : NvU32) :
    nvAllocKernelMapping g k h pageIndex pageOffset = .error .wrongClass := by
  obtain ⟨p, hp⟩ := hp
  simp [nvAllocKernelMapping, State.descriptorAt, hp]

theorem mappingAgrees_pairing_iff {g : OsPage} {k : State} {h : Handle}
    {d : IOBufferMemoryDescriptor} (hp : IsPairing k h) : MappingAgrees g k h d ↔ d.length = 0 := by
  constructor
  · intro hagree
    by_contra hne
    have hfirst := (hagree 0 0 (by simpa using Nat.pos_of_ne_zero hne)).1
    rw [nvAllocKernelMapping_pairing hp] at hfirst
    cases hfirst
  · intro hzero pageIndex pageOffset hlt
    omega

/-- A delivered handle can be mapped, at any later point of any run, only if the buffer has no byte
to map. -/
theorem nvAllocPages_mapping_iff (g : OsPage) (k : State) (req : PageRequest) (a : PageAnswers)
    (out : PageOutcome) (h : nvAllocPages g k req a = .ok out) (hok : out.status = .ok) :
    ∃ privData d, out.privData = some privData ∧ out.kernel.pairedDescriptor privData = .ok d ∧
      ∀ (s s' : DmaState) (calls : List DmaCall), s.kernel = out.kernel →
        (dmaMachine g).after s calls = some s' →
        (MappingAgrees g s'.kernel privData d ↔ req.pageSize = 0) := by
  obtain ⟨d, segments, hd, hk, -, -, hpriv⟩ := nvAllocPages_ok h hok
  refine ⟨_, d, hpriv, by rw [hk, pairedDescriptor_create], ?_⟩
  intro s s' calls hs hafter
  have hnew : IsPairing s.kernel (k.objects.length + 2) := by
    rw [hs, hk]
    exact ⟨⟨some (k.objects.length + 1), some k.objects.length⟩, by
      simp [State.create, State.withCommand]⟩
  have hp : IsPairing s'.kernel (k.objects.length + 2) :=
    Machine.after_keep (I := fun s => IsPairing s.kernel (k.objects.length + 2))
      (fun s l s' hp hs => isPairing_next hp hs) hnew hafter
  rw [mappingAgrees_pairing_iff hp, hd]
  constructor
  · intro hzero
    by_contra hne
    have hpos : 0 < req.pageSize.toNat :=
      Nat.pos_of_ne_zero fun h0 => hne (BitVec.eq_of_toNat_eq h0)
    exact absurd hzero (roundUp_pos g.osPageSize_pos hpos).ne'
  · rintro hzero
    rw [hzero]
    exact zero_roundUp

theorem nvAllocPages_mapping_two :
    ∃ out, nvAllocPages .sixteenK ⟨0, [], []⟩ twoPages granted = .ok out ∧ out.status = .ok ∧
      ∃ privData d, out.privData = some privData ∧ out.kernel.pairedDescriptor privData = .ok d ∧
        ∀ (s s' : DmaState) (calls : List DmaCall), s.kernel = out.kernel →
          (dmaMachine .sixteenK).after s calls = some s' →
          (MappingAgrees .sixteenK s'.kernel privData d ↔ twoPages.pageSize = 0) :=
  ⟨_, rfl, rfl, nvAllocPages_mapping_iff .sixteenK ⟨0, [], []⟩ twoPages granted _ rfl rfl⟩

theorem nvAllocPages_mapping_wrongClass :
    ∃ out d, nvAllocPages .sixteenK ⟨0, [], []⟩ twoPages granted = .ok out ∧ out.status = .ok ∧
      out.privData = some 2 ∧ out.kernel.pairedDescriptor 2 = .ok d ∧ d.length = 0x4000 ∧
      nvAllocKernelMapping .sixteenK out.kernel 2 0 0 = .error .wrongClass ∧
      nvAllocUserMapping .sixteenK out.kernel 2 0 0 = .error .wrongClass ∧
      ¬ MappingAgrees .sixteenK out.kernel 2 d :=
  ⟨_, _, rfl, rfl, rfl, rfl, by decide, rfl, rfl, fun h => by
    have hfirst := (h 0 0 (by decide)).1
    cases hfirst⟩

end NVMac.Kernel
