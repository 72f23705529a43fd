import NVMac.Mappings
import NVMac.PagesDriverKit
import NVMac.Lib.Holders
import NVMac.Lib.Machine

/-!
# Runs of the DriverKit port's page calls (`memory_driverkit.cpp`)

In the DriverKit port `*priv_data` is the buffer itself, with the one retain that `nv_free_pages`
releases. `pagesRun_isolated` is about all runs of both calls: the buffers are those delivered and not
freed, and as far as the requests fit the capacities that are asked for, and the mapped bytes are in the
buffer, no page and no mapping of one allocation is in another.
-/

namespace NVMac.DriverKit
open Slots Refs Registry Outcome

abbrev BufferHandle := Nat

def nvFreePages (descriptors : Heap BufferHandle IOAddressSegment) (privData : BufferHandle) :
    Except Fault (NvStatus × Heap BufferHandle IOAddressSegment) := do
  let descriptors ← live (release descriptors privData)
  pure (.ok, descriptors)

/-- What was asked for, and what was delivered. -/
structure Delivery where
  pageCount : NvU32
  pageSize : NvU64
  contiguous : NvBool
  pages : Pages

/-- `delivered` are the allocations by their handles, until they are freed. -/
structure PagesState where
  descriptors : Heap BufferHandle IOAddressSegment
  delivered : BufferHandle → Option Delivery

def PagesState.empty : PagesState := ⟨.empty, fun _ => none⟩

/-- `answer` is the buffer that `Create` makes, and where it is. -/
inductive PagesCall
  | allocPages (pageCount : NvU32) (pageSize : NvU64) (contiguous zeroed : NvBool) (answer : Option (BufferHandle × NvU64))
  | freePages (privData : BufferHandle)

def PagesState.deliver (s : PagesState) (d : Delivery) : Option (BufferHandle × NvU64) → PagesState
  | none => s
  | some (h, _) =>
    { descriptors := Refs.create s.descriptors h d.pages.descriptor, delivered := Function.update s.delivered h (some d) }

def pagesCall (g : OsPage) (s : PagesState) : PagesCall → Except Fault PagesState
  | .allocPages pageCount pageSize contiguous zeroed answer => do
    let (_, pages) ← nvAllocPages g pageCount pageSize contiguous zeroed (answer.map Prod.snd)
    match pages with
    | none => pure s
    | some pages => pure (s.deliver ⟨pageCount, pageSize, contiguous, pages⟩ answer)
  | .freePages privData => do
    let (_, descriptors) ← nvFreePages s.descriptors privData
    pure ⟨descriptors, Function.update s.delivered privData none⟩

def pagesMachine (g : OsPage) : Machine PagesState PagesCall (Except Fault PagesState) where
  call := pagesCall g
  next := Except.toOption

/-! ### Ranges of addresses -/

/-- A start and a length. -/
abbrev Range := Nat × Nat

def Range.Apart (a b : Range) : Prop := a.1 + a.2 ≤ b.1 ∨ b.1 + b.2 ≤ a.1

def IOAddressSegment.range (segment : IOAddressSegment) : Range := (segment.address.toNat, segment.length)

def IOAddressSegment.Contains (segment : IOAddressSegment) (r : Range) : Prop :=
  segment.address.toNat ≤ r.1 ∧ r.1 + r.2 ≤ segment.address.toNat + segment.length

/-- What the device may access by the entries: a contiguous allocation has one, for all of it. -/
def Delivery.ranges (d : Delivery) : List Range :=
  d.pages.pteArray.map fun pte =>
    (pte.toNat, if d.contiguous then d.pageCount.toNat * d.pageSize.toNat else d.pageSize.toNat)

/-- The capacity asked for is that of the request. -/
def Delivery.Fits (g : OsPage) (d : Delivery) : Prop :=
  d.pageCount.toNat * d.pageSize.toNat < 2 ^ 64 ∧ FitsRequest g d.pageCount d.pageSize

/-- The byte is in the buffer. -/
def Delivery.MapsInside (g : OsPage) (d : Delivery) (pageIndex : NvU64) (pageOffset : NvU32) : Prop :=
  pageIndex.toNat * g.osPageSize.toNat + pageOffset.toNat < d.pages.descriptor.length

/-- The buffers are those delivered. Pages of requests that fit, and mappings of bytes inside, are in
their own buffer and apart from the pages of others that fit. -/
structure Isolated (g : OsPage) (s : PagesState) : Prop where
  owned : Owned s.descriptors fun h => (s.delivered h).map (·.pages.descriptor)
  inside : ∀ h d, s.delivered h = some d → d.Fits g →
    (∀ r ∈ d.ranges, d.pages.descriptor.Contains r) ∧ d.ranges.Pairwise Range.Apart
  apart : ∀ h h' d d', h ≠ h' → s.delivered h = some d → s.delivered h' = some d' → d.Fits g → d'.Fits g →
    ∀ r ∈ d.ranges, ∀ r' ∈ d'.ranges, r.Apart r'
  mappedInside : ∀ h d, s.delivered h = some d → ∀ pageIndex pageOffset, d.MapsInside g pageIndex pageOffset →
    d.pages.descriptor.Contains ((nvAllocKernelMapping g d.pages.descriptor pageIndex pageOffset).toNat, 1) ∧
    d.pages.descriptor.Contains ((nvAllocUserMapping g d.pages.descriptor pageIndex pageOffset).2.toNat, 1)
  mapped : ∀ h h' d d', h ≠ h' → s.delivered h = some d → s.delivered h' = some d' → d'.Fits g →
    ∀ pageIndex pageOffset, d.MapsInside g pageIndex pageOffset → ∀ r' ∈ d'.ranges,
      Range.Apart ((nvAllocKernelMapping g d.pages.descriptor pageIndex pageOffset).toNat, 1) r' ∧
      Range.Apart ((nvAllocUserMapping g d.pages.descriptor pageIndex pageOffset).2.toNat, 1) r'

/-- The system makes no buffer that is there, and none over another; and what is freed was delivered. -/
def PagesLegal (g : OsPage) (s : PagesState) : PagesCall → Prop
  | .allocPages pageCount pageSize _ _ answer => ∀ h address, answer = some (h, address) →
    s.descriptors h = none ∧ ∀ segment, create g (totalSize pageCount pageSize) (some address) = some segment →
      ∀ h' o, s.descriptors h' = some o → segment.range.Apart o.value.range
  | .freePages privData => s.delivered privData ≠ none

/-- A call comes back unless the driver stops itself or the loop's counter overflows. -/
def KeepsIsolation (g : OsPage) (_ : PagesState) (l : PagesCall) : Except Fault PagesState → Prop
  | .error f => f = .panic ∨ f = .signedOverflow ∧
    ∃ pageCount pageSize zeroed answer, l = .allocPages pageCount pageSize false zeroed answer ∧ 2 ^ 31 ≤ pageCount.toNat
  | .ok s' => Isolated g s'

/-! ### Pages in their buffer -/

section
variable {g : OsPage} {segment segment' : IOAddressSegment} {r r' : Range}

theorem Range.Apart.symm (h : r.Apart r') : r'.Apart r := Or.symm h

theorem apart_of_contains (h : segment.range.Apart segment'.range) (hr : segment.Contains r) (hr' : segment'.Contains r') :
    r.Apart r' := by
  unfold Range.Apart IOAddressSegment.range at h
  unfold IOAddressSegment.Contains at hr hr'
  unfold Range.Apart
  omega

theorem contains_kernelMapping {pageIndex : NvU64} {pageOffset : NvU32}
    (h : pageIndex.toNat * g.osPageSize.toNat + pageOffset.toNat < segment.length) :
    segment.Contains ((nvAllocKernelMapping g segment pageIndex pageOffset).toNat, 1) := by
  have hfits := segment.fits
  have hpage : (g.osPageSize.setWidth 64).toNat = g.osPageSize.toNat := toNat_setWidth_64 _
  have haddress : (nvAllocKernelMapping g segment pageIndex pageOffset).toNat =
      segment.address.toNat + pageIndex.toNat * g.osPageSize.toNat + pageOffset.toNat := by
    have hproduct : pageIndex.toNat * g.osPageSize.toNat < 2 ^ 64 := by omega
    rw [nvAllocKernelMapping, BitVec.toNat_add, BitVec.toNat_add, BitVec.toNat_mul, hpage, toNat_setWidth_64,
      Nat.mod_eq_of_lt hproduct]
    omega
  rw [IOAddressSegment.Contains, haddress]
  omega

end

/-- A delivery of `nv_alloc_pages`. -/
def Delivery.Made (g : OsPage) (d : Delivery) : Prop :=
  ∃ zeroed answer, nvAllocPages g d.pageCount d.pageSize d.contiguous zeroed answer = .ok (.ok, some d.pages)

section
variable {g : OsPage} {d : Delivery}

theorem Delivery.Made.pages (hd : d.Made g) (hfits : d.Fits g) :
    d.pageCount.toNat * d.pageSize.toNat ≤ d.pages.descriptor.length ∧
      d.pages.pteArray = if d.contiguous then [d.pages.descriptor.address]
        else pageTable d.pages.descriptor d.pageSize d.pageCount.toNat := by
  obtain ⟨zeroed, answer, halloc⟩ := hd
  obtain ⟨hbuffer, hnull, hscattered⟩ := nvAllocPages_inv halloc
  refine ⟨(fitsRequest_iff hfits.1 hbuffer).1 hfits.2, ?_⟩
  rcases hcontiguous : d.contiguous with - | -
  · exact (hscattered hcontiguous).2
  · rw [hcontiguous, nvAllocPages_contiguous hbuffer hnull] at halloc
    have hpages := Option.some.inj (Prod.mk.inj (Except.ok.inj halloc)).2
    rw [if_pos rfl]
    exact (congrArg Pages.pteArray hpages).symm

theorem Delivery.Made.inside (hd : d.Made g) (hfits : d.Fits g) :
    (∀ r ∈ d.ranges, d.pages.descriptor.Contains r) ∧ d.ranges.Pairwise Range.Apart := by
  obtain ⟨hlength, htable⟩ := hd.pages hfits
  have hcount : d.pageCount.toNat < 2 ^ 64 := Nat.lt_trans d.pageCount.isLt (by decide)
  unfold Delivery.ranges
  rw [htable]
  rcases d.contiguous with - | -
  · -- Each entry is a slot of the buffer.
    have hslot : ∀ i < d.pageCount.toNat, (d.pages.descriptor.address + BitVec.ofNat 64 i * d.pageSize).toNat =
        slot d.pages.descriptor.address.toNat d.pageSize.toNat i := fun i hi => toNat_pageAddress hi hcount hlength
    simp only [Bool.false_eq_true, if_false, pageTable, List.map_map]
    constructor
    · intro r hr
      obtain ⟨i, hi, rfl⟩ := List.mem_map.1 hr
      have hi' : i < d.pageCount.toNat := by simpa using hi
      have hend : slot d.pages.descriptor.address.toNat d.pageSize.toNat i + d.pageSize.toNat ≤
          d.pages.descriptor.address.toNat + d.pages.descriptor.length :=
        (slots_inside_iff (Nat.zero_lt_of_lt hi')).2 hlength i hi'
      simp only [IOAddressSegment.Contains, Function.comp_apply, hslot i hi']
      exact ⟨base_le_slot, hend⟩
    · rw [List.pairwise_map]
      refine List.Pairwise.imp_of_mem ?_ (List.pairwise_lt_range' 1 Nat.one_pos)
      intro i j hi hj hij
      have hi' : i < d.pageCount.toNat := by simpa using hi
      have hj' : j < d.pageCount.toNat := by simpa using hj
      simp only [Range.Apart, Function.comp_apply, hslot i hi', hslot j hj']
      exact slot_disjoint (Nat.ne_of_lt hij)
  · simp only [if_true, List.map_cons, List.map_nil, List.mem_singleton, List.pairwise_singleton, and_true]
    rintro r rfl
    exact ⟨Nat.le_refl _, Nat.add_le_add_left hlength _⟩

end

/-! ### Runs -/

/-- What the calls keep: deliveries of `nv_alloc_pages`, in buffers that are apart. -/
structure Delivered (g : OsPage) (s : PagesState) : Prop where
  owned : Owned s.descriptors fun h => (s.delivered h).map (·.pages.descriptor)
  made : ∀ h d, s.delivered h = some d → d.Made g
  apart : ∀ h h' d d', h ≠ h' → s.delivered h = some d → s.delivered h' = some d' →
    d.pages.descriptor.range.Apart d'.pages.descriptor.range

section
variable {g : OsPage} {s : PagesState} {l : PagesCall} {h : BufferHandle} {d : Delivery}

theorem Delivered.empty : Delivered g .empty := ⟨.empty, nofun, nofun⟩

theorem Delivered.isolated (hs : Delivered g s) : Isolated g s where
  owned := hs.owned
  inside := fun h d hd hfits => (hs.made h d hd).inside hfits
  apart := by
    intro h h' d d' hne hd hd' hfits hfits' r hr r' hr'
    exact apart_of_contains (hs.apart h h' d d' hne hd hd') (((hs.made h d hd).inside hfits).1 r hr)
      (((hs.made h' d' hd').inside hfits').1 r' hr')
  mappedInside := fun _ _ _ _ _ hinside => ⟨contains_kernelMapping hinside, contains_kernelMapping hinside⟩
  mapped := by
    intro h h' d d' hne hd hd' hfits' pageIndex pageOffset hinside r' hr'
    have hkernel := apart_of_contains (hs.apart h h' d d' hne hd hd') (contains_kernelMapping hinside)
      (((hs.made h' d' hd').inside hfits').1 r' hr')
    exact ⟨hkernel, hkernel⟩

/-- Nothing that was delivered is in a buffer that is new. -/
theorem Delivered.deliver (hs : Delivered g s) (hmade : d.Made g) (address : NvU64) (hh : s.descriptors h = none)
    (hnew : ∀ h' o, s.descriptors h' = some o → d.pages.descriptor.range.Apart o.value.range) :
    Delivered g (s.deliver d (some (h, address))) := by
  have hbefore : ∀ h' d', s.delivered h' = some d' → d.pages.descriptor.range.Apart d'.pages.descriptor.range := by
    intro h' d' hd'
    exact hnew h' _ (hs.owned.live_iff.2 (congrArg (Option.map _) hd'))
  refine ⟨?_, ?_, ?_⟩
  · have howned := hs.owned.create h d.pages.descriptor
    have hmap : Function.update (fun h => (s.delivered h).map (·.pages.descriptor)) h (some d.pages.descriptor) =
        fun x => (Function.update s.delivered h (some d) x).map (·.pages.descriptor) := by
      funext x
      by_cases hx : x = h
      · simp [hx]
      · simp [hx]
    rw [hmap] at howned
    exact howned
  · intro h' d' hd'
    rcases update_apply_eq_iff.1 hd' with ⟨-, heq⟩ | ⟨-, hold⟩
    · exact Option.some.inj heq ▸ hmade
    · exact hs.made h' d' hold
  · intro h₁ h₂ d₁ d₂ hne hd₁ hd₂
    rcases update_apply_eq_iff.1 hd₁ with ⟨rfl, heq₁⟩ | ⟨-, hold₁⟩ <;>
      rcases update_apply_eq_iff.1 hd₂ with ⟨rfl, heq₂⟩ | ⟨-, hold₂⟩
    · exact absurd rfl hne
    · exact Option.some.inj heq₁ ▸ hbefore h₂ d₂ hold₂
    · exact Option.some.inj heq₂ ▸ (hbefore h₁ d₁ hold₁).symm
    · exact hs.apart h₁ h₂ d₁ d₂ hne hold₁ hold₂

theorem Delivered.free (hs : Delivered g s) (hd : s.delivered h = some d) :
    ∃ s', pagesCall g s (.freePages h) = .ok s' ∧ Delivered g s' := by
  obtain ⟨hrelease, howned⟩ := hs.owned.release (congrArg (Option.map _) hd)
  have hmap : Function.update (fun h => (s.delivered h).map (·.pages.descriptor)) h none =
      fun x => (Function.update s.delivered h none x).map (·.pages.descriptor) := by
    funext x
    by_cases hx : x = h
    · simp [hx]
    · simp [hx]
  refine ⟨⟨Function.update s.descriptors h none, Function.update s.delivered h none⟩, ?_, ?_, ?_, ?_⟩
  · show (nvFreePages s.descriptors h >>= fun _ => _) = _
    rw [nvFreePages, hrelease]
    rfl
  · rw [hmap] at howned
    exact howned
  · exact fun h' d' hd' => hs.made h' d' (apply_of_update_eq hd' nofun).2
  · exact fun h₁ h₂ d₁ d₂ hne hd₁ hd₂ => hs.apart h₁ h₂ d₁ d₂ hne (apply_of_update_eq hd₁ nofun).2
      (apply_of_update_eq hd₂ nofun).2

/-- A call of `nv_alloc_pages` fails and delivers nothing, delivers, or does not come back. -/
theorem nvAllocPages_cases (g : OsPage) (pageCount : NvU32) (pageSize : NvU64) (contiguous zeroed : NvBool) (answer : Option NvU64) :
    nvAllocPages g pageCount pageSize contiguous zeroed answer = .ok (.errNoMemory, none) ∨
    (∃ p, nvAllocPages g pageCount pageSize contiguous zeroed answer = .ok (.ok, some p)) ∨
    nvAllocPages g pageCount pageSize contiguous zeroed answer = .error .panic ∨
    nvAllocPages g pageCount pageSize contiguous zeroed answer = .error .signedOverflow ∧
      contiguous = false ∧ 2 ^ 31 ≤ pageCount.toNat := by
  rcases hbuffer : create g (totalSize pageCount pageSize) answer with - | segment
  · left
    rw [nvAllocPages, hbuffer]
  by_cases hnull : segment.address = 0
  · right; right; left
    rw [nvAllocPages, hbuffer]
    exact if_pos hnull
  rcases contiguous with - | -
  · rcases Nat.lt_or_ge pageCount.toNat (2 ^ 31) with hcount | hcount
    · exact .inr (.inl ⟨_, nvAllocPages_scattered hbuffer hnull hcount⟩)
    · exact .inr (.inr (.inr ⟨nvAllocPages_overflow hbuffer hnull hcount, rfl, hcount⟩))
  · exact .inr (.inl ⟨_, nvAllocPages_contiguous hbuffer hnull⟩)

theorem Delivered.step (hs : Delivered g s) (hl : PagesLegal g s l) :
    (∃ s', pagesCall g s l = .ok s' ∧ Delivered g s') ∨
    ∃ f, pagesCall g s l = .error f ∧ KeepsIsolation g s l (.error f) := by
  cases l with
  | freePages privData =>
    obtain ⟨d, hd⟩ := Option.ne_none_iff_exists'.1 hl
    exact .inl (hs.free hd)
  | allocPages pageCount pageSize contiguous zeroed answer =>
    rcases nvAllocPages_cases g pageCount pageSize contiguous zeroed (answer.map Prod.snd) with heq | ⟨p, heq⟩ | heq |
      ⟨heq, rfl, hcount⟩
    · left
      refine ⟨s, ?_, hs⟩
      rw [pagesCall, heq]
      rfl
    · left
      have hmade : Delivery.Made g ⟨pageCount, pageSize, contiguous, p⟩ := ⟨zeroed, _, heq⟩
      obtain ⟨hbuffer, -⟩ := nvAllocPages_inv heq
      rcases answer with - | ⟨h, address⟩
      · cases hbuffer
      obtain ⟨hh, hnew⟩ := hl h address rfl
      refine ⟨_, ?_, hs.deliver (h := h) hmade address hh (hnew _ hbuffer)⟩
      rw [pagesCall, heq]
      rfl
    · right
      refine ⟨.panic, ?_, .inl rfl⟩
      rw [pagesCall, heq]
      rfl
    · right
      refine ⟨.signedOverflow, ?_, .inr ⟨rfl, pageCount, pageSize, zeroed, answer, rfl, hcount⟩⟩
      rw [pagesCall, heq]
      rfl

end

/-- In every run, whatever fails, the buffers are those delivered and not freed, and where requests fit,
no page or mapping of one allocation is in the pages of another. -/
theorem pagesRun_isolated (g : OsPage) (calls : List PagesCall)
    (hlegal : (pagesMachine g).Along (fun s l _ => PagesLegal g s l) .empty calls) :
    (pagesMachine g).Along (KeepsIsolation g) .empty calls := by
  refine Machine.along_of_legal (I := Delivered g) ?_ ?_ .empty hlegal
  · intro s l hs hl
    show KeepsIsolation g s l (pagesCall g s l)
    rcases hs.step hl with ⟨s', heq, hs'⟩ | ⟨f, heq, hf⟩
    · rw [heq]
      exact hs'.isolated
    · rw [heq]
      exact hf
  · intro s l hs hl s' hs'
    have hcall := eq_ok_of_toOption hs'
    change pagesCall g s l = _ at hcall
    rcases hs.step hl with ⟨s'', heq, hs''⟩ | ⟨f, heq, -⟩
    · obtain rfl := Except.ok.inj (hcall.symm.trans heq)
      exact hs''
    · rw [heq] at hcall
      cases hcall

/-- Two allocations, one that fails, and the first freed. -/
def allocatedTwice : List PagesCall :=
  [.allocPages 2 0x4000 false true (some (0, 0x8000)), .allocPages 1 0x4000 true false (some (1, 0x10000)),
    .allocPages 1 0x4000 true false none, .freePages 0]

theorem pagesRun_isolated_allocatedTwice :
    (pagesMachine .sixteenK).Along (KeepsIsolation .sixteenK) .empty allocatedTwice := by
  refine pagesRun_isolated .sixteenK allocatedTwice ⟨?_, ?_⟩
  · rintro h address ⟨⟩
    exact ⟨rfl, fun _ _ h' o ho => by cases ho⟩
  rintro s ⟨⟩
  refine ⟨?_, ?_⟩
  · rintro h address ⟨⟩
    refine ⟨rfl, fun segment hsegment h' o ho => ?_⟩
    cases hsegment
    rcases update_apply_eq_iff.1 ho with ⟨-, heq⟩ | ⟨-, hnone⟩
    · cases heq
      exact .inr (by decide)
    · cases hnone
  rintro s ⟨⟩
  refine ⟨nofun, ?_⟩
  rintro s ⟨⟩
  exact ⟨nofun, fun _ _ => trivial⟩

end NVMac.DriverKit
