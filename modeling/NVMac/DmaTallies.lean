import NVMac.DmaLedger

/-!
# What the kernel port's DMA calls hold (`memory_kernel.cpp`)

Clients may free what they have freed before. `nv_free_pages` leaves the pairing, with `NULL` in both
fields, so that a second free reads through `NULL` before it comes to another allocation.
`dmaRun_tallied` says what is held after any such run, kind by kind.
-/

namespace NVMac.Kernel
open Ledger Outcome

inductive TokenKind
  | retained | prepared | attached | block
deriving DecidableEq, Repr

def Token.kind : Token → TokenKind
  | .retained _ => .retained
  | .prepared _ => .prepared
  | .attached _ _ => .attached
  | .block _ => .block

/-- How many an outstanding allocation holds. -/
def TokenKind.each : TokenKind → Nat
  | .retained => 2
  | .prepared | .attached => 1
  | .block => 0

/-- What a call that comes back takes for good. -/
def DmaCall.loses : DmaCall → Option TokenKind
  | .allocPages req a => if GetsCommand req a then some (if a.segments.isSome then .block else .attached) else none
  | _ => none

def DmaCall.frees : DmaCall → Bool
  | .freePages _ => true
  | _ => false

/-- There is no memory for the pairing, or the handle was freed before. -/
def ReadsNull (s : DmaState) : DmaCall → Prop
  | .allocPages req a => GetsCommand req a ∧ a.segments.isSome = true ∧ a.pairing = false
  | .freePages privData => privData ∉ s.outstanding
  | .setAddressSize .. => False

/-- What is freed was delivered, and may be freed already. -/
def FreesDelivered (s : DmaState) : DmaCall → Prop
  | .freePages privData => IsPairing s.kernel privData
  | _ => True

/-- Descriptor, command and pairing of an allocation are the same. -/
def SameObjects (k k' : State) (h : Nat) : Prop := ∀ i, i ≤ h → h ≤ i + 2 → k'.objects[i]? = k.objects[i]?

/-- The allocations that are not freed stay as they are, and the pairings are those delivered. -/
structure LeavesOthers (s : DmaState) (l : DmaCall) (s' : DmaState) (out : Option PageOutcome) : Prop where
  others : ∀ h ∈ s.outstanding, l ≠ .freePages h → h ∈ s'.outstanding ∧ SameObjects s.kernel s'.kernel h
  pairings : ∀ h, IsPairing s'.kernel h ↔ IsPairing s.kernel h ∨ out.bind (·.privData) = some h

/-- A call reads through `NULL`, or comes back and leaves the others alone. -/
structure ActsApart (s : DmaState) (l : DmaCall) (r : DmaAnswer) : Prop where
  null : ReadsNull s l → r = .error .nullDereference
  back : ¬ ReadsNull s l → ∃ s' out, r = .ok (s', out) ∧ LeavesOthers s l s' out

/-- Each outstanding allocation has its own three objects, and all is held that they hold and that
was lost. -/
structure DmaTallied (made : List DmaCall) (s : DmaState) : Prop where
  intact : ∀ h ∈ s.outstanding, Intact s.kernel.objects h
  apart : s.outstanding.Pairwise fun h h' => h + 3 ≤ h' ∨ h' + 3 ≤ h
  delivered : s.outstanding.length + made.countP DmaCall.frees = (made.filterMap DmaCall.loses).count .block
  held : ∀ kind, (s.kernel.ledger.map Token.kind).count kind =
    s.outstanding.length * kind.each + (made.filterMap DmaCall.loses).count kind

/-- What the calls keep. -/
structure DmaKept (made : List DmaCall) (s : DmaState) : Prop where
  accounted : ∃ lost, Accounted s lost ∧ lost.map Token.kind = (made.filterMap DmaCall.loses).reverse
  freed : ∀ h, IsPairing s.kernel h → h ∈ s.outstanding ∨ s.kernel.objects[h]? = some (.pairing ⟨none, none⟩)
  delivered : s.outstanding.length + made.countP DmaCall.frees = (made.filterMap DmaCall.loses).count .block

section
variable {g : OsPage} {s s' : DmaState} {k k' : State} {req : PageRequest} {a : PageAnswers} {out : PageOutcome}
  {l : DmaCall} {made : List DmaCall} {h h' : Nat} {lost : List Token} {objects : List Object}

/-! ### The objects of a call -/

theorem ne_of_descriptor {i j : Nat} {d : IOBufferMemoryDescriptor} {o : Object}
    (hd : objects[i]? = some (.descriptor d)) (ho : objects[j]? = some o) (hclass : o ≠ .descriptor d) : i ≠ j := by
  rintro rfl
  exact hclass (Option.some.inj (ho.symm.trans hd))

/-- The classes of their objects keep two allocations apart. -/
theorem Intact.apart (hi : Intact objects h) (hi' : Intact objects h') (hne : h ≠ h') :
    h + 3 ≤ h' ∨ h' + 3 ≤ h := by
  obtain ⟨n, d, c, rfl, hd, hc, -, hp⟩ := hi
  obtain ⟨n', d', c', rfl, hd', hc', -, hp'⟩ := hi'
  have hne' : n ≠ n' := fun heq => hne (by rw [heq])
  have hone : n' ≠ n + 1 := ne_of_descriptor hd' hc (fun heq => by cases heq)
  have htwo : n' ≠ n + 2 := ne_of_descriptor hd' hp (fun heq => by cases heq)
  have hone' : n ≠ n' + 1 := ne_of_descriptor hd hc' (fun heq => by cases heq)
  have htwo' : n ≠ n' + 2 := ne_of_descriptor hd hp' (fun heq => by cases heq)
  omega

/-- Without a command no pairing is made. -/
theorem nvAllocPages_descriptors (hget : ¬ GetsCommand req a) (hout : nvAllocPages g k req a = .ok out) :
    out.privData = none ∧ ∃ descriptors : List IOBufferMemoryDescriptor,
      out.kernel.objects = k.objects ++ descriptors.map .descriptor := by
  rw [nvAllocPages] at hout
  cases hq : bufferRequest k.dmaMask req a.wideShift with
  | none =>
    rw [hq] at hout
    cases hout
    exact ⟨rfl, [], by simp [PageOutcome.failed]⟩
  | some q =>
    rw [hq] at hout
    have hcache : (mapCache req.cacheType).isSome = true := by
      rw [bufferRequest, Option.map_eq_some_iff] at hq
      obtain ⟨cache, hcache, -⟩ := hq
      rw [hcache]
      rfl
    cases hd : inTaskWithPhysicalMask g q a.buffer with
    | none =>
      simp only [hd] at hout
      cases hout
      exact ⟨rfl, [], by simp [PageOutcome.failed]⟩
    | some d =>
      simp only [hd] at hout
      have hbuffer : a.buffer.isSome = true := by
        rw [inTaskWithPhysicalMask, Option.map_eq_some_iff] at hd
        obtain ⟨at_, hbuffer, -⟩ := hd
        rw [hbuffer]
        rfl
      have hcommand : a.command = false := Bool.eq_false_iff.2 fun hc => hget ⟨hcache, hbuffer, hc⟩
      simp only [generatePages, hcommand, Bool.false_eq_true, if_false, State.create, State.prepare, State.complete,
        State.release, State.giveBack, giveBack_cons_self, ok_bind, pure_eq_ok, Except.ok.injEq] at hout
      subst hout
      exact ⟨rfl, [d], rfl⟩

/-- A call makes objects of its own, and of them one pairing if it delivers. -/
theorem nvAllocPages_makes (hout : nvAllocPages g k req a = .ok out) : ∃ more, out.kernel.objects = k.objects ++ more ∧
    ∀ h, out.privData = some h ↔ ∃ i p, h = k.objects.length + i ∧ more[i]? = some (.pairing p) := by
  by_cases hget : GetsCommand req a
  · obtain ⟨d, -, heq⟩ := nvAllocPages_of_command (g := g) (k := k) hget
    rw [hout] at heq
    cases hseg : a.segments with
    | none =>
      simp only [hseg, gen64IOVMSegments, Option.map_none] at heq
      cases heq
      refine ⟨_, rfl, fun h => iff_of_false (fun hpriv => by cases hpriv) ?_⟩
      rintro ⟨_ | _ | i, p, -, ⟨⟩⟩
    | some segments =>
      simp only [hseg, gen64IOVMSegments, Option.map_some, persistPages] at heq
      split at heq
      · cases heq
        refine ⟨_, List.append_assoc _ _ _, fun h => ?_⟩
        simp only [State.length_withCommand, Option.some.injEq]
        constructor
        · rintro rfl
          exact ⟨2, _, rfl, rfl⟩
        · rintro ⟨_ | _ | _ | i, p, rfl, ⟨⟩⟩
          rfl
      · cases heq
  · obtain ⟨hpriv, descriptors, hobjects⟩ := nvAllocPages_descriptors hget hout
    refine ⟨_, hobjects, fun h => iff_of_false (fun hpriv' => by cases hpriv.symm.trans hpriv') ?_⟩
    rintro ⟨i, p, -, hp⟩
    rw [List.getElem?_map, Option.map_eq_some_iff] at hp
    obtain ⟨d, -, hd⟩ := hp
    cases hd

theorem isPairing_nvAllocPages (hout : nvAllocPages g k req a = .ok out) :
    IsPairing out.kernel h ↔ IsPairing k h ∨ out.privData = some h := by
  obtain ⟨more, hobjects, hpairing⟩ := nvAllocPages_makes hout
  unfold IsPairing
  rw [hobjects, hpairing]
  rcases Nat.lt_or_ge h k.objects.length with hlt | hge
  · rw [List.getElem?_append_left hlt, or_iff_left]
    rintro ⟨i, p, rfl, -⟩
    exact absurd hlt (Nat.not_lt.2 (Nat.le_add_right _ _))
  · rw [List.getElem?_append_right hge, or_iff_right]
    · constructor
      · rintro ⟨p, hp⟩
        exact ⟨_, p, (Nat.add_sub_cancel' hge).symm, hp⟩
      · rintro ⟨i, p, rfl, hp⟩
        rw [Nat.add_sub_cancel_left]
        exact ⟨p, hp⟩
    · rintro ⟨p, hp⟩
      exact absurd (List.getElem?_eq_some_iff.1 hp).1 (Nat.not_lt.2 hge)

/-- A free of an intact allocation changes its command and its pairing. -/
theorem objects_nvFreePages {status : NvStatus} (hi : Intact k.objects h) (hk : nvFreePages k h = .ok (status, k')) :
    ∃ c, k'.objects = (k.objects.set (h - 1) (.command c)).set h (.pairing ⟨none, none⟩) := by
  obtain ⟨n, d, c, rfl, -, hc, hm, hp⟩ := hi
  obtain ⟨pairing, hpairing, hk⟩ := bind_eq_ok hk
  rw [State.pairingAt, hp] at hpairing
  cases hpairing
  obtain ⟨command, hcommand, hk⟩ := bind_eq_ok hk
  cases hcommand
  obtain ⟨k₁, h₁, hk⟩ := bind_eq_ok hk
  obtain ⟨descriptor, -, hk⟩ := bind_eq_ok hk
  obtain ⟨k₂, h₂, hk⟩ := bind_eq_ok hk
  obtain ⟨k₃, h₃, hk⟩ := bind_eq_ok hk
  obtain ⟨k₄, h₄, hk⟩ := bind_eq_ok hk
  cases hk
  obtain ⟨_, rfl⟩ := giveBack_eq h₂
  obtain ⟨_, rfl⟩ := giveBack_eq h₃
  obtain ⟨_, rfl⟩ := giveBack_eq h₄
  have hcommand : k.commandAt (n + 1) = .ok c := by rw [State.commandAt, hc]
  rw [State.clearMemoryDescriptor, hcommand] at h₁
  simp only [ok_bind, hm] at h₁
  obtain ⟨k₅, h₅, h₁⟩ := bind_eq_ok h₁
  obtain ⟨_, rfl⟩ := giveBack_eq h₅
  cases h₁
  exact ⟨_, rfl⟩

/-- The pairing that is freed keeps its place, and the others are as they were. -/
theorem pairing_nvFreePages {status : NvStatus} (hi : Intact k.objects h) (hk : nvFreePages k h = .ok (status, k')) :
    k'.objects[h]? = some (.pairing ⟨none, none⟩) ∧
      ∀ h' p, h' ≠ h → (k'.objects[h']? = some (.pairing p) ↔ k.objects[h']? = some (.pairing p)) := by
  obtain ⟨c, hobjects⟩ := objects_nvFreePages hi hk
  obtain ⟨n, d, c', rfl, -, hc, -, hp⟩ := hi
  rw [hobjects]
  constructor
  · refine List.getElem?_set_self ?_
    rw [List.length_set]
    exact (List.getElem?_eq_some_iff.1 hp).1
  · intro h' p hne
    rw [List.getElem?_set_ne hne.symm]
    by_cases hcommand : n + 1 = h'
    · subst hcommand
      have hset : (k.objects.set (n + 1) (.command c))[n + 1]? = some (.command c) :=
        List.getElem?_set_self (List.getElem?_eq_some_iff.1 hc).1
      exact iff_of_false (fun h => by cases hset.symm.trans h) (fun h => by cases hc.symm.trans h)
    · exact iff_of_eq (by rw [show n + 2 - 1 = n + 1 from rfl, List.getElem?_set_ne hcommand])

theorem isPairing_freePages {status : NvStatus} (hi : Intact k.objects h) (hk : nvFreePages k h = .ok (status, k')) :
    IsPairing k' h' ↔ IsPairing k h' := by
  obtain ⟨hself, hothers⟩ := pairing_nvFreePages hi hk
  by_cases hne : h' = h
  · subst hne
    obtain ⟨n, d, c, rfl, -, -, -, hp⟩ := hi
    exact iff_of_true ⟨_, hself⟩ ⟨_, hp⟩
  · exact exists_congr fun p => hothers h' p hne

/-- What is freed already reads through `NULL`. -/
theorem nvFreePages_freed (hfreed : k.objects[h]? = some (.pairing ⟨none, none⟩)) :
    nvFreePages k h = .error .nullDereference := by
  rw [nvFreePages, State.pairingAt, hfreed]
  rfl

/-! ### One call -/

theorem Accounted.apart (hs : Accounted s lost) : s.outstanding.Pairwise fun h h' => h + 3 ≤ h' ∨ h' + 3 ≤ h :=
  hs.nodup.imp_of_mem fun hh hh' hne => (hs.intact _ hh).apart (hs.intact _ hh') hne

theorem allocPages_readsNull (hnull : ReadsNull s (.allocPages req a)) :
    dmaCall g s (.allocPages req a) = .error .nullDereference := by
  obtain ⟨hget, hsegments, hpairing⟩ := hnull
  obtain ⟨d, -, heq⟩ := nvAllocPages_of_command (g := g) (k := s.kernel) hget
  obtain ⟨segments, hsegments⟩ := Option.isSome_iff_exists.1 hsegments
  rw [dmaCall, heq, hsegments, hpairing]
  rfl

/-- A handle is delivered exactly where a block is lost. -/
theorem allocPages_back (hnull : ¬ ReadsNull s (.allocPages req a)) :
    ∃ out, nvAllocPages g s.kernel req a = .ok out ∧
      out.privData.toList.length = (DmaCall.allocPages req a).loses.toList.count .block := by
  by_cases hget : GetsCommand req a
  · obtain ⟨d, -, heq⟩ := nvAllocPages_of_command (g := g) (k := s.kernel) hget
    rw [heq, DmaCall.loses, if_pos hget]
    cases hsegments : a.segments with
    | none => exact ⟨_, rfl, rfl⟩
    | some segments =>
      have hpairing : a.pairing = true := by
        by_contra hp
        exact hnull ⟨hget, by rw [hsegments]; rfl, Bool.eq_false_iff.2 hp⟩
      rw [hpairing]
      exact ⟨_, rfl, rfl⟩
  · obtain ⟨status, more, -, heq⟩ := nvAllocPages_of_no_command (g := g) (k := s.kernel) hget
    rw [heq, DmaCall.loses, if_neg hget]
    exact ⟨_, rfl, rfl⟩

/-- An allocation leaves all objects as they are. -/
theorem allocPages_leavesOthers (hout : nvAllocPages g s.kernel req a = .ok out)
    (hintact : ∀ h ∈ s.outstanding, Intact s.kernel.objects h) :
    LeavesOthers s (.allocPages req a) { s with kernel := out.kernel, outstanding := out.privData.toList ++ s.outstanding }
      (some out) := by
  obtain ⟨more, hobjects, -⟩ := nvAllocPages_makes hout
  refine ⟨fun h hh _ => ⟨List.mem_append_right _ hh, fun i hi _ => ?_⟩, fun h => isPairing_nvAllocPages hout⟩
  rw [hobjects]
  exact List.getElem?_append_left (Nat.lt_of_le_of_lt hi (hintact h hh).lt)

theorem freePages_leavesOthers {status : NvStatus} (hs : Accounted s lost) (hmem : h ∈ s.outstanding)
    (hk : nvFreePages s.kernel h = .ok (status, k')) :
    LeavesOthers s (.freePages h) { s with kernel := k', outstanding := s.outstanding.erase h } none := by
  have hi := hs.intact h hmem
  obtain ⟨c, hobjects⟩ := objects_nvFreePages hi hk
  refine ⟨fun h' hh' hne => ?_, fun h' => ?_⟩
  · have hne' : h' ≠ h := fun heq => hne (by rw [heq])
    refine ⟨(List.mem_erase_of_ne hne').2 hh', fun i hi₁ hi₂ => ?_⟩
    have hapart := hi.apart (hs.intact h' hh') hne'.symm
    have hpos : 2 ≤ h := by
      obtain ⟨n, -, -, rfl, -⟩ := hi
      exact Nat.le_add_left 2 n
    have hpairing : h ≠ i := by omega
    have hcommand : h - 1 ≠ i := by omega
    rw [hobjects, List.getElem?_set_ne hpairing, List.getElem?_set_ne hcommand]
  · exact (isPairing_freePages hi hk).trans (or_iff_left fun heq => by cases heq).symm

theorem DmaKept.acts (hs : DmaKept made s) (hl : FreesDelivered s l) : ActsApart s l ((dmaMachine g).call s l) := by
  obtain ⟨lost, hacc, -⟩ := hs.accounted
  cases l with
  | setAddressSize physAddrBits wideShift =>
    refine ⟨False.elim, fun _ => ⟨_, none, rfl, fun h hh _ => ⟨hh, fun i _ _ => rfl⟩, fun h => ?_⟩⟩
    exact (or_iff_left fun heq => by cases heq).symm
  | allocPages req a =>
    refine ⟨allocPages_readsNull, fun hnull => ?_⟩
    obtain ⟨out, hout, -⟩ := allocPages_back (g := g) hnull
    refine ⟨_, some out, ?_, allocPages_leavesOthers hout hacc.intact⟩
    show dmaCall g s (.allocPages req a) = _
    rw [dmaCall, hout]
    rfl
  | freePages privData =>
    constructor
    · intro hnull
      have hfreed := (hs.freed privData hl).resolve_left hnull
      show dmaCall g s (.freePages privData) = _
      rw [dmaCall, nvFreePages_freed hfreed]
      rfl
    · intro hmem
      replace hmem := not_not.1 hmem
      obtain ⟨k', hk', -⟩ := hacc.free hmem
      refine ⟨_, none, ?_, freePages_leavesOthers hacc hmem hk'⟩
      show dmaCall g s (.freePages privData) = _
      rw [dmaCall, hk']
      rfl

theorem map_kind_leak : (leak s l).map Token.kind = l.loses.toList := by
  cases l with
  | setAddressSize physAddrBits wideShift => rfl
  | freePages privData => rfl
  | allocPages req a =>
    by_cases hget : GetsCommand req a
    · rw [leak, DmaCall.loses, if_pos hget, if_pos hget]
      cases a.segments <;> rfl
    · rw [leak, DmaCall.loses, if_neg hget, if_neg hget]
      rfl

theorem losses_append : (made ++ [l]).filterMap DmaCall.loses = made.filterMap DmaCall.loses ++ l.loses.toList := by
  rw [List.filterMap_append, List.filterMap_cons]
  cases l.loses <;> rfl

/-- A call that comes back delivers a handle where it loses a block, and takes one back where it frees. -/
theorem outstanding_next (hl : Legal s l) (hnull : ¬ ReadsNull s l)
    (hnext : (dmaMachine g).next ((dmaMachine g).call s l) = some s') :
    s'.outstanding.length + [l].countP DmaCall.frees = s.outstanding.length + l.loses.toList.count .block := by
  cases l with
  | setAddressSize physAddrBits wideShift =>
    cases hnext
    rfl
  | allocPages req a =>
    obtain ⟨out, hout, rfl⟩ := next_allocPages hnext
    obtain ⟨out', hout', hdelivered⟩ := allocPages_back (g := g) hnull
    obtain rfl := Except.ok.inj (hout.symm.trans hout')
    show (out.privData.toList ++ s.outstanding).length + 0 = _
    rw [List.length_append, hdelivered, Nat.add_zero, Nat.add_comm]
  | freePages privData =>
    obtain ⟨status, k', hk, rfl⟩ := next_freePages hnext
    show (s.outstanding.erase privData).length + 1 = s.outstanding.length
    exact List.length_erase_add_one hl

/-! ### Runs -/

theorem count_kind_held (kind : TokenKind) (hs : List Handle) :
    ((hs.flatMap held).map Token.kind).count kind = hs.length * kind.each := by
  induction hs with
  | nil => exact (Nat.zero_mul _).symm
  | cons h hs ih =>
    have hone : ((held h).map Token.kind).count kind = kind.each := by
      cases kind <;> rfl
    rw [List.flatMap_cons, List.map_append, List.count_append, ih, hone, List.length_cons, Nat.succ_mul, Nat.add_comm]

theorem DmaKept.tallied (hs : DmaKept made s) : DmaTallied made s := by
  obtain ⟨lost, hacc, hlost⟩ := hs.accounted
  refine ⟨hacc.intact, hacc.apart, hs.delivered, fun kind => ?_⟩
  rw [(hacc.ledger.map Token.kind).count_eq, List.map_append, List.count_append, count_kind_held, hlost,
    List.count_reverse]

/-- Only what is outstanding is freed by a call that comes back. -/
theorem legal_of_next (hs : DmaKept made s) (hl : FreesDelivered s l)
    (hnext : (dmaMachine g).next ((dmaMachine g).call s l) = some s') : ¬ ReadsNull s l ∧ Legal s l := by
  have hnull : ¬ ReadsNull s l := fun hnull => by
    rw [(hs.acts hl).null hnull] at hnext
    cases hnext
  refine ⟨hnull, ?_⟩
  cases l with
  | freePages privData => exact not_not.1 hnull
  | _ => trivial

theorem DmaKept.next (hs : DmaKept made s) (hl : FreesDelivered s l)
    (hnext : (dmaMachine g).next ((dmaMachine g).call s l) = some s') : DmaKept (made ++ [l]) s' := by
  obtain ⟨hnull, hlegal⟩ := legal_of_next hs hl hnext
  obtain ⟨lost, hacc, hlost⟩ := hs.accounted
  refine ⟨⟨leak s l ++ lost, accounted_next hacc hlegal hnext, ?_⟩, ?_, ?_⟩
  · rw [List.map_append, map_kind_leak, hlost, losses_append, List.reverse_append]
    cases l.loses <;> rfl
  · cases l with
    | setAddressSize physAddrBits wideShift =>
      cases hnext
      exact hs.freed
    | allocPages req a =>
      obtain ⟨out, hout, rfl⟩ := next_allocPages hnext
      obtain ⟨more, hobjects, -⟩ := nvAllocPages_makes hout
      intro h hp
      rcases (isPairing_nvAllocPages hout).1 hp with hold | hpriv
      · rcases hs.freed h hold with hmem | hfreed
        · exact .inl (List.mem_append_right _ hmem)
        · right
          rw [hobjects]
          exact List.getElem?_append_left (List.getElem?_eq_some_iff.1 hfreed).1 ▸ hfreed
      · exact .inl (List.mem_append_left _ (Option.mem_toList.2 hpriv))
    | freePages privData =>
      obtain ⟨status, k', hk, rfl⟩ := next_freePages hnext
      have hi := hacc.intact _ hlegal
      obtain ⟨hself, hothers⟩ := pairing_nvFreePages hi hk
      intro h hp
      by_cases hne : h = privData
      · right
        rw [hne]
        exact hself
      · rcases hs.freed h ((isPairing_freePages hi hk).1 hp) with hmem | hfreed
        · exact .inl ((List.mem_erase_of_ne hne).2 hmem)
        · exact .inr ((hothers h _ hne).2 hfreed)
  · rw [losses_append, List.countP_append, List.count_append, ← hs.delivered]
    have hone := outstanding_next hlegal hnull hnext
    omega

theorem DmaKept.init : DmaKept [] .init where
  accounted := ⟨[], accounted_init, rfl⟩
  freed := by
    rintro h ⟨p, ⟨⟩⟩
  delivered := rfl

end

/-- In every run, freed or not, outstanding allocations are left alone, all that fails reads through
`NULL`, and what is held is known of each kind: of an allocation that was freed the block of its
pairing, and of a failure of `gen64IOVMSegments` the command's reference. -/
theorem dmaRun_tallied (g : OsPage) (calls : List DmaCall)
    (hlegal : (dmaMachine g).Along (fun s l _ => FreesDelivered s l) .init calls) :
    (dmaMachine g).Along ActsApart .init calls ∧
      ∀ s, (dmaMachine g).after .init calls = some s → DmaTallied calls s := by
  obtain ⟨hacts, hafter⟩ := Machine.along_of_history (I := DmaKept) [] (fun _ _ _ hs hl => hs.acts hl)
    (fun _ _ _ _ hs hl hnext => hs.next hl hnext) .init hlegal
  exact ⟨hacts, fun s hs => (hafter s hs).tallied⟩

/-- Two allocations, one between them for which no segments are made, and the first freed. -/
def freedOnce : List DmaCall :=
  [.allocPages twoPages granted, .allocPages twoPages { granted with segments := none }, .allocPages twoPages granted,
    .freePages 2]

theorem dmaRun_tallied_freedOnce : ∃ s, (dmaMachine .sixteenK).after .init freedOnce = some s ∧ DmaTallied freedOnce s ∧
    s.outstanding = [7] ∧ ReadsNull s (.freePages 2) ∧ dmaCall .sixteenK s (.freePages 2) = .error .nullDereference := by
  refine ⟨_, rfl, (dmaRun_tallied .sixteenK freedOnce ?_).2 _ rfl, rfl,
    (show (2 : Nat) ∉ [7] by decide), rfl⟩
  refine ⟨trivial, ?_⟩
  rintro s ⟨⟩
  refine ⟨trivial, ?_⟩
  rintro s ⟨⟩
  refine ⟨trivial, ?_⟩
  rintro s ⟨⟩
  exact ⟨⟨_, rfl⟩, fun _ _ => trivial⟩

end NVMac.Kernel
