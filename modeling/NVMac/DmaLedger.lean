import NVMac.DmaRun

/-!
# The ledger of the kernel port's DMA calls

`Accounted s lost`: the ledger holds what the outstanding allocations hold, and `lost`. One call
adds its `leak` to `lost` (`accounted_next`): a failure of `gen64IOVMSegments` leaves the command's
reference on the descriptor, and a success a pairing that `nv_free_pages` does not free. So a run
balances exactly when none of its calls gets as far as a command (`dmaRun_balanced_iff`).
-/

namespace NVMac.Kernel
open Ledger Outcome

/-- What an outstanding allocation holds, by its handle. -/
def held (h : Handle) : List Token :=
  [.attached (h - 1) (h - 2), .prepared (h - 2), .retained (h - 1), .retained (h - 2)]

/-- Pairing, command and descriptor as `nv_alloc_pages` left them. -/
def Intact (objects : List Object) (h : Handle) : Prop :=
  ∃ (n : Nat) (d : IOBufferMemoryDescriptor) (c : IODMACommand), h = n + 2 ∧
    objects[n]? = some (.descriptor d) ∧ objects[n + 1]? = some (.command c) ∧ c.memory = some n ∧
    objects[n + 2]? = some (.pairing ⟨some (n + 1), some n⟩)

structure Accounted (s : DmaState) (lost : List Token) : Prop where
  ledger : s.kernel.ledger.Perm (s.outstanding.flatMap held ++ lost)
  nodup : s.outstanding.Nodup
  intact : ∀ h ∈ s.outstanding, Intact s.kernel.objects h

/-- What a call takes and nothing gives back. -/
def leak (s : DmaState) : DmaCall → List Token
  | .allocPages req a =>
    if GetsCommand req a then
      match a.segments with
      | none => [.attached (s.kernel.objects.length + 1) s.kernel.objects.length]
      | some _ => [.block (s.kernel.objects.length + 2)]
    else []
  | _ => []

/-- Clients free what was delivered to them. -/
def Legal (s : DmaState) : DmaCall → Prop
  | .freePages privData => privData ∈ s.outstanding
  | _ => True

def StopsEarly : DmaCall → Prop
  | .allocPages req a => ¬ GetsCommand req a
  | _ => True

section
variable {g : OsPage} {s s' : DmaState} {lost : List Token} {objects more : List Object} {h : Handle}

theorem Intact.append (hi : Intact objects h) : Intact (objects ++ more) h := by
  obtain ⟨n, d, c, rfl, hd, hc, hm, hp⟩ := hi
  refine ⟨n, d, c, rfl, ?_, ?_, hm, ?_⟩
  · rw [List.getElem?_append_left (List.getElem?_eq_some_iff.1 hd).1, hd]
  · rw [List.getElem?_append_left (List.getElem?_eq_some_iff.1 hc).1, hc]
  · rw [List.getElem?_append_left (List.getElem?_eq_some_iff.1 hp).1, hp]

theorem Intact.lt (hi : Intact objects h) : h < objects.length := by
  obtain ⟨n, d, c, rfl, -, -, -, hp⟩ := hi
  exact (List.getElem?_eq_some_iff.1 hp).1

/-- Undoing one allocation's command and pairing leaves the others intact: the classes of the three
objects keep their positions apart. -/
theorem Intact.set {n : Nat} {c c' : IODMACommand}
    {p p' : DMACommandDescriptorPairing} (hi : Intact objects h) (hne : h ≠ n + 2)
    (hc : objects[n + 1]? = some (.command c)) (hp : objects[n + 2]? = some (.pairing p)) :
    Intact ((objects.set (n + 1) (.command c')).set (n + 2) (.pairing p')) h := by
  obtain ⟨m, d₁, c₁, rfl, hd₁, hc₁, hm, hp₁⟩ := hi
  have hmn : n ≠ m := fun he => hne (by rw [he])
  have hd₂ : n + 1 ≠ m ∧ n + 2 ≠ m := by
    constructor <;> rintro rfl
    · rw [hc] at hd₁; cases hd₁
    · rw [hp] at hd₁; cases hd₁
  have hc₂ : n + 2 ≠ m + 1 := by
    intro heq
    rw [← heq, hp] at hc₁
    cases hc₁
  have hp₂ : n + 1 ≠ m + 2 := by
    intro heq
    rw [← heq, hc] at hp₁
    cases hp₁
  refine ⟨m, d₁, c₁, rfl, ?_, ?_, hm, ?_⟩
  · rw [List.getElem?_set_ne hd₂.2, List.getElem?_set_ne hd₂.1, hd₁]
  · rw [List.getElem?_set_ne hc₂, List.getElem?_set_ne (fun he => hmn (Nat.succ.inj he)), hc₁]
  · rw [List.getElem?_set_ne (fun he => hmn (Nat.add_right_cancel he)), List.getElem?_set_ne hp₂, hp₁]

theorem giveBack_ok {k : State} {t : Token} {rest : List Token} (hl : k.ledger.Perm (t :: rest)) :
    ∃ l', k.giveBack t = .ok { k with ledger := l' } ∧ l'.Perm rest := by
  obtain ⟨l', hl', hrest⟩ := giveBack_of_perm hl
  exact ⟨l', by rw [State.giveBack, hl'], hrest⟩

theorem clearMemoryDescriptor_ok {k : State} {command descriptor : Handle} {c : IODMACommand}
    {rest : List Token} (hc : k.objects[command]? = some (.command c)) (hm : c.memory = some descriptor)
    (hl : k.ledger.Perm (.attached command descriptor :: rest)) :
    ∃ l', l'.Perm rest ∧ k.clearMemoryDescriptor command = .ok { k with
      ledger := l', objects := k.objects.set command (.command { c with memory := none }) } := by
  obtain ⟨l', hl', hrest⟩ := giveBack_ok hl
  refine ⟨l', hrest, ?_⟩
  simp [State.clearMemoryDescriptor, State.commandAt, hc, hm, hl']

/-- Freeing an intact allocation succeeds and gives back what it holds. -/
theorem nvFreePages_intact {k : State} {rest : List Token} (hi : Intact k.objects h)
    (hl : k.ledger.Perm (held h ++ rest)) : ∃ k', nvFreePages k h = .ok (.ok, k') ∧
      k'.ledger.Perm rest ∧ ∀ h', h' ≠ h → Intact k.objects h' → Intact k'.objects h' := by
  obtain ⟨n, d, c, rfl, -, hc, hm, hp⟩ := hi
  obtain ⟨l₁, hl₁, h₁⟩ := clearMemoryDescriptor_ok hc hm hl
  obtain ⟨l₂, h₂, hl₂⟩ := giveBack_ok (k := { k with
    ledger := l₁, objects := k.objects.set (n + 1) (.command { c with memory := none }) }) hl₁
  obtain ⟨l₃, h₃, hl₃⟩ := giveBack_ok (k := { k with
    ledger := l₂, objects := k.objects.set (n + 1) (.command { c with memory := none }) }) hl₂
  obtain ⟨l₄, h₄, hl₄⟩ := giveBack_ok (k := { k with
    ledger := l₃, objects := k.objects.set (n + 1) (.command { c with memory := none }) }) hl₃
  refine ⟨{ k with ledger := l₄, objects := (k.objects.set (n + 1)
    (.command { c with memory := none })).set (n + 2) (.pairing ⟨none, none⟩) }, ?_, hl₄,
    fun h' hne hi => hi.set hne hc hp⟩
  have hpair : k.pairingAt (n + 2) = .ok ⟨some (n + 1), some n⟩ := by rw [State.pairingAt, hp]
  have h₂' : State.complete _ n = _ := h₂
  have h₃' : State.release _ (n + 1) = _ := h₃
  have h₄' : State.release _ n = _ := h₄
  simp only [nvFreePages, hpair, ok_bind, deref, h₁, h₂', h₃', h₄', pure_eq_ok]

/-! ### One call -/

theorem Accounted.free (hs : Accounted s lost) (hmem : h ∈ s.outstanding) :
    ∃ k', nvFreePages s.kernel h = .ok (.ok, k') ∧
      Accounted { s with kernel := k', outstanding := s.outstanding.erase h } lost := by
  have hsplit : (s.outstanding.flatMap held).Perm (held h ++ (s.outstanding.erase h).flatMap held) :=
    (List.perm_cons_erase hmem).flatMap_right held
  have hl : s.kernel.ledger.Perm (held h ++ ((s.outstanding.erase h).flatMap held ++ lost)) := by
    rw [← List.append_assoc]
    exact hs.ledger.trans (hsplit.append_right lost)
  obtain ⟨k', hk', hrest, hintact⟩ := nvFreePages_intact (hs.intact h hmem) hl
  refine ⟨k', hk', hrest, hs.nodup.erase h, fun h' hh' => ?_⟩
  have hne : h' ≠ h := fun he => hs.nodup.not_mem_erase (he ▸ hh')
  exact hintact h' hne (hs.intact h' (List.mem_of_mem_erase hh'))

theorem Accounted.failed {k : State} {taken : List Token} (hs : Accounted s lost)
    (hobj : k.objects = s.kernel.objects ++ more) (hl : k.ledger = taken ++ s.kernel.ledger) :
    Accounted { s with kernel := k } (taken ++ lost) where
  ledger := by
    rw [hl]
    exact (hs.ledger.append_left taken).trans (List.perm_append_comm_assoc _ _ _)
  nodup := hs.nodup
  intact h hh := by
    rw [hobj]
    exact (hs.intact h hh).append

theorem intact_create {k : State} {req : PageRequest} {d : IOBufferMemoryDescriptor} :
    Intact ((k.withCommand req d).create
        (.pairing ⟨some (k.objects.length + 1), some k.objects.length⟩) .block).objects
      (k.objects.length + 2) := by
  refine ⟨k.objects.length, d, ⟨req.pageSize, req.pageCount.setWidth 64 * req.pageSize,
    some k.objects.length⟩, rfl, ?_, ?_, rfl, ?_⟩
  all_goals simp [State.create, State.withCommand]

/-- A success adds an intact allocation, and the block of its pairing is lost. -/
theorem Accounted.success {req : PageRequest} {d : IOBufferMemoryDescriptor} (hs : Accounted s lost) :
    Accounted { s with
        kernel := (s.kernel.withCommand req d).create (.pairing
          ⟨some (s.kernel.objects.length + 1), some s.kernel.objects.length⟩) .block
        outstanding := (s.kernel.objects.length + 2) :: s.outstanding }
      (.block (s.kernel.objects.length + 2) :: lost) := by
  set n := s.kernel.objects.length with hn
  refine ⟨?_, ?_, ?_⟩
  · have hheld : held (n + 2) = [.attached (n + 1) n, .prepared n, .retained (n + 1), .retained n] := rfl
    have hswap : ([.attached (n + 1) n, .retained (n + 1), .prepared n, .retained n] : List Token).Perm
        (held (n + 2)) := by
      rw [hheld]
      exact .cons _ (.swap _ _ _)
    have hold : (s.kernel.withCommand req d).ledger.Perm
        (((n + 2) :: s.outstanding).flatMap held ++ lost) := by
      rw [List.flatMap_cons, List.append_assoc]
      exact hswap.append hs.ledger
    show (Token.block (s.kernel.withCommand req d).objects.length :: _).Perm _
    rw [State.length_withCommand]
    exact (hold.cons (.block (n + 2))).trans List.perm_middle.symm
  · refine List.nodup_cons.2 ⟨fun hmem => ?_, hs.nodup⟩
    have hlt : n + 2 < n := (hs.intact _ hmem).lt
    omega
  · intro h hh
    rcases List.mem_cons.1 hh with rfl | hh
    · exact intact_create
    · exact (hs.intact h hh).append.append

theorem accounted_next {l : DmaCall} (hs : Accounted s lost) (hlegal : Legal s l)
    (hnext : (dmaMachine g).next ((dmaMachine g).call s l) = some s') :
    Accounted s' (leak s l ++ lost) := by
  cases l with
  | setAddressSize physAddrBits wideShift =>
    cases hnext
    exact ⟨hs.ledger, hs.nodup, hs.intact⟩
  | freePages privData =>
    obtain ⟨status, k', hk, rfl⟩ := next_freePages hnext
    obtain ⟨k'', hk', hfree⟩ := hs.free hlegal
    cases hk'.symm.trans hk
    exact hfree
  | allocPages req a =>
    obtain ⟨out, hout, rfl⟩ := next_allocPages hnext
    by_cases hget : GetsCommand req a
    · obtain ⟨d, -, heq⟩ := nvAllocPages_of_command (g := g) (k := s.kernel) hget
      rw [hout] at heq
      cases hseg : a.segments with
      | none =>
        simp only [hseg, gen64IOVMSegments, Option.map_none] at heq
        cases heq
        simp only [leak, if_pos hget, hseg]
        exact hs.failed rfl rfl
      | some segments =>
        simp only [hseg, gen64IOVMSegments, Option.map_some, persistPages] at heq
        split at heq
        · cases heq
          simp only [leak, if_pos hget, hseg, State.length_withCommand]
          exact hs.success
        · cases heq
    · obtain ⟨status, more, -, heq⟩ := nvAllocPages_of_no_command (g := g) (k := s.kernel) hget
      cases hout.symm.trans heq
      simp only [leak, if_neg hget]
      exact hs.failed rfl rfl

theorem stopsEarly_of_leak {l : DmaCall} (h : leak s l = []) : StopsEarly l := by
  cases l with
  | setAddressSize physAddrBits wideShift => trivial
  | freePages privData => trivial
  | allocPages req a =>
    intro hget
    rw [leak, if_pos hget] at h
    split at h <;> cases h

/-! ### Whole runs -/

/-- The call comes back, and an allocation that fails leaves nothing behind and stores no handle. -/
def FailsClean (s : DmaState) (_ : DmaCall) : DmaAnswer → Prop
  | .ok (_, some out) =>
    out.status ≠ .ok → out.privData = none ∧ out.kernel.ledger = s.kernel.ledger
  | .ok (_, none) => True
  | .error _ => False

/-- Failures leave nothing behind, and once every delivered allocation is freed all is given back. -/
structure Balanced (g : OsPage) (s : DmaState) (calls : List DmaCall) : Prop where
  failsClean : (dmaMachine g).Along FailsClean s calls
  givenBack : ∀ s', (dmaMachine g).after s calls = some s' → s'.outstanding = [] →
    s'.kernel.ledger = []

theorem FailsClean.next {l : DmaCall} (h : FailsClean s l ((dmaMachine g).call s l)) :
    ∃ s', (dmaMachine g).next ((dmaMachine g).call s l) = some s' := by
  cases hans : (dmaMachine g).call s l with
  | error f => rw [hans] at h; exact h.elim
  | ok r => exact ⟨r.1, rfl⟩

theorem stopsEarly_of_balanced {calls : List DmaCall} (hs : Accounted s lost)
    (hlegal : (dmaMachine g).Along (fun s l _ => Legal s l) s calls)
    (hfreed : ∀ s', (dmaMachine g).after s calls = some s' → s'.outstanding = [])
    (hb : Balanced g s calls) : lost = [] ∧ ∀ l ∈ calls, StopsEarly l := by
  induction calls generalizing s lost with
  | nil =>
    have hnil := hb.givenBack s rfl (hfreed s rfl)
    have hall := hs.ledger.length_eq
    simp only [hnil, List.length_append, List.length_nil] at hall
    exact ⟨List.eq_nil_of_length_eq_zero (by omega), by simp⟩
  | cons l calls ih =>
    obtain ⟨s', hs'⟩ := hb.failsClean.1.next
    have hgiven := hb.givenBack
    rw [Machine.after_cons_of_next hs'] at hgiven hfreed
    obtain ⟨hnil, hcalls⟩ := ih (accounted_next hs hlegal.1 hs') (hlegal.2 s' hs') hfreed
      ⟨hb.failsClean.2 s' hs', hgiven⟩
    obtain ⟨hleak, hlost⟩ := List.append_eq_nil_iff.1 hnil
    exact ⟨hlost, List.forall_mem_cons.2 ⟨stopsEarly_of_leak hleak, hcalls⟩⟩

/-- With nothing outstanding, a call that stops early gives back all it took. -/
theorem stopsEarly_next {l : DmaCall} (hl : StopsEarly l) (hlegal : Legal s l)
    (hout : s.outstanding = []) : FailsClean s l ((dmaMachine g).call s l) ∧
      ∃ s', (dmaMachine g).next ((dmaMachine g).call s l) = some s' ∧ s'.outstanding = [] ∧
        s'.kernel.ledger = s.kernel.ledger := by
  cases l with
  | setAddressSize physAddrBits wideShift => exact ⟨trivial, _, rfl, hout, rfl⟩
  | freePages privData =>
    rw [Legal, hout] at hlegal
    cases hlegal
  | allocPages req a =>
    obtain ⟨status, more, hne, heq⟩ := nvAllocPages_of_no_command (g := g) (k := s.kernel) hl
    simp only [dmaMachine, dmaCall, heq, ok_bind, pure_eq_ok]
    exact ⟨fun _ => ⟨rfl, rfl⟩, _, rfl, hout, rfl⟩

theorem balanced_of_stopsEarly {calls : List DmaCall} (hcalls : ∀ l ∈ calls, StopsEarly l)
    (hlegal : (dmaMachine g).Along (fun s l _ => Legal s l) s calls) (hout : s.outstanding = [])
    (hnil : s.kernel.ledger = []) : Balanced g s calls := by
  induction calls generalizing s with
  | nil => exact ⟨trivial, fun s' hs' _ => Option.some.inj hs' ▸ hnil⟩
  | cons l calls ih =>
    obtain ⟨hl, hcalls⟩ := List.forall_mem_cons.1 hcalls
    obtain ⟨hclean, s', hs', hout', hledger⟩ := stopsEarly_next (g := g) hl hlegal.1 hout
    obtain ⟨hfails, hgiven⟩ := ih hcalls (hlegal.2 s' hs') hout' (hledger.trans hnil)
    exact ⟨(Machine.along_cons_of_next hs').2 ⟨hclean, hfails⟩,
      by rwa [Machine.after_cons_of_next hs']⟩

end

theorem accounted_init : Accounted .init [] := ⟨.nil, .nil, by simp [DmaState.init]⟩

/-- A run in which every delivered allocation is freed once balances exactly when no allocation of
it gets as far as a command. -/
theorem dmaRun_balanced_iff (g : OsPage) (calls : List DmaCall)
    (hlegal : (dmaMachine g).Along (fun s l _ => Legal s l) .init calls)
    (hfreed : ∀ s', (dmaMachine g).after .init calls = some s' → s'.outstanding = []) :
    Balanced g .init calls ↔ ∀ l ∈ calls, StopsEarly l :=
  ⟨fun hb => (stopsEarly_of_balanced accounted_init hlegal hfreed hb).2,
    fun hcalls => balanced_of_stopsEarly hcalls hlegal rfl rfl⟩

def allocFree : List DmaCall := [.allocPages twoPages granted, .freePages 2]

theorem dmaRun_balanced_allocFree :
    Balanced .sixteenK .init allocFree ↔ ∀ l ∈ allocFree, StopsEarly l := by
  refine dmaRun_balanced_iff _ _ ?_ ?_
  · refine ⟨trivial, fun s' hs' => ⟨?_, fun _ _ => trivial⟩⟩
    cases hs'
    exact List.mem_cons_self
  · intro s' hs'
    cases hs'
    rfl

/-- The pairing of a freed allocation stays behind, the command's reference stays behind a failure
of `gen64IOVMSegments`, and a failure of `IONew` is dereferenced. -/
theorem dmaRun_unbalanced :
    (∃ s', (dmaMachine .sixteenK).after .init allocFree = some s' ∧ s'.outstanding = [] ∧
      s'.kernel.ledger = [.block 2]) ∧
    (∃ s' out, dmaCall .sixteenK .init (.allocPages twoPages { granted with segments := none }) =
      .ok (s', some out) ∧ out.status = .errNoMemory ∧ out.kernel.ledger = [.attached 1 0]) ∧
    dmaCall .sixteenK .init (.allocPages twoPages { granted with pairing := false }) =
      .error .nullDereference ∧
    ¬ Balanced .sixteenK .init allocFree :=
  ⟨⟨_, rfl, rfl, rfl⟩, ⟨_, _, rfl, rfl, rfl⟩, rfl, fun h => by cases h.givenBack _ rfl rfl⟩

end NVMac.Kernel
