import NVMac.MapThreads

/-!
# Mappings under threads in the DriverKit port (`memory_driverkit.cpp`)

A mapping that an unmap finds is not retained by it, so that two unmaps of one address at once can meet
one that is gone. Where no two threads are in calls for one address, no two mappings are at one, and all
addresses have keys of their own, nothing fails, and a mapping goes in the unmap of its address and
nowhere else (`mapThreads_keepMappings`).
-/

namespace NVMac
open Refs Registry Outcome

/-- The address that the thread's call is about. -/
def MapPhase.address : MapPhase → Option NvU64
  | .idle => none
  | .made addressBase _ | .entered addressBase _ | .unmapping addressBase | .found addressBase _
  | .checked addressBase => some addressBase

namespace DriverKit
variable {τ : Type}

/-- No two threads are in calls for one address. -/
def OneAtATime (s : MapThreads τ IOMemoryMap) : Prop :=
  ∀ t t' address, (s.phase t).address = some address → (s.phase t').address = some address → t = t'

/-- The system makes no mapping that is there and gives none the address of another, addresses are below
2^60, and threads keep apart. -/
structure ThreadLegal [DecidableEq τ] (s : MapThreads τ IOMemoryMap) (l : MapStep τ IOMemoryMap) : Prop where
  fresh : MapFresh s l
  create : ∀ t h address map, l = .create t h address map → map.address = address ∧ address.toNat < 2 ^ 60 ∧
    ∀ h' o, s.mappings.maps h' = some o → o.value.address ≠ address
  unmap : ∀ t address, l = .osUnmapKernelSpace t address → address.toNat < 2 ^ 60
  apart : ∀ s', s.step .driverKit l = some (.ok s') → OneAtATime s'

/-- Nothing fails. A mapping goes in the unmap of its address, and when all threads are outside, the
registry is that of the mappings. -/
def KeepsMappings (s : MapThreads τ IOMemoryMap) (l : MapStep τ IOMemoryMap) :
    Option (Except Fault (MapThreads τ IOMemoryMap)) → Prop
  | none => True
  | some (.error _) => False
  | some (.ok s') =>
    (∀ h o, s.mappings.maps h = some o → s'.mappings.maps h = none →
      ∃ t, l = .removeObject t ∧ s.phase t = .checked o.value.address) ∧
    ((∀ t, s'.phase t = .idle) → ∃ outstanding, RegistryExact ⟨⟨.empty, s'.mappings⟩, outstanding⟩)

/-- A mapping has its entry, or a thread that has still to make it; and an entry has its mapping. -/
structure Orderly (s : MapThreads τ IOMemoryMap) : Prop where
  sequential : ∃ m, Sequential s m
  entry : ∀ key h, s.mappings.globalMappedMemory key = some h →
    ∃ o, s.mappings.maps h = some o ∧ keyName o.value.address = key
  inHand : ∀ t h, s.holds t = some h →
    ∃ o, s.mappings.maps h = some o ∧ (s.phase t).address = some o.value.address
  registered : ∀ h o, s.mappings.maps h = some o →
    s.mappings.globalMappedMemory (keyName o.value.address) = some h ∨ ∃ t, s.phase t = .made o.value.address h
  entered : ∀ t address h, s.phase t = .entered address h → s.mappings.globalMappedMemory (keyName address) = some h
  found : ∀ t address h, s.phase t = .found address h → s.mappings.globalMappedMemory (keyName address) = some h
  single : ∀ h h' o o', s.mappings.maps h = some o → s.mappings.maps h' = some o' →
    o.value.address = o'.value.address → h = h'
  short : ∀ h o, s.mappings.maps h = some o → o.value.address.toNat < 2 ^ 60
  shortCalls : ∀ t address, (s.phase t).address = some address → address.toNat < 2 ^ 60

namespace Orderly
variable {s : MapThreads τ IOMemoryMap} {t : τ} {h : MapHandle} {address : NvU64} {o : Object IOMemoryMap}

theorem empty : Orderly (.empty : MapThreads τ IOMemoryMap) where
  sequential := ⟨_, .empty⟩
  entry := nofun
  inHand := nofun
  registered := nofun
  entered := nofun
  found := nofun
  single := nofun
  short := nofun
  shortCalls := nofun

theorem live (hs : Orderly s) {p : List Char ⊕ τ} (hp : s.places p = some h) : s.mappings.maps h ≠ none := by
  obtain ⟨m, hm⟩ := hs.sequential
  exact hm.threads.live hp

/-- The entry of an address is of the mapping there. -/
theorem address_of_entry (hs : Orderly s) (ho : s.mappings.maps h = some o) (hshort : address.toNat < 2 ^ 60)
    (hentry : s.mappings.globalMappedMemory (keyName address) = some h) : o.value.address = address := by
  obtain ⟨o', ho', hkey⟩ := hs.entry _ h hentry
  obtain rfl := Option.some.inj (ho.symm.trans ho')
  exact keyName_inj (hs.short h o ho) hshort hkey

/-- Only the thread in a call for the address of a mapping holds it. -/
theorem eq_of_holds (hs : Orderly s) (hone : OneAtATime s) (ht : (s.phase t).address = some address)
    (ho : s.mappings.maps h = some o) (haddress : o.value.address = address) {t' : τ} (hheld : s.holds t' = some h) :
    t' = t := by
  obtain ⟨o', ho', ht'⟩ := hs.inHand t' h hheld
  obtain rfl := Option.some.inj (ho.symm.trans ho')
  exact hone t' t address (by rw [ht', haddress]) ht

/-- While all threads are outside, there is a mapping for each entry and the other way round. -/
theorem registryExact (hs : Orderly s) (hidle : ∀ t, s.phase t = .idle) :
    ∃ outstanding, RegistryExact ⟨⟨.empty, s.mappings⟩, outstanding⟩ := by
  obtain ⟨m, hm⟩ := hs.sequential
  obtain rfl := hm.eq_of_idle hidle
  have hentry : ∀ h o, s.mappings.maps h = some o →
      s.mappings.globalMappedMemory (keyName o.value.address) = some h := by
    intro h o ho
    rcases hs.registered h o ho with hentry | ⟨t, ht⟩
    · exact hentry
    · rw [hidle t] at ht
      cases ht
  let outstanding (address : NvU64) : Option MapHandle :=
    if address.toNat < 2 ^ 60 then s.mappings.globalMappedMemory (keyName address) else none
  have hout : ∀ address h, outstanding address = some h ↔
      address.toNat < 2 ^ 60 ∧ s.mappings.globalMappedMemory (keyName address) = some h := by
    simp [outstanding]
  have hobject : ∀ address h, outstanding address = some h →
      ∃ o, s.mappings.maps h = some o ∧ o.value.address = address := by
    intro address h hh
    obtain ⟨hshort, hkey⟩ := (hout address h).1 hh
    obtain ⟨o, ho, -⟩ := hs.entry _ h hkey
    exact ⟨o, ho, hs.address_of_entry ho hshort hkey⟩
  refine ⟨outstanding, ⟨⟨?_, ?_⟩, ?_, ?_, ?_⟩, ?_, fun _ => rfl⟩
  · exact fun address h hh => ((hout address h).1 hh).2
  · intro key h hkey
    obtain ⟨o, ho, rfl⟩ := hs.entry key h hkey
    exact ⟨o.value.address, h, rfl, (hout _ h).2 ⟨hs.short h o ho, hkey⟩⟩
  · intro address h hh
    obtain ⟨o, ho, rfl⟩ := hobject address h hh
    have hkey := ((hout _ h).1 hh).2
    have hcount : count s.mappings.maps h = 1 := by
      refine hm.entries.one_of_only hkey fun key hkey' => ?_
      obtain ⟨o', ho', rfl⟩ := hs.entry key h hkey'
      rw [Option.some.inj (ho.symm.trans ho')]
    rw [count_of_some ho] at hcount
    obtain ⟨map, more⟩ := o
    obtain rfl : more = 0 := Nat.succ.inj hcount
    exact ⟨map, ho⟩
  · intro address address' h hh hh'
    obtain ⟨o, ho, rfl⟩ := hobject address h hh
    obtain ⟨o', ho', rfl⟩ := hobject address' h hh'
    rw [Option.some.inj (ho.symm.trans ho')]
  · intro h hh
    by_contra hlive
    obtain ⟨o, ho⟩ := Option.ne_none_iff_exists'.1 hlive
    exact hh o.value.address ((hout _ h).2 ⟨hs.short h o ho, hentry h o ho⟩)
  · intro address h hh
    exact ⟨((hout address h).1 hh).1, hobject address h hh⟩

variable [DecidableEq τ] {phase : MapPhase} {mappings : Mappings IOMemoryMap}

/-- A step that makes no mapping. What it leaves was there, only a thread with a mapping that it has
made puts an entry, and the thread comes by no mapping. -/
theorem next (hs : Orderly s) (hm : ∃ m, Sequential (s.enter t phase mappings) m)
    (hvalues : SameValues s.mappings.maps mappings.maps)
    (hregistry : ∀ key h, mappings.globalMappedMemory key = some h →
      s.mappings.globalMappedMemory key = some h ∨ ∃ address, s.phase t = .made address h ∧ key = keyName address)
    (hholds : ∀ h, phase.holds = some h → s.holds t = some h ∧ phase.address = (s.phase t).address)
    (hcall : ∀ address, phase.address = some address → (s.phase t).address = some address ∨ address.toNat < 2 ^ 60)
    (hregistered : ∀ h o, mappings.maps h ≠ none → s.mappings.maps h = some o →
      mappings.globalMappedMemory (keyName o.value.address) = some h ∨
      ∃ t', (s.enter t phase mappings).phase t' = .made o.value.address h)
    (hopen : ∀ t' address h, (s.enter t phase mappings).phase t' = .entered address h ∨
      (s.enter t phase mappings).phase t' = .found address h → mappings.globalMappedMemory (keyName address) = some h) :
    Orderly (s.enter t phase mappings) := by
  obtain ⟨m, hm⟩ := hm
  have hkept : ∀ p h o, (s.enter t phase mappings).places p = some h → s.mappings.maps h = some o →
      ∃ o', mappings.maps h = some o' ∧ o'.value = o.value := by
    intro p h o hp ho
    obtain ⟨o', ho'⟩ := Option.ne_none_iff_exists'.1 (hm.threads.live hp)
    obtain ⟨o'', ho'', hvalue⟩ := hvalues h o' ho'
    obtain rfl := Option.some.inj (ho.symm.trans ho'')
    exact ⟨o', ho', hvalue.symm⟩
  refine ⟨⟨m, hm⟩, ?_, ?_, ?_, fun t' address h ht' => hopen t' address h (.inl ht'),
    fun t' address h ht' => hopen t' address h (.inr ht'), ?_, ?_, ?_⟩
  · intro key h hkey
    have hbefore : ∃ o, s.mappings.maps h = some o ∧ keyName o.value.address = key := by
      rcases hregistry key h hkey with hold | ⟨address, ht, rfl⟩
      · exact hs.entry key h hold
      · obtain ⟨o, ho, haddress⟩ := hs.inHand t h (congrArg MapPhase.holds ht)
        rw [ht] at haddress
        exact ⟨o, ho, congrArg keyName (Option.some.inj haddress).symm⟩
    obtain ⟨o, ho, rfl⟩ := hbefore
    obtain ⟨o', ho', hvalue⟩ := hkept (.inl _) h o hkey ho
    exact ⟨o', ho', by rw [hvalue]⟩
  · intro t' h ht'
    have hbefore : s.holds t' = some h ∧ ((s.enter t phase mappings).phase t').address = (s.phase t').address := by
      by_cases htt : t' = t
      · obtain rfl := htt
        rw [MapThreads.holds, MapThreads.phase_enter_self] at ht'
        rw [MapThreads.phase_enter_self]
        exact hholds h ht'
      · rw [MapThreads.holds, MapThreads.phase_enter_of_ne htt] at ht'
        rw [MapThreads.phase_enter_of_ne htt]
        exact ⟨ht', rfl⟩
    obtain ⟨o, ho, haddress⟩ := hs.inHand t' h hbefore.1
    obtain ⟨o', ho', hvalue⟩ := hkept (.inr t') h o ht' ho
    exact ⟨o', ho', by rw [hbefore.2, haddress, hvalue]⟩
  · intro h o' ho'
    obtain ⟨o, ho, hvalue⟩ := hvalues h o' ho'
    have hlive : mappings.maps h ≠ none := by
      intro hnone
      cases hnone.symm.trans ho'
    rw [← hvalue]
    exact hregistered h o hlive ho
  · intro h h' o o' ho ho' hsame
    obtain ⟨p, hp, hvalue⟩ := hvalues h o ho
    obtain ⟨p', hp', hvalue'⟩ := hvalues h' o' ho'
    exact hs.single h h' p p' hp hp' (by rw [hvalue, hvalue', hsame])
  · intro h o ho
    obtain ⟨p, hp, hvalue⟩ := hvalues h o ho
    exact hvalue ▸ hs.short h p hp
  · intro t' address' haddress
    by_cases htt : t' = t
    · obtain rfl := htt
      rw [MapThreads.phase_enter_self] at haddress
      exact (hcall address' haddress).elim (hs.shortCalls t' address') id
    · rw [MapThreads.phase_enter_of_ne htt] at haddress
      exact hs.shortCalls t' address' haddress

/-- A thread that holds no mapping goes on. -/
theorem enter (hs : Orderly s) (ht : (s.phase t).holds = none) (hphase : phase.holds = none)
    (hcall : ∀ address, phase.address = some address → (s.phase t).address = some address ∨ address.toNat < 2 ^ 60)
    (hfound : ∀ address h, phase = .found address h → s.mappings.globalMappedMemory (keyName address) = some h) :
    Orderly (s.enter t phase s.mappings) := by
  obtain ⟨m, hm⟩ := hs.sequential
  refine hs.next ⟨m, hm.enter ht hphase⟩ (fun x o hx => ⟨o, hx, rfl⟩) (fun key h hkey => .inl hkey) ?_ hcall ?_ ?_
  · intro h hheld
    rw [hphase] at hheld
    cases hheld
  · intro h o _ ho
    refine (hs.registered h o ho).imp_right ?_
    rintro ⟨t', ht'⟩
    refine ⟨t', update_eq_of_apply_ne rfl ht' fun heq => ?_⟩
    rw [heq] at ht
    cases ht
  · intro t' address h ht'
    by_cases htt : t' = t
    · obtain rfl := htt
      rw [MapThreads.phase_enter_self] at ht'
      rcases ht' with rfl | rfl
      · cases hphase
      · exact hfound address h rfl
    · rw [MapThreads.phase_enter_of_ne htt] at ht'
      exact ht'.elim (hs.entered t' address h) (hs.found t' address h)

theorem create (hs : Orderly s) (map : IOMemoryMap) (ht : s.phase t = .idle) (hh : s.mappings.maps h = none)
    (hshort : map.address.toNat < 2 ^ 60) (hnew : ∀ h' o, s.mappings.maps h' = some o → o.value.address ≠ map.address) :
    Orderly (s.enter t (.made map.address h) (s.mappings.create h map)) := by
  obtain ⟨m, hm⟩ := hs.sequential
  have hkept : ∀ h' o, s.mappings.maps h' = some o → (s.mappings.create h map).maps h' = some o :=
    fun h' o ho => update_eq_of_apply_ne hh ho nofun
  refine ⟨⟨m, hm.create hh ht map.address map⟩, ?_, ?_, ?_, ?_, ?_, ?_, ?_, ?_⟩
  · intro key h' hkey
    obtain ⟨o, ho, hname⟩ := hs.entry key h' hkey
    exact ⟨o, hkept h' o ho, hname⟩
  · intro t' h' hheld
    by_cases htt : t' = t
    · obtain rfl := htt
      rw [MapThreads.holds, MapThreads.phase_enter_self] at hheld
      rw [MapThreads.phase_enter_self]
      cases hheld
      exact ⟨_, Function.update_self .., rfl⟩
    · rw [MapThreads.holds, MapThreads.phase_enter_of_ne htt] at hheld
      rw [MapThreads.phase_enter_of_ne htt]
      obtain ⟨o, ho, haddress⟩ := hs.inHand t' h' hheld
      exact ⟨o, hkept h' o ho, haddress⟩
  · intro h' o ho
    rcases update_apply_eq_iff.1 ho with ⟨rfl, heq⟩ | ⟨-, hold⟩
    · obtain rfl := Option.some.inj heq
      exact .inr ⟨t, Function.update_self ..⟩
    · refine (hs.registered h' o hold).imp_right ?_
      rintro ⟨t', ht'⟩
      exact ⟨t', update_eq_of_apply_ne ht ht' nofun⟩
  · exact fun t' address h' ht' => hs.entered t' address h' (apply_of_update_eq ht' nofun).2
  · exact fun t' address h' ht' => hs.found t' address h' (apply_of_update_eq ht' nofun).2
  · intro h₁ h₂ o₁ o₂ ho₁ ho₂ hsame
    rcases update_apply_eq_iff.1 ho₁ with ⟨rfl, heq₁⟩ | ⟨-, hold₁⟩ <;>
      rcases update_apply_eq_iff.1 ho₂ with ⟨rfl, heq₂⟩ | ⟨-, hold₂⟩
    · rfl
    · obtain rfl := Option.some.inj heq₁
      exact absurd hsame.symm (hnew h₂ o₂ hold₂)
    · obtain rfl := Option.some.inj heq₂
      exact absurd hsame (hnew h₁ o₁ hold₁)
    · exact hs.single h₁ h₂ o₁ o₂ hold₁ hold₂ hsame
  · intro h' o ho
    rcases update_apply_eq_iff.1 ho with ⟨-, heq⟩ | ⟨-, hold⟩
    · obtain rfl := Option.some.inj heq
      exact hshort
    · exact hs.short h' o hold
  · intro t' address haddress
    by_cases htt : t' = t
    · obtain rfl := htt
      rw [MapThreads.phase_enter_self] at haddress
      exact Option.some.inj haddress ▸ hshort
    · rw [MapThreads.phase_enter_of_ne htt] at haddress
      exact hs.shortCalls t' address haddress

theorem setObject (hs : Orderly s) (ht : s.phase t = .made address h) :
    ∃ mappings, s.mappings.setObject (keyName address) h = .ok mappings ∧
      Orderly (s.enter t (.entered address h) mappings) ∧ ∀ x, s.mappings.maps x ≠ none → mappings.maps x ≠ none := by
  obtain ⟨m, hm⟩ := hs.sequential
  have hheld : s.places (.inr t) = some h := congrArg MapPhase.holds ht
  -- No entry is in the way: it would be that of this mapping, which has none.
  have hfree : s.mappings.globalMappedMemory (keyName address) = none := by
    by_contra hkey
    obtain ⟨old, hold⟩ := Option.ne_none_iff_exists'.1 hkey
    obtain ⟨o, ho, haddress⟩ := hs.inHand t h hheld
    obtain ⟨o', ho', -⟩ := hs.entry _ old hold
    have hcall : (s.phase t).address = some address := by rw [ht]; rfl
    obtain rfl : address = o.value.address := Option.some.inj (hcall.symm.trans haddress)
    obtain rfl := hs.single old h o' o ho' ho (hs.address_of_entry ho' (hs.short h o ho) hold)
    cases hm.made t _ old ht (.inl _) hold
  obtain ⟨mappings, o, m', hset, -, -, hm'⟩ := hm.setObject ht
  obtain ⟨maps, hset', hbalanced, hvalues⟩ := Mappings.setObject_balanced hm.threads (keyName address)
    (hm.threads.live hheld)
  obtain rfl := Except.ok.inj (hset.symm.trans hset')
  refine ⟨_, hset, hs.next ⟨m', hm'⟩ hvalues ?_ ?_ ?_ ?_ ?_, ?_⟩
  · intro key x hkey
    rcases update_apply_eq_iff.1 hkey with ⟨rfl, heq⟩ | ⟨-, hold⟩
    · obtain rfl := Option.some.inj heq
      exact .inr ⟨address, ht, rfl⟩
    · exact .inl hold
  · intro x hx
    rw [ht]
    exact ⟨hheld.trans hx, rfl⟩
  · intro address' haddress
    rw [ht]
    exact .inl haddress
  · intro x o _ ho
    rcases hs.registered x o ho with hentry | ⟨t', ht'⟩
    · exact .inl (update_eq_of_apply_ne hfree hentry nofun)
    · by_cases htt : t' = t
      · obtain rfl := htt
        rw [ht] at ht'
        cases ht'
        exact .inl (Function.update_self ..)
      · exact .inr ⟨t', (Function.update_of_ne htt _ _).trans ht'⟩
  · intro t' address' x ht'
    by_cases htt : t' = t
    · obtain rfl := htt
      rw [MapThreads.phase_enter_self] at ht'
      rcases ht' with heq | heq
      · cases heq
        exact Function.update_self (keyName address) (some h) s.mappings.globalMappedMemory
      · cases heq
    · rw [MapThreads.phase_enter_of_ne htt] at ht'
      exact update_eq_of_apply_ne hfree (ht'.elim (hs.entered t' address' x) (hs.found t' address' x)) nofun
  · intro x hx
    obtain ⟨p, hp⟩ := hm.threads.live_iff.1 hx
    have hplace : s.places (.inl (keyName address)) = none := hfree
    have hstays : Function.update s.places (.inl (keyName address)) (some h) p = some x :=
      update_eq_of_apply_ne hplace hp nofun
    exact hbalanced.live hstays

theorem release (hs : Orderly s) (ht : s.phase t = .entered address h) :
    ∃ mappings, s.mappings.release h = .ok mappings ∧ Orderly (s.enter t .idle mappings) ∧
      ∀ x, s.mappings.maps x ≠ none → mappings.maps x ≠ none := by
  obtain ⟨m, hm⟩ := hs.sequential
  have hheld : s.holds t = some h := congrArg MapPhase.holds ht
  obtain ⟨mappings, hrelease, hm'⟩ := hm.release ht
  obtain ⟨maps, hrelease', hbalanced, hvalues⟩ := Mappings.release_balanced hm.threads hheld
  obtain rfl := Except.ok.inj (hrelease.symm.trans hrelease')
  refine ⟨_, hrelease, hs.next ⟨m, hm'⟩ hvalues (fun _ _ hkey => .inl hkey) nofun nofun ?_ ?_, ?_⟩
  · intro x o _ ho
    refine (hs.registered x o ho).imp_right ?_
    rintro ⟨t', ht'⟩
    exact ⟨t', update_eq_of_apply_ne ht ht' nofun⟩
  · intro t' address' x ht'
    rcases ht' with ht' | ht'
    · exact hs.entered t' address' x (apply_of_update_eq ht' nofun).2
    · exact hs.found t' address' x (apply_of_update_eq ht' nofun).2
  · intro x hx
    obtain ⟨p, hp⟩ := hm.threads.live_iff.1 hx
    by_cases hpt : p = .inr t
    · obtain rfl := hpt
      obtain rfl := Option.some.inj (hheld.symm.trans hp)
      refine hbalanced.live (r := .inl (keyName address)) ?_
      rw [Function.update_of_ne Sum.inl_ne_inr]
      exact hs.entered t address h ht
    · exact hbalanced.live ((Function.update_of_ne hpt _ _).trans hp)

/-- The mapping of the address goes, and no other. -/
theorem removeObject (hs : Orderly s) (hone : OneAtATime s) (ht : s.phase t = .checked address) :
    ∃ mappings, s.mappings.removeObject (keyName address) = .ok mappings ∧ Orderly (s.enter t .idle mappings) ∧
      ∀ x o, s.mappings.maps x = some o → mappings.maps x = none → o.value.address = address := by
  obtain ⟨m, hm⟩ := hs.sequential
  have hcall : (s.phase t).address = some address := by rw [ht]; rfl
  have hshort := hs.shortCalls t address hcall
  obtain ⟨mappings, m', hremove, -, hm'⟩ := hm.removeObject ht
  obtain ⟨maps, hremove', hbalanced, hvalues⟩ := Mappings.removeObject_balanced hm.threads (keyName address)
  obtain rfl := Except.ok.inj (hremove.symm.trans hremove')
  -- Nothing else than the entry holds the mapping of the address.
  have hother : ∀ x o, s.mappings.maps x = some o → maps x ≠ none → keyName o.value.address ≠ keyName address := by
    intro x o ho hlive hkey
    have haddress := keyName_inj (hs.short x o ho) hshort hkey
    obtain ⟨p, hp⟩ := hbalanced.live_iff.1 hlive
    obtain ⟨hne, hp⟩ := apply_of_update_eq hp nofun
    rcases p with key | t'
    · obtain ⟨o', ho', rfl⟩ := hs.entry key x hp
      obtain rfl := Option.some.inj (ho.symm.trans ho')
      exact hne (congrArg Sum.inl hkey)
    · obtain rfl := hs.eq_of_holds hone hcall ho haddress hp
      have hnone : s.holds t' = none := congrArg MapPhase.holds ht
      rw [Mappings.places_inr, hnone] at hp
      cases hp
  refine ⟨_, hremove, hs.next ⟨m', hm'⟩ hvalues ?_ nofun nofun ?_ ?_, ?_⟩
  · exact fun key x hkey => .inl (apply_of_update_eq hkey nofun).2
  · intro x o hlive ho
    refine (hs.registered x o ho).imp (Function.update_of_ne (hother x o ho hlive) _ _).trans ?_
    rintro ⟨t', ht'⟩
    exact ⟨t', update_eq_of_apply_ne ht ht' nofun⟩
  · intro t' address' x ht'
    obtain ⟨htt, hopen⟩ : t' ≠ t ∧ (s.phase t' = .entered address' x ∨ s.phase t' = .found address' x) := by
      rcases ht' with ht' | ht'
      · exact (apply_of_update_eq ht' nofun).imp_right .inl
      · exact (apply_of_update_eq ht' nofun).imp_right .inr
    have hcall' : (s.phase t').address = some address' := by
      rcases hopen with h | h <;> rw [h] <;> rfl
    have hne : keyName address' ≠ keyName address := by
      intro hkey
      obtain rfl := keyName_inj (hs.shortCalls t' address' hcall') hshort hkey
      exact htt (hone t' t address' hcall' hcall)
    exact (Function.update_of_ne hne _ _).trans (hopen.elim (hs.entered t' address' x) (hs.found t' address' x))
  · intro x o ho hgone
    by_contra hne
    have hkey : keyName o.value.address ≠ keyName address := fun hkey => hne (keyName_inj (hs.short x o ho) hshort hkey)
    rcases hs.registered x o ho with hentry | ⟨t', ht'⟩
    · refine hbalanced.live (r := .inl (keyName o.value.address)) ?_ hgone
      rw [Function.update_of_ne fun heq => hkey (Sum.inl_injective heq)]
      exact hentry
    · refine hbalanced.live (r := .inr t') ?_ hgone
      rw [Function.update_of_ne Sum.inr_ne_inl]
      exact congrArg MapPhase.holds ht'

theorem step (hs : Orderly s) (hone : OneAtATime s) {l : MapStep τ IOMemoryMap} (hlegal : ThreadLegal s l)
    {r : Except Fault (MapThreads τ IOMemoryMap)} (hstep : s.step .driverKit l = some r) :
    ∃ s', r = .ok s' ∧ Orderly s' ∧ ∀ h o, s.mappings.maps h = some o → s'.mappings.maps h = none →
      ∃ t, l = .removeObject t ∧ s.phase t = .checked o.value.address := by
  -- A step that leaves everything there takes nothing away.
  have hstays : ∀ s' : MapThreads τ IOMemoryMap, (∀ x, s.mappings.maps x ≠ none → s'.mappings.maps x ≠ none) →
      ∀ h o, s.mappings.maps h = some o → s'.mappings.maps h = none →
        ∃ t, l = .removeObject t ∧ s.phase t = .checked o.value.address := by
    intro s' hall h o ho hgone
    exact absurd hgone (hall h (by rw [ho]; exact Option.some_ne_none o))
  cases l with
  | create t h address map =>
    rw [MapThreads.step] at hstep
    cases ht : s.phase t with
    | idle =>
      obtain ⟨rfl, hshort, hnew⟩ := hlegal.create t h address map rfl
      have hh : s.mappings.maps h = none := hlegal.fresh
      rw [ht] at hstep
      refine ⟨_, (Option.some.inj hstep).symm, hs.create map ht hh hshort hnew, hstays _ fun x hx hgone => hx ?_⟩
      exact (apply_of_update_eq hgone (Option.some_ne_none _)).2
    | _ => rw [ht] at hstep; cases hstep
  | noMapping t =>
    rw [MapThreads.step] at hstep
    cases ht : s.phase t with
    | idle =>
      rw [ht] at hstep
      exact ⟨s, (Option.some.inj hstep).symm, hs, hstays s fun _ => id⟩
    | _ => rw [ht] at hstep; cases hstep
  | setObject t =>
    rw [MapThreads.step] at hstep
    cases ht : s.phase t with
    | made address h =>
      obtain ⟨mappings, hset, hs', hall⟩ := hs.setObject ht
      rw [ht] at hstep
      simp only [hset] at hstep
      exact ⟨_, (Option.some.inj hstep).symm, hs', hstays _ hall⟩
    | _ => rw [ht] at hstep; cases hstep
  | release t =>
    rw [MapThreads.step] at hstep
    cases ht : s.phase t with
    | entered address h =>
      obtain ⟨mappings, hrelease, hs', hall⟩ := hs.release ht
      rw [ht] at hstep
      simp only [hrelease] at hstep
      exact ⟨_, (Option.some.inj hstep).symm, hs', hstays _ hall⟩
    | _ => rw [ht] at hstep; cases hstep
  | osUnmapKernelSpace t address =>
    rw [MapThreads.step] at hstep
    cases ht : s.phase t with
    | idle =>
      rw [ht] at hstep
      refine ⟨_, (Option.some.inj hstep).symm, hs.enter (congrArg MapPhase.holds ht) rfl ?_ ?_, hstays _ fun _ => id⟩
      · rintro address' ⟨⟩
        exact .inr (hlegal.unmap t address rfl)
      · exact fun _ _ heq => by cases heq
    | _ => rw [ht] at hstep; cases hstep
  | getObject t =>
    rw [MapThreads.step] at hstep
    cases ht : s.phase t with
    | unmapping address =>
      have hholds : (s.phase t).holds = none := congrArg MapPhase.holds ht
      have hcall : (s.phase t).address = some address := congrArg MapPhase.address ht
      rw [ht] at hstep
      rcases hkey : s.mappings.globalMappedMemory (keyName address) with - | h
      · simp only [hkey] at hstep
        refine ⟨_, (Option.some.inj hstep).symm, hs.enter hholds rfl ?_ ?_, hstays _ fun _ => id⟩
        · exact fun _ heq => by cases heq
        · exact fun _ _ heq => by cases heq
      · simp only [hkey] at hstep
        refine ⟨_, (Option.some.inj hstep).symm, hs.enter hholds rfl ?_ ?_, hstays _ fun _ => id⟩
        · exact fun address' haddress => .inl (hcall.trans haddress)
        · rintro address' h' ⟨⟩
          exact hkey
    | _ => rw [ht] at hstep; cases hstep
  | requiredCast t =>
    rw [MapThreads.step] at hstep
    cases ht : s.phase t with
    | found address h =>
      have hcall : (s.phase t).address = some address := congrArg MapPhase.address ht
      have hentry : s.places (.inl (keyName address)) = some h := hs.found t address h ht
      obtain ⟨o, ho⟩ := Option.ne_none_iff_exists'.1 (hs.live hentry)
      rw [ht] at hstep
      simp only [ho] at hstep
      refine ⟨_, (Option.some.inj hstep).symm, hs.enter (congrArg MapPhase.holds ht) rfl ?_ ?_, hstays _ fun _ => id⟩
      · exact fun address' haddress => .inl (hcall.trans haddress)
      · exact fun _ _ heq => by cases heq
    | _ => rw [ht] at hstep; cases hstep
  | removeObject t =>
    rw [MapThreads.step] at hstep
    cases ht : s.phase t with
    | checked address =>
      obtain ⟨mappings, hremove, hs', hgone⟩ := hs.removeObject hone ht
      rw [ht] at hstep
      simp only [hremove] at hstep
      exact ⟨_, (Option.some.inj hstep).symm, hs', fun h o ho hnone => ⟨t, rfl, by rw [ht, hgone h o ho hnone]⟩⟩
    | _ => rw [ht] at hstep; cases hstep

end Orderly

/-- In every interleaving in which no two threads are in calls for one address, each call finds what is
there, and the registry is right whenever all threads are outside. -/
theorem mapThreads_keepMappings (τ : Type) [DecidableEq τ] (steps : List (MapStep τ IOMemoryMap))
    (hlegal : (mapThreadMachine .driverKit τ IOMemoryMap).Along (fun s l _ => ThreadLegal s l) .empty steps) :
    (mapThreadMachine .driverKit τ IOMemoryMap).Along KeepsMappings .empty steps := by
  refine Machine.along_of_legal (I := fun s => Orderly s ∧ OneAtATime s) ?_ ?_ ⟨.empty, nofun⟩ hlegal
  · rintro s l ⟨hs, hone⟩ hl
    show KeepsMappings s l (s.step .driverKit l)
    rcases hstep : s.step .driverKit l with - | r
    · trivial
    obtain ⟨s', rfl, hs', hgone⟩ := hs.step hone hl hstep
    exact ⟨hgone, hs'.registryExact⟩
  · rintro s l ⟨hs, hone⟩ hl s' hs'
    obtain ⟨r, hstep, hr⟩ := Option.bind_eq_some_iff.1 hs'
    obtain rfl := eq_ok_of_toOption hr
    obtain ⟨s'', heq, hs'', -⟩ := hs.step hone hl hstep
    obtain rfl := Except.ok.inj heq
    exact ⟨hs'', hl.apart _ hstep⟩

def oneMap (address : NvU64) : IOMemoryMap := ⟨address, 0, kIOMemoryMapCacheModeInhibit, 0x1000⟩

/-- One thread unmaps what the other has mapped, which maps again in between. -/
def unmappedBetween : List (MapStep Bool IOMemoryMap) :=
  [.create false 0 0x1000 (oneMap 0x1000), .setObject false, .release false, .osUnmapKernelSpace true 0x1000,
    .create false 1 0x2000 (oneMap 0x2000), .getObject true, .requiredCast true, .removeObject true]

theorem along_threadLegal_cons {s s' : MapThreads Bool IOMemoryMap} {l : MapStep Bool IOMemoryMap}
    {ls : List (MapStep Bool IOMemoryMap)} (hstep : s.step .driverKit l = some (.ok s')) (hfresh : MapFresh s l)
    (hcreate : ∀ t h address map, l = .create t h address map → map.address = address ∧ address.toNat < 2 ^ 60 ∧
      ∀ h' o, s.mappings.maps h' = some o → o.value.address ≠ address)
    (hunmap : ∀ t address, l = .osUnmapKernelSpace t address → address.toNat < 2 ^ 60)
    (hapart : ∀ address, (s'.phase false).address = some address → (s'.phase true).address ≠ some address)
    (hrest : (mapThreadMachine .driverKit Bool IOMemoryMap).Along (fun s l _ => ThreadLegal s l) s' ls) :
    (mapThreadMachine .driverKit Bool IOMemoryMap).Along (fun s l _ => ThreadLegal s l) s (l :: ls) := by
  have hnext : (mapThreadMachine .driverKit Bool IOMemoryMap).next (s.step .driverKit l) = some s' := by rw [hstep]; rfl
  refine (Machine.along_cons_of_next hnext).2 ⟨⟨hfresh, hcreate, hunmap, fun r hr => ?_⟩, hrest⟩
  obtain rfl := Except.ok.inj (Option.some.inj (hstep.symm.trans hr))
  rintro (- | -) (- | -) address ht ht'
  · rfl
  · exact absurd ht' (hapart address ht)
  · exact absurd ht (hapart address ht')
  · rfl

theorem mapThreads_keepMappings_unmappedBetween :
    (mapThreadMachine .driverKit Bool IOMemoryMap).Along KeepsMappings .empty unmappedBetween := by
  refine mapThreads_keepMappings Bool unmappedBetween ?_
  refine along_threadLegal_cons rfl rfl ?_ nofun nofun ?_
  · rintro t h address map ⟨⟩
    exact ⟨rfl, by decide, nofun⟩
  refine along_threadLegal_cons rfl trivial nofun nofun nofun ?_
  refine along_threadLegal_cons rfl trivial nofun nofun nofun ?_
  refine along_threadLegal_cons rfl trivial nofun ?_ nofun ?_
  · rintro t address ⟨⟩
    decide
  refine along_threadLegal_cons rfl rfl ?_ nofun ?_ ?_
  · rintro t h address map ⟨⟩
    refine ⟨rfl, by decide, fun h' o ho => ?_⟩
    rcases update_apply_eq_iff.1 ho with ⟨-, heq⟩ | ⟨-, ho⟩
    · cases heq
      decide
    rcases update_apply_eq_iff.1 ho with ⟨-, heq⟩ | ⟨-, ho⟩
    · cases heq
      decide
    rcases update_apply_eq_iff.1 ho with ⟨-, heq⟩ | ⟨-, ho⟩
    · cases heq
      decide
    · cases ho
  · rintro address ⟨⟩
    exact show (some 0x1000 : Option NvU64) ≠ some 0x2000 by decide
  refine along_threadLegal_cons rfl trivial nofun nofun ?_ ?_
  · rintro address ⟨⟩
    exact show (some 0x1000 : Option NvU64) ≠ some 0x2000 by decide
  refine along_threadLegal_cons rfl trivial nofun nofun ?_ ?_
  · rintro address ⟨⟩
    exact show (some 0x1000 : Option NvU64) ≠ some 0x2000 by decide
  refine along_threadLegal_cons rfl trivial nofun nofun nofun trivial

end DriverKit

end NVMac
