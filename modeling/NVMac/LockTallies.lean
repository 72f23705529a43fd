import NVMac.Lib.Tally
import NVMac.Mutexes
import NVMac.RwLocks

/-!
# Locks that say the wrong thing (`libc_driverkit.cpp`, `libc_kernel.cpp`)

A conditional acquire of a mutex locks it and says that it did not, or says that it did and does not;
in the kernel port a conditional acquire of a reader-writer lock says that it did whether or not. The
tally of these mistakes says exactly when a client that releases what it was granted unlocks a lock
that is not locked, and when one that acquires waits (`mutexRun_tallied`, `rwRun_tallied`). The
reader-writer lock of the DriverKit port makes none, whatever it takes its modes for.
-/

namespace NVMac
open RwLock Tally

/-! ### Mutexes -/

section
variable {κ : Type}

def MutexState.units (s : MutexState κ) : Nat := s.lock.toNat

def MutexState.grants (s : MutexState κ) : Nat := s.holds.card

def MutexCall.isCond : MutexCall κ → Bool
  | condAcquire _ => true
  | _ => false

/-- Clients ask for what they do not hold, and release what they hold. -/
def MutexOrderly (s : MutexState κ × Tally) : MutexCall κ → Prop
  | .acquire c | .condAcquire c => c ∉ s.1.holds
  | .release c => c ∈ s.1.holds

instance [DecidableEq κ] (s : MutexState κ × Tally) : (l : MutexCall κ) → Decidable (MutexOrderly s l)
  | .acquire c | .condAcquire c => inferInstanceAs (Decidable (c ∉ s.1.holds))
  | .release c => inferInstanceAs (Decidable (c ∈ s.1.holds))

def mutexTallied (κ : Type) [DecidableEq κ] (port : Port) :
    Machine (MutexState κ × Tally) (MutexCall κ) (SyncAnswer (MutexState κ) × MutexState κ × Tally) :=
  tallied (mutexMachine κ port) MutexState.units MutexState.grants

/-- A release unlocks what is not locked, and an acquire waits, as the tally says. -/
structure MutexBreaks (s : MutexState κ × Tally) (l : MutexCall κ)
    (a : SyncAnswer (MutexState κ) × MutexState κ × Tally) : Prop where
  unlocked : a.1 = none ↔ (∃ c, l = .release c) ∧ s.1.grants + s.2.untold = s.2.unbacked
  waits : ∀ c, l = .acquire c → (a.1 = some (none, s.1) ↔ s.1.grants + s.2.untold = s.2.unbacked + 1)

/-- Every conditional acquire so far was a mistake. -/
structure MutexTallied (made : List (MutexCall κ)) (s : MutexState κ × Tally) : Prop where
  balanced : s.2.Balanced s.1.units s.1.grants
  mistakes : s.2.mistakes = made.countP MutexCall.isCond

theorem MutexState.units_eq_zero {s : MutexState κ} : s.units = 0 ↔ s.lock = false := by
  unfold units
  cases s.lock <;> simp

theorem MutexState.units_eq_one {s : MutexState κ} : s.units = 1 ↔ s.lock = true := by
  unfold units
  cases s.lock <;> simp

variable [DecidableEq κ] {port : Port} {s s' : MutexState κ × Tally} {l : MutexCall κ}
  {made : List (MutexCall κ)}

theorem mutexCall_breaks (hs : s.2.Balanced s.1.units s.1.grants) :
    MutexBreaks s l ((mutexTallied κ port).call s l) := by
  obtain ⟨⟨lock, holds⟩, t⟩ := s
  have hfree := (hs.units_eq_iff 0).symm.trans MutexState.units_eq_zero
  have hlocked := (hs.units_eq_iff 1).symm.trans MutexState.units_eq_one
  simp only [Nat.add_zero] at hfree
  constructor
  · rw [hfree]
    show mutexCall port.mutexOps ⟨lock, holds⟩ l = none ↔ _
    rw [port.mutexOps_eq]
    cases l with
    | acquire c => cases lock <;> simp [mutexCall, acquireMutex, ioLockLock]
    | condAcquire c => simp [mutexCall]
    | release c => cases lock <;> simp [mutexCall, ioLockUnlock]
  · rintro c rfl
    rw [hlocked]
    show mutexCall port.mutexOps ⟨lock, holds⟩ (.acquire c) = _ ↔ _
    rw [port.mutexOps_eq]
    cases lock <;> simp [mutexCall, acquireMutex, ioLockLock]

/-- The acquires and releases are fair. -/
theorem mutexCall_fair (hl : MutexOrderly s l) (hcond : l.isCond = false)
    (hs' : (mutexMachine κ port).next ((mutexMachine κ port).call s.1 l) = some s'.1) :
    Fair s.1.units s.1.grants s'.1.units s'.1.grants := by
  obtain ⟨⟨lock, holds⟩, t⟩ := s
  obtain ⟨s', t'⟩ := s'
  replace hs' : (mutexCall port.mutexOps ⟨lock, holds⟩ l).map Prod.snd = some s' := hs'
  rw [port.mutexOps_eq] at hs'
  cases l with
  | acquire c =>
    cases lock with
    | false =>
      cases hs'
      show Fair 0 holds.card 1 (insert c holds).card
      rw [Finset.card_insert_of_notMem hl]
      exact .granted 0 _
    | true =>
      cases hs'
      exact .idle _ _
  | condAcquire c => cases hcond
  | release c =>
    cases lock with
    | false => cases hs'
    | true =>
      cases hs'
      show Fair 1 holds.card 0 (holds.erase c).card
      rw [← Finset.card_erase_add_one hl]
      exact .returned 0 _

/-- The conditional acquires are not. -/
theorem mutexCall_mistaken (hl : MutexOrderly s l) (hcond : l.isCond = true)
    (hs' : (mutexMachine κ port).next ((mutexMachine κ port).call s.1 l) = some s'.1) :
    Mistaken s.1.units s.1.grants s'.1.units s'.1.grants := by
  obtain ⟨⟨lock, holds⟩, t⟩ := s
  obtain ⟨s', t'⟩ := s'
  replace hs' : (mutexCall port.mutexOps ⟨lock, holds⟩ l).map Prod.snd = some s' := hs'
  rw [port.mutexOps_eq] at hs'
  cases l with
  | acquire c => cases hcond
  | release c => cases hcond
  | condAcquire c =>
    cases lock with
    | false =>
      cases hs'
      exact .untold 0 _
    | true =>
      cases hs'
      show Mistaken 1 holds.card 1 (insert c holds).card
      rw [Finset.card_insert_of_notMem hl]
      exact .unbacked 1 _

theorem MutexTallied.next (hs : MutexTallied made s) (hl : MutexOrderly s l)
    (hs' : (mutexTallied κ port).next ((mutexTallied κ port).call s l) = some s') :
    MutexTallied (made ++ [l]) s' := by
  obtain ⟨hnext, hcount⟩ := next_tallied _ _ _ hs'
  cases hcond : l.isCond with
  | false =>
    have hfair := mutexCall_fair hl hcond hnext
    refine ⟨hcount ▸ hs.balanced.fair hfair, ?_⟩
    rw [hcount, hfair.count_eq, hs.mistakes]
    simp [hcond]
  | true =>
    have hmistaken := mutexCall_mistaken hl hcond hnext
    refine ⟨hcount ▸ hs.balanced.mistaken hmistaken, ?_⟩
    rw [hcount, hmistaken.mistakes_count, hs.mistakes]
    simp [hcond]

end

/-- In both ports, along every orderly run: every conditional acquire is a mistake of one kind or the
other, a release unlocks a mutex that is not locked exactly when there are as many grants without a
lock as holders and locks without a grant, and an acquire waits exactly when there is one fewer. -/
theorem mutexRun_tallied (κ : Type) [DecidableEq κ] (port : Port) (calls : List (MutexCall κ))
    (horderly : (mutexTallied κ port).Along (fun s l _ => MutexOrderly s l) (.free, .zero) calls) :
    (mutexTallied κ port).Along MutexBreaks (.free, .zero) calls ∧
      ∀ s, (mutexTallied κ port).after (.free, .zero) calls = some s → MutexTallied calls s :=
  Machine.along_of_history (I := MutexTallied) (L := MutexOrderly) []
    (fun _ _ _ hs _ => mutexCall_breaks hs.balanced) (fun _ _ _ _ hs hl => hs.next hl)
    ⟨rfl, rfl⟩ horderly

/-- A mutex that is locked for nobody and granted to two: the first of them unlocks it, the second
unlocks it again. -/
def grantedToTwo : List (MutexCall Nat) := [.condAcquire 0, .condAcquire 1, .condAcquire 2, .release 1]

theorem mutexRun_tallied_grantedToTwo :
    ∃ s, (mutexTallied Nat .kernel).after (.free, .zero) grantedToTwo = some s ∧
      MutexTallied grantedToTwo s ∧ s.2 = ⟨1, 2⟩ :=
  ⟨_, rfl, (mutexRun_tallied Nat .kernel grantedToTwo (by decide)).2 _ rfl, rfl⟩

/-! ### Reader-writer locks -/

/-- The units of a reader-writer lock are its readers, or its writer. -/
def unitsOf : RwLock → Nat
  | .shared n => n
  | .exclusive => 1

section
variable {κ : Type}

def RwState.units (s : RwState κ) : Nat := unitsOf s.lock

def RwState.grants (s : RwState κ) : Nat := s.holds.length

def RwCall.isRelease : RwCall κ → Bool
  | releaseRead _ | releaseWrite _ => true
  | _ => false

def rwTallied (κ : Type) [DecidableEq κ] (port : Port) :
    Machine (RwState κ × Tally) (RwCall κ) (SyncAnswer (RwState κ) × RwState κ × Tally) :=
  tallied (rwMachine κ port) RwState.units RwState.grants

/-- The conditional acquires that the lock refuses. -/
def Refused (s : RwState κ) : RwCall κ → Prop
  | .condAcquireRead _ => s.lock.tryRead = none
  | .condAcquireWrite _ => s.lock.tryWrite = none
  | _ => False

instance (s : RwState κ) : (l : RwCall κ) → Decidable (Refused s l)
  | .condAcquireRead _ => inferInstanceAs (Decidable (s.lock.tryRead = none))
  | .condAcquireWrite _ => inferInstanceAs (Decidable (s.lock.tryWrite = none))
  | .acquireRead _ | .acquireWrite _ | .releaseRead _ | .releaseWrite _ => .isFalse not_false

/-- A release unlocks what is not locked exactly when no grant has a unit behind it, which does not
happen in the DriverKit port; nothing is tallied but the refused conditional acquires of the kernel
port. -/
structure RwBreaks [DecidableEq κ] (port : Port) (s : RwState κ × Tally) (l : RwCall κ)
    (a : SyncAnswer (RwState κ) × RwState κ × Tally) : Prop where
  unlocked : a.1 = none ↔ l.isRelease = true ∧ s.1.grants = s.2.unbacked
  backed : port = .driverKit → a.1 ≠ none
  tallied : ∀ s', (rwTallied κ port).next a = some s' →
    s'.2 = ⟨0, s.2.unbacked + if port = .kernel ∧ Refused s.1 l then 1 else 0⟩

structure RwTallied (port : Port) (s : RwState κ × Tally) : Prop where
  balanced : s.2.Balanced s.1.units s.1.grants
  told : s.2.untold = 0
  backed : port = .driverKit → s.2.unbacked = 0

variable {s s' : RwState κ} {l : RwCall κ} {h : κ × Mode} {taken : Option RwLock}

theorem unitsOf_tryRead {lock lock' : RwLock} (htake : lock.tryRead = some lock') :
    unitsOf lock' = unitsOf lock + 1 := by
  cases lock with
  | shared n => cases htake; rfl
  | exclusive => cases htake

theorem unitsOf_tryWrite {lock lock' : RwLock} (htake : lock.tryWrite = some lock') :
    unitsOf lock' = unitsOf lock + 1 := by
  rcases lock with (_ | n) | _ <;> cases htake
  rfl

theorem unitsOf_unlock {lock lock' : RwLock} (hunlock : lock.unlock = some lock') :
    unitsOf lock = unitsOf lock' + 1 := by
  rcases lock with (_ | n) | _ <;> cases hunlock <;> rfl

theorem unlock_eq_none {lock : RwLock} : lock.unlock = none ↔ unitsOf lock = 0 := by
  rcases lock with (_ | n) | _ <;> simp [RwLock.unlock, unitsOf]

theorem fair_taken (htaken : ∀ lock', taken = some lock' → unitsOf lock' = unitsOf s.lock + 1)
    (hs' : s' = s ∨ ∃ lock', taken = some lock' ∧ s' = ⟨lock', h :: s.holds⟩) :
    Fair s.units s.grants s'.units s'.grants := by
  rcases hs' with rfl | ⟨lock', htake, rfl⟩
  · exact .idle _ _
  · show Fair s.units s.grants (unitsOf lock') _
    rw [htaken lock' htake]
    exact .granted _ _

/-- Of the kernel port's conditional acquires, those that the lock takes are fair. -/
theorem acquire_untold {r : Option NvStatus × RwState κ} (htaken : taken ≠ none)
    (hr : s.acquire h (some (Kernel.untold s.lock taken)) = some r) :
    r.2 = s ∨ ∃ lock', taken = some lock' ∧ r.2 = ⟨lock', h :: s.holds⟩ := by
  cases taken with
  | none => exact absurd rfl htaken
  | some lock' =>
    cases hr
    exact .inr ⟨lock', rfl, rfl⟩

variable [DecidableEq κ] {port : Port}

theorem fair_released (hmem : h ∈ s.holds) {r : Option NvStatus × RwState κ}
    (hr : s.release h s.lock.unlock = some r) : Fair s.units s.grants r.2.units r.2.grants := by
  obtain ⟨lock', hunlock, rfl⟩ := Option.map_eq_some_iff.1 hr
  have hlength : s.grants = (s.holds.erase h).length + 1 := by
    have hpos := List.length_pos_of_mem hmem
    rw [List.length_erase_of_mem hmem, RwState.grants]
    omega
  rw [hlength, RwState.units, unitsOf_unlock hunlock]
  exact .returned _ _

theorem rwCall_fair (hl : RwLegal s l) (hrefused : ¬ (port = .kernel ∧ Refused s l))
    {r : Option NvStatus × RwState κ} (hr : rwCall port.rwOps s l = some r) :
    Fair s.units s.grants r.2.units r.2.grants := by
  cases l with
  | acquireRead c => cases port <;> exact fair_taken (fun _ => unitsOf_tryRead) (acquire_blocking hr)
  | acquireWrite c => cases port <;> exact fair_taken (fun _ => unitsOf_tryWrite) (acquire_blocking hr)
  | condAcquireRead c =>
    cases port with
    | driverKit => exact fair_taken (fun _ => unitsOf_tryRead) (acquire_tried hr)
    | kernel =>
      have htaken : s.lock.tryRead ≠ none := fun h => hrefused ⟨rfl, h⟩
      exact fair_taken (fun _ => unitsOf_tryRead) (acquire_untold htaken hr)
  | condAcquireWrite c =>
    cases port with
    | driverKit => exact fair_taken (fun _ => unitsOf_tryRead) (acquire_tried hr)
    | kernel =>
      have htaken : s.lock.tryWrite ≠ none := fun h => hrefused ⟨rfl, h⟩
      exact fair_taken (fun _ => unitsOf_tryWrite) (acquire_untold htaken hr)
  | releaseRead c => cases port <;> exact fair_released hl hr
  | releaseWrite c => cases port <;> exact fair_released hl hr

/-- The client is told that it has what the lock refused. -/
theorem rwCall_refused (hrefused : Refused s l) {r : Option NvStatus × RwState κ}
    (hr : rwCall Port.kernel.rwOps s l = some r) : r.2.units = s.units ∧ r.2.grants = s.grants + 1 := by
  cases l with
  | acquireRead c | acquireWrite c | releaseRead c | releaseWrite c => exact absurd hrefused not_false
  | condAcquireRead c | condAcquireWrite c =>
    replace hr : s.acquire _ (some (Kernel.untold s.lock _)) = some r := hr
    rw [hrefused] at hr
    cases hr
    exact ⟨rfl, rfl⟩

theorem rwCall_eq_none : rwCall port.rwOps s l = none ↔ l.isRelease = true ∧ s.units = 0 := by
  have hacquire : ∀ h answer, s.acquire h answer ≠ none := by
    rintro h (_ | r) hnone <;> cases hnone
  have hrelease : ∀ h, s.release h s.lock.unlock = none ↔ s.units = 0 := fun h =>
    Option.map_eq_none_iff.trans unlock_eq_none
  cases l with
  | acquireRead c | acquireWrite c | condAcquireRead c | condAcquireWrite c =>
    rw [rwCall]
    exact iff_of_false (hacquire _ _) (by simp [RwCall.isRelease])
  | releaseRead c | releaseWrite c =>
    cases port <;> exact (hrelease _).trans (by simp [RwCall.isRelease])

theorem rwCall_tally {s s' : RwState κ × Tally} (hs : RwTallied port s) (hl : RwLegal s.1 l)
    (hs' : (rwTallied κ port).next ((rwTallied κ port).call s l) = some s') :
    s'.2 = ⟨0, s.2.unbacked + if port = .kernel ∧ Refused s.1 l then 1 else 0⟩ ∧
      s'.2.Balanced s'.1.units s'.1.grants := by
  obtain ⟨hnext, hcount⟩ := next_tallied _ _ _ hs'
  obtain ⟨r, hr, hr'⟩ := Option.map_eq_some_iff.1 hnext
  by_cases hrefused : port = .kernel ∧ Refused s.1 l
  · obtain ⟨rfl, hlock⟩ := hrefused
    obtain ⟨hunits, hgrants⟩ := rwCall_refused hlock hr
    rw [hr'] at hunits hgrants
    have hbalanced := hs.balanced.mistaken (.unbacked _ _)
    rw [hcount, hunits, hgrants]
    refine ⟨?_, hbalanced⟩
    rw [count_unbacked, hs.told, if_pos ⟨rfl, hlock⟩]
  · have hfair := hr' ▸ rwCall_fair hl hrefused hr
    rw [hcount]
    refine ⟨?_, hs.balanced.fair hfair⟩
    rw [hfair.count_eq, if_neg hrefused, Nat.add_zero, ← hs.told]

theorem rwCall_breaks {s : RwState κ × Tally} (hs : RwTallied port s) (hl : RwLegal s.1 l) :
    RwBreaks port s l ((rwTallied κ port).call s l) := by
  have hunlocked : rwCall port.rwOps s.1 l = none ↔ l.isRelease = true ∧ s.1.grants = s.2.unbacked := by
    refine rwCall_eq_none.trans (and_congr_right fun _ => ?_)
    rw [hs.balanced.units_eq_iff 0, hs.told, Nat.add_zero, Nat.add_zero]
  refine ⟨hunlocked, fun hport hnone => ?_, fun s' hs' => (rwCall_tally hs hl hs').1⟩
  obtain ⟨hrelease, hgrants⟩ := hunlocked.1 hnone
  rw [hs.backed hport] at hgrants
  have hnil : s.1.holds = [] := List.length_eq_zero_iff.1 hgrants
  cases l with
  | acquireRead c | acquireWrite c | condAcquireRead c | condAcquireWrite c => cases hrelease
  | releaseRead c | releaseWrite c =>
    unfold RwLegal at hl
    rw [hnil] at hl
    cases hl

theorem RwTallied.next {s s' : RwState κ × Tally} (hs : RwTallied port s) (hl : RwLegal s.1 l)
    (hs' : (rwTallied κ port).next ((rwTallied κ port).call s l) = some s') : RwTallied port s' := by
  obtain ⟨htally, hbalanced⟩ := rwCall_tally hs hl hs'
  refine ⟨hbalanced, congrArg untold htally, fun hport => ?_⟩
  rw [htally, hs.backed hport, hport]
  rfl

end

/-- Along every run in which clients release what they hold. In the DriverKit port each grant has a
unit behind it, so no release breaks the contract of the lock. In the kernel port the grants that have
none are those of the conditional acquires that the lock refused, and a release breaks the contract
exactly when no others are left. -/
theorem rwRun_tallied (κ : Type) [DecidableEq κ] (port : Port) (calls : List (RwCall κ))
    (hlegal : (rwTallied κ port).Along (fun s l _ => RwLegal s.1 l) (.free, .zero) calls) :
    (rwTallied κ port).Along (RwBreaks port) (.free, .zero) calls ∧
      ∀ s, (rwTallied κ port).after (.free, .zero) calls = some s → RwTallied port s :=
  Machine.along_of_history (I := fun _ => RwTallied port) (L := fun s l => RwLegal s.1 l) []
    (fun _ _ _ hs hl => rwCall_breaks hs hl) (fun _ _ _ _ hs hl => hs.next hl)
    ⟨rfl, rfl, fun _ => rfl⟩ hlegal

/-- The release of a refused writer unlocks for the reader, and the reader's for the writer after it, of
which nothing is left to unlock. -/
def refusedThenReleased : List (RwCall Nat) :=
  [.acquireRead 0, .condAcquireWrite 1, .releaseWrite 1, .acquireWrite 2, .releaseRead 0]

theorem rwRun_tallied_refusedThenReleased :
    ∃ s, (rwTallied Nat .kernel).after (.free, .zero) refusedThenReleased = some s ∧
      RwTallied .kernel s ∧ s.1.holds = [(2, .write)] ∧ s.1.lock = .shared 0 ∧ s.2 = ⟨0, 1⟩ :=
  ⟨_, rfl, (rwRun_tallied Nat .kernel refusedThenReleased (by decide)).2 _ rfl, rfl, rfl, rfl⟩

end NVMac
