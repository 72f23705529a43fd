import Mathlib.Data.Finset.Card
import NVMac.Types
import NVMac.Lib.Machine

/-!
# Mutexes (`libc_driverkit.cpp`, `libc_kernel.cpp`)

Both ports have the same text. `os_cond_acquire_mutex` takes the failure of `IOLockTryLock` for its
success and the other way round, so it is harmless to a client that holds the mutex already, and to
no other (`mutexRun_honest_iff`).
-/

namespace NVMac

abbrev IOLock := Bool

/-- `none`: the call waits. -/
def ioLockLock (lock : IOLock) : Option IOLock := if lock then none else some true

def ioLockTryLock (lock : IOLock) : Bool × IOLock := (!lock, true)

def ioLockUnlock (lock : IOLock) : Option IOLock := if lock then some false else none

def acquireMutex (lock : IOLock) : Option (NvStatus × IOLock) := (ioLockLock lock).map (.ok, ·)

def condAcquireMutex (lock : IOLock) : NvStatus × IOLock :=
  let (result, lock) := ioLockTryLock lock
  if result = false then (.ok, lock) else (.errTimeoutRetry, lock)

namespace DriverKit

def osAcquireMutex (lock : IOLock) : Option (NvStatus × IOLock) := acquireMutex lock

def osCondAcquireMutex (lock : IOLock) : NvStatus × IOLock := condAcquireMutex lock

def osReleaseMutex (lock : IOLock) : Option IOLock := ioLockUnlock lock

end DriverKit

namespace Kernel

def osAcquireMutex (lock : IOLock) : Option (NvStatus × IOLock) := acquireMutex lock

def osCondAcquireMutex (lock : IOLock) : NvStatus × IOLock := condAcquireMutex lock

def osReleaseMutex (lock : IOLock) : Option IOLock := ioLockUnlock lock

end Kernel

structure MutexOps where
  acquire : IOLock → Option (NvStatus × IOLock)
  condAcquire : IOLock → NvStatus × IOLock
  release : IOLock → Option IOLock

def Port.mutexOps : Port → MutexOps
  | .driverKit => ⟨DriverKit.osAcquireMutex, DriverKit.osCondAcquireMutex, DriverKit.osReleaseMutex⟩
  | .kernel => ⟨Kernel.osAcquireMutex, Kernel.osCondAcquireMutex, Kernel.osReleaseMutex⟩

theorem Port.mutexOps_eq (port : Port) :
    port.mutexOps = ⟨acquireMutex, condAcquireMutex, ioLockUnlock⟩ := by
  cases port <;> rfl

/-! ### Clients of one mutex -/

inductive MutexCall (κ : Type)
  | acquire (c : κ)
  | condAcquire (c : κ)
  | release (c : κ)

/-- `holds` are the clients to which an acquire has returned `NV_OK` since their last release. -/
structure MutexState (κ : Type) where
  lock : IOLock
  holds : Finset κ

section
variable {κ : Type} {s : MutexState κ} {l : MutexCall κ} {c : κ}

def MutexState.free : MutexState κ := ⟨false, ∅⟩

/-- At most one client holds the mutex, and the lock is locked while one does. -/
structure OneHolder (s : MutexState κ) : Prop where
  card : s.holds.card ≤ 1
  locked_iff : s.lock = true ↔ s.holds.Nonempty

theorem OneHolder.of_unlocked (hs : OneHolder s) (h : s.lock = false) : s.holds = ∅ := by
  rw [← Finset.not_nonempty_iff_eq_empty, ← hs.locked_iff, h]
  exact Bool.false_ne_true

theorem OneHolder.of_mem (hs : OneHolder s) (h : c ∈ s.holds) : s.lock = true ∧ s.holds = {c} := by
  refine ⟨hs.locked_iff.2 ⟨c, h⟩, ?_⟩
  exact (Finset.eq_of_subset_of_card_le (Finset.singleton_subset_iff.2 h)
    (by rw [Finset.card_singleton]; exact hs.card)).symm

theorem oneHolder_free : OneHolder (.free : MutexState κ) := ⟨Nat.zero_le 1, by simp [MutexState.free]⟩

variable [DecidableEq κ]

def MutexState.acquired (s : MutexState κ) (c : κ) : NvStatus × IOLock → MutexState κ
  | (.ok, lock) => ⟨lock, insert c s.holds⟩
  | (_, lock) => { s with lock }

def mutexCall (ops : MutexOps) (s : MutexState κ) : MutexCall κ → SyncAnswer (MutexState κ)
  | .acquire c =>
    match ops.acquire s.lock with
    | some r => some (some r.1, s.acquired c r)
    | none => some (none, s)
  | .condAcquire c => some (some (ops.condAcquire s.lock).1, s.acquired c (ops.condAcquire s.lock))
  | .release c => (ops.release s.lock).map fun lock => (some .ok, ⟨lock, s.holds.erase c⟩)

def mutexMachine (κ : Type) [DecidableEq κ] (port : Port) :
    Machine (MutexState κ) (MutexCall κ) (SyncAnswer (MutexState κ)) where
  call := mutexCall port.mutexOps
  next a := a.map Prod.snd

/-- Clients release what they hold. -/
def MutexLegal (s : MutexState κ) : MutexCall κ → Prop
  | .release c => c ∈ s.holds
  | _ => True

/-- A call leaves one holder at most, and tells a client to retry only when another holds the mutex,
which it leaves alone. -/
structure Honest (s : MutexState κ) (l : MutexCall κ) (a : SyncAnswer (MutexState κ)) : Prop where
  oneHolder : ∀ r, a = some r → OneHolder r.2
  retry : ∀ c r, l = .condAcquire c → a = some r → r.1 = some .errTimeoutRetry →
    (∃ c' ∈ s.holds, c' ≠ c) ∧ r.2 = s

def FromHolder (s : MutexState κ) : MutexCall κ → Prop
  | .condAcquire c => c ∈ s.holds
  | _ => True

instance (s : MutexState κ) : (l : MutexCall κ) → Decidable (MutexLegal s l)
  | .release c => inferInstanceAs (Decidable (c ∈ s.holds))
  | .acquire _ | .condAcquire _ => .isTrue trivial

instance (s : MutexState κ) : (l : MutexCall κ) → Decidable (FromHolder s l)
  | .condAcquire c => inferInstanceAs (Decidable (c ∈ s.holds))
  | .acquire _ | .release _ => .isTrue trivial

/-! ### One call -/

theorem OneHolder.acquire (hs : OneHolder s) :
    Honest s (.acquire c) (mutexCall ⟨acquireMutex, condAcquireMutex, ioLockUnlock⟩ s (.acquire c)) := by
  refine ⟨fun r hr => ?_, fun c r hl => by cases hl⟩
  obtain ⟨lock, holds⟩ := s
  cases lock with
  | true =>
    cases hr
    exact hs
  | false =>
    cases hr
    obtain rfl : holds = ∅ := hs.of_unlocked rfl
    exact ⟨by simp [MutexState.acquired], by simp [MutexState.acquired]⟩

theorem OneHolder.release (hs : OneHolder s) (hmem : c ∈ s.holds) :
    Honest s (.release c) (mutexCall ⟨acquireMutex, condAcquireMutex, ioLockUnlock⟩ s (.release c)) := by
  refine ⟨fun r hr => ?_, fun c r hl => by cases hl⟩
  obtain ⟨hlock, hholds⟩ := hs.of_mem hmem
  obtain ⟨lock, holds⟩ := s
  subst hlock hholds
  cases hr
  exact ⟨by simp, by simp⟩

/-- Whoever does not hold the mutex is told the wrong thing. -/
theorem OneHolder.condAcquire_iff (hs : OneHolder s) :
    Honest s (.condAcquire c)
        (mutexCall ⟨acquireMutex, condAcquireMutex, ioLockUnlock⟩ s (.condAcquire c)) ↔
      c ∈ s.holds := by
  obtain ⟨lock, holds⟩ := s
  cases lock with
  | false =>
    obtain rfl : holds = ∅ := hs.of_unlocked rfl
    refine iff_of_false (fun h => ?_) (Finset.notMem_empty c)
    obtain ⟨⟨c', hc', -⟩, -⟩ := h.retry c _ rfl rfl rfl
    exact absurd hc' (Finset.notMem_empty c')
  | true =>
    constructor
    · intro h
      have hcard : (insert c holds).card ≤ 1 := (h.oneHolder _ rfl).card
      obtain ⟨c', hc'⟩ := hs.locked_iff.1 rfl
      have heq := Finset.card_le_one.1 hcard c (Finset.mem_insert_self c holds) c'
        (Finset.mem_insert_of_mem hc')
      exact heq ▸ hc'
    · intro h
      refine ⟨fun r hr => ?_, fun c' r _ hr hretry => ?_⟩
      · cases hr
        show OneHolder ⟨true, insert c holds⟩
        rw [Finset.insert_eq_of_mem h]
        exact hs
      · cases hr
        cases hretry

theorem honest_iff (port : Port) (hs : OneHolder s) (hlegal : MutexLegal s l) :
    Honest s l (mutexCall port.mutexOps s l) ↔ FromHolder s l := by
  rw [port.mutexOps_eq]
  cases l with
  | acquire c => exact iff_of_true hs.acquire trivial
  | condAcquire c => exact hs.condAcquire_iff
  | release c => exact iff_of_true (hs.release hlegal) trivial

end

/-- In both ports, a run in which clients release what they hold is honest exactly when its
conditional acquires come from the holder. -/
theorem mutexRun_honest_iff (κ : Type) [DecidableEq κ] (port : Port) (calls : List (MutexCall κ))
    (hlegal : (mutexMachine κ port).Along (fun s l _ => MutexLegal s l) .free calls) :
    (mutexMachine κ port).Along Honest .free calls ↔
      (mutexMachine κ port).Along (fun s l _ => FromHolder s l) .free calls := by
  refine Machine.along_iff_of_legal (I := OneHolder) (fun s l => honest_iff port) ?_ oneHolder_free hlegal
  intro s l hs hlegal hfrom s' hs'
  obtain ⟨r, hr, rfl⟩ := Option.map_eq_some_iff.1 hs'
  exact ((honest_iff port hs hlegal).2 hfrom).oneHolder r hr

def takeTurns : List (MutexCall Nat) := [.acquire 0, .acquire 1, .release 0, .acquire 1, .release 1]

theorem mutexRun_honest_takeTurns : (mutexMachine Nat .kernel).Along Honest .free takeTurns :=
  (mutexRun_honest_iff Nat .kernel takeTurns (by decide)).2 (by decide)

/-- A free mutex is locked for nobody, and a held one is granted again. -/
theorem mutexRun_dishonest :
    (mutexMachine Nat .driverKit).call .free (.condAcquire 0) =
      some (some .errTimeoutRetry, ⟨true, ∅⟩) ∧
    (mutexMachine Nat .kernel).call .free (.condAcquire 0) =
      some (some .errTimeoutRetry, ⟨true, ∅⟩) ∧
    (mutexMachine Nat .driverKit).after .free [.acquire 0, .condAcquire 1] = some ⟨true, {1, 0}⟩ ∧
    (mutexMachine Nat .kernel).after .free [.acquire 0, .condAcquire 1] = some ⟨true, {1, 0}⟩ ∧
    ¬ (mutexMachine Nat .driverKit).Along Honest .free [.condAcquire 0] ∧
    ¬ (mutexMachine Nat .kernel).Along Honest .free [.condAcquire 0] := by
  refine ⟨rfl, rfl, rfl, rfl, fun h => ?_, fun h => ?_⟩
  all_goals
    obtain ⟨⟨c, hc, -⟩, -⟩ := h.1.retry 0 _ rfl rfl rfl
    exact Finset.notMem_empty c hc

end NVMac
