import NVMac.Types
import NVMac.Lib.Machine
import NVMac.Lib.RwLock

/-!
# Reader-writer locks (`libc_driverkit.cpp`, `libc_kernel.cpp`)

The six operations of each port, on the lock that the system provides. A client holds a lock from an
acquire that returned `NV_OK` to it until its release, whatever the lock itself says.

The DriverKit port tries a read lock where it should try a write lock, and the kernel port does not
look at what its try operations answer. `rwRun_exclusive_iff` says which runs that spoils.
-/

namespace NVMac
open RwLock

def blocking (taken : Option RwLock) : Option (NvStatus × RwLock) := taken.map (.ok, ·)

namespace DriverKit

/-- A `pthread` try operation returns 0 when it took the lock. -/
def tried (lock : RwLock) (taken : Option RwLock) : NvStatus × RwLock :=
  match taken with
  | some lock' => (.ok, lock')
  | none => (.errTimeoutRetry, lock)

def osAcquireRwlockRead (lock : RwLock) : Option (NvStatus × RwLock) := blocking lock.tryRead

def osAcquireRwlockWrite (lock : RwLock) : Option (NvStatus × RwLock) := blocking lock.tryWrite

def osCondAcquireRwlockRead (lock : RwLock) : NvStatus × RwLock := tried lock lock.tryRead

def osCondAcquireRwlockWrite (lock : RwLock) : NvStatus × RwLock :=
  -- `pthread_rwlock_tryrdlock` here too
  tried lock lock.tryRead

def osReleaseRwlockRead (lock : RwLock) : Option RwLock := lock.unlock

def osReleaseRwlockWrite (lock : RwLock) : Option RwLock := lock.unlock

end DriverKit

namespace Kernel

/-- The answer of the try operation is dropped. -/
def untold (lock : RwLock) (taken : Option RwLock) : NvStatus × RwLock := (.ok, taken.getD lock)

def osAcquireRwlockRead (lock : RwLock) : Option (NvStatus × RwLock) := blocking lock.tryRead

def osAcquireRwlockWrite (lock : RwLock) : Option (NvStatus × RwLock) := blocking lock.tryWrite

def osCondAcquireRwlockRead (lock : RwLock) : NvStatus × RwLock := untold lock lock.tryRead

def osCondAcquireRwlockWrite (lock : RwLock) : NvStatus × RwLock := untold lock lock.tryWrite

def osReleaseRwlockRead (lock : RwLock) : Option RwLock := lock.unlock

def osReleaseRwlockWrite (lock : RwLock) : Option RwLock := lock.unlock

end Kernel

structure RwOps where
  acquireRead : RwLock → Option (NvStatus × RwLock)
  acquireWrite : RwLock → Option (NvStatus × RwLock)
  condAcquireRead : RwLock → NvStatus × RwLock
  condAcquireWrite : RwLock → NvStatus × RwLock
  releaseRead : RwLock → Option RwLock
  releaseWrite : RwLock → Option RwLock

def Port.rwOps : Port → RwOps
  | .driverKit => {
    acquireRead := DriverKit.osAcquireRwlockRead
    acquireWrite := DriverKit.osAcquireRwlockWrite
    condAcquireRead := DriverKit.osCondAcquireRwlockRead
    condAcquireWrite := DriverKit.osCondAcquireRwlockWrite
    releaseRead := DriverKit.osReleaseRwlockRead
    releaseWrite := DriverKit.osReleaseRwlockWrite }
  | .kernel => {
    acquireRead := Kernel.osAcquireRwlockRead
    acquireWrite := Kernel.osAcquireRwlockWrite
    condAcquireRead := Kernel.osCondAcquireRwlockRead
    condAcquireWrite := Kernel.osCondAcquireRwlockWrite
    releaseRead := Kernel.osReleaseRwlockRead
    releaseWrite := Kernel.osReleaseRwlockWrite }

/-! ### Clients of one lock -/

inductive RwCall (κ : Type)
  | acquireRead (c : κ)
  | acquireWrite (c : κ)
  | condAcquireRead (c : κ)
  | condAcquireWrite (c : κ)
  | releaseRead (c : κ)
  | releaseWrite (c : κ)

/-- `holds` lists each grant until its release; a client granted twice is listed twice. -/
structure RwState (κ : Type) where
  lock : RwLock
  holds : List (κ × Mode)

section
variable {κ : Type}

def RwState.acquired (s : RwState κ) (h : κ × Mode) : NvStatus × RwLock → RwState κ
  | (.ok, lock) => ⟨lock, h :: s.holds⟩
  | (_, lock) => { s with lock }

def RwState.acquire (s : RwState κ) (h : κ × Mode) :
    Option (NvStatus × RwLock) → SyncAnswer (RwState κ)
  | some r => some (some r.1, s.acquired h r)
  | none => some (none, s)

def RwState.release [DecidableEq κ] (s : RwState κ) (h : κ × Mode) (unlocked : Option RwLock) :
    SyncAnswer (RwState κ) :=
  unlocked.map fun lock => (some .ok, ⟨lock, s.holds.erase h⟩)

def rwCall [DecidableEq κ] (ops : RwOps) (s : RwState κ) : RwCall κ → SyncAnswer (RwState κ)
  | .acquireRead c => s.acquire (c, .read) (ops.acquireRead s.lock)
  | .acquireWrite c => s.acquire (c, .write) (ops.acquireWrite s.lock)
  | .condAcquireRead c => s.acquire (c, .read) (some (ops.condAcquireRead s.lock))
  | .condAcquireWrite c => s.acquire (c, .write) (some (ops.condAcquireWrite s.lock))
  | .releaseRead c => s.release (c, .read) (ops.releaseRead s.lock)
  | .releaseWrite c => s.release (c, .write) (ops.releaseWrite s.lock)

def rwMachine (κ : Type) [DecidableEq κ] (port : Port) :
    Machine (RwState κ) (RwCall κ) (SyncAnswer (RwState κ)) where
  call := rwCall port.rwOps
  next a := a.map Prod.snd

def RwState.free : RwState κ := ⟨.shared 0, []⟩

/-- Clients release what they hold. -/
def RwLegal (s : RwState κ) : RwCall κ → Prop
  | .releaseRead c => (c, .read) ∈ s.holds
  | .releaseWrite c => (c, .write) ∈ s.holds
  | _ => True

instance [DecidableEq κ] (s : RwState κ) : (l : RwCall κ) → Decidable (RwLegal s l)
  | .releaseRead c => inferInstanceAs (Decidable ((c, .read) ∈ s.holds))
  | .releaseWrite c => inferInstanceAs (Decidable ((c, .write) ∈ s.holds))
  | .acquireRead _ | .acquireWrite _ | .condAcquireRead _ | .condAcquireWrite _ => .isTrue trivial

def LeavesExclusive (a : SyncAnswer (RwState κ)) : Prop := ∀ r, a = some r → Exclusive r.2.holds

/-- The calls on which the ports' conditional acquires do no harm. In the kernel port they are made
when they must succeed. In the DriverKit port a conditional write acquire is made when nobody holds
the lock or a writer has locked it, and nobody reads beside a writer that has not. -/
def TriesClear (port : Port) (s : RwState κ) : RwCall κ → Prop
  | .acquireRead _ => port = .driverKit → s.lock = .exclusive ∨ writers s.holds = 0
  | .condAcquireRead _ => (port = .driverKit ∧ s.lock = .exclusive) ∨ writers s.holds = 0
  | .condAcquireWrite _ => (port = .driverKit ∧ s.lock = .exclusive) ∨ s.holds = []
  | _ => True

instance [DecidableEq κ] (port : Port) (s : RwState κ) :
    (l : RwCall κ) → Decidable (TriesClear port s l)
  | .acquireRead _ =>
    inferInstanceAs (Decidable (port = .driverKit → s.lock = .exclusive ∨ writers s.holds = 0))
  | .condAcquireRead _ =>
    inferInstanceAs (Decidable ((port = .driverKit ∧ s.lock = .exclusive) ∨ writers s.holds = 0))
  | .condAcquireWrite _ =>
    inferInstanceAs (Decidable ((port = .driverKit ∧ s.lock = .exclusive) ∨ s.holds = []))
  | .acquireWrite _ | .releaseRead _ | .releaseWrite _ => .isTrue trivial

/-! ### The clients' holds and the lock -/

/-- The invariant. In the kernel port a writer has always locked the lock. -/
structure Agrees (port : Port) (s : RwState κ) : Prop where
  counts : Counts s.lock s.holds
  exclusive : Exclusive s.holds
  locked : port = .kernel → s.lock = .exclusive ∨ writers s.holds = 0

variable {port : Port} {s : RwState κ} {l : RwCall κ} {h : κ × Mode} {taken : Option RwLock}

theorem leavesExclusive_some {r : Option NvStatus × RwState κ} :
    LeavesExclusive (some r) ↔ Exclusive r.2.holds :=
  ⟨fun h => h r rfl, fun h _ hr => Option.some.inj hr ▸ h⟩

theorem leavesExclusive_blocking (he : Exclusive s.holds) :
    LeavesExclusive (s.acquire h (blocking taken)) ↔ taken = none ∨ Exclusive (h :: s.holds) := by
  cases taken with
  | none => exact iff_of_true (leavesExclusive_some.2 he) (.inl rfl)
  | some lock =>
    refine leavesExclusive_some.trans ?_
    simp [RwState.acquired]

theorem leavesExclusive_tried (he : Exclusive s.holds) :
    LeavesExclusive (s.acquire h (some (DriverKit.tried s.lock taken))) ↔
      taken = none ∨ Exclusive (h :: s.holds) := by
  cases taken with
  | none => exact iff_of_true (leavesExclusive_some.2 he) (.inl rfl)
  | some lock =>
    refine leavesExclusive_some.trans ?_
    simp [DriverKit.tried, RwState.acquired]

theorem leavesExclusive_untold :
    LeavesExclusive (s.acquire h (some (Kernel.untold s.lock taken))) ↔ Exclusive (h :: s.holds) :=
  leavesExclusive_some

theorem leavesExclusive_release [DecidableEq κ] (hs : Agrees port s) (hmem : h ∈ s.holds) :
    LeavesExclusive (s.release h s.lock.unlock) := by
  obtain ⟨lock', hlock, -⟩ := hs.counts.unlock hmem
  rw [hlock]
  exact leavesExclusive_some.2 (hs.exclusive.erase h)

theorem tryRead_eq_none {lock : RwLock} : lock.tryRead = none ↔ lock = .exclusive := by
  cases lock <;> simp [RwLock.tryRead]

theorem acquireWrite_exclusive {c : κ} (hs : Agrees port s) :
    s.lock.tryWrite = none ∨ Exclusive ((c, .write) :: s.holds) := by
  cases htake : s.lock.tryWrite with
  | none => exact .inl rfl
  | some lock' => exact .inr (exclusive_cons_write.2 (hs.counts.tryWrite htake).1)

theorem leavesExclusive_iff [DecidableEq κ] (hs : Agrees port s) (hlegal : RwLegal s l) :
    LeavesExclusive (rwCall port.rwOps s l) ↔ TriesClear port s l := by
  cases port with
  | driverKit =>
    cases l with
    | acquireRead c =>
      refine (leavesExclusive_blocking hs.exclusive).trans ?_
      rw [tryRead_eq_none, exclusive_cons_read]
      simp [TriesClear]
    | acquireWrite c =>
      refine (leavesExclusive_blocking hs.exclusive).trans ?_
      simp only [TriesClear, acquireWrite_exclusive hs]
    | condAcquireRead c =>
      refine (leavesExclusive_tried hs.exclusive).trans ?_
      rw [tryRead_eq_none, exclusive_cons_read]
      simp [TriesClear]
    | condAcquireWrite c =>
      refine (leavesExclusive_tried hs.exclusive).trans ?_
      rw [tryRead_eq_none, exclusive_cons_write]
      simp [TriesClear]
    | releaseRead c => exact iff_of_true (leavesExclusive_release hs hlegal) trivial
    | releaseWrite c => exact iff_of_true (leavesExclusive_release hs hlegal) trivial
  | kernel =>
    cases l with
    | acquireRead c =>
      refine (leavesExclusive_blocking hs.exclusive).trans ?_
      rw [tryRead_eq_none, exclusive_cons_read]
      simp [TriesClear, hs.locked rfl]
    | acquireWrite c =>
      refine (leavesExclusive_blocking hs.exclusive).trans ?_
      simp only [TriesClear, acquireWrite_exclusive hs]
    | condAcquireRead c =>
      refine leavesExclusive_untold.trans ?_
      rw [exclusive_cons_read]
      simp [TriesClear]
    | condAcquireWrite c =>
      refine leavesExclusive_untold.trans ?_
      rw [exclusive_cons_write]
      simp [TriesClear]
    | releaseRead c => exact iff_of_true (leavesExclusive_release hs hlegal) trivial
    | releaseWrite c => exact iff_of_true (leavesExclusive_release hs hlegal) trivial

theorem acquire_blocking {r : Option NvStatus × RwState κ} (hr : s.acquire h (blocking taken) = some r) :
    r.2 = s ∨ ∃ lock', taken = some lock' ∧ r.2 = ⟨lock', h :: s.holds⟩ := by
  cases taken with
  | none => cases hr; exact .inl rfl
  | some lock' => cases hr; exact .inr ⟨lock', rfl, rfl⟩

theorem acquire_tried {r : Option NvStatus × RwState κ}
    (hr : s.acquire h (some (DriverKit.tried s.lock taken)) = some r) :
    r.2 = s ∨ ∃ lock', taken = some lock' ∧ r.2 = ⟨lock', h :: s.holds⟩ := by
  cases taken with
  | none => cases hr; exact .inl rfl
  | some lock' => cases hr; exact .inr ⟨lock', rfl, rfl⟩

theorem Agrees.read {lock' : RwLock} (hs : Agrees port s) (htake : s.lock.tryRead = some lock')
    (he : Exclusive (h :: s.holds)) (hmode : port = .kernel → h.2 = .read) :
    Agrees port ⟨lock', h :: s.holds⟩ := by
  refine ⟨hs.counts.tryRead htake, he, fun hport => .inr ?_⟩
  obtain ⟨c, mode⟩ := h
  obtain rfl : mode = .read := hmode hport
  rw [writers_cons_read]
  refine (hs.locked hport).resolve_left fun hlock => ?_
  rw [hlock] at htake
  cases htake

theorem Agrees.write {c : κ} {lock' : RwLock} (hs : Agrees port s)
    (htake : s.lock.tryWrite = some lock') : Agrees port ⟨lock', (c, .write) :: s.holds⟩ := by
  obtain ⟨hnil, rfl⟩ := hs.counts.tryWrite htake
  rw [hnil]
  exact ⟨.inr ⟨rfl, c, rfl⟩, exclusive_cons_write.2 rfl, fun _ => .inl rfl⟩

theorem Agrees.release [DecidableEq κ] (hs : Agrees port s) (hmem : h ∈ s.holds)
    {lock' : RwLock} (hunlock : s.lock.unlock = some lock') : Agrees port ⟨lock', s.holds.erase h⟩ := by
  obtain ⟨lock, hlock, hlen⟩ := hs.counts.unlock hmem
  obtain rfl : lock = lock' := Option.some.inj (hlock.symm.trans hunlock)
  refine ⟨.inl hlen, hs.exclusive.erase h, fun hport => .inr ?_⟩
  have hle : writers (s.holds.erase h) ≤ writers s.holds := List.erase_sublist.countP_le
  rcases hs.counts with hshared | ⟨-, c, hholds⟩
  · rcases hs.locked hport with hexcl | hzero
    · rw [hexcl] at hshared
      cases hshared
    · exact Nat.le_zero.1 (hzero ▸ hle)
  · rw [hholds] at hmem ⊢
    rw [List.mem_singleton.1 hmem, List.erase_cons_head]
    rfl

section acquire
variable {c : κ} {r : Option NvStatus × RwState κ}

theorem Agrees.acquireRead (hs : Agrees port s) (he : Exclusive r.2.holds)
    (hr : s.acquire (c, .read) (blocking s.lock.tryRead) = some r) : Agrees port r.2 := by
  rcases acquire_blocking hr with heq | ⟨lock', htake, heq⟩
  · exact heq ▸ hs
  · rw [heq] at he ⊢
    exact hs.read htake he fun _ => rfl

theorem Agrees.acquireWrite (hs : Agrees port s)
    (hr : s.acquire (c, .write) (blocking s.lock.tryWrite) = some r) : Agrees port r.2 := by
  rcases acquire_blocking hr with heq | ⟨lock', htake, heq⟩
  · exact heq ▸ hs
  · rw [heq]
    exact hs.write htake

theorem Agrees.tried (hs : Agrees .driverKit s) (he : Exclusive r.2.holds)
    (hr : s.acquire h (some (DriverKit.tried s.lock s.lock.tryRead)) = some r) :
    Agrees .driverKit r.2 := by
  rcases acquire_tried hr with heq | ⟨lock', htake, heq⟩
  · exact heq ▸ hs
  · rw [heq] at he ⊢
    exact hs.read htake he fun hport => by cases hport

theorem Agrees.untoldRead (hs : Agrees port s) (hzero : writers s.holds = 0)
    (hr : s.acquire (c, .read) (some (Kernel.untold s.lock s.lock.tryRead)) = some r) :
    Agrees port r.2 := by
  obtain ⟨lock', htake⟩ := hs.counts.tryRead_of_no_writer hzero
  rw [Kernel.untold, htake] at hr
  cases hr
  exact hs.read htake (exclusive_cons_read.2 hzero) fun _ => rfl

theorem Agrees.untoldWrite (hs : Agrees port s) (hnil : s.holds = [])
    (hr : s.acquire (c, .write) (some (Kernel.untold s.lock s.lock.tryWrite)) = some r) :
    Agrees port r.2 := by
  have htake := (hnil ▸ hs.counts).tryWrite_of_nil
  rw [Kernel.untold, htake] at hr
  cases hr
  exact hs.write htake

theorem Agrees.released [DecidableEq κ] (hs : Agrees port s) (hmem : h ∈ s.holds)
    (hr : s.release h s.lock.unlock = some r) : Agrees port r.2 := by
  obtain ⟨lock', hlock, rfl⟩ := Option.map_eq_some_iff.1 hr
  exact hs.release hmem hlock

end acquire

theorem agrees_next [DecidableEq κ] (hs : Agrees port s) (hlegal : RwLegal s l)
    (hclear : TriesClear port s l) {r : Option NvStatus × RwState κ}
    (hr : rwCall port.rwOps s l = some r) : Agrees port r.2 := by
  have he : Exclusive r.2.holds := (leavesExclusive_iff hs hlegal).2 hclear r hr
  cases port with
  | driverKit =>
    cases l with
    | acquireRead c => exact hs.acquireRead he hr
    | acquireWrite c => exact hs.acquireWrite hr
    | condAcquireRead c => exact hs.tried he hr
    | condAcquireWrite c => exact hs.tried he hr
    | releaseRead c => exact hs.released hlegal hr
    | releaseWrite c => exact hs.released hlegal hr
  | kernel =>
    cases l with
    | acquireRead c => exact hs.acquireRead he hr
    | acquireWrite c => exact hs.acquireWrite hr
    | condAcquireRead c => exact hs.untoldRead (hclear.resolve_left fun h => by cases h.1) hr
    | condAcquireWrite c => exact hs.untoldWrite (hclear.resolve_left fun h => by cases h.1) hr
    | releaseRead c => exact hs.released hlegal hr
    | releaseWrite c => exact hs.released hlegal hr

theorem agrees_free : Agrees port (.free : RwState κ) :=
  ⟨.inl rfl, .inr rfl, fun _ => .inr rfl⟩

end

/-- In both ports, a run in which clients release what they hold keeps readers and writers apart
exactly when its conditional acquires are clear. -/
theorem rwRun_exclusive_iff (κ : Type) [DecidableEq κ] (port : Port) (calls : List (RwCall κ))
    (hlegal : (rwMachine κ port).Along (fun s l _ => RwLegal s l) .free calls) :
    (rwMachine κ port).Along (fun _ _ a => LeavesExclusive a) .free calls ↔
      (rwMachine κ port).Along (fun s l _ => TriesClear port s l) .free calls := by
  refine Machine.along_iff_of_legal (I := Agrees port) (fun s l => leavesExclusive_iff) ?_
    agrees_free hlegal
  intro s l hs hlegal hclear s' hs'
  obtain ⟨r, hr, rfl⟩ := Option.map_eq_some_iff.1 hs'
  exact agrees_next hs hlegal hclear hr

def readThenWrite : List (RwCall Nat) :=
  [.condAcquireRead 0, .releaseRead 0, .condAcquireWrite 1, .releaseWrite 1]

theorem rwRun_exclusive_readThenWrite :
    (rwMachine Nat .kernel).Along (fun _ _ a => LeavesExclusive a) .free readThenWrite :=
  (rwRun_exclusive_iff Nat .kernel readThenWrite (by decide)).2 (by decide)

/-- A writer acquires beside a reader: in the DriverKit port with a read lock, in the kernel port
without any. -/
theorem rwRun_writer_beside_reader :
    (∃ s, (rwMachine Nat .driverKit).after .free [.condAcquireRead 0, .condAcquireWrite 1] = some s ∧
      s.lock = .shared 2 ∧ s.holds = [(1, .write), (0, .read)] ∧ ¬ Exclusive s.holds) ∧
    (∃ s, (rwMachine Nat .kernel).after .free [.condAcquireRead 0, .condAcquireWrite 1] = some s ∧
      s.lock = .shared 1 ∧ s.holds = [(1, .write), (0, .read)] ∧ ¬ Exclusive s.holds) := by
  refine ⟨⟨_, rfl, rfl, rfl, fun h => ?_⟩, ⟨_, rfl, rfl, rfl, fun h => ?_⟩⟩
  all_goals cases exclusive_cons_write.1 h

end NVMac
