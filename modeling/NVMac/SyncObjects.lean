import NVMac.Semaphores
import NVMac.Lib.Objects
import NVMac.Lib.Outcome
import NVMac.Lib.Registry

/-!
# The life of synchronisation objects (`libc_driverkit.cpp`, `libc_kernel.cpp`, `libc.cpp`, `debug.cpp`)

Seven functions make a primitive, or a block of memory for one, and hand it out; their counterparts
take it back. To give back a lock or a block that is not there fails the run. To destroy a semaphore
that is not there fails too, but with a status that the library drops, and the run goes on. Locks that
are kept in a block go with it.
-/

namespace NVMac.SyncObjects
open Objects Outcome Registry

/-- What is in a block: nothing yet, zeros, an initialised `pthread_rwlock_t`, or a semaphore's name. -/
inductive Content
  | raw | zeroed | rwlock
  | name (semaphore : NvU64)
deriving DecidableEq, Repr

inductive Object
  | block (size : Nat) (content : Content)
  | simpleLock | lock | rwLock | semaphore
deriving DecidableEq, Repr

/-- A `semaphore_t` of the kernel is the address of the semaphore; that of a process is the name of a
port, which is no address of the process. -/
abbrev Live := NvU64 → Option Object

def sizeofUnfairLock : Nat := 4

def sizeofRwlock : Nat := 200

def sizeofSemaphore : Nat := 8

def found {β : Type} (e : Fault) : Option β → Except Fault β
  | some x => .ok x
  | none => .error e

def ioFree (m : Live) (ptr : NvU64) (size : Nat) : Except Fault Live :=
  found .overRelease (release (fun | .block n _ => n == size | _ => false) m ptr)

/-- `IOLockFree` and its like. -/
def lockFree (o : Object) (m : Live) (ptr : NvU64) : Except Fault Live :=
  found .wrongClass (release (· == o) m ptr)

def pthreadRwlockInit (m : Live) (rwlock : NvU64) : Except Fault Live :=
  match m rwlock with
  | some (.block n _) => .ok (Function.update m rwlock (some (.block n .rwlock)))
  | _ => .error .nullDereference

/-- A negative `int` makes no semaphore, nor does the answer 0; else the name goes into the cell. -/
def semaphoreCreate (m : Live) (semaphore : NvU64) (value : NvU32) (answer : NvU64) : Except Fault Live :=
  match m semaphore with
  | some (.block n _) =>
    if value.toInt < 0 ∨ answer = 0 then .ok m
    else .ok (Function.update (Function.update m semaphore (some (.block n (.name answer)))) answer (some .semaphore))
  | _ => .error .nullDereference

def semaphoreDestroy (m : Live) (semaphore : NvU64) : KernReturn × Live :=
  match release (· == .semaphore) m semaphore with
  | some m => (.success, m)
  | none => (.invalidArgument, m)

/-! ### The functions -/

/-- The status, what is in the caller's pointer afterwards, and what is left. -/
abbrev Stored := Except Fault (NvStatus × NvU64 × Live)

/-- `lock` is what `IOLockAlloc` answers. It goes nowhere. -/
def allocMutex (m : Live) (ppMutex lock : NvU64) : Stored :=
  let m := create 0 m lock .lock
  if lock = 0 then .ok (.errNoMemory, ppMutex, m) else .ok (.ok, ppMutex, m)

namespace DriverKit

def osAllocSpinlock (m : Live) (_ppSpinlock spinlock : NvU64) : Stored :=
  .ok (.ok, spinlock, create 0 m spinlock (.block sizeofUnfairLock .zeroed))

def osFreeSpinlock (m : Live) (pSpinlock : NvU64) : Except Fault Live := ioFree m pSpinlock sizeofUnfairLock

def osAllocMutex (m : Live) (ppMutex lock : NvU64) : Stored := allocMutex m ppMutex lock

def osFreeMutex (m : Live) (pMutex : NvU64) : Except Fault Live := lockFree .lock m pMutex

def osAllocRwlock (m : Live) (rwlock : NvU64) : Except Fault (NvU64 × Live) := do
  let m ← pthreadRwlockInit (create 0 m rwlock (.block sizeofRwlock .raw)) rwlock
  pure (rwlock, m)

def osFreeRwlock (m : Live) (pRwLock : NvU64) : Except Fault Live := ioFree m pRwLock sizeofRwlock

end DriverKit

namespace Kernel

def osAllocSpinlock (m : Live) (_ppSpinlock spinlock : NvU64) : Stored :=
  let m := create 0 m spinlock .simpleLock
  if spinlock = 0 then .ok (.errNoMemory, spinlock, m) else .ok (.ok, spinlock, m)

def osFreeSpinlock (m : Live) (pSpinlock : NvU64) : Except Fault Live := lockFree .simpleLock m pSpinlock

def osAllocMutex (m : Live) (ppMutex lock : NvU64) : Stored := allocMutex m ppMutex lock

def osFreeMutex (m : Live) (pMutex : NvU64) : Except Fault Live := lockFree .lock m pMutex

def osAllocRwlock (m : Live) (rwlock : NvU64) : Except Fault (NvU64 × Live) := .ok (rwlock, create 0 m rwlock .rwLock)

def osFreeRwlock (m : Live) (pRwLock : NvU64) : Except Fault Live := lockFree .rwLock m pRwLock

end Kernel

/-- `semaphore` is what `IOMalloc` answers, `name` the semaphore that can be made. -/
def osAllocSemaphore (m : Live) (initialValue : NvU32) (semaphore name : NvU64) : Except Fault (NvU64 × Live) := do
  let m ← semaphoreCreate (create 0 m semaphore (.block sizeofSemaphore .raw)) semaphore initialValue name
  pure (semaphore, m)

/-- The status of the destruction is dropped. -/
def osFreeSemaphore (m : Live) (pSema : NvU64) : Except Fault Live :=
  ioFree (semaphoreDestroy m pSema).2 pSema sizeofSemaphore

/-- `message` is an array on the stack, and `length` what `vsnprintf` answers. -/
def nvLogError (m : Live) (message : NvU64) (length : Nat) : Except Fault (NvStatus × Live) := do
  let m ← ioFree m message length
  pure (.ok, m)

/-! ### Runs -/

inductive SyncKind
  | spinlock | mutex | rwlock | semaphore
deriving DecidableEq, Repr

structure SyncOps where
  allocSpinlock : Live → NvU64 → NvU64 → Stored
  freeSpinlock : Live → NvU64 → Except Fault Live
  allocMutex : Live → NvU64 → NvU64 → Stored
  freeMutex : Live → NvU64 → Except Fault Live
  allocRwlock : Live → NvU64 → Except Fault (NvU64 × Live)
  freeRwlock : Live → NvU64 → Except Fault Live

def syncOps : Port → SyncOps
  | .driverKit => ⟨DriverKit.osAllocSpinlock, DriverKit.osFreeSpinlock, DriverKit.osAllocMutex,
      DriverKit.osFreeMutex, DriverKit.osAllocRwlock, DriverKit.osFreeRwlock⟩
  | .kernel => ⟨Kernel.osAllocSpinlock, Kernel.osFreeSpinlock, Kernel.osAllocMutex, Kernel.osFreeMutex,
      Kernel.osAllocRwlock, Kernel.osFreeRwlock⟩

/-- What is there, the kinds of the handles that were delivered and not yet freed, and how many
destructions were of no semaphore and came back with a status that no one looked at. -/
structure SyncRun where
  live : Live
  handles : NvU64 → Option SyncKind
  refused : Nat

def SyncRun.empty : SyncRun := ⟨fun _ => none, fun _ => none, 0⟩

/-- `old` is what the caller's pointer holds before; the other numbers are the answers of the system. -/
inductive SyncCall
  | allocSpinlock (old spinlock : NvU64)
  | allocMutex (old lock : NvU64)
  | allocRwlock (rwlock : NvU64)
  | allocSemaphore (initialValue : NvU32) (semaphore name : NvU64)
  | free (kind : SyncKind) (handle : NvU64)
  | logError (message : NvU64) (length : Nat)

/-- An allocation says whether it succeeded, and delivers a handle. -/
structure Report where
  kind : SyncKind
  success : Bool
  handle : NvU64

abbrev SyncResult := Except Fault (Option Report × SyncRun)

def SyncRun.deliver (r : SyncRun) (kind : SyncKind) (success : Bool) (handle : NvU64) (m : Live) :
    Option Report × SyncRun :=
  (some ⟨kind, success, handle⟩,
    { r with live := m, handles := if success then Function.update r.handles handle (some kind) else r.handles })

/-- `NV_OK` is success. -/
def SyncRun.stored (r : SyncRun) (kind : SyncKind) (result : Stored) : SyncResult :=
  result.map fun (status, handle, m) => r.deliver kind (status = .ok) handle m

/-- A pointer that is not `NULL` is success. -/
def SyncRun.returned (r : SyncRun) (kind : SyncKind) (result : Except Fault (NvU64 × Live)) : SyncResult :=
  result.map fun (handle, m) => r.deliver kind (handle ≠ 0) handle m

def SyncOps.free (ops : SyncOps) (m : Live) (handle : NvU64) : SyncKind → Except Fault Live
  | .spinlock => ops.freeSpinlock m handle
  | .mutex => ops.freeMutex m handle
  | .rwlock => ops.freeRwlock m handle
  | .semaphore => osFreeSemaphore m handle

/-- The destructions of a free that fail. -/
def refusals (m : Live) (handle : NvU64) : SyncKind → Nat
  | .semaphore => if (semaphoreDestroy m handle).1 = .success then 0 else 1
  | _ => 0

def syncCall (ops : SyncOps) (r : SyncRun) : SyncCall → SyncResult
  | .allocSpinlock old spinlock => r.stored .spinlock (ops.allocSpinlock r.live old spinlock)
  | .allocMutex old lock => r.stored .mutex (ops.allocMutex r.live old lock)
  | .allocRwlock rwlock => r.returned .rwlock (ops.allocRwlock r.live rwlock)
  | .allocSemaphore initialValue semaphore name =>
    r.returned .semaphore (osAllocSemaphore r.live initialValue semaphore name)
  | .free kind handle =>
    (ops.free r.live handle kind).map fun m =>
      (none, ⟨m, Function.update r.handles handle none, r.refused + refusals r.live handle kind⟩)
  | .logError message length =>
    (nvLogError r.live message length).map fun (_, m) => (none, { r with live := m })

def syncMachine (port : Port) : Machine SyncRun SyncCall SyncResult where
  call := syncCall (syncOps port)
  next result := result.toOption.map (·.2)

/-- What a handle is the address of, but for a semaphore. -/
def lockObject : Port → SyncKind → Option Object
  | .driverKit, .spinlock => some (.block sizeofUnfairLock .zeroed)
  | .kernel, .spinlock => some .simpleLock
  | _, .mutex => some .lock
  | .driverKit, .rwlock => some (.block sizeofRwlock .rwlock)
  | .kernel, .rwlock => some .rwLock
  | _, .semaphore => none

/-- The cell holds the name. -/
def Names (m : Live) (cell name : NvU64) : Prop := m cell = some (.block sizeofSemaphore (.name name))

/-- The handle is a live primitive of the kind. -/
def Denotes (port : Port) (kind : SyncKind) (m : Live) (handle : NvU64) : Prop :=
  match lockObject port kind with
  | some o => m handle = some o
  | none => ∃ name, Names m handle name ∧ m name = some .semaphore

/-- Each primitive is called on what it is for. An allocation reports success exactly if its handle is
a new primitive, and leaves nothing else. Without handles, nothing is left. -/
def Accounted (port : Port) (r : SyncRun) : SyncResult → Prop
  | .error _ => False
  | .ok (report?, r') =>
    (∀ report, report? = some report →
      (report.success = true ↔ r.live report.handle = none ∧ Denotes port report.kind r'.live report.handle) ∧
      (report.success = false → r'.live = r.live)) ∧
    r'.refused = r.refused ∧ ((∀ x, r'.handles x = none) → ∀ x, r'.live x = none)

/-- The system makes nothing where something is, and handles are freed as what they are. -/
def SyncLegal (r : SyncRun) : SyncCall → Prop
  | .allocSpinlock _ a | .allocMutex _ a | .allocRwlock a => r.live a = none
  | .allocSemaphore _ semaphore name => r.live semaphore = none ∧ r.live name = none ∧ (name ≠ 0 → name ≠ semaphore)
  | .free kind handle => r.handles handle = some kind
  | .logError message _ => r.live message = none

/-- The calls that the library gets right: what is checked must not fail, a lock must be where the
caller's pointer already points, and semaphores are not freed. -/
def Sound (port : Port) : SyncCall → Prop
  | .allocSpinlock _ a | .allocRwlock a => port = .driverKit → a ≠ 0
  | .allocMutex old lock => lock ≠ 0 → old = lock
  | .allocSemaphore initialValue semaphore name => semaphore ≠ 0 ∧ 0 ≤ initialValue.toInt ∧ name ≠ 0
  | .free kind _ => kind ≠ .semaphore
  | .logError .. => False

/-- All that is there is what a handle denotes, and the semaphores named in cells. -/
structure Owned (port : Port) (r : SyncRun) : Prop where
  null : r.live 0 = none
  held : ∀ h kind, r.handles h = some kind → Denotes port kind r.live h
  owned : ∀ x, r.live x ≠ none → ∃ h kind, r.handles h = some kind ∧ (x = h ∨ (kind = .semaphore ∧ Names r.live h x))

section
variable {port : Port} {r : SyncRun} {l : SyncCall} {m m' : Live} {kind : SyncKind} {h x a : NvU64} {o : Object}

theorem Names.mono (hext : Extends m m') (hname : Names m h x) : Names m' h x := hext h _ hname

theorem Denotes.mono (hext : Extends m m') (hh : Denotes port kind m h) : Denotes port kind m' h := by
  unfold Denotes at hh ⊢
  cases hobject : lockObject port kind with
  | some o =>
    rw [hobject] at hh
    exact hext h o hh
  | none =>
    rw [hobject] at hh
    obtain ⟨name, hname, hsem⟩ := hh
    exact ⟨name, hname.mono hext, hext name _ hsem⟩

theorem Denotes.ne_none (hh : Denotes port kind m h) : m h ≠ none := by
  unfold Denotes at hh
  cases hobject : lockObject port kind with
  | some o =>
    rw [hobject] at hh
    rw [hh]
    nofun
  | none =>
    rw [hobject] at hh
    obtain ⟨name, hname, -⟩ := hh
    rw [hname]
    nofun

theorem lockObject_semaphore (port : Port) : lockObject port .semaphore = none := by cases port <;> rfl

theorem semaphoreDestroy_of_mismatch (hh : m h = some o) (ho : (o == .semaphore) = false) :
    semaphoreDestroy m h = (.invalidArgument, m) := by
  rw [semaphoreDestroy, release_of_mismatch hh ho]

theorem refusals_of_ne (hkind : kind ≠ .semaphore) : refusals m h kind = 0 := by
  cases kind with
  | semaphore => exact absurd rfl hkind
  | spinlock | mutex | rwlock => rfl

theorem found_release {e : Fault} {matching : Object → Bool} (hh : m h = some o) (ho : matching o = true) :
    found e (release matching m h) = .ok (Function.update m h none) := by
  rw [release_of_eq hh ho]
  rfl

/-- Each lock has an object of its own, which is no semaphore. -/
theorem exists_lockObject (port : Port) (hkind : kind ≠ .semaphore) :
    ∃ o, lockObject port kind = some o ∧ o ≠ .semaphore ∧
      ∀ m h, m h = some o → (syncOps port).free m h kind = .ok (Function.update m h none) := by
  cases kind with
  | semaphore => exact absurd rfl hkind
  | spinlock =>
    cases port with
    | driverKit => exact ⟨_, rfl, nofun, fun _ _ hh => found_release hh (by decide)⟩
    | kernel => exact ⟨_, rfl, nofun, fun _ _ hh => found_release hh (by decide)⟩
  | mutex =>
    cases port with
    | driverKit => exact ⟨_, rfl, nofun, fun _ _ hh => found_release hh (by decide)⟩
    | kernel => exact ⟨_, rfl, nofun, fun _ _ hh => found_release hh (by decide)⟩
  | rwlock =>
    cases port with
    | driverKit => exact ⟨_, rfl, nofun, fun _ _ hh => found_release hh (by decide)⟩
    | kernel => exact ⟨_, rfl, nofun, fun _ _ hh => found_release hh (by decide)⟩

theorem Owned.empty (port : Port) : Owned port .empty where
  null := rfl
  held := nofun
  owned := fun _ hx => absurd rfl hx

theorem Owned.nothing_left (hr : Owned port r) (hhandles : ∀ x, r.handles x = none) : ∀ x, r.live x = none := by
  intro x
  by_contra hx
  obtain ⟨h, kind, hh, -⟩ := hr.owned x hx
  rw [hhandles h] at hh
  cases hh

/-- A new handle, with what it denotes. -/
theorem Owned.deliver (hr : Owned port r) (hext : Extends r.live m) (hdenotes : Denotes port kind m a)
    (hnull : m 0 = none)
    (honly : ∀ x, m x ≠ none → r.live x ≠ none ∨ x = a ∨ (kind = .semaphore ∧ Names m a x))
    (hnew : r.live a = none) : Owned port (r.deliver kind true a m).2 where
  null := hnull
  held := by
    intro h kind' hh
    rcases update_apply_eq_iff.mp hh with ⟨rfl, hkind⟩ | ⟨-, hold⟩
    · cases hkind
      exact hdenotes
    · exact (hr.held h kind' hold).mono hext
  owned := by
    have hkept : ∀ h kind', r.handles h = some kind' → (r.deliver kind true a m).2.handles h = some kind' := by
      intro h kind' hh
      have hne : h ≠ a := by
        rintro rfl
        exact (hr.held h kind' hh).ne_none hnew
      exact (Function.update_of_ne hne _ _).trans hh
    intro x hx
    rcases honly x hx with hold | hself | hname
    · obtain ⟨h, kind', hh, hx'⟩ := hr.owned x hold
      exact ⟨h, kind', hkept h kind' hh, hx'.imp_right fun hx' => ⟨hx'.1, hx'.2.mono hext⟩⟩
    · exact ⟨a, kind, Function.update_self .., .inl hself⟩
    · exact ⟨a, kind, Function.update_self .., .inr hname⟩

/-- A handle goes, with its object. -/
theorem Owned.free (hr : Owned port r) (hh : r.handles h = some kind) (ho : r.live h = some o)
    (hobject : lockObject port kind = some o) (hsem : o ≠ .semaphore) :
    Owned port ⟨Function.update r.live h none, Function.update r.handles h none, r.refused⟩ where
  null := by
    have hne : (0 : NvU64) ≠ h := by
      rintro rfl
      rw [hr.null] at ho
      cases ho
    exact (Function.update_of_ne hne _ _).trans hr.null
  held := by
    intro h' kind' hh'
    obtain ⟨hne, hold⟩ := apply_of_update_eq hh' nofun
    have hdenotes := hr.held h' kind' hold
    unfold Denotes at hdenotes ⊢
    cases hobject' : lockObject port kind' with
    | some o' =>
      rw [hobject'] at hdenotes
      exact (Function.update_of_ne hne _ _).trans hdenotes
    | none =>
      rw [hobject'] at hdenotes
      obtain ⟨name, hname, hlive⟩ := hdenotes
      have hne' : name ≠ h := by
        rintro rfl
        rw [ho] at hlive
        exact hsem (Option.some.inj hlive)
      exact ⟨name, (Function.update_of_ne hne _ _).trans hname, (Function.update_of_ne hne' _ _).trans hlive⟩
  owned := by
    intro x hx
    have hne : x ≠ h := by
      rintro rfl
      exact hx (Function.update_self ..)
    have hold : r.live x ≠ none := fun hnone => hx ((Function.update_of_ne hne _ _).trans hnone)
    obtain ⟨h', kind', hh', hx'⟩ := hr.owned x hold
    have hne' : h' ≠ h := by
      rintro rfl
      obtain rfl : kind = kind' := Option.some.inj (hh.symm.trans hh')
      rcases hx' with hx' | ⟨rfl, -⟩
      · exact hne hx'
      · rw [lockObject_semaphore] at hobject
        cases hobject
    exact ⟨h', kind', (Function.update_of_ne hne' _ _).trans hh', hx'.imp_right fun hx' =>
      ⟨hx'.1, (Function.update_of_ne hne' _ _).trans hx'.2⟩⟩

/-! ### What one call does -/

theorem accounted_success_iff :
    Accounted port r (.ok (r.deliver kind true a m)) ↔ r.live a = none ∧ Denotes port kind m a := by
  constructor
  · intro h
    exact (h.1 _ rfl).1.mp rfl
  · intro h
    refine ⟨?_, rfl, fun hhandles => ?_⟩
    · rintro report ⟨⟩
      exact ⟨iff_of_true rfl h, nofun⟩
    · have hself : Function.update r.handles a (some kind) a = none := hhandles a
      rw [Function.update_self] at hself
      cases hself

theorem Owned.accounted_failure (hr : Owned port r) : Accounted port r (.ok (r.deliver kind false a r.live)) := by
  refine ⟨?_, rfl, hr.nothing_left⟩
  rintro report ⟨⟩
  exact ⟨iff_of_false Bool.false_ne_true fun h => h.2.ne_none h.1, fun _ => rfl⟩

/-- A lock is made, and handed out. -/
theorem Owned.created (hr : Owned port r) (hnew : r.live a = none) (hne : a ≠ 0)
    (hobject : lockObject port kind = some o) :
    Accounted port r (.ok (r.deliver kind true a (Function.update r.live a (some o)))) ∧
      Owned port (r.deliver kind true a (Function.update r.live a (some o))).2 := by
  have hdenotes : Denotes port kind (Function.update r.live a (some o)) a := by
    rw [Denotes, hobject]
    exact Function.update_self ..
  refine ⟨accounted_success_iff.mpr ⟨hnew, hdenotes⟩, hr.deliver (extends_update hnew) hdenotes ?_ ?_ hnew⟩
  · rw [Function.update_of_ne hne.symm, hr.null]
  · intro x hx
    by_cases hxa : x = a
    · exact .inr (.inl hxa)
    · rw [Function.update_of_ne hxa] at hx
      exact .inl hx

/-- What a call owes: it is accounted for exactly if it is sound, and keeps the invariant if so. -/
def Meets (port : Port) (r : SyncRun) (l : SyncCall) (result : SyncResult) : Prop :=
  (Accounted port r result ↔ Sound port l) ∧
    (Sound port l → ∀ answer, result = .ok answer → Owned port answer.2)

theorem Meets.of_sound (hl : Sound port l) {answer : Option Report × SyncRun}
    (h : Accounted port r (.ok answer) ∧ Owned port answer.2) : Meets port r l (.ok answer) := by
  refine ⟨iff_of_true h.1 hl, fun _ answer' heq => ?_⟩
  cases heq
  exact h.2

theorem Meets.of_not_sound (hl : ¬ Sound port l) {result : SyncResult} (h : ¬ Accounted port r result) :
    Meets port r l result := ⟨iff_of_false h hl, fun hl' => absurd hl' hl⟩

theorem Owned.not_denotes_null (hr : Owned port r) : ¬ Denotes port kind r.live 0 := fun h => h.ne_none hr.null

theorem allocSpinlock_meets (hr : Owned port r) (old : NvU64) (hnew : r.live a = none) :
    Meets port r (.allocSpinlock old a) (syncCall (syncOps port) r (.allocSpinlock old a)) := by
  by_cases hnull : a = 0
  · subst hnull
    cases port with
    | driverKit =>
      have hnot : ¬ Sound .driverKit (.allocSpinlock old 0) := fun h => h rfl rfl
      refine .of_not_sound hnot ?_
      show ¬ Accounted .driverKit r (.ok (r.deliver .spinlock true 0 (create 0 r.live 0 _)))
      rw [create_null, accounted_success_iff]
      exact fun h => hr.not_denotes_null h.2
    | kernel =>
      have hsound : Sound .kernel (.allocSpinlock old 0) := nofun
      show Meets _ r _ (.ok (r.deliver .spinlock false 0 (create 0 r.live 0 _)))
      rw [create_null]
      exact .of_sound hsound ⟨hr.accounted_failure, hr⟩
  · have hsound : Sound port (.allocSpinlock old a) := fun _ => hnull
    cases port with
    | driverKit =>
      show Meets _ r _ (.ok (r.deliver .spinlock true a (create 0 r.live a _)))
      rw [create_of_ne hnull]
      exact .of_sound hsound (hr.created hnew hnull rfl)
    | kernel =>
      have hcall : syncCall (syncOps .kernel) r (.allocSpinlock old a) =
          .ok (r.deliver .spinlock true a (create 0 r.live a .simpleLock)) := by
        show r.stored .spinlock (if a = 0 then _ else _) = _
        rw [if_neg hnull]
        rfl
      rw [hcall, create_of_ne hnull]
      exact .of_sound hsound (hr.created hnew hnull rfl)

theorem allocMutex_meets (hr : Owned port r) (old : NvU64) (hnew : r.live a = none) :
    Meets port r (.allocMutex old a) (syncCall (syncOps port) r (.allocMutex old a)) := by
  have hcall : syncCall (syncOps port) r (.allocMutex old a) = r.stored .mutex (allocMutex r.live old a) := by
    cases port <;> rfl
  have hobject : lockObject port .mutex = some .lock := by cases port <;> rfl
  rw [hcall, allocMutex]
  by_cases hnull : a = 0
  · subst hnull
    have hsound : Sound port (.allocMutex old 0) := fun h => absurd rfl h
    rw [create_null]
    exact .of_sound hsound ⟨hr.accounted_failure, hr⟩
  · rw [create_of_ne hnull]
    show Meets port r _ (r.stored .mutex (if a = 0 then _ else _))
    rw [if_neg hnull]
    show Meets port r _ (.ok (r.deliver .mutex true old _))
    by_cases hold : old = a
    · subst hold
      have hsound : Sound port (.allocMutex old old) := fun _ => rfl
      exact .of_sound hsound (hr.created hnew hnull hobject)
    · have hnot : ¬ Sound port (.allocMutex old a) := fun h => hold (h hnull)
      refine .of_not_sound hnot ?_
      rw [accounted_success_iff]
      rintro ⟨hnone, hdenotes⟩
      refine hdenotes.ne_none ?_
      rw [Function.update_of_ne hold, hnone]

theorem allocRwlock_meets (hr : Owned port r) (hnew : r.live a = none) :
    Meets port r (.allocRwlock a) (syncCall (syncOps port) r (.allocRwlock a)) := by
  cases port with
  | driverKit =>
    show Meets _ r _ (r.returned .rwlock (pthreadRwlockInit (create 0 r.live a _) a >>= _))
    by_cases hnull : a = 0
    · subst hnull
      have hnot : ¬ Sound .driverKit (.allocRwlock 0) := fun h => h rfl rfl
      refine .of_not_sound hnot ?_
      rw [create_null, pthreadRwlockInit, hr.null]
      exact id
    · have hinit : pthreadRwlockInit (create 0 r.live a (.block sizeofRwlock .raw)) a =
          .ok (Function.update r.live a (some (.block sizeofRwlock .rwlock))) := by
        rw [create_of_ne hnull, pthreadRwlockInit, Function.update_self]
        show Except.ok (Function.update (Function.update _ _ _) _ _) = _
        rw [Function.update_idem]
      rw [hinit]
      show Meets _ r _ (.ok (r.deliver .rwlock (a ≠ 0) a _))
      have hsound : Sound .driverKit (.allocRwlock a) := fun _ => hnull
      rw [decide_eq_true hnull]
      exact .of_sound hsound (hr.created hnew hnull rfl)
  | kernel =>
    show Meets _ r _ (.ok (r.deliver .rwlock (a ≠ 0) a (create 0 r.live a _)))
    by_cases hnull : a = 0
    · subst hnull
      have hsound : Sound .kernel (.allocRwlock 0) := nofun
      rw [create_null]
      exact .of_sound hsound ⟨hr.accounted_failure, hr⟩
    · have hsound : Sound .kernel (.allocRwlock a) := fun _ => hnull
      rw [create_of_ne hnull, decide_eq_true hnull]
      exact .of_sound hsound (hr.created hnew hnull rfl)

theorem allocSemaphore_meets (hr : Owned port r) {initialValue : NvU32} {cell name : NvU64}
    (hl : SyncLegal r (.allocSemaphore initialValue cell name)) :
    Meets port r (.allocSemaphore initialValue cell name)
      (syncCall (syncOps port) r (.allocSemaphore initialValue cell name)) := by
  obtain ⟨hcell, hname, hne⟩ := hl
  show Meets _ r _ (r.returned .semaphore (semaphoreCreate (create 0 r.live cell _) cell initialValue name >>= _))
  by_cases hnull : cell = 0
  · subst hnull
    have hnot : ¬ Sound port (.allocSemaphore initialValue 0 name) := fun h => h.1 rfl
    refine .of_not_sound hnot ?_
    rw [create_null, semaphoreCreate, hr.null]
    exact id
  rw [create_of_ne hnull, semaphoreCreate, Function.update_self]
  show Meets _ r _ (r.returned .semaphore ((if initialValue.toInt < 0 ∨ name = 0 then _ else _) >>= _))
  by_cases hfail : initialValue.toInt < 0 ∨ name = 0
  · -- The cell is handed out, and no semaphore.
    rw [if_pos hfail]
    refine .of_not_sound ?_ ?_
    · rintro ⟨-, hvalue, hname⟩
      rcases hfail with hneg | hzero
      · exact absurd hvalue (Int.not_le.mpr hneg)
      · exact hname hzero
    · show ¬ Accounted port r (.ok (r.deliver .semaphore (cell ≠ 0) cell _))
      rw [decide_eq_true hnull, accounted_success_iff, Denotes, lockObject_semaphore]
      rintro ⟨-, name', hname', -⟩
      rw [Names, Function.update_self] at hname'
      cases hname'
  · obtain ⟨hvalue, hzero⟩ := not_or.mp hfail
    have hsound : Sound port (.allocSemaphore initialValue cell name) := ⟨hnull, Int.not_lt.mp hvalue, hzero⟩
    rw [if_neg hfail, Function.update_idem]
    show Meets _ r _ (.ok (r.deliver .semaphore (cell ≠ 0) cell _))
    rw [decide_eq_true hnull]
    have hlive : Names (Function.update (Function.update r.live cell (some (.block sizeofSemaphore (.name name))))
        name (some .semaphore)) cell name :=
      (Function.update_of_ne (hne hzero).symm _ _).trans (Function.update_self ..)
    have hdenotes : Denotes port .semaphore (Function.update (Function.update r.live cell
        (some (.block sizeofSemaphore (.name name)))) name (some .semaphore)) cell := by
      rw [Denotes, lockObject_semaphore]
      exact ⟨name, hlive, Function.update_self ..⟩
    have hname' : Function.update r.live cell (some (.block sizeofSemaphore (.name name))) name = none := by
      rw [Function.update_of_ne (hne hzero), hname]
    refine .of_sound hsound ⟨accounted_success_iff.mpr ⟨hcell, hdenotes⟩,
      hr.deliver ((extends_update hcell).trans (extends_update hname')) hdenotes ?_ ?_ hcell⟩
    · rw [Function.update_of_ne (Ne.symm hzero), Function.update_of_ne (Ne.symm hnull), hr.null]
    · intro x hx
      by_cases hxname : x = name
      · subst hxname
        exact .inr (.inr ⟨rfl, hlive⟩)
      by_cases hxcell : x = cell
      · exact .inr (.inl hxcell)
      · rw [Function.update_of_ne hxname, Function.update_of_ne hxcell] at hx
        exact .inl hx

theorem free_meets (hr : Owned port r) (hh : r.handles h = some kind) :
    Meets port r (.free kind h) (syncCall (syncOps port) r (.free kind h)) := by
  have hdenotes := hr.held h kind hh
  by_cases hkind : kind = .semaphore
  · -- The cell is no semaphore, so the call comes back with the cell freed and the semaphore left.
    subst hkind
    have hnot : ¬ Sound port (.free .semaphore h) := fun hs => hs rfl
    refine .of_not_sound hnot ?_
    rw [Denotes, lockObject_semaphore] at hdenotes
    obtain ⟨name, hname, -⟩ := hdenotes
    have hdestroy : semaphoreDestroy r.live h = (.invalidArgument, r.live) := semaphoreDestroy_of_mismatch hname rfl
    have hfree : osFreeSemaphore r.live h = .ok (Function.update r.live h none) := by
      rw [osFreeSemaphore, hdestroy]
      exact found_release hname rfl
    have hrefused : refusals r.live h .semaphore = 1 := by
      rw [refusals, hdestroy]
      rfl
    show ¬ Accounted port r ((osFreeSemaphore r.live h).map _)
    rw [hfree, hrefused]
    exact fun haccounted => Nat.succ_ne_self _ haccounted.2.1
  · obtain ⟨o, hobject, hsem, hfree⟩ := exists_lockObject port hkind
    rw [Denotes, hobject] at hdenotes
    have howned := hr.free hh hdenotes hobject hsem
    show Meets port r _ (((syncOps port).free r.live h kind).map _)
    rw [hfree r.live h hdenotes, refusals_of_ne hkind]
    have hsound : Sound port (.free kind h) := hkind
    refine .of_sound hsound ⟨⟨?_, rfl, howned.nothing_left⟩, howned⟩
    rintro report ⟨⟩

theorem logError_meets {message : NvU64} (length : Nat) (hl : r.live message = none) :
    Meets port r (.logError message length) (syncCall (syncOps port) r (.logError message length)) := by
  have hnot : ¬ Sound port (.logError message length) := id
  refine .of_not_sound hnot ?_
  show ¬ Accounted port r (Except.map _ (found .overRelease (release _ r.live message) >>= _))
  rw [release_of_none hl]
  exact id

theorem syncCall_meets (hr : Owned port r) (hl : SyncLegal r l) : Meets port r l (syncCall (syncOps port) r l) := by
  cases l with
  | allocSpinlock old spinlock => exact allocSpinlock_meets hr old hl
  | allocMutex old lock => exact allocMutex_meets hr old hl
  | allocRwlock rwlock => exact allocRwlock_meets hr hl
  | allocSemaphore initialValue cell name => exact allocSemaphore_meets hr hl
  | free kind handle => exact free_meets hr hl
  | logError message length => exact logError_meets length hl

end

/-- In both ports a run accounts for all that it makes exactly if its calls are sound. -/
theorem syncRun_accounted_iff (port : Port) (calls : List SyncCall)
    (hlegal : (syncMachine port).Along (fun r l _ => SyncLegal r l) .empty calls) :
    (syncMachine port).Along (fun r _ result => Accounted port r result) .empty calls ↔
      (syncMachine port).Along (fun _ l _ => Sound port l) .empty calls := by
  refine Machine.along_iff_of_legal (I := Owned port) (fun r l hr hl => (syncCall_meets hr hl).1) ?_ (.empty port) hlegal
  intro r l hr hl hsound r' hr'
  obtain ⟨answer, hok, rfl⟩ := Option.map_eq_some_iff.mp hr'
  exact (syncCall_meets hr hl).2 hsound answer (eq_ok_of_toOption hok)

def spinlockThenFree : List SyncCall := [.allocSpinlock 0 0x1000, .allocRwlock 0x2000, .free .spinlock 0x1000]

theorem syncRun_accounted_spinlock :
    (syncMachine .driverKit).Along (fun r _ result => Accounted .driverKit r result) .empty spinlockThenFree := by
  refine (syncRun_accounted_iff .driverKit spinlockThenFree ⟨rfl, ?_⟩).mpr ⟨fun _ => by decide, ?_⟩
  · rintro r ⟨⟩
    refine ⟨rfl, ?_⟩
    rintro r ⟨⟩
    exact ⟨rfl, fun _ _ => trivial⟩
  · rintro r ⟨⟩
    refine ⟨fun _ => by decide, ?_⟩
    rintro r ⟨⟩
    exact ⟨nofun, fun _ _ => trivial⟩

/-- In both ports a mutex is lost, a semaphore outlives its cell, and a log message is freed that is
on the stack; in one, a spinlock is reported that is not there. -/
theorem syncRun_unaccounted :
    (∀ port, ∃ r, (syncMachine port).after .empty [.allocMutex 0 0x1000] = some r ∧ r.live 0x1000 = some .lock ∧
      r.handles 0 = some .mutex) ∧
    (∀ port, ∃ r, (syncMachine port).after .empty [.allocSemaphore 1 0x1000 0x103, .free .semaphore 0x1000] = some r ∧
      r.live 0x1000 = none ∧ r.live 0x103 = some .semaphore ∧ r.handles 0x1000 = none ∧ r.refused = 1) ∧
    (∀ port, ¬ (syncMachine port).Along (fun r _ result => Accounted port r result) .empty [.allocMutex 0 0x1000]) ∧
    (∀ port, ¬ (syncMachine port).Along (fun r _ result => Accounted port r result) .empty
      [.allocSemaphore 1 0x1000 0x103, .free .semaphore 0x1000]) ∧
    (∀ port, ¬ (syncMachine port).Along (fun r _ result => Accounted port r result) .empty [.logError 0x7000 12]) ∧
    ¬ (syncMachine .driverKit).Along (fun r _ result => Accounted .driverKit r result) .empty [.allocSpinlock 0 0] := by
  refine ⟨fun port => ?_, fun port => ?_, fun port h => ?_, fun port h => ?_, fun port h => ?_, fun h => ?_⟩
  · cases port with
    | driverKit => exact ⟨_, rfl, rfl, rfl⟩
    | kernel => exact ⟨_, rfl, rfl, rfl⟩
  · cases port with
    | driverKit => exact ⟨_, rfl, rfl, rfl, rfl, rfl⟩
    | kernel => exact ⟨_, rfl, rfl, rfl, rfl, rfl⟩
  · cases port with
    | driverKit => exact ((h.1.1 _ rfl).1.mp rfl).2.ne_none rfl
    | kernel => exact ((h.1.1 _ rfl).1.mp rfl).2.ne_none rfl
  · cases port with
    | driverKit => exact Nat.succ_ne_self _ (h.2 _ rfl).1.2.1
    | kernel => exact Nat.succ_ne_self _ (h.2 _ rfl).1.2.1
  · cases port with
    | driverKit => exact h.1
    | kernel => exact h.1
  · exact ((h.1.1 _ rfl).1.mp rfl).2.ne_none rfl

/-- Without failures, this is the function that threads are seen to use elsewhere. -/
theorem names_osAllocSemaphore (m : Live) (s : Semaphores) {initialValue : NvU32} {cell name : NvU64}
    (hcell : cell ≠ 0) (hname : name ≠ 0) (hne : name ≠ cell) :
    ∃ m', osAllocSemaphore m initialValue cell name = .ok ((NVMac.osAllocSemaphore s initialValue cell name).1, m') ∧
      ∀ semaphore, Names m' cell semaphore ↔
        (NVMac.osAllocSemaphore s initialValue cell name).2.cell cell = some semaphore := by
  have hself : create 0 m cell (.block sizeofSemaphore .raw) cell = some (.block sizeofSemaphore .raw) := by
    rw [create_of_ne hcell, Function.update_self]
  rw [osAllocSemaphore, semaphoreCreate, hself, NVMac.osAllocSemaphore, Semaphores.create]
  show ∃ m', ((if initialValue.toInt < 0 ∨ name = 0 then _ else _) >>= _) = _ ∧ _
  by_cases hneg : initialValue.toInt < 0
  · rw [if_pos (.inl hneg), if_pos hneg]
    refine ⟨_, rfl, fun semaphore => ?_⟩
    rw [Names, hself]
    simp
  · rw [if_neg (not_or.mpr ⟨hneg, hname⟩), if_neg hneg]
    refine ⟨_, rfl, fun semaphore => ?_⟩
    rw [Names, Function.update_of_ne hne.symm, Function.update_self]
    simp

/-- The cells and the semaphores that are there. -/
structure Represents (m : Live) (s : Semaphores) : Prop where
  names : ∀ cell name, Names m cell name ↔ s.cell cell = some name
  semaphores : ∀ name, m name = some .semaphore ↔ s.count name ≠ none

/-- A destruction says the same here as there, and so does the free of a cell. -/
theorem Represents.semaphoreDestroy {m : Live} {s : Semaphores} (hs : Represents m s) (name : NvU64) :
    (semaphoreDestroy m name).1 = (s.destroy name).1 := by
  rw [SyncObjects.semaphoreDestroy, Semaphores.destroy]
  cases hcount : s.count name with
  | none =>
    have hnone : release (· == Object.semaphore) m name = none := by
      cases hobject : m name with
      | none => exact release_of_none hobject
      | some o =>
        refine release_of_mismatch hobject (beq_false_of_ne ?_)
        rintro rfl
        exact (hs.semaphores name).mp hobject hcount
    rw [hnone]
  | some k =>
    have hobject : m name = some .semaphore := (hs.semaphores name).mpr (by rw [hcount]; nofun)
    have hsome : release (· == Object.semaphore) m name = some (Function.update m name none) :=
      release_of_eq hobject (beq_self_eq_true _)
    rw [hsome]

theorem Represents.osFreeSemaphore {m : Live} {s : Semaphores} {cell name : NvU64} (hs : Represents m s)
    (hcell : Names m cell name) : ∃ m', osFreeSemaphore m cell = .ok m' ∧ Represents m' (NVMac.osFreeSemaphore s cell) := by
  have hcount : s.count cell = none := by
    by_contra hsome
    have hobject := (hs.semaphores cell).mpr hsome
    rw [hcell] at hobject
    cases hobject
  have hfree : SyncObjects.osFreeSemaphore m cell = .ok (Function.update m cell none) := by
    rw [SyncObjects.osFreeSemaphore, semaphoreDestroy_of_mismatch hcell rfl]
    exact found_release hcell rfl
  have hfree' : NVMac.osFreeSemaphore s cell = { s with cell := Function.update s.cell cell none } := by
    rw [NVMac.osFreeSemaphore, Semaphores.destroy, hcount]
  rw [hfree']
  refine ⟨_, hfree, fun cell' name' => ?_, fun name' => ?_⟩
  · show Names _ _ _ ↔ Function.update s.cell cell none cell' = some name'
    by_cases hne : cell' = cell
    · subst hne
      rw [Names, Function.update_self, Function.update_self]
      exact iff_of_false nofun nofun
    · rw [Names, Function.update_of_ne hne, Function.update_of_ne hne]
      exact hs.names cell' name'
  · by_cases hne : name' = cell
    · subst hne
      rw [Function.update_self]
      exact iff_of_false nofun fun h => h hcount
    · rw [Function.update_of_ne hne]
      exact hs.semaphores name'

end NVMac.SyncObjects
