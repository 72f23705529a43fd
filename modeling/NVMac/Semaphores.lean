import Mathlib.Logic.Function.Basic
import NVMac.Types
import NVMac.Lib.Machine

/-!
# Semaphores (`libc.cpp`, `shim_driverkit.h`)

A handle is the address of the cell into which `semaphore_create` stored the name of a semaphore. The
operations take the handle itself for the name, and drop the failure of a wait or a destruction; and
a release waits instead of signalling. `semRun_keeps_iff` says that only conditional acquires, which
fail, keep to the contract of a counting semaphore.
-/

namespace NVMac

/-- The counts of the Mach semaphores by their names, and the names stored in cells. -/
structure Semaphores where
  count : NvU64 → Option Nat
  cell : NvU64 → Option NvU64

inductive KernReturn
  | success | operationTimedOut | invalidArgument
deriving DecidableEq, Repr

namespace Semaphores

/-- A negative `int` makes no semaphore; else the fresh `name` goes into the cell `semaphore`. -/
def create (m : Semaphores) (semaphore name : NvU64) (value : NvU32) : KernReturn × Semaphores :=
  if value.toInt < 0 then (.invalidArgument, m)
  else (.success, {
    count := Function.update m.count name (some value.toNat)
    cell := Function.update m.cell semaphore (some name) })

/-- `none`: the call waits. -/
def wait (m : Semaphores) (name : NvU64) : Option (KernReturn × Semaphores) :=
  match m.count name with
  | none => some (.invalidArgument, m)
  | some 0 => none
  | some (k + 1) => some (.success, { m with count := Function.update m.count name (some k) })

/-- `semaphore_timedwait` with no time to wait, in the kernel `semaphore_wait_noblock`. -/
def waitNoblock (m : Semaphores) (name : NvU64) : KernReturn × Semaphores :=
  match m.wait name with
  | some r => r
  | none => (.operationTimedOut, m)

def destroy (m : Semaphores) (name : NvU64) : KernReturn × Semaphores :=
  match m.count name with
  | none => (.invalidArgument, m)
  | some _ => (.success, { m with count := Function.update m.count name none })

end Semaphores

/-- `cell` is what `IOMalloc` answers, memory without a name. -/
def osAllocSemaphore (m : Semaphores) (initialValue : NvU32) (cell name : NvU64) : NvU64 × Semaphores :=
  let m := { m with cell := Function.update m.cell cell none }
  (cell, (m.create cell name initialValue).2)

/-- The status of the destruction is dropped, and the cell is freed. -/
def osFreeSemaphore (m : Semaphores) (pSema : NvU64) : Semaphores :=
  let m := (m.destroy pSema).2
  { m with cell := Function.update m.cell pSema none }

def osAcquireSemaphore (m : Semaphores) (pSema : NvU64) : Option (NvStatus × Semaphores) :=
  (m.wait pSema).map fun r => (.ok, r.2)

def osCondAcquireSemaphore (m : Semaphores) (pSema : NvU64) : NvStatus × Semaphores :=
  let (result, m) := m.waitNoblock pSema
  match result with
  | .operationTimedOut => (.errTimeoutRetry, m)
  | .success => (.ok, m)
  | _ => (.errGeneric, m)

def osReleaseSemaphore (m : Semaphores) (pSema : NvU64) : Option (NvStatus × Semaphores) :=
  (m.wait pSema).map fun r => (.ok, r.2)

/-! ### Threads on one handle -/

/-- The operations do not ask which thread calls them. -/
inductive SemCall
  | acquire | condAcquire | release
deriving DecidableEq, Repr

/-- `acquired` counts the acquires that returned `NV_OK`, `released` the releases that returned. -/
structure SemState where
  semaphores : Semaphores
  acquired : Nat
  released : Nat

abbrev SemAnswer := Option NvStatus × SemState

def SemState.acquire (s : SemState) : NvStatus × Semaphores → SemAnswer
  | (.ok, m) => (some .ok, { s with semaphores := m, acquired := s.acquired + 1 })
  | (status, m) => (some status, { s with semaphores := m })

def semCall (pSema : NvU64) (s : SemState) : SemCall → SemAnswer
  | .acquire =>
    match osAcquireSemaphore s.semaphores pSema with
    | some r => s.acquire r
    | none => (none, s)
  | .condAcquire => s.acquire (osCondAcquireSemaphore s.semaphores pSema)
  | .release =>
    match osReleaseSemaphore s.semaphores pSema with
    | some (status, m) => (some status, { s with semaphores := m, released := s.released + 1 })
    | none => (none, s)

def semMachine (pSema : NvU64) : Machine SemState SemCall SemAnswer where
  call := semCall pSema
  next a := some a.2

/-- The semaphore created for the handle counts `n`, the releases and the acquires. -/
def Counted (n : Nat) (pSema : NvU64) (s : SemState) : Prop :=
  ∃ name k, s.semaphores.cell pSema = some name ∧ s.semaphores.count name = some k ∧
    k + s.acquired = n + s.released

def TookOne (pSema : NvU64) (s s' : SemState) : Prop :=
  ∃ name k, s.semaphores.cell pSema = some name ∧ s.semaphores.count name = some (k + 1) ∧
    s'.semaphores.count = Function.update s.semaphores.count name (some k)

structure KeepsCount (n : Nat) (pSema : NvU64) (s : SemState) (l : SemCall) (a : SemAnswer) : Prop where
  counted : Counted n pSema a.2
  release : l = .release → a.1 ≠ none
  condAcquire : l = .condAcquire →
    (a.1 = some .ok ∧ TookOne pSema s a.2) ∨ (a.1 ≠ some .ok ∧ a.2 = s)

def RunKeepsCount (n : Nat) (pSema : NvU64) (m : Semaphores) (calls : List SemCall) : Prop :=
  Counted n pSema ⟨m, 0, 0⟩ ∧ (semMachine pSema).Along (KeepsCount n pSema) ⟨m, 0, 0⟩ calls

/-! ### A handle that names no semaphore -/

section
variable {n : Nat} {pSema : NvU64} {s : SemState} {l : SemCall}

theorem wait_of_no_name {m : Semaphores} (h : m.count pSema = none) :
    m.wait pSema = some (.invalidArgument, m) := by
  rw [Semaphores.wait, h]

theorem acquire_of_no_name (h : s.semaphores.count pSema = none) :
    semCall pSema s .acquire = (some .ok, { s with acquired := s.acquired + 1 }) := by
  rw [semCall, osAcquireSemaphore, wait_of_no_name h]
  rfl

theorem release_of_no_name (h : s.semaphores.count pSema = none) :
    semCall pSema s .release = (some .ok, { s with released := s.released + 1 }) := by
  rw [semCall, osReleaseSemaphore, wait_of_no_name h]
  rfl

theorem condAcquire_of_no_name (h : s.semaphores.count pSema = none) :
    semCall pSema s .condAcquire = (some .errGeneric, s) := by
  rw [semCall, osCondAcquireSemaphore, Semaphores.waitNoblock, wait_of_no_name h]
  rfl

/-- While the semaphore is left alone, the acquires and the releases must balance. -/
theorem Counted.balance {acquired released : Nat} (hs : Counted n pSema s)
    (hs' : Counted n pSema ⟨s.semaphores, acquired, released⟩) :
    s.acquired + released = acquired + s.released := by
  obtain ⟨name, k, hcell, hcount, hsum⟩ := hs
  obtain ⟨name', k', hcell', hcount', hsum'⟩ := hs'
  obtain rfl : name = name' := Option.some.inj (hcell.symm.trans hcell')
  obtain rfl : k = k' := Option.some.inj (hcount.symm.trans hcount')
  simp only at hsum'
  omega

theorem keepsCount_iff (hname : s.semaphores.count pSema = none) (hs : Counted n pSema s) :
    KeepsCount n pSema s l (semCall pSema s l) ↔ l = .condAcquire := by
  cases l with
  | acquire =>
    rw [acquire_of_no_name hname]
    refine iff_of_false (fun h => ?_) (fun h => by cases h)
    have hbal := hs.balance h.counted
    omega
  | condAcquire =>
    rw [condAcquire_of_no_name hname]
    exact iff_of_true ⟨hs, fun h => (by cases h), fun _ => .inr ⟨fun h => (by cases h), rfl⟩⟩ rfl
  | release =>
    rw [release_of_no_name hname]
    refine iff_of_false (fun h => ?_) (fun h => by cases h)
    have hbal := hs.balance h.counted
    omega

theorem runKeepsCount_iff {m : Semaphores} {calls : List SemCall} (hname : m.count pSema = none) :
    RunKeepsCount n pSema m calls ↔
      Counted n pSema ⟨m, 0, 0⟩ ∧ ∀ l ∈ calls, l = .condAcquire := by
  refine and_congr_right fun hs => ?_
  rw [← Machine.along_calls (M := semMachine pSema) (s := ⟨m, 0, 0⟩) fun s l => ⟨_, rfl⟩]
  refine Machine.along_iff (I := fun s => s.semaphores.count pSema = none ∧ Counted n pSema s)
    (fun s l hI => keepsCount_iff hI.1 hI.2) ?_ ⟨hname, hs⟩
  rintro s l ⟨hname, hs⟩ rfl s' hs'
  obtain rfl : s = s' := by
    have hcall : (semMachine pSema).next (semCall pSema s .condAcquire) = some s' := hs'
    rw [condAcquire_of_no_name hname] at hcall
    exact Option.some.inj hcall
  exact ⟨hname, hs⟩

end

theorem toInt_neg_iff (value : NvU32) : value.toInt < 0 ↔ 2 ^ 31 ≤ value.toNat := by
  rw [BitVec.toInt_eq_toNat_cond]
  split <;> omega

theorem counted_osAllocSemaphore (m : Semaphores) (n : NvU32) (cell name : NvU64) :
    Counted n.toNat cell ⟨(osAllocSemaphore m n cell name).2, 0, 0⟩ ↔ n.toNat < 2 ^ 31 := by
  by_cases hneg : n.toInt < 0
  · refine iff_of_false ?_ (by rw [toInt_neg_iff] at hneg; omega)
    rintro ⟨name', k, hcell, -⟩
    simp [osAllocSemaphore, Semaphores.create, hneg] at hcell
  · refine iff_of_true ⟨name, n.toNat, ?_, ?_, rfl⟩ (by rw [toInt_neg_iff] at hneg; omega)
    all_goals simp [osAllocSemaphore, Semaphores.create, hneg]

theorem osAllocSemaphore_no_name {m : Semaphores} {n : NvU32} {cell name : NvU64}
    (hcell : m.count cell = none) (hne : name ≠ cell) :
    (osAllocSemaphore m n cell name).2.count cell = none := by
  by_cases hneg : n.toInt < 0
  · simp [osAllocSemaphore, Semaphores.create, hneg, hcell]
  · simp [osAllocSemaphore, Semaphores.create, hneg, hcell, Function.update_of_ne hne.symm]

/-- With a cell whose address names no semaphore, a run keeps the count exactly when the initial
value is no negative `int` and nothing but conditional acquires is called. -/
theorem semRun_keeps_iff (m : Semaphores) (n : NvU32) (cell name : NvU64)
    (hcell : m.count cell = none) (hne : name ≠ cell) (calls : List SemCall) :
    RunKeepsCount n.toNat (osAllocSemaphore m n cell name).1 (osAllocSemaphore m n cell name).2 calls ↔
      n.toNat < 2 ^ 31 ∧ ∀ l ∈ calls, l = .condAcquire := by
  rw [← counted_osAllocSemaphore m n cell name]
  exact runKeepsCount_iff (osAllocSemaphore_no_name hcell hne)

theorem semRun_keeps_one :
    RunKeepsCount 1 0x1000 (osAllocSemaphore ⟨fun _ => none, fun _ => none⟩ 1 0x1000 0x103).2
      [.condAcquire] :=
  (semRun_keeps_iff ⟨fun _ => none, fun _ => none⟩ 1 0x1000 0x103 rfl (by decide) [.condAcquire]).2
    ⟨by decide, by simp⟩

/-- A semaphore of one unit is acquired twice and has the unit still. -/
theorem semRun_acquires_twice :
    let m := (osAllocSemaphore ⟨fun _ => none, fun _ => none⟩ 1 0x1000 0x103).2
    ∃ s, (semMachine 0x1000).after ⟨m, 0, 0⟩ [.acquire, .acquire] = some s ∧ s.acquired = 2 ∧
      s.semaphores.count 0x103 = some 1 ∧ ¬ RunKeepsCount 1 0x1000 m [.acquire, .acquire] := by
  refine ⟨_, rfl, rfl, rfl, fun h => ?_⟩
  obtain ⟨name, k, hcell, hcount, hsum⟩ := h.2.1.counted
  cases hcell
  cases hcount
  cases hsum

end NVMac
