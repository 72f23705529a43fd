import Mathlib.Data.List.Count

/-!
# A reader-writer lock and its holds

`shared n` has `n` readers and is free for `n = 0`; `exclusive` has one writer. A hold is a client
with the mode that it was granted. `Counts` says that the lock counts the holds, whatever their
modes, and `Exclusive` that the modes exclude each other.
-/

inductive RwLock
  | shared (readers : Nat)
  | exclusive
deriving DecidableEq, Repr

namespace RwLock

inductive Mode
  | read | write
deriving DecidableEq, Repr

def tryRead : RwLock → Option RwLock
  | shared n => some (shared (n + 1))
  | exclusive => none

def tryWrite : RwLock → Option RwLock
  | shared 0 => some exclusive
  | _ => none

def unlock : RwLock → Option RwLock
  | shared 0 => none
  | shared (n + 1) => some (shared n)
  | exclusive => some (shared 0)

variable {κ : Type*}

def writers (holds : List (κ × Mode)) : Nat := holds.countP (·.2 = .write)

def readers (holds : List (κ × Mode)) : Nat := holds.countP (·.2 = .read)

/-- At most one writer and no reader, or no writer. -/
def Exclusive (holds : List (κ × Mode)) : Prop :=
  (writers holds ≤ 1 ∧ readers holds = 0) ∨ writers holds = 0

def Counts (lock : RwLock) (holds : List (κ × Mode)) : Prop :=
  lock = shared holds.length ∨ lock = exclusive ∧ ∃ c, holds = [(c, .write)]

variable {holds : List (κ × Mode)} {lock lock' : RwLock} {c : κ} {mode : Mode}

@[simp] theorem writers_cons_read : writers ((c, .read) :: holds) = writers holds := by
  simp [writers]

@[simp] theorem writers_cons_write : writers ((c, .write) :: holds) = writers holds + 1 := by
  simp [writers]

@[simp] theorem readers_cons_read : readers ((c, .read) :: holds) = readers holds + 1 := by
  simp [readers]

@[simp] theorem readers_cons_write : readers ((c, .write) :: holds) = readers holds := by
  simp [readers]

theorem writers_add_readers : writers holds + readers holds = holds.length := by
  induction holds with
  | nil => rfl
  | cons h holds ih =>
    obtain ⟨c, mode⟩ := h
    cases mode with
    | read => rw [writers_cons_read, readers_cons_read, List.length_cons, ← ih]; omega
    | write => rw [writers_cons_write, readers_cons_write, List.length_cons, ← ih]; omega

theorem exclusive_cons_read : Exclusive ((c, .read) :: holds) ↔ writers holds = 0 := by
  simp [Exclusive]

theorem exclusive_cons_write : Exclusive ((c, .write) :: holds) ↔ holds = [] := by
  rw [Exclusive, writers_cons_write, readers_cons_write, ← List.length_eq_zero_iff,
    ← writers_add_readers]
  omega

theorem Exclusive.erase [DecidableEq κ] (he : Exclusive holds) (h : κ × Mode) :
    Exclusive (holds.erase h) := by
  have hw : writers (holds.erase h) ≤ writers holds := List.erase_sublist.countP_le
  have hr : readers (holds.erase h) ≤ readers holds := List.erase_sublist.countP_le
  rw [Exclusive] at he ⊢
  omega

/-- A granted read counts, whatever its mode is taken for. -/
theorem Counts.tryRead (hc : Counts lock holds) (h : lock.tryRead = some lock') :
    Counts lock' ((c, mode) :: holds) := by
  rcases hc with rfl | ⟨rfl, -⟩
  · cases h
    exact .inl rfl
  · cases h

theorem Counts.tryWrite (hc : Counts lock holds) (h : lock.tryWrite = some lock') :
    holds = [] ∧ lock' = exclusive := by
  rcases hc with rfl | ⟨rfl, -⟩
  · cases holds with
    | nil => cases h; exact ⟨rfl, rfl⟩
    | cons h₀ holds => cases h
  · cases h

theorem Counts.tryRead_of_no_writer (hc : Counts lock holds) (h : writers holds = 0) :
    ∃ lock', lock.tryRead = some lock' := by
  rcases hc with rfl | ⟨-, c, rfl⟩
  · exact ⟨_, rfl⟩
  · rw [writers_cons_write] at h
    cases h

theorem Counts.tryWrite_of_nil (hc : Counts lock ([] : List (κ × Mode))) :
    lock.tryWrite = some exclusive := by
  rcases hc with rfl | ⟨-, c, h⟩
  · rfl
  · cases h

theorem Counts.unlock [DecidableEq κ] (hc : Counts lock holds) {h : κ × Mode} (hmem : h ∈ holds) :
    ∃ lock', lock.unlock = some lock' ∧ lock' = shared (holds.erase h).length := by
  rcases hc with rfl | ⟨rfl, c, rfl⟩
  · have hpos := List.length_pos_of_mem hmem
    obtain ⟨n, hn⟩ : ∃ n, holds.length = n + 1 := ⟨holds.length - 1, by omega⟩
    refine ⟨shared n, by rw [hn]; rfl, ?_⟩
    rw [List.length_erase_of_mem hmem, hn]
    rfl
  · obtain rfl := List.mem_singleton.1 hmem
    exact ⟨shared 0, rfl, by simp⟩

end RwLock
