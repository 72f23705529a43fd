import NVMac.AllocRegistry

/-!
# The allocation registry under threads (`libc.cpp`)

`os_alloc_mem` and `os_free_mem` cut into the steps that the system makes atomic, with a thread
anywhere between two of them. `os_free_mem` frees the block before it removes the entry, so that
another thread can be given the address in between, and lose its entry to the removal.
-/

namespace NVMac
open Registry

/-- `allocation` tells the blocks apart that were at one address. -/
structure Block where
  allocation : Nat
  size : NvU64

structure Entry where
  allocation : Nat
  value : OSNumber

def Block.entry (b : Block) : Entry := ⟨b.allocation, OSNumber.withNumber b.size sizeofNvU64⟩

/-- Where a thread is: outside; after `IOMallocZero`; and before `getObject`, `IOFree` and
`removeObject`. -/
inductive Phase
  | idle
  | allocated (ptr : NvU64) (b : Block)
  | freeing (ptr : NvU64)
  | found (ptr allocationSize : NvU64)
  | freed (ptr : NvU64)

structure Threads (τ : Type) where
  live : NvU64 → Option Block
  globalAllocations : List Char → Option Entry
  phase : τ → Phase
  allocations : Nat

/-- `made` says whether the key, and the value, are made. -/
inductive Step (τ : Type)
  | ioMallocZero (t : τ) (size block : NvU64)
  | setObject (t : τ) (made : Bool)
  | osFreeMem (t : τ) (ptr : NvU64)
  | getObject (t : τ) (made : Bool)
  | ioFree (t : τ)
  | removeObject (t : τ)

variable {τ : Type}

def Threads.empty : Threads τ := ⟨fun _ => none, fun _ => none, fun _ => .idle, 0⟩

namespace Threads
variable [DecidableEq τ]

def enter (s : Threads τ) (t : τ) (phase : Phase) : Threads τ :=
  { s with phase := Function.update s.phase t phase }

def malloc (s : Threads τ) (t : τ) (size ptr : NvU64) : Threads τ :=
  { s with
    live := Function.update s.live ptr (some ⟨s.allocations, size⟩)
    phase := Function.update s.phase t (.allocated ptr ⟨s.allocations, size⟩)
    allocations := s.allocations + 1 }

def register (s : Threads τ) (t : τ) (ptr : NvU64) (b : Block) : Threads τ :=
  { s with
    globalAllocations := Function.update s.globalAllocations (keyName ptr) (some b.entry)
    phase := Function.update s.phase t .idle }

def release (s : Threads τ) (t : τ) (ptr : NvU64) : Threads τ :=
  { s with live := Function.update s.live ptr none, phase := Function.update s.phase t (.freed ptr) }

def remove (s : Threads τ) (t : τ) (ptr : NvU64) : Threads τ :=
  { s with
    globalAllocations := Function.update s.globalAllocations (keyName ptr) none
    phase := Function.update s.phase t .idle }

/-- The next step of a thread; `none` if the thread is not before it. -/
def step (s : Threads τ) : Step τ → Option (Threads τ)
  | .ioMallocZero t size block =>
    match s.phase t with
    | .idle => if block = 0 then some s else some (s.malloc t size block)
    | _ => none
  | .setObject t made =>
    match s.phase t with
    | .allocated ptr b => if made then some (s.register t ptr b) else some (s.enter t .idle)
    | _ => none
  | .osFreeMem t ptr =>
    match s.phase t with
    | .idle => some (s.enter t (.freeing ptr))
    | _ => none
  | .getObject t made =>
    match s.phase t with
    | .freeing ptr =>
      match if made then s.globalAllocations (keyName ptr) else none with
      | none => some (s.enter t .idle)
      | some e => some (s.enter t (.found ptr e.value.unsigned64BitValue))
    | _ => none
  | .ioFree t =>
    match s.phase t with
    | .found ptr _ => some (s.release t ptr)
    | _ => none
  | .removeObject t =>
    match s.phase t with
    | .freed ptr => some (s.remove t ptr)
    | _ => none

end Threads

def threadMachine (τ : Type) [DecidableEq τ] : Machine (Threads τ) (Step τ) (Option (Threads τ)) where
  call := Threads.step
  next := id

/-- The thread is about to free the pointer. -/
def Phase.Frees (ptr : NvU64) : Phase → Prop
  | .freeing p | .found p _ => p = ptr
  | _ => False

def OneFreer (s : Threads τ) : Prop :=
  ∀ t t' ptr, s.live ptr ≠ none → (s.phase t).Frees ptr → (s.phase t').Frees ptr → t = t'

/-- The allocator hands out no live block, and no two threads free one. -/
def StepLegal [DecidableEq τ] (s : Threads τ) (l : Step τ) : Prop :=
  (∀ t size block, l = .ioMallocZero t size block → s.live block = none) ∧ ∀ s', s.step l = some s' → OneFreer s'

/-- An entry is made, and takes no other's place, and a lookup finds no entry but that of the
pointer's own block. -/
def OwnEntries (s : Threads τ) : Step τ → Prop
  | .setObject t made => ∀ ptr b, s.phase t = .allocated ptr b →
      made = true ∧ s.globalAllocations (keyName ptr) = none
  | .getObject t _ => ∀ ptr e, s.phase t = .freeing ptr → s.globalAllocations (keyName ptr) = some e →
      ∃ b, s.live ptr = some b ∧ e.allocation = b.allocation
  | _ => True

/-- When all threads are outside, the registry has the entries of the live blocks and no other. -/
def OwnWhenIdle (_ : Threads τ) (_ : Step τ) (s' : Option (Threads τ)) : Prop :=
  ∀ r, s' = some r → (∀ t, r.phase t = .idle) → Tracks keyName Block.entry r.live r.globalAllocations

/-- A block without its entry has a thread that will register it, and an entry without its block has
one that will remove it; what other threads do does not come in between. -/
structure Consistent (s : Threads τ) : Prop where
  covered : ∀ p b, s.live p = some b →
    s.globalAllocations (keyName p) = some b.entry ∨ ∃ t, s.phase t = .allocated p b
  owned : ∀ k e, s.globalAllocations k = some e →
    (∃ p b, keyName p = k ∧ s.live p = some b ∧ e = b.entry) ∨ ∃ t p, keyName p = k ∧ s.phase t = .freed p
  allocated : ∀ t p b, s.phase t = .allocated p b → s.live p = some b ∧
    ∀ k e, s.globalAllocations k = some e → e.allocation ≠ b.allocation
  found : ∀ t p n, s.phase t = .found p n → ∃ b, s.live p = some b ∧
    s.globalAllocations (keyName p) = some b.entry ∧ n = b.entry.value.unsigned64BitValue
  freed : ∀ t p, s.phase t = .freed p → ∃ e, s.globalAllocations (keyName p) = some e ∧
    ∀ q b, s.live q = some b → e.allocation ≠ b.allocation
  allocatedOnce : ∀ t t' p b b', s.phase t = .allocated p b → s.phase t' = .allocated p b' → t = t'
  freedOnce : ∀ t t' p q, s.phase t = .freed p → s.phase t' = .freed q → keyName p = keyName q → t = t'
  distinct : ∀ p q b b', s.live p = some b → s.live q = some b' → b.allocation = b'.allocation → p = q
  liveKnown : ∀ p b, s.live p = some b → b.allocation < s.allocations
  entriesKnown : ∀ k e, s.globalAllocations k = some e → e.allocation < s.allocations

namespace Consistent
variable {s : Threads τ}

theorem empty : Consistent (Threads.empty : Threads τ) := by
  constructor <;> nofun

theorem tracks (hs : Consistent s) (hidle : ∀ t, s.phase t = .idle) :
    Tracks keyName Block.entry s.live s.globalAllocations := by
  constructor
  · intro p b hp
    rcases hs.covered p b hp with hentry | ⟨t, ht⟩
    · exact hentry
    · rw [hidle t] at ht
      cases ht
  · intro k e hk
    rcases hs.owned k e hk with ⟨p, b, hkey, hp, rfl⟩ | ⟨t, p, -, ht⟩
    · exact ⟨p, b, hkey, hp⟩
    · rw [hidle t] at ht
      cases ht

theorem entry_of_live (hs : Consistent s) {ptr : NvU64} {b : Block} {e : Entry}
    (hentry : s.globalAllocations (keyName ptr) = some e)
    (hb : s.live ptr = some b) (hsame : e.allocation = b.allocation) : s.globalAllocations (keyName ptr) = some b.entry := by
  rcases hs.owned _ e hentry with ⟨p, b', -, hp, rfl⟩ | ⟨t, p, hkey, ht⟩
  · obtain rfl := hs.distinct p ptr b' b hp hb hsame
    obtain rfl := Option.some.inj (hp.symm.trans hb)
    exact hentry
  · obtain ⟨e', hentry', hdead⟩ := hs.freed t p ht
    rw [hkey, hentry] at hentry'
    cases hentry'
    exact absurd hsame (hdead ptr b hb)

variable [DecidableEq τ] {t : τ} {ptr n : NvU64} {b : Block}

/-- A thread moves between phases that answer for no block and no entry. -/
theorem enter (hs : Consistent s) {phase : Phase} (hout : ∀ p b, s.phase t ≠ .allocated p b)
    (hout' : ∀ p, s.phase t ≠ .freed p) (hin : ∀ p b, phase ≠ .allocated p b) (hin' : ∀ p, phase ≠ .freed p)
    (hfound : ∀ p n, phase = .found p n → ∃ b, s.live p = some b ∧
      s.globalAllocations (keyName p) = some b.entry ∧ n = b.entry.value.unsigned64BitValue) :
    Consistent (s.enter t phase) where
  covered := by
    intro p b hp
    refine (hs.covered p b hp).imp_right ?_
    rintro ⟨t', ht'⟩
    exact ⟨t', update_eq_of_apply_ne rfl ht' (hout p b)⟩
  owned := by
    intro k e hk
    refine (hs.owned k e hk).imp_right ?_
    rintro ⟨t', p, hkey, ht'⟩
    exact ⟨t', p, hkey, update_eq_of_apply_ne rfl ht' (hout' p)⟩
  allocated := fun t' p b ht' => hs.allocated t' p b (apply_of_update_eq ht' (hin p b)).2
  found := by
    intro t' p n ht'
    rcases update_apply_eq_iff.1 ht' with ⟨-, h⟩ | ⟨-, h⟩
    · exact hfound p n h
    · exact hs.found t' p n h
  freed := fun t' p ht' => hs.freed t' p (apply_of_update_eq ht' (hin' p)).2
  allocatedOnce := fun t₁ t₂ p b b' h₁ h₂ => hs.allocatedOnce t₁ t₂ p b b'
    (apply_of_update_eq h₁ (hin p b)).2 (apply_of_update_eq h₂ (hin p b')).2
  freedOnce := fun t₁ t₂ p q h₁ h₂ => hs.freedOnce t₁ t₂ p q
    (apply_of_update_eq h₁ (hin' p)).2 (apply_of_update_eq h₂ (hin' q)).2
  distinct := hs.distinct
  liveKnown := hs.liveKnown
  entriesKnown := hs.entriesKnown

theorem malloc (hs : Consistent s) (ht : s.phase t = .idle) (hptr : s.live ptr = none) (size : NvU64) :
    Consistent (s.malloc t size ptr) where
  covered := by
    intro p b hp
    rcases update_apply_eq_iff.1 hp with ⟨rfl, hb⟩ | ⟨-, hp⟩
    · obtain rfl := Option.some.inj hb
      exact .inr ⟨t, Function.update_self ..⟩
    · refine (hs.covered p b hp).imp_right ?_
      rintro ⟨t', ht'⟩
      exact ⟨t', update_eq_of_apply_ne ht ht' nofun⟩
  owned := by
    intro k e hk
    rcases hs.owned k e hk with ⟨p, b, hkey, hp, he⟩ | ⟨t', p, hkey, ht'⟩
    · exact .inl ⟨p, b, hkey, update_eq_of_apply_ne hptr hp nofun, he⟩
    · exact .inr ⟨t', p, hkey, update_eq_of_apply_ne ht ht' nofun⟩
  allocated := by
    intro t' p b ht'
    rcases update_apply_eq_iff.1 ht' with ⟨-, h⟩ | ⟨-, h⟩
    · cases h
      refine ⟨Function.update_self .., fun k e hk heq => ?_⟩
      exact absurd (hs.entriesKnown k e hk) (heq ▸ Nat.lt_irrefl _)
    · obtain ⟨hp, hentries⟩ := hs.allocated t' p b h
      exact ⟨update_eq_of_apply_ne hptr hp nofun, hentries⟩
  found := by
    intro t' p n ht'
    obtain ⟨b, hp, hentry⟩ := hs.found t' p n (apply_of_update_eq ht' nofun).2
    exact ⟨b, update_eq_of_apply_ne hptr hp nofun, hentry⟩
  freed := by
    intro t' p ht'
    obtain ⟨e, hentry, hdead⟩ := hs.freed t' p (apply_of_update_eq ht' nofun).2
    refine ⟨e, hentry, fun q b hq => ?_⟩
    rcases update_apply_eq_iff.1 hq with ⟨-, hb⟩ | ⟨-, hq⟩
    · cases hb
      exact Nat.ne_of_lt (hs.entriesKnown _ e hentry)
    · exact hdead q b hq
  allocatedOnce := by
    intro t₁ t₂ p b b' h₁ h₂
    have hnew : ∀ t' b'', s.phase t' ≠ .allocated ptr b'' := by
      intro t' b'' h
      cases hptr.symm.trans (hs.allocated t' ptr b'' h).1
    rcases update_apply_eq_iff.1 h₁ with ⟨ht₁, h₁⟩ | ⟨-, h₁⟩ <;>
      rcases update_apply_eq_iff.1 h₂ with ⟨ht₂, h₂⟩ | ⟨-, h₂⟩
    · rw [ht₁, ht₂]
    · cases h₁
      exact absurd h₂ (hnew _ _)
    · cases h₂
      exact absurd h₁ (hnew _ _)
    · exact hs.allocatedOnce t₁ t₂ p b b' h₁ h₂
  freedOnce := fun t₁ t₂ p q h₁ h₂ => hs.freedOnce t₁ t₂ p q
    (apply_of_update_eq h₁ nofun).2 (apply_of_update_eq h₂ nofun).2
  distinct := by
    intro p q b b' hp hq heq
    rcases update_apply_eq_iff.1 hp with ⟨hpp, hb⟩ | ⟨-, hp⟩ <;>
      rcases update_apply_eq_iff.1 hq with ⟨hqp, hb'⟩ | ⟨-, hq⟩
    · rw [hpp, hqp]
    · cases hb
      exact absurd (hs.liveKnown q b' hq) (heq ▸ Nat.lt_irrefl _)
    · cases hb'
      exact absurd (hs.liveKnown p b hp) (heq ▸ Nat.lt_irrefl _)
    · exact hs.distinct p q b b' hp hq heq
  liveKnown := by
    intro p b hp
    rcases update_apply_eq_iff.1 hp with ⟨-, hb⟩ | ⟨-, hp⟩
    · cases hb
      exact Nat.lt_succ_self _
    · exact Nat.lt_succ_of_lt (hs.liveKnown p b hp)
  entriesKnown := fun k e hk => Nat.lt_succ_of_lt (hs.entriesKnown k e hk)

theorem register (hs : Consistent s) (ht : s.phase t = .allocated ptr b)
    (hfree : s.globalAllocations (keyName ptr) = none) : Consistent (s.register t ptr b) where
  covered := by
    intro p b' hp
    rcases hs.covered p b' hp with hentry | ⟨t', ht'⟩
    · exact .inl (update_eq_of_apply_ne hfree hentry nofun)
    · by_cases hpp : p = ptr
      · obtain rfl := hpp
        obtain rfl : b = b' := Option.some.inj ((hs.allocated t p b ht).1.symm.trans hp)
        exact .inl (Function.update_self ..)
      · refine .inr ⟨t', update_eq_of_apply_ne ht ht' ?_⟩
        rintro ⟨⟩
        exact hpp rfl
  owned := by
    intro k e hk
    rcases update_apply_eq_iff.1 hk with ⟨rfl, he⟩ | ⟨-, hk⟩
    · exact .inl ⟨ptr, b, rfl, (hs.allocated t ptr b ht).1, (Option.some.inj he).symm⟩
    · refine (hs.owned k e hk).imp_right ?_
      rintro ⟨t', p, hkey, ht'⟩
      exact ⟨t', p, hkey, update_eq_of_apply_ne ht ht' nofun⟩
  allocated := by
    intro t' p b' ht'
    obtain ⟨hne, h⟩ := apply_of_update_eq ht' nofun
    obtain ⟨hp, hentries⟩ := hs.allocated t' p b' h
    refine ⟨hp, fun k e hk => ?_⟩
    rcases update_apply_eq_iff.1 hk with ⟨-, he⟩ | ⟨-, hk⟩
    · cases he
      intro heq
      obtain rfl := hs.distinct ptr p b b' (hs.allocated t ptr b ht).1 hp heq
      exact hne (hs.allocatedOnce t' t ptr b' b h ht)
    · exact hentries k e hk
  found := by
    intro t' p n ht'
    obtain ⟨b', hp, hentry, hn⟩ := hs.found t' p n (apply_of_update_eq ht' nofun).2
    exact ⟨b', hp, update_eq_of_apply_ne hfree hentry nofun, hn⟩
  freed := by
    intro t' p ht'
    obtain ⟨e, hentry, hdead⟩ := hs.freed t' p (apply_of_update_eq ht' nofun).2
    exact ⟨e, update_eq_of_apply_ne hfree hentry nofun, hdead⟩
  allocatedOnce := fun t₁ t₂ p b₁ b₂ h₁ h₂ => hs.allocatedOnce t₁ t₂ p b₁ b₂
    (apply_of_update_eq h₁ nofun).2 (apply_of_update_eq h₂ nofun).2
  freedOnce := fun t₁ t₂ p q h₁ h₂ => hs.freedOnce t₁ t₂ p q
    (apply_of_update_eq h₁ nofun).2 (apply_of_update_eq h₂ nofun).2
  distinct := hs.distinct
  liveKnown := hs.liveKnown
  entriesKnown := by
    intro k e hk
    rcases update_apply_eq_iff.1 hk with ⟨-, he⟩ | ⟨-, hk⟩
    · cases he
      exact hs.liveKnown ptr b (hs.allocated t ptr b ht).1
    · exact hs.entriesKnown k e hk

theorem release (hs : Consistent s) (hone : OneFreer s) (ht : s.phase t = .found ptr n) :
    Consistent (s.release t ptr) := by
  obtain ⟨b, hptr, hentry, -⟩ := hs.found t ptr n ht
  -- What is live afterwards was live before, at another place.
  have hkept : ∀ p b', (s.release t ptr).live p = some b' → p ≠ ptr ∧ s.live p = some b' :=
    fun p b' hp => apply_of_update_eq hp nofun
  constructor
  case covered =>
    intro p b' hp
    refine (hs.covered p b' (hkept p b' hp).2).imp_right ?_
    rintro ⟨t', ht'⟩
    exact ⟨t', update_eq_of_apply_ne ht ht' nofun⟩
  case owned =>
    intro k e hk
    rcases hs.owned k e hk with ⟨p, b', hkey, hp, he⟩ | ⟨t', p, hkey, ht'⟩
    · by_cases hpp : p = ptr
      · exact .inr ⟨t, ptr, hpp ▸ hkey, Function.update_self ..⟩
      · exact .inl ⟨p, b', hkey, (Function.update_of_ne hpp _ _).trans hp, he⟩
    · exact .inr ⟨t', p, hkey, update_eq_of_apply_ne ht ht' nofun⟩
  case allocated =>
    intro t' p b' ht'
    obtain ⟨hp, hentries⟩ := hs.allocated t' p b' (apply_of_update_eq ht' nofun).2
    refine ⟨update_eq_of_apply_ne hptr hp ?_, hentries⟩
    rintro ⟨⟩
    exact hentries _ _ hentry rfl
  case found =>
    intro t' p n' ht'
    obtain ⟨hne, h⟩ := apply_of_update_eq ht' nofun
    obtain ⟨b', hp, hentry'⟩ := hs.found t' p n' h
    have hpp : p ≠ ptr := by
      rintro rfl
      refine hne (hone t' t p (by rw [hp]; nofun) ?_ ?_)
      · rw [h]; rfl
      · rw [ht]; rfl
    exact ⟨b', (Function.update_of_ne hpp _ _).trans hp, hentry'⟩
  case freed =>
    intro t' p ht'
    rcases update_apply_eq_iff.1 ht' with ⟨-, h⟩ | ⟨-, h⟩
    · cases h
      refine ⟨b.entry, hentry, fun q b' hq heq => ?_⟩
      obtain ⟨hne, hq⟩ := hkept q b' hq
      exact hne (hs.distinct q ptr b' b hq hptr heq.symm)
    · obtain ⟨e, hentry', hdead⟩ := hs.freed t' p h
      exact ⟨e, hentry', fun q b' hq => hdead q b' (hkept q b' hq).2⟩
  case allocatedOnce =>
    exact fun t₁ t₂ p b₁ b₂ h₁ h₂ => hs.allocatedOnce t₁ t₂ p b₁ b₂
      (apply_of_update_eq h₁ nofun).2 (apply_of_update_eq h₂ nofun).2
  case freedOnce =>
    -- The entry still has its block, so that no other thread can be about to remove it.
    have hnone : ∀ t' p, s.phase t' = .freed p → keyName p ≠ keyName ptr := by
      intro t' p h hkey
      obtain ⟨e, hentry', hdead⟩ := hs.freed t' p h
      rw [hkey, hentry] at hentry'
      cases hentry'
      exact hdead ptr b hptr rfl
    intro t₁ t₂ p q h₁ h₂ hkey
    rcases update_apply_eq_iff.1 h₁ with ⟨ht₁, h₁⟩ | ⟨-, h₁⟩ <;>
      rcases update_apply_eq_iff.1 h₂ with ⟨ht₂, h₂⟩ | ⟨-, h₂⟩
    · rw [ht₁, ht₂]
    · cases h₁
      exact absurd hkey.symm (hnone t₂ q h₂)
    · cases h₂
      exact absurd hkey (hnone t₁ p h₁)
    · exact hs.freedOnce t₁ t₂ p q h₁ h₂ hkey
  case distinct =>
    intro p q b₁ b₂ hp hq heq
    exact hs.distinct p q b₁ b₂ (hkept p b₁ hp).2 (hkept q b₂ hq).2 heq
  case liveKnown => exact fun p b' hp => hs.liveKnown p b' (hkept p b' hp).2
  case entriesKnown => exact hs.entriesKnown

theorem remove (hs : Consistent s) (ht : s.phase t = .freed ptr) : Consistent (s.remove t ptr) := by
  obtain ⟨e, hentry, hdead⟩ := hs.freed t ptr ht
  -- The entry that goes is that of no live block.
  have hlive : ∀ p b, s.live p = some b → s.globalAllocations (keyName p) = some b.entry →
      Function.update s.globalAllocations (keyName ptr) none (keyName p) = some b.entry := by
    intro p b hp hp'
    refine update_eq_of_apply_ne hentry hp' ?_
    rintro ⟨⟩
    exact hdead p b hp rfl
  have hkept : ∀ k e', (s.remove t ptr).globalAllocations k = some e' →
      k ≠ keyName ptr ∧ s.globalAllocations k = some e' := fun k e' hk => apply_of_update_eq hk nofun
  constructor
  case covered =>
    intro p b hp
    rcases hs.covered p b hp with hp' | ⟨t', ht'⟩
    · exact .inl (hlive p b hp hp')
    · exact .inr ⟨t', update_eq_of_apply_ne ht ht' nofun⟩
  case owned =>
    intro k e' hk
    obtain ⟨hne, hk⟩ := hkept k e' hk
    refine (hs.owned k e' hk).imp_right ?_
    rintro ⟨t', p, hkey, ht'⟩
    refine ⟨t', p, hkey, update_eq_of_apply_ne ht ht' ?_⟩
    rintro ⟨⟩
    exact hne hkey.symm
  case allocated =>
    intro t' p b ht'
    obtain ⟨hp, hentries⟩ := hs.allocated t' p b (apply_of_update_eq ht' nofun).2
    exact ⟨hp, fun k e' hk => hentries k e' (hkept k e' hk).2⟩
  case found =>
    intro t' p n ht'
    obtain ⟨b, hp, hp', hn⟩ := hs.found t' p n (apply_of_update_eq ht' nofun).2
    exact ⟨b, hp, hlive p b hp hp', hn⟩
  case freed =>
    intro t' p ht'
    obtain ⟨hne, h⟩ := apply_of_update_eq ht' nofun
    obtain ⟨e', hentry', hdead'⟩ := hs.freed t' p h
    have hkey : keyName p ≠ keyName ptr := fun hkey => hne (hs.freedOnce t' t p ptr h ht hkey)
    exact ⟨e', (Function.update_of_ne hkey _ _).trans hentry', hdead'⟩
  case allocatedOnce =>
    exact fun t₁ t₂ p b₁ b₂ h₁ h₂ => hs.allocatedOnce t₁ t₂ p b₁ b₂
      (apply_of_update_eq h₁ nofun).2 (apply_of_update_eq h₂ nofun).2
  case freedOnce =>
    exact fun t₁ t₂ p q h₁ h₂ => hs.freedOnce t₁ t₂ p q
      (apply_of_update_eq h₁ nofun).2 (apply_of_update_eq h₂ nofun).2
  case distinct => exact hs.distinct
  case liveKnown => exact hs.liveKnown
  case entriesKnown => exact fun k e' hk => hs.entriesKnown k e' (hkept k e' hk).2

theorem step (hs : Consistent s) (hone : OneFreer s) {l : Step τ} {s' : Threads τ}
    (hlegal : StepLegal s l) (hown : OwnEntries s l) (hstep : s.step l = some s') :
    Consistent s' := by
  cases l with
  | ioMallocZero t size block =>
    rw [Threads.step] at hstep
    cases ht : s.phase t with
    | idle =>
      rw [ht] at hstep
      by_cases hblock : block = 0
      · rw [if_pos hblock] at hstep
        exact Option.some.inj hstep ▸ hs
      · rw [if_neg hblock] at hstep
        exact Option.some.inj hstep ▸ hs.malloc ht (hlegal.1 t size block rfl) size
    | _ => rw [ht] at hstep; cases hstep
  | setObject t made =>
    rw [Threads.step] at hstep
    cases ht : s.phase t with
    | allocated ptr b =>
      obtain ⟨rfl, hfree⟩ := hown ptr b ht
      rw [ht] at hstep
      exact Option.some.inj hstep ▸ hs.register ht hfree
    | _ => rw [ht] at hstep; cases hstep
  | osFreeMem t ptr =>
    rw [Threads.step] at hstep
    cases ht : s.phase t with
    | idle =>
      rw [ht] at hstep
      refine Option.some.inj hstep ▸ hs.enter ?_ ?_ nofun nofun nofun
      · rw [ht]; nofun
      · rw [ht]; nofun
    | _ => rw [ht] at hstep; cases hstep
  | getObject t made =>
    rw [Threads.step] at hstep
    cases ht : s.phase t with
    | freeing ptr =>
      have hout : ∀ p b, s.phase t ≠ .allocated p b := by rw [ht]; nofun
      have hout' : ∀ p, s.phase t ≠ .freed p := by rw [ht]; nofun
      rw [ht] at hstep
      dsimp only at hstep
      split at hstep
      · exact Option.some.inj hstep ▸ hs.enter hout hout' nofun nofun nofun
      · rename_i e he
        have hentry : s.globalAllocations (keyName ptr) = some e := by
          cases made with
          | true => exact he
          | false => cases he
        refine Option.some.inj hstep ▸ hs.enter hout hout' nofun nofun ?_
        intro p n hp
        cases hp
        obtain ⟨b, hb, hsame⟩ := hown ptr e ht hentry
        have hown' := hs.entry_of_live hentry hb hsame
        obtain rfl : e = b.entry := Option.some.inj (hentry.symm.trans hown')
        exact ⟨b, hb, hown', rfl⟩
    | _ => rw [ht] at hstep; cases hstep
  | ioFree t =>
    rw [Threads.step] at hstep
    cases ht : s.phase t with
    | found ptr n =>
      rw [ht] at hstep
      exact Option.some.inj hstep ▸ hs.release hone ht
    | _ => rw [ht] at hstep; cases hstep
  | removeObject t =>
    rw [Threads.step] at hstep
    cases ht : s.phase t with
    | freed ptr =>
      rw [ht] at hstep
      exact Option.some.inj hstep ▸ hs.remove ht
    | _ => rw [ht] at hstep; cases hstep

end Consistent

/-- While no registration meets another's entry and no free finds one, the registry is right whenever
all threads are outside. -/
theorem threadRun_ownWhenIdle (τ : Type) [DecidableEq τ] (steps : List (Step τ))
    (hlegal : (threadMachine τ).Along (fun s l _ => StepLegal s l) .empty steps)
    (hown : (threadMachine τ).Along (fun s l _ => OwnEntries s l) .empty steps) :
    (threadMachine τ).Along OwnWhenIdle .empty steps := by
  refine Machine.along_of_legal (I := fun s => Consistent s ∧ OneFreer s)
    (L := fun s l => StepLegal s l ∧ OwnEntries s l) ?_ ?_ ⟨.empty, ?_⟩ (hlegal.and hown)
  · intro s l hs hl s' hstep hidle
    exact (hs.1.step hs.2 hl.1 hl.2 hstep).tracks hidle
  · intro s l hs hl s' hstep
    exact ⟨hs.1.step hs.2 hl.1 hl.2 hstep, hl.1.2 s' hstep⟩
  · intro t t' ptr hptr
    exact absurd rfl hptr

/-- One thread allocates a block and frees it, and the other then gets its address. -/
def reusedAfter : List (Step Bool) :=
  [.ioMallocZero false 64 0x1000, .setObject false true, .osFreeMem false 0x1000, .getObject false true,
    .ioFree false, .removeObject false, .ioMallocZero true 64 0x1000, .setObject true true]

/-- The other gets the address before the entry is removed. -/
def reusedBefore : List (Step Bool) :=
  [.ioMallocZero false 64 0x1000, .setObject false true, .osFreeMem false 0x1000, .getObject false true,
    .ioFree false, .ioMallocZero true 64 0x1000, .setObject true true, .removeObject false]

theorem oneFreer_of_first {s : Threads Bool} (h : ∀ ptr, ¬ (s.phase true).Frees ptr) : OneFreer s := by
  rintro (- | -) (- | -) ptr - ht ht'
  · rfl
  · exact absurd ht' (h ptr)
  · exact absurd ht (h ptr)
  · rfl

/-- A step of a run in which only the first thread frees. -/
theorem along_stepLegal_cons {s : Threads Bool} {l : Step Bool} {ls : List (Step Bool)}
    (hfresh : ∀ t size block, l = .ioMallocZero t size block → s.live block = none)
    {s' : Threads Bool} (hstep : s.step l = some s') (hfirst : ∀ ptr, ¬ (s'.phase true).Frees ptr)
    (hrest : (threadMachine Bool).Along (fun s l _ => StepLegal s l) s' ls) :
    (threadMachine Bool).Along (fun s l _ => StepLegal s l) s (l :: ls) := by
  refine (Machine.along_cons_of_next hstep).2 ⟨⟨hfresh, fun r hr => ?_⟩, hrest⟩
  obtain rfl := Option.some.inj (hstep.symm.trans hr)
  exact oneFreer_of_first hfirst

/-- All threads are outside, the block is live, and its entry is gone. -/
theorem threadRun_reusedBefore :
    (threadMachine Bool).Along (fun s l _ => StepLegal s l) .empty reusedBefore ∧
    (∃ s, (threadMachine Bool).after .empty reusedBefore = some s ∧ (∀ t, s.phase t = .idle) ∧
      (s.live 0x1000).isSome ∧ s.globalAllocations (keyName 0x1000) = none) ∧
    ¬ (threadMachine Bool).Along OwnWhenIdle .empty reusedBefore := by
  refine ⟨?_, ⟨_, rfl, ?_, rfl, rfl⟩, fun h => ?_⟩
  · refine along_stepLegal_cons ?_ rfl (fun _ => id) ?_
    · rintro _ _ _ ⟨⟩; rfl
    refine along_stepLegal_cons nofun rfl (fun _ => id) ?_
    refine along_stepLegal_cons nofun rfl (fun _ => id) ?_
    refine along_stepLegal_cons nofun rfl (fun _ => id) ?_
    refine along_stepLegal_cons nofun rfl (fun _ => id) ?_
    refine along_stepLegal_cons ?_ rfl (fun _ => id) ?_
    · rintro _ _ _ ⟨⟩; rfl
    refine along_stepLegal_cons nofun rfl (fun _ => id) ?_
    exact along_stepLegal_cons nofun rfl (fun _ => id) trivial
  · rintro (- | -) <;> rfl
  · have htracks := (((((((h.2 _ rfl).2 _ rfl).2 _ rfl).2 _ rfl).2 _ rfl).2 _ rfl).2 _ rfl).1 _ rfl
      (by rintro (- | -) <;> rfl)
    cases htracks.stored 0x1000 _ rfl

theorem threadRun_ownWhenIdle_reusedAfter : (threadMachine Bool).Along OwnWhenIdle .empty reusedAfter := by
  refine threadRun_ownWhenIdle Bool reusedAfter ?_ ?_
  · refine along_stepLegal_cons ?_ rfl (fun _ => id) ?_
    · rintro _ _ _ ⟨⟩; rfl
    refine along_stepLegal_cons nofun rfl (fun _ => id) ?_
    refine along_stepLegal_cons nofun rfl (fun _ => id) ?_
    refine along_stepLegal_cons nofun rfl (fun _ => id) ?_
    refine along_stepLegal_cons nofun rfl (fun _ => id) ?_
    refine along_stepLegal_cons nofun rfl (fun _ => id) ?_
    refine along_stepLegal_cons ?_ rfl (fun _ => id) ?_
    · rintro _ _ _ ⟨⟩; rfl
    exact along_stepLegal_cons nofun rfl (fun _ => id) trivial
  · refine (Machine.along_cons_of_next rfl).2 ⟨trivial, (Machine.along_cons_of_next rfl).2 ⟨?_, ?_⟩⟩
    · rintro ptr b ⟨⟩
      exact ⟨rfl, rfl⟩
    refine (Machine.along_cons_of_next rfl).2 ⟨trivial, (Machine.along_cons_of_next rfl).2 ⟨?_, ?_⟩⟩
    · rintro ptr e ⟨⟩ ⟨⟩
      exact ⟨_, rfl, rfl⟩
    refine (Machine.along_cons_of_next rfl).2 ⟨trivial, (Machine.along_cons_of_next rfl).2 ⟨trivial, ?_⟩⟩
    refine (Machine.along_cons_of_next rfl).2 ⟨trivial, (Machine.along_cons_of_next rfl).2 ⟨?_, trivial⟩⟩
    rintro ptr b ⟨⟩
    exact ⟨rfl, rfl⟩

end NVMac
