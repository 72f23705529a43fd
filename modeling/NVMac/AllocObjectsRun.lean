import NVMac.AllocObjects

/-!
# Runs with the strings and numbers of the allocation registry (`libc.cpp`)

Whatever threads do, retains are counted right, and nothing fails but the cast or the reading of what has
lost its entry since it was found, and `IOFree` of what is no block of the size that was read
(`allocObjects_keepsCounts`). Where nothing is lost in between, the calls are those of `threadMachine`,
which knows no objects (`allocObjects_refines`); and where clients free what they have allocated, in small
blocks, and every entry is made, the objects that are left are the numbers of the live blocks
(`allocObjects_ownNumbers`).
-/

namespace NVMac
open Refs Registry Outcome

variable {τ : Type}

/-! ### Without objects -/

/-- The entries, as numbers. -/
def AllocDictionary.forget (m : AllocDictionary) (key : List Char) : Option Entry :=
  (m.globalMappedMemory key).bind m.entryOf

/-- The phase of `threadMachine`, which reads the number where it finds it. -/
def ObjectPhase.forget (m : AllocDictionary) : ObjectPhase → Phase
  | .idle | .entered .. | .keyReleased _ | .leaving _ => .idle
  | .allocated ptr b | .keyed ptr b _ | .made ptr b _ _ => .allocated ptr b
  | .freeing ptr | .searching ptr _ => .freeing ptr
  | .found ptr _ object | .checked ptr _ object =>
    .found ptr ((m.entryOf object).elim 0 (·.value.unsigned64BitValue))
  | .read ptr allocationSize _ => .found ptr allocationSize
  | .freed ptr _ => .freed ptr

namespace AllocObjects

def forget (s : AllocObjects τ) : Threads τ :=
  ⟨s.live, s.globalAllocations.forget, fun t => (s.phase t).forget s.globalAllocations, s.allocations⟩

/-- The step of `threadMachine`, if it is one there. -/
def forgetStep (s : AllocObjects τ) : ObjectStep τ → Option (Step τ)
  | .ioMallocZero t size block => some (.ioMallocZero t size block)
  | .setObject t entered =>
    match s.phase t with
    | .made _ _ key value => some (.setObject t (key.isSome && value.isSome && entered))
    | _ => none
  | .osFreeMem t ptr => some (.osFreeMem t ptr)
  | .getObject t =>
    match s.phase t with
    | .searching _ key => some (.getObject t key.isSome)
    | _ => none
  | .ioFree t => some (.ioFree t)
  | .removeObject t => some (.removeObject t)
  | _ => none

/-- The steps of a run, without those that are none. -/
def forgetSteps [DecidableEq τ] : AllocObjects τ → List (ObjectStep τ) → List (Step τ)
  | _, [] => []
  | s, l :: ls =>
    match s.step l with
    | some (.ok s') => (s.forgetStep l).toList ++ forgetSteps s' ls
    | _ => []

end AllocObjects

/-- The entry that the step sets or removes. -/
def AllocObjects.Changes (s : AllocObjects τ) (l : ObjectStep τ) (key : List Char) : Prop :=
  (∃ t ptr b k h, l = .setObject t true ∧ s.phase t = .made ptr b (some k) (some h) ∧ keyName ptr = key) ∨
  ∃ t ptr k, l = .removeObject t ∧ s.phase t = .freed ptr k ∧ keyName ptr = key

/-- What the thread has found, and not read yet, is still the entry. -/
def ObjectPhase.Finds (m : AllocDictionary) (phase : ObjectPhase) : Prop :=
  ∀ ptr object, phase.finding = some (ptr, object) → m.globalMappedMemory (keyName ptr) = some object

def FoundEntries (s : AllocObjects τ) : Prop := ∀ t, (s.phase t).Finds s.globalAllocations

theorem ObjectPhase.Finds.of_none {m : AllocDictionary} {phase : ObjectPhase} (hphase : phase.finding = none) :
    phase.Finds m := by
  intro ptr object hfinding
  rw [hphase] at hfinding
  cases hfinding

/-- What is freed is a block of the size that was read. -/
def FreesBlock (s : AllocObjects τ) : ObjectStep τ → Prop
  | .ioFree t => ∀ ptr n, (s.phase t).toFree = some (ptr, n) → ∃ b, s.live ptr = some b ∧ b.size = n
  | _ => True

/-- A block that is freed has a size that the registry can keep. -/
def FreesSmallBlock (s : AllocObjects τ) : ObjectStep τ → Prop
  | .ioFree t => ∀ ptr n, (s.phase t).toFree = some (ptr, n) → ∀ b, s.live ptr = some b → b.size.toNat < 2 ^ 8
  | _ => True

/-- No object is made that is there, no entry changes between being found and being read, and what is
freed is there. -/
structure ObjectsLegal [DecidableEq τ] (s : AllocObjects τ) (l : ObjectStep τ) : Prop where
  fresh : ObjectFresh s l
  frees : FreesBlock s l
  found : ∀ s', s.step l = some (.ok s') → FoundEntries s'

/-- The same, of clients who free what they have allocated, in small blocks: the steps that `threadMachine`
sees are legal there, and meet no entry of another. -/
structure ClientsLegal [DecidableEq τ] (s : AllocObjects τ) (l : ObjectStep τ) : Prop where
  fresh : ObjectFresh s l
  small : FreesSmallBlock s l
  seen : ∀ l', s.forgetStep l = some l' → StepLegal s.forget l' ∧ OwnEntries s.forget l'

/-- The objects are the numbers of the live blocks, each in the entry of its block and nowhere else. -/
structure OwnNumbers (s : AllocObjects τ) : Prop where
  number : ∀ p b, s.live p = some b → ∃ h, s.globalAllocations.globalMappedMemory (keyName p) = some h ∧
    s.globalAllocations.maps h = some ⟨.number b.entry, 0⟩
  block : ∀ h o, s.globalAllocations.maps h = some o →
    ∃ p b, s.live p = some b ∧ s.globalAllocations.globalMappedMemory (keyName p) = some h

/-! ### Forgetting -/

section
variable [DecidableEq τ] {s s' : AllocObjects τ} {t : τ} {phase : ObjectPhase} {l : ObjectStep τ}

/-- A step is seen at its thread, and in the entries. -/
theorem forget_enter {m : AllocDictionary} (hs : ObjectsCounted s) (hs' : ObjectsCounted (s.enter t phase m))
    (hkeep : KeepsNumbers s.globalAllocations m) (hfound : FoundEntries s) (hfound' : FoundEntries (s.enter t phase m)) :
    (s.enter t phase m).forget = { s.forget with
      globalAllocations := m.forget
      phase := Function.update s.forget.phase t (phase.forget m) } := by
  have hphase : (fun t' => ((s.enter t phase m).phase t').forget m) =
      Function.update s.forget.phase t (phase.forget m) := by
    funext t'
    by_cases htt : t' = t
    · rw [htt, AllocObjects.phase_enter_self, Function.update_self]
    · rw [AllocObjects.phase_enter_of_ne htt, Function.update_of_ne htt]
      show _ = (s.phase t').forget s.globalAllocations
      cases ht' : s.phase t' with
      | found ptr key object | checked ptr key object =>
        obtain ⟨e, he⟩ := hs.entries _ object (hfound t' ptr object (by rw [ht']; rfl))
        have hplace : (s.enter t phase m).places (.inl (keyName ptr)) = some object :=
          hfound' t' ptr object (by rw [AllocObjects.phase_enter_of_ne htt, ht']; rfl)
        rw [ObjectPhase.forget, ObjectPhase.forget, he, hkeep object e he (hs'.balanced.live hplace)]
      | _ => rfl
  rw [AllocObjects.forget, ← hphase]
  rfl

/-- An entry that is what it was is the number that it was. -/
theorem forget_eq_of_entry {m : AllocDictionary} (hs : ObjectsCounted s) (hs' : ObjectsCounted (s.enter t phase m))
    (hkeep : KeepsNumbers s.globalAllocations m) {key : List Char}
    (hkey : m.globalMappedMemory key = s.globalAllocations.globalMappedMemory key) :
    m.forget key = s.globalAllocations.forget key := by
  rw [AllocDictionary.forget, AllocDictionary.forget, hkey]
  rcases hentry : s.globalAllocations.globalMappedMemory key with - | h
  · rfl
  · obtain ⟨e, he⟩ := hs.entries key h hentry
    have hplace : (s.enter t phase m).places (.inl key) = some h := hkey.trans hentry
    rw [Option.bind_some, Option.bind_some, he, hkeep h e he (hs'.balanced.live hplace)]

/-- Nothing is seen of a step that keeps the entries, and the phase of its thread. -/
theorem forget_enter_same {m : AllocDictionary} (hs : ObjectsCounted s) (hs' : ObjectsCounted (s.enter t phase m))
    (hkeep : KeepsNumbers s.globalAllocations m) (hfound : FoundEntries s) (hfound' : FoundEntries (s.enter t phase m))
    (hentries : m.globalMappedMemory = s.globalAllocations.globalMappedMemory)
    (hphase : phase.forget m = (s.phase t).forget s.globalAllocations) : (s.enter t phase m).forget = s.forget := by
  have hforget : m.forget = s.globalAllocations.forget :=
    funext fun key => forget_eq_of_entry hs hs' hkeep (congrFun hentries key)
  have hphase' : phase.forget m = s.forget.phase t := hphase
  rw [forget_enter hs hs' hkeep hfound hfound', hforget, hphase', Function.update_eq_self]
  rfl

/-- Of one that keeps the entries, the phase is seen. -/
theorem forget_enter_phase (hs : ObjectsCounted s) (hs' : ObjectsCounted (s.enter t phase s.globalAllocations))
    (hfound : FoundEntries s) (hfound' : FoundEntries (s.enter t phase s.globalAllocations)) :
    (s.enter t phase s.globalAllocations).forget = s.forget.enter t (phase.forget s.globalAllocations) :=
  forget_enter hs hs' (fun _ _ he _ => he) hfound hfound'

theorem forget_setEntry {m : AllocDictionary} {ptr : NvU64} {b : Block} {key : Option ObjectHandle} {h : ObjectHandle}
    (hs : ObjectsCounted s) (hs' : ObjectsCounted (s.enter t phase m)) (hkeep : KeepsNumbers s.globalAllocations m)
    (ht : s.phase t = .made ptr b key (some h))
    (hentries : m.globalMappedMemory = Function.update s.globalAllocations.globalMappedMemory (keyName ptr) (some h)) :
    m.forget = Function.update s.globalAllocations.forget (keyName ptr) (some b.entry) := by
  funext key'
  by_cases hkey' : key' = keyName ptr
  · have hentry : m.globalMappedMemory key' = some h := by rw [hentries, hkey', Function.update_self]
    have hplace : (s.enter t phase m).places (.inl key') = some h := hentry
    rw [hkey', Function.update_self, ← hkey', AllocDictionary.forget, hentry, Option.bind_some,
      hkeep h b.entry (hs.made t h b.entry (by rw [ht]; rfl)) (hs'.balanced.live hplace)]
  · rw [Function.update_of_ne hkey']
    refine forget_eq_of_entry hs hs' hkeep ?_
    rw [hentries, Function.update_of_ne hkey']

theorem forget_removeObject {m : AllocDictionary} {key : List Char} (hs : ObjectsCounted s)
    (hs' : ObjectsCounted (s.enter t phase m)) (hkeep : KeepsNumbers s.globalAllocations m)
    (hentries : m.globalMappedMemory = Function.update s.globalAllocations.globalMappedMemory key none) :
    m.forget = Function.update s.globalAllocations.forget key none := by
  funext key'
  by_cases hkey' : key' = key
  · rw [hkey', Function.update_self, AllocDictionary.forget, hentries, Function.update_self]
    rfl
  · rw [Function.update_of_ne hkey']
    refine forget_eq_of_entry hs hs' hkeep ?_
    rw [hentries, Function.update_of_ne hkey']

/-! ### Every step -/

/-- No entry is set or removed that a thread has found and not read. -/
def Undisturbed (s : AllocObjects τ) (l : ObjectStep τ) : Prop :=
  ∀ key, s.Changes l key → ∀ t ptr object, (s.phase t).finding = some (ptr, object) → keyName ptr ≠ key

/-- The invariant is kept, and while what is found stays in the registry, `threadMachine` takes the step
too, if it is one. -/
structure Follows (s : AllocObjects τ) (l : ObjectStep τ) (s' : AllocObjects τ) : Prop where
  counted : ObjectsCounted s'
  found : FoundEntries s → Undisturbed s l → FoundEntries s'
  forgotten : FoundEntries s → FoundEntries s' →
    (threadMachine τ).after s.forget (s.forgetStep l).toList = some s'.forget

theorem found_enter {m : AllocDictionary} (hphase : phase.Finds m)
    (hkept : ∀ key, m.globalMappedMemory key = s.globalAllocations.globalMappedMemory key ∨ s.Changes l key) :
    FoundEntries s → Undisturbed s l → FoundEntries (s.enter t phase m) := by
  intro hfound hundisturbed t'
  by_cases htt : t' = t
  · rw [htt, AllocObjects.phase_enter_self]
    exact hphase
  · rw [AllocObjects.phase_enter_of_ne htt]
    intro ptr object ht'
    rcases hkept (keyName ptr) with hsame | hchanges
    · exact hsame.trans (hfound t' ptr object ht')
    · exact absurd rfl (hundisturbed _ hchanges t' ptr object ht')

theorem Follows.silent {m : AllocDictionary} (hs : ObjectsCounted s) (hs' : ObjectsCounted (s.enter t phase m))
    (hkeep : KeepsNumbers s.globalAllocations m)
    (hentries : m.globalMappedMemory = s.globalAllocations.globalMappedMemory) (hfinds : phase.Finds m)
    (hphase : phase.forget m = (s.phase t).forget s.globalAllocations) (hl : s.forgetStep l = none) :
    Follows s l (s.enter t phase m) := by
  refine ⟨hs', found_enter hfinds fun key => .inl (congrFun hentries key), fun hfound hfound' => ?_⟩
  rw [hl, forget_enter_same hs hs' hkeep hfound hfound' hentries hphase]
  rfl

theorem Follows.seen {l' : Step τ} (hs' : ObjectsCounted s') (hl : s.forgetStep l = some l')
    (hfound : FoundEntries s → Undisturbed s l → FoundEntries s')
    (hstep : FoundEntries s → FoundEntries s' → s.forget.step l' = some s'.forget) : Follows s l s' := by
  refine ⟨hs', hfound, fun hfound hfound' => ?_⟩
  rw [hl, Option.toList_some]
  exact (Machine.after_cons_of_next (hstep hfound hfound')).trans rfl

theorem ioMallocZero_follows (hs : ObjectsCounted s) (ht : s.phase t = .idle) (size block : NvU64) :
    Follows s (.ioMallocZero t size block) (if block = 0 then s else s.malloc t size block) := by
  have hphase : s.forget.phase t = .idle := congrArg (ObjectPhase.forget s.globalAllocations) ht
  by_cases hblock : block = 0
  · rw [if_pos hblock]
    refine .seen hs rfl (fun hfound _ => hfound) fun _ _ => ?_
    simp only [Threads.step, hphase, if_pos hblock]
  · rw [if_neg hblock]
    have hsame : ObjectsCounted (s.enter t (.allocated block ⟨s.allocations, size⟩) s.globalAllocations) :=
      hs.enter_same (by rw [ht]; rfl) (by rw [ht]; rfl) rfl
    refine .seen ⟨hsame.balanced, hsame.entries, hsame.made⟩ rfl (found_enter (.of_none rfl) fun _ => .inl rfl)
      fun hfound hfound' => ?_
    simp only [Threads.step, hphase, if_neg hblock]
    have hforget := forget_enter_phase hs hsame hfound hfound'
    rw [show (s.malloc t size block).forget = { (s.enter t (.allocated block ⟨s.allocations, size⟩)
      s.globalAllocations).forget with
        live := Function.update s.live block (some ⟨s.allocations, size⟩), allocations := s.allocations + 1 } from rfl,
      hforget]
    rfl

/-- A thread goes on in the same dictionary, where `threadMachine` sees it. -/
theorem Follows.enter {l' : Step τ} (hs : ObjectsCounted s) (hkey : phase.key = (s.phase t).key)
    (hvalue : phase.value = (s.phase t).value) (hmade : phase.toEnter = none)
    (hfinds : phase.Finds s.globalAllocations) (hl : s.forgetStep l = some l')
    (hstep : s.forget.step l' = some (s.forget.enter t (phase.forget s.globalAllocations))) :
    Follows s l (s.enter t phase s.globalAllocations) := by
  have hsame := hs.enter_same hkey hvalue hmade
  refine .seen hsame hl (found_enter hfinds fun _ => .inl rfl) fun hfound hfound' => ?_
  rw [hstep, forget_enter_phase hs hsame hfound hfound']

theorem setObject_follows (hs : ObjectsCounted s) {ptr : NvU64} {b : Block} {key value : Option ObjectHandle}
    (ht : s.phase t = .made ptr b key value) (entered : Bool) :
    ∃ m, s.globalAllocations.setEntry ptr key value entered = .ok m ∧
      Follows s (.setObject t entered) (s.enter t (.entered key value) m) := by
  obtain ⟨m, hset, hkeep, hs', hentries⟩ := hs.setEntry ht entered
  have hphase : s.forget.phase t = .allocated ptr b := congrArg (ObjectPhase.forget s.globalAllocations) ht
  have hl : s.forgetStep (.setObject t entered) = some (.setObject t (key.isSome && value.isSome && entered)) := by
    rw [AllocObjects.forgetStep, ht]
  have hkept : ∀ key', m.globalMappedMemory key' = s.globalAllocations.globalMappedMemory key' ∨
      s.Changes (.setObject t entered) key' := by
    intro key'
    rw [hentries]
    rcases key with - | k
    · exact .inl (by simp)
    rcases value with - | h
    · exact .inl (by simp)
    cases entered with
    | false => exact .inl rfl
    | true =>
      by_cases hkey' : key' = keyName ptr
      · exact .inr (.inl ⟨t, ptr, b, k, h, rfl, ht, hkey'.symm⟩)
      · exact .inl (Function.update_of_ne hkey' _ _)
  refine ⟨m, hset, .seen hs' hl (found_enter (.of_none rfl) hkept) fun hfound hfound' => ?_⟩
  rw [forget_enter hs hs' hkeep hfound hfound']
  simp only [Threads.step, hphase]
  cases hmade : key.isSome && value.isSome && entered with
  | true =>
    rw [hmade, if_pos rfl] at hentries
    obtain ⟨h, rfl⟩ : ∃ h, value = some h := by
      rw [← Option.isSome_iff_exists]
      simp only [Bool.and_eq_true] at hmade
      exact hmade.1.2
    rw [forget_setEntry hs hs' hkeep ht hentries]
    rfl
  | false =>
    rw [hmade, if_neg Bool.false_ne_true] at hentries
    have hforget : m.forget = s.globalAllocations.forget :=
      funext fun key => forget_eq_of_entry hs hs' hkeep (congrFun hentries key)
    rw [hforget]
    rfl

theorem getObject_follows (hs : ObjectsCounted s) {ptr : NvU64} {key : Option ObjectHandle}
    (ht : s.phase t = .searching ptr key) {r : Except Fault (AllocObjects τ)} (hstep : s.step (.getObject t) = some r) :
    ∃ s', r = .ok s' ∧ Follows s (.getObject t) s' := by
  have hphase : s.forget.phase t = .freeing ptr := congrArg (ObjectPhase.forget s.globalAllocations) ht
  have hl : s.forgetStep (.getObject t) = some (.getObject t key.isSome) := by rw [AllocObjects.forgetStep, ht]
  have hlookup : (if key.isSome then s.forget.globalAllocations (keyName ptr) else none) =
      (key.bind fun _ => s.globalAllocations.globalMappedMemory (keyName ptr)).bind s.globalAllocations.entryOf := by
    cases key <;> rfl
  simp only [AllocObjects.step, ht] at hstep
  rcases hfind : key.bind fun _ => s.globalAllocations.globalMappedMemory (keyName ptr) with - | object
  · simp only [hfind] at hstep
    refine ⟨_, (Option.some.inj hstep).symm, .enter hs (by rw [ht]; rfl) (by rw [ht]; rfl) rfl (.of_none rfl) hl ?_⟩
    simp only [Threads.step, hphase, hlookup, hfind, Option.bind_none]
    rfl
  · simp only [hfind] at hstep
    obtain ⟨k, -, hentry⟩ := Option.bind_eq_some_iff.1 hfind
    obtain ⟨e, he⟩ := hs.entries _ object hentry
    have hfinds : (ObjectPhase.found ptr key object).Finds s.globalAllocations := by
      rintro _ _ ⟨⟩
      exact hentry
    refine ⟨_, (Option.some.inj hstep).symm, .enter hs (by rw [ht]; rfl) (by rw [ht]; rfl) rfl hfinds hl ?_⟩
    simp only [Threads.step, hphase, hlookup, hfind, Option.bind_some, he, ObjectPhase.forget]
    rfl

/-- A thread goes on in the same dictionary, and `threadMachine` sees nothing of it. -/
theorem Follows.enter_silent (hs : ObjectsCounted s) (hkey : phase.key = (s.phase t).key)
    (hvalue : phase.value = (s.phase t).value) (hmade : phase.toEnter = none)
    (hfinds : FoundEntries s → phase.Finds s.globalAllocations)
    (hphase : phase.forget s.globalAllocations = (s.phase t).forget s.globalAllocations) (hl : s.forgetStep l = none) :
    Follows s l (s.enter t phase s.globalAllocations) := by
  have hsame := hs.enter_same hkey hvalue hmade
  refine ⟨hsame, fun hfound => found_enter (hfinds hfound) (fun _ => .inl rfl) hfound, fun hfound hfound' => ?_⟩
  rw [hl, forget_enter_same hs hsame (fun _ _ he _ => he) hfound hfound' rfl hphase]
  rfl

/-- The cast, and the reading, go through on a number, and fail elsewhere. -/
theorem requiredCast_step (hs : ObjectsCounted s) {ptr : NvU64} {key : Option ObjectHandle} {object : ObjectHandle}
    (ht : s.phase t = .found ptr key object) {r : Except Fault (AllocObjects τ)}
    (hstep : s.step (.requiredCast t) = some r) :
    (∃ e, r = .error e ∧ ObjectFails s (.requiredCast t) e) ∨ ∃ s', r = .ok s' ∧ Follows s (.requiredCast t) s' := by
  simp only [AllocObjects.step, ht, AllocDictionary.requiredCast] at hstep
  rcases ofNumber_cases s.globalAllocations object fun _ => () with ⟨hnone, f, hf⟩ | ⟨e, -, hok⟩
  · rw [hf] at hstep
    exact .inl ⟨f, (Option.some.inj hstep).symm, .cast ht (hs.ne_entry hnone)⟩
  · rw [hok] at hstep
    refine .inr ⟨_, (Option.some.inj hstep).symm, .enter_silent hs (by rw [ht]; rfl) (by rw [ht]; rfl) rfl ?_ ?_ rfl⟩
    · rintro hfound _ _ ⟨⟩
      exact hfound t ptr object (by rw [ht]; rfl)
    · rw [ht]
      rfl

theorem unsigned64BitValue_step (hs : ObjectsCounted s) {ptr : NvU64} {key : Option ObjectHandle}
    {object : ObjectHandle} (ht : s.phase t = .checked ptr key object) {r : Except Fault (AllocObjects τ)}
    (hstep : s.step (.unsigned64BitValue t) = some r) :
    (∃ e, r = .error e ∧ ObjectFails s (.unsigned64BitValue t) e) ∨
      ∃ s', r = .ok s' ∧ Follows s (.unsigned64BitValue t) s' := by
  simp only [AllocObjects.step, ht, AllocDictionary.unsigned64BitValue] at hstep
  rcases ofNumber_cases s.globalAllocations object fun e => e.value.unsigned64BitValue with
    ⟨hnone, f, hf⟩ | ⟨e, he, hok⟩
  · rw [hf] at hstep
    exact .inl ⟨f, (Option.some.inj hstep).symm, .value ht (hs.ne_entry hnone)⟩
  · rw [hok] at hstep
    refine .inr ⟨_, (Option.some.inj hstep).symm, .enter_silent hs (by rw [ht]; rfl) (by rw [ht]; rfl) rfl
      (fun _ => .of_none rfl) ?_ rfl⟩
    rw [ht, ObjectPhase.forget, ObjectPhase.forget, he]
    rfl

/-- `IOFree` fails, or takes a block of its size. -/
theorem AllocObjects.ioFree_cases (s : AllocObjects τ) (t : τ) (ptr n : NvU64) (key : Option ObjectHandle) :
    ((∀ b, s.live ptr = some b → b.size ≠ n) ∧ s.ioFree t ptr n key = .error .overRelease) ∨
      (∃ b, s.live ptr = some b ∧ b.size = n) ∧ s.ioFree t ptr n key = .ok (s.free t ptr key) := by
  unfold AllocObjects.ioFree
  rcases hlive : s.live ptr with - | b
  · exact .inl ⟨nofun, rfl⟩
  · by_cases hsize : b.size = n
    · exact .inr ⟨⟨b, rfl, hsize⟩, if_pos hsize⟩
    · refine .inl ⟨?_, if_neg hsize⟩
      rintro _ ⟨⟩
      exact hsize

theorem ioFree_follows (hs : ObjectsCounted s) {ptr n : NvU64} {key : Option ObjectHandle}
    (ht : s.phase t = .read ptr n key) : Follows s (.ioFree t) (s.free t ptr key) := by
  have hphase : s.forget.phase t = .found ptr n := congrArg (ObjectPhase.forget s.globalAllocations) ht
  have hsame : ObjectsCounted (s.enter t (.freed ptr key) s.globalAllocations) :=
    hs.enter_same (by rw [ht]; rfl) (by rw [ht]; rfl) rfl
  refine .seen ⟨hsame.balanced, hsame.entries, hsame.made⟩ rfl (found_enter (.of_none rfl) fun _ => .inl rfl)
    fun hfound hfound' => ?_
  simp only [Threads.step, hphase]
  rw [show (s.free t ptr key).forget = { (s.enter t (.freed ptr key) s.globalAllocations).forget with
    live := Function.update s.live ptr none } from rfl, forget_enter_phase hs hsame hfound hfound']
  rfl

theorem removeObject_follows (hs : ObjectsCounted s) {ptr : NvU64} {key : Option ObjectHandle}
    (ht : s.phase t = .freed ptr key) : ∃ m, s.globalAllocations.removeObject (keyName ptr) = .ok m ∧
      Follows s (.removeObject t) (s.enter t (.leaving key) m) := by
  have hphase : s.forget.phase t = .freed ptr := congrArg (ObjectPhase.forget s.globalAllocations) ht
  have hkey : (ObjectPhase.leaving key).key = (s.phase t).key := by rw [ht]; rfl
  have hvalue : (ObjectPhase.leaving key).value = (s.phase t).value := by rw [ht]; rfl
  obtain ⟨maps, hremove, hkeep, hs'⟩ := hs.removeObject (keyName ptr) hkey hvalue rfl
  refine ⟨_, hremove, .seen hs' rfl (found_enter (.of_none rfl) fun key' => ?_) fun hfound hfound' => ?_⟩
  · by_cases hkey' : key' = keyName ptr
    · exact .inr (.inr ⟨t, ptr, key, rfl, ht, hkey'.symm⟩)
    · exact .inl (Function.update_of_ne hkey' _ _)
  rw [forget_enter hs hs' hkeep hfound hfound', forget_removeObject hs hs' hkeep rfl]
  simp only [Threads.step, hphase]
  rfl

/-- A string or a number is made. -/
theorem make_follows (hs : ObjectsCounted s) {r : τ ⊕ τ} {object : Option ObjectHandle} {value : AllocObject}
    (hr : s.holds r = none) (hfresh : ∀ x, object = some x → s.globalAllocations.maps x = none)
    (hholds : ∀ m, (s.enter t phase m).holds = Function.update s.holds r object)
    (hmade : ∀ h e, phase.toEnter = some (h, e) → object = some h ∧ value = .number e)
    (hfinds : ∀ m, phase.Finds m) (hphase : ∀ m, phase.forget m = (s.phase t).forget s.globalAllocations)
    (hl : s.forgetStep l = none) : Follows s l (s.enter t phase (s.globalAllocations.make value object)) :=
  .silent hs (hs.make hr hfresh hholds hmade) (.make hfresh) (by cases object <;> rfl) (hfinds _) (hphase _) hl

/-- A variable is given up. -/
theorem safeRelease_follows (hs : ObjectsCounted s) {r : τ ⊕ τ} {object : Option ObjectHandle}
    (hr : s.holds r = object) (hholds : ∀ m, (s.enter t phase m).holds = Function.update s.holds r none)
    (hmade : phase.toEnter = none)
    (hfinds : ∀ m, phase.Finds m) (hphase : ∀ m, phase.forget m = (s.phase t).forget s.globalAllocations)
    (hl : s.forgetStep l = none) :
    ∃ m, s.globalAllocations.safeRelease object = .ok m ∧ Follows s l (s.enter t phase m) := by
  obtain ⟨maps, hrelease, hkeep, hs'⟩ := hs.safeRelease hr hholds hmade
  exact ⟨_, hrelease, .silent hs hs' hkeep rfl (hfinds _) (hphase _) hl⟩

/-- A step fails where it may, or goes on. -/
theorem ObjectsCounted.step (hs : ObjectsCounted s) (hfresh : ObjectFresh s l) {r : Except Fault (AllocObjects τ)}
    (hstep : s.step l = some r) :
    (∃ e, r = .error e ∧ ObjectFails s l e) ∨ ∃ s', r = .ok s' ∧ Follows s l s' := by
  cases l with
  | ioMallocZero t size block =>
    rw [AllocObjects.step] at hstep
    cases ht : s.phase t with
    | idle =>
      rw [ht] at hstep
      exact .inr ⟨_, (Option.some.inj hstep).symm, ioMallocZero_follows hs ht size block⟩
    | _ => rw [ht] at hstep; cases hstep
  | withCString t key =>
    rw [AllocObjects.step] at hstep
    cases ht : s.phase t with
    | allocated ptr b | freeing ptr =>
      rw [ht] at hstep
      refine .inr ⟨_, (Option.some.inj hstep).symm, make_follows (r := .inl t) hs ?_ hfresh ?_
        (fun h e hphase => by cases hphase) (fun _ => .of_none rfl) ?_ rfl⟩
      · exact congrArg ObjectPhase.key ht
      · exact AllocObjects.holds_enter_key (by rw [ht]; rfl)
      · intro m
        rw [ht]
        rfl
    | _ => rw [ht] at hstep; cases hstep
  | withNumber t value =>
    rw [AllocObjects.step] at hstep
    cases ht : s.phase t with
    | keyed ptr b key =>
      rw [ht] at hstep
      refine .inr ⟨_, (Option.some.inj hstep).symm, make_follows (r := .inr t) hs ?_ hfresh ?_ ?_
        (fun _ => .of_none rfl) ?_ rfl⟩
      · exact congrArg ObjectPhase.value ht
      · exact AllocObjects.holds_enter_value (by rw [ht]; rfl)
      · intro h e hphase
        obtain rfl : value = some h := ObjectPhase.value_of_toEnter hphase
        cases hphase
        exact ⟨rfl, rfl⟩
      · intro m
        rw [ht]
        rfl
    | _ => rw [ht] at hstep; cases hstep
  | setObject t entered =>
    rw [AllocObjects.step] at hstep
    cases ht : s.phase t with
    | made ptr b key value =>
      obtain ⟨m, hset, hfollows⟩ := setObject_follows hs ht entered
      rw [ht] at hstep
      simp only [hset] at hstep
      exact .inr ⟨_, (Option.some.inj hstep).symm, hfollows⟩
    | _ => rw [ht] at hstep; cases hstep
  | osFreeMem t ptr =>
    rw [AllocObjects.step] at hstep
    cases ht : s.phase t with
    | idle =>
      rw [ht] at hstep
      have hphase : s.forget.phase t = .idle := congrArg (ObjectPhase.forget s.globalAllocations) ht
      refine .inr ⟨_, (Option.some.inj hstep).symm, .enter hs (by rw [ht]; rfl) (by rw [ht]; rfl) rfl (.of_none rfl) rfl ?_⟩
      simp only [Threads.step, hphase]
      rfl
    | _ => rw [ht] at hstep; cases hstep
  | getObject t =>
    cases ht : s.phase t with
    | searching ptr key => exact .inr (getObject_follows hs ht hstep)
    | _ => rw [AllocObjects.step, ht] at hstep; cases hstep
  | requiredCast t =>
    cases ht : s.phase t with
    | found ptr key object => exact requiredCast_step hs ht hstep
    | _ => rw [AllocObjects.step, ht] at hstep; cases hstep
  | unsigned64BitValue t =>
    cases ht : s.phase t with
    | checked ptr key object => exact unsigned64BitValue_step hs ht hstep
    | _ => rw [AllocObjects.step, ht] at hstep; cases hstep
  | ioFree t =>
    rw [AllocObjects.step] at hstep
    cases ht : s.phase t with
    | read ptr n key =>
      rw [ht] at hstep
      rcases s.ioFree_cases t ptr n key with ⟨hnone, hfree⟩ | ⟨-, hfree⟩
      · simp only [hfree] at hstep
        exact .inl ⟨.overRelease, (Option.some.inj hstep).symm, .free ht hnone⟩
      · simp only [hfree] at hstep
        exact .inr ⟨_, (Option.some.inj hstep).symm, ioFree_follows hs ht⟩
    | _ => rw [ht] at hstep; cases hstep
  | removeObject t =>
    rw [AllocObjects.step] at hstep
    cases ht : s.phase t with
    | freed ptr key =>
      obtain ⟨m, hremove, hfollows⟩ := removeObject_follows hs ht
      rw [ht] at hstep
      simp only [hremove] at hstep
      exact .inr ⟨_, (Option.some.inj hstep).symm, hfollows⟩
    | _ => rw [ht] at hstep; cases hstep
  | releaseKey t =>
    rw [AllocObjects.step] at hstep
    cases ht : s.phase t with
    | entered key value =>
      have hheld : s.holds (.inl t) = key := congrArg ObjectPhase.key ht
      obtain ⟨m, hrelease, hfollows⟩ : ∃ m, s.globalAllocations.safeRelease key = .ok m ∧
          Follows s (.releaseKey t) (s.enter t (.keyReleased value) m) :=
        safeRelease_follows hs hheld (AllocObjects.holds_enter_key (by rw [ht]; rfl)) rfl
          (fun _ => .of_none rfl) (fun m => by rw [ht]; rfl) rfl
      rw [ht] at hstep
      simp only [hrelease] at hstep
      exact .inr ⟨_, (Option.some.inj hstep).symm, hfollows⟩
    | leaving key =>
      have hheld : s.holds (.inl t) = key := congrArg ObjectPhase.key ht
      obtain ⟨m, hrelease, hfollows⟩ : ∃ m, s.globalAllocations.safeRelease key = .ok m ∧
          Follows s (.releaseKey t) (s.enter t .idle m) :=
        safeRelease_follows hs hheld (AllocObjects.holds_enter_key (by rw [ht]; rfl)) rfl
          (fun _ => .of_none rfl) (fun m => by rw [ht]; rfl) rfl
      rw [ht] at hstep
      simp only [hrelease] at hstep
      exact .inr ⟨_, (Option.some.inj hstep).symm, hfollows⟩
    | _ => rw [ht] at hstep; cases hstep
  | releaseValue t =>
    rw [AllocObjects.step] at hstep
    cases ht : s.phase t with
    | keyReleased value =>
      have hheld : s.holds (.inr t) = value := congrArg ObjectPhase.value ht
      obtain ⟨m, hrelease, hfollows⟩ : ∃ m, s.globalAllocations.safeRelease value = .ok m ∧
          Follows s (.releaseValue t) (s.enter t .idle m) :=
        safeRelease_follows hs hheld (AllocObjects.holds_enter_value (by rw [ht]; rfl)) rfl
          (fun _ => .of_none rfl) (fun m => by rw [ht]; rfl) rfl
      rw [ht] at hstep
      simp only [hrelease] at hstep
      exact .inr ⟨_, (Option.some.inj hstep).symm, hfollows⟩
    | _ => rw [ht] at hstep; cases hstep

theorem ObjectsCounted.keepsObjects (hs : ObjectsCounted s) (hfresh : ObjectFresh s l) :
    KeepsObjects s l (s.step l) := by
  rcases hstep : s.step l with - | r
  · trivial
  rcases hs.step hfresh hstep with ⟨e, rfl, hfails⟩ | ⟨s', rfl, hfollows⟩
  · exact hfails
  · exact ⟨hfollows.counted.balanced, hfollows.counted.balanced_of_idle⟩

theorem objectMachine_next (hs : ObjectsCounted s) (hfresh : ObjectFresh s l)
    (hnext : (objectMachine τ).next ((objectMachine τ).call s l) = some s') : s.step l = some (.ok s') ∧ Follows s l s' := by
  obtain ⟨r, hstep, hr⟩ := Option.bind_eq_some_iff.1 hnext
  obtain rfl := eq_ok_of_toOption hr
  rcases hs.step hfresh hstep with ⟨e, hfail, -⟩ | ⟨s'', heq, hfollows⟩
  · cases hfail
  · exact ⟨hstep, Except.ok.inj heq ▸ hfollows⟩

/-- Where what is found stays, and what is freed is there, nothing fails. -/
theorem not_error_of_foundEntries (hs : ObjectsCounted s) (hfound : FoundEntries s) (hfresh : ObjectFresh s l)
    (hfrees : FreesBlock s l) (f : Fault) : s.step l ≠ some (.error f) := by
  intro hstep
  rcases hs.step hfresh hstep with ⟨e, -, hfails⟩ | ⟨s', hok, -⟩
  · cases hfails with
    | cast ht hlost => exact hlost (hfound _ _ _ (by rw [ht]; rfl))
    | value ht hlost => exact hlost (hfound _ _ _ (by rw [ht]; rfl))
    | free ht hnone =>
      obtain ⟨b, hlive, hsize⟩ := hfrees _ _ (by rw [ht]; rfl)
      exact hnone b hlive hsize
  · cases hok

theorem forgetSteps_cons (hstep : s.step l = some (.ok s')) (steps : List (ObjectStep τ)) :
    s.forgetSteps (l :: steps) = (s.forgetStep l).toList ++ s'.forgetSteps steps := by
  rw [AllocObjects.forgetSteps, hstep]

theorem forgetSteps_after {steps : List (ObjectStep τ)} (hs : ObjectsCounted s) (hfound : FoundEntries s)
    (hlegal : (objectMachine τ).Along (fun s l _ => ObjectsLegal s l) s steps)
    (hafter : (objectMachine τ).after s steps = some s') :
    (threadMachine τ).after s.forget (s.forgetSteps steps) = some s'.forget := by
  induction steps generalizing s with
  | nil =>
    obtain rfl := Option.some.inj hafter
    rfl
  | cons l steps ih =>
    obtain ⟨s₁, hnext, hrest⟩ := Option.bind_eq_some_iff.1 hafter
    obtain ⟨hstep, hfollows⟩ := objectMachine_next hs hlegal.1.fresh hnext
    have hfound₁ : FoundEntries s₁ := hlegal.1.found s₁ hstep
    rw [forgetSteps_cons hstep, Machine.after_append, hfollows.forgotten hfound hfound₁]
    exact ih hfollows.counted hfound₁ (hlegal.2 s₁ hnext) hrest

/-! ### Clients -/

omit [DecidableEq τ] in
theorem forget_of_entry (hs : ObjectsCounted s) {key : List Char} {h : ObjectHandle}
    (hkey : s.globalAllocations.globalMappedMemory key = some h) :
    ∃ e, s.globalAllocations.entryOf h = some e ∧ s.forget.globalAllocations key = some e := by
  obtain ⟨e, he⟩ := hs.entries key h hkey
  refine ⟨e, he, ?_⟩
  show (s.globalAllocations.globalMappedMemory key).bind _ = _
  rw [hkey, Option.bind_some, he]

theorem phase_forget_of_finding {m : AllocDictionary} {ptr : NvU64} {object : ObjectHandle}
    (hfinding : phase.finding = some (ptr, object)) : ∃ n, phase.forget m = .found ptr n := by
  cases phase with
  | found | checked =>
    cases hfinding
    exact ⟨_, rfl⟩
  | _ => cases hfinding

theorem phase_forget_of_toFree {m : AllocDictionary} {ptr n : NvU64} (hfree : phase.toFree = some (ptr, n)) :
    phase.forget m = .found ptr n := by
  cases phase with
  | read =>
    cases hfree
    rfl
  | _ => cases hfree

/-- A client's block is there until it is freed, and a small size is read as it is. -/
theorem ClientsLegal.freesBlock (hl : ClientsLegal s l) (hc : Consistent s.forget) : FreesBlock s l := by
  cases l with
  | ioFree t =>
    intro ptr n hfree
    obtain ⟨b, hlive, -, rfl⟩ := hc.found t ptr n (phase_forget_of_toFree hfree)
    exact ⟨b, hlive, (withNumber_eq_iff.2 (hl.small ptr _ hfree b hlive)).symm⟩
  | _ => trivial

/-- The entry that another thread sets or removes is of no block that is about to be freed. -/
theorem undisturbed_of_consistent (hs : ObjectsCounted s) (hfound : FoundEntries s) (hc : Consistent s.forget)
    (hl : ClientsLegal s l) : Undisturbed s l := by
  intro key hchanges t' ptr' object ht' hkey'
  obtain ⟨e', he', hentry⟩ := forget_of_entry hs (hfound t' ptr' object ht')
  rcases hchanges with ⟨t, ptr, b, k, h, rfl, ht, rfl⟩ | ⟨t, ptr, k, rfl, ht, rfl⟩
  · have hstep : s.forgetStep (.setObject t true) = some (.setObject t true) := by
      rw [AllocObjects.forgetStep, ht]
      rfl
    have hphase : s.forget.phase t = .allocated ptr b := congrArg (ObjectPhase.forget s.globalAllocations) ht
    have hfree := ((hl.seen _ hstep).2 ptr b hphase).2
    rw [← hkey', hentry] at hfree
    cases hfree
  · have hphase : s.forget.phase t = .freed ptr := congrArg (ObjectPhase.forget s.globalAllocations) ht
    obtain ⟨n, hphase'⟩ := phase_forget_of_finding (m := s.globalAllocations) ht'
    obtain ⟨b, hlive, hown, -⟩ := hc.found t' ptr' n hphase'
    obtain ⟨e, he, hdead⟩ := hc.freed t ptr hphase
    rw [← hkey', hown] at he
    cases he
    exact hdead ptr' b hlive rfl

theorem Follows.consistent (hf : Follows s l s') (hfound : FoundEntries s) (hfound' : FoundEntries s')
    (hc : Consistent s.forget) (hone : OneFreer s.forget) (hl : ClientsLegal s l) :
    Consistent s'.forget ∧ OneFreer s'.forget := by
  have hafter := hf.forgotten hfound hfound'
  cases hstep : s.forgetStep l with
  | none =>
    rw [hstep] at hafter
    have hsame : s.forget = s'.forget := Option.some.inj hafter
    exact hsame ▸ ⟨hc, hone⟩
  | some l' =>
    rw [hstep] at hafter
    obtain ⟨a, hnext, ha⟩ := Option.bind_eq_some_iff.1 hafter
    obtain rfl : a = s'.forget := Option.some.inj ha
    obtain ⟨hlegal, hown⟩ := hl.seen l' hstep
    exact ⟨hc.step hone hlegal hown hnext, hlegal.2 _ hnext⟩

omit [DecidableEq τ] in
theorem ownNumbers_of_idle (hs : ObjectsCounted s) (hc : Consistent s.forget) (hidle : ∀ t, s.phase t = .idle) :
    OwnNumbers s := by
  have hbalanced := hs.balanced_of_idle hidle
  have htracks : Tracks keyName Block.entry s.live s.globalAllocations.forget :=
    hc.tracks fun t => congrArg (ObjectPhase.forget s.globalAllocations) (hidle t)
  have hblock : ∀ key h, s.globalAllocations.globalMappedMemory key = some h →
      ∃ p b, keyName p = key ∧ s.live p = some b ∧ s.globalAllocations.entryOf h = some b.entry := by
    intro key h hkey
    obtain ⟨e, he, hentry⟩ := forget_of_entry hs hkey
    obtain ⟨p, b, hp, hlive⟩ := htracks.owned key e hentry
    have hown := htracks.stored p b hlive
    rw [hp] at hown
    exact ⟨p, b, hp, hlive, he.trans (hentry.symm.trans hown)⟩
  constructor
  · intro p b hlive
    obtain ⟨h, hkey, he⟩ := Option.bind_eq_some_iff.1 (htracks.stored p b hlive)
    refine ⟨h, hkey, ?_⟩
    -- No other entry has the number: it would be that of another block.
    have honly : ∀ key, s.globalAllocations.globalMappedMemory key = some h → key = keyName p := by
      intro key hkey'
      obtain ⟨q, b', hq, hlive', he'⟩ := hblock key h hkey'
      have hsame : b.entry = b'.entry := Option.some.inj (he.symm.trans he')
      rw [← hq, hc.distinct p q b b' hlive hlive' (congrArg Entry.allocation hsame)]
    have hone := hbalanced.one_of_only hkey honly
    obtain ⟨o, ho, hvalue⟩ := Option.bind_eq_some_iff.1 he
    obtain ⟨- | e, more⟩ := o
    · cases hvalue
    · cases hvalue
      rw [count_of_some ho] at hone
      obtain rfl : more = 0 := Nat.succ.inj hone
      exact ho
  · intro h o ho
    have hlive : s.globalAllocations.maps h ≠ none := by rw [ho]; nofun
    obtain ⟨key, hkey⟩ := hbalanced.live_iff.1 hlive
    obtain ⟨p, b, rfl, hp, -⟩ := hblock key h hkey
    exact ⟨p, b, hp, hkey⟩

end

/-! ### Runs -/

/-- In every interleaving, with any failures of the system, retains are counted right. -/
theorem allocObjects_keepsCounts (τ : Type) [DecidableEq τ] (steps : List (ObjectStep τ))
    (hfresh : (objectMachine τ).Along (fun s l _ => ObjectFresh s l) .empty steps) :
    (objectMachine τ).Along KeepsObjects .empty steps :=
  Machine.along_of_legal (I := ObjectsCounted) (fun _ _ hs hl => hs.keepsObjects hl)
    (fun _ _ hs hl _ hs' => (objectMachine_next hs hl hs').2.counted) .empty hfresh

/-- Two threads free one pointer: the second has found a number, and cast it, that the first removes
before it is read. -/
def freedTwice : List (ObjectStep Bool) :=
  [.ioMallocZero false 64 0x1000, .withCString false (some 0), .withNumber false (some 1), .setObject false true,
    .releaseKey false, .releaseValue false, .osFreeMem false 0x1000, .osFreeMem true 0x1000,
    .withCString false (some 2), .withCString true (some 3), .getObject false, .getObject true, .requiredCast false,
    .unsigned64BitValue false, .requiredCast true, .ioFree false, .removeObject false, .unsigned64BitValue true]

theorem allocObjects_keepsCounts_freedTwice : (objectMachine Bool).Along KeepsObjects .empty freedTwice ∧
    (objectMachine Bool).after .empty freedTwice = none :=
  ⟨allocObjects_keepsCounts Bool freedTwice (by decide), rfl⟩

/-- Where no entry changes between being found and being read, and what is freed is there, nothing fails,
and `threadMachine` makes the run. -/
theorem allocObjects_refines (τ : Type) [DecidableEq τ] (steps : List (ObjectStep τ))
    (hlegal : (objectMachine τ).Along (fun s l _ => ObjectsLegal s l) .empty steps) :
    (objectMachine τ).Along (fun _ _ r => ∀ f, r ≠ some (.error f)) .empty steps ∧
      ∀ s, (objectMachine τ).after .empty steps = some s →
        (threadMachine τ).after .empty (AllocObjects.empty.forgetSteps steps) = some s.forget := by
  have hempty : FoundEntries (.empty : AllocObjects τ) := fun _ => .of_none rfl
  refine ⟨?_, fun s hs => forgetSteps_after .empty hempty hlegal hs⟩
  refine Machine.along_of_legal (I := fun s => ObjectsCounted s ∧ FoundEntries s)
    (fun s l hs hl f => not_error_of_foundEntries hs.1 hs.2 hl.fresh hl.frees f) ?_ ⟨.empty, hempty⟩ hlegal
  intro s l hs hl s' hs'
  obtain ⟨hstep, hfollows⟩ := objectMachine_next hs.1 hl.fresh hs'
  exact ⟨hfollows.counted, hl.found s' hstep⟩

/-- One thread frees what it allocated, while the other, for which no key is made, gives its number up. -/
def keyFails : List (ObjectStep Bool) :=
  [.ioMallocZero false 64 0x1000, .withCString false (some 0), .withNumber false (some 1), .setObject false true,
    .ioMallocZero true 32 0x2000, .withCString true none, .withNumber true (some 2), .setObject true true,
    .releaseKey false, .releaseValue false, .osFreeMem false 0x1000, .withCString false (some 0), .getObject false,
    .releaseKey true, .requiredCast false, .unsigned64BitValue false, .releaseValue true, .ioFree false,
    .removeObject false, .releaseKey false]

section
variable {s s' : AllocObjects Bool} {l : ObjectStep Bool} {steps : List (ObjectStep Bool)}

theorem objectMachine_next_of_step (hstep : s.step l = some (.ok s')) :
    (objectMachine Bool).next ((objectMachine Bool).call s l) = some s' := congrArg (·.bind Except.toOption) hstep

theorem along_objectsLegal_cons (hstep : s.step l = some (.ok s')) (hfresh : ObjectFresh s l) (hfrees : FreesBlock s l)
    (hfirst : (s'.phase false).Finds s'.globalAllocations) (hsecond : (s'.phase true).Finds s'.globalAllocations)
    (hrest : (objectMachine Bool).Along (fun s l _ => ObjectsLegal s l) s' steps) :
    (objectMachine Bool).Along (fun s l _ => ObjectsLegal s l) s (l :: steps) := by
  refine (Machine.along_cons_of_next (objectMachine_next_of_step hstep)).2 ⟨⟨hfresh, hfrees, fun r hr => ?_⟩, hrest⟩
  obtain rfl := Except.ok.inj (Option.some.inj (hstep.symm.trans hr))
  rintro (- | -)
  · exact hfirst
  · exact hsecond

/-- A step after which no thread has found an entry. -/
theorem along_objectsLegal_of_none (hstep : s.step l = some (.ok s')) (hfresh : ObjectFresh s l) (hfrees : FreesBlock s l)
    (hfirst : (s'.phase false).finding = none) (hsecond : (s'.phase true).finding = none)
    (hrest : (objectMachine Bool).Along (fun s l _ => ObjectsLegal s l) s' steps) :
    (objectMachine Bool).Along (fun s l _ => ObjectsLegal s l) s (l :: steps) :=
  along_objectsLegal_cons hstep hfresh hfrees (.of_none hfirst) (.of_none hsecond) hrest

end

theorem along_objectsLegal_keyFails :
    (objectMachine Bool).Along (fun s l _ => ObjectsLegal s l) .empty keyFails := by
  refine along_objectsLegal_of_none rfl trivial trivial rfl rfl ?_
  refine along_objectsLegal_of_none rfl (by decide) trivial rfl rfl ?_
  refine along_objectsLegal_of_none rfl (by decide) trivial rfl rfl ?_
  refine along_objectsLegal_of_none rfl trivial trivial rfl rfl ?_
  refine along_objectsLegal_of_none rfl trivial trivial rfl rfl ?_
  refine along_objectsLegal_of_none rfl nofun trivial rfl rfl ?_
  refine along_objectsLegal_of_none rfl (by decide) trivial rfl rfl ?_
  refine along_objectsLegal_of_none rfl trivial trivial rfl rfl ?_
  refine along_objectsLegal_of_none rfl trivial trivial rfl rfl ?_
  refine along_objectsLegal_of_none rfl trivial trivial rfl rfl ?_
  refine along_objectsLegal_of_none rfl trivial trivial rfl rfl ?_
  refine along_objectsLegal_of_none rfl (by decide) trivial rfl rfl ?_
  refine along_objectsLegal_cons rfl trivial trivial ?_ (.of_none rfl) ?_
  · rintro _ _ ⟨⟩
    rfl
  refine along_objectsLegal_cons rfl trivial trivial ?_ (.of_none rfl) ?_
  · rintro _ _ ⟨⟩
    rfl
  refine along_objectsLegal_cons rfl trivial trivial ?_ (.of_none rfl) ?_
  · rintro _ _ ⟨⟩
    rfl
  refine along_objectsLegal_of_none rfl trivial trivial rfl rfl ?_
  refine along_objectsLegal_of_none rfl trivial trivial rfl rfl ?_
  refine along_objectsLegal_of_none rfl trivial ?_ rfl rfl ?_
  · rintro _ _ ⟨⟩
    exact ⟨_, rfl, rfl⟩
  refine along_objectsLegal_of_none rfl trivial trivial rfl rfl ?_
  refine along_objectsLegal_of_none rfl trivial trivial rfl rfl ?_
  trivial

theorem allocObjects_refines_keyFails : ∃ s, (objectMachine Bool).after .empty keyFails = some s ∧
    (threadMachine Bool).after .empty (AllocObjects.empty.forgetSteps keyFails) = some s.forget ∧
    s.globalAllocations.maps 0 = none ∧ s.globalAllocations.maps 1 = none ∧ s.globalAllocations.maps 2 = none :=
  ⟨_, rfl, (allocObjects_refines Bool keyFails along_objectsLegal_keyFails).2 _ rfl, rfl, rfl, rfl⟩

/-- Where clients free what they have allocated, small blocks and each once, and every entry is made,
nothing fails, and when all threads are outside, the objects are the numbers of the live blocks. -/
theorem allocObjects_ownNumbers (τ : Type) [DecidableEq τ] (steps : List (ObjectStep τ))
    (hlegal : (objectMachine τ).Along (fun s l _ => ClientsLegal s l) .empty steps) :
    (objectMachine τ).Along (fun _ _ r => ∀ f, r ≠ some (.error f)) .empty steps ∧
      ∀ s, (objectMachine τ).after .empty steps = some s → (∀ t, s.phase t = .idle) → OwnNumbers s := by
  have hrun := Machine.along_of_history (L := ClientsLegal) (P := fun _ _ r => ∀ f, r ≠ some (.error f))
    (I := fun _ s => ObjectsCounted s ∧ FoundEntries s ∧ Consistent s.forget ∧ OneFreer s.forget) []
    (fun _ s l hs hl f => not_error_of_foundEntries hs.1 hs.2.1 hl.fresh (hl.freesBlock hs.2.2.1) f) ?_
    ⟨.empty, fun _ => .of_none rfl, .empty, fun _ _ _ h => absurd rfl h⟩ hlegal
  · exact ⟨hrun.1, fun s hs => ownNumbers_of_idle (hrun.2 s hs).1 (hrun.2 s hs).2.2.1⟩
  · rintro - s l s' ⟨hs, hfound, hc, hone⟩ hl hs'
    obtain ⟨-, hfollows⟩ := objectMachine_next hs hl.fresh hs'
    have hfound' := hfollows.found hfound (undisturbed_of_consistent hs hfound hc hl)
    exact ⟨hfollows.counted, hfound', hfollows.consistent hfound hfound' hc hone hl⟩

section
variable {s s' : AllocObjects Bool} {l : ObjectStep Bool} {steps : List (ObjectStep Bool)}

theorem along_clientsLegal_silent (hl : s.forgetStep l = none) (hfresh : ObjectFresh s l) (hsmall : FreesSmallBlock s l)
    (hstep : s.step l = some (.ok s')) (hrest : (objectMachine Bool).Along (fun s l _ => ClientsLegal s l) s' steps) :
    (objectMachine Bool).Along (fun s l _ => ClientsLegal s l) s (l :: steps) := by
  refine (Machine.along_cons_of_next (objectMachine_next_of_step hstep)).2 ⟨⟨hfresh, hsmall, fun l' hl' => ?_⟩, hrest⟩
  rw [hl] at hl'
  cases hl'

/-- A step of a run in which only the first thread frees. -/
theorem along_clientsLegal_seen {l' : Step Bool} {a : Threads Bool} (hl : s.forgetStep l = some l')
    (hfresh : ObjectFresh s l) (hsmall : FreesSmallBlock s l) (hown : OwnEntries s.forget l')
    (hblock : ∀ t size block, l' = .ioMallocZero t size block → s.forget.live block = none)
    (hseen : s.forget.step l' = some a) (hfirst : ∀ ptr, ¬ (a.phase true).Frees ptr) (hstep : s.step l = some (.ok s'))
    (hrest : (objectMachine Bool).Along (fun s l _ => ClientsLegal s l) s' steps) :
    (objectMachine Bool).Along (fun s l _ => ClientsLegal s l) s (l :: steps) := by
  refine (Machine.along_cons_of_next (objectMachine_next_of_step hstep)).2 ⟨⟨hfresh, hsmall, fun l'' hl' => ?_⟩, hrest⟩
  obtain rfl := Option.some.inj (hl.symm.trans hl')
  refine ⟨⟨hblock, fun r hr => ?_⟩, hown⟩
  obtain rfl := Option.some.inj (hseen.symm.trans hr)
  exact oneFreer_of_first hfirst

end

/-- One thread frees what it has allocated, while the other allocates. -/
def freedAndAllocated : List (ObjectStep Bool) :=
  [.ioMallocZero false 64 0x1000, .withCString false (some 0), .withNumber false (some 1), .setObject false true,
    .ioMallocZero true 32 0x2000, .releaseKey false, .releaseValue false, .osFreeMem false 0x1000,
    .withCString false (some 0), .withCString true (some 2), .getObject false, .withNumber true (some 3),
    .requiredCast false, .unsigned64BitValue false, .setObject true true, .ioFree false, .removeObject false,
    .releaseKey false, .releaseKey true, .releaseValue true]

theorem allocObjects_ownNumbers_freedAndAllocated : ∃ s, (objectMachine Bool).after .empty freedAndAllocated = some s ∧
    OwnNumbers s ∧ s.globalAllocations.maps 1 = none ∧ s.globalAllocations.maps 3 = some ⟨.number ⟨1, ⟨32⟩⟩, 0⟩ := by
  refine ⟨_, rfl, (allocObjects_ownNumbers Bool freedAndAllocated ?_).2 _ rfl (by rintro (- | -) <;> rfl), rfl, rfl⟩
  refine along_clientsLegal_seen rfl trivial trivial trivial ?_ rfl (fun _ => id) rfl ?_
  · rintro _ _ _ ⟨⟩
    rfl
  refine along_clientsLegal_silent rfl (by decide) trivial rfl ?_
  refine along_clientsLegal_silent rfl (by decide) trivial rfl ?_
  refine along_clientsLegal_seen rfl trivial trivial ?_ nofun rfl (fun _ => id) rfl ?_
  · rintro ptr b ⟨⟩
    exact ⟨rfl, rfl⟩
  refine along_clientsLegal_seen rfl trivial trivial trivial ?_ rfl (fun _ => id) rfl ?_
  · rintro _ _ _ ⟨⟩
    rfl
  refine along_clientsLegal_silent rfl trivial trivial rfl ?_
  refine along_clientsLegal_silent rfl trivial trivial rfl ?_
  refine along_clientsLegal_seen rfl trivial trivial trivial nofun rfl (fun _ => id) rfl ?_
  refine along_clientsLegal_silent rfl (by decide) trivial rfl ?_
  refine along_clientsLegal_silent rfl (by decide) trivial rfl ?_
  refine along_clientsLegal_seen rfl trivial trivial ?_ nofun rfl (fun _ => id) rfl ?_
  · rintro ptr e ⟨⟩ ⟨⟩
    exact ⟨_, rfl, rfl⟩
  refine along_clientsLegal_silent rfl (by decide) trivial rfl ?_
  refine along_clientsLegal_silent rfl trivial trivial rfl ?_
  refine along_clientsLegal_silent rfl trivial trivial rfl ?_
  refine along_clientsLegal_seen rfl trivial trivial ?_ nofun rfl (fun _ => id) rfl ?_
  · rintro ptr b ⟨⟩
    exact ⟨rfl, rfl⟩
  refine along_clientsLegal_seen rfl trivial ?_ trivial nofun rfl (fun _ => id) rfl ?_
  · rintro _ _ ⟨⟩ _ ⟨⟩
    decide
  refine along_clientsLegal_seen rfl trivial trivial trivial nofun rfl (fun _ => id) rfl ?_
  refine along_clientsLegal_silent rfl trivial trivial rfl ?_
  refine along_clientsLegal_silent rfl trivial trivial rfl ?_
  refine along_clientsLegal_silent rfl trivial trivial rfl ?_
  trivial

end NVMac
