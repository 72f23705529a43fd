import NVMac.AllocThreads
import NVMac.MapThreads

/-!
# The strings and numbers of the allocation registry (`libc.cpp`)

`os_alloc_mem` and `os_free_mem` with the objects that they make: the string of a key and the number of
a size, each with a retain of the call, and of the registry once it is entered. What `os_free_mem` finds
in the registry it reads without a retain. `ObjectsCounted` is what every step keeps.
-/

namespace NVMac
open Refs Registry Outcome

abbrev ObjectHandle := MapHandle

/-- What a number is for goes with it. -/
inductive AllocObject
  | string
  | number (e : Entry)

def AllocObject.entry : AllocObject → Option Entry
  | .string => none
  | .number e => some e

/-- `global_allocations` is a dictionary like `global_mapped_memory`. -/
abbrev AllocDictionary := Mappings AllocObject

namespace AllocDictionary

/-- The object that the system makes, or `NULL`. -/
def make (m : AllocDictionary) (value : AllocObject) : Option ObjectHandle → AllocDictionary
  | none => m
  | some h => m.create h value

/-- There is no entry without a key or without a value, nor where the dictionary fails. -/
def setEntry (m : AllocDictionary) (ptr : NvU64) (key value : Option ObjectHandle) (entered : Bool) :
    Except Fault AllocDictionary :=
  match key, value, entered with
  | some _, some h, true => m.setObject (keyName ptr) h
  | _, _, _ => .ok m

/-- `OSSafeReleaseNULL`. -/
def safeRelease (m : AllocDictionary) : Option ObjectHandle → Except Fault AllocDictionary
  | none => .ok m
  | some h => m.release h

def entryOf (m : AllocDictionary) (h : ObjectHandle) : Option Entry := (m.maps h).bind (·.value.entry)

/-- What a number is asked, which must be there for it and be one. -/
def ofNumber {β : Type} (m : AllocDictionary) (object : ObjectHandle) (ask : Entry → β) : Except Fault β := do
  let o ← NVMac.live (m.maps object)
  match o.value with
  | .string => .error .wrongClass
  | .number e => pure (ask e)

/-- `OSRequiredCast` to a number. -/
def requiredCast (m : AllocDictionary) (object : ObjectHandle) : Except Fault Unit := m.ofNumber object fun _ => ()

def unsigned64BitValue (m : AllocDictionary) (object : ObjectHandle) : Except Fault NvU64 :=
  m.ofNumber object fun e => e.value.unsigned64BitValue

end AllocDictionary

/-- Where a thread is, with its variables: outside; in `os_alloc_mem` before `withCString`, `withNumber`,
`setObject` and the two releases; and in `os_free_mem` before `withCString`, `getObject`, the cast of
what it found, `unsigned64BitValue`, `IOFree`, `removeObject` and the release. -/
inductive ObjectPhase
  | idle
  | allocated (ptr : NvU64) (b : Block)
  | keyed (ptr : NvU64) (b : Block) (key : Option ObjectHandle)
  | made (ptr : NvU64) (b : Block) (key value : Option ObjectHandle)
  | entered (key value : Option ObjectHandle)
  | keyReleased (value : Option ObjectHandle)
  | freeing (ptr : NvU64)
  | searching (ptr : NvU64) (key : Option ObjectHandle)
  | found (ptr : NvU64) (key : Option ObjectHandle) (object : ObjectHandle)
  | checked (ptr : NvU64) (key : Option ObjectHandle) (object : ObjectHandle)
  | read (ptr allocationSize : NvU64) (key : Option ObjectHandle)
  | freed (ptr : NvU64) (key : Option ObjectHandle)
  | leaving (key : Option ObjectHandle)

namespace ObjectPhase

def key : ObjectPhase → Option ObjectHandle
  | keyed _ _ key | made _ _ key _ | entered key _ | searching _ key | found _ key _ | checked _ key _ | read _ _ key
  | freed _ key | leaving key => key
  | idle | allocated .. | keyReleased _ | freeing _ => none

def value : ObjectPhase → Option ObjectHandle
  | made _ _ _ value | entered _ value | keyReleased value => value
  | _ => none

/-- The number that is to be entered, and what it is for. -/
def toEnter : ObjectPhase → Option (ObjectHandle × Entry)
  | made _ b _ (some h) => some (h, b.entry)
  | _ => none

/-- What has been found and is not read yet. -/
def finding : ObjectPhase → Option (NvU64 × ObjectHandle)
  | found ptr _ object | checked ptr _ object => some (ptr, object)
  | _ => none

/-- What is about to be freed, and with what size. -/
def toFree : ObjectPhase → Option (NvU64 × NvU64)
  | read ptr allocationSize _ => some (ptr, allocationSize)
  | _ => none

theorem value_of_toEnter {phase : ObjectPhase} {h : ObjectHandle} {e : Entry} (hphase : phase.toEnter = some (h, e)) :
    phase.value = some h := by
  cases phase with
  | made ptr b key value =>
    cases value with
    | none => cases hphase
    | some h' => cases hphase; rfl
  | _ => cases hphase

end ObjectPhase

structure AllocObjects (τ : Type) where
  live : NvU64 → Option Block
  globalAllocations : AllocDictionary
  phase : τ → ObjectPhase
  allocations : Nat

/-- The answers of the system are `NULL` where there are none. -/
inductive ObjectStep (τ : Type)
  | ioMallocZero (t : τ) (size block : NvU64)
  | withCString (t : τ) (key : Option ObjectHandle)
  | withNumber (t : τ) (value : Option ObjectHandle)
  | setObject (t : τ) (entered : Bool)
  | osFreeMem (t : τ) (ptr : NvU64)
  | getObject (t : τ)
  | requiredCast (t : τ)
  | unsigned64BitValue (t : τ)
  | ioFree (t : τ)
  | removeObject (t : τ)
  | releaseKey (t : τ)
  | releaseValue (t : τ)

variable {τ : Type}

namespace AllocObjects

def empty : AllocObjects τ := ⟨fun _ => none, .empty, fun _ => .idle, 0⟩

/-- The variables of the threads. -/
def holds (s : AllocObjects τ) : τ ⊕ τ → Option ObjectHandle :=
  Sum.elim (fun t => (s.phase t).key) fun t => (s.phase t).value

/-- The places with a retain of their own: the entries, and the variables for keys and for values. -/
def places (s : AllocObjects τ) : List Char ⊕ (τ ⊕ τ) → Option ObjectHandle := s.globalAllocations.places s.holds

variable [DecidableEq τ]

def enter (s : AllocObjects τ) (t : τ) (phase : ObjectPhase) (globalAllocations : AllocDictionary) : AllocObjects τ :=
  { s with globalAllocations, phase := Function.update s.phase t phase }

def malloc (s : AllocObjects τ) (t : τ) (size ptr : NvU64) : AllocObjects τ :=
  { s.enter t (.allocated ptr ⟨s.allocations, size⟩) s.globalAllocations with
    live := Function.update s.live ptr (some ⟨s.allocations, size⟩)
    allocations := s.allocations + 1 }

def free (s : AllocObjects τ) (t : τ) (ptr : NvU64) (key : Option ObjectHandle) : AllocObjects τ :=
  { s.enter t (.freed ptr key) s.globalAllocations with live := Function.update s.live ptr none }

/-- `IOFree` needs a block of the size that it is given. -/
def ioFree (s : AllocObjects τ) (t : τ) (ptr allocationSize : NvU64) (key : Option ObjectHandle) :
    Except Fault (AllocObjects τ) :=
  match s.live ptr with
  | some b => if b.size = allocationSize then .ok (s.free t ptr key) else .error .overRelease
  | none => .error .overRelease

/-- The next step of a thread; `none` if the thread is not before it. -/
def step (s : AllocObjects τ) : ObjectStep τ → Option (Except Fault (AllocObjects τ))
  | .ioMallocZero t size block =>
    match s.phase t with
    | .idle => some (.ok (if block = 0 then s else s.malloc t size block))
    | _ => none
  | .withCString t key =>
    match s.phase t with
    | .allocated ptr b => some (.ok (s.enter t (.keyed ptr b key) (s.globalAllocations.make .string key)))
    | .freeing ptr => some (.ok (s.enter t (.searching ptr key) (s.globalAllocations.make .string key)))
    | _ => none
  | .withNumber t value =>
    match s.phase t with
    | .keyed ptr b key =>
      some (.ok (s.enter t (.made ptr b key value) (s.globalAllocations.make (.number b.entry) value)))
    | _ => none
  | .setObject t entered =>
    match s.phase t with
    | .made ptr _ key value =>
      some (s.enter t (.entered key value) <$> s.globalAllocations.setEntry ptr key value entered)
    | _ => none
  | .osFreeMem t ptr =>
    match s.phase t with
    | .idle => some (.ok (s.enter t (.freeing ptr) s.globalAllocations))
    | _ => none
  | .getObject t =>
    match s.phase t with
    | .searching ptr key =>
      match key.bind fun _ => s.globalAllocations.globalMappedMemory (keyName ptr) with
      | none => some (.ok (s.enter t (.leaving key) s.globalAllocations))
      | some object => some (.ok (s.enter t (.found ptr key object) s.globalAllocations))
    | _ => none
  | .requiredCast t =>
    match s.phase t with
    | .found ptr key object =>
      some ((fun _ => s.enter t (.checked ptr key object) s.globalAllocations) <$>
        s.globalAllocations.requiredCast object)
    | _ => none
  | .unsigned64BitValue t =>
    match s.phase t with
    | .checked ptr key object =>
      some ((fun allocationSize => s.enter t (.read ptr allocationSize key) s.globalAllocations) <$>
        s.globalAllocations.unsigned64BitValue object)
    | _ => none
  | .ioFree t =>
    match s.phase t with
    | .read ptr allocationSize key => some (s.ioFree t ptr allocationSize key)
    | _ => none
  | .removeObject t =>
    match s.phase t with
    | .freed ptr key => some (s.enter t (.leaving key) <$> s.globalAllocations.removeObject (keyName ptr))
    | _ => none
  | .releaseKey t =>
    match s.phase t with
    | .entered key value => some (s.enter t (.keyReleased value) <$> s.globalAllocations.safeRelease key)
    | .leaving key => some (s.enter t .idle <$> s.globalAllocations.safeRelease key)
    | _ => none
  | .releaseValue t =>
    match s.phase t with
    | .keyReleased value => some (s.enter t .idle <$> s.globalAllocations.safeRelease value)
    | _ => none

end AllocObjects

def objectMachine (τ : Type) [DecidableEq τ] :
    Machine (AllocObjects τ) (ObjectStep τ) (Option (Except Fault (AllocObjects τ))) where
  call := AllocObjects.step
  next a := a.bind Except.toOption

/-- The system makes no object that is still there. -/
def ObjectFresh (s : AllocObjects τ) : ObjectStep τ → Prop
  | .withCString _ h | .withNumber _ h => ∀ x, h = some x → s.globalAllocations.maps x = none
  | _ => True

instance (s : AllocObjects τ) : (l : ObjectStep τ) → Decidable (ObjectFresh s l)
  | .withCString _ none | .withNumber _ none => .isTrue fun _ h => (by cases h)
  | .withCString _ (some h) | .withNumber _ (some h) =>
    decidable_of_iff (s.globalAllocations.maps h = none) (by simp [ObjectFresh])
  | .ioMallocZero .. | .setObject .. | .osFreeMem .. | .getObject _ | .requiredCast _ | .unsigned64BitValue _
  | .ioFree _ | .removeObject _ | .releaseKey _ | .releaseValue _ => .isTrue trivial

/-- What was found is no longer the entry when it is cast or read, or what is freed is no block of the
size that was read. -/
inductive ObjectFails (s : AllocObjects τ) : ObjectStep τ → Fault → Prop
  | cast {t : τ} {ptr : NvU64} {key : Option ObjectHandle} {object : ObjectHandle} {e : Fault}
      (found : s.phase t = .found ptr key object)
      (lost : s.globalAllocations.globalMappedMemory (keyName ptr) ≠ some object) : ObjectFails s (.requiredCast t) e
  | value {t : τ} {ptr : NvU64} {key : Option ObjectHandle} {object : ObjectHandle} {e : Fault}
      (checked : s.phase t = .checked ptr key object)
      (lost : s.globalAllocations.globalMappedMemory (keyName ptr) ≠ some object) :
      ObjectFails s (.unsigned64BitValue t) e
  | free {t : τ} {ptr allocationSize : NvU64} {key : Option ObjectHandle}
      (read : s.phase t = .read ptr allocationSize key)
      (noBlock : ∀ b, s.live ptr = some b → b.size ≠ allocationSize) : ObjectFails s (.ioFree t) .overRelease

/-- Each object is retained as often as there are places with a retain; when all threads are outside,
these are the entries. Nothing else fails. -/
def KeepsObjects (s : AllocObjects τ) (l : ObjectStep τ) : Option (Except Fault (AllocObjects τ)) → Prop
  | none => True
  | some (.error e) => ObjectFails s l e
  | some (.ok s') => Balanced s'.globalAllocations.maps s'.places ∧ ((∀ t, s'.phase t = .idle) →
      Balanced s'.globalAllocations.maps s'.globalAllocations.globalMappedMemory)

/-! ### The dictionary -/

section
variable {m m' : AllocDictionary} {h x : ObjectHandle} {e : Entry} {value : AllocObject}

theorem ofNumber_cases {β : Type} (m : AllocDictionary) (h : ObjectHandle) (ask : Entry → β) :
    (m.entryOf h = none ∧ ∃ f, m.ofNumber h ask = .error f) ∨
      ∃ e, m.entryOf h = some e ∧ m.ofNumber h ask = .ok (ask e) := by
  unfold AllocDictionary.entryOf AllocDictionary.ofNumber
  rcases ho : m.maps h with - | ⟨- | e, more⟩
  · exact .inl ⟨rfl, .overRelease, rfl⟩
  · exact .inl ⟨rfl, .wrongClass, rfl⟩
  · exact .inr ⟨e, rfl, rfl⟩

theorem maps_of_entryOf (he : m.entryOf h = some e) : m.maps h ≠ none := by
  rintro hnone
  rw [AllocDictionary.entryOf, hnone] at he
  cases he

/-- What is there still is the number that it was. -/
def KeepsNumbers (m m' : AllocDictionary) : Prop :=
  ∀ h e, m.entryOf h = some e → m'.maps h ≠ none → m'.entryOf h = some e

theorem KeepsNumbers.of_sameValues (hvalues : SameValues m.maps m'.maps) : KeepsNumbers m m' := by
  intro h e he hlive
  obtain ⟨o, ho⟩ := Option.ne_none_iff_exists'.1 hlive
  obtain ⟨o', ho', hvalue⟩ := hvalues h o ho
  rw [AllocDictionary.entryOf, ho'] at he
  rw [AllocDictionary.entryOf, ho, ← he, Option.bind_some, Option.bind_some, hvalue]

theorem KeepsNumbers.make {object : Option ObjectHandle} (hfresh : ∀ x, object = some x → m.maps x = none) :
    KeepsNumbers m (m.make value object) := by
  intro x e he _
  cases object with
  | none => exact he
  | some h =>
    have hne : x ≠ h := by
      rintro rfl
      exact maps_of_entryOf he (hfresh x rfl)
    rw [← he]
    show (Function.update m.maps h _ x).bind _ = _
    rw [Function.update_of_ne hne]
    rfl

theorem entryOf_create_self : AllocDictionary.entryOf (m.create h (.number e)) h = some e := by
  show (Function.update m.maps h _ h).bind _ = _
  rw [Function.update_self]
  rfl

end

/-! ### Places -/

section
variable [DecidableEq τ] {s s' : AllocObjects τ} {t : τ} {phase : ObjectPhase} {l : ObjectStep τ}

@[simp] theorem AllocObjects.phase_enter_self (m : AllocDictionary) : (s.enter t phase m).phase t = phase :=
  Function.update_self ..

theorem AllocObjects.phase_enter_of_ne {t' : τ} (h : t' ≠ t) (m : AllocDictionary) :
    (s.enter t phase m).phase t' = s.phase t' := Function.update_of_ne h ..

theorem AllocObjects.holds_enter (m : AllocDictionary) : (s.enter t phase m).holds =
    Function.update (Function.update s.holds (.inl t) phase.key) (.inr t) phase.value := by
  have hkeys : (fun t' => ((s.enter t phase m).phase t').key) = Function.update (fun t' => (s.phase t').key) t phase.key :=
    Function.comp_update ObjectPhase.key s.phase t phase
  have hvalues : (fun t' => ((s.enter t phase m).phase t').value) =
      Function.update (fun t' => (s.phase t').value) t phase.value :=
    Function.comp_update ObjectPhase.value s.phase t phase
  rw [holds, hkeys, hvalues, holds, Sum.update_elim_inl, Sum.update_elim_inr]

theorem AllocObjects.holds_enter_same (hkey : phase.key = (s.phase t).key) (hvalue : phase.value = (s.phase t).value)
    (m : AllocDictionary) : (s.enter t phase m).holds = s.holds := by
  have hkey' : phase.key = s.holds (.inl t) := hkey
  have hvalue' : phase.value = s.holds (.inr t) := hvalue
  rw [holds_enter, hkey', Function.update_eq_self, hvalue', Function.update_eq_self]

theorem AllocObjects.holds_enter_key (hvalue : phase.value = (s.phase t).value) (m : AllocDictionary) :
    (s.enter t phase m).holds = Function.update s.holds (.inl t) phase.key := by
  have hvalue' : phase.value = Function.update s.holds (.inl t) phase.key (.inr t) := by
    rw [Function.update_of_ne Sum.inr_ne_inl]
    exact hvalue
  rw [holds_enter, hvalue', Function.update_eq_self]

theorem AllocObjects.holds_enter_value (hkey : phase.key = (s.phase t).key) (m : AllocDictionary) :
    (s.enter t phase m).holds = Function.update s.holds (.inr t) phase.value := by
  have hkey' : phase.key = s.holds (.inl t) := hkey
  rw [holds_enter, hkey', Function.update_eq_self]

/-! ### One step -/

/-- The invariant: retains are counted right, entries are numbers, and a number that a thread is about to
enter is that of its block. -/
structure ObjectsCounted (s : AllocObjects τ) : Prop where
  balanced : Balanced s.globalAllocations.maps s.places
  entries : ∀ key h, s.globalAllocations.globalMappedMemory key = some h → ∃ e, s.globalAllocations.entryOf h = some e
  made : ∀ t h e, (s.phase t).toEnter = some (h, e) → s.globalAllocations.entryOf h = some e

omit [DecidableEq τ] in
/-- What is no number is no entry. -/
theorem ObjectsCounted.ne_entry (hs : ObjectsCounted s) {key : List Char} {h : ObjectHandle}
    (hnone : s.globalAllocations.entryOf h = none) : s.globalAllocations.globalMappedMemory key ≠ some h := by
  intro hkey
  obtain ⟨e, he⟩ := hs.entries key h hkey
  rw [hnone] at he
  cases he

omit [DecidableEq τ] in
theorem ObjectsCounted.empty : ObjectsCounted (.empty : AllocObjects τ) := by
  refine ⟨?_, nofun, nofun⟩
  have hholds : (AllocObjects.empty : AllocObjects τ).holds = fun _ => none := by
    funext p
    rcases p with t | t <;> rfl
  show Balanced _ (Sum.elim _ _)
  rw [hholds]
  exact balanced_elim_none.2 .empty

/-- A thread goes on with a dictionary in which numbers are what they were. -/
theorem ObjectsCounted.enter (hs : ObjectsCounted s) {m : AllocDictionary} (hkeep : KeepsNumbers s.globalAllocations m)
    (hbalanced : Balanced m.maps (m.places (s.enter t phase m).holds))
    (hentries : ∀ key h, m.globalMappedMemory key = some h →
      s.globalAllocations.globalMappedMemory key = some h ∨ ∃ e, s.globalAllocations.entryOf h = some e)
    (hmade : ∀ h e, phase.toEnter = some (h, e) → m.entryOf h = some e) :
    ObjectsCounted (s.enter t phase m) where
  balanced := hbalanced
  entries := by
    intro key h hkey
    have hplace : m.places (s.enter t phase m).holds (.inl key) = some h := hkey
    obtain ⟨e, he⟩ : ∃ e, s.globalAllocations.entryOf h = some e := (hentries key h hkey).elim (hs.entries key h) id
    exact ⟨e, hkeep h e he (hbalanced.live hplace)⟩
  made := by
    intro t' h e ht'
    by_cases htt : t' = t
    · rw [htt, AllocObjects.phase_enter_self] at ht'
      exact hmade h e ht'
    · have hplace : m.places (s.enter t phase m).holds (.inr (.inr t')) = some h := ObjectPhase.value_of_toEnter ht'
      rw [AllocObjects.phase_enter_of_ne htt] at ht'
      exact hkeep h e (hs.made t' h e ht') (hbalanced.live hplace)

theorem ObjectsCounted.enter_same (hs : ObjectsCounted s) (hkey : phase.key = (s.phase t).key)
    (hvalue : phase.value = (s.phase t).value) (hmade : phase.toEnter = none) :
    ObjectsCounted (s.enter t phase s.globalAllocations) := by
  refine hs.enter (fun h e he _ => he) ?_ (fun key h hk => .inl hk) fun h e hphase => by simp [hmade] at hphase
  rw [AllocObjects.holds_enter_same hkey hvalue]
  exact hs.balanced

/-- An object is made, or not, for a variable that had none. -/
theorem ObjectsCounted.make (hs : ObjectsCounted s) {r : τ ⊕ τ} {object : Option ObjectHandle} {value : AllocObject}
    (hr : s.holds r = none) (hfresh : ∀ x, object = some x → s.globalAllocations.maps x = none)
    (hholds : ∀ m, (s.enter t phase m).holds = Function.update s.holds r object)
    (hmade : ∀ h e, phase.toEnter = some (h, e) → object = some h ∧ value = .number e) :
    ObjectsCounted (s.enter t phase (s.globalAllocations.make value object)) := by
  refine hs.enter (.make hfresh) ?_ ?_ ?_
  · have hplace : s.places (.inr r) = none := hr
    rw [hholds, Mappings.places_update_holds]
    cases object with
    | none =>
      show Balanced s.globalAllocations.maps (Function.update s.places (.inr r) none)
      rw [← hplace, Function.update_eq_self]
      exact hs.balanced
    | some h => exact hs.balanced.create hplace (hfresh h rfl) value
  · intro key h hk
    cases object <;> exact .inl hk
  · intro h e hphase
    obtain ⟨rfl, rfl⟩ := hmade h e hphase
    exact entryOf_create_self

theorem ObjectsCounted.safeRelease (hs : ObjectsCounted s) {r : τ ⊕ τ} {object : Option ObjectHandle}
    (hr : s.holds r = object) (hholds : ∀ m, (s.enter t phase m).holds = Function.update s.holds r none)
    (hmade : phase.toEnter = none) :
    ∃ maps, s.globalAllocations.safeRelease object = .ok ⟨maps, s.globalAllocations.globalMappedMemory⟩ ∧
      KeepsNumbers s.globalAllocations ⟨maps, s.globalAllocations.globalMappedMemory⟩ ∧
      ObjectsCounted (s.enter t phase ⟨maps, s.globalAllocations.globalMappedMemory⟩) := by
  have hcounted : ∀ maps, SameValues s.globalAllocations.maps maps →
      Balanced maps (Function.update s.places (.inr r) none) →
      ObjectsCounted (s.enter t phase ⟨maps, s.globalAllocations.globalMappedMemory⟩) := by
    intro maps hvalues hbalanced
    refine hs.enter (.of_sameValues hvalues) ?_ (fun key h hk => .inl hk) fun h e hphase => by simp [hmade] at hphase
    rw [hholds, Mappings.places_update_holds]
    exact hbalanced
  cases object with
  | none =>
    have hvalues : SameValues s.globalAllocations.maps s.globalAllocations.maps := fun x o ho => ⟨o, ho, rfl⟩
    refine ⟨_, rfl, .of_sameValues hvalues, hcounted _ hvalues ?_⟩
    have hplace : s.places (.inr r) = none := hr
    rw [← hplace, Function.update_eq_self]
    exact hs.balanced
  | some h =>
    obtain ⟨maps, hrelease, hbalanced, hvalues⟩ := Mappings.release_balanced hs.balanced hr
    exact ⟨maps, hrelease, .of_sameValues hvalues, hcounted maps hvalues hbalanced⟩

theorem ObjectsCounted.removeObject (hs : ObjectsCounted s) (key : List Char) (hkey : phase.key = (s.phase t).key)
    (hvalue : phase.value = (s.phase t).value) (hmade : phase.toEnter = none) :
    ∃ maps, s.globalAllocations.removeObject key =
        .ok ⟨maps, Function.update s.globalAllocations.globalMappedMemory key none⟩ ∧
      KeepsNumbers s.globalAllocations ⟨maps, Function.update s.globalAllocations.globalMappedMemory key none⟩ ∧
      ObjectsCounted (s.enter t phase ⟨maps, Function.update s.globalAllocations.globalMappedMemory key none⟩) := by
  obtain ⟨maps, hremove, hbalanced, hvalues⟩ := Mappings.removeObject_balanced hs.balanced key
  refine ⟨maps, hremove, .of_sameValues hvalues, hs.enter (.of_sameValues hvalues) ?_ ?_ fun h e hphase => by
    simp [hmade] at hphase⟩
  · rw [AllocObjects.holds_enter_same hkey hvalue, Mappings.places_update_registry]
    exact hbalanced
  · intro key' h hk
    exact .inl (apply_of_update_eq hk nofun).2

/-- The entry is made if there is a key, a value, and no failure. -/
theorem ObjectsCounted.setEntry (hs : ObjectsCounted s) {ptr : NvU64} {b : Block} {key value : Option ObjectHandle}
    (ht : s.phase t = .made ptr b key value) (entered : Bool) :
    ∃ m, s.globalAllocations.setEntry ptr key value entered = .ok m ∧ KeepsNumbers s.globalAllocations m ∧
      ObjectsCounted (s.enter t (.entered key value) m) ∧
      m.globalMappedMemory = if key.isSome && value.isSome && entered then
        Function.update s.globalAllocations.globalMappedMemory (keyName ptr) value
        else s.globalAllocations.globalMappedMemory := by
  have hkey : (ObjectPhase.entered key value).key = (s.phase t).key := by rw [ht]; rfl
  have hvalue : (ObjectPhase.entered key value).value = (s.phase t).value := by rw [ht]; rfl
  have hsame : ObjectsCounted (s.enter t (.entered key value) s.globalAllocations) := hs.enter_same hkey hvalue rfl
  rcases key with - | k
  · exact ⟨_, rfl, fun h e he _ => he, hsame, by simp⟩
  rcases value with - | h
  · exact ⟨_, rfl, fun h e he _ => he, hsame, by simp⟩
  cases entered with
  | false => exact ⟨_, rfl, fun h e he _ => he, hsame, by simp⟩
  | true =>
    have hplace : s.places (.inr (.inr t)) = some h := congrArg ObjectPhase.value ht
    obtain ⟨maps, hset, hbalanced, hvalues⟩ := Mappings.setObject_balanced hs.balanced (keyName ptr)
      (hs.balanced.live hplace)
    refine ⟨_, hset, .of_sameValues hvalues, hs.enter (.of_sameValues hvalues) ?_ ?_
      (fun h e hphase => by cases hphase), by simp⟩
    · rw [AllocObjects.holds_enter_same hkey hvalue, Mappings.places_update_registry]
      exact hbalanced
    · intro key' x hk
      rcases update_apply_eq_iff.1 hk with ⟨-, hx⟩ | ⟨-, hx⟩
      · exact .inr ⟨_, Option.some.inj hx ▸ hs.made t h b.entry (by rw [ht]; rfl)⟩
      · exact .inl hx

omit [DecidableEq τ] in
theorem ObjectsCounted.balanced_of_idle (hs : ObjectsCounted s) (hidle : ∀ t, s.phase t = .idle) :
    Balanced s.globalAllocations.maps s.globalAllocations.globalMappedMemory := by
  refine balanced_elim_none.1 (?_ : Balanced _ (Sum.elim _ fun _ : τ ⊕ τ => none))
  have hholds : s.holds = fun _ => none := by
    funext p
    rcases p with t | t
    · exact congrArg ObjectPhase.key (hidle t)
    · exact congrArg ObjectPhase.value (hidle t)
  rw [← hholds]
  exact hs.balanced

end

end NVMac
