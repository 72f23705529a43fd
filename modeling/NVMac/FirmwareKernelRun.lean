import NVMac.Firmware

/-!
# Runs of the kernel port's firmware calls (`firmware_kernel.cpp`)

What `nv_get_firmware` takes of the heaps is given back by nothing: not by its failures, and
`nv_put_firmware` stops at the first of the two blocks. So the blocks of a run are the blocks of its
calls, and `firmwareRun_accumulates` says which these are and what is in them at the end.
-/

namespace NVMac.Kernel
open Objects Outcome Registry

/-- The file that is found and has a size. -/
def sizedFile (firmwareDir : List Char) (fs : FileSystem) (name : List Char) (a : FirmwareAnswers) : Option (List NvU8) :=
  if a.context ≠ 0 ∧ a.getattr = true then foundFile fs firmwareDir name a else none

def bytesRead (file : List NvU8) (a : FirmwareAnswers) : Option (List NvU8) :=
  vnRdwr file ((BitVec.ofNat 64 file.length).setWidth 32) a.rdwr

/-- The blocks that a call takes, as it leaves them. -/
def FirmwareCall.takes (firmwareDir : List Char) : FirmwareCall → List (NvU64 × Block)
  | .get fs name a =>
    match sizedFile firmwareDir fs name a with
    | some file => [(a.context, ⟨.malloc, sizeofFwContext, .context (a.fwContext file)⟩),
        (a.buffer, ⟨.mallocData, (BitVec.ofNat 64 file.length).toNat, ((bytesRead file a).map .bytes).getD .raw⟩)]
    | none => if a.context = 0 then [] else [(a.context, ⟨.malloc, sizeofFwContext, .raw⟩)]
  | .put _ => []

/-- The handle of a call that reads its file. -/
def FirmwareCall.delivers (firmwareDir : List Char) : FirmwareCall → Option NvU64
  | .get fs name a => (sizedFile firmwareDir fs name a).bind fun file => (bytesRead file a).map fun _ => a.context
  | .put _ => none

/-- There is a file, and no memory for it. -/
def Panics (firmwareDir : List Char) : FirmwareCall → Prop
  | .get fs name a => (sizedFile firmwareDir fs name a).isSome = true ∧ a.buffer = 0
  | .put _ => False

/-- A get panics, or delivers; and no put comes back. -/
def GetsOnly (firmwareDir : List Char) (_ : FirmwareRun) (l : FirmwareCall) (answer : FirmwareAnswer) : Prop :=
  match l with
  | .get .. => (Panics firmwareDir l → answer = .error .panic) ∧
    (¬ Panics firmwareDir l → ∃ result r', answer = .ok (some result, r') ∧
      result.handle = (l.delivers firmwareDir).getD 0)
  | .put _ => answer = .error .overRelease

/-- All blocks of all calls are there, as they were left, and all handles are out. -/
structure Accumulated (firmwareDir : List Char) (made : List FirmwareCall) (r : FirmwareRun) : Prop where
  vnodes : r.state.vnodeRefs = 0
  contexts : r.state.vfsContexts = 0
  blocks : ∀ x, r.state.blocks x = (made.flatMap (·.takes firmwareDir)).lookup x
  handles : ∀ h, r.handles h = true ↔ h ∈ made.filterMap (·.delivers firmwareDir)

/-- Beside this, the blocks of each handle are those that its context names. -/
structure Accumulates (firmwareDir : List Char) (made : List FirmwareCall) (r : FirmwareRun) : Prop
    extends Accumulated firmwareDir made r where
  held : ∀ h, r.handles h = true → ∃ c, BacksHandle r.state.blocks h c

/-- The state with more blocks. -/
def FirmwareState.taking (s : FirmwareState) (taken : List (NvU64 × Block)) : FirmwareState :=
  { s with blocks := fun x => (taken.lookup x).or (s.blocks x) }

section
variable {firmwareDir : List Char} {fs : FileSystem} {name : List Char} {a : FirmwareAnswers} {s : FirmwareState}
  {file : List NvU8} {r r' : FirmwareRun} {l : FirmwareCall} {made : List FirmwareCall} {c : NvDarwinFwContext}
  {content : BlockContent} {x h : NvU64}

/-! ### One call -/

theorem alloc_eq_taking (hcontext : a.context ≠ 0) : s.alloc .malloc sizeofFwContext a.context =
    s.taking [(a.context, ⟨.malloc, sizeofFwContext, .raw⟩)] := by
  rw [FirmwareState.alloc, create_of_ne hcontext, FirmwareState.taking]
  congr 1
  funext x
  by_cases hx : x = a.context
  · rw [hx, Function.update_self, List.lookup_cons_self]
    rfl
  · rw [Function.update_of_ne hx, List.lookup_cons, beq_false_of_ne hx]
    rfl

theorem retaining_eq_taking (hne : c.buffer ≠ h) : s.retaining h c content =
    s.taking [(h, ⟨.malloc, sizeofFwContext, .context c⟩), (c.buffer, ⟨.mallocData, c.bufferSize.toNat, content⟩)] := by
  rw [FirmwareState.retaining, FirmwareState.taking]
  congr 1
  funext x
  by_cases hbuffer : x = c.buffer
  · rw [hbuffer, Function.update_self, List.lookup_cons, beq_false_of_ne hne, List.lookup_cons_self]
    rfl
  rw [Function.update_of_ne hbuffer]
  by_cases hx : x = h
  · rw [hx, Function.update_self, List.lookup_cons_self]
    rfl
  · rw [Function.update_of_ne hx, List.lookup_cons, beq_false_of_ne hx, List.lookup_cons, beq_false_of_ne hbuffer]
    rfl

theorem sizedFile_eq_some (hfile : sizedFile firmwareDir fs name a = some file) :
    a.context ≠ 0 ∧ a.getattr = true ∧ foundFile fs firmwareDir name a = some file := by
  rw [sizedFile] at hfile
  split_ifs at hfile with h
  exact ⟨h.1, h.2, hfile⟩

/-- A get without a file, or without its size, leaves its first block. -/
theorem nvGetFirmware_unsized (hfile : sizedFile firmwareDir fs name a = none) : ∃ lookedUp,
    nvGetFirmware fs firmwareDir name s a =
      .ok (⟨lookedUp, 0, none⟩, s.taking ((FirmwareCall.get fs name a).takes firmwareDir)) := by
  rw [FirmwareCall.takes, hfile]
  dsimp only
  by_cases hcontext : a.context = 0
  · rw [if_pos hcontext]
    exact ⟨_, nvGetFirmware_no_context hcontext⟩
  · rw [if_neg hcontext, ← alloc_eq_taking hcontext]
    cases hfound : foundFile fs firmwareDir name a with
    | none => exact ⟨_, nvGetFirmware_not_found hcontext hfound⟩
    | some file =>
      have hattr : a.getattr ≠ true := fun hattr => by
        rw [sizedFile, if_pos ⟨hcontext, hattr⟩, hfound] at hfile
        cases hfile
      exact ⟨_, nvGetFirmware_no_size hcontext hfound hattr⟩

theorem nvGetFirmware_sized (hfile : sizedFile firmwareDir fs name a = some file) (hbuffer : a.buffer ≠ 0)
    (hne : a.buffer ≠ a.context) : ∃ lookedUp out, nvGetFirmware fs firmwareDir name s a =
      .ok (⟨lookedUp, ((FirmwareCall.get fs name a).delivers firmwareDir).getD 0, out⟩,
        s.taking ((FirmwareCall.get fs name a).takes firmwareDir)) := by
  obtain ⟨hcontext, hattr, hfound⟩ := sizedFile_eq_some hfile
  rw [nvGetFirmware_of_buffer hcontext hfound hattr hbuffer hne, FirmwareCall.takes, FirmwareCall.delivers, hfile]
  simp only [Option.bind_some, bytesRead]
  cases vnRdwr file ((BitVec.ofNat 64 file.length).setWidth 32) a.rdwr with
  | none =>
    dsimp only
    rw [retaining_eq_taking hne]
    exact ⟨_, _, rfl⟩
  | some read =>
    dsimp only
    rw [retaining_eq_taking hne]
    exact ⟨_, _, rfl⟩

theorem nvGetFirmware_back (hne : a.buffer ≠ 0 → a.buffer ≠ a.context) (hl : ¬ Panics firmwareDir (.get fs name a)) :
    ∃ lookedUp out, nvGetFirmware fs firmwareDir name s a =
      .ok (⟨lookedUp, ((FirmwareCall.get fs name a).delivers firmwareDir).getD 0, out⟩,
        s.taking ((FirmwareCall.get fs name a).takes firmwareDir)) := by
  cases hfile : sizedFile firmwareDir fs name a with
  | none =>
    obtain ⟨lookedUp, hget⟩ := nvGetFirmware_unsized (s := s) hfile
    rw [FirmwareCall.delivers, hfile]
    exact ⟨lookedUp, none, hget⟩
  | some file =>
    have hbuffer : a.buffer ≠ 0 := fun hnull => hl ⟨by rw [hfile]; rfl, hnull⟩
    exact nvGetFirmware_sized hfile hbuffer (hne hbuffer)

theorem nvGetFirmware_panics (hl : Panics firmwareDir (.get fs name a)) :
    nvGetFirmware fs firmwareDir name s a = .error .panic := by
  obtain ⟨hfile, hbuffer⟩ := hl
  obtain ⟨file, hfile⟩ := Option.isSome_iff_exists.1 hfile
  obtain ⟨hcontext, hattr, hfound⟩ := sizedFile_eq_some hfile
  exact nvGetFirmware_no_buffer hcontext hfound hattr hbuffer

/-! ### What a call takes -/

/-- The blocks are at the addresses that the heaps answer. -/
theorem lookup_takes {b : Block} (hx : ((FirmwareCall.get fs name a).takes firmwareDir).lookup x = some b) :
    x = a.context ∨ x = a.buffer := by
  by_contra hnot
  obtain ⟨hcontext, hbuffer⟩ := not_or.1 hnot
  have hnone : ((FirmwareCall.get fs name a).takes firmwareDir).lookup x = none := by
    rw [FirmwareCall.takes]
    split
    · rw [List.lookup_cons, beq_false_of_ne hcontext, List.lookup_cons, beq_false_of_ne hbuffer]
      rfl
    · split_ifs
      · rfl
      · rw [List.lookup_cons, beq_false_of_ne hcontext]
        rfl
  rw [hnone] at hx
  cases hx

theorem takes_fresh {b : Block} (hl : FirmwareLegal r l) (hx : (l.takes firmwareDir).lookup x = some b) :
    r.state.blocks x = none := by
  cases l with
  | get fs name a =>
    rcases lookup_takes hx with rfl | rfl
    · exact hl.1
    · exact hl.2.1
  | put fwHandle => cases hx

theorem extends_taking (hl : FirmwareLegal r l) :
    Extends r.state.blocks (r.state.taking (l.takes firmwareDir)).blocks := by
  intro x o ho
  show ((l.takes firmwareDir).lookup x).or (r.state.blocks x) = some o
  cases hx : (l.takes firmwareDir).lookup x with
  | none => exact ho
  | some b =>
    rw [takes_fresh hl hx] at ho
    cases ho

/-- The handle that is delivered is that of two of the blocks taken. -/
theorem backs_delivers (hl : FirmwareLegal r l) (hpanics : ¬ Panics firmwareDir l) (hh : l.delivers firmwareDir = some h) :
    h ≠ 0 ∧ ∃ c, BacksHandle (r.state.taking (l.takes firmwareDir)).blocks h c := by
  cases l with
  | put fwHandle => cases hh
  | get fs name a =>
    obtain ⟨file, hfile, hread⟩ := Option.bind_eq_some_iff.1 hh
    obtain ⟨read, -, rfl⟩ := Option.map_eq_some_iff.1 hread
    obtain ⟨hcontext, -, -⟩ := sizedFile_eq_some hfile
    have hbuffer : a.buffer ≠ 0 := fun hnull => hpanics ⟨by rw [hfile]; rfl, hnull⟩
    refine ⟨hcontext, a.fwContext file, ?_⟩
    rw [FirmwareCall.takes, hfile]
    dsimp only
    exact retaining_eq_taking (c := a.fwContext file) (hl.2.2 hbuffer) ▸ backs_retaining (hl.2.2 hbuffer) hbuffer

/-! ### Runs -/

theorem handOut_handles {d : Option NvU64} {lookedUp : Option (List Char)} {out : Option (NvU64 × NvU32)}
    (hd : ∀ h, d = some h → h ≠ 0) :
    (r.handOut ⟨lookedUp, d.getD 0, out⟩ s).handles h = true ↔ r.handles h = true ∨ d = some h := by
  cases d with
  | none => exact (or_iff_left (fun heq => by cases heq)).symm
  | some h' =>
    have hhandles : (r.handOut ⟨lookedUp, h', out⟩ s).handles = Function.update r.handles h' true := if_neg (hd h' rfl)
    rw [Option.getD_some, hhandles]
    by_cases heq : h = h'
    · rw [heq, Function.update_self]
      exact iff_of_true rfl (.inr rfl)
    · rw [Function.update_of_ne heq, or_iff_left fun he => heq (Option.some.inj he).symm]

theorem Accumulates.empty : Accumulates firmwareDir [] .empty where
  vnodes := rfl
  contexts := rfl
  blocks _ := rfl
  handles _ := iff_of_false Bool.false_ne_true List.not_mem_nil
  held _ hh := by cases hh

theorem Accumulates.gets (hr : Accumulates firmwareDir made r) (hl : FirmwareLegal r l) :
    GetsOnly firmwareDir r l ((firmwareMachine firmwareDir).call r l) := by
  cases l with
  | get fs name a =>
    constructor
    · intro hpanics
      exact congrArg (Except.map _) (nvGetFirmware_panics hpanics)
    · intro hpanics
      obtain ⟨lookedUp, out, hget⟩ := nvGetFirmware_back (s := r.state) hl.2.2 hpanics
      exact ⟨_, _, firmwareMachine_get hget, rfl⟩
  | put fwHandle =>
    obtain ⟨c, hc⟩ := hr.held fwHandle hl
    exact firmwareMachine_put hc

theorem Accumulates.next (hr : Accumulates firmwareDir made r) (hl : FirmwareLegal r l)
    (hnext : (firmwareMachine firmwareDir).next ((firmwareMachine firmwareDir).call r l) = some r') :
    Accumulates firmwareDir (made ++ [l]) r' := by
  have hgets := hr.gets hl
  cases l with
  | put fwHandle =>
    rw [show (firmwareMachine firmwareDir).call r (.put fwHandle) = _ from hgets] at hnext
    cases hnext
  | get fs name a =>
    have hpanics : ¬ Panics firmwareDir (.get fs name a) := fun hpanics => by
      rw [hgets.1 hpanics] at hnext
      cases hnext
    obtain ⟨lookedUp, out, hget⟩ := nvGetFirmware_back (s := r.state) hl.2.2 hpanics
    rw [firmwareMachine_next_get hget] at hnext
    cases hnext
    have hback : ∀ h, (FirmwareCall.get fs name a).delivers firmwareDir = some h → _ :=
      fun h hh => backs_delivers hl hpanics hh
    have hhandles : ∀ h, (r.handOut ⟨lookedUp, ((FirmwareCall.get fs name a).delivers firmwareDir).getD 0, out⟩
        (r.state.taking ((FirmwareCall.get fs name a).takes firmwareDir))).handles h = true ↔
          r.handles h = true ∨ (FirmwareCall.get fs name a).delivers firmwareDir = some h :=
      fun h => handOut_handles fun h hh => (hback h hh).1
    refine ⟨⟨hr.vnodes, hr.contexts, fun x => ?_, fun h => ?_⟩, fun h hh => ?_⟩
    · -- The new blocks are where there was none.
      rw [List.flatMap_append, List.lookup_append, ← hr.blocks, List.flatMap_singleton]
      show (List.lookup x _).or (r.state.blocks x) = _
      cases hx : ((FirmwareCall.get fs name a).takes firmwareDir).lookup x with
      | none => rw [Option.none_or, Option.or_none]
      | some b => rw [takes_fresh hl hx, Option.none_or, Option.some_or]
    · rw [hhandles, hr.handles, List.filterMap_append, List.mem_append, List.filterMap_cons]
      cases (FirmwareCall.get fs name a).delivers firmwareDir with
      | none => simp
      | some h' => simp [eq_comm]
    · rcases (hhandles h).1 hh with hold | hnew
      · obtain ⟨c, hc⟩ := hr.held h hold
        exact ⟨c, hc.mono (extends_taking hl)⟩
      · exact (hback h hnew).2

end

/-- In every run a get panics for want of a buffer or delivers, a put breaks the heap, and nothing that
was taken goes: what is left after it are the blocks of all its calls, with the bytes that were read. -/
theorem firmwareRun_accumulates (firmwareDir : List Char) (calls : List FirmwareCall)
    (hlegal : (firmwareMachine firmwareDir).Along (fun r l _ => FirmwareLegal r l) .empty calls) :
    (firmwareMachine firmwareDir).Along (GetsOnly firmwareDir) .empty calls ∧
      ∀ r, (firmwareMachine firmwareDir).after .empty calls = some r → Accumulated firmwareDir calls r := by
  obtain ⟨hgets, hafter⟩ := Machine.along_of_history (I := Accumulates firmwareDir) [] (fun _ _ _ hr hl => hr.gets hl)
    (fun _ _ _ _ hr hl hnext => hr.next hl hnext) .empty hlegal
  exact ⟨hgets, fun r hr => (hafter r hr).toAccumulated⟩

/-- The same firmware twice, the second time with no size. -/
def gotTwice : List FirmwareCall :=
  [.get (oneFirmware "/nvd".toList) "gsp".toList .passing,
    .get (oneFirmware "/nvd".toList) "gsp".toList ⟨0x3000, true, false, 0x4000, true⟩]

theorem firmwareRun_accumulates_gotTwice : ∃ r, (firmwareMachine "/nvd".toList).after .empty gotTwice = some r ∧
    Accumulated "/nvd".toList gotTwice r ∧ r.handles 0x1000 = true ∧
    r.state.blocks 0x2000 = some ⟨.mallocData, 3, .bytes [1, 2, 3]⟩ ∧
    r.state.blocks 0x3000 = some ⟨.malloc, sizeofFwContext, .raw⟩ := by
  have hread : nvGetFirmware (oneFirmware "/nvd".toList) "/nvd".toList "gsp".toList .empty .passing =
      .ok (⟨some (lookedUpPath "/nvd".toList "gsp".toList), 0x1000, some (0x2000, 3)⟩,
        FirmwareState.empty.retaining 0x1000 ⟨0x2000, 3⟩ (.bytes [1, 2, 3])) :=
    nvGetFirmware_of_buffer (by decide) (foundFile_gsp_here _) rfl (by decide) (by decide)
  have hnext := firmwareMachine_next_get (r := .empty) hread
  have hunsized : nvGetFirmware (oneFirmware "/nvd".toList) "/nvd".toList "gsp".toList
      (FirmwareState.empty.retaining 0x1000 ⟨0x2000, 3⟩ (.bytes [1, 2, 3])) ⟨0x3000, true, false, 0x4000, true⟩ =
      .ok (⟨some (lookedUpPath "/nvd".toList "gsp".toList), 0, none⟩, _) :=
    nvGetFirmware_no_size (by decide) (foundFile_gsp_here _) (by decide)
  have hafter : (firmwareMachine "/nvd".toList).after .empty gotTwice = some _ :=
    (Machine.after_cons_of_next hnext).trans (Machine.after_cons_of_next (firmwareMachine_next_get hunsized))
  refine ⟨_, hafter, (firmwareRun_accumulates "/nvd".toList gotTwice ?_).2 _ hafter, rfl, rfl, rfl⟩
  refine (Machine.along_cons_of_next hnext).2 ⟨⟨rfl, rfl, fun _ => by decide⟩, ⟨rfl, rfl, fun _ => by decide⟩, ?_⟩
  exact fun _ _ => trivial

end NVMac.Kernel
