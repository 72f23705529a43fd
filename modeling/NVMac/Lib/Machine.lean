import Mathlib.Data.Option.Basic

/-!
# Machines and their runs

A machine answers calls: `call s l` is the answer to the call `l` made in the state `s`, and `next`
the state that the answer leaves (`none`: the call does not come back). `Along P s ls` says that
every call of the run `ls` from `s` satisfies `P` of the state before it, the call and its answer.

`along_iff_of_legal` turns a condition that is exact for one call, in every state of an invariant,
into one that is exact for a whole run; `after_keep` carries an invariant to the end of a run, and
`along_of_history` one that speaks of the calls made.
-/

structure Machine (σ ι ρ : Type*) where
  call : σ → ι → ρ
  next : ρ → Option σ

namespace Machine
variable {σ ι ρ : Type*} (M : Machine σ ι ρ)

def Along (P : σ → ι → ρ → Prop) : σ → List ι → Prop
  | _, [] => True
  | s, l :: ls => P s l (M.call s l) ∧ ∀ s', M.next (M.call s l) = some s' → Along P s' ls

def after : σ → List ι → Option σ
  | s, [] => some s
  | s, l :: ls => (M.next (M.call s l)).bind fun s' => after s' ls

variable {M} {P Q : σ → ι → ρ → Prop} {s s' : σ} {l : ι} {ls : List ι}

@[simp] theorem along_nil : M.Along P s [] := trivial

theorem along_cons : M.Along P s (l :: ls) ↔
    P s l (M.call s l) ∧ ∀ s', M.next (M.call s l) = some s' → M.Along P s' ls := Iff.rfl

theorem along_cons_of_next (h : M.next (M.call s l) = some s') :
    M.Along P s (l :: ls) ↔ P s l (M.call s l) ∧ M.Along P s' ls := by
  rw [along_cons, h]
  exact and_congr_right fun _ => ⟨fun hs => hs s' rfl, fun hs _ he => Option.some.inj he ▸ hs⟩

theorem after_cons_of_next (h : M.next (M.call s l) = some s') :
    M.after s (l :: ls) = M.after s' ls := by
  simp [after, h]

theorem after_append {ls' : List ι} : M.after s (ls ++ ls') = (M.after s ls).bind fun s' => M.after s' ls' := by
  induction ls generalizing s with
  | nil => rfl
  | cons l ls ih =>
    rw [List.cons_append, after, after, Option.bind_assoc]
    exact Option.bind_congr fun s' _ => ih

instance decidableAlong [∀ s l r, Decidable (P s l r)] :
    ∀ (s : σ) (ls : List ι), Decidable (M.Along P s ls)
  | _, [] => .isTrue trivial
  | s, l :: ls =>
    match hn : M.next (M.call s l) with
    | none => decidable_of_iff (P s l (M.call s l)) (by simp [along_cons, hn])
    | some s' =>
      have := decidableAlong s' ls
      decidable_of_iff (P s l (M.call s l) ∧ M.Along P s' ls) (along_cons_of_next hn).symm

theorem Along.and (h : M.Along P s ls) (h' : M.Along Q s ls) :
    M.Along (fun s l r => P s l r ∧ Q s l r) s ls := by
  induction ls generalizing s with
  | nil => trivial
  | cons l ls ih => exact ⟨⟨h.1, h'.1⟩, fun s' hs' => ih (h.2 s' hs') (h'.2 s' hs')⟩

theorem after_keep {I : σ → Prop}
    (keep : ∀ s l s', I s → M.next (M.call s l) = some s' → I s')
    (hI : I s) (hs' : M.after s ls = some s') : I s' := by
  induction ls generalizing s with
  | nil => exact Option.some.inj hs' ▸ hI
  | cons l ls ih =>
    obtain ⟨s₁, h₁, h₂⟩ := Option.bind_eq_some_iff.1 hs'
    exact ih (keep s l s₁ hI h₁) h₂

/-- A condition that is exact for every single legal call made in the invariant, and keeps it, is
exact for every legal run. -/
theorem along_iff_of_legal {I : σ → Prop} {L : σ → ι → Prop}
    (exact : ∀ s l, I s → L s l → (Q s l (M.call s l) ↔ P s l (M.call s l)))
    (keep : ∀ s l, I s → L s l → P s l (M.call s l) →
      ∀ s', M.next (M.call s l) = some s' → I s')
    (hI : I s) (hL : M.Along (fun s l _ => L s l) s ls) : M.Along Q s ls ↔ M.Along P s ls := by
  induction ls generalizing s with
  | nil => simp
  | cons l ls ih =>
    rw [along_cons, along_cons, exact s l hI hL.1]
    exact and_congr_right fun hP => forall_congr' fun s' => forall_congr' fun hs' =>
      ih (keep s l hI hL.1 hP s' hs') (hL.2 s' hs')

theorem along_true : M.Along (fun _ _ _ => True) s ls := by
  induction ls generalizing s with
  | nil => trivial
  | cons l ls ih => exact ⟨trivial, fun _ _ => ih⟩

/-- What every legal call does in the invariant is done along every legal run. -/
theorem along_of_legal {I : σ → Prop} {L : σ → ι → Prop}
    (step : ∀ s l, I s → L s l → P s l (M.call s l))
    (keep : ∀ s l, I s → L s l → ∀ s', M.next (M.call s l) = some s' → I s')
    (hI : I s) (hL : M.Along (fun s l _ => L s l) s ls) : M.Along P s ls :=
  (along_iff_of_legal (P := fun _ _ _ => True) (fun s l hI hL => iff_of_true (step s l hI hL) trivial)
    (fun s l hI hL _ => keep s l hI hL) hI hL).2 along_true

/-- The same for an invariant that relates the state to the calls made so far. -/
theorem along_of_history {I : List ι → σ → Prop} {L : σ → ι → Prop} (made : List ι)
    (step : ∀ made s l, I made s → L s l → P s l (M.call s l))
    (keep : ∀ made s l s', I made s → L s l → M.next (M.call s l) = some s' → I (made ++ [l]) s')
    (hI : I made s) (hL : M.Along (fun s l _ => L s l) s ls) :
    M.Along P s ls ∧ ∀ s', M.after s ls = some s' → I (made ++ ls) s' := by
  induction ls generalizing s made with
  | nil =>
    refine ⟨trivial, fun s' hs' => ?_⟩
    rw [List.append_nil, ← Option.some.inj hs']
    exact hI
  | cons l ls ih =>
    have hrest : ∀ s', M.next (M.call s l) = some s' → _ :=
      fun s' hs' => ih (made ++ [l]) (keep made s l s' hI hL.1 hs') (hL.2 s' hs')
    refine ⟨⟨step made s l hI hL.1, fun s' hs' => (hrest s' hs').1⟩, fun s' hs' => ?_⟩
    obtain ⟨s₁, h₁, h₂⟩ := Option.bind_eq_some_iff.1 hs'
    rw [List.append_cons]
    exact (hrest s₁ h₁).2 s' h₂

/-- A condition on the calls alone, where every call comes back. -/
theorem along_calls {p : ι → Prop} (back : ∀ s l, ∃ s', M.next (M.call s l) = some s') :
    M.Along (fun _ l _ => p l) s ls ↔ ∀ l ∈ ls, p l := by
  induction ls generalizing s with
  | nil => simp
  | cons l ls ih =>
    obtain ⟨s', hs'⟩ := back s l
    rw [along_cons_of_next hs', ih, List.forall_mem_cons]

theorem along_iff {I : σ → Prop}
    (exact : ∀ s l, I s → (Q s l (M.call s l) ↔ P s l (M.call s l)))
    (keep : ∀ s l, I s → P s l (M.call s l) → ∀ s', M.next (M.call s l) = some s' → I s')
    (hI : I s) : M.Along Q s ls ↔ M.Along P s ls :=
  along_iff_of_legal (L := fun _ _ => True) (fun s l hI _ => exact s l hI)
    (fun s l hI _ => keep s l hI) hI along_true

end Machine
