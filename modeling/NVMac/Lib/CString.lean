import Mathlib.Data.List.TakeDrop
import Mathlib.Data.List.TakeWhile

/-!
# C strings

A buffer is a list of characters, and holds a string if it starts with the string and the terminator
`nul`. The functions scan and fill buffers as the C library does; `none` as a result says that they
leave the buffer.
-/

namespace CString
variable {α : Type}

/-- A write from the start of a buffer on. -/
def overwrite (dst new : List α) : Option (List α) :=
  if new.length ≤ dst.length then some (new ++ dst.drop new.length) else none

/-- At most `size - 1` characters of the text and the terminator, and nothing if `size` is 0. -/
def store (nul : α) (size : Nat) (dst text : List α) : Option (List α) :=
  if size = 0 then some dst else overwrite dst (text.take (size - 1) ++ [nul])

def Holds (nul : α) (buffer text : List α) : Prop := nul ∉ text ∧ ∃ rest, buffer = text ++ nul :: rest

section
variable {nul : α} {dst new buffer text : List α} {size : Nat}

theorem overwrite_eq_some (h : new.length ≤ dst.length) : overwrite dst new = some (new ++ dst.drop new.length) :=
  if_pos h

theorem overwrite_terminated (h : text.length < dst.length) :
    overwrite dst (text ++ [nul]) = some (text ++ nul :: dst.drop (text.length + 1)) := by
  have hle : (text ++ [nul]).length ≤ dst.length := by
    rw [List.length_append]
    exact h
  rw [overwrite_eq_some hle, List.append_assoc, List.length_append]
  rfl

theorem store_zero (nul : α) (dst text : List α) : store nul 0 dst text = some dst := rfl

theorem store_of_pos (hsize : 0 < size) (hroom : size ≤ dst.length) : store nul size dst text =
    some (text.take (size - 1) ++ nul :: dst.drop ((text.take (size - 1)).length + 1)) := by
  have hlt : (text.take (size - 1)).length < dst.length := by
    rw [List.length_take]
    omega
  rw [store, if_neg (Nat.pos_iff_ne_zero.mp hsize), overwrite_terminated hlt]

theorem Holds.cons {c : α} (hc : c ≠ nul) (h : Holds nul buffer text) : Holds nul (c :: buffer) (c :: text) := by
  obtain ⟨hnul, rest, rfl⟩ := h
  refine ⟨fun hmem => ?_, rest, rfl⟩
  rcases List.mem_cons.mp hmem with heq | hmem
  · exact hc heq.symm
  · exact hnul hmem

theorem Holds.length_lt (h : Holds nul buffer text) : text.length < buffer.length := by
  obtain ⟨-, rest, rfl⟩ := h
  simp

end

variable [DecidableEq α]

def strlen (nul : α) : List α → Option Nat
  | [] => none
  | c :: rest => if c = nul then some 0 else (strlen nul rest).map (· + 1)

/-- `order` is the value of a character in a comparison. -/
def strcmp (nul : α) (order : α → Int) : List α → List α → Option Int
  | a :: s, b :: t =>
    if a ≠ b then some (order a - order b) else if a = nul then some 0 else strcmp nul order s t
  | _, _ => none

/-- The text that a scan of at most `n` characters finds. -/
def scan (nul : α) (n : Nat) (src : List α) : List α := (src.take n).takeWhile (· ≠ nul)

/-- The result is the length of the source. -/
def strlcpy (nul : α) (dst src : List α) (size : Nat) : Option (Nat × List α) := do
  let length ← strlen nul src
  let dst ← store nul size dst (scan nul length src)
  return (length, dst)

/-- What `strncpy` writes: `n` characters, the rest of them terminators. -/
def fill (nul : α) (n : Nat) (src : List α) : List α :=
  scan nul n src ++ List.replicate (n - (scan nul n src).length) nul

def strncpy (nul : α) (dst src : List α) (n : Nat) : Option (List α) := overwrite dst (fill nul n src)

variable {nul : α} {order : α → Int} {dst src buffer text text' : List α} {n size : Nat}

theorem strlen_of_holds (h : Holds nul buffer text) : strlen nul buffer = some text.length := by
  obtain ⟨hnul, rest, rfl⟩ := h
  induction text with
  | nil => simp [strlen]
  | cons c text ih =>
    have hc : c ≠ nul := fun heq => hnul (heq ▸ List.mem_cons_self)
    rw [List.cons_append, strlen, if_neg hc, ih fun hmem => hnul (List.mem_cons_of_mem c hmem)]
    rfl

/-- A scan that ends has found a string. -/
theorem holds_of_strlen (h : strlen nul buffer = some n) : ∃ text, Holds nul buffer text ∧ text.length = n := by
  induction buffer generalizing n with
  | nil => cases h
  | cons c buffer ih =>
    rw [strlen] at h
    split_ifs at h with hc
    · cases h
      exact ⟨[], ⟨List.not_mem_nil, buffer, by rw [hc]; rfl⟩, rfl⟩
    · obtain ⟨m, hm, rfl⟩ := Option.map_eq_some_iff.mp h
      obtain ⟨text, htext, rfl⟩ := ih hm
      exact ⟨c :: text, htext.cons hc, rfl⟩

/-- There is a string in whatever ends with a terminator. -/
theorem exists_holds (nul : α) (text rest : List α) :
    ∃ t, Holds nul (text ++ nul :: rest) t ∧ t.length ≤ text.length := by
  induction text with
  | nil => exact ⟨[], ⟨List.not_mem_nil, rest, rfl⟩, Nat.le_refl _⟩
  | cons c text ih =>
    by_cases hc : c = nul
    · exact ⟨[], ⟨List.not_mem_nil, text ++ nul :: rest, by rw [hc]; rfl⟩, Nat.zero_le _⟩
    · obtain ⟨t, ht, hle⟩ := ih
      exact ⟨c :: t, ht.cons hc, Nat.succ_le_succ hle⟩

theorem Holds.unique (h : Holds nul buffer text) (h' : Holds nul buffer text') : text = text' := by
  have hlength : text.length = text'.length :=
    Option.some.inj ((strlen_of_holds h).symm.trans (strlen_of_holds h'))
  obtain ⟨-, rest, rfl⟩ := h
  obtain ⟨-, rest', heq⟩ := h'
  exact (List.append_inj heq hlength).1

theorem strcmp_self (h : Holds nul buffer text) (h' : Holds nul dst text) :
    strcmp nul order buffer dst = some 0 := by
  obtain ⟨hnul, rest, rfl⟩ := h
  obtain ⟨-, rest', rfl⟩ := h'
  induction text with
  | nil => simp [strcmp]
  | cons c text ih =>
    have hc : c ≠ nul := fun heq => hnul (heq ▸ List.mem_cons_self)
    rw [List.cons_append, List.cons_append, strcmp, if_neg (not_not.mpr rfl), if_neg hc]
    exact ih fun hmem => hnul (List.mem_cons_of_mem c hmem)

/-- Buffers that compare equal hold the same string. -/
theorem holds_of_strcmp (horder : Function.Injective order) (h : Holds nul src text)
    (hcmp : strcmp nul order dst src = some 0) : Holds nul dst text := by
  obtain ⟨hnul, rest, rfl⟩ := h
  induction text generalizing dst with
  | nil =>
    cases dst with
    | nil => cases hcmp
    | cons b dst =>
      rw [List.nil_append, strcmp] at hcmp
      split_ifs at hcmp with hb hnul'
      · exact absurd (horder (Int.sub_eq_zero.mp (Option.some.inj hcmp))) hb
      · exact ⟨List.not_mem_nil, dst, by rw [hnul']; rfl⟩
      · exact absurd (not_not.mp hb) hnul'
  | cons c text ih =>
    have hc : c ≠ nul := fun heq => hnul (heq ▸ List.mem_cons_self)
    cases dst with
    | nil => cases hcmp
    | cons b dst =>
      rw [List.cons_append, strcmp] at hcmp
      split_ifs at hcmp with hb hbnul
      · exact absurd (horder (Int.sub_eq_zero.mp (Option.some.inj hcmp))) hb
      · exact absurd ((not_not.mp hb).symm.trans hbnul) hc
      · rw [not_not.mp hb]
        exact (ih (fun hmem => hnul (List.mem_cons_of_mem c hmem)) hcmp).cons hc

theorem strcmp_eq_zero_iff (horder : Function.Injective order) (h : Holds nul dst text)
    (h' : Holds nul src text') : strcmp nul order dst src = some 0 ↔ text = text' := by
  constructor
  · intro hcmp
    exact h.unique (holds_of_strcmp horder h' hcmp)
  · rintro rfl
    exact strcmp_self h h'

theorem scan_of_holds (h : Holds nul src text) : scan nul n src = text.take n := by
  obtain ⟨hnul, rest, rfl⟩ := h
  induction text generalizing n with
  | nil => cases n <;> simp [scan]
  | cons c text ih =>
    have hc : c ≠ nul := fun heq => hnul (heq ▸ List.mem_cons_self)
    cases n with
    | zero => rfl
    | succ n =>
      have hrest := ih (n := n) fun hmem => hnul (List.mem_cons_of_mem c hmem)
      unfold scan at hrest
      simp [scan, hc, ← hrest]

theorem length_scan_le (nul : α) (n : Nat) (src : List α) : (scan nul n src).length ≤ n :=
  Nat.le_trans (List.takeWhile_sublist _).length_le (List.length_take_le n src)

/-- A copy is a store of the string. -/
theorem strlcpy_of_holds (h : Holds nul src text) :
    strlcpy nul dst src size = (store nul size dst text).map (text.length, ·) := by
  rw [strlcpy, strlen_of_holds h]
  show (store nul size dst (scan nul text.length src) >>= _) = _
  rw [scan_of_holds h, List.take_length]
  cases store nul size dst text <;> rfl

theorem length_fill (nul : α) (n : Nat) (src : List α) : (fill nul n src).length = n := by
  rw [fill, List.length_append, List.length_replicate]
  exact Nat.add_sub_of_le (length_scan_le nul n src)

/-- A whole buffer is filled. -/
theorem strncpy_eq (h : dst.length = n) : strncpy nul dst src n = some (fill nul n src) := by
  have hle : (fill nul n src).length ≤ dst.length := by rw [length_fill, h]
  rw [strncpy, overwrite_eq_some hle, length_fill, ← h, List.drop_length, List.append_nil]

/-- The text that is found there is the one that was copied. -/
theorem scan_fill (nul : α) (n : Nat) (src : List α) : scan nul n (fill nul n src) = scan nul n src := by
  have hmem : ∀ c ∈ scan nul n src, decide (c ≠ nul) = true := fun c hc =>
    List.mem_takeWhile_imp (p := fun c => decide (c ≠ nul)) hc
  rw [scan, List.take_of_length_le (Nat.le_of_eq (length_fill nul n src)), fill,
    List.takeWhile_append_of_pos hmem]
  cases n - (scan nul n src).length <;> simp [List.replicate_succ]

/-- A scan finds no more than there is before a terminator. -/
theorem length_scan_terminated (nul : α) (n : Nat) (text : List α) :
    (scan nul n (text ++ [nul])).length ≤ text.length := by
  obtain ⟨t, ht, hle⟩ := exists_holds nul text []
  rw [scan_of_holds ht]
  exact Nat.le_trans (List.length_take_le' n t) hle

end CString
