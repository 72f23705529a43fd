import Mathlib.Data.BitVec

/-! # Digits: printing is injective, and cutting a print short loses its last digits -/

namespace Digits
variable {b m n k : Nat}

theorem digitChar_inj (hm : m < 16) (hn : n < 16) (h : m.digitChar = n.digitChar) : m = n := by
  have hall : ∀ i < 16, ∀ j < 16, i.digitChar = j.digitChar → i = j := by decide
  exact hall m hm n hn h

theorem length_toDigits_of_base_le (hb : 1 < b) (h : b ≤ n) : 1 < (Nat.toDigits b n).length := by
  rw [Nat.toDigits_of_base_le hb h, List.length_append]
  exact Nat.lt_add_of_pos_left Nat.length_toDigits_pos

theorem toDigits_inj (hb : 1 < b) (hb' : b ≤ 16) (h : Nat.toDigits b m = Nat.toDigits b n) : m = n := by
  induction m using Nat.strongRecOn generalizing n with
  | ind m ih =>
    have hlength := congrArg List.length h
    rcases Nat.lt_or_ge m b with hm | hm <;> rcases Nat.lt_or_ge n b with hn | hn
    · rw [Nat.toDigits_of_lt_base hm, Nat.toDigits_of_lt_base hn] at h
      exact digitChar_inj (by omega) (by omega) (List.cons.inj h).1
    · have hlt := length_toDigits_of_base_le hb hn
      rw [← hlength, Nat.toDigits_of_lt_base hm] at hlt
      exact absurd hlt (Nat.lt_irrefl 1)
    · have hlt := length_toDigits_of_base_le hb hm
      rw [hlength, Nat.toDigits_of_lt_base hn] at hlt
      exact absurd hlt (Nat.lt_irrefl 1)
    · rw [Nat.toDigits_of_base_le hb hm, Nat.toDigits_of_base_le hb hn] at h
      obtain ⟨hinit, hlast⟩ := List.append_inj' h rfl
      have hpos : 0 < b := by omega
      have hdiv : m / b = n / b := ih (m / b) (Nat.div_lt_self (by omega) hb) hinit
      have hmod : m % b = n % b := digitChar_inj (Nat.lt_of_lt_of_le (Nat.mod_lt _ hpos) hb')
        (Nat.lt_of_lt_of_le (Nat.mod_lt _ hpos) hb') (List.cons.inj hlast).1
      rw [← Nat.div_add_mod m b, ← Nat.div_add_mod n b, hdiv, hmod]

theorem exists_digit_of_mem {c : Char} (hb : 1 < b) (h : c ∈ Nat.toDigits b n) : ∃ d < b, c = d.digitChar := by
  induction n using Nat.strongRecOn with
  | ind n ih =>
    rcases Nat.lt_or_ge n b with hn | hn
    · rw [Nat.toDigits_of_lt_base hn] at h
      exact ⟨n, hn, List.mem_singleton.mp h⟩
    · rw [Nat.toDigits_of_base_le hb hn] at h
      have hpos : 0 < b := by omega
      rcases List.mem_append.mp h with hinit | hlast
      · exact ih (n / b) (Nat.div_lt_self (by omega) hb) hinit
      · exact ⟨n % b, Nat.mod_lt n hpos, List.mem_singleton.mp hlast⟩

/-- A print has no terminator in it. -/
theorem nul_not_mem_toDigits (hb : 1 < b) (hb' : b ≤ 16) : '\x00' ∉ Nat.toDigits b n := by
  have hall : ∀ d < 16, '\x00' ≠ d.digitChar := by decide
  intro h
  obtain ⟨d, hd, hnul⟩ := exists_digit_of_mem hb h
  exact hall d (Nat.lt_of_lt_of_le hd hb') hnul

theorem take_toDigits_of_lt (hb : 1 < b) (hk : 0 < k) (h : n < b ^ k) :
    (Nat.toDigits b n).take k = Nat.toDigits b n :=
  List.take_of_length_le ((Nat.length_toDigits_le_iff hb hk).2 h)

/-- With one digit too many, the last one goes. -/
theorem take_toDigits_of_le (hb : 1 < b) (hk : 0 < k) (h : b ^ k ≤ n) (h' : n < b ^ (k + 1)) :
    (Nat.toDigits b n).take k = Nat.toDigits b (n / b) := by
  have hbase : b ≤ n := Nat.le_trans (Nat.le_self_pow (Nat.pos_iff_ne_zero.1 hk) b) h
  have hlong : ¬ (Nat.toDigits b n).length ≤ k := fun hle =>
    absurd ((Nat.length_toDigits_le_iff hb hk).1 hle) (Nat.not_lt.2 h)
  have hlength : (Nat.toDigits b (n / b)).length ≤ k := by
    refine (Nat.length_toDigits_le_iff hb hk).2 (Nat.div_lt_of_lt_mul ?_)
    rwa [Nat.pow_succ, Nat.mul_comm] at h'
  rw [Nat.toDigits_of_base_le hb hbase] at hlong ⊢
  rw [List.length_append, List.length_singleton] at hlong
  have heq : (Nat.toDigits b (n / b)).length = k := by omega
  rw [List.take_append_of_le_length (Nat.le_of_eq heq.symm), List.take_of_length_le hlength]

end Digits
