import Mathlib.Algebra.Order.Group.Abs
import Mathlib.Algebra.Order.Group.Int
import Mathlib.Data.List.Infix
import Mathlib.Data.Nat.GCD.Basic
import NVMac.Types

/-!
# Time and delays (`os.cpp`)

`os_get_current_time` takes the microseconds of the whole uptime, cut to 32 bits, for those of the
last second. The two delays have their conversions exchanged: microseconds go to `IOSleep` as they
are, and milliseconds are multiplied by 1000.
-/

namespace NVMac

/-- The remainders modulo `m` and `n` are the same at the start of each common period. -/
theorem mod_eq_mod_iff {a m n : Nat} (hm : 0 < m) (hn : 0 < n) :
    a % m = a % n ↔ a % Nat.lcm m n < min m n := by
  constructor
  · intro h
    have hle := Nat.mod_le a m
    have hdvd : Nat.lcm m n ∣ a - a % m := by
      refine Nat.lcm_dvd (Nat.dvd_sub_mod a) ?_
      rw [h]
      exact Nat.dvd_sub_mod a
    have hlt : a % m < min m n := Nat.lt_min.2 ⟨Nat.mod_lt a hm, h ▸ Nat.mod_lt a hn⟩
    have hmod : a % Nat.lcm m n = a % m % Nat.lcm m n := ((Nat.modEq_iff_dvd' hle).2 hdvd).symm
    rw [hmod]
    exact Nat.lt_of_le_of_lt (Nat.mod_le _ _) hlt
  · intro h
    rw [← Nat.mod_mod_of_dvd a (Nat.dvd_lcm_left m n), ← Nat.mod_mod_of_dvd a (Nat.dvd_lcm_right m n),
      Nat.mod_eq_of_lt (Nat.lt_min.1 h).1, Nat.mod_eq_of_lt (Nat.lt_min.1 h).2]

/-! ### The time -/

def nsecPerUsec : NvU64 := 1000

def nsecPerSec : NvU64 := 1000000000

/-- `uptime` is the nanoseconds that `CURRENT_UPTIME` answers. The results are `*seconds` and
`*useconds`. -/
def osGetCurrentTime (uptime : NvU64) : NvStatus × NvU32 × NvU32 :=
  let currentMicroseconds := uptime / nsecPerUsec
  let currentSeconds := uptime / nsecPerSec
  (.ok, currentSeconds.setWidth 32, currentMicroseconds.setWidth 32)

def osGetCurrentTick (uptime : NvU64) : NvU64 := uptime

def seconds (uptime : NvU64) : Nat := (osGetCurrentTime uptime).2.1.toNat

def useconds (uptime : NvU64) : Nat := (osGetCurrentTime uptime).2.2.toNat

/-- The microseconds in a pair. -/
def microseconds (uptime : NvU64) : Nat := seconds uptime * 1000000 + useconds uptime

/-- The pair of an instant is its time. -/
def TellsTime (t : NvU64) : Prop := useconds t < 1000000 ∧ microseconds t = t.toNat / 1000

/-- The pairs of two instants are their times, in order, and as far apart as the ticks. -/
structure ClockCoherent (t₁ t₂ : NvU64) : Prop where
  first : TellsTime t₁
  second : TellsTime t₂
  ordered : seconds t₁ < seconds t₂ ∨ (seconds t₁ = seconds t₂ ∧ useconds t₁ ≤ useconds t₂)
  elapsed : |((microseconds t₂ - microseconds t₁ : Int) -
    ((osGetCurrentTick t₂).toNat - (osGetCurrentTick t₁).toNat) / 1000)| ≤ 1

/-- The instant is in the first second of a period after which the microseconds have gone round 32
bits and a second is full. -/
def InFirstSecond (t : NvU64) : Prop := t.toNat / 1000 % (2 ^ 32 * 5 ^ 6) < 1000000

instance (t : NvU64) : Decidable (InFirstSecond t) := inferInstanceAs (Decidable (_ < _))

section
variable {t t₁ t₂ : NvU64}

theorem useconds_eq (t : NvU64) : useconds t = t.toNat / 1000 % 2 ^ 32 := by
  show ((t / nsecPerUsec).setWidth 32).toNat = _
  rw [BitVec.toNat_setWidth, BitVec.toNat_udiv]
  rfl

theorem seconds_eq (ht : t.toNat / 1000000000 < 2 ^ 32) : seconds t = t.toNat / 1000 / 1000000 := by
  show ((t / nsecPerSec).setWidth 32).toNat = _
  rw [BitVec.toNat_setWidth, BitVec.toNat_udiv, Nat.div_div_eq_div_mul]
  exact Nat.mod_eq_of_lt ht

/-- The rest of a division is what makes up for the quotient. -/
theorem rest_iff {a m u : Nat} (hm : 0 < m) : u < m ∧ a / m * m + u = a ↔ u = a % m := by
  have hdiv := Nat.div_add_mod' a m
  constructor
  · rintro ⟨-, h⟩
    exact Nat.add_left_cancel (h.trans hdiv.symm)
  · rintro rfl
    exact ⟨Nat.mod_lt a hm, hdiv⟩

theorem tellsTime_iff (ht : t.toNat / 1000000000 < 2 ^ 32) : TellsTime t ↔ InFirstSecond t := by
  have hsame : TellsTime t ↔ t.toNat / 1000 % 2 ^ 32 = t.toNat / 1000 % 1000000 := by
    unfold TellsTime microseconds
    rw [seconds_eq ht, useconds_eq]
    exact rest_iff (by decide)
  rw [hsame, mod_eq_mod_iff (by decide) (by decide), InFirstSecond]
  have hlcm : Nat.lcm (2 ^ 32) 1000000 = 2 ^ 32 * 5 ^ 6 := by decide
  rw [hlcm]
  rfl

theorem TellsTime.ordered (h₁ : TellsTime t₁) (h₂ : TellsTime t₂) (hle : t₁.toNat ≤ t₂.toNat) :
    seconds t₁ < seconds t₂ ∨ (seconds t₁ = seconds t₂ ∧ useconds t₁ ≤ useconds t₂) := by
  obtain ⟨hlt₁, heq₁⟩ := h₁
  obtain ⟨hlt₂, heq₂⟩ := h₂
  have hmono : microseconds t₁ ≤ microseconds t₂ := by
    rw [heq₁, heq₂]
    exact Nat.div_le_div_right hle
  unfold microseconds at hmono
  omega

theorem TellsTime.elapsed (h₁ : TellsTime t₁) (h₂ : TellsTime t₂) :
    |((microseconds t₂ - microseconds t₁ : Int) -
      ((osGetCurrentTick t₂).toNat - (osGetCurrentTick t₁).toNat) / 1000)| ≤ 1 := by
  rw [h₁.2, h₂.2, abs_le]
  unfold osGetCurrentTick
  omega

end

/-- Of two instants, both are told right exactly if both are in a first second. -/
theorem clockCoherent_iff (t₁ t₂ : NvU64) (hle : t₁.toNat ≤ t₂.toNat) (hfit : t₂.toNat / 1000000000 < 2 ^ 32) :
    ClockCoherent t₁ t₂ ↔ InFirstSecond t₁ ∧ InFirstSecond t₂ := by
  have hfit₁ : t₁.toNat / 1000000000 < 2 ^ 32 := Nat.lt_of_le_of_lt (Nat.div_le_div_right hle) hfit
  rw [← tellsTime_iff hfit₁, ← tellsTime_iff hfit]
  constructor
  · intro h
    exact ⟨h.first, h.second⟩
  · rintro ⟨h₁, h₂⟩
    exact ⟨h₁, h₂, h₁.ordered h₂ hle, h₁.elapsed h₂⟩

theorem clockCoherent_half_second : ClockCoherent 250000000 500000000 :=
  (clockCoherent_iff 250000000 500000000 (by decide) (by decide)).2 ⟨by decide, by decide⟩

/-- After a second and a half the pair says two seconds and a half. -/
theorem clock_second_and_half : osGetCurrentTime 1500000000 = (.ok, 1, 1500000) ∧
    ¬ ClockCoherent 1500000000 1500000000 :=
  ⟨by decide, fun h => absurd h.first.1 (by decide)⟩

/-- The microseconds that are in the second `seconds` and leave `useconds` in 32 bits, if there are any. -/
def recovered (seconds useconds : NvU32) : Nat :=
  1000000 * seconds.toNat + (useconds - 1000000 * seconds).toNat

theorem seconds_mod_eq (t : NvU64) : seconds t = t.toNat / 1000000000 % 2 ^ 32 := by
  show ((t / nsecPerSec).setWidth 32).toNat = _
  rw [BitVec.toNat_setWidth, BitVec.toNat_udiv]
  rfl

/-- What the pair says as a time may be wrong, but the microseconds are in it, up to the overflow of the
seconds. -/
theorem recovered_eq (t : NvU64) :
    recovered (osGetCurrentTime t).2.1 (osGetCurrentTime t).2.2 = t.toNat / 1000 % (1000000 * 2 ^ 32) := by
  have hseconds : (osGetCurrentTime t).2.1.toNat = t.toNat / 1000000000 % 2 ^ 32 := seconds_mod_eq t
  have huseconds : (osGetCurrentTime t).2.2.toNat = t.toNat / 1000 % 2 ^ 32 := useconds_eq t
  have hmillion : (1000000 : NvU32).toNat = 1000000 := rfl
  rw [recovered, BitVec.toNat_sub, BitVec.toNat_mul, hseconds, huseconds, hmillion]
  omega

/-- Two uptimes get one answer exactly if whole rounds of 2^32 seconds lie between their microseconds. -/
theorem osGetCurrentTime_eq_iff (t t' : NvU64) : osGetCurrentTime t = osGetCurrentTime t' ↔
    t.toNat / 1000 ≡ t'.toNat / 1000 [MOD 1000000 * 2 ^ 32] := by
  constructor
  · intro h
    rw [Nat.ModEq, ← recovered_eq, ← recovered_eq, h]
  · intro h
    unfold Nat.ModEq at h
    have hseconds : seconds t = seconds t' := by
      rw [seconds_mod_eq, seconds_mod_eq]
      omega
    have huseconds : useconds t = useconds t' := by
      rw [useconds_eq, useconds_eq]
      omega
    exact Prod.ext rfl (Prod.ext (BitVec.eq_of_toNat_eq hseconds) (BitVec.eq_of_toNat_eq huseconds))

/-! ### Delays -/

/-- The milliseconds for which `IOSleep` sleeps. -/
def osDelayUs (microSeconds : NvU32) : NvStatus × NvU32 := (.ok, microSeconds)

def osDelay (milliSeconds : NvU32) : NvStatus × NvU32 := (.ok, milliSeconds * 1000)

inductive DelayCall
  | delayUs (microSeconds : NvU32)
  | delay (milliSeconds : NvU32)

namespace DelayCall

/-- In microseconds. -/
def requested : DelayCall → Nat
  | delayUs microSeconds => microSeconds.toNat
  | delay milliSeconds => 1000 * milliSeconds.toNat

/-- In microseconds. -/
def slept : DelayCall → Nat
  | delayUs microSeconds => 1000 * (osDelayUs microSeconds).2.toNat
  | delay milliSeconds => 1000 * (osDelay milliSeconds).2.toNat

/-- Calls that ask for no time, or for a microsecond. -/
def Short : DelayCall → Prop
  | delayUs microSeconds => microSeconds.toNat ≤ 1
  | delay milliSeconds => milliSeconds = 0

end DelayCall

/-- The calls sleep as long as they were asked to, and less than a millisecond more for each. -/
def SleepsEnough (calls : List DelayCall) : Prop :=
  (calls.map DelayCall.requested).sum ≤ (calls.map DelayCall.slept).sum ∧
  (calls ≠ [] → (calls.map DelayCall.slept).sum < (calls.map DelayCall.requested).sum + 1000 * calls.length)

def SleepsAlike (m : NvU32) : Prop :=
  1000 * m.toNat < 2 ^ 32 → (DelayCall.delay m).slept = (DelayCall.delayUs (1000 * m)).slept

section
variable {c : DelayCall} {calls : List DelayCall}

theorem sleepsAlike (m : NvU32) : SleepsAlike m := by
  intro _
  show 1000 * (m * 1000).toNat = 1000 * (1000 * m).toNat
  rw [BitVec.mul_comm]

/-- No number but 0 is the same a thousand times in 32 bits: 999 is odd. -/
theorem mul_thousand_mod_eq_iff {n : Nat} (hn : n < 2 ^ 32) : n * 1000 % 2 ^ 32 = n ↔ n = 0 := by
  constructor
  · intro h
    have hmod : n ≡ n * 1000 [MOD 2 ^ 32] := (Nat.mod_eq_of_lt hn).trans h.symm
    have hdvd : 2 ^ 32 ∣ n * 1000 - n := (Nat.modEq_iff_dvd' (Nat.le_mul_of_pos_right n (by decide))).1 hmod
    have hodd : n * 1000 - n = n * 999 := (Nat.mul_sub_one n 1000).symm
    rw [hodd] at hdvd
    exact Nat.eq_zero_of_dvd_of_lt (Nat.Coprime.dvd_of_dvd_mul_right (by decide) hdvd) hn
  · rintro rfl
    rfl

/-- Per call, in whole microseconds. -/
theorem DelayCall.short_iff : c.Short ↔ c.requested ≤ c.slept ∧ c.slept < c.requested + 1000 := by
  cases c with
  | delayUs microSeconds =>
    show microSeconds.toNat ≤ 1 ↔ microSeconds.toNat ≤ 1000 * microSeconds.toNat ∧
      1000 * microSeconds.toNat < microSeconds.toNat + 1000
    omega
  | delay milliSeconds =>
    show milliSeconds = 0 ↔ 1000 * milliSeconds.toNat ≤ 1000 * (milliSeconds * 1000).toNat ∧
      1000 * (milliSeconds * 1000).toNat < 1000 * milliSeconds.toNat + 1000
    rw [← BitVec.toNat_inj, BitVec.toNat_mul]
    show milliSeconds.toNat = 0 ↔ 1000 * milliSeconds.toNat ≤ 1000 * (milliSeconds.toNat * 1000 % 2 ^ 32) ∧
      1000 * (milliSeconds.toNat * 1000 % 2 ^ 32) < 1000 * milliSeconds.toNat + 1000
    rw [← mul_thousand_mod_eq_iff milliSeconds.isLt]
    generalize milliSeconds.toNat * 1000 % 2 ^ 32 = wrapped
    omega

theorem sleepsEnough_of_short (h : ∀ c ∈ calls, c.Short) : SleepsEnough calls := by
  induction calls with
  | nil => exact ⟨Nat.le_refl _, fun h => absurd rfl h⟩
  | cons c calls ih =>
    obtain ⟨hle, hlt⟩ := DelayCall.short_iff.1 (h c List.mem_cons_self)
    obtain ⟨hles, hlts⟩ := ih fun c' hc' => h c' (List.mem_cons_of_mem c hc')
    simp only [SleepsEnough, List.map_cons, List.sum_cons, List.length_cons]
    refine ⟨Nat.add_le_add hle hles, fun _ => ?_⟩
    cases calls with
    | nil => simpa using hlt
    | cons c' calls =>
      have hrest := hlts (List.cons_ne_nil _ _)
      rw [List.length_cons] at hrest ⊢
      omega

end

/-- Each stretch of a run sleeps as it should exactly if all calls ask for next to nothing. -/
theorem delays_sleepEnough_iff (calls : List DelayCall) :
    ((∀ stretch, stretch <:+: calls → SleepsEnough stretch) ∧ ∀ m, SleepsAlike m) ↔ ∀ c ∈ calls, c.Short := by
  constructor
  · rintro ⟨h, -⟩ c hc
    obtain ⟨before, after, rfl⟩ := List.append_of_mem hc
    obtain ⟨hle, hlt⟩ := h [c] ⟨before, after, by rw [List.append_assoc]; rfl⟩
    have hlt := hlt (List.cons_ne_nil c [])
    simp only [List.map_cons, List.map_nil, List.sum_cons, List.sum_nil, List.length_singleton] at hle hlt
    exact DelayCall.short_iff.2 ⟨by omega, by omega⟩
  · intro h
    exact ⟨fun stretch hstretch => sleepsEnough_of_short fun c hc => h c (hstretch.subset hc), sleepsAlike⟩

/-- A millisecond takes a second, as do 1000 microseconds; 4294968 milliseconds wrap around to 704. -/
theorem delays_too_long :
    (DelayCall.delay 1).slept = 1000000 ∧ (DelayCall.delayUs 1000).slept = 1000000 ∧
    (DelayCall.delay 4294968).slept = 704000 ∧ (DelayCall.delay 4294968).requested = 4294968000 ∧
    ¬ SleepsEnough [.delay 1] ∧ ¬ SleepsEnough [.delay 4294968] :=
  ⟨by decide, by decide, by decide, by decide, fun h => absurd (h.2 (List.cons_ne_nil _ _)) (by decide),
    fun h => absurd h.1 (by decide)⟩

end NVMac
