import Ptpd.Nanos
import Ptpd.Sntp
import Mathlib.Order.Lattice

/-! # Reading the MAC clock (`ethernetif.c`, `dep/sys_time.c`, `timer.c`)

    The MAC counts time in two registers, one of seconds and one of 2^-31 seconds.
    PTP and SNTP each read both, in opposite orders and each register once, while
    the counter goes on.
-/

namespace Ptpd

open MachineInt HalfWords

/-! ## The counter -/

/-- What the two registers hold at one instant. -/
structure HardwareTime where
  PTPTSHR : UInt32
  PTPTSLR : UInt32
  subsecond : PTPTSLR.toNat < 2 ^ 31
deriving DecidableEq

namespace HardwareTime

/-- In units of 2^-31 s. -/
def units (t : HardwareTime) : Nat := t.PTPTSHR.toNat * 2 ^ 31 + t.PTPTSLR.toNat

/-- In whole nanoseconds. -/
def nanos (t : HardwareTime) : Nat := t.units * 1000000000 / 2 ^ 31

instance : Preorder HardwareTime := Preorder.lift units

theorem le_iff {t u : HardwareTime} : t ≤ u ↔ t.units ≤ u.units := Iff.rfl

theorem seconds_le {t u : HardwareTime} (h : t ≤ u) : t.PTPTSHR.toNat ≤ u.PTPTSHR.toNat := by
  have ht := t.subsecond
  have hu := u.subsecond
  have hunits := le_iff.mp h
  unfold units at hunits
  omega

/-- Over less than a second the second register falls exactly if a second begins. -/
theorem subsecond_le_iff {t u : HardwareTime} (h : t ≤ u) (hsecond : u.units < t.units + 2 ^ 31) :
    t.PTPTSLR ≤ u.PTPTSLR ↔ t.PTPTSHR = u.PTPTSHR := by
  have hunits := le_iff.mp h
  have ht := t.subsecond
  have hu := u.subsecond
  unfold units at hunits hsecond
  rw [UInt32.le_iff_toNat_le, ← UInt32.toNat_inj]
  omega

end HardwareTime

/-! ## The two readers -/

/-- `struct ptptime_t`. -/
structure PtpTime where
  tv_sec : Int
  tv_nsec : Int
deriving DecidableEq

/-- The product is less than 2^63. -/
def ETH_PTPSubSecond2NanoSecond (SubSecondValue : UInt32) : UInt32 :=
  UInt32.ofNat (SubSecondValue.toNat * 1000000000 / 2 ^ 31)

/-- The time that is made of the two words of a timestamp. -/
def stampTime (subsecond second : UInt32) : PtpTime :=
  ⟨wrapS 32 second.toNat, wrapS 32 (ETH_PTPSubSecond2NanoSecond subsecond).toNat⟩

/-- Seconds from 1900 to 1970. -/
def JAN_1900 : UInt32 := 2208988800

section Reads

variable {Instant : Type*} (hardware : Instant → HardwareTime)

/-- The clock as `ETH_PTPTime_GetTime` returns it if it reads one register at `τ₁`
    and then the other at `τ₂`. -/
def ETH_PTPTime_GetTime (τ₁ τ₂ : Instant) : PtpTime where
  tv_nsec := wrapS 32 (ETH_PTPSubSecond2NanoSecond (hardware τ₁).PTPTSLR).toNat
  tv_sec := wrapS 32 (hardware τ₂).PTPTSHR.toNat

/-- The same for `get_sys_timer`, which reads the registers in the other order. -/
def get_sys_timer (τ₁ τ₂ : Instant) : TimeFp where
  fp_ui := (hardware τ₁).PTPTSHR + JAN_1900
  fp_uf := (hardware τ₂).PTPTSLR * 2

end Reads

/-- `getTime` passes the two numbers on. -/
def PtpTime.getTime (timestamp : PtpTime) : TimeInternal :=
  ⟨timestamp.tv_sec, timestamp.tv_nsec⟩

/-- An NTP time in units of 2^-32 s since 1970. -/
def TimeFp.sinceEpoch (t : TimeFp) : Nat := pair (t.fp_ui - JAN_1900) t.fp_uf

/-! ## Values -/

theorem ETH_PTPSubSecond2NanoSecond_toNat {SubSecondValue : UInt32}
    (h : SubSecondValue.toNat < 2 ^ 31) :
    (ETH_PTPSubSecond2NanoSecond SubSecondValue).toNat =
      SubSecondValue.toNat * 1000000000 / 2 ^ 31 := by
  unfold ETH_PTPSubSecond2NanoSecond
  rw [UInt32.toNat_ofNat_of_lt' (by rw [UInt32.size]; omega)]

theorem ETH_PTPSubSecond2NanoSecond_lt {SubSecondValue : UInt32}
    (h : SubSecondValue.toNat < 2 ^ 31) :
    (ETH_PTPSubSecond2NanoSecond SubSecondValue).toNat < 1000000000 := by
  rw [ETH_PTPSubSecond2NanoSecond_toNat h]
  omega

theorem HardwareTime.nanos_eq (t : HardwareTime) :
    t.nanos = t.PTPTSHR.toNat * 1000000000 + (ETH_PTPSubSecond2NanoSecond t.PTPTSLR).toNat := by
  rw [ETH_PTPSubSecond2NanoSecond_toNat t.subsecond]
  unfold nanos units
  omega

theorem wrapS_32_toNat (x : UInt32) :
    wrapS 32 x.toNat = if x.toNat < 2 ^ 31 then (x.toNat : Int) else x.toNat - 2 ^ 32 := by
  have hx := x.toNat_lt
  split
  · exact wrapS_32 (by omega) (by omega)
  · rw [← wrapS_sub_pow]
    exact wrapS_32 (by omega) (by omega)

theorem getTime_nanos {Instant : Type*} (hardware : Instant → HardwareTime) (τ₁ τ₂ : Instant) :
    (ETH_PTPTime_GetTime hardware τ₁ τ₂).getTime.nanos =
      wrapS 32 (hardware τ₂).PTPTSHR.toNat * 1000000000 +
        (ETH_PTPSubSecond2NanoSecond (hardware τ₁).PTPTSLR).toNat := by
  have hnano := ETH_PTPSubSecond2NanoSecond_lt (hardware τ₁).subsecond
  unfold ETH_PTPTime_GetTime PtpTime.getTime TimeInternal.nanos
  dsimp only
  rw [wrapS_32 (x := ((ETH_PTPSubSecond2NanoSecond (hardware τ₁).PTPTSLR).toNat : Int))
    (by omega) (by omega)]

theorem get_sys_timer_sinceEpoch {Instant : Type*} (hardware : Instant → HardwareTime)
    (τ₁ τ₂ : Instant) :
    (get_sys_timer hardware τ₁ τ₂).sinceEpoch =
      2 * ((hardware τ₁).PTPTSHR.toNat * 2 ^ 31 + (hardware τ₂).PTPTSLR.toNat) := by
  have hsub := (hardware τ₂).subsecond
  have hdouble : ((hardware τ₂).PTPTSLR * 2).toNat = (hardware τ₂).PTPTSLR.toNat * 2 := by
    have htwo : (2 : UInt32).toNat = 2 := rfl
    rw [UInt32.toNat_mul, htwo]
    exact Nat.mod_eq_of_lt (by omega)
  unfold TimeFp.sinceEpoch get_sys_timer pair
  dsimp only
  rw [UInt32.add_sub_cancel, hdouble]
  ring

/-! ## Reads while the counter goes on -/

section Between

variable {Instant : Type*} [Preorder Instant] {hardware : Instant → HardwareTime} {τ₁ τ₂ : Instant}

/-- The time returned is one that the clock shows from `τ₁` to `τ₂`, to the nanosecond. -/
def GetTimeBetween (hardware : Instant → HardwareTime) (τ₁ τ₂ : Instant) : Prop :=
  ((hardware τ₁).nanos : Int) ≤ (ETH_PTPTime_GetTime hardware τ₁ τ₂).getTime.nanos ∧
    (ETH_PTPTime_GetTime hardware τ₁ τ₂).getTime.nanos ≤ (hardware τ₂).nanos

/-- The same for `get_sys_timer`, exactly. -/
def SysTimerBetween (hardware : Instant → HardwareTime) (τ₁ τ₂ : Instant) : Prop :=
  2 * (hardware τ₁).units ≤ (get_sys_timer hardware τ₁ τ₂).sinceEpoch ∧
    (get_sys_timer hardware τ₁ τ₂).sinceEpoch ≤ 2 * (hardware τ₂).units

theorem getTimeBetween_iff (hmono : Monotone hardware) (hle : τ₁ ≤ τ₂) :
    GetTimeBetween hardware τ₁ τ₂ ↔
      (hardware τ₂).PTPTSHR.toNat < 2 ^ 31 ∧
        ETH_PTPSubSecond2NanoSecond (hardware τ₁).PTPTSLR ≤
          ETH_PTPSubSecond2NanoSecond (hardware τ₂).PTPTSLR := by
  have hseconds := HardwareTime.seconds_le (hmono hle)
  have hnano₁ := ETH_PTPSubSecond2NanoSecond_lt (hardware τ₁).subsecond
  have hnano₂ := ETH_PTPSubSecond2NanoSecond_lt (hardware τ₂).subsecond
  have hword := (hardware τ₂).PTPTSHR.toNat_lt
  unfold GetTimeBetween
  rw [getTime_nanos, HardwareTime.nanos_eq, HardwareTime.nanos_eq, wrapS_32_toNat,
    UInt32.le_iff_toNat_le]
  -- a second from 2^31 on is negative, before every time of the counter
  split <;> omega

theorem sysTimerBetween_iff (hmono : Monotone hardware) (hle : τ₁ ≤ τ₂) :
    SysTimerBetween hardware τ₁ τ₂ ↔ (hardware τ₁).PTPTSLR ≤ (hardware τ₂).PTPTSLR := by
  have hseconds := HardwareTime.seconds_le (hmono hle)
  unfold SysTimerBetween
  rw [get_sys_timer_sinceEpoch, UInt32.le_iff_toNat_le]
  unfold HardwareTime.units
  omega

/-- A time is read right, whenever the two reads are made, exactly if the second
    register has not fallen between them; `ETH_PTPTime_GetTime` compares whole
    nanoseconds and has no numbers for seconds from 2^31 on. -/
theorem clockReads_between_iff (hmono : Monotone hardware) (hle : τ₁ ≤ τ₂) :
    (GetTimeBetween hardware τ₁ τ₂ ↔
      (hardware τ₂).PTPTSHR.toNat < 2 ^ 31 ∧
        ETH_PTPSubSecond2NanoSecond (hardware τ₁).PTPTSLR ≤
          ETH_PTPSubSecond2NanoSecond (hardware τ₂).PTPTSLR) ∧
    (SysTimerBetween hardware τ₁ τ₂ ↔ (hardware τ₁).PTPTSLR ≤ (hardware τ₂).PTPTSLR) :=
  ⟨getTimeBetween_iff hmono hle, sysTimerBetween_iff hmono hle⟩

end Between

/-! ## At the end of a second -/

/-- The counter after `n` units from 0, which stays at its last value. -/
def HardwareTime.after (n : Nat) : HardwareTime where
  PTPTSHR := UInt32.ofNat (min n (2 ^ 63 - 1) / 2 ^ 31)
  PTPTSLR := UInt32.ofNat (min n (2 ^ 63 - 1) % 2 ^ 31)
  subsecond := by
    rw [UInt32.toNat_ofNat_of_lt' (by rw [UInt32.size]; omega)]
    omega

theorem HardwareTime.after_units (n : Nat) : (after n).units = min n (2 ^ 63 - 1) := by
  unfold units after
  dsimp only
  rw [UInt32.toNat_ofNat_of_lt' (by rw [UInt32.size]; omega),
    UInt32.toNat_ofNat_of_lt' (by rw [UInt32.size]; omega)]
  omega

theorem HardwareTime.after_monotone : Monotone after := by
  intro m n h
  rw [le_iff, after_units, after_units]
  omega

/-- Both reads are made half a second after the tenth. -/
theorem clockReads_between_midSecond :
    (GetTimeBetween HardwareTime.after (21 * 2 ^ 30) (21 * 2 ^ 30 + 100) ↔
      (HardwareTime.after (21 * 2 ^ 30 + 100)).PTPTSHR.toNat < 2 ^ 31 ∧
        ETH_PTPSubSecond2NanoSecond (HardwareTime.after (21 * 2 ^ 30)).PTPTSLR ≤
          ETH_PTPSubSecond2NanoSecond (HardwareTime.after (21 * 2 ^ 30 + 100)).PTPTSLR) ∧
    (SysTimerBetween HardwareTime.after (21 * 2 ^ 30) (21 * 2 ^ 30 + 100) ↔
      (HardwareTime.after (21 * 2 ^ 30)).PTPTSLR ≤
        (HardwareTime.after (21 * 2 ^ 30 + 100)).PTPTSLR) :=
  clockReads_between_iff HardwareTime.after_monotone (by norm_num)

/-- The eleventh second begins between the reads. `ETH_PTPTime_GetTime` is almost
    a second ahead, and `get_sys_timer` almost a second behind. -/
theorem clockReads_torn :
    (¬ ∀ hardware : Nat → HardwareTime, Monotone hardware → ∀ τ₁ τ₂, τ₁ ≤ τ₂ →
      τ₂ < τ₁ + 2 ^ 31 → GetTimeBetween hardware τ₁ τ₂) ∧
    (¬ ∀ hardware : Nat → HardwareTime, Monotone hardware → ∀ τ₁ τ₂, τ₁ ≤ τ₂ →
      τ₂ < τ₁ + 2 ^ 31 → SysTimerBetween hardware τ₁ τ₂) := by
  constructor <;> intro h <;>
    obtain ⟨hlo, hhi⟩ := h HardwareTime.after HardwareTime.after_monotone
      (11 * 2 ^ 31 - 1) (11 * 2 ^ 31) (by norm_num) (by norm_num)
  · exact absurd hhi (by decide +kernel)
  · exact absurd hlo (by decide +kernel)

end Ptpd
