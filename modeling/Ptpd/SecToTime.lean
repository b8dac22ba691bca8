import Ptpd.DateTime
import Mathlib.Logic.Relation

/-! # The date of a number of seconds (`mktime.c`: `SecToTime`, `calc_date_time`)

    The year loop goes on as long as the days of an ordinary year are left, and
    then takes away those of a leap year where there is one. On the last day of a
    leap year that is a day too much: the unsigned count of seconds wraps, and the
    loop starts on some 10^11 further years.
-/

namespace Ptpd

open Calendar Relation

/-! ## The year loop -/

def EPOCH : Nat := 1970

def SECS_PERDAY : Nat := 86400

/-- The variables of the year loop. -/
structure YearState where
  /-- The seconds that are left, unsigned. -/
  n : UInt64
  /-- The days that were taken away. -/
  d : UInt64
  r : UInt16
  y : UInt16
deriving DecidableEq

namespace YearState

/-- The condition of the loop. -/
def Goes (s : YearState) : Prop := s.n ≥ 31536000

instance (s : YearState) : Decidable s.Goes := inferInstanceAs (Decidable (_ ≥ _))

/-- The seconds of the year that is taken away. -/
def taken (s : YearState) : UInt64 :=
  if IsLeap (EPOCH + s.r.toNat) then 31622400 else 31536000

def body (s : YearState) : YearState where
  n := s.n - s.taken
  d := s.d + if IsLeap (EPOCH + s.r.toNat) then 366 else 365
  r := s.r + 1
  y := s.y + 1

/-- One iteration. -/
def Next (s s' : YearState) : Prop := s.Goes ∧ s' = s.body

end YearState

/-- The loop in at most so many iterations. -/
def yearLoop : Nat → YearState → Option YearState
  | 0, s => if s.Goes then none else some s
  | fuel + 1, s => if s.Goes then yearLoop fuel s.body else some s

def yearStart (seconds : UInt32) : YearState := ⟨seconds.toUInt64, 0, 0, 0⟩

/-! ## The month loop -/

structure MonthState where
  /-- The days that are left, signed. -/
  yd : Int
  rz : UInt64
  yf : UInt8
deriving DecidableEq

/-- The days that are taken away in month `yf` of year `y`. -/
def monthTaken (y : UInt16) (yf : UInt8) : Option Nat :=
  if yf = 1 ∨ yf = 3 ∨ yf = 5 ∨ yf = 7 ∨ yf = 8 ∨ yf = 10 ∨ yf = 12 then some 31
  else if yf = 2 then
    if y.toNat % 400 = 0 ∨ (y.toNat % 100 ≠ 0 ∧ y.toNat % 4 = 0) then some 29 else some 28
  else if yf = 4 ∨ yf = 6 ∨ yf = 9 ∨ yf = 11 then some 30
  else none

/-- The loop in at most so many iterations. It is also left within a month. -/
def monthLoop (y : UInt16) : Nat → MonthState → Option MonthState
  | 0, s => if s.yd ≥ 28 then none else some s
  | fuel + 1, s =>
    if s.yd ≥ 28 then
      match monthTaken y s.yf with
      | some days =>
        if s.yd - days < 0 then some { s with yd := s.yd - days }
        else monthLoop y fuel ⟨s.yd - days, s.rz + UInt64.ofNat days, s.yf + 1⟩
      | none => monthLoop y fuel { s with yf := s.yf + 1 }
    else some s

/-! ## The functions -/

/-- `none` if one of the loops takes more than `fuel` iterations. -/
def calc_date_time (fuel : Nat) (seconds : UInt32) : Option DateTime := do
  let total_d := (seconds / 86400).toUInt64
  let s ← yearLoop fuel (yearStart seconds)
  let y := s.y + 1970
  let yd := MachineInt.wrapS 64 (total_d - s.d).toNat
  let m ← monthLoop y fuel ⟨yd, 0, 1⟩
  let yr := (total_d - s.d - m.rz).toUInt16 + 1
  let seconds := seconds % 86400
  return {
    year := y
    month := m.yf
    day := yr.toUInt8
    hour := (seconds / 3600).toUInt8
    minute := ((seconds % 3600) / 60).toUInt8
    second := ((seconds % 3600) % 60).toUInt8 }

/-- Seconds by which a time zone is ahead. -/
def zoneOffset : UInt8 → Int
  | 0 => -(12 * 3600)
  | 1 => -(11 * 3600)
  | 2 => -(10 * 3600)
  | 3 => -(9 * 3600 + 30 * 60)
  | 4 => -(9 * 3600)
  | 5 | 6 => -(8 * 3600)
  | 7 | 8 => -(7 * 3600)
  | 9 | 10 => -(6 * 3600)
  | 11 | 12 | 13 => -(5 * 3600)
  | 14 => -(4 * 3600 + 30 * 60)
  | 15 | 16 => -(4 * 3600)
  | 17 => -(3 * 3600 + 30 * 60)
  | 18 => -(3 * 3600)
  | 19 => -(2 * 3600)
  | 20 => -(1 * 3600)
  | 21 | 22 => 0
  | 23 | 24 | 25 => 1 * 3600
  | 26 | 27 => 2 * 3600
  | 28 | 29 => 3 * 3600
  | 30 => 3 * 3600 + 30 * 60
  | 31 => 4 * 3600
  | 32 => 4 * 3600 + 30 * 60
  | 33 => 5 * 3600
  | 34 => 5 * 3600 + 30 * 60
  | 35 => 5 * 3600 + 45 * 60
  | 36 => 6 * 3600
  | 37 => 6 * 3600 + 30 * 60
  | 38 => 7 * 3600
  | 39 => 8 * 3600
  | 40 => 9 * 3600
  | 41 => 9 * 3600 + 30 * 60
  | 42 => 10 * 3600
  | 43 => 10 * 3600 + 30 * 60
  | 44 => 11 * 3600
  | 45 => 11 * 3600 + 30 * 60
  | 46 => 12 * 3600
  | 47 => 12 * 3600 + 45 * 60
  | 48 => 13 * 3600
  | 49 => 14 * 3600
  | _ => 0

def UTC : UInt8 := 21

def SecToTime (fuel : Nat) (seconds : UInt32) (time_zone : UInt8) : Option DateTime :=
  calc_date_time fuel (seconds + UInt32.ofInt (zoneOffset time_zone))

/-! ## What is claimed -/

/-- The number of seconds becomes its date, and the year loop stays within its bounds. -/
structure Dates (s : UInt32) : Prop where
  /-- No iteration takes away more seconds than are left. -/
  unwrapped : ∀ st, ReflTransGen YearState.Next (yearStart s) st → st.Goes → st.taken ≤ st.n
  date : ∃ p, SecToTime 137 s UTC = some p ∧
    ∃ t : Moment, t.year < 65536 ∧ p = .of t ∧ p.mktime = s

/-- The day is the 366th of its year. -/
def LastOfLeapYear (s : UInt32) : Prop :=
  ∃ n, IsLeap (EPOCH + n) ∧ s.toNat / SECS_PERDAY = daysOfYears EPOCH n + 365

/-! ## The years that are taken away -/

/-- The days of the first `k` years. -/
abbrev yearsBefore (k : Nat) : Nat := daysOfYears EPOCH k

/-- The loop after `k` years. -/
def yearState (seconds : UInt32) (k : Nat) : YearState where
  n := .ofNat (seconds.toNat - yearsBefore k * 86400)
  d := .ofNat (yearsBefore k)
  r := .ofNat k
  y := .ofNat k

theorem yearState_zero (s : UInt32) : yearStart s = yearState s 0 := by
  unfold yearStart yearState
  simp [yearsBefore, daysOfYears]

/-- There are not so many days in 32 bits. -/
theorem yearsBefore_last : yearsBefore 137 = 50038 := by decide +kernel

variable {s : UInt32} {k : Nat}

theorem year_le (h : yearsBefore k ≤ s.toNat / 86400) : k ≤ 136 := by
  by_contra hlarge
  have hmono := daysOfYears_mono EPOCH (show 137 ≤ k by omega)
  rw [show daysOfYears EPOCH 137 = 50038 from yearsBefore_last] at hmono
  have hs := s.toNat_lt
  unfold yearsBefore at h
  omega

theorem yearState_n (s : UInt32) (k : Nat) :
    (yearState s k).n.toNat = s.toNat - yearsBefore k * 86400 := by
  have hs := s.toNat_lt
  exact UInt64.toNat_ofNat_of_lt' (show s.toNat - yearsBefore k * 86400 < 18446744073709551616 by omega)

theorem yearState_r (h : yearsBefore k ≤ s.toNat / 86400) : (yearState s k).r.toNat = k := by
  have hk := year_le h
  exact UInt16.toNat_ofNat_of_lt' (show k < 65536 by omega)

/-- The loop goes on if the days of an ordinary year are left. -/
theorem yearState_goes (h : yearsBefore k ≤ s.toNat / 86400) :
    (yearState s k).Goes ↔ yearsBefore k + 365 ≤ s.toNat / 86400 := by
  have hn := yearState_n s k
  unfold YearState.Goes
  rw [ge_iff_le, UInt64.le_iff_toNat_le, hn]
  show 31536000 ≤ _ ↔ _
  omega

theorem yearState_taken (h : yearsBefore k ≤ s.toNat / 86400) :
    (yearState s k).taken.toNat = yearDays (EPOCH + k) * 86400 := by
  unfold YearState.taken yearDays
  rw [yearState_r h]
  split <;> rfl

/-- A year that is left is taken away. -/
theorem yearState_body (h : yearsBefore (k + 1) ≤ s.toNat / 86400) :
    (yearState s k).body = yearState s (k + 1) := by
  have hsucc : yearsBefore (k + 1) = yearsBefore k + yearDays (EPOCH + k) := rfl
  have hbefore : yearsBefore k ≤ s.toNat / 86400 := by omega
  have htaken := yearState_taken hbefore
  -- a whole year is left, so the subtraction does not wrap
  have hn : (yearState s k).n - (yearState s k).taken = (yearState s (k + 1)).n := by
    rw [← UInt64.toNat_inj, UInt64.toNat_sub_of_le, yearState_n, yearState_n, htaken]
    · omega
    · rw [UInt64.le_iff_toNat_le, yearState_n, htaken]
      omega
  have hd : (yearState s k).d + (if IsLeap (EPOCH + (yearState s k).r.toNat) then 366 else 365) =
      (yearState s (k + 1)).d := by
    rw [yearState_r hbefore]
    show UInt64.ofNat (yearsBefore k) + _ = UInt64.ofNat (yearsBefore (k + 1))
    rw [hsucc, UInt64.ofNat_add]
    unfold yearDays
    split <;> rfl
  unfold YearState.body
  rw [hn, hd]
  unfold yearState
  rw [UInt16.ofNat_add]
  rfl

/-- The loop takes away what is there. -/
theorem yearState_next (h : yearsBefore (k + 1) ≤ s.toNat / 86400) :
    YearState.Next (yearState s k) (yearState s (k + 1)) := by
  have hsucc : yearsBefore (k + 1) = yearsBefore k + yearDays (EPOCH + k) := rfl
  obtain ⟨hdays, -⟩ := yearDays_bounds (EPOCH + k)
  exact ⟨(yearState_goes (by omega)).mpr (by omega), (yearState_body h).symm⟩

theorem yearState_reached (h : yearsBefore k ≤ s.toNat / 86400) :
    ReflTransGen YearState.Next (yearStart s) (yearState s k) := by
  induction k with
  | zero => rw [yearState_zero]
  | succ k ih =>
    have hsucc : yearsBefore (k + 1) = yearsBefore k + yearDays (EPOCH + k) := rfl
    exact (ih (by omega)).tail (yearState_next h)

/-- The year that the loop ends with. -/
structure LastYear (s : UInt32) (k : Nat) : Prop where
  before : yearsBefore k ≤ s.toNat / 86400
  within : s.toNat / 86400 < yearsBefore k + 365

theorem LastYear.not_goes (h : LastYear s k) : ¬ (yearState s k).Goes := by
  rw [yearState_goes h.before]
  exact not_le.mpr h.within

theorem LastYear.before_of_le (h : LastYear s k) {j : Nat} (hj : j ≤ k) :
    yearsBefore j ≤ s.toNat / 86400 :=
  (daysOfYears_mono EPOCH hj).trans h.before

/-- The loop takes away one year after the other. -/
theorem LastYear.yearLoop (h : LastYear s k) {j : Nat} (hj : j ≤ k) (fuel : Nat)
    (hfuel : k ≤ j + fuel) : yearLoop fuel (yearState s j) = some (yearState s k) := by
  induction fuel generalizing j with
  | zero =>
    obtain rfl : j = k := by omega
    exact if_neg h.not_goes
  | succ fuel ih =>
    by_cases hlast : j = k
    · rw [hlast]
      exact if_neg h.not_goes
    · have hnext := h.before_of_le (show j + 1 ≤ k by omega)
      rw [Ptpd.yearLoop, if_pos (yearState_next hnext).1, yearState_body hnext]
      exact ih (by omega) (by omega)

/-- It passes through these states only. -/
theorem LastYear.reached (h : LastYear s k) {st : YearState}
    (hst : ReflTransGen YearState.Next (yearStart s) st) : ∃ j ≤ k, st = yearState s j := by
  induction hst with
  | refl => exact ⟨0, by omega, yearState_zero s⟩
  | tail _ hnext ih =>
    obtain ⟨j, hj, rfl⟩ := ih
    obtain ⟨hgoes, rfl⟩ := hnext
    have hne : j ≠ k := fun heq => h.not_goes (heq ▸ hgoes)
    exact ⟨j + 1, by omega, yearState_body (h.before_of_le (by omega))⟩

/-- Nothing wraps on the way there. -/
theorem LastYear.unwrapped (h : LastYear s k) {st : YearState}
    (hst : ReflTransGen YearState.Next (yearStart s) st) (hgoes : st.Goes) : st.taken ≤ st.n := by
  obtain ⟨j, hj, rfl⟩ := h.reached hst
  have hne : j ≠ k := fun heq => h.not_goes (heq ▸ hgoes)
  have hnext := h.before_of_le (show j + 1 ≤ k by omega)
  have hsucc : yearsBefore (j + 1) = yearsBefore j + yearDays (EPOCH + j) := rfl
  rw [UInt64.le_iff_toNat_le, yearState_taken (by omega), yearState_n]
  omega

/-- Unless the day is the 366th of its year, the loop ends in time. -/
theorem lastYear_of_not_last (h : ¬ LastOfLeapYear s) : ∃ k, LastYear s k := by
  have hs := s.toNat_lt
  have hend : s.toNat / 86400 < yearsBefore 137 := by
    rw [yearsBefore_last]
    omega
  obtain ⟨k, -, hbefore, hafter⟩ := exists_step (f := yearsBefore) (Nat.zero_le _) hend
  refine ⟨k, hbefore, ?_⟩
  have hsucc : yearsBefore (k + 1) = yearsBefore k + yearDays (EPOCH + k) := rfl
  by_contra hlong
  unfold yearDays at hsucc
  by_cases hleap : IsLeap (EPOCH + k)
  · rw [if_pos hleap] at hsucc
    exact h ⟨k, hleap, show s.toNat / 86400 = yearsBefore k + 365 by omega⟩
  · rw [if_neg hleap] at hsucc
    omega

/-- On the 366th day the loop takes away a day too much. -/
theorem wraps_of_last (h : LastOfLeapYear s) :
    ∃ st, ReflTransGen YearState.Next (yearStart s) st ∧ st.Goes ∧ ¬ st.taken ≤ st.n := by
  obtain ⟨k, hleap, hday⟩ := h
  have hday : s.toNat / 86400 = yearsBefore k + 365 := hday
  refine ⟨yearState s k, yearState_reached (by omega), (yearState_goes (by omega)).mpr (by omega), ?_⟩
  rw [UInt64.le_iff_toNat_le, yearState_taken (by omega), yearState_n]
  unfold yearDays
  rw [if_pos hleap]
  omega

/-! ## The months that are taken away -/

/-- The month loop after `m` months of a year of which `x` days are over. -/
def monthState (y x m : Nat) : MonthState where
  yd := (x : Int) - daysOfMonths y m
  rz := .ofNat (daysOfMonths y m)
  yf := .ofNat (m + 1)

theorem monthTaken_eq {y m : Nat} (hy : y < 65536) (hm : m < 12) :
    monthTaken (.ofNat y) (.ofNat (m + 1)) = some (monthDays y (m + 1)) := by
  have hyear : (UInt16.ofNat y).toNat = y := UInt16.toNat_ofNat_of_lt' hy
  have hcases : m = 0 ∨ m = 1 ∨ m = 2 ∨ m = 3 ∨ m = 4 ∨ m = 5 ∨ m = 6 ∨ m = 7 ∨ m = 8 ∨ m = 9 ∨
    m = 10 ∨ m = 11 := by omega
  unfold monthTaken
  rw [hyear]
  rcases hcases with rfl | rfl | rfl | rfl | rfl | rfl | rfl | rfl | rfl | rfl | rfl | rfl
  case inr.inl =>
    show (if IsLeap y then some 29 else some 28) = some (monthDays y 2)
    unfold monthDays
    split <;> rfl
  all_goals rfl

variable {y x : Nat}

/-- A month that is over is taken away. -/
theorem monthLoop_next {m fuel : Nat} (hy : y < 65536) (hm : m < 12)
    (hover : daysOfMonths y (m + 1) ≤ x) :
    monthLoop (.ofNat y) (fuel + 1) (monthState y x m) =
      monthLoop (.ofNat y) fuel (monthState y x (m + 1)) := by
  obtain ⟨hdays, -⟩ := monthDays_bounds y (m + 1)
  have hsucc : daysOfMonths y (m + 1) = daysOfMonths y m + monthDays y (m + 1) := rfl
  -- the guard asks for 28 days, which every month has
  have hgoes : (monthState y x m).yd ≥ 28 := by
    show (28 : Int) ≤ (x : Int) - daysOfMonths y m
    omega
  have hleft : ¬ (monthState y x m).yd - monthDays y (m + 1) < 0 := by
    show ¬ (x : Int) - daysOfMonths y m - monthDays y (m + 1) < 0
    omega
  have hstate : MonthState.mk ((monthState y x m).yd - monthDays y (m + 1))
      ((monthState y x m).rz + UInt64.ofNat (monthDays y (m + 1))) ((monthState y x m).yf + 1) =
      monthState y x (m + 1) := by
    unfold monthState
    rw [hsucc, UInt64.ofNat_add, UInt8.ofNat_add (m + 1)]
    simp only [MonthState.mk.injEq]
    refine ⟨by omega, trivial, rfl⟩
  rw [monthLoop, if_pos hgoes, show monthTaken (.ofNat y) (monthState y x m).yf = _ from
    monthTaken_eq hy hm]
  dsimp only
  rw [if_neg hleft, hstate]

/-- The loop ends in the month of the day, before or within an iteration. -/
theorem monthLoop_ends {m fuel : Nat} (hy : y < 65536) (hm : m < 12) (hwithin : x < daysOfMonths y (m + 1)) :
    ∃ st, monthLoop (.ofNat y) (fuel + 1) (monthState y x m) = some st ∧
      st.rz = (monthState y x m).rz ∧ st.yf = (monthState y x m).yf := by
  have hsucc : daysOfMonths y (m + 1) = daysOfMonths y m + monthDays y (m + 1) := rfl
  rw [monthLoop]
  by_cases hgoes : (monthState y x m).yd ≥ 28
  · have hleft : (monthState y x m).yd - monthDays y (m + 1) < 0 := by
      show (x : Int) - daysOfMonths y m - monthDays y (m + 1) < 0
      omega
    rw [if_pos hgoes, show monthTaken (.ofNat y) (monthState y x m).yf = _ from
      monthTaken_eq hy hm]
    dsimp only
    rw [if_pos hleft]
    exact ⟨_, rfl, rfl, rfl⟩
  · rw [if_neg hgoes]
    exact ⟨_, rfl, rfl, rfl⟩

theorem monthLoop_eq {m M fuel : Nat} (hy : y < 65536) (hM : M < 12)
    (hbefore : daysOfMonths y M ≤ x) (hwithin : x < daysOfMonths y (M + 1)) (hm : m ≤ M)
    (hfuel : M ≤ m + fuel) :
    ∃ st, monthLoop (.ofNat y) (fuel + 1) (monthState y x m) = some st ∧
      st.rz = .ofNat (daysOfMonths y M) ∧ st.yf = .ofNat (M + 1) := by
  induction fuel generalizing m with
  | zero =>
    obtain rfl : m = M := by omega
    exact monthLoop_ends hy hM hwithin
  | succ fuel ih =>
    by_cases hlast : m = M
    · rw [hlast]
      exact monthLoop_ends hy hM hwithin
    · have hover := (daysOfMonths_mono y (show m + 1 ≤ M by omega)).trans hbefore
      rw [monthLoop_next hy (by omega) hover]
      exact ih (by omega) (by omega)

/-! ## The date -/

/-- A day of a month and a second of the day make a moment. -/
theorem exists_moment {k x M sec : Nat} (hM : M < 12)
    (hbefore : daysOfMonths (EPOCH + k) M ≤ x) (hwithin : x < daysOfMonths (EPOCH + k) (M + 1))
    (hsec : sec < 86400) :
    ∃ t : Moment, t.seconds EPOCH = (yearsBefore k + x) * 86400 + sec ∧ t.year = EPOCH + k ∧
      t.month = M + 1 ∧ t.day = x - daysOfMonths (EPOCH + k) M + 1 ∧ t.hour = sec / 3600 ∧
      t.minute = sec % 3600 / 60 ∧ t.second = sec % 3600 % 60 := by
  have hsucc : daysOfMonths (EPOCH + k) (M + 1) = daysOfMonths (EPOCH + k) M +
    monthDays (EPOCH + k) (M + 1) := rfl
  refine ⟨⟨EPOCH + k, M + 1, x - daysOfMonths (EPOCH + k) M + 1, sec / 3600, sec % 3600 / 60,
    sec % 3600 % 60, by omega, by omega, by omega, by omega, by omega⟩, ?_, rfl, rfl, rfl, rfl, rfl,
    rfl⟩
  unfold Moment.seconds Moment.days Moment.dayOfYear yearsBefore
  dsimp only
  rw [Nat.add_sub_cancel_left, Nat.add_sub_cancel, Nat.add_sub_cancel]
  omega

/-- The fields of the time of day. -/
theorem timeOfDay (s : UInt32) :
    ((s % 86400) / 3600).toUInt8 = .ofNat (s.toNat % 86400 / 3600) ∧
      ((s % 86400) % 3600 / 60).toUInt8 = .ofNat (s.toNat % 86400 % 3600 / 60) ∧
      ((s % 86400) % 3600 % 60).toUInt8 = .ofNat (s.toNat % 86400 % 3600 % 60) := by
  refine ⟨?_, ?_, ?_⟩
  all_goals
    rw [← UInt8.toNat_inj, UInt32.toNat_toUInt8, UInt8.toNat_ofNat']
    simp only [UInt32.toNat_div, UInt32.toNat_mod]
    rfl

/-- The day of the month passes through 16 bits. -/
theorem dayOfMonth {x b : Nat} (hb : b ≤ x) (hx : x < 65536) :
    ((UInt64.ofNat x - UInt64.ofNat b).toUInt16 + 1).toUInt8 = UInt8.ofNat (x - b + 1) := by
  rw [← UInt64.ofNat_sub hb, UInt8.ofNat_add, UInt16.toUInt8_add]
  congr 1
  rw [← UInt8.toNat_inj, UInt16.toNat_toUInt8, UInt64.toNat_toUInt16, UInt8.toNat_ofNat',
    UInt64.toNat_ofNat_of_lt' (show x - b < 18446744073709551616 by omega)]
  omega

/-- The fields are those of the loops' last states. -/
theorem calc_date_time_of {fuel : Nat} {st : YearState} {d : UInt64} {m : MonthState}
    (hst : yearLoop fuel (yearStart s) = some st) (hd : (s / 86400).toUInt64 - st.d = d)
    (hm : monthLoop (st.y + 1970) fuel ⟨MachineInt.wrapS 64 d.toNat, 0, 1⟩ = some m) :
    calc_date_time fuel s = some {
      year := st.y + 1970
      month := m.yf
      day := ((d - m.rz).toUInt16 + 1).toUInt8
      hour := (s % 86400 / 3600).toUInt8
      minute := (s % 86400 % 3600 / 60).toUInt8
      second := (s % 86400 % 3600 % 60).toUInt8 } := by
  subst hd
  unfold calc_date_time
  rw [hst]
  simp only [Option.bind_eq_bind, Option.bind_some]
  rw [hm]
  rfl

/-- The days that are left after the year loop. -/
theorem daysLeft {x : Nat} (hx : s.toNat / 86400 = yearsBefore k + x) :
    (s / 86400).toUInt64 - (yearState s k).d = UInt64.ofNat x := by
  have hs := s.toNat_lt
  have htotal : (s / 86400).toUInt64.toNat = yearsBefore k + x := by
    rw [UInt32.toNat_toUInt64, UInt32.toNat_div]
    exact hx
  have hd : (yearState s k).d.toNat = yearsBefore k :=
    UInt64.toNat_ofNat_of_lt' (show yearsBefore k < 18446744073709551616 by omega)
  have hle : (yearState s k).d ≤ (s / 86400).toUInt64 := by
    rw [UInt64.le_iff_toNat_le, htotal, hd]
    exact Nat.le_add_right _ _
  rw [← UInt64.toNat_inj, UInt64.toNat_sub_of_le _ _ hle, htotal, hd, Nat.add_sub_cancel_left,
    UInt64.toNat_ofNat_of_lt' (show x < 18446744073709551616 by omega)]

/-- The date that `calc_date_time` ends with, and the time of day. -/
theorem LastYear.calc_date_time (h : LastYear s k) {fuel : Nat} (hfuel : 136 ≤ fuel) :
    ∃ t : Moment, t.year = EPOCH + k ∧ t.seconds EPOCH = s.toNat ∧
      calc_date_time (fuel + 1) s = some (.of t) := by
  have hbefore := h.before
  have hwithin := h.within
  have hk := year_le hbefore
  have hs := s.toNat_lt
  obtain ⟨x, hx⟩ : ∃ x, s.toNat / 86400 = yearsBefore k + x := ⟨_, (Nat.add_sub_cancel' hbefore).symm⟩
  have hx365 : x < 365 := by omega
  have hx16 : x < 65536 := by omega
  obtain ⟨hdays, -⟩ := yearDays_bounds (EPOCH + k)
  obtain ⟨M, hM, hMbefore, hMwithin⟩ := exists_month (show x < yearDays (EPOCH + k) by omega)
  have hyear : EPOCH + k < 65536 := by
    unfold EPOCH
    omega
  obtain ⟨t, hseconds, ht⟩ := exists_moment hM hMbefore hMwithin
    (Nat.mod_lt s.toNat (show 0 < 86400 by omega))
  obtain ⟨m, hm, hrz, hyf⟩ := monthLoop_eq hyear hM hMbefore hMwithin (Nat.zero_le M)
    (show M ≤ 0 + fuel by omega)
  -- the variables between the loops
  have hleft := daysLeft hx
  have hyd : MachineInt.wrapS 64 (UInt64.ofNat x).toNat = x := by
    rw [UInt64.toNat_ofNat_of_lt' (show x < 18446744073709551616 by omega)]
    exact MachineInt.wrapS_64 (by omega) (by omega)
  have hy : (yearState s k).y + 1970 = UInt16.ofNat (EPOCH + k) := by
    rw [Nat.add_comm, UInt16.ofNat_add]
    rfl
  have hstart : MonthState.mk x 0 1 = monthState (EPOCH + k) x 0 := by
    unfold monthState
    simp [daysOfMonths]
  obtain ⟨hhour, hminute, hsecond⟩ := timeOfDay s
  obtain ⟨htyear, htmonth, htday, hthour, htminute, htsecond⟩ := ht
  refine ⟨t, htyear, ?_, ?_⟩
  · rw [hseconds, ← hx]
    exact Nat.div_add_mod' _ _
  · have hstate := h.yearLoop (Nat.zero_le k) (fuel + 1) (by omega)
    rw [← yearState_zero] at hstate
    rw [← hstart, ← hyd, ← hy] at hm
    rw [calc_date_time_of hstate hleft hm, hrz, hyf, hy, dayOfMonth hMbefore hx16, hhour, hminute,
      hsecond]
    unfold DateTime.of
    rw [htyear, htmonth, htday, hthour, htminute, htsecond]

theorem SecToTime_UTC (fuel : Nat) (s : UInt32) : SecToTime fuel s UTC = calc_date_time fuel s := by
  have hzero : UInt32.ofInt (zoneOffset UTC) = 0 := rfl
  unfold SecToTime
  rw [hzero, UInt32.add_zero]

/-- **Every number of seconds becomes its date**, except on the 366th days of the leap years,
    where the year loop wraps. -/
theorem SecToTime_dates_iff (s : UInt32) : Dates s ↔ ¬ LastOfLeapYear s := by
  constructor
  · intro h hlast
    obtain ⟨st, hst, hgoes, hwraps⟩ := wraps_of_last hlast
    exact hwraps (h.unwrapped st hst hgoes)
  · intro h
    obtain ⟨k, hk⟩ := lastYear_of_not_last h
    obtain ⟨t, hyear, hseconds, hdate⟩ := hk.calc_date_time (le_refl 136)
    have hle := year_le hk.before
    have hsmall : t.year < 65536 := by
      rw [hyear]
      unfold EPOCH
      omega
    have hepoch : 1970 ≤ t.year := by
      rw [hyear]
      exact Nat.le_add_right _ _
    refine ⟨fun st hst hgoes => hk.unwrapped hst hgoes, .of t, ?_, t, hsmall, rfl, ?_⟩
    · rw [SecToTime_UTC]
      exact hdate
    · have hcount : t.seconds 1970 = s.toNat := hseconds
      rw [DateTime.mktime_of hepoch hsmall, hcount, UInt32.ofNat_toNat]

/-- The first second of the 31st of December 1972. -/
theorem SecToTime_wraps : ¬ ∀ s : UInt32, Dates s := by
  intro h
  have hlast : LastOfLeapYear 94608000 := ⟨2, by decide, by decide +kernel⟩
  obtain ⟨st, hst, hgoes, hwraps⟩ := wraps_of_last hlast
  exact hwraps ((h 94608000).unwrapped st hst hgoes)

end Ptpd
