import Mathlib.Data.Nat.Basic

/-! # The Gregorian calendar

    Years and months counted one by one from an epoch. A moment is a date and
    time of day that exists; its number of seconds since the epoch tells moments
    apart and orders them as the calendar does.
-/

namespace Calendar

/-! ## Years and months -/

def IsLeap (y : Nat) : Prop := y % 400 = 0 ∨ y % 100 ≠ 0 ∧ y % 4 = 0

instance : DecidablePred IsLeap := fun _ => inferInstanceAs (Decidable (_ ∨ _))

def yearDays (y : Nat) : Nat := if IsLeap y then 366 else 365

def monthDays (y m : Nat) : Nat :=
  match m with
  | 2 => if IsLeap y then 29 else 28
  | 4 | 6 | 9 | 11 => 30
  | _ => 31

/-- The days of `n` years from year `epoch` on. -/
def daysOfYears (epoch : Nat) : Nat → Nat
  | 0 => 0
  | n + 1 => daysOfYears epoch n + yearDays (epoch + n)

/-- The days of the first `m` months of a year. -/
def daysOfMonths (y : Nat) : Nat → Nat
  | 0 => 0
  | m + 1 => daysOfMonths y m + monthDays y (m + 1)

theorem yearDays_bounds (y : Nat) : 365 ≤ yearDays y ∧ yearDays y ≤ 366 := by
  unfold yearDays
  split <;> omega

theorem monthDays_bounds (y m : Nat) : 28 ≤ monthDays y m ∧ monthDays y m ≤ 31 := by
  unfold monthDays
  split
  · split <;> omega
  all_goals omega

theorem daysOfYears_mono (epoch : Nat) {m n : Nat} (h : m ≤ n) :
    daysOfYears epoch m ≤ daysOfYears epoch n := by
  induction n, h using Nat.le_induction with
  | base => exact le_rfl
  | succ n hn ih => exact Nat.le_trans ih (Nat.le_add_right _ _)

theorem daysOfMonths_mono (y : Nat) {m n : Nat} (h : m ≤ n) :
    daysOfMonths y m ≤ daysOfMonths y n := by
  induction n, h using Nat.le_induction with
  | base => exact le_rfl
  | succ n hn ih => exact Nat.le_trans ih (Nat.le_add_right _ _)

/-- The months make up the year. -/
theorem daysOfMonths_twelve (y : Nat) : daysOfMonths y 12 = yearDays y := by
  unfold yearDays
  by_cases h : IsLeap y <;> simp [daysOfMonths, monthDays, h]

/-- The days from year 0 to year `y`, were the calendar as old as that. -/
def leapsBefore (y : Nat) : Nat := (y + 3) / 4 + (y + 399) / 400 - (y + 99) / 100

theorem daysOfYears_eq (epoch n : Nat) :
    daysOfYears epoch n + (365 * epoch + leapsBefore epoch) =
      365 * (epoch + n) + leapsBefore (epoch + n) := by
  induction n with
  | zero => simp [daysOfYears]
  | succ n ih =>
    have hyear : leapsBefore (epoch + n) + yearDays (epoch + n) =
        365 + leapsBefore (epoch + n + 1) := by
      generalize epoch + n = y
      unfold leapsBefore yearDays
      by_cases hleap : IsLeap y
      · rw [if_pos hleap]
        unfold IsLeap at hleap
        omega
      · rw [if_neg hleap]
        unfold IsLeap at hleap
        omega
    simp only [daysOfYears]
    rw [← Nat.add_assoc epoch n 1]
    omega

/-- A number lies between two values of a function that starts below it and ends above. -/
theorem exists_step {f : Nat → Nat} {x n : Nat} (hstart : f 0 ≤ x) (hend : x < f n) :
    ∃ k < n, f k ≤ x ∧ x < f (k + 1) := by
  induction n with
  | zero => omega
  | succ n ih =>
    by_cases hn : x < f n
    · obtain ⟨k, hk, hbetween⟩ := ih hn
      exact ⟨k, by omega, hbetween⟩
    · exact ⟨n, by omega, by omega, hend⟩

/-- Every day of a year is in a month. -/
theorem exists_month {y x : Nat} (hx : x < yearDays y) :
    ∃ m < 12, daysOfMonths y m ≤ x ∧ x < daysOfMonths y (m + 1) :=
  exists_step (Nat.zero_le _) (by rwa [daysOfMonths_twelve])

/-! ## Moments -/

/-- A date that the calendar has, and a time of day. -/
structure Moment where
  year : Nat
  month : Nat
  day : Nat
  hour : Nat
  minute : Nat
  second : Nat
  month_range : 1 ≤ month ∧ month ≤ 12
  day_range : 1 ≤ day ∧ day ≤ monthDays year month
  hour_lt : hour < 24
  minute_lt : minute < 60
  second_lt : second < 60
deriving DecidableEq

namespace Moment

/-- The days before the date in its year. -/
def dayOfYear (t : Moment) : Nat := daysOfMonths t.year (t.month - 1) + (t.day - 1)

/-- The days from the beginning of year `epoch` to the date. -/
def days (epoch : Nat) (t : Moment) : Nat :=
  daysOfYears epoch (t.year - epoch) + t.dayOfYear

def seconds (epoch : Nat) (t : Moment) : Nat :=
  ((t.days epoch * 24 + t.hour) * 60 + t.minute) * 60 + t.second

/-- The order of the calendar. -/
instance : LT Moment where
  lt t u :=
    t.year < u.year ∨ t.year = u.year ∧
      (t.month < u.month ∨ t.month = u.month ∧
        (t.day < u.day ∨ t.day = u.day ∧
          (t.hour < u.hour ∨ t.hour = u.hour ∧
            (t.minute < u.minute ∨ t.minute = u.minute ∧ t.second < u.second))))

instance : LE Moment where
  le t u := ¬ u < t

instance (t u : Moment) : Decidable (t < u) := inferInstanceAs (Decidable (_ ∨ _))

instance (t u : Moment) : Decidable (t ≤ u) := inferInstanceAs (Decidable (¬ _))

variable {t u : Moment}

theorem dayOfYear_lt (t : Moment) : t.dayOfYear < yearDays t.year := by
  obtain ⟨hmonth, hmonth'⟩ := t.month_range
  obtain ⟨hday, hday'⟩ := t.day_range
  have hnext : daysOfMonths t.year t.month = daysOfMonths t.year (t.month - 1) +
      monthDays t.year t.month := by
    obtain ⟨m, hm⟩ : ∃ m, t.month = m + 1 := ⟨t.month - 1, by omega⟩
    rw [hm]
    rfl
  have hlast := daysOfMonths_mono t.year hmonth'
  rw [daysOfMonths_twelve] at hlast
  unfold dayOfYear
  omega

/-- Earlier in one year. -/
theorem dayOfYear_lt_of_month (hyear : t.year = u.year) (h : t.month < u.month) :
    t.dayOfYear < u.dayOfYear := by
  obtain ⟨hmonth, hmonth'⟩ := t.month_range
  obtain ⟨hday, hday'⟩ := t.day_range
  have hnext : daysOfMonths t.year t.month = daysOfMonths t.year (t.month - 1) +
      monthDays t.year t.month := by
    obtain ⟨m, hm⟩ : ∃ m, t.month = m + 1 := ⟨t.month - 1, by omega⟩
    rw [hm]
    rfl
  have hmono := daysOfMonths_mono t.year (show t.month ≤ u.month - 1 by omega)
  unfold dayOfYear
  rw [← hyear]
  omega

theorem days_lt_of_year {epoch : Nat} (hepoch : epoch ≤ t.year) (h : t.year < u.year) :
    t.days epoch < u.days epoch := by
  have hlt := t.dayOfYear_lt
  have hnext : daysOfYears epoch (t.year - epoch + 1) =
      daysOfYears epoch (t.year - epoch) + yearDays t.year := by
    rw [daysOfYears, Nat.add_sub_cancel' hepoch]
  have hmono := daysOfYears_mono epoch (show t.year - epoch + 1 ≤ u.year - epoch by omega)
  unfold days
  omega

/-- A later moment has more seconds. -/
theorem seconds_lt_of_lt {epoch : Nat} (hepoch : epoch ≤ t.year) (h : t < u) :
    t.seconds epoch < u.seconds epoch := by
  have hth := t.hour_lt
  have htm := t.minute_lt
  have hts := t.second_lt
  have huh := u.hour_lt
  have hum := u.minute_lt
  have hus := u.second_lt
  have htd := t.day_range
  have hday : t.days epoch < u.days epoch ∨ t.days epoch = u.days epoch ∧
      (t.hour < u.hour ∨ t.hour = u.hour ∧
        (t.minute < u.minute ∨ t.minute = u.minute ∧ t.second < u.second)) := by
    -- a later year, month or day makes more days
    rcases h with hyear | ⟨hyear, hmonth | ⟨hmonth, hday | ⟨hday, htime⟩⟩⟩
    · exact .inl (days_lt_of_year hepoch hyear)
    · have hlt := dayOfYear_lt_of_month hyear hmonth
      left
      unfold days
      rw [← hyear]
      omega
    · left
      unfold days dayOfYear
      rw [← hyear, ← hmonth]
      omega
    · right
      refine ⟨?_, htime⟩
      unfold days dayOfYear
      rw [hyear, hmonth, hday]
  unfold seconds
  omega

theorem seconds_le_of_le {epoch : Nat} (hepoch : epoch ≤ t.year) (h : t ≤ u) :
    t.seconds epoch ≤ u.seconds epoch := by
  by_cases hlt : t < u
  · exact Nat.le_of_lt (seconds_lt_of_lt hepoch hlt)
  · -- neither is earlier: all fields agree
    obtain ⟨hyear, hmonth, hday, hhour, hminute, hsecond⟩ : t.year = u.year ∧
        t.month = u.month ∧ t.day = u.day ∧ t.hour = u.hour ∧ t.minute = u.minute ∧
        t.second = u.second := by
      simp only [LE.le, LT.lt] at h hlt
      simp only [Nat.lt_eq] at h hlt
      omega
    unfold seconds days dayOfYear
    rw [hyear, hmonth, hday, hhour, hminute, hsecond]

end Moment

end Calendar
