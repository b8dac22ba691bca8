import Ptpd.Lib.Calendar
import Ptpd.Lib.MachineInt

/-! # Seconds of a date (`timer.c`: `mktime`; `mktime.c`: `TimeToSec`)

    Both functions count the days of a date with one closed formula, in which the
    year begins with March. `mktime` evaluates it in 32-bit arithmetic over
    `int` parameters, `TimeToSec` in place in the 8-bit and 16-bit fields of a
    `DateTime`, where the month never becomes negative.
-/

namespace Ptpd

open Calendar

/-! ## The functions -/

structure DateTime where
  year : UInt16
  month : UInt8
  day : UInt8
  hour : UInt8
  minute : UInt8
  second : UInt8
deriving DecidableEq, Inhabited

def mktime (year : UInt32) (mon : Int) (day hour min sec : UInt32) : UInt32 :=
  let mon := mon - 2
  -- 1..12 -> 11,12,1..10: puts Feb last since it has leap day
  let (mon, year) := if 0 ≥ mon then (mon + 12, year - 1) else (mon, year)
  (((year / 4 - year / 100 + year / 400 + UInt32.ofInt ((367 * mon).tdiv 12) + day +
    year * 365 - 719499) * 24 + hour) * 60 + min) * 60 + sec

def TimeToSec (p : DateTime) : UInt32 :=
  -- the month is 8 bits wide and unsigned, so that 1 - 2 is 255
  let month := p.month - 2
  let (month, year) := if 0 ≥ (month.toNat : Int) then (month + 12, p.year - 1) else (month, p.year)
  let y : Int := year.toNat
  let m : Int := month.toNat
  ((((UInt32.ofInt (y.tdiv 4 - y.tdiv 100 + y.tdiv 400 + (367 * m).tdiv 12 + p.day.toNat) +
    UInt32.ofInt (y * 365) - 719499) * 24 + UInt32.ofInt p.hour.toNat) * 60 +
    UInt32.ofInt p.minute.toNat) * 60) + UInt32.ofInt p.second.toNat

/-- `mktime(p.year, p.month, p.day, p.hour, p.minute, p.second)`. -/
def DateTime.mktime (p : DateTime) : UInt32 :=
  Ptpd.mktime p.year.toUInt32 p.month.toNat p.day.toUInt32 p.hour.toUInt32 p.minute.toUInt32
    p.second.toUInt32

/-- A date and time of the calendar in these fields, as far as it fits in them. -/
def DateTime.of (t : Moment) : DateTime where
  year := .ofNat t.year
  month := .ofNat t.month
  day := .ofNat t.day
  hour := .ofNat t.hour
  minute := .ofNat t.minute
  second := .ofNat t.second

/-! ## The formula -/

/-- The formula over unbounded integers, of a year that begins with March. -/
def marchSeconds (year mon day hour min sec : Nat) : Int :=
  (((year / 4 - year / 100 + year / 400 + 367 * mon / 12 + day + year * 365 - 719499) * 24 +
    hour) * 60 + min) * 60 + sec

theorem ofInt_natCast (n : Nat) : UInt32.ofInt (n : Int) = UInt32.ofNat n := by
  rw [UInt32.ofInt, ← UInt32.toNat_inj, UInt32.toNat_ofNat', UInt32.toNat_ofNat']
  omega

theorem ofInt_toNat (u : UInt32) : UInt32.ofInt u.toNat = u := by
  rw [ofInt_natCast, UInt32.ofNat_toNat]

theorem ofInt_inj {a b : Int} : UInt32.ofInt a = UInt32.ofInt b ↔ a % 4294967296 = b % 4294967296 := by
  rw [← UInt32.toNat_inj, UInt32.ofInt, UInt32.ofInt, UInt32.toNat_ofNat', UInt32.toNat_ofNat']
  norm_num
  omega

/-- It is the one of `mktime` modulo 2^32. -/
theorem marchSeconds_ofInt (year : UInt32) (mon : Nat) (day hour min sec : UInt32) :
    (((year / 4 - year / 100 + year / 400 + UInt32.ofInt ((367 * (mon : Int)).tdiv 12) + day +
      year * 365 - 719499) * 24 + hour) * 60 + min) * 60 + sec =
      UInt32.ofInt (marchSeconds year.toNat mon day.toNat hour.toNat min.toNat sec.toNat) := by
  have hdiv : ∀ d : UInt32, UInt32.ofInt ((year.toNat : Int) / (d.toNat : Int)) = year / d := by
    intro d
    rw [← Int.natCast_ediv, ← UInt32.toNat_div, ofInt_toNat]
  have h4 : UInt32.ofInt ((year.toNat : Int) / 4) = year / 4 := hdiv 4
  have h100 : UInt32.ofInt ((year.toNat : Int) / 100) = year / 100 := hdiv 100
  have h400 : UInt32.ofInt ((year.toNat : Int) / 400) = year / 400 := hdiv 400
  have hmon : (367 * (mon : Int)).tdiv 12 = 367 * mon / 12 := Int.tdiv_eq_ediv_of_nonneg (by omega)
  have hliteral : ∀ n : Nat, UInt32.ofInt (n : Int) = UInt32.ofNat n := ofInt_natCast
  have h365 : UInt32.ofInt 365 = 365 := hliteral 365
  have h24 : UInt32.ofInt 24 = 24 := hliteral 24
  have h60 : UInt32.ofInt 60 = 60 := hliteral 60
  have hepoch : UInt32.ofInt 719499 = 719499 := hliteral 719499
  unfold marchSeconds
  simp only [Int.sub_eq_add_neg, UInt32.ofInt_add, UInt32.ofInt_mul, UInt32.ofInt_neg, ofInt_toNat,
    UInt32.sub_eq_add_neg, h4, h100, h400, hmon, h365, h24, h60, hepoch]

/-- The months counted from March on have 30 or 31 days in the pattern of `367 * mon / 12`. -/
theorem daysOfMonths_march (y : Nat) {m : Nat} (hm : 1 ≤ m) (hm' : m ≤ 12) :
    if m ≤ 2 then daysOfMonths y (m - 1) + 336 = 367 * (m + 10) / 12
    else daysOfMonths y (m - 1) + 30 = 367 * (m - 2) / 12 + 59 + (yearDays y - 365) := by
  have hcases : m = 1 ∨ m = 2 ∨ m = 3 ∨ m = 4 ∨ m = 5 ∨ m = 6 ∨ m = 7 ∨ m = 8 ∨ m = 9 ∨ m = 10 ∨
    m = 11 ∨ m = 12 := by omega
  by_cases hleap : IsLeap y
  all_goals
    rcases hcases with rfl | rfl | rfl | rfl | rfl | rfl | rfl | rfl | rfl | rfl | rfl | rfl
    all_goals simp [daysOfMonths, monthDays, yearDays, hleap]

/-- The days of the months from March on. -/
theorem marchSeconds_eq (t : Moment) (hyear : 1970 ≤ t.year) :
    (t.seconds 1970 : Int) =
      if t.month ≤ 2 then marchSeconds (t.year - 1) (t.month + 10) t.day t.hour t.minute t.second
      else marchSeconds t.year (t.month - 2) t.day t.hour t.minute t.second := by
  obtain ⟨hmonth, hmonth'⟩ := t.month_range
  obtain ⟨hday, -⟩ := t.day_range
  have hyears := daysOfYears_eq 1970 (t.year - 1970)
  rw [Nat.add_sub_cancel' hyear] at hyears
  have hepoch : 365 * 1970 + leapsBefore 1970 = 719528 := by decide
  rw [hepoch] at hyears
  unfold leapsBefore at hyears
  unfold Moment.seconds Moment.days Moment.dayOfYear marchSeconds
  generalize daysOfYears 1970 (t.year - 1970) = years at hyears ⊢
  have hmonths := daysOfMonths_march t.year hmonth hmonth'
  generalize daysOfMonths t.year (t.month - 1) = months at hmonths ⊢
  -- a month before March counts to the year before
  by_cases hearly : t.month ≤ 2
  · rw [if_pos hearly] at hmonths ⊢
    omega
  · rw [if_neg hearly] at hmonths ⊢
    unfold yearDays at hmonths
    by_cases hleap : IsLeap t.year
    · rw [if_pos hleap] at hmonths
      unfold IsLeap at hleap
      omega
    · rw [if_neg hleap] at hmonths
      unfold IsLeap at hleap
      omega

/-! ## `mktime` -/

/-- The last second that 32 bits can count from 1970 on. -/
def lastMoment : Moment := ⟨2106, 2, 7, 6, 28, 15, by decide, by decide, by decide, by decide, by decide⟩

theorem seconds_lt_of_le_last {t : Moment} (hyear : 1970 ≤ t.year) (hlast : t ≤ lastMoment) :
    t.seconds 1970 < 4294967296 := by
  have hle := Moment.seconds_le_of_le hyear hlast
  have hseconds : lastMoment.seconds 1970 = 4294967295 := by decide +kernel
  omega

theorem year_le_of_le_last {t : Moment} (hlast : t ≤ lastMoment) : t.year ≤ 2106 := by
  by_contra hlater
  exact hlast (.inl (not_le.mp hlater))

theorem marchSeconds_of {year mon day hour min sec : Nat} (hyear : year < 4294967296)
    (hday : day < 4294967296) (hhour : hour < 4294967296) (hmin : min < 4294967296)
    (hsec : sec < 4294967296) :
    (((UInt32.ofNat year / 4 - UInt32.ofNat year / 100 + UInt32.ofNat year / 400 +
      UInt32.ofInt ((367 * (mon : Int)).tdiv 12) + UInt32.ofNat day + UInt32.ofNat year * 365 -
      719499) * 24 + UInt32.ofNat hour) * 60 + UInt32.ofNat min) * 60 + UInt32.ofNat sec =
      UInt32.ofInt (marchSeconds year mon day hour min sec) := by
  rw [marchSeconds_ofInt, UInt32.toNat_ofNat_of_lt' hyear, UInt32.toNat_ofNat_of_lt' hday,
    UInt32.toNat_ofNat_of_lt' hhour, UInt32.toNat_ofNat_of_lt' hmin, UInt32.toNat_ofNat_of_lt' hsec]

/-- `mktime` counts the seconds since 1970, as far as 32 bits go. -/
theorem mktime_moment {t : Moment} (hyear : 1970 ≤ t.year) (hsmall : t.year < 4294967296) :
    mktime (.ofNat t.year) t.month (.ofNat t.day) (.ofNat t.hour) (.ofNat t.minute)
      (.ofNat t.second) = UInt32.ofNat (t.seconds 1970) := by
  obtain ⟨hmonth, hmonth'⟩ := t.month_range
  obtain ⟨-, hday⟩ := t.day_range
  obtain ⟨-, hdays⟩ := monthDays_bounds t.year t.month
  have hhour := t.hour_lt
  have hminute := t.minute_lt
  have hsecond := t.second_lt
  have hmarch := marchSeconds_eq t hyear
  rw [← ofInt_natCast (t.seconds 1970), hmarch]
  unfold mktime
  dsimp only
  -- the shift makes January and February months 11 and 12 of the year before
  by_cases hearly : t.month ≤ 2
  · have hshift : (t.month : Int) - 2 + 12 = (t.month + 10 : Nat) := by omega
    have hprevious : UInt32.ofNat t.year - 1 = UInt32.ofNat (t.year - 1) := by
      rw [UInt32.ofNat_sub (by omega)]
      rfl
    rw [if_pos hearly, if_pos (by omega)]
    dsimp only
    rw [hshift, hprevious]
    exact marchSeconds_of (by omega) (by omega) (by omega) (by omega) (by omega)
  · have hshift : (t.month : Int) - 2 = (t.month - 2 : Nat) := by omega
    rw [if_neg hearly, if_neg (by omega)]
    dsimp only
    rw [hshift]
    exact marchSeconds_of hsmall (by omega) (by omega) (by omega) (by omega)

/-! ## `DateTime` -/

theorem DateTime.mktime_of {t : Moment} (hyear : 1970 ≤ t.year) (hsmall : t.year < 65536) :
    (DateTime.of t).mktime = UInt32.ofNat (t.seconds 1970) := by
  obtain ⟨hmonth, hmonth'⟩ := t.month_range
  obtain ⟨-, hday⟩ := t.day_range
  obtain ⟨-, hdays⟩ := monthDays_bounds t.year t.month
  have hhour := t.hour_lt
  have hminute := t.minute_lt
  have hsecond := t.second_lt
  -- the fields are wide enough for what they hold
  have hoctet : ∀ n : Nat, n < 256 → (UInt8.ofNat n).toUInt32 = UInt32.ofNat n := by
    intro n hn
    have hn' : n < 4294967296 := by omega
    rw [← UInt32.toNat_inj, UInt8.toNat_toUInt32, UInt8.toNat_ofNat_of_lt' hn,
      UInt32.toNat_ofNat_of_lt' hn']
  have hword : (UInt16.ofNat t.year).toUInt32 = UInt32.ofNat t.year := by
    have hsmall' : t.year < 4294967296 := by omega
    rw [← UInt32.toNat_inj, UInt16.toNat_toUInt32, UInt16.toNat_ofNat_of_lt' hsmall,
      UInt32.toNat_ofNat_of_lt' hsmall']
  rw [← mktime_moment hyear (by omega)]
  unfold DateTime.mktime DateTime.of
  dsimp only
  have hmon : (UInt8.ofNat t.month).toNat = t.month :=
    UInt8.toNat_ofNat_of_lt' (show t.month < 256 by omega)
  rw [hword, hoctet _ (by omega), hoctet _ (by omega), hoctet _ (by omega), hoctet _ (by omega),
    hmon]

/-- The formula as `TimeToSec` evaluates it. -/
theorem marchSeconds_fields (year mon day hour min sec : Nat) :
    (((UInt32.ofInt ((year : Int).tdiv 4 - (year : Int).tdiv 100 + (year : Int).tdiv 400 +
      (367 * (mon : Int)).tdiv 12 + day) + UInt32.ofInt ((year : Int) * 365) - 719499) * 24 +
      UInt32.ofInt hour) * 60 + UInt32.ofInt min) * 60 + UInt32.ofInt sec =
      UInt32.ofInt (marchSeconds year mon day hour min sec) := by
  have hliteral : ∀ n : Nat, UInt32.ofInt (n : Int) = UInt32.ofNat n := ofInt_natCast
  have h24 : UInt32.ofInt 24 = 24 := hliteral 24
  have h60 : UInt32.ofInt 60 = 60 := hliteral 60
  have hepoch : UInt32.ofInt 719499 = 719499 := hliteral 719499
  have hdiv : ∀ d : Int, (year : Int).tdiv d = year / d :=
    fun d => Int.tdiv_eq_ediv_of_nonneg (by omega)
  have hmon : (367 * (mon : Int)).tdiv 12 = 367 * mon / 12 := Int.tdiv_eq_ediv_of_nonneg (by omega)
  unfold marchSeconds
  rw [hdiv, hdiv, hdiv, hmon]
  simp only [Int.sub_eq_add_neg, UInt32.ofInt_add, UInt32.ofInt_mul, UInt32.ofInt_neg,
    UInt32.sub_eq_add_neg, h24, h60, hepoch]

/-- Two months back from January the octet wraps. -/
theorem monthShift {month : Nat} (hlo : 1 ≤ month) (hhi : month ≤ 12) :
    (UInt8.ofNat month - 2).toNat = if month = 1 then 255 else month - 2 := by
  rw [UInt8.toNat_sub, UInt8.toNat_ofNat_of_lt' (show month < 256 by omega)]
  split <;> simp <;> omega

theorem previousYear {year : Nat} (hepoch : 1970 ≤ year) (hsmall : year < 65536) :
    (UInt16.ofNat year - 1).toNat = year - 1 := by
  have hword : (UInt16.ofNat year).toNat = year := UInt16.toNat_ofNat_of_lt' hsmall
  have hle : 1 ≤ UInt16.ofNat year := by
    rw [UInt16.le_iff_toNat_le, hword]
    show 1 ≤ year
    omega
  rw [UInt16.toNat_sub_of_le _ _ hle, hword]
  rfl

/-- What `TimeToSec` computes of a date, by its month. -/
theorem TimeToSec_of {t : Moment} (hyear : 1970 ≤ t.year) (hsmall : t.year < 65536) :
    TimeToSec (.of t) = UInt32.ofInt
      (if t.month = 1 then marchSeconds t.year 255 t.day t.hour t.minute t.second
      else t.seconds 1970) := by
  obtain ⟨hmonth, hmonth'⟩ := t.month_range
  obtain ⟨-, hday⟩ := t.day_range
  obtain ⟨-, hdays⟩ := monthDays_bounds t.year t.month
  have hhour := t.hour_lt
  have hminute := t.minute_lt
  have hsecond := t.second_lt
  have hoctet : ∀ n : Nat, n < 256 → (UInt8.ofNat n).toNat = n := fun n => UInt8.toNat_ofNat_of_lt'
  have hshift := monthShift hmonth hmonth'
  have hword : (UInt16.ofNat t.year).toNat = t.year := UInt16.toNat_ofNat_of_lt' hsmall
  have hprevious := previousYear hyear hsmall
  have hmarch := marchSeconds_eq t hyear
  have hfields : ∀ (month : UInt8) (year : UInt16),
      ((((UInt32.ofInt ((year.toNat : Int).tdiv 4 - (year.toNat : Int).tdiv 100 +
        (year.toNat : Int).tdiv 400 + (367 * (month.toNat : Int)).tdiv 12 +
        ((UInt8.ofNat t.day).toNat : Int)) + UInt32.ofInt ((year.toNat : Int) * 365) - 719499) * 24 +
        UInt32.ofInt (UInt8.ofNat t.hour).toNat) * 60 + UInt32.ofInt (UInt8.ofNat t.minute).toNat) *
        60) + UInt32.ofInt (UInt8.ofNat t.second).toNat =
      UInt32.ofInt (marchSeconds year.toNat month.toNat t.day t.hour t.minute t.second) := by
    intro month year
    rw [hoctet t.day (by omega), hoctet t.hour (by omega), hoctet t.minute (by omega),
      hoctet t.second (by omega)]
    exact marchSeconds_fields _ _ _ _ _ _
  unfold TimeToSec DateTime.of
  dsimp only
  by_cases hfeb : t.month = 2
  · -- only February becomes 0, and is moved to the end of the year before
    have hzero : UInt8.ofNat t.month - 2 = 0 := by
      rw [← UInt8.toNat_inj, hshift, hfeb]
      rfl
    rw [hzero, if_pos (by decide), if_neg (by omega), hmarch, if_pos (by omega)]
    dsimp only
    have htwelve : ((0 : UInt8) + 12).toNat = 12 := rfl
    rw [hfields, hprevious, hfeb, htwelve]
  · have hpos : ¬ 0 ≥ ((UInt8.ofNat t.month - 2).toNat : Int) := by
      rw [hshift]
      split <;> omega
    rw [if_neg hpos]
    dsimp only
    rw [hfields, hshift, hword]
    by_cases hjan : t.month = 1
    · rw [if_pos hjan, if_pos hjan]
    · rw [if_neg hjan, if_neg hjan, hmarch, if_neg (by omega)]

/-- **The two conversions agree** outside January, and only there. -/
theorem TimeToSec_eq_mktime_iff (t : Moment) (hyear : 1970 ≤ t.year) (hfits : t.year < 65536) :
    TimeToSec (.of t) = (DateTime.of t).mktime ↔ t.month ≠ 1 := by
  have hmarch := marchSeconds_eq t hyear
  rw [TimeToSec_of hyear hfits, DateTime.mktime_of hyear hfits, ← ofInt_natCast]
  by_cases hjan : t.month = 1
  · -- in January the days are off by some 21 years and not by a multiple of 2^32 seconds
    refine iff_of_false ?_ (not_not.mpr hjan)
    have hoff : ∀ y d h m s : Nat, 1 ≤ y →
        marchSeconds y 255 d h m s - marchSeconds (y - 1) 11 d h m s = 676252800 ∨
          marchSeconds y 255 d h m s - marchSeconds (y - 1) 11 d h m s = 676339200 := by
      intro y d h m s hy
      unfold marchSeconds
      omega
    have hdiffer := hoff t.year t.day t.hour t.minute t.second (by omega)
    rw [if_pos hjan, hmarch, if_pos (by omega), ofInt_inj, hjan]
    generalize marchSeconds t.year 255 t.day t.hour t.minute t.second = a at hdiffer ⊢
    generalize marchSeconds (t.year - 1) 11 t.day t.hour t.minute t.second = b at hdiffer ⊢
    omega
  · rw [if_neg hjan]
    exact iff_of_true rfl hjan

/-- The eighth of August 2018, at noon. -/
def summerNoon : Moment :=
  ⟨2018, 8, 8, 12, 0, 0, by decide, by decide, by decide, by decide, by decide⟩

theorem TimeToSec_eq_mktime_summer : TimeToSec (.of summerNoon) = (DateTime.of summerNoon).mktime :=
  (TimeToSec_eq_mktime_iff summerNoon (by decide) (by decide)).mpr (by decide)

/-- The first second of 1970. -/
def firstMoment : Moment :=
  ⟨1970, 1, 1, 0, 0, 0, by decide, by decide, by decide, by decide, by decide⟩

/-- The first second of 1970 becomes the one of 7827 days later. -/
theorem TimeToSec_january : ¬ ∀ t : Moment, 1970 ≤ t.year → t ≤ lastMoment →
    TimeToSec (.of t) = (DateTime.of t).mktime := by
  intro h
  exact absurd (h firstMoment (by decide) (by decide)) (by decide +kernel)

end Ptpd
