import Ptpd.Nanos
import Ptpd.Run

/-! # Adjustment to another time source (`task.c`)

    A master that is itself disciplined by another source captures its own time
    and that of the source at the same moment, and steers by the difference. The
    label of the captured second may be the neighbouring one; the difference is
    then close to a whole second and is folded.
-/

namespace Ptpd

open MachineInt

/-! ## The callback -/

inductive PtpMode where
  | emPTPSlave
  | emPTPMaster
  | emNTPSlave
  | emNTPMaster
deriving DecidableEq

/-- `g_OFFSET`, as `ADJ_CallBack` leaves it. The fold is the same for both signs. -/
def adjOffset (g_PTPTIME g_SYSTIME : TimeInternal) : TimeInternal :=
  let g_OFFSET := subTime g_PTPTIME g_SYSTIME
  let g_OFFSET :=
    if |g_OFFSET.nanoseconds| > 900000000 ∧ g_OFFSET.seconds = 0 then
      { g_OFFSET with nanoseconds := wrapS 32 (g_OFFSET.nanoseconds - 1000000000) }
    else g_OFFSET
  subTime g_OFFSET ⟨0, 640⟩

def ADJ_CallBack (PTP_MODE : PtpMode) (g_PTPTIME g_SYSTIME : TimeInternal) (w : World) : World :=
  if w.portDS.portState = .PTP_MASTER ∧ PTP_MODE = .emPTPMaster ∨ PTP_MODE = .emNTPMaster then
    updateClock { w with currentDS.offsetFromMaster := adjOffset g_PTPTIME g_SYSTIME }
  else w

/-- The callback adjusts the clock as another time source does, or does nothing. -/
theorem Reachable.ADJ_CallBack {w : World} (hw : Reachable w) (PTP_MODE : PtpMode)
    (g_PTPTIME g_SYSTIME : TimeInternal) :
    Reachable (ADJ_CallBack PTP_MODE g_PTPTIME g_SYSTIME w) := by
  unfold Ptpd.ADJ_CallBack
  split
  · exact hw.step (.adjust (adjOffset g_PTPTIME g_SYSTIME)) trivial
  · exact hw

/-! ## Folding -/

/-- What is left of a number of nanoseconds after the nearest whole second. -/
def toNearestSecond (n : Int) : Int := (n + 500000000) % 1000000000 - 500000000

theorem subTime_nanos {t u : TimeInternal} (h : (t.minus u).NormalizesIn32) :
    (subTime t u).nanos = t.nanos - u.nanos := by
  rw [subTime_eq h, normalizeTime_nanos h, TimeInternal.minus_nanos]

/-- Differences of less than 2^31 ns are computed exactly. -/
theorem minus_normalizesIn32 {t u : TimeInternal}
    (hlo : -2147483648 ≤ t.nanoseconds - u.nanoseconds)
    (hhi : t.nanoseconds - u.nanoseconds < 2147483648)
    (hseclo : -2147483646 ≤ t.seconds - u.seconds)
    (hsechi : t.seconds - u.seconds < 2147483646) : (t.minus u).NormalizesIn32 := by
  have hsec : (t.minus u).seconds = t.seconds - u.seconds := rfl
  have hnano : (t.minus u).nanoseconds = t.nanoseconds - u.nanoseconds := rfl
  obtain ⟨hsum, hrem, hpos, hneg⟩ :=
    tdiv_split (t.minus u).nanoseconds (d := 1000000000) (by norm_num)
  refine ⟨⟨?_, ?_⟩, ⟨?_, ?_⟩, ⟨?_, ?_⟩⟩ <;> norm_num <;> omega

/-- A difference of less than a second has no seconds. -/
theorem subTime_of_lt {t u : TimeInternal} (ht : t.Canonical) (hu : u.Canonical)
    (h : |t.nanos - u.nanos| < 1000000000) : subTime t u = ⟨0, t.nanos - u.nanos⟩ := by
  obtain ⟨htlo, hthi, -, -⟩ := ht
  obtain ⟨hulo, huhi, -, -⟩ := hu
  obtain ⟨hlo, hhi⟩ := abs_lt.mp h
  have hnormal : (t.minus u).NormalizesIn32 := by
    unfold TimeInternal.nanos at hlo hhi
    apply minus_normalizesIn32 <;> omega
  have hcanonical : (⟨0, t.nanos - u.nanos⟩ : TimeInternal).Canonical :=
    ⟨hlo, hhi, by simp, by simp⟩
  apply (subTime_canonical t u).eq_of_nanos hcanonical
  rw [subTime_nanos hnormal]
  unfold TimeInternal.nanos
  ring

/-- The offset handed on is the difference folded to the nearest second, less
    640 ns. -/
structure FoldedOffset (d : Int) (offset : TimeInternal) : Prop where
  folded : offset.nanos = toNearestSecond d - 640
  seconds : offset.seconds = 0
  near : |offset.nanoseconds| ≤ 100000000 + 640

/-- A difference of almost a second is folded exactly if it is positive. -/
theorem adjOffset_folded_iff {g_PTPTIME g_SYSTIME : TimeInternal} (hptp : g_PTPTIME.Canonical)
    (hsys : g_SYSTIME.Canonical) (hlarge : 900000000 < |g_PTPTIME.nanos - g_SYSTIME.nanos|)
    (hsecond : |g_PTPTIME.nanos - g_SYSTIME.nanos| < 1000000000) :
    FoldedOffset (g_PTPTIME.nanos - g_SYSTIME.nanos) (adjOffset g_PTPTIME g_SYSTIME) ↔
      0 < g_PTPTIME.nanos - g_SYSTIME.nanos := by
  have hdiff := subTime_of_lt hptp hsys hsecond
  unfold adjOffset
  rw [hdiff]
  generalize g_PTPTIME.nanos - g_SYSTIME.nanos = d at *
  obtain ⟨hlo, hhi⟩ := abs_lt.mp hsecond
  dsimp only
  rw [if_pos ⟨hlarge, rfl⟩, wrapS_32 (by omega) (by omega)]
  have hconst : (⟨0, 640⟩ : TimeInternal).Canonical := by constructor <;> norm_num
  rcases lt_abs.mp hlarge with hpos | hneg
  · -- the folded difference is a small negative one
    have hlast : subTime ⟨0, d - 1000000000⟩ ⟨0, 640⟩ = ⟨0, d - 1000000000 - 640⟩ := by
      have hcanonical : (⟨0, d - 1000000000⟩ : TimeInternal).Canonical :=
        ⟨by dsimp only; omega, by dsimp only; omega, by simp, by simp⟩
      have hnanos : (⟨0, d - 1000000000⟩ : TimeInternal).nanos -
          (⟨0, 640⟩ : TimeInternal).nanos = d - 1000000000 - 640 := by
        unfold TimeInternal.nanos
        ring
      rw [subTime_of_lt hcanonical hconst, hnanos]
      rw [hnanos, abs_lt]
      omega
    rw [hlast]
    refine iff_of_true ⟨?_, rfl, ?_⟩ (by omega)
    · unfold TimeInternal.nanos toNearestSecond
      dsimp only
      omega
    · rw [abs_le]
      dsimp only
      omega
  · -- a negative one is almost two seconds away after the fold
    refine iff_of_false ?_ (by omega)
    rintro ⟨-, hseconds, hnear⟩
    have hnanos : (subTime ⟨0, d - 1000000000⟩ ⟨0, 640⟩).nanos = d - 1000000000 - 640 := by
      rw [subTime_nanos (minus_normalizesIn32 (by dsimp only; omega) (by dsimp only; omega)
        (by norm_num) (by norm_num))]
      unfold TimeInternal.nanos
      ring
    have hbound := abs_le.mp hnear
    unfold TimeInternal.nanos at hnanos
    rw [hseconds] at hnanos
    omega

/-- The clock is 50 ms behind a second that still has the label of the one before. -/
theorem adjOffset_folded_ahead :
    FoldedOffset ((⟨10, 950000000⟩ : TimeInternal).nanos - (⟨10, 0⟩ : TimeInternal).nanos)
        (adjOffset ⟨10, 950000000⟩ ⟨10, 0⟩) ↔
      0 < (⟨10, 950000000⟩ : TimeInternal).nanos - (⟨10, 0⟩ : TimeInternal).nanos :=
  adjOffset_folded_iff ⟨by decide, by decide, by decide, by decide⟩
    ⟨by decide, by decide, by decide, by decide⟩ (by decide) (by decide)

/-- The clock is 50 ms ahead of a second that already has the label of the one
    after: the difference of -950 ms becomes one of -1.95 s. -/
theorem adjOffset_steps_back :
    ¬ ∀ g_PTPTIME g_SYSTIME : TimeInternal, g_PTPTIME.Canonical → g_SYSTIME.Canonical →
      900000000 < |g_PTPTIME.nanos - g_SYSTIME.nanos| →
      |g_PTPTIME.nanos - g_SYSTIME.nanos| < 1000000000 →
        FoldedOffset (g_PTPTIME.nanos - g_SYSTIME.nanos) (adjOffset g_PTPTIME g_SYSTIME) := by
  intro h
  have hfold := h ⟨10, 50000000⟩ ⟨11, 0⟩ ⟨by decide, by decide, by decide, by decide⟩
    ⟨by decide, by decide, by decide, by decide⟩ (by decide) (by decide)
  exact absurd hfold.seconds (by decide)

end Ptpd
