import Ptpd.Nanos

/-! # Sums of times

    The expressions that the servo evaluates with `addTime` and `subTime`. One
    of them fits if no step of its evaluation leaves the 32-bit range. Its value
    is then that of the same expression over whole numbers of nanoseconds, so
    that the times in it alone tell whether it fits.
-/

namespace Ptpd

open MachineInt

/-- Normalizing gives the canonical pair, if the carry fits. -/
theorem normalizeTime_eq_ofNanos {t : TimeInternal} (h : t.NormalizesIn32) :
    normalizeTime t = .ofNanos t.nanos := by
  refine (normalizeTime_canonical h.nanoseconds).eq_of_nanos (TimeInternal.ofNanos_canonical _) ?_
  rw [normalizeTime_nanos h, TimeInternal.ofNanos_nanos]

/-- A canonical time is the pair for its number. -/
theorem TimeInternal.Canonical.eq_ofNanos {t : TimeInternal} (h : t.Canonical) :
    t = .ofNanos t.nanos :=
  h.eq_of_nanos (ofNanos_canonical _) (ofNanos_nanos _).symm

/-- Sums are exact while the numbers stay clear of the ends of the 32-bit seconds. -/
theorem addTime_ofNanos {a b : Int} (h : a.natAbs + b.natAbs < 2147483640000000000) :
    addTime (.ofNanos a) (.ofNanos b) = .ofNanos (a + b) := by
  obtain ⟨hasum, ⟨halo, hahi⟩, -⟩ := tdiv_split a (d := 1000000000) (by norm_num)
  obtain ⟨hbsum, ⟨hblo, hbhi⟩, -⟩ := tdiv_split b (d := 1000000000) (by norm_num)
  have hfits : ((TimeInternal.ofNanos a).plus (.ofNanos b)).NormalizesIn32 := by
    unfold TimeInternal.plus TimeInternal.ofNanos
    obtain ⟨hcsum, ⟨hclo, hchi⟩, -⟩ :=
      tdiv_split (a.tmod 1000000000 + b.tmod 1000000000) (d := 1000000000) (by norm_num)
    constructor
    all_goals
      dsimp only
      exact ⟨by norm_num; omega, by norm_num; omega⟩
  rw [addTime_eq hfits, normalizeTime_eq_ofNanos hfits, TimeInternal.plus_nanos,
    TimeInternal.ofNanos_nanos, TimeInternal.ofNanos_nanos]

theorem subTime_ofNanos {a b : Int} (h : a.natAbs + b.natAbs < 2147483640000000000) :
    subTime (.ofNanos a) (.ofNanos b) = .ofNanos (a - b) := by
  obtain ⟨hasum, ⟨halo, hahi⟩, -⟩ := tdiv_split a (d := 1000000000) (by norm_num)
  obtain ⟨hbsum, ⟨hblo, hbhi⟩, -⟩ := tdiv_split b (d := 1000000000) (by norm_num)
  have hfits : ((TimeInternal.ofNanos a).minus (.ofNanos b)).NormalizesIn32 := by
    unfold TimeInternal.minus TimeInternal.ofNanos
    obtain ⟨hcsum, ⟨hclo, hchi⟩, -⟩ :=
      tdiv_split (a.tmod 1000000000 - b.tmod 1000000000) (d := 1000000000) (by norm_num)
    constructor
    all_goals
      dsimp only
      exact ⟨by norm_num; omega, by norm_num; omega⟩
  rw [subTime_eq hfits, normalizeTime_eq_ofNanos hfits, TimeInternal.minus_nanos,
    TimeInternal.ofNanos_nanos, TimeInternal.ofNanos_nanos]

theorem div2Time_ofNanos {a : Int} (h : a.natAbs < 2147483640000000000) :
    div2Time (.ofNanos a) = .ofNanos (a.tdiv 2) := by
  have hsec : SRange 32 (TimeInternal.ofNanos a).seconds := by
    obtain ⟨hasum, ⟨halo, hahi⟩, -⟩ := tdiv_split a (d := 1000000000) (by norm_num)
    unfold TimeInternal.ofNanos
    exact ⟨by norm_num; omega, by norm_num; omega⟩
  have hcanonical := TimeInternal.ofNanos_canonical a
  refine (div2Time_canonical _).eq_of_nanos (TimeInternal.ofNanos_canonical _) ?_
  rw [div2Time_nanos hcanonical hsec, TimeInternal.ofNanos_nanos, TimeInternal.ofNanos_nanos]

inductive TimeSum where
  | time (t : TimeInternal)
  | add (a b : TimeSum)
  | sub (a b : TimeSum)

namespace TimeSum

/-- The value that the code computes. -/
def eval : TimeSum → TimeInternal
  | time t => t
  | add a b => addTime a.eval b.eval
  | sub a b => subTime a.eval b.eval

/-- No step of the code's computation leaves the 32-bit range. -/
def Fits : TimeSum → Prop
  | time _ => True
  | add a b => a.Fits ∧ b.Fits ∧ (a.eval.plus b.eval).NormalizesIn32
  | sub a b => a.Fits ∧ b.Fits ∧ (a.eval.minus b.eval).NormalizesIn32

/-- The value in whole numbers of nanoseconds. A time in the sum is left as it is. -/
def exact : TimeSum → TimeInternal
  | time t => t
  | add a b => .ofNanos (a.exact.nanos + b.exact.nanos)
  | sub a b => .ofNanos (a.exact.nanos - b.exact.nanos)

/-- The exact values of all parts are far enough from the ends of the 32-bit range. -/
def Within : TimeSum → Prop
  | time _ => True
  | add a b => a.Within ∧ b.Within ∧ (a.exact.plus b.exact).NormalizesIn32
  | sub a b => a.Within ∧ b.Within ∧ (a.exact.minus b.exact).NormalizesIn32

instance decidableFits : (e : TimeSum) → Decidable e.Fits
  | time _ => isTrue trivial
  | add a b =>
    have := decidableFits a
    have := decidableFits b
    inferInstanceAs (Decidable (_ ∧ _ ∧ _))
  | sub a b =>
    have := decidableFits a
    have := decidableFits b
    inferInstanceAs (Decidable (_ ∧ _ ∧ _))

instance decidableWithin : (e : TimeSum) → Decidable e.Within
  | time _ => isTrue trivial
  | add a b =>
    have := decidableWithin a
    have := decidableWithin b
    inferInstanceAs (Decidable (_ ∧ _ ∧ _))
  | sub a b =>
    have := decidableWithin a
    have := decidableWithin b
    inferInstanceAs (Decidable (_ ∧ _ ∧ _))

/-- The code computes the exact value of a sum that stays within the range. -/
theorem eval_eq_exact {e : TimeSum} (h : e.Within) : e.eval = e.exact := by
  induction e with
  | time t => rfl
  | add a b iha ihb =>
    obtain ⟨ha, hb, hsum⟩ := h
    rw [eval, exact, iha ha, ihb hb, addTime_eq hsum, normalizeTime_eq_ofNanos hsum,
      TimeInternal.plus_nanos]
  | sub a b iha ihb =>
    obtain ⟨ha, hb, hdiff⟩ := h
    rw [eval, exact, iha ha, ihb hb, subTime_eq hdiff, normalizeTime_eq_ofNanos hdiff,
      TimeInternal.minus_nanos]

/-- The exact values tell whether the code's computation fits. -/
theorem fits_iff_within (e : TimeSum) : e.Fits ↔ e.Within := by
  induction e with
  | time t => exact Iff.rfl
  | add a b iha ihb =>
    have hparts : a.Within → b.Within → a.eval.plus b.eval = a.exact.plus b.exact :=
      fun ha hb => by rw [eval_eq_exact ha, eval_eq_exact hb]
    constructor
    · rintro ⟨ha, hb, hsum⟩
      exact ⟨iha.mp ha, ihb.mp hb, hparts (iha.mp ha) (ihb.mp hb) ▸ hsum⟩
    · rintro ⟨ha, hb, hsum⟩
      exact ⟨iha.mpr ha, ihb.mpr hb, (hparts ha hb).symm ▸ hsum⟩
  | sub a b iha ihb =>
    have hparts : a.Within → b.Within → a.eval.minus b.eval = a.exact.minus b.exact :=
      fun ha hb => by rw [eval_eq_exact ha, eval_eq_exact hb]
    constructor
    · rintro ⟨ha, hb, hdiff⟩
      exact ⟨iha.mp ha, ihb.mp hb, hparts (iha.mp ha) (ihb.mp hb) ▸ hdiff⟩
    · rintro ⟨ha, hb, hdiff⟩
      exact ⟨iha.mpr ha, ihb.mpr hb, (hparts ha hb).symm ▸ hdiff⟩

end TimeSum

end Ptpd
