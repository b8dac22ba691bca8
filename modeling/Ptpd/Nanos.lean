import Ptpd.Arith
import Mathlib.Tactic.Linarith

/-! # Times as numbers of nanoseconds

    The meaning of the arithmetic of `arith.c`: a `TimeInternal` stands for its
    number of nanoseconds, normalization gives the one canonical pair for it,
    and sums, differences and halves are those of the numbers, as long as no
    step of the computation leaves the 32-bit range.
-/

namespace Ptpd

open MachineInt

/-- The number of nanoseconds. -/
def TimeInternal.nanos (t : TimeInternal) : Int := t.seconds * 1000000000 + t.nanoseconds

/-- A normalized time: less than a second of nanoseconds, both parts of one sign. -/
structure TimeInternal.Canonical (t : TimeInternal) : Prop where
  least : -1000000000 < t.nanoseconds
  greatest : t.nanoseconds < 1000000000
  positive : 0 < t.seconds → 0 ≤ t.nanoseconds
  negative : t.seconds < 0 → t.nanoseconds ≤ 0

instance : DecidablePred TimeInternal.Canonical := fun _ =>
  decidable_of_iff (_ ∧ _ ∧ (_ → _) ∧ (_ → _))
    ⟨fun ⟨h₁, h₂, h₃, h₄⟩ => ⟨h₁, h₂, h₃, h₄⟩, fun ⟨h₁, h₂, h₃, h₄⟩ => ⟨h₁, h₂, h₃, h₄⟩⟩

variable {t u : TimeInternal}

/-- There is one canonical pair for each number. -/
theorem TimeInternal.Canonical.eq_of_nanos (ht : t.Canonical) (hu : u.Canonical)
    (h : t.nanos = u.nanos) : t = u := by
  obtain ⟨ht₁, ht₂, ht₃, ht₄⟩ := ht
  obtain ⟨hu₁, hu₂, hu₃, hu₄⟩ := hu
  unfold TimeInternal.nanos at h
  have hsec : t.seconds = u.seconds := by omega
  have hns : t.nanoseconds = u.nanoseconds := by omega
  cases t
  cases u
  simp only at hsec hns
  rw [hsec, hns]

/-- The canonical pair for a number. -/
def TimeInternal.ofNanos (n : Int) : TimeInternal := ⟨n.tdiv 1000000000, n.tmod 1000000000⟩

theorem TimeInternal.ofNanos_nanos (n : Int) : (TimeInternal.ofNanos n).nanos = n := by
  have hsum := Int.mul_tdiv_add_tmod n 1000000000
  unfold TimeInternal.ofNanos TimeInternal.nanos
  dsimp only
  omega

theorem TimeInternal.ofNanos_canonical (n : Int) : (TimeInternal.ofNanos n).Canonical := by
  obtain ⟨hsum, ⟨hlo, hhi⟩, hpos, hneg⟩ := tdiv_split n (d := 1000000000) (by norm_num)
  unfold TimeInternal.ofNanos
  constructor <;> dsimp only <;> omega

/-! ## Normalization -/

/-- The carry of a 32-bit nanosecond count, and what is left. -/
theorem normalizeTime_parts (h : SRange 32 t.nanoseconds) :
    let q := t.nanoseconds.tdiv 1000000000
    let m := t.nanoseconds - q * 1000000000
    (-2 ≤ q ∧ q ≤ 2) ∧ (-1000000000 < m ∧ m < 1000000000) ∧ wrapS 32 m = m := by
  obtain ⟨hsum, hm, hpos, hneg⟩ := tdiv_split t.nanoseconds (d := 1000000000) (by norm_num)
  have hlo : -2147483648 ≤ t.nanoseconds := h.1
  have hhi : t.nanoseconds < 2147483648 := h.2
  have hparts : (-2 ≤ t.nanoseconds.tdiv 1000000000 ∧ t.nanoseconds.tdiv 1000000000 ≤ 2) := by
    omega
  refine ⟨hparts, ⟨by omega, by omega⟩, ?_⟩
  exact wrapS_32 (by omega) (by omega)

/-- A normalized time is canonical, even if its seconds wrapped. -/
theorem normalizeTime_canonical (h : SRange 32 t.nanoseconds) : (normalizeTime t).Canonical := by
  obtain ⟨-, ⟨hlo, hhi⟩, hm⟩ := normalizeTime_parts h
  have hs := wrapS_range (w := 32) (by norm_num) (t.seconds + t.nanoseconds.tdiv 1000000000)
  have hslo : -2147483648 ≤ wrapS 32 (t.seconds + t.nanoseconds.tdiv 1000000000) := hs.1
  have hshi : wrapS 32 (t.seconds + t.nanoseconds.tdiv 1000000000) < 2147483648 := hs.2
  unfold normalizeTime
  rw [hm]
  generalize t.nanoseconds - t.nanoseconds.tdiv 1000000000 * 1000000000 = m at hlo hhi ⊢
  generalize wrapS 32 (t.seconds + t.nanoseconds.tdiv 1000000000) = s at hslo hshi ⊢
  dsimp only
  split
  · rw [wrapS_32 (x := s - 1) (by omega) (by omega), wrapS_32 (x := m + _) (by omega) (by omega)]
    constructor <;> dsimp only <;> omega
  · split
    · rw [wrapS_32 (x := s + 1) (by omega) (by omega), wrapS_32 (x := m - _) (by omega) (by omega)]
      constructor <;> dsimp only <;> omega
    · constructor <;> dsimp only <;> omega

/-- No step of `normalizeTime` leaves the 32-bit range. -/
structure TimeInternal.NormalizesIn32 (t : TimeInternal) : Prop where
  seconds : SRange 32 t.seconds
  nanoseconds : SRange 32 t.nanoseconds
  carried : SRange 32 (t.seconds + t.nanoseconds.tdiv 1000000000)

instance : DecidablePred TimeInternal.NormalizesIn32 := fun _ =>
  decidable_of_iff (_ ∧ _ ∧ _) ⟨fun ⟨h₁, h₂, h₃⟩ => ⟨h₁, h₂, h₃⟩, fun ⟨h₁, h₂, h₃⟩ => ⟨h₁, h₂, h₃⟩⟩

/-- Normalizing does not change the time then. -/
theorem normalizeTime_nanos (h : t.NormalizesIn32) : (normalizeTime t).nanos = t.nanos := by
  obtain ⟨⟨hqlo, hqhi⟩, ⟨hlo, hhi⟩, hm⟩ := normalizeTime_parts h.nanoseconds
  have hs : wrapS 32 (t.seconds + t.nanoseconds.tdiv 1000000000) =
      t.seconds + t.nanoseconds.tdiv 1000000000 := wrapS_of_range (by norm_num) h.carried
  have hclo : -2147483648 ≤ t.seconds + t.nanoseconds.tdiv 1000000000 := h.carried.1
  have hchi : t.seconds + t.nanoseconds.tdiv 1000000000 < 2147483648 := h.carried.2
  unfold normalizeTime TimeInternal.nanos
  rw [hm, hs]
  dsimp only
  split
  · rw [wrapS_32 (by omega) (by omega), wrapS_32 (by omega) (by omega)]
    ring
  · split
    · rw [wrapS_32 (by omega) (by omega), wrapS_32 (by omega) (by omega)]
      ring
    · ring

/-- The seconds are what a 32-bit field can hold. -/
theorem normalizeTime_seconds (t : TimeInternal) : SRange 32 (normalizeTime t).seconds := by
  unfold normalizeTime
  dsimp only
  split
  · exact wrapS_range (by norm_num) _
  · split <;> exact wrapS_range (by norm_num) _

/-! ## Sums and differences -/

theorem addTime_canonical (t u : TimeInternal) : (addTime t u).Canonical :=
  normalizeTime_canonical (wrapS_range (by norm_num) _)

theorem subTime_canonical (t u : TimeInternal) : (subTime t u).Canonical :=
  normalizeTime_canonical (wrapS_range (by norm_num) _)

/-- The sums of the parts, before they are normalized. -/
def TimeInternal.plus (t u : TimeInternal) : TimeInternal :=
  ⟨t.seconds + u.seconds, t.nanoseconds + u.nanoseconds⟩

def TimeInternal.minus (t u : TimeInternal) : TimeInternal :=
  ⟨t.seconds - u.seconds, t.nanoseconds - u.nanoseconds⟩

theorem TimeInternal.plus_nanos (t u : TimeInternal) : (t.plus u).nanos = t.nanos + u.nanos := by
  unfold TimeInternal.plus TimeInternal.nanos
  ring

theorem TimeInternal.minus_nanos (t u : TimeInternal) :
    (t.minus u).nanos = t.nanos - u.nanos := by
  unfold TimeInternal.minus TimeInternal.nanos
  ring

theorem addTime_eq (h : (t.plus u).NormalizesIn32) : addTime t u = normalizeTime (t.plus u) := by
  have hsec : wrapS 32 (t.seconds + u.seconds) = t.seconds + u.seconds :=
    wrapS_of_range (by norm_num) h.seconds
  have hnano : wrapS 32 (t.nanoseconds + u.nanoseconds) = t.nanoseconds + u.nanoseconds :=
    wrapS_of_range (by norm_num) h.nanoseconds
  unfold addTime
  rw [hsec, hnano]
  rfl

theorem subTime_eq (h : (t.minus u).NormalizesIn32) : subTime t u = normalizeTime (t.minus u) := by
  have hsec : wrapS 32 (t.seconds - u.seconds) = t.seconds - u.seconds :=
    wrapS_of_range (by norm_num) h.seconds
  have hnano : wrapS 32 (t.nanoseconds - u.nanoseconds) = t.nanoseconds - u.nanoseconds :=
    wrapS_of_range (by norm_num) h.nanoseconds
  unfold subTime
  rw [hsec, hnano]
  rfl

/-! ## Halves -/

/-- Less than a second carries nothing over. -/
theorem tdiv_second_eq_zero {k : Int} (hlo : -1000000000 < k) (hhi : k < 1000000000) :
    k.tdiv 1000000000 = 0 := by
  obtain ⟨hsum, ⟨hrlo, hrhi⟩, hpos, hneg⟩ := tdiv_split k (d := 1000000000) (by norm_num)
  rcases le_total 0 k with hk | hk
  · have := hpos hk
    omega
  · have := hneg hk
    omega

/-- Half of a canonical time: the seconds are halved toward zero, and an odd
    second is carried into the nanoseconds. -/
theorem div2Time_eq (h : t.Canonical) (hsec : SRange 32 t.seconds) :
    div2Time t =
      { seconds := t.seconds.tdiv 2
        nanoseconds := (t.nanoseconds + t.seconds.tmod 2 * 1000000000).tdiv 2 } := by
  obtain ⟨hlo, hhi, hpos, hneg⟩ := h
  obtain ⟨hsum, ⟨hrlo, hrhi⟩, hspos, hsneg⟩ := tdiv_split t.seconds (d := 2) (by norm_num)
  have hslo : -2147483648 ≤ t.seconds := hsec.1
  have hshi : t.seconds < 2147483648 := hsec.2
  have hns : wrapS 32 (t.nanoseconds + t.seconds.tmod 2 * 1000000000) =
      t.nanoseconds + t.seconds.tmod 2 * 1000000000 := wrapS_32 (by omega) (by omega)
  obtain ⟨hnsum, ⟨hnlo, hnhi⟩, hnpos, hnneg⟩ :=
    tdiv_split (t.nanoseconds + t.seconds.tmod 2 * 1000000000) (d := 2) (by norm_num)
  unfold div2Time
  rw [hns]
  dsimp only
  generalize (t.nanoseconds + t.seconds.tmod 2 * 1000000000).tdiv 2 = k at *
  generalize t.seconds.tdiv 2 = q at *
  -- less than a second is left over, of the sign of the seconds
  have hk : -1000000000 < k ∧ k < 1000000000 := by omega
  have hcarry := tdiv_second_eq_zero hk.1 hk.2
  unfold normalizeTime
  simp only [hcarry, zero_mul, sub_zero, add_zero]
  rw [wrapS_32 (x := k) (by omega) (by omega), wrapS_32 (x := q) (by omega) (by omega)]
  rw [if_neg (by omega), if_neg (by omega)]

theorem div2Time_canonical (t : TimeInternal) : (div2Time t).Canonical := by
  unfold div2Time
  apply normalizeTime_canonical
  have hns := wrapS_range (w := 32) (by norm_num) (t.nanoseconds + t.seconds.tmod 2 * 1000000000)
  have hlo : -2147483648 ≤ wrapS 32 (t.nanoseconds + t.seconds.tmod 2 * 1000000000) := hns.1
  have hhi : wrapS 32 (t.nanoseconds + t.seconds.tmod 2 * 1000000000) < 2147483648 := hns.2
  generalize wrapS 32 (t.nanoseconds + t.seconds.tmod 2 * 1000000000) = n at hlo hhi
  obtain ⟨hsum, hrem, hpos, hneg⟩ := tdiv_split n (d := 2) (by norm_num)
  constructor <;> norm_num <;> omega

/-- Its number of nanoseconds is halved toward zero. -/
theorem div2Time_nanos (h : t.Canonical) (hsec : SRange 32 t.seconds) :
    (div2Time t).nanos = t.nanos.tdiv 2 := by
  rw [div2Time_eq h hsec]
  unfold TimeInternal.nanos
  dsimp only
  obtain ⟨hlo, hhi, hpos, hneg⟩ := h
  obtain ⟨hssum, hsrem, hspos, hsneg⟩ := tdiv_split t.seconds (d := 2) (by norm_num)
  obtain ⟨hnsum, hnrem, hnpos, hnneg⟩ :=
    tdiv_split (t.nanoseconds + t.seconds.tmod 2 * 1000000000) (d := 2) (by norm_num)
  obtain ⟨htsum, htrem, htpos, htneg⟩ :=
    tdiv_split (t.seconds * 1000000000 + t.nanoseconds) (d := 2) (by norm_num)
  -- all three quotients have the sign of the seconds
  rcases lt_trichotomy t.seconds 0 with hs | hs | hs
  · have := hneg hs
    omega
  · rcases le_total 0 t.nanoseconds with hn | hn <;> omega
  · have := hpos hs
    omega

end Ptpd
