import Ptpd.Sums
import Ptpd.Lib.CheckedInt

/-! # Time arithmetic in place

    The functions of `arith.c` store their result through a pointer, one field
    after the other, and the servo passes them operands that the result
    overwrites. Here they run on cells of memory, each operation checked against
    the 32-bit range: they end without overflow, and with the result that
    `Ptpd.Arith` gives for the values of the operands before the call.
-/

namespace Ptpd

open MachineInt

section Cells

variable {Pointer : Type} [DecidableEq Pointer]

/-- `r->seconds = value`. -/
def storeSeconds (r : Pointer) (value : Int) (cells : Pointer → TimeInternal) :
    Option (Pointer → TimeInternal) := do
  let value ← checkS 32 value
  return Function.update cells r { cells r with seconds := value }

/-- `r->nanoseconds = value`. -/
def storeNanoseconds (r : Pointer) (value : Int) (cells : Pointer → TimeInternal) :
    Option (Pointer → TimeInternal) := do
  let value ← checkS 32 value
  return Function.update cells r { cells r with nanoseconds := value }

def normalizeTimeAt (r : Pointer) (cells : Pointer → TimeInternal) :
    Option (Pointer → TimeInternal) := do
  let cells ← storeSeconds r ((cells r).seconds + (cells r).nanoseconds.tdiv 1000000000) cells
  let carried ← checkS 32 ((cells r).nanoseconds.tdiv 1000000000 * 1000000000)
  let cells ← storeNanoseconds r ((cells r).nanoseconds - carried) cells
  if (cells r).seconds > 0 ∧ (cells r).nanoseconds < 0 then
    let cells ← storeSeconds r ((cells r).seconds - 1) cells
    storeNanoseconds r ((cells r).nanoseconds + 1000000000) cells
  else if (cells r).seconds < 0 ∧ (cells r).nanoseconds > 0 then
    let cells ← storeSeconds r ((cells r).seconds + 1) cells
    storeNanoseconds r ((cells r).nanoseconds - 1000000000) cells
  else
    return cells

def addTimeAt (r x y : Pointer) (cells : Pointer → TimeInternal) :
    Option (Pointer → TimeInternal) := do
  let cells ← storeSeconds r ((cells x).seconds + (cells y).seconds) cells
  let cells ← storeNanoseconds r ((cells x).nanoseconds + (cells y).nanoseconds) cells
  normalizeTimeAt r cells

def subTimeAt (r x y : Pointer) (cells : Pointer → TimeInternal) :
    Option (Pointer → TimeInternal) := do
  let cells ← storeSeconds r ((cells x).seconds - (cells y).seconds) cells
  let cells ← storeNanoseconds r ((cells x).nanoseconds - (cells y).nanoseconds) cells
  normalizeTimeAt r cells

def div2TimeAt (r : Pointer) (cells : Pointer → TimeInternal) :
    Option (Pointer → TimeInternal) := do
  let odd ← checkS 32 ((cells r).seconds.tmod 2 * 1000000000)
  let cells ← storeNanoseconds r ((cells r).nanoseconds + odd) cells
  let cells ← storeSeconds r ((cells r).seconds.tdiv 2) cells
  let cells ← storeNanoseconds r ((cells r).nanoseconds.tdiv 2) cells
  normalizeTimeAt r cells

/-! ## Stores -/

variable {cells : Pointer → TimeInternal} {r x y : Pointer} {value : Int} {t : TimeInternal}

/-- A store to a cell that was written before leaves one write. -/
theorem storeSeconds_update (hlo : -2147483648 ≤ value) (hhi : value < 2147483648) :
    storeSeconds r value (Function.update cells r t) =
      some (Function.update cells r ⟨value, t.nanoseconds⟩) := by
  unfold storeSeconds
  rw [checkS_32 hlo hhi]
  simp

theorem storeNanoseconds_update (hlo : -2147483648 ≤ value) (hhi : value < 2147483648) :
    storeNanoseconds r value (Function.update cells r t) =
      some (Function.update cells r ⟨t.seconds, value⟩) := by
  unfold storeNanoseconds
  rw [checkS_32 hlo hhi]
  simp

/-- The nanoseconds of an operand outlast the store of the result's seconds. -/
theorem update_seconds_nanoseconds (cells : Pointer → TimeInternal) (r x : Pointer) (value : Int) :
    (Function.update cells r { cells r with seconds := value } x).nanoseconds =
      (cells x).nanoseconds := by
  by_cases h : x = r
  · rw [h, Function.update_self]
  · rw [Function.update_of_ne h]

/-! ## Normalization -/

theorem normalizeTimeAt_update (h : t.NormalizesIn32) :
    normalizeTimeAt r (Function.update cells r t) =
      some (Function.update cells r (normalizeTime t)) := by
  obtain ⟨⟨hqlo, hqhi⟩, ⟨hlo, hhi⟩, hm⟩ := normalizeTime_parts h.nanoseconds
  have hclo : -2147483648 ≤ t.seconds + t.nanoseconds.tdiv 1000000000 := h.carried.1
  have hchi : t.seconds + t.nanoseconds.tdiv 1000000000 < 2147483648 := h.carried.2
  have hs : wrapS 32 (t.seconds + t.nanoseconds.tdiv 1000000000) =
      t.seconds + t.nanoseconds.tdiv 1000000000 := wrapS_32 hclo hchi
  unfold normalizeTimeAt normalizeTime
  rw [hm, hs]
  simp only [Function.update_self, Option.bind_eq_bind, Option.pure_def]
  rw [storeSeconds_update hclo hchi]
  simp only [Function.update_self, Option.bind_some]
  rw [checkS_32 (by omega) (by omega)]
  simp only [Option.bind_some]
  rw [storeNanoseconds_update (by omega) (by omega)]
  simp only [Function.update_self, Option.bind_some]
  generalize t.nanoseconds - t.nanoseconds.tdiv 1000000000 * 1000000000 = m at hlo hhi ⊢
  generalize t.seconds + t.nanoseconds.tdiv 1000000000 = s at hclo hchi ⊢
  -- one case for each of the two corrections, and one without
  split
  · rw [storeSeconds_update (by omega) (by omega)]
    simp only [Function.update_self, Option.bind_some]
    rw [storeNanoseconds_update (by omega) (by omega), wrapS_32 (by omega) (by omega),
      wrapS_32 (by omega) (by omega)]
  · split
    · rw [storeSeconds_update (by omega) (by omega)]
      simp only [Function.update_self, Option.bind_some]
      rw [storeNanoseconds_update (by omega) (by omega), wrapS_32 (by omega) (by omega),
        wrapS_32 (by omega) (by omega)]
    · rfl

/-! ## Sums and differences -/

theorem addTimeAt_eq (h : ((cells x).plus (cells y)).NormalizesIn32) :
    addTimeAt r x y cells = some (Function.update cells r (addTime (cells x) (cells y))) := by
  have hseconds : SRange 32 ((cells x).seconds + (cells y).seconds) := h.seconds
  have hnanoseconds : SRange 32 ((cells x).nanoseconds + (cells y).nanoseconds) := h.nanoseconds
  rw [addTime_eq h, ← normalizeTimeAt_update h]
  unfold addTimeAt storeSeconds
  rw [checkS_of_range hseconds]
  simp only [Option.bind_eq_bind, Option.pure_def, Option.bind_some]
  rw [update_seconds_nanoseconds, update_seconds_nanoseconds,
    storeNanoseconds_update hnanoseconds.1 hnanoseconds.2]
  rfl

theorem subTimeAt_eq (h : ((cells x).minus (cells y)).NormalizesIn32) :
    subTimeAt r x y cells = some (Function.update cells r (subTime (cells x) (cells y))) := by
  have hseconds : SRange 32 ((cells x).seconds - (cells y).seconds) := h.seconds
  have hnanoseconds : SRange 32 ((cells x).nanoseconds - (cells y).nanoseconds) := h.nanoseconds
  rw [subTime_eq h, ← normalizeTimeAt_update h]
  unfold subTimeAt storeSeconds
  rw [checkS_of_range hseconds]
  simp only [Option.bind_eq_bind, Option.pure_def, Option.bind_some]
  rw [update_seconds_nanoseconds, update_seconds_nanoseconds,
    storeNanoseconds_update hnanoseconds.1 hnanoseconds.2]
  rfl

/-! ## Halves -/

theorem div2TimeAt_eq (h : (cells r).Canonical) (hsec : SRange 32 (cells r).seconds) :
    div2TimeAt r cells = some (Function.update cells r (div2Time (cells r))) := by
  obtain ⟨hlo, hhi, hpos, hneg⟩ := h
  have hslo : -2147483648 ≤ (cells r).seconds := hsec.1
  have hshi : (cells r).seconds < 2147483648 := hsec.2
  obtain ⟨hsum, ⟨hrlo, hrhi⟩, hspos, hsneg⟩ := tdiv_split (cells r).seconds (d := 2) (by norm_num)
  obtain ⟨hnsum, ⟨hnlo, hnhi⟩, hnpos, hnneg⟩ :=
    tdiv_split ((cells r).nanoseconds + (cells r).seconds.tmod 2 * 1000000000) (d := 2) (by norm_num)
  have hhalf : TimeInternal.NormalizesIn32 ⟨(cells r).seconds.tdiv 2,
      ((cells r).nanoseconds + (cells r).seconds.tmod 2 * 1000000000).tdiv 2⟩ := by
    -- less than a second is left over, so that nothing is carried
    have hcarry := tdiv_second_eq_zero
      (k := ((cells r).nanoseconds + (cells r).seconds.tmod 2 * 1000000000).tdiv 2)
      (by omega) (by omega)
    constructor
    all_goals
      dsimp only
      exact ⟨by norm_num; omega, by norm_num; omega⟩
  unfold div2TimeAt div2Time
  rw [wrapS_32 (by omega) (by omega), ← normalizeTimeAt_update hhalf]
  rw [checkS_32 (by omega) (by omega)]
  simp only [Option.bind_eq_bind, Option.bind_some]
  have hfirst : storeNanoseconds r ((cells r).nanoseconds + (cells r).seconds.tmod 2 * 1000000000)
      cells = some (Function.update cells r
        ⟨(cells r).seconds, (cells r).nanoseconds + (cells r).seconds.tmod 2 * 1000000000⟩) := by
    unfold storeNanoseconds
    rw [checkS_32 (by omega) (by omega)]
    rfl
  rw [hfirst]
  simp only [Function.update_self, Option.bind_some]
  rw [storeSeconds_update (by omega) (by omega)]
  simp only [Function.update_self, Option.bind_some]
  rw [storeNanoseconds_update (by omega) (by omega)]
  rfl

/-! ## Exactness -/

/-- The call ends without overflow, and leaves in `r` the canonical time of `nanos` nanoseconds
    and every other cell as it was. -/
def StoresExactly (r : Pointer) (nanos : Int) (cells : Pointer → TimeInternal)
    (cells' : Option (Pointer → TimeInternal)) : Prop :=
  ∃ t : TimeInternal, cells' = some (Function.update cells r t) ∧ t.Canonical ∧ t.nanos = nanos

/-- The parts of two such times have a sum that normalizes. -/
theorem TimeInternal.Canonical.plus_normalizes {t u : TimeInternal} (ht : t.Canonical)
    (hu : u.Canonical) (hts : |t.seconds| < 2 ^ 30) (hus : |u.seconds| < 2 ^ 30) :
    (t.plus u).NormalizesIn32 := by
  obtain ⟨htlo, hthi⟩ := abs_lt.mp hts
  obtain ⟨hulo, huhi⟩ := abs_lt.mp hus
  obtain ⟨h₁, h₂, h₃, h₄⟩ := ht
  obtain ⟨k₁, k₂, k₃, k₄⟩ := hu
  obtain ⟨hsum, ⟨hlo, hhi⟩, hpos, hneg⟩ :=
    tdiv_split (t.nanoseconds + u.nanoseconds) (d := 1000000000) (by norm_num)
  norm_num at htlo hthi hulo huhi
  unfold TimeInternal.plus
  constructor
  all_goals
    dsimp only
    exact ⟨by norm_num; omega, by norm_num; omega⟩

theorem TimeInternal.Canonical.neg {t : TimeInternal} (h : t.Canonical) :
    TimeInternal.Canonical ⟨-t.seconds, -t.nanoseconds⟩ := by
  obtain ⟨h₁, h₂, h₃, h₄⟩ := h
  constructor <;> dsimp only <;> omega

theorem TimeInternal.Canonical.minus_normalizes {t u : TimeInternal} (ht : t.Canonical)
    (hu : u.Canonical) (hts : |t.seconds| < 2 ^ 30) (hus : |u.seconds| < 2 ^ 30) :
    (t.minus u).NormalizesIn32 :=
  ht.plus_normalizes hu.neg hts ((abs_neg _).trans_lt hus)

/-- **Time arithmetic is exact**, wherever its result is stored. -/
theorem timeArithmetic_exact (cells : Pointer → TimeInternal) (r x y : Pointer)
    (hx : (cells x).Canonical) (hy : (cells y).Canonical)
    (hxs : |(cells x).seconds| < 2 ^ 30) (hys : |(cells y).seconds| < 2 ^ 30) :
    StoresExactly r ((cells x).nanos + (cells y).nanos) cells (addTimeAt r x y cells) ∧
      StoresExactly r ((cells x).nanos - (cells y).nanos) cells (subTimeAt r x y cells) ∧
      StoresExactly x ((cells x).nanos.tdiv 2) cells (div2TimeAt x cells) := by
  have hplus := hx.plus_normalizes hy hxs hys
  have hminus := hx.minus_normalizes hy hxs hys
  have hsec : SRange 32 (cells x).seconds := by
    obtain ⟨hlo, hhi⟩ := abs_lt.mp hxs
    exact ⟨by norm_num at hlo ⊢; omega, by norm_num at hhi ⊢; omega⟩
  refine ⟨⟨_, addTimeAt_eq hplus, addTime_canonical _ _, ?_⟩,
    ⟨_, subTimeAt_eq hminus, subTime_canonical _ _, ?_⟩,
    ⟨_, div2TimeAt_eq hx hsec, div2Time_canonical _, div2Time_nanos hx hsec⟩⟩
  · rw [addTime_eq hplus, normalizeTime_nanos hplus, TimeInternal.plus_nanos]
  · rw [subTime_eq hminus, normalizeTime_nanos hminus, TimeInternal.minus_nanos]

end Cells

/-- Of -7.000000003 s and 9.5 s, the results replace the first. -/
theorem timeArithmetic_exact_aliased :
    let cells : Bool → TimeInternal := fun p => if p then ⟨-7, -3⟩ else ⟨9, 500000000⟩
    StoresExactly true ((cells true).nanos + (cells false).nanos) cells
        (addTimeAt true true false cells) ∧
      StoresExactly true ((cells true).nanos - (cells false).nanos) cells
        (subTimeAt true true false cells) ∧
      StoresExactly true ((cells true).nanos.tdiv 2) cells (div2TimeAt true cells) :=
  timeArithmetic_exact _ true true false (by decide) (by decide) (by decide) (by decide)

end Ptpd
