import Ptpd.Run
import Mathlib.Tactic.Linarith

/-! # The clock discipline loop (`updateClock`, `adjFreq`, `ETH_PTPTime_AdjFreq`)

    The PI controller computes an adjustment from the offset, `adjFreq` clamps
    it, and `ETH_PTPTime_AdjFreq` turns it into the addend of the MAC clock.
    Over any sequence of calls the accumulator stays within the adjustment
    range and no value overflows; and a larger offset never asks for a faster
    clock, through all the clamps and divisions.
-/

namespace Ptpd

open MachineInt

/-! ## The addend register (`ethernetif.c`) -/

abbrev ADJ_FREQ_BASE_ADDEND : Int := 0xB191D856

/-- The 64-bit sum that `ETH_PTPTime_AdjFreq` assigns to `addend`. -/
def addendSum (Adj : Int) : Int :=
  let Adj := if Adj > 5120000 then 5120000 else Adj
  let Adj := if Adj < -5120000 then -5120000 else Adj
  275 * Adj / 2 ^ 8 * (ADJ_FREQ_BASE_ADDEND / 2 ^ 24) / 2 ^ 6 + ADJ_FREQ_BASE_ADDEND

/-- The addend written for an adjustment. -/
def ETH_PTPTime_AdjFreq (Adj : Int) : UInt32 := UInt32.ofInt (addendSum Adj)

/-! ## Clamping -/

/-- Keep a value within `m` of zero. -/
def clampAt (m x : Int) : Int :=
  if x > m then m else if x < -m then -m else x

theorem clampAt_bounds {m : Int} (hm : 0 ≤ m) (x : Int) :
    -m ≤ clampAt m x ∧ clampAt m x ≤ m := by
  unfold clampAt
  split
  · omega
  · split <;> omega

theorem clampAt_mono {m x y : Int} (hm : 0 ≤ m) (h : x ≤ y) : clampAt m x ≤ clampAt m y := by
  have hx := clampAt_bounds hm x
  have hy := clampAt_bounds hm y
  by_cases htop : y > m
  · have hmax : clampAt m y = m := if_pos htop
    omega
  · by_cases hbottom : x < -m
    · have hmin : clampAt m x = -m := by
        unfold clampAt
        rw [if_neg (by omega), if_pos hbottom]
      omega
    · -- neither end clamps, so both values are their own
      have hxid : clampAt m x = x := by
        unfold clampAt
        rw [if_neg (by omega), if_neg hbottom]
      have hyid : clampAt m y = y := by
        unfold clampAt
        rw [if_neg htop, if_neg (by omega)]
      omega

theorem addendSum_eq (Adj : Int) :
    addendSum Adj =
      275 * clampAt 5120000 Adj / 2 ^ 8 * (ADJ_FREQ_BASE_ADDEND / 2 ^ 24) / 2 ^ 6
        + ADJ_FREQ_BASE_ADDEND := by
  have hclamp : (if (if Adj > 5120000 then 5120000 else Adj) < -5120000 then -5120000
      else if Adj > 5120000 then 5120000 else Adj) = clampAt 5120000 Adj := by
    unfold clampAt
    by_cases htop : Adj > 5120000
    · simp [htop]
    · simp [htop]
  unfold addendSum
  dsimp only
  rw [hclamp]

theorem addendSum_mono {a b : Int} (h : a ≤ b) : addendSum a ≤ addendSum b := by
  have hclamp := clampAt_mono (m := 5120000) (by norm_num) h
  have hscale : ADJ_FREQ_BASE_ADDEND / 2 ^ 24 = 177 := by decide
  rw [addendSum_eq, addendSum_eq, hscale]
  generalize clampAt 5120000 a = a' at hclamp ⊢
  generalize clampAt 5120000 b = b' at hclamp ⊢
  omega

/-- The extreme adjustments move the addend by 1521093 up and 1521094 down. -/
theorem addendSum_clampAt (adj : Int) :
    ADJ_FREQ_BASE_ADDEND - 1521094 ≤ addendSum (clampAt ADJ_FREQ_MAX adj) ∧
      addendSum (clampAt ADJ_FREQ_MAX adj) ≤ ADJ_FREQ_BASE_ADDEND + 1521093 := by
  obtain ⟨hlo, hhi⟩ := clampAt_bounds (m := ADJ_FREQ_MAX) (by norm_num) adj
  have hleast : addendSum (-ADJ_FREQ_MAX) = ADJ_FREQ_BASE_ADDEND - 1521094 := by decide
  have hmost : addendSum ADJ_FREQ_MAX = ADJ_FREQ_BASE_ADDEND + 1521093 := by decide
  rw [← hleast, ← hmost]
  exact ⟨addendSum_mono hlo, addendSum_mono hhi⟩

/-- So the sum fits the register. -/
theorem ETH_PTPTime_AdjFreq_toNat (adj : Int) :
    ((ETH_PTPTime_AdjFreq (clampAt ADJ_FREQ_MAX adj)).toNat : Int) =
      addendSum (clampAt ADJ_FREQ_MAX adj) := by
  obtain ⟨hlo, hhi⟩ := addendSum_clampAt adj
  generalize hsum : addendSum (clampAt ADJ_FREQ_MAX adj) = v at hlo hhi
  unfold ETH_PTPTime_AdjFreq
  rw [hsum]
  have h0 : 0 ≤ v := by norm_num at hlo; omega
  have h32 : v < 2 ^ 32 := by norm_num at hhi; omega
  rw [UInt32.ofInt, UInt32.toNat_ofNat']
  omega

/-! ## The controller -/

/-- What the loop is run with: adjusting and stepping allowed, the sync interval
    between 1/16 s and 2^30 s, and divisors of at least 1. -/
structure PtpClock.Disciplines (c : PtpClock) : Prop where
  adjusts : c.servo.noAdjust = false
  resets : c.servo.noResetClock = false
  interval : -4 ≤ c.portDS.logSyncInterval ∧ c.portDS.logSyncInterval ≤ 30
  ai : 1 ≤ c.servo.ai
  ap : 1 ≤ c.servo.ap

/-- The offset at a sync interval of one second, over unbounded integers. -/
def normExact (logSyncInterval offset : Int) : Int :=
  if logSyncInterval > 0 then offset / 2 ^ logSyncInterval.toNat
  else if logSyncInterval < 0 then offset * 2 ^ (-logSyncInterval).toNat
  else offset

theorem normExact_mono (k : Int) {x y : Int} (h : x ≤ y) : normExact k x ≤ normExact k y := by
  unfold normExact
  split
  · exact Int.ediv_le_ediv (by positivity) h
  · split
    · exact mul_le_mul_of_nonneg_right h (by positivity)
    · exact h

theorem normExact_bounds {k x : Int} (hk : -4 ≤ k) (hx : |x| ≤ MAX_ADJ_OFFSET_NS) :
    |normExact k x| ≤ 1600000000 := by
  have hmax : |x| ≤ 100000000 := hx
  obtain ⟨hlo, hhi⟩ := abs_le.mp hmax
  unfold normExact
  split
  · have hpos : (0 : Int) < 2 ^ k.toNat := by positivity
    rw [abs_le]
    constructor
    · rw [Int.le_ediv_iff_mul_le hpos]
      nlinarith
    · rw [← Int.lt_add_one_iff, Int.ediv_lt_iff_lt_mul hpos]
      nlinarith
  · split
    · have hpow : (2 : Int) ^ (-k).toNat ≤ 2 ^ 4 := pow_le_pow_right₀ (by norm_num) (by omega)
      rw [abs_mul, abs_of_pos (show (0 : Int) < 2 ^ (-k).toNat by positivity)]
      nlinarith [abs_nonneg x]
    · omega

/-- Values of one adjusting call that the 32-bit code must hold. -/
structure PtpClock.Fits (c : PtpClock) : Prop where
  norm : SRange 32 (normExact c.portDS.logSyncInterval c.currentDS.offsetFromMaster.nanoseconds)
  drift : SRange 32 (c.observedDrift + c.offsetNorm.tdiv c.servo.ai)
  sum : SRange 32 (c.offsetNorm.tdiv c.servo.ap + c.accumulatedDrift)
  negated : SRange 32 (-(c.offsetNorm.tdiv c.servo.ap + c.accumulatedDrift))

namespace PtpClock

variable {c : PtpClock}

theorem offsetNorm_eq (hk : -4 ≤ c.portDS.logSyncInterval)
    (hx : |c.currentDS.offsetFromMaster.nanoseconds| ≤ MAX_ADJ_OFFSET_NS) :
    c.offsetNorm =
      normExact c.portDS.logSyncInterval c.currentDS.offsetFromMaster.nanoseconds := by
  have hbound := abs_le.mp (normExact_bounds hk hx)
  unfold offsetNorm
  unfold normExact at hbound ⊢
  dsimp only
  split
  · rfl
  · split
    · rename_i hpos hneg
      rw [if_neg hpos, if_pos hneg] at hbound
      exact wrapS_32 (by omega) (by omega)
    · rfl

theorem accumulatedDrift_eq (c : PtpClock) :
    c.accumulatedDrift =
      clampAt ADJ_FREQ_MAX (wrapS 32 (c.observedDrift + c.offsetNorm.tdiv c.servo.ai)) := rfl

/-- The accumulator is clamped whatever went into it. -/
theorem accumulatedDrift_bounds (c : PtpClock) : |c.accumulatedDrift| ≤ ADJ_FREQ_MAX := by
  rw [accumulatedDrift_eq]
  exact abs_le.mpr (clampAt_bounds (by norm_num) _)

/-- A divisor of at least 1 does not enlarge. -/
theorem abs_tdiv_le (x d : Int) : |x.tdiv d| ≤ |x| := by
  have h := Int.natAbs_tdiv_le_natAbs x d
  rw [Int.abs_eq_natAbs, Int.abs_eq_natAbs]
  exact_mod_cast h

/-- No value overflows while the accumulator is in range. -/
theorem fits (h : c.Disciplines) (hdrift : |c.observedDrift| ≤ ADJ_FREQ_MAX)
    (hx : |c.currentDS.offsetFromMaster.nanoseconds| ≤ MAX_ADJ_OFFSET_NS) : c.Fits := by
  have hnorm := normExact_bounds h.interval.1 hx
  rw [← offsetNorm_eq h.interval.1 hx] at hnorm
  have hn := abs_le.mp hnorm
  have hi := abs_le.mp ((abs_tdiv_le _ c.servo.ai).trans hnorm)
  have hp := abs_le.mp ((abs_tdiv_le _ c.servo.ap).trans hnorm)
  have hd := abs_le.mp (show |c.observedDrift| ≤ 512000 from hdrift)
  have ha := abs_le.mp (show |c.accumulatedDrift| ≤ 512000 from c.accumulatedDrift_bounds)
  constructor
  · rw [← offsetNorm_eq h.interval.1 hx]
    constructor <;> norm_num <;> omega
  · constructor <;> norm_num <;> omega
  · constructor <;> norm_num <;> omega
  · constructor <;> norm_num <;> omega

/-- The adjustment before it is negated and clamped. -/
def adj (c : PtpClock) : Int := wrapS 32 (c.offsetNorm.tdiv c.servo.ap + c.accumulatedDrift)

theorem adj_eq (h : c.Disciplines) (hdrift : |c.observedDrift| ≤ ADJ_FREQ_MAX)
    (hx : |c.currentDS.offsetFromMaster.nanoseconds| ≤ MAX_ADJ_OFFSET_NS) :
    c.adj =
      (normExact c.portDS.logSyncInterval c.currentDS.offsetFromMaster.nanoseconds).tdiv c.servo.ap
        + clampAt ADJ_FREQ_MAX (c.observedDrift
          + (normExact c.portDS.logSyncInterval c.currentDS.offsetFromMaster.nanoseconds).tdiv
            c.servo.ai) := by
  have hfits := c.fits h hdrift hx
  have hsum := wrapS_of_range (by decide) hfits.sum
  rw [accumulatedDrift_eq, wrapS_of_range (by decide) hfits.drift] at hsum
  unfold adj
  rw [accumulatedDrift_eq, wrapS_of_range (by decide) hfits.drift, hsum, offsetNorm_eq h.interval.1 hx]

/-- From the same accumulator and with the same settings, a larger offset gives
    a larger adjustment. -/
theorem adj_mono {d : PtpClock} (hc : c.Disciplines) (hd : d.Disciplines)
    (hdrift : |c.observedDrift| ≤ ADJ_FREQ_MAX) (heq : d.observedDrift = c.observedDrift)
    (hservo : d.servo = c.servo) (hint : d.portDS.logSyncInterval = c.portDS.logSyncInterval)
    (hx : |c.currentDS.offsetFromMaster.nanoseconds| ≤ MAX_ADJ_OFFSET_NS)
    (hy : |d.currentDS.offsetFromMaster.nanoseconds| ≤ MAX_ADJ_OFFSET_NS)
    (hle : c.currentDS.offsetFromMaster.nanoseconds ≤ d.currentDS.offsetFromMaster.nanoseconds) :
    c.adj ≤ d.adj := by
  rw [adj_eq hc hdrift hx, adj_eq hd (heq ▸ hdrift) hy, heq, hservo, hint]
  have hnorm := normExact_mono c.portDS.logSyncInterval hle
  have hap : 0 < c.servo.ap := hc.ap
  have hai : 0 < c.servo.ai := hc.ai
  apply add_le_add
  · exact Int.tdiv_le_tdiv hap hnorm
  · apply clampAt_mono (by norm_num)
    apply add_le_add (le_refl _)
    exact Int.tdiv_le_tdiv hai hnorm

end PtpClock

/-! ## What a call writes -/

/-- The addend that a logged call wrote. -/
def LogEntry.addend? (x : LogEntry) : Option UInt32 :=
  match x.call with
  | .adjFreq adj => some (ETH_PTPTime_AdjFreq adj)
  | _ => none

/-- The addends written, the latest first. -/
def addends (log : List LogEntry) : List UInt32 := log.filterMap LogEntry.addend?

@[simp] theorem addends_adjFreq (adj : Int) (w : World) :
    addends (adjFreq adj w).log =
      ETH_PTPTime_AdjFreq (clampAt ADJ_FREQ_MAX adj) :: addends w.log := rfl

theorem addends_freeAll (freed : List Pbuf) (w : World) :
    addends (freeAll freed w).log = addends w.log := by
  induction freed generalizing w with
  | nil => rfl
  | cons p freed ih => exact ih _

theorem freeAll_observedDrift (freed : List Pbuf) (w : World) :
    (freeAll freed w).observedDrift = w.observedDrift := by
  induction freed generalizing w with
  | nil => rfl
  | cons p freed ih => exact ih _

/-- `initClock` clears the accumulator and levels the clock. -/
theorem initClock_disciplines {w : World} (h : w.servo.noAdjust = false) :
    (initClock w).observedDrift = 0 ∧
      addends (initClock w).log = ETH_PTPTime_AdjFreq (clampAt ADJ_FREQ_MAX 0) :: addends w.log := by
  have hadjusts : (!(initClockData w).servo.noAdjust) = true := by
    show (!w.servo.noAdjust) = true
    rw [h]
    rfl
  unfold initClock netEmptyEventQ
  dsimp only
  rw [if_pos hadjusts]
  constructor
  · rw [freeAll_observedDrift]
    rfl
  · rw [addends_freeAll]
    rfl

/-- A call on an offset that is out of range steps the clock. -/
theorem updateClock_outOfRange {w : World} (h : w.Disciplines) (hout : w.outOfRange = true) :
    updateClock w = stepClock w := by
  unfold updateClock
  rw [if_pos hout, h.adjusts, h.resets]
  rfl

/-- A call on any other offset accumulates and adjusts. -/
theorem updateClock_inRange {w : World} (h : w.Disciplines) (hin : w.outOfRange = false) :
    updateClock w = adjFreq (-w.adj) { w with observedDrift := w.accumulatedDrift } := by
  have hno : ¬ w.outOfRange = true := by
    rw [hin]
    exact Bool.false_ne_true
  unfold updateClock
  rw [if_neg hno]
  dsimp only
  rw [h.adjusts]
  rfl

/-- One call keeps the accumulator in range and writes one addend. -/
theorem updateClock_step {w : World} (h : w.Disciplines) :
    |(updateClock w).observedDrift| ≤ ADJ_FREQ_MAX ∧
      ∃ adj, addends (updateClock w).log =
        ETH_PTPTime_AdjFreq (clampAt ADJ_FREQ_MAX adj) :: addends w.log := by
  cases hout : w.outOfRange with
  | true =>
    rw [updateClock_outOfRange h hout]
    have hinit := initClock_disciplines (w := setTime (subTime (getTime w).1
      w.currentDS.offsetFromMaster) (getTime w).2) h.adjusts
    constructor
    · rw [show (stepClock w).observedDrift = 0 from hinit.1]
      norm_num
    · exact ⟨0, hinit.2⟩
  | false =>
    rw [updateClock_inRange h hout]
    exact ⟨w.accumulatedDrift_bounds, -w.adj, rfl⟩

/-! ## Runs -/

/-- Worlds that a sequence of calls leads to. Between two calls anything may
    happen that leaves the accumulator alone. -/
inductive Disciplined : World → Prop where
  | start {w : World} (hdrift : |w.observedDrift| ≤ ADJ_FREQ_MAX) : Disciplined w
  | between {w v : World} (hw : Disciplined w) (hdrift : v.observedDrift = w.observedDrift) :
      Disciplined v
  | updateClock {w : World} (hw : Disciplined w) (h : w.Disciplines) :
      Disciplined (updateClock w)

theorem Disciplined.observedDrift {w : World} (hw : Disciplined w) :
    |w.observedDrift| ≤ ADJ_FREQ_MAX := by
  induction hw with
  | start hdrift => exact hdrift
  | between hw hdrift ih =>
    rw [hdrift]
    exact ih
  | updateClock hw h ih => exact (updateClock_step h).1

/-- Not out of range is what the controller needs of the offset. -/
theorem abs_le_of_inRange {c : PtpClock} (h : c.outOfRange = false) :
    |c.currentDS.offsetFromMaster.nanoseconds| ≤ MAX_ADJ_OFFSET_NS := by
  unfold PtpClock.outOfRange at h
  simp only [Bool.or_eq_false_iff, decide_eq_false_iff_not, not_lt] at h
  exact h.2

theorem inRange_of_abs_le {c : PtpClock} (hsec : c.currentDS.offsetFromMaster.seconds = 0)
    (hx : |c.currentDS.offsetFromMaster.nanoseconds| ≤ MAX_ADJ_OFFSET_NS) :
    c.outOfRange = false := by
  unfold PtpClock.outOfRange
  simp only [Bool.or_eq_false_iff, decide_eq_false_iff_not, not_lt]
  exact ⟨fun hne => hne hsec.symm, hx⟩

/-- Negative feedback: the larger of two offsets is answered by the smaller addend. -/
theorem updateClock_antitone {w v : World} (hw : w.Disciplines) (hv : v.Disciplines)
    (hdrift : |w.observedDrift| ≤ ADJ_FREQ_MAX) (heq : v.observedDrift = w.observedDrift)
    (hservo : v.servo = w.servo) (hint : v.portDS.logSyncInterval = w.portDS.logSyncInterval)
    (hwin : w.outOfRange = false) (hvin : v.outOfRange = false)
    (hle : w.currentDS.offsetFromMaster.nanoseconds ≤ v.currentDS.offsetFromMaster.nanoseconds) :
    ∃ a b, addends (updateClock w).log = a :: addends w.log ∧
      addends (updateClock v).log = b :: addends v.log ∧ b ≤ a := by
  have hadj := PtpClock.adj_mono hw hv hdrift heq hservo hint (abs_le_of_inRange hwin)
    (abs_le_of_inRange hvin) hle
  rw [updateClock_inRange hw hwin, updateClock_inRange hv hvin]
  refine ⟨_, _, rfl, rfl, ?_⟩
  have hclamp := clampAt_mono (m := ADJ_FREQ_MAX) (by norm_num) (neg_le_neg hadj)
  have hsum := addendSum_mono hclamp
  rw [← ETH_PTPTime_AdjFreq_toNat, ← ETH_PTPTime_AdjFreq_toNat] at hsum
  rw [UInt32.le_iff_toNat_le]
  exact_mod_cast hsum

/-- At any point of a run, a call keeps the accumulator in range without
    overflow, writes one addend near the base that did not wrap, and never
    answers a larger offset with a faster clock. -/
theorem updateClock_disciplined (w : World) (hw : Disciplined w) (h : w.Disciplines) :
    |(updateClock w).observedDrift| ≤ ADJ_FREQ_MAX ∧
      (w.outOfRange = false → w.Fits) ∧
      (∃ adj, addends (updateClock w).log = ETH_PTPTime_AdjFreq adj :: addends w.log ∧
        ((ETH_PTPTime_AdjFreq adj).toNat : Int) = addendSum adj ∧
        |addendSum adj - ADJ_FREQ_BASE_ADDEND| ≤ 1521094) ∧
      ∀ v : World, v.observedDrift = w.observedDrift → v.servo = w.servo →
        v.portDS.logSyncInterval = w.portDS.logSyncInterval →
        w.currentDS.offsetFromMaster.seconds = 0 → v.currentDS.offsetFromMaster.seconds = 0 →
        |w.currentDS.offsetFromMaster.nanoseconds| ≤ MAX_ADJ_OFFSET_NS →
        |v.currentDS.offsetFromMaster.nanoseconds| ≤ MAX_ADJ_OFFSET_NS →
        w.currentDS.offsetFromMaster.nanoseconds ≤ v.currentDS.offsetFromMaster.nanoseconds →
        ∃ a b, addends (updateClock w).log = a :: addends w.log ∧
          addends (updateClock v).log = b :: addends v.log ∧ b ≤ a := by
  have hdrift := hw.observedDrift
  obtain ⟨hstep, adj, hadj⟩ := updateClock_step h
  obtain ⟨hlo, hhi⟩ := addendSum_clampAt adj
  refine ⟨hstep, ?_, ⟨_, hadj, ETH_PTPTime_AdjFreq_toNat adj, abs_le.mpr ⟨by omega, by omega⟩⟩, ?_⟩
  · intro hin
    exact PtpClock.fits h hdrift (abs_le_of_inRange hin)
  · intro v heq hservo hint hws hvs hwx hvx hle
    have hv : v.Disciplines := ⟨hservo ▸ h.adjusts, hservo ▸ h.resets, hint ▸ h.interval,
      hservo ▸ h.ai, hservo ▸ h.ap⟩
    exact updateClock_antitone h hv hdrift heq hservo hint (inRange_of_abs_le hws hwx)
      (inRange_of_abs_le hvs hvx) hle

/-- A clock as the program sets its servo up, 250 ns ahead of its master. -/
def slightlyAhead : World :=
  { World.zero Platform.steady with
    servo := (RunTimeOpts.sample .E2E).servo
    currentDS.offsetFromMaster := ⟨0, 250⟩ }

theorem updateClock_disciplined_ahead :
    |(updateClock slightlyAhead).observedDrift| ≤ ADJ_FREQ_MAX ∧
      (slightlyAhead.outOfRange = false → slightlyAhead.Fits) ∧
      (∃ adj, addends (updateClock slightlyAhead).log =
          ETH_PTPTime_AdjFreq adj :: addends slightlyAhead.log ∧
        ((ETH_PTPTime_AdjFreq adj).toNat : Int) = addendSum adj ∧
        |addendSum adj - ADJ_FREQ_BASE_ADDEND| ≤ 1521094) ∧
      ∀ v : World, v.observedDrift = 0 → v.servo = slightlyAhead.servo →
        v.portDS.logSyncInterval = 0 →
        slightlyAhead.currentDS.offsetFromMaster.seconds = 0 →
        v.currentDS.offsetFromMaster.seconds = 0 →
        |slightlyAhead.currentDS.offsetFromMaster.nanoseconds| ≤ MAX_ADJ_OFFSET_NS →
        |v.currentDS.offsetFromMaster.nanoseconds| ≤ MAX_ADJ_OFFSET_NS →
        slightlyAhead.currentDS.offsetFromMaster.nanoseconds ≤
          v.currentDS.offsetFromMaster.nanoseconds →
        ∃ a b, addends (updateClock slightlyAhead).log = a :: addends slightlyAhead.log ∧
          addends (updateClock v).log = b :: addends v.log ∧ b ≤ a :=
  updateClock_disciplined slightlyAhead (.start (by decide))
    ⟨rfl, rfl, by decide, by decide, by decide⟩

end Ptpd
