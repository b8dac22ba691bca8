import Ptpd.Nanos
import Ptpd.Run

/-! # Rejected delay samples (`updateDelay`, `updatePeerDelay`)

    A sample whose mean path delay has whole seconds is not filtered. It is
    still stored: the data set field is where the delay was computed. So a
    rejected sample replaces the delay that `updateOffset` subtracts, unless it
    happens to be equal to it.
-/

namespace Ptpd

open MachineInt

/-! ## The samples -/

/-- The round trip that `updateDelay` halves. -/
def PtpClock.roundTrip (c : PtpClock) (delayEventEgressTimestamp recieveTimestamp
    correctionField : TimeInternal) : TimeInternal :=
  addTime c.Tms (subTime (subTime recieveTimestamp delayEventEgressTimestamp) correctionField)

/-- The round trip that `updatePeerDelay` halves. -/
def PtpClock.correctedPeerRoundTrip (c : PtpClock) (correctionField : TimeInternal)
    (twoStep : Bool) : TimeInternal :=
  subTime (c.peerRoundTrip twoStep) correctionField

/-- The delay of this round trip is not filtered. -/
def Rejects (roundTrip : TimeInternal) : Prop := (div2Time roundTrip).seconds ≠ 0

/-- `delay` is the canonical form of half the round trip, rounded toward zero. -/
def TimeInternal.IsHalf (delay roundTrip : TimeInternal) : Prop :=
  delay.Canonical ∧ delay.nanos = roundTrip.nanos.tdiv 2

variable {roundTrip delay : TimeInternal}

/-- Two whole seconds of round trip make one of delay. -/
theorem rejects_iff (h : roundTrip.Canonical) (hsec : SRange 32 roundTrip.seconds) :
    Rejects roundTrip ↔ 1 < |roundTrip.seconds| := by
  obtain ⟨hsum, hrem, hpos, hneg⟩ := tdiv_split roundTrip.seconds (d := 2) (by norm_num)
  unfold Rejects
  rw [div2Time_eq h hsec, lt_abs]
  dsimp only
  omega

theorem div2Time_eq_iff (h : roundTrip.Canonical) (hsec : SRange 32 roundTrip.seconds) :
    div2Time roundTrip = delay ↔ delay.IsHalf roundTrip := by
  have hcanon := div2Time_canonical roundTrip
  have hnanos := div2Time_nanos h hsec
  constructor
  · intro heq
    rw [← heq]
    exact ⟨hcanon, hnanos⟩
  · rintro ⟨hdelay, hhalf⟩
    exact hcanon.eq_of_nanos hdelay (hnanos.trans hhalf.symm)

/-- A rejected sample leaves the delay as it was exactly if it repeats it. -/
theorem rejected_unchanged_iff (h : roundTrip.Canonical) (hsec : SRange 32 roundTrip.seconds) :
    (Rejects roundTrip → div2Time roundTrip = delay) ↔
      |roundTrip.seconds| ≤ 1 ∨ delay.IsHalf roundTrip := by
  rw [rejects_iff h hsec, div2Time_eq_iff h hsec]
  constructor
  · intro himp
    rcases le_or_gt |roundTrip.seconds| 1 with hle | hgt
    · exact Or.inl hle
    · exact Or.inr (himp hgt)
  · rintro (hle | hhalf) hgt
    · omega
    · exact hhalf

theorem roundTrip_canonical (e r c : TimeInternal) (clock : PtpClock) :
    (clock.roundTrip e r c).Canonical ∧ SRange 32 (clock.roundTrip e r c).seconds :=
  ⟨addTime_canonical _ _, normalizeTime_seconds _⟩

theorem correctedPeerRoundTrip_canonical (c : TimeInternal) (twoStep : Bool) (clock : PtpClock) :
    (clock.correctedPeerRoundTrip c twoStep).Canonical ∧
      SRange 32 (clock.correctedPeerRoundTrip c twoStep).seconds :=
  ⟨subTime_canonical _ _, normalizeTime_seconds _⟩

/-! ## The functions -/

/-- What `updateDelay` stores of a rejected sample. -/
theorem updateDelay_rejected {e r c : TimeInternal} {w : World} (hn : w.ofm_filt.n ≠ 0)
    (h : Rejects (w.roundTrip e r c)) :
    (updateDelay e r c w).currentDS.meanPathDelay = div2Time (w.roundTrip e r c) ∧
      (updateDelay e r c w).owd_filt = w.owd_filt := by
  have hno : ¬ 0 = w.ofm_filt.n := Ne.symm hn
  have hsec : 0 ≠ (div2Time (w.roundTrip e r c)).seconds := Ne.symm h
  unfold updateDelay
  rw [if_neg hno]
  unfold filterDelay
  dsimp only
  constructor
  · split
    · rfl
    · rename_i hacc
      exact absurd hsec hacc
  · split
    · rfl
    · rename_i hacc
      exact absurd hsec hacc

/-- What `updatePeerDelay` stores of a rejected sample. -/
theorem updatePeerDelay_rejected {c : TimeInternal} {twoStep : Bool} {w : World}
    (h : Rejects (w.correctedPeerRoundTrip c twoStep)) :
    (updatePeerDelay c twoStep w).portDS.peerMeanPathDelay =
        div2Time (w.correctedPeerRoundTrip c twoStep) ∧
      (updatePeerDelay c twoStep w).owd_filt = w.owd_filt := by
  have hsec : 0 ≠ (div2Time (w.correctedPeerRoundTrip c twoStep)).seconds := Ne.symm h
  unfold updatePeerDelay filterPeerDelay
  dsimp only
  constructor
  · split
    · rfl
    · rename_i hacc
      exact absurd hsec hacc
  · split
    · rfl
    · rename_i hacc
      exact absurd hsec hacc

/-- The delay and the filter survive a rejection. -/
def DelayKept (e r c : TimeInternal) (w : World) : Prop :=
  w.ofm_filt.n ≠ 0 → Rejects (w.roundTrip e r c) →
    (updateDelay e r c w).currentDS.meanPathDelay = w.currentDS.meanPathDelay ∧
      (updateDelay e r c w).owd_filt = w.owd_filt

/-- The peer delay and the filter survive a rejection. -/
def PeerDelayKept (c : TimeInternal) (twoStep : Bool) (w : World) : Prop :=
  Rejects (w.correctedPeerRoundTrip c twoStep) →
    (updatePeerDelay c twoStep w).portDS.peerMeanPathDelay = w.portDS.peerMeanPathDelay ∧
      (updatePeerDelay c twoStep w).owd_filt = w.owd_filt

/-- A rejection keeps the delay exactly if there is none to make, or the sample
    repeats the delay. -/
theorem rejection_keeps_iff (w : World) (e r c : TimeInternal) (twoStep : Bool) :
    (DelayKept e r c w ↔
      w.ofm_filt.n = 0 ∨ |(w.roundTrip e r c).seconds| ≤ 1 ∨
        w.currentDS.meanPathDelay.IsHalf (w.roundTrip e r c)) ∧
    (PeerDelayKept c twoStep w ↔
      |(w.correctedPeerRoundTrip c twoStep).seconds| ≤ 1 ∨
        w.portDS.peerMeanPathDelay.IsHalf (w.correctedPeerRoundTrip c twoStep)) := by
  constructor
  · obtain ⟨hcanon, hrange⟩ := roundTrip_canonical e r c w.toPtpClock
    rw [← rejected_unchanged_iff hcanon hrange]
    constructor
    · intro hkept
      by_cases hn : w.ofm_filt.n = 0
      · exact Or.inl hn
      · apply Or.inr
        intro hrej
        rw [← (updateDelay_rejected hn hrej).1]
        exact (hkept hn hrej).1
    · rintro (hn | hsame) hn' hrej
      · exact absurd hn hn'
      · obtain ⟨hdelay, hfilt⟩ := updateDelay_rejected hn' hrej
        exact ⟨hdelay.trans (hsame hrej), hfilt⟩
  · obtain ⟨hcanon, hrange⟩ := correctedPeerRoundTrip_canonical c twoStep w.toPtpClock
    rw [← rejected_unchanged_iff hcanon hrange]
    constructor
    · intro hkept hrej
      rw [← (updatePeerDelay_rejected hrej).1]
      exact (hkept hrej).1
    · intro hsame hrej
      obtain ⟨hdelay, hfilt⟩ := updatePeerDelay_rejected hrej
      exact ⟨hdelay.trans (hsame hrej), hfilt⟩

/-- A slave whose clock has an offset already, and no path delay yet. -/
def synchronizing : World :=
  { World.zero Platform.steady with ofm_filt.n := 1 }

/-- A response that seems to have arrived 10 s later is rejected, and leaves
    5 s as the delay that the next offset is corrected by. -/
theorem rejected_sample_replaces_delay :
    ¬ ∀ (w : World) (e r c : TimeInternal) (twoStep : Bool),
      DelayKept e r c w ∧ PeerDelayKept c twoStep w := by
  intro h
  obtain ⟨hkept, -⟩ := h synchronizing ⟨100, 0⟩ ⟨110, 0⟩ ⟨0, 0⟩ true
  have hrej : Rejects (synchronizing.roundTrip ⟨100, 0⟩ ⟨110, 0⟩ ⟨0, 0⟩) := by
    unfold Rejects
    decide
  have hn : synchronizing.ofm_filt.n ≠ 0 := by decide
  have hzero := (hkept hn hrej).1
  rw [(updateDelay_rejected hn hrej).1] at hzero
  exact absurd hzero (by decide)

end Ptpd
