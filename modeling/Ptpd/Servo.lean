import Ptpd.Net
import Ptpd.Sys

/-! # Clock servo (`dep/servo.c`)

    Offset and delay computation, the smoothing filter, and the PI controller.
    The statistics that `DEFAULT_PARENTS_STATS` (FALSE) switches off are left
    out.
-/

namespace Ptpd

open MachineInt

/-- The assignments of `initClock`. -/
def initClockData (w : World) : World :=
  { w with
    Tms := ⟨0, 0⟩
    observedDrift := 0
    owd_filt.n := 0
    owd_filt.s := w.servo.sDelay
    ofm_filt.n := 0
    ofm_filt.s := w.servo.sOffset
    waitingForFollowUp := false
    waitingForPDelayRespFollowUp := false
    pdelay_t1 := ⟨0, 0⟩
    pdelay_t2 := ⟨0, 0⟩
    pdelay_t3 := ⟨0, 0⟩
    pdelay_t4 := ⟨0, 0⟩
    parentDS.parentStats := false
    parentDS.observedParentClockPhaseChangeRate := 0
    parentDS.observedParentOffsetScaledLogVariance := 0 }

def initClock (w : World) : World :=
  let w := initClockData w
  -- level clock
  let w := if !w.servo.noAdjust then adjFreq 0 w else w
  netEmptyEventQ w

/-! ## Exponential smoothing -/

def order (n : Int) : Int :=
  let n := if n < 0 then wrapS 32 (-n) else n
  if n = 0 then 0 else floorLog2 (n % 2 ^ 32).toNat

/-- One sample through the filter: the smoothed value and the filter after it. -/
def filter (nsec_current : Int) (filt : Filter) : Int × Filter :=
  let filt := { filt with n := wrapS 32 (filt.n + 1) }
  -- the first sample initializes the filter
  let filt :=
    if filt.n = 1 then { filt with y_prev := nsec_current, y_sum := nsec_current, s_prev := 0 }
    else filt
  let s := filt.s
  -- use a lower order until 2^s samples were seen, then keep n from overflowing
  let (s, filt) :=
    if wrapS 32 (2 ^ s.toNat) > filt.n then (order filt.n, filt)
    else (s, { filt with n := wrapS 32 (2 ^ s.toNat) })
  -- the order may not make `y_sum`, which is about 2^s samples, overflow
  let s2 := 30 - order (max filt.y_prev nsec_current)
  let s := min s s2
  -- scale the sum to the order in use
  let filt :=
    if filt.s_prev > s then { filt with y_sum := filt.y_sum / 2 ^ (filt.s_prev - s).toNat }
    else if filt.s_prev < s then
      { filt with y_sum := wrapS 32 (filt.y_sum * 2 ^ (s - filt.s_prev).toNat) }
    else filt
  let y_sum := wrapS 32 (filt.y_sum + wrapS 32 (nsec_current - filt.y_prev))
  let y_prev := y_sum / 2 ^ s.toNat
  (y_prev, { filt with y_sum := y_sum, y_prev := y_prev, s_prev := s })

/-! ## Offset and delay (11.2, 11.3) -/

/-- The offset is too large for a synchronized port. -/
def synchronizationFault (w : World) : World :=
  if w.portDS.portState = .PTP_SLAVE then { w with events.SYNCHRONIZATION_FAULT := true } else w

/-- Judge the filtered offset. -/
def offsetEvents (w : World) : World :=
  if |w.currentDS.offsetFromMaster.nanoseconds| < DEFAULT_CALIBRATED_OFFSET_NS then
    if w.portDS.portState = .PTP_UNCALIBRATED then { w with events.MASTER_CLOCK_SELECTED := true }
    else w
  else if |w.currentDS.offsetFromMaster.nanoseconds| > DEFAULT_UNCALIBRATED_OFFSET_NS then
    synchronizationFault w
  else w

/-- Replace the offset by its filtered value. -/
def setFilteredOffset (filtered : Int × Filter) (w : World) : World :=
  { w with
    currentDS.offsetFromMaster.nanoseconds := filtered.1
    ofm_filt := filtered.2 }

/-- The tail of `updateOffset`: `offsetFromMaster` is computed, not filtered. -/
def filterOffset (w : World) : World :=
  let w := w.record .unfilteredOffset
  -- an offset of whole seconds is not filtered, and `updateClock` steps the clock
  if 0 ≠ w.currentDS.offsetFromMaster.seconds then synchronizationFault w
  else
    let w := setFilteredOffset (filter w.currentDS.offsetFromMaster.nanoseconds w.ofm_filt) w
    offsetEvents (w.record .filteredOffset)

/-- The path delay that `updateOffset` subtracts. -/
def PtpClock.subtractedDelay (c : PtpClock) : Option TimeInternal :=
  match c.portDS.delayMechanism with
  | .E2E => some c.currentDS.meanPathDelay
  | .P2P => some c.portDS.peerMeanPathDelay
  | .DELAY_DISABLED => none

def updateOffset (syncEventIngressTimestamp preciseOriginTimestamp correctionField : TimeInternal)
    (w : World) : World :=
  let w := w.record
    (.updateOffset syncEventIngressTimestamp preciseOriginTimestamp correctionField)
  let Tms := subTime syncEventIngressTimestamp preciseOriginTimestamp
  let Tms := subTime Tms correctionField
  let offset :=
    match w.subtractedDelay with
    | some delay => subTime Tms delay
    | none => Tms
  filterOffset { w with Tms := Tms, currentDS.offsetFromMaster := offset }

def setFilteredDelay (filtered : Int × Filter) (w : World) : World :=
  { w with currentDS.meanPathDelay.nanoseconds := filtered.1, owd_filt := filtered.2 }

/-- Filter the one-way delay, unless it is whole seconds. -/
def filterDelay (w : World) : World :=
  let w := w.record .unfilteredDelay
  if 0 ≠ w.currentDS.meanPathDelay.seconds then w
  else setFilteredDelay (filter w.currentDS.meanPathDelay.nanoseconds w.owd_filt) w

def updateDelay (delayEventEgressTimestamp recieveTimestamp correctionField : TimeInternal)
    (w : World) : World :=
  -- Tms valid?
  if 0 = w.ofm_filt.n then w
  else
    let w := w.record (.updateDelay delayEventEgressTimestamp recieveTimestamp correctionField)
    let Tsm := subTime recieveTimestamp delayEventEgressTimestamp
    let Tsm := subTime Tsm correctionField
    filterDelay { w with Tsm := Tsm, currentDS.meanPathDelay := div2Time (addTime w.Tms Tsm) }

def setFilteredPeerDelay (filtered : Int × Filter) (w : World) : World :=
  { w with portDS.peerMeanPathDelay.nanoseconds := filtered.1, owd_filt := filtered.2 }

/-- Filter the peer delay, unless it is whole seconds. -/
def filterPeerDelay (w : World) : World :=
  let w := w.record .unfilteredPeerDelay
  if 0 ≠ w.portDS.peerMeanPathDelay.seconds then w
  else setFilteredPeerDelay (filter w.portDS.peerMeanPathDelay.nanoseconds w.owd_filt) w

/-- Twice the peer delay, before the correction field is subtracted. -/
def PtpClock.peerRoundTrip (c : PtpClock) (twoStep : Bool) : TimeInternal :=
  if twoStep then
    let Tab := subTime c.pdelay_t2 c.pdelay_t1
    let Tba := subTime c.pdelay_t4 c.pdelay_t3
    addTime Tab Tba
  else subTime c.pdelay_t4 c.pdelay_t1

def updatePeerDelay (correctionField : TimeInternal) (twoStep : Bool) (w : World) : World :=
  let w := w.record (.updatePeerDelay correctionField twoStep)
  let peerMeanPathDelay := subTime (w.peerRoundTrip twoStep) correctionField
  filterPeerDelay { w with portDS.peerMeanPathDelay := div2Time peerMeanPathDelay }

/-! ## Clock discipline -/

/-- The clock is too far off to be adjusted. -/
def PtpClock.outOfRange (c : PtpClock) : Bool :=
  0 ≠ c.currentDS.offsetFromMaster.seconds ||
    |c.currentDS.offsetFromMaster.nanoseconds| > MAX_ADJ_OFFSET_NS

/-- The offset scaled to a sync interval of one second. -/
def PtpClock.offsetNorm (c : PtpClock) : Int :=
  let offset := c.currentDS.offsetFromMaster.nanoseconds
  if c.portDS.logSyncInterval > 0 then offset / 2 ^ c.portDS.logSyncInterval.toNat
  else if c.portDS.logSyncInterval < 0 then
    wrapS 32 (offset * 2 ^ (-c.portDS.logSyncInterval).toNat)
  else offset

/-- The accumulator of the PI controller, clamped to the adjustment range. -/
def PtpClock.accumulatedDrift (c : PtpClock) : Int :=
  let drift := wrapS 32 (c.observedDrift + c.offsetNorm.tdiv c.servo.ai)
  if drift > ADJ_FREQ_MAX then ADJ_FREQ_MAX
  else if drift < -ADJ_FREQ_MAX then -ADJ_FREQ_MAX
  else drift

/-- Step the clock back by the offset, and start the servo afresh. -/
def stepClock (w : World) : World :=
  let (timeTmp, w) := getTime w
  let timeTmp := subTime timeTmp w.currentDS.offsetFromMaster
  initClock (setTime timeTmp w)

def updateClock (w : World) : World :=
  if w.outOfRange then
    if !w.servo.noAdjust then
      if !w.servo.noResetClock then stepClock w
      else
        -- the seconds are not looked at here, only the sign of the nanoseconds
        let adj := if w.currentDS.offsetFromMaster.nanoseconds > 0 then ADJ_FREQ_MAX
          else -ADJ_FREQ_MAX
        adjFreq (-adj) w
    else w
  else
    -- the PI controller: accumulate, then add the proportional term
    let w := { w with observedDrift := w.accumulatedDrift }
    if !w.servo.noAdjust then
      let adj := wrapS 32 (w.offsetNorm.tdiv w.servo.ap + w.observedDrift)
      adjFreq (-adj) w
    else w

end Ptpd
