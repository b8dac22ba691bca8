import Ptpd.Refinement.Act
import Ptpd.Sums

/-! # Received timestamps

    The timestamp of a message that is taken goes into sums of 32-bit times, from
    which the servo computes an offset or a delay. `toInternalTime` reads neither
    the upper 16 bits of the seconds nor the range of the nanoseconds, and tells
    of seconds that it cannot hold only by storing nothing, so that the message
    is taken all the same. A two-step Pdelay_Resp is taken too: its time is kept
    for the Follow_Up. The servo is safe exactly if a message that is taken
    carries a time that can be held, and no sum made of it overflows.
-/

namespace Ptpd

open PortState MachineInt

/-! ## Timestamps -/

/-- The 48 bits of seconds. -/
def Timestamp.seconds (t : Timestamp) : Nat :=
  t.secondsField.msb.toNat * 2 ^ 32 + t.secondsField.lsb.toNat

/-- The time fits in a `TimeInternal`, with less than a second of nanoseconds. -/
structure Timestamp.Representable (t : Timestamp) : Prop where
  seconds : t.seconds < 2 ^ 31 - 1
  nanoseconds : t.nanosecondsField.toNat < 1000000000

instance : DecidablePred Timestamp.Representable := fun _ =>
  decidable_of_iff (_ ∧ _) ⟨fun ⟨h₁, h₂⟩ => ⟨h₁, h₂⟩, fun ⟨h₁, h₂⟩ => ⟨h₁, h₂⟩⟩

/-- The time that the timestamp stands for. -/
def Timestamp.internal (t : Timestamp) : TimeInternal :=
  ⟨t.seconds, t.nanosecondsField.toNat⟩

/-- What is stored of it is the time itself, whatever was there before. -/
theorem toInternalTime_representable {t : Timestamp} (h : t.Representable) (stack : TimeInternal) :
    toInternalTime stack t = t.internal := by
  have hsec := h.seconds
  have hns := h.nanoseconds
  unfold Timestamp.seconds at hsec
  have hlsb : t.secondsField.lsb.toNat < 2147483647 := by omega
  have hmsb : t.secondsField.msb.toNat = 0 := by omega
  have hwrap : wrapS 32 t.nanosecondsField.toNat = t.nanosecondsField.toNat :=
    wrapS_32 (by omega) (by omega)
  unfold toInternalTime Timestamp.internal Timestamp.seconds
  rw [if_pos hlsb, hwrap, hmsb]
  simp

/-! ## Messages with a timestamp -/

/-- The messages whose timestamp is received, as `handle` dispatches them. -/
inductive TimedMessage where
  | sync (time : TimeInternal) (isFromSelf : Bool)
  | followUp (isFromSelf : Bool)
  | delayResp
  | pDelayResp (time : TimeInternal) (isFromSelf : Bool)
  | pDelayRespFollowUp

namespace TimedMessage

def handle : TimedMessage → World → World
  | sync time isFromSelf => handleSync time isFromSelf
  | followUp isFromSelf => handleFollowUp isFromSelf
  | delayResp => handleDelayResp
  | pDelayResp time isFromSelf => handlePDelayResp time isFromSelf
  | pDelayRespFollowUp => handlePDelayRespFollowUp

def length : TimedMessage → Nat
  | sync .. => SYNC_LENGTH
  | followUp _ => FOLLOW_UP_LENGTH
  | delayResp => DELAY_RESP_LENGTH
  | pDelayResp .. => PDELAY_RESP_LENGTH
  | pDelayRespFollowUp => PDELAY_RESP_FOLLOW_UP_LENGTH

/-- The timestamp in the octets at hand. -/
def timestamp : TimedMessage → PtpClock → Timestamp
  | sync .., c => (msgUnpackSync c.msgIbuf).originTimestamp
  | followUp _, c => (msgUnpackFollowUp c.msgIbuf).preciseOriginTimestamp
  | delayResp, c => (msgUnpackDelayResp c.msgIbuf).receiveTimestamp
  | pDelayResp .., c => (msgUnpackPDelayResp c.msgIbuf).requestReceiptTimestamp
  | pDelayRespFollowUp, c => (msgUnpackPDelayRespFollowUp c.msgIbuf).responseOriginTimestamp

/-- What its local variable or field holds if the timestamp cannot be stored. -/
def stale : TimedMessage → World → TimeInternal
  | delayResp, w => w.timestamp_delayReqRecieve
  | _, w => w.platform.stackTime.head

/-- What is stored of the timestamp. -/
def stored (m : TimedMessage) (w : World) : TimeInternal :=
  toInternalTime (m.stale w) (m.timestamp w.toPtpClock)

/-- The message is taken: an offset or a delay is computed from it, or its time stored for one. -/
def Taken : TimedMessage → PtpClock → Prop
  | sync _ isFromSelf, c =>
    c.portDS.portState.follows ∧ isFromSelf = false ∧ c.isFromCurrentParent ∧ c.isTwoStep = false
  | followUp isFromSelf, c =>
    c.portDS.portState.follows ∧ isFromSelf = false ∧ c.waitingForFollowUp ∧
      c.isFromCurrentParent ∧ c.recvSyncSequenceId = c.msgTmpHeader.sequenceId
  | delayResp, c =>
    c.portDS.delayMechanism = .E2E ∧ c.portDS.portState.follows ∧
      (c.sentDelayReqSequenceId.toNat : Int) - 1 = c.msgTmpHeader.sequenceId.toNat ∧
      isSamePortIdentity c.portDS.portIdentity
        (msgUnpackDelayResp c.msgIbuf).requestingPortIdentity ∧
      c.isFromCurrentParent ∧ c.ofm_filt.n ≠ 0
  | pDelayResp _ isFromSelf, c =>
    c.portDS.delayMechanism = .P2P ∧
      (c.portDS.portState = PTP_MASTER ∨ c.portDS.portState = PTP_SLAVE) ∧ isFromSelf = false ∧
      (c.sentPDelayReqSequenceId.toNat : Int) - 1 = c.msgTmpHeader.sequenceId.toNat ∧
      isSamePortIdentity c.portDS.portIdentity
        (msgUnpackPDelayResp c.msgIbuf).requestingPortIdentity
  | pDelayRespFollowUp, c =>
    c.portDS.delayMechanism = .P2P ∧
      (c.portDS.portState = PTP_SLAVE ∨ c.portDS.portState = PTP_MASTER) ∧
      c.waitingForPDelayRespFollowUp ∧
      (c.msgTmpHeader.sequenceId.toNat : Int) = c.sentPDelayReqSequenceId.toNat - 1

instance (m : TimedMessage) : DecidablePred m.Taken := fun c => by
  cases m <;> unfold Taken <;> infer_instance

end TimedMessage

/-! ## Sums -/

/-- The offset, before it is filtered. -/
def PtpClock.offsetSum (c : PtpClock) (ingress origin correctionField : TimeSum) : TimeSum :=
  let Tms : TimeSum := .sub (.sub ingress origin) correctionField
  match c.subtractedDelay with
  | some delay => .sub Tms (.time delay)
  | none => Tms

namespace TimedMessage

/-- The sum that is made of this time. What is halved is the sum for a delay. -/
def sum : TimedMessage → PtpClock → TimeInternal → TimeSum
  | sync time _, c, stamp => c.offsetSum (.time time) (.time stamp) (.time c.correctionField)
  | followUp _, c, stamp =>
    c.offsetSum (.time c.timestamp_syncRecieve) (.time stamp)
      (.add (.time c.correctionField) (.time c.correctionField_sync))
  | delayResp, c, stamp =>
    .add (.time c.Tms)
      (.sub (.sub (.time stamp) (.time c.timestamp_delayReqSend)) (.time c.correctionField))
  | pDelayResp time _, c, stamp =>
    -- two steps: it is stored; one step: it is not looked at
    if c.isTwoStep then .time stamp
    else .sub (.sub (.time time) (.time c.pdelay_t1)) (.time c.correctionField)
  | pDelayRespFollowUp, c, stamp =>
    .sub
      (.add (.sub (.time c.pdelay_t2) (.time c.pdelay_t1))
        (.sub (.time c.pdelay_t4) (.time stamp)))
      (.add (.time c.correctionField) (.time c.correctionField_pDelayResp))

end TimedMessage

/-- No step of `div2Time` leaves the 32-bit range. -/
def TimeInternal.HalvesIn32 (t : TimeInternal) : Prop :=
  SRange 32 (t.nanoseconds + t.seconds.tmod 2 * 1000000000) ∧
    TimeInternal.NormalizesIn32
      ⟨t.seconds.tdiv 2, (t.nanoseconds + t.seconds.tmod 2 * 1000000000).tdiv 2⟩

/-- Halving a normalized time never does. -/
theorem TimeInternal.Canonical.halvesIn32 {t : TimeInternal} (h : t.Canonical)
    (hsec : SRange 32 t.seconds) : t.HalvesIn32 := by
  obtain ⟨hlo, hhi, hpos, hneg⟩ := h
  have hslo : -2147483648 ≤ t.seconds := hsec.1
  have hshi : t.seconds < 2147483648 := hsec.2
  obtain ⟨hsum, ⟨hrlo, hrhi⟩, hspos, hsneg⟩ := tdiv_split t.seconds (d := 2) (by norm_num)
  obtain ⟨hnsum, ⟨hnlo, hnhi⟩, hnpos, hnneg⟩ :=
    tdiv_split (t.nanoseconds + t.seconds.tmod 2 * 1000000000) (d := 2) (by norm_num)
  unfold TimeInternal.HalvesIn32
  generalize (t.nanoseconds + t.seconds.tmod 2 * 1000000000).tdiv 2 = k at *
  have hk : -1000000000 < k ∧ k < 1000000000 := by omega
  have hcarry := tdiv_second_eq_zero hk.1 hk.2
  refine ⟨⟨by norm_num; omega, by norm_num; omega⟩, ⟨?_, ?_, ?_⟩⟩
  · exact ⟨by norm_num; omega, by norm_num; omega⟩
  · exact ⟨by norm_num; omega, by norm_num; omega⟩
  · dsimp only
    rw [hcarry]
    exact ⟨by norm_num; omega, by norm_num; omega⟩

/-- The time after the filter, which smooths less than a second. -/
def TimeInternal.smoothed (filt : Filter) (t : TimeInternal) : TimeInternal :=
  if 0 ≠ t.seconds then t else { t with nanoseconds := (filter t.nanoseconds filt).1 }

/-- An offset this large makes the servo step the clock. -/
def PtpClock.Steps (c : PtpClock) (offset : TimeInternal) : Prop :=
  (0 ≠ offset.seconds ∨ |offset.nanoseconds| > MAX_ADJ_OFFSET_NS) ∧
    c.servo.noAdjust = false ∧ c.servo.noResetClock = false

instance (c : PtpClock) : DecidablePred c.Steps := fun _ =>
  inferInstanceAs (Decidable ((_ ∨ _) ∧ _ ∧ _))

/-- The time that the clock is stepped to can be computed. -/
def World.StepFits (w : World) (offset : TimeInternal) : Prop :=
  w.Steps offset → (w.platform.time.head.minus offset).NormalizesIn32

instance (w : World) : DecidablePred w.StepFits := fun _ =>
  inferInstanceAs (Decidable (_ → _))

namespace TimedMessage

/-- What is done with the sum: an offset is filtered and may step the clock. -/
def StepFits : TimedMessage → World → TimeInternal → Prop
  | sync .., w, offset | followUp _, w, offset => w.StepFits (offset.smoothed w.ofm_filt)
  | delayResp, _, _ | pDelayResp .., _, _ | pDelayRespFollowUp, _, _ => True

instance (m : TimedMessage) (w : World) : DecidablePred (m.StepFits w) := fun _ => by
  cases m <;> unfold StepFits <;> infer_instance

/-- A delay is halved. -/
def HalfFits : TimedMessage → PtpClock → TimeInternal → Prop
  | sync .., _, _ | followUp _, _, _ => True
  | pDelayResp .., c, roundTrip => c.isTwoStep = false → roundTrip.HalvesIn32
  | delayResp, _, roundTrip | pDelayRespFollowUp, _, roundTrip => roundTrip.HalvesIn32

/-- The arithmetic that the code does with what it stored of the timestamp stays
    within the 32-bit range. -/
structure InRange (m : TimedMessage) (w : World) : Prop where
  sum : (m.sum w.toPtpClock (m.stored w)).Fits
  step : m.StepFits w (m.sum w.toPtpClock (m.stored w)).eval
  half : m.HalfFits w.toPtpClock (m.sum w.toPtpClock (m.stored w)).eval

end TimedMessage

/-! ## The servo -/

/-- The calls that measure, keep a time for a measurement, or drive the hardware clock. -/
def Call.servo : Call → Prop
  | .updateOffset .. | .updateDelay .. | .updatePeerDelay .. | .acceptPDelayResp _ | .adjFreq _
  | .setTime _ => True
  | _ => False

/-- Nothing is measured or kept for a measurement, and the hardware clock is left alone. -/
structure ServoKept (w w' : World) : Prop where
  Tms : w'.Tms = w.Tms
  offsetFromMaster : w'.currentDS.offsetFromMaster = w.currentDS.offsetFromMaster
  meanPathDelay : w'.currentDS.meanPathDelay = w.currentDS.meanPathDelay
  peerMeanPathDelay : w'.portDS.peerMeanPathDelay = w.portDS.peerMeanPathDelay
  pdelay_t2 : w'.pdelay_t2 = w.pdelay_t2
  ofm_filt : w'.ofm_filt = w.ofm_filt
  owd_filt : w'.owd_filt = w.owd_filt
  calls : Grows (fun call => ¬ call.servo) w w'

variable {w w' w'' : World}

theorem ServoKept.refl (w : World) : ServoKept w w := ⟨rfl, rfl, rfl, rfl, rfl, rfl, rfl, .refl w⟩

theorem ServoKept.trans (h : ServoKept w w') (h' : ServoKept w' w'') : ServoKept w w'' :=
  ⟨h'.Tms.trans h.Tms, h'.offsetFromMaster.trans h.offsetFromMaster,
    h'.meanPathDelay.trans h.meanPathDelay, h'.peerMeanPathDelay.trans h.peerMeanPathDelay,
    h'.pdelay_t2.trans h.pdelay_t2, h'.ofm_filt.trans h.ofm_filt, h'.owd_filt.trans h.owd_filt,
    h.calls.trans h'.calls⟩

theorem timerUpdate_servoKept (w : World) : ServoKept w (timerUpdate w) := by
  unfold timerUpdate
  dsimp only
  split
  · exact ⟨rfl, rfl, rfl, rfl, rfl, rfl, rfl, .of_eq rfl⟩
  · exact ⟨rfl, rfl, rfl, rfl, rfl, rfl, rfl, .of_eq rfl⟩

theorem takeExpire_servoKept (i : Timer) (w : World) : ServoKept w (takeExpire i w).2 := by
  unfold takeExpire
  split
  · exact .refl w
  · exact ⟨rfl, rfl, rfl, rfl, rfl, rfl, rfl, .of_eq rfl⟩

theorem timerExpired_servoKept (i : Timer) (w : World) : ServoKept w (timerExpired i w).2 :=
  (timerUpdate_servoKept w).trans (takeExpire_servoKept i _)

theorem issueDelayReq_servoKept (w : World) : ServoKept w (issueDelayReq w) := by
  have hissue : ServoKept w w.delayReqIssued := by
    refine ⟨rfl, rfl, rfl, rfl, rfl, rfl, rfl, ?_⟩
    exact .cons (x := w.popTime.popTimestamp.issued .event .ptp
      (.delayReq (w.popTime.external w.platform.time.head)) DELAY_REQ_LENGTH) id rfl
  rw [issueDelayReq_eq]
  dsimp only
  split
  · exact hissue.trans ⟨rfl, rfl, rfl, rfl, rfl, rfl, rfl, .of_eq rfl⟩
  · exact hissue

theorem issuePDelayReq_servoKept (w : World) : ServoKept w (issuePDelayReq w) := by
  have hissue : ServoKept w w.pDelayReqIssued := by
    refine ⟨rfl, rfl, rfl, rfl, rfl, rfl, rfl, ?_⟩
    refine ((Grows.record w .issuePDelayReq id).trans ?_)
    exact .cons (x := (w.record .issuePDelayReq).popTime.popTimestamp.issued .event .peer
      (.pDelayReq ((w.record .issuePDelayReq).popTime.external w.platform.time.head))
      PDELAY_REQ_LENGTH) id rfl
  rw [issuePDelayReq_eq]
  dsimp only
  split
  · exact hissue.trans ⟨rfl, rfl, rfl, rfl, rfl, rfl, rfl, .of_eq rfl⟩
  · exact hissue

theorem timerStartRand_servoKept (i : Timer) (randMax : Int) (w : World) :
    ServoKept w (timerStartRand i randMax w) := ⟨rfl, rfl, rfl, rfl, rfl, rfl, rfl, .of_eq rfl⟩

theorem branch_servoKept {call : Bool × World} {f : World → World} (h : ServoKept w call.2)
    (hf : ∀ w, ServoKept w (f w)) : ServoKept w (branch f id call) := by
  unfold branch
  split
  · exact h.trans (hf _)
  · exact h

theorem ifExpired_servoKept (i : Timer) {f : World → World} (w : World)
    (hf : ∀ w, ServoKept w (f w)) : ServoKept w (ifExpired i f id w) :=
  branch_servoKept (timerExpired_servoKept i w) hf

/-- A request measures nothing before it is answered. -/
theorem issueDelayReqTimerExpired_servoKept (w : World) :
    ServoKept w (issueDelayReqTimerExpired w) := by
  unfold issueDelayReqTimerExpired
  split
  · split
    · exact .refl w
    · exact ifExpired_servoKept _ w
        fun w => (timerStartRand_servoKept _ _ w).trans (issueDelayReq_servoKept _)
  · exact ifExpired_servoKept _ w
      fun w => (timerStartRand_servoKept _ _ w).trans (issuePDelayReq_servoKept _)
  · exact .refl w

/-! ## What the handlers do -/

/-- A call of the servo was made. -/
def RunsServo (w w' : World) : Prop :=
  ∃ x new older, x.call.servo ∧ w'.log = new ++ x :: (older ++ w.log)

theorem RunsServo.log_eq (h : RunsServo w w') (hlog : ∃ new, w''.log = new ++ w'.log) :
    RunsServo w w'' := by
  obtain ⟨x, new, older, hx, heq⟩ := h
  obtain ⟨new', heq'⟩ := hlog
  exact ⟨x, new' ++ new, older, hx, by rw [heq', heq, List.append_assoc]⟩

/-- That is a change, whatever the servo computes. -/
theorem RunsServo.not_servoKept (h : RunsServo w w') : ¬ ServoKept w w' := by
  intro hkept
  obtain ⟨x, new, older, hx, hlog⟩ := h
  obtain ⟨new', hlog', hnew⟩ := hkept.calls
  -- both say what was logged since, and one has the call
  have heq : new' = new ++ x :: older := by
    have happend : new' ++ w.log = (new ++ x :: older) ++ w.log := by
      rw [← hlog', hlog, List.append_assoc]
      rfl
    exact List.append_cancel_right happend
  exact hnew x (by rw [heq]; simp) hx

theorem updateOffset_runsServo (i o f : TimeInternal)
    (hlog : ∃ older, w'.log = older ++ w.log) : RunsServo w (updateOffset i o f w') := by
  obtain ⟨older, hlog⟩ := hlog
  unfold updateOffset
  dsimp only
  generalize hw₁ : ({ w'.record (.updateOffset i o f) with
    Tms := _, currentDS.offsetFromMaster := _ } : World) = w₁
  obtain ⟨new, hnew, -⟩ := (filterOffset_quiet w₁).grows
  have hrecord : w₁.log = ⟨.updateOffset i o f, w'.toPtpClock⟩ :: w'.log := hw₁ ▸ rfl
  exact ⟨⟨.updateOffset i o f, w'.toPtpClock⟩, new, older, trivial, by rw [hnew, hrecord, hlog]⟩

theorem updateDelay_runsServo (e r f : TimeInternal) (hn : w'.ofm_filt.n ≠ 0)
    (hlog : ∃ older, w'.log = older ++ w.log) : RunsServo w (updateDelay e r f w') := by
  obtain ⟨older, hlog⟩ := hlog
  unfold updateDelay
  rw [if_neg (Ne.symm hn)]
  dsimp only
  generalize hw₁ : ({ w'.record (.updateDelay e r f) with
    Tsm := _, currentDS.meanPathDelay := _ } : World) = w₁
  obtain ⟨new, hnew, -⟩ := (filterDelay_quiet w₁).grows
  have hrecord : w₁.log = ⟨.updateDelay e r f, w'.toPtpClock⟩ :: w'.log := hw₁ ▸ rfl
  exact ⟨⟨.updateDelay e r f, w'.toPtpClock⟩, new, older, trivial, by rw [hnew, hrecord, hlog]⟩

theorem updatePeerDelay_runsServo (f : TimeInternal) (twoStep : Bool)
    (hlog : ∃ older, w'.log = older ++ w.log) : RunsServo w (updatePeerDelay f twoStep w') := by
  obtain ⟨older, hlog⟩ := hlog
  unfold updatePeerDelay
  dsimp only
  generalize hw₁ : ({ w'.record (.updatePeerDelay f twoStep) with
    portDS.peerMeanPathDelay := _ } : World) = w₁
  obtain ⟨new, hnew, -⟩ := (filterPeerDelay_quiet w₁).grows
  have hrecord : w₁.log = ⟨.updatePeerDelay f twoStep, w'.toPtpClock⟩ :: w'.log := hw₁ ▸ rfl
  exact ⟨⟨.updatePeerDelay f twoStep, w'.toPtpClock⟩, new, older, trivial,
    by rw [hnew, hrecord, hlog]⟩

/-! ### Messages that are not taken -/

theorem handleSync_servoKept {time : TimeInternal} {isFromSelf : Bool}
    (hlength : (SYNC_LENGTH : Int) ≤ w.msgIbufLength)
    (h : ¬ (TimedMessage.sync time isFromSelf).Taken w.toPtpClock) :
    ServoKept w (handleSync time isFromSelf w) := by
  have hlong : ¬ w.msgIbufLength < (SYNC_LENGTH : Int) := not_lt.mpr hlength
  have htwoStep : ServoKept w (acceptTwoStepSync time w) :=
    ⟨rfl, rfl, rfl, rfl, rfl, rfl, rfl, .cons (x := ⟨.acceptSync time, w.toPtpClock⟩) id rfl⟩
  unfold handleSync
  rw [if_neg hlong]
  cases hport : w.portDS.portState
  case PTP_PASSIVE => exact issueDelayReqTimerExpired_servoKept w
  case PTP_UNCALIBRATED | PTP_SLAVE =>
    have hfollows : w.portDS.portState.follows = true := by
      rw [hport]
      rfl
    dsimp only
    split
    · exact .refl w
    · next hself =>
      split
      · exact .refl w
      · next hparent =>
        split
        · exact htwoStep
        · next hstep =>
          exact absurd ⟨hfollows, by simpa using hself, by simpa using hparent,
            by simpa using hstep⟩ h
  all_goals exact .refl w

theorem handleFollowUp_servoKept {isFromSelf : Bool}
    (hlength : (FOLLOW_UP_LENGTH : Int) ≤ w.msgIbufLength)
    (h : ¬ (TimedMessage.followUp isFromSelf).Taken w.toPtpClock) :
    ServoKept w (handleFollowUp isFromSelf w) := by
  have hlong : ¬ w.msgIbufLength < (FOLLOW_UP_LENGTH : Int) := not_lt.mpr hlength
  unfold handleFollowUp
  rw [if_neg hlong]
  split
  · exact .refl w
  · next hself =>
    cases hport : w.portDS.portState
    case PTP_PASSIVE => exact issueDelayReqTimerExpired_servoKept w
    case PTP_UNCALIBRATED | PTP_SLAVE =>
      have hfollows : w.portDS.portState.follows = true := by
        rw [hport]
        rfl
      dsimp only
      split
      · exact .refl w
      · next hwait =>
        split
        · exact .refl w
        · next hparent =>
          split
          · exact .refl w
          · next hseq =>
            exact absurd ⟨hfollows, by simpa using hself, by simpa using hwait,
              by simpa using hparent, by simpa using hseq⟩ h
    all_goals exact .refl w

/-- A Delay_Resp before the first offset is stored only. -/
theorem acceptDelayResp_servoKept (h : w.ofm_filt.n = 0) : ServoKept w (acceptDelayResp w) := by
  have hstored : ServoKept w (storeDelayResp (w.record .acceptDelayResp)) :=
    ⟨rfl, rfl, rfl, rfl, rfl, rfl, rfl, .cons (x := ⟨.acceptDelayResp, w.toPtpClock⟩) id rfl⟩
  have hsamples : 0 = (storeDelayResp (w.record .acceptDelayResp)).ofm_filt.n := h.symm
  unfold acceptDelayResp updateDelay
  dsimp only
  rw [if_pos hsamples]
  exact hstored.trans ⟨rfl, rfl, rfl, rfl, rfl, rfl, rfl, .of_eq rfl⟩

theorem handleDelayResp_servoKept (hlength : (DELAY_RESP_LENGTH : Int) ≤ w.msgIbufLength)
    (h : ¬ TimedMessage.delayResp.Taken w.toPtpClock) : ServoKept w (handleDelayResp w) := by
  have hlong : ¬ w.msgIbufLength < (DELAY_RESP_LENGTH : Int) := not_lt.mpr hlength
  unfold handleDelayResp
  split
  · next hmech =>
    rw [if_neg hlong]
    cases hport : w.portDS.portState
    case PTP_UNCALIBRATED | PTP_SLAVE =>
      have hfollows : w.portDS.portState.follows = true := by
        rw [hport]
        rfl
      dsimp only
      split
      · next hresp =>
        refine acceptDelayResp_servoKept ?_
        by_contra hsamples
        exact h ⟨hmech, hfollows, hresp.1, hresp.2.1, hresp.2.2, hsamples⟩
      · exact .refl w
    all_goals exact .refl w
  all_goals exact .refl w

theorem handlePDelayResp_servoKept {time : TimeInternal} {isFromSelf : Bool}
    (hlength : (PDELAY_RESP_LENGTH : Int) ≤ w.msgIbufLength)
    (h : ¬ (TimedMessage.pDelayResp time isFromSelf).Taken w.toPtpClock) :
    ServoKept w (handlePDelayResp time isFromSelf w) := by
  have hlong : ¬ w.msgIbufLength < (PDELAY_RESP_LENGTH : Int) := not_lt.mpr hlength
  unfold handlePDelayResp
  split
  · next hmech =>
    rw [if_neg hlong]
    cases hport : w.portDS.portState
    case PTP_MASTER | PTP_SLAVE =>
      have hrole : w.portDS.portState = PTP_MASTER ∨ w.portDS.portState = PTP_SLAVE := by
        simp [hport]
      dsimp only
      split
      · exact .refl w
      · next hself =>
        split
        · next hresp => exact absurd ⟨hmech, hrole, by simpa using hself, hresp.1, hresp.2⟩ h
        · exact .refl w
    all_goals exact .refl w
  all_goals exact .refl w

theorem handlePDelayRespFollowUp_servoKept
    (hlength : (PDELAY_RESP_FOLLOW_UP_LENGTH : Int) ≤ w.msgIbufLength)
    (h : ¬ TimedMessage.pDelayRespFollowUp.Taken w.toPtpClock) :
    ServoKept w (handlePDelayRespFollowUp w) := by
  have hlong : ¬ w.msgIbufLength < (PDELAY_RESP_FOLLOW_UP_LENGTH : Int) := not_lt.mpr hlength
  unfold handlePDelayRespFollowUp
  split
  · next hmech =>
    rw [if_neg hlong]
    cases hport : w.portDS.portState
    case PTP_SLAVE | PTP_MASTER =>
      have hrole : w.portDS.portState = PTP_SLAVE ∨ w.portDS.portState = PTP_MASTER := by
        simp [hport]
      dsimp only
      split
      · exact .refl w
      · next hwait =>
        split
        · next hseq => exact absurd ⟨hmech, hrole, by simpa using hwait, hseq⟩ h
        · exact .refl w
    all_goals exact .refl w
  all_goals exact .refl w

/-- A message that is not taken leaves the servo as it is. -/
theorem TimedMessage.servoKept_of_not_taken {m : TimedMessage}
    (hlength : (m.length : Int) ≤ w.msgIbufLength) (h : ¬ m.Taken w.toPtpClock) :
    ServoKept w (m.handle w) := by
  cases m with
  | sync time isFromSelf => exact handleSync_servoKept hlength h
  | followUp isFromSelf => exact handleFollowUp_servoKept hlength h
  | delayResp => exact handleDelayResp_servoKept hlength h
  | pDelayResp time isFromSelf => exact handlePDelayResp_servoKept hlength h
  | pDelayRespFollowUp => exact handlePDelayRespFollowUp_servoKept hlength h

/-! ### Messages that are taken -/

/-- The handler of a message that is taken. -/
def TimedMessage.accept : TimedMessage → World → World
  | .sync time _ => acceptOneStepSync time
  | .followUp _ => acceptFollowUp
  | .delayResp => acceptDelayResp
  | .pDelayResp time _ => fun w =>
    if w.isTwoStep then acceptTwoStepPDelayResp time w else acceptOneStepPDelayResp time w
  | .pDelayRespFollowUp => acceptPDelayRespFollowUp

theorem TimedMessage.handle_taken {m : TimedMessage} (hlength : (m.length : Int) ≤ w.msgIbufLength)
    (h : m.Taken w.toPtpClock) : m.handle w = m.accept w := by
  have hlong : ¬ w.msgIbufLength < (m.length : Int) := not_lt.mpr hlength
  have hfollows : ∀ {s : PortState}, s.follows = true → s = PTP_UNCALIBRATED ∨ s = PTP_SLAVE := by
    intro s hs
    cases s <;> simp_all [PortState.follows]
  cases m with
  | sync time isFromSelf =>
    obtain ⟨hport, hself, hparent, hstep⟩ := h
    refine (if_neg hlong).trans ?_
    rcases hfollows hport with hport | hport <;> simp [hport, hself, hparent, hstep, accept]
  | followUp isFromSelf =>
    obtain ⟨hport, hself, hwait, hparent, hseq⟩ := h
    refine (if_neg hlong).trans ?_
    rcases hfollows hport with hport | hport <;>
      simp [hport, hself, hwait, hparent, hseq, accept]
  | delayResp =>
    obtain ⟨hmech, hport, hseq, hrequest, hparent, -⟩ := h
    have hhandle : handleDelayResp w = acceptDelayResp w := by
      unfold handleDelayResp
      rw [hmech]
      refine (if_neg hlong).trans ?_
      rcases hfollows hport with hport | hport <;> rw [hport] <;>
        exact if_pos ⟨hseq, hrequest, hparent⟩
    exact hhandle
  | pDelayResp time isFromSelf =>
    obtain ⟨hmech, hrole, hself, hseq, hrequest⟩ := h
    have hhandle : handlePDelayResp time isFromSelf w =
        if w.isTwoStep then acceptTwoStepPDelayResp time w else acceptOneStepPDelayResp time w := by
      unfold handlePDelayResp
      rw [hmech]
      refine (if_neg hlong).trans ?_
      rcases hrole with hport | hport <;> rw [hport] <;> simp [hself, hseq, hrequest]
    exact hhandle
  | pDelayRespFollowUp =>
    obtain ⟨hmech, hrole, hwait, hseq⟩ := h
    have hhandle : handlePDelayRespFollowUp w = acceptPDelayRespFollowUp w := by
      unfold handlePDelayRespFollowUp
      rw [hmech]
      refine (if_neg hlong).trans ?_
      rcases hrole with hport | hport <;> rw [hport] <;> simp [hwait, hseq]
    exact hhandle

theorem acceptOneStepSync_runsServo (time : TimeInternal) (w : World) :
    RunsServo w (acceptOneStepSync time w) := by
  unfold acceptOneStepSync
  dsimp only
  refine RunsServo.log_eq ?_ (followOffset_run _).log_eq
  exact updateOffset_runsServo _ _ _ ⟨[], rfl⟩

theorem acceptFollowUp_runsServo (w : World) : RunsServo w (acceptFollowUp w) := by
  unfold acceptFollowUp
  dsimp only
  refine RunsServo.log_eq ?_ (followOffset_run _).log_eq
  exact updateOffset_runsServo _ _ _ ⟨[], rfl⟩

theorem acceptDelayResp_runsServo (hn : w.ofm_filt.n ≠ 0) : RunsServo w (acceptDelayResp w) := by
  unfold acceptDelayResp
  dsimp only
  refine RunsServo.log_eq ?_ ⟨[], rfl⟩
  exact updateDelay_runsServo _ _ _ hn ⟨[⟨.acceptDelayResp, w.toPtpClock⟩], rfl⟩

theorem acceptTwoStepPDelayResp_runsServo (time : TimeInternal) (w : World) :
    RunsServo w (acceptTwoStepPDelayResp time w) :=
  ⟨⟨.acceptPDelayResp time, w.toPtpClock⟩, [], [], trivial, rfl⟩

theorem acceptOneStepPDelayResp_runsServo (time : TimeInternal) (w : World) :
    RunsServo w (acceptOneStepPDelayResp time w) := by
  unfold acceptOneStepPDelayResp
  dsimp only
  exact updatePeerDelay_runsServo _ _ ⟨[⟨.acceptPDelayResp time, w.toPtpClock⟩], rfl⟩

theorem acceptPDelayRespFollowUp_runsServo (w : World) :
    RunsServo w (acceptPDelayRespFollowUp w) := by
  unfold acceptPDelayRespFollowUp
  dsimp only
  refine RunsServo.log_eq ?_ ⟨[], rfl⟩
  exact updatePeerDelay_runsServo _ _ ⟨[⟨.acceptPDelayRespFollowUp, w.toPtpClock⟩], rfl⟩

/-- A message that is taken runs the servo. -/
theorem TimedMessage.runsServo_of_taken {m : TimedMessage}
    (hlength : (m.length : Int) ≤ w.msgIbufLength) (h : m.Taken w.toPtpClock) :
    RunsServo w (m.handle w) := by
  rw [handle_taken hlength h]
  cases m with
  | sync time isFromSelf => exact acceptOneStepSync_runsServo time w
  | followUp isFromSelf => exact acceptFollowUp_runsServo w
  | delayResp => exact acceptDelayResp_runsServo h.2.2.2.2.2
  | pDelayResp time isFromSelf =>
    unfold accept
    dsimp only
    split
    · exact acceptTwoStepPDelayResp_runsServo time w
    · exact acceptOneStepPDelayResp_runsServo time w
  | pDelayRespFollowUp => exact acceptPDelayRespFollowUp_runsServo w

/-! ## What is computed -/

theorem smoothed_whole {t : TimeInternal} (h : 0 ≠ t.seconds) (filt : Filter) :
    t.smoothed filt = t := if_pos h

theorem smoothed_fraction {t : TimeInternal} (h : ¬ 0 ≠ t.seconds) (filt : Filter) :
    t.smoothed filt = { t with nanoseconds := (filter t.nanoseconds filt).1 } := if_neg h

theorem synchronizationFault_currentDS (w : World) :
    (synchronizationFault w).currentDS = w.currentDS := by
  unfold synchronizationFault
  split <;> rfl

theorem offsetEvents_currentDS (w : World) : (offsetEvents w).currentDS = w.currentDS := by
  unfold offsetEvents
  split
  · split <;> rfl
  · split
    · exact synchronizationFault_currentDS w
    · rfl

theorem filterOffset_value (w : World) :
    (filterOffset w).currentDS.offsetFromMaster =
      w.currentDS.offsetFromMaster.smoothed w.ofm_filt := by
  have hset : ∀ filtered (w : World), (setFilteredOffset filtered w).currentDS.offsetFromMaster =
      { w.currentDS.offsetFromMaster with nanoseconds := filtered.1 } := fun _ _ => rfl
  unfold filterOffset
  dsimp only
  split
  · next hsec =>
    rw [synchronizationFault_currentDS]
    exact (smoothed_whole hsec _).symm
  · next hsec =>
    rw [offsetEvents_currentDS]
    exact (hset _ _).trans (smoothed_fraction hsec _).symm

/-- `updateOffset` computes and filters the sum for the offset. -/
theorem updateOffset_value (i o f : TimeSum) (w : World) :
    (updateOffset i.eval o.eval f.eval w).currentDS.offsetFromMaster =
      (w.offsetSum i o f).eval.smoothed w.ofm_filt := by
  have hsum : (w.offsetSum i o f).eval =
      match w.subtractedDelay with
      | some delay => subTime (subTime (subTime i.eval o.eval) f.eval) delay
      | none => subTime (subTime i.eval o.eval) f.eval := by
    unfold PtpClock.offsetSum
    cases w.subtractedDelay <;> rfl
  unfold updateOffset
  dsimp only
  rw [filterOffset_value, hsum]
  rfl

theorem filterDelay_value (w : World) :
    (filterDelay w).currentDS.meanPathDelay = w.currentDS.meanPathDelay.smoothed w.owd_filt := by
  have hset : ∀ filtered (w : World), (setFilteredDelay filtered w).currentDS.meanPathDelay =
      { w.currentDS.meanPathDelay with nanoseconds := filtered.1 } := fun _ _ => rfl
  unfold filterDelay
  dsimp only
  split
  · next hsec => exact (smoothed_whole hsec _).symm
  · next hsec => exact (hset _ _).trans (smoothed_fraction hsec _).symm

/-- `updateDelay` halves and filters the sum for the delay. -/
theorem updateDelay_value (e r f : TimeInternal) {w : World} (hn : w.ofm_filt.n ≠ 0) :
    (updateDelay e r f w).currentDS.meanPathDelay =
      (div2Time (addTime w.Tms (subTime (subTime r e) f))).smoothed w.owd_filt := by
  unfold updateDelay
  rw [if_neg (Ne.symm hn)]
  dsimp only
  rw [filterDelay_value]
  rfl

theorem filterPeerDelay_value (w : World) :
    (filterPeerDelay w).portDS.peerMeanPathDelay =
      w.portDS.peerMeanPathDelay.smoothed w.owd_filt := by
  have hset : ∀ filtered (w : World), (setFilteredPeerDelay filtered w).portDS.peerMeanPathDelay =
      { w.portDS.peerMeanPathDelay with nanoseconds := filtered.1 } := fun _ _ => rfl
  unfold filterPeerDelay
  dsimp only
  split
  · next hsec => exact (smoothed_whole hsec _).symm
  · next hsec => exact (hset _ _).trans (smoothed_fraction hsec _).symm

theorem updatePeerDelay_value (f : TimeInternal) (twoStep : Bool) (w : World) :
    (updatePeerDelay f twoStep w).portDS.peerMeanPathDelay =
      (div2Time (subTime (w.peerRoundTrip twoStep) f)).smoothed w.owd_filt := by
  unfold updatePeerDelay
  dsimp only
  rw [filterPeerDelay_value]
  rfl

theorem freeAll_currentDS (freed : List Pbuf) (w : World) :
    (freeAll freed w).currentDS = w.currentDS := by
  induction freed generalizing w with
  | nil => rfl
  | cons p freed ih => exact ih (w.record (.pbuf_free p))

theorem initClock_currentDS (w : World) : (initClock w).currentDS = w.currentDS := by
  have hdata : (initClockData w).currentDS = w.currentDS := rfl
  unfold initClock
  generalize initClockData w = w₁ at hdata ⊢
  dsimp only
  split
  · exact (freeAll_currentDS _ _).trans hdata
  · exact (freeAll_currentDS _ _).trans hdata

/-- The offset survives the adjustment of the clock. -/
theorem followOffset_value (w : World) :
    (followOffset w).currentDS.offsetFromMaster = w.currentDS.offsetFromMaster := by
  have hclock : (updateClock w).currentDS = w.currentDS := by
    unfold updateClock
    split
    · split
      · split
        · exact initClock_currentDS _
        · rfl
      · rfl
    · dsimp only
      split <;> rfl
  exact (issueDelayReqTimerExpired_servoKept _).offsetFromMaster.trans
    (congrArg CurrentDS.offsetFromMaster hclock)

/-- The clock is stepped to the time that is now, less the offset. -/
theorem updateClock_of_steps (h : w.Steps w.currentDS.offsetFromMaster) :
    updateClock w = initClock (setTime
      (subTime w.platform.time.head w.currentDS.offsetFromMaster) (getTime w).2) := by
  obtain ⟨hrange, hadjust, hreset⟩ := h
  have hout : w.outOfRange = true := by
    unfold PtpClock.outOfRange
    rw [Bool.or_eq_true, decide_eq_true_eq, decide_eq_true_eq]
    exact hrange
  unfold updateClock
  rw [if_pos hout, hadjust, hreset]
  rfl

namespace TimedMessage

/-- What the handler stores last, by the clock that the message finds. -/
def result : TimedMessage → PtpClock → PtpClock → TimeInternal
  | sync .., _, c' | followUp _, _, c' => c'.currentDS.offsetFromMaster
  | delayResp, _, c' => c'.currentDS.meanPathDelay
  | pDelayResp .., c, c' => if c.isTwoStep then c'.pdelay_t2 else c'.portDS.peerMeanPathDelay
  | pDelayRespFollowUp, _, c' => c'.portDS.peerMeanPathDelay

/-- The result that is computed from the value of the sum. -/
def finish : TimedMessage → PtpClock → TimeInternal → TimeInternal
  | sync .., c, offset | followUp _, c, offset => offset.smoothed c.ofm_filt
  | pDelayResp .., c, time =>
    if c.isTwoStep then time else (div2Time time).smoothed c.owd_filt
  | delayResp, c, roundTrip | pDelayRespFollowUp, c, roundTrip =>
    (div2Time roundTrip).smoothed c.owd_filt

/-- The sum is what the code computes from a message that is taken. -/
theorem handle_result {m : TimedMessage} (hlength : (m.length : Int) ≤ w.msgIbufLength)
    (h : m.Taken w.toPtpClock) :
    m.result w.toPtpClock (m.handle w).toPtpClock =
      m.finish w.toPtpClock (m.sum w.toPtpClock (m.stored w)).eval := by
  rw [handle_taken hlength h]
  cases m with
  | sync time isFromSelf =>
    exact (followOffset_value _).trans (updateOffset_value (.time _) (.time _) (.time _) _)
  | followUp isFromSelf =>
    exact (followOffset_value _).trans
      (updateOffset_value (.time _) (.time _) (.add (.time _) (.time _)) _)
  | delayResp => exact updateDelay_value _ _ _ h.2.2.2.2.2
  | pDelayResp time isFromSelf =>
    unfold accept result finish sum
    dsimp only
    split
    · rfl
    · exact updatePeerDelay_value _ _ _
  | pDelayRespFollowUp => exact updatePeerDelay_value _ _ _

end TimedMessage

/-- What decides on a step of the clock. -/
def World.stepSetting (w : World) : Platform × Servo := (w.platform, w.servo)

theorem synchronizationFault_stepSetting (w : World) :
    (synchronizationFault w).stepSetting = w.stepSetting := by
  unfold synchronizationFault
  split <;> rfl

theorem offsetEvents_stepSetting (w : World) :
    (offsetEvents w).stepSetting = w.stepSetting := by
  unfold offsetEvents
  split
  · split <;> rfl
  · split
    · exact synchronizationFault_stepSetting w
    · rfl

theorem filterOffset_stepSetting (w : World) :
    (filterOffset w).stepSetting = w.stepSetting := by
  have hset : ∀ filtered (w : World), (setFilteredOffset filtered w).stepSetting = w.stepSetting :=
    fun _ _ => rfl
  have hrecord : ∀ call (w : World), (w.record call).stepSetting = w.stepSetting :=
    fun _ _ => rfl
  unfold filterOffset
  dsimp only
  split
  · exact (synchronizationFault_stepSetting _).trans (hrecord _ _)
  · exact ((offsetEvents_stepSetting _).trans (hrecord _ _)).trans
      ((hset _ _).trans (hrecord _ _))

/-- The clock is stepped from the time that the message found, if at all. -/
theorem updateOffset_stepSetting (i o f : TimeInternal) (w : World) :
    (updateOffset i o f w).stepSetting = w.stepSetting := by
  unfold updateOffset
  dsimp only
  exact (filterOffset_stepSetting _).trans rfl

/-- A step of the clock is recorded with the time that it is stepped to. -/
theorem followOffset_steps (h : w.Steps w.currentDS.offsetFromMaster) :
    ∃ x ∈ (followOffset w).log, x.call =
      .setTime (subTime w.platform.time.head w.currentDS.offsetFromMaster) := by
  obtain ⟨new, hinit, -⟩ := initClock_grows (setTime
    (subTime w.platform.time.head w.currentDS.offsetFromMaster) (getTime w).2)
  -- the request behind it only adds to the log
  obtain ⟨new', hrequest⟩ := (issueDelayReqTimerExpired_run (updateClock w)).log_eq
  have hlog : (followOffset w).log = new' ++ (updateClock w).log := hrequest
  refine ⟨⟨.setTime (subTime w.platform.time.head w.currentDS.offsetFromMaster),
    (getTime w).2.toPtpClock⟩, ?_, rfl⟩
  rw [hlog, updateClock_of_steps h, hinit]
  exact List.mem_append_right _ (List.mem_append_right _ List.mem_cons_self)

/-- So is the step that an offset of this size makes. -/
theorem updateOffset_steps (i o f : TimeSum) {w : World}
    (h : w.Steps ((w.offsetSum i o f).eval.smoothed w.ofm_filt)) :
    ∃ x ∈ (followOffset (updateOffset i.eval o.eval f.eval w)).log, x.call =
      .setTime (subTime w.platform.time.head
        ((w.offsetSum i o f).eval.smoothed w.ofm_filt)) := by
  have hvalue := updateOffset_value i o f w
  have hsetting := updateOffset_stepSetting i.eval o.eval f.eval w
  generalize updateOffset i.eval o.eval f.eval w = w₁ at hvalue hsetting ⊢
  have hplatform : w₁.platform = w.platform := congrArg Prod.fst hsetting
  have hservo : w₁.servo = w.servo := congrArg Prod.snd hsetting
  rw [← hvalue] at h ⊢
  rw [← hplatform]
  refine followOffset_steps ?_
  unfold PtpClock.Steps at h ⊢
  rw [hservo]
  exact h

/-! ## Main result -/

namespace TimedMessage

/-- Either the timestamp can be held, and all arithmetic done with it stays within
    the 32-bit range, or the message changes nothing of the servo. -/
def Safe (m : TimedMessage) (w : World) : Prop :=
  ((m.timestamp w.toPtpClock).Representable ∧ m.InRange w) ∨ ServoKept w (m.handle w)

/-- The timestamp can be held, and the exact sums made of it fit. -/
structure Admissible (m : TimedMessage) (w : World) : Prop where
  representable : (m.timestamp w.toPtpClock).Representable
  sum : (m.sum w.toPtpClock (m.timestamp w.toPtpClock).internal).Within
  step : m.StepFits w (m.sum w.toPtpClock (m.timestamp w.toPtpClock).internal).exact

instance (m : TimedMessage) : DecidablePred m.Admissible := fun _ =>
  decidable_of_iff (_ ∧ _ ∧ _) ⟨fun ⟨h₁, h₂, h₃⟩ => ⟨h₁, h₂, h₃⟩, fun ⟨h₁, h₂, h₃⟩ => ⟨h₁, h₂, h₃⟩⟩

/-- The sum for a delay is normalized, so that halving it never overflows. -/
theorem sum_halfFits (m : TimedMessage) (c : PtpClock) (t : TimeInternal) :
    m.HalfFits c (m.sum c t).eval := by
  cases m with
  | sync time isFromSelf => trivial
  | followUp isFromSelf => trivial
  | delayResp => exact (addTime_canonical _ _).halvesIn32 (normalizeTime_seconds _)
  | pDelayResp time isFromSelf =>
    intro hstep
    unfold sum
    dsimp only
    rw [hstep]
    exact (subTime_canonical _ _).halvesIn32 (normalizeTime_seconds _)
  | pDelayRespFollowUp => exact (subTime_canonical _ _).halvesIn32 (normalizeTime_seconds _)

theorem inRange_iff {m : TimedMessage} (h : (m.timestamp w.toPtpClock).Representable) :
    m.InRange w ↔ m.Admissible w := by
  -- what is stored is the time itself, so that both speak of one sum
  have hstored : m.stored w = (m.timestamp w.toPtpClock).internal :=
    toInternalTime_representable h _
  constructor
  · intro hrange
    have hsum := hrange.sum
    have hstep := hrange.step
    rw [hstored] at hsum hstep
    have hwithin := (TimeSum.fits_iff_within _).mp hsum
    exact ⟨h, hwithin, TimeSum.eval_eq_exact hwithin ▸ hstep⟩
  · intro hadmissible
    refine ⟨?_, ?_, sum_halfFits m _ _⟩
    · rw [hstored]
      exact (TimeSum.fits_iff_within _).mpr hadmissible.sum
    · rw [hstored, TimeSum.eval_eq_exact hadmissible.sum]
      exact hadmissible.step

/-- A message is safe exactly if it is not taken, or carries a time that can be
    held and exact sums that fit. -/
theorem safe_iff (m : TimedMessage) (w : World) (hlength : (m.length : Int) ≤ w.msgIbufLength) :
    m.Safe w ↔ (m.Taken w.toPtpClock → m.Admissible w) := by
  constructor
  · rintro (⟨hrep, hrange⟩ | hkept) htaken
    · exact (inRange_iff hrep).mp hrange
    -- a message that is taken changes the servo
    · exact absurd hkept (runsServo_of_taken hlength htaken).not_servoKept
  · intro hadmissible
    by_cases htaken : m.Taken w.toPtpClock
    · have hadm := hadmissible htaken
      exact .inl ⟨hadm.representable, (inRange_iff hadm.representable).mpr hadm⟩
    · exact .inr (servoKept_of_not_taken hlength htaken)

end TimedMessage

/-- A board that follows clock 9, with a Sync of clock 9 at hand. -/
def syncedAt (seconds : List UInt8) : World :=
  (sampleRun .E2E [.doState, sampleAnnounce 9 200 1, .doState, .doState]).holding
    (sampleMessage .SYNC 0 9 1 (seconds ++ [0, 0, 0, 0]))

theorem safe_iff_ordinary :
    (TimedMessage.sync ⟨101, 0⟩ false).Safe (syncedAt [0, 0, 0, 0, 0, 100]) :=
  (TimedMessage.safe_iff (.sync ⟨101, 0⟩ false) (syncedAt [0, 0, 0, 0, 0, 100])
    (by decide +kernel)).mpr (by decide +kernel)

/-- Seconds that cannot be held are not stored, and the offset is computed from what
    the local variable held before. -/
theorem unrepresentable_taken :
    ¬ ∀ (m : TimedMessage) (w : World), (m.length : Int) ≤ w.msgIbufLength → m.Safe w := by
  intro h
  have hlength : ((TimedMessage.sync ⟨101, 0⟩ false).length : Int) ≤
      (syncedAt [0, 0, 0x7f, 0xff, 0xff, 0xff]).msgIbufLength := by decide +kernel
  rcases h _ _ hlength with ⟨hrep, -⟩ | hkept
  · revert hrep
    decide +kernel
  · have hoffset := hkept.offsetFromMaster
    revert hoffset
    decide +kernel

end Ptpd
