import Ptpd.EndToEnd.Delivery
import Ptpd.Smoothing
import Ptpd.Timestamps

/-! # The offset and the delay from end to end

    A master sends a Sync and its Follow_Up, from which a slave computes its
    offset, and answers the Delay_Req that follows, from which the slave computes
    the delay. Both are exact. What is kept of the offset for the delay is lost
    if the offset makes the servo step the clock.
-/

namespace Ptpd

open PortState Octets MachineInt

/-! ## The two ports -/

/-- A slave and its master, which use the end-to-end delay mechanism. -/
structure MasterLink (master slave : PtpClock) : Prop where
  masterSpeaks : master.Speaks
  slaveSpeaks : slave.Speaks
  masterMechanism : master.portDS.delayMechanism = .E2E
  slaveMechanism : slave.portDS.delayMechanism = .E2E
  masterState : master.portDS.portState = PTP_MASTER
  slaveState : slave.portDS.portState = PTP_UNCALIBRATED ∨ slave.portDS.portState = PTP_SLAVE
  parent : slave.parentDS.parentPortIdentity = master.portDS.portIdentity
  domainNumber : master.defaultDS.domainNumber = slave.defaultDS.domainNumber
  distinct : master.portDS.portIdentity ≠ slave.portDS.portIdentity
  masterInbound : master.inboundLatency.Latency
  masterOutbound : master.outboundLatency.Latency
  slaveInbound : slave.inboundLatency.Latency
  slaveOutbound : slave.outboundLatency.Latency

/-- What a slave needs of its clock from the Sync to the Follow_Up. -/
structure SyncRequest where
  portState : PortState
  delayMechanism : DelayMechanism
  parentPortIdentity : PortIdentity
  portIdentity : PortIdentity
  versionNumber : UInt8
  domainNumber : UInt8
  waitingForFollowUp : Bool
  recvSyncSequenceId : UInt16
  timestamp_syncRecieve : TimeInternal
  correctionField_sync : TimeInternal

def PtpClock.syncRequest (c : PtpClock) : SyncRequest where
  portState := c.portDS.portState
  delayMechanism := c.portDS.delayMechanism
  parentPortIdentity := c.parentDS.parentPortIdentity
  portIdentity := c.portDS.portIdentity
  versionNumber := c.portDS.versionNumber
  domainNumber := c.defaultDS.domainNumber
  waitingForFollowUp := c.waitingForFollowUp
  recvSyncSequenceId := c.recvSyncSequenceId
  timestamp_syncRecieve := c.timestamp_syncRecieve
  correctionField_sync := c.correctionField_sync

/-- What it needs from the Delay_Req to the Delay_Resp. -/
structure DelayRequest where
  portState : PortState
  delayMechanism : DelayMechanism
  parentPortIdentity : PortIdentity
  portIdentity : PortIdentity
  versionNumber : UInt8
  domainNumber : UInt8
  sentDelayReqSequenceId : UInt16
  timestamp_delayReqSend : TimeInternal
  Tms : TimeInternal
  offsetSamples : Int

def PtpClock.delayRequest (c : PtpClock) : DelayRequest where
  portState := c.portDS.portState
  delayMechanism := c.portDS.delayMechanism
  parentPortIdentity := c.parentDS.parentPortIdentity
  portIdentity := c.portDS.portIdentity
  versionNumber := c.portDS.versionNumber
  domainNumber := c.defaultDS.domainNumber
  sentDelayReqSequenceId := c.sentDelayReqSequenceId
  timestamp_delayReqSend := c.timestamp_delayReqSend
  Tms := c.Tms
  offsetSamples := c.ofm_filt.n

/-! ## The offset -/

/-- The worlds in which a Sync and its Follow_Up are sent and delivered, the times at
    which the Sync leaves and arrives, and the correction fields they arrive with. -/
structure SyncExchange where
  master : World
  /-- The slave when the Sync has arrived. -/
  syncing : World
  /-- The slave when the Follow_Up has arrived. -/
  following : World
  t1 : TimeInternal
  t2 : TimeInternal
  cSync : Int
  cFollowUp : Int
  /-- The time that is handed on with the Follow_Up, a general message. -/
  time : TimeInternal

namespace SyncExchange

abbrev Linked (x : SyncExchange) : Prop := MasterLink x.master.toPtpClock x.syncing.toPtpClock

/-- What the master sends, the newest first. -/
def sent (x : SyncExchange) : List (List UInt8) := (issueSync x.master).messages

def sync (x : SyncExchange) : List UInt8 := x.sent.tail.headD []

def followUp (x : SyncExchange) : List UInt8 := x.sent.headD []

/-- The slave once the Follow_Up is handled. -/
def synced (x : SyncExchange) : World := handleMessage x.time x.following

structure Stamped (x : SyncExchange) : Prop where
  t1 : x.t1.Stamp
  t2 : x.t2.Stamp
  cSync : IsCorrection x.cSync
  cFollowUp : IsCorrection x.cFollowUp
  meanPathDelay : x.following.currentDS.meanPathDelay.Canonical
  delaySeconds : |x.following.currentDS.meanPathDelay.seconds| < 2 ^ 29

/-- Both messages are delivered, and nothing of the slave changes between them that
    it needs for the Follow_Up. -/
structure Delivered (x : SyncExchange) : Prop where
  syncSent : x.master.platform.tx.head = .sent x.t1
  followUpSent : ∃ time, x.master.platform.tx.tail.head = .sent time
  sync : x.syncing.Holds (rewriteCorrection x.cSync x.sync)
  follows : x.following.syncRequest = (handleMessage x.t2 x.syncing).syncRequest
  followUp : x.following.Holds (rewriteCorrection x.cFollowUp x.followUp)

/-- `Tms` in nanoseconds. -/
def TmsNanos (x : SyncExchange) : Int :=
  let t1' := x.t1.nanos + x.master.outboundLatency.nanos
  let t2' := x.t2.nanos - x.syncing.inboundLatency.nanos
  t2' - t1' - correctionNanos x.cSync - correctionNanos x.cFollowUp

/-- The offset in nanoseconds. -/
def offsetNanos (x : SyncExchange) : Int :=
  x.TmsNanos - x.following.currentDS.meanPathDelay.nanos

end SyncExchange

variable {w : World}

/-- A Sync that left at `t1`, and its Follow_Up. -/
theorem issueSync_sent {t1 : TimeInternal} (htx : w.platform.tx.head = .sent t1)
    (ht1 : t1.seconds ≠ 0) (htwo : w.defaultDS.twoStepFlag = true) :
    ∃ stamp, (issueSync w).messages =
      take FOLLOW_UP_LENGTH ((Outgoing.followUp
        (w.syncIssued.external (addTime t1 w.outboundLatency))).pack w.syncIssued.toPtpClock
          w.syncIssued.msgObuf) ::
      take SYNC_LENGTH ((Outgoing.sync stamp).pack w.toPtpClock w.msgObuf) :: w.messages := by
  refine ⟨w.popTime.external w.platform.time.head, ?_⟩
  rw [issueSync_eq, htx]
  dsimp only [SendResult.txTime?, Option.getD_some]
  rw [if_pos ⟨ht1, htwo⟩, issueFollowup_eq, World.issue_messages]
  rfl

/-- The offset that was computed between two worlds, before it was filtered, and
    what it was computed from. -/
def MeasuresOffset (w w' : World) (Tms offset : TimeInternal) : Prop :=
  Measures .unfilteredOffset (fun c => (c.Tms, c.currentDS.offsetFromMaster)) w w' (Tms, offset)

/-- A two-step Sync of the parent is kept for its Follow_Up. -/
theorem handleSync_taken {time : TimeInternal} (hlength : (SYNC_LENGTH : Int) ≤ w.msgIbufLength)
    (hport : w.portDS.portState = PTP_UNCALIBRATED ∨ w.portDS.portState = PTP_SLAVE)
    (hparent : w.isFromCurrentParent = true) (htwo : w.isTwoStep = true) :
    handleSync time false w = acceptTwoStepSync time w := by
  have hlong : ¬ w.msgIbufLength < (SYNC_LENGTH : Int) := not_lt.mpr hlength
  unfold handleSync
  rw [if_neg hlong]
  rcases hport with hport | hport
  all_goals
    rw [hport]
    simp [hparent, htwo]

theorem filterOffset_log (w : World) :
    ∃ new, (filterOffset w).log = new ++ ⟨.unfilteredOffset, w.toPtpClock⟩ :: w.log := by
  have hfault : ∀ w : World, (synchronizationFault w).log = w.log := by
    intro w
    unfold synchronizationFault
    split <;> rfl
  have hevents : ∀ w : World, (offsetEvents w).log = w.log := by
    intro w
    unfold offsetEvents
    split
    · split <;> rfl
    · split
      · exact hfault w
      · rfl
  unfold filterOffset
  dsimp only
  split
  · exact ⟨[], hfault _⟩
  · exact ⟨[_], hevents _⟩

theorem subtractedDelay_endToEnd (call : Call) (h : w.portDS.delayMechanism = .E2E) :
    (w.record call).subtractedDelay = some w.currentDS.meanPathDelay := by
  unfold PtpClock.subtractedDelay
  rw [show (w.record call).portDS.delayMechanism = _ from h]
  rfl

theorem updateOffset_measures {v : World} (i o f : TimeInternal)
    (hmech : w.portDS.delayMechanism = .E2E) (hlog : ∃ older, w.log = older ++ v.log) :
    ∀ w', (∃ new, w'.log = new ++ (updateOffset i o f w).log) →
      MeasuresOffset v w' (subTime (subTime i o) f)
        (subTime (subTime (subTime i o) f) w.currentDS.meanPathDelay) := by
  intro w' ⟨later, hlater⟩
  obtain ⟨older, hlog⟩ := hlog
  unfold updateOffset at hlater
  dsimp only at hlater
  generalize hw₁ : ({ w.record (.updateOffset i o f) with
    Tms := _, currentDS.offsetFromMaster := _ } : World) = w₁ at hlater
  have hlog₁ : w₁.log = ⟨.updateOffset i o f, w.toPtpClock⟩ :: older ++ v.log := by
    rw [← hw₁, List.cons_append, ← hlog]
    rfl
  obtain ⟨new, hnew⟩ := filterOffset_log w₁
  refine .of_log ⟨later ++ new, w₁.log, by rw [hlater, hnew, List.append_assoc], _, hlog₁⟩ ?_
  rw [← hw₁]
  dsimp only
  rw [subtractedDelay_endToEnd _ hmech]

theorem followOffset_log (w : World) : ∃ new, (followOffset w).log = new ++ w.log :=
  (followOffset_run w).log_eq

/-- The world in which the offset is computed from a Follow_Up. -/
def World.followUpTaken (w : World) : World :=
  { w with waitingForFollowUp := false, platform.stackTime := w.platform.stackTime.tail }

theorem acceptFollowUp_eq (w : World) :
    acceptFollowUp w = followOffset (updateOffset w.timestamp_syncRecieve
      (toInternalTime w.platform.stackTime.head
        (msgUnpackFollowUp w.msgIbuf).preciseOriginTimestamp)
      (addTime w.correctionField w.correctionField_sync) w.followUpTaken) := rfl

/-- The Follow_Up makes the offset. -/
theorem acceptFollowUp_measures {v : World} (hmech : w.portDS.delayMechanism = .E2E)
    (hlog : ∃ older, w.log = older ++ v.log) :
    let Tms := subTime (subTime w.timestamp_syncRecieve (toInternalTime w.platform.stackTime.head
      (msgUnpackFollowUp w.msgIbuf).preciseOriginTimestamp))
      (addTime w.correctionField w.correctionField_sync)
    MeasuresOffset v (acceptFollowUp w) Tms (subTime Tms w.currentDS.meanPathDelay) := by
  rw [acceptFollowUp_eq]
  exact updateOffset_measures (w := w.followUpTaken) _ _ _ hmech hlog _ (followOffset_log _)

/-! ## What is left of it -/

/-- The clock was not stepped between two worlds. -/
def Unstepped (w w' : World) : Prop := ∀ x ∈ entriesSince w w', x.call.kind ≠ .clock

instance (w w' : World) : Decidable (Unstepped w w') :=
  inferInstanceAs (Decidable (∀ x ∈ _, _))

/-- What is kept of an offset: `Tms`, and that there is one. -/
def PtpClock.offsetKept (c : PtpClock) : TimeInternal × Filter := (c.Tms, c.ofm_filt)

theorem PtpClock.offsetKept_eq {c : PtpClock} {Tms : TimeInternal} {filt : Filter}
    (h : c.offsetKept = (Tms, filt)) : c.Tms = Tms ∧ c.ofm_filt = filt := Prod.mk.inj h

/-- Either the clock is stepped or the offset is kept. -/
theorem updateClock_keeps (w : World) :
    (updateClock w).offsetKept = w.offsetKept ∨
      ∃ new time before, (updateClock w).log = new ++ ⟨.setTime time, before⟩ :: w.log := by
  have hstep : ∃ new time before, (stepClock w).log = new ++ ⟨.setTime time, before⟩ :: w.log := by
    obtain ⟨new, hnew, -⟩ := initClock_grows (setTime
      (subTime w.platform.time.head w.currentDS.offsetFromMaster) (getTime w).2)
    exact ⟨new, _, _, hnew⟩
  unfold updateClock
  split
  · split
    · split
      · exact .inr hstep
      · exact .inl rfl
    · exact .inl rfl
  · dsimp only
    split
    · exact .inl rfl
    · exact .inl rfl

theorem followOffset_keeps {v : World} (hlog : ∃ older, w.log = older ++ v.log)
    (hno : Unstepped v (followOffset w)) : (followOffset w).offsetKept = w.offsetKept := by
  obtain ⟨older, hlog⟩ := hlog
  have hrequest := issueDelayReqTimerExpired_servoKept (updateClock w)
  have hkept : (followOffset w).offsetKept = (updateClock w).offsetKept :=
    congrArg₂ Prod.mk hrequest.Tms hrequest.ofm_filt
  rcases updateClock_keeps w with hclock | ⟨new, time, before, hclock⟩
  · exact hkept.trans hclock
  · -- the step would have been recorded
    obtain ⟨later, hlater, -⟩ := hrequest.calls
    have hall : (followOffset w).log =
        (later ++ new ++ ⟨.setTime time, before⟩ :: older) ++ v.log := by
      rw [show (followOffset w).log = _ from hlater, hclock, hlog]
      simp
    refine absurd rfl (hno ⟨.setTime time, before⟩ ?_)
    rw [entriesSince_eq hall]
    simp

theorem synchronizationFault_keeps (w : World) :
    (synchronizationFault w).offsetKept = w.offsetKept := by
  unfold synchronizationFault
  split <;> rfl

theorem offsetEvents_keeps (w : World) : (offsetEvents w).offsetKept = w.offsetKept := by
  unfold offsetEvents
  split
  · split <;> rfl
  · split
    · exact synchronizationFault_keeps w
    · rfl

theorem setFilteredOffset_keeps (filtered : Int × Filter) (w : World) :
    ((setFilteredOffset filtered w).record .filteredOffset).offsetKept = (w.Tms, filtered.2) := rfl

/-- An offset of less than a second goes through the filter. -/
theorem filterOffset_keeps (w : World) :
    (filterOffset w).offsetKept =
      if 0 ≠ w.currentDS.offsetFromMaster.seconds then w.offsetKept
      else (w.Tms, (filter w.currentDS.offsetFromMaster.nanoseconds w.ofm_filt).2) := by
  unfold filterOffset
  dsimp only
  split
  · next hsec =>
    have hsec : 0 ≠ w.currentDS.offsetFromMaster.seconds := hsec
    rw [synchronizationFault_keeps, if_pos hsec]
    rfl
  · next hsec =>
    have hsec : ¬ 0 ≠ w.currentDS.offsetFromMaster.seconds := hsec
    rw [offsetEvents_keeps, setFilteredOffset_keeps, if_neg hsec]
    rfl

/-- The count is kept apart from the sample. -/
theorem filterWith_n (wrap : Int → Int) (x : Int) (filt : Filter) :
    (filterWith wrap x filt).2.n =
      if wrap (2 ^ filt.s.toNat) > wrap (filt.n + 1) then wrap (filt.n + 1)
      else wrap (2 ^ filt.s.toNat) := by
  unfold filterWith
  dsimp only
  by_cases hfirst : wrap (filt.n + 1) = 1
  · simp only [hfirst, if_true]
    split_ifs <;> rfl
  · simp only [hfirst, if_false]
    split_ifs <;> rfl

/-- A filter that has not overflown its count of samples, of an order that can be shifted by. -/
structure Filter.Counts (filt : Filter) : Prop where
  nonneg : 0 ≤ filt.n
  small : filt.n < 2 ^ 31 - 1
  order : filt.s ≤ 30

/-- It counts the sample. -/
theorem Filter.Counts.filter_pos {filt : Filter} (h : filt.Counts) (x : Int) :
    0 < (Ptpd.filter x filt).2.n := by
  obtain ⟨hnonneg, hsmall, horder⟩ := h
  have hpow : (2 : Int) ^ filt.s.toNat ≤ 2 ^ 30 :=
    pow_le_pow_right₀ (by norm_num) (by omega)
  have hpos : (0 : Int) < 2 ^ filt.s.toNat := by positivity
  rw [filter_eq_filterWith, filterWith_n, wrapS_32 (x := filt.n + 1) (by omega) (by omega),
    wrapS_32 (x := 2 ^ filt.s.toNat) (by omega) (by omega)]
  split <;> omega

theorem updateOffset_keeps (i o f : TimeInternal) (hmech : w.portDS.delayMechanism = .E2E) :
    (updateOffset i o f w).offsetKept =
      let Tms := subTime (subTime i o) f
      let offset := subTime Tms w.currentDS.meanPathDelay
      (Tms, if 0 ≠ offset.seconds then w.ofm_filt else (filter offset.nanoseconds w.ofm_filt).2) := by
  unfold updateOffset
  dsimp only
  rw [subtractedDelay_endToEnd _ hmech]
  generalize subTime (subTime i o) f = Tms
  generalize hw₁ : ({ w.record (.updateOffset i o f) with
    Tms := Tms, currentDS.offsetFromMaster := _ } : World) = w₁
  have hTms : w₁.Tms = Tms := hw₁ ▸ rfl
  have hfilt : w₁.ofm_filt = w.ofm_filt := hw₁ ▸ rfl
  have hoffset : w₁.currentDS.offsetFromMaster = subTime Tms w.currentDS.meanPathDelay := hw₁ ▸ rfl
  rw [filterOffset_keeps, hoffset, hfilt, hTms]
  split
  · rw [PtpClock.offsetKept, hTms, hfilt]
  · rfl

/-- What the Follow_Up leaves. -/
theorem acceptFollowUp_keeps {v : World} {Tms offset : TimeInternal}
    (hmech : w.portDS.delayMechanism = .E2E) (hlog : ∃ older, w.log = older ++ v.log)
    (hno : Unstepped v (acceptFollowUp w))
    (hTms : subTime (subTime w.timestamp_syncRecieve (toInternalTime w.platform.stackTime.head
      (msgUnpackFollowUp w.msgIbuf).preciseOriginTimestamp))
      (addTime w.correctionField w.correctionField_sync) = Tms)
    (hoffset : subTime Tms w.currentDS.meanPathDelay = offset) :
    (acceptFollowUp w).offsetKept =
      (Tms, if 0 ≠ offset.seconds then w.ofm_filt else (filter offset.nanoseconds w.ofm_filt).2) := by
  rw [acceptFollowUp_eq] at hno ⊢
  obtain ⟨older, hlog⟩ := hlog
  obtain ⟨new, hnew, -⟩ := (updateOffset_quiet w.timestamp_syncRecieve
    (toInternalTime w.platform.stackTime.head
      (msgUnpackFollowUp w.msgIbuf).preciseOriginTimestamp)
    (addTime w.correctionField w.correctionField_sync) w.followUpTaken).grows
  have hsince : ∃ older, (updateOffset _ _ _ w.followUpTaken).log = older ++ v.log :=
    ⟨new ++ older, by rw [hnew, List.append_assoc, ← hlog]; rfl⟩
  rw [← hoffset, ← hTms]
  exact (followOffset_keeps hsince hno).trans (updateOffset_keeps (w := w.followUpTaken) _ _ _ hmech)

theorem MasterLink.versionNumber {master slave : PtpClock} (h : MasterLink master slave) :
    master.portDS.versionNumber = slave.portDS.versionNumber :=
  h.masterSpeaks.version.trans h.slaveSpeaks.version.symm

namespace SyncExchange

variable {x : SyncExchange}

/-- What the master sends in full. -/
theorem sent_eq (hl : x.Linked) (hs : x.Stamped) (hd : x.Delivered) :
    (∃ stamp, x.sync =
        take SYNC_LENGTH ((Outgoing.sync stamp).pack x.master.toPtpClock x.master.msgObuf)) ∧
      x.followUp = take FOLLOW_UP_LENGTH ((Outgoing.followUp
        (x.master.syncIssued.external (addTime x.t1 x.master.outboundLatency))).pack
          x.master.syncIssued.toPtpClock x.master.syncIssued.msgObuf) := by
  obtain ⟨stamp, hmessages⟩ := issueSync_sent hd.syncSent (ne_of_gt hs.t1.positive)
    hl.masterSpeaks.twoStepFlag
  unfold sync followUp sent
  rw [hmessages]
  exact ⟨⟨stamp, rfl⟩, rfl⟩

theorem syncIssued_speaks (hl : x.Linked) : x.master.syncIssued.Speaks :=
  have h := PtpClock.Speaks.issue (v := x.master.popTime.popTimestamp) hl.masterSpeaks .event .ptp
    (.sync (x.master.popTime.external x.master.platform.time.head)) SYNC_LENGTH
  ⟨h.twoStepFlag, ⟨h.header.versionNumber, h.header.domainNumber, h.header.portIdentity⟩, h.twoStep,
    h.version⟩

/-- What the slave has kept of the Sync. -/
theorem following_eq (hl : x.Linked) (hs : x.Stamped) (hd : x.Delivered) :
    x.following.syncRequest =
      { x.syncing.syncRequest with
        waitingForFollowUp := true
        recvSyncSequenceId := x.master.sentSyncSequenceId
        timestamp_syncRecieve := x.syncing.ingress x.t2
        correctionField_sync := .ofNanos (correctionNanos x.cSync) } := by
  obtain ⟨⟨stamp, hsync⟩, -⟩ := sent_eq hl hs hd
  have hholds := hd.sync
  rw [hsync] at hholds
  have hheader := hholds.of_speaks hl.masterSpeaks (by decide) hs.cSync
  have hlength : x.syncing.msgIbufLength = SYNC_LENGTH := hholds.rewritten_length
  have hparent : (x.syncing.delivered (x.syncing.ingress x.t2)).isFromCurrentParent = true :=
    isSamePortIdentity_iff.mpr (hl.parent.trans hheader.sourcePortIdentity.symm)
  have hhandle : handleMessage x.t2 x.syncing =
      acceptTwoStepSync (x.syncing.ingress x.t2)
        (x.syncing.delivered (x.syncing.ingress x.t2)) := by
    rw [handleMessage_eq (by rw [hlength]; decide) hheader hl.versionNumber hl.domainNumber
      hl.distinct.symm]
    unfold dispatch
    rw [show MessageType.ofCode (x.syncing.delivered _).msgTmpHeader.messageType = _ from
      hheader.messageType]
    exact handleSync_taken hlength.ge hl.slaveState hparent hheader.twoStep
  have hcorrection : (x.syncing.delivered (x.syncing.ingress x.t2)).correctionField =
      .ofNanos (correctionNanos x.cSync) := by
    show scaledNanosecondsToInternalTime (msgUnpackHeader x.syncing.msgIbuf).correctionfield = _
    rw [hheader.correctionfield, scaledNanosecondsToInternalTime_eq hs.cSync]
  have hseq : (msgUnpackHeader x.syncing.msgIbuf).sequenceId = x.master.sentSyncSequenceId :=
    hheader.sequenceId _ rfl
  rw [hd.follows, hhandle, ← hcorrection, ← hseq]
  rfl

/-- The slave takes the Follow_Up for the Sync that it waits for. -/
theorem followUp_taken (hl : x.Linked) (hs : x.Stamped) (hd : x.Delivered) :
    x.synced = acceptFollowUp (x.following.delivered (x.following.ingress x.time)) ∧
      toInternalTime x.following.platform.stackTime.head
        (msgUnpackFollowUp x.following.msgIbuf).preciseOriginTimestamp =
          addTime x.t1 x.master.outboundLatency ∧
      (x.following.delivered (x.following.ingress x.time)).correctionField =
        .ofNanos (correctionNanos x.cFollowUp) := by
  have hkept := following_eq hl hs hd
  have hholds := hd.followUp
  rw [(sent_eq hl hs hd).2] at hholds
  have hheader := hholds.of_speaks (syncIssued_speaks hl) (by decide) hs.cFollowUp
  have hlength : x.following.msgIbufLength = FOLLOW_UP_LENGTH := hholds.rewritten_length
  have hid : x.following.portDS.portIdentity = x.syncing.portDS.portIdentity :=
    congrArg SyncRequest.portIdentity hkept
  refine ⟨?_, ?_, ?_⟩
  · have hport : x.following.portDS.portState.follows = true := by
      rw [show x.following.portDS.portState = x.syncing.portDS.portState from
        congrArg SyncRequest.portState hkept]
      rcases hl.slaveState with hport | hport <;> rw [hport] <;> rfl
    have hparent : (x.following.delivered (x.following.ingress x.time)).isFromCurrentParent = true := by
      refine isSamePortIdentity_iff.mpr ?_
      exact (congrArg SyncRequest.parentPortIdentity hkept).trans
        (hl.parent.trans hheader.sourcePortIdentity.symm)
    have hseq : x.following.recvSyncSequenceId =
        (msgUnpackHeader x.following.msgIbuf).sequenceId := by
      have hcount : x.master.syncIssued.sentSyncSequenceId - 1 = x.master.sentSyncSequenceId :=
        UInt16.add_sub_cancel _ _
      rw [hheader.sequenceId _ rfl, hcount]
      exact congrArg SyncRequest.recvSyncSequenceId hkept
    unfold synced
    rw [handleMessage_eq (by rw [hlength]; decide) hheader
      (hl.versionNumber.trans (congrArg SyncRequest.versionNumber hkept).symm)
      (hl.domainNumber.trans (congrArg SyncRequest.domainNumber hkept).symm)
      (fun h => hl.distinct (h.symm.trans hid))]
    unfold dispatch
    rw [show MessageType.ofCode (x.following.delivered _).msgTmpHeader.messageType = _ from
      hheader.messageType]
    exact TimedMessage.handle_taken (m := .followUp false) hlength.ge
      ⟨hport, rfl, congrArg SyncRequest.waitingForFollowUp hkept, hparent, hseq⟩
  · have hb := hs.t1.bounds
    have hlb := hl.masterOutbound.bounds
    have hbody : msgUnpackFollowUp x.following.msgIbuf = _ :=
      (congrArg MsgFollowUp.mk (hholds.timestamp (by decide))).trans (msgUnpackFollowUp_pack _ _ _)
    rw [hbody, hs.t1.egress hl.masterOutbound]
    exact toInternalTime_fromInternalTime (by omega) (by omega) _ _
  · show scaledNanosecondsToInternalTime (msgUnpackHeader x.following.msgIbuf).correctionfield = _
    rw [hheader.correctionfield, scaledNanosecondsToInternalTime_eq hs.cFollowUp]

theorem TmsNanos_bounds (hl : x.Linked) (hs : x.Stamped) :
    -537154389000000000 < x.TmsNanos ∧ x.TmsNanos < 537154389000000000 := by
  have hb1 := hs.t1.bounds
  have hb2 := hs.t2.bounds
  have hl1 := hl.masterOutbound.bounds
  have hl2 := hl.slaveInbound.bounds
  have hc1 := correctionNanos_bounds hs.cSync
  have hc2 := correctionNanos_bounds hs.cFollowUp
  unfold TmsNanos
  dsimp only
  omega

/-- The two sums, each time in them the canonical one for its number. -/
theorem sums_eq (hl : x.Linked) (hs : x.Stamped) (hd : x.Delivered) :
    let Tms := subTime (subTime x.following.timestamp_syncRecieve
      (toInternalTime x.following.platform.stackTime.head
        (msgUnpackFollowUp x.following.msgIbuf).preciseOriginTimestamp))
      (addTime (x.following.delivered (x.following.ingress x.time)).correctionField
        x.following.correctionField_sync)
    Tms = .ofNanos x.TmsNanos ∧
      subTime Tms x.following.currentDS.meanPathDelay = .ofNanos x.offsetNanos := by
  intro Tms
  obtain ⟨-, ht1, hfollowUp⟩ := followUp_taken hl hs hd
  have hkept := following_eq hl hs hd
  have ht2 : x.following.timestamp_syncRecieve =
      .ofNanos (x.t2.nanos - x.syncing.inboundLatency.nanos) :=
    (congrArg SyncRequest.timestamp_syncRecieve hkept).trans (hs.t2.ingress hl.slaveInbound)
  have hsync : x.following.correctionField_sync = .ofNanos (correctionNanos x.cSync) :=
    congrArg SyncRequest.correctionField_sync hkept
  have hb1 := hs.t1.bounds
  have hb2 := hs.t2.bounds
  have hl1 := hl.masterOutbound.bounds
  have hl2 := hl.slaveInbound.bounds
  have hc1 := correctionNanos_bounds hs.cSync
  have hc2 := correctionNanos_bounds hs.cFollowUp
  -- no intermediate time leaves the range in which the sums are exact
  have hTms : Tms = .ofNanos x.TmsNanos := by
    show subTime _ _ = _
    rw [ht1, ht2, hfollowUp, hsync, hs.t1.egress hl.masterOutbound, subTime_ofNanos (by omega),
      addTime_ofNanos (by omega), subTime_ofNanos (by omega)]
    unfold TmsNanos
    dsimp only
    congr 1
    ring
  refine ⟨hTms, ?_⟩
  have hbound := TmsNanos_bounds hl hs
  have hdelay : x.following.currentDS.meanPathDelay.nanos.natAbs < 536870913000000000 := by
    have hsec := abs_lt.mp hs.delaySeconds
    have hleast := hs.meanPathDelay.least
    have hgreatest := hs.meanPathDelay.greatest
    unfold TimeInternal.nanos
    omega
  rw [hTms, hs.meanPathDelay.eq_ofNanos, subTime_ofNanos (by omega)]
  rfl

/-- The offset is the exact one. -/
theorem measures (hl : x.Linked) (hs : x.Stamped) (hd : x.Delivered) :
    MeasuresOffset x.following x.synced (.ofNanos x.TmsNanos) (.ofNanos x.offsetNanos) := by
  obtain ⟨htaken, -⟩ := followUp_taken hl hs hd
  obtain ⟨hTms, hoffset⟩ := sums_eq hl hs hd
  have hmech : x.following.portDS.delayMechanism = .E2E :=
    (congrArg SyncRequest.delayMechanism (following_eq hl hs hd)).trans hl.slaveMechanism
  have hmeasures := acceptFollowUp_measures (v := x.following)
    (w := x.following.delivered (x.following.ingress x.time)) hmech ⟨[_], rfl⟩
  rw [← htaken] at hmeasures
  rw [← hoffset, ← hTms]
  exact hmeasures

/-- Unless the clock is stepped, `Tms` stays, and an offset of less than a second is
    counted. -/
theorem kept (hl : x.Linked) (hs : x.Stamped) (hd : x.Delivered)
    (hno : Unstepped x.following x.synced) :
    x.synced.Tms = .ofNanos x.TmsNanos ∧
      (|x.offsetNanos| < 1000000000 → x.following.ofm_filt.Counts → x.synced.ofm_filt.n ≠ 0) := by
  obtain ⟨htaken, -⟩ := followUp_taken hl hs hd
  obtain ⟨hTms, hoffset⟩ := sums_eq hl hs hd
  have hmech : x.following.portDS.delayMechanism = .E2E :=
    (congrArg SyncRequest.delayMechanism (following_eq hl hs hd)).trans hl.slaveMechanism
  rw [htaken] at hno
  rw [hTms] at hoffset
  have hkeeps := acceptFollowUp_keeps (v := x.following)
    (w := x.following.delivered (x.following.ingress x.time)) hmech ⟨[_], rfl⟩ hno hTms hoffset
  rw [← htaken] at hkeeps
  obtain ⟨hkeptTms, hkeptFilt⟩ := PtpClock.offsetKept_eq hkeeps
  refine ⟨hkeptTms, ?_⟩
  intro hsmall hcounts
  have hsec : ¬ 0 ≠ (TimeInternal.ofNanos x.offsetNanos).seconds := by
    obtain ⟨hlo, hhi⟩ := abs_lt.mp hsmall
    obtain ⟨hsum, ⟨hrlo, hrhi⟩, hpos, hneg⟩ := tdiv_split x.offsetNanos (d := 1000000000) (by norm_num)
    show ¬ 0 ≠ x.offsetNanos.tdiv 1000000000
    rcases le_total 0 x.offsetNanos with hsign | hsign
    · have := hpos hsign
      omega
    · have := hneg hsign
      omega
  have hfilt : x.synced.ofm_filt =
      (filter (TimeInternal.ofNanos x.offsetNanos).nanoseconds x.following.ofm_filt).2 :=
    hkeptFilt.trans (if_neg hsec)
  rw [hfilt]
  exact ne_of_gt (hcounts.filter_pos _)

end SyncExchange

/-! ## The delay -/

/-- The worlds in which a Delay_Req and its Delay_Resp are sent and delivered. -/
structure RequestExchange where
  slave : World
  /-- The master when the Delay_Req has arrived. -/
  master : World
  /-- The slave when the Delay_Resp has arrived. -/
  answered : World
  t3 : TimeInternal
  t4 : TimeInternal
  cRequest : Int
  cResponse : Int
  /-- The time that is handed on with the Delay_Resp, a general message. -/
  time : TimeInternal

namespace RequestExchange

abbrev Linked (y : RequestExchange) : Prop := MasterLink y.master.toPtpClock y.slave.toPtpClock

def request (y : RequestExchange) : List UInt8 := (issueDelayReq y.slave).messages.headD []

def response (y : RequestExchange) : List UInt8 := (handleMessage y.t4 y.master).messages.headD []

structure Stamped (y : RequestExchange) : Prop where
  t3 : y.t3.Stamp
  t4 : y.t4.Stamp
  cRequest : IsCorrection y.cRequest
  cResponse : IsCorrection y.cResponse

structure Delivered (y : RequestExchange) : Prop where
  requestSent : y.slave.platform.tx.head = .sent y.t3
  numbered : (issueDelayReq y.slave).sentDelayReqSequenceId ≠ 0
  request : y.master.Holds (rewriteCorrection y.cRequest y.request)
  awaits : y.answered.delayRequest = (issueDelayReq y.slave).delayRequest
  response : y.answered.Holds (rewriteCorrection y.cResponse y.response)

/-- The delay in nanoseconds, for a `Tms` of so many. -/
def delayNanos (y : RequestExchange) (TmsNanos : Int) : Int :=
  let t3' := y.t3.nanos + y.slave.outboundLatency.nanos
  let t4' := y.t4.nanos - y.master.inboundLatency.nanos
  (TmsNanos + (t4' - t3' - correctionNanos y.cResponse)).tdiv 2

end RequestExchange

/-- A request that left at `t3`: what it is, and what is kept of it. -/
theorem issueDelayReq_sent {t3 : TimeInternal} (htx : w.platform.tx.head = .sent t3)
    (ht3 : t3.seconds ≠ 0) :
    ∃ stamp, (issueDelayReq w).messages =
        take DELAY_REQ_LENGTH ((Outgoing.delayReq stamp).pack w.toPtpClock w.msgObuf) ::
          w.messages ∧
      (issueDelayReq w).delayRequest =
        { w.delayRequest with
          sentDelayReqSequenceId := w.sentDelayReqSequenceId + 1
          timestamp_delayReqSend := addTime t3 w.outboundLatency } := by
  refine ⟨w.popTime.external w.platform.time.head, ?_⟩
  rw [issueDelayReq_eq, htx]
  dsimp only [SendResult.txTime?, Option.getD_some]
  rw [if_pos ht3]
  exact ⟨rfl, rfl⟩

/-- A master answers. -/
theorem handleDelayReq_master (time : TimeInternal) (hmech : w.portDS.delayMechanism = .E2E)
    (hlength : (DELAY_REQ_LENGTH : Int) ≤ w.msgIbufLength)
    (hport : w.portDS.portState = PTP_MASTER) :
    (handleDelayReq time w).messages =
      take PDELAY_RESP_LENGTH ((Outgoing.delayResp w.msgTmpHeader (w.external time)).pack
        w.toPtpClock w.msgObuf) :: w.messages := by
  have hlong : ¬ w.msgIbufLength < (DELAY_REQ_LENGTH : Int) := not_lt.mpr hlength
  unfold handleDelayReq
  rw [hmech, hport]
  dsimp only
  rw [if_neg hlong, issueDelayResp_eq, World.issue_messages]
  rfl

/-- The delay that was computed between two worlds, before it was filtered. -/
abbrev MeasuresDelay : World → World → TimeInternal → Prop :=
  Measures .unfilteredDelay (·.currentDS.meanPathDelay)

theorem filterDelay_log (w : World) :
    (filterDelay w).log = ⟨.unfilteredDelay, w.toPtpClock⟩ :: w.log := by
  unfold filterDelay
  dsimp only
  split <;> rfl

theorem updateDelay_measures {v : World} (e r f : TimeInternal) (hn : w.ofm_filt.n ≠ 0)
    (hlog : ∃ older, w.log = older ++ v.log) :
    MeasuresDelay v (updateDelay e r f w)
      (div2Time (addTime w.Tms (subTime (subTime r e) f))) := by
  obtain ⟨older, hlog⟩ := hlog
  unfold updateDelay
  rw [if_neg (Ne.symm hn)]
  dsimp only
  generalize hw₁ : ({ w.record (.updateDelay e r f) with
    Tsm := _, currentDS.meanPathDelay := _ } : World) = w₁
  have hlog₁ : w₁.log = ⟨.updateDelay e r f, w.toPtpClock⟩ :: older ++ v.log := by
    rw [← hw₁, List.cons_append, ← hlog]
    rfl
  refine .of_log ⟨[], _, filterDelay_log w₁, _, hlog₁⟩ ?_
  rw [← hw₁]
  rfl

/-- The Delay_Resp makes the delay. -/
theorem acceptDelayResp_measures {v : World} (hn : w.ofm_filt.n ≠ 0)
    (hlog : ∃ older, w.log = older ++ v.log) :
    MeasuresDelay v (acceptDelayResp w)
      (div2Time (addTime w.Tms
        (subTime (subTime (toInternalTime w.timestamp_delayReqRecieve
          (msgUnpackDelayResp w.msgIbuf).receiveTimestamp) w.timestamp_delayReqSend)
          w.correctionField))) := by
  obtain ⟨older, hlog⟩ := hlog
  have hrecord : ∃ older, (storeDelayResp (w.record .acceptDelayResp)).log = older ++ v.log :=
    ⟨⟨.acceptDelayResp, w.toPtpClock⟩ :: older, by
      rw [List.cons_append, ← hlog]
      rfl⟩
  exact updateDelay_measures _ _ _ hn hrecord

namespace RequestExchange

variable {y : RequestExchange}

/-- The master has the request of the slave at hand. -/
theorem request_received (hl : y.Linked) (hs : y.Stamped) (hd : y.Delivered) :
    ∃ stamp, (msgUnpackHeader y.master.msgIbuf).Of y.slave.toPtpClock (.delayReq stamp)
      y.cRequest ∧ y.master.msgIbufLength = DELAY_REQ_LENGTH := by
  obtain ⟨stamp, hmessages, -⟩ := issueDelayReq_sent hd.requestSent (ne_of_gt hs.t3.positive)
  have hholds := hd.request
  unfold request at hholds
  rw [hmessages, List.headD_cons] at hholds
  exact ⟨stamp, hholds.of_speaks hl.slaveSpeaks (by decide) hs.cRequest, hholds.rewritten_length⟩

/-- The world in which the master answers. -/
def answering (y : RequestExchange) : World := y.master.delivered (y.master.ingress y.t4)

theorem response_eq (hl : y.Linked) (hs : y.Stamped) (hd : y.Delivered) :
    y.response = take PDELAY_RESP_LENGTH ((Outgoing.delayResp y.answering.msgTmpHeader
      (y.answering.external (y.master.ingress y.t4))).pack y.answering.toPtpClock
        y.answering.msgObuf) := by
  obtain ⟨stamp, hheader, hlength⟩ := request_received hl hs hd
  have hhandle : handleMessage y.t4 y.master =
      handleDelayReq (y.master.ingress y.t4) y.answering := by
    rw [handleMessage_eq (by rw [hlength]; decide) hheader hl.versionNumber.symm
      hl.domainNumber.symm hl.distinct]
    unfold dispatch
    rw [show MessageType.ofCode (y.master.delivered _).msgTmpHeader.messageType = _ from
      hheader.messageType]
    rfl
  have hsent : (handleDelayReq (y.master.ingress y.t4) y.answering).messages = _ :=
    handleDelayReq_master _ hl.masterMechanism hlength.ge hl.masterState
  unfold response
  rw [hhandle, hsent]
  rfl

/-- The correction of the request is copied into the response. -/
theorem response_correction (hl : y.Linked) (hs : y.Stamped) (hd : y.Delivered) :
    (msgUnpackHeader (bufOf y.response)).correctionfield = y.cRequest := by
  obtain ⟨stamp, hrequest, -⟩ := request_received hl hs hd
  have hcopied : ∀ (c : PtpClock) (old header : MsgHeader) (stamp : Timestamp),
      ((Outgoing.delayResp header stamp).header c old).correctionfield =
        wrapS 64 header.correctionfield := fun _ _ _ _ => rfl
  rw [response_eq hl hs hd, msgUnpackHeader_bufOf _ (by decide), msgUnpackHeader_pack, hcopied,
    show y.answering.msgTmpHeader.correctionfield = y.cRequest from hrequest.correctionfield]
  exact wrapS_of_range (by decide) hs.cRequest.1

/-- What the slave has kept of its request. -/
theorem answered_eq (hs : y.Stamped) (hd : y.Delivered) :
    y.answered.delayRequest =
      { y.slave.delayRequest with
        sentDelayReqSequenceId := y.slave.sentDelayReqSequenceId + 1
        timestamp_delayReqSend := addTime y.t3 y.slave.outboundLatency } := by
  obtain ⟨stamp, -, hrequest⟩ := issueDelayReq_sent hd.requestSent (ne_of_gt hs.t3.positive)
  exact hd.awaits.trans hrequest

/-- The slave takes the response to its last request. -/
theorem response_taken (hl : y.Linked) (hs : y.Stamped) (hd : y.Delivered)
    (hn : y.slave.ofm_filt.n ≠ 0) :
    handleMessage y.time y.answered =
        acceptDelayResp (y.answered.delivered (y.answered.ingress y.time)) ∧
      toInternalTime y.answered.timestamp_delayReqRecieve
        (msgUnpackDelayResp y.answered.msgIbuf).receiveTimestamp = y.master.ingress y.t4 ∧
      (y.answered.delivered (y.answered.ingress y.time)).correctionField =
        .ofNanos (correctionNanos y.cResponse) := by
  obtain ⟨stamp, hrequest, -⟩ := request_received hl hs hd
  have hkept := answered_eq hs hd
  have hholds := hd.response
  rw [response_eq hl hs hd] at hholds
  have hspeaks : y.answering.Speaks := hl.masterSpeaks.delivered _
  have hheader := hholds.of_speaks hspeaks (by decide) hs.cResponse
  have hlength : y.answered.msgIbufLength = PDELAY_RESP_LENGTH := hholds.rewritten_length
  have hid : y.answered.portDS.portIdentity = y.slave.portDS.portIdentity :=
    congrArg DelayRequest.portIdentity hkept
  have hbody : msgUnpackDelayResp y.answered.msgIbuf =
      ⟨y.answering.external (y.master.ingress y.t4), y.answering.msgTmpHeader.sourcePortIdentity⟩ := by
    unfold msgUnpackDelayResp
    rw [hholds.timestamp (by decide), hholds.portIdentity (by decide)]
    exact msgUnpackDelayResp_pack _ _ _ _
  refine ⟨?_, ?_, ?_⟩
  · have hport : y.answered.portDS.portState.follows = true := by
      rw [show y.answered.portDS.portState = y.slave.portDS.portState from
        congrArg DelayRequest.portState hkept]
      rcases hl.slaveState with hport | hport <;> rw [hport] <;> rfl
    have hparent : (y.answered.delivered (y.answered.ingress y.time)).isFromCurrentParent = true := by
      refine isSamePortIdentity_iff.mpr ?_
      exact (congrArg DelayRequest.parentPortIdentity hkept).trans
        (hl.parent.trans hheader.sourcePortIdentity.symm)
    have hseq : (y.answered.sentDelayReqSequenceId.toNat : Int) - 1 =
        (msgUnpackHeader y.answered.msgIbuf).sequenceId.toNat := by
      have hnumber : y.answered.sentDelayReqSequenceId = y.slave.sentDelayReqSequenceId + 1 :=
        congrArg DelayRequest.sentDelayReqSequenceId hkept
      rw [hheader.sequenceId _ rfl]
      show (y.answered.sentDelayReqSequenceId.toNat : Int) - 1 =
        (msgUnpackHeader y.master.msgIbuf).sequenceId.toNat
      rw [hrequest.sequenceId _ rfl, hnumber]
      refine number_before fun hzero => hd.numbered ?_
      exact (congrArg DelayRequest.sentDelayReqSequenceId hd.awaits).symm.trans (hnumber.trans hzero)
    have hrequester : isSamePortIdentity y.answered.portDS.portIdentity
        (msgUnpackDelayResp y.answered.msgIbuf).requestingPortIdentity = true := by
      rw [hbody, hid]
      exact isSamePortIdentity_iff.mpr hrequest.sourcePortIdentity.symm
    have hsamples : y.answered.ofm_filt.n ≠ 0 := by
      rw [show y.answered.ofm_filt.n = y.slave.ofm_filt.n from
        congrArg DelayRequest.offsetSamples hkept]
      exact hn
    rw [handleMessage_eq (by rw [hlength]; decide) hheader
      (hl.versionNumber.trans (congrArg DelayRequest.versionNumber hkept).symm)
      (hl.domainNumber.trans (congrArg DelayRequest.domainNumber hkept).symm)
      (fun h => hl.distinct (h.symm.trans hid))]
    unfold dispatch
    rw [show MessageType.ofCode (y.answered.delivered _).msgTmpHeader.messageType = _ from
      hheader.messageType]
    exact TimedMessage.handle_taken (m := .delayResp) hlength.ge
      ⟨(congrArg DelayRequest.delayMechanism hkept).trans hl.slaveMechanism, hport, hseq,
        hrequester, hparent, hsamples⟩
  · have hb := hs.t4.bounds
    have hlb := hl.masterInbound.bounds
    rw [hbody, hs.t4.ingress hl.masterInbound]
    exact toInternalTime_fromInternalTime (by omega) (by omega) _ _
  · show scaledNanosecondsToInternalTime (msgUnpackHeader y.answered.msgIbuf).correctionfield = _
    rw [hheader.correctionfield, scaledNanosecondsToInternalTime_eq hs.cResponse]

/-- The delay is the exact one. -/
theorem measures {n : Int} (hl : y.Linked) (hs : y.Stamped) (hd : y.Delivered)
    (hn : y.slave.ofm_filt.n ≠ 0) (hTms : y.slave.Tms = .ofNanos n)
    (hbound : n.natAbs < 537154389000000000) :
    MeasuresDelay y.answered (handleMessage y.time y.answered) (.ofNanos (y.delayNanos n)) := by
  obtain ⟨htaken, ht4, hcorrection⟩ := response_taken hl hs hd hn
  have hkept := answered_eq hs hd
  have ht3 : y.answered.timestamp_delayReqSend =
      .ofNanos (y.t3.nanos + y.slave.outboundLatency.nanos) :=
    (congrArg DelayRequest.timestamp_delayReqSend hkept).trans (hs.t3.egress hl.slaveOutbound)
  have hTms' : y.answered.Tms = .ofNanos n := (congrArg DelayRequest.Tms hkept).trans hTms
  have hsamples : y.answered.ofm_filt.n ≠ 0 := by
    rw [show y.answered.ofm_filt.n = y.slave.ofm_filt.n from
      congrArg DelayRequest.offsetSamples hkept]
    exact hn
  have hmeasures := acceptDelayResp_measures (v := y.answered)
    (w := y.answered.delivered (y.answered.ingress y.time)) hsamples ⟨[_], rfl⟩
  rw [← htaken] at hmeasures
  have hsum : div2Time (addTime y.answered.Tms
      (subTime (subTime (toInternalTime y.answered.timestamp_delayReqRecieve
        (msgUnpackDelayResp y.answered.msgIbuf).receiveTimestamp)
        y.answered.timestamp_delayReqSend)
        (y.answered.delivered (y.answered.ingress y.time)).correctionField)) =
      .ofNanos (y.delayNanos n) := by
    have hb3 := hs.t3.bounds
    have hb4 := hs.t4.bounds
    have hl3 := hl.slaveOutbound.bounds
    have hl4 := hl.masterInbound.bounds
    have hc := correctionNanos_bounds hs.cResponse
    rw [ht3, ht4, hcorrection, hTms', hs.t4.ingress hl.masterInbound, subTime_ofNanos (by omega),
      subTime_ofNanos (by omega), addTime_ofNanos (by omega), div2Time_ofNanos (by omega)]
    rfl
  rw [← hsum]
  exact hmeasures

/-- Nothing that was kept of the offset changes before the request. -/
structure Follows (y : RequestExchange) (x : SyncExchange) : Prop where
  Tms : y.slave.Tms = x.synced.Tms
  offsetSamples : y.slave.ofm_filt.n = x.synced.ofm_filt.n

end RequestExchange

/-- **Offset and delay from end to end.** The offset is computed exactly. Unless it
    makes the servo step the clock `Tms` is left as computed, and then the delay is
    computed exactly as well, if the offset was less than a second. -/
theorem offset_delay_end_to_end (x : SyncExchange) (hl : x.Linked) (hs : x.Stamped)
    (hd : x.Delivered) :
    MeasuresOffset x.following x.synced (.ofNanos x.TmsNanos) (.ofNanos x.offsetNanos) ∧
      (Unstepped x.following x.synced →
        x.synced.Tms = .ofNanos x.TmsNanos ∧
          (|x.offsetNanos| < 1000000000 → x.following.ofm_filt.Counts →
            ∀ y : RequestExchange, y.Linked → y.Stamped → y.Delivered → y.Follows x →
              (msgUnpackHeader (bufOf y.response)).correctionfield = y.cRequest ∧
                MeasuresDelay y.answered (handleMessage y.time y.answered)
                  (.ofNanos (y.delayNanos x.TmsNanos)))) := by
  refine ⟨x.measures hl hs hd, ?_⟩
  intro hno
  obtain ⟨hTms, hsamples⟩ := x.kept hl hs hd hno
  refine ⟨hTms, ?_⟩
  intro hsmall hcounts y hyl hys hyd hfollows
  have hn : y.slave.ofm_filt.n ≠ 0 := by
    rw [hfollows.offsetSamples]
    exact hsamples hsmall hcounts
  have hbounds := x.TmsNanos_bounds hl hs
  exact ⟨y.response_correction hyl hys hyd,
    y.measures hyl hys hyd hn (hfollows.Tms.trans hTms) (by omega)⟩

/-- The exchange of two ports that do nothing else meanwhile. -/
def SyncExchange.between (master slave : World) (t1 t2 : TimeInternal) (cSync cFollowUp : Int) :
    SyncExchange :=
  let sent := (issueSync master).messages
  let syncing := slave.receiving (rewriteCorrection cSync (sent.tail.headD []))
  let following := (handleMessage t2 syncing).receiving
    (rewriteCorrection cFollowUp (sent.headD []))
  ⟨master, syncing, following, t1, t2, cSync, cFollowUp, ⟨0, 0⟩⟩

theorem SyncExchange.between_delivered {master slave : World} {t1 t2 t : TimeInternal}
    {cSync cFollowUp : Int} (hsync : master.platform.tx.head = .sent t1)
    (hfollowUp : master.platform.tx.tail.head = .sent t) :
    (between master slave t1 t2 cSync cFollowUp).Delivered := by
  have hkept : ∀ (w : World) (octets : List UInt8),
      (w.receiving octets).syncRequest = w.syncRequest := fun _ _ => rfl
  unfold between
  dsimp only
  generalize hsyncing : slave.receiving _ = s
  constructor
  case syncSent => exact hsync
  case followUpSent => exact ⟨t, hfollowUp⟩
  case sync => exact hsyncing ▸ World.receiving_holds _ _
  case follows => exact hkept _ _
  case followUp => exact World.receiving_holds _ _

def RequestExchange.between (slave master : World) (t3 t4 : TimeInternal)
    (cRequest cResponse : Int) : RequestExchange :=
  let request := (issueDelayReq slave).messages.headD []
  let master := master.receiving (rewriteCorrection cRequest request)
  let response := (handleMessage t4 master).messages.headD []
  let answered := (issueDelayReq slave).receiving (rewriteCorrection cResponse response)
  ⟨slave, master, answered, t3, t4, cRequest, cResponse, ⟨0, 0⟩⟩

theorem RequestExchange.between_delivered {slave master : World} {t3 t4 : TimeInternal}
    {cRequest cResponse : Int} (hrequest : slave.platform.tx.head = .sent t3)
    (hnumber : (issueDelayReq slave).sentDelayReqSequenceId ≠ 0) :
    (between slave master t3 t4 cRequest cResponse).Delivered := by
  have hkept : ∀ (w : World) (octets : List UInt8),
      (w.receiving octets).delayRequest = w.delayRequest := fun _ _ => rfl
  unfold between
  dsimp only
  generalize hmaster : master.receiving _ = m
  constructor
  case requestSent => exact hrequest
  case numbered => exact hnumber
  case request => exact hmaster ▸ World.receiving_holds _ _
  case awaits => exact hkept _ _
  case response => exact World.receiving_holds _ _

theorem RequestExchange.between_follows (x : SyncExchange) (master : World) (t3 t4 : TimeInternal)
    (cRequest cResponse : Int) :
    (between x.synced master t3 t4 cRequest cResponse).Follows x := ⟨rfl, rfl⟩

theorem MasterLink.receivingSlave {master slave : World} {octets : List UInt8}
    (h : MasterLink master.toPtpClock slave.toPtpClock) :
    MasterLink master.toPtpClock (slave.receiving octets).toPtpClock where
  __ := h
  slaveSpeaks := h.slaveSpeaks.receiving octets

theorem MasterLink.receivingMaster {master slave : World} {octets : List UInt8}
    (h : MasterLink master.toPtpClock slave.toPtpClock) :
    MasterLink (master.receiving octets).toPtpClock slave.toPtpClock where
  __ := h
  masterSpeaks := h.masterSpeaks.receiving octets

/-- A board that has become master. -/
def leadingBoard : World := sampleRun .E2E [.doState, .catchAlarm 12000, .doState]

/-- A second board, which has taken its Announce and follows it. -/
def followingBoard : World :=
  runInputs
    [.doState, .netRecvGeneralCallback (samplePacket ((issueAnnounce leadingBoard).messages.headD []) 0),
      .doState, .doState]
    (ptpdStartup (.sample .E2E) (World.zero .other))

theorem boards_linked : MasterLink leadingBoard.toPtpClock followingBoard.toPtpClock where
  masterSpeaks := ⟨by decide +kernel,
    ⟨by decide +kernel, by decide +kernel, by decide +kernel⟩, by decide +kernel, by decide +kernel⟩
  slaveSpeaks := ⟨by decide +kernel,
    ⟨by decide +kernel, by decide +kernel, by decide +kernel⟩, by decide +kernel, by decide +kernel⟩
  masterMechanism := by decide +kernel
  slaveMechanism := by decide +kernel
  masterState := by decide +kernel
  slaveState := by decide +kernel
  parent := by decide +kernel
  domainNumber := by decide +kernel
  distinct := by decide +kernel
  masterInbound := by decide +kernel
  masterOutbound := by decide +kernel
  slaveInbound := by decide +kernel
  slaveOutbound := by decide +kernel

/-- The way from the master takes 300 ns and is corrected by 3 ns and by -2 ns. -/
def sampleSyncExchange : SyncExchange :=
  .between leadingBoard followingBoard ⟨100, 5⟩ ⟨100, 305⟩ 196608 (-131072)

/-- The way back takes 700 ns and is corrected by 3 ns. -/
def sampleRequestExchange : RequestExchange :=
  .between sampleSyncExchange.synced leadingBoard ⟨100, 5⟩ ⟨100, 705⟩ (-131072) 196608

/-- What the link asks of the slave. -/
theorem synced_slave :
    let c := sampleSyncExchange.synced.toPtpClock
    (c.defaultDS.twoStepFlag = true ∧ c.msgObuf 1 = c.portDS.versionNumber ∧
      c.msgObuf 4 = c.defaultDS.domainNumber ∧
      getPortIdentity c.msgObuf 20 = c.portDS.portIdentity ∧ c.obufTwoStep = true ∧
      c.portDS.versionNumber = VERSION_PTP) ∧
    c.portDS.delayMechanism = .E2E ∧
    (c.portDS.portState = PTP_UNCALIBRATED ∨ c.portDS.portState = PTP_SLAVE) ∧
    c.parentDS.parentPortIdentity = leadingBoard.portDS.portIdentity ∧
    leadingBoard.defaultDS.domainNumber = c.defaultDS.domainNumber ∧
    leadingBoard.portDS.portIdentity ≠ c.portDS.portIdentity ∧
    c.inboundLatency.Latency ∧ c.outboundLatency.Latency := by
  decide +kernel

theorem synced_linked :
    MasterLink leadingBoard.toPtpClock sampleSyncExchange.synced.toPtpClock :=
  have ⟨⟨htwo, hversion, hdomain, hid, hobuf, hptp⟩, hmech, hstate, hparent, hdomainNumber,
    hdistinct, hinbound, houtbound⟩ := synced_slave
  have h := boards_linked
  ⟨h.masterSpeaks, ⟨htwo, ⟨hversion, hdomain, hid⟩, hobuf, hptp⟩, h.masterMechanism, hmech,
    h.masterState, hstate, hparent, hdomainNumber, hdistinct, h.masterInbound, h.masterOutbound,
    hinbound, houtbound⟩

theorem offset_delay_end_to_end_sample :
    MeasuresOffset sampleSyncExchange.following sampleSyncExchange.synced (.ofNanos 299)
        (.ofNanos 299) ∧
      MeasuresDelay sampleRequestExchange.answered
        (handleMessage sampleRequestExchange.time sampleRequestExchange.answered)
        (.ofNanos 498) := by
  have hsync : sampleSyncExchange.Delivered :=
    SyncExchange.between_delivered (t := ⟨100, 5⟩) (by decide +kernel) (by decide +kernel)
  have hrequest : sampleRequestExchange.Delivered :=
    RequestExchange.between_delivered (by decide +kernel) (by decide +kernel)
  have hrequestStamped : sampleRequestExchange.Stamped :=
    ⟨by decide, by decide, by decide, by decide⟩
  obtain ⟨hcanonical, hseconds, hnonneg, hcount, horder, hTms, hoffset, hstepped⟩ :
      sampleSyncExchange.following.currentDS.meanPathDelay.Canonical ∧
      |sampleSyncExchange.following.currentDS.meanPathDelay.seconds| < 2 ^ 29 ∧
      0 ≤ sampleSyncExchange.following.ofm_filt.n ∧
      sampleSyncExchange.following.ofm_filt.n < 2 ^ 31 - 1 ∧
      sampleSyncExchange.following.ofm_filt.s ≤ 30 ∧
      sampleSyncExchange.TmsNanos = 299 ∧ sampleSyncExchange.offsetNanos = 299 ∧
      Unstepped sampleSyncExchange.following sampleSyncExchange.synced := by
    decide +kernel
  have hdelay : sampleRequestExchange.delayNanos 299 = 498 := by decide +kernel
  obtain ⟨hmeasures, hkept⟩ := offset_delay_end_to_end sampleSyncExchange
    boards_linked.receivingSlave
    ⟨by decide, by decide, by decide, by decide, hcanonical, hseconds⟩ hsync
  obtain ⟨-, hanswered⟩ := hkept hstepped
  have hround := (hanswered (by rw [hoffset]; decide) ⟨hnonneg, hcount, horder⟩
    sampleRequestExchange synced_linked.receivingMaster hrequestStamped hrequest
      (RequestExchange.between_follows _ _ _ _ _ _)).2
  rw [hTms, hoffset] at hmeasures
  rw [hTms, hdelay] at hround
  exact ⟨hmeasures, hround⟩

/-- An offset of two seconds makes the servo step the clock, which clears `Tms`. -/
theorem offset_stepped : ¬ ∀ x : SyncExchange, x.Linked → x.Stamped → x.Delivered →
    x.synced.Tms = .ofNanos x.TmsNanos := by
  intro h
  have hTms := h (.between leadingBoard followingBoard ⟨100, 5⟩ ⟨102, 5⟩ 0 0)
    boards_linked.receivingSlave
    ⟨by decide, by decide, by decide, by decide, by decide +kernel, by decide +kernel⟩
    (SyncExchange.between_delivered (t := ⟨100, 5⟩) (by decide +kernel) (by decide +kernel))
  exact absurd (congrArg TimeInternal.seconds hTms) (by decide +kernel)

end Ptpd
