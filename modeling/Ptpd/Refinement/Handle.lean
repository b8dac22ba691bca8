import Ptpd.Refinement.Issue

/-! # The handlers refine the engine

    A message that a handler disregards leaves the engine as it is; one that it
    takes is the step of its type.
-/

namespace Ptpd

open PortState Engine

/-! ## Announce -/

theorem s1_engine (header : MsgHeader) (announce : MsgAnnounce) (w : World) :
    (s1 header announce w).engine =
      ⟨{ w.core with
          parent := header.sourcePortIdentity
          events.MASTER_CLOCK_CHANGED :=
            !isSamePortIdentity w.parentDS.parentPortIdentity header.sourcePortIdentity ||
              w.events.MASTER_CLOCK_CHANGED },
        ⟨.s1 header announce, w.toPtpClock⟩ :: w.log⟩ := rfl

theorem acceptAnnounce_parent_run {w : World} (hstate : w.portDS.portState.follows)
    (hsender : w.isFromCurrentParent) :
    Run w.engine
      (s1 w.msgTmpHeader (msgUnpackAnnounce w.msgIbuf) (acceptAnnounce w)).engine := by
  have hparent : w.parentDS.parentPortIdentity = w.msgTmpHeader.sourcePortIdentity :=
    isSamePortIdentity_iff.mp hsender
  have hsame : isSamePortIdentity (acceptAnnounce w).parentDS.parentPortIdentity
      w.msgTmpHeader.sourcePortIdentity = true := hsender
  rw [s1_engine, hsame]
  have hstep : Step w.engine ⟨{ w.core with events.STATE_DECISION_EVENT := true },
      ⟨.s1 w.msgTmpHeader (msgUnpackAnnounce w.msgIbuf), (acceptAnnounce w).toPtpClock⟩ ::
        (acceptAnnounce w).log⟩ :=
    .announceParent _ _ w.msgTmpHeader _ hstate hparent.symm rfl rfl rfl rfl
  refine .single ?_
  rw [← hparent]
  exact hstep

theorem acceptAnnounce_foreign_run {w : World} (hstate : w.portDS.portState.decides)
    (hsender : w.portDS.portState.follows → w.isFromCurrentParent = false) :
    Run w.engine
      (addForeign w.msgTmpHeader (msgUnpackAnnounce w.msgIbuf) (acceptAnnounce w)).engine := by
  refine .single (.announceForeign _ _ w.msgTmpHeader (msgUnpackAnnounce w.msgIbuf) hstate
    (fun h => ?_) rfl rfl rfl rfl)
  exact Ne.symm (isSamePortIdentity_eq_false.mp (hsender h))

theorem handleAnnounce_run (isFromSelf : Bool) (w : World) :
    Run w.engine (handleAnnounce isFromSelf w).engine := by
  unfold handleAnnounce
  split
  · exact fault_run w
  · split
    · exact .refl
    · cases hport : w.portDS.portState
      case PTP_INITIALIZING => exact .refl
      case PTP_FAULTY => exact .refl
      case PTP_DISABLED => exact .refl
      case PTP_LISTENING => exact acceptAnnounce_foreign_run (by rw [hport]; rfl) (by simp [hport, follows])
      case PTP_PRE_MASTER => exact acceptAnnounce_foreign_run (by rw [hport]; rfl) (by simp [hport, follows])
      case PTP_MASTER => exact acceptAnnounce_foreign_run (by rw [hport]; rfl) (by simp [hport, follows])
      case PTP_PASSIVE =>
        rw [← timerStart_engine .ANNOUNCE_RECEIPT_TIMER w.announceReceiptInterval w]
        have hport' : (timerStart .ANNOUNCE_RECEIPT_TIMER w.announceReceiptInterval w).portDS.portState = PTP_PASSIVE := hport
        exact acceptAnnounce_foreign_run (by rw [hport']; rfl) (by simp [hport', follows])
      all_goals
        dsimp only
        split
        · next hsender =>
          rw [timerStart_engine]
          exact acceptAnnounce_parent_run (by rw [hport]; rfl) hsender
        · next hsender =>
          exact acceptAnnounce_foreign_run (by rw [hport]; rfl)
            fun _ => Bool.not_eq_true _ ▸ hsender

/-! ## Sync and Follow_Up -/

theorem followOffset_run (w : World) : Run w.engine (followOffset w).engine :=
  (updateClock_run w).trans (issueDelayReqTimerExpired_run _)

theorem exists_newTimeInternal (t : Timestamp) (w : World) :
    ∃ stack w₁, newTimeInternal t w = (toInternalTime stack t, w₁) ∧ w₁.engine = w.engine ∧
      w₁.msgTmpHeader = w.msgTmpHeader ∧ w₁.msgIbuf = w.msgIbuf :=
  ⟨_, _, rfl, rfl, rfl, rfl⟩

variable {time : TimeInternal} {w : World}

theorem acceptTwoStepSync_run (htype : w.handles .SYNC) (hstate : w.portDS.portState.follows)
    (hsender : w.isFromCurrentParent) (htwo : w.isTwoStep) :
    Run w.engine (acceptTwoStepSync time w).engine :=
  .single (.measurement (.sync ⟨.acceptSync time, w.toPtpClock⟩ time rfl rfl htype htwo
    (isSamePortIdentity_iff.mp hsender).symm hstate))

theorem acceptOneStepSync_run (hmem : ⟨.received time, w.toPtpClock⟩ ∈ w.log)
    (htype : w.handles .SYNC) (hstate : w.portDS.portState.follows)
    (hsender : w.isFromCurrentParent) (htwo : w.isTwoStep = false) :
    Run w.engine (acceptOneStepSync time w).engine := by
  unfold acceptOneStepSync
  dsimp only
  obtain ⟨stack, w₁, hnew, heq, hheader, hbuf⟩ := exists_newTimeInternal
    (msgUnpackSync w.msgIbuf).originTimestamp
    { w with timestamp_syncRecieve := time, waitingForFollowUp := false }
  rw [hnew]
  dsimp only
  have hcore : w₁.core = { w.core with timestamp_syncRecieve := time, waitingForFollowUp := false } :=
    congrArg Engine.core heq
  have hlog : w₁.log = w.log := congrArg Engine.log heq
  have htime : w₁.timestamp_syncRecieve = time := congrArg Core.timestamp_syncRecieve hcore
  have hcorrection : w₁.correctionField = w.correctionField :=
    congrArg (fun h : MsgHeader => scaledNanosecondsToInternalTime h.correctionfield) hheader
  have hhandles : w₁.handles .SYNC := by
    unfold PtpClock.handles
    rw [hheader]
    exact htype
  rw [htime, hcorrection]
  -- one step for the offset, and what `updateClock` and the request do after it
  obtain ⟨c', new, hfiltered, hoffset⟩ := updateOffset_filtered time
    (toInternalTime stack (msgUnpackSync w.msgIbuf).originTimestamp) w.correctionField w₁
  rw [hcore] at hfiltered
  rw [hlog] at hoffset
  refine .trans ?_ (followOffset_run _)
  rw [hoffset]
  exact .single (.measurement (.syncOffset ⟨.received time, w.toPtpClock⟩ ⟨_, w₁.toPtpClock⟩ time
    stack hmem rfl htype htwo (isSamePortIdentity_iff.mp hsender).symm hstate rfl hcore hhandles
    ⟨hheader, hbuf⟩ hfiltered))

theorem handleSync_run (isFromSelf : Bool) (hmem : ⟨.received time, w.toPtpClock⟩ ∈ w.log)
    (htype : w.handles .SYNC) : Run w.engine (handleSync time isFromSelf w).engine := by
  unfold handleSync
  split
  · exact fault_run w
  · cases hport : w.portDS.portState
    case PTP_PASSIVE => exact issueDelayReqTimerExpired_run w
    case PTP_UNCALIBRATED | PTP_SLAVE =>
      have hstate : w.portDS.portState.follows := by rw [hport]; rfl
      dsimp only
      split
      · exact .refl
      · split
        · exact .refl
        · next hsender =>
          have hsender' : w.isFromCurrentParent = true := by simpa using hsender
          split
          · next htwo => exact acceptTwoStepSync_run htype hstate hsender' htwo
          · next htwo =>
            exact acceptOneStepSync_run hmem htype hstate hsender' (by simpa using htwo)
    all_goals exact .refl

theorem acceptFollowUp_run (hmem : ⟨.received time, w.toPtpClock⟩ ∈ w.log)
    (htype : w.handles .FOLLOW_UP) (hstate : w.portDS.portState.follows)
    (hsender : w.isFromCurrentParent) (hwait : w.waitingForFollowUp)
    (hseq : w.recvSyncSequenceId = w.msgTmpHeader.sequenceId) :
    Run w.engine (acceptFollowUp w).engine := by
  unfold acceptFollowUp
  dsimp only
  obtain ⟨stack, w₁, hnew, heq, hheader, hbuf⟩ := exists_newTimeInternal
    (msgUnpackFollowUp w.msgIbuf).preciseOriginTimestamp { w with waitingForFollowUp := false }
  rw [hnew]
  dsimp only
  have hcore : w₁.core = { w.core with waitingForFollowUp := false } := congrArg Engine.core heq
  have hlog : w₁.log = w.log := congrArg Engine.log heq
  have htime : w₁.timestamp_syncRecieve = w.timestamp_syncRecieve :=
    congrArg Core.timestamp_syncRecieve hcore
  have hsync : w₁.correctionField_sync = w.correctionField_sync :=
    congrArg Core.correctionField_sync hcore
  have hcorrection : w₁.correctionField = w.correctionField :=
    congrArg (fun h : MsgHeader => scaledNanosecondsToInternalTime h.correctionfield) hheader
  have hhandles : w₁.handles .FOLLOW_UP := by
    unfold PtpClock.handles
    rw [hheader]
    exact htype
  rw [htime, hcorrection, hsync]
  obtain ⟨c', new, hfiltered, hoffset⟩ := updateOffset_filtered w.timestamp_syncRecieve
    (toInternalTime stack (msgUnpackFollowUp w.msgIbuf).preciseOriginTimestamp)
    (addTime w.correctionField w.correctionField_sync) w₁
  rw [hcore] at hfiltered
  rw [hlog] at hoffset
  refine .trans ?_ (followOffset_run _)
  rw [hoffset]
  exact .single (.measurement (.followUp ⟨.received time, w.toPtpClock⟩ ⟨_, w₁.toPtpClock⟩ time
    stack hmem rfl htype (isSamePortIdentity_iff.mp hsender).symm hstate hwait hseq rfl hcore
    hhandles ⟨hheader, hbuf⟩ hfiltered))

theorem handleFollowUp_run (isFromSelf : Bool) (hmem : ⟨.received time, w.toPtpClock⟩ ∈ w.log)
    (htype : w.handles .FOLLOW_UP) : Run w.engine (handleFollowUp isFromSelf w).engine := by
  unfold handleFollowUp
  split
  · exact fault_run w
  · split
    · exact .refl
    · cases hport : w.portDS.portState
      case PTP_PASSIVE => exact issueDelayReqTimerExpired_run w
      case PTP_UNCALIBRATED | PTP_SLAVE =>
        have hstate : w.portDS.portState.follows := by rw [hport]; rfl
        dsimp only
        split
        · exact .refl
        · next hwait =>
          split
          · exact .refl
          · next hsender =>
            split
            · exact .refl
            · next hseq =>
              exact acceptFollowUp_run hmem htype hstate (by simpa using hsender)
                (by simpa using hwait) (not_not.mp hseq)
      all_goals exact .refl

/-! ## Delay request and response -/

theorem handleDelayReq_run (time : TimeInternal) (w : World) :
    Run w.engine (handleDelayReq time w).engine := by
  unfold handleDelayReq
  split
  · split
    · exact fault_run w
    · split
      · exact issueDelayResp_run time w.msgTmpHeader w
      all_goals exact .refl
  all_goals exact .refl

theorem acceptDelayResp_run (hmem : ⟨.received time, w.toPtpClock⟩ ∈ w.log)
    (htype : w.handles .DELAY_RESP) (hstate : w.portDS.portState.follows)
    (hsender : w.isFromCurrentParent) : Run w.engine (acceptDelayResp w).engine := by
  have hnote : Run w.engine (storeDelayResp (w.record .acceptDelayResp)).engine :=
    (record_noted w .acceptDelayResp rfl).run
  have hcore : (storeDelayResp (w.record .acceptDelayResp)).core = w.core := rfl
  have hmem₁ : ⟨.received time, w.toPtpClock⟩ ∈
      (storeDelayResp (w.record .acceptDelayResp)).log := List.mem_cons_of_mem _ hmem
  have hreceive : (storeDelayResp (w.record .acceptDelayResp)).timestamp_delayReqRecieve =
      toInternalTime w.timestamp_delayReqRecieve (msgUnpackDelayResp w.msgIbuf).receiveTimestamp :=
    rfl
  have hcorrection : (storeDelayResp (w.record .acceptDelayResp)).correctionField =
      w.correctionField := rfl
  have hmessage : (storeDelayResp (w.record .acceptDelayResp)).msgTmpHeader = w.msgTmpHeader ∧
      (storeDelayResp (w.record .acceptDelayResp)).msgIbuf = w.msgIbuf := ⟨rfl, rfl⟩
  unfold acceptDelayResp
  dsimp only
  generalize storeDelayResp (w.record .acceptDelayResp) = w₁ at *
  refine hnote.trans ?_
  rw [hreceive, hcorrection]
  generalize hreceive' : toInternalTime _ _ = receive
  -- without an offset sample `updateDelay` does nothing
  by_cases hsamples : w₁.ofm_filt.n = 0
  · have hskip : updateDelay w₁.timestamp_delayReqSend receive w.correctionField w₁ = w₁ :=
      if_pos hsamples.symm
    rw [hskip]
    exact .refl
  · obtain ⟨q, hq, hdelay⟩ :=
      updateDelay_engine w₁.timestamp_delayReqSend receive w.correctionField hsamples
    have hstep : Step w₁.engine ⟨w₁.core,
        ⟨.updateDelay w₁.timestamp_delayReqSend receive w.correctionField, w₁.toPtpClock⟩ ::
          w₁.log⟩ :=
      .delayResp ⟨.received time, w.toPtpClock⟩ _ time _ w.timestamp_delayReqRecieve hmem₁ rfl htype
        (by rw [hcore]; exact (isSamePortIdentity_iff.mp hsender).symm)
        (by rw [hcore]; exact hstate) hsamples (by rw [hreceive']) rfl hmessage
    have hrun : Run w₁.engine
        (updateDelay w₁.timestamp_delayReqSend receive w.correctionField w₁).engine := by
      rw [hdelay]
      exact .head hstep (.single (.note q hq))
    generalize updateDelay w₁.timestamp_delayReqSend receive w.correctionField w₁ = w₂ at hrun ⊢
    exact hrun

theorem handleDelayResp_run (hmem : ⟨.received time, w.toPtpClock⟩ ∈ w.log)
    (htype : w.handles .DELAY_RESP) : Run w.engine (handleDelayResp w).engine := by
  unfold handleDelayResp
  split
  · split
    · exact fault_run w
    · cases hport : w.portDS.portState
      case PTP_UNCALIBRATED | PTP_SLAVE =>
        dsimp only
        split
        · next h => exact acceptDelayResp_run hmem htype (by rw [hport]; rfl) h.2.2
        · exact .refl
      all_goals exact .refl
  all_goals exact .refl

/-! ## Peer delay -/

theorem handlePDelayReq_run (time : TimeInternal) (isFromSelf : Bool) (w : World) :
    Run w.engine (handlePDelayReq time isFromSelf w).engine := by
  have hrespond : Run w.engine
      (followPDelayResp (issuePDelayResp time w.msgTmpHeader w)).engine := by
    have hresp := issuePDelayResp_run time w.msgTmpHeader w
    generalize issuePDelayResp time w.msgTmpHeader w = sent at hresp ⊢
    refine hresp.trans ?_
    unfold followPDelayResp
    split
    · exact issuePDelayRespFollowUp_run _ _ _
    · exact .refl
  unfold handlePDelayReq
  split
  · split
    · exact fault_run w
    · cases w.portDS.portState
      case PTP_PASSIVE | PTP_SLAVE | PTP_MASTER =>
        dsimp only
        split
        · exact .refl
        · exact hrespond
      all_goals exact .refl
  all_goals exact .refl

theorem acceptTwoStepPDelayResp_run (time : TimeInternal) (htype : w.handles .PDELAY_RESP)
    (htwo : w.isTwoStep)
    (hrequest : w.portDS.portIdentity = (msgUnpackPDelayResp w.msgIbuf).requestingPortIdentity)
    (hseq : (w.sentPDelayReqSequenceId.toNat : Int) - 1 = w.msgTmpHeader.sequenceId.toNat) :
    Run w.engine (acceptTwoStepPDelayResp time w).engine :=
  .single (.peer (.pDelayResp ⟨.acceptPDelayResp time, w.toPtpClock⟩ time _ rfl rfl htype htwo
    hrequest.symm hseq))

theorem acceptOneStepPDelayResp_run (time : TimeInternal) (htwo : w.isTwoStep = false)
    (hseq : (w.sentPDelayReqSequenceId.toNat : Int) - 1 = w.msgTmpHeader.sequenceId.toNat) :
    Run w.engine (acceptOneStepPDelayResp time w).engine := by
  have hcore : (storePDelayResp time false (w.record (.acceptPDelayResp time))).core =
      { w.core with waitingForPDelayRespFollowUp := false, pdelay_t4 := time } := rfl
  have hlog : (storePDelayResp time false (w.record (.acceptPDelayResp time))).log =
      ⟨.acceptPDelayResp time, w.toPtpClock⟩ :: w.log := rfl
  have hheader : (storePDelayResp time false (w.record (.acceptPDelayResp time))).msgTmpHeader =
      w.msgTmpHeader := rfl
  unfold acceptOneStepPDelayResp
  dsimp only
  generalize storePDelayResp time false (w.record (.acceptPDelayResp time)) = w₁ at *
  obtain ⟨q, hq, heq⟩ := updatePeerDelay_engine w₁.correctionField false w₁
  rw [heq, hcore, hlog]
  have hstep : Step w.engine _ := .peer (.pDelayRespOneStep ⟨.acceptPDelayResp time, w.toPtpClock⟩
    ⟨.updatePeerDelay w₁.correctionField false, w₁.toPtpClock⟩ time rfl htwo rfl hcore
    (by rw [hheader]; exact hseq))
  exact .head hstep (.single (.note q hq))

theorem handlePDelayResp_run (time : TimeInternal) (isFromSelf : Bool)
    (htype : w.handles .PDELAY_RESP) :
    Run w.engine (handlePDelayResp time isFromSelf w).engine := by
  unfold handlePDelayResp
  split
  · split
    · exact fault_run w
    · cases w.portDS.portState
      case PTP_MASTER | PTP_SLAVE =>
        dsimp only
        split
        · exact .refl
        · split
          · next h =>
            split
            · next htwo =>
              exact acceptTwoStepPDelayResp_run time htype htwo
                (isSamePortIdentity_iff.mp h.2) h.1
            · next htwo => exact acceptOneStepPDelayResp_run time (by simpa using htwo) h.1
          · exact .refl
      all_goals exact .refl
  all_goals exact .refl

theorem acceptPDelayRespFollowUp_run (htype : w.handles .PDELAY_RESP_FOLLOW_UP)
    (hwait : w.waitingForPDelayRespFollowUp)
    (hseq : (w.msgTmpHeader.sequenceId.toNat : Int) = w.sentPDelayReqSequenceId.toNat - 1) :
    Run w.engine (acceptPDelayRespFollowUp w).engine := by
  have hnote : Run w.engine (w.record .acceptPDelayRespFollowUp).engine :=
    (record_noted w .acceptPDelayRespFollowUp rfl).run
  unfold acceptPDelayRespFollowUp
  dsimp only
  refine hnote.trans ?_
  obtain ⟨stack, w₁, hnew, heq, hheader, hbuf⟩ := exists_newTimeInternal
    (msgUnpackPDelayRespFollowUp w.msgIbuf).responseOriginTimestamp
    (w.record .acceptPDelayRespFollowUp)
  rw [hnew]
  dsimp only
  have hcore : w₁.core = w.core := congrArg Engine.core heq
  have hmsg : w₁.msgTmpHeader = w.msgTmpHeader := hheader
  have hibuf : w₁.msgIbuf = w.msgIbuf := hbuf
  have hhandles : w₁.handles .PDELAY_RESP_FOLLOW_UP := by
    unfold PtpClock.handles
    rw [hmsg]
    exact htype
  have hseq₁ : (w₁.msgTmpHeader.sequenceId.toNat : Int) =
      w₁.core.sentPDelayReqSequenceId.toNat - 1 := by
    rw [hmsg, hcore]
    exact hseq
  have hwait₁ : w₁.core.waitingForPDelayRespFollowUp := by
    rw [hcore]
    exact hwait
  rw [← heq, ← hibuf]
  -- t3 is stored before the update that the step is about
  generalize hstore : storePDelayRespFollowUp _ w₁ = w₂
  have hengine : w₂.engine = w₁.engine := hstore ▸ rfl
  have ht3 : w₂.pdelay_t3 = toInternalTime stack
      (msgUnpackPDelayRespFollowUp w₂.msgIbuf).responseOriginTimestamp := hstore ▸ rfl
  have hhandles₂ : w₂.handles .PDELAY_RESP_FOLLOW_UP := hstore ▸ hhandles
  have hseq₂ : (w₂.msgTmpHeader.sequenceId.toNat : Int) =
      w₂.core.sentPDelayReqSequenceId.toNat - 1 := hstore ▸ hseq₁
  have hwait₂ : w₂.core.waitingForPDelayRespFollowUp := hstore ▸ hwait₁
  rw [← hengine]
  obtain ⟨q, hq, hupdate⟩ := updatePeerDelay_engine
    (addTime w₂.correctionField w₂.correctionField_pDelayResp) true w₂
  have hstep : Step w₂.engine _ := .peer (.pDelayRespFollowUp
    ⟨.updatePeerDelay (addTime w₂.correctionField w₂.correctionField_pDelayResp) true,
      w₂.toPtpClock⟩ stack hwait₂ rfl rfl hhandles₂ hseq₂ ht3)
  generalize updatePeerDelay _ true w₂ = w₃ at hupdate ⊢
  have hend : World.engine { w₃ with waitingForPDelayRespFollowUp := false } =
      ⟨{ w₂.core with waitingForPDelayRespFollowUp := false }, w₃.log⟩ := by
    rw [← show w₃.core = w₂.core from congrArg Engine.core hupdate]
    rfl
  rw [hend, show w₃.log = _ from congrArg Engine.log hupdate]
  exact .head hstep (.single (.note q hq))

theorem handlePDelayRespFollowUp_run (htype : w.handles .PDELAY_RESP_FOLLOW_UP) :
    Run w.engine (handlePDelayRespFollowUp w).engine := by
  unfold handlePDelayRespFollowUp
  split
  · split
    · exact fault_run w
    · cases w.portDS.portState
      case PTP_SLAVE | PTP_MASTER =>
        dsimp only
        split
        · exact .refl
        · next hwait =>
          split
          · next hseq => exact acceptPDelayRespFollowUp_run htype (by simpa using hwait) hseq
          · exact .refl
      all_goals exact .refl
  all_goals exact .refl

/-! ## Management -/

theorem ptp_unpack_control_engine (p : TimeInternal) (ipaddr : UInt32) (w : World) :
    (ptp_unpack_control p ipaddr w).engine = w.engine := by
  unfold ptp_unpack_control
  dsimp only
  split
  · rfl
  · split <;> rfl

theorem handleManagement_run (isFromSelf : Bool) (w : World) :
    Run w.engine (handleManagement isFromSelf w).engine := by
  unfold handleManagement
  split
  · exact fault_run w
  · cases w.portDS.portState
    case PTP_MASTER =>
      dsimp only
      split
      · rw [ptp_unpack_control_engine]
      · exact .refl
    all_goals exact .refl

/-! ## Dispatch -/

theorem dispatch_run (isFromSelf : Bool) (hmem : ⟨.received time, w.toPtpClock⟩ ∈ w.log) :
    Run w.engine (dispatch time isFromSelf w).engine := by
  unfold dispatch
  split
  · exact handleAnnounce_run isFromSelf w
  · next htype => exact handleSync_run isFromSelf hmem htype
  · next htype => exact handleFollowUp_run isFromSelf hmem htype
  · exact handleDelayReq_run time w
  · exact handlePDelayReq_run time isFromSelf w
  · next htype => exact handleDelayResp_run hmem htype
  · next htype => exact handlePDelayResp_run time isFromSelf htype
  · next htype => exact handlePDelayRespFollowUp_run htype
  · exact handleManagement_run isFromSelf w
  · exact .refl

/-- The message is in the history when it is dispatched. -/
theorem dispatch_received_run (time : TimeInternal) (isFromSelf : Bool) (w : World) :
    Run w.engine (dispatch time isFromSelf (w.record (.received time))).engine :=
  (record_noted w (.received time) rfl).run.trans
    (dispatch_run isFromSelf List.mem_cons_self)

theorem handleMessage_run (time : TimeInternal) (w : World) :
    Run w.engine (handleMessage time w).engine := by
  unfold handleMessage
  dsimp only
  split
  · exact fault_run { w with messageActivity := true }
  · split
    · exact .refl
    · split
      · exact .refl
      · exact dispatch_received_run _ _
          { w with messageActivity := true, msgTmpHeader := msgUnpackHeader w.msgIbuf }

theorem netRecvEvent_noted (time : TimeInternal) (w : World) :
    Noted w.engine (netRecvEvent time w).2 :=
  netRecv_noted (netQGet w.netPath.eventQ).1 time
    { w with netPath.eventQ := (netQGet w.netPath.eventQ).2 }

theorem netRecvGeneral_noted (time : TimeInternal) (w : World) :
    Noted w.engine (netRecvGeneral time w).2 :=
  netRecv_noted (netQGet w.netPath.generalQ).1 time
    { w with netPath.generalQ := (netQGet w.netPath.generalQ).2 }

theorem handleReceive_run (w : World) : Run w.engine (handleReceive w).engine := by
  unfold handleReceive
  obtain ⟨received, w₁, hrecv, h₁⟩ := (netRecvEvent_noted ⟨0, 0⟩ w).exists_pair
  rw [hrecv]
  dsimp only
  refine h₁.run.trans ?_
  split
  · exact fault_run { w₁ with msgIbufLength := received.length }
  · split
    · obtain ⟨received₂, w₂, hrecv₂, h₂⟩ := (netRecvGeneral_noted received.time
        { w₁ with msgIbufLength := received.length }).exists_pair
      rw [hrecv₂]
      dsimp only
      refine h₂.run.trans ?_
      split
      · exact fault_run { w₂ with msgIbufLength := received₂.length }
      · split
        · exact .refl
        · exact handleMessage_run received₂.time { w₂ with msgIbufLength := received₂.length }
    · exact handleMessage_run received.time { w₁ with msgIbufLength := received.length }

theorem handle_run (w : World) : Run w.engine (handle w).engine := by
  unfold handle
  split
  · dsimp only
    split
    · exact fault_run w
    · split
      · exact .refl
      · exact handleReceive_run w
  · exact handleReceive_run w

end Ptpd
