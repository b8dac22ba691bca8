import Ptpd.Act

/-! # The code performs acts

    Every function of the stack is a sequence of acts. Most are quiet: they move
    the request timers, buffers and clock readings, and send messages that a
    port may send in any role.
-/

namespace Ptpd

open PortState Engine Octets

variable {w w' : World}

/-! ## Timers, platform and sends -/

theorem setTimer_quiet (i : Timer) (t : IntervalTimer) (w : World)
    (h : i.ofRole = false ∨ t.interval = (w.itimer i).interval) : Quiet w (w.setTimer i t) := by
  have hinterval : (w.setTimer i t).setting.interval = w.setting.interval := by
    funext k
    simp only [PtpClock.setting, World.setTimer]
    by_cases hk : k = i
    · subst hk
      rcases h with h | h
      · simp [h]
      · simp [h]
    · simp [hk]
  have hset : (w.setTimer i t).setting =
      { w.setting with interval := (w.setTimer i t).setting.interval } := rfl
  exact .of_eq (by rw [hset, hinterval]) rfl

theorem timerStop_quiet {i : Timer} (w : World) (h : i.ofRole = false) :
    Quiet w (timerStop i w) :=
  setTimer_quiet i _ w (.inl h)

theorem timerStart_quiet {i : Timer} (t : Int) (w : World) (h : i.ofRole = false) :
    Quiet w (timerStart i t w) :=
  setTimer_quiet i _ w (.inl h)

theorem timerStartRand_quiet {i : Timer} (t : Int) (w : World) (h : i.ofRole = false) :
    Quiet w (timerStartRand i t w) := by
  have hrand : Quiet w (getRand t (w.recordArming i t)).2 := .of_eq rfl rfl
  exact hrand.trans (timerStart_quiet _ _ h)

theorem IntervalTimer.advance_interval (delta : Int) (t : IntervalTimer) :
    (t.advance delta).interval = t.interval := by
  unfold IntervalTimer.advance
  split
  · dsimp only
    split <;> rfl
  · rfl

theorem timerUpdate_quiet (w : World) : Quiet w (timerUpdate w) := by
  unfold timerUpdate
  dsimp only
  split
  · exact .of_eq rfl rfl
  · refine .of_eq ?_ rfl
    simp only [PtpClock.setting, PtpClock.dataSets, IntervalTimer.advance_interval]

theorem takeExpire_quiet (i : Timer) (w : World) : Quiet w (takeExpire i w).2 := by
  unfold takeExpire
  split
  · exact .refl w
  · exact setTimer_quiet i _ w (.inr rfl)

theorem timerExpired_quiet (i : Timer) (w : World) : Quiet w (timerExpired i w).2 :=
  (timerUpdate_quiet w).trans (takeExpire_quiet i _)

theorem branch_acts {call : Bool × World} {f g : World → World} (h : Acts w call.2)
    (hf : call.1 = true → Acts call.2 (f call.2)) (hg : call.1 = false → Acts call.2 (g call.2)) :
    Acts w (branch f g call) := by
  unfold branch
  split
  · next htrue => exact h.trans (hf htrue)
  · next hfalse => exact h.trans (hg (by simpa using hfalse))

theorem leading_take (c : PtpClock) (buf : Buf) (m : Outgoing) {n : Nat} (hn : 34 ≤ n) :
    leading (take n (m.pack c buf)) ↔ m.messageType.leads := by
  have htype : MessageType.ofCode (msgUnpackHeader (bufOf (take n (m.pack c buf)))).messageType =
      some m.messageType := by
    rw [msgUnpackHeader_bufOf _ hn, msgUnpackHeader_pack]
    exact MessageType.ofCode_code _
  constructor
  · rintro ⟨t, ht, hleads⟩
    rwa [← Option.some.inj (ht.symm.trans htype)]
  · intro h
    exact ⟨_, htype, h⟩

/-- A message that any port may send. -/
theorem issue_quiet (port : UdpPort) (group : Group) (m : Outgoing) {n : Nat} (w : World)
    (hn : 34 ≤ n) (hm : m.messageType.leads = false) : Quiet w (w.issue port group m n) := by
  refine .cons (x := w.issued port group m n) ?_ rfl rfl
  intro hleading
  rw [leading_take w.toPtpClock w.msgObuf m hn, hm] at hleading
  cases hleading

theorem popTimestamp_quiet (w : World) : Quiet w w.popTimestamp := .of_eq rfl rfl

theorem popTime_quiet (w : World) : Quiet w w.popTime := .of_eq rfl rfl

/-! ## Issuing -/

theorem issueDelayReq_quiet (w : World) : Quiet w (issueDelayReq w) := by
  have hissue : Quiet w w.delayReqIssued :=
    ((popTime_quiet w).trans (popTimestamp_quiet _)).trans
      ((issue_quiet .event .ptp _ _ (by decide) rfl).trans (.of_eq rfl rfl))
  rw [issueDelayReq_eq]
  dsimp only
  split
  · exact hissue.trans (.of_eq rfl rfl)
  · exact hissue

theorem issuePDelayReq_quiet (w : World) : Quiet w (issuePDelayReq w) := by
  have hissue : Quiet w w.pDelayReqIssued :=
    (record_quiet w .issuePDelayReq trivial).trans
      (((popTime_quiet _).trans (popTimestamp_quiet _)).trans
        ((issue_quiet .event .peer _ _ (by decide) rfl).trans (.of_eq rfl rfl)))
  rw [issuePDelayReq_eq]
  dsimp only
  split
  · exact hissue.trans (.of_eq rfl rfl)
  · exact hissue

theorem issuePDelayResp_quiet (time : TimeInternal) (header : MsgHeader) (w : World) :
    Quiet w (issuePDelayResp time header w).2 := by
  rw [issuePDelayResp_eq]
  exact (popTimestamp_quiet w).trans (issue_quiet .event .peer _ _ (by decide) rfl)

theorem issuePDelayRespFollowUp_quiet (time : TimeInternal) (header : MsgHeader) (w : World) :
    Quiet w (issuePDelayRespFollowUp time header w) := by
  rw [issuePDelayRespFollowUp_eq]
  exact (popTimestamp_quiet w).trans (issue_quiet .general .peer _ _ (by decide) rfl)

theorem issueDelayResp_eq (time : TimeInternal) (header : MsgHeader) (w : World) :
    issueDelayResp time header w =
      w.popTimestamp.issue .general .ptp (.delayResp header (w.external time))
        PDELAY_RESP_LENGTH := by
  unfold issueDelayResp netSendGeneral
  rw [newTimestamp_eq]
  dsimp only
  rw [netSend_eq]
  have hret : ((PDELAY_RESP_LENGTH : Nat) : Int) ≠ 0 := by decide
  exact if_neg hret

theorem issueDelayResp_quiet (time : TimeInternal) (header : MsgHeader) (w : World) :
    Quiet w (issueDelayResp time header w) := by
  rw [issueDelayResp_eq]
  exact (popTimestamp_quiet w).trans (issue_quiet .general .ptp _ _ (by decide) rfl)

/-- The offset as `issueManagement` puts it over what a `Timestamp` holds. -/
def World.externalOffset (external : Timestamp) (w : World) : Timestamp :=
  { secondsField := { external.secondsField with
      lsb := UInt32.ofInt w.currentDS.offsetFromMaster.seconds }
    nanosecondsField := UInt32.ofInt w.currentDS.offsetFromMaster.nanoseconds }

theorem issueManagement_eq (w : World) :
    issueManagement w =
      w.popTimestamp.issue .general .ptp
        (.management (w.popTimestamp.externalOffset w.platform.stackTimestamp.head)
          w.popTimestamp.platform.netif_ip_addr) MANAGEMENT_LENGTH := by
  have hstack : stackTimestamp w = (w.platform.stackTimestamp.head, w.popTimestamp) := rfl
  have hret : ((MANAGEMENT_LENGTH : Nat) : Int) ≠ 0 := by decide
  unfold issueManagement netSendGeneral
  rw [hstack]
  dsimp only
  rw [netSend_eq]
  exact if_neg hret

theorem issueManagement_quiet (w : World) : Quiet w (issueManagement w) := by
  rw [issueManagement_eq]
  exact (popTimestamp_quiet w).trans (issue_quiet .general .ptp _ _ (by decide) rfl)

theorem ifExpired_quiet (i : Timer) {f g : World → World} (w : World)
    (hf : ∀ w, Quiet w (f w)) (hg : ∀ w, Quiet w (g w)) : Quiet w (ifExpired i f g w) := by
  have hexpired := timerExpired_quiet i w
  unfold ifExpired
  generalize timerExpired i w = call at hexpired ⊢
  unfold branch
  split
  · exact hexpired.trans (hf _)
  · exact hexpired.trans (hg _)

theorem issueDelayReqTimerExpired_quiet (w : World) : Quiet w (issueDelayReqTimerExpired w) := by
  unfold issueDelayReqTimerExpired
  split
  · split
    · exact .refl w
    · exact ifExpired_quiet _ w
        (fun w => (timerStartRand_quiet _ w rfl).trans (issueDelayReq_quiet _)) .refl
  · exact ifExpired_quiet _ w
      (fun w => (timerStartRand_quiet _ w rfl).trans (issuePDelayReq_quiet _)) .refl
  · exact .refl w

/-- A Sync, and its Follow_Up, of a master. -/
theorem issueFollowup_acts (time : TimeInternal) (hport : w.portDS.portState = PTP_MASTER)
    (hc : w.core.Consistent) : Acts w (issueFollowup time w) := by
  rw [issueFollowup_eq]
  exact (popTimestamp_quiet w).acts.tail
    (.issue .general .ptp (.followUp (w.external time)) hport hc)

theorem syncIssued_acts (hport : w.portDS.portState = PTP_MASTER) (hc : w.core.Consistent) :
    Acts w w.syncIssued := by
  have hissue := (((popTime_quiet w).trans (popTimestamp_quiet _)).acts.tail
    (.issue .event .ptp (.sync (w.popTime.external w.platform.time.head)) hport hc))
  exact hissue.tail (.quiet (.of_eq rfl rfl))

theorem issueSync_acts (hport : w.portDS.portState = PTP_MASTER) (hc : w.core.Consistent) :
    Acts w (issueSync w) := by
  rw [issueSync_eq]
  dsimp only
  split
  · exact (syncIssued_acts hport hc).trans (issueFollowup_acts _ hport hc)
  · exact syncIssued_acts hport hc

theorem issueAnnounce_eq (w : World) :
    issueAnnounce w =
      let w := w.issue .general .ptp .announce ANNOUNCE_LENGTH
      { w with sentAnnounceSequenceId := w.sentAnnounceSequenceId + 1 } := by
  have hret : ((ANNOUNCE_LENGTH : Nat) : Int) ≠ 0 := by decide
  unfold issueAnnounce netSendGeneral
  dsimp only
  rw [netSend_eq]
  exact if_neg hret

theorem issueAnnounce_acts (hport : w.portDS.portState = PTP_MASTER) (hc : w.core.Consistent) :
    Acts w (issueAnnounce w) := by
  have hissue : Acts w (w.issue .general .ptp .announce ANNOUNCE_LENGTH) :=
    .single (.issue .general .ptp .announce hport hc)
  rw [issueAnnounce_eq]
  exact hissue.tail (.quiet (.of_eq rfl rfl))

/-! ## Servo -/

theorem adjFreq_quiet (adj : Int) (w : World) : Quiet w (adjFreq adj w) :=
  record_quiet w _ trivial

/-- A step of the clock is the only adjustment that is not quiet. -/
theorem updateClock_acts (w : World) : Acts w (updateClock w) := by
  have hstep : Acts w (stepClock w) := by
    have htime : Quiet w (getTime w).2 := .of_eq rfl rfl
    have hset : Quiet w (setTime (subTime w.platform.time.head w.currentDS.offsetFromMaster)
        (getTime w).2) :=
      htime.trans (record_quiet _ (.setTime _) trivial)
    exact hset.acts.tail .initClock
  unfold updateClock
  split
  · split
    · split
      · exact hstep
      · exact (adjFreq_quiet _ w).acts
    · exact .refl
  · dsimp only
    have hdrift : Quiet w { w with observedDrift := w.accumulatedDrift } := .of_eq rfl rfl
    split
    · exact (hdrift.trans (adjFreq_quiet _ _)).acts
    · exact hdrift.acts

theorem synchronizationFault_quiet (w : World) : Quiet w (synchronizationFault w) := by
  unfold synchronizationFault
  split
  · exact .of_eq rfl rfl
  · exact .refl w

theorem offsetEvents_quiet (w : World) : Quiet w (offsetEvents w) := by
  unfold offsetEvents
  split
  · split
    · exact .of_eq rfl rfl
    · exact .refl w
  · split
    · exact synchronizationFault_quiet w
    · exact .refl w

theorem setFilteredOffset_quiet (filtered : Int × Filter) (w : World) :
    Quiet w (setFilteredOffset filtered w) := .of_eq rfl rfl

theorem filterOffset_quiet (w : World) : Quiet w (filterOffset w) := by
  have hrecord : Quiet w (w.record .unfilteredOffset) := record_quiet w _ trivial
  unfold filterOffset
  dsimp only
  split
  · exact hrecord.trans (synchronizationFault_quiet _)
  · exact hrecord.trans ((setFilteredOffset_quiet _ _).trans
      ((record_quiet _ .filteredOffset trivial).trans (offsetEvents_quiet _)))

theorem updateOffset_quiet (i o f : TimeInternal) (w : World) : Quiet w (updateOffset i o f w) := by
  have hrecord : Quiet w (w.record (.updateOffset i o f)) := record_quiet w _ trivial
  unfold updateOffset
  dsimp only
  refine hrecord.trans (Quiet.trans ?_ (filterOffset_quiet _))
  exact .of_eq rfl rfl

theorem filterDelay_quiet (w : World) : Quiet w (filterDelay w) := by
  have hrecord : Quiet w (w.record .unfilteredDelay) := record_quiet w _ trivial
  have hset : ∀ filtered (w : World), Quiet w (setFilteredDelay filtered w) :=
    fun _ _ => .of_eq rfl rfl
  unfold filterDelay
  dsimp only
  split
  · exact hrecord
  · exact hrecord.trans (hset _ _)

theorem updateDelay_quiet (e r f : TimeInternal) (w : World) : Quiet w (updateDelay e r f w) := by
  have hrecord : Quiet w (w.record (.updateDelay e r f)) := record_quiet w _ trivial
  unfold updateDelay
  split
  · exact .refl w
  · dsimp only
    refine hrecord.trans (Quiet.trans ?_ (filterDelay_quiet _))
    exact .of_eq rfl rfl

theorem filterPeerDelay_quiet (w : World) : Quiet w (filterPeerDelay w) := by
  have hrecord : Quiet w (w.record .unfilteredPeerDelay) := record_quiet w _ trivial
  have hset : ∀ filtered (w : World), Quiet w (setFilteredPeerDelay filtered w) :=
    fun _ _ => .of_eq rfl rfl
  unfold filterPeerDelay
  dsimp only
  split
  · exact hrecord
  · exact hrecord.trans (hset _ _)

theorem updatePeerDelay_quiet (f : TimeInternal) (twoStep : Bool) (w : World) :
    Quiet w (updatePeerDelay f twoStep w) := by
  have hrecord : Quiet w (w.record (.updatePeerDelay f twoStep)) := record_quiet w _ trivial
  unfold updatePeerDelay
  dsimp only
  refine hrecord.trans (Quiet.trans ?_ (filterPeerDelay_quiet _))
  exact .of_eq rfl rfl

/-! ## Handling messages -/

theorem fault_acts (w : World) : Acts w (toState PTP_FAULTY w) :=
  .single (.toState PTP_FAULTY (.inr (.inl rfl)))

theorem acceptAnnounce_quiet (w : World) : Quiet w (acceptAnnounce w) := by
  have hset : Quiet w { w with
      events.STATE_DECISION_EVENT := true
      msgTmpAnnounce := msgUnpackAnnounce w.msgIbuf } := .of_eq rfl rfl
  exact hset.trans (record_quiet _ _ trivial)

theorem addForeign_quiet (header : MsgHeader) (announce : MsgAnnounce) (w : World) :
    Quiet w (addForeign header announce w) :=
  (record_quiet w (.addForeign _) trivial).trans (.of_eq rfl rfl)

theorem handleAnnounce_acts (isFromSelf : Bool) (hc : w.core.Consistent) :
    Acts w (handleAnnounce isFromSelf w) := by
  have hforeign : Acts w (addForeign w.msgTmpHeader (msgUnpackAnnounce w.msgIbuf)
      (acceptAnnounce w)) :=
    ((acceptAnnounce_quiet w).trans (addForeign_quiet _ _ _)).acts
  have hparent : w.portDS.portState.follows → Acts w (timerStart .ANNOUNCE_RECEIPT_TIMER
      (s1 w.msgTmpHeader (msgUnpackAnnounce w.msgIbuf) (acceptAnnounce w)).announceReceiptInterval
      (s1 w.msgTmpHeader (msgUnpackAnnounce w.msgIbuf) (acceptAnnounce w))) := by
    intro hport
    have hfollow := (acceptAnnounce_quiet w).acts.tail
      (.follow w.msgTmpHeader (msgUnpackAnnounce w.msgIbuf) hport ⟨hc.agrees, hc.maxForeignRecords⟩)
    exact hfollow.tail (.restart (.inl hport))
  unfold handleAnnounce
  split
  · exact fault_acts w
  · split
    · exact .refl
    · cases hport : w.portDS.portState
      case PTP_INITIALIZING | PTP_FAULTY | PTP_DISABLED => exact .refl
      case PTP_LISTENING | PTP_PRE_MASTER | PTP_MASTER => exact hforeign
      case PTP_PASSIVE =>
        have hrestart : Acts w (timerStart .ANNOUNCE_RECEIPT_TIMER w.announceReceiptInterval w) :=
          .single (.restart (.inr hport))
        exact hrestart.trans ((acceptAnnounce_quiet _).trans (addForeign_quiet _ _ _)).acts
      case PTP_UNCALIBRATED | PTP_SLAVE =>
        dsimp only
        split
        · exact hparent (by rw [hport]; rfl)
        · exact hforeign

theorem followOffset_acts (w : World) : Acts w (followOffset w) :=
  (updateClock_acts w).trans (issueDelayReqTimerExpired_quiet _).acts

theorem newTimeInternal_quiet (t : Timestamp) (w : World) : Quiet w (newTimeInternal t w).2 :=
  .of_eq rfl rfl

theorem acceptOneStepSync_acts (time : TimeInternal) (w : World) :
    Acts w (acceptOneStepSync time w) := by
  have hset : Quiet w { w with timestamp_syncRecieve := time, waitingForFollowUp := false } :=
    .of_eq rfl rfl
  unfold acceptOneStepSync
  dsimp only
  exact ((hset.trans (newTimeInternal_quiet _ _)).trans (updateOffset_quiet _ _ _ _)).acts.trans
    (followOffset_acts _)

theorem acceptFollowUp_acts (w : World) : Acts w (acceptFollowUp w) := by
  have hset : Quiet w { w with waitingForFollowUp := false } := .of_eq rfl rfl
  unfold acceptFollowUp
  dsimp only
  exact ((hset.trans (newTimeInternal_quiet _ _)).trans (updateOffset_quiet _ _ _ _)).acts.trans
    (followOffset_acts _)

theorem handleSync_acts (time : TimeInternal) (isFromSelf : Bool) (w : World) :
    Acts w (handleSync time isFromSelf w) := by
  have htwoStep : Quiet w (acceptTwoStepSync time w) :=
    .cons (x := ⟨.acceptSync time, w.toPtpClock⟩) trivial rfl rfl
  unfold handleSync
  split
  · exact fault_acts w
  · cases w.portDS.portState
    case PTP_PASSIVE => exact (issueDelayReqTimerExpired_quiet w).acts
    case PTP_UNCALIBRATED | PTP_SLAVE =>
      dsimp only
      split
      · exact .refl
      · split
        · exact .refl
        · split
          · exact htwoStep.acts
          · exact acceptOneStepSync_acts time w
    all_goals exact .refl

theorem handleFollowUp_acts (isFromSelf : Bool) (w : World) :
    Acts w (handleFollowUp isFromSelf w) := by
  unfold handleFollowUp
  split
  · exact fault_acts w
  · split
    · exact .refl
    · cases w.portDS.portState
      case PTP_PASSIVE => exact (issueDelayReqTimerExpired_quiet w).acts
      case PTP_UNCALIBRATED | PTP_SLAVE =>
        dsimp only
        split
        · exact .refl
        · split
          · exact .refl
          · split
            · exact .refl
            · exact acceptFollowUp_acts w
      all_goals exact .refl

theorem handleDelayReq_acts (time : TimeInternal) (w : World) : Acts w (handleDelayReq time w) := by
  unfold handleDelayReq
  split
  · split
    · exact fault_acts w
    · split
      · exact (issueDelayResp_quiet time w.msgTmpHeader w).acts
      all_goals exact .refl
  all_goals exact .refl

theorem storeDelayResp_quiet (w : World) : Quiet w (storeDelayResp w) := .of_eq rfl rfl

theorem acceptDelayResp_quiet (w : World) : Quiet w (acceptDelayResp w) := by
  have hrecord : Quiet w (w.record .acceptDelayResp) := record_quiet w _ trivial
  unfold acceptDelayResp
  dsimp only
  exact ((hrecord.trans (storeDelayResp_quiet _)).trans (updateDelay_quiet _ _ _ _)).trans
    (.of_eq rfl rfl)

theorem handleDelayResp_acts (w : World) : Acts w (handleDelayResp w) := by
  unfold handleDelayResp
  split
  · split
    · exact fault_acts w
    · cases w.portDS.portState
      case PTP_UNCALIBRATED | PTP_SLAVE =>
        dsimp only
        split
        · exact (acceptDelayResp_quiet w).acts
        · exact .refl
      all_goals exact .refl
  all_goals exact .refl

theorem handlePDelayReq_acts (time : TimeInternal) (isFromSelf : Bool) (w : World) :
    Acts w (handlePDelayReq time isFromSelf w) := by
  have hrespond : Quiet w (followPDelayResp (issuePDelayResp time w.msgTmpHeader w)) := by
    have hresp := issuePDelayResp_quiet time w.msgTmpHeader w
    generalize issuePDelayResp time w.msgTmpHeader w = sent at hresp ⊢
    refine hresp.trans ?_
    unfold followPDelayResp
    split
    · exact issuePDelayRespFollowUp_quiet _ _ _
    · exact .refl _
  unfold handlePDelayReq
  split
  · split
    · exact fault_acts w
    · cases w.portDS.portState
      case PTP_PASSIVE | PTP_SLAVE | PTP_MASTER =>
        dsimp only
        split
        · exact .refl
        · exact hrespond.acts
      all_goals exact .refl
  all_goals exact .refl

theorem storePDelayResp_quiet (time : TimeInternal) (twoStep : Bool) (w : World) :
    Quiet w (storePDelayResp time twoStep w) := .of_eq rfl rfl

theorem acceptTwoStepPDelayResp_quiet (time : TimeInternal) (w : World) :
    Quiet w (acceptTwoStepPDelayResp time w) :=
  .cons (x := ⟨.acceptPDelayResp time, w.toPtpClock⟩) trivial rfl rfl

theorem acceptOneStepPDelayResp_quiet (time : TimeInternal) (w : World) :
    Quiet w (acceptOneStepPDelayResp time w) := by
  have hrecord : Quiet w (w.record (.acceptPDelayResp time)) := record_quiet w _ trivial
  unfold acceptOneStepPDelayResp
  dsimp only
  exact (hrecord.trans (storePDelayResp_quiet _ _ _)).trans (updatePeerDelay_quiet _ _ _)

theorem handlePDelayResp_acts (time : TimeInternal) (isFromSelf : Bool) (w : World) :
    Acts w (handlePDelayResp time isFromSelf w) := by
  unfold handlePDelayResp
  split
  · split
    · exact fault_acts w
    · cases w.portDS.portState
      case PTP_MASTER | PTP_SLAVE =>
        dsimp only
        split
        · exact .refl
        · split
          · split
            · exact (acceptTwoStepPDelayResp_quiet time w).acts
            · exact (acceptOneStepPDelayResp_quiet time w).acts
          · exact .refl
      all_goals exact .refl
  all_goals exact .refl

theorem acceptPDelayRespFollowUp_quiet (w : World) : Quiet w (acceptPDelayRespFollowUp w) := by
  have hrecord : Quiet w (w.record .acceptPDelayRespFollowUp) := record_quiet w _ trivial
  have hstore : ∀ t (w : World), Quiet w (storePDelayRespFollowUp t w) := fun _ _ => .of_eq rfl rfl
  unfold acceptPDelayRespFollowUp
  dsimp only
  exact (((hrecord.trans (newTimeInternal_quiet _ _)).trans (hstore _ _)).trans
    (updatePeerDelay_quiet _ _ _)).trans (.of_eq rfl rfl)

theorem handlePDelayRespFollowUp_acts (w : World) : Acts w (handlePDelayRespFollowUp w) := by
  unfold handlePDelayRespFollowUp
  split
  · split
    · exact fault_acts w
    · cases w.portDS.portState
      case PTP_SLAVE | PTP_MASTER =>
        dsimp only
        split
        · exact .refl
        · split
          · exact (acceptPDelayRespFollowUp_quiet w).acts
          · exact .refl
      all_goals exact .refl
  all_goals exact .refl

theorem ptp_unpack_control_quiet (p : TimeInternal) (ipaddr : UInt32) (w : World) :
    Quiet w (ptp_unpack_control p ipaddr w) := by
  unfold ptp_unpack_control
  dsimp only
  split
  · exact .of_eq rfl rfl
  · split <;> exact .of_eq rfl rfl

theorem handleManagement_acts (isFromSelf : Bool) (w : World) :
    Acts w (handleManagement isFromSelf w) := by
  unfold handleManagement
  split
  · exact fault_acts w
  · cases w.portDS.portState
    case PTP_MASTER =>
      dsimp only
      split
      · exact (ptp_unpack_control_quiet _ _ w).acts
      · exact .refl
    all_goals exact .refl

theorem dispatch_acts (time : TimeInternal) (isFromSelf : Bool) (hc : w.core.Consistent) :
    Acts w (dispatch time isFromSelf w) := by
  unfold dispatch
  split
  · exact handleAnnounce_acts isFromSelf hc
  · exact handleSync_acts time isFromSelf w
  · exact handleFollowUp_acts isFromSelf w
  · exact handleDelayReq_acts time w
  · exact handlePDelayReq_acts time isFromSelf w
  · exact handleDelayResp_acts w
  · exact handlePDelayResp_acts time isFromSelf w
  · exact handlePDelayRespFollowUp_acts w
  · exact handleManagement_acts isFromSelf w
  · exact .refl

/-! ## Receiving -/

theorem Noted.core_eq {e : Engine} (h : Noted e w) : w.core = e.core := by
  obtain ⟨new, -, heq⟩ := h
  exact congrArg Engine.core heq

theorem Engine.Run.consistent {e e' : Engine} (h : Run e e') (hc : e.core.Consistent) :
    e'.core.Consistent := by
  induction h with
  | refl => exact hc
  | tail _ hlast ih => exact hlast.consistent ih

theorem handleMessage_acts (time : TimeInternal) (hc : w.core.Consistent) :
    Acts w (handleMessage time w) := by
  have hactive : Quiet w { w with messageActivity := true } := .of_eq rfl rfl
  have hheader : Quiet w
      { w with messageActivity := true, msgTmpHeader := msgUnpackHeader w.msgIbuf } :=
    .of_eq rfl rfl
  unfold handleMessage
  dsimp only
  split
  · exact hactive.acts.trans (fault_acts _)
  · split
    · exact hheader.acts
    · split
      · exact hheader.acts
      · exact (hheader.trans (record_quiet _ (.received _) trivial)).acts.trans
          (dispatch_acts _ _ ⟨hc.agrees, hc.maxForeignRecords⟩)

theorem msgIbufLength_quiet (length : Int) (w : World) :
    Quiet w { w with msgIbufLength := length } := .of_eq rfl rfl

theorem handleReceive_acts (hc : w.core.Consistent) : Acts w (handleReceive w) := by
  have hevent : Acts w (netRecvEvent ⟨0, 0⟩ w).2 := .single (.receiveEvent _)
  have hcore := (netRecvEvent_noted ⟨0, 0⟩ w).core_eq
  unfold handleReceive
  generalize netRecvEvent ⟨0, 0⟩ w = received at hevent hcore ⊢
  obtain ⟨received, w₁⟩ := received
  have hc₁ : w₁.core.Consistent := by
    rw [show w₁.core = w.core from hcore]
    exact hc
  have hlength := (msgIbufLength_quiet received.length w₁).acts
  dsimp only
  refine hevent.trans (hlength.trans ?_)
  split
  · exact fault_acts _
  · split
    · -- the event queue gave nothing, so the general queue is looked at
      have hgeneral : Acts { w₁ with msgIbufLength := received.length }
          (netRecvGeneral received.time { w₁ with msgIbufLength := received.length }).2 :=
        .single (.receiveGeneral _)
      have hcore₂ := (netRecvGeneral_noted received.time
        { w₁ with msgIbufLength := received.length }).core_eq
      generalize netRecvGeneral received.time { w₁ with msgIbufLength := received.length } =
        received₂ at hgeneral hcore₂ ⊢
      obtain ⟨received₂, w₂⟩ := received₂
      have hc₂ : w₂.core.Consistent := by
        rw [show w₂.core = w₁.core from hcore₂]
        exact hc₁
      have hlength₂ := (msgIbufLength_quiet received₂.length w₂).acts
      dsimp only
      refine hgeneral.trans (hlength₂.trans ?_)
      split
      · exact fault_acts _
      · split
        · exact .refl
        · exact handleMessage_acts _ ⟨hc₂.agrees, hc₂.maxForeignRecords⟩
    · exact handleMessage_acts _ ⟨hc₁.agrees, hc₁.maxForeignRecords⟩

theorem handle_acts (hc : w.core.Consistent) : Acts w (handle w) := by
  unfold handle
  split
  · dsimp only
    split
    · exact fault_acts w
    · split
      · exact .refl
      · exact handleReceive_acts hc
  · exact handleReceive_acts hc

/-! ## The state machine -/

/-- Branches in a world that the engine cannot tell from the one before the call. -/
theorem branch_engine_acts {call : Bool × World} {f g : World → World} (h : Acts w call.2)
    (heq : call.2.engine = w.engine)
    (hf : ∀ w' : World, w'.core = w.core → Acts w' (f w'))
    (hg : ∀ w' : World, w'.core = w.core → Acts w' (g w')) : Acts w (branch f g call) := by
  have hcore : call.2.core = w.core := congrArg Engine.core heq
  exact branch_acts h (fun _ => hf _ hcore) fun _ => hg _ hcore

theorem ifExpired_acts (i : Timer) {f g : World → World} (w : World)
    (hf : ∀ w' : World, w'.core = w.core → Acts w' (f w'))
    (hg : ∀ w' : World, w'.core = w.core → Acts w' (g w')) : Acts w (ifExpired i f g w) :=
  branch_engine_acts (timerExpired_quiet i w).acts (timerExpired_engine i w) hf hg

theorem branch_portState {call : Bool × World} {f g : World → World}
    (h : call.2.engine = w.engine)
    (hf : ∀ w : World, (f w).portDS.portState = w.portDS.portState)
    (hg : ∀ w : World, (g w).portDS.portState = w.portDS.portState) :
    (branch f g call).portDS.portState = w.portDS.portState := by
  have hport : call.2.portDS.portState = w.portDS.portState :=
    congrArg (fun e => e.core.portState) h
  unfold branch
  split
  · exact (hf call.2).trans hport
  · exact (hg call.2).trans hport

theorem issueSync_portState (w : World) :
    (issueSync w).portDS.portState = w.portDS.portState := by
  rw [issueSync_eq]
  dsimp only
  split
  · rw [issueFollowup_eq]
    rfl
  · rfl

/-- A Sync that is due leaves the port as it is. -/
theorem syncExpired_portState (w : World) :
    (ifExpired .SYNC_INTERVAL_TIMER issueSync id w).portDS.portState = w.portDS.portState := by
  unfold ifExpired
  have hengine := timerExpired_engine .SYNC_INTERVAL_TIMER w
  generalize timerExpired .SYNC_INTERVAL_TIMER w = call at hengine ⊢
  exact branch_portState hengine issueSync_portState fun _ => rfl

theorem mayEnter_of_agrees {s : PortState} (h : s.agrees w.recommendedState)
    (hs : s ≠ PTP_SLAVE) : w.MayEnter s :=
  .inr (.inr (.inr ⟨h, fun hslave => absurd hslave hs⟩))

theorem recommendedMaster_acts (hrec : w.recommendedState = PTP_MASTER) :
    Acts w (recommendedMaster w) := by
  have hmaster : ∀ w' : World, w'.core = w.core → Acts w' (toState PTP_MASTER w') := by
    intro w' hcore
    have hrec' : w'.recommendedState = PTP_MASTER :=
      (congrArg Core.recommendedState hcore).trans hrec
    exact .single (.toState PTP_MASTER (mayEnter_of_agrees hrec' (by simp)))
  unfold recommendedMaster
  split
  · exact ifExpired_acts .QUALIFICATION_TIMEOUT w hmaster fun _ _ => .refl
  · exact .refl
  · exact .single (.toState PTP_PRE_MASTER (mayEnter_of_agrees hrec (by simp)))

/-- Clear an event bit. -/
theorem events_quiet (events : Events) (w : World) : Quiet w { w with events := events } :=
  .of_eq rfl rfl

theorem recommendedSlave_acts (hrec : w.recommendedState = PTP_SLAVE) :
    Acts w (recommendedSlave w) := by
  have huncalibrate : ∀ w : World, w.recommendedState = PTP_SLAVE →
      Acts w (toState PTP_UNCALIBRATED w) := fun w hrec =>
    .single (.toState PTP_UNCALIBRATED (mayEnter_of_agrees hrec (by simp)))
  have hclear : ∀ w : World, Acts w (if w.events.MASTER_CLOCK_CHANGED then
      { w with events.MASTER_CLOCK_CHANGED := false } else w) := by
    intro w
    split
    · exact (events_quiet _ w).acts
    · exact .refl
  unfold recommendedSlave
  cases hport : w.portDS.portState
  case PTP_UNCALIBRATED =>
    dsimp only
    refine Relation.ReflTransGen.trans ?_ (hclear _)
    split
    · have hslave : Act { w with events.MASTER_CLOCK_SELECTED := false }
          (toState PTP_SLAVE { w with events.MASTER_CLOCK_SELECTED := false }) :=
        .toState PTP_SLAVE (.inr (.inr (.inr ⟨hrec, fun _ => hport⟩)))
      exact (events_quiet _ w).acts.tail hslave
    · exact .refl
  case PTP_SLAVE =>
    dsimp only
    -- after a fault the port is UNCALIBRATED, but still recommended to be slave
    have hfirst : ∃ w₁, (if w.events.SYNCHRONIZATION_FAULT then
        toState PTP_UNCALIBRATED { w with events.SYNCHRONIZATION_FAULT := false } else w) = w₁ ∧
        Acts w w₁ ∧ w₁.recommendedState = PTP_SLAVE := by
      refine ⟨_, rfl, ?_⟩
      split
      · refine ⟨(events_quiet _ w).acts.trans (huncalibrate _ hrec), ?_⟩
        have hrecommended := (toState_noted PTP_UNCALIBRATED
          { w with events.SYNCHRONIZATION_FAULT := false }).core_eq
        exact (congrArg Core.recommendedState hrecommended).trans
          ((Core.enter_recommendedState _ (by simp) (by simp)).trans hrec)
      · exact ⟨.refl, hrec⟩
    obtain ⟨w₁, hw₁, hacts, hrec₁⟩ := hfirst
    rw [hw₁]
    refine hacts.trans ?_
    split
    · exact (events_quiet _ w₁).acts.trans (huncalibrate _ hrec₁)
    · exact .refl
  all_goals exact huncalibrate w hrec

theorem recommendedAction_acts (w : World) : Acts w (recommendedAction w) := by
  unfold recommendedAction
  cases hrec : w.recommendedState
  case PTP_MASTER => exact recommendedMaster_acts hrec
  case PTP_SLAVE => exact recommendedSlave_acts hrec
  case PTP_PASSIVE =>
    dsimp only
    split
    · exact .single (.toState PTP_PASSIVE (mayEnter_of_agrees hrec (by simp)))
    · exact .refl
  case PTP_LISTENING =>
    dsimp only
    split
    · exact .single (.toState PTP_LISTENING (.inr (.inr (.inl rfl))))
    · exact .refl
  all_goals exact .refl

theorem announceReceiptTimeoutExpires_acts (w : World) :
    Acts w (announceReceiptTimeoutExpires w) := by
  have hempty : Quiet w (emptyForeignMasterDS w) :=
    (record_quiet w .announceTimeout trivial).trans (.of_eq rfl rfl)
  unfold announceReceiptTimeoutExpires
  generalize emptyForeignMasterDS w = w₁ at hempty ⊢
  dsimp only
  refine hempty.acts.trans ?_
  split
  case isTrue hso =>
    have hm1 : Acts w₁ (m1 w₁) := .single .m1
    have hslave : (m1 w₁).isSlaveOnly = false := by
      rw [show (m1 w₁).isSlaveOnly = w₁.isSlaveOnly from rfl]
      simpa using hso
    have hlead : Act (m1 w₁) { m1 w₁ with recommendedState := PTP_MASTER } :=
      .lead hslave ⟨rfl, rfl, rfl, rfl, rfl⟩
    exact (hm1.tail hlead).tail (.toState PTP_MASTER (mayEnter_of_agrees rfl (by simp)))
  case isFalse =>
    split
    · exact .single (.toState PTP_LISTENING (.inr (.inr (.inl rfl))))
    · exact .refl

theorem passiveAction_acts (hc : w.core.Consistent) : Acts w (passiveAction w) := by
  unfold passiveAction
  exact ifExpired_acts .ANNOUNCE_RECEIPT_TIMER w
    (fun w' _ => announceReceiptTimeoutExpires_acts w')
    fun w' hcore => handle_acts (hcore ▸ hc)

theorem initialise_acts (hport : w.portDS.portState = PTP_INITIALIZING)
    (hc : w.core.Consistent) : Acts w (initialise w) := by
  have hinit : Acts w (initData w) := .single (.initData hport hc)
  have hdata : Acts w (initTimer (initData w)) := hinit.tail (.quiet (.of_eq rfl rfl))
  have hm1 : Acts w (m1 (initClock (initTimer (initData w)))) :=
    (hdata.tail .initClock).tail .m1
  exact hm1.tail (.quiet (.of_eq rfl rfl))

theorem doInit_acts (hport : w.portDS.portState = PTP_INITIALIZING) (hc : w.core.Consistent) :
    Acts w (doInit w).2 := by
  have hnet : Acts w (netInit w).2 := .single .netInit
  have hengine := netInit_engine w
  rw [doInit_eq]
  generalize netInit w = net at hnet hengine ⊢
  have hcore : net.2.core = w.core := congrArg Engine.core hengine
  split
  · exact hnet
  · refine hnet.trans (initialise_acts ((congrArg Core.portState hcore).trans hport) ?_)
    rw [hcore]
    exact hc

/-- What LISTENING, UNCALIBRATED and SLAVE do. -/
theorem followAction_acts (hc : w.core.Consistent) :
    Acts w (passiveAction (ifExpired .MANAGEMENT_INTERVAL_TIMER
      (fun w => handle (issueManagement w)) id w)) := by
  have hreport : Acts w (ifExpired .MANAGEMENT_INTERVAL_TIMER
      (fun w => handle (issueManagement w)) id w) := by
    refine ifExpired_acts .MANAGEMENT_INTERVAL_TIMER w ?_ fun _ _ => .refl
    intro w' hcore
    have hc' : w'.core.Consistent := hcore ▸ hc
    exact (issueManagement_quiet w').acts.trans
      (handle_acts ((issueManagement_run w').consistent hc'))
  have hrun : Run w.engine (ifExpired .MANAGEMENT_INTERVAL_TIMER
      (fun w => handle (issueManagement w)) id w).engine :=
    ifExpired_run .MANAGEMENT_INTERVAL_TIMER w
      (fun w => (issueManagement_run w).trans (handle_run _)) fun _ => .refl
  exact hreport.trans (passiveAction_acts (hrun.consistent hc))

theorem syncExpired_acts (hport : w.portDS.portState = PTP_MASTER) (hc : w.core.Consistent) :
    Acts w (ifExpired .SYNC_INTERVAL_TIMER issueSync id w) := by
  refine ifExpired_acts .SYNC_INTERVAL_TIMER w ?_ fun _ _ => .refl
  intro w' hcore
  exact issueSync_acts ((congrArg Core.portState hcore).trans hport) (hcore ▸ hc)

theorem announceExpired_acts (hport : w.portDS.portState = PTP_MASTER)
    (hc : w.core.Consistent) : Acts w (ifExpired .ANNOUNCE_INTERVAL_TIMER issueAnnounce id w) := by
  refine ifExpired_acts .ANNOUNCE_INTERVAL_TIMER w ?_ fun _ _ => .refl
  intro w' hcore
  exact issueAnnounce_acts ((congrArg Core.portState hcore).trans hport) (hcore ▸ hc)

/-- What MASTER does once a Sync that was due is sent. -/
theorem masterAction_acts (hport : w.portDS.portState = PTP_MASTER) (hc : w.core.Consistent) :
    Acts w (issueDelayReqTimerExpired (handle
      (ifExpired .ANNOUNCE_INTERVAL_TIMER issueAnnounce id w))) := by
  have hrun : Run w.engine (ifExpired .ANNOUNCE_INTERVAL_TIMER issueAnnounce id w).engine :=
    ifExpired_run .ANNOUNCE_INTERVAL_TIMER w issueAnnounce_run fun _ => .refl
  exact ((announceExpired_acts hport hc).trans (handle_acts (hrun.consistent hc))).trans
    (issueDelayReqTimerExpired_quiet _).acts

theorem portAction_acts (hc : w.core.Consistent) : Acts w (portAction w) := by
  unfold portAction
  cases hport : w.portDS.portState
  case PTP_INITIALIZING =>
    refine branch_acts (doInit_acts hport hc) (fun _ => ?_) fun _ => fault_acts _
    exact .single (.toState PTP_LISTENING (.inr (.inr (.inl rfl))))
  case PTP_FAULTY => exact .single (.toState PTP_INITIALIZING (.inl rfl))
  case PTP_DISABLED => exact handle_acts hc
  case PTP_PASSIVE => exact passiveAction_acts hc
  case PTP_LISTENING | PTP_UNCALIBRATED | PTP_SLAVE => exact followAction_acts hc
  case PTP_PRE_MASTER => exact .refl
  case PTP_MASTER =>
    have hrun : Run w.engine (ifExpired .SYNC_INTERVAL_TIMER issueSync id w).engine :=
      ifExpired_run .SYNC_INTERVAL_TIMER w issueSync_run fun _ => .refl
    exact (syncExpired_acts hport hc).trans
      (masterAction_acts ((syncExpired_portState w).trans hport) (hrun.consistent hc))

theorem doState_acts (hc : w.core.Consistent) : Acts w (doState w) := by
  have hidle : Quiet w { w with messageActivity := false } := .of_eq rfl rfl
  have hdecision := decision_run { w with messageActivity := false }
  have hacts : Acts w (recommendedAction (stateDecision { w with messageActivity := false })) :=
    (hidle.acts.tail .decide).trans (recommendedAction_acts _)
  exact hacts.trans (portAction_acts (hdecision.consistent hc))

/-! ## State decisions -/

theorem recommend_frame (d : PortState × World) :
    (recommend d).portDS = d.2.portDS ∧ (recommend d).itimer = d.2.itimer ∧
      (recommend d).netPath = d.2.netPath := by
  unfold recommend
  dsimp only
  split
  · split <;> exact ⟨rfl, rfl, rfl⟩
  · split <;> exact ⟨rfl, rfl, rfl⟩
  · exact ⟨rfl, rfl, rfl⟩

theorem bmcStateDecision_frame (header : MsgHeader) (announce : MsgAnnounce) (w : World) :
    (bmcStateDecision header announce w).2.portDS = w.portDS ∧
      (bmcStateDecision header announce w).2.itimer = w.itimer ∧
      (bmcStateDecision header announce w).2.netPath = w.netPath := by
  unfold bmcStateDecision
  split
  · exact ⟨rfl, rfl, rfl⟩
  · dsimp only
    split
    · split <;> exact ⟨rfl, rfl, rfl⟩
    · split <;> exact ⟨rfl, rfl, rfl⟩

/-- A state decision leaves the port data set, the timers and the queues alone. -/
theorem stateDecision_frame (w : World) :
    (stateDecision w).portDS = w.portDS ∧ (stateDecision w).itimer = w.itimer ∧
      (stateDecision w).netPath = w.netPath := by
  rw [stateDecision_eq]
  split
  · rw [bmc_eq]
    generalize hw₁ : ({ w with events.STATE_DECISION_EVENT := false } : World) = w₁
    have hselect : w₁.selected.portDS = w.portDS ∧ w₁.selected.itimer = w.itimer ∧
        w₁.selected.netPath = w.netPath := hw₁ ▸ ⟨rfl, rfl, rfl⟩
    obtain ⟨hport, htimer, hpath⟩ := recommend_frame
      (bmcStateDecision w₁.bmcRecord.header w₁.bmcRecord.announce w₁.selected)
    obtain ⟨hport', htimer', hpath'⟩ := bmcStateDecision_frame
      w₁.bmcRecord.header w₁.bmcRecord.announce w₁.selected
    exact ⟨hport.trans (hport'.trans hselect.1), htimer.trans (htimer'.trans hselect.2.1),
      hpath.trans (hpath'.trans hselect.2.2)⟩
  · exact ⟨rfl, rfl, rfl⟩

/-! ## Runs -/

/-- An act, or a packet handed over by lwIP. -/
inductive Event : World → World → Prop where
  | act {w w' : World} (h : Act w w') : Event w w'
  | arriveEvent {w : World} (p : Pbuf) : Event w (netRecvEventCallback p w)
  | arriveGeneral {w : World} (p : Pbuf) : Event w (netRecvGeneralCallback p w)

theorem Acts.events (h : Acts w w') : Relation.ReflTransGen Event w w' := by
  induction h with
  | refl => exact .refl
  | tail _ hlast ih => exact ih.tail (.act hlast)

theorem ptpdStartup_acts (rtOpts : RunTimeOpts) (w : World) : Acts w (ptpdStartup rtOpts w) :=
  (Relation.ReflTransGen.single (Act.startup rtOpts)).tail (.toState PTP_INITIALIZING (.inl rfl))

theorem step_events (input : Input) (hc : w.core.Consistent) :
    Relation.ReflTransGen Event w (step input w) := by
  cases input with
  | ptpdStartup rtOpts => exact (ptpdStartup_acts rtOpts w).events
  | catchAlarm time_ms =>
    have hquiet : Quiet w (catchAlarm time_ms w) := .of_eq rfl rfl
    exact hquiet.acts.events
  | netRecvEventCallback p => exact .single (.arriveEvent p)
  | netRecvGeneralCallback p => exact .single (.arriveGeneral p)
  | doState => exact (doState_acts hc).events
  | linkUp => exact .single (.act (.toState PTP_LISTENING (.inr (.inr (.inl rfl)))))
  | adjust offset =>
    have hquiet : Quiet w { w with currentDS.offsetFromMaster := offset } := .of_eq rfl rfl
    have hacts : Acts w _ := hquiet.acts.trans (updateClock_acts _)
    exact hacts.events

theorem Reachable.consistent (hw : Reachable w) : w.core.Consistent := by
  obtain ⟨e, he, hrun⟩ := hw.engine_run
  exact hrun.consistent he.consistent

/-- Every reachable world comes from power-on by events. -/
theorem Reachable.events (hw : Reachable w) :
    ∃ platform, Relation.ReflTransGen Event (World.zero platform) w := by
  induction hw with
  | init platform rtOpts hv => exact ⟨platform, (ptpdStartup_acts rtOpts _).events⟩
  | step input hw hv ih =>
    obtain ⟨platform, hrun⟩ := ih
    exact ⟨platform, hrun.trans (step_events input hw.consistent)⟩

/-- Invariant rule: power-on and every event. -/
theorem Reachable.of_events (hw : Reachable w) (Inv : World → Prop)
    (hzero : ∀ platform, Inv (World.zero platform))
    (hevent : ∀ w w', Event w w' → Inv w → Inv w') : Inv w := by
  obtain ⟨platform, hrun⟩ := hw.events
  clear hw
  induction hrun with
  | refl => exact hzero platform
  | tail _ hlast ih => exact hevent _ _ hlast ih

theorem netRecvEventCallback_grows (p : Pbuf) (w : World) :
    Grows Call.isRestart w (netRecvEventCallback p w) := by
  unfold netRecvEventCallback
  dsimp only
  split
  · exact .of_eq rfl
  · exact .record w (.pbuf_free p) trivial

theorem netRecvGeneralCallback_grows (p : Pbuf) (w : World) :
    Grows Call.isRestart w (netRecvGeneralCallback p w) := by
  unfold netRecvGeneralCallback
  dsimp only
  split
  · exact .of_eq rfl
  · exact .record w (.pbuf_free p) trivial

theorem Event.records (h : Event w w') :
    ∃ new, w'.log = new ++ w.log ∧ ∀ x ∈ new, Records w x := by
  have hrestart : ∀ {w' : World}, Grows Call.isRestart w w' →
      ∃ new, w'.log = new ++ w.log ∧ ∀ x ∈ new, Records w x := by
    rintro w' ⟨new, hlog, hnew⟩
    exact ⟨new, hlog, fun x hx => .of_isRestart (hnew x hx)⟩
  cases h with
  | act h => exact h.records
  | arriveEvent p => exact hrestart (netRecvEventCallback_grows p w)
  | arriveGeneral p => exact hrestart (netRecvGeneralCallback_grows p w)

/-- What holds of the entries there are, and of those an event may add, holds of all. -/
theorem Event.forall_log {p : LogEntry → Prop} (h : Event w w') (hold : ∀ x ∈ w.log, p x)
    (hnew : ∀ x, Records w x → p x) : ∀ x ∈ w'.log, p x := by
  obtain ⟨new, hlog, hrecords⟩ := h.records
  rw [hlog]
  exact List.forall_mem_append.mpr ⟨fun x hx => hnew x (hrecords x hx), hold⟩

end Ptpd
