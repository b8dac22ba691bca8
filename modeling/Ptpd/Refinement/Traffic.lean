import Ptpd.Traffic

/-! # The code talks

    Every function of the stack is a sequence of steps on the line. Most are
    muted: they move timers, the servo and the data sets, and neither send nor
    take anything in.
-/

namespace Ptpd

open PortState Engine Octets

variable {w w' : World}

/-! ## What is muted -/

theorem timerUpdate_muted (w : World) : Muted w (timerUpdate w) := by
  unfold timerUpdate
  dsimp only
  split
  · exact .of_eq rfl rfl
  · exact .of_eq rfl rfl

theorem takeExpire_muted (i : Timer) (w : World) : Muted w (takeExpire i w).2 := by
  unfold takeExpire
  split
  · exact .refl w
  · exact .of_eq rfl rfl

theorem timerExpired_muted (i : Timer) (w : World) : Muted w (timerExpired i w).2 :=
  (timerUpdate_muted w).trans (takeExpire_muted i _)

theorem timerStartRand_muted (i : Timer) (t : Int) (w : World) :
    Muted w (timerStartRand i t w) := .of_eq rfl rfl

theorem popTimestamp_muted (w : World) : Muted w w.popTimestamp := .of_eq rfl rfl

theorem popTime_muted (w : World) : Muted w w.popTime := .of_eq rfl rfl

theorem adjFreq_muted (adj : Int) (w : World) : Muted w (adjFreq adj w) :=
  record_muted w _ trivial

theorem freeAll_line (freed : List Pbuf) (w : World) : (freeAll freed w).line = w.line := by
  induction freed generalizing w with
  | nil => rfl
  | cons p freed ih => exact ih (w.record (.pbuf_free p))

/-- Taking packets out leaves the slots as they are. -/
theorem netQGet_pbuf (q : BufQueue) : (netQGet q).2.pbuf = q.pbuf := by
  unfold netQGet
  split <;> rfl

theorem netQEmpty_pbuf (q : BufQueue) : (netQEmpty q).2.pbuf = q.pbuf := by
  have hloop : ∀ (cnt : Nat) (q : BufQueue), (netQEmptyLoop cnt q).2.pbuf = q.pbuf := by
    intro cnt
    induction cnt with
    | zero => intro q; rfl
    | succ cnt ih => intro q; exact (ih _).trans (netQGet_pbuf q)
  exact hloop q.count q

theorem setEventQ_line (q : BufQueue) (w : World) (h : q.pbuf = w.netPath.eventQ.pbuf) :
    (World.toPtpClock { w with netPath.eventQ := q }).line = w.line := by
  simp only [PtpClock.line, h]

theorem setGeneralQ_line (q : BufQueue) (w : World) (h : q.pbuf = w.netPath.generalQ.pbuf) :
    (World.toPtpClock { w with netPath.generalQ := q }).line = w.line := by
  simp only [PtpClock.line, h]

theorem netEmptyEventQ_line (w : World) : (netEmptyEventQ w).line = w.line :=
  (freeAll_line _ _).trans (setEventQ_line _ w (netQEmpty_pbuf _))

theorem initClock_muted (w : World) : Muted w (initClock w) := by
  have hdata : (initClockData w).line = w.line := rfl
  refine ⟨?_, (initClock_grows w).imp fun _ h => h.mute⟩
  unfold initClock
  generalize initClockData w = w₁ at hdata ⊢
  dsimp only
  split
  · exact (netEmptyEventQ_line _).trans hdata
  · exact (netEmptyEventQ_line _).trans hdata

theorem m1_muted (w : World) : Muted w (m1 w) := .of_eq rfl rfl

theorem s1_muted (header : MsgHeader) (announce : MsgAnnounce) (w : World) :
    Muted w (s1 header announce w) :=
  ⟨rfl, .record w (.s1 header announce) trivial⟩

/-! ## Changing state -/

theorem timerStop_line (i : Timer) (w : World) : (timerStop i w).line = w.line := rfl

theorem stopRequestTimer_line (w : World) : (stopRequestTimer w).line = w.line := by
  unfold stopRequestTimer
  split <;> rfl

theorem leaveState_line (s : PortState) (w : World) : (leaveState s w).line = w.line := by
  have hinit : ∀ w : World, (initClock w).line = w.line := fun w => (initClock_muted w).line
  unfold leaveState
  cases w.portDS.portState
  case PTP_INITIALIZING | PTP_FAULTY | PTP_DISABLED => rfl
  case PTP_LISTENING | PTP_PRE_MASTER | PTP_MASTER | PTP_PASSIVE =>
    simp only [timerStop_line, hinit]
  case PTP_UNCALIBRATED | PTP_SLAVE =>
    dsimp only
    split
    · rfl
    · simp only [hinit, stopRequestTimer_line, timerStop_line]

theorem enterState_line (s : PortState) (w : World) :
    (enterState s w).line = { w.line with portState := s } := by
  cases s
  case PTP_MASTER =>
    dsimp only [enterState, startPDelayTimer]
    split <;> rfl
  case PTP_PASSIVE =>
    dsimp only [enterState]
    split <;> rfl
  case PTP_UNCALIBRATED =>
    dsimp only [enterState, startRequestTimer]
    split <;> rfl
  all_goals rfl

theorem toState_line (s : PortState) (w : World) :
    (toState s w).line = { w.line with portState := s } := by
  have hleave := leaveState_line s { w.record (.toState s) with messageActivity := true }
  have henter := enterState_line s
    (leaveState s { w.record (.toState s) with messageActivity := true })
  rw [hleave] at henter
  exact henter

theorem toState_mute (s : PortState) (w : World) : Grows Call.mute w (toState s w) := by
  apply (toState_grows s w).imp
  intro call h
  rcases h with rfl | h
  · trivial
  · exact h.mute

/-! ## Sending -/

theorem issueFollowup_emit (time : TimeInternal) (w : World) :
    issueFollowup time w = w.popTimestamp.emit (.followUp (w.external time)) :=
  issueFollowup_eq time w

theorem syncIssued_emit (w : World) :
    w.syncIssued =
      w.popTime.popTimestamp.emit (.sync (w.popTime.external w.platform.time.head)) := rfl

theorem issueAnnounce_emit (w : World) : issueAnnounce w = w.emit .announce :=
  issueAnnounce_eq w

theorem delayReqIssued_emit (w : World) :
    w.delayReqIssued =
      w.popTime.popTimestamp.emit (.delayReq (w.popTime.external w.platform.time.head)) := rfl

theorem issueDelayResp_emit (time : TimeInternal) (header : MsgHeader) (w : World) :
    issueDelayResp time header w =
      w.popTimestamp.emit (.delayResp header (w.external time)) :=
  issueDelayResp_eq time header w

theorem issueManagement_emit (w : World) :
    ∃ offset local_ip, issueManagement w = w.popTimestamp.emit (.management offset local_ip) :=
  ⟨_, _, issueManagement_eq w⟩

theorem issueAnnounce_exchanges (h : w.portDS.portState = PTP_MASTER) :
    Exchanges w (issueAnnounce w) := by
  rw [issueAnnounce_emit]
  exact .single (.emit .announce h trivial)

/-- A Sync, and then its Follow_Up with the time at which the Sync left. -/
theorem issueSync_exchanges (h : w.portDS.portState = PTP_MASTER) :
    Exchanges w (issueSync w) := by
  have hsync : Exchanges w w.syncIssued := by
    rw [syncIssued_emit]
    exact ((popTime_muted w).trans (popTimestamp_muted _)).exchanges.tail (.emit _ h trivial)
  rw [issueSync_eq]
  dsimp only
  split
  · rw [issueFollowup_emit]
    refine (hsync.trans (popTimestamp_muted _).exchanges).tail (.emit _ h ?_)
    refine ⟨_, _, rfl, ⟨⟨w.popTime.popTimestamp, _, rfl⟩, rfl, ?_⟩⟩
    intro port group bytes tx hcall
    have htx : w.platform.tx.head = .sent tx := by
      injection hcall
    refine ⟨w.syncIssued.platform.stackTimestamp.head, ?_⟩
    rw [htx]
    rfl
  · exact hsync

theorem issueDelayReq_exchanges (h : w.portDS.portState = PTP_SLAVE)
    (hmechanism : w.portDS.delayMechanism = .E2E) : Exchanges w (issueDelayReq w) := by
  have hissue : Exchanges w w.delayReqIssued := by
    rw [delayReqIssued_emit]
    exact ((popTime_muted w).trans (popTimestamp_muted _)).exchanges.tail
      (.emit _ ⟨hmechanism, h⟩ trivial)
  rw [issueDelayReq_eq]
  dsimp only
  split
  · exact hissue.tail (.muted (.of_eq rfl rfl))
  · exact hissue

/-- The states in which peers are asked for their delay. -/
def PtpClock.AsksPeers (c : PtpClock) : Prop :=
  c.portDS.portState = PTP_MASTER ∨ c.portDS.portState = PTP_PASSIVE ∨
    c.portDS.portState.follows ∨ c.portDS.portState = PTP_FAULTY

theorem issuePDelayReq_exchanges (h : w.AsksPeers) (hmechanism : w.portDS.delayMechanism = .P2P) :
    Exchanges w (issuePDelayReq w) := by
  have hrecord : Muted w (w.record .issuePDelayReq) := record_muted w _ trivial
  have hissue : Exchanges w w.pDelayReqIssued :=
    ((hrecord.trans (popTime_muted _)).trans (popTimestamp_muted _)).exchanges.tail
      (.emit (.pDelayReq ((w.record .issuePDelayReq).popTime.external w.platform.time.head))
        ⟨hmechanism, h⟩ trivial)
  rw [issuePDelayReq_eq]
  dsimp only
  split
  · exact hissue.tail (.muted (.of_eq rfl rfl))
  · exact hissue

theorem issueManagement_exchanges
    (h : w.portDS.portState = PTP_LISTENING ∨ w.portDS.portState.follows) :
    Exchanges w (issueManagement w) := by
  obtain ⟨offset, local_ip, heq⟩ := issueManagement_emit w
  rw [heq]
  exact (popTimestamp_muted w).exchanges.tail (.emit _ h trivial)

theorem Muted.portState (h : Muted w w') : w'.portDS.portState = w.portDS.portState :=
  congrArg Line.portState h.line

theorem Muted.delayMechanism (h : Muted w w') :
    w'.portDS.delayMechanism = w.portDS.delayMechanism :=
  congrArg Line.delayMechanism h.line

theorem Muted.asksPeers (h : Muted w w') (hasks : w.AsksPeers) : w'.AsksPeers := by
  unfold PtpClock.AsksPeers
  rw [h.portState]
  exact hasks

theorem ifExpired_exchanges (i : Timer) {f g : World → World} (w : World)
    (hf : ∀ w', Muted w w' → Exchanges w' (f w')) (hg : ∀ w', Muted w w' → Exchanges w' (g w')) :
    Exchanges w (ifExpired i f g w) := by
  have hexpired := timerExpired_muted i w
  unfold ifExpired
  generalize timerExpired i w = call at hexpired ⊢
  unfold branch
  split
  · exact hexpired.exchanges.trans (hf _ hexpired)
  · exact hexpired.exchanges.trans (hg _ hexpired)

theorem issueDelayReqTimerExpired_exchanges (h : w.AsksPeers) :
    Exchanges w (issueDelayReqTimerExpired w) := by
  unfold issueDelayReqTimerExpired
  split
  · next hmechanism =>
    split
    · exact .refl
    · next hslave =>
      apply ifExpired_exchanges _ w
      · intro w' hstill
        have hstart := hstill.trans (timerStartRand_muted .DELAYREQ_INTERVAL_TIMER
          (pow2ms (w'.portDS.logMinDelayReqInterval + 1)) w')
        exact (timerStartRand_muted _ _ w').exchanges.trans
          (issueDelayReq_exchanges (hstart.portState.trans (not_not.mp hslave))
            (hstart.delayMechanism.trans hmechanism))
      · intro w' _
        exact .refl
  · next hmechanism =>
    apply ifExpired_exchanges _ w
    · intro w' hstill
      have hstart := hstill.trans (timerStartRand_muted .PDELAYREQ_INTERVAL_TIMER
        (pow2ms (w'.portDS.logMinPdelayReqInterval + 1)) w')
      exact (timerStartRand_muted _ _ w').exchanges.trans
        (issuePDelayReq_exchanges (hstart.asksPeers h) (hstart.delayMechanism.trans hmechanism))
    · intro w' _
      exact .refl
  · exact .refl

/-! ## Servo -/

theorem updateClock_muted (w : World) : Muted w (updateClock w) := by
  have hstep : Muted w (stepClock w) := by
    have htime : Muted w (getTime w).2 := .of_eq rfl rfl
    have hset : Muted w (setTime (subTime w.platform.time.head w.currentDS.offsetFromMaster)
        (getTime w).2) :=
      htime.trans (record_muted _ (.setTime _) trivial)
    exact hset.trans (initClock_muted _)
  unfold updateClock
  split
  · split
    · split
      · exact hstep
      · exact adjFreq_muted _ w
    · exact .refl w
  · dsimp only
    have hdrift : Muted w { w with observedDrift := w.accumulatedDrift } := .of_eq rfl rfl
    split
    · exact hdrift.trans (adjFreq_muted _ _)
    · exact hdrift

theorem synchronizationFault_muted (w : World) : Muted w (synchronizationFault w) := by
  unfold synchronizationFault
  split
  · exact .of_eq rfl rfl
  · exact .refl w

theorem offsetEvents_muted (w : World) : Muted w (offsetEvents w) := by
  unfold offsetEvents
  split
  · split
    · exact .of_eq rfl rfl
    · exact .refl w
  · split
    · exact synchronizationFault_muted w
    · exact .refl w

theorem filterOffset_muted (w : World) : Muted w (filterOffset w) := by
  have hrecord : Muted w (w.record .unfilteredOffset) := record_muted w _ trivial
  have hset : ∀ filtered (w : World), Muted w (setFilteredOffset filtered w) :=
    fun _ _ => .of_eq rfl rfl
  unfold filterOffset
  dsimp only
  split
  · exact hrecord.trans (synchronizationFault_muted _)
  · exact hrecord.trans ((hset _ _).trans
      ((record_muted _ .filteredOffset trivial).trans (offsetEvents_muted _)))

theorem updateOffset_muted (i o f : TimeInternal) (w : World) : Muted w (updateOffset i o f w) := by
  have hrecord : Muted w (w.record (.updateOffset i o f)) := record_muted w _ trivial
  unfold updateOffset
  dsimp only
  refine hrecord.trans (Muted.trans ?_ (filterOffset_muted _))
  exact .of_eq rfl rfl

theorem filterDelay_muted (w : World) : Muted w (filterDelay w) := by
  have hrecord : Muted w (w.record .unfilteredDelay) := record_muted w _ trivial
  have hset : ∀ filtered (w : World), Muted w (setFilteredDelay filtered w) :=
    fun _ _ => .of_eq rfl rfl
  unfold filterDelay
  dsimp only
  split
  · exact hrecord
  · exact hrecord.trans (hset _ _)

theorem updateDelay_muted (e r f : TimeInternal) (w : World) : Muted w (updateDelay e r f w) := by
  have hrecord : Muted w (w.record (.updateDelay e r f)) := record_muted w _ trivial
  unfold updateDelay
  split
  · exact .refl w
  · dsimp only
    refine hrecord.trans (Muted.trans ?_ (filterDelay_muted _))
    exact .of_eq rfl rfl

theorem filterPeerDelay_muted (w : World) : Muted w (filterPeerDelay w) := by
  have hrecord : Muted w (w.record .unfilteredPeerDelay) := record_muted w _ trivial
  have hset : ∀ filtered (w : World), Muted w (setFilteredPeerDelay filtered w) :=
    fun _ _ => .of_eq rfl rfl
  unfold filterPeerDelay
  dsimp only
  split
  · exact hrecord
  · exact hrecord.trans (hset _ _)

theorem updatePeerDelay_muted (f : TimeInternal) (twoStep : Bool) (w : World) :
    Muted w (updatePeerDelay f twoStep w) := by
  have hrecord : Muted w (w.record (.updatePeerDelay f twoStep)) := record_muted w _ trivial
  unfold updatePeerDelay
  dsimp only
  refine hrecord.trans (Muted.trans ?_ (filterPeerDelay_muted _))
  exact .of_eq rfl rfl

/-! ## Handling messages -/

theorem fault_exchanges (w : World) : Exchanges w (toState PTP_FAULTY w) := .single .fault

theorem addForeign_muted (header : MsgHeader) (announce : MsgAnnounce) (w : World) :
    Muted w (addForeign header announce w) :=
  (record_muted w (.addForeign _) trivial).trans (.of_eq rfl rfl)

theorem timerStart_muted (i : Timer) (t : Int) (w : World) : Muted w (timerStart i t w) :=
  .of_eq rfl rfl

theorem handleAnnounce_exchanges {isFromSelf : Bool} (h : w.AtHand .ANNOUNCE)
    (hself : isFromSelf =
      isSamePortIdentity w.portDS.portIdentity w.msgTmpHeader.sourcePortIdentity) :
    Exchanges w (handleAnnounce isFromSelf w) := by
  unfold handleAnnounce
  split
  · exact fault_exchanges w
  · next hlength =>
    split
    · exact .refl
    · next hforeign =>
      have hlength' : ANNOUNCE_LENGTH ≤ w.msgIbufLength := Int.not_lt.mp hlength
      have hne : w.msgTmpHeader.sourcePortIdentity ≠ w.portDS.portIdentity := by
        rw [hself, Bool.not_eq_true, isSamePortIdentity_eq_false] at hforeign
        exact hforeign.symm
      have haccept : Exchanges w (acceptAnnounce w) := .single (.accept h hlength' hne)
      cases w.portDS.portState
      case PTP_INITIALIZING | PTP_FAULTY | PTP_DISABLED => exact .refl
      case PTP_LISTENING | PTP_PRE_MASTER | PTP_MASTER =>
        exact haccept.tail (.muted (addForeign_muted _ _ _))
      case PTP_PASSIVE =>
        have hstart : Exchanges w (acceptAnnounce
            (timerStart .ANNOUNCE_RECEIPT_TIMER w.announceReceiptInterval w)) :=
          (timerStart_muted _ _ w).exchanges.tail
            (.accept ⟨h.header, h.handles, h.version, h.domain⟩ hlength' hne)
        exact hstart.tail (.muted (addForeign_muted _ _ _))
      case PTP_UNCALIBRATED | PTP_SLAVE =>
        dsimp only
        split
        · exact haccept.tail (.muted ((s1_muted _ _ _).trans (timerStart_muted _ _ _)))
        · exact haccept.tail (.muted (addForeign_muted _ _ _))

/-- The clock is adjusted once the offset is there, and a request may then be due. -/
theorem Muted.followOffset (h : Muted w w') (hasks : w.AsksPeers) :
    Exchanges w (followOffset w') := by
  have hclock := h.trans (updateClock_muted w')
  exact hclock.exchanges.trans (issueDelayReqTimerExpired_exchanges (hclock.asksPeers hasks))

theorem newTimeInternal_muted (t : Timestamp) (w : World) : Muted w (newTimeInternal t w).2 :=
  .of_eq rfl rfl

theorem acceptOneStepSync_exchanges (time : TimeInternal) (h : w.AsksPeers) :
    Exchanges w (acceptOneStepSync time w) := by
  have hset : Muted w { w with timestamp_syncRecieve := time, waitingForFollowUp := false } :=
    .of_eq rfl rfl
  unfold acceptOneStepSync
  dsimp only
  exact ((hset.trans (newTimeInternal_muted _ _)).trans (updateOffset_muted _ _ _ _)).followOffset h

theorem acceptFollowUp_exchanges (h : w.AsksPeers) : Exchanges w (acceptFollowUp w) := by
  have hset : Muted w { w with waitingForFollowUp := false } := .of_eq rfl rfl
  unfold acceptFollowUp
  dsimp only
  exact ((hset.trans (newTimeInternal_muted _ _)).trans (updateOffset_muted _ _ _ _)).followOffset h

theorem handleSync_exchanges (time : TimeInternal) (isFromSelf : Bool) (w : World) :
    Exchanges w (handleSync time isFromSelf w) := by
  have htwoStep : Muted w (acceptTwoStepSync time w) :=
    ⟨rfl, .record w (.acceptSync time) trivial⟩
  unfold handleSync
  split
  · exact fault_exchanges w
  · cases hport : w.portDS.portState
    case PTP_PASSIVE => exact issueDelayReqTimerExpired_exchanges (.inr (.inl hport))
    case PTP_UNCALIBRATED | PTP_SLAVE =>
      have hasks : w.AsksPeers := .inr (.inr (.inl (by rw [hport]; rfl)))
      dsimp only
      split
      · exact .refl
      · split
        · exact .refl
        · split
          · exact htwoStep.exchanges
          · exact acceptOneStepSync_exchanges time hasks
    all_goals exact .refl

theorem handleFollowUp_exchanges (isFromSelf : Bool) (w : World) :
    Exchanges w (handleFollowUp isFromSelf w) := by
  unfold handleFollowUp
  split
  · exact fault_exchanges w
  · split
    · exact .refl
    · cases hport : w.portDS.portState
      case PTP_PASSIVE => exact issueDelayReqTimerExpired_exchanges (.inr (.inl hport))
      case PTP_UNCALIBRATED | PTP_SLAVE =>
        have hasks : w.AsksPeers := .inr (.inr (.inl (by rw [hport]; rfl)))
        dsimp only
        split
        · exact .refl
        · split
          · exact .refl
          · split
            · exact .refl
            · exact acceptFollowUp_exchanges hasks
      all_goals exact .refl

/-- The newest entry is of the message at hand, received at `time`. -/
def World.JustReceived (t : MessageType) (time : TimeInternal) (w : World) : Prop :=
  ∃ x older, w.log = x :: older ∧ x.Received t time w.msgTmpHeader

theorem handleDelayReq_exchanges {time : TimeInternal} (h : w.JustReceived .DELAY_REQ time) :
    Exchanges w (handleDelayReq time w) := by
  obtain ⟨x, older, hlog, hx⟩ := h
  unfold handleDelayReq
  split
  · next hmechanism =>
    split
    · exact fault_exchanges w
    · split
      · next hport =>
        rw [issueDelayResp_emit]
        exact (popTimestamp_muted w).exchanges.tail (.emit _ ⟨hmechanism, hport⟩
          ⟨x, older, time, w.platform.stackTimestamp.head, hlog, hx, rfl⟩)
      all_goals exact .refl
  all_goals exact .refl

theorem acceptDelayResp_muted (w : World) : Muted w (acceptDelayResp w) := by
  have hrecord : Muted w (w.record .acceptDelayResp) := record_muted w _ trivial
  have hstore : ∀ w, Muted w (storeDelayResp w) := fun _ => .of_eq rfl rfl
  unfold acceptDelayResp
  dsimp only
  exact ((hrecord.trans (hstore _)).trans (updateDelay_muted _ _ _ _)).trans (.of_eq rfl rfl)

theorem handleDelayResp_exchanges (w : World) : Exchanges w (handleDelayResp w) := by
  unfold handleDelayResp
  split
  · split
    · exact fault_exchanges w
    · cases w.portDS.portState
      case PTP_UNCALIBRATED | PTP_SLAVE =>
        dsimp only
        split
        · exact (acceptDelayResp_muted w).exchanges
        · exact .refl
      all_goals exact .refl
  all_goals exact .refl

/-! ## Peer delay -/

/-- The states in which a peer is answered. -/
def PtpClock.AnswersPeers (c : PtpClock) : Prop :=
  c.portDS.portState = PTP_MASTER ∨ c.portDS.portState = PTP_PASSIVE ∨
    c.portDS.portState = PTP_SLAVE

/-- The answer to a peer, and its Follow_Up if the request asked for one. -/
theorem followPDelayResp_exchanges {time : TimeInternal} (h : w.JustReceived .PDELAY_REQ time)
    (hstate : w.AnswersPeers) (hmechanism : w.portDS.delayMechanism = .P2P) :
    Exchanges w (followPDelayResp (issuePDelayResp time w.msgTmpHeader w)) := by
  obtain ⟨x, older, hlog, hx⟩ := h
  have hresp : Exchanges w
      (w.popTimestamp.emit (.pDelayResp w.msgTmpHeader (w.external time))) :=
    (popTimestamp_muted w).exchanges.tail (.emit _ ⟨hmechanism, hstate⟩
      ⟨x, older, time, w.platform.stackTimestamp.head, hlog, hx, rfl⟩)
  rw [issuePDelayResp_eq]
  unfold followPDelayResp
  dsimp only
  split
  · rw [issuePDelayRespFollowUp_eq]
    refine (hresp.trans (popTimestamp_muted _).exchanges).tail
      (.emit (.pDelayRespFollowUp _ _) ⟨hmechanism, hstate⟩ ?_)
    exact ⟨w.popTimestamp, _, x, older, time, congrArg (List.cons _) hlog, hx⟩
  · exact hresp

theorem handlePDelayReq_exchanges {time : TimeInternal} (isFromSelf : Bool)
    (h : w.JustReceived .PDELAY_REQ time) :
    Exchanges w (handlePDelayReq time isFromSelf w) := by
  unfold handlePDelayReq
  split
  · next hmechanism =>
    split
    · exact fault_exchanges w
    · cases hport : w.portDS.portState
      case PTP_PASSIVE =>
        dsimp only
        split
        · exact .refl
        · exact followPDelayResp_exchanges h (.inr (.inl hport)) hmechanism
      case PTP_SLAVE =>
        dsimp only
        split
        · exact .refl
        · exact followPDelayResp_exchanges h (.inr (.inr hport)) hmechanism
      case PTP_MASTER =>
        dsimp only
        split
        · exact .refl
        · exact followPDelayResp_exchanges h (.inl hport) hmechanism
      all_goals exact .refl
  all_goals exact .refl

theorem acceptTwoStepPDelayResp_muted (time : TimeInternal) (w : World) :
    Muted w (acceptTwoStepPDelayResp time w) :=
  ⟨rfl, .record w (.acceptPDelayResp time) trivial⟩

theorem acceptOneStepPDelayResp_muted (time : TimeInternal) (w : World) :
    Muted w (acceptOneStepPDelayResp time w) := by
  have hrecord : Muted w (w.record (.acceptPDelayResp time)) := record_muted w _ trivial
  have hstore : ∀ w, Muted w (storePDelayResp time false w) := fun _ => .of_eq rfl rfl
  unfold acceptOneStepPDelayResp
  dsimp only
  exact (hrecord.trans (hstore _)).trans (updatePeerDelay_muted _ _ _)

theorem handlePDelayResp_exchanges (time : TimeInternal) (isFromSelf : Bool) (w : World) :
    Exchanges w (handlePDelayResp time isFromSelf w) := by
  unfold handlePDelayResp
  split
  · split
    · exact fault_exchanges w
    · cases w.portDS.portState
      case PTP_MASTER | PTP_SLAVE =>
        dsimp only
        split
        · exact .refl
        · split
          · split
            · exact (acceptTwoStepPDelayResp_muted time w).exchanges
            · exact (acceptOneStepPDelayResp_muted time w).exchanges
          · exact .refl
      all_goals exact .refl
  all_goals exact .refl

theorem acceptPDelayRespFollowUp_muted (w : World) : Muted w (acceptPDelayRespFollowUp w) := by
  have hrecord : Muted w (w.record .acceptPDelayRespFollowUp) := record_muted w _ trivial
  have hstore : ∀ t (w : World), Muted w (storePDelayRespFollowUp t w) := fun _ _ => .of_eq rfl rfl
  unfold acceptPDelayRespFollowUp
  dsimp only
  exact (((hrecord.trans (newTimeInternal_muted _ _)).trans (hstore _ _)).trans
    (updatePeerDelay_muted _ _ _)).trans (.of_eq rfl rfl)

theorem handlePDelayRespFollowUp_exchanges (w : World) :
    Exchanges w (handlePDelayRespFollowUp w) := by
  unfold handlePDelayRespFollowUp
  split
  · split
    · exact fault_exchanges w
    · cases w.portDS.portState
      case PTP_SLAVE | PTP_MASTER =>
        dsimp only
        split
        · exact .refl
        · split
          · exact (acceptPDelayRespFollowUp_muted w).exchanges
          · exact .refl
      all_goals exact .refl
  all_goals exact .refl

theorem ptp_unpack_control_muted (p : TimeInternal) (ipaddr : UInt32) (w : World) :
    Muted w (ptp_unpack_control p ipaddr w) := by
  unfold ptp_unpack_control
  dsimp only
  split
  · exact .of_eq rfl rfl
  · split <;> exact .of_eq rfl rfl

theorem handleManagement_exchanges (isFromSelf : Bool) (w : World) :
    Exchanges w (handleManagement isFromSelf w) := by
  unfold handleManagement
  split
  · exact fault_exchanges w
  · cases w.portDS.portState
    case PTP_MASTER =>
      dsimp only
      split
      · exact (ptp_unpack_control_muted _ _ w).exchanges
      · exact .refl
    all_goals exact .refl

/-! ## Receiving -/

theorem dispatch_exchanges {time : TimeInternal} {isFromSelf : Bool}
    (hheader : w.msgTmpHeader = msgUnpackHeader w.msgIbuf)
    (hversion : w.msgTmpHeader.versionPTP = w.portDS.versionNumber)
    (hdomain : w.msgTmpHeader.domainNumber = w.defaultDS.domainNumber)
    (hself : isFromSelf =
      isSamePortIdentity w.portDS.portIdentity w.msgTmpHeader.sourcePortIdentity)
    (hreceived : ∀ t, w.handles t → w.JustReceived t time) :
    Exchanges w (dispatch time isFromSelf w) := by
  unfold dispatch
  split
  · next htype => exact handleAnnounce_exchanges ⟨hheader, htype, hversion, hdomain⟩ hself
  · exact handleSync_exchanges time isFromSelf w
  · exact handleFollowUp_exchanges isFromSelf w
  · next htype => exact handleDelayReq_exchanges (hreceived _ htype)
  · next htype => exact handlePDelayReq_exchanges isFromSelf (hreceived _ htype)
  · exact handleDelayResp_exchanges w
  · exact handlePDelayResp_exchanges time isFromSelf w
  · exact handlePDelayRespFollowUp_exchanges w
  · exact handleManagement_exchanges isFromSelf w
  · exact .refl

theorem handleMessage_exchanges (time : TimeInternal) (w : World) :
    Exchanges w (handleMessage time w) := by
  have hactive : Muted w { w with messageActivity := true } := .of_eq rfl rfl
  have hheader : Muted w
      { w with messageActivity := true, msgTmpHeader := msgUnpackHeader w.msgIbuf } :=
    .of_eq rfl rfl
  unfold handleMessage
  dsimp only
  split
  · exact hactive.exchanges.trans (fault_exchanges _)
  · next hlength =>
    split
    · exact hheader.exchanges
    · next hversion =>
      split
      · exact hheader.exchanges
      · next hdomain =>
        refine (hheader.exchanges.tail (.receive _ rfl (not_lt.mp hlength))).trans
          (dispatch_exchanges rfl (not_not.mp hversion) (not_not.mp hdomain) rfl ?_)
        intro t htype
        exact ⟨_, _, rfl, rfl, htype, rfl⟩

theorem netQGet_slot {q : BufQueue} {p : Pbuf} (h : (netQGet q).1 = some p) :
    ∃ k, p = q.pbuf k := by
  unfold netQGet at h
  split at h
  · cases h
  · exact ⟨q.get, (Option.some.inj h).symm⟩

/-- A packet is taken in, or nothing is. -/
theorem netRecv_exchanges {p : Option Pbuf} (hp : ∀ p' ∈ p, w.HasSlot p') (time : TimeInternal) :
    Exchanges w { (netRecv p time w).2 with msgIbufLength := (netRecv p time w).1.length } := by
  unfold netRecv
  cases p with
  | none => exact .single .nothing
  | some p =>
    dsimp only
    split
    · exact .single .nothing
    · next hfits =>
      have htake : Exchanges w (w.takeIn p) := .single (.takeIn p (hp p rfl) (Nat.not_lt.mp hfits))
      refine htake.tail (.muted ⟨rfl, ?_⟩)
      exact .cons (x := ⟨.pbuf_free p, _⟩) trivial rfl

theorem netRecvEvent_exchanges (time : TimeInternal) (w : World) :
    Exchanges w
      { (netRecvEvent time w).2 with msgIbufLength := (netRecvEvent time w).1.length } := by
  have hget : Muted w { w with netPath.eventQ := (netQGet w.netPath.eventQ).2 } :=
    .of_eq (setEventQ_line _ w (netQGet_pbuf _)) rfl
  refine hget.exchanges.trans (netRecv_exchanges ?_ time)
  intro p hp
  obtain ⟨k, hk⟩ := netQGet_slot hp
  exact ⟨k, .inl (hk.trans (congrFun (netQGet_pbuf _).symm k))⟩

theorem netRecvGeneral_exchanges (time : TimeInternal) (w : World) :
    Exchanges w
      { (netRecvGeneral time w).2 with msgIbufLength := (netRecvGeneral time w).1.length } := by
  have hget : Muted w { w with netPath.generalQ := (netQGet w.netPath.generalQ).2 } :=
    .of_eq (setGeneralQ_line _ w (netQGet_pbuf _)) rfl
  refine hget.exchanges.trans (netRecv_exchanges ?_ time)
  intro p hp
  obtain ⟨k, hk⟩ := netQGet_slot hp
  exact ⟨k, .inr (hk.trans (congrFun (netQGet_pbuf _).symm k))⟩

theorem handleReceive_exchanges (w : World) : Exchanges w (handleReceive w) := by
  have hevent := netRecvEvent_exchanges ⟨0, 0⟩ w
  unfold handleReceive
  generalize netRecvEvent ⟨0, 0⟩ w = received at hevent ⊢
  obtain ⟨received, w₁⟩ := received
  dsimp only at hevent ⊢
  refine hevent.trans ?_
  split
  · exact fault_exchanges _
  · split
    · have hgeneral := netRecvGeneral_exchanges received.time
        { w₁ with msgIbufLength := received.length }
      generalize netRecvGeneral received.time { w₁ with msgIbufLength := received.length } =
        received₂ at hgeneral ⊢
      obtain ⟨received₂, w₂⟩ := received₂
      dsimp only at hgeneral ⊢
      refine hgeneral.trans ?_
      split
      · exact fault_exchanges _
      · split
        · exact .refl
        · exact handleMessage_exchanges _ _
    · exact handleMessage_exchanges _ _

theorem handle_exchanges (w : World) : Exchanges w (handle w) := by
  unfold handle
  split
  · dsimp only
    split
    · exact fault_exchanges w
    · split
      · exact .refl
      · exact handleReceive_exchanges w
  · exact handleReceive_exchanges w

/-- Handling messages leaves a port in its state, or faulty. -/
theorem Exchanges.portState (h : Exchanges w w') :
    w'.portDS.portState = w.portDS.portState ∨ w'.portDS.portState = PTP_FAULTY := by
  induction h with
  | refl => exact .inl rfl
  | @tail w₁ w₂ _ hlast ih =>
    have hstep : w₂.portDS.portState = w₁.portDS.portState ∨ w₂.portDS.portState = PTP_FAULTY := by
      cases hlast with
      | muted h => exact .inl h.portState
      | takeIn p => exact .inl rfl
      | nothing => exact .inl rfl
      | fault => exact .inr (congrArg Line.portState (toState_line PTP_FAULTY w₁))
      | receive => exact .inl rfl
      | accept => exact .inl rfl
      | emit m => exact .inl (by cases m <;> rfl)
    rcases hstep with hstep | hstep
    · rw [hstep]
      exact ih
    · exact .inr hstep

/-! ## The state machine -/

theorem bmcStateDecision_muted (header : MsgHeader) (announce : MsgAnnounce) (w : World) :
    Muted w (bmcStateDecision header announce w).2 := by
  have hcopy : Muted w (copyD0 w) := .of_eq rfl rfl
  unfold bmcStateDecision
  split
  · exact .refl w
  · dsimp only
    split
    · split
      · exact hcopy.trans (m1_muted _)
      · exact hcopy
    · split
      · exact hcopy.trans (m1_muted _)
      · exact hcopy.trans (s1_muted _ _ _)

theorem recommend_muted (d : PortState × World) : Muted d.2 (recommend d) := by
  unfold recommend
  dsimp only
  split
  · split <;> exact .of_eq rfl rfl
  · split <;> exact .of_eq rfl rfl
  · exact .of_eq rfl rfl

theorem stateDecision_muted (w : World) : Muted w (stateDecision w) := by
  rw [stateDecision_eq]
  split
  · rw [bmc_eq]
    have hselect : Muted w (World.selected { w with events.STATE_DECISION_EVENT := false }) :=
      ⟨rfl, .cons (x := ⟨.bmc _, _⟩) trivial rfl⟩
    exact hselect.trans ((bmcStateDecision_muted _ _ _).trans (recommend_muted _))
  · exact .refl w

theorem ifExpired_talks (i : Timer) {f g : World → World} (w : World)
    (hf : ∀ w', Muted w w' → Talks w' (f w')) (hg : ∀ w', Muted w w' → Talks w' (g w')) :
    Talks w (ifExpired i f g w) := by
  have hexpired := timerExpired_muted i w
  unfold ifExpired
  generalize timerExpired i w = call at hexpired ⊢
  unfold branch
  split
  · exact hexpired.talks.trans (hf _ hexpired)
  · exact hexpired.talks.trans (hg _ hexpired)

theorem enter_talks (s : PortState) (w : World) : Talks w (toState s w) := .single (.enter s)

theorem events_muted (events : Events) (w : World) : Muted w { w with events := events } :=
  .of_eq rfl rfl

theorem recommendedMaster_talks (w : World) : Talks w (recommendedMaster w) := by
  unfold recommendedMaster
  split
  · exact ifExpired_talks .QUALIFICATION_TIMEOUT w (fun w' _ => enter_talks PTP_MASTER w')
      fun _ _ => .refl
  · exact .refl
  · exact enter_talks _ w

theorem recommendedSlave_talks (w : World) : Talks w (recommendedSlave w) := by
  have hclear : ∀ w : World, Talks w (if w.events.MASTER_CLOCK_CHANGED then
      { w with events.MASTER_CLOCK_CHANGED := false } else w) := by
    intro w
    split
    · exact (events_muted _ w).talks
    · exact .refl
  have hleave : ∀ w : World, Talks w (if w.events.MASTER_CLOCK_CHANGED then
      toState .PTP_UNCALIBRATED { w with events.MASTER_CLOCK_CHANGED := false } else w) := by
    intro w
    split
    · exact (events_muted _ w).talks.trans (enter_talks _ _)
    · exact .refl
  unfold recommendedSlave
  split
  · refine Relation.ReflTransGen.trans ?_ (hclear _)
    split
    · exact (events_muted _ w).talks.trans (enter_talks _ _)
    · exact .refl
  · refine Relation.ReflTransGen.trans ?_ (hleave _)
    split
    · exact (events_muted _ w).talks.trans (enter_talks _ _)
    · exact .refl
  · exact enter_talks _ w

theorem recommendedAction_talks (w : World) : Talks w (recommendedAction w) := by
  unfold recommendedAction
  split
  · exact recommendedMaster_talks w
  · split
    · exact enter_talks _ w
    · exact .refl
  · exact recommendedSlave_talks w
  · split
    · exact enter_talks _ w
    · exact .refl
  · exact .refl

theorem announceReceiptTimeoutExpires_talks (w : World) :
    Talks w (announceReceiptTimeoutExpires w) := by
  have hempty : Muted w (emptyForeignMasterDS w) :=
    (record_muted w .announceTimeout trivial).trans (.of_eq rfl rfl)
  unfold announceReceiptTimeoutExpires
  generalize emptyForeignMasterDS w = w₁ at hempty ⊢
  dsimp only
  split
  · have hlead : Muted w₁ { m1 w₁ with recommendedState := .PTP_MASTER } := .of_eq rfl rfl
    exact (hempty.trans hlead).talks.trans (enter_talks _ _)
  · split
    · exact hempty.talks.trans (enter_talks _ _)
    · exact hempty.talks

theorem passiveAction_talks (w : World) : Talks w (passiveAction w) := by
  unfold passiveAction
  exact ifExpired_talks .ANNOUNCE_RECEIPT_TIMER w
    (fun w' _ => announceReceiptTimeoutExpires_talks w') fun w' _ => (handle_exchanges w').talks

theorem netInit_muted (w : World) : Muted w (netInit w).2 := by
  unfold netInit
  dsimp only
  split
  · exact .of_eq rfl rfl
  · split
    · exact .of_eq rfl rfl
    · split
      · exact .of_eq rfl rfl
      · exact .of_eq rfl rfl

theorem doInit_talks (w : World) : Talks w (doInit w).2 := by
  have hnet := netInit_muted w
  rw [doInit_eq]
  generalize netInit w = net at hnet ⊢
  split
  · exact hnet.talks
  · exact hnet.talks.tail .initialise

/-- What LISTENING, UNCALIBRATED and SLAVE do. -/
theorem followAction_talks
    (h : w.portDS.portState = PTP_LISTENING ∨ w.portDS.portState.follows) :
    Talks w (passiveAction (ifExpired .MANAGEMENT_INTERVAL_TIMER
      (fun w => handle (issueManagement w)) id w)) := by
  refine Relation.ReflTransGen.trans ?_ (passiveAction_talks _)
  apply ifExpired_talks .MANAGEMENT_INTERVAL_TIMER w
  · intro w' hstill
    have h' : w'.portDS.portState = PTP_LISTENING ∨ w'.portDS.portState.follows := by
      rw [hstill.portState]
      exact h
    have hreport : Exchanges w' (handle (issueManagement w')) :=
      (issueManagement_exchanges h').trans (handle_exchanges _)
    exact hreport.talks
  · intro w' _
    exact .refl

/-- What MASTER does. The message it handles may leave it faulty, and a request
    is then due all the same. -/
theorem masterAction_exchanges (h : w.portDS.portState = PTP_MASTER) :
    Exchanges w (issueDelayReqTimerExpired (handle
      (ifExpired .ANNOUNCE_INTERVAL_TIMER issueAnnounce id
        (ifExpired .SYNC_INTERVAL_TIMER issueSync id w)))) := by
  have hsync : Exchanges w (ifExpired .SYNC_INTERVAL_TIMER issueSync id w) := by
    apply ifExpired_exchanges _ w
    · intro w' hstill
      exact issueSync_exchanges (hstill.portState.trans h)
    · intro w' _
      exact .refl
  have hport := (syncExpired_portState w).trans h
  generalize ifExpired .SYNC_INTERVAL_TIMER issueSync id w = w₁ at hsync hport ⊢
  have hannounce : Exchanges w₁ (ifExpired .ANNOUNCE_INTERVAL_TIMER issueAnnounce id w₁) := by
    apply ifExpired_exchanges _ w₁
    · intro w' hstill
      exact issueAnnounce_exchanges (hstill.portState.trans hport)
    · intro w' _
      exact .refl
  have hhandled : Exchanges w₁ (handle (ifExpired .ANNOUNCE_INTERVAL_TIMER issueAnnounce id w₁)) :=
    hannounce.trans (handle_exchanges _)
  refine (hsync.trans hhandled).trans (issueDelayReqTimerExpired_exchanges ?_)
  rcases hhandled.portState with hstate | hstate
  · exact .inl (hstate.trans hport)
  · exact .inr (.inr (.inr hstate))

theorem branch_talks {call : Bool × World} {f g : World → World}
    (hf : ∀ w, Talks w (f w)) (hg : ∀ w, Talks w (g w)) :
    Talks call.2 (branch f g call) := by
  unfold branch
  split
  · exact hf _
  · exact hg _

theorem portAction_talks (w : World) : Talks w (portAction w) := by
  unfold portAction
  cases hport : w.portDS.portState
  case PTP_INITIALIZING =>
    exact (doInit_talks w).trans (branch_talks (enter_talks _) (enter_talks _))
  case PTP_FAULTY => exact enter_talks _ w
  case PTP_DISABLED => exact (handle_exchanges w).talks
  case PTP_PASSIVE => exact passiveAction_talks w
  case PTP_LISTENING => exact followAction_talks (.inl hport)
  case PTP_UNCALIBRATED | PTP_SLAVE => exact followAction_talks (.inr (by rw [hport]; rfl))
  case PTP_PRE_MASTER => exact .refl
  case PTP_MASTER => exact (masterAction_exchanges hport).talks

theorem doState_talks (w : World) : Talks w (doState w) := by
  have hidle : Muted w { w with messageActivity := false } := .of_eq rfl rfl
  have hdecision : Talks w (recommendedAction (stateDecision { w with messageActivity := false })) :=
    (hidle.trans (stateDecision_muted _)).talks.trans (recommendedAction_talks _)
  exact hdecision.trans (portAction_talks _)

/-! ## Runs -/

/-- The packet that the input hands over. -/
def Input.packet? : Input → Option Pbuf
  | .netRecvEventCallback p | .netRecvGeneralCallback p => some p
  | _ => none

/-- Without a packet the port only talks. -/
theorem step_talks {input : Input} (h : input.packet? = none) (w : World) :
    Talks w (step input w) := by
  cases input with
  | ptpdStartup rtOpts =>
    have hopts : Muted w { w with rtOpts := rtOpts.checked } := .of_eq rfl rfl
    exact hopts.talks.trans (enter_talks PTP_INITIALIZING _)
  | catchAlarm time_ms =>
    have halarm : Muted w (catchAlarm time_ms w) := .of_eq rfl rfl
    exact halarm.talks
  | netRecvEventCallback p => cases h
  | netRecvGeneralCallback p => cases h
  | doState => exact doState_talks w
  | linkUp => exact enter_talks PTP_LISTENING w
  | adjust offset =>
    have hoffset : Muted w { w with currentDS.offsetFromMaster := offset } := .of_eq rfl rfl
    exact (hoffset.trans (updateClock_muted _)).talks

theorem Talks.traffic (h : Talks w w') : Relation.ReflTransGen Traffic w w' := by
  induction h with
  | refl => exact .refl
  | tail _ hlast ih => exact ih.tail (.talk hlast)

theorem step_traffic (input : Input) (w : World) :
    Relation.ReflTransGen Traffic w (step input w) := by
  cases input
  case netRecvEventCallback p => exact .single (.arriveEvent p)
  case netRecvGeneralCallback p => exact .single (.arriveGeneral p)
  all_goals exact Talks.traffic (step_talks rfl w)

/-- What holds at power-on and is kept by all that happens on the line holds of
    every reachable world. -/
theorem Reachable.of_traffic (hw : Reachable w) (Inv : World → Prop)
    (hzero : ∀ platform, Inv (World.zero platform))
    (htraffic : ∀ w w', Traffic w w' → Inv w → Inv w') : Inv w := by
  have hrun : ∀ {w w' : World}, Relation.ReflTransGen Traffic w w' → Inv w → Inv w' := by
    intro w w' h hinv
    induction h with
    | refl => exact hinv
    | tail _ hlast ih => exact htraffic _ _ hlast ih
  induction hw with
  | init platform rtOpts hv =>
    exact hrun (step_traffic (.ptpdStartup rtOpts) (World.zero platform)) (hzero platform)
  | step input _ hv ih => exact hrun (step_traffic input _) ih

end Ptpd
