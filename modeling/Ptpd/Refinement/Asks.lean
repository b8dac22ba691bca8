import Ptpd.Refinement.Act

/-! # What moves the request timers

    Every function of the stack is a sequence of acts on the request timers: a
    timer is started with a random interval, the port changes its state, the
    data sets are initialised, a Delay_Resp sets the interval of the requests,
    or all of these stay as they are.
-/

namespace Ptpd

open PortState MachineInt

variable {w w' w'' : World}

/-! ## What the request timers depend on -/

/-- The request timer of a delay mechanism. -/
def DelayMechanism.timer : DelayMechanism → Option Timer
  | .E2E => some .DELAYREQ_INTERVAL_TIMER
  | .P2P => some .PDELAYREQ_INTERVAL_TIMER
  | .DELAY_DISABLED => none

def Timer.requests : Timer → Bool
  | .PDELAYREQ_INTERVAL_TIMER | .DELAYREQ_INTERVAL_TIMER => true
  | _ => false

structure Asking where
  portState : PortState
  delayMechanism : DelayMechanism
  logMinDelayReqInterval : Int
  interval : Timer → Int
  armings : List Arming

def World.asking (w : World) : Asking where
  portState := w.portDS.portState
  delayMechanism := w.portDS.delayMechanism
  logMinDelayReqInterval := w.portDS.logMinDelayReqInterval
  interval := fun t => if t.requests then (w.itimer t).interval else 0
  armings := w.armings

/-- The request timers, and what they depend on, stay as they are. -/
structure Still (w w' : World) : Prop where
  asking : w'.asking = w.asking
  grows : Grows (fun _ => True) w w'

theorem Still.refl (w : World) : Still w w := ⟨rfl, .refl w⟩

theorem Still.trans (h : Still w w') (h' : Still w' w'') : Still w w'' :=
  ⟨h'.asking.trans h.asking, h.grows.trans h'.grows⟩

theorem Still.of_eq (hasking : w'.asking = w.asking) (hlog : w'.log = w.log) : Still w w' :=
  ⟨hasking, .of_eq hlog⟩

theorem Quiet.still (h : Quiet w w') (hasking : w'.asking = w.asking) : Still w w' :=
  ⟨hasking, h.grows.imp fun _ _ => trivial⟩

theorem record_still (w : World) (call : Call) : Still w (w.record call) :=
  ⟨rfl, .record w call trivial⟩

/-! ## Timers -/

theorem setTimer_asking (i : Timer) (t : IntervalTimer) (w : World)
    (h : i.requests = false ∨ t.interval = (w.itimer i).interval) :
    (w.setTimer i t).asking = w.asking := by
  have hinterval : (w.setTimer i t).asking.interval = w.asking.interval := by
    funext k
    simp only [World.asking, World.setTimer]
    by_cases hk : k = i
    · subst hk
      rcases h with h | h
      · simp [h]
      · simp [h]
    · simp [hk]
  have hset : (w.setTimer i t).asking =
      { w.asking with interval := (w.setTimer i t).asking.interval } := rfl
  rw [hset, hinterval]

theorem timerStart_asking {i : Timer} (t : Int) (w : World) (h : i.requests = false) :
    (timerStart i t w).asking = w.asking :=
  setTimer_asking i _ w (.inl h)

theorem timerUpdate_asking (w : World) : (timerUpdate w).asking = w.asking := by
  unfold timerUpdate
  dsimp only
  split
  · rfl
  · simp only [World.asking, IntervalTimer.advance_interval]

theorem takeExpire_asking (i : Timer) (w : World) : (takeExpire i w).2.asking = w.asking := by
  unfold takeExpire
  split
  · rfl
  · exact setTimer_asking i _ w (.inr rfl)

theorem timerExpired_still (i : Timer) (w : World) : Still w (timerExpired i w).2 :=
  (timerExpired_quiet i w).still ((takeExpire_asking i _).trans (timerUpdate_asking w))

/-! ## Messages and servo -/

theorem issueAnnounce_still (w : World) : Still w (issueAnnounce w) := by
  rw [issueAnnounce_eq]
  exact ⟨rfl, .cons (x := w.issued .general .ptp .announce ANNOUNCE_LENGTH) trivial rfl⟩

theorem issueFollowup_still (time : TimeInternal) (w : World) : Still w (issueFollowup time w) := by
  rw [issueFollowup_eq]
  exact ⟨rfl, .cons (x := w.popTimestamp.issued .general .ptp
    (.followUp (w.external time)) FOLLOW_UP_LENGTH) trivial rfl⟩

theorem issueSync_still (w : World) : Still w (issueSync w) := by
  have hissue : Still w w.syncIssued :=
    ⟨rfl, .cons (x := w.popTime.popTimestamp.issued .event .ptp
      (.sync (w.popTime.external w.platform.time.head)) SYNC_LENGTH) trivial rfl⟩
  rw [issueSync_eq]
  dsimp only
  split
  · exact hissue.trans (issueFollowup_still _ _)
  · exact hissue

theorem issueDelayReq_still (w : World) : Still w (issueDelayReq w) := by
  refine (issueDelayReq_quiet w).still ?_
  rw [issueDelayReq_eq]
  dsimp only
  split <;> rfl

theorem issuePDelayReq_still (w : World) : Still w (issuePDelayReq w) := by
  refine (issuePDelayReq_quiet w).still ?_
  rw [issuePDelayReq_eq]
  dsimp only
  split <;> rfl

theorem issuePDelayResp_still (time : TimeInternal) (header : MsgHeader) (w : World) :
    Still w (issuePDelayResp time header w).2 := by
  refine (issuePDelayResp_quiet time header w).still ?_
  rw [issuePDelayResp_eq]
  rfl

theorem issuePDelayRespFollowUp_still (time : TimeInternal) (header : MsgHeader) (w : World) :
    Still w (issuePDelayRespFollowUp time header w) := by
  refine (issuePDelayRespFollowUp_quiet time header w).still ?_
  rw [issuePDelayRespFollowUp_eq]
  rfl

theorem issueDelayResp_still (time : TimeInternal) (header : MsgHeader) (w : World) :
    Still w (issueDelayResp time header w) := by
  refine (issueDelayResp_quiet time header w).still ?_
  rw [issueDelayResp_eq]
  rfl

theorem issueManagement_still (w : World) : Still w (issueManagement w) := by
  refine (issueManagement_quiet w).still ?_
  rw [issueManagement_eq]
  rfl

theorem netEmptyEventQ_asking (w : World) : (netEmptyEventQ w).asking = w.asking := by
  have hfree : ∀ (freed : List Pbuf) (w : World), (freeAll freed w).asking = w.asking := by
    intro freed
    induction freed with
    | nil => exact fun _ => rfl
    | cons p freed ih => exact fun w => ih (w.record (.pbuf_free p))
  exact hfree _ _

theorem initClock_still (w : World) : Still w (initClock w) := by
  refine ⟨?_, (initClock_grows w).imp fun _ _ => trivial⟩
  have hdata : (initClockData w).asking = w.asking := rfl
  unfold initClock
  generalize initClockData w = w₁ at hdata ⊢
  dsimp only
  split
  · exact (netEmptyEventQ_asking _).trans hdata
  · exact (netEmptyEventQ_asking _).trans hdata

theorem updateClock_still (w : World) : Still w (updateClock w) := by
  have hstep : Still w (stepClock w) := by
    have hset : Still w (setTime (subTime w.platform.time.head w.currentDS.offsetFromMaster)
        (getTime w).2) := ⟨rfl, .cons (x := ⟨.setTime _, _⟩) trivial rfl⟩
    exact hset.trans (initClock_still _)
  unfold updateClock
  split
  · split
    · split
      · exact hstep
      · exact record_still w _
    · exact .refl w
  · dsimp only
    have hdrift : Still w { w with observedDrift := w.accumulatedDrift } := .of_eq rfl rfl
    split
    · exact hdrift.trans (record_still _ _)
    · exact hdrift

theorem synchronizationFault_asking (w : World) : (synchronizationFault w).asking = w.asking := by
  unfold synchronizationFault
  split <;> rfl

theorem offsetEvents_asking (w : World) : (offsetEvents w).asking = w.asking := by
  unfold offsetEvents
  split
  · split <;> rfl
  · split
    · exact synchronizationFault_asking w
    · rfl

theorem filterOffset_asking (w : World) : (filterOffset w).asking = w.asking := by
  have hset : ∀ filtered (w : World), (setFilteredOffset filtered w).asking = w.asking :=
    fun _ _ => rfl
  unfold filterOffset
  dsimp only
  split
  · exact synchronizationFault_asking _
  · exact (offsetEvents_asking _).trans (hset _ _)

theorem updateOffset_still (i o f : TimeInternal) (w : World) : Still w (updateOffset i o f w) := by
  refine (updateOffset_quiet i o f w).still ?_
  unfold updateOffset
  dsimp only
  refine (filterOffset_asking _).trans ?_
  rfl

theorem filterDelay_asking (w : World) : (filterDelay w).asking = w.asking := by
  have hset : ∀ filtered (w : World), (setFilteredDelay filtered w).asking = w.asking :=
    fun _ _ => rfl
  unfold filterDelay
  dsimp only
  split
  · rfl
  · exact hset _ _

theorem updateDelay_still (e r f : TimeInternal) (w : World) : Still w (updateDelay e r f w) := by
  refine (updateDelay_quiet e r f w).still ?_
  unfold updateDelay
  split
  · rfl
  · dsimp only
    refine (filterDelay_asking _).trans ?_
    rfl

theorem filterPeerDelay_asking (w : World) : (filterPeerDelay w).asking = w.asking := by
  have hset : ∀ filtered (w : World), (setFilteredPeerDelay filtered w).asking = w.asking :=
    fun _ _ => rfl
  unfold filterPeerDelay
  dsimp only
  split
  · rfl
  · exact hset _ _

theorem updatePeerDelay_still (f : TimeInternal) (twoStep : Bool) (w : World) :
    Still w (updatePeerDelay f twoStep w) := by
  refine (updatePeerDelay_quiet f twoStep w).still ?_
  unfold updatePeerDelay
  dsimp only
  refine (filterPeerDelay_asking _).trans ?_
  rfl

/-! ## What moves the request timers -/

/-- One act, as far as the request timers are concerned. -/
inductive Asks : World → World → Prop where
  | still {w w' : World} (h : Still w w') : Asks w w'
  /-- The timer is started afresh for the next request. -/
  | arm {w : World} (index : Timer) (randMax : Int)
      (h : w.portDS.delayMechanism.timer = some index)
      (hmax : index = .DELAYREQ_INTERVAL_TIMER →
        randMax = pow2ms (w.portDS.logMinDelayReqInterval + 1)) :
      Asks w (timerStartRand index randMax w)
  | toState {w : World} (s : PortState)
      (h : s = PTP_SLAVE → w.portDS.portState = PTP_UNCALIBRATED) : Asks w (toState s w)
  | initData {w : World} (h : w.portDS.portState = PTP_INITIALIZING) : Asks w (initData w)
  /-- The master sets the interval. -/
  | respond {w : World} : Asks w (acceptDelayResp w)

abbrev AsksRun : World → World → Prop := Relation.ReflTransGen Asks

theorem Still.asks (h : Still w w') : AsksRun w w' := .single (.still h)

theorem branch_asks {call : Bool × World} {f g : World → World} (h : Still w call.2)
    (hf : ∀ w' : World, w'.asking = w.asking → AsksRun w' (f w'))
    (hg : ∀ w' : World, w'.asking = w.asking → AsksRun w' (g w')) :
    AsksRun w (branch f g call) := by
  unfold branch
  split
  · exact h.asks.trans (hf _ h.asking)
  · exact h.asks.trans (hg _ h.asking)

theorem ifExpired_asks (i : Timer) {f g : World → World} (w : World)
    (hf : ∀ w' : World, w'.asking = w.asking → AsksRun w' (f w'))
    (hg : ∀ w' : World, w'.asking = w.asking → AsksRun w' (g w')) :
    AsksRun w (ifExpired i f g w) :=
  branch_asks (timerExpired_still i w) hf hg

theorem issueDelayReqTimerExpired_asks (w : World) : AsksRun w (issueDelayReqTimerExpired w) := by
  have hmech : ∀ {w' : World}, w'.asking = w.asking →
      w'.portDS.delayMechanism = w.portDS.delayMechanism :=
    fun h => congrArg Asking.delayMechanism h
  unfold issueDelayReqTimerExpired
  cases hw : w.portDS.delayMechanism
  case E2E =>
    dsimp only
    split
    · exact .refl
    · refine ifExpired_asks _ w (fun w' h => ?_) fun _ _ => .refl
      have harm : Asks w' _ := .arm .DELAYREQ_INTERVAL_TIMER _
        (by rw [hmech h, hw]; rfl) fun _ => rfl
      exact (Relation.ReflTransGen.single harm).trans (issueDelayReq_still _).asks
  case P2P =>
    refine ifExpired_asks _ w (fun w' h => ?_) fun _ _ => .refl
    have harm : Asks w' _ := .arm .PDELAYREQ_INTERVAL_TIMER
      (pow2ms (w'.portDS.logMinPdelayReqInterval + 1)) (by rw [hmech h, hw]; rfl) nofun
    exact (Relation.ReflTransGen.single harm).trans (issuePDelayReq_still _).asks
  case DELAY_DISABLED => exact .refl

/-! ## Handling messages -/

theorem fault_asks (w : World) : AsksRun w (toState PTP_FAULTY w) :=
  .single (.toState PTP_FAULTY nofun)

theorem acceptAnnounce_still (w : World) : Still w (acceptAnnounce w) :=
  (acceptAnnounce_quiet w).still rfl

theorem addForeign_still (header : MsgHeader) (announce : MsgAnnounce) (w : World) :
    Still w (addForeign header announce w) :=
  (addForeign_quiet header announce w).still rfl

theorem s1_still (header : MsgHeader) (announce : MsgAnnounce) (w : World) :
    Still w (s1 header announce w) :=
  ⟨rfl, .cons (x := ⟨.s1 header announce, w.toPtpClock⟩) trivial rfl⟩

theorem restart_still (t : Int) (w : World) : Still w (timerStart .ANNOUNCE_RECEIPT_TIMER t w) :=
  .of_eq (timerStart_asking t w rfl) rfl

theorem handleAnnounce_asks (isFromSelf : Bool) (w : World) :
    AsksRun w (handleAnnounce isFromSelf w) := by
  have hforeign : ∀ w : World, Still w (addForeign w.msgTmpHeader (msgUnpackAnnounce w.msgIbuf)
      (acceptAnnounce w)) := fun w => (acceptAnnounce_still w).trans (addForeign_still _ _ _)
  have hparent : Still w (timerStart .ANNOUNCE_RECEIPT_TIMER
      (s1 w.msgTmpHeader (msgUnpackAnnounce w.msgIbuf) (acceptAnnounce w)).announceReceiptInterval
      (s1 w.msgTmpHeader (msgUnpackAnnounce w.msgIbuf) (acceptAnnounce w))) :=
    ((acceptAnnounce_still w).trans (s1_still _ _ _)).trans (restart_still _ _)
  unfold handleAnnounce
  split
  · exact fault_asks w
  · split
    · exact .refl
    · cases w.portDS.portState
      case PTP_INITIALIZING | PTP_FAULTY | PTP_DISABLED => exact .refl
      case PTP_LISTENING | PTP_PRE_MASTER | PTP_MASTER => exact (hforeign w).asks
      case PTP_PASSIVE =>
        exact ((restart_still w.announceReceiptInterval w).trans
          ((acceptAnnounce_still _).trans (addForeign_still _ _ _))).asks
      case PTP_UNCALIBRATED | PTP_SLAVE =>
        dsimp only
        split
        · exact hparent.asks
        · exact (hforeign w).asks

theorem followOffset_asks (w : World) : AsksRun w (followOffset w) :=
  (updateClock_still w).asks.trans (issueDelayReqTimerExpired_asks _)

theorem newTimeInternal_still (t : Timestamp) (w : World) : Still w (newTimeInternal t w).2 :=
  .of_eq rfl rfl

theorem acceptOneStepSync_asks (time : TimeInternal) (w : World) :
    AsksRun w (acceptOneStepSync time w) := by
  have hset : Still w { w with timestamp_syncRecieve := time, waitingForFollowUp := false } :=
    .of_eq rfl rfl
  unfold acceptOneStepSync
  dsimp only
  exact ((hset.trans (newTimeInternal_still _ _)).trans (updateOffset_still _ _ _ _)).asks.trans
    (followOffset_asks _)

theorem acceptFollowUp_asks (w : World) : AsksRun w (acceptFollowUp w) := by
  have hset : Still w { w with waitingForFollowUp := false } := .of_eq rfl rfl
  unfold acceptFollowUp
  dsimp only
  exact ((hset.trans (newTimeInternal_still _ _)).trans (updateOffset_still _ _ _ _)).asks.trans
    (followOffset_asks _)

theorem handleSync_asks (time : TimeInternal) (isFromSelf : Bool) (w : World) :
    AsksRun w (handleSync time isFromSelf w) := by
  have htwoStep : Still w (acceptTwoStepSync time w) :=
    ⟨rfl, .cons (x := ⟨.acceptSync time, w.toPtpClock⟩) trivial rfl⟩
  unfold handleSync
  split
  · exact fault_asks w
  · cases w.portDS.portState
    case PTP_PASSIVE => exact issueDelayReqTimerExpired_asks w
    case PTP_UNCALIBRATED | PTP_SLAVE =>
      dsimp only
      split
      · exact .refl
      · split
        · exact .refl
        · split
          · exact htwoStep.asks
          · exact acceptOneStepSync_asks time w
    all_goals exact .refl

theorem handleFollowUp_asks (isFromSelf : Bool) (w : World) :
    AsksRun w (handleFollowUp isFromSelf w) := by
  unfold handleFollowUp
  split
  · exact fault_asks w
  · split
    · exact .refl
    · cases w.portDS.portState
      case PTP_PASSIVE => exact issueDelayReqTimerExpired_asks w
      case PTP_UNCALIBRATED | PTP_SLAVE =>
        dsimp only
        split
        · exact .refl
        · split
          · exact .refl
          · split
            · exact .refl
            · exact acceptFollowUp_asks w
      all_goals exact .refl

theorem handleDelayReq_asks (time : TimeInternal) (w : World) :
    AsksRun w (handleDelayReq time w) := by
  unfold handleDelayReq
  split
  · split
    · exact fault_asks w
    · split
      · exact (issueDelayResp_still time w.msgTmpHeader w).asks
      all_goals exact .refl
  all_goals exact .refl

theorem handleDelayResp_asks (w : World) : AsksRun w (handleDelayResp w) := by
  unfold handleDelayResp
  split
  · split
    · exact fault_asks w
    · cases w.portDS.portState
      case PTP_UNCALIBRATED | PTP_SLAVE =>
        dsimp only
        split
        · exact .single .respond
        · exact .refl
      all_goals exact .refl
  all_goals exact .refl

theorem handlePDelayReq_asks (time : TimeInternal) (isFromSelf : Bool) (w : World) :
    AsksRun w (handlePDelayReq time isFromSelf w) := by
  have hrespond : Still w (followPDelayResp (issuePDelayResp time w.msgTmpHeader w)) := by
    have hresp := issuePDelayResp_still time w.msgTmpHeader w
    generalize issuePDelayResp time w.msgTmpHeader w = sent at hresp ⊢
    refine hresp.trans ?_
    unfold followPDelayResp
    split
    · exact issuePDelayRespFollowUp_still _ _ _
    · exact .refl _
  unfold handlePDelayReq
  split
  · split
    · exact fault_asks w
    · cases w.portDS.portState
      case PTP_PASSIVE | PTP_SLAVE | PTP_MASTER =>
        dsimp only
        split
        · exact .refl
        · exact hrespond.asks
      all_goals exact .refl
  all_goals exact .refl

theorem acceptOneStepPDelayResp_still (time : TimeInternal) (w : World) :
    Still w (acceptOneStepPDelayResp time w) := by
  have hstore : Still w (storePDelayResp time false (w.record (.acceptPDelayResp time))) :=
    ⟨rfl, .cons (x := ⟨.acceptPDelayResp time, w.toPtpClock⟩) trivial rfl⟩
  unfold acceptOneStepPDelayResp
  dsimp only
  exact hstore.trans (updatePeerDelay_still _ _ _)

theorem handlePDelayResp_asks (time : TimeInternal) (isFromSelf : Bool) (w : World) :
    AsksRun w (handlePDelayResp time isFromSelf w) := by
  unfold handlePDelayResp
  split
  · split
    · exact fault_asks w
    · cases w.portDS.portState
      case PTP_MASTER | PTP_SLAVE =>
        dsimp only
        split
        · exact .refl
        · split
          · split
            · exact ((acceptTwoStepPDelayResp_quiet time w).still rfl).asks
            · exact (acceptOneStepPDelayResp_still time w).asks
          · exact .refl
      all_goals exact .refl
  all_goals exact .refl

theorem acceptPDelayRespFollowUp_still (w : World) : Still w (acceptPDelayRespFollowUp w) := by
  have hrecord : Still w (w.record .acceptPDelayRespFollowUp) := record_still w _
  have hstore : ∀ t (w : World), Still w (storePDelayRespFollowUp t w) := fun _ _ => .of_eq rfl rfl
  unfold acceptPDelayRespFollowUp
  dsimp only
  exact (((hrecord.trans (newTimeInternal_still _ _)).trans (hstore _ _)).trans
    (updatePeerDelay_still _ _ _)).trans (.of_eq rfl rfl)

theorem handlePDelayRespFollowUp_asks (w : World) : AsksRun w (handlePDelayRespFollowUp w) := by
  unfold handlePDelayRespFollowUp
  split
  · split
    · exact fault_asks w
    · cases w.portDS.portState
      case PTP_SLAVE | PTP_MASTER =>
        dsimp only
        split
        · exact .refl
        · split
          · exact (acceptPDelayRespFollowUp_still w).asks
          · exact .refl
      all_goals exact .refl
  all_goals exact .refl

theorem handleManagement_asks (isFromSelf : Bool) (w : World) :
    AsksRun w (handleManagement isFromSelf w) := by
  have hcontrol : ∀ p ipaddr, (ptp_unpack_control p ipaddr w).asking = w.asking := by
    intro p ipaddr
    unfold ptp_unpack_control
    dsimp only
    split
    · rfl
    · split <;> rfl
  unfold handleManagement
  split
  · exact fault_asks w
  · cases w.portDS.portState
    case PTP_MASTER =>
      dsimp only
      split
      · exact ((ptp_unpack_control_quiet _ _ w).still (hcontrol _ _)).asks
      · exact .refl
    all_goals exact .refl

theorem dispatch_asks (time : TimeInternal) (isFromSelf : Bool) (w : World) :
    AsksRun w (dispatch time isFromSelf w) := by
  unfold dispatch
  split
  · exact handleAnnounce_asks isFromSelf w
  · exact handleSync_asks time isFromSelf w
  · exact handleFollowUp_asks isFromSelf w
  · exact handleDelayReq_asks time w
  · exact handlePDelayReq_asks time isFromSelf w
  · exact handleDelayResp_asks w
  · exact handlePDelayResp_asks time isFromSelf w
  · exact handlePDelayRespFollowUp_asks w
  · exact handleManagement_asks isFromSelf w
  · exact .refl

/-! ## Receiving -/

theorem netRecv_still (p : Option Pbuf) (time : TimeInternal) (w : World) :
    Still w (netRecv p time w).2 := by
  refine ⟨?_, (netRecv_grows p time w).imp fun _ _ => trivial⟩
  unfold netRecv
  split
  · rfl
  · split <;> rfl

theorem netRecvEvent_still (time : TimeInternal) (w : World) : Still w (netRecvEvent time w).2 := by
  have hget : Still w { w with netPath.eventQ := (netQGet w.netPath.eventQ).2 } := .of_eq rfl rfl
  exact hget.trans (netRecv_still _ _ _)

theorem netRecvGeneral_still (time : TimeInternal) (w : World) :
    Still w (netRecvGeneral time w).2 := by
  have hget : Still w { w with netPath.generalQ := (netQGet w.netPath.generalQ).2 } :=
    .of_eq rfl rfl
  exact hget.trans (netRecv_still _ _ _)

theorem handleMessage_asks (time : TimeInternal) (w : World) : AsksRun w (handleMessage time w) := by
  have hactive : Still w { w with messageActivity := true } := .of_eq rfl rfl
  have hheader : Still w
      { w with messageActivity := true, msgTmpHeader := msgUnpackHeader w.msgIbuf } :=
    .of_eq rfl rfl
  unfold handleMessage
  dsimp only
  split
  · exact hactive.asks.trans (fault_asks _)
  · split
    · exact hheader.asks
    · split
      · exact hheader.asks
      · exact (hheader.trans (record_still _ (.received _))).asks.trans (dispatch_asks _ _ _)

theorem msgIbufLength_still (length : Int) (w : World) :
    Still w { w with msgIbufLength := length } := .of_eq rfl rfl

theorem handleReceive_asks (w : World) : AsksRun w (handleReceive w) := by
  have hevent := netRecvEvent_still ⟨0, 0⟩ w
  unfold handleReceive
  generalize netRecvEvent ⟨0, 0⟩ w = received at hevent ⊢
  obtain ⟨received, w₁⟩ := received
  dsimp only
  refine (hevent.trans (msgIbufLength_still received.length w₁)).asks.trans ?_
  split
  · exact fault_asks _
  · split
    · -- the event queue gave nothing, so the general queue is looked at
      have hgeneral := netRecvGeneral_still received.time
        { w₁ with msgIbufLength := received.length }
      generalize netRecvGeneral received.time { w₁ with msgIbufLength := received.length } =
        received₂ at hgeneral ⊢
      obtain ⟨received₂, w₂⟩ := received₂
      dsimp only
      refine (hgeneral.trans (msgIbufLength_still received₂.length w₂)).asks.trans ?_
      split
      · exact fault_asks _
      · split
        · exact .refl
        · exact handleMessage_asks _ _
    · exact handleMessage_asks _ _

theorem handle_asks (w : World) : AsksRun w (handle w) := by
  unfold handle
  split
  · dsimp only
    split
    · exact fault_asks w
    · split
      · exact .refl
      · exact handleReceive_asks w
  · exact handleReceive_asks w

/-! ## The state machine -/

theorem recommend_asking (d : PortState × World) : (recommend d).asking = d.2.asking := by
  unfold recommend
  dsimp only
  split
  · split <;> rfl
  · split <;> rfl
  · rfl

theorem bmcStateDecision_asking (header : MsgHeader) (announce : MsgAnnounce) (w : World) :
    (bmcStateDecision header announce w).2.asking = w.asking := by
  unfold bmcStateDecision
  split
  · rfl
  · dsimp only
    split
    · split <;> rfl
    · split <;> rfl

theorem stateDecision_still (w : World) : Still w (stateDecision w) := by
  refine ⟨?_, (stateDecision_grows w).imp fun _ _ => trivial⟩
  rw [stateDecision_eq]
  split
  · rw [bmc_eq]
    generalize hw₁ : ({ w with events.STATE_DECISION_EVENT := false } : World) = w₁
    have hselect : w₁.selected.asking = w.asking := hw₁ ▸ rfl
    exact ((recommend_asking _).trans (bmcStateDecision_asking _ _ _)).trans hselect
  · rfl

theorem recommendedMaster_asks (w : World) : AsksRun w (recommendedMaster w) := by
  unfold recommendedMaster
  split
  · exact ifExpired_asks .QUALIFICATION_TIMEOUT w
      (fun w' _ => .single (.toState PTP_MASTER nofun)) fun _ _ => .refl
  · exact .refl
  · exact .single (.toState PTP_PRE_MASTER nofun)

theorem events_still (events : Events) (w : World) : Still w { w with events := events } :=
  .of_eq rfl rfl

theorem recommendedSlave_asks (w : World) : AsksRun w (recommendedSlave w) := by
  have huncalibrate : ∀ w : World, AsksRun w (toState PTP_UNCALIBRATED w) := fun w =>
    .single (.toState PTP_UNCALIBRATED nofun)
  have hclear : ∀ w : World, AsksRun w (if w.events.MASTER_CLOCK_CHANGED then
      { w with events.MASTER_CLOCK_CHANGED := false } else w) := by
    intro w
    split
    · exact (events_still _ w).asks
    · exact .refl
  have hchange : ∀ w : World, AsksRun w (if w.events.MASTER_CLOCK_CHANGED then
      toState PTP_UNCALIBRATED { w with events.MASTER_CLOCK_CHANGED := false } else w) := by
    intro w
    split
    · exact (events_still _ w).asks.trans (huncalibrate _)
    · exact .refl
  unfold recommendedSlave
  cases hport : w.portDS.portState
  case PTP_UNCALIBRATED =>
    have hslave : Asks { w with events.MASTER_CLOCK_SELECTED := false }
        (toState PTP_SLAVE { w with events.MASTER_CLOCK_SELECTED := false }) :=
      .toState PTP_SLAVE fun _ => hport
    dsimp only
    refine Relation.ReflTransGen.trans ?_ (hclear _)
    split
    · exact (events_still _ w).asks.tail hslave
    · exact .refl
  case PTP_SLAVE =>
    dsimp only
    refine Relation.ReflTransGen.trans ?_ (hchange _)
    split
    · exact (events_still _ w).asks.trans (huncalibrate _)
    · exact .refl
  all_goals exact huncalibrate w

theorem recommendedAction_asks (w : World) : AsksRun w (recommendedAction w) := by
  unfold recommendedAction
  cases w.recommendedState
  case PTP_MASTER => exact recommendedMaster_asks w
  case PTP_SLAVE => exact recommendedSlave_asks w
  case PTP_PASSIVE =>
    dsimp only
    split
    · exact .single (.toState PTP_PASSIVE nofun)
    · exact .refl
  case PTP_LISTENING =>
    dsimp only
    split
    · exact .single (.toState PTP_LISTENING nofun)
    · exact .refl
  all_goals exact .refl

theorem announceReceiptTimeoutExpires_asks (w : World) :
    AsksRun w (announceReceiptTimeoutExpires w) := by
  have hempty : Still w (emptyForeignMasterDS w) :=
    ⟨rfl, .cons (x := ⟨.announceTimeout, w.toPtpClock⟩) trivial rfl⟩
  have hlead : ∀ w : World, Still w { m1 w with recommendedState := PTP_MASTER } :=
    fun _ => .of_eq rfl rfl
  unfold announceReceiptTimeoutExpires
  generalize emptyForeignMasterDS w = w₁ at hempty ⊢
  dsimp only
  refine hempty.asks.trans ?_
  split
  · exact (hlead w₁).asks.tail (.toState PTP_MASTER nofun)
  · split
    · exact .single (.toState PTP_LISTENING nofun)
    · exact .refl

theorem passiveAction_asks (w : World) : AsksRun w (passiveAction w) :=
  ifExpired_asks .ANNOUNCE_RECEIPT_TIMER w (fun w' _ => announceReceiptTimeoutExpires_asks w')
    fun w' _ => handle_asks w'

theorem doInit_asks (hport : w.portDS.portState = PTP_INITIALIZING) :
    AsksRun w (doInit w).2 := by
  have hnet : Still w (netInit w).2 := by
    refine ⟨?_, .of_eq (congrArg Engine.log (netInit_engine w))⟩
    unfold netInit
    dsimp only
    split
    · rfl
    · split
      · rfl
      · split <;> rfl
  rw [doInit_eq]
  generalize netInit w = net at hnet ⊢
  have hport' : net.2.portDS.portState = PTP_INITIALIZING :=
    (congrArg Asking.portState hnet.asking).trans hport
  split
  · exact hnet.asks
  · have hdata : Asks net.2 (initData net.2) := .initData hport'
    have htimer : Still (initData net.2) (initTimer (initData net.2)) := .of_eq rfl rfl
    have hm1 : ∀ w : World, Still w
        { m1 w with msgObuf := msgPackHeader (m1 w).toPtpClock (m1 w).msgObuf } :=
      fun _ => .of_eq rfl rfl
    exact ((hnet.asks.tail hdata).trans (htimer.trans (initClock_still _)).asks).trans
      (hm1 _).asks

theorem portAction_asks (w : World) : AsksRun w (portAction w) := by
  unfold portAction
  cases hport : w.portDS.portState
  case PTP_INITIALIZING =>
    dsimp only
    unfold branch
    split
    · exact (doInit_asks hport).tail (.toState PTP_LISTENING nofun)
    · exact (doInit_asks hport).trans (fault_asks _)
  case PTP_FAULTY => exact .single (.toState PTP_INITIALIZING nofun)
  case PTP_DISABLED => exact handle_asks w
  case PTP_PASSIVE => exact passiveAction_asks w
  case PTP_LISTENING | PTP_UNCALIBRATED | PTP_SLAVE =>
    have hreport : AsksRun w (ifExpired .MANAGEMENT_INTERVAL_TIMER
        (fun w => handle (issueManagement w)) id w) :=
      ifExpired_asks _ w (fun w' _ => (issueManagement_still w').asks.trans (handle_asks _))
        fun _ _ => .refl
    exact hreport.trans (passiveAction_asks _)
  case PTP_PRE_MASTER => exact .refl
  case PTP_MASTER =>
    have hsync : AsksRun w (ifExpired .SYNC_INTERVAL_TIMER issueSync id w) :=
      ifExpired_asks _ w (fun w' _ => (issueSync_still w').asks) fun _ _ => .refl
    have hannounce : ∀ w : World,
        AsksRun w (ifExpired .ANNOUNCE_INTERVAL_TIMER issueAnnounce id w) := fun w =>
      ifExpired_asks _ w (fun w' _ => (issueAnnounce_still w').asks) fun _ _ => .refl
    exact ((hsync.trans (hannounce _)).trans (handle_asks _)).trans
      (issueDelayReqTimerExpired_asks _)

theorem doState_asks (w : World) : AsksRun w (doState w) := by
  have hidle : Still w { w with messageActivity := false } := .of_eq rfl rfl
  exact ((hidle.trans (stateDecision_still _)).asks.trans (recommendedAction_asks _)).trans
    (portAction_asks _)

/-! ## Runs -/

theorem ptpdStartup_asks (rtOpts : RunTimeOpts) (w : World) :
    AsksRun w (ptpdStartup rtOpts w) := by
  have hopts : Still w { w with rtOpts := rtOpts.checked } := .of_eq rfl rfl
  exact hopts.asks.tail (.toState PTP_INITIALIZING nofun)

theorem step_asks (input : Input) (w : World) : AsksRun w (step input w) := by
  cases input with
  | ptpdStartup rtOpts => exact ptpdStartup_asks rtOpts w
  | catchAlarm time_ms =>
    have hcharge : Still w (catchAlarm time_ms w) := .of_eq rfl rfl
    exact hcharge.asks
  | netRecvEventCallback p =>
    have harrive : Still w (netRecvEventCallback p w) := by
      refine ⟨?_, (netRecvEventCallback_grows p w).imp fun _ _ => trivial⟩
      unfold netRecvEventCallback
      dsimp only
      split <;> rfl
    exact harrive.asks
  | netRecvGeneralCallback p =>
    have harrive : Still w (netRecvGeneralCallback p w) := by
      refine ⟨?_, (netRecvGeneralCallback_grows p w).imp fun _ _ => trivial⟩
      unfold netRecvGeneralCallback
      dsimp only
      split <;> rfl
    exact harrive.asks
  | doState => exact doState_asks w
  | linkUp => exact .single (.toState PTP_LISTENING nofun)
  | adjust offset =>
    have hset : Still w { w with currentDS.offsetFromMaster := offset } := .of_eq rfl rfl
    have hrun : AsksRun w _ := (hset.trans (updateClock_still _)).asks
    exact hrun

/-- Invariant rule: power-on and every act. -/
theorem Reachable.of_asks (hw : Reachable w) (Inv : World → Prop)
    (hzero : ∀ platform, Inv (World.zero platform))
    (hasks : ∀ w w', Asks w w' → Inv w → Inv w') : Inv w := by
  have hrun : ∀ {w w' : World}, AsksRun w w' → Inv w → Inv w' := by
    intro w w' hrun hinv
    induction hrun with
    | refl => exact hinv
    | tail _ hlast ih => exact hasks _ _ hlast ih
  induction hw with
  | init platform rtOpts hv => exact hrun (ptpdStartup_asks rtOpts _) (hzero platform)
  | step input hw hv ih => exact hrun (step_asks input _) ih

end Ptpd
