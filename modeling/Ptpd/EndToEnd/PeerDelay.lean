import Ptpd.EndToEnd.Delivery
import Ptpd.Timestamps

/-! # The peer delay from end to end

    One exchange of the peer delay mechanism between two ports, from the request
    to the delay that the requester computes, before it is filtered. The four
    times and the correction fields of the two answers go through the octets of
    three messages, and through fields of the requester's clock between them.
-/

namespace Ptpd

open PortState Octets MachineInt

/-! ## The exchange -/

/-- What a requester needs of its clock from one message of an exchange to the next. -/
structure PeerRequest where
  portState : PortState
  delayMechanism : DelayMechanism
  portIdentity : PortIdentity
  versionNumber : UInt8
  domainNumber : UInt8
  inboundLatency : TimeInternal
  sentPDelayReqSequenceId : UInt16
  waitingForPDelayRespFollowUp : Bool
  pdelay_t1 : TimeInternal
  pdelay_t2 : TimeInternal
  pdelay_t4 : TimeInternal
  correctionField_pDelayResp : TimeInternal

def PtpClock.peerRequest (c : PtpClock) : PeerRequest where
  portState := c.portDS.portState
  delayMechanism := c.portDS.delayMechanism
  portIdentity := c.portDS.portIdentity
  versionNumber := c.portDS.versionNumber
  domainNumber := c.defaultDS.domainNumber
  inboundLatency := c.inboundLatency
  sentPDelayReqSequenceId := c.sentPDelayReqSequenceId
  waitingForPDelayRespFollowUp := c.waitingForPDelayRespFollowUp
  pdelay_t1 := c.pdelay_t1
  pdelay_t2 := c.pdelay_t2
  pdelay_t4 := c.pdelay_t4
  correctionField_pDelayResp := c.correctionField_pDelayResp

/-- A requester and a responder that use the peer delay mechanism on one link. -/
structure PeerLink (requester responder : PtpClock) : Prop where
  requesterSpeaks : requester.Speaks
  responderSpeaks : responder.Speaks
  requesterMechanism : requester.portDS.delayMechanism = .P2P
  responderMechanism : responder.portDS.delayMechanism = .P2P
  requesterState : requester.portDS.portState = PTP_SLAVE ∨
    requester.portDS.portState = PTP_MASTER
  responderState : responder.portDS.portState = PTP_PASSIVE ∨
    responder.portDS.portState = PTP_SLAVE ∨ responder.portDS.portState = PTP_MASTER
  domainNumber : requester.defaultDS.domainNumber = responder.defaultDS.domainNumber
  distinct : requester.portDS.portIdentity ≠ responder.portDS.portIdentity
  requesterInbound : requester.inboundLatency.Latency
  requesterOutbound : requester.outboundLatency.Latency
  responderInbound : responder.inboundLatency.Latency
  responderOutbound : responder.outboundLatency.Latency

theorem PeerLink.versionNumber {requester responder : PtpClock} (h : PeerLink requester responder) :
    requester.portDS.versionNumber = responder.portDS.versionNumber :=
  h.requesterSpeaks.version.trans h.responderSpeaks.version.symm

/-- The worlds in which the messages of one exchange are sent and delivered, the
    times at which they leave and arrive, and the correction fields they arrive with. -/
structure DelayExchange where
  requester : World
  responder : World
  /-- The requester when the response has arrived. -/
  awaiting : World
  /-- The requester when the Follow_Up has arrived. -/
  following : World
  t1 : TimeInternal
  t2 : TimeInternal
  t3 : TimeInternal
  t4 : TimeInternal
  cRequest : Int
  cResponse : Int
  cFollowUp : Int
  /-- The time that is handed on with the Follow_Up, a general message. -/
  time : TimeInternal

namespace DelayExchange

def request (x : DelayExchange) : List UInt8 := (issuePDelayReq x.requester).messages.headD []

/-- The answers, the newest first. -/
def answers (x : DelayExchange) : List (List UInt8) := (handleMessage x.t2 x.responder).messages

def response (x : DelayExchange) : List UInt8 := x.answers.tail.headD []

def followUp (x : DelayExchange) : List UInt8 := x.answers.headD []

abbrev Linked (x : DelayExchange) : Prop :=
  PeerLink x.requester.toPtpClock x.responder.toPtpClock

/-- The readings of the clocks, and what was written on the way. -/
structure Stamped (x : DelayExchange) : Prop where
  t1 : x.t1.Stamp
  t2 : x.t2.Stamp
  t3 : x.t3.Stamp
  t4 : x.t4.Stamp
  cRequest : IsCorrection x.cRequest
  cResponse : IsCorrection x.cResponse
  cFollowUp : IsCorrection x.cFollowUp

/-- The three messages are delivered in order, and nothing of the requester
    changes between them that it needs for the exchange. -/
structure Delivered (x : DelayExchange) : Prop where
  requestSent : x.requester.platform.tx.head = .sent x.t1
  numbered : (issuePDelayReq x.requester).sentPDelayReqSequenceId ≠ 0
  request : x.responder.Holds (rewriteCorrection x.cRequest x.request)
  responseSent : x.responder.platform.tx.head = .sent x.t3
  followUpSent : ∃ time, x.responder.platform.tx.tail.head = .sent time
  awaits : x.awaiting.peerRequest = (issuePDelayReq x.requester).peerRequest
  response : x.awaiting.Holds (rewriteCorrection x.cResponse x.response)
  follows : x.following.peerRequest = (handleMessage x.t4 x.awaiting).peerRequest
  followUp : x.following.Holds (rewriteCorrection x.cFollowUp x.followUp)

end DelayExchange

/-! ## The request -/

variable {w : World}

/-- A request that left at `t1`: what it is, and what is kept of it. -/
theorem issuePDelayReq_sent {t1 : TimeInternal} (htx : w.platform.tx.head = .sent t1)
    (ht1 : t1.seconds ≠ 0) :
    ∃ stamp, (issuePDelayReq w).messages =
        take PDELAY_REQ_LENGTH ((Outgoing.pDelayReq stamp).pack w.toPtpClock w.msgObuf) ::
          w.messages ∧
      (issuePDelayReq w).peerRequest =
        { w.peerRequest with
          sentPDelayReqSequenceId := w.sentPDelayReqSequenceId + 1
          pdelay_t1 := addTime t1 w.outboundLatency } := by
  refine ⟨(w.record .issuePDelayReq).popTime.external w.platform.time.head, ?_⟩
  rw [issuePDelayReq_eq, htx]
  dsimp only [SendResult.txTime?, Option.getD_some]
  rw [if_pos ht1]
  exact ⟨rfl, rfl⟩

/-! ## The answers -/

/-- A two-step request is answered, and the answer followed up. -/
theorem handlePDelayReq_sent {time t3 : TimeInternal} (h : w.answersPDelayReq false)
    (htwo : w.isTwoStep = true) (htx : w.platform.tx.head = .sent t3) (ht3 : t3.Stamp)
    (hlatency : w.outboundLatency.Latency) :
    (handlePDelayReq time false w).messages =
      take PDELAY_RESP_FOLLOW_UP_LENGTH
        ((Outgoing.pDelayRespFollowUp w.msgTmpHeader
          ((w.answered time).external (addTime t3 w.outboundLatency))).pack
            (w.answered time).toPtpClock (w.answered time).msgObuf) ::
      take PDELAY_RESP_LENGTH
        ((Outgoing.pDelayResp w.msgTmpHeader (w.external time)).pack w.toPtpClock w.msgObuf) ::
      w.messages := by
  have hsec : t3.seconds ≠ 0 := ne_of_gt ht3.positive
  have hstamped : stamped w.outboundLatency (w.platform.tx.head.txTime?.getD time) =
      addTime t3 w.outboundLatency := by
    rw [htx]
    exact if_pos hsec
  rw [handlePDelayReq_eq h, hstamped, if_pos ⟨ht3.egress_seconds hlatency, htwo⟩,
    issuePDelayRespFollowUp_eq, World.issue_messages]
  rfl

/-! ## What the requester makes of them -/

/-- A two-step response to the last request is taken. -/
theorem handlePDelayResp_taken {time : TimeInternal} (hmech : w.portDS.delayMechanism = .P2P)
    (hlength : (PDELAY_RESP_LENGTH : Int) ≤ w.msgIbufLength)
    (hport : w.portDS.portState = PTP_SLAVE ∨ w.portDS.portState = PTP_MASTER)
    (hseq : (w.sentPDelayReqSequenceId.toNat : Int) - 1 = w.msgTmpHeader.sequenceId.toNat)
    (hrequest : w.portDS.portIdentity =
      (msgUnpackPDelayResp w.msgIbuf).requestingPortIdentity)
    (htwo : w.isTwoStep = true) :
    (handlePDelayResp time false w).peerRequest =
      { w.peerRequest with
        waitingForPDelayRespFollowUp := true
        pdelay_t2 := toInternalTime w.platform.stackTime.head
          (msgUnpackPDelayResp w.msgIbuf).requestReceiptTimestamp
        pdelay_t4 := time
        correctionField_pDelayResp := w.correctionField } := by
  have hsame : isSamePortIdentity w.portDS.portIdentity
      (msgUnpackPDelayResp w.msgIbuf).requestingPortIdentity = true :=
    isSamePortIdentity_iff.mpr hrequest
  have hlong : ¬ w.msgIbufLength < (PDELAY_RESP_LENGTH : Int) := not_lt.mpr hlength
  have htaken : handlePDelayResp time false w = acceptTwoStepPDelayResp time w := by
    unfold handlePDelayResp
    rw [hmech]
    refine (if_neg hlong).trans ?_
    rcases hport with hport | hport
    all_goals
      rw [hport]
      simp [hseq, hsame, htwo]
  rw [htaken]
  rfl

/-- The delay that was computed between two worlds, before it was filtered. -/
abbrev MeasuresPeerDelay : World → World → TimeInternal → Prop :=
  Measures .unfilteredPeerDelay (·.portDS.peerMeanPathDelay)

theorem filterPeerDelay_log (w : World) :
    (filterPeerDelay w).log = ⟨.unfilteredPeerDelay, w.toPtpClock⟩ :: w.log := by
  unfold filterPeerDelay
  dsimp only
  split <;> rfl

theorem updatePeerDelay_measures {v : World} (f : TimeInternal) (twoStep : Bool)
    (hlog : ∃ older, w.log = older ++ v.log) :
    MeasuresPeerDelay v (updatePeerDelay f twoStep w)
      (div2Time (subTime (w.peerRoundTrip twoStep) f)) := by
  obtain ⟨older, hlog⟩ := hlog
  unfold updatePeerDelay
  dsimp only
  generalize hw₁ : ({ w.record (.updatePeerDelay f twoStep) with
    portDS.peerMeanPathDelay := _ } : World) = w₁
  have hlog₁ : w₁.log = ⟨.updatePeerDelay f twoStep, w.toPtpClock⟩ :: older ++ v.log := by
    rw [← hw₁, List.cons_append, ← hlog]
    rfl
  refine .of_log ⟨[], _, filterPeerDelay_log w₁, _, hlog₁⟩ ?_
  rw [← hw₁]
  rfl

/-- The Follow_Up of the response makes the delay of the four times. -/
theorem acceptPDelayRespFollowUp_measures {v : World} (hlog : ∃ older, w.log = older ++ v.log) :
    MeasuresPeerDelay v (acceptPDelayRespFollowUp w)
      (div2Time (subTime
        (addTime (subTime w.pdelay_t2 w.pdelay_t1)
          (subTime w.pdelay_t4 (toInternalTime w.platform.stackTime.head
            (msgUnpackPDelayRespFollowUp w.msgIbuf).responseOriginTimestamp)))
        (addTime w.correctionField w.correctionField_pDelayResp))) := by
  obtain ⟨older, hlog⟩ := hlog
  unfold acceptPDelayRespFollowUp
  dsimp only
  have hrecord : ∃ older, (w.record .acceptPDelayRespFollowUp).log = older ++ v.log :=
    ⟨⟨.acceptPDelayRespFollowUp, w.toPtpClock⟩ :: older, by
      rw [List.cons_append, ← hlog]
      rfl⟩
  exact updatePeerDelay_measures _ true hrecord

/-- The bodies of the two answers, as they arrive. -/
theorem World.Holds.pDelayResp {c : Int} {sender : PtpClock} {buf : Buf} {header : MsgHeader}
    {stamp : Timestamp}
    (h : w.Holds (rewriteCorrection c (take PDELAY_RESP_LENGTH
      ((Outgoing.pDelayResp header stamp).pack sender buf)))) :
    msgUnpackPDelayResp w.msgIbuf = ⟨stamp, header.sourcePortIdentity⟩ := by
  unfold msgUnpackPDelayResp
  rw [h.timestamp (by decide), h.portIdentity (by decide)]
  exact msgUnpackPDelayResp_pack buf header stamp

theorem World.Holds.pDelayRespFollowUp {c : Int} {sender : PtpClock} {buf : Buf}
    {header : MsgHeader} {stamp : Timestamp}
    (h : w.Holds (rewriteCorrection c (take PDELAY_RESP_FOLLOW_UP_LENGTH
      ((Outgoing.pDelayRespFollowUp header stamp).pack sender buf)))) :
    msgUnpackPDelayRespFollowUp w.msgIbuf = ⟨stamp, header.sourcePortIdentity⟩ := by
  unfold msgUnpackPDelayRespFollowUp
  rw [h.timestamp (by decide), h.portIdentity (by decide)]
  exact msgUnpackPDelayRespFollowUp_pack buf header stamp

/-! ## The exchange as a whole -/

namespace DelayExchange

variable {x : DelayExchange}

/-- The responder has the request of the requester at hand. -/
theorem request_received (hl : x.Linked) (hs : x.Stamped) (hd : x.Delivered) :
    ∃ stamp, (msgUnpackHeader x.responder.msgIbuf).Of x.requester.toPtpClock (.pDelayReq stamp)
      x.cRequest ∧ x.responder.msgIbufLength = PDELAY_REQ_LENGTH := by
  obtain ⟨stamp, hmessages, -⟩ := issuePDelayReq_sent hd.requestSent (ne_of_gt hs.t1.positive)
  have hholds := hd.request
  unfold request at hholds
  rw [hmessages, List.headD_cons] at hholds
  exact ⟨stamp, hholds.of_speaks hl.requesterSpeaks (by decide) hs.cRequest,
    hholds.rewritten_length⟩

/-- The world in which the responder answers. -/
def answering (x : DelayExchange) : World :=
  x.responder.delivered (x.responder.ingress x.t2)

theorem answering_speaks (hl : x.Linked) : x.answering.Speaks :=
  hl.responderSpeaks.delivered _

/-- The two answers. -/
theorem answers_eq (hl : x.Linked) (hs : x.Stamped) (hd : x.Delivered) :
    x.response = take PDELAY_RESP_LENGTH
        ((Outgoing.pDelayResp x.answering.msgTmpHeader
          (x.answering.external (x.responder.ingress x.t2))).pack x.answering.toPtpClock
            x.answering.msgObuf) ∧
      x.followUp = take PDELAY_RESP_FOLLOW_UP_LENGTH
        ((Outgoing.pDelayRespFollowUp x.answering.msgTmpHeader
          ((x.answering.answered (x.responder.ingress x.t2)).external
            (addTime x.t3 x.responder.outboundLatency))).pack
            (x.answering.answered (x.responder.ingress x.t2)).toPtpClock
            (x.answering.answered (x.responder.ingress x.t2)).msgObuf) := by
  obtain ⟨stamp, hheader, hlength⟩ := request_received hl hs hd
  have hhandle : handleMessage x.t2 x.responder =
      handlePDelayReq (x.responder.ingress x.t2) false x.answering := by
    rw [handleMessage_eq (by rw [hlength]; decide) hheader hl.versionNumber hl.domainNumber
      hl.distinct.symm]
    unfold dispatch
    rw [show MessageType.ofCode (x.responder.delivered _).msgTmpHeader.messageType = _ from
      hheader.messageType]
    rfl
  have hanswers : x.answering.answersPDelayReq false :=
    ⟨hl.responderMechanism, hlength.ge, hl.responderState, rfl⟩
  have hsent : (handlePDelayReq (x.responder.ingress x.t2) false x.answering).messages = _ :=
    handlePDelayReq_sent hanswers hheader.twoStep hd.responseSent hs.t3 hl.responderOutbound
  unfold response followUp answers
  rw [hhandle, hsent]
  exact ⟨rfl, rfl⟩

/-- What the requester has kept of its request. -/
theorem awaiting_eq (hs : x.Stamped) (hd : x.Delivered) :
    x.awaiting.peerRequest =
      { x.requester.peerRequest with
        sentPDelayReqSequenceId := x.requester.sentPDelayReqSequenceId + 1
        pdelay_t1 := addTime x.t1 x.requester.outboundLatency } := by
  obtain ⟨stamp, -, hrequest⟩ := issuePDelayReq_sent hd.requestSent (ne_of_gt hs.t1.positive)
  exact hd.awaits.trans hrequest

/-- The requester has the response at hand. -/
theorem response_received (hl : x.Linked) (hs : x.Stamped) (hd : x.Delivered) :
    (msgUnpackHeader x.awaiting.msgIbuf).Of x.answering.toPtpClock
        (.pDelayResp x.answering.msgTmpHeader (x.answering.external (x.responder.ingress x.t2)))
        x.cResponse ∧
      x.awaiting.msgIbufLength = PDELAY_RESP_LENGTH ∧
      msgUnpackPDelayResp x.awaiting.msgIbuf =
        ⟨x.answering.external (x.responder.ingress x.t2),
          x.answering.msgTmpHeader.sourcePortIdentity⟩ := by
  have hholds := hd.response
  rw [(answers_eq hl hs hd).1] at hholds
  exact ⟨hholds.of_speaks (answering_speaks hl) (by decide) hs.cResponse, hholds.rewritten_length,
    hholds.pDelayResp⟩

/-- Its number is that of the request. -/
theorem response_numbered (hl : x.Linked) (hs : x.Stamped) (hd : x.Delivered) :
    (x.awaiting.sentPDelayReqSequenceId.toNat : Int) - 1 =
      (msgUnpackHeader x.awaiting.msgIbuf).sequenceId.toNat := by
  obtain ⟨stamp, hrequest, -⟩ := request_received hl hs hd
  have hnumber : x.awaiting.sentPDelayReqSequenceId = x.requester.sentPDelayReqSequenceId + 1 :=
    congrArg PeerRequest.sentPDelayReqSequenceId (awaiting_eq hs hd)
  rw [(response_received hl hs hd).1.sequenceId _ rfl]
  show (x.awaiting.sentPDelayReqSequenceId.toNat : Int) - 1 =
    (msgUnpackHeader x.responder.msgIbuf).sequenceId.toNat
  rw [hrequest.sequenceId _ rfl, hnumber]
  refine number_before fun hzero => hd.numbered ?_
  exact (congrArg PeerRequest.sentPDelayReqSequenceId hd.awaits).symm.trans (hnumber.trans hzero)

/-- It comes to its handler. -/
theorem response_handled (hl : x.Linked) (hs : x.Stamped) (hd : x.Delivered) :
    handleMessage x.t4 x.awaiting =
      handlePDelayResp (x.requester.ingress x.t4) false
        (x.awaiting.delivered (x.requester.ingress x.t4)) := by
  obtain ⟨hheader, hlength, -⟩ := response_received hl hs hd
  have hkept := awaiting_eq hs hd
  have hid : x.awaiting.portDS.portIdentity = x.requester.portDS.portIdentity :=
    congrArg PeerRequest.portIdentity hkept
  have hinbound : x.awaiting.ingress x.t4 = x.requester.ingress x.t4 := by
    unfold PtpClock.ingress
    rw [show x.awaiting.inboundLatency = x.requester.inboundLatency from
      congrArg PeerRequest.inboundLatency hkept]
  rw [handleMessage_eq (by rw [hlength]; decide) hheader
    (hl.versionNumber.symm.trans (congrArg PeerRequest.versionNumber hkept).symm)
    (hl.domainNumber.symm.trans (congrArg PeerRequest.domainNumber hkept).symm)
    (fun h => hl.distinct (hid.symm.trans h)), hinbound]
  unfold dispatch
  rw [show MessageType.ofCode (x.awaiting.delivered _).msgTmpHeader.messageType = _ from
    hheader.messageType]
  rfl

/-- What it has kept once it has taken the response. -/
theorem following_eq (hl : x.Linked) (hs : x.Stamped) (hd : x.Delivered) :
    x.following.peerRequest =
      { x.requester.peerRequest with
        sentPDelayReqSequenceId := x.requester.sentPDelayReqSequenceId + 1
        pdelay_t1 := addTime x.t1 x.requester.outboundLatency
        waitingForPDelayRespFollowUp := true
        pdelay_t2 := x.responder.ingress x.t2
        pdelay_t4 := x.requester.ingress x.t4
        correctionField_pDelayResp := .ofNanos (correctionNanos x.cResponse) } := by
  obtain ⟨stamp, hrequest, -⟩ := request_received hl hs hd
  obtain ⟨hheader, hlength, hbody⟩ := response_received hl hs hd
  have hkept := awaiting_eq hs hd
  -- what the handler looks at is what the requester has kept
  have hport : x.awaiting.portDS.portState = PTP_SLAVE ∨ x.awaiting.portDS.portState = PTP_MASTER := by
    rw [show x.awaiting.portDS.portState = x.requester.portDS.portState from
      congrArg PeerRequest.portState hkept]
    exact hl.requesterState
  have htaken : (handlePDelayResp (x.requester.ingress x.t4) false
      (x.awaiting.delivered (x.requester.ingress x.t4))).peerRequest = _ := handlePDelayResp_taken
    ((congrArg PeerRequest.delayMechanism hkept).trans hl.requesterMechanism) hlength.ge hport
    (response_numbered hl hs hd)
    (by
      show x.awaiting.portDS.portIdentity = (msgUnpackPDelayResp x.awaiting.msgIbuf).2
      rw [hbody, show x.awaiting.portDS.portIdentity = x.requester.portDS.portIdentity from
        congrArg PeerRequest.portIdentity hkept]
      exact hrequest.sourcePortIdentity.symm) hheader.twoStep
  have ht2 : toInternalTime x.awaiting.platform.stackTime.head
      (msgUnpackPDelayResp x.awaiting.msgIbuf).requestReceiptTimestamp = x.responder.ingress x.t2 := by
    have hb := hs.t2.bounds
    have hlb := hl.responderInbound.bounds
    rw [hbody, hs.t2.ingress hl.responderInbound]
    exact toInternalTime_fromInternalTime (by omega) (by omega) _ _
  have hcorrection : (x.awaiting.delivered (x.requester.ingress x.t4)).correctionField =
      .ofNanos (correctionNanos x.cResponse) := by
    show scaledNanosecondsToInternalTime (msgUnpackHeader x.awaiting.msgIbuf).correctionfield = _
    rw [hheader.correctionfield, scaledNanosecondsToInternalTime_eq hs.cResponse]
  rw [hd.follows, response_handled hl hs hd, htaken, hcorrection,
    show (x.awaiting.delivered _).peerRequest = x.awaiting.peerRequest from rfl, hkept,
    show toInternalTime (x.awaiting.delivered _).platform.stackTime.head
      (msgUnpackPDelayResp (x.awaiting.delivered _).msgIbuf).requestReceiptTimestamp = _ from ht2]

/-- The delay in nanoseconds, in terms of the four times and the two corrections. -/
def delayNanos (x : DelayExchange) : Int :=
  let t1' := x.t1.nanos + x.requester.outboundLatency.nanos
  let t2' := x.t2.nanos - x.responder.inboundLatency.nanos
  let t3' := x.t3.nanos + x.responder.outboundLatency.nanos
  let t4' := x.t4.nanos - x.requester.inboundLatency.nanos
  ((t2' - t1') + (t4' - t3') - correctionNanos x.cResponse - correctionNanos x.cFollowUp).tdiv 2

/-- The correction of the request is copied into the Follow_Up. -/
theorem followUp_correction (hl : x.Linked) (hs : x.Stamped) (hd : x.Delivered) :
    (msgUnpackHeader (bufOf x.followUp)).correctionfield = x.cRequest := by
  obtain ⟨stamp, hrequest, -⟩ := request_received hl hs hd
  have hcopied : ∀ (c : PtpClock) (old header : MsgHeader) (stamp : Timestamp),
      ((Outgoing.pDelayRespFollowUp header stamp).header c old).correctionfield =
        wrapS 64 header.correctionfield := fun _ _ _ _ => rfl
  rw [(answers_eq hl hs hd).2, msgUnpackHeader_bufOf _ (by decide), msgUnpackHeader_pack, hcopied,
    show x.answering.msgTmpHeader.correctionfield = x.cRequest from hrequest.correctionfield]
  exact wrapS_of_range (by decide) hs.cRequest.1

/-- The requester takes the Follow_Up for the response that it waits for. -/
theorem followUp_taken (hl : x.Linked) (hs : x.Stamped) (hd : x.Delivered) :
    ∃ header stamp, (msgUnpackHeader x.following.msgIbuf).Of
        (x.answering.answered (x.responder.ingress x.t2)).toPtpClock
        (.pDelayRespFollowUp header stamp) x.cFollowUp ∧
      toInternalTime x.following.platform.stackTime.head
        (msgUnpackPDelayRespFollowUp x.following.msgIbuf).responseOriginTimestamp =
          addTime x.t3 x.responder.outboundLatency ∧
      handleMessage x.time x.following = acceptPDelayRespFollowUp
        (x.following.delivered (x.following.ingress x.time)) := by
  obtain ⟨stamp, hrequest, -⟩ := request_received hl hs hd
  have hkept := following_eq hl hs hd
  have hholds := hd.followUp
  rw [(answers_eq hl hs hd).2] at hholds
  have hspeaks : (x.answering.answered (x.responder.ingress x.t2)).Speaks :=
    PtpClock.Speaks.issue (v := x.answering.popTimestamp) (answering_speaks hl) _ _ _ _
  have hheader := hholds.of_speaks hspeaks (by decide) hs.cFollowUp
  have hlength : x.following.msgIbufLength = PDELAY_RESP_FOLLOW_UP_LENGTH := hholds.rewritten_length
  have hid : x.following.portDS.portIdentity = x.requester.portDS.portIdentity :=
    congrArg PeerRequest.portIdentity hkept
  refine ⟨_, _, hheader, ?_, ?_⟩
  · have hb := hs.t3.bounds
    have hlb := hl.responderOutbound.bounds
    rw [hholds.pDelayRespFollowUp, hs.t3.egress hl.responderOutbound]
    exact toInternalTime_fromInternalTime (by omega) (by omega) _ _
  · have hport : x.following.portDS.portState = PTP_SLAVE ∨
        x.following.portDS.portState = PTP_MASTER := by
      rw [show x.following.portDS.portState = x.requester.portDS.portState from
        congrArg PeerRequest.portState hkept]
      exact hl.requesterState
    have hseq : ((msgUnpackHeader x.following.msgIbuf).sequenceId.toNat : Int) =
        x.following.sentPDelayReqSequenceId.toNat - 1 := by
      rw [hheader.sequenceId _ rfl, show x.following.sentPDelayReqSequenceId = _ from
        congrArg PeerRequest.sentPDelayReqSequenceId hkept]
      show ((msgUnpackHeader x.responder.msgIbuf).sequenceId.toNat : Int) = _
      rw [hrequest.sequenceId _ rfl]
      refine (number_before fun hzero => hd.numbered ?_).symm
      exact (congrArg PeerRequest.sentPDelayReqSequenceId hd.awaits).symm.trans
        ((congrArg PeerRequest.sentPDelayReqSequenceId (awaiting_eq hs hd)).trans hzero)
    rw [handleMessage_eq (by rw [hlength]; decide) hheader
      (hl.versionNumber.symm.trans (congrArg PeerRequest.versionNumber hkept).symm)
      (hl.domainNumber.symm.trans (congrArg PeerRequest.domainNumber hkept).symm)
      (fun h => hl.distinct (hid.symm.trans h))]
    unfold dispatch
    rw [show MessageType.ofCode (x.following.delivered _).msgTmpHeader.messageType = _ from
      hheader.messageType]
    exact TimedMessage.handle_taken (m := .pDelayRespFollowUp) hlength.ge
      ⟨(congrArg PeerRequest.delayMechanism hkept).trans hl.requesterMechanism, hport,
        congrArg PeerRequest.waitingForPDelayRespFollowUp hkept, hseq⟩

end DelayExchange

/-- **The peer delay from end to end.** The Follow_Up carries the correction of the
    request, and the requester computes half of both ways, exactly. -/
theorem peerDelay_end_to_end (x : DelayExchange) (hl : x.Linked) (hs : x.Stamped)
    (hd : x.Delivered) :
    (msgUnpackHeader (bufOf x.followUp)).correctionfield = x.cRequest ∧
      MeasuresPeerDelay x.following (handleMessage x.time x.following) (.ofNanos x.delayNanos) := by
  refine ⟨x.followUp_correction hl hs hd, ?_⟩
  obtain ⟨header, stamp, hheader, ht3, hhandle⟩ := x.followUp_taken hl hs hd
  have hkept := x.following_eq hl hs hd
  have hmeasures := acceptPDelayRespFollowUp_measures (v := x.following)
    (w := x.following.delivered (x.following.ingress x.time)) ⟨[_], rfl⟩
  rw [← hhandle] at hmeasures
  -- every time in the sum is the canonical one for its number
  have ht1 : x.following.pdelay_t1 = .ofNanos (x.t1.nanos + x.requester.outboundLatency.nanos) :=
    (congrArg PeerRequest.pdelay_t1 hkept).trans (hs.t1.egress hl.requesterOutbound)
  have ht2 : x.following.pdelay_t2 = .ofNanos (x.t2.nanos - x.responder.inboundLatency.nanos) :=
    (congrArg PeerRequest.pdelay_t2 hkept).trans (hs.t2.ingress hl.responderInbound)
  have ht4 : x.following.pdelay_t4 = .ofNanos (x.t4.nanos - x.requester.inboundLatency.nanos) :=
    (congrArg PeerRequest.pdelay_t4 hkept).trans (hs.t4.ingress hl.requesterInbound)
  have hresponse : x.following.correctionField_pDelayResp =
      .ofNanos (correctionNanos x.cResponse) :=
    congrArg PeerRequest.correctionField_pDelayResp hkept
  have hcorrection : (x.following.delivered (x.following.ingress x.time)).correctionField =
      .ofNanos (correctionNanos x.cFollowUp) := by
    show scaledNanosecondsToInternalTime (msgUnpackHeader x.following.msgIbuf).correctionfield = _
    rw [hheader.correctionfield, scaledNanosecondsToInternalTime_eq hs.cFollowUp]
  rw [hs.t3.egress hl.responderOutbound] at ht3
  have hsum : div2Time (subTime
      (addTime (subTime x.following.pdelay_t2 x.following.pdelay_t1)
        (subTime x.following.pdelay_t4 (toInternalTime x.following.platform.stackTime.head
          (msgUnpackPDelayRespFollowUp x.following.msgIbuf).responseOriginTimestamp)))
      (addTime (x.following.delivered (x.following.ingress x.time)).correctionField
        x.following.correctionField_pDelayResp)) = .ofNanos x.delayNanos := by
    have hb1 := hs.t1.bounds
    have hb2 := hs.t2.bounds
    have hb3 := hs.t3.bounds
    have hb4 := hs.t4.bounds
    have hl1 := hl.requesterOutbound.bounds
    have hl2 := hl.responderInbound.bounds
    have hl3 := hl.responderOutbound.bounds
    have hl4 := hl.requesterInbound.bounds
    have hc1 := correctionNanos_bounds hs.cResponse
    have hc2 := correctionNanos_bounds hs.cFollowUp
    rw [ht1, ht2, ht3, ht4, hcorrection, hresponse, subTime_ofNanos (by omega),
      subTime_ofNanos (by omega), addTime_ofNanos (by omega), addTime_ofNanos (by omega),
      subTime_ofNanos (by omega), div2Time_ofNanos (by omega)]
    unfold DelayExchange.delayNanos
    dsimp only
    congr 2
    ring
  rw [← hsum]
  exact hmeasures

/-- The exchange of two ports that do nothing else meanwhile. -/
def DelayExchange.between (requester responder : World) (t1 t2 t3 t4 : TimeInternal)
    (cRequest cResponse cFollowUp : Int) : DelayExchange :=
  let request := (issuePDelayReq requester).messages.headD []
  let responder := responder.receiving (rewriteCorrection cRequest request)
  let answers := (handleMessage t2 responder).messages
  let awaiting := (issuePDelayReq requester).receiving
    (rewriteCorrection cResponse (answers.tail.headD []))
  let following := (handleMessage t4 awaiting).receiving
    (rewriteCorrection cFollowUp (answers.headD []))
  ⟨requester, responder, awaiting, following, t1, t2, t3, t4, cRequest, cResponse, cFollowUp, ⟨0, 0⟩⟩

theorem DelayExchange.between_delivered {requester responder : World} {t1 t2 t3 t4 t : TimeInternal}
    {cRequest cResponse cFollowUp : Int} (hrequest : requester.platform.tx.head = .sent t1)
    (hnumber : (issuePDelayReq requester).sentPDelayReqSequenceId ≠ 0)
    (hresponse : responder.platform.tx.head = .sent t3)
    (hfollowUp : responder.platform.tx.tail.head = .sent t) :
    (between requester responder t1 t2 t3 t4 cRequest cResponse cFollowUp).Delivered := by
  have hkept : ∀ (w : World) (octets : List UInt8),
      (w.receiving octets).peerRequest = w.peerRequest := fun _ _ => rfl
  unfold between
  dsimp only
  generalize hresponder : responder.receiving _ = r
  generalize hawaiting : (issuePDelayReq requester).receiving _ = q
  constructor
  case requestSent => exact hrequest
  case numbered => exact hnumber
  case request => exact hresponder ▸ World.receiving_holds _ _
  case responseSent => exact hresponder ▸ hresponse
  case followUpSent => exact ⟨t, hresponder ▸ hfollowUp⟩
  case awaits => exact hawaiting ▸ hkept _ _
  case response => exact hawaiting ▸ World.receiving_holds _ _
  case follows => exact hkept _ _
  case followUp => exact World.receiving_holds _ _

theorem PeerLink.receiving {requester responder : World} {octets : List UInt8}
    (h : PeerLink requester.toPtpClock responder.toPtpClock) :
    PeerLink requester.toPtpClock (responder.receiving octets).toPtpClock where
  __ := h
  responderSpeaks := h.responderSpeaks.receiving octets

/-- A second board, which has become master as well. -/
def otherPeer : World :=
  runInputs [.doState, .catchAlarm 12000, .doState] (ptpdStartup (.sample .P2P) (World.zero .other))

theorem peerMaster_linked : PeerLink peerMaster.toPtpClock otherPeer.toPtpClock where
  requesterSpeaks := ⟨by decide +kernel,
    ⟨by decide +kernel, by decide +kernel, by decide +kernel⟩, by decide +kernel, by decide +kernel⟩
  responderSpeaks := ⟨by decide +kernel,
    ⟨by decide +kernel, by decide +kernel, by decide +kernel⟩, by decide +kernel, by decide +kernel⟩
  requesterMechanism := by decide +kernel
  responderMechanism := by decide +kernel
  requesterState := by decide +kernel
  responderState := by decide +kernel
  domainNumber := by decide +kernel
  distinct := by decide +kernel
  requesterInbound := by decide +kernel
  requesterOutbound := by decide +kernel
  responderInbound := by decide +kernel
  responderOutbound := by decide +kernel

/-- The way to the second board takes 300 ns, the way back 700 ns, and what is written
    on it is negative once. -/
def sampleExchange : DelayExchange :=
  .between peerMaster otherPeer ⟨100, 5⟩ ⟨100, 305⟩ ⟨100, 5⟩ ⟨100, 705⟩ 196608 (-131072) 196608

theorem peerDelay_end_to_end_sample :
    MeasuresPeerDelay sampleExchange.following
      (handleMessage sampleExchange.time sampleExchange.following) (.ofNanos 499) := by
  have hdelivered : sampleExchange.Delivered :=
    DelayExchange.between_delivered (t := ⟨100, 5⟩) (by decide +kernel) (by decide +kernel)
      (by decide +kernel) (by decide +kernel)
  have hstamped : sampleExchange.Stamped :=
    ⟨by decide, by decide, by decide, by decide, by decide, by decide, by decide⟩
  have hdelay : sampleExchange.delayNanos = 499 := by decide +kernel
  rw [← hdelay]
  exact (peerDelay_end_to_end sampleExchange peerMaster_linked.receiving hstamped hdelivered).2

end Ptpd
