import Ptpd.Protocol.ToState

/-! # Issuing messages (`protocol.c`: `issue*`)

    Each issuer packs its message over what the last one left in `msgObuf`,
    sends it, and advances its own sequence number. A transmit timestamp with
    zero seconds is taken as missing.
-/

namespace Ptpd

/-- Pack and send on general multicast ip address an Announce message. -/
def issueAnnounce (w : World) : World :=
  let w := { w with msgObuf := msgPackAnnounce w.toPtpClock w.msgObuf }
  let (ret, w) := netSendGeneral w.msgObuf ANNOUNCE_LENGTH w
  if ret = 0 then toState .PTP_FAULTY w
  else { w with sentAnnounceSequenceId := w.sentAnnounceSequenceId + 1 }

/-- Pack and send on general multicast ip address a FollowUp message. -/
def issueFollowup (time : TimeInternal) (w : World) : World :=
  let (preciseOriginTimestamp, w) := newTimestamp time w
  let w := { w with msgObuf := msgPackFollowUp w.toPtpClock w.msgObuf preciseOriginTimestamp }
  let (ret, w) := netSendGeneral w.msgObuf FOLLOW_UP_LENGTH w
  if ret = 0 then toState .PTP_FAULTY w else w

/-- Pack and send on event multicast ip address a Sync message. -/
def issueSync (w : World) : World :=
  let (internalTime, w) := getTime w
  let (originTimestamp, w) := newTimestamp internalTime w
  let w := { w with msgObuf := msgPackSync w.toPtpClock w.msgObuf originTimestamp }
  let (sent, w) := netSendEvent w.msgObuf SYNC_LENGTH internalTime w
  if sent.ret = 0 then toState .PTP_FAULTY w
  else
    let w := { w with sentSyncSequenceId := w.sentSyncSequenceId + 1 }
    -- no follow up without a transmit timestamp
    if sent.time.seconds ≠ 0 ∧ w.defaultDS.twoStepFlag then
      issueFollowup (addTime sent.time w.outboundLatency) w
    else w

/-- Pack and send on event multicast ip address a DelayReq message. -/
def issueDelayReq (w : World) : World :=
  let (internalTime, w) := getTime w
  let (originTimestamp, w) := newTimestamp internalTime w
  let w := { w with msgObuf := msgPackDelayReq w.toPtpClock w.msgObuf originTimestamp }
  let (sent, w) := netSendEvent w.msgObuf DELAY_REQ_LENGTH internalTime w
  if sent.ret = 0 then toState .PTP_FAULTY w
  else
    let w := { w with sentDelayReqSequenceId := w.sentDelayReqSequenceId + 1 }
    if sent.time.seconds ≠ 0 then
      { w with timestamp_delayReqSend := addTime sent.time w.outboundLatency }
    else w

/-- Pack and send on event multicast ip address a PDelayReq message. -/
def issuePDelayReq (w : World) : World :=
  let w := w.record .issuePDelayReq
  let (internalTime, w) := getTime w
  let (originTimestamp, w) := newTimestamp internalTime w
  let w := { w with msgObuf := msgPackPDelayReq w.toPtpClock w.msgObuf originTimestamp }
  let (sent, w) := netSendPeerEvent w.msgObuf PDELAY_REQ_LENGTH internalTime w
  if sent.ret = 0 then toState .PTP_FAULTY w
  else
    let w := { w with sentPDelayReqSequenceId := w.sentPDelayReqSequenceId + 1 }
    -- otherwise t1 of the request before stays
    if sent.time.seconds ≠ 0 then
      { w with pdelay_t1 := addTime sent.time w.outboundLatency }
    else w

/-- Pack and send on event multicast ip address a PDelayResp message. The
    transmit timestamp takes the place of the receive timestamp in `time`. -/
def issuePDelayResp (time : TimeInternal) (pDelayReqHeader : MsgHeader) (w : World) :
    TimeInternal × World :=
  let (requestReceiptTimestamp, w) := newTimestamp time w
  let w := { w with
    msgObuf := msgPackPDelayResp w.msgObuf pDelayReqHeader requestReceiptTimestamp }
  let (sent, w) := netSendPeerEvent w.msgObuf PDELAY_RESP_LENGTH time w
  if sent.ret = 0 then (sent.time, toState .PTP_FAULTY w)
  else if sent.time.seconds ≠ 0 then (addTime sent.time w.outboundLatency, w)
  else (sent.time, w)

/-- Pack and send on general multicast ip address a DelayResp message. -/
def issueDelayResp (time : TimeInternal) (delayReqHeader : MsgHeader) (w : World) : World :=
  let (requestReceiptTimestamp, w) := newTimestamp time w
  let w := { w with
    msgObuf := msgPackDelayResp w.toPtpClock w.msgObuf delayReqHeader requestReceiptTimestamp }
  -- a Delay_Resp has the length of a Pdelay_Resp
  let (ret, w) := netSendGeneral w.msgObuf PDELAY_RESP_LENGTH w
  if ret = 0 then toState .PTP_FAULTY w else w

def issuePDelayRespFollowUp (time : TimeInternal) (pDelayReqHeader : MsgHeader) (w : World) :
    World :=
  let (responseOriginTimestamp, w) := newTimestamp time w
  let w := { w with
    msgObuf := msgPackPDelayRespFollowUp w.msgObuf pDelayReqHeader responseOriginTimestamp }
  let (ret, w) := netSendPeerGeneral w.msgObuf PDELAY_RESP_FOLLOW_UP_LENGTH w
  if ret = 0 then toState .PTP_FAULTY w else w

/-- Report the offset to the master. The high seconds word is never set. -/
def issueManagement (w : World) : World :=
  let (offset, w) := stackTimestamp w
  let offset : Timestamp :=
    { secondsField := { offset.secondsField with
        lsb := UInt32.ofInt w.currentDS.offsetFromMaster.seconds }
      nanosecondsField := UInt32.ofInt w.currentDS.offsetFromMaster.nanoseconds }
  let w := { w with msgObuf := msgPackManagement w.msgObuf offset w.platform.netif_ip_addr }
  let (ret, w) := netSendGeneral w.msgObuf MANAGEMENT_LENGTH w
  if ret = 0 then toState .PTP_FAULTY w else w

/-- Issue the request of the delay mechanism once its timer has expired. -/
def issueDelayReqTimerExpired (w : World) : World :=
  match w.portDS.delayMechanism with
  | .E2E =>
    -- only a slave measures the delay to its master
    if w.portDS.portState ≠ .PTP_SLAVE then w
    else
      ifExpired .DELAYREQ_INTERVAL_TIMER
        (fun w =>
          issueDelayReq (timerStartRand .DELAYREQ_INTERVAL_TIMER
            (pow2ms (w.portDS.logMinDelayReqInterval + 1)) w))
        id w
  | .P2P =>
    ifExpired .PDELAYREQ_INTERVAL_TIMER
      (fun w =>
        issuePDelayReq (timerStartRand .PDELAYREQ_INTERVAL_TIMER
          (pow2ms (w.portDS.logMinPdelayReqInterval + 1)) w))
      id w
  | .DELAY_DISABLED => w

end Ptpd
