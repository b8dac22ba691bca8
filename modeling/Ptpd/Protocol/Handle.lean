import Ptpd.Protocol.Issue

/-! # Handling messages (`protocol.c`: `handle*`)

    Every handler finds the unpacked header in `msgTmpHeader`, the octets in
    `msgIbuf` and their number in `msgIbufLength`. A message shorter than its
    type requires sends the port to FAULTY.
-/

namespace Ptpd

open MachineInt

/-- The sender of the message at hand is the current parent. -/
def PtpClock.isFromCurrentParent (ptpClock : PtpClock) : Bool :=
  isSamePortIdentity ptpClock.parentDS.parentPortIdentity
    ptpClock.msgTmpHeader.sourcePortIdentity

/-- The two-step flag of the message at hand. -/
def PtpClock.isTwoStep (ptpClock : PtpClock) : Bool :=
  getFlag ptpClock.msgTmpHeader.flagField[0] FLAG0_TWO_STEP

/-- The same of any header. -/
def MsgHeader.isTwoStep (header : MsgHeader) : Bool := getFlag header.flagField[0] FLAG0_TWO_STEP

/-- The correction field of the message at hand. -/
def PtpClock.correctionField (ptpClock : PtpClock) : TimeInternal :=
  scaledNanosecondsToInternalTime ptpClock.msgTmpHeader.correctionfield

/-! ## Announce and Sync -/

/-- Unpack the Announce at hand and schedule a state decision. -/
def acceptAnnounce (w : World) : World :=
  let w := { w with
    events.STATE_DECISION_EVENT := true
    msgTmpAnnounce := msgUnpackAnnounce w.msgIbuf }
  w.record (.acceptAnnounce w.msgTmpHeader w.msgTmpAnnounce)

/-- Spec 9.5.3. -/
def handleAnnounce (isFromSelf : Bool) (w : World) : World :=
  if w.msgIbufLength < ANNOUNCE_LENGTH then toState .PTP_FAULTY w
  else if isFromSelf then w
  else
    match w.portDS.portState with
    | .PTP_INITIALIZING | .PTP_FAULTY | .PTP_DISABLED => w
    | .PTP_UNCALIBRATED | .PTP_SLAVE =>
      -- judged before the message is unpacked, as `s1` will change the parent data
      let isFromCurrentParent := w.isFromCurrentParent
      let w := acceptAnnounce w
      if isFromCurrentParent then
        let w := s1 w.msgTmpHeader w.msgTmpAnnounce w
        timerStart .ANNOUNCE_RECEIPT_TIMER w.announceReceiptInterval w
      else addForeign w.msgTmpHeader w.msgTmpAnnounce w
    -- a passive port is kept so by any Announce, whoever sent it
    | .PTP_PASSIVE =>
      let w := timerStart .ANNOUNCE_RECEIPT_TIMER w.announceReceiptInterval w
      let w := acceptAnnounce w
      addForeign w.msgTmpHeader w.msgTmpAnnounce w
    | .PTP_MASTER | .PTP_PRE_MASTER | .PTP_LISTENING =>
      let w := acceptAnnounce w
      addForeign w.msgTmpHeader w.msgTmpAnnounce w

/-- Adjust the clock to the offset just computed; a request may then be due. -/
def followOffset (w : World) : World :=
  issueDelayReqTimerExpired (updateClock w)

/-- A two-step Sync of the parent: keep what its Follow_Up will need. -/
def acceptTwoStepSync (time : TimeInternal) (w : World) : World :=
  { w.record (.acceptSync time) with
    timestamp_syncRecieve := time
    waitingForFollowUp := true
    recvSyncSequenceId := w.msgTmpHeader.sequenceId
    correctionField_sync := w.correctionField }

/-- A one-step Sync of the parent: synchronize the local clock. -/
def acceptOneStepSync (time : TimeInternal) (w : World) : World :=
  let w := { w with timestamp_syncRecieve := time, waitingForFollowUp := false }
  let sync := msgUnpackSync w.msgIbuf
  let (originTimestamp, w) := newTimeInternal sync.originTimestamp w
  let w := updateOffset w.timestamp_syncRecieve originTimestamp w.correctionField w
  followOffset w

def handleSync (time : TimeInternal) (isFromSelf : Bool) (w : World) : World :=
  if w.msgIbufLength < SYNC_LENGTH then toState .PTP_FAULTY w
  else
    match w.portDS.portState with
    | .PTP_INITIALIZING | .PTP_FAULTY | .PTP_DISABLED => w
    | .PTP_UNCALIBRATED | .PTP_SLAVE =>
      if isFromSelf then w
      else if !w.isFromCurrentParent then w
      else if w.isTwoStep then acceptTwoStepSync time w
      else acceptOneStepSync time w
    | .PTP_MASTER => w
    | .PTP_PASSIVE => issueDelayReqTimerExpired w
    | .PTP_PRE_MASTER | .PTP_LISTENING => w

/-- The Follow_Up that was waited for: synchronize the local clock. -/
def acceptFollowUp (w : World) : World :=
  let follow := msgUnpackFollowUp w.msgIbuf
  let w := { w with waitingForFollowUp := false }
  let (preciseOriginTimestamp, w) := newTimeInternal follow.preciseOriginTimestamp w
  -- synchronize local clock with the correction of both messages
  let correctionField := addTime w.correctionField w.correctionField_sync
  let w := updateOffset w.timestamp_syncRecieve preciseOriginTimestamp correctionField w
  followOffset w

def handleFollowUp (isFromSelf : Bool) (w : World) : World :=
  if w.msgIbufLength < FOLLOW_UP_LENGTH then toState .PTP_FAULTY w
  else if isFromSelf then w
  else
    match w.portDS.portState with
    | .PTP_INITIALIZING | .PTP_FAULTY | .PTP_DISABLED | .PTP_LISTENING => w
    | .PTP_UNCALIBRATED | .PTP_SLAVE =>
      if !w.waitingForFollowUp then w
      -- judged against the parent of now, not the one of the Sync
      else if !w.isFromCurrentParent then w
      else if w.recvSyncSequenceId ≠ w.msgTmpHeader.sequenceId then w
      else acceptFollowUp w
    | .PTP_MASTER => w
    | .PTP_PASSIVE => issueDelayReqTimerExpired w
    | .PTP_PRE_MASTER => w

/-! ## Delay request and response -/

def handleDelayReq (time : TimeInternal) (w : World) : World :=
  match w.portDS.delayMechanism with
  | .E2E =>
    if w.msgIbufLength < DELAY_REQ_LENGTH then toState .PTP_FAULTY w
    else
      match w.portDS.portState with
      | .PTP_MASTER => issueDelayResp time w.msgTmpHeader w
      | .PTP_INITIALIZING | .PTP_FAULTY | .PTP_DISABLED | .PTP_UNCALIBRATED | .PTP_LISTENING
      | .PTP_SLAVE | .PTP_PRE_MASTER | .PTP_PASSIVE => w
  | .P2P | .DELAY_DISABLED => w

/-- Store t4 (11.3). -/
def storeDelayResp (w : World) : World :=
  let resp := msgUnpackDelayResp w.msgIbuf
  { w with
    timestamp_delayReqRecieve :=
      toInternalTime w.timestamp_delayReqRecieve resp.receiveTimestamp }

/-- The Delay_Resp to the last request. -/
def acceptDelayResp (w : World) : World :=
  let w := storeDelayResp (w.record .acceptDelayResp)
  let w := updateDelay w.timestamp_delayReqSend w.timestamp_delayReqRecieve w.correctionField w
  { w with portDS.logMinDelayReqInterval := w.msgTmpHeader.logMessageInterval }

def handleDelayResp (w : World) : World :=
  match w.portDS.delayMechanism with
  | .E2E =>
    if w.msgIbufLength < DELAY_RESP_LENGTH then toState .PTP_FAULTY w
    else
      match w.portDS.portState with
      | .PTP_UNCALIBRATED | .PTP_SLAVE =>
        let resp := msgUnpackDelayResp w.msgIbuf
        let isCurrentRequest :=
          isSamePortIdentity w.portDS.portIdentity resp.requestingPortIdentity
        -- the counter is promoted to int before 1 is subtracted
        if (w.sentDelayReqSequenceId.toNat : Int) - 1 = w.msgTmpHeader.sequenceId.toNat ∧
            isCurrentRequest ∧ w.isFromCurrentParent then
          acceptDelayResp w
        else w
      | .PTP_INITIALIZING | .PTP_FAULTY | .PTP_DISABLED | .PTP_LISTENING
      | .PTP_PRE_MASTER | .PTP_MASTER | .PTP_PASSIVE => w
  | .P2P | .DELAY_DISABLED => w

/-! ## Peer delay -/

def handlePDelayReq (time : TimeInternal) (isFromSelf : Bool) (w : World) : World :=
  match w.portDS.delayMechanism with
  | .P2P =>
    if w.msgIbufLength < PDELAY_REQ_LENGTH then toState .PTP_FAULTY w
    else
      match w.portDS.portState with
      | .PTP_PASSIVE | .PTP_SLAVE | .PTP_MASTER =>
        if isFromSelf then w
        else
          let (time, w) := issuePDelayResp time w.msgTmpHeader w
          -- the two-step flag is that of the request
          if time.seconds ≠ 0 ∧ w.isTwoStep then
            issuePDelayRespFollowUp time w.msgTmpHeader w
          else w
      | .PTP_INITIALIZING | .PTP_FAULTY | .PTP_DISABLED | .PTP_UNCALIBRATED | .PTP_LISTENING
      | .PTP_PRE_MASTER => w
  | .E2E | .DELAY_DISABLED => w

/-- Its last part: the Follow_Up of a response that has been sent. -/
def followPDelayResp (sent : TimeInternal × World) : World :=
  if sent.1.seconds ≠ 0 ∧ sent.2.isTwoStep then
    issuePDelayRespFollowUp sent.1 sent.2.msgTmpHeader sent.2
  else sent.2

/-- Store t4 (Fig 35), and whether a Follow_Up is waited for. -/
def storePDelayResp (time : TimeInternal) (twoStep : Bool) (w : World) : World :=
  { w with waitingForPDelayRespFollowUp := twoStep, pdelay_t4 := time }

/-- A two-step Pdelay_Resp to the last request: keep what its Follow_Up will need. -/
def acceptTwoStepPDelayResp (time : TimeInternal) (w : World) : World :=
  let presp := msgUnpackPDelayResp w.msgIbuf
  let w := storePDelayResp time true (w.record (.acceptPDelayResp time))
  let (requestReceiptTimestamp, w) := newTimeInternal presp.requestReceiptTimestamp w
  { w with
    pdelay_t2 := requestReceiptTimestamp
    correctionField_pDelayResp := w.correctionField }

/-- A one-step Pdelay_Resp to the last request. -/
def acceptOneStepPDelayResp (time : TimeInternal) (w : World) : World :=
  let w := storePDelayResp time false (w.record (.acceptPDelayResp time))
  updatePeerDelay w.correctionField false w

def handlePDelayResp (time : TimeInternal) (isFromSelf : Bool) (w : World) : World :=
  match w.portDS.delayMechanism with
  | .P2P =>
    if w.msgIbufLength < PDELAY_RESP_LENGTH then toState .PTP_FAULTY w
    else
      match w.portDS.portState with
      | .PTP_MASTER | .PTP_SLAVE =>
        if isFromSelf then w
        else
          let presp := msgUnpackPDelayResp w.msgIbuf
          let isCurrentRequest :=
            isSamePortIdentity w.portDS.portIdentity presp.requestingPortIdentity
          if (w.sentPDelayReqSequenceId.toNat : Int) - 1 = w.msgTmpHeader.sequenceId.toNat ∧
              isCurrentRequest then
            if w.isTwoStep then acceptTwoStepPDelayResp time w
            else acceptOneStepPDelayResp time w
          else w
      | .PTP_INITIALIZING | .PTP_FAULTY | .PTP_DISABLED | .PTP_UNCALIBRATED | .PTP_LISTENING
      | .PTP_PRE_MASTER | .PTP_PASSIVE => w
  | .E2E | .DELAY_DISABLED => w

/-- Store t3 (Fig 35). -/
def storePDelayRespFollowUp (responseOriginTimestamp : TimeInternal) (w : World) : World :=
  { w with pdelay_t3 := responseOriginTimestamp }

/-- The Pdelay_Resp_Follow_Up that is taken for the one waited for. -/
def acceptPDelayRespFollowUp (w : World) : World :=
  let prespfollow := msgUnpackPDelayRespFollowUp w.msgIbuf
  let w := w.record .acceptPDelayRespFollowUp
  let (responseOriginTimestamp, w) := newTimeInternal prespfollow.responseOriginTimestamp w
  let w := storePDelayRespFollowUp responseOriginTimestamp w
  -- of the Follow_Up and of the response before it
  let correctionField := addTime w.correctionField w.correctionField_pDelayResp
  let w := updatePeerDelay correctionField true w
  { w with waitingForPDelayRespFollowUp := false }

/-- Neither the requesting port identity nor the sender of the Follow_Up is looked at. -/
def handlePDelayRespFollowUp (w : World) : World :=
  match w.portDS.delayMechanism with
  | .P2P =>
    if w.msgIbufLength < PDELAY_RESP_FOLLOW_UP_LENGTH then toState .PTP_FAULTY w
    else
      match w.portDS.portState with
      | .PTP_SLAVE | .PTP_MASTER =>
        if !w.waitingForPDelayRespFollowUp then w
        else if (w.msgTmpHeader.sequenceId.toNat : Int) = w.sentPDelayReqSequenceId.toNat - 1 then
          acceptPDelayRespFollowUp w
        else w
      | .PTP_INITIALIZING | .PTP_FAULTY | .PTP_DISABLED | .PTP_UNCALIBRATED | .PTP_LISTENING
      | .PTP_PRE_MASTER | .PTP_PASSIVE => w
  | .E2E | .DELAY_DISABLED => w

/-! ## Management -/

/-- `ptpMonitorl[i] = { ipaddr, p, ETH->PTPTSHR }`. -/
def World.setMonitor (w : World) (i : Nat) (p : TimeInternal) (ipaddr : UInt32) : World :=
  { w with
    ptpMonitorl := fun k => if k = i then ⟨ipaddr, p, w.platform.ptptshr.head⟩ else w.ptpMonitorl k
    platform.ptptshr := w.platform.ptptshr.tail }

/-- Enter a slave into the table: under its address, else in a free entry, else
    in place of the entry whose turn it is. The turn reaches one past the table
    before it starts again. -/
def ptp_unpack_control (p : TimeInternal) (ipaddr : UInt32) (w : World) : World :=
  let slots := List.range ptpMonitorlConstant
  match slots.find? (fun i => (w.ptpMonitorl i).ipaddr = ipaddr) with
  | some i => w.setMonitor i p ipaddr
  | none =>
    match slots.find? (fun i => (w.ptpMonitorl i).ipaddr = 0) with
    | some i => w.setMonitor i p ipaddr
    | none =>
      let w := w.setMonitor w.ptpMonitorCnt.toNat p ipaddr
      let cnt := w.ptpMonitorCnt + 1
      { w with ptpMonitorCnt := if cnt.toNat > ptpMonitorlConstant then 0 else cnt }

def handleManagement (isFromSelf : Bool) (w : World) : World :=
  if w.msgIbufLength < MANAGEMENT_LENGTH then toState .PTP_FAULTY w
  else
    match w.portDS.portState with
    | .PTP_MASTER =>
      if !isFromSelf then
        let manage := msgUnpackManagement w.msgIbuf
        let Offset_t : TimeInternal :=
          { seconds := wrapS 32 manage.toMasterOffset.secondsField.lsb.toNat
            nanoseconds := wrapS 32 manage.toMasterOffset.nanosecondsField.toNat }
        ptp_unpack_control Offset_t manage.ipaddr w
      else w
    | .PTP_INITIALIZING | .PTP_FAULTY | .PTP_DISABLED | .PTP_UNCALIBRATED | .PTP_SLAVE
    | .PTP_PASSIVE | .PTP_PRE_MASTER | .PTP_LISTENING => w

/-! ## Dispatch -/

/-- The switch on the message type. -/
def dispatch (time : TimeInternal) (isFromSelf : Bool) (w : World) : World :=
  match MessageType.ofCode w.msgTmpHeader.messageType with
  | some .ANNOUNCE => handleAnnounce isFromSelf w
  | some .SYNC => handleSync time isFromSelf w
  | some .FOLLOW_UP => handleFollowUp isFromSelf w
  | some .DELAY_REQ => handleDelayReq time w
  | some .PDELAY_REQ => handlePDelayReq time isFromSelf w
  | some .DELAY_RESP => handleDelayResp w
  | some .PDELAY_RESP => handlePDelayResp time isFromSelf w
  | some .PDELAY_RESP_FOLLOW_UP => handlePDelayRespFollowUp w
  | some .MANAGEMENT => handleManagement isFromSelf w
  | none => w

/-- The part of `handle` after a message of non-zero length was received. -/
def handleMessage (time : TimeInternal) (w : World) : World :=
  let w := { w with messageActivity := true }
  if w.msgIbufLength < (HEADER_LENGTH : Int) then toState .PTP_FAULTY w
  else
    let w := { w with msgTmpHeader := msgUnpackHeader w.msgIbuf }
    -- ignore messages of another version or another domain
    if w.msgTmpHeader.versionPTP ≠ w.portDS.versionNumber then w
    else if w.msgTmpHeader.domainNumber ≠ w.defaultDS.domainNumber then w
    else
      -- spec 9.5.2.2
      let isFromSelf :=
        isSamePortIdentity w.portDS.portIdentity w.msgTmpHeader.sourcePortIdentity
      -- subtract the inbound latency adjustment if it is not a loop back
      let time :=
        if !isFromSelf ∧ time.seconds > 0 then subTime time w.inboundLatency else time
      dispatch time isFromSelf (w.record (.received time))

/-- The part of `handle` after the check for waiting packets: the event queue
    goes first, the general queue is looked at when that gave nothing. -/
def handleReceive (w : World) : World :=
  let (received, w) := netRecvEvent ⟨0, 0⟩ w
  let w := { w with msgIbufLength := received.length }
  if w.msgIbufLength < 0 then toState .PTP_FAULTY w
  else if w.msgIbufLength = 0 then
    -- nothing waited there, or what did was too long
    let (received, w) := netRecvGeneral received.time w
    let w := { w with msgIbufLength := received.length }
    if w.msgIbufLength < 0 then toState .PTP_FAULTY w
    else if w.msgIbufLength = 0 then w
    else handleMessage received.time w
  else handleMessage received.time w

/-- Check and handle received messages. -/
def handle (w : World) : World :=
  if !w.messageActivity then
    let ret := netSelect w
    if ret < 0 then toState .PTP_FAULTY w
    else if ret = 0 then w
    else handleReceive w
  else handleReceive w

end Ptpd
