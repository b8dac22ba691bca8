import Ptpd.Bmc
import Ptpd.Msg
import Ptpd.Timer

/-! # Port state changes (`protocol.c`: `toState`, `doInit`)

    `toState` first undoes what the old state had started and then starts what
    the new one needs. Moving between UNCALIBRATED and SLAVE undoes nothing.
-/

namespace Ptpd

/-- The interval of the announce receipt timer, in milliseconds. -/
def PtpClock.announceReceiptInterval (ptpClock : PtpClock) : Int :=
  ptpClock.portDS.announceReceiptTimeout.toNat * pow2ms ptpClock.portDS.logAnnounceInterval

/-- `timerStart(index, getRand(randMax), itimer)`. -/
def timerStartRand (index : Timer) (randMax : Int) (w : World) : World :=
  let w := w.recordArming index randMax
  let (interval, w) := getRand randMax w
  timerStart index interval w

/-- Stop the request timer of the delay mechanism. -/
def stopRequestTimer (w : World) : World :=
  match w.portDS.delayMechanism with
  | .E2E => timerStop .DELAYREQ_INTERVAL_TIMER w
  | .P2P => timerStop .PDELAYREQ_INTERVAL_TIMER w
  | .DELAY_DISABLED => w

/-- Leaving state tasks. -/
def leaveState (state : PortState) (w : World) : World :=
  match w.portDS.portState with
  | .PTP_MASTER =>
    let w := initClock w
    let w := timerStop .SYNC_INTERVAL_TIMER w
    let w := timerStop .ANNOUNCE_INTERVAL_TIMER w
    timerStop .PDELAYREQ_INTERVAL_TIMER w
  | .PTP_UNCALIBRATED | .PTP_SLAVE =>
    -- the two follow the same master, so servo and timers run on
    if state = .PTP_UNCALIBRATED ∨ state = .PTP_SLAVE then w
    else
      let w := timerStop .ANNOUNCE_RECEIPT_TIMER w
      let w := timerStop .MANAGEMENT_INTERVAL_TIMER w
      let w := stopRequestTimer w
      initClock w
  | .PTP_PASSIVE =>
    let w := initClock w
    let w := timerStop .PDELAYREQ_INTERVAL_TIMER w
    timerStop .ANNOUNCE_RECEIPT_TIMER w
  | .PTP_LISTENING =>
    let w := initClock w
    timerStop .ANNOUNCE_RECEIPT_TIMER w
  | .PTP_PRE_MASTER =>
    let w := initClock w
    timerStop .QUALIFICATION_TIMEOUT w
  | .PTP_INITIALIZING | .PTP_FAULTY | .PTP_DISABLED => w

/-- Start the request timer of the delay mechanism, for a port that will follow a master. -/
def startRequestTimer (w : World) : World :=
  match w.portDS.delayMechanism with
  | .E2E =>
    timerStartRand .DELAYREQ_INTERVAL_TIMER (pow2ms (w.portDS.logMinDelayReqInterval + 1)) w
  | .P2P =>
    timerStartRand .PDELAYREQ_INTERVAL_TIMER (pow2ms (w.portDS.logMinPdelayReqInterval + 1)) w
  | .DELAY_DISABLED => w

/-- Start the peer delay timer of a port that is to be master. -/
def startPDelayTimer (w : World) : World :=
  match w.portDS.delayMechanism with
  | .P2P =>
    -- here 1 is added to the interval and not to its logarithm
    timerStartRand .PDELAYREQ_INTERVAL_TIMER (pow2ms w.portDS.logMinPdelayReqInterval + 1) w
  | .E2E | .DELAY_DISABLED => w

/-- Entering state tasks. -/
def enterState (state : PortState) (w : World) : World :=
  match state with
  | .PTP_INITIALIZING =>
    { w with portDS.portState := .PTP_INITIALIZING, recommendedState := .PTP_INITIALIZING }
  | .PTP_FAULTY => { w with portDS.portState := .PTP_FAULTY }
  | .PTP_DISABLED => { w with portDS.portState := .PTP_DISABLED }
  | .PTP_LISTENING =>
    let w := timerStart .ANNOUNCE_RECEIPT_TIMER w.announceReceiptInterval w
    { w with portDS.portState := .PTP_LISTENING, recommendedState := .PTP_LISTENING }
  | .PTP_PRE_MASTER =>
    let w := timerStart .QUALIFICATION_TIMEOUT (pow2ms DEFAULT_QUALIFICATION_TIMEOUT) w
    { w with portDS.portState := .PTP_PRE_MASTER }
  | .PTP_MASTER =>
    -- in place of what a master set that the port followed
    let w := { w with portDS.logMinDelayReqInterval := DEFAULT_DELAYREQ_INTERVAL }
    let w := timerStart .SYNC_INTERVAL_TIMER (pow2ms w.portDS.logSyncInterval) w
    let w := timerStart .ANNOUNCE_INTERVAL_TIMER (pow2ms w.portDS.logAnnounceInterval) w
    let w := startPDelayTimer w
    { w with portDS.portState := .PTP_MASTER }
  | .PTP_PASSIVE =>
    let w := timerStart .ANNOUNCE_RECEIPT_TIMER w.announceReceiptInterval w
    let w :=
      if w.portDS.delayMechanism = .P2P then
        timerStartRand .PDELAYREQ_INTERVAL_TIMER (pow2ms (w.portDS.logMinPdelayReqInterval + 1)) w
      else w
    { w with portDS.portState := .PTP_PASSIVE }
  | .PTP_UNCALIBRATED =>
    let w := timerStart .ANNOUNCE_RECEIPT_TIMER w.announceReceiptInterval w
    let w := startRequestTimer w
    { w with portDS.portState := .PTP_UNCALIBRATED }
  | .PTP_SLAVE =>
    let w := { w with portDS.portState := .PTP_SLAVE }
    timerStart .MANAGEMENT_INTERVAL_TIMER 1000 w

/-- Perform actions required when leaving the port state and entering `state`. -/
def toState (state : PortState) (w : World) : World :=
  let w := { w.record (.toState state) with messageActivity := true }
  enterState state (leaveState state w)

/-- Whether the network came up; if so the clock is set to its initial data. -/
def doInit (w : World) : Bool × World :=
  let w := netShutdown w
  let (up, w) := netInit w
  if !up then (false, w)
  else
    -- initialize other stuff
    let w := initData w
    let w := initTimer w
    let w := initClock w
    let w := m1 w
    (true, { w with msgObuf := msgPackHeader w.toPtpClock w.msgObuf })

end Ptpd
