import Ptpd.Protocol.Handle

/-! # The state machine (`protocol.c`: `doState`)

    One pass runs three switches in turn: the state decision, the move to the
    recommended state, and the actions of the state the port is then in.
-/

namespace Ptpd

/-- The port may only be a slave. -/
def PtpClock.isSlaveOnly (ptpClock : PtpClock) : Bool :=
  ptpClock.defaultDS.slaveOnly || ptpClock.defaultDS.clockQuality.clockClass == 255

/-- The states in which a state decision is taken. -/
def PortState.decides : PortState → Bool
  | .PTP_LISTENING | .PTP_UNCALIBRATED | .PTP_SLAVE | .PTP_PRE_MASTER | .PTP_MASTER
  | .PTP_PASSIVE => true
  | .PTP_INITIALIZING | .PTP_FAULTY | .PTP_DISABLED => false

/-- First switch: state decision event. -/
def stateDecision (w : World) : World :=
  if w.portDS.portState.decides && w.events.STATE_DECISION_EVENT then
    let w := { w with events.STATE_DECISION_EVENT := false }
    let (recommendedState, w) := bmc w
    let w := { w with recommendedState := recommendedState }
    match w.recommendedState with
    -- what a slave-only port may not become
    | .PTP_MASTER | .PTP_PASSIVE =>
      if w.isSlaveOnly then { w with recommendedState := .PTP_LISTENING } else w
    | _ => w
  else w

/-- A port that is recommended to be master becomes PRE_MASTER first. -/
def recommendedMaster (w : World) : World :=
  match w.portDS.portState with
  | .PTP_PRE_MASTER => ifExpired .QUALIFICATION_TIMEOUT (toState .PTP_MASTER) id w
  | .PTP_MASTER => w
  | _ => toState .PTP_PRE_MASTER w

/-- A port that is recommended to be slave becomes UNCALIBRATED first. -/
def recommendedSlave (w : World) : World :=
  match w.portDS.portState with
  | .PTP_UNCALIBRATED =>
    -- the offset was judged small enough
    let w :=
      if w.events.MASTER_CLOCK_SELECTED then
        toState .PTP_SLAVE { w with events.MASTER_CLOCK_SELECTED := false }
      else w
    if w.events.MASTER_CLOCK_CHANGED then { w with events.MASTER_CLOCK_CHANGED := false }
    else w
  | .PTP_SLAVE =>
    let w :=
      if w.events.SYNCHRONIZATION_FAULT then
        toState .PTP_UNCALIBRATED { w with events.SYNCHRONIZATION_FAULT := false }
      else w
    -- the port may be UNCALIBRATED by now, and enters it once more
    if w.events.MASTER_CLOCK_CHANGED then
      toState .PTP_UNCALIBRATED { w with events.MASTER_CLOCK_CHANGED := false }
    else w
  | _ => toState .PTP_UNCALIBRATED w

/-- Second switch: move towards the recommended state. -/
def recommendedAction (w : World) : World :=
  match w.recommendedState with
  | .PTP_MASTER => recommendedMaster w
  | .PTP_PASSIVE =>
    if w.portDS.portState ≠ w.recommendedState then toState .PTP_PASSIVE w else w
  | .PTP_SLAVE => recommendedSlave w
  | .PTP_LISTENING =>
    if w.portDS.portState ≠ w.recommendedState then toState .PTP_LISTENING w else w
  | _ => w

/-- Forget the foreign masters. Which slot was best stays as it was. -/
def emptyForeignMasterDS (w : World) : World :=
  let w := w.record .announceTimeout
  { w with foreignMasterDS.count := 0, foreignMasterDS.i := 0 }

/-- The announce receipt timeout has expired. -/
def announceReceiptTimeoutExpires (w : World) : World :=
  let w := emptyForeignMasterDS w
  if !w.isSlaveOnly then
    let w := m1 w
    let w := { w with recommendedState := .PTP_MASTER }
    toState .PTP_MASTER w
  else if w.portDS.portState ≠ .PTP_LISTENING then toState .PTP_LISTENING w
  else w

/-- What PASSIVE does, and LISTENING, UNCALIBRATED and SLAVE fall through to. -/
def passiveAction (w : World) : World :=
  ifExpired .ANNOUNCE_RECEIPT_TIMER announceReceiptTimeoutExpires handle w

/-- Third switch: the actions of the port state. -/
def portAction (w : World) : World :=
  match w.portDS.portState with
  | .PTP_INITIALIZING =>
    branch (toState .PTP_LISTENING) (toState .PTP_FAULTY) (doInit w)
  | .PTP_FAULTY => toState .PTP_INITIALIZING w
  | .PTP_DISABLED => handle w
  | .PTP_LISTENING | .PTP_UNCALIBRATED | .PTP_SLAVE =>
    -- the offset is reported to the master before the other messages are looked at
    let w := ifExpired .MANAGEMENT_INTERVAL_TIMER (fun w => handle (issueManagement w)) id w
    passiveAction w
  | .PTP_PASSIVE => passiveAction w
  | .PTP_MASTER =>
    let w := ifExpired .SYNC_INTERVAL_TIMER issueSync id w
    let w := ifExpired .ANNOUNCE_INTERVAL_TIMER issueAnnounce id w
    let w := handle w
    -- of use only with the peer delay mechanism, as the port is no slave
    issueDelayReqTimerExpired w
  -- no case of the switch
  | .PTP_PRE_MASTER => w

/-- Handle actions and events for the port state. -/
def doState (w : World) : World :=
  let w := { w with messageActivity := false }
  let w := stateDecision w
  let w := recommendedAction w
  portAction w

end Ptpd
