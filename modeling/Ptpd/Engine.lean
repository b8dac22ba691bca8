import Ptpd.Lib.History
import Ptpd.Run

/-! # The protocol engine

    An abstract model of what one port does with its masters. Its state is the
    part of the clock that decides which master is followed and which messages
    are combined, together with the history; timers, buffers, clock readings
    and the servo's arithmetic are left open. Each step is one event of the
    protocol, with the guard under which the code takes it and the entries it
    adds to the history.
-/

namespace Ptpd

open PortState

/-! ## State -/

structure Core where
  portState : PortState
  recommendedState : PortState
  events : Events
  slaveOnly : Bool
  maxForeignRecords : Nat
  portIdentity : PortIdentity
  parent : PortIdentity
  foreignMasterDS : ForeignMasterDS
  waitingForFollowUp : Bool
  recvSyncSequenceId : UInt16
  timestamp_syncRecieve : TimeInternal
  correctionField_sync : TimeInternal
  Tms : TimeInternal
  offsetSamples : Int
  waitingForPDelayRespFollowUp : Bool
  sentPDelayReqSequenceId : UInt16
  pdelay_t1 : TimeInternal
  pdelay_t2 : TimeInternal
  pdelay_t4 : TimeInternal
  correctionField_pDelayResp : TimeInternal

/-- The part of the clock that the engine is about. -/
def PtpClock.core (ptpClock : PtpClock) : Core where
  portState := ptpClock.portDS.portState
  recommendedState := ptpClock.recommendedState
  events := ptpClock.events
  slaveOnly := ptpClock.defaultDS.slaveOnly || ptpClock.defaultDS.clockQuality.clockClass == 255
  maxForeignRecords := ptpClock.rtOpts.maxForeignRecords
  portIdentity := ptpClock.portDS.portIdentity
  parent := ptpClock.parentDS.parentPortIdentity
  foreignMasterDS := ptpClock.foreignMasterDS
  waitingForFollowUp := ptpClock.waitingForFollowUp
  recvSyncSequenceId := ptpClock.recvSyncSequenceId
  timestamp_syncRecieve := ptpClock.timestamp_syncRecieve
  correctionField_sync := ptpClock.correctionField_sync
  Tms := ptpClock.Tms
  offsetSamples := ptpClock.ofm_filt.n
  waitingForPDelayRespFollowUp := ptpClock.waitingForPDelayRespFollowUp
  sentPDelayReqSequenceId := ptpClock.sentPDelayReqSequenceId
  pdelay_t1 := ptpClock.pdelay_t1
  pdelay_t2 := ptpClock.pdelay_t2
  pdelay_t4 := ptpClock.pdelay_t4
  correctionField_pDelayResp := ptpClock.correctionField_pDelayResp

structure Engine where
  core : Core
  log : List LogEntry

/-- What the engine sees of a world. -/
def World.engine (w : World) : Engine := ⟨w.core, w.log⟩

/-! ## Changing state -/

/-- The port follows a master. -/
def PortState.follows : PortState → Bool
  | PTP_UNCALIBRATED | PTP_SLAVE => true
  | _ => false

/-- Leaving `old` for `new` starts the servo afresh. -/
def PortState.restarts (old new : PortState) : Bool :=
  match old with
  | PTP_MASTER | PTP_PASSIVE | PTP_LISTENING | PTP_PRE_MASTER => true
  | PTP_UNCALIBRATED | PTP_SLAVE => !new.follows
  | PTP_INITIALIZING | PTP_FAULTY | PTP_DISABLED => false

/-- `initClock`: nothing that was measured or is waited for survives. -/
def Core.clockInit (c : Core) : Core :=
  { c with
    Tms := ⟨0, 0⟩
    offsetSamples := 0
    waitingForFollowUp := false
    waitingForPDelayRespFollowUp := false
    pdelay_t1 := ⟨0, 0⟩
    pdelay_t2 := ⟨0, 0⟩
    pdelay_t4 := ⟨0, 0⟩ }

/-- The servo after the port state changes from the present one to `s`. -/
def Core.leave (s : PortState) (c : Core) : Core :=
  if c.portState.restarts s then c.clockInit else c

/-- `toState`. -/
def Core.enter (s : PortState) (c : Core) : Core :=
  { c.leave s with
    portState := s
    recommendedState :=
      match s with
      | PTP_INITIALIZING => PTP_INITIALIZING
      | PTP_LISTENING => PTP_LISTENING
      | _ => c.recommendedState }

/-! ## Messages -/

/-- The message at hand is of this type. -/
def PtpClock.handles (ptpClock : PtpClock) (t : MessageType) : Prop :=
  MessageType.ofCode ptpClock.msgTmpHeader.messageType = some t

instance (ptpClock : PtpClock) (t : MessageType) : Decidable (ptpClock.handles t) :=
  inferInstanceAs (Decidable (_ = _))

/-- The sender of the message at hand. -/
abbrev PtpClock.sender (ptpClock : PtpClock) : PortIdentity :=
  ptpClock.msgTmpHeader.sourcePortIdentity

/-- What an entry of the history is about. -/
inductive Call.Kind where
  | note
  | toState
  | clock
  | table
  | record
  | announce
  | select
  | offset
  | delay
  | peer
deriving DecidableEq

/-- The kind of a call. Notes are what no invariant looks for. -/
def Call.kind : Call → Kind
  | .toState _ => .toState
  | .setTime _ => .clock
  | .initData | .announceTimeout | .bmc _ => .table
  | .addForeign _ => .record
  | .acceptAnnounce .. => .announce
  | .s1 .. => .select
  | .acceptSync _ | .updateOffset .. | .filteredOffset => .offset
  | .updateDelay .. => .delay
  | .issuePDelayReq | .acceptPDelayResp _ | .updatePeerDelay .. => .peer
  | _ => .note

abbrev Call.quiet (call : Call) : Prop := call.kind = .note

/-! ## Steps -/

/-- State decision event: what `bmc` selects and what is recommended then. -/
inductive Decide (c : Core) (l : List LogEntry) : Core → List LogEntry → Prop where
  | none (h : ¬ (c.portState.decides ∧ c.events.STATE_DECISION_EVENT)) : Decide c l c l
  /-- A listening port that knows no foreign master keeps listening. -/
  | listen (b : LogEntry) (hstate : c.portState = PTP_LISTENING)
      (hevent : c.events.STATE_DECISION_EVENT) (hcount : c.foreignMasterDS.count = 0)
      (hb : b.call = .bmc [])
      (hbc : b.before.core = { c with events.STATE_DECISION_EVENT := false }) :
      Decide c l
        { c with
          events.STATE_DECISION_EVENT := false
          foreignMasterDS.best := 0
          recommendedState := PTP_LISTENING } (b :: l)
  /-- The local clock is better, or neither is to be followed. -/
  | lead (b : LogEntry) (best : Nat) (reads : List Nat) (p : PortIdentity) (r : PortState)
      (hstate : c.portState.decides) (hevent : c.events.STATE_DECISION_EVENT)
      (hlisten : ¬ (c.foreignMasterDS.count = 0 ∧ c.portState = PTP_LISTENING))
      (hbest : best ≤ c.foreignMasterDS.count - 1)
      (hreads : ∀ k ∈ reads, k ≤ c.foreignMasterDS.count - 1) (hmem : best ∈ reads)
      (hr : r = PTP_MASTER ∨ r = PTP_PASSIVE ∨ r = PTP_LISTENING)
      (hb : b.call = .bmc reads)
      (hbc : b.before.core = { c with events.STATE_DECISION_EVENT := false }) :
      Decide c l
        { c with
          events.STATE_DECISION_EVENT := false
          foreignMasterDS.best := best
          parent := p
          recommendedState := r } (b :: l)
  /-- The sender of the selected record is to be followed. -/
  | follow (b x : LogEntry) (best : Nat) (reads : List Nat)
      (hstate : c.portState.decides) (hevent : c.events.STATE_DECISION_EVENT)
      (hlisten : ¬ (c.foreignMasterDS.count = 0 ∧ c.portState = PTP_LISTENING))
      (hbest : best ≤ c.foreignMasterDS.count - 1)
      (hreads : ∀ k ∈ reads, k ≤ c.foreignMasterDS.count - 1) (hmem : best ∈ reads)
      (hb : b.call = .bmc reads)
      (hbc : b.before.core = { c with events.STATE_DECISION_EVENT := false })
      (hx : x.call = .s1 (c.foreignMasterDS.records best).header
        (c.foreignMasterDS.records best).announce)
      (hxc : x.before.core =
        { c with events.STATE_DECISION_EVENT := false, foreignMasterDS.best := best })
      (changed : Bool) :
      Decide c l
        { c with
          events.STATE_DECISION_EVENT := false
          events.MASTER_CLOCK_CHANGED := changed
          foreignMasterDS.best := best
          parent := (c.foreignMasterDS.records best).header.sourcePortIdentity
          recommendedState := PTP_SLAVE } (x :: b :: l)

/-- The states that already are what is recommended. -/
def Core.settled (c : Core) : Prop :=
  match c.recommendedState with
  | PTP_MASTER => c.portState = PTP_PRE_MASTER ∨ c.portState = PTP_MASTER
  | PTP_PASSIVE => c.portState = PTP_PASSIVE
  | PTP_LISTENING => c.portState = PTP_LISTENING
  | PTP_SLAVE => False
  | _ => True

/-- Move to the recommended state. -/
inductive Move (c : Core) (l : List LogEntry) : Core → List LogEntry → Prop where
  | stay (h : c.settled) : Move c l c l
  | enter (s : PortState) (x : LogEntry)
      (hs : s = c.recommendedState ∧ (s = PTP_MASTER ∨ s = PTP_PASSIVE ∨ s = PTP_LISTENING) ∨
        s = PTP_PRE_MASTER ∧ c.recommendedState = PTP_MASTER)
      (hx : x.call = .toState s) (hxc : x.before.core = c) : Move c l (c.enter s) (x :: l)
  | uncalibrate (x : LogEntry) (hrec : c.recommendedState = PTP_SLAVE)
      (hstate : c.portState.follows = false)
      (hx : x.call = .toState PTP_UNCALIBRATED) (hxc : x.before.core = c) :
      Move c l (c.enter PTP_UNCALIBRATED) (x :: l)
  | calibrated (x : LogEntry) (hrec : c.recommendedState = PTP_SLAVE)
      (hstate : c.portState = PTP_UNCALIBRATED) (hevent : c.events.MASTER_CLOCK_SELECTED)
      (hx : x.call = .toState PTP_SLAVE)
      (hxc : x.before.core = { c with events.MASTER_CLOCK_SELECTED := false }) :
      Move c l
        { c with
          portState := PTP_SLAVE
          events.MASTER_CLOCK_SELECTED := false
          events.MASTER_CLOCK_CHANGED := false } (x :: l)
  | calibrating (hrec : c.recommendedState = PTP_SLAVE)
      (hstate : c.portState = PTP_UNCALIBRATED)
      (hevent : c.events.MASTER_CLOCK_SELECTED = false) :
      Move c l { c with events.MASTER_CLOCK_CHANGED := false } l
  /-- A synchronized port stays so, or is sent back by one event or by both in turn. -/
  | slave (hrec : c.recommendedState = PTP_SLAVE) (hstate : c.portState = PTP_SLAVE) :
      Move c l c l
  | recalibrate (x : LogEntry) (fault changed : Bool) (hrec : c.recommendedState = PTP_SLAVE)
      (hstate : c.portState = PTP_SLAVE)
      (hx : x.call = .toState PTP_UNCALIBRATED)
      (hxe : x.before.events.MASTER_CLOCK_SELECTED = c.events.MASTER_CLOCK_SELECTED)
      (hxp : x.before.portDS.portState.follows) :
      Move c l
        { c with
          portState := PTP_UNCALIBRATED
          events.SYNCHRONIZATION_FAULT := fault
          events.MASTER_CLOCK_CHANGED := changed } (x :: l)
  | recalibrateTwice (x y : LogEntry) (hrec : c.recommendedState = PTP_SLAVE)
      (hstate : c.portState = PTP_SLAVE)
      (hx : x.call = .toState PTP_UNCALIBRATED) (hy : y.call = .toState PTP_UNCALIBRATED)
      (hxe : x.before.events.MASTER_CLOCK_SELECTED = c.events.MASTER_CLOCK_SELECTED)
      (hye : y.before.events.MASTER_CLOCK_SELECTED = c.events.MASTER_CLOCK_SELECTED)
      (hxp : x.before.portDS.portState.follows) (hyp : y.before.portDS.portState.follows) :
      Move c l
        { c with
          portState := PTP_UNCALIBRATED
          events.SYNCHRONIZATION_FAULT := false
          events.MASTER_CLOCK_CHANGED := false } (y :: x :: l)

/-- The end of `updateOffset`: the entries it adds and the state it leaves. -/
inductive Filtered (c : Core) : Core → List LogEntry → Prop where
  /-- Whole seconds away: not filtered. -/
  | far (q : LogEntry) (fault : Bool) (hq : q.call.quiet) :
      Filtered c { c with events.SYNCHRONIZATION_FAULT := fault } [q]
  | near (q y : LogEntry) (n : Int) (selected fault : Bool) (hq : q.call.quiet)
      (hy : y.call = .filteredOffset)
      (hyc : y.before.core = { c with offsetSamples := n })
      (hsel : selected → c.portState = PTP_UNCALIBRATED ∧
        y.before.currentDS.offsetFromMaster.seconds = 0 ∧
        |y.before.currentDS.offsetFromMaster.nanoseconds| < DEFAULT_CALIBRATED_OFFSET_NS) :
      Filtered c
        { c with
          offsetSamples := n
          events.MASTER_CLOCK_SELECTED := selected || c.events.MASTER_CLOCK_SELECTED
          events.SYNCHRONIZATION_FAULT := fault } [y, q]

/-- The messages that an offset is computed from. -/
inductive Measurement (c : Core) (l : List LogEntry) : Core → List LogEntry → Prop where
  /-- Two-step Sync of the parent. -/
  | sync (a : LogEntry) (time : TimeInternal) (ha : a.call = .acceptSync time)
      (hac : a.before.core = c) (htype : a.before.handles .SYNC)
      (htwo : a.before.isTwoStep) (hsender : a.before.sender = c.parent)
      (hstate : c.portState.follows) :
      Measurement c l
        { c with
          timestamp_syncRecieve := time
          waitingForFollowUp := true
          recvSyncSequenceId := a.before.msgTmpHeader.sequenceId
          correctionField_sync := a.before.correctionField } (a :: l)
  /-- One-step Sync of the parent. -/
  | syncOffset {c' : Core} {new : List LogEntry} (r u : LogEntry)
      (time stack : TimeInternal) (hmem : r ∈ l)
      (hr : r.call = .received time) (htype : r.before.handles .SYNC)
      (htwo : r.before.isTwoStep = false) (hsender : r.before.sender = c.parent)
      (hstate : c.portState.follows)
      (hu : u.call = .updateOffset time
        (toInternalTime stack (msgUnpackSync r.before.msgIbuf).originTimestamp)
        r.before.correctionField)
      (huc : u.before.core = { c with timestamp_syncRecieve := time, waitingForFollowUp := false })
      (huh : u.before.handles .SYNC)
      (hmessage : u.before.msgTmpHeader = r.before.msgTmpHeader ∧
        u.before.msgIbuf = r.before.msgIbuf)
      (hfilter : Filtered
        { c with
          timestamp_syncRecieve := time
          waitingForFollowUp := false
          Tms := subTime (subTime time
            (toInternalTime stack (msgUnpackSync r.before.msgIbuf).originTimestamp))
            r.before.correctionField } c' new) :
      Measurement c l c' (new ++ u :: l)
  /-- The Follow_Up that was waited for. -/
  | followUp {c' : Core} {new : List LogEntry} (r u : LogEntry)
      (time stack : TimeInternal) (hmem : r ∈ l)
      (hr : r.call = .received time) (htype : r.before.handles .FOLLOW_UP)
      (hsender : r.before.sender = c.parent)
      (hstate : c.portState.follows) (hwait : c.waitingForFollowUp)
      (hseq : c.recvSyncSequenceId = r.before.msgTmpHeader.sequenceId)
      (hu : u.call = .updateOffset c.timestamp_syncRecieve
        (toInternalTime stack (msgUnpackFollowUp r.before.msgIbuf).preciseOriginTimestamp)
        (addTime r.before.correctionField c.correctionField_sync))
      (huc : u.before.core = { c with waitingForFollowUp := false })
      (huh : u.before.handles .FOLLOW_UP)
      (hmessage : u.before.msgTmpHeader = r.before.msgTmpHeader ∧
        u.before.msgIbuf = r.before.msgIbuf)
      (hfilter : Filtered
        { c with
          waitingForFollowUp := false
          Tms := subTime (subTime c.timestamp_syncRecieve
            (toInternalTime stack (msgUnpackFollowUp r.before.msgIbuf).preciseOriginTimestamp))
            (addTime r.before.correctionField c.correctionField_sync) } c' new) :
      Measurement c l c' (new ++ u :: l)

/-- The peer delay mechanism. -/
inductive PeerExchange (c : Core) (l : List LogEntry) : Core → List LogEntry → Prop where
  /-- A request, and the transmit time that is kept of it. -/
  | issuePDelayReq (x s : LogEntry) (bytes : List UInt8) (result : SendResult)
      (t1 : TimeInternal) (hx : x.call = .issuePDelayReq)
      (hs : s.call = .send .event .peer bytes result)
      (hsc : s.before.core = c)
      (ht1 : ∀ t, result = .sent t → t.seconds ≠ 0 → t1 = addTime t s.before.outboundLatency) :
      PeerExchange c l
        { c with
          sentPDelayReqSequenceId := c.sentPDelayReqSequenceId + 1
          pdelay_t1 := t1 } (s :: x :: l)
  /-- Two-step Pdelay_Resp to the last request of this port. -/
  | pDelayResp (a : LogEntry) (time stack : TimeInternal)
      (ha : a.call = .acceptPDelayResp time) (hac : a.before.core = c)
      (htype : a.before.handles .PDELAY_RESP) (htwo : a.before.isTwoStep)
      (hrequest : (msgUnpackPDelayResp a.before.msgIbuf).requestingPortIdentity = c.portIdentity)
      (hseq : (c.sentPDelayReqSequenceId.toNat : Int) - 1 =
        a.before.msgTmpHeader.sequenceId.toNat) :
      PeerExchange c l
        { c with
          waitingForPDelayRespFollowUp := true
          pdelay_t4 := time
          pdelay_t2 := toInternalTime stack
            (msgUnpackPDelayResp a.before.msgIbuf).requestReceiptTimestamp
          correctionField_pDelayResp := a.before.correctionField } (a :: l)
  /-- One-step Pdelay_Resp to the last request of this port. -/
  | pDelayRespOneStep (a x : LogEntry) (time : TimeInternal)
      (ha : a.call = .acceptPDelayResp time) (htwo : a.before.isTwoStep = false)
      (hx : x.call = .updatePeerDelay x.before.correctionField false)
      (hxc : x.before.core =
        { c with waitingForPDelayRespFollowUp := false, pdelay_t4 := time })
      (hseq : (c.sentPDelayReqSequenceId.toNat : Int) - 1 =
        x.before.msgTmpHeader.sequenceId.toNat) :
      PeerExchange c l
        { c with waitingForPDelayRespFollowUp := false, pdelay_t4 := time } (x :: a :: l)
  /-- The Pdelay_Resp_Follow_Up that was waited for. -/
  | pDelayRespFollowUp (x : LogEntry) (stack : TimeInternal)
      (hwait : c.waitingForPDelayRespFollowUp)
      (hx : x.call = .updatePeerDelay
        (addTime x.before.correctionField c.correctionField_pDelayResp) true)
      (hxc : x.before.core = c) (htype : x.before.handles .PDELAY_RESP_FOLLOW_UP)
      (hseq : (x.before.msgTmpHeader.sequenceId.toNat : Int) =
        c.sentPDelayReqSequenceId.toNat - 1)
      (ht3 : x.before.pdelay_t3 = toInternalTime stack
        (msgUnpackPDelayRespFollowUp x.before.msgIbuf).responseOriginTimestamp) :
      PeerExchange c l { c with waitingForPDelayRespFollowUp := false } (x :: l)

/-- One event of the protocol. -/
inductive Engine.Step : Engine → Engine → Prop where
  | note {c : Core} {l : List LogEntry} (x : LogEntry) (hx : x.call.quiet) :
      Step ⟨c, l⟩ ⟨c, x :: l⟩
  /-- Startup: other options, and from the beginning. -/
  | startup {c : Core} {l : List LogEntry} (x : LogEntry)
      (hx : x.call = .toState PTP_INITIALIZING)
      (hxp : x.before.portDS.portState = c.portState) :
      Step ⟨c, l⟩
        ⟨{ c with maxForeignRecords := DEFAULT_MAX_FOREIGN_RECORDS }.enter PTP_INITIALIZING,
          x :: l⟩
  /-- A fault, a fault that is cleared, the end of initialisation, or the link coming up. -/
  | toState {c : Core} {l : List LogEntry} (s : PortState) (x : LogEntry)
      (hs : s = PTP_INITIALIZING ∨ s = PTP_FAULTY ∨ s = PTP_LISTENING)
      (hx : x.call = .toState s) (hxp : x.before.portDS.portState = c.portState) :
      Step ⟨c, l⟩ ⟨c.enter s, x :: l⟩
  | clockStep {c : Core} {l : List LogEntry} (x : LogEntry) (time : TimeInternal)
      (hx : x.call = .setTime time) : Step ⟨c, l⟩ ⟨c.clockInit, x :: l⟩
  | initialise {c : Core} {l : List LogEntry} (x : LogEntry) (id p : PortIdentity)
      (slaveOnly : Bool) (hstate : c.portState = PTP_INITIALIZING)
      (hx : x.call = .initData) (hxc : x.before.core = c) :
      Step ⟨c, l⟩
        ⟨{ c with
            slaveOnly := slaveOnly
            portIdentity := id
            parent := p
            foreignMasterDS.count := 0
            foreignMasterDS.capacity := c.maxForeignRecords }.clockInit, x :: l⟩
  | decision {c c₁ c₂ : Core} {l l₁ l₂ : List LogEntry} (hdecide : Decide c l c₁ l₁)
      (hmove : Move c₁ l₁ c₂ l₂) : Step ⟨c, l⟩ ⟨c₂, l₂⟩
  /-- Announce receipt timeout of a port that may become master. -/
  | timeoutMaster {c : Core} {l : List LogEntry} (x y : LogEntry) (p : PortIdentity)
      (hso : c.slaveOnly = false) (hx : x.call = .announceTimeout) (hxc : x.before.core = c)
      (hy : y.call = .toState PTP_MASTER) (hyp : y.before.portDS.portState = c.portState) :
      Step ⟨c, l⟩
        ⟨{ c with
            foreignMasterDS.count := 0
            foreignMasterDS.i := 0
            parent := p
            recommendedState := PTP_MASTER }.enter PTP_MASTER, y :: x :: l⟩
  /-- The same of a port that may not. -/
  | timeoutListen {c : Core} {l : List LogEntry} (x y : LogEntry)
      (hso : c.slaveOnly = true) (hx : x.call = .announceTimeout) (hxc : x.before.core = c)
      (hy : y.call = .toState PTP_LISTENING) (hyp : y.before.portDS.portState = c.portState) :
      Step ⟨c, l⟩
        ⟨{ c with foreignMasterDS.count := 0, foreignMasterDS.i := 0 }.enter PTP_LISTENING,
          y :: x :: l⟩
  | timeoutStay {c : Core} {l : List LogEntry} (x : LogEntry)
      (hso : c.slaveOnly = true) (hstate : c.portState = PTP_LISTENING)
      (hx : x.call = .announceTimeout) (hxc : x.before.core = c) :
      Step ⟨c, l⟩
        ⟨{ c with foreignMasterDS.count := 0, foreignMasterDS.i := 0 }, x :: l⟩
  /-- Announce of the parent: the data sets follow, the table does not. -/
  | announceParent {c : Core} {l : List LogEntry} (a x : LogEntry) (header : MsgHeader)
      (announce : MsgAnnounce) (hstate : c.portState.follows)
      (hsender : header.sourcePortIdentity = c.parent)
      (ha : a.call = .acceptAnnounce header announce)
      (hac : a.before.core = { c with events.STATE_DECISION_EVENT := true })
      (hx : x.call = .s1 header announce)
      (hxc : x.before.core = { c with events.STATE_DECISION_EVENT := true }) :
      Step ⟨c, l⟩ ⟨{ c with events.STATE_DECISION_EVENT := true }, x :: a :: l⟩
  /-- Announce of any other master. -/
  | announceForeign {c : Core} {l : List LogEntry} (a x : LogEntry) (header : MsgHeader)
      (announce : MsgAnnounce) (hstate : c.portState.decides)
      (hsender : c.portState.follows → header.sourcePortIdentity ≠ c.parent)
      (ha : a.call = .acceptAnnounce header announce)
      (hac : a.before.core = { c with events.STATE_DECISION_EVENT := true })
      (hx : x.call = .addForeign (c.foreignMasterDS.addForeign header announce).1)
      (hxc : x.before.core = { c with events.STATE_DECISION_EVENT := true }) :
      Step ⟨c, l⟩
        ⟨{ c with
            events.STATE_DECISION_EVENT := true
            foreignMasterDS := (c.foreignMasterDS.addForeign header announce).2 }, x :: a :: l⟩
  | measurement {c c' : Core} {l l' : List LogEntry} (h : Measurement c l c' l') :
      Step ⟨c, l⟩ ⟨c', l'⟩
  /-- Delay_Resp of the parent, once an offset has been filtered. -/
  | delayResp {c : Core} {l : List LogEntry} (r x : LogEntry) (time egress stale : TimeInternal)
      (hmem : r ∈ l) (hr : r.call = .received time) (htype : r.before.handles .DELAY_RESP)
      (hsender : r.before.sender = c.parent) (hstate : c.portState.follows)
      (hsamples : c.offsetSamples ≠ 0)
      (hx : x.call = .updateDelay egress
        (toInternalTime stale (msgUnpackDelayResp r.before.msgIbuf).receiveTimestamp)
        r.before.correctionField)
      (hxc : x.before.core = c)
      (hmessage : x.before.msgTmpHeader = r.before.msgTmpHeader ∧
        x.before.msgIbuf = r.before.msgIbuf) :
      Step ⟨c, l⟩ ⟨c, x :: l⟩
  | peer {c c' : Core} {l l' : List LogEntry} (h : PeerExchange c l c' l') :
      Step ⟨c, l⟩ ⟨c', l'⟩

/-- Any number of events. -/
abbrev Engine.Run : Engine → Engine → Prop := Relation.ReflTransGen Engine.Step

/-- The engine once the port has been started for the first time. -/
structure Engine.Initial (e : Engine) : Prop where
  core : e.core =
    { PtpClock.zero.core with maxForeignRecords := DEFAULT_MAX_FOREIGN_RECORDS }
  log : ∃ x : LogEntry, e.log = [x] ∧ x.call = .toState PTP_INITIALIZING

end Ptpd
