import Ptpd.Refinement.Act

/-! # The traffic of a port

    What a port sends and what it takes in, with everything else left out. Each
    step keeps the condition under which the code sends the message, and what
    stands in the history right before it: the request that an answer answers,
    the message that a Follow_Up follows.
-/

namespace Ptpd

open PortState Octets

/-! ## The line -/

/-- What the traffic of a port depends on, and what it changes. -/
structure Line where
  portState : PortState
  portIdentity : PortIdentity
  versionNumber : UInt8
  delayMechanism : DelayMechanism
  domainNumber : UInt8
  sentAnnounceSequenceId : UInt16
  sentSyncSequenceId : UInt16
  sentDelayReqSequenceId : UInt16
  sentPDelayReqSequenceId : UInt16
  msgObuf : Buf
  msgIbuf : Buf
  msgIbufLength : Int
  eventSlots : Nat → Pbuf
  generalSlots : Nat → Pbuf

def PtpClock.line (c : PtpClock) : Line where
  portState := c.portDS.portState
  portIdentity := c.portDS.portIdentity
  versionNumber := c.portDS.versionNumber
  delayMechanism := c.portDS.delayMechanism
  domainNumber := c.defaultDS.domainNumber
  sentAnnounceSequenceId := c.sentAnnounceSequenceId
  sentSyncSequenceId := c.sentSyncSequenceId
  sentDelayReqSequenceId := c.sentDelayReqSequenceId
  sentPDelayReqSequenceId := c.sentPDelayReqSequenceId
  msgObuf := c.msgObuf
  msgIbuf := c.msgIbuf
  msgIbufLength := c.msgIbufLength
  eventSlots := c.netPath.eventQ.pbuf
  generalSlots := c.netPath.generalQ.pbuf

/-- Entries that say nothing of the traffic. -/
def Call.mute : Call → Prop
  | .send .. | .received _ | .acceptAnnounce .. => False
  | _ => True

/-- Nothing was sent, and nothing taken in. -/
structure Muted (w w' : World) : Prop where
  line : w'.line = w.line
  grows : Grows Call.mute w w'

variable {w w' w'' : World}

theorem Muted.refl (w : World) : Muted w w := ⟨rfl, .refl w⟩

theorem Muted.trans (h : Muted w w') (h' : Muted w' w'') : Muted w w'' :=
  ⟨h'.line.trans h.line, h.grows.trans h'.grows⟩

theorem Muted.of_eq (hline : w'.line = w.line) (hlog : w'.log = w.log) : Muted w w' :=
  ⟨hline, .of_eq hlog⟩

theorem record_muted (w : World) (call : Call) (h : call.mute) : Muted w (w.record call) :=
  ⟨rfl, .record w call h⟩

theorem Call.isRestart.mute {call : Call} (h : call.isRestart) : call.mute := by
  cases call with
  | pbuf_free p => trivial
  | adjFreq adj => trivial
  | _ => exact h.elim

/-! ## Messages -/

namespace Outgoing

/-- The UDP port that the message is sent on. -/
def port : Outgoing → UdpPort
  | sync _ | delayReq _ | pDelayReq _ | pDelayResp .. => .event
  | announce | followUp _ | delayResp .. | pDelayRespFollowUp .. | management .. => .general

/-- The group that the message is sent to. -/
def group : Outgoing → Group
  | pDelayReq _ | pDelayResp .. | pDelayRespFollowUp .. => .peer
  | announce | sync _ | followUp _ | delayReq _ | delayResp .. | management .. => .ptp

/-- The states and the delay mechanism in which a port sends the message. -/
def May (c : PtpClock) : Outgoing → Prop
  | announce | sync _ | followUp _ => c.portDS.portState = PTP_MASTER
  | delayReq _ => c.portDS.delayMechanism = .E2E ∧ c.portDS.portState = PTP_SLAVE
  | delayResp .. => c.portDS.delayMechanism = .E2E ∧ c.portDS.portState = PTP_MASTER
  | pDelayReq _ =>
    -- FAULTY: a master that was sent there by the message it has just handled
    c.portDS.delayMechanism = .P2P ∧
      (c.portDS.portState = PTP_MASTER ∨ c.portDS.portState = PTP_PASSIVE ∨
        c.portDS.portState.follows ∨ c.portDS.portState = PTP_FAULTY)
  | pDelayResp .. | pDelayRespFollowUp .. =>
    c.portDS.delayMechanism = .P2P ∧
      (c.portDS.portState = PTP_MASTER ∨ c.portDS.portState = PTP_PASSIVE ∨
        c.portDS.portState = PTP_SLAVE)
  | management .. => c.portDS.portState = PTP_LISTENING ∨ c.portDS.portState.follows

end Outgoing

/-- The entry of the message that is about to be handled. -/
structure LogEntry.Received (t : MessageType) (time : TimeInternal) (header : MsgHeader)
    (x : LogEntry) : Prop where
  call : x.call = .received time
  handles : x.before.handles t
  header : x.before.msgTmpHeader = header

/-- The entry of a Sync that was the last one, and the time used for it. -/
structure LogEntry.SyncSent (c : PtpClock) (t : Timestamp) (x : LogEntry) : Prop where
  issued : ∃ (w : World) (origin : Timestamp),
    x = w.issued .event .ptp (.sync origin) SYNC_LENGTH
  counted : c.sentSyncSequenceId = x.before.sentSyncSequenceId + 1
  time : ∀ port group bytes tx, x.call = .send port group bytes (.sent tx) →
    ∃ stale, t = fromInternalTime (addTime tx x.before.outboundLatency) stale

/-- What stands in the history right before the message. -/
def Outgoing.After (c : PtpClock) (log : List LogEntry) : Outgoing → Prop
  | followUp t => ∃ x older, log = x :: older ∧ x.SyncSent c t
  | delayResp header t => ∃ x older time stale, log = x :: older ∧
      x.Received .DELAY_REQ time header ∧ t = fromInternalTime time stale
  | pDelayResp header t => ∃ x older time stale, log = x :: older ∧
      x.Received .PDELAY_REQ time header ∧ t = fromInternalTime time stale
  | pDelayRespFollowUp header _ => ∃ (w : World) (t : Timestamp) (x : LogEntry)
      (older : List LogEntry) (time : TimeInternal),
      log = w.issued .event .peer (.pDelayResp header t) PDELAY_RESP_LENGTH :: x :: older ∧
        x.Received .PDELAY_REQ time header
  | announce | sync _ | delayReq _ | pDelayReq _ | management .. => True

/-- The message has been numbered. -/
def World.count (m : Outgoing) (w : World) : World :=
  match m with
  | .announce => { w with sentAnnounceSequenceId := w.sentAnnounceSequenceId + 1 }
  | .sync _ => { w with sentSyncSequenceId := w.sentSyncSequenceId + 1 }
  | .delayReq _ => { w with sentDelayReqSequenceId := w.sentDelayReqSequenceId + 1 }
  | .pDelayReq _ => { w with sentPDelayReqSequenceId := w.sentPDelayReqSequenceId + 1 }
  | .followUp _ | .delayResp .. | .pDelayResp .. | .pDelayRespFollowUp .. | .management .. => w

/-- The message is sent and numbered. -/
def World.emit (m : Outgoing) (w : World) : World :=
  (w.issue m.port m.group m m.length).count m

@[simp] theorem World.count_log (m : Outgoing) (w : World) : (w.count m).log = w.log := by
  cases m <;> rfl

theorem World.emit_log (m : Outgoing) (w : World) :
    (w.emit m).log = w.issued m.port m.group m m.length :: w.log := by
  rw [emit, count_log]
  rfl

/-! ## Steps -/

/-- The message in `msgIbuf` is of this type, and for this port to handle. -/
structure PtpClock.AtHand (t : MessageType) (c : PtpClock) : Prop where
  header : c.msgTmpHeader = msgUnpackHeader c.msgIbuf
  handles : c.handles t
  version : c.msgTmpHeader.versionPTP = c.portDS.versionNumber
  domain : c.msgTmpHeader.domainNumber = c.defaultDS.domainNumber

/-- The packet stands, or has stood, in one of the two queues. -/
def PtpClock.HasSlot (c : PtpClock) (p : Pbuf) : Prop :=
  ∃ k, p = c.netPath.eventQ.pbuf k ∨ p = c.netPath.generalQ.pbuf k

/-- The octets of the packet are taken in. -/
def World.takeIn (p : Pbuf) (w : World) : World :=
  { w with
    msgIbuf := copyPayload p.tot_len 0 0 p.payload w.msgIbuf
    msgIbufLength := p.tot_len }

/-- What handling messages does. -/
inductive Exchange : World → World → Prop where
  | muted {w w' : World} (h : Muted w w') : Exchange w w'
  | takeIn {w : World} (p : Pbuf) (hp : w.HasSlot p) (hfits : p.tot_len ≤ PACKET_SIZE) :
      Exchange w (w.takeIn p)
  | nothing {w : World} : Exchange w { w with msgIbufLength := 0 }
  | fault {w : World} : Exchange w (toState PTP_FAULTY w)
  | receive {w : World} (time : TimeInternal) (hheader : w.msgTmpHeader = msgUnpackHeader w.msgIbuf)
      (hlength : HEADER_LENGTH ≤ w.msgIbufLength) : Exchange w (w.record (.received time))
  | accept {w : World} (h : w.AtHand .ANNOUNCE) (hlength : ANNOUNCE_LENGTH ≤ w.msgIbufLength)
      (hforeign : w.msgTmpHeader.sourcePortIdentity ≠ w.portDS.portIdentity) :
      Exchange w (acceptAnnounce w)
  | emit {w : World} (m : Outgoing) (hmay : m.May w.toPtpClock)
      (hafter : m.After w.toPtpClock w.log) : Exchange w (w.emit m)

abbrev Exchanges : World → World → Prop := Relation.ReflTransGen Exchange

/-- What a port does with the line. -/
inductive Talk : World → World → Prop where
  | exchange {w w' : World} (h : Exchange w w') : Talk w w'
  | enter {w : World} (s : PortState) : Talk w (toState s w)
  | initialise {w : World} : Talk w (initialise w)

abbrev Talks : World → World → Prop := Relation.ReflTransGen Talk

/-- What happens on the line: the port talks, or lwIP hands over a packet. -/
inductive Traffic : World → World → Prop where
  | talk {w w' : World} (h : Talk w w') : Traffic w w'
  | arriveEvent {w : World} (p : Pbuf) : Traffic w (netRecvEventCallback p w)
  | arriveGeneral {w : World} (p : Pbuf) : Traffic w (netRecvGeneralCallback p w)

theorem Muted.exchanges (h : Muted w w') : Exchanges w w' := .single (.muted h)

theorem Muted.talks (h : Muted w w') : Talks w w' := .single (.exchange (.muted h))

theorem Exchanges.talks (h : Exchanges w w') : Talks w w' := by
  induction h with
  | refl => exact .refl
  | tail _ hlast ih => exact ih.tail (.exchange hlast)

end Ptpd
