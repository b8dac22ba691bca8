import Ptpd.Codec
import Ptpd.Run
import Ptpd.Trace

/-! # Sending event messages, and following them up

    Four issuers send an event message and then use the time at which it left.
    `netSend` tells them the length in every case, so that each goes on as if
    the message had been sent. The answer to a Pdelay_Req is followed up if the
    request, and not the answer, says that two messages are used.
-/

namespace Ptpd

open Octets PortState

/-! ## Messages in the history -/

/-- The octets of a message as a buffer. -/
def bufOf (bytes : List UInt8) : Buf := fun i => bytes.getD i 0

theorem bufOf_take {n i : Nat} (buf : Buf) (h : i < n) : bufOf (take n buf) i = buf i := by
  rw [bufOf, List.getD_eq_getElem?_getD, take_getElem? buf h]
  rfl

/-- The message that a call hands to `netSend`, whether it leaves or not, as its receiver would
    unpack it. -/
def LogEntry.message? (x : LogEntry) : Option Buf :=
  match x.call with
  | .send _ _ bytes _ => some (bufOf bytes)
  | _ => none

/-- The call hands a message of this type to `netSend`. -/
def LogEntry.HandsOver (t : MessageType) (x : LogEntry) (buf : Buf) : Prop :=
  x.message? = some buf ∧ MessageType.ofCode (msgUnpackHeader buf).messageType = some t

/-- The call hands a message of this type to `netSend`, and it leaves. -/
def LogEntry.Sends (t : MessageType) (x : LogEntry) (buf : Buf) : Prop :=
  x.HandsOver t buf ∧ ∃ port group bytes time, x.call = .send port group bytes (.sent time)

/-- The calls made between two worlds. -/
def entriesSince (w w' : World) : List LogEntry := w'.log.take (w'.log.length - w.log.length)

theorem entriesSince_eq {w w' : World} {new : List LogEntry} (h : w'.log = new ++ w.log) :
    entriesSince w w' = new := by
  rw [entriesSince, h, List.length_append, Nat.add_sub_cancel, List.take_left]

theorem msgUnpackHeader_bufOf {n : Nat} (buf : Buf) (h : 34 ≤ n) :
    msgUnpackHeader (bufOf (take n buf)) = msgUnpackHeader buf :=
  msgUnpackHeader_congr fun _ hi => bufOf_take buf (by omega)

theorem getTimestamp_bufOf {n off : Nat} (buf : Buf) (h : off + 10 ≤ n) :
    getTimestamp (bufOf (take n buf)) off = getTimestamp buf off :=
  getTimestamp_congr fun _ _ hi => bufOf_take buf (by omega)

theorem getPortIdentity_bufOf {n off : Nat} (buf : Buf) (h : off + 10 ≤ n) :
    getPortIdentity (bufOf (take n buf)) off = getPortIdentity buf off :=
  getPortIdentity_congr fun _ _ hi => bufOf_take buf (by omega)

/-- A packed message is sent as what it is. -/
theorem sends_pack (c : PtpClock) (buf : Buf) (m : Outgoing) {x : LogEntry} {n : Nat}
    (hn : 34 ≤ n) (hx : x.message? = some (bufOf (take n (m.pack c buf)))) {t : MessageType}
    {buf' : Buf} :
    x.HandsOver t buf' ↔ buf' = bufOf (take n (m.pack c buf)) ∧ t = m.messageType := by
  have htype : MessageType.ofCode (msgUnpackHeader (bufOf (take n (m.pack c buf)))).messageType =
      some m.messageType := by
    rw [msgUnpackHeader_bufOf _ hn, msgUnpackHeader_pack]
    exact MessageType.ofCode_code _
  constructor
  · rintro ⟨hmsg, ht⟩
    obtain rfl : buf' = _ := Option.some.inj (hmsg.symm.trans hx)
    exact ⟨rfl, Option.some.inj (ht.symm.trans htype)⟩
  · rintro ⟨rfl, rfl⟩
    exact ⟨hx, htype⟩

/-! ## One send -/

/-- The TX timestamp of a message that was handed to the interface. -/
def SendResult.txTime? : SendResult → Option TimeInternal
  | .sent time => some time
  | .allocFailed | .takeFailed | .sendFailed => none

/-- The world after a send, whatever became of it. -/
def World.transmit (port : UdpPort) (group : Group) (buf : Buf) (length : Nat) (w : World) :
    World :=
  { w with platform.tx := w.platform.tx.tail }.record
    (.send port group (take length buf) w.platform.tx.head)

/-- `netSend` returns the length in every case, and sets `*time` if it has something to store. -/
theorem netSend_eq (port : UdpPort) (group : Group) (buf : Buf) (length : Nat)
    (time : TimeInternal) (w : World) :
    netSend port group buf length time w =
      (⟨length, w.platform.tx.head.txTime?.getD time⟩, w.transmit port group buf length) := by
  unfold netSend World.transmit
  cases w.platform.tx.head <;> rfl

/-- `Timestamp external; fromInternalTime(time, &external);` in the present world. -/
def World.external (w : World) (time : TimeInternal) : Timestamp :=
  fromInternalTime time w.platform.stackTimestamp.head

theorem newTimestamp_eq (time : TimeInternal) (w : World) :
    newTimestamp time w =
      (w.external time, { w with platform.stackTimestamp := w.platform.stackTimestamp.tail }) := rfl

/-- A message is packed and sent: the next world. -/
def World.issue (port : UdpPort) (group : Group) (m : Outgoing) (length : Nat) (w : World) : World :=
  World.transmit port group (m.pack w.toPtpClock w.msgObuf) length
    { w with msgObuf := m.pack w.toPtpClock w.msgObuf }

/-- The entry that a sent message leaves. -/
def World.issued (port : UdpPort) (group : Group) (m : Outgoing) (length : Nat) (w : World) :
    LogEntry :=
  ⟨.send port group (take length (m.pack w.toPtpClock w.msgObuf)) w.platform.tx.head,
    { w.toPtpClock with msgObuf := m.pack w.toPtpClock w.msgObuf }⟩

theorem issue_log (port : UdpPort) (group : Group) (m : Outgoing) (length : Nat) (w : World) :
    (w.issue port group m length).log = w.issued port group m length :: w.log := rfl

/-- The world in which the local `Timestamp` of an issuer has been set. -/
def World.popTimestamp (w : World) : World :=
  { w with platform.stackTimestamp := w.platform.stackTimestamp.tail }

/-- The world in which the MAC clock has been read. -/
def World.popTime (w : World) : World :=
  { w with platform.time := w.platform.time.tail }

/-- Follow_Up never faults. -/
theorem issueFollowup_eq (time : TimeInternal) (w : World) :
    issueFollowup time w =
      w.popTimestamp.issue .general .ptp (.followUp (w.external time)) FOLLOW_UP_LENGTH := by
  unfold issueFollowup netSendGeneral
  rw [newTimestamp_eq]
  dsimp only
  rw [netSend_eq]
  have hret : ((FOLLOW_UP_LENGTH : Nat) : Int) ≠ 0 := by decide
  exact if_neg hret

theorem issuePDelayRespFollowUp_eq (time : TimeInternal) (header : MsgHeader) (w : World) :
    issuePDelayRespFollowUp time header w =
      w.popTimestamp.issue .general .peer (.pDelayRespFollowUp header (w.external time))
        PDELAY_RESP_FOLLOW_UP_LENGTH := by
  unfold issuePDelayRespFollowUp netSendPeerGeneral
  rw [newTimestamp_eq]
  dsimp only
  rw [netSend_eq]
  have hret : ((PDELAY_RESP_FOLLOW_UP_LENGTH : Nat) : Int) ≠ 0 := by decide
  exact if_neg hret

/-- The world once the Sync has been sent and counted. -/
def World.syncIssued (w : World) : World :=
  let w := w.popTime.popTimestamp.issue .event .ptp
    (.sync (w.popTime.external w.platform.time.head)) SYNC_LENGTH
  { w with sentSyncSequenceId := w.sentSyncSequenceId + 1 }

theorem issueSync_eq (w : World) :
    issueSync w =
      let time := w.platform.tx.head.txTime?.getD w.platform.time.head
      if time.seconds ≠ 0 ∧ w.defaultDS.twoStepFlag then
        issueFollowup (addTime time w.outboundLatency) w.syncIssued
      else w.syncIssued := by
  unfold issueSync netSendEvent getTime
  dsimp only
  rw [newTimestamp_eq]
  dsimp only
  rw [netSend_eq]
  have hret : ((SYNC_LENGTH : Nat) : Int) ≠ 0 := by decide
  exact if_neg hret

/-- The world once the Delay_Req has been sent and counted. -/
def World.delayReqIssued (w : World) : World :=
  let w := w.popTime.popTimestamp.issue .event .ptp
    (.delayReq (w.popTime.external w.platform.time.head)) DELAY_REQ_LENGTH
  { w with sentDelayReqSequenceId := w.sentDelayReqSequenceId + 1 }

theorem issueDelayReq_eq (w : World) :
    issueDelayReq w =
      let time := w.platform.tx.head.txTime?.getD w.platform.time.head
      if time.seconds ≠ 0 then
        { w.delayReqIssued with timestamp_delayReqSend := addTime time w.outboundLatency }
      else w.delayReqIssued := by
  unfold issueDelayReq netSendEvent getTime
  dsimp only
  rw [newTimestamp_eq]
  dsimp only
  rw [netSend_eq]
  have hret : ((DELAY_REQ_LENGTH : Nat) : Int) ≠ 0 := by decide
  exact if_neg hret

/-- The world once the Pdelay_Req has been sent and counted. -/
def World.pDelayReqIssued (w : World) : World :=
  let w := w.record .issuePDelayReq
  let w := w.popTime.popTimestamp.issue .event .peer
    (.pDelayReq (w.popTime.external w.platform.time.head)) PDELAY_REQ_LENGTH
  { w with sentPDelayReqSequenceId := w.sentPDelayReqSequenceId + 1 }

theorem issuePDelayReq_eq (w : World) :
    issuePDelayReq w =
      let time := w.platform.tx.head.txTime?.getD w.platform.time.head
      if time.seconds ≠ 0 then
        { w.pDelayReqIssued with pdelay_t1 := addTime time w.outboundLatency }
      else w.pDelayReqIssued := by
  unfold issuePDelayReq netSendPeerEvent getTime
  dsimp only
  rw [newTimestamp_eq]
  dsimp only
  rw [netSend_eq]
  have hret : ((PDELAY_REQ_LENGTH : Nat) : Int) ≠ 0 := by decide
  exact if_neg hret

/-- A time with nonzero seconds, corrected by the latency of the way out. -/
def stamped (latency time : TimeInternal) : TimeInternal :=
  if time.seconds ≠ 0 then addTime time latency else time

theorem issuePDelayResp_eq (time : TimeInternal) (header : MsgHeader) (w : World) :
    issuePDelayResp time header w =
      (stamped w.outboundLatency (w.platform.tx.head.txTime?.getD time),
        w.popTimestamp.issue .event .peer (.pDelayResp header (w.external time))
          PDELAY_RESP_LENGTH) := by
  unfold issuePDelayResp netSendPeerEvent stamped
  rw [newTimestamp_eq]
  dsimp only
  rw [netSend_eq]
  have hret : ((PDELAY_RESP_LENGTH : Nat) : Int) ≠ 0 := by decide
  dsimp only
  rw [if_neg hret]
  split
  · rfl
  · rfl

/-! ## What an issuer makes of the send -/

theorem issued_sends (port : UdpPort) (group : Group) (m : Outgoing) {n : Nat} (w : World)
    (hn : 34 ≤ n) {t : MessageType} {buf : Buf} :
    (w.issued port group m n).HandsOver t buf ↔
      buf = bufOf (take n (m.pack w.toPtpClock w.msgObuf)) ∧ t = m.messageType :=
  sends_pack w.toPtpClock w.msgObuf m hn rfl

/-- The Follow_Ups that were sent between two worlds carry these timestamps. -/
def FollowUpsSent (w w' : World) (ts : List Timestamp) : Prop :=
  ∀ t, t ∈ ts ↔ ∃ x ∈ entriesSince w w', ∃ buf, x.HandsOver .FOLLOW_UP buf ∧
    (msgUnpackFollowUp buf).preciseOriginTimestamp = t

/-- The port has been sent to FAULTY. -/
def GoesToFault (w w' : World) : Prop :=
  (∃ x ∈ entriesSince w w', x.call = .toState PTP_FAULTY) ∧ w'.portDS.portState = PTP_FAULTY

/-- The functions that issue an event message. -/
inductive EventIssuer where
  | issueSync
  | issueDelayReq
  | issuePDelayReq
  | issuePDelayResp (time : TimeInternal) (pDelayReqHeader : MsgHeader)

namespace EventIssuer

/-- The message left at `t`: it is counted, and the time used for it is `t` with
    the latency. Zero seconds are no timestamp, and then none is used. -/
def Accepted (w : World) (t : TimeInternal) : EventIssuer → Prop
  | issueSync =>
    (Ptpd.issueSync w).sentSyncSequenceId = w.sentSyncSequenceId + 1 ∧
      FollowUpsSent w (Ptpd.issueSync w)
        (if t.seconds ≠ 0 ∧ w.defaultDS.twoStepFlag then
          [w.popTimestamp.external (addTime t w.outboundLatency)] else [])
  | issueDelayReq =>
    (Ptpd.issueDelayReq w).sentDelayReqSequenceId = w.sentDelayReqSequenceId + 1 ∧
      (Ptpd.issueDelayReq w).timestamp_delayReqSend =
        if t.seconds ≠ 0 then addTime t w.outboundLatency else w.timestamp_delayReqSend
  | issuePDelayReq =>
    (Ptpd.issuePDelayReq w).sentPDelayReqSequenceId = w.sentPDelayReqSequenceId + 1 ∧
      (Ptpd.issuePDelayReq w).pdelay_t1 =
        if t.seconds ≠ 0 then addTime t w.outboundLatency else w.pdelay_t1
  | issuePDelayResp time header =>
    (Ptpd.issuePDelayResp time header w).1 = stamped w.outboundLatency t

/-- The message did not leave: the port is faulty, and nothing is counted, kept,
    or handed on for a Follow_Up. -/
def Refused (w : World) : EventIssuer → Prop
  | issueSync =>
    GoesToFault w (Ptpd.issueSync w) ∧
      (Ptpd.issueSync w).sentSyncSequenceId = w.sentSyncSequenceId ∧
      FollowUpsSent w (Ptpd.issueSync w) []
  | issueDelayReq =>
    GoesToFault w (Ptpd.issueDelayReq w) ∧
      (Ptpd.issueDelayReq w).sentDelayReqSequenceId = w.sentDelayReqSequenceId ∧
      (Ptpd.issueDelayReq w).timestamp_delayReqSend = w.timestamp_delayReqSend
  | issuePDelayReq =>
    GoesToFault w (Ptpd.issuePDelayReq w) ∧
      (Ptpd.issuePDelayReq w).sentPDelayReqSequenceId = w.sentPDelayReqSequenceId ∧
      (Ptpd.issuePDelayReq w).pdelay_t1 = w.pdelay_t1
  | issuePDelayResp time header =>
    GoesToFault w (Ptpd.issuePDelayResp time header w).2 ∧
      (Ptpd.issuePDelayResp time header w).1.seconds = 0

/-- The issuer does what becomes of the message calls for. -/
def Accounts (w : World) (i : EventIssuer) : Prop :=
  match w.platform.tx.head with
  | .sent t => i.Accepted w t
  | .allocFailed | .takeFailed | .sendFailed => i.Refused w

end EventIssuer

/-- A Sync followed up by nothing. -/
theorem followUpsSent_nil {w w' : World} {port : UdpPort} {group : Group} {m : Outgoing}
    {n : Nat} {w₀ : World} (hn : 34 ≤ n) (hm : m.messageType ≠ .FOLLOW_UP)
    (hlog : w'.log = [w₀.issued port group m n] ++ w.log) : FollowUpsSent w w' [] := by
  intro t
  rw [entriesSince_eq hlog]
  constructor
  · intro h
    cases h
  · rintro ⟨x, hx, buf, hsends, -⟩
    obtain rfl := List.mem_singleton.mp hx
    exact absurd ((issued_sends port group m w₀ hn).mp hsends).2.symm hm

theorem issueFollowup_followUpsSent (time : TimeInternal) {w w₁ : World} {port : UdpPort}
    {group : Group} {m : Outgoing} {n : Nat} {w₀ : World} (hn : 34 ≤ n)
    (hm : m.messageType ≠ .FOLLOW_UP) (hlog : w₁.log = [w₀.issued port group m n] ++ w.log) :
    FollowUpsSent w (issueFollowup time w₁) [w₁.external time] := by
  have hlog' : (issueFollowup time w₁).log =
      [w₁.popTimestamp.issued .general .ptp (.followUp (w₁.external time)) FOLLOW_UP_LENGTH,
        w₀.issued port group m n] ++ w.log := by
    rw [issueFollowup_eq, issue_log, show w₁.popTimestamp.log = w₁.log from rfl, hlog]
    rfl
  have hlen : 34 ≤ FOLLOW_UP_LENGTH := by decide
  have hbody : ∀ buf : Buf, (msgUnpackFollowUp (bufOf (take FOLLOW_UP_LENGTH buf))) =
      msgUnpackFollowUp buf := by
    intro buf
    rw [msgUnpackFollowUp, getTimestamp_bufOf buf (by decide)]
    rfl
  intro t
  rw [entriesSince_eq hlog', List.mem_singleton]
  -- two messages were sent, and only the second is a Follow_Up
  constructor
  · rintro rfl
    refine ⟨_, List.mem_cons_self, _, (issued_sends _ _ _ _ hlen).mpr ⟨rfl, rfl⟩, ?_⟩
    rw [hbody]
    exact congrArg MsgFollowUp.preciseOriginTimestamp (msgUnpackFollowUp_pack _ _ _)
  · rintro ⟨x, hx, buf, hsends, ht⟩
    rcases List.mem_cons.mp hx with rfl | hx
    · obtain rfl := ((issued_sends _ _ _ _ hlen).mp hsends).1
      rw [hbody] at ht
      rw [← ht]
      exact (congrArg MsgFollowUp.preciseOriginTimestamp (msgUnpackFollowUp_pack _ _ _))
    · obtain rfl := List.mem_singleton.mp hx
      exact absurd ((issued_sends port group m w₀ hn).mp hsends).2.symm hm

/-- The counters go up, and the request is sent, whatever became of the message. -/
theorem issueSync_counts (w : World) :
    (issueSync w).sentSyncSequenceId = w.sentSyncSequenceId + 1 := by
  rw [issueSync_eq]
  dsimp only
  split
  · rw [issueFollowup_eq]
    rfl
  · rfl

theorem issueDelayReq_counts (w : World) :
    (issueDelayReq w).sentDelayReqSequenceId = w.sentDelayReqSequenceId + 1 := by
  rw [issueDelayReq_eq]
  dsimp only
  split <;> rfl

theorem issuePDelayReq_counts (w : World) :
    (issuePDelayReq w).sentPDelayReqSequenceId = w.sentPDelayReqSequenceId + 1 := by
  rw [issuePDelayReq_eq]
  dsimp only
  split <;> rfl

theorem succ_ne_self (n : UInt16) : n + 1 ≠ n := by
  intro h
  have hzero : (1 : UInt16) = 0 := by
    rwa [← UInt16.add_right_inj n, UInt16.add_zero]
  cases hzero

namespace EventIssuer

theorem accepted {w : World} {t : TimeInternal} (h : w.platform.tx.head = .sent t)
    (i : EventIssuer) : i.Accepted w t := by
  have htime : ∀ time : TimeInternal, w.platform.tx.head.txTime?.getD time = t := by
    intro time
    rw [h]
    rfl
  have hlen : 34 ≤ SYNC_LENGTH := by decide
  cases i with
  | issueSync =>
    refine ⟨issueSync_counts w, ?_⟩
    rw [issueSync_eq, htime]
    dsimp only
    split
    · exact issueFollowup_followUpsSent (addTime t w.outboundLatency) hlen (by simp [Outgoing.messageType]) rfl
    · exact followUpsSent_nil hlen (by simp [Outgoing.messageType]) rfl
  | issueDelayReq =>
    refine ⟨issueDelayReq_counts w, ?_⟩
    rw [issueDelayReq_eq, htime]
    dsimp only
    split <;> rfl
  | issuePDelayReq =>
    refine ⟨issuePDelayReq_counts w, ?_⟩
    rw [issuePDelayReq_eq, htime]
    dsimp only
    split <;> rfl
  | issuePDelayResp time header => rw [Accepted, issuePDelayResp_eq, htime]

/-- No issuer notices that its message did not leave. -/
theorem not_refused (w : World) (i : EventIssuer) : ¬ i.Refused w := by
  cases i with
  | issueSync =>
    rintro ⟨-, hcount, -⟩
    exact succ_ne_self _ ((issueSync_counts w).symm.trans hcount)
  | issueDelayReq =>
    rintro ⟨-, hcount, -⟩
    exact succ_ne_self _ ((issueDelayReq_counts w).symm.trans hcount)
  | issuePDelayReq =>
    rintro ⟨-, hcount, -⟩
    exact succ_ne_self _ ((issuePDelayReq_counts w).symm.trans hcount)
  | issuePDelayResp time header =>
    rintro ⟨⟨⟨x, hx, hfault⟩, -⟩, -⟩
    rw [issuePDelayResp_eq] at hx
    have hlog : (w.popTimestamp.issue .event .peer (.pDelayResp header (w.external time))
        PDELAY_RESP_LENGTH).log = [w.popTimestamp.issued .event .peer
          (.pDelayResp header (w.external time)) PDELAY_RESP_LENGTH] ++ w.log := rfl
    rw [entriesSince_eq hlog, List.mem_singleton] at hx
    rw [hx] at hfault
    cases hfault

end EventIssuer

/-- An issuer accounts for its message exactly if the message left. -/
theorem accounts_iff (w : World) (i : EventIssuer) :
    i.Accounts w ↔ ∃ t, w.platform.tx.head = .sent t := by
  unfold EventIssuer.Accounts
  constructor
  · intro h
    split at h
    · next t heq => exact ⟨t, heq⟩
    all_goals exact absurd h (i.not_refused w)
  · rintro ⟨t, ht⟩
    rw [ht]
    exact i.accepted ht

/-- A master whose transmit buffers are never allocated. -/
def mutedMaster : World :=
  runInputs [.doState, .catchAlarm 12000, .doState]
    (ptpdStartup (.sample .E2E) (World.zero { Platform.steady with tx := fun _ => .allocFailed }))

/-- Its Sync, of which not even a copy exists, is counted. -/
theorem unsent_sync_counted :
    Reachable mutedMaster ∧ mutedMaster.portDS.portState = PTP_MASTER ∧
      ¬ EventIssuer.issueSync.Accounts mutedMaster := by
  have hreach : Reachable mutedMaster :=
    (Reachable.init _ (.sample .E2E) rfl).runInputs (by simp [Input.Valid])
  have hstate : mutedMaster.portDS.portState = PTP_MASTER := by decide +kernel
  have htx : mutedMaster.platform.tx.head = .allocFailed := by decide +kernel
  refine ⟨hreach, hstate, ?_⟩
  -- the outcome asks for a fault, and no issuer faults
  unfold EventIssuer.Accounts
  rw [htx]
  exact EventIssuer.issueSync.not_refused mutedMaster

/-! ## Answers to a Pdelay_Req -/

/-- An answer that says that it will be followed up, and that left with a
    timestamp, is: under the same number, to the same port. Any other is not. -/
def AnswersMatch (w w' : World) : Prop :=
  ∀ x ∈ entriesSince w w', ∀ resp, x.HandsOver .PDELAY_RESP resp →
    ((msgUnpackHeader resp).isTwoStep → ∀ port group bytes t,
      x.call = .send port group bytes (.sent t) →
      ∃ y ∈ entriesSince w w', ∃ follow, y.HandsOver .PDELAY_RESP_FOLLOW_UP follow ∧
        (msgUnpackHeader follow).sequenceId = (msgUnpackHeader resp).sequenceId ∧
        (msgUnpackPDelayRespFollowUp follow).requestingPortIdentity =
          (msgUnpackPDelayResp resp).requestingPortIdentity) ∧
    ((msgUnpackHeader resp).isTwoStep = false →
      ∀ y ∈ entriesSince w w', ∀ follow, ¬ y.HandsOver .PDELAY_RESP_FOLLOW_UP follow)

/-- The Pdelay_Req at hand is answered. -/
def PtpClock.answersPDelayReq (c : PtpClock) (isFromSelf : Bool) : Prop :=
  c.portDS.delayMechanism = .P2P ∧ (PDELAY_REQ_LENGTH : Int) ≤ c.msgIbufLength ∧
    (c.portDS.portState = PTP_PASSIVE ∨ c.portDS.portState = PTP_SLAVE ∨
      c.portDS.portState = PTP_MASTER) ∧ isFromSelf = false

/-- The flag of the output buffer, which an answer inherits. -/
def PtpClock.obufTwoStep (c : PtpClock) : Bool := getFlag (c.msgObuf 6) FLAG0_TWO_STEP

/-- `time` and what the latency makes of it have nonzero seconds. -/
def Usable (latency time : TimeInternal) : Prop :=
  time.seconds ≠ 0 ∧ (addTime time latency).seconds ≠ 0

theorem stamped_seconds {latency time : TimeInternal} :
    (stamped latency time).seconds ≠ 0 ↔ Usable latency time := by
  unfold stamped Usable
  split
  · next h => simp [h]
  · next h => simp [not_not.mp h]

/-- The request that is answered and the buffer agree on following up: with the
    flag, a request whose answer left has it too and the time can be used;
    without it, the request has none or no time at hand can be used. -/
def World.FlagsAgree (time : TimeInternal) (w : World) : Prop :=
  if w.obufTwoStep then
    ∀ t, w.platform.tx.head = .sent t → w.isTwoStep ∧ Usable w.outboundLatency t
  else ¬ (w.isTwoStep ∧ Usable w.outboundLatency (w.platform.tx.head.txTime?.getD time))

/-- A change of state sends nothing. -/
theorem toState_unsent (s : PortState) (w : World) :
    ∀ x ∈ entriesSince w (toState s w), x.message? = none := by
  obtain ⟨new, hlog, hnew⟩ := toState_grows s w
  rw [entriesSince_eq hlog]
  intro x hx
  unfold LogEntry.message?
  split
  · next heq =>
    -- neither the change of state itself nor what restarts the servo is a send
    rcases hnew x hx with h | h
    · rw [heq] at h
      cases h
    · rw [heq] at h
      exact h.elim
  · rfl

/-- The world once the request is answered. -/
def World.answered (time : TimeInternal) (w : World) : World :=
  w.popTimestamp.issue .event .peer (.pDelayResp w.msgTmpHeader (w.external time))
    PDELAY_RESP_LENGTH

theorem handlePDelayReq_eq {time : TimeInternal} {isFromSelf : Bool} {w : World}
    (h : w.answersPDelayReq isFromSelf) :
    handlePDelayReq time isFromSelf w =
      if (stamped w.outboundLatency (w.platform.tx.head.txTime?.getD time)).seconds ≠ 0 ∧
          w.isTwoStep then
        issuePDelayRespFollowUp
          (stamped w.outboundLatency (w.platform.tx.head.txTime?.getD time)) w.msgTmpHeader
          (w.answered time)
      else w.answered time := by
  obtain ⟨hmech, hlen, hport, hself⟩ := h
  unfold handlePDelayReq
  rw [hmech, hself]
  dsimp only
  rw [if_neg (by omega), issuePDelayResp_eq]
  rcases hport with hport | hport | hport
  all_goals
    rw [hport]
    rfl

/-- A request that is not answered sends nothing. -/
theorem handlePDelayReq_unsent {time : TimeInternal} {isFromSelf : Bool} {w : World}
    (h : ¬ w.answersPDelayReq isFromSelf) :
    ∀ x ∈ entriesSince w (handlePDelayReq time isFromSelf w), x.message? = none := by
  have hnone : ∀ x ∈ entriesSince w w, x.message? = none := by
    rw [show entriesSince w w = [] from entriesSince_eq rfl]
    simp
  unfold handlePDelayReq
  split
  · next hmech =>
    split
    · exact toState_unsent PTP_FAULTY w
    · next hlen =>
      have hself : w.portDS.portState = PTP_PASSIVE ∨ w.portDS.portState = PTP_SLAVE ∨
          w.portDS.portState = PTP_MASTER → isFromSelf = true := by
        intro hport
        by_contra hself
        exact h ⟨hmech, by omega, hport, by simpa using hself⟩
      cases hport : w.portDS.portState
      case PTP_PASSIVE | PTP_SLAVE | PTP_MASTER =>
        rw [hself (by simp [hport])]
        exact hnone
      all_goals exact hnone
  all_goals exact hnone

/-- The entry of the answer. -/
def World.answer (time : TimeInternal) (w : World) : LogEntry :=
  w.popTimestamp.issued .event .peer (.pDelayResp w.msgTmpHeader (w.external time))
    PDELAY_RESP_LENGTH

/-- The entry of the Follow_Up. -/
def World.answerFollowUp (time follow : TimeInternal) (w : World) : LogEntry :=
  (w.answered time).popTimestamp.issued .general .peer
    (.pDelayRespFollowUp w.msgTmpHeader ((w.answered time).external follow))
    PDELAY_RESP_FOLLOW_UP_LENGTH

theorem answer_sends {time : TimeInternal} {w : World} {t : MessageType} {buf : Buf} :
    (w.answer time).HandsOver t buf ↔
      buf = bufOf (take PDELAY_RESP_LENGTH ((Outgoing.pDelayResp w.msgTmpHeader
        (w.external time)).pack w.toPtpClock w.msgObuf)) ∧ t = .PDELAY_RESP :=
  issued_sends _ _ _ w.popTimestamp (by decide)

theorem answerFollowUp_sends {time follow : TimeInternal} {w : World} {t : MessageType}
    {buf : Buf} :
    (w.answerFollowUp time follow).HandsOver t buf ↔
      buf = bufOf (take PDELAY_RESP_FOLLOW_UP_LENGTH ((Outgoing.pDelayRespFollowUp
        w.msgTmpHeader ((w.answered time).external follow)).pack
          (w.answered time).toPtpClock (w.answered time).msgObuf)) ∧
        t = .PDELAY_RESP_FOLLOW_UP :=
  issued_sends _ _ _ (w.answered time).popTimestamp (by decide)

/-- The number and the requesting port that a response to `header` carries. -/
theorem response_names (c : PtpClock) (buf : Buf) (header : MsgHeader) (t : Timestamp) :
    (msgUnpackHeader (bufOf (take PDELAY_RESP_LENGTH
        ((Outgoing.pDelayResp header t).pack c buf)))).sequenceId = header.sequenceId ∧
      (msgUnpackPDelayResp (bufOf (take PDELAY_RESP_LENGTH
        ((Outgoing.pDelayResp header t).pack c buf)))).requestingPortIdentity =
        header.sourcePortIdentity := by
  constructor
  · rw [msgUnpackHeader_bufOf _ (by decide), msgUnpackHeader_pack]
    rfl
  · have hbody := msgUnpackPDelayResp_pack buf header t
    exact (getPortIdentity_bufOf _ (by decide)).trans
      (congrArg MsgPDelayResp.requestingPortIdentity hbody)

theorem response_flag (c : PtpClock) (buf : Buf) (header : MsgHeader) (t : Timestamp) :
    (msgUnpackHeader (bufOf (take PDELAY_RESP_LENGTH
      ((Outgoing.pDelayResp header t).pack c buf)))).isTwoStep = getFlag (buf 6) FLAG0_TWO_STEP := by
  have hflag : (msgUnpackHeader (bufOf (take PDELAY_RESP_LENGTH
      ((Outgoing.pDelayResp header t).pack c buf)))).flagField = (msgUnpackHeader buf).flagField := by
    rw [msgUnpackHeader_bufOf _ (by decide), msgUnpackHeader_pack]
    rfl
  unfold MsgHeader.isTwoStep
  rw [hflag]
  simp [msgUnpackHeader, getVec]

theorem response_followUp_names (c : PtpClock) (buf : Buf) (header : MsgHeader) (t : Timestamp) :
    (msgUnpackHeader (bufOf (take PDELAY_RESP_FOLLOW_UP_LENGTH
        ((Outgoing.pDelayRespFollowUp header t).pack c buf)))).sequenceId = header.sequenceId ∧
      (msgUnpackPDelayRespFollowUp (bufOf (take PDELAY_RESP_FOLLOW_UP_LENGTH
        ((Outgoing.pDelayRespFollowUp header t).pack c buf)))).requestingPortIdentity =
        header.sourcePortIdentity := by
  constructor
  · rw [msgUnpackHeader_bufOf _ (by decide), msgUnpackHeader_pack]
    rfl
  · have hbody := msgUnpackPDelayRespFollowUp_pack buf header t
    exact (getPortIdentity_bufOf _ (by decide)).trans
      (congrArg MsgPDelayRespFollowUp.requestingPortIdentity hbody)

/-- The answer alone is right if it does not say that more will come, or did not leave. -/
theorem answersMatch_alone {time : TimeInternal} {w w' : World}
    (hlog : w'.log = [w.answer time] ++ w.log) :
    AnswersMatch w w' ↔ (w.obufTwoStep → ∀ t, w.platform.tx.head ≠ .sent t) := by
  unfold AnswersMatch
  rw [entriesSince_eq hlog]
  constructor
  · intro h hflag t ht
    obtain ⟨htwo, -⟩ := h _ (List.mem_singleton_self _) _ (answer_sends.mpr ⟨rfl, rfl⟩)
    rw [response_flag] at htwo
    obtain ⟨y, hy, follow, hsends, -⟩ := htwo hflag _ _ _ t (by rw [← ht]; rfl)
    obtain rfl := List.mem_singleton.mp hy
    cases (answer_sends.mp hsends).2
  · intro h x hx resp hresp
    obtain rfl := List.mem_singleton.mp hx
    obtain rfl := (answer_sends.mp hresp).1
    rw [response_flag]
    constructor
    · intro hflag port group bytes t hcall
      exact absurd (Call.send.inj hcall).2.2.2 (h hflag t)
    · intro hflag y hy follow hfollow
      obtain rfl := List.mem_singleton.mp hy
      cases (answer_sends.mp hfollow).2

/-- The answer with its Follow_Up is right if it says that it comes. -/
theorem answersMatch_followed {time follow : TimeInternal} {w w' : World}
    (hlog : w'.log = [w.answerFollowUp time follow, w.answer time] ++ w.log) :
    AnswersMatch w w' ↔ w.obufTwoStep := by
  unfold AnswersMatch
  rw [entriesSince_eq hlog]
  have hanswer : w.answer time ∈ [w.answerFollowUp time follow, w.answer time] := by simp
  constructor
  · intro h
    obtain ⟨-, hone⟩ := h _ hanswer _ (answer_sends.mpr ⟨rfl, rfl⟩)
    rw [response_flag] at hone
    by_contra hflag
    have hclear : w.obufTwoStep = false := by simpa using hflag
    exact hone hclear _ List.mem_cons_self _ (answerFollowUp_sends.mpr ⟨rfl, rfl⟩)
  · intro h x hx resp hresp
    rcases List.mem_cons.mp hx with rfl | hx
    · cases (answerFollowUp_sends.mp hresp).2
    · obtain rfl := List.mem_singleton.mp hx
      obtain rfl := (answer_sends.mp hresp).1
      rw [response_flag]
      constructor
      · intro hflag port group bytes t hcall
        obtain ⟨hseq, hport⟩ := response_names w.toPtpClock w.msgObuf w.msgTmpHeader
          (w.external time)
        obtain ⟨hseq', hport'⟩ := response_followUp_names (w.answered time).toPtpClock
          (w.answered time).msgObuf w.msgTmpHeader ((w.answered time).external follow)
        exact ⟨_, List.mem_cons_self, _, answerFollowUp_sends.mpr ⟨rfl, rfl⟩,
          hseq'.trans hseq.symm, hport'.trans hport.symm⟩
      · intro hflag
        exact absurd h (by rw [show w.obufTwoStep = false from hflag]; simp)

/-- Answers and Follow_Ups go together exactly if the flags of the request and
    of the output buffer do. -/
theorem answersMatch_iff (time : TimeInternal) (isFromSelf : Bool) (w : World) :
    AnswersMatch w (handlePDelayReq time isFromSelf w) ↔
      (w.answersPDelayReq isFromSelf → w.FlagsAgree time) := by
  by_cases hanswers : w.answersPDelayReq isFromSelf
  case neg =>
    -- nothing is sent, so there is no answer to be judged
    refine ⟨fun _ h => absurd h hanswers, ?_⟩
    intro _ x hx resp hresp
    cases (handlePDelayReq_unsent hanswers x hx).symm.trans hresp.1
  case pos =>
    have hgoal : (w.answersPDelayReq isFromSelf → w.FlagsAgree time) ↔ w.FlagsAgree time :=
      ⟨fun h => h hanswers, fun h _ => h⟩
    rw [hgoal, handlePDelayReq_eq hanswers]
    unfold World.FlagsAgree
    have hsent : ∀ t, w.platform.tx.head = .sent t →
        w.platform.tx.head.txTime?.getD time = t := by
      intro t ht
      rw [ht]
      rfl
    generalize w.platform.tx.head.txTime?.getD time = used at hsent ⊢
    split
    case isTrue hfollow =>
      -- the answer and its Follow_Up are sent
      have hlog : (issuePDelayRespFollowUp (stamped w.outboundLatency used) w.msgTmpHeader
          (w.answered time)).log =
            [w.answerFollowUp time (stamped w.outboundLatency used), w.answer time] ++ w.log := by
        rw [issuePDelayRespFollowUp_eq]
        rfl
      rw [stamped_seconds] at hfollow
      rw [answersMatch_followed hlog]
      split
      case isTrue hflag =>
        refine ⟨fun _ t ht => ?_, fun _ => hflag⟩
        rw [← hsent t ht]
        exact hfollow.symm
      case isFalse hflag => exact ⟨fun h => absurd h hflag, fun h => absurd hfollow.symm h⟩
    case isFalse hfollow =>
      -- the answer is sent alone
      have hlog : (w.answered time).log = [w.answer time] ++ w.log := rfl
      rw [stamped_seconds] at hfollow
      rw [answersMatch_alone hlog]
      split
      case isTrue hflag =>
        constructor
        · intro h t ht
          exact absurd ht (h hflag t)
        · intro h _ t ht
          have hboth := h t ht
          rw [← hsent t ht] at hboth
          exact hfollow hboth.symm
      case isFalse hflag => exact ⟨fun _ h => hfollow h.symm, fun _ h => absurd h hflag⟩

/-- A peer on the board of a master: the announce receipt timeout has expired. -/
def peerMaster : World :=
  sampleRun .P2P [.doState, .catchAlarm 12000, .doState]

/-- The same with these octets received. -/
def World.holding (octets : List UInt8) (w : World) : World :=
  { w with
    msgIbuf := bufOf octets
    msgIbufLength := octets.length
    msgTmpHeader := msgUnpackHeader (bufOf octets) }

/-- A Pdelay_Req without flags has reached it. -/
def askedMaster : World :=
  peerMaster.holding (sampleMessage .PDELAY_REQ 0 9 5 (List.replicate 20 0))

/-- The answer to such an ordinary request says that a Follow_Up comes, and none does. -/
theorem ordinary_request_not_followed_up :
    Reachable peerMaster ∧ askedMaster.answersPDelayReq false ∧
      ¬ AnswersMatch askedMaster (handlePDelayReq ⟨100, 0⟩ false askedMaster) := by
  have hreach : Reachable peerMaster := reachable_sampleRun .P2P (by decide)
  have hanswers : askedMaster.answersPDelayReq false :=
    ⟨by decide +kernel, by decide +kernel, by decide +kernel, rfl⟩
  have hobuf : askedMaster.obufTwoStep = true := by decide +kernel
  have hrequest : askedMaster.isTwoStep = false := by decide +kernel
  have htx : askedMaster.platform.tx.head = .sent ⟨100, 5⟩ := by decide +kernel
  refine ⟨hreach, hanswers, ?_⟩
  rw [handlePDelayReq_eq hanswers]
  generalize askedMaster = w at hobuf hrequest htx ⊢
  rw [hrequest, if_neg (by simp), answersMatch_alone rfl]
  intro h
  exact h hobuf _ htx

end Ptpd
