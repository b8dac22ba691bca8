import Ptpd.Refinement.Traffic

/-! # What a port sends

    Over whole runs: every message that is handed to `netSend` is one that the
    state and the delay mechanism of the port allow, and names the port as its
    source. Messages of its own are numbered without a gap. Answers and Follow_Ups
    stand right behind what they answer and follow. Where no buffer is left a
    message does not leave, and is counted and followed up all the same.
-/

namespace Ptpd

open PortState Octets History MachineInt

variable {w w' : World}

/-! ## The header that stands in the output buffer -/

/-- The output buffer holds the header of this port. -/
def World.Headed (w : World) : Prop := HeaderPacked w.toPtpClock w.msgObuf

theorem World.Headed.congr (h : w.Headed) (hline : w'.line.msgObuf = w.line.msgObuf)
    (hversion : w'.line.versionNumber = w.line.versionNumber)
    (hdomain : w'.line.domainNumber = w.line.domainNumber)
    (hidentity : w'.line.portIdentity = w.line.portIdentity) : w'.Headed := by
  have hbuf : w'.msgObuf = w.msgObuf := hline
  constructor
  · rw [hbuf]
    exact h.versionNumber.trans hversion.symm
  · rw [hbuf]
    exact h.domainNumber.trans hdomain.symm
  · rw [hbuf]
    exact h.portIdentity.trans hidentity.symm

theorem emit_headed (h : w.Headed) (m : Outgoing) : (w.emit m).Headed := by
  have hpacked := HeaderPacked.pack h w.toPtpClock m
  obtain ⟨hversion, hdomain, hidentity⟩ := hpacked
  cases m <;> exact ⟨hversion, hdomain, hidentity⟩

theorem enter_headed (h : w.Headed) (s : PortState) : (toState s w).Headed := by
  have hline := toState_line s w
  apply h.congr
  all_goals rw [hline]

theorem Exchange.headed (h : Exchange w w') (hw : w.Headed) : w'.Headed := by
  cases h with
  | muted h =>
    apply hw.congr
    all_goals rw [h.line]
  | takeIn p => exact hw.congr rfl rfl rfl rfl
  | nothing => exact hw.congr rfl rfl rfl rfl
  | fault => exact enter_headed hw PTP_FAULTY
  | receive => exact hw.congr rfl rfl rfl rfl
  | accept => exact hw.congr rfl rfl rfl rfl
  | emit m => exact emit_headed hw m

theorem arriveEvent_headed (h : w.Headed) (p : Pbuf) : (netRecvEventCallback p w).Headed := by
  unfold netRecvEventCallback
  dsimp only
  split
  · exact h.congr rfl rfl rfl rfl
  · exact h.congr rfl rfl rfl rfl

theorem arriveGeneral_headed (h : w.Headed) (p : Pbuf) : (netRecvGeneralCallback p w).Headed := by
  unfold netRecvGeneralCallback
  dsimp only
  split
  · exact h.congr rfl rfl rfl rfl
  · exact h.congr rfl rfl rfl rfl

theorem Talk.headed (h : Talk w w') (hw : w.Headed) : w'.Headed := by
  cases h with
  | exchange h => exact h.headed hw
  | enter s => exact enter_headed hw s
  | initialise =>
    unfold Ptpd.initialise
    generalize m1 (initClock (initTimer (initData w))) = w₁
    obtain ⟨hversion, hdomain, hidentity⟩ := msgPackHeader_packed w₁.toPtpClock w₁.msgObuf
    exact ⟨hversion, hdomain, hidentity⟩

theorem Traffic.headed (h : Traffic w w') (hw : w.Headed) : w'.Headed := by
  cases h with
  | talk h => exact h.headed hw
  | arriveEvent p => exact arriveEvent_headed hw p
  | arriveGeneral p => exact arriveGeneral_headed hw p

theorem headed_zero (platform : Platform) : (World.zero platform).Headed := by
  constructor
  · rfl
  · rfl
  · have hzero : getPortIdentity PtpClock.zero.msgObuf 20 = PtpClock.zero.portDS.portIdentity := by
      decide +kernel
    exact hzero

theorem Reachable.headed (hw : Reachable w) : w.Headed :=
  hw.of_traffic World.Headed headed_zero fun _ _ => Traffic.headed

/-! ## One step -/

/-- The messages that a port numbers by itself. -/
def MessageType.numbered : MessageType → Bool
  | .ANNOUNCE | .SYNC | .DELAY_REQ | .PDELAY_REQ => true
  | _ => false

/-- The number of the next message of this type. -/
def PtpClock.nextSequenceId (c : PtpClock) : MessageType → UInt16
  | .ANNOUNCE => c.sentAnnounceSequenceId
  | .SYNC => c.sentSyncSequenceId
  | .DELAY_REQ => c.sentDelayReqSequenceId
  | .PDELAY_REQ => c.sentPDelayReqSequenceId
  | _ => 0

theorem nextSequenceId_congr {c c' : PtpClock} (h : c'.line = c.line) :
    c'.nextSequenceId = c.nextSequenceId := by
  funext t
  cases t
  case ANNOUNCE => exact congrArg Line.sentAnnounceSequenceId h
  case SYNC => exact congrArg Line.sentSyncSequenceId h
  case DELAY_REQ => exact congrArg Line.sentDelayReqSequenceId h
  case PDELAY_REQ => exact congrArg Line.sentPDelayReqSequenceId h
  all_goals rfl

/-- No message was handed over, and none is counted. -/
structure Silent (w w' : World) : Prop where
  log : ∃ new, w'.log = new ++ w.log ∧ ∀ x ∈ new, x.message? = none
  nextSequenceId : w'.nextSequenceId = w.nextSequenceId

theorem Call.mute.message? {x : LogEntry} (h : x.call.mute) : x.message? = none := by
  unfold LogEntry.message?
  split
  · next hcall =>
    rw [hcall] at h
    exact h.elim
  · rfl

theorem Grows.message? (h : Grows Call.mute w w') :
    ∃ new, w'.log = new ++ w.log ∧ ∀ x ∈ new, x.message? = none := by
  obtain ⟨new, hlog, hnew⟩ := h
  exact ⟨new, hlog, fun x hx => (hnew x hx).message?⟩

theorem Muted.silent (h : Muted w w') : Silent w w' :=
  ⟨h.grows.message?, nextSequenceId_congr h.line⟩

theorem Silent.of_eq (hlog : w'.log = w.log) (hnumber : w'.nextSequenceId = w.nextSequenceId) :
    Silent w w' :=
  ⟨⟨[], hlog, by simp⟩, hnumber⟩

theorem Silent.trans {w'' : World} (h : Silent w w') (h' : Silent w' w'') : Silent w w'' := by
  obtain ⟨⟨new, hlog, hnew⟩, hnumber⟩ := h
  obtain ⟨⟨new', hlog', hnew'⟩, hnumber'⟩ := h'
  refine ⟨⟨new' ++ new, by rw [hlog', hlog, List.append_assoc], ?_⟩, hnumber'.trans hnumber⟩
  exact List.forall_mem_append.mpr ⟨hnew', hnew⟩

theorem enter_silent (s : PortState) (w : World) : Silent w (toState s w) := by
  refine ⟨(toState_mute s w).message?, ?_⟩
  have hline := toState_line s w
  funext t
  cases t
  case ANNOUNCE => exact congrArg Line.sentAnnounceSequenceId hline
  case SYNC => exact congrArg Line.sentSyncSequenceId hline
  case DELAY_REQ => exact congrArg Line.sentDelayReqSequenceId hline
  case PDELAY_REQ => exact congrArg Line.sentPDelayReqSequenceId hline
  all_goals rfl

theorem initialise_silent (w : World) : Silent w (initialise w) := by
  have hdata : Silent w (initTimer (initData w)) :=
    ⟨⟨[⟨.initData, w.toPtpClock⟩], rfl, by simp [LogEntry.message?]⟩, rfl⟩
  have hclock := hdata.trans (initClock_muted (initTimer (initData w))).silent
  unfold initialise
  generalize initClock (initTimer (initData w)) = w₁ at hclock ⊢
  exact hclock.trans (.of_eq rfl rfl)

theorem arriveEvent_silent (p : Pbuf) (w : World) : Silent w (netRecvEventCallback p w) := by
  unfold netRecvEventCallback
  dsimp only
  split
  · exact .of_eq rfl rfl
  · exact (record_muted w (.pbuf_free p) trivial).silent

theorem arriveGeneral_silent (p : Pbuf) (w : World) : Silent w (netRecvGeneralCallback p w) := by
  unfold netRecvGeneralCallback
  dsimp only
  split
  · exact .of_eq rfl rfl
  · exact (record_muted w (.pbuf_free p) trivial).silent

/-- Nothing is handed over, or one message that the code may send here. -/
theorem Talk.sent_cases (h : Talk w w') :
    Silent w w' ∨ ∃ m, m.May w.toPtpClock ∧ m.After w.toPtpClock w.log ∧ w' = w.emit m := by
  cases h with
  | exchange h =>
    cases h with
    | muted h => exact .inl h.silent
    | takeIn p => exact .inl (.of_eq rfl rfl)
    | nothing => exact .inl (.of_eq rfl rfl)
    | fault => exact .inl (enter_silent PTP_FAULTY w)
    | receive => exact .inl ⟨⟨[⟨.received _, _⟩], rfl, by simp [LogEntry.message?]⟩, rfl⟩
    | accept => exact .inl ⟨⟨[⟨.acceptAnnounce _ _, _⟩], rfl, by simp [LogEntry.message?]⟩, rfl⟩
    | emit m hmay hafter => exact .inr ⟨m, hmay, hafter, rfl⟩
  | enter s => exact .inl (enter_silent s w)
  | initialise => exact .inl (initialise_silent w)

theorem Traffic.sent_cases (h : Traffic w w') :
    Silent w w' ∨ ∃ m, m.May w.toPtpClock ∧ m.After w.toPtpClock w.log ∧ w' = w.emit m := by
  cases h with
  | talk h => exact h.sent_cases
  | arriveEvent p => exact .inl (arriveEvent_silent p w)
  | arriveGeneral p => exact .inl (arriveGeneral_silent p w)

/-- The entry of a message that is sent, as its receiver reads it. -/
theorem emitted_sends (m : Outgoing) (w : World) {t : MessageType} {buf : Buf} :
    (w.issued m.port m.group m m.length).HandsOver t buf ↔
      buf = bufOf (take m.length (m.pack w.toPtpClock w.msgObuf)) ∧ t = m.messageType :=
  issued_sends m.port m.group m w (le_trans (by decide) m.length_ge)

/-- The header of a message that is sent. -/
theorem emitted_header (m : Outgoing) (w : World) :
    msgUnpackHeader (bufOf (take m.length (m.pack w.toPtpClock w.msgObuf))) =
      m.header w.toPtpClock (msgUnpackHeader w.msgObuf) := by
  rw [msgUnpackHeader_bufOf _ (le_trans (by decide) m.length_ge), msgUnpackHeader_pack]

/-- What holds of entries that send nothing, and of every message the code may
    send, with the history before it, holds throughout. -/
theorem Reachable.every_sent (hw : Reachable w) {P : LogEntry → List LogEntry → Prop}
    (hother : ∀ x : LogEntry, x.message? = none → ∀ older, P x older)
    (hemit : ∀ (w : World) (m : Outgoing), w.Headed → m.May w.toPtpClock →
      m.After w.toPtpClock w.log → P (w.issued m.port m.group m m.length) w.log) :
    Every P w.log := by
  have hinv : w.Headed ∧ Every P w.log := by
    refine hw.of_traffic (fun w => w.Headed ∧ Every P w.log) ?_ ?_
    · intro platform
      exact ⟨headed_zero platform, every_nil⟩
    rintro w w' htraffic ⟨hheaded, hlog⟩
    refine ⟨htraffic.headed hheaded, ?_⟩
    rcases htraffic.sent_cases with ⟨⟨new, hnew, hnone⟩, -⟩ | ⟨m, hmay, hafter, rfl⟩
    · rw [hnew]
      exact hlog.append fun x hx older => hother x (hnone x hx) older
    · rw [World.emit_log]
      exact ⟨hemit w m hheaded hmay hafter, hlog⟩
  exact hinv.2

/-! ## Permission -/

/-- The octets are the message `m` of this clock, which may send it, on its port
    and to its group. -/
structure Outgoing.SentBy (m : Outgoing) (c : PtpClock) (port : UdpPort) (group : Group)
    (bytes : List UInt8) : Prop where
  may : m.May c
  port : port = m.port
  group : group = m.group
  length : bytes.length = m.length
  messageType : (msgUnpackHeader (bufOf bytes)).messageType = m.messageType.code
  messageLength : (msgUnpackHeader (bufOf bytes)).messageLength = UInt16.ofNat m.length
  controlField : (msgUnpackHeader (bufOf bytes)).controlField = m.controlField
  versionPTP : (msgUnpackHeader (bufOf bytes)).versionPTP = c.portDS.versionNumber &&& 0x0F
  domainNumber : (msgUnpackHeader (bufOf bytes)).domainNumber = c.defaultDS.domainNumber
  sourcePortIdentity :
    (msgUnpackHeader (bufOf bytes)).sourcePortIdentity = c.portDS.portIdentity

/-- In every run, whatever is sent is a message that the port may send in its
    state, in the name of the port that sends it. -/
theorem sends_permitted (hw : Reachable w) :
    ∀ x ∈ w.log, ∀ port group bytes result, x.call = .send port group bytes result →
      ∃ m : Outgoing, m.SentBy x.before port group bytes := by
  have hevery : Every (fun x _ => ∀ port group bytes result,
      x.call = .send port group bytes result →
        ∃ m : Outgoing, m.SentBy x.before port group bytes) w.log := by
    apply hw.every_sent
    · intro x hx older port group bytes result hcall
      rw [LogEntry.message?, hcall] at hx
      cases hx
    · intro w m hheaded hmay hafter port group bytes result hcall
      obtain ⟨rfl, rfl, rfl, -⟩ : m.port = port ∧ m.group = group ∧
          take m.length (m.pack w.toPtpClock w.msgObuf) = bytes ∧
            w.platform.tx.head = result := by
        injection hcall with h₁ h₂ h₃ h₄
        exact ⟨h₁, h₂, h₃, h₄⟩
      have hheader := emitted_header m w
      refine ⟨m, ⟨by cases m <;> exact hmay, rfl, rfl, take_length _ _, ?_, ?_, ?_, ?_, ?_, ?_⟩⟩
      · rw [hheader]
        rfl
      · rw [hheader]
        rfl
      · rw [hheader]
        rfl
      · rw [hheader]
        exact congrArg (· &&& 0x0F) hheaded.versionNumber
      · rw [hheader]
        exact hheaded.domainNumber
      · rw [hheader]
        exact hheaded.portIdentity
  intro x hx
  obtain ⟨newer, older, hlog⟩ := List.append_of_mem hx
  exact every_iff.mp hevery newer x older hlog

/-- A master has sent two Syncs and one Announce. -/
def announcing : World :=
  sampleRun .E2E [.doState, .catchAlarm 12000, .doState, .catchAlarm 1000, .doState,
    .catchAlarm 1000, .doState]

theorem reachable_announcing : Reachable announcing := reachable_sampleRun .E2E (by decide)

theorem sends_permitted_announcing :
    ∃ x ∈ announcing.log, ∃ port group bytes, ∃ m : Outgoing,
      m.SentBy x.before port group bytes := by
  obtain ⟨x, hx, hsome⟩ : ∃ x ∈ announcing.log, x.message?.isSome := by decide +kernel
  unfold LogEntry.message? at hsome
  split at hsome
  · next port group bytes result hcall =>
    exact ⟨x, hx, port, group, bytes,
      sends_permitted reachable_announcing x hx port group bytes result hcall⟩
  · cases hsome

/-! ## Numbering -/

/-- The type of the message that the call hands over. -/
def LogEntry.handedType? (x : LogEntry) : Option MessageType :=
  x.message?.bind fun buf => MessageType.ofCode (msgUnpackHeader buf).messageType

/-- How many messages of this type were handed to `netSend`. -/
def handedCount (t : MessageType) (log : List LogEntry) : Nat :=
  log.countP fun x => x.handedType? = some t

theorem handedCount_append {t : MessageType} {new log : List LogEntry}
    (hnew : ∀ x ∈ new, x.message? = none) : handedCount t (new ++ log) = handedCount t log := by
  have hzero : new.countP (fun x => x.handedType? = some t) = 0 := by
    apply List.countP_eq_zero.mpr
    intro x hx
    simp [LogEntry.handedType?, hnew x hx]
  rw [handedCount, List.countP_append, hzero, Nat.zero_add]
  rfl

theorem emitted_handedType (m : Outgoing) (w : World) :
    (w.issued m.port m.group m m.length).handedType? = some m.messageType := by
  have hsends := (emitted_sends m w).mpr ⟨rfl, rfl⟩
  unfold LogEntry.handedType?
  rw [hsends.1]
  exact hsends.2

theorem handedCount_emit (t : MessageType) (m : Outgoing) (w : World) :
    handedCount t (w.emit m).log =
      handedCount t w.log + if m.messageType = t then 1 else 0 := by
  rw [World.emit_log, handedCount, List.countP_cons, emitted_handedType]
  simp only [Option.some.injEq, decide_eq_true_eq]
  rfl

theorem emit_nextSequenceId {t : MessageType} (ht : t.numbered) (m : Outgoing) (w : World) :
    (w.emit m).nextSequenceId t =
      w.nextSequenceId t + if m.messageType = t then 1 else 0 := by
  have hadd : ∀ n : UInt16, n = n + 0 := fun n => (UInt16.add_zero n).symm
  cases t
  case ANNOUNCE => cases m <;> first | rfl | exact hadd _
  case SYNC => cases m <;> first | rfl | exact hadd _
  case DELAY_REQ => cases m <;> first | rfl | exact hadd _
  case PDELAY_REQ => cases m <;> first | rfl | exact hadd _
  all_goals cases ht

/-- A port numbers its own messages by its counters. -/
theorem sequenceId_nextSequenceId {m : Outgoing} (ht : m.messageType.numbered) (c : PtpClock) :
    m.sequenceId c = some (c.nextSequenceId m.messageType) := by
  cases m
  case announce | sync | delayReq | pDelayReq => rfl
  all_goals cases ht

/-- Of each kind the counter is the number of messages handed over so far, and so
    is the number in each message. -/
structure World.Tallied (w : World) : Prop where
  counter : ∀ t : MessageType, t.numbered →
    w.nextSequenceId t = UInt16.ofNat (handedCount t w.log)
  numbers : Every (fun x older => ∀ t : MessageType, t.numbered → ∀ buf, x.HandsOver t buf →
    (msgUnpackHeader buf).sequenceId = UInt16.ofNat (handedCount t older)) w.log

theorem tallied_zero (platform : Platform) : (World.zero platform).Tallied := by
  refine ⟨?_, every_nil⟩
  intro t ht
  cases t <;> rfl

theorem Traffic.tallied (h : Traffic w w') (hw : w.Tallied) : w'.Tallied := by
  rcases h.sent_cases with ⟨⟨new, hnew, hnone⟩, hnumber⟩ | ⟨m, -, -, rfl⟩
  · constructor
    · intro t ht
      rw [hnumber, hnew, handedCount_append hnone]
      exact hw.counter t ht
    · rw [hnew]
      apply hw.numbers.append
      intro x hx older t ht buf hsends
      rw [LogEntry.HandsOver, hnone x hx] at hsends
      cases hsends.1
  · constructor
    · intro t ht
      rw [emit_nextSequenceId ht, handedCount_emit, hw.counter t ht]
      split
      · exact (UInt16.ofNat_add _ 1).symm
      · exact UInt16.add_zero _
    · rw [World.emit_log]
      refine ⟨?_, hw.numbers⟩
      intro t ht buf hsends
      obtain ⟨rfl, rfl⟩ := (emitted_sends m w).mp hsends
      rw [emitted_header, ← hw.counter _ ht]
      exact congrArg (fun n : Option UInt16 => n.getD (msgUnpackHeader w.msgObuf).sequenceId)
        (sequenceId_nextSequenceId ht w.toPtpClock)

/-- In every run each Announce, Sync, Delay_Req and Pdelay_Req carries the number
    of messages of its kind that were handed to `netSend` before it, modulo 2^16:
    none is left out or used twice, through faults and restarts alike. -/
theorem numbered_without_gap (hw : Reachable w) :
    Every (fun x older => ∀ t : MessageType, t.numbered → ∀ buf, x.HandsOver t buf →
      (msgUnpackHeader buf).sequenceId = UInt16.ofNat (handedCount t older)) w.log :=
  (hw.of_traffic World.Tallied tallied_zero fun _ _ => Traffic.tallied).numbers

theorem numbered_without_gap_announcing :
    handedCount .SYNC announcing.log = 2 ∧ handedCount .ANNOUNCE announcing.log = 1 ∧
      Every (fun x older => ∀ t : MessageType, t.numbered → ∀ buf, x.HandsOver t buf →
        (msgUnpackHeader buf).sequenceId = UInt16.ofNat (handedCount t older)) announcing.log :=
  ⟨by decide +kernel, by decide +kernel, numbered_without_gap reachable_announcing⟩

/-! ## Answers and Follow_Ups -/

theorem msgUnpackDelayResp_bufOf {n : Nat} (buf : Buf) (h : 54 ≤ n) :
    msgUnpackDelayResp (bufOf (take n buf)) = msgUnpackDelayResp buf := by
  unfold msgUnpackDelayResp
  rw [getTimestamp_bufOf buf (by omega), getPortIdentity_bufOf buf (by omega)]

theorem msgUnpackPDelayResp_bufOf {n : Nat} (buf : Buf) (h : 54 ≤ n) :
    msgUnpackPDelayResp (bufOf (take n buf)) = msgUnpackPDelayResp buf := by
  unfold msgUnpackPDelayResp
  rw [getTimestamp_bufOf buf (by omega), getPortIdentity_bufOf buf (by omega)]

theorem msgUnpackPDelayRespFollowUp_bufOf {n : Nat} (buf : Buf) (h : 54 ≤ n) :
    msgUnpackPDelayRespFollowUp (bufOf (take n buf)) = msgUnpackPDelayRespFollowUp buf := by
  unfold msgUnpackPDelayRespFollowUp
  rw [getTimestamp_bufOf buf (by omega), getPortIdentity_bufOf buf (by omega)]

theorem msgUnpackFollowUp_bufOf {n : Nat} (buf : Buf) (h : 44 ≤ n) :
    msgUnpackFollowUp (bufOf (take n buf)) = msgUnpackFollowUp buf := by
  unfold msgUnpackFollowUp
  rw [getTimestamp_bufOf buf h]

/-- The entry is of a request received at `time`, and the message names its
    number and its sender. -/
structure LogEntry.AskedBy (t : MessageType) (time : TimeInternal) (sequenceId : UInt16)
    (requestingPortIdentity : PortIdentity) (x : LogEntry) : Prop where
  call : x.call = .received time
  handles : x.before.handles t
  sequenceId : sequenceId = x.before.msgTmpHeader.sequenceId
  sender : requestingPortIdentity = x.before.sender

/-- What an answer or a Follow_Up stands behind: the request, received when the
    answer says so; the Sync of its number, and if that left, the time at which it
    did; the response to the same request. -/
structure LogEntry.StandsBehind (x : LogEntry) (older : List LogEntry) : Prop where
  followUp : ∀ buf, x.HandsOver .FOLLOW_UP buf → ∃ y rest, older = y :: rest ∧
    (∃ sync, y.HandsOver .SYNC sync ∧
      (msgUnpackHeader buf).sequenceId = (msgUnpackHeader sync).sequenceId) ∧
    ∀ port group bytes tx, y.call = .send port group bytes (.sent tx) →
      ∃ stale, (msgUnpackFollowUp buf).preciseOriginTimestamp =
        fromInternalTime (addTime tx y.before.outboundLatency) stale
  delayResp : ∀ buf, x.HandsOver .DELAY_RESP buf → ∃ y rest time stale, older = y :: rest ∧
    y.AskedBy .DELAY_REQ time (msgUnpackHeader buf).sequenceId
      (msgUnpackDelayResp buf).requestingPortIdentity ∧
    (msgUnpackDelayResp buf).receiveTimestamp = fromInternalTime time stale
  pDelayResp : ∀ buf, x.HandsOver .PDELAY_RESP buf → ∃ y rest time stale, older = y :: rest ∧
    y.AskedBy .PDELAY_REQ time (msgUnpackHeader buf).sequenceId
      (msgUnpackPDelayResp buf).requestingPortIdentity ∧
    (msgUnpackPDelayResp buf).requestReceiptTimestamp = fromInternalTime time stale
  pDelayRespFollowUp : ∀ buf, x.HandsOver .PDELAY_RESP_FOLLOW_UP buf → ∃ z y rest time resp,
    older = z :: y :: rest ∧ z.HandsOver .PDELAY_RESP resp ∧
    y.AskedBy .PDELAY_REQ time (msgUnpackHeader buf).sequenceId
      (msgUnpackPDelayRespFollowUp buf).requestingPortIdentity

/-- Only the part about the type that was handed over says something. -/
theorem standsBehind_of_none {x : LogEntry} (h : x.message? = none) (older : List LogEntry) :
    x.StandsBehind older := by
  have hnot : ∀ t buf, ¬ x.HandsOver t buf := by
    intro t buf hsends
    rw [LogEntry.HandsOver, h] at hsends
    cases hsends.1
  exact ⟨fun buf hs => absurd hs (hnot _ _), fun buf hs => absurd hs (hnot _ _),
    fun buf hs => absurd hs (hnot _ _), fun buf hs => absurd hs (hnot _ _)⟩

/-- What the number in a message says. -/
theorem emitted_sequenceId {m : Outgoing} {n : UInt16} {w : World}
    (h : m.sequenceId w.toPtpClock = some n) :
    (msgUnpackHeader (bufOf (take m.length (m.pack w.toPtpClock w.msgObuf)))).sequenceId = n := by
  rw [emitted_header]
  exact congrArg (fun k : Option UInt16 => k.getD (msgUnpackHeader w.msgObuf).sequenceId) h

theorem followUp_standsBehind {t : Timestamp}
    (h : (Outgoing.followUp t).After w.toPtpClock w.log) {buf : Buf}
    (hbuf : buf = bufOf (take FOLLOW_UP_LENGTH ((Outgoing.followUp t).pack w.toPtpClock w.msgObuf))) :
    ∃ y rest, w.log = y :: rest ∧
      (∃ sync, y.HandsOver .SYNC sync ∧
        (msgUnpackHeader buf).sequenceId = (msgUnpackHeader sync).sequenceId) ∧
      ∀ port group bytes tx, y.call = .send port group bytes (.sent tx) →
        ∃ stale, (msgUnpackFollowUp buf).preciseOriginTimestamp =
          fromInternalTime (addTime tx y.before.outboundLatency) stale := by
  obtain ⟨y, rest, hlog, ⟨⟨w₀, origin, hy⟩, hcounted, htime⟩⟩ := h
  have hsync := (emitted_sends (.sync origin) w₀).mpr ⟨rfl, rfl⟩
  rw [show w₀.issued (Outgoing.sync origin).port (Outgoing.sync origin).group (.sync origin)
    (Outgoing.sync origin).length = y from hy.symm] at hsync
  refine ⟨y, rest, hlog, ⟨_, hsync, ?_⟩, ?_⟩
  · -- the Sync took the number before the present one
    have hnumber : w.sentSyncSequenceId - 1 = w₀.sentSyncSequenceId := by
      rw [hcounted, hy]
      exact UInt16.add_sub_cancel _ 1
    have hfollow : (msgUnpackHeader buf).sequenceId = w.sentSyncSequenceId - 1 := by
      rw [hbuf]
      exact emitted_sequenceId (m := .followUp t) rfl
    rw [hfollow, hnumber]
    exact (emitted_sequenceId (m := .sync origin) rfl).symm
  · intro port group bytes tx hcall
    obtain ⟨stale, ht⟩ := htime port group bytes tx hcall
    refine ⟨stale, ?_⟩
    rw [hbuf, msgUnpackFollowUp_bufOf _ (by decide), ← ht]
    exact congrArg MsgFollowUp.preciseOriginTimestamp (msgUnpackFollowUp_pack _ _ _)

theorem delayResp_standsBehind {header : MsgHeader} {t : Timestamp}
    (h : (Outgoing.delayResp header t).After w.toPtpClock w.log) {buf : Buf}
    (hbuf : buf = bufOf (take DELAY_RESP_LENGTH
      ((Outgoing.delayResp header t).pack w.toPtpClock w.msgObuf))) :
    ∃ y rest time stale, w.log = y :: rest ∧
      y.AskedBy .DELAY_REQ time (msgUnpackHeader buf).sequenceId
        (msgUnpackDelayResp buf).requestingPortIdentity ∧
      (msgUnpackDelayResp buf).receiveTimestamp = fromInternalTime time stale := by
  obtain ⟨y, rest, time, stale, hlog, ⟨hcall, hhandles, hheader⟩, ht⟩ := h
  have hnumber : (msgUnpackHeader buf).sequenceId = header.sequenceId := by
    rw [hbuf]
    exact emitted_sequenceId (m := .delayResp header t) rfl
  have hbody : msgUnpackDelayResp buf = ⟨t, header.sourcePortIdentity⟩ := by
    rw [hbuf, msgUnpackDelayResp_bufOf _ (by decide)]
    exact msgUnpackDelayResp_pack _ _ _ _
  refine ⟨y, rest, time, stale, hlog, ⟨hcall, hhandles, ?_, ?_⟩, ?_⟩
  · rw [hnumber, hheader]
  · rw [hbody, PtpClock.sender, hheader]
  · rw [hbody, ht]

theorem pDelayResp_standsBehind {header : MsgHeader} {t : Timestamp}
    (h : (Outgoing.pDelayResp header t).After w.toPtpClock w.log) {buf : Buf}
    (hbuf : buf = bufOf (take PDELAY_RESP_LENGTH
      ((Outgoing.pDelayResp header t).pack w.toPtpClock w.msgObuf))) :
    ∃ y rest time stale, w.log = y :: rest ∧
      y.AskedBy .PDELAY_REQ time (msgUnpackHeader buf).sequenceId
        (msgUnpackPDelayResp buf).requestingPortIdentity ∧
      (msgUnpackPDelayResp buf).requestReceiptTimestamp = fromInternalTime time stale := by
  obtain ⟨y, rest, time, stale, hlog, ⟨hcall, hhandles, hheader⟩, ht⟩ := h
  have hnumber : (msgUnpackHeader buf).sequenceId = header.sequenceId := by
    rw [hbuf]
    exact emitted_sequenceId (m := .pDelayResp header t) rfl
  have hbody : msgUnpackPDelayResp buf = ⟨t, header.sourcePortIdentity⟩ := by
    rw [hbuf, msgUnpackPDelayResp_bufOf _ (by decide)]
    exact msgUnpackPDelayResp_pack _ _ _
  refine ⟨y, rest, time, stale, hlog, ⟨hcall, hhandles, ?_, ?_⟩, ?_⟩
  · rw [hnumber, hheader]
  · rw [hbody, PtpClock.sender, hheader]
  · rw [hbody, ht]

theorem pDelayRespFollowUp_standsBehind {header : MsgHeader} {t : Timestamp}
    (h : (Outgoing.pDelayRespFollowUp header t).After w.toPtpClock w.log) {buf : Buf}
    (hbuf : buf = bufOf (take PDELAY_RESP_FOLLOW_UP_LENGTH
      ((Outgoing.pDelayRespFollowUp header t).pack w.toPtpClock w.msgObuf))) :
    ∃ z y rest time resp, w.log = z :: y :: rest ∧ z.HandsOver .PDELAY_RESP resp ∧
      y.AskedBy .PDELAY_REQ time (msgUnpackHeader buf).sequenceId
        (msgUnpackPDelayRespFollowUp buf).requestingPortIdentity := by
  obtain ⟨w₀, t₀, y, rest, time, hlog, ⟨hcall, hhandles, hheader⟩⟩ := h
  have hnumber : (msgUnpackHeader buf).sequenceId = header.sequenceId := by
    rw [hbuf]
    exact emitted_sequenceId (m := .pDelayRespFollowUp header t) rfl
  have hbody : msgUnpackPDelayRespFollowUp buf = ⟨t, header.sourcePortIdentity⟩ := by
    rw [hbuf, msgUnpackPDelayRespFollowUp_bufOf _ (by decide)]
    exact msgUnpackPDelayRespFollowUp_pack _ _ _
  refine ⟨_, y, rest, time, _, hlog, (emitted_sends (.pDelayResp header t₀) w₀).mpr ⟨rfl, rfl⟩,
    ⟨hcall, hhandles, ?_, ?_⟩⟩
  · rw [hnumber, hheader]
  · rw [hbody, PtpClock.sender, hheader]

theorem Reachable.standsBehind (hw : Reachable w) : Every LogEntry.StandsBehind w.log := by
  apply hw.every_sent
  · intro x hx older
    exact standsBehind_of_none hx older
  · intro w m _ _ hafter
    constructor
    · intro buf hsends
      obtain ⟨hbuf, ht⟩ := (emitted_sends m w).mp hsends
      cases m
      case followUp t => exact followUp_standsBehind hafter hbuf
      all_goals cases ht
    · intro buf hsends
      obtain ⟨hbuf, ht⟩ := (emitted_sends m w).mp hsends
      cases m
      case delayResp header t => exact delayResp_standsBehind hafter hbuf
      all_goals cases ht
    · intro buf hsends
      obtain ⟨hbuf, ht⟩ := (emitted_sends m w).mp hsends
      cases m
      case pDelayResp header t => exact pDelayResp_standsBehind hafter hbuf
      all_goals cases ht
    · intro buf hsends
      obtain ⟨hbuf, ht⟩ := (emitted_sends m w).mp hsends
      cases m
      case pDelayRespFollowUp header t => exact pDelayRespFollowUp_standsBehind hafter hbuf
      all_goals cases ht

/-- In every run a Delay_Resp or Pdelay_Resp stands right behind the request that
    it answers, a Follow_Up right behind its Sync, and a Pdelay_Resp_Follow_Up
    right behind the response to the same request. -/
theorem answers_stand_behind (hw : Reachable w) : Every LogEntry.StandsBehind w.log :=
  hw.standsBehind

/-- The master has also been asked for the delay, once. -/
def answering : World :=
  sampleRun .E2E [.doState, .catchAlarm 12000, .doState, .catchAlarm 1000, .doState,
    .netRecvEventCallback (samplePacket (sampleMessage .DELAY_REQ 0 9 7 (List.replicate 10 0)) 50),
    .doState]

theorem reachable_answering : Reachable answering := reachable_sampleRun .E2E (by decide)

theorem answers_stand_behind_answering :
    handedCount .DELAY_RESP answering.log = 1 ∧ Every LogEntry.StandsBehind answering.log :=
  ⟨by decide +kernel, answers_stand_behind reachable_answering⟩

/-! ## How many answers -/

/-- The type of the message that is about to be handled. -/
def LogEntry.receivedType? (x : LogEntry) : Option MessageType :=
  match x.call with
  | .received _ => MessageType.ofCode x.before.msgTmpHeader.messageType
  | _ => none

/-- How many messages of this type were handled. -/
def receivedCount (t : MessageType) (log : List LogEntry) : Nat :=
  log.countP fun x => x.receivedType? = some t

theorem handedType_iff {x : LogEntry} {t : MessageType} :
    x.handedType? = some t ↔ ∃ buf, x.HandsOver t buf := by
  unfold LogEntry.handedType? LogEntry.HandsOver
  rw [Option.bind_eq_some_iff]

theorem LogEntry.AskedBy.receivedType {x : LogEntry} {t : MessageType} {time : TimeInternal}
    {n : UInt16} {id : PortIdentity} (h : x.AskedBy t time n id) : x.receivedType? = some t := by
  unfold LogEntry.receivedType?
  rw [h.call]
  exact h.handles

/-- A message that is received is not one that is sent. -/
theorem handedType_of_received {x : LogEntry} {t : MessageType} (h : x.receivedType? = some t) :
    x.handedType? = none := by
  unfold LogEntry.receivedType? at h
  split at h
  · next hcall =>
    unfold LogEntry.handedType? LogEntry.message?
    rw [hcall]
    rfl
  · cases h

/-- Answers of a type that stand right behind requests of another. -/
theorem handedCount_le_receivedCount {s t : MessageType} {log : List LogEntry}
    (h : Every (fun x older => ∀ buf, x.HandsOver s buf →
      ∃ y rest, older = y :: rest ∧ y.receivedType? = some t) log) :
    handedCount s log ≤ receivedCount t log := by
  apply Every.countP_le
  · intro x hx
    simp [handedType_of_received (of_decide_eq_true hx)]
  · apply h.imp
    intro x older hx hsent
    obtain ⟨buf, hsends⟩ := handedType_iff.mp (of_decide_eq_true hsent)
    obtain ⟨y, rest, hlog, hy⟩ := hx buf hsends
    exact ⟨y, rest, hlog, decide_eq_true hy⟩

/-- Follow_Ups of a type that stand right behind messages of another. -/
theorem handedCount_le_handedCount {s t : MessageType} (hne : s ≠ t) {log : List LogEntry}
    (h : Every (fun x older => ∀ buf, x.HandsOver s buf →
      ∃ y rest, older = y :: rest ∧ y.handedType? = some t) log) :
    handedCount s log ≤ handedCount t log := by
  apply Every.countP_le
  · intro x hx
    simp [of_decide_eq_true hx, hne.symm]
  · apply h.imp
    intro x older hx hsent
    obtain ⟨buf, hsends⟩ := handedType_iff.mp (of_decide_eq_true hsent)
    obtain ⟨y, rest, hlog, hy⟩ := hx buf hsends
    exact ⟨y, rest, hlog, decide_eq_true hy⟩

/-- A port is no amplifier: over every run it hands over no more answers of a kind than
    it has handled requests, and no more Follow_Ups than messages to be followed. -/
theorem answers_le_requests (hw : Reachable w) :
    handedCount .DELAY_RESP w.log ≤ receivedCount .DELAY_REQ w.log ∧
      handedCount .PDELAY_RESP w.log ≤ receivedCount .PDELAY_REQ w.log ∧
      handedCount .PDELAY_RESP_FOLLOW_UP w.log ≤ handedCount .PDELAY_RESP w.log ∧
      handedCount .FOLLOW_UP w.log ≤ handedCount .SYNC w.log := by
  have hbehind := hw.standsBehind
  refine ⟨?_, ?_, ?_, ?_⟩
  · apply handedCount_le_receivedCount
    apply hbehind.imp
    intro x older hx buf hsends
    obtain ⟨y, rest, time, stale, hlog, hasked, -⟩ := hx.delayResp buf hsends
    exact ⟨y, rest, hlog, hasked.receivedType⟩
  · apply handedCount_le_receivedCount
    apply hbehind.imp
    intro x older hx buf hsends
    obtain ⟨y, rest, time, stale, hlog, hasked, -⟩ := hx.pDelayResp buf hsends
    exact ⟨y, rest, hlog, hasked.receivedType⟩
  · apply handedCount_le_handedCount (by decide)
    apply hbehind.imp
    intro x older hx buf hsends
    obtain ⟨z, y, rest, time, resp, hlog, hz, -⟩ := hx.pDelayRespFollowUp buf hsends
    exact ⟨z, y :: rest, hlog, handedType_iff.mpr ⟨resp, hz⟩⟩
  · apply handedCount_le_handedCount (by decide)
    apply hbehind.imp
    intro x older hx buf hsends
    obtain ⟨y, rest, hlog, ⟨sync, hsync, -⟩, -⟩ := hx.followUp buf hsends
    exact ⟨y, rest, hlog, handedType_iff.mpr ⟨sync, hsync⟩⟩

theorem answers_le_requests_answering :
    handedCount .DELAY_RESP answering.log ≤ receivedCount .DELAY_REQ answering.log ∧
      handedCount .PDELAY_RESP answering.log ≤ receivedCount .PDELAY_REQ answering.log ∧
      handedCount .PDELAY_RESP_FOLLOW_UP answering.log ≤ handedCount .PDELAY_RESP answering.log ∧
      handedCount .FOLLOW_UP answering.log ≤ handedCount .SYNC answering.log :=
  answers_le_requests reachable_answering

end Ptpd
