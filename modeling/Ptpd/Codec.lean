import Ptpd.Msg

/-! # The message codec

    What the decoders read from the octets that the packers wrote. All packers
    patch one buffer in place, so each result also says which octets of the
    buffer a packer leaves as it found them.
-/

namespace Ptpd

open Octets MachineInt

/-! ## Fields -/

theorem putTimestamp_other (buf : Buf) {off i : Nat} (t : Timestamp)
    (h : i < off ∨ off + 10 ≤ i) : putTimestamp buf off t i = buf i := by
  rw [putTimestamp, put32_other _ _ (by omega), put32_other _ _ (by omega),
    put16_other _ _ (by omega)]

theorem getTimestamp_congr {a b : Buf} {off : Nat}
    (h : ∀ i, off ≤ i → i < off + 10 → a i = b i) : getTimestamp a off = getTimestamp b off := by
  have hmsb : get16 a off = get16 b off :=
    get16_congr fun i hlo hhi => h i hlo (by omega)
  have hlsb : get32 a (off + 2) = get32 b (off + 2) :=
    get32_congr fun i hlo hhi => h i (by omega) (by omega)
  have hnano : get32 a (off + 6) = get32 b (off + 6) :=
    get32_congr fun i hlo hhi => h i (by omega) (by omega)
  rw [getTimestamp, getTimestamp, hmsb, hlsb, hnano]

@[simp] theorem getTimestamp_put (buf : Buf) (off : Nat) (t : Timestamp) :
    getTimestamp (putTimestamp buf off t) off = t := by
  have hmsb : flip16 (get16 (putTimestamp buf off t) off) = t.secondsField.msb := by
    rw [← htons_get16_put16 buf off t.secondsField.msb]
    refine congrArg htons (get16_congr ?_)
    intro i hlo hhi
    rw [putTimestamp, put32_other _ _ (by omega), put32_other _ _ (by omega)]
    rfl
  have hlsb : flip32 (get32 (putTimestamp buf off t) (off + 2)) = t.secondsField.lsb := by
    rw [← htonl_get32_put32 (put16 buf off (flip16 t.secondsField.msb)) (off + 2)
      t.secondsField.lsb]
    refine congrArg htonl (get32_congr ?_)
    intro i hlo hhi
    rw [putTimestamp, put32_other _ _ (by omega)]
    rfl
  have hnano : flip32 (get32 (putTimestamp buf off t) (off + 6)) = t.nanosecondsField :=
    htonl_get32_put32 _ _ _
  rw [getTimestamp, hmsb, hlsb, hnano]

theorem putPortIdentity_other (buf : Buf) {off i : Nat} (id : PortIdentity)
    (h : i < off ∨ off + 10 ≤ i) : putPortIdentity buf off id i = buf i := by
  rw [putPortIdentity, put16_other _ _ (by omega), putVec_other _ _ (by omega)]

theorem getPortIdentity_congr {a b : Buf} {off : Nat}
    (h : ∀ i, off ≤ i → i < off + 10 → a i = b i) :
    getPortIdentity a off = getPortIdentity b off := by
  have hclock : getVec 8 a off = getVec 8 b off :=
    getVec_congr fun i hlo hhi => h i hlo (by omega)
  have hport : get16 a (off + 8) = get16 b (off + 8) :=
    get16_congr fun i hlo hhi => h i (by omega) (by omega)
  rw [getPortIdentity, getPortIdentity, getClockIdentity, getClockIdentity, hclock, hport]

@[simp] theorem getPortIdentity_put (buf : Buf) (off : Nat) (id : PortIdentity) :
    getPortIdentity (putPortIdentity buf off id) off = id := by
  have hclock : getClockIdentity (putPortIdentity buf off id) off = id.clockIdentity := by
    rw [← getVec_putVec buf off id.clockIdentity]
    apply getVec_congr
    intro i hlo hhi
    rw [putPortIdentity, put16_other _ _ (by omega)]
  have hport : flip16 (get16 (putPortIdentity buf off id) (off + 8)) = id.portNumber :=
    htons_get16_put16 _ _ _
  rw [getPortIdentity, hclock, hport]

theorem putCorrectionField_other (buf : Buf) {i : Nat} (c : Int) (h : i < 8 ∨ 16 ≤ i) :
    putCorrectionField buf c i = buf i := by
  rw [putCorrectionField, put32_other _ _ (by omega), put32_other _ _ (by omega)]

theorem packCommon_other (buf : Buf) {i : Nat} (t : MessageType) (length : Nat)
    (sequenceId : UInt16) (control : UInt8) (interval : Int)
    (h : i ≠ 0 ∧ i ≠ 2 ∧ i ≠ 3 ∧ (i < 30 ∨ 34 ≤ i)) :
    packCommon buf t length sequenceId control interval i = buf i := by
  rw [packCommon, put8_other _ _ (by omega), put8_other _ _ (by omega),
    put16_other _ _ (by omega), put16_other _ _ (by omega), put8_other _ _ (by omega),
    put8_other _ _ (by omega)]

/-! ## Header -/

/-- The header is the first 34 octets. -/
theorem msgUnpackHeader_congr {a b : Buf} (h : ∀ i < 34, a i = b i) :
    msgUnpackHeader a = msgUnpackHeader b := by
  have hword : ∀ off, off + 1 < 34 → get16 a off = get16 b off := fun off hoff =>
    get16_congr fun i hlo hhi => h i (by omega)
  have hlong : ∀ off, off + 3 < 34 → get32 a off = get32 b off := fun off hoff =>
    get32_congr fun i hlo hhi => h i (by omega)
  have hflags : getVec 2 a 6 = getVec 2 b 6 := getVec_congr fun i hlo hhi => h i (by omega)
  have hid : getPortIdentity a 20 = getPortIdentity b 20 :=
    getPortIdentity_congr fun i hlo hhi => h i (by omega)
  simp only [msgUnpackHeader, h 0 (by omega), h 1 (by omega), h 4 (by omega), h 32 (by omega),
    h 33 (by omega), hword 2 (by omega), hword 30 (by omega), hlong 8 (by omega),
    hlong 12 (by omega), hflags, hid]

/-- The transport nibble survives a change of message type. -/
theorem transport_messageType (t : MessageType) (b : UInt8) :
    ((b &&& 0xF0) ||| t.code) >>> 4 = b >>> 4 := by
  have h : ∀ v : BitVec 8,
      ((UInt8.ofBitVec v &&& 0xF0) ||| t.code) >>> 4 = UInt8.ofBitVec v >>> 4 := by
    cases t <;> decide +kernel
  exact h b.toBitVec

theorem messageType_nibble (t : MessageType) (b : UInt8) :
    ((b &&& 0xF0) ||| t.code) &&& 0x0F = t.code := by
  have h : ∀ v : BitVec 8, ((UInt8.ofBitVec v &&& 0xF0) ||| t.code) &&& 0x0F = t.code := by
    cases t <;> decide +kernel
  exact h b.toBitVec

theorem toInteger8_ofInt (x : Int) : toInteger8 (UInt8.ofInt x) = wrapS 8 x := by
  have hcast : ((UInt8.ofInt x).toNat : Int) = x % 2 ^ 8 := by
    rw [UInt8.ofInt, UInt8.toNat_ofNat']
    omega
  rw [toInteger8, hcast, wrapS_emod]

theorem toInteger16_ofInt (x : Int) : toInteger16 (UInt16.ofInt x) = wrapS 16 x := by
  have hcast : ((UInt16.ofInt x).toNat : Int) = x % 2 ^ 16 := by
    rw [UInt16.ofInt, UInt16.toNat_ofNat']
    omega
  rw [toInteger16, hcast, wrapS_emod]

theorem msgUnpackHeader_packCommon (buf : Buf) (t : MessageType) (length : Nat)
    (sequenceId : UInt16) (control : UInt8) (interval : Int) :
    msgUnpackHeader (packCommon buf t length sequenceId control interval) =
      { msgUnpackHeader buf with
        messageType := t.code
        messageLength := UInt16.ofNat length
        sequenceId := sequenceId
        controlField := control
        logMessageInterval := wrapS 8 interval } := by
  -- the octets that are not the common fields are those of `buf`
  have hkeep : ∀ i, i ≠ 0 ∧ i ≠ 2 ∧ i ≠ 3 ∧ (i < 30 ∨ 34 ≤ i) →
      packCommon buf t length sequenceId control interval i = buf i := fun i h =>
    packCommon_other buf t length sequenceId control interval h
  have h0 : packCommon buf t length sequenceId control interval 0 =
      (buf 0 &&& 0xF0) ||| t.code := by
    rw [packCommon, put8_other _ _ (by omega), put8_other _ _ (by omega),
      put16_other _ _ (by omega), put16_other _ _ (by omega), put8_same, put8_same]
  have h32 : packCommon buf t length sequenceId control interval 32 = control := by
    rw [packCommon, put8_other _ _ (by omega), put8_same]
  have h33 : packCommon buf t length sequenceId control interval 33 = UInt8.ofInt interval := by
    rw [packCommon, put8_same]
  -- each field that was put is read back past the puts after it
  have hlength : flip16 (get16 (packCommon buf t length sequenceId control interval) 2) =
      UInt16.ofNat length := by
    refine (congrArg htons (get16_congr fun i hlo hhi => ?_)).trans
      (htons_get16_put16 (put8 (put8 buf 0 (buf 0 &&& 0xF0)) 0 ((buf 0 &&& 0xF0) ||| t.code)) 2
        (UInt16.ofNat length))
    rw [packCommon, put8_other _ _ (by omega), put8_other _ _ (by omega),
      put16_other _ _ (by omega), put8_same]
    rfl
  have hsequence : flip16 (get16 (packCommon buf t length sequenceId control interval) 30) =
      sequenceId := by
    refine (congrArg htons (get16_congr fun i hlo hhi => ?_)).trans
      (htons_get16_put16 (put16 (put8 (put8 buf 0 (buf 0 &&& 0xF0)) 0
        ((buf 0 &&& 0xF0) ||| t.code)) 2 (flip16 (UInt16.ofNat length))) 30 sequenceId)
    rw [packCommon, put8_other _ _ (by omega), put8_other _ _ (by omega), put8_same]
    rfl
  have hlong : ∀ off, 4 ≤ off → off + 3 < 30 →
      get32 (packCommon buf t length sequenceId control interval) off = get32 buf off :=
    fun off hlo hhi => get32_congr fun i _ _ => hkeep i (by omega)
  have hflags : getVec 2 (packCommon buf t length sequenceId control interval) 6 =
      getVec 2 buf 6 :=
    getVec_congr fun i _ _ => hkeep i (by omega)
  have hid : getPortIdentity (packCommon buf t length sequenceId control interval) 20 =
      getPortIdentity buf 20 :=
    getPortIdentity_congr fun i _ _ => hkeep i (by omega)
  simp only [msgUnpackHeader, h0, h32, h33, hlength, hsequence, hlong 8 (by omega) (by omega),
    hlong 12 (by omega) (by omega), hflags, hid, hkeep 1 (by omega), hkeep 4 (by omega),
    transport_messageType, messageType_nibble, toInteger8_ofInt]

/-- The header with another correction field. -/
theorem msgUnpackHeader_correctionField {a b : Buf} {c : Int}
    (h : ∀ i < 34, i < 8 ∨ 16 ≤ i → a i = b i)
    (hc : wrapS 64 ((flip32 (get32 a 8)).toNat * 2 ^ 32 + (flip32 (get32 a 12)).toNat) = c) :
    msgUnpackHeader a = { msgUnpackHeader b with correctionfield := c } := by
  have hword : ∀ off, 16 ≤ off ∧ off + 1 < 34 ∨ off + 1 < 8 → get16 a off = get16 b off :=
    fun off hoff => get16_congr fun i hlo hhi => h i (by omega) (by omega)
  have hflags : getVec 2 a 6 = getVec 2 b 6 :=
    getVec_congr fun i hlo hhi => h i (by omega) (by omega)
  have hid : getPortIdentity a 20 = getPortIdentity b 20 :=
    getPortIdentity_congr fun i hlo hhi => h i (by omega) (by omega)
  simp only [msgUnpackHeader, hc, h 0 (by omega) (by omega), h 1 (by omega) (by omega),
    h 4 (by omega) (by omega), h 32 (by omega) (by omega), h 33 (by omega) (by omega),
    hword 2 (by omega), hword 30 (by omega), hflags, hid]

theorem msgUnpackHeader_zero (buf : Buf) :
    msgUnpackHeader (zero buf 8 8) = { msgUnpackHeader buf with correctionfield := 0 } := by
  refine msgUnpackHeader_correctionField (fun i _ hi => zero_other buf (by omega)) ?_
  have hmsb : get32 (zero buf 8 8) 8 = 0 :=
    get32_zero fun i hlo hhi => zero_same buf hlo (by omega)
  have hlsb : get32 (zero buf 8 8) 12 = 0 :=
    get32_zero fun i hlo hhi => zero_same buf (by omega) (by omega)
  rw [hmsb, hlsb, show flip32 0 = 0 by decide]
  simp [wrapS]

/-- The two words of a correction field are read back as one signed number. -/
theorem msgUnpackHeader_putCorrectionField (buf : Buf) (c : Int) :
    msgUnpackHeader (putCorrectionField buf c) =
      { msgUnpackHeader buf with correctionfield := wrapS 64 c } := by
  refine msgUnpackHeader_correctionField
    (fun i _ hi => putCorrectionField_other buf c (by omega)) ?_
  have hmsb : flip32 (get32 (putCorrectionField buf c) 8) = UInt32.ofInt (c / 2 ^ 32) := by
    rw [← htonl_get32_put32 buf 8 (UInt32.ofInt (c / 2 ^ 32))]
    refine congrArg htonl (get32_congr ?_)
    intro i hlo hhi
    rw [putCorrectionField, put32_other _ _ (by omega)]
    rfl
  have hlsb : flip32 (get32 (putCorrectionField buf c) 12) = UInt32.ofInt c :=
    htonl_get32_put32 _ _ _
  rw [hmsb, hlsb]
  have hword : ∀ x : Int, ((UInt32.ofInt x).toNat : Int) = x % 2 ^ 32 := by
    intro x
    rw [UInt32.ofInt, UInt32.toNat_ofNat']
    omega
  rw [hword, hword, show (c / 2 ^ 32) % 2 ^ 32 * 2 ^ 32 + c % 2 ^ 32 = c % 2 ^ 64 by omega,
    wrapS_emod]

/-- What stands in the buffer once `msgPackHeader` has been through it. -/
structure HeaderPacked (c : PtpClock) (buf : Buf) : Prop where
  versionNumber : buf 1 = c.portDS.versionNumber
  domainNumber : buf 4 = c.defaultDS.domainNumber
  portIdentity : getPortIdentity buf 20 = c.portDS.portIdentity

theorem msgPackHeader_packed (c : PtpClock) (buf : Buf) :
    HeaderPacked c (msgPackHeader c buf) := by
  have hflag : ∀ (b : Buf) (i : Nat), i ≠ 6 →
      (if c.defaultDS.twoStepFlag then put8 b 6 FLAG0_TWO_STEP else b) i = b i := by
    intro b i hi
    split
    · exact put8_other _ _ hi
    · rfl
  constructor
  · rw [msgPackHeader, put8_other _ _ (by omega), putPortIdentity_other _ _ (by omega),
      zero_other _ (by omega), hflag _ _ (by omega), put8_other _ _ (by omega), put8_same]
  · rw [msgPackHeader, put8_other _ _ (by omega), putPortIdentity_other _ _ (by omega),
      zero_other _ (by omega), hflag _ _ (by omega), put8_same]
  · rw [msgPackHeader, getPortIdentity_congr fun i hlo hhi => put8_other _ _ (by omega),
      getPortIdentity_put]

/-! ## Messages -/

/-- A message to be packed, with what its packer is given besides the clock. -/
inductive Outgoing where
  | announce
  | sync (originTimestamp : Timestamp)
  | delayReq (originTimestamp : Timestamp)
  | followUp (preciseOriginTimestamp : Timestamp)
  | delayResp (header : MsgHeader) (receiveTimestamp : Timestamp)
  | pDelayReq (originTimestamp : Timestamp)
  | pDelayResp (header : MsgHeader) (requestReceiptTimestamp : Timestamp)
  | pDelayRespFollowUp (header : MsgHeader) (responseOriginTimestamp : Timestamp)
  | management (offset : Timestamp) (local_ip : UInt32)

namespace Outgoing

/-- The packer of the message. -/
def pack (c : PtpClock) (buf : Buf) : Outgoing → Buf
  | announce => msgPackAnnounce c buf
  | sync t => msgPackSync c buf t
  | delayReq t => msgPackDelayReq c buf t
  | followUp t => msgPackFollowUp c buf t
  | delayResp header t => msgPackDelayResp c buf header t
  | pDelayReq t => msgPackPDelayReq c buf t
  | pDelayResp header t => msgPackPDelayResp buf header t
  | pDelayRespFollowUp header t => msgPackPDelayRespFollowUp buf header t
  | management offset local_ip => msgPackManagement buf offset local_ip

def messageType : Outgoing → MessageType
  | announce => .ANNOUNCE
  | sync _ => .SYNC
  | delayReq _ => .DELAY_REQ
  | followUp _ => .FOLLOW_UP
  | delayResp .. => .DELAY_RESP
  | pDelayReq _ => .PDELAY_REQ
  | pDelayResp .. => .PDELAY_RESP
  | pDelayRespFollowUp .. => .PDELAY_RESP_FOLLOW_UP
  | management .. => .MANAGEMENT

/-- The number of octets that are sent. -/
def length : Outgoing → Nat
  | announce => ANNOUNCE_LENGTH
  | sync _ => SYNC_LENGTH
  | delayReq _ => DELAY_REQ_LENGTH
  | followUp _ => FOLLOW_UP_LENGTH
  | delayResp .. => DELAY_RESP_LENGTH
  | pDelayReq _ => PDELAY_REQ_LENGTH
  | pDelayResp .. => PDELAY_RESP_LENGTH
  | pDelayRespFollowUp .. => PDELAY_RESP_FOLLOW_UP_LENGTH
  | management .. => MANAGEMENT_LENGTH

theorem length_ge (m : Outgoing) : SYNC_LENGTH ≤ m.length := by
  cases m <;> simp only [length] <;> decide

/-- The correction field, where the packer sets one. -/
def correctionfield : Outgoing → Option Int
  | announce | followUp _ | management .. => none
  | sync _ | delayReq _ | pDelayReq _ | pDelayResp .. => some 0
  | delayResp header _ | pDelayRespFollowUp header _ => some (wrapS 64 header.correctionfield)

/-- The sequence number, where the packer sets one. -/
def sequenceId (c : PtpClock) : Outgoing → Option UInt16
  | announce => some c.sentAnnounceSequenceId
  | sync _ => some c.sentSyncSequenceId
  | delayReq _ => some c.sentDelayReqSequenceId
  | followUp _ => some (c.sentSyncSequenceId - 1)
  | pDelayReq _ => some c.sentPDelayReqSequenceId
  | delayResp header _ | pDelayResp header _ | pDelayRespFollowUp header _ =>
    some header.sequenceId
  | management .. => none

def controlField : Outgoing → UInt8
  | sync _ => CTRL_SYNC
  | delayReq _ => CTRL_DELAY_REQ
  | followUp _ => CTRL_FOLLOW_UP
  | delayResp .. => CTRL_DELAY_RESP
  | announce | pDelayReq _ | pDelayResp .. | pDelayRespFollowUp .. => CTRL_OTHER
  | management .. => CTRL_MANAGEMENT

def logMessageInterval (c : PtpClock) : Outgoing → Int
  | announce => c.portDS.logAnnounceInterval
  | sync _ | followUp _ => c.portDS.logSyncInterval
  | delayResp .. => c.portDS.logMinDelayReqInterval
  | delayReq _ | pDelayReq _ | pDelayResp .. | pDelayRespFollowUp .. | management .. => 0x7F

/-- The header that the packer leaves where `old` stood. -/
def header (c : PtpClock) (old : MsgHeader) (m : Outgoing) : MsgHeader :=
  { old with
    messageType := m.messageType.code
    messageLength := UInt16.ofNat m.length
    correctionfield := m.correctionfield.getD old.correctionfield
    sequenceId := (m.sequenceId c).getD old.sequenceId
    controlField := m.controlField
    logMessageInterval := wrapS 8 (m.logMessageInterval c) }

/-! The kinds that leave the correction field alone, spelled out. -/

theorem header_announce (c : PtpClock) (old : MsgHeader) :
    announce.header c old =
      { old with
        messageType := MessageType.ANNOUNCE.code
        messageLength := UInt16.ofNat ANNOUNCE_LENGTH
        sequenceId := c.sentAnnounceSequenceId
        controlField := CTRL_OTHER
        logMessageInterval := wrapS 8 c.portDS.logAnnounceInterval } := rfl

theorem header_followUp (c : PtpClock) (old : MsgHeader) (t : Timestamp) :
    (followUp t).header c old =
      { old with
        messageType := MessageType.FOLLOW_UP.code
        messageLength := UInt16.ofNat FOLLOW_UP_LENGTH
        sequenceId := c.sentSyncSequenceId - 1
        controlField := CTRL_FOLLOW_UP
        logMessageInterval := wrapS 8 c.portDS.logSyncInterval } := rfl

theorem header_management (c : PtpClock) (old : MsgHeader) (t : Timestamp) (local_ip : UInt32) :
    (management t local_ip).header c old =
      { old with
        messageType := MessageType.MANAGEMENT.code
        messageLength := UInt16.ofNat MANAGEMENT_LENGTH
        controlField := CTRL_MANAGEMENT
        logMessageInterval := wrapS 8 0x7F } := rfl

end Outgoing

/-- The bodies start after the header. -/
theorem msgUnpackHeader_putTimestamp (buf : Buf) {off : Nat} (t : Timestamp) (h : 34 ≤ off) :
    msgUnpackHeader (putTimestamp buf off t) = msgUnpackHeader buf :=
  msgUnpackHeader_congr fun i hi => putTimestamp_other buf t (by omega)

theorem msgUnpackHeader_putPortIdentity (buf : Buf) {off : Nat} (id : PortIdentity)
    (h : 34 ≤ off) : msgUnpackHeader (putPortIdentity buf off id) = msgUnpackHeader buf :=
  msgUnpackHeader_congr fun i hi => putPortIdentity_other buf id (by omega)

theorem msgPackAnnounce_other (c : PtpClock) (buf : Buf) {i : Nat} (hi : i < 34 ∨ i = 46) :
    msgPackAnnounce c buf i =
      packCommon buf .ANNOUNCE ANNOUNCE_LENGTH c.sentAnnounceSequenceId CTRL_OTHER
        c.portDS.logAnnounceInterval i := by
  rw [msgPackAnnounce, put8_other _ _ (by omega), put16_other _ _ (by omega),
    putVec_other _ _ (by omega), put8_other _ _ (by omega), put16_other _ _ (by omega),
    put8_other _ _ (by omega), put8_other _ _ (by omega), put8_other _ _ (by omega),
    put16_other _ _ (by omega), zero_other _ (by omega)]

/-- Management sets the common fields, the sequence number to what it was. -/
theorem msgPackManagement_other (buf : Buf) (offset : Timestamp) (local_ip : UInt32) {i : Nat}
    (hi : i < 34) :
    msgPackManagement buf offset local_ip i =
      packCommon buf .MANAGEMENT MANAGEMENT_LENGTH (flip16 (get16 buf 30)) CTRL_MANAGEMENT 0x7F
        i := by
  have hkeep : ∀ i, 30 ≤ i → i < 32 →
      put16 (put8 (put8 buf 0 (buf 0 &&& 0xF0)) 0
        (put8 buf 0 (buf 0 &&& 0xF0) 0 ||| MessageType.MANAGEMENT.code)) 2
        (flip16 (UInt16.ofNat MANAGEMENT_LENGTH)) i = buf i := by
    intro i hlo hhi
    rw [put16_other _ _ (by omega), put8_other _ _ (by omega), put8_other _ _ (by omega)]
  rw [msgPackManagement, put32_other _ _ (by omega), putTimestamp_other _ _ (by omega), packCommon,
    show flip16 (flip16 (get16 buf 30)) = htons (htons (get16 buf 30)) from rfl,
    put16_get16 hkeep]
  rfl

theorem msgUnpackHeader_zero_body (buf : Buf) {off n : Nat} (h : 34 ≤ off) :
    msgUnpackHeader (zero buf off n) = msgUnpackHeader buf :=
  msgUnpackHeader_congr fun _ hi => zero_other buf (by omega)

theorem msgUnpackHeader_msgPackAnnounce (c : PtpClock) (buf : Buf) :
    msgUnpackHeader (msgPackAnnounce c buf) =
      msgUnpackHeader (packCommon buf .ANNOUNCE ANNOUNCE_LENGTH c.sentAnnounceSequenceId CTRL_OTHER
        c.portDS.logAnnounceInterval) :=
  msgUnpackHeader_congr fun _ hi => msgPackAnnounce_other c buf (.inl hi)

theorem msgUnpackHeader_msgPackManagement (buf : Buf) (offset : Timestamp) (local_ip : UInt32) :
    msgUnpackHeader (msgPackManagement buf offset local_ip) =
      msgUnpackHeader (packCommon buf .MANAGEMENT MANAGEMENT_LENGTH
        (msgUnpackHeader buf).sequenceId CTRL_MANAGEMENT 0x7F) :=
  msgUnpackHeader_congr fun _ hi => msgPackManagement_other buf offset local_ip hi

/-- What a packer makes of the header. -/
theorem msgUnpackHeader_pack (c : PtpClock) (buf : Buf) (m : Outgoing) :
    msgUnpackHeader (m.pack c buf) = m.header c (msgUnpackHeader buf) := by
  -- peel off what each packer puts after the common fields, last first
  cases m with
  | announce =>
    rw [Outgoing.pack, msgUnpackHeader_msgPackAnnounce, msgUnpackHeader_packCommon,
      Outgoing.header_announce]
  | sync t =>
    rw [Outgoing.pack, msgPackSync, msgUnpackHeader_putTimestamp _ _ (by omega),
      msgUnpackHeader_zero, msgUnpackHeader_packCommon]
    rfl
  | delayReq t =>
    rw [Outgoing.pack, msgPackDelayReq, msgUnpackHeader_putTimestamp _ _ (by omega),
      msgUnpackHeader_zero, msgUnpackHeader_packCommon]
    rfl
  | followUp t =>
    rw [Outgoing.pack, msgPackFollowUp, msgUnpackHeader_putTimestamp _ _ (by omega),
      msgUnpackHeader_packCommon, Outgoing.header_followUp]
  | delayResp header t =>
    rw [Outgoing.pack, msgPackDelayResp, msgUnpackHeader_putPortIdentity _ _ (by omega),
      msgUnpackHeader_putTimestamp _ _ (by omega), msgUnpackHeader_putCorrectionField,
      msgUnpackHeader_zero, msgUnpackHeader_packCommon]
    rfl
  | pDelayReq t =>
    rw [Outgoing.pack, msgPackPDelayReq,
      msgUnpackHeader_zero_body _ (by omega),
      msgUnpackHeader_putTimestamp _ _ (by omega), msgUnpackHeader_zero,
      msgUnpackHeader_packCommon]
    rfl
  | pDelayResp header t =>
    rw [Outgoing.pack, msgPackPDelayResp, msgUnpackHeader_putPortIdentity _ _ (by omega),
      msgUnpackHeader_putTimestamp _ _ (by omega), msgUnpackHeader_zero,
      msgUnpackHeader_packCommon]
    rfl
  | pDelayRespFollowUp header t =>
    rw [Outgoing.pack, msgPackPDelayRespFollowUp, msgUnpackHeader_putPortIdentity _ _ (by omega),
      msgUnpackHeader_putTimestamp _ _ (by omega), msgUnpackHeader_putCorrectionField,
      msgUnpackHeader_packCommon]
    rfl
  | management offset local_ip =>
    rw [Outgoing.pack, msgUnpackHeader_msgPackManagement, msgUnpackHeader_packCommon,
      Outgoing.header_management]

/-! ## Bodies -/

/-- A cleared timestamp is zero. -/
theorem getTimestamp_zero (buf : Buf) (off : Nat) :
    getTimestamp (zero buf off 10) off = ⟨⟨0, 0⟩, 0⟩ := by
  have hmsb : get16 (zero buf off 10) off = 0 :=
    get16_zero fun i hlo hhi => zero_same buf hlo (by omega)
  have hlong : ∀ k, k ≤ 6 → get32 (zero buf off 10) (off + k) = 0 := fun k hk =>
    get32_zero fun i hlo hhi => zero_same buf (by omega) (by omega)
  rw [getTimestamp, hmsb, hlong 2 (by omega), hlong 6 (by omega)]
  rfl

/-- The body of an Announce field by field, in the order of the buffer. -/
theorem msgUnpackAnnounce_pack (c : PtpClock) (buf : Buf) :
    msgUnpackAnnounce (msgPackAnnounce c buf) =
      { originTimestamp := ⟨⟨0, 0⟩, 0⟩
        currentUtcOffset := wrapS 16 c.timePropertiesDS.currentUtcOffset
        grandmasterPriority1 := c.parentDS.grandmasterPriority1
        grandmasterClockQuality := c.defaultDS.clockQuality
        grandmasterPriority2 := c.parentDS.grandmasterPriority2
        grandmasterIdentity := c.parentDS.grandmasterIdentity
        stepsRemoved := c.currentDS.stepsRemoved
        timeSource := c.timePropertiesDS.timeSource } := by
  -- field by field: the puts after the field leave its octets alone
  have horigin : getTimestamp (msgPackAnnounce c buf) 34 = ⟨⟨0, 0⟩, 0⟩ := by
    refine (getTimestamp_congr fun i hlo hhi => ?_).trans (getTimestamp_zero
      (packCommon buf .ANNOUNCE ANNOUNCE_LENGTH c.sentAnnounceSequenceId CTRL_OTHER
        c.portDS.logAnnounceInterval) 34)
    rw [msgPackAnnounce, put8_other _ _ (by omega), put16_other _ _ (by omega),
      putVec_other _ _ (by omega), put8_other _ _ (by omega), put16_other _ _ (by omega),
      put8_other _ _ (by omega), put8_other _ _ (by omega), put8_other _ _ (by omega),
      put16_other _ _ (by omega)]
  have hutc : flip16 (get16 (msgPackAnnounce c buf) 44) =
      UInt16.ofInt c.timePropertiesDS.currentUtcOffset := by
    refine (congrArg htons (get16_congr fun i hlo hhi => ?_)).trans
      (htons_get16_put16 (zero (packCommon buf .ANNOUNCE ANNOUNCE_LENGTH c.sentAnnounceSequenceId
        CTRL_OTHER c.portDS.logAnnounceInterval) 34 10) 44 _)
    rw [msgPackAnnounce, put8_other _ _ (by omega), put16_other _ _ (by omega),
      putVec_other _ _ (by omega), put8_other _ _ (by omega), put16_other _ _ (by omega),
      put8_other _ _ (by omega), put8_other _ _ (by omega), put8_other _ _ (by omega)]
    rfl
  have hpriority1 : msgPackAnnounce c buf 47 = c.parentDS.grandmasterPriority1 := by
    rw [msgPackAnnounce, put8_other _ _ (by omega), put16_other _ _ (by omega),
      putVec_other _ _ (by omega), put8_other _ _ (by omega), put16_other _ _ (by omega),
      put8_other _ _ (by omega), put8_other _ _ (by omega), put8_same]
  have hclass : msgPackAnnounce c buf 48 = c.defaultDS.clockQuality.clockClass := by
    rw [msgPackAnnounce, put8_other _ _ (by omega), put16_other _ _ (by omega),
      putVec_other _ _ (by omega), put8_other _ _ (by omega), put16_other _ _ (by omega),
      put8_other _ _ (by omega), put8_same]
  have haccuracy : msgPackAnnounce c buf 49 = c.defaultDS.clockQuality.clockAccuracy := by
    rw [msgPackAnnounce, put8_other _ _ (by omega), put16_other _ _ (by omega),
      putVec_other _ _ (by omega), put8_other _ _ (by omega), put16_other _ _ (by omega),
      put8_same]
  have hvariance : flip16 (get16 (msgPackAnnounce c buf) 50) =
      c.defaultDS.clockQuality.offsetScaledLogVariance := by
    refine (congrArg htons (get16_congr fun i hlo hhi => ?_)).trans (htons_get16_put16
      (put8 (put8 (put8 (put16 (zero (packCommon buf .ANNOUNCE ANNOUNCE_LENGTH
        c.sentAnnounceSequenceId CTRL_OTHER c.portDS.logAnnounceInterval) 34 10) 44
        (flip16 (UInt16.ofInt c.timePropertiesDS.currentUtcOffset))) 47
        c.parentDS.grandmasterPriority1) 48 c.defaultDS.clockQuality.clockClass) 49
        c.defaultDS.clockQuality.clockAccuracy) 50 _)
    rw [msgPackAnnounce, put8_other _ _ (by omega), put16_other _ _ (by omega),
      putVec_other _ _ (by omega), put8_other _ _ (by omega)]
    rfl
  have hpriority2 : msgPackAnnounce c buf 52 = c.parentDS.grandmasterPriority2 := by
    rw [msgPackAnnounce, put8_other _ _ (by omega), put16_other _ _ (by omega),
      putVec_other _ _ (by omega), put8_same]
  -- what was put before the field does not matter
  have hidentity : getClockIdentity (msgPackAnnounce c buf) 53 =
      c.parentDS.grandmasterIdentity := by
    rw [msgPackAnnounce, getClockIdentity]
    generalize put8 _ 52 _ = b
    rw [← getVec_putVec b 53 c.parentDS.grandmasterIdentity]
    apply getVec_congr
    intro i hlo hhi
    rw [put8_other _ _ (by omega), put16_other _ _ (by omega), getVec_putVec]
  have hsteps : flip16 (get16 (msgPackAnnounce c buf) 61) = c.currentDS.stepsRemoved := by
    rw [msgPackAnnounce]
    generalize putVec _ 53 _ = b
    refine (congrArg htons (get16_congr fun i hlo hhi => ?_)).trans (htons_get16_put16 b 61 _)
    rw [put8_other _ _ (by omega)]
    rfl
  have hsource : msgPackAnnounce c buf 63 = c.timePropertiesDS.timeSource := by
    rw [msgPackAnnounce, put8_same]
  simp only [msgUnpackAnnounce, horigin, hutc, hpriority1, hclass, haccuracy, hvariance,
    hpriority2, hidentity, hsteps, hsource, toInteger16_ofInt]

theorem msgUnpackSync_pack (c : PtpClock) (buf : Buf) (t : Timestamp) :
    msgUnpackSync (msgPackSync c buf t) = ⟨t⟩ :=
  congrArg MsgSync.mk (getTimestamp_put _ _ _)

theorem msgUnpackDelayReq_pack (c : PtpClock) (buf : Buf) (t : Timestamp) :
    msgUnpackDelayReq (msgPackDelayReq c buf t) = ⟨t⟩ :=
  congrArg MsgDelayReq.mk (getTimestamp_put _ _ _)

theorem msgUnpackFollowUp_pack (c : PtpClock) (buf : Buf) (t : Timestamp) :
    msgUnpackFollowUp (msgPackFollowUp c buf t) = ⟨t⟩ :=
  congrArg MsgFollowUp.mk (getTimestamp_put _ _ _)

/-- A timestamp and the port identity after it. -/
theorem getTimestamp_putPortIdentity (buf : Buf) (t : Timestamp) (id : PortIdentity) :
    getTimestamp (putPortIdentity (putTimestamp buf 34 t) 44 id) 34 = t := by
  rw [getTimestamp_congr fun i hlo hhi => putPortIdentity_other _ id (by omega), getTimestamp_put]

theorem msgUnpackDelayResp_pack (c : PtpClock) (buf : Buf) (header : MsgHeader) (t : Timestamp) :
    msgUnpackDelayResp (msgPackDelayResp c buf header t) = ⟨t, header.sourcePortIdentity⟩ := by
  rw [msgUnpackDelayResp, msgPackDelayResp, getTimestamp_putPortIdentity, getPortIdentity_put]

theorem msgUnpackPDelayReq_pack (c : PtpClock) (buf : Buf) (t : Timestamp) :
    msgUnpackPDelayReq (msgPackPDelayReq c buf t) = ⟨t⟩ := by
  rw [msgUnpackPDelayReq, msgPackPDelayReq,
    getTimestamp_congr fun i hlo hhi => zero_other _ (by omega), getTimestamp_put]

theorem msgUnpackPDelayResp_pack (buf : Buf) (header : MsgHeader) (t : Timestamp) :
    msgUnpackPDelayResp (msgPackPDelayResp buf header t) = ⟨t, header.sourcePortIdentity⟩ := by
  rw [msgUnpackPDelayResp, msgPackPDelayResp, getTimestamp_putPortIdentity, getPortIdentity_put]

theorem msgUnpackPDelayRespFollowUp_pack (buf : Buf) (header : MsgHeader) (t : Timestamp) :
    msgUnpackPDelayRespFollowUp (msgPackPDelayRespFollowUp buf header t) =
      ⟨t, header.sourcePortIdentity⟩ := by
  rw [msgUnpackPDelayRespFollowUp, msgPackPDelayRespFollowUp, getTimestamp_putPortIdentity,
    getPortIdentity_put]

/-- What the decoder of the message finds in its body. -/
def Outgoing.BodyRecovered (c : PtpClock) (buf : Buf) : Outgoing → Prop
  | announce =>
    msgUnpackAnnounce buf =
      { originTimestamp := ⟨⟨0, 0⟩, 0⟩
        currentUtcOffset := c.timePropertiesDS.currentUtcOffset
        grandmasterPriority1 := c.parentDS.grandmasterPriority1
        grandmasterClockQuality := c.defaultDS.clockQuality
        grandmasterPriority2 := c.parentDS.grandmasterPriority2
        grandmasterIdentity := c.parentDS.grandmasterIdentity
        stepsRemoved := c.currentDS.stepsRemoved
        timeSource := c.timePropertiesDS.timeSource }
  | sync t => msgUnpackSync buf = ⟨t⟩
  | delayReq t => msgUnpackDelayReq buf = ⟨t⟩
  | followUp t => msgUnpackFollowUp buf = ⟨t⟩
  | delayResp header t => msgUnpackDelayResp buf = ⟨t, header.sourcePortIdentity⟩
  | pDelayReq t => msgUnpackPDelayReq buf = ⟨t⟩
  | pDelayResp header t => msgUnpackPDelayResp buf = ⟨t, header.sourcePortIdentity⟩
  | pDelayRespFollowUp header t =>
    msgUnpackPDelayRespFollowUp buf = ⟨t, header.sourcePortIdentity⟩
  | management offset local_ip => msgUnpackManagement buf = ⟨local_ip, offset⟩

theorem msgUnpackManagement_congr {a b : Buf} (h : ∀ i < MANAGEMENT_LENGTH, a i = b i) :
    msgUnpackManagement a = msgUnpackManagement b := by
  have hoffset : getTimestamp a 34 = getTimestamp b 34 :=
    getTimestamp_congr fun i _ hi => h i (Nat.lt_of_lt_of_le hi (by decide))
  have hip : get32 a 44 = get32 b 44 := get32_congr fun i _ hi => h i hi
  rw [msgUnpackManagement, msgUnpackManagement, hoffset, hip]

theorem msgUnpackManagement_pack (buf : Buf) (offset : Timestamp) (local_ip : UInt32) :
    msgUnpackManagement (msgPackManagement buf offset local_ip) = ⟨local_ip, offset⟩ := by
  have hoffset : getTimestamp (msgPackManagement buf offset local_ip) 34 = offset := by
    rw [msgPackManagement, getTimestamp_congr fun i hlo hhi => put32_other _ _ (by omega),
      getTimestamp_put]
  have hip : flip32 (get32 (msgPackManagement buf offset local_ip) 44) = local_ip :=
    htonl_get32_put32 _ _ _
  rw [msgUnpackManagement, hoffset, hip]

/-! ## Round trip -/

/-- The header of the request that the message answers. -/
def Outgoing.request : Outgoing → Option MsgHeader
  | delayResp header _ | pDelayResp header _ | pDelayRespFollowUp header _ => some header
  | _ => none

/-- The signed fields that go into the message fit their types. -/
structure Outgoing.Representable (c : PtpClock) (m : Outgoing) : Prop where
  interval : SRange 8 (m.logMessageInterval c)
  utcOffset : SRange 16 c.timePropertiesDS.currentUtcOffset
  correctionfield : ∀ header ∈ m.request, SRange 64 header.correctionfield

/-- No packer touches the octets that `msgPackHeader` set for good. -/
theorem pack_other (c : PtpClock) (buf : Buf) (m : Outgoing) {i : Nat}
    (hi : i = 1 ∨ 4 ≤ i ∧ i < 8 ∨ 16 ≤ i ∧ i < 30) : m.pack c buf i = buf i := by
  -- these octets lie outside the fields of every packer
  cases m with
  | announce =>
    rw [Outgoing.pack, msgPackAnnounce_other _ _ (by omega), packCommon_other _ _ _ _ _ _ (by omega)]
  | sync t =>
    rw [Outgoing.pack, msgPackSync, putTimestamp_other _ _ (by omega), zero_other _ (by omega),
      packCommon_other _ _ _ _ _ _ (by omega)]
  | delayReq t =>
    rw [Outgoing.pack, msgPackDelayReq, putTimestamp_other _ _ (by omega),
      zero_other _ (by omega), packCommon_other _ _ _ _ _ _ (by omega)]
  | followUp t =>
    rw [Outgoing.pack, msgPackFollowUp, putTimestamp_other _ _ (by omega),
      packCommon_other _ _ _ _ _ _ (by omega)]
  | delayResp header t =>
    rw [Outgoing.pack, msgPackDelayResp, putPortIdentity_other _ _ (by omega),
      putTimestamp_other _ _ (by omega), putCorrectionField_other _ _ (by omega),
      zero_other _ (by omega), packCommon_other _ _ _ _ _ _ (by omega)]
  | pDelayReq t =>
    rw [Outgoing.pack, msgPackPDelayReq, zero_other _ (by omega),
      putTimestamp_other _ _ (by omega), zero_other _ (by omega),
      packCommon_other _ _ _ _ _ _ (by omega)]
  | pDelayResp header t =>
    rw [Outgoing.pack, msgPackPDelayResp, putPortIdentity_other _ _ (by omega),
      putTimestamp_other _ _ (by omega), zero_other _ (by omega),
      packCommon_other _ _ _ _ _ _ (by omega)]
  | pDelayRespFollowUp header t =>
    rw [Outgoing.pack, msgPackPDelayRespFollowUp, putPortIdentity_other _ _ (by omega),
      putTimestamp_other _ _ (by omega), putCorrectionField_other _ _ (by omega),
      packCommon_other _ _ _ _ _ _ (by omega)]
  | management offset local_ip =>
    rw [Outgoing.pack, msgPackManagement_other _ _ _ (by omega),
      packCommon_other _ _ _ _ _ _ (by omega)]

theorem HeaderPacked.pack {c₀ : PtpClock} {buf : Buf} (h : HeaderPacked c₀ buf) (c : PtpClock)
    (m : Outgoing) : HeaderPacked c₀ (m.pack c buf) where
  versionNumber := (pack_other c buf m (by omega)).trans h.versionNumber
  domainNumber := (pack_other c buf m (by omega)).trans h.domainNumber
  portIdentity := by
    rw [getPortIdentity_congr fun i hlo hhi => pack_other c buf m (by omega), h.portIdentity]

/-- The buffer after messages have been packed into it, each by the clock as it then was. -/
def packAll (sent : List (PtpClock × Outgoing)) (buf : Buf) : Buf :=
  sent.foldl (fun buf s => s.2.pack s.1 buf) buf

theorem HeaderPacked.packAll {c₀ : PtpClock} {buf : Buf} (h : HeaderPacked c₀ buf)
    (sent : List (PtpClock × Outgoing)) : HeaderPacked c₀ (packAll sent buf) := by
  induction sent generalizing buf with
  | nil => exact h
  | cons s sent ih => exact ih (h.pack s.1 s.2)

/-- A version number is a nibble. -/
theorem versionNumber_nibble {v : UInt8} (h : v < 16) : v &&& 0x0F = v := by
  have hall : ∀ b : BitVec 8, UInt8.ofBitVec b < 16 →
      UInt8.ofBitVec b &&& 0x0F = UInt8.ofBitVec b := by
    decide +kernel
  exact hall v.toBitVec h

/-- A response carries the correction field of its request, where it carries one. -/
def Outgoing.CorrectionRecovered (buf : Buf) : Outgoing → Prop
  | delayResp header _ | pDelayRespFollowUp header _ =>
    (msgUnpackHeader buf).correctionfield = header.correctionfield
  | sync _ | delayReq _ | pDelayReq _ | pDelayResp .. => (msgUnpackHeader buf).correctionfield = 0
  | announce | followUp _ | management .. => True

/-- What the decoders recover of a message. `c₀` is the clock that packed the
    header, `c` the one that packed the message. -/
structure Outgoing.Recovered (c₀ c : PtpClock) (buf : Buf) (m : Outgoing) : Prop where
  messageType : MessageType.ofCode (msgUnpackHeader buf).messageType = some m.messageType
  messageLength : (msgUnpackHeader buf).messageLength.toNat = m.length
  versionPTP : (msgUnpackHeader buf).versionPTP = c₀.portDS.versionNumber
  domainNumber : (msgUnpackHeader buf).domainNumber = c₀.defaultDS.domainNumber
  sourcePortIdentity : (msgUnpackHeader buf).sourcePortIdentity = c₀.portDS.portIdentity
  sequenceId : ∀ s ∈ m.sequenceId c, (msgUnpackHeader buf).sequenceId = s
  correctionfield : m.CorrectionRecovered buf
  controlField : (msgUnpackHeader buf).controlField = m.controlField
  logMessageInterval : (msgUnpackHeader buf).logMessageInterval = m.logMessageInterval c
  body : m.BodyRecovered c buf

theorem Outgoing.correctionRecovered {c : PtpClock} {m : Outgoing} (hm : m.Representable c)
    (buf : Buf) : m.CorrectionRecovered (m.pack c buf) := by
  cases m with
  | announce => trivial
  | followUp t => trivial
  | management offset local_ip => trivial
  | sync t => exact congrArg MsgHeader.correctionfield (msgUnpackHeader_pack c buf (.sync t))
  | delayReq t => exact congrArg MsgHeader.correctionfield (msgUnpackHeader_pack c buf (.delayReq t))
  | pDelayReq t =>
    exact congrArg MsgHeader.correctionfield (msgUnpackHeader_pack c buf (.pDelayReq t))
  | pDelayResp header t =>
    exact congrArg MsgHeader.correctionfield (msgUnpackHeader_pack c buf (.pDelayResp header t))
  | delayResp header t =>
    exact (congrArg MsgHeader.correctionfield
      (msgUnpackHeader_pack c buf (.delayResp header t))).trans
      (wrapS_of_range (by decide) (hm.correctionfield header rfl))
  | pDelayRespFollowUp header t =>
    exact (congrArg MsgHeader.correctionfield
      (msgUnpackHeader_pack c buf (.pDelayRespFollowUp header t))).trans
      (wrapS_of_range (by decide) (hm.correctionfield header rfl))

theorem Outgoing.bodyRecovered {c : PtpClock} {m : Outgoing} (hm : m.Representable c)
    (buf : Buf) : m.BodyRecovered c (m.pack c buf) := by
  cases m with
  | announce =>
    have hutc : wrapS 16 c.timePropertiesDS.currentUtcOffset =
        c.timePropertiesDS.currentUtcOffset := wrapS_of_range (by decide) hm.utcOffset
    have hbody := msgUnpackAnnounce_pack c buf
    rw [hutc] at hbody
    exact hbody
  | sync t => exact msgUnpackSync_pack c buf t
  | delayReq t => exact msgUnpackDelayReq_pack c buf t
  | followUp t => exact msgUnpackFollowUp_pack c buf t
  | delayResp header t => exact msgUnpackDelayResp_pack c buf header t
  | pDelayReq t => exact msgUnpackPDelayReq_pack c buf t
  | pDelayResp header t => exact msgUnpackPDelayResp_pack buf header t
  | pDelayRespFollowUp header t => exact msgUnpackPDelayRespFollowUp_pack buf header t
  | management offset local_ip => exact msgUnpackManagement_pack buf offset local_ip

/-- Whatever was packed before, the decoders recover what the packer was given. -/
theorem codec_round_trip (c₀ : PtpClock) (buf : Buf) (sent : List (PtpClock × Outgoing))
    (c : PtpClock) (m : Outgoing) (hversion : c₀.portDS.versionNumber < 16)
    (hm : m.Representable c) :
    m.Recovered c₀ c (m.pack c (packAll sent (msgPackHeader c₀ buf))) := by
  have hpacked : HeaderPacked c₀ (packAll sent (msgPackHeader c₀ buf)) :=
    (msgPackHeader_packed c₀ buf).packAll sent
  generalize packAll sent (msgPackHeader c₀ buf) = b at hpacked
  -- what `msgPackHeader` wrote, the header the packer writes, and the body
  have hkept := hpacked.pack c m
  have hheader := msgUnpackHeader_pack c b m
  have hcorrection := Outgoing.correctionRecovered hm b
  have hbody := Outgoing.bodyRecovered hm b
  generalize m.pack c b = packed at hkept hheader hcorrection hbody ⊢
  generalize msgUnpackHeader b = old at hheader
  refine ⟨?_, ?_, ?_, hkept.domainNumber, hkept.portIdentity, ?_, hcorrection, ?_, ?_, hbody⟩
  · rw [hheader]
    exact MessageType.ofCode_code _
  · rw [hheader]
    cases m <;> rfl
  · rw [msgUnpackHeader, hkept.versionNumber]
    exact versionNumber_nibble hversion
  · intro s hs
    rw [hheader, Outgoing.header, Option.mem_def.mp hs]
    rfl
  · rw [hheader]
    rfl
  · rw [hheader]
    exact wrapS_of_range (by decide) hm.interval

/-- A Delay_Resp to a request with a negative correction, after a Sync. -/
theorem codec_round_trip_delayResp :
    Outgoing.Recovered PtpClock.zero PtpClock.zero
      (Outgoing.pack PtpClock.zero
        (packAll [(PtpClock.zero, .sync ⟨⟨1, 2⟩, 3⟩)] (msgPackHeader PtpClock.zero fun _ => 0))
        (.delayResp { (default : MsgHeader) with correctionfield := -65536 } ⟨⟨4, 5⟩, 6⟩))
      (.delayResp { (default : MsgHeader) with correctionfield := -65536 } ⟨⟨4, 5⟩, 6⟩) :=
  codec_round_trip _ _ _ _ _ (by decide) ⟨by decide, by decide, by
    rintro header ⟨⟩
    decide⟩

end Ptpd
