import Ptpd.Datatypes
import Ptpd.Lib.MachineInt

/-! # Packing and unpacking messages (`dep/msg.c`)

    The machine is little-endian, so `flip16` and `flip32` are lwIP's byte
    swaps. A packer changes only the octets it names: what an earlier message
    left in the buffer stays, as in the source.
-/

namespace Ptpd

open Octets MachineInt

/-! ## Casts and byte order -/

def flip16 (n : UInt16) : UInt16 := htons n

def flip32 (n : UInt32) : UInt32 := htonl n

/-- A signed octet as `Integer8`. -/
def toInteger8 (v : UInt8) : Int := wrapS 8 v.toNat

/-- A 16-bit word as `Integer16`. -/
def toInteger16 (v : UInt16) : Int := wrapS 16 v.toNat

/-- `getVec` of a clock identity. -/
def getClockIdentity (buf : Buf) (off : Nat) : ClockIdentity := getVec 8 buf off

/-- A port identity: eight octets and a 16-bit port number in network order. -/
def getPortIdentity (buf : Buf) (off : Nat) : PortIdentity :=
  { clockIdentity := getClockIdentity buf off
    portNumber := flip16 (get16 buf (off + 8)) }

def putPortIdentity (buf : Buf) (off : Nat) (id : PortIdentity) : Buf :=
  put16 (putVec buf off id.clockIdentity) (off + 8) (flip16 id.portNumber)

/-- A timestamp: 48-bit seconds and 32-bit nanoseconds in network order. -/
def getTimestamp (buf : Buf) (off : Nat) : Timestamp :=
  { secondsField :=
      { msb := flip16 (get16 buf off), lsb := flip32 (get32 buf (off + 2)) }
    nanosecondsField := flip32 (get32 buf (off + 6)) }

def putTimestamp (buf : Buf) (off : Nat) (t : Timestamp) : Buf :=
  put32 (put32 (put16 buf off (flip16 t.secondsField.msb))
    (off + 2) (flip32 t.secondsField.lsb)) (off + 6) (flip32 t.nanosecondsField)

/-! ## Header -/

/-- Unpack the header from the IN buffer. The correction field is assembled
    from its high word, shifted, and its low word, both zero-extended. -/
def msgUnpackHeader (buf : Buf) : MsgHeader :=
  { transportSpecific := buf 0 >>> 4
    messageType := buf 0 &&& 0x0F
    versionPTP := buf 1 &&& 0x0F
    messageLength := flip16 (get16 buf 2)
    domainNumber := buf 4
    flagField := getVec 2 buf 6
    correctionfield :=
      wrapS 64 ((flip32 (get32 buf 8)).toNat * 2 ^ 32 + (flip32 (get32 buf 12)).toNat)
    sourcePortIdentity := getPortIdentity buf 20
    sequenceId := flip16 (get16 buf 30)
    controlField := buf 32
    logMessageInterval := toInteger8 (buf 33) }

/-- Pack the header into the OUT buffer. -/
def msgPackHeader (ptpClock : PtpClock) (buf : Buf) : Buf :=
  let buf := put8 buf 0 0x80
  let buf := put8 buf 1 ptpClock.portDS.versionNumber
  let buf := put8 buf 4 ptpClock.defaultDS.domainNumber
  let buf := if ptpClock.defaultDS.twoStepFlag then put8 buf 6 FLAG0_TWO_STEP else buf
  let buf := zero buf 8 8
  let buf := putPortIdentity buf 20 ptpClock.portDS.portIdentity
  put8 buf 33 0x7F

/-- The header fields every packer sets: message type (the transport nibble
    stays), length, sequence number, control field and message interval. -/
def packCommon (buf : Buf) (messageType : MessageType) (length : Nat) (sequenceId : UInt16)
    (controlField : UInt8) (logMessageInterval : Int) : Buf :=
  let buf := put8 buf 0 (buf 0 &&& 0xF0)
  let buf := put8 buf 0 (buf 0 ||| messageType.code)
  let buf := put16 buf 2 (flip16 (UInt16.ofNat length))
  let buf := put16 buf 30 (flip16 sequenceId)
  let buf := put8 buf 32 controlField
  put8 buf 33 (UInt8.ofInt logMessageInterval)

/-- Copy a 64-bit correction field as two 32-bit words. -/
def putCorrectionField (buf : Buf) (correctionfield : Int) : Buf :=
  put32 (put32 buf 8 (flip32 (UInt32.ofInt (correctionfield / 2 ^ 32))))
    12 (flip32 (UInt32.ofInt correctionfield))

/-! ## Announce -/

def msgPackAnnounce (ptpClock : PtpClock) (buf : Buf) : Buf :=
  let buf := packCommon buf .ANNOUNCE ANNOUNCE_LENGTH ptpClock.sentAnnounceSequenceId
    CTRL_OTHER ptpClock.portDS.logAnnounceInterval
  let buf := zero buf 34 10
  let buf := put16 buf 44 (flip16 (UInt16.ofInt ptpClock.timePropertiesDS.currentUtcOffset))
  let buf := put8 buf 47 ptpClock.parentDS.grandmasterPriority1
  let buf := put8 buf 48 ptpClock.defaultDS.clockQuality.clockClass
  let buf := put8 buf 49 ptpClock.defaultDS.clockQuality.clockAccuracy
  let buf := put16 buf 50 (flip16 ptpClock.defaultDS.clockQuality.offsetScaledLogVariance)
  let buf := put8 buf 52 ptpClock.parentDS.grandmasterPriority2
  let buf := putVec buf 53 ptpClock.parentDS.grandmasterIdentity
  let buf := put16 buf 61 (flip16 ptpClock.currentDS.stepsRemoved)
  put8 buf 63 ptpClock.timePropertiesDS.timeSource

def msgUnpackAnnounce (buf : Buf) : MsgAnnounce :=
  { originTimestamp := getTimestamp buf 34
    currentUtcOffset := toInteger16 (flip16 (get16 buf 44))
    grandmasterPriority1 := buf 47
    grandmasterClockQuality :=
      { clockClass := buf 48
        clockAccuracy := buf 49
        offsetScaledLogVariance := flip16 (get16 buf 50) }
    grandmasterPriority2 := buf 52
    grandmasterIdentity := getClockIdentity buf 53
    stepsRemoved := flip16 (get16 buf 61)
    timeSource := buf 63 }

/-! ## Sync, DelayReq and FollowUp -/

def msgPackSync (ptpClock : PtpClock) (buf : Buf) (originTimestamp : Timestamp) : Buf :=
  let buf := packCommon buf .SYNC SYNC_LENGTH ptpClock.sentSyncSequenceId
    CTRL_SYNC ptpClock.portDS.logSyncInterval
  let buf := zero buf 8 8
  putTimestamp buf 34 originTimestamp

def msgUnpackSync (buf : Buf) : MsgSync :=
  { originTimestamp := getTimestamp buf 34 }

def msgPackDelayReq (ptpClock : PtpClock) (buf : Buf) (originTimestamp : Timestamp) : Buf :=
  let buf := packCommon buf .DELAY_REQ DELAY_REQ_LENGTH ptpClock.sentDelayReqSequenceId
    CTRL_DELAY_REQ 0x7F
  let buf := zero buf 8 8
  putTimestamp buf 34 originTimestamp

def msgUnpackDelayReq (buf : Buf) : MsgDelayReq :=
  { originTimestamp := getTimestamp buf 34 }

/-- `sentSyncSequenceId` has already been incremented in `issueSync`. The
    correction field of the buffer is left as it was. -/
def msgPackFollowUp (ptpClock : PtpClock) (buf : Buf) (preciseOriginTimestamp : Timestamp) :
    Buf :=
  let buf := packCommon buf .FOLLOW_UP FOLLOW_UP_LENGTH (ptpClock.sentSyncSequenceId - 1)
    CTRL_FOLLOW_UP ptpClock.portDS.logSyncInterval
  putTimestamp buf 34 preciseOriginTimestamp

def msgUnpackFollowUp (buf : Buf) : MsgFollowUp :=
  { preciseOriginTimestamp := getTimestamp buf 34 }

/-! ## DelayResp -/

def msgPackDelayResp (ptpClock : PtpClock) (buf : Buf) (header : MsgHeader)
    (receiveTimestamp : Timestamp) : Buf :=
  let buf := packCommon buf .DELAY_RESP DELAY_RESP_LENGTH header.sequenceId
    CTRL_DELAY_RESP ptpClock.portDS.logMinDelayReqInterval
  let buf := zero buf 8 8
  let buf := putCorrectionField buf header.correctionfield
  let buf := putTimestamp buf 34 receiveTimestamp
  putPortIdentity buf 44 header.sourcePortIdentity

def msgUnpackDelayResp (buf : Buf) : MsgDelayResp :=
  { receiveTimestamp := getTimestamp buf 34
    requestingPortIdentity := getPortIdentity buf 44 }

/-! ## Peer delay messages -/

def msgPackPDelayReq (ptpClock : PtpClock) (buf : Buf) (originTimestamp : Timestamp) : Buf :=
  let buf := packCommon buf .PDELAY_REQ PDELAY_REQ_LENGTH ptpClock.sentPDelayReqSequenceId
    CTRL_OTHER 0x7F
  let buf := zero buf 8 8
  let buf := putTimestamp buf 34 originTimestamp
  zero buf 44 10

def msgUnpackPDelayReq (buf : Buf) : MsgPDelayReq :=
  { originTimestamp := getTimestamp buf 34 }

def msgPackPDelayResp (buf : Buf) (header : MsgHeader) (requestReceiptTimestamp : Timestamp) :
    Buf :=
  let buf := packCommon buf .PDELAY_RESP PDELAY_RESP_LENGTH header.sequenceId CTRL_OTHER 0x7F
  let buf := zero buf 8 8
  let buf := putTimestamp buf 34 requestReceiptTimestamp
  putPortIdentity buf 44 header.sourcePortIdentity

def msgUnpackPDelayResp (buf : Buf) : MsgPDelayResp :=
  { requestReceiptTimestamp := getTimestamp buf 34
    requestingPortIdentity := getPortIdentity buf 44 }

def msgPackPDelayRespFollowUp (buf : Buf) (header : MsgHeader)
    (responseOriginTimestamp : Timestamp) : Buf :=
  let buf := packCommon buf .PDELAY_RESP_FOLLOW_UP PDELAY_RESP_FOLLOW_UP_LENGTH
    header.sequenceId CTRL_OTHER 0x7F
  let buf := putCorrectionField buf header.correctionfield
  let buf := putTimestamp buf 34 responseOriginTimestamp
  putPortIdentity buf 44 header.sourcePortIdentity

def msgUnpackPDelayRespFollowUp (buf : Buf) : MsgPDelayRespFollowUp :=
  { responseOriginTimestamp := getTimestamp buf 34
    requestingPortIdentity := getPortIdentity buf 44 }

/-! ## Management -/

/-- No sequence number is set: the buffer keeps the one of the last message. -/
def msgPackManagement (buf : Buf) (offset : Timestamp) (local_ip : UInt32) : Buf :=
  let buf := put8 buf 0 (buf 0 &&& 0xF0)
  let buf := put8 buf 0 (buf 0 ||| MessageType.MANAGEMENT.code)
  let buf := put16 buf 2 (flip16 (UInt16.ofNat MANAGEMENT_LENGTH))
  let buf := put8 buf 32 CTRL_MANAGEMENT
  let buf := put8 buf 33 0x7F
  let buf := putTimestamp buf 34 offset
  put32 buf 44 (flip32 local_ip)

def msgUnpackManagement (buf : Buf) : MsgManagement :=
  { toMasterOffset := getTimestamp buf 34
    ipaddr := flip32 (get32 buf 44) }

end Ptpd
