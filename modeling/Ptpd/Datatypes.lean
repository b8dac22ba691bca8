import Mathlib.Data.Stream.Init
import Ptpd.Constants
import Ptpd.Lib.Octets

/-! # Data types

    The structures of `datatypes.h` and `dep/datatypes_dep.h`. Unsigned fields
    have the machine's own type; signed fields are `Int` and every operation
    that can leave their range wraps explicitly. Pointers to one fixed object
    (`rtOpts`, `foreignMasterDS.records`) are the object itself. The members of
    the union `msgTmp` are local to the handlers that fill and read them, save
    the `announce` member that `copyD0` fills.
-/

namespace Ptpd

open Octets

/-! ## Derived data types (5.3) -/

/-- 48-bit unsigned integer. -/
structure UInteger48 where
  lsb : UInt32
  msb : UInt16
deriving DecidableEq, Inhabited, Repr

/-- 5.3.3: a positive time with respect to the epoch. -/
structure Timestamp where
  secondsField : UInteger48
  nanosecondsField : UInt32
deriving DecidableEq, Inhabited, Repr

/-- 5.3.4: eight octets that identify a clock. -/
abbrev ClockIdentity := Vector UInt8 8

instance : Inhabited ClockIdentity := ⟨Vector.replicate 8 0⟩

/-- 5.3.5: a PTP port. -/
structure PortIdentity where
  clockIdentity : ClockIdentity
  portNumber : UInt16
deriving Inhabited, Repr

/-- Octet by octet, so that it can be evaluated on received messages. -/
instance : DecidableEq PortIdentity := fun a b =>
  decidable_of_iff
    (a.clockIdentity.toList = b.clockIdentity.toList ∧ a.portNumber = b.portNumber) <| by
    obtain ⟨_, _⟩ := a
    obtain ⟨_, _⟩ := b
    simp only [Vector.toList_inj, PortIdentity.mk.injEq]

/-- 5.3.7: the quality of a clock. -/
structure ClockQuality where
  clockClass : UInt8
  clockAccuracy : UInt8
  offsetScaledLogVariance : UInt16
deriving DecidableEq, Inhabited, Repr

/-- Time as the servo uses it: both parts are signed 32-bit. -/
structure TimeInternal where
  seconds : Int
  nanoseconds : Int
deriving DecidableEq, Inhabited, Repr

/-! ## Messages -/

/-- The common header of all PTP messages (Table 18). `correctionfield` is a
    signed 64-bit value, `logMessageInterval` a signed 8-bit one. -/
structure MsgHeader where
  transportSpecific : UInt8
  messageType : UInt8
  versionPTP : UInt8
  messageLength : UInt16
  domainNumber : UInt8
  flagField : Vector UInt8 2
  correctionfield : Int
  sourcePortIdentity : PortIdentity
  sequenceId : UInt16
  controlField : UInt8
  logMessageInterval : Int
deriving DecidableEq, Repr

instance : Inhabited MsgHeader :=
  ⟨⟨0, 0, 0, 0, 0, #v[0, 0], 0, default, 0, 0, 0⟩⟩

/-- Announce message fields (Table 25). -/
structure MsgAnnounce where
  originTimestamp : Timestamp
  currentUtcOffset : Int
  grandmasterPriority1 : UInt8
  grandmasterClockQuality : ClockQuality
  grandmasterPriority2 : UInt8
  grandmasterIdentity : ClockIdentity
  stepsRemoved : UInt16
  timeSource : UInt8
deriving DecidableEq, Inhabited, Repr

/-- Sync message fields (Table 26). -/
structure MsgSync where
  originTimestamp : Timestamp
deriving DecidableEq, Repr

/-- DelayReq message fields (Table 26). -/
structure MsgDelayReq where
  originTimestamp : Timestamp
deriving DecidableEq, Repr

/-- DelayResp message fields (Table 30). -/
structure MsgDelayResp where
  receiveTimestamp : Timestamp
  requestingPortIdentity : PortIdentity
deriving DecidableEq, Repr

/-- FollowUp message fields (Table 27). -/
structure MsgFollowUp where
  preciseOriginTimestamp : Timestamp
deriving DecidableEq, Repr

/-- PDelayReq message fields (Table 29). -/
structure MsgPDelayReq where
  originTimestamp : Timestamp
deriving DecidableEq, Repr

/-- PDelayResp message fields (Table 30). -/
structure MsgPDelayResp where
  requestReceiptTimestamp : Timestamp
  requestingPortIdentity : PortIdentity
deriving DecidableEq, Repr

/-- PDelayRespFollowUp message fields (Table 31). -/
structure MsgPDelayRespFollowUp where
  responseOriginTimestamp : Timestamp
  requestingPortIdentity : PortIdentity
deriving DecidableEq, Repr

/-- Management message fields: a slave reports its offset and its address. -/
structure MsgManagement where
  ipaddr : UInt32
  toMasterOffset : Timestamp
deriving DecidableEq, Repr

/-! ## Data sets (clause 8) -/

/-- The default data set (8.2.1). -/
structure DefaultDS where
  twoStepFlag : Bool
  clockIdentity : ClockIdentity
  numberPorts : UInt16
  clockQuality : ClockQuality
  priority1 : UInt8
  priority2 : UInt8
  domainNumber : UInt8
  slaveOnly : Bool
deriving DecidableEq, Inhabited

/-- The current data set (8.2.2). -/
structure CurrentDS where
  stepsRemoved : UInt16
  offsetFromMaster : TimeInternal
  meanPathDelay : TimeInternal
deriving DecidableEq, Inhabited

/-- The parent data set (8.2.3). -/
structure ParentDS where
  parentPortIdentity : PortIdentity
  parentStats : Bool
  observedParentOffsetScaledLogVariance : Int
  observedParentClockPhaseChangeRate : Int
  grandmasterIdentity : ClockIdentity
  grandmasterClockQuality : ClockQuality
  grandmasterPriority1 : UInt8
  grandmasterPriority2 : UInt8
deriving DecidableEq, Inhabited

/-- The time properties data set (8.2.4). -/
structure TimePropertiesDS where
  currentUtcOffset : Int
  currentUtcOffsetValid : Bool
  leap59 : Bool
  leap61 : Bool
  timeTraceable : Bool
  frequencyTraceable : Bool
  ptpTimescale : Bool
  timeSource : UInt8
deriving DecidableEq, Inhabited

/-- The port data set (8.2.5). -/
structure PortDS where
  portIdentity : PortIdentity
  portState : PortState
  logMinDelayReqInterval : Int
  peerMeanPathDelay : TimeInternal
  logAnnounceInterval : Int
  announceReceiptTimeout : UInt8
  logSyncInterval : Int
  delayMechanism : DelayMechanism
  logMinPdelayReqInterval : Int
  versionNumber : UInt8
deriving DecidableEq

/-- Memory starts zeroed: `PTP_INITIALIZING` is 0, and 0 is no delay mechanism. -/
instance : Inhabited PortDS :=
  ⟨⟨default, .PTP_INITIALIZING, 0, default, 0, 0, 0, .DELAY_DISABLED, 0, 0⟩⟩

/-- One foreign master. -/
structure ForeignMasterRecord where
  foreignMasterPortIdentity : PortIdentity
  foreignMasterAnnounceMessages : UInt16
  announce : MsgAnnounce
  header : MsgHeader
deriving DecidableEq, Inhabited

/-- The foreign master data set. `records` is the statically allocated array;
    the indices never leave the range of their 16-bit types. -/
structure ForeignMasterDS where
  records : Nat → ForeignMasterRecord
  count : Nat
  capacity : Nat
  i : Nat
  best : Nat
deriving Inhabited

/-- Clock servo filters and PI regulator values. -/
structure Servo where
  noResetClock : Bool
  noAdjust : Bool
  ap : Int
  ai : Int
  sDelay : Int
  sOffset : Int
deriving DecidableEq, Inhabited

/-- Program options set at run time. -/
structure RunTimeOpts where
  announceInterval : Int
  syncInterval : Int
  clockQuality : ClockQuality
  priority1 : UInt8
  priority2 : UInt8
  domainNumber : UInt8
  slaveOnly : Bool
  currentUtcOffset : Int
  inboundLatency : TimeInternal
  outboundLatency : TimeInternal
  maxForeignRecords : Nat
  delayMechanism : DelayMechanism
  servo : Servo
deriving DecidableEq

instance : Inhabited RunTimeOpts :=
  ⟨⟨0, 0, default, 0, 0, 0, false, 0, default, default, 0, .DELAY_DISABLED, default⟩⟩

/-! ## Implementation-specific types -/

/-- State of an exponential smoothing filter. -/
structure Filter where
  y_prev : Int
  y_sum : Int
  s : Int
  s_prev : Int
  n : Int
deriving DecidableEq, Inhabited

/-- An interval timer, in milliseconds. -/
structure IntervalTimer where
  interval : Int
  left : Int
  expire : Bool
deriving DecidableEq, Inhabited

/-- A received packet: the payloads of its chain of segments, the total length
    lwIP computed, and the receive timestamp of the MAC. -/
structure Pbuf where
  payload : List (List UInt8)
  tot_len : Nat
  time_sec : Int
  time_nsec : Int
deriving DecidableEq, Inhabited

/-- Ring buffer of received packets. -/
structure BufQueue where
  pbuf : Nat → Pbuf
  get : Nat
  put : Nat
  count : Nat
deriving Inhabited

/-- The two receive queues of `NetPath`. Addresses and control blocks are left
    out: they are constant while the port runs. -/
structure NetPath where
  eventQ : BufQueue
  generalQ : BufQueue
deriving Inhabited

/-- The bits of `events` that the stack sets: each is one bit of the word. -/
structure Events where
  STATE_DECISION_EVENT : Bool
  SYNCHRONIZATION_FAULT : Bool
  MASTER_CLOCK_SELECTED : Bool
  MASTER_CLOCK_CHANGED : Bool
deriving DecidableEq, Inhabited

/-- One entry of the master's table of monitored slaves. -/
structure PtpControl where
  ipaddr : UInt32
  Offset : TimeInternal
  Time : UInt32
deriving DecidableEq, Inhabited

/-- Main program data structure. -/
structure PtpClock where
  defaultDS : DefaultDS
  currentDS : CurrentDS
  parentDS : ParentDS
  timePropertiesDS : TimePropertiesDS
  portDS : PortDS
  foreignMasterDS : ForeignMasterDS
  msgTmpHeader : MsgHeader
  msgTmpAnnounce : MsgAnnounce
  msgObuf : Buf
  msgIbuf : Buf
  msgIbufLength : Int
  Tms : TimeInternal
  Tsm : TimeInternal
  pdelay_t1 : TimeInternal
  pdelay_t2 : TimeInternal
  pdelay_t3 : TimeInternal
  pdelay_t4 : TimeInternal
  timestamp_syncRecieve : TimeInternal
  timestamp_delayReqSend : TimeInternal
  timestamp_delayReqRecieve : TimeInternal
  correctionField_sync : TimeInternal
  correctionField_pDelayResp : TimeInternal
  sentPDelayReqSequenceId : UInt16
  sentDelayReqSequenceId : UInt16
  sentSyncSequenceId : UInt16
  sentAnnounceSequenceId : UInt16
  recvSyncSequenceId : UInt16
  waitingForFollowUp : Bool
  waitingForPDelayRespFollowUp : Bool
  ofm_filt : Filter
  owd_filt : Filter
  observedDrift : Int
  messageActivity : Bool
  itimer : Timer → IntervalTimer
  netPath : NetPath
  recommendedState : PortState
  portUuidField : Vector UInt8 6
  inboundLatency : TimeInternal
  outboundLatency : TimeInternal
  servo : Servo
  events : Events
  rtOpts : RunTimeOpts

instance instInhabitedClockUuid : Inhabited (Vector UInt8 6) := ⟨Vector.replicate 6 0⟩

/-- The statically allocated clock before any code has run. -/
def PtpClock.zero : PtpClock where
  defaultDS := default
  currentDS := default
  parentDS := default
  timePropertiesDS := default
  portDS := default
  foreignMasterDS := default
  msgTmpHeader := default
  msgTmpAnnounce := default
  msgObuf := fun _ => 0
  msgIbuf := fun _ => 0
  msgIbufLength := 0
  Tms := default
  Tsm := default
  pdelay_t1 := default
  pdelay_t2 := default
  pdelay_t3 := default
  pdelay_t4 := default
  timestamp_syncRecieve := default
  timestamp_delayReqSend := default
  timestamp_delayReqRecieve := default
  correctionField_sync := default
  correctionField_pDelayResp := default
  sentPDelayReqSequenceId := 0
  sentDelayReqSequenceId := 0
  sentSyncSequenceId := 0
  sentAnnounceSequenceId := 0
  recvSyncSequenceId := 0
  waitingForFollowUp := false
  waitingForPDelayRespFollowUp := false
  ofm_filt := default
  owd_filt := default
  observedDrift := 0
  messageActivity := false
  itimer := fun _ => default
  netPath := default
  recommendedState := .PTP_INITIALIZING
  portUuidField := default
  inboundLatency := default
  outboundLatency := default
  servo := default
  events := default
  rtOpts := default

end Ptpd
