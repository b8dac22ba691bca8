/-! # Constants and enumerations

    The values of `constants.h` and `dep/constants_dep.h` that the protocol
    engine uses, under their own names. Enumerations are inductive types;
    message types, which arrive as a nibble on the wire, keep their code.
-/

namespace Ptpd

/-! ## Default values -/

abbrev DEFAULT_INBOUND_LATENCY : Int := 0
abbrev DEFAULT_OUTBOUND_LATENCY : Int := 0
abbrev DEFAULT_UTC_VALID : Bool := false
abbrev DEFAULT_PDELAYREQ_INTERVAL : Int := 1
abbrev DEFAULT_DELAYREQ_INTERVAL : Int := 3
abbrev DEFAULT_ANNOUNCE_RECEIPT_TIMEOUT : UInt8 := 6
abbrev DEFAULT_QUALIFICATION_TIMEOUT : Int := -9
abbrev DEFAULT_CLOCK_CLASS_SLAVE_ONLY : UInt8 := 255
abbrev DEFAULT_MAX_FOREIGN_RECORDS : Nat := 5
abbrev DEFAULT_TWO_STEP_FLAG : Bool := true
abbrev DEFAULT_TIME_TRACEABLE : Bool := false
abbrev DEFAULT_FREQUENCY_TRACEABLE : Bool := false

/-- `DEFAULT_TIMESCALE == PTP_TIMESCALE` with `DEFAULT_TIMESCALE` = `ARB_TIMESCALE`. -/
abbrev DEFAULT_PTP_TIMESCALE : Bool := false

/-- `DEFAULT_TIME_SOURCE`, that is `INTERNAL_OSCILLATOR`. -/
abbrev DEFAULT_TIME_SOURCE : UInt8 := 0xA0

abbrev DEFAULT_CALIBRATED_OFFSET_NS : Int := 10000
abbrev DEFAULT_UNCALIBRATED_OFFSET_NS : Int := 1000000
abbrev MAX_ADJ_OFFSET_NS : Int := 100000000
abbrev ADJ_FREQ_MAX : Int := 512000

abbrev NUMBER_PORTS : UInt16 := 1
abbrev VERSION_PTP : UInt8 := 2

/-! ## Lengths -/

abbrev HEADER_LENGTH : Nat := 34
abbrev ANNOUNCE_LENGTH : Nat := 64
abbrev SYNC_LENGTH : Nat := 44
abbrev FOLLOW_UP_LENGTH : Nat := 44
abbrev PDELAY_REQ_LENGTH : Nat := 54
abbrev DELAY_REQ_LENGTH : Nat := 44
abbrev DELAY_RESP_LENGTH : Nat := 54
abbrev PDELAY_RESP_LENGTH : Nat := 54
abbrev PDELAY_RESP_FOLLOW_UP_LENGTH : Nat := 54
abbrev MANAGEMENT_LENGTH : Nat := 48

/-- Size of `msgIbuf` and `msgObuf`. -/
abbrev PACKET_SIZE : Nat := 300

abbrev PBUF_QUEUE_SIZE : Nat := 4

/-- Entries of the table of monitored slaves. -/
abbrev ptpMonitorlConstant : Nat := 16

/-! ## Enumerations -/

/-- PTP port state (Table 8). -/
inductive PortState where
  | PTP_INITIALIZING
  | PTP_FAULTY
  | PTP_DISABLED
  | PTP_LISTENING
  | PTP_PRE_MASTER
  | PTP_MASTER
  | PTP_PASSIVE
  | PTP_UNCALIBRATED
  | PTP_SLAVE
deriving DecidableEq, Repr

/-- Delay mechanism (Table 9). -/
inductive DelayMechanism where
  | E2E
  | P2P
  | DELAY_DISABLED
deriving DecidableEq, Repr

/-- Indices of the PTP timers. -/
inductive Timer where
  | PDELAYREQ_INTERVAL_TIMER
  | DELAYREQ_INTERVAL_TIMER
  | SYNC_INTERVAL_TIMER
  | ANNOUNCE_RECEIPT_TIMER
  | ANNOUNCE_INTERVAL_TIMER
  | MANAGEMENT_INTERVAL_TIMER
  | QUALIFICATION_TIMEOUT
deriving DecidableEq, Repr

/-- PTP message types (Table 19, with the repository's code for MANAGEMENT). -/
inductive MessageType where
  | SYNC
  | DELAY_REQ
  | PDELAY_REQ
  | PDELAY_RESP
  | MANAGEMENT
  | FOLLOW_UP
  | DELAY_RESP
  | PDELAY_RESP_FOLLOW_UP
  | ANNOUNCE
deriving DecidableEq, Repr

/-- The nibble a message type has on the wire. -/
def MessageType.code : MessageType → UInt8
  | SYNC => 0x0
  | DELAY_REQ => 0x1
  | PDELAY_REQ => 0x2
  | PDELAY_RESP => 0x3
  | MANAGEMENT => 0x4
  | FOLLOW_UP => 0x8
  | DELAY_RESP => 0x9
  | PDELAY_RESP_FOLLOW_UP => 0xA
  | ANNOUNCE => 0xB

/-- The message type of a nibble, if it is one of the enumeration. -/
def MessageType.ofCode (c : UInt8) : Option MessageType :=
  if c = 0x0 then some SYNC
  else if c = 0x1 then some DELAY_REQ
  else if c = 0x2 then some PDELAY_REQ
  else if c = 0x3 then some PDELAY_RESP
  else if c = 0x4 then some MANAGEMENT
  else if c = 0x8 then some FOLLOW_UP
  else if c = 0x9 then some DELAY_RESP
  else if c = 0xA then some PDELAY_RESP_FOLLOW_UP
  else if c = 0xB then some ANNOUNCE
  else none

@[simp] theorem MessageType.ofCode_code (t : MessageType) : ofCode t.code = some t := by
  cases t <;> rfl

/-! ## Control field and flags (Tables 20 and 23) -/

abbrev CTRL_SYNC : UInt8 := 0x00
abbrev CTRL_DELAY_REQ : UInt8 := 0x01
abbrev CTRL_FOLLOW_UP : UInt8 := 0x02
abbrev CTRL_DELAY_RESP : UInt8 := 0x03
abbrev CTRL_MANAGEMENT : UInt8 := 0x04
abbrev CTRL_OTHER : UInt8 := 0x05

abbrev FLAG0_TWO_STEP : UInt8 := 0x02

abbrev FLAG1_LEAP61 : UInt8 := 0x01
abbrev FLAG1_LEAP59 : UInt8 := 0x02
abbrev FLAG1_UTC_OFFSET_VALID : UInt8 := 0x04
abbrev FLAG1_PTP_TIMESCALE : UInt8 := 0x08
abbrev FLAG1_TIME_TRACEABLE : UInt8 := 0x10
abbrev FLAG1_FREQUENCY_TRACEABLE : UInt8 := 0x20

/-- All bits of `mask` are set in the flag octet. -/
def getFlag (flagField mask : UInt8) : Bool := flagField &&& mask == mask

end Ptpd
