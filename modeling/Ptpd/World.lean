import Ptpd.Datatypes

/-! # The world of one port

    `World` is the PTP clock together with everything outside it that the stack
    reads or drives: the millisecond counter of `timer.c`, the monitor table,
    and the platform (network interface, MAC clock, random numbers, stack
    memory) as streams of answers, one for each call that will be made. The
    whole run of a port is therefore a function of its first world and of the
    packets it is given.

    `log` is a history variable, newest entry first. Each entry names a call
    and keeps the clock as it was when the call was made; no code reads it.
    `armings` is another, of the timers that were started with a random interval.
-/

namespace Ptpd

open Octets

/-! ## Platform -/

/-- Outcome of one transmission: the three failure points of `netSend`, or the
    TX timestamp that `low_level_output` stored in the packet. -/
inductive SendResult where
  | allocFailed
  | takeFailed
  | sendFailed
  | sent (time : TimeInternal)
deriving DecidableEq, Inhabited

/-- What `netInit` finds: the interface and whether lwIP gives two UDP blocks. -/
structure Iface where
  hwaddr : Vector UInt8 6
  ip_addr : UInt32
  eventPcb : Bool
  generalPcb : Bool
deriving DecidableEq, Inhabited

/-- Answers of the platform to the calls still to come. -/
structure Platform where
  rand : Stream' Nat
  time : Stream' TimeInternal
  ptptshr : Stream' UInt32
  tx : Stream' SendResult
  iface : Stream' Iface
  /-- Contents of an uninitialised `TimeInternal` on the stack. -/
  stackTime : Stream' TimeInternal
  /-- Contents of an uninitialised `Timestamp` on the stack. -/
  stackTimestamp : Stream' Timestamp
  netif_ip_addr : UInt32

/-! ## History -/

/-- The UDP port a message is sent on. -/
inductive UdpPort where
  | event
  | general
deriving DecidableEq

/-- The multicast group a message is sent to. -/
inductive Group where
  | ptp
  | peer
deriving DecidableEq

/-- The calls that the history records. -/
inductive Call where
  /-- `netSend`. -/
  | send (port : UdpPort) (group : Group) (bytes : List UInt8) (result : SendResult)
  | pbuf_free (p : Pbuf)
  | adjFreq (adj : Int)
  | setTime (time : TimeInternal)
  /-- `handle` is about to dispatch the message in `msgTmpHeader` and `msgIbuf`. -/
  | received (time : TimeInternal)
  /-- `handleAnnounce` takes this Announce. -/
  | acceptAnnounce (header : MsgHeader) (announce : MsgAnnounce)
  /-- `handleSync` is about to keep this two-step Sync for its Follow_Up. -/
  | acceptSync (time : TimeInternal)
  /-- The response at hand is taken for the request it names. -/
  | acceptDelayResp
  | acceptPDelayResp (time : TimeInternal)
  | acceptPDelayRespFollowUp
  | toState (state : PortState)
  | initData
  /-- The announce receipt timeout is about to empty the foreign master table. -/
  | announceTimeout
  /-- `addForeign` wrote the record in this slot. -/
  | addForeign (slot : Nat)
  /-- `bmc`, with the slots of the record table that it reads. -/
  | bmc (reads : List Nat)
  | s1 (header : MsgHeader) (announce : MsgAnnounce)
  | issuePDelayReq
  | updateOffset (ingress origin correctionField : TimeInternal)
  /-- `updateOffset` has computed `offsetFromMaster` and not filtered it. -/
  | unfilteredOffset
  /-- `updateOffset` has filtered `offsetFromMaster`. -/
  | filteredOffset
  | updateDelay (egress recieve correctionField : TimeInternal)
  /-- `updateDelay` has computed `meanPathDelay` and not filtered it. -/
  | unfilteredDelay
  | updatePeerDelay (correctionField : TimeInternal) (twoStep : Bool)
  /-- `updatePeerDelay` has computed `peerMeanPathDelay` and not filtered it. -/
  | unfilteredPeerDelay
deriving DecidableEq

/-- A call and the clock at the moment it was made. -/
structure LogEntry where
  call : Call
  before : PtpClock

/-- `timerStart(index, rand() % randMax, itimer)` and the clock before it. -/
structure Arming where
  index : Timer
  randMax : Int
  rand : Nat
  before : PtpClock

/-! ## World -/

/-- The clock and its surroundings. -/
structure World extends PtpClock where
  elapsed_ms : UInt32
  ptpMonitorl : Nat → PtpControl
  ptpMonitorCnt : UInt8
  platform : Platform
  log : List LogEntry
  armings : List Arming

/-- Record a call. -/
def World.record (w : World) (call : Call) : World :=
  { w with log := ⟨call, w.toPtpClock⟩ :: w.log }

/-- Record that a timer is about to be started with the next random number. -/
def World.recordArming (w : World) (index : Timer) (randMax : Int) : World :=
  { w with armings := ⟨index, randMax, w.platform.rand.head, w.toPtpClock⟩ :: w.armings }

/-- Power-on: zeroed memory. -/
def World.zero (platform : Platform) : World where
  toPtpClock := PtpClock.zero
  elapsed_ms := 0
  ptpMonitorl := fun _ => default
  ptpMonitorCnt := 0
  platform := platform
  log := []
  armings := []

end Ptpd
