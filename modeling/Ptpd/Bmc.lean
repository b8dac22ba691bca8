import Ptpd.Servo

/-! # Best master clock algorithm (`bmc.c`)

    The foreign master table, the data set comparison of 9.3.4, and the state
    decision of 9.3.3 with the data set updates M1, M2, P1 and S1 that it ends
    in.
-/

namespace Ptpd

open Octets

/-! ## Initial data -/

/-- Convert EUI48 format to EUI64. -/
def EUI48toEUI64 (eui48 : Vector UInt8 6) : ClockIdentity :=
  #v[eui48[0], eui48[1], eui48[2], 0xff, 0xfe, eui48[3], eui48[4], eui48[5]]

/-- Init the clock with run time values. Of the foreign master indices only
    `count` is reset. -/
def initData (w : World) : World :=
  let w := w.record .initData
  let clockIdentity := EUI48toEUI64 w.portUuidField
  { w with
    defaultDS :=
      { twoStepFlag := DEFAULT_TWO_STEP_FLAG
        clockIdentity := clockIdentity
        numberPorts := NUMBER_PORTS
        clockQuality := w.rtOpts.clockQuality
        priority1 := w.rtOpts.priority1
        priority2 := w.rtOpts.priority2
        domainNumber := w.rtOpts.domainNumber
        slaveOnly := w.rtOpts.slaveOnly }
    portDS :=
      { portIdentity := { clockIdentity := clockIdentity, portNumber := NUMBER_PORTS }
        portState := w.portDS.portState
        logMinDelayReqInterval := DEFAULT_DELAYREQ_INTERVAL
        peerMeanPathDelay := ⟨0, 0⟩
        logAnnounceInterval := w.rtOpts.announceInterval
        announceReceiptTimeout := DEFAULT_ANNOUNCE_RECEIPT_TIMEOUT
        logSyncInterval := w.rtOpts.syncInterval
        delayMechanism := w.rtOpts.delayMechanism
        logMinPdelayReqInterval := DEFAULT_PDELAYREQ_INTERVAL
        versionNumber := VERSION_PTP }
    foreignMasterDS.count := 0
    foreignMasterDS.capacity := w.rtOpts.maxForeignRecords
    inboundLatency := w.rtOpts.inboundLatency
    outboundLatency := w.rtOpts.outboundLatency
    servo := w.rtOpts.servo }

/-! ## Foreign masters -/

def isSamePortIdentity (A B : PortIdentity) : Bool :=
  memcmp A.clockIdentity.toList B.clockIdentity.toList == 0 && A.portNumber == B.portNumber

@[simp] theorem isSamePortIdentity_iff {A B : PortIdentity} :
    isSamePortIdentity A B = true ↔ A = B := by
  obtain ⟨a, m⟩ := A
  obtain ⟨b, n⟩ := B
  simp only [isSamePortIdentity, Bool.and_eq_true, beq_iff_eq, memcmp_toList_eq_zero,
    PortIdentity.mk.injEq]

@[simp] theorem isSamePortIdentity_eq_false {A B : PortIdentity} :
    isSamePortIdentity A B = false ↔ A ≠ B := by
  rw [← Bool.not_eq_true, isSamePortIdentity_iff]

/-- The search loop of `addForeign`: `n` slots are still to be tried, from `j` on. -/
def ForeignMasterDS.search (ds : ForeignMasterDS) (id : PortIdentity) : Nat → Nat → Option Nat
  | 0, _ => none
  | n + 1, j =>
    -- from the best record round the live part of the table
    if isSamePortIdentity id (ds.records j).foreignMasterPortIdentity then some j
    else ds.search id n ((j + 1) % ds.count)

/-- `records[j] = r`. -/
def ForeignMasterDS.setRecord (ds : ForeignMasterDS) (j : Nat) (r : ForeignMasterRecord) :
    ForeignMasterDS :=
  { ds with records := fun k => if k = j then r else ds.records k }

/-- The table after `addForeign`, and the slot that was written. -/
def ForeignMasterDS.addForeign (ds : ForeignMasterDS) (header : MsgHeader)
    (announce : MsgAnnounce) : Nat × ForeignMasterDS :=
  match ds.search header.sourcePortIdentity ds.count ds.best with
  | some j =>
    -- already known
    (j, ds.setRecord j
      { ds.records j with
        foreignMasterAnnounceMessages := (ds.records j).foreignMasterAnnounceMessages + 1
        header := header
        announce := announce })
  | none =>
    -- new foreign master: once the table is full, `i` overwrites the oldest
    let ds := if ds.count < ds.capacity then { ds with count := ds.count + 1 } else ds
    let j := ds.i
    let ds := ds.setRecord j
      { foreignMasterPortIdentity := header.sourcePortIdentity
        foreignMasterAnnounceMessages := 0
        announce := announce
        header := header }
    (j, { ds with i := (ds.i + 1) % ds.capacity })

def addForeign (header : MsgHeader) (announce : MsgAnnounce) (w : World) : World :=
  let added := w.foreignMasterDS.addForeign header announce
  { w.record (.addForeign added.1) with foreignMasterDS := added.2 }

/-! ## Data set updates -/

/-- Local clock is becoming master. Table 13 (9.3.5) of the spec. -/
def m1 (w : World) : World :=
  { w with
    currentDS := { stepsRemoved := 0, offsetFromMaster := ⟨0, 0⟩, meanPathDelay := ⟨0, 0⟩ }
    parentDS := { w.parentDS with
      parentPortIdentity := { clockIdentity := w.defaultDS.clockIdentity, portNumber := 0 }
      grandmasterIdentity := w.defaultDS.clockIdentity
      grandmasterClockQuality := w.defaultDS.clockQuality
      grandmasterPriority1 := w.defaultDS.priority1
      grandmasterPriority2 := w.defaultDS.priority2 }
    timePropertiesDS :=
      { currentUtcOffset := w.rtOpts.currentUtcOffset
        currentUtcOffsetValid := DEFAULT_UTC_VALID
        leap59 := false
        leap61 := false
        timeTraceable := DEFAULT_TIME_TRACEABLE
        frequencyTraceable := DEFAULT_FREQUENCY_TRACEABLE
        ptpTimescale := DEFAULT_PTP_TIMESCALE
        timeSource := DEFAULT_TIME_SOURCE } }

/-- `#define m2 m1`. -/
abbrev m2 := m1

def p1 (w : World) : World := w

/-- Local clock is synchronized to Ebest. Table 16 (9.3.5) of the spec. -/
def s1 (header : MsgHeader) (announce : MsgAnnounce) (w : World) : World :=
  let w := w.record (.s1 header announce)
  let isFromCurrentParent :=
    isSamePortIdentity w.parentDS.parentPortIdentity header.sourcePortIdentity
  let flags := header.flagField[1]
  { w with
    currentDS.stepsRemoved := announce.stepsRemoved + 1
    -- an event that is already pending stays
    events.MASTER_CLOCK_CHANGED := !isFromCurrentParent || w.events.MASTER_CLOCK_CHANGED
    parentDS := { w.parentDS with
      parentPortIdentity := header.sourcePortIdentity
      grandmasterIdentity := announce.grandmasterIdentity
      grandmasterClockQuality := announce.grandmasterClockQuality
      grandmasterPriority1 := announce.grandmasterPriority1
      grandmasterPriority2 := announce.grandmasterPriority2 }
    timePropertiesDS :=
      { currentUtcOffset := announce.currentUtcOffset
        currentUtcOffsetValid := getFlag flags FLAG1_UTC_OFFSET_VALID
        leap59 := getFlag flags FLAG1_LEAP59
        leap61 := getFlag flags FLAG1_LEAP61
        timeTraceable := getFlag flags FLAG1_TIME_TRACEABLE
        frequencyTraceable := getFlag flags FLAG1_FREQUENCY_TRACEABLE
        ptpTimescale := getFlag flags FLAG1_PTP_TIMESCALE
        timeSource := announce.timeSource } }

/-- The second octet of the flags. -/
def MsgHeader.flagField1 (header : MsgHeader) : UInt8 := header.flagField[1]

/-- Copy local data set into header and announce message. 9.3.4 table 12. -/
def copyD0 (w : World) : World :=
  { w with
    msgTmpAnnounce := { w.msgTmpAnnounce with
      grandmasterPriority1 := w.defaultDS.priority1
      grandmasterIdentity := w.defaultDS.clockIdentity
      grandmasterClockQuality := w.defaultDS.clockQuality
      grandmasterPriority2 := w.defaultDS.priority2
      stepsRemoved := 0 }
    msgTmpHeader.sourcePortIdentity.clockIdentity := w.defaultDS.clockIdentity }

/-! ## Data set comparison -/

abbrev A_better_then_B : Int := 1
abbrev B_better_then_A : Int := -1
abbrev A_better_by_topology_then_B : Int := 1
abbrev B_better_by_topology_then_A : Int := -1
abbrev ERROR_1 : Int := 0
abbrev ERROR_2 : Int := 0

/-- `COMPARE_AB_RETURN_BETTER`: return if the two values differ. -/
def compareReturnBetter (a b : Nat) (otherwise : Int) : Int :=
  if a > b then B_better_then_A
  else if b > a then A_better_then_B
  else otherwise

/-- Algorithm part 2, figure 28: distance, then topology as seen by the receiver. -/
def bmcCompareTopology (headerA : MsgHeader) (announceA : MsgAnnounce) (headerB : MsgHeader)
    (announceB : MsgAnnounce) (ptpClock : PtpClock) : Int :=
  let senderA := headerA.sourcePortIdentity.clockIdentity.toList
  let senderB := headerB.sourcePortIdentity.clockIdentity.toList
  let reciever := ptpClock.portDS.portIdentity.clockIdentity.toList
  let stepsA := announceA.stepsRemoved.toNat
  let stepsB := announceB.stepsRemoved.toNat
  if stepsA > stepsB + 1 then B_better_then_A
  else if stepsB > stepsA + 1 then A_better_then_B
  -- one step apart: the sender of the longer path against the receiver
  else if stepsA > stepsB then
    let comp := memcmp senderA reciever
    if comp > 0 then B_better_then_A
    else if comp < 0 then B_better_by_topology_then_A
    else ERROR_1
  else if stepsA < stepsB then
    let comp := memcmp senderB reciever
    if comp > 0 then A_better_then_B
    else if comp < 0 then A_better_by_topology_then_B
    else ERROR_1
  else
    -- A equals B in distance: the smaller sender is the better one
    let comp := memcmp senderA senderB
    if comp > 0 then B_better_by_topology_then_A
    else if comp < 0 then A_better_by_topology_then_B
    else ERROR_2

/-- Data set comparison between two foreign masters (9.3.4 fig 27). -/
def bmcDataSetComparison (headerA : MsgHeader) (announceA : MsgAnnounce) (headerB : MsgHeader)
    (announceB : MsgAnnounce) (ptpClock : PtpClock) : Int :=
  let grandmasterIdentityComp :=
    memcmp announceA.grandmasterIdentity.toList announceB.grandmasterIdentity.toList
  let qualityA := announceA.grandmasterClockQuality
  let qualityB := announceB.grandmasterClockQuality
  if grandmasterIdentityComp ≠ 0 then
    compareReturnBetter announceA.grandmasterPriority1.toNat announceB.grandmasterPriority1.toNat <|
    compareReturnBetter qualityA.clockClass.toNat qualityB.clockClass.toNat <|
    compareReturnBetter qualityA.clockAccuracy.toNat qualityB.clockAccuracy.toNat <|
    compareReturnBetter qualityA.offsetScaledLogVariance.toNat
      qualityB.offsetScaledLogVariance.toNat <|
    compareReturnBetter announceA.grandmasterPriority2.toNat
      announceB.grandmasterPriority2.toNat <|
    if grandmasterIdentityComp > 0 then B_better_then_A else A_better_then_B
  else bmcCompareTopology headerA announceA headerB announceB ptpClock

/-! ## State decision -/

/-- State decision algorithm 9.3.3 fig 26. -/
def bmcStateDecision (header : MsgHeader) (announce : MsgAnnounce) (w : World) :
    PortState × World :=
  if w.foreignMasterDS.count = 0 ∧ w.portDS.portState = .PTP_LISTENING then (.PTP_LISTENING, w)
  else
    let w := copyD0 w
    let comp := bmcDataSetComparison w.msgTmpHeader w.msgTmpAnnounce header announce w.toPtpClock
    -- a clock of a class below 128 is slave to none
    if w.defaultDS.clockQuality.clockClass < 128 then
      if A_better_then_B = comp then (.PTP_MASTER, m1 w)
      else (.PTP_PASSIVE, p1 w)
    else
      if A_better_then_B = comp then (.PTP_MASTER, m2 w)
      else (.PTP_SLAVE, s1 header announce w)

/-- The loop of `bmc`: `best` once records 1 to `k` have been compared with it. -/
def PtpClock.bmcBest (ptpClock : PtpClock) : Nat → Nat
  | 0 => 0
  | k + 1 =>
    let best := ptpClock.bmcBest k
    let recordI := ptpClock.foreignMasterDS.records (k + 1)
    let recordBest := ptpClock.foreignMasterDS.records best
    -- the record tried is side A, and it replaces the best on a negative result
    if bmcDataSetComparison recordI.header recordI.announce recordBest.header recordBest.announce
        ptpClock < 0 then
      k + 1
    else best

/-- The slots whose contents `bmc` reads: both sides of every comparison, and
    the one handed to `bmcStateDecision`, which does not look at it when a
    listening port knows no foreign master. -/
def PtpClock.bmcReads (ptpClock : PtpClock) : List Nat :=
  let count := ptpClock.foreignMasterDS.count
  (List.range (count - 1)).flatMap (fun k => [k + 1, ptpClock.bmcBest k]) ++
    (if count = 0 ∧ ptpClock.portDS.portState = .PTP_LISTENING then []
     else [ptpClock.bmcBest (count - 1)])

def bmc (w : World) : PortState × World :=
  let w := w.record (.bmc w.bmcReads)
  let best := w.bmcBest (w.foreignMasterDS.count - 1)
  let w := { w with foreignMasterDS.best := best }
  let record := w.foreignMasterDS.records best
  bmcStateDecision record.header record.announce w

end Ptpd
