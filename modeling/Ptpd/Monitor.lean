import Ptpd.Nanos
import Ptpd.Run
import Ptpd.Sntp
import Ptpd.Lib.SlotTable
import Ptpd.Refinement.Act
import Mathlib.Data.UInt

/-! # The tables of monitored clients (`protocol.c`, `udp_echoserver.c`)

    A master keeps the newest offset of every slave that reports one, under the
    slave's address; the SNTP server does the same for its clients. Both tables are
    tables of slots, and their counter of replacements is the turn.
-/

namespace Ptpd

open MachineInt Octets SlotTable

/-! ## One report -/

section UnpackControl

variable {E : Type} (key : E → UInt32) (size : Nat)

/-- Enter `e` into the table: in the entry of its address, else in a free one, else
    in the one that `cnt` counts. The counter reaches `size` before it starts again. -/
def unpackControl (table : Nat → E) (cnt : UInt8) (e : E) : (Nat → E) × UInt8 :=
  let slots := List.range size
  match slots.find? (fun i => key (table i) = key e) with
  | some i => (Function.update table i e, cnt)
  | none =>
    match slots.find? (fun i => key (table i) = 0) with
    | some i => (Function.update table i e, cnt)
    | none =>
      (Function.update table cnt.toNat e, if (cnt + 1).toNat > size then 0 else cnt + 1)

variable {key size}

/-- The next turn, on the 8-bit counter. -/
theorem nextCnt_toNat (hsize : size < 255) {cnt : UInt8} (h : cnt.toNat ≤ size) :
    (if (cnt + 1).toNat > size then (0 : UInt8) else cnt + 1).toNat =
      Slots.nextTurn size cnt.toNat := by
  have hone : (1 : UInt8).toNat = 1 := rfl
  have hadd : (cnt + 1).toNat = cnt.toNat + 1 := by
    rw [UInt8.toNat_add, hone]
    exact Nat.mod_eq_of_lt (by omega)
  unfold Slots.nextTurn
  rw [hadd]
  split
  · rfl
  · exact hadd

/-- The table is one of slots, and the counter is the turn. -/
theorem unpackControl_put (hsize : size < 255) {table : Nat → E} {cnt : UInt8}
    (h : cnt.toNat ≤ size) (e : E) :
    (⟨(unpackControl key size table cnt e).1, (unpackControl key size table cnt e).2.toNat⟩ :
      Slots E) = (⟨table, cnt.toNat⟩ : Slots E).put key size e := by
  unfold unpackControl Slots.put Slots.slot
  generalize hs : (⟨table, cnt.toNat⟩ : Slots E) = s
  have hentry : s.entry = table := by rw [← hs]
  have hturn : s.turn = cnt.toNat := by rw [← hs]
  have hfind : ∀ k, (List.range size).find? (fun i => key (table i) = k) = s.find key size k := by
    intro k
    rw [← hentry]
    rfl
  dsimp only
  rw [hfind, hfind, hentry, hturn]
  cases hown : s.find key size (key e) with
  | some i =>
    obtain ⟨hi, hkey⟩ := Slots.find_eq_some hown
    have hfound : ¬ s.Crowded key size (key e) := fun hcrowded => (hcrowded i hi).1 hkey
    rw [if_neg hfound]
  | none =>
    cases hfree : s.find key size 0 with
    | some i =>
      obtain ⟨hi, hkey⟩ := Slots.find_eq_some hfree
      have hroom : ¬ s.Crowded key size (key e) := fun hcrowded => (hcrowded i hi).2 hkey
      rw [if_neg hroom]
    | none =>
      have hcrowded : s.Crowded key size (key e) := fun i hi =>
        ⟨Slots.find_eq_none hown i hi, Slots.find_eq_none hfree i hi⟩
      rw [if_pos hcrowded, ← nextCnt_toNat hsize h]

end UnpackControl

/-! ## Management messages -/

/-- The table of the master, and the entry that is replaced next. -/
def World.monitor (w : World) : Slots PtpControl := ⟨w.ptpMonitorl, w.ptpMonitorCnt.toNat⟩

/-- What the Management message in the buffer reports. -/
def World.report (w : World) : PtpControl :=
  let manage := msgUnpackManagement w.msgIbuf
  { ipaddr := manage.ipaddr
    Offset :=
      { seconds := wrapS 32 manage.toMasterOffset.secondsField.lsb.toNat
        nanoseconds := wrapS 32 manage.toMasterOffset.nanosecondsField.toNat }
    Time := w.platform.ptptshr.head }

theorem World.setMonitor_entry (w : World) (i : Nat) (p : TimeInternal) (ipaddr : UInt32) :
    (w.setMonitor i p ipaddr).ptpMonitorl =
      Function.update w.ptpMonitorl i ⟨ipaddr, p, w.platform.ptptshr.head⟩ := by
  funext k
  rw [Function.update_apply]
  rfl

theorem ptp_unpack_control_eq (p : TimeInternal) (ipaddr : UInt32) (w : World) :
    ((ptp_unpack_control p ipaddr w).ptpMonitorl, (ptp_unpack_control p ipaddr w).ptpMonitorCnt) =
      unpackControl PtpControl.ipaddr ptpMonitorlConstant w.ptpMonitorl w.ptpMonitorCnt
        ⟨ipaddr, p, w.platform.ptptshr.head⟩ := by
  unfold ptp_unpack_control unpackControl
  dsimp only
  cases (List.range ptpMonitorlConstant).find? (fun i => (w.ptpMonitorl i).ipaddr = ipaddr) with
  | some i =>
    dsimp only
    rw [World.setMonitor_entry]
    rfl
  | none =>
    dsimp only
    cases (List.range ptpMonitorlConstant).find? (fun i => (w.ptpMonitorl i).ipaddr = 0) with
    | some i =>
      dsimp only
      rw [World.setMonitor_entry]
      rfl
    | none =>
      dsimp only
      rw [World.setMonitor_entry]
      rfl

/-- `ptp_unpack_control` puts the report into the table. -/
theorem ptp_unpack_control_monitor {w : World} (h : w.ptpMonitorCnt.toNat ≤ ptpMonitorlConstant)
    (p : TimeInternal) (ipaddr : UInt32) :
    (ptp_unpack_control p ipaddr w).monitor =
      w.monitor.put PtpControl.ipaddr ptpMonitorlConstant
        ⟨ipaddr, p, w.platform.ptptshr.head⟩ := by
  have hpair : ∀ x : (Nat → PtpControl) × UInt8,
      ((ptp_unpack_control p ipaddr w).ptpMonitorl,
        (ptp_unpack_control p ipaddr w).ptpMonitorCnt) = x →
      (ptp_unpack_control p ipaddr w).monitor = ⟨x.1, x.2.toNat⟩ := by
    rintro _ rfl
    rfl
  rw [hpair _ (ptp_unpack_control_eq p ipaddr w)]
  exact unpackControl_put (by decide) h _

/-- A master takes the report of another clock. -/
theorem handleManagement_master {w : World} (hmaster : w.portDS.portState = .PTP_MASTER)
    (hlength : MANAGEMENT_LENGTH ≤ w.msgIbufLength) :
    handleManagement false w = ptp_unpack_control w.report.Offset w.report.ipaddr w := by
  unfold handleManagement
  rw [if_neg (by omega), hmaster]
  rfl

theorem handleManagement_monitor {w : World} (hmaster : w.portDS.portState = .PTP_MASTER)
    (hlength : MANAGEMENT_LENGTH ≤ w.msgIbufLength)
    (hcnt : w.monitor.turn ≤ ptpMonitorlConstant) :
    (handleManagement false w).monitor =
      w.monitor.put PtpControl.ipaddr ptpMonitorlConstant w.report := by
  rw [handleManagement_master hmaster hlength, ptp_unpack_control_monitor hcnt]
  rfl

/-- At power-on every entry is free, and the first one is next. -/
theorem World.monitor_start {w : World} (hzero : ∀ i, w.ptpMonitorl i = default)
    (hcnt : w.ptpMonitorCnt = 0) :
    (∀ i < ptpMonitorlConstant, (w.monitor.entry i).ipaddr = 0) ∧ w.monitor.turn = 0 := by
  refine ⟨fun i _ => ?_, ?_⟩
  · change (w.ptpMonitorl i).ipaddr = 0
    rw [hzero]
    rfl
  · change w.ptpMonitorCnt.toNat = 0
    rw [hcnt]
    rfl

theorem World.monitor_other {w w' : World} (hentry : w'.ptpMonitorl = w.ptpMonitorl)
    (hcnt : w'.ptpMonitorCnt = w.ptpMonitorCnt) : w'.monitor = w.monitor := by
  unfold monitor
  rw [hentry, hcnt]

/-! ## Runs of a master -/

/-- A master's run from power-on: the worlds in which it took a Management message
    of another clock. Whatever happens in between does not touch the table. -/
inductive Monitored : List World → World → Prop where
  | start {w : World} : (∀ i, w.ptpMonitorl i = default) → w.ptpMonitorCnt = 0 → Monitored [] w
  | other {taken : List World} {w w' : World} : Monitored taken w →
      w'.ptpMonitorl = w.ptpMonitorl → w'.ptpMonitorCnt = w.ptpMonitorCnt → Monitored taken w'
  | message {taken : List World} {w : World} : Monitored taken w →
      w.portDS.portState = .PTP_MASTER → MANAGEMENT_LENGTH ≤ w.msgIbufLength →
      Monitored (taken ++ [w]) (handleManagement false w)

/-- The table is full of other addresses. -/
def World.Replaces (w : World) : Prop :=
  ∀ i < ptpMonitorlConstant,
    (w.ptpMonitorl i).ipaddr ≠ w.report.ipaddr ∧ (w.ptpMonitorl i).ipaddr ≠ 0

instance : DecidablePred World.Replaces := fun _ => inferInstanceAs (Decidable (∀ i < _, _))

/-- The message is entered inside the table, under its address and no other one. -/
structure World.Recorded (w : World) : Prop where
  inside : w.monitor.slot PtpControl.ipaddr ptpMonitorlConstant w.report.ipaddr <
    ptpMonitorlConstant
  distinct : ∀ i < ptpMonitorlConstant, ∀ j < ptpMonitorlConstant,
    ((handleManagement false w).ptpMonitorl i).ipaddr =
      ((handleManagement false w).ptpMonitorl j).ipaddr →
    ((handleManagement false w).ptpMonitorl i).ipaddr ≠ 0 → i = j
  found : ∃ i < ptpMonitorlConstant,
    ((handleManagement false w).ptpMonitorl i).ipaddr = w.report.ipaddr ∧
      ((handleManagement false w).ptpMonitorl i).Offset = w.report.Offset

/-- A master's run is a run of its table. -/
theorem Monitored.run {taken : List World} {w : World} (h : Monitored taken w) :
    Slots.Run PtpControl.ipaddr ptpMonitorlConstant
      (taken.map fun v => (v.monitor, v.report)) w.monitor := by
  induction h with
  | start hzero hcnt =>
    obtain ⟨hfree, hturn⟩ := World.monitor_start hzero hcnt
    exact .start hfree hturn
  | other _ hentry hcnt ih =>
    rw [World.monitor_other hentry hcnt]
    exact ih
  | @message taken w _ hmaster hlength ih =>
    rw [handleManagement_monitor hmaster hlength ih.turn_le, List.map_append]
    exact ih.put w.report

/-- The worlds of a run are those of a master with a whole message. -/
theorem Monitored.taken_master {taken : List World} {w : World} (h : Monitored taken w) :
    ∀ v ∈ taken, v.portDS.portState = .PTP_MASTER ∧ MANAGEMENT_LENGTH ≤ v.msgIbufLength ∧
      v.ptpMonitorCnt.toNat ≤ ptpMonitorlConstant := by
  induction h with
  | start _ _ => simp
  | other _ _ _ ih => exact ih
  | @message taken w hrun hmaster hlength ih =>
    intro v hv
    rcases List.mem_append.mp hv with hv | hv
    · exact ih v hv
    · rw [List.mem_singleton.mp hv]
      exact ⟨hmaster, hlength, hrun.run.turn_le⟩

theorem World.recorded_iff {w : World} (hmaster : w.portDS.portState = .PTP_MASTER)
    (hlength : MANAGEMENT_LENGTH ≤ w.msgIbufLength)
    (hcnt : w.ptpMonitorCnt.toNat ≤ ptpMonitorlConstant) :
    w.Recorded ↔ w.monitor.Recorded PtpControl.ipaddr ptpMonitorlConstant w.report := by
  have hentry : (handleManagement false w).ptpMonitorl =
      (w.monitor.put PtpControl.ipaddr ptpMonitorlConstant w.report).entry :=
    congrArg Slots.entry (handleManagement_monitor hmaster hlength hcnt)
  constructor
  · rintro ⟨hinside, hdistinct, -⟩
    rw [hentry] at hdistinct
    exact ⟨hinside, hdistinct, _, hinside, Slots.put_slot⟩
  · rintro ⟨hinside, hdistinct, i, hi, hfound⟩
    refine ⟨hinside, ?_, i, hi, ?_⟩
    · rw [hentry]
      exact hdistinct
    · rw [hentry, hfound]
      exact ⟨rfl, rfl⟩

/-- Every message is recorded exactly if the table is full of other addresses for
    at most 16 of them. -/
theorem Monitored.recorded_iff {taken : List World} {w : World} (h : Monitored taken w) :
    (∀ v ∈ taken, v.Recorded) ↔
      taken.countP (fun v => v.Replaces) ≤ ptpMonitorlConstant := by
  have hcount : Slots.replacements PtpControl.ipaddr ptpMonitorlConstant
      (taken.map fun v => (v.monitor, v.report)) = taken.countP (fun v => v.Replaces) := by
    unfold Slots.replacements
    rw [List.countP_map]
    rfl
  rw [← hcount, ← h.run.recorded_iff, List.forall_mem_map]
  apply forall₂_congr
  intro v hv
  obtain ⟨hmaster, hlength, hcnt⟩ := h.taken_master v hv
  exact World.recorded_iff hmaster hlength hcnt

/-! ## SNTP control messages -/

abbrev MonitorlConstant : Nat := 16

/-- `struct sntp_c`. -/
structure SntpControl where
  ipaddr : UInt32
  Time : UInt32
  root_disp : TimeFp
deriving DecidableEq, Inhabited

/-- `SntpMonitorl` and the counter of `sntp_unpack_control`. -/
structure SntpMonitor where
  SntpMonitorl : Nat → SntpControl
  cnt : UInt8

/-- What a call of `sntp_unpack_control` is given: `upcb->remote_ip`, `*msg`, and
    the register that it reads. -/
structure SntpControlCall where
  remote_ip : UInt32
  msg : SntpMsg
  PTPTSHR : UInt32

section SntpMonitor

-- the offset in units of 10 ns, computed in floating point
variable (disp : TimeFp → UInt64)

/-- The entry that a call writes. -/
def SntpControlCall.entry (call : SntpControlCall) : SntpControl :=
  let disp := disp (NTOHL_FP call.msg.recv)
  { ipaddr := call.remote_ip
    Time := call.PTPTSHR
    root_disp := ⟨(disp / 100000000).toUInt32, (disp % 100000000).toUInt32⟩ }

def sntp_unpack_control (call : SntpControlCall) (monitor : SntpMonitor) : SntpMonitor :=
  let (SntpMonitorl, cnt) :=
    unpackControl SntpControl.ipaddr MonitorlConstant monitor.SntpMonitorl monitor.cnt
      (call.entry disp)
  ⟨SntpMonitorl, cnt⟩

def SntpMonitor.slots (monitor : SntpMonitor) : Slots SntpControl :=
  ⟨monitor.SntpMonitorl, monitor.cnt.toNat⟩

/-- The entry of the table that a call writes. -/
def SntpMonitor.index (monitor : SntpMonitor) (call : SntpControlCall) : Nat :=
  monitor.slots.slot SntpControl.ipaddr MonitorlConstant call.remote_ip

/-- The table is full of other addresses. -/
def SntpMonitor.Replaces (monitor : SntpMonitor) (call : SntpControlCall) : Prop :=
  ∀ i < MonitorlConstant,
    (monitor.SntpMonitorl i).ipaddr ≠ call.remote_ip ∧ (monitor.SntpMonitorl i).ipaddr ≠ 0

instance (monitor : SntpMonitor) (call : SntpControlCall) : Decidable (monitor.Replaces call) :=
  inferInstanceAs (Decidable (∀ i < _, _))

/-- Calls from power-on, each with the table that it met. -/
inductive SntpMonitored : List (SntpMonitor × SntpControlCall) → SntpMonitor → Prop where
  | start : SntpMonitored [] ⟨fun _ => default, 0⟩
  | message {calls : List (SntpMonitor × SntpControlCall)} {monitor : SntpMonitor}
      (call : SntpControlCall) : SntpMonitored calls monitor →
      SntpMonitored (calls ++ [(monitor, call)]) (sntp_unpack_control disp call monitor)

variable {disp}

theorem SntpMonitored.run {calls : List (SntpMonitor × SntpControlCall)} {monitor : SntpMonitor}
    (h : SntpMonitored disp calls monitor) :
    Slots.Run SntpControl.ipaddr MonitorlConstant
      (calls.map fun x => (x.1.slots, x.2.entry disp)) monitor.slots := by
  induction h with
  | start => exact .start (fun _ _ => rfl) rfl
  | @message calls monitor call _ ih =>
    have hput : (sntp_unpack_control disp call monitor).slots =
        monitor.slots.put SntpControl.ipaddr MonitorlConstant (call.entry disp) :=
      unpackControl_put (by decide) ih.turn_le _
    rw [hput, List.map_append]
    exact ih.put (call.entry disp)

/-- No call writes behind the table exactly if it is full of other addresses for
    at most 16 of them. -/
theorem SntpMonitored.index_lt_iff {calls : List (SntpMonitor × SntpControlCall)}
    {monitor : SntpMonitor} (h : SntpMonitored disp calls monitor) :
    (∀ x ∈ calls, x.1.index x.2 < MonitorlConstant) ↔
      calls.countP (fun x => x.1.Replaces x.2) ≤ MonitorlConstant := by
  have hcount : Slots.replacements SntpControl.ipaddr MonitorlConstant
      (calls.map fun x => (x.1.slots, x.2.entry disp)) =
        calls.countP (fun x => x.1.Replaces x.2) := by
    unfold Slots.replacements
    rw [List.countP_map]
    rfl
  rw [← hcount, ← h.run.inside_iff, List.forall_mem_map]
  rfl

end SntpMonitor

/-- Both tables do what they are there for exactly as long as at most 16 reports
    find them full of other addresses. -/
theorem monitors_recorded_iff {taken : List World} {w : World} (h : Monitored taken w)
    {disp : TimeFp → UInt64} {calls : List (SntpMonitor × SntpControlCall)}
    {monitor : SntpMonitor} (hsntp : SntpMonitored disp calls monitor) :
    ((∀ v ∈ taken, v.Recorded) ↔ taken.countP (fun v => v.Replaces) ≤ ptpMonitorlConstant) ∧
    ((∀ x ∈ calls, x.1.index x.2 < MonitorlConstant) ↔
      calls.countP (fun x => x.1.Replaces x.2) ≤ MonitorlConstant) :=
  ⟨h.recorded_iff, hsntp.index_lt_iff⟩

/-- A master that has received the report of a slave. -/
def World.withReport (w : World) (ipaddr : UInt32) : World :=
  { w with
    portDS.portState := .PTP_MASTER
    msgIbufLength := MANAGEMENT_LENGTH
    msgIbuf := msgPackManagement (fun _ => 0) default ipaddr }

/-- The first `n` slaves report, one after the other. -/
def slavesReporting : Nat → List World × World
  | 0 => ([], World.zero .steady)
  | n + 1 =>
    let w := (slavesReporting n).2.withReport (UInt32.ofNat (n + 1))
    ((slavesReporting n).1 ++ [w], handleManagement false w)

theorem slavesReporting_monitored (n : Nat) :
    Monitored (slavesReporting n).1 (slavesReporting n).2 := by
  induction n with
  | zero => exact .start (fun _ => rfl) rfl
  | succ n ih => exact .message (.other ih rfl rfl) rfl (le_refl _)

/-- The first `n` clients of the SNTP server do. -/
def clientsReporting : Nat → List (SntpMonitor × SntpControlCall) × SntpMonitor
  | 0 => ([], ⟨fun _ => default, 0⟩)
  | n + 1 =>
    let call : SntpControlCall := ⟨UInt32.ofNat (n + 1), .zero, 0⟩
    ((clientsReporting n).1 ++ [((clientsReporting n).2, call)],
      sntp_unpack_control (fun _ => 0) call (clientsReporting n).2)

theorem clientsReporting_monitored (n : Nat) :
    SntpMonitored (fun _ => 0) (clientsReporting n).1 (clientsReporting n).2 := by
  induction n with
  | zero => exact .start
  | succ n ih => exact .message _ ih

/-- Twenty of each. -/
theorem monitors_recorded_twenty :
    ((∀ v ∈ (slavesReporting 20).1, v.Recorded) ↔
      (slavesReporting 20).1.countP (fun v => v.Replaces) ≤ ptpMonitorlConstant) ∧
    ((∀ x ∈ (clientsReporting 20).1, x.1.index x.2 < MonitorlConstant) ↔
      (clientsReporting 20).1.countP (fun x => x.1.Replaces x.2) ≤ MonitorlConstant) :=
  monitors_recorded_iff (slavesReporting_monitored 20) (clientsReporting_monitored 20)

/-- With the 33rd a message is written behind each of the tables. -/
theorem monitors_overrun :
    (¬ ∀ taken w, Monitored taken w → ∀ v ∈ taken, v.Recorded) ∧
    (¬ ∀ disp calls monitor, SntpMonitored disp calls monitor →
      ∀ x ∈ calls, x.1.index x.2 < MonitorlConstant) := by
  constructor <;> intro h
  · have hcount := (slavesReporting_monitored 33).recorded_iff.mp
      (h _ _ (slavesReporting_monitored 33))
    exact absurd hcount (by decide +kernel)
  · have hcount := (clientsReporting_monitored 33).index_lt_iff.mp
      (h _ _ _ (clientsReporting_monitored 33))
    exact absurd hcount (by decide +kernel)

/-! ## Slaves and their master -/

theorem toInteger32_ofInt (x : Int) : wrapS 32 (UInt32.ofInt x).toNat = wrapS 32 x := by
  have hcast : ((UInt32.ofInt x).toNat : Int) = x % 2 ^ 32 := by
    rw [UInt32.ofInt, UInt32.toNat_ofNat']
    omega
  rw [hcast, wrapS_emod]

/-- A report is read as what it was sent as. -/
theorem World.report_of_sent {v w : World} {bytes : List UInt8} {result : SendResult}
    {before : PtpClock} (hcanonical : v.currentDS.offsetFromMaster.Canonical)
    (hseconds : SRange 32 v.currentDS.offsetFromMaster.seconds)
    (hsent : (issueManagement v).log = ⟨.send .general .ptp bytes result, before⟩ :: v.log)
    (hbytes : take MANAGEMENT_LENGTH w.msgIbuf = bytes) :
    w.report =
      ⟨v.platform.netif_ip_addr, v.currentDS.offsetFromMaster, w.platform.ptptshr.head⟩ := by
  rw [issueManagement_eq] at hsent
  injection hsent with hentry _
  injection hentry with hcall _
  injection hcall with _ _ hbuf _
  have hsame : ∀ i < MANAGEMENT_LENGTH, w.msgIbuf i =
      msgPackManagement v.msgObuf (v.externalOffset v.platform.stackTimestamp.head)
        v.platform.netif_ip_addr i := by
    intro i hi
    rw [← bufOf_take w.msgIbuf hi, hbytes, ← hbuf, bufOf_take _ hi]
    rfl
  have hmanage := msgUnpackManagement_congr hsame
  rw [msgUnpackManagement_pack] at hmanage
  unfold World.report
  rw [hmanage]
  unfold World.externalOffset
  dsimp only
  rw [toInteger32_ofInt, toInteger32_ofInt, wrapS_of_range (by decide) hseconds,
    wrapS_32 (by have := hcanonical.least; omega) (by have := hcanonical.greatest; omega)]

/-- Slaves send their offsets, in any order and as often as they like, and a master
    takes each message as it was sent. `last` is what each of them sent last. -/
inductive Reporting (slaves : Finset UInt32) : (UInt32 → Option TimeInternal) → World → Prop where
  | start {w : World} : (∀ i, w.ptpMonitorl i = default) → w.ptpMonitorCnt = 0 →
      Reporting slaves (fun _ => none) w
  | other {last : UInt32 → Option TimeInternal} {w w' : World} : Reporting slaves last w →
      w'.ptpMonitorl = w.ptpMonitorl → w'.ptpMonitorCnt = w.ptpMonitorCnt →
      Reporting slaves last w'
  | report {last : UInt32 → Option TimeInternal} {w v : World} {bytes : List UInt8}
      {time : TimeInternal} {before : PtpClock} : Reporting slaves last w →
      v.platform.netif_ip_addr ∈ slaves →
      v.currentDS.offsetFromMaster.Canonical → SRange 32 v.currentDS.offsetFromMaster.seconds →
      (issueManagement v).log = ⟨.send .general .ptp bytes (.sent time), before⟩ :: v.log →
      w.portDS.portState = .PTP_MASTER → w.msgIbufLength = MANAGEMENT_LENGTH →
      take MANAGEMENT_LENGTH w.msgIbuf = bytes →
      Reporting slaves
        (Function.update last v.platform.netif_ip_addr (some v.currentDS.offsetFromMaster))
        (handleManagement false w)

/-- The table holds one entry for each slave that has reported, with its last
    offset, and nothing else. -/
structure World.Mirrors (w : World) (last : UInt32 → Option TimeInternal) : Prop where
  held : ∀ ipaddr offset, last ipaddr = some offset → ∃ i < ptpMonitorlConstant,
    (w.ptpMonitorl i).ipaddr = ipaddr ∧ (w.ptpMonitorl i).Offset = offset ∧
      ∀ j < ptpMonitorlConstant, (w.ptpMonitorl j).ipaddr = ipaddr → j = i
  only : ∀ i < ptpMonitorlConstant, (w.ptpMonitorl i).ipaddr ≠ 0 →
    last (w.ptpMonitorl i).ipaddr = some (w.ptpMonitorl i).Offset

/-- The newest entries behind the table. -/
structure Entered (slaves : Finset UInt32) (last : UInt32 → Option TimeInternal) (w : World)
    (entries : UInt32 → Option PtpControl) : Prop where
  represents : w.monitor.Represents PtpControl.ipaddr ptpMonitorlConstant entries
  offsets : ∀ ipaddr, last ipaddr = (entries ipaddr).map PtpControl.Offset
  slaves : ∀ ipaddr, entries ipaddr ≠ none → ipaddr ∈ slaves
  turn : w.monitor.turn ≤ ptpMonitorlConstant

theorem Reporting.entered {slaves : Finset UInt32} (hcard : slaves.card ≤ ptpMonitorlConstant)
    {last : UInt32 → Option TimeInternal} {w : World} (h : Reporting slaves last w) :
    ∃ entries, Entered slaves last w entries := by
  induction h with
  | start hzero hcnt =>
    obtain ⟨hfree, hturn⟩ := World.monitor_start hzero hcnt
    exact ⟨fun _ => none, .of_free hfree, fun _ => rfl, fun _ hne => absurd rfl hne, by omega⟩
  | other _ hentry hcnt ih =>
    obtain ⟨entries, hrepresents, hoffsets, hslaves, hturn⟩ := ih
    have hsame := World.monitor_other hentry hcnt
    exact ⟨entries, hsame ▸ hrepresents, hoffsets, hslaves, hsame ▸ hturn⟩
  | @report last w v bytes time before _ hmem hcanonical hseconds hsent hmaster hlength hbytes ih =>
    obtain ⟨entries, hrepresents, hoffsets, hslaves, hturn⟩ := ih
    have hreport := World.report_of_sent hcanonical hseconds hsent hbytes
    have hput := handleManagement_monitor hmaster (le_of_eq hlength.symm) hturn
    have hroom := hrepresents.not_crowded hslaves hcard hmem
    have hstep := hrepresents.put (e := w.report) (by rw [hreport]; exact hroom)
    refine ⟨_, hput ▸ hstep, fun ipaddr => ?_, fun ipaddr hne => ?_, ?_⟩
    · rw [hreport]
      by_cases hip : ipaddr = v.platform.netif_ip_addr
      · rw [hip, Function.update_self, Function.update_self]
        rfl
      · rw [Function.update_of_ne hip, Function.update_of_ne hip]
        exact hoffsets ipaddr
    · rw [hreport] at hne
      by_cases hip : ipaddr = v.platform.netif_ip_addr
      · rw [hip]
        exact hmem
      · rw [Function.update_of_ne hip] at hne
        exact hslaves ipaddr hne
    · rw [hput]
      exact Slots.put_turn_le hturn

/-- At every moment the table mirrors the last reports of up to 16 slaves. -/
theorem monitor_mirrors {slaves : Finset UInt32} (hzero : 0 ∉ slaves)
    (hcard : slaves.card ≤ ptpMonitorlConstant) {last : UInt32 → Option TimeInternal} {w : World}
    (h : Reporting slaves last w) : w.Mirrors last := by
  obtain ⟨entries, hrepresents, hoffsets, hslaves, -⟩ := h.entered hcard
  refine ⟨fun ipaddr offset hlast => ?_, fun i hi hne => ?_⟩
  · rw [hoffsets] at hlast
    obtain ⟨entry, hentry, hoffset⟩ := Option.map_eq_some_iff.mp hlast
    have hne : ipaddr ≠ 0 := by
      rintro rfl
      exact hzero (hslaves 0 (by rw [hentry]; exact Option.some_ne_none _))
    obtain ⟨hkey, i, hi, hfound⟩ := hrepresents.found ipaddr hne entry hentry
    have hslot : w.ptpMonitorl i = entry := hfound
    refine ⟨i, hi, by rw [hslot, hkey], by rw [hslot, hoffset], ?_⟩
    intro j hj hip
    refine hrepresents.distinct j hj i hi ?_ (hip.symm ▸ hne)
    change (w.ptpMonitorl j).ipaddr = (w.ptpMonitorl i).ipaddr
    rw [hip, hslot, hkey]
  · have honly : entries (w.ptpMonitorl i).ipaddr = some (w.ptpMonitorl i) :=
      hrepresents.only i hi hne
    rw [hoffsets, honly]
    rfl

/-- A master with the message that `v` has sent. -/
def World.withMessageOf (w v : World) : World :=
  { w with
    portDS.portState := .PTP_MASTER
    msgIbufLength := MANAGEMENT_LENGTH
    msgIbuf := (issueManagement v).msgObuf }

theorem Reporting.withMessageOf {slaves : Finset UInt32} {last : UInt32 → Option TimeInternal}
    {w v : World} (h : Reporting slaves last w) (hmem : v.platform.netif_ip_addr ∈ slaves)
    (hcanonical : v.currentDS.offsetFromMaster.Canonical)
    (hseconds : SRange 32 v.currentDS.offsetFromMaster.seconds) {time : TimeInternal}
    (htx : v.platform.tx.head = .sent time) :
    Reporting slaves
      (Function.update last v.platform.netif_ip_addr (some v.currentDS.offsetFromMaster))
      (handleManagement false (w.withMessageOf v)) := by
  have hlog : (issueManagement v).log =
      ⟨.send .general .ptp (take MANAGEMENT_LENGTH (issueManagement v).msgObuf)
        v.platform.tx.head, (issueManagement v).toPtpClock⟩ :: v.log := by
    rw [issueManagement_eq]
    rfl
  rw [htx] at hlog
  have hother : Reporting slaves last (w.withMessageOf v) := h.other rfl rfl
  exact hother.report hmem hcanonical hseconds hlog rfl rfl rfl

/-- A slave with an address and an offset. -/
def slaveAt (ipaddr : UInt32) (offsetFromMaster : TimeInternal) : World :=
  { World.zero { Platform.steady with netif_ip_addr := ipaddr } with
    currentDS.offsetFromMaster := offsetFromMaster }

/-- One slave reports that it is behind, another that it is ahead. -/
theorem monitor_mirrors_two :
    (handleManagement false ((handleManagement false ((World.zero .steady).withMessageOf
      (slaveAt 0xC0A80002 ⟨-1, -5⟩))).withMessageOf (slaveAt 0xC0A80003 ⟨0, 7⟩))).Mirrors
      (Function.update (Function.update (fun _ => none) 0xC0A80002 (some ⟨-1, -5⟩))
        0xC0A80003 (some ⟨0, 7⟩)) := by
  have hstart : Reporting {0xC0A80002, 0xC0A80003} (fun _ => none) (World.zero .steady) :=
    .start (fun _ => rfl) rfl
  have hfirst := hstart.withMessageOf (v := slaveAt 0xC0A80002 ⟨-1, -5⟩) (by decide)
    ⟨by decide, by decide, by decide, by decide⟩ (by decide) rfl
  have hsecond := hfirst.withMessageOf (v := slaveAt 0xC0A80003 ⟨0, 7⟩) (by decide)
    ⟨by decide, by decide, by decide, by decide⟩ (by decide) rfl
  exact monitor_mirrors (by decide) (by decide) hsecond

end Ptpd
