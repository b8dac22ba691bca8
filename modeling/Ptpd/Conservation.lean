import Ptpd.Lib.Ring
import Ptpd.Refinement.Act

/-! # Conservation of packets

    lwIP hands every received packet over to the stack, which has to keep it in
    a queue or to free it. The ledger of a run sets what was passed to the
    receive callbacks against what the queues hold, what was freed, and what was
    lost: the packets that are too long to be copied, and what the queues held
    when the network was started again.
-/

namespace Ptpd

open History

variable {w w' : World}

/-! ## Queues -/

/-- The packets waiting in the queue, oldest first. -/
def BufQueue.held (q : BufQueue) : List Pbuf := Ring.contents PBUF_QUEUE_SIZE q.pbuf q.get q.count

def BufQueue.WellFormed (q : BufQueue) : Prop :=
  Ring.WellFormed PBUF_QUEUE_SIZE q.get q.put q.count

theorem BufQueue.held_eq_nil {q : BufQueue} : q.held = [] ↔ q.count = 0 := by
  rw [← List.length_eq_zero_iff]
  simp [BufQueue.held]

variable {q : BufQueue}

theorem netQInit_wellFormed (q : BufQueue) : (netQInit q).WellFormed :=
  Ring.WellFormed.empty (by decide)

theorem netQPut_full (h : ¬ q.count < PBUF_QUEUE_SIZE) (p : Pbuf) : netQPut q p = (false, q) :=
  if_pos (by omega)

theorem netQPut_stored (h : q.count < PBUF_QUEUE_SIZE) (p : Pbuf) :
    netQPut q p =
      (true,
        { pbuf := fun j => if j = q.put then p else q.pbuf j
          get := q.get
          put := (q.put + 1) % PBUF_QUEUE_SIZE
          count := q.count + 1 }) :=
  if_neg (by omega)

theorem netQPut_wellFormed (h : q.WellFormed) (p : Pbuf) : (netQPut q p).2.WellFormed := by
  by_cases hroom : q.count < PBUF_QUEUE_SIZE
  · rw [netQPut_stored hroom]
    exact h.push hroom
  · rw [netQPut_full hroom]
    exact h

theorem netQPut_held (h : q.WellFormed) (hroom : q.count < PBUF_QUEUE_SIZE) (p : Pbuf) :
    (netQPut q p).2.held = q.held ++ [p] := by
  rw [netQPut_stored hroom]
  exact h.contents_push hroom p

theorem netQGet_wellFormed (h : q.WellFormed) : (netQGet q).2.WellFormed := by
  unfold netQGet
  split
  · exact h
  · next hcount =>
    obtain ⟨count, hcount⟩ : ∃ count, q.count = count + 1 := ⟨q.count - 1, by omega⟩
    unfold BufQueue.WellFormed at h ⊢
    rw [hcount] at h
    dsimp only
    rw [hcount]
    exact h.pop

/-- What is taken is the first packet that the queue holds. -/
theorem netQGet_held (q : BufQueue) : q.held = (netQGet q).1.toList ++ (netQGet q).2.held := by
  unfold netQGet
  split
  · rfl
  · next hcount =>
    obtain ⟨count, hcount⟩ : ∃ count, q.count = count + 1 := ⟨q.count - 1, by omega⟩
    unfold BufQueue.held
    rw [hcount]
    rfl

theorem netQEmptyLoop_wellFormed (cnt : Nat) (h : q.WellFormed) :
    (netQEmptyLoop cnt q).2.WellFormed := by
  induction cnt generalizing q with
  | zero => exact h
  | succ cnt ih => exact ih (netQGet_wellFormed h)

theorem netQEmptyLoop_held (cnt : Nat) (q : BufQueue) :
    q.held = (netQEmptyLoop cnt q).1 ++ (netQEmptyLoop cnt q).2.held := by
  induction cnt generalizing q with
  | zero => rfl
  | succ cnt ih =>
    calc q.held = (netQGet q).1.toList ++ (netQGet q).2.held := netQGet_held q
      _ = (netQGet q).1.toList ++ ((netQEmptyLoop cnt (netQGet q).2).1 ++
            (netQEmptyLoop cnt (netQGet q).2).2.held) := congrArg _ (ih (netQGet q).2)
      _ = _ := (List.append_assoc _ _ _).symm

theorem netQEmpty_held (q : BufQueue) : q.held = (netQEmpty q).1 ++ (netQEmpty q).2.held :=
  netQEmptyLoop_held q.count q

/-! ## The ledger -/

def NetPath.held (netPath : NetPath) : List Pbuf := netPath.eventQ.held ++ netPath.generalQ.held

structure NetPath.WellFormed (netPath : NetPath) : Prop where
  eventQ : netPath.eventQ.WellFormed
  generalQ : netPath.generalQ.WellFormed

def LogEntry.freed? (x : LogEntry) : Option Pbuf :=
  match x.call with
  | .pbuf_free p => some p
  | _ => none

/-- The packets that were passed to `pbuf_free`. -/
def freed (log : List LogEntry) : List Pbuf := log.filterMap LogEntry.freed?

/-- The operations that packets go through. -/
inductive NetOp where
  | netRecvEventCallback (p : Pbuf)
  | netRecvGeneralCallback (p : Pbuf)
  | netRecvEvent (time : TimeInternal)
  | netRecvGeneral (time : TimeInternal)
  | initClock
  /-- `netShutdown` and `netInit`. -/
  | netInit

def NetOp.apply : NetOp → World → World
  | .netRecvEventCallback p, w => Ptpd.netRecvEventCallback p w
  | .netRecvGeneralCallback p, w => Ptpd.netRecvGeneralCallback p w
  | .netRecvEvent time, w => (Ptpd.netRecvEvent time w).2
  | .netRecvGeneral time, w => (Ptpd.netRecvGeneral time w).2
  | .initClock, w => Ptpd.initClock w
  | .netInit, w => (Ptpd.netInit (netShutdown w)).2

/-- The packet that lwIP hands over. -/
def NetOp.passed : NetOp → List Pbuf
  | .netRecvEventCallback p | .netRecvGeneralCallback p => [p]
  | .netRecvEvent _ | .netRecvGeneral _ | .initClock | .netInit => []

/-- The packet is longer than the input buffer. -/
def Pbuf.oversize (p : Pbuf) : Bool := PACKET_SIZE < p.tot_len

/-- lwIP has an address and two UDP blocks. -/
def Iface.up (iface : Iface) : Bool := iface.ip_addr ≠ 0 && iface.eventPcb && iface.generalPcb

/-- The packets that the operation drops without freeing them. -/
def NetOp.lost : NetOp → World → List Pbuf
  | .netRecvEvent _, w => (netQGet w.netPath.eventQ).1.toList.filter Pbuf.oversize
  | .netRecvGeneral _, w => (netQGet w.netPath.generalQ).1.toList.filter Pbuf.oversize
  | .netInit, w => if w.platform.iface.head.up then w.netPath.held else []
  | .netRecvEventCallback _, _ | .netRecvGeneralCallback _, _ | .initClock, _ => []

/-- What the operation must find for no packet to be lost. -/
def NetOp.Safe : NetOp → World → Prop
  | .netRecvEvent _, w => ∀ p ∈ (netQGet w.netPath.eventQ).1, p.tot_len ≤ PACKET_SIZE
  | .netRecvGeneral _, w => ∀ p ∈ (netQGet w.netPath.generalQ).1, p.tot_len ≤ PACKET_SIZE
  | .netInit, w =>
    w.platform.iface.head.up → w.netPath.eventQ.count = 0 ∧ w.netPath.generalQ.count = 0
  | .netRecvEventCallback _, _ | .netRecvGeneralCallback _, _ | .initClock, _ => True

theorem filter_oversize_eq_nil {p : Option Pbuf} :
    p.toList.filter Pbuf.oversize = [] ↔ ∀ x ∈ p, x.tot_len ≤ PACKET_SIZE := by
  cases p with
  | none => simp
  | some p => simp [Pbuf.oversize, List.filter_cons]

theorem NetOp.lost_eq_nil (op : NetOp) (w : World) : op.lost w = [] ↔ op.Safe w := by
  cases op with
  | netRecvEvent time => exact filter_oversize_eq_nil
  | netRecvGeneral time => exact filter_oversize_eq_nil
  | netInit =>
    unfold NetOp.lost NetOp.Safe
    by_cases hup : w.platform.iface.head.up = true
    · simp [hup, NetPath.held, BufQueue.held_eq_nil]
    · simp [hup]
  | netRecvEventCallback p | netRecvGeneralCallback p | initClock => exact iff_of_true rfl trivial

/-! ## One operation -/

/-- What the queues of `netPath` hold and what `log` says was freed. -/
def accounted (netPath : NetPath) (log : List LogEntry) : List Pbuf := netPath.held ++ freed log

@[simp] theorem freed_record_free (w : World) (p : Pbuf) :
    freed (w.record (.pbuf_free p)).log = p :: freed w.log := rfl

theorem freeAll_freed (ps : List Pbuf) (w : World) :
    (freed (freeAll ps w).log).Perm (ps ++ freed w.log) := by
  induction ps generalizing w with
  | nil => exact .refl _
  | cons p ps ih => exact (ih (w.record (.pbuf_free p))).trans List.perm_middle

theorem netRecv_netPath (p : Option Pbuf) (time : TimeInternal) (w : World) :
    (netRecv p time w).2.netPath = w.netPath :=
  congrArg Setting.netPath (netRecv_setting p time w)

/-- A packet that was taken is copied and freed, or too long and dropped. -/
theorem netRecv_freed (p : Option Pbuf) (time : TimeInternal) (w : World) :
    (p.toList ++ freed w.log).Perm
      (freed (netRecv p time w).2.log ++ p.toList.filter Pbuf.oversize) := by
  unfold netRecv
  cases p with
  | none => simp
  | some p =>
    dsimp only
    split
    · next hlong =>
      have hover : [p].filter Pbuf.oversize = [p] := by simp [Pbuf.oversize, hlong]
      rw [Option.toList_some, hover]
      exact List.perm_append_comm
    · next hshort =>
      have hover : [p].filter Pbuf.oversize = [] := by
        simpa [Pbuf.oversize] using Nat.le_of_not_lt hshort
      rw [Option.toList_some, hover, List.append_nil]
      exact .refl _

/-- A stored packet is held by the queue that it was put in. -/
theorem stored_balance {netPath netPath' : NetPath} {log : List LogEntry} {p : Pbuf}
    (hheld : netPath'.held.Perm (p :: netPath.held)) :
    (p :: accounted netPath log).Perm (accounted netPath' log) :=
  (hheld.append_right (freed log)).symm

theorem netRecvEventCallback_balance (hw : w.netPath.WellFormed) (p : Pbuf) :
    (p :: accounted w.netPath w.log).Perm
      (accounted (netRecvEventCallback p w).netPath (netRecvEventCallback p w).log) := by
  unfold netRecvEventCallback
  by_cases hroom : w.netPath.eventQ.count < PBUF_QUEUE_SIZE
  · have hheld := netQPut_held hw.eventQ hroom p
    rw [netQPut_stored hroom] at hheld ⊢
    apply stored_balance
    unfold NetPath.held
    dsimp only at hheld ⊢
    rw [if_pos rfl, hheld, List.append_assoc]
    exact List.perm_middle
  · -- a packet that finds no room is freed at once
    rw [netQPut_full hroom]
    exact List.perm_middle.symm

theorem netRecvGeneralCallback_balance (hw : w.netPath.WellFormed) (p : Pbuf) :
    (p :: accounted w.netPath w.log).Perm
      (accounted (netRecvGeneralCallback p w).netPath (netRecvGeneralCallback p w).log) := by
  unfold netRecvGeneralCallback
  by_cases hroom : w.netPath.generalQ.count < PBUF_QUEUE_SIZE
  · have hheld := netQPut_held hw.generalQ hroom p
    rw [netQPut_stored hroom] at hheld ⊢
    apply stored_balance
    unfold NetPath.held
    dsimp only at hheld ⊢
    rw [if_pos rfl, hheld, ← List.append_assoc]
    exact List.perm_append_singleton _ _
  · rw [netQPut_full hroom]
    exact List.perm_middle.symm

/-- Receiving from either queue: `netPath` is what it was before the packet was taken. -/
theorem netRecv_balance {netPath : NetPath} {p : Option Pbuf} (time : TimeInternal) (w : World)
    (htaken : netPath.held.Perm (p.toList ++ w.netPath.held)) :
    (accounted netPath w.log).Perm
      (accounted (netRecv p time w).2.netPath (netRecv p time w).2.log ++
        p.toList.filter Pbuf.oversize) := by
  have hfreed := netRecv_freed p time w
  rw [netRecv_netPath]
  apply List.perm_iff_count.mpr
  intro a
  have hcount := hfreed.count_eq a
  have hheld := htaken.count_eq a
  simp only [accounted, List.count_append] at hcount hheld ⊢
  omega

theorem netRecvEvent_balance (time : TimeInternal) (w : World) :
    (accounted w.netPath w.log).Perm
      (accounted (netRecvEvent time w).2.netPath (netRecvEvent time w).2.log ++
        (netQGet w.netPath.eventQ).1.toList.filter Pbuf.oversize) := by
  have htaken : w.netPath.held.Perm ((netQGet w.netPath.eventQ).1.toList ++
      NetPath.held { w.netPath with eventQ := (netQGet w.netPath.eventQ).2 }) := by
    unfold NetPath.held
    rw [netQGet_held w.netPath.eventQ, List.append_assoc]
  exact netRecv_balance time { w with netPath.eventQ := (netQGet w.netPath.eventQ).2 } htaken

theorem netRecvGeneral_balance (time : TimeInternal) (w : World) :
    (accounted w.netPath w.log).Perm
      (accounted (netRecvGeneral time w).2.netPath (netRecvGeneral time w).2.log ++
        (netQGet w.netPath.generalQ).1.toList.filter Pbuf.oversize) := by
  have htaken : w.netPath.held.Perm ((netQGet w.netPath.generalQ).1.toList ++
      NetPath.held { w.netPath with generalQ := (netQGet w.netPath.generalQ).2 }) := by
    unfold NetPath.held
    rw [netQGet_held w.netPath.generalQ]
    -- what was taken stood behind the packets of the event queue
    exact List.perm_append_comm_assoc _ _ _
  exact netRecv_balance time { w with netPath.generalQ := (netQGet w.netPath.generalQ).2 } htaken

theorem netEmptyEventQ_freed (w : World) :
    (freed (netEmptyEventQ w).log).Perm ((netQEmpty w.netPath.eventQ).1 ++ freed w.log) :=
  freeAll_freed (netQEmpty w.netPath.eventQ).1
    { w with netPath.eventQ := (netQEmpty w.netPath.eventQ).2 }

theorem initClock_freed (w : World) :
    (freed (initClock w).log).Perm ((netQEmpty w.netPath.eventQ).1 ++ freed w.log) := by
  have hpath : (initClockData w).netPath = w.netPath := rfl
  have hlog : (initClockData w).log = w.log := rfl
  unfold initClock
  generalize initClockData w = w₁ at hpath hlog ⊢
  dsimp only
  rw [← hpath, ← hlog]
  split
  · exact netEmptyEventQ_freed (adjFreq 0 w₁)
  · exact netEmptyEventQ_freed w₁

/-- `initClock` frees what it takes out of the event queue. -/
theorem initClock_balance (w : World) :
    (accounted w.netPath w.log).Perm
      (accounted (initClock w).netPath (initClock w).log) := by
  have hpath : (initClock w).netPath =
      { w.netPath with eventQ := (netQEmpty w.netPath.eventQ).2 } :=
    congrArg Setting.netPath (initClock_setting w)
  have hheld := netQEmpty_held w.netPath.eventQ
  rw [hpath]
  apply List.perm_iff_count.mpr
  intro a
  have hcount := (initClock_freed w).count_eq a
  simp only [accounted, NetPath.held, hheld, List.count_append] at hcount ⊢
  omega

theorem netInit_netPath (w : World) :
    (netInit w).2.netPath =
      if w.platform.iface.head.up then
        { eventQ := netQInit w.netPath.eventQ, generalQ := netQInit w.netPath.generalQ }
      else w.netPath := by
  unfold netInit Iface.up
  dsimp only
  by_cases haddr : w.platform.iface.head.ip_addr = 0
  · simp [haddr]
  · by_cases hevent : w.platform.iface.head.eventPcb = true
    · by_cases hgeneral : w.platform.iface.head.generalPcb = true
      · simp [haddr, hevent, hgeneral]
      · simp [haddr, hevent, hgeneral]
    · simp [haddr, hevent]

/-- The network starts with empty queues, whatever they held. -/
theorem netInit_balance (w : World) :
    (accounted w.netPath w.log).Perm
      (accounted (netInit w).2.netPath (netInit w).2.log ++
        if w.platform.iface.head.up then w.netPath.held else []) := by
  have hlog : (netInit w).2.log = w.log := congrArg Engine.log (netInit_engine w)
  rw [netInit_netPath, hlog]
  split
  · unfold accounted
    rw [show NetPath.held
      { eventQ := netQInit w.netPath.eventQ, generalQ := netQInit w.netPath.generalQ } = [] from rfl]
    exact List.perm_append_comm
  · rw [List.append_nil]

/-- What was passed is held, was freed or is lost. -/
theorem NetOp.balance (op : NetOp) (hw : w.netPath.WellFormed) :
    (op.passed ++ accounted w.netPath w.log).Perm
      (accounted (op.apply w).netPath (op.apply w).log ++ op.lost w) := by
  cases op with
  | netRecvEventCallback p =>
    rw [show NetOp.lost (.netRecvEventCallback p) w = [] from rfl, List.append_nil]
    exact netRecvEventCallback_balance hw p
  | netRecvGeneralCallback p =>
    rw [show NetOp.lost (.netRecvGeneralCallback p) w = [] from rfl, List.append_nil]
    exact netRecvGeneralCallback_balance hw p
  | netRecvEvent time => exact netRecvEvent_balance time w
  | netRecvGeneral time => exact netRecvGeneral_balance time w
  | initClock =>
    rw [show NetOp.lost .initClock w = [] from rfl, List.append_nil]
    exact initClock_balance w
  | netInit => exact netInit_balance w

theorem NetOp.wellFormed (op : NetOp) (hw : w.netPath.WellFormed) :
    (op.apply w).netPath.WellFormed := by
  cases op with
  | netRecvEventCallback p =>
    have hpath : (Ptpd.netRecvEventCallback p w).netPath = _ :=
      congrArg Setting.netPath (netRecvEventCallback_setting p w)
    rw [NetOp.apply, hpath]
    exact ⟨netQPut_wellFormed hw.eventQ p, hw.generalQ⟩
  | netRecvGeneralCallback p =>
    have hpath : (Ptpd.netRecvGeneralCallback p w).netPath = _ :=
      congrArg Setting.netPath (netRecvGeneralCallback_setting p w)
    rw [NetOp.apply, hpath]
    exact ⟨hw.eventQ, netQPut_wellFormed hw.generalQ p⟩
  | netRecvEvent time =>
    have hpath : (Ptpd.netRecvEvent time w).2.netPath = _ :=
      congrArg Setting.netPath (netRecvEvent_setting time w)
    rw [NetOp.apply, hpath]
    exact ⟨netQGet_wellFormed hw.eventQ, hw.generalQ⟩
  | netRecvGeneral time =>
    have hpath : (Ptpd.netRecvGeneral time w).2.netPath = _ :=
      congrArg Setting.netPath (netRecvGeneral_setting time w)
    rw [NetOp.apply, hpath]
    exact ⟨hw.eventQ, netQGet_wellFormed hw.generalQ⟩
  | initClock =>
    have hpath : (Ptpd.initClock w).netPath = _ :=
      congrArg Setting.netPath (initClock_setting w)
    rw [NetOp.apply, hpath]
    exact ⟨netQEmptyLoop_wellFormed _ hw.eventQ, hw.generalQ⟩
  | netInit =>
    rw [NetOp.apply, netShutdown, netInit_netPath]
    split
    · exact ⟨netQInit_wellFormed _, netQInit_wellFormed _⟩
    · exact hw

/-! ## Runs -/

/-- The worlds that these operations lead to from power-on, with each operation
    and the world it found, newest first. Between two of them the rest of the
    stack may do anything that neither touches the queues nor frees a packet. -/
inductive NetRun : World → List (NetOp × World) → Prop where
  | zero (platform : Platform) : NetRun (World.zero platform) []
  | op {w : World} {trace : List (NetOp × World)} (op : NetOp) (h : NetRun w trace) :
      NetRun (op.apply w) ((op, w) :: trace)
  | other {w w' : World} {trace : List (NetOp × World)} (h : NetRun w trace)
      (hpath : w'.netPath = w.netPath) (hfreed : freed w'.log = freed w.log) : NetRun w' trace

/-- The packets that were handed over, newest first. -/
def passed (trace : List (NetOp × World)) : List Pbuf := trace.flatMap fun e => e.1.passed

/-- The packets that were lost. -/
def lost (trace : List (NetOp × World)) : List Pbuf := trace.flatMap fun e => e.1.lost e.2

/-- However often a packet was handed over, so often it is in a slot of a queue
    or was freed. -/
def Conserved (w : World) (trace : List (NetOp × World)) : Prop :=
  ∀ p, (passed trace).count p = w.netPath.held.count p + (freed w.log).count p

variable {trace : List (NetOp × World)}

theorem NetRun.wellFormed (h : NetRun w trace) : w.netPath.WellFormed := by
  induction h with
  | zero platform => exact ⟨Ring.WellFormed.empty (by decide), Ring.WellFormed.empty (by decide)⟩
  | op op _ ih => exact op.wellFormed ih
  | other _ hpath _ ih =>
    rw [hpath]
    exact ih

/-- The ledger of a run. -/
theorem NetRun.balance (h : NetRun w trace) :
    (passed trace).Perm (accounted w.netPath w.log ++ lost trace) := by
  induction h with
  | zero platform => exact .refl _
  | @op w trace op hrun ih =>
    have hstep := op.balance hrun.wellFormed
    apply List.perm_iff_count.mpr
    intro a
    have hbefore := ih.count_eq a
    have hafter := hstep.count_eq a
    simp only [passed, lost, List.flatMap_cons, List.count_append] at hbefore hafter ⊢
    omega
  | other _ hpath hfreed ih =>
    unfold accounted at ih ⊢
    rw [hpath, hfreed]
    exact ih

theorem lost_eq_nil : lost trace = [] ↔ ∀ e ∈ trace, e.1.Safe e.2 := by
  unfold lost
  rw [List.flatMap_eq_nil_iff]
  exact forall₂_congr fun e _ => e.1.lost_eq_nil e.2

/-- Packets are conserved exactly in the runs that take no packet that is too long
    and start the network with empty queues only. -/
theorem conserved_iff_safe (h : NetRun w trace) :
    Conserved w trace ↔ ∀ e ∈ trace, e.1.Safe e.2 := by
  rw [← lost_eq_nil]
  have hcount : ∀ p, (passed trace).count p =
      w.netPath.held.count p + (freed w.log).count p + (lost trace).count p := by
    intro p
    have hbalance := h.balance.count_eq p
    simpa only [accounted, List.count_append] using hbalance
  constructor
  · intro hconserved
    apply List.eq_nil_iff_forall_not_mem.mpr
    intro p hp
    have hpos : 0 < (lost trace).count p := List.count_pos_iff.mpr hp
    have heq := hconserved p
    have hp' := hcount p
    omega
  · intro hlost p
    have hp' := hcount p
    simpa [hlost] using hp'

/-- One packet waits in either queue. -/
def twoWaiting : World :=
  netRecvGeneralCallback (samplePacket [1, 2] 100)
    (netRecvEventCallback (samplePacket [1, 2] 100) (World.zero .steady))

/-- The general one is read. -/
def twoPackets : List (NetOp × World) :=
  [(.netRecvGeneral ⟨0, 0⟩, twoWaiting),
    (.netRecvGeneralCallback (samplePacket [1, 2] 100),
      netRecvEventCallback (samplePacket [1, 2] 100) (World.zero .steady)),
    (.netRecvEventCallback (samplePacket [1, 2] 100), World.zero .steady)]

theorem conserved_twoPackets : Conserved (netRecvGeneral ⟨0, 0⟩ twoWaiting).2 twoPackets := by
  have hrun := (((NetRun.zero .steady).op (.netRecvEventCallback (samplePacket [1, 2] 100))).op
    (.netRecvGeneralCallback (samplePacket [1, 2] 100))).op (.netRecvGeneral ⟨0, 0⟩)
  refine (conserved_iff_safe hrun).mpr ?_
  intro e he
  simp only [List.mem_cons, List.not_mem_nil, or_false] at he
  rcases he with rfl | rfl | rfl
  · intro p hp
    obtain rfl : p = samplePacket [1, 2] 100 := (Option.some.inj hp).symm
    decide
  · trivial
  · trivial

/-! ## The stack -/

/-- The run goes on to `w` without a packet being handed over. -/
def Continues (w : World) (trace : List (NetOp × World)) : Prop :=
  ∃ new, NetRun w (new ++ trace) ∧ passed new = []

theorem NetRun.continues (h : NetRun w trace) : Continues w trace := ⟨[], h, rfl⟩

/-- Only what cannot free a packet is recorded. -/
theorem Grows.freed_eq {P : Call → Prop} (h : Grows P w w') (hP : ∀ p, ¬ P (.pbuf_free p)) :
    freed w'.log = freed w.log := by
  obtain ⟨new, hlog, hnew⟩ := h
  have hnone : freed new = [] := by
    apply List.filterMap_eq_nil_iff.mpr
    intro x hx
    have hx' := hnew x hx
    unfold LogEntry.freed?
    split
    · next p hcall =>
      rw [hcall] at hx'
      exact absurd hx' (hP p)
    · rfl
  rw [hlog, freed, List.filterMap_append]
  exact congrArg (· ++ freed w.log) hnone

theorem Continues.other (h : Continues w trace) (hpath : w'.netPath = w.netPath)
    (hfreed : freed w'.log = freed w.log) : Continues w' trace := by
  obtain ⟨new, hrun, hnew⟩ := h
  exact ⟨new, hrun.other hpath hfreed, hnew⟩

theorem Continues.op (h : Continues w trace) (op : NetOp) (hop : op.passed = []) :
    Continues (op.apply w) trace := by
  obtain ⟨new, hrun, hnew⟩ := h
  refine ⟨(op, w) :: new, hrun.op op, ?_⟩
  rw [passed, List.flatMap_cons, hop]
  exact hnew

theorem Continues.quiet (h : Continues w trace) (hquiet : Quiet w w') : Continues w' trace :=
  h.other (congrArg Setting.netPath hquiet.setting) (hquiet.grows.freed_eq fun _ => id)

theorem timerStop_netPath (i : Timer) (w : World) : (timerStop i w).netPath = w.netPath := rfl

theorem stopRequestTimer_netPath (w : World) : (stopRequestTimer w).netPath = w.netPath := by
  unfold stopRequestTimer
  split <;> rfl

theorem Continues.leaveState (h : Continues w trace) (s : PortState) :
    Continues (leaveState s w) trace := by
  have hclock : Continues (initClock w) trace := h.op .initClock rfl
  unfold Ptpd.leaveState
  cases w.portDS.portState
  case PTP_INITIALIZING | PTP_FAULTY | PTP_DISABLED => exact h
  case PTP_LISTENING | PTP_PRE_MASTER | PTP_MASTER | PTP_PASSIVE =>
    exact hclock.other (by simp only [timerStop_netPath]) (by simp only [timerStop_log])
  case PTP_UNCALIBRATED | PTP_SLAVE =>
    dsimp only
    split
    · exact h
    · refine Continues.op (h.other ?_ ?_) .initClock rfl
      · simp only [stopRequestTimer_netPath, timerStop_netPath]
      · simp only [stopRequestTimer_log, timerStop_log]

theorem enterState_netPath (s : PortState) (w : World) :
    (enterState s w).netPath = w.netPath := by
  cases s
  case PTP_MASTER =>
    dsimp only [enterState, startPDelayTimer]
    split <;> rfl
  case PTP_PASSIVE =>
    dsimp only [enterState]
    split <;> rfl
  case PTP_UNCALIBRATED =>
    dsimp only [enterState, startRequestTimer]
    split <;> rfl
  all_goals rfl

theorem Continues.toState (h : Continues w trace) (s : PortState) :
    Continues (toState s w) trace := by
  have hrecord : Continues { w.record (.toState s) with messageActivity := true } trace :=
    h.other rfl rfl
  exact (hrecord.leaveState s).other (enterState_netPath s _) (by rw [Ptpd.toState, enterState_log])

theorem Act.continues (h : Act w w') (hw : Continues w trace) : Continues w' trace := by
  cases h with
  | quiet h => exact hw.quiet h
  | toState s => exact hw.toState s
  | initClock => exact hw.op .initClock rfl
  | receiveEvent time => exact hw.op (.netRecvEvent time) rfl
  | receiveGeneral time => exact hw.op (.netRecvGeneral time) rfl
  | decide =>
    exact hw.other (stateDecision_frame w).2.2 ((stateDecision_grows w).freed_eq fun _ => id)
  | follow header announce => exact hw.other rfl rfl
  | restart => exact hw.other rfl rfl
  | m1 => exact hw.other rfl rfl
  | lead => exact hw.other rfl rfl
  | netInit => exact hw.op .netInit rfl
  | initData => exact hw.other rfl rfl
  | issue => exact hw.other rfl rfl
  | startup => exact hw.other rfl rfl

theorem Acts.continues (h : Acts w w') (hw : Continues w trace) : Continues w' trace := by
  induction h with
  | refl => exact hw
  | tail _ hlast ih => exact hlast.continues ih

/-- The packet that the input hands over. -/
def Input.passed : Input → List Pbuf
  | .netRecvEventCallback p | .netRecvGeneralCallback p => [p]
  | .ptpdStartup _ | .catchAlarm _ | .doState | .linkUp | .adjust _ => []

/-- One input continues the run, with the packet that it hands over. -/
theorem NetRun.step (h : NetRun w trace) (input : Input) (hc : w.core.Consistent) :
    ∃ trace', NetRun (step input w) trace' ∧ Ptpd.passed trace' = input.passed ++ Ptpd.passed trace := by
  have hacts : ∀ {w' : World}, Acts w w' →
      ∃ trace', NetRun w' trace' ∧ Ptpd.passed trace' = [] ++ Ptpd.passed trace := by
    intro w' hacts
    obtain ⟨new, hrun, hnew⟩ := hacts.continues h.continues
    refine ⟨new ++ trace, hrun, ?_⟩
    rw [Ptpd.passed, List.flatMap_append]
    exact congrArg (· ++ Ptpd.passed trace) hnew
  cases input with
  | ptpdStartup rtOpts => exact hacts (ptpdStartup_acts rtOpts w)
  | catchAlarm time_ms => exact hacts (Quiet.acts (.of_eq rfl rfl))
  | netRecvEventCallback p => exact ⟨_, h.op (.netRecvEventCallback p), rfl⟩
  | netRecvGeneralCallback p => exact ⟨_, h.op (.netRecvGeneralCallback p), rfl⟩
  | doState => exact hacts (doState_acts hc)
  | linkUp => exact hacts (.single (.toState .PTP_LISTENING (.inr (.inr (.inl rfl)))))
  | adjust offset =>
    have hquiet : Quiet w { w with currentDS.offsetFromMaster := offset } := .of_eq rfl rfl
    exact hacts (hquiet.acts.trans (updateClock_acts _))

/-- Every run of the stack is such a run, with the packets of its inputs. -/
theorem NetRun.runInputs (h : NetRun w trace) (hw : Reachable w) {inputs : List Input}
    (hv : ∀ input ∈ inputs, input.Valid) :
    ∃ trace', NetRun (runInputs inputs w) trace' ∧
      (Ptpd.passed trace').Perm (inputs.flatMap Input.passed ++ Ptpd.passed trace) := by
  induction inputs generalizing w trace with
  | nil => exact ⟨trace, h, .refl _⟩
  | cons input inputs ih =>
    obtain ⟨trace₁, hrun, hpassed⟩ := h.step input hw.consistent
    obtain ⟨trace₂, hrun', hpassed'⟩ := ih hrun (hw.step input (hv input (by simp)))
      fun i hi => hv i (by simp [hi])
    refine ⟨trace₂, hrun', hpassed'.trans ?_⟩
    rw [hpassed, List.flatMap_cons, ← List.append_assoc]
    exact (List.perm_append_comm).append_right _

theorem netRun_startup (platform : Platform) (rtOpts : RunTimeOpts) :
    ∃ trace, NetRun (ptpdStartup rtOpts (World.zero platform)) trace ∧ passed trace = [] := by
  obtain ⟨new, hrun, hnew⟩ := (ptpdStartup_acts rtOpts _).continues (NetRun.zero platform).continues
  refine ⟨new ++ [], hrun, ?_⟩
  rw [List.append_nil]
  exact hnew

/-- One octet more than the input buffer holds. -/
def oversizePacket : Pbuf := samplePacket (List.replicate 301 0) 100

/-- The port takes the packet from the queue and never frees it. -/
theorem oversize_packet_leaks :
    let w := sampleRun .E2E [.doState, .netRecvEventCallback oversizePacket, .doState]
    Reachable w ∧ ∃ trace, NetRun w trace ∧ passed trace = [oversizePacket] ∧
      w.netPath.held = [] ∧ oversizePacket ∉ freed w.log ∧ ¬ Conserved w trace := by
  intro w
  have hv : ∀ input ∈ [Input.doState, .netRecvEventCallback oversizePacket, .doState],
      input.Valid := by
    simp [Input.Valid]
  obtain ⟨trace, hrun, hnone⟩ := netRun_startup .steady (.sample .E2E)
  obtain ⟨trace', hrun', hpassed⟩ := hrun.runInputs (Reachable.init .steady (.sample .E2E) rfl) hv
  rw [hnone] at hpassed
  have hpassed' : passed trace' = [oversizePacket] := List.perm_singleton.mp hpassed
  have hheld : w.netPath.held = [] := by
    have hevent : w.netPath.eventQ.count = 0 := by decide +kernel
    have hgeneral : w.netPath.generalQ.count = 0 := by decide +kernel
    rw [NetPath.held, BufQueue.held_eq_nil.mpr hevent, BufQueue.held_eq_nil.mpr hgeneral]
    rfl
  have hfreed : oversizePacket ∉ freed w.log := by decide +kernel
  refine ⟨reachable_sampleRun .E2E hv, trace', hrun', hpassed', hheld, hfreed, ?_⟩
  intro hconserved
  have hcount := hconserved oversizePacket
  rw [hpassed', hheld, List.count_eq_zero_of_not_mem hfreed] at hcount
  simp at hcount

end Ptpd
