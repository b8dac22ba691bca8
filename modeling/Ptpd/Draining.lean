import Ptpd.Conservation

/-! # Packets that wait

    What the state machine does to the two queues: no pass adds a packet, and a port
    that handles messages takes one, wherever one waits.
-/

namespace Ptpd

open PortState

variable {w w' : World}

/-- The packets in both queues. -/
def NetPath.waiting (netPath : NetPath) : Nat := netPath.eventQ.count + netPath.generalQ.count

/-! ## No pass adds a packet -/

theorem netQGet_count (q : BufQueue) : (netQGet q).2.count = q.count - 1 := by
  unfold netQGet
  split
  · next hempty =>
    show q.count = q.count - 1
    omega
  · rfl

theorem netQEmptyLoop_count (cnt : Nat) (q : BufQueue) :
    (netQEmptyLoop cnt q).2.count = q.count - cnt := by
  induction cnt generalizing q with
  | zero => rfl
  | succ cnt ih =>
    have hrest := ih (netQGet q).2
    rw [netQGet_count] at hrest
    refine hrest.trans ?_
    omega

theorem netQEmpty_count (q : BufQueue) : (netQEmpty q).2.count = 0 := by
  unfold netQEmpty
  rw [netQEmptyLoop_count, Nat.sub_self]

theorem initClock_waiting (w : World) : (initClock w).netPath.waiting ≤ w.netPath.waiting := by
  have hpath : (initClock w).netPath =
      { w.netPath with eventQ := (netQEmpty w.netPath.eventQ).2 } :=
    congrArg Setting.netPath (initClock_setting w)
  rw [hpath]
  unfold NetPath.waiting
  dsimp only
  rw [netQEmpty_count]
  omega

theorem leaveState_waiting (s : PortState) (w : World) :
    (leaveState s w).netPath.waiting ≤ w.netPath.waiting := by
  have hclock := initClock_waiting w
  unfold leaveState
  cases w.portDS.portState
  case PTP_INITIALIZING | PTP_FAULTY | PTP_DISABLED => exact le_rfl
  case PTP_LISTENING | PTP_PRE_MASTER | PTP_MASTER | PTP_PASSIVE =>
    simpa only [timerStop_netPath] using hclock
  case PTP_UNCALIBRATED | PTP_SLAVE =>
    dsimp only
    split
    · exact le_rfl
    · refine (initClock_waiting _).trans ?_
      simp only [stopRequestTimer_netPath, timerStop_netPath, le_refl]

theorem toState_waiting (s : PortState) (w : World) :
    (toState s w).netPath.waiting ≤ w.netPath.waiting := by
  unfold toState
  rw [enterState_netPath]
  exact leaveState_waiting s _

theorem netRecvEvent_netPath (time : TimeInternal) (w : World) :
    (netRecvEvent time w).2.netPath =
      { w.netPath with eventQ := (netQGet w.netPath.eventQ).2 } :=
  congrArg Setting.netPath (netRecvEvent_setting time w)

theorem netRecvGeneral_netPath (time : TimeInternal) (w : World) :
    (netRecvGeneral time w).2.netPath =
      { w.netPath with generalQ := (netQGet w.netPath.generalQ).2 } :=
  congrArg Setting.netPath (netRecvGeneral_setting time w)

theorem netRecvEvent_waiting (time : TimeInternal) (w : World) :
    (netRecvEvent time w).2.netPath.waiting =
      w.netPath.eventQ.count - 1 + w.netPath.generalQ.count := by
  rw [netRecvEvent_netPath]
  unfold NetPath.waiting
  rw [netQGet_count]

theorem netRecvGeneral_waiting (time : TimeInternal) (w : World) :
    (netRecvGeneral time w).2.netPath.waiting =
      w.netPath.eventQ.count + (w.netPath.generalQ.count - 1) := by
  rw [netRecvGeneral_netPath]
  unfold NetPath.waiting
  rw [netQGet_count]

theorem Act.waiting_le (h : Act w w') : w'.netPath.waiting ≤ w.netPath.waiting := by
  cases h with
  | quiet h => rw [show w'.netPath = w.netPath from congrArg Setting.netPath h.setting]
  | toState s => exact toState_waiting s w
  | initClock => exact initClock_waiting w
  | receiveEvent time =>
    rw [netRecvEvent_waiting]
    unfold NetPath.waiting
    omega
  | receiveGeneral time =>
    rw [netRecvGeneral_waiting]
    unfold NetPath.waiting
    omega
  | decide => rw [(stateDecision_frame w).2.2]
  | netInit =>
    -- a network that comes up begins with empty queues
    rw [netInit_netPath]
    split
    · exact Nat.zero_le _
    · exact le_rfl
  | follow header announce => exact le_rfl
  | restart => exact le_rfl
  | m1 => exact le_rfl
  | lead => exact le_rfl
  | initData => exact le_rfl
  | issue => exact le_rfl
  | startup => exact le_rfl

theorem Acts.waiting_le (h : Acts w w') : w'.netPath.waiting ≤ w.netPath.waiting := by
  induction h with
  | refl => exact le_rfl
  | tail _ hlast ih => exact hlast.waiting_le.trans ih

theorem doState_consistent (hc : w.core.Consistent) : (doState w).core.Consistent :=
  (doState_run w).consistent hc

theorem doState_waiting_le (hc : w.core.Consistent) :
    (doState w).netPath.waiting ≤ w.netPath.waiting :=
  Acts.waiting_le (doState_acts hc)

theorem doState_waiting_zero (hc : w.core.Consistent) (hzero : w.netPath.waiting = 0) :
    (doState w).netPath.waiting = 0 := by
  have hle := doState_waiting_le hc
  omega

/-! ## A port that handles messages takes one -/

theorem netSelect_pos : netSelect w > 0 ↔ w.netPath.waiting ≠ 0 := by
  unfold netSelect netQCheck NetPath.waiting
  by_cases hevent : w.netPath.eventQ.count = 0
  · by_cases hgeneral : w.netPath.generalQ.count = 0
    · simp [hevent, hgeneral]
    · simp [hevent, hgeneral]
  · simp [hevent]

theorem handleMessage_waiting (time : TimeInternal) (hc : w.core.Consistent) :
    (handleMessage time w).netPath.waiting ≤ w.netPath.waiting :=
  Acts.waiting_le (handleMessage_acts time hc)

theorem handleReceive_takes (hc : w.core.Consistent) :
    (handleReceive w).netPath.waiting ≤ w.netPath.waiting - 1 := by
  have hevent := netRecvEvent_waiting ⟨0, 0⟩ w
  have hpath := netRecvEvent_netPath ⟨0, 0⟩ w
  have hcore := (netRecvEvent_noted ⟨0, 0⟩ w).core_eq
  -- an empty queue gives no length
  have hnone : w.netPath.eventQ.count = 0 → (netRecvEvent ⟨0, 0⟩ w).1.length = 0 := by
    intro hempty
    unfold netRecvEvent netQGet
    rw [if_pos hempty]
    rfl
  unfold handleReceive
  generalize netRecvEvent ⟨0, 0⟩ w = received at hevent hpath hcore hnone ⊢
  obtain ⟨received, w₁⟩ := received
  dsimp only at hevent hpath hcore hnone ⊢
  have hc₁ : w₁.core.Consistent := by
    rw [show w₁.core = w.core from hcore]
    exact hc
  have hwaiting : w.netPath.waiting = w.netPath.eventQ.count + w.netPath.generalQ.count := rfl
  have htaken : received.length ≠ 0 → w₁.netPath.waiting ≤ w.netPath.waiting - 1 := by
    intro hlength
    have hsome : w.netPath.eventQ.count ≠ 0 := fun hempty => hlength (hnone hempty)
    omega
  split
  case isTrue hneg => exact (toState_waiting _ _).trans (htaken (by omega))
  case isFalse =>
    split
    case isTrue =>
      -- the event queue gave nothing, so the general queue is looked at
      have hgeneral := netRecvGeneral_waiting received.time
        { w₁ with msgIbufLength := received.length }
      have hcore₂ := (netRecvGeneral_noted received.time
        { w₁ with msgIbufLength := received.length }).core_eq
      generalize netRecvGeneral received.time { w₁ with msgIbufLength := received.length } =
        received₂ at hgeneral hcore₂ ⊢
      obtain ⟨received₂, w₂⟩ := received₂
      dsimp only at hgeneral hcore₂ ⊢
      have hc₂ : w₂.core.Consistent := by
        rw [show w₂.core = w₁.core from hcore₂]
        exact hc₁
      have hleft : w₂.netPath.waiting ≤ w.netPath.waiting - 1 := by
        have hsecond : w₁.netPath.generalQ = w.netPath.generalQ := by rw [hpath]
        have hfirst : w₁.netPath.waiting = w₁.netPath.eventQ.count + w.netPath.generalQ.count := by
          rw [← hsecond]
          rfl
        rw [hsecond] at hgeneral
        omega
      split
      · exact (toState_waiting _ _).trans hleft
      · split
        · exact hleft
        · refine Nat.le_trans (handleMessage_waiting _ ?_) hleft
          exact ⟨hc₂.agrees, hc₂.maxForeignRecords⟩
    case isFalse hlength =>
      refine Nat.le_trans (handleMessage_waiting _ ?_) (htaken hlength)
      exact ⟨hc₁.agrees, hc₁.maxForeignRecords⟩

theorem handle_takes (hc : w.core.Consistent) :
    (handle w).netPath.waiting ≤ w.netPath.waiting - 1 := by
  unfold handle
  split
  · dsimp only
    split
    case isTrue hneg =>
      have hselect : ¬ netSelect w < 0 := by
        unfold netSelect
        split <;> decide
      exact absurd hneg hselect
    case isFalse =>
      split
      case isTrue hzero =>
        have hempty : w.netPath.waiting = 0 := by
          by_contra hwaiting
          have hpos := netSelect_pos.mpr hwaiting
          omega
        rw [hempty]
      case isFalse => exact handleReceive_takes hc
  · exact handleReceive_takes hc

end Ptpd
