import Ptpd.Engine
import Ptpd.Issuing

/-! # The code refines the engine

    Every function of the stack, seen through `World.engine`, is a run of the
    engine. Functions that only move timers, buffers and clock readings leave
    the engine as it is; the others take the steps their source spells out.
-/

namespace Ptpd

open PortState Engine

/-! ## Notes -/

theorem Engine.Run.notes {c : Core} {l : List LogEntry} :
    ∀ {new : List LogEntry}, (∀ x ∈ new, x.call.quiet) → Run ⟨c, l⟩ ⟨c, new ++ l⟩
  | [], _ => .refl
  | x :: new, h =>
    .tail (Run.notes fun y hy => h y (List.mem_cons_of_mem x hy)) (.note x (h x (by simp)))

/-- What `initClock` and the functions built on it do to the engine: change the
    core and note what they send to the platform. -/
def Noted (e : Engine) (w : World) : Prop :=
  ∃ new : List LogEntry, (∀ x ∈ new, x.call.quiet) ∧ w.engine = ⟨e.core, new ++ e.log⟩

theorem Noted.run {e : Engine} {w : World} (h : Noted e w) : Run e w.engine := by
  obtain ⟨new, hquiet, heq⟩ := h
  rw [heq]
  exact .notes hquiet

theorem Noted.of_eq {e : Engine} {w : World} (h : w.engine = e) : Noted e w :=
  ⟨[], by simp, h⟩

theorem Noted.trans {e : Engine} {w w' : World} (h : Noted e w) (h' : Noted w.engine w') :
    Noted e w' := by
  obtain ⟨new, hquiet, heq⟩ := h
  obtain ⟨new', hquiet', heq'⟩ := h'
  refine ⟨new' ++ new, ?_, by rw [heq', heq, List.append_assoc]⟩
  intro x hx
  rcases List.mem_append.mp hx with hx | hx
  · exact hquiet' x hx
  · exact hquiet x hx

/-- What follows may change everything that the engine does not see. -/
theorem Noted.congr {e : Engine} {w w' : World} (h : Noted e w) (heq : w'.engine = w.engine) :
    Noted e w' :=
  h.trans (.of_eq heq)

theorem Noted.note {e : Engine} {w : World} (x : LogEntry) (hx : x.call.quiet)
    (h : w.engine = ⟨e.core, x :: e.log⟩) : Noted e w :=
  ⟨[x], by simpa using hx, h⟩

theorem record_noted (w : World) (call : Call) (h : call.quiet) :
    Noted w.engine (w.record call) :=
  .note ⟨call, w.toPtpClock⟩ h rfl

theorem freeAll_noted (freed : List Pbuf) (w : World) : Noted w.engine (freeAll freed w) := by
  induction freed generalizing w with
  | nil => exact .of_eq rfl
  | cons p freed ih =>
    have hfree : Noted w.engine (w.record (.pbuf_free p)) := record_noted w _ rfl
    exact hfree.trans (ih _)

theorem netEmptyEventQ_noted (w : World) : Noted w.engine (netEmptyEventQ w) :=
  freeAll_noted (netQEmpty w.netPath.eventQ).1
    { w with netPath.eventQ := (netQEmpty w.netPath.eventQ).2 }

theorem adjFreq_noted (adj : Int) (w : World) : Noted w.engine (adjFreq adj w) :=
  record_noted w _ rfl

theorem initClock_noted (w : World) : Noted ⟨w.core.clockInit, w.log⟩ (initClock w) := by
  have hdata : Noted ⟨w.core.clockInit, w.log⟩ (initClockData w) := .of_eq rfl
  unfold initClock
  generalize initClockData w = w₁ at hdata ⊢
  dsimp only
  split
  · exact (hdata.trans (adjFreq_noted 0 w₁)).trans (netEmptyEventQ_noted _)
  · exact hdata.trans (netEmptyEventQ_noted w₁)

/-! ## Changing state -/

@[simp] theorem setTimer_engine (i : Timer) (t : IntervalTimer) (w : World) :
    (w.setTimer i t).engine = w.engine := rfl

@[simp] theorem timerStop_engine (i : Timer) (w : World) : (timerStop i w).engine = w.engine := rfl

@[simp] theorem timerStart_engine (i : Timer) (t : Int) (w : World) :
    (timerStart i t w).engine = w.engine := rfl

@[simp] theorem timerStartRand_engine (i : Timer) (t : Int) (w : World) :
    (timerStartRand i t w).engine = w.engine := rfl

@[simp] theorem stopRequestTimer_engine (w : World) : (stopRequestTimer w).engine = w.engine := by
  unfold stopRequestTimer
  split <;> simp

@[simp] theorem startRequestTimer_engine (w : World) :
    (startRequestTimer w).engine = w.engine := by
  unfold startRequestTimer
  split <;> simp

@[simp] theorem startPDelayTimer_engine (w : World) :
    (startPDelayTimer w).engine = w.engine := by
  unfold startPDelayTimer
  split <;> simp

/-- `initClock` in a world that the engine cannot tell from `w`. -/
theorem initClock_noted_of_eq {w w₁ : World} (h : w₁.engine = w.engine) :
    Noted ⟨w.core.clockInit, w.log⟩ (initClock w₁) := by
  have hcore : w₁.core = w.core := congrArg Engine.core h
  have hlog : w₁.log = w.log := congrArg Engine.log h
  rw [← hcore, ← hlog]
  exact initClock_noted w₁

theorem leaveState_noted (s : PortState) (w : World) :
    Noted ⟨w.core.leave s, w.log⟩ (leaveState s w) := by
  have hleave : w.core.leave s =
      if w.portDS.portState.restarts s then w.core.clockInit else w.core := rfl
  rw [hleave]
  unfold leaveState
  cases hport : w.portDS.portState
  case PTP_INITIALIZING => exact .of_eq rfl
  case PTP_FAULTY => exact .of_eq rfl
  case PTP_DISABLED => exact .of_eq rfl
  case PTP_LISTENING => exact (initClock_noted w).congr (by simp)
  case PTP_PRE_MASTER => exact (initClock_noted w).congr (by simp)
  case PTP_MASTER => exact (initClock_noted w).congr (by simp)
  case PTP_PASSIVE => exact (initClock_noted w).congr (by simp)
  -- UNCALIBRATED and SLAVE: nothing happens between the two
  all_goals
    by_cases hs : s = .PTP_UNCALIBRATED ∨ s = .PTP_SLAVE
    · simp only [hs, if_true]
      rcases hs with rfl | rfl <;> exact .of_eq rfl
    · have hfollows : s.follows = false := by
        cases s <;> simp_all [PortState.follows]
      simp only [hs, if_false, PortState.restarts, hfollows, Bool.not_false, if_true]
      exact initClock_noted_of_eq (by simp)

theorem enterState_engine (s : PortState) (w : World) :
    (enterState s w).engine =
      ⟨{ w.core with
          portState := s
          recommendedState :=
            match s with
            | PTP_INITIALIZING => PTP_INITIALIZING
            | PTP_LISTENING => PTP_LISTENING
            | _ => w.core.recommendedState }, w.log⟩ := by
  have hset : ∀ w₁ : World, w₁.engine = w.engine →
      World.engine { w₁ with portDS.portState := s } = ⟨{ w.core with portState := s }, w.log⟩ := by
    intro w₁ h
    have hcore : w₁.core = w.core := congrArg Engine.core h
    have hlog : w₁.log = w.log := congrArg Engine.log h
    rw [← hcore, ← hlog]
    rfl
  cases s
  case PTP_INITIALIZING => rfl
  case PTP_FAULTY => rfl
  case PTP_DISABLED => rfl
  case PTP_LISTENING => rfl
  case PTP_PRE_MASTER => rfl
  case PTP_SLAVE => rfl
  case PTP_MASTER =>
    apply hset
    rw [startPDelayTimer_engine]
    rfl
  case PTP_PASSIVE =>
    apply hset
    split
    · rfl
    · rfl
  case PTP_UNCALIBRATED =>
    apply hset
    rw [startRequestTimer_engine]
    rfl

@[simp] theorem Core.leave_recommendedState (s : PortState) (c : Core) :
    (c.leave s).recommendedState = c.recommendedState := by
  unfold Core.leave Core.clockInit
  split <;> rfl

/-- `toState` records the call, enters the state, and notes what `initClock` does. -/
theorem toState_noted (s : PortState) (w : World) :
    Noted ⟨w.core.enter s, ⟨.toState s, w.toPtpClock⟩ :: w.log⟩ (toState s w) := by
  obtain ⟨new, hquiet, heq⟩ :=
    leaveState_noted s { w.record (.toState s) with messageActivity := true }
  have hcore := congrArg Engine.core heq
  have hlog := congrArg Engine.log heq
  refine ⟨new, hquiet, ?_⟩
  unfold toState
  rw [enterState_engine, show (leaveState s _).log = _ from hlog,
    show (leaveState s _).core = _ from hcore]
  simp only [Core.leave_recommendedState]
  rfl

/-- The changes of state that are steps of their own. -/
theorem toState_run {s : PortState}
    (hs : s = PTP_INITIALIZING ∨ s = PTP_FAULTY ∨ s = PTP_LISTENING) (w : World) :
    Run w.engine (toState s w).engine :=
  .head (.toState s ⟨.toState s, w.toPtpClock⟩ hs rfl rfl) (toState_noted s w).run

theorem fault_run (w : World) : Run w.engine (toState PTP_FAULTY w).engine :=
  toState_run (by simp) w

/-! ## Timers, platform and network -/

@[simp] theorem timerUpdate_engine (w : World) : (timerUpdate w).engine = w.engine := by
  unfold timerUpdate
  dsimp only
  split <;> rfl

theorem takeExpire_engine (i : Timer) (w : World) : (takeExpire i w).2.engine = w.engine := by
  unfold takeExpire
  split <;> rfl

@[simp] theorem timerExpired_engine (i : Timer) (w : World) :
    (timerExpired i w).2.engine = w.engine :=
  (takeExpire_engine i (timerUpdate w)).trans (timerUpdate_engine w)

@[simp] theorem getTime_engine (w : World) : (getTime w).2.engine = w.engine := rfl

@[simp] theorem newTimestamp_engine (t : TimeInternal) (w : World) :
    (newTimestamp t w).2.engine = w.engine := rfl

@[simp] theorem newTimeInternal_engine (t : Timestamp) (w : World) :
    (newTimeInternal t w).2.engine = w.engine := rfl

theorem netSend_noted (port : UdpPort) (group : Group) (buf : Octets.Buf) (length : Nat)
    (time : TimeInternal) (w : World) :
    Noted w.engine (netSend port group buf length time w).2 := by
  have hsend : ∀ result, Noted w.engine
      ({ w with platform.tx := w.platform.tx.tail }.record
        (.send port group (Octets.take length buf) result)) := fun result =>
    record_noted { w with platform.tx := w.platform.tx.tail } _ rfl
  unfold netSend
  dsimp only
  split <;> exact hsend _

@[simp] theorem netSend_ret (port : UdpPort) (group : Group) (buf : Octets.Buf) (length : Nat)
    (time : TimeInternal) (w : World) :
    (netSend port group buf length time w).1.ret = length := by
  unfold netSend
  dsimp only
  split <;> rfl

theorem netRecv_noted (p : Option Pbuf) (time : TimeInternal) (w : World) :
    Noted w.engine (netRecv p time w).2 := by
  unfold netRecv
  split
  · exact .of_eq rfl
  · split
    · exact .of_eq rfl
    · next p _ => exact .note ⟨.pbuf_free p, _⟩ rfl rfl

theorem netSendGeneral_noted (buf : Octets.Buf) (length : Nat) (w : World) :
    Noted w.engine (netSendGeneral buf length w).2 :=
  netSend_noted .general .ptp buf length default w

theorem netSendPeerGeneral_noted (buf : Octets.Buf) (length : Nat) (w : World) :
    Noted w.engine (netSendPeerGeneral buf length w).2 :=
  netSend_noted .general .peer buf length default w

/-- Take a pair apart whose world the engine cannot tell from another. -/
theorem exists_pair {α : Type} {e : Engine} {p : α × World} (h : p.2.engine = e) :
    ∃ a w, p = (a, w) ∧ World.engine w = e :=
  ⟨p.1, p.2, rfl, h⟩

theorem Noted.exists_pair {α : Type} {e : Engine} {p : α × World} (h : Noted e p.2) :
    ∃ a w, p = (a, w) ∧ Noted e w :=
  ⟨p.1, p.2, rfl, h⟩

/-! ## Issuing -/

/-- A send that fails is a fault; otherwise the issuer goes on with `w'`. -/
theorem sent_run {e : Engine} {ret : Int} {w w' : World} (h : Noted e w)
    (h' : Run w.engine w'.engine) :
    Run e (if ret = 0 then toState PTP_FAULTY w else w').engine := by
  split
  · exact h.run.trans (fault_run w)
  · exact h.run.trans h'

theorem issueAnnounce_run (w : World) : Run w.engine (issueAnnounce w).engine := by
  unfold issueAnnounce
  dsimp only
  generalize hsend : netSendGeneral _ _ _ = sent
  have hnoted : Noted w.engine sent.2 := hsend ▸ netSendGeneral_noted _ _ _
  exact sent_run hnoted .refl

theorem issueFollowup_run (time : TimeInternal) (w : World) :
    Run w.engine (issueFollowup time w).engine := by
  unfold issueFollowup
  obtain ⟨ts, w₁, hts, h₁⟩ := exists_pair (newTimestamp_engine time w)
  rw [hts, ← h₁]
  dsimp only
  generalize hsend : netSendGeneral _ _ _ = sent
  have hnoted : Noted w₁.engine sent.2 := hsend ▸ netSendGeneral_noted _ _ _
  exact sent_run hnoted .refl

theorem issueSync_run (w : World) : Run w.engine (issueSync w).engine := by
  unfold issueSync
  obtain ⟨t, w₁, ht, h₁⟩ := exists_pair (getTime_engine w)
  obtain ⟨ts, w₂, hts, h₂⟩ := exists_pair (newTimestamp_engine t w₁)
  rw [ht, ← h₁, ← h₂]
  dsimp only
  rw [hts]
  dsimp only
  generalize hsend : netSendEvent _ _ _ _ = sent
  have hnoted : Noted w₂.engine sent.2 := hsend ▸ netSend_noted .event .ptp _ _ _ _
  obtain ⟨s, w₃⟩ := sent
  refine sent_run hnoted ?_
  have hfollow := issueFollowup_run (addTime s.time w₃.outboundLatency)
    { w₃ with sentSyncSequenceId := w₃.sentSyncSequenceId + 1 }
  dsimp only
  split
  · exact hfollow
  · exact .refl

theorem issueDelayReq_run (w : World) : Run w.engine (issueDelayReq w).engine := by
  unfold issueDelayReq
  obtain ⟨t, w₁, ht, h₁⟩ := exists_pair (getTime_engine w)
  obtain ⟨ts, w₂, hts, h₂⟩ := exists_pair (newTimestamp_engine t w₁)
  rw [ht, ← h₁, ← h₂]
  dsimp only
  rw [hts]
  dsimp only
  generalize hsend : netSendEvent _ _ _ _ = sent
  have hnoted : Noted w₂.engine sent.2 := hsend ▸ netSend_noted .event .ptp _ _ _ _
  refine sent_run hnoted ?_
  split <;> exact .refl

theorem issuePDelayReq_run (w : World) : Run w.engine (issuePDelayReq w).engine := by
  -- the request is on record before the message is built
  generalize hw₁ : (w.record .issuePDelayReq).popTime.popTimestamp = w₁
  have hcore : w₁.core = w.core := hw₁ ▸ rfl
  have hlog : w₁.log = ⟨.issuePDelayReq, w.toPtpClock⟩ :: w.log := hw₁ ▸ rfl
  have hlatency : w₁.outboundLatency = w.outboundLatency := hw₁ ▸ rfl
  have htx : w₁.platform.tx = w.platform.tx := hw₁ ▸ rfl
  have hissued : w.pDelayReqIssued =
      let w := w₁.issue .event .peer
        (.pDelayReq ((w.record .issuePDelayReq).popTime.external w.platform.time.head))
        PDELAY_REQ_LENGTH
      { w with sentPDelayReqSequenceId := w.sentPDelayReqSequenceId + 1 } := hw₁ ▸ rfl
  generalize (Outgoing.pDelayReq
    ((w.record .issuePDelayReq).popTime.external w.platform.time.head)) = m at hissued
  have hstep : ∀ t1 : TimeInternal,
      (∀ t, w.platform.tx.head = .sent t → t.seconds ≠ 0 → t1 = addTime t w.outboundLatency) →
      Step w.engine
        ⟨{ w.core with
            sentPDelayReqSequenceId := w.sentPDelayReqSequenceId + 1
            pdelay_t1 := t1 },
          w₁.issued .event .peer m PDELAY_REQ_LENGTH ::
            ⟨.issuePDelayReq, w.toPtpClock⟩ :: w.log⟩ := by
    intro t1 ht1
    refine .peer (.issuePDelayReq _ _ _ w.platform.tx.head t1 rfl (by rw [← htx]; rfl) hcore ?_)
    intro t ht hsec
    exact (ht1 t ht hsec).trans (congrArg (addTime t) hlatency.symm)
  have hengine : w.pDelayReqIssued.engine =
      ⟨{ w.core with sentPDelayReqSequenceId := w.sentPDelayReqSequenceId + 1 },
        w₁.issued .event .peer m PDELAY_REQ_LENGTH ::
          ⟨.issuePDelayReq, w.toPtpClock⟩ :: w.log⟩ := by
    rw [hissued, ← hlog, ← hcore,
      ← show w₁.sentPDelayReqSequenceId = w.sentPDelayReqSequenceId from
        congrArg Core.sentPDelayReqSequenceId hcore]
    rfl
  rw [issuePDelayReq_eq]
  dsimp only
  generalize w.pDelayReqIssued = w₂ at hengine ⊢
  have hlog₂ := congrArg Engine.log hengine
  have hcore₂ := congrArg Engine.core hengine
  split
  · next hsec =>
    refine .single ?_
    have hend : ∀ t1 : TimeInternal, World.engine { w₂ with pdelay_t1 := t1 } =
        ⟨{ w₂.core with pdelay_t1 := t1 }, w₂.log⟩ := fun _ => rfl
    rw [hend, show w₂.core = _ from hcore₂, show w₂.log = _ from hlog₂]
    refine hstep _ ?_
    intro t ht _
    rw [ht]
    rfl
  · next hsec =>
    rw [hengine]
    refine .single (hstep w.pdelay_t1 ?_)
    intro t ht hsec'
    rw [ht] at hsec
    exact absurd hsec' (by simpa [SendResult.txTime?] using hsec)

theorem issuePDelayResp_run (time : TimeInternal) (header : MsgHeader) (w : World) :
    Run w.engine (issuePDelayResp time header w).2.engine := by
  unfold issuePDelayResp
  obtain ⟨ts, w₁, hts, h₁⟩ := exists_pair (newTimestamp_engine time w)
  rw [hts, ← h₁]
  dsimp only
  generalize hsend : netSendPeerEvent _ _ _ _ = sent
  have hnoted : Noted w₁.engine sent.2 := hsend ▸ netSend_noted .event .peer _ _ _ _
  split
  · exact hnoted.run.trans (fault_run _)
  · split <;> exact hnoted.run

theorem issueDelayResp_run (time : TimeInternal) (header : MsgHeader) (w : World) :
    Run w.engine (issueDelayResp time header w).engine := by
  unfold issueDelayResp
  obtain ⟨ts, w₁, hts, h₁⟩ := exists_pair (newTimestamp_engine time w)
  rw [hts, ← h₁]
  dsimp only
  generalize hsend : netSendGeneral _ _ _ = sent
  have hnoted : Noted w₁.engine sent.2 := hsend ▸ netSendGeneral_noted _ _ _
  exact sent_run hnoted .refl

theorem issuePDelayRespFollowUp_run (time : TimeInternal) (header : MsgHeader) (w : World) :
    Run w.engine (issuePDelayRespFollowUp time header w).engine := by
  unfold issuePDelayRespFollowUp
  obtain ⟨ts, w₁, hts, h₁⟩ := exists_pair (newTimestamp_engine time w)
  rw [hts, ← h₁]
  dsimp only
  generalize hsend : netSendPeerGeneral _ _ _ = sent
  have hnoted : Noted w₁.engine sent.2 := hsend ▸ netSendPeerGeneral_noted _ _ _
  exact sent_run hnoted .refl

theorem issueManagement_run (w : World) : Run w.engine (issueManagement w).engine := by
  have hstack : (stackTimestamp w).2.engine = w.engine := rfl
  unfold issueManagement
  obtain ⟨ts, w₁, hts, h₁⟩ := exists_pair hstack
  rw [hts, ← h₁]
  dsimp only
  generalize hsend : netSendGeneral _ _ _ = sent
  have hnoted : Noted w₁.engine sent.2 := hsend ▸ netSendGeneral_noted _ _ _
  exact sent_run hnoted .refl


theorem branch_run {e : Engine} {call : Bool × World} {f g : World → World}
    (h : call.2.engine = e) (hf : ∀ w, Run (World.engine w) (f w).engine)
    (hg : ∀ w, Run (World.engine w) (g w).engine) : Run e (branch f g call).engine := by
  unfold branch
  rw [← h]
  split
  · exact hf call.2
  · exact hg call.2

theorem ifExpired_run (i : Timer) {f g : World → World} (w : World)
    (hf : ∀ w, Run (World.engine w) (f w).engine) (hg : ∀ w, Run (World.engine w) (g w).engine) :
    Run w.engine (ifExpired i f g w).engine :=
  branch_run (timerExpired_engine i w) hf hg

theorem issueDelayReqTimerExpired_run (w : World) :
    Run w.engine (issueDelayReqTimerExpired w).engine := by
  unfold issueDelayReqTimerExpired
  split
  · split
    · exact .refl
    · exact ifExpired_run _ w (fun w => issueDelayReq_run (timerStartRand _ _ w)) fun _ => .refl
  · exact ifExpired_run _ w (fun w => issuePDelayReq_run (timerStartRand _ _ w)) fun _ => .refl
  · exact .refl

/-! ## Servo -/

/-- Adjusting the clock notes what it sends to the platform; a step is on record, and
    starts the servo afresh. -/
theorem updateClock_noted (w : World) :
    Noted w.engine (updateClock w) ∨ ∃ x time, x.call = .setTime time ∧
      Noted ⟨w.core.clockInit, x :: w.log⟩ (updateClock w) := by
  have hstep : ∃ x time, x.call = .setTime time ∧
      Noted ⟨w.core.clockInit, x :: w.log⟩ (stepClock w) := by
    have hset : ∀ time, Noted
        ⟨w.core.clockInit, ⟨.setTime time, (getTime w).2.toPtpClock⟩ :: w.log⟩
        (initClock (setTime time (getTime w).2)) :=
      fun time => initClock_noted (setTime time (getTime w).2)
    exact ⟨_, _, rfl, hset _⟩
  unfold updateClock
  split
  · split
    · split
      · exact .inr hstep
      · exact .inl (adjFreq_noted _ w)
    · exact .inl (.of_eq rfl)
  · dsimp only
    split
    · exact .inl (adjFreq_noted _ { w with observedDrift := w.accumulatedDrift })
    · exact .inl (.of_eq rfl)

theorem updateClock_run (w : World) : Run w.engine (updateClock w).engine := by
  rcases updateClock_noted w with h | ⟨x, time, hx, h⟩
  · exact h.run
  · exact .head (.clockStep x time hx) h.run

theorem synchronizationFault_engine (w : World) :
    ∃ fault, (synchronizationFault w).engine =
      ⟨{ w.core with events.SYNCHRONIZATION_FAULT := fault }, w.log⟩ := by
  unfold synchronizationFault
  split
  · exact ⟨true, rfl⟩
  · exact ⟨w.events.SYNCHRONIZATION_FAULT, rfl⟩

theorem offsetEvents_engine (w : World) :
    ∃ selected fault, (offsetEvents w).engine =
        ⟨{ w.core with
            events.MASTER_CLOCK_SELECTED := selected || w.events.MASTER_CLOCK_SELECTED
            events.SYNCHRONIZATION_FAULT := fault }, w.log⟩ ∧
      (selected → w.portDS.portState = PTP_UNCALIBRATED ∧
        |w.currentDS.offsetFromMaster.nanoseconds| < DEFAULT_CALIBRATED_OFFSET_NS) := by
  unfold offsetEvents
  split
  · next hcal =>
    split
    · next hport =>
      exact ⟨true, w.events.SYNCHRONIZATION_FAULT, rfl, fun _ => ⟨hport, hcal⟩⟩
    · exact ⟨false, w.events.SYNCHRONIZATION_FAULT, rfl, by simp⟩
  · split
    · obtain ⟨fault, hfault⟩ := synchronizationFault_engine w
      exact ⟨false, fault, hfault, by simp⟩
    · exact ⟨false, w.events.SYNCHRONIZATION_FAULT, rfl, by simp⟩

/-- The offset is filtered: what `offsetEvents` makes of it. -/
theorem offsetEvents_filtered (filtered : Int × Filter) (w : World)
    (hzero : w.currentDS.offsetFromMaster.seconds = 0) :
    ∃ c' new, Filtered w.core c' (new ++ [⟨.unfilteredOffset, w.toPtpClock⟩]) ∧
      (offsetEvents ((setFilteredOffset filtered w).record .filteredOffset)).engine =
        ⟨c', new ++ w.log⟩ := by
  obtain ⟨selected, fault, hevents, hsel⟩ :=
    offsetEvents_engine ((setFilteredOffset filtered w).record .filteredOffset)
  exact ⟨_, [⟨.filteredOffset, (setFilteredOffset filtered w).toPtpClock⟩],
    .near _ _ filtered.2.n selected fault rfl rfl rfl
      fun h => ⟨(hsel h).1, hzero, (hsel h).2⟩, hevents⟩

theorem filterOffset_filtered (w : World) :
    ∃ c' new, Filtered w.core c' new ∧ (filterOffset w).engine = ⟨c', new ++ w.log⟩ := by
  by_cases hsec : 0 ≠ w.currentDS.offsetFromMaster.seconds
  · have hfar : filterOffset w = synchronizationFault (w.record .unfilteredOffset) := if_pos hsec
    obtain ⟨fault, hfault⟩ := synchronizationFault_engine (w.record .unfilteredOffset)
    rw [hfar]
    exact ⟨_, _, .far ⟨.unfilteredOffset, w.toPtpClock⟩ fault rfl, hfault⟩
  · have hnear : filterOffset w = offsetEvents ((setFilteredOffset
        (filter w.currentDS.offsetFromMaster.nanoseconds w.ofm_filt)
        (w.record .unfilteredOffset)).record .filteredOffset) :=
      if_neg hsec
    obtain ⟨c', new, hfiltered, heq⟩ := offsetEvents_filtered
      (filter w.currentDS.offsetFromMaster.nanoseconds w.ofm_filt) (w.record .unfilteredOffset)
      (not_not.mp hsec).symm
    rw [hnear]
    exact ⟨c', _, hfiltered, by rw [heq, List.append_assoc]; rfl⟩

theorem updateOffset_filtered (i o f : TimeInternal) (w : World) :
    ∃ c' new, Filtered { w.core with Tms := subTime (subTime i o) f } c' new ∧
      (updateOffset i o f w).engine =
        ⟨c', new ++ ⟨.updateOffset i o f, w.toPtpClock⟩ :: w.log⟩ := by
  -- the offset, with or without the delay, is no part of the core
  obtain ⟨offset, hoffset⟩ : ∃ offset, updateOffset i o f w = filterOffset
      { w.record (.updateOffset i o f) with
        Tms := subTime (subTime i o) f
        currentDS.offsetFromMaster := offset } := ⟨_, rfl⟩
  rw [hoffset]
  exact filterOffset_filtered
    { w.record (.updateOffset i o f) with
      Tms := subTime (subTime i o) f
      currentDS.offsetFromMaster := offset }

theorem setFilteredDelay_engine (filtered : Int × Filter) (w : World) :
    (setFilteredDelay filtered w).engine = w.engine := rfl

theorem filterDelay_engine (w : World) :
    (filterDelay w).engine = ⟨w.core, ⟨.unfilteredDelay, w.toPtpClock⟩ :: w.log⟩ := by
  by_cases h : 0 ≠ w.currentDS.meanPathDelay.seconds
  · exact congrArg World.engine (if_pos h)
  · exact (congrArg World.engine (if_neg h)).trans (setFilteredDelay_engine _ _)

theorem updateDelay_engine (e r f : TimeInternal) {w : World} (h : w.ofm_filt.n ≠ 0) :
    ∃ q : LogEntry, q.call.quiet ∧
      (updateDelay e r f w).engine = ⟨w.core, q :: ⟨.updateDelay e r f, w.toPtpClock⟩ :: w.log⟩ := by
  have hdelay : updateDelay e r f w = filterDelay
      { w.record (.updateDelay e r f) with
        Tsm := subTime (subTime r e) f
        currentDS.meanPathDelay := div2Time (addTime w.Tms (subTime (subTime r e) f)) } :=
    if_neg (Ne.symm h)
  rw [hdelay, filterDelay_engine]
  exact ⟨⟨.unfilteredDelay, _⟩, rfl, rfl⟩

theorem setFilteredPeerDelay_engine (filtered : Int × Filter) (w : World) :
    (setFilteredPeerDelay filtered w).engine = w.engine := rfl

theorem filterPeerDelay_engine (w : World) :
    (filterPeerDelay w).engine = ⟨w.core, ⟨.unfilteredPeerDelay, w.toPtpClock⟩ :: w.log⟩ := by
  by_cases h : 0 ≠ w.portDS.peerMeanPathDelay.seconds
  · exact congrArg World.engine (if_pos h)
  · exact (congrArg World.engine (if_neg h)).trans (setFilteredPeerDelay_engine _ _)

theorem updatePeerDelay_engine (f : TimeInternal) (twoStep : Bool) (w : World) :
    ∃ q : LogEntry, q.call.quiet ∧ (updatePeerDelay f twoStep w).engine =
      ⟨w.core, q :: ⟨.updatePeerDelay f twoStep, w.toPtpClock⟩ :: w.log⟩ := by
  unfold updatePeerDelay
  dsimp only
  rw [filterPeerDelay_engine]
  exact ⟨⟨.unfilteredPeerDelay, _⟩, rfl, rfl⟩

end Ptpd
