import Ptpd.Recovery
import Ptpd.RoleTimers
import Ptpd.TimerContract

/-! # Passes in which no time passes

    The first timer that is asked is charged with all pending time. From then on every
    timer that is asked answers with its flag, which is clear once it has been read.
-/

namespace Ptpd

open PortState

variable {w w' : World}

/-- No time is pending, and the announce receipt timer has not expired. -/
structure World.Still (w : World) : Prop where
  elapsed_ms : w.elapsed_ms = 0
  announce : (w.itimer .ANNOUNCE_RECEIPT_TIMER).expire = false

theorem World.Still.congr (h : w.Still) (helapsed : w'.elapsed_ms = w.elapsed_ms)
    (htimer : w'.itimer = w.itimer) : w'.Still :=
  ⟨helapsed.trans h.elapsed_ms, htimer ▸ h.announce⟩

theorem World.Still.setTimer (h : w.Still) {i : Timer} {t : IntervalTimer}
    (ht : i = .ANNOUNCE_RECEIPT_TIMER → t.expire = false) : (w.setTimer i t).Still := by
  refine ⟨h.elapsed_ms, ?_⟩
  unfold World.setTimer
  dsimp only
  split
  · next hi => exact ht hi.symm
  · exact h.announce

theorem World.Still.timerStop (h : w.Still) (i : Timer) : (timerStop i w).Still := by
  apply h.setTimer
  intro hi
  rw [hi]
  exact h.announce

theorem World.Still.timerStart (h : w.Still) (i : Timer) (ms : Int) : (timerStart i ms w).Still :=
  h.setTimer fun _ => rfl

theorem World.Still.timerStartRand (h : w.Still) (i : Timer) (randMax : Int) :
    (timerStartRand i randMax w).Still := by
  unfold Ptpd.timerStartRand
  refine World.Still.timerStart ?_ i _
  exact h.congr rfl rfl

theorem freeAll_timers (freed : List Pbuf) (w : World) :
    (freeAll freed w).elapsed_ms = w.elapsed_ms ∧ (freeAll freed w).itimer = w.itimer := by
  induction freed generalizing w with
  | nil => exact ⟨rfl, rfl⟩
  | cons p freed ih => exact ih (w.record (.pbuf_free p))

theorem World.Still.initClock (h : w.Still) : (initClock w).Still := by
  have hempty : ∀ {w : World}, w.Still → (netEmptyEventQ w).Still := by
    intro w h
    obtain ⟨helapsed, htimer⟩ := freeAll_timers (netQEmpty w.netPath.eventQ).1
      { w with netPath.eventQ := (netQEmpty w.netPath.eventQ).2 }
    exact h.congr helapsed htimer
  unfold Ptpd.initClock
  dsimp only
  split
  · exact hempty (h.congr rfl rfl)
  · exact hempty (h.congr rfl rfl)

theorem World.Still.leaveState (h : w.Still) (s : PortState) : (leaveState s w).Still := by
  have hrequest : ∀ {w : World}, w.Still → (stopRequestTimer w).Still := by
    intro w h
    unfold stopRequestTimer
    split
    · exact h.timerStop _
    · exact h.timerStop _
    · exact h
  unfold Ptpd.leaveState
  cases w.portDS.portState
  case PTP_INITIALIZING | PTP_FAULTY | PTP_DISABLED => exact h
  case PTP_LISTENING | PTP_PRE_MASTER => exact h.initClock.timerStop _
  case PTP_PASSIVE => exact (h.initClock.timerStop _).timerStop _
  case PTP_MASTER => exact ((h.initClock.timerStop _).timerStop _).timerStop _
  case PTP_UNCALIBRATED | PTP_SLAVE =>
    dsimp only
    split
    · exact h
    · exact (hrequest ((h.timerStop _).timerStop _)).initClock

theorem World.Still.enterState (h : w.Still) (s : PortState) : (enterState s w).Still := by
  cases s with
  | PTP_INITIALIZING => exact h.congr rfl rfl
  | PTP_FAULTY => exact h.congr rfl rfl
  | PTP_DISABLED => exact h.congr rfl rfl
  | PTP_LISTENING => exact (h.timerStart _ _).congr rfl rfl
  | PTP_PRE_MASTER => exact (h.timerStart _ _).congr rfl rfl
  | PTP_SLAVE =>
    refine World.Still.timerStart ?_ .MANAGEMENT_INTERVAL_TIMER 1000
    exact h.congr rfl rfl
  | PTP_MASTER =>
    have hpdelay : ∀ {w : World}, w.Still → (startPDelayTimer w).Still := by
      intro w h
      unfold startPDelayTimer
      split
      · exact h.timerStartRand _ _
      · exact h
      · exact h
    have hdefault : World.Still
        { w with portDS.logMinDelayReqInterval := DEFAULT_DELAYREQ_INTERVAL } := h.congr rfl rfl
    exact (hpdelay ((hdefault.timerStart _ _).timerStart _ _)).congr rfl rfl
  | PTP_PASSIVE =>
    dsimp only [Ptpd.enterState]
    split
    · exact ((h.timerStart _ _).timerStartRand _ _).congr rfl rfl
    · exact (h.timerStart _ _).congr rfl rfl
  | PTP_UNCALIBRATED =>
    have hrequest : ∀ {w : World}, w.Still → (startRequestTimer w).Still := by
      intro w h
      unfold startRequestTimer
      split
      · exact h.timerStartRand _ _
      · exact h.timerStartRand _ _
      · exact h
    exact (hrequest (h.timerStart _ _)).congr rfl rfl

theorem World.Still.toState (h : w.Still) (s : PortState) : (toState s w).Still := by
  have hrecord : World.Still { w.record (.toState s) with messageActivity := true } :=
    h.congr rfl rfl
  exact (hrecord.leaveState s).enterState s

/-! ## What a timer that is asked leaves behind -/

open Watched in
theorem timerExpired_elapsed_ms (i : Timer) (w : World) : (timerExpired i w).2.elapsed_ms = 0 := by
  rw [timerExpired_eq, takeExpire_elapsed_ms, timerUpdate_elapsed_ms]

open Watched in
/-- The flag that was read is clear. -/
theorem timerExpired_expire (i : Timer) (w : World) : ((timerExpired i w).2.itimer i).expire = false := by
  rw [timerExpired_eq, takeExpire_itimer]
  split
  · rfl
  · next hno => simpa using hno

open Watched in
/-- Without time pending only the flag counts. -/
theorem timerExpired_of_elapsed (i : Timer) (helapsed : w.elapsed_ms = 0) :
    (timerExpired i w).1 = (w.itimer i).expire := by
  rw [timerExpired_eq, takeExpire_fst, timerUpdate_eq, chargeTimers_itimer, helapsed]
  rfl

open Watched in
theorem World.Still.timerExpired (h : w.Still) (i : Timer) : (timerExpired i w).2.Still := by
  refine ⟨timerExpired_elapsed_ms i w, ?_⟩
  have hflag : ((timerUpdate w).itimer .ANNOUNCE_RECEIPT_TIMER).expire = false := by
    rw [timerUpdate_eq, chargeTimers_itimer, h.elapsed_ms]
    exact h.announce
  rw [timerExpired_eq, takeExpire_itimer]
  split
  · rfl
  · exact hflag

/-- The announce receipt timer, once asked. -/
theorem announceReceipt_still (w : World) : (timerExpired .ANNOUNCE_RECEIPT_TIMER w).2.Still :=
  ⟨timerExpired_elapsed_ms _ w, timerExpired_expire _ w⟩

theorem World.Still.not_expired (h : w.Still) :
    (Ptpd.timerExpired .ANNOUNCE_RECEIPT_TIMER w).1 = false :=
  (timerExpired_of_elapsed _ h.elapsed_ms).trans h.announce

/-! ## The first two switches -/

theorem stateDecision_elapsed_ms (w : World) : (stateDecision w).elapsed_ms = w.elapsed_ms := by
  have hrecommend : ∀ d : PortState × World, (recommend d).elapsed_ms = d.2.elapsed_ms := by
    intro d
    unfold recommend
    dsimp only
    split
    · split <;> rfl
    · split <;> rfl
    · rfl
  have hdecide : ∀ (header : MsgHeader) (announce : MsgAnnounce) (w : World),
      (bmcStateDecision header announce w).2.elapsed_ms = w.elapsed_ms := by
    intro header announce w
    unfold bmcStateDecision
    split
    · rfl
    · dsimp only
      split
      · split <;> rfl
      · split <;> rfl
  -- without a decision nothing is done
  rw [stateDecision_eq]
  split
  · rw [hrecommend, bmc_eq, hdecide]
    rfl
  · rfl

theorem World.Still.stateDecision (h : w.Still) : (stateDecision w).Still :=
  h.congr (stateDecision_elapsed_ms w) (stateDecision_frame w).2.1

/-- A port that decides has no decision left. -/
theorem stateDecision_event (h : w.portDS.portState.decides) :
    (stateDecision w).events.STATE_DECISION_EVENT = false := by
  obtain ⟨c, l, hdecide, hengine⟩ := stateDecision_decide w
  have hevents : (stateDecision w).events = c.events := congrArg (fun e => e.core.events) hengine
  rw [hevents]
  cases hdecide with
  | none hno => exact Bool.eq_false_iff.mpr fun hevent => hno ⟨h, hevent⟩
  | listen => rfl
  | lead => rfl
  | follow => rfl

theorem World.Still.ifExpired (h : w.Still) (i : Timer) {f g : World → World}
    (hf : ∀ {w : World}, w.Still → (f w).Still) (hg : ∀ {w : World}, w.Still → (g w).Still) :
    (ifExpired i f g w).Still := by
  have hcall := h.timerExpired i
  unfold Ptpd.ifExpired
  generalize Ptpd.timerExpired i w = call at hcall ⊢
  unfold branch
  split
  · exact hf hcall
  · exact hg hcall

theorem World.Still.recommendedSlave (h : w.Still) : (recommendedSlave w).Still := by
  unfold Ptpd.recommendedSlave
  cases w.portDS.portState
  case PTP_UNCALIBRATED =>
    -- MASTER_CLOCK_SELECTED is looked at before MASTER_CLOCK_CHANGED
    have hfirst : World.Still (if w.events.MASTER_CLOCK_SELECTED then
        Ptpd.toState .PTP_SLAVE { w with events.MASTER_CLOCK_SELECTED := false } else w) := by
      split
      · refine World.Still.toState ?_ _
        exact h.congr rfl rfl
      · exact h
    dsimp only
    generalize (if w.events.MASTER_CLOCK_SELECTED then
      Ptpd.toState .PTP_SLAVE { w with events.MASTER_CLOCK_SELECTED := false } else w) = w₁ at hfirst ⊢
    split
    · exact hfirst.congr rfl rfl
    · exact hfirst
  case PTP_SLAVE =>
    -- with a synchronization fault and a changed clock UNCALIBRATED is entered twice
    have hfirst : World.Still (if w.events.SYNCHRONIZATION_FAULT then
        Ptpd.toState .PTP_UNCALIBRATED { w with events.SYNCHRONIZATION_FAULT := false } else w) := by
      split
      · refine World.Still.toState ?_ _
        exact h.congr rfl rfl
      · exact h
    dsimp only
    generalize (if w.events.SYNCHRONIZATION_FAULT then
      Ptpd.toState .PTP_UNCALIBRATED { w with events.SYNCHRONIZATION_FAULT := false }
      else w) = w₁ at hfirst ⊢
    split
    · refine World.Still.toState ?_ _
      exact hfirst.congr rfl rfl
    · exact hfirst
  all_goals exact h.toState _

theorem World.Still.recommendedAction (h : w.Still) : (recommendedAction w).Still := by
  unfold Ptpd.recommendedAction
  cases w.recommendedState
  case PTP_MASTER =>
    dsimp only
    unfold recommendedMaster
    cases w.portDS.portState
    case PTP_PRE_MASTER => exact h.ifExpired _ (fun h => h.toState _) fun h => h
    case PTP_MASTER => exact h
    all_goals exact h.toState _
  case PTP_SLAVE => exact h.recommendedSlave
  case PTP_PASSIVE | PTP_LISTENING =>
    dsimp only
    split
    · exact h.toState _
    · exact h
  all_goals exact h

/-- The world in which the port acts. -/
def World.decided (w : World) : World :=
  recommendedAction (stateDecision { w with messageActivity := false })

theorem doState_decided (w : World) : doState w = portAction w.decided := rfl

theorem decided_consistent (hc : w.core.Consistent) : w.decided.core.Consistent :=
  (decision_run { w with messageActivity := false }).consistent hc

theorem decided_acts (w : World) : Acts w w.decided := by
  have hidle : Quiet w { w with messageActivity := false } := .of_eq rfl rfl
  exact (hidle.acts.tail .decide).trans (recommendedAction_acts _)

theorem World.Still.decided (h : w.Still) : w.decided.Still := by
  have hidle : World.Still { w with messageActivity := false } := h.congr rfl rfl
  exact hidle.stateDecision.recommendedAction

theorem Core.settled_participates {c : Core} (h : c.settled) (htarget : c.recommendedState.isTarget) :
    c.portState.participates := by
  unfold Core.settled at h
  cases hrec : c.recommendedState <;> rw [hrec] at h htarget
  case PTP_MASTER => rcases h with h | h <;> rw [h] <;> rfl
  case PTP_PASSIVE | PTP_LISTENING =>
    rw [show c.portState = _ from h]
    rfl
  case PTP_SLAVE => exact h.elim
  all_goals cases htarget

/-- A recommended state is taken up in one way or another. -/
theorem recommendedAction_participates (htarget : w.recommendedState.isTarget) :
    (recommendedAction w).portDS.portState.participates := by
  obtain ⟨c, l, hmove, hnoted⟩ := recommendedAction_moved w
  rw [show (recommendedAction w).portDS.portState = c.portState from
    congrArg Core.portState hnoted.core_eq]
  cases hmove with
  | stay hsettled => exact Core.settled_participates hsettled htarget
  | enter s x hs =>
    rw [Core.enter_portState]
    rcases hs with ⟨-, rfl | rfl | rfl⟩ | ⟨rfl, -⟩ <;> rfl
  | calibrating hrec hstate =>
    rw [show ({ w.core with events.MASTER_CLOCK_CHANGED := false } : Core).portState = _ from hstate]
    rfl
  | slave hrec hstate =>
    rw [hstate]
    rfl
  | uncalibrate x => rfl
  | calibrated x => rfl
  | recalibrate x => rfl
  | recalibrateTwice x y => rfl

/-- Only a port that waits to be initialised acts as one. -/
theorem idle_of_decided (hc : w.core.Consistent)
    (h : w.decided.portDS.portState.participates = false) : w.Idle := by
  by_cases htarget : (stateDecision { w with messageActivity := false }).recommendedState.isTarget
  · exact absurd (recommendedAction_participates htarget) (Bool.eq_false_iff.mp h)
  have hstay : w.decided = stateDecision { w with messageActivity := false } :=
    recommendedAction_stay (by simpa using htarget)
  rw [hstay, (stateDecision_frame _).1] at h
  have hsame : stateDecision { w with messageActivity := false } = { w with messageActivity := false } := by
    refine stateDecision_stay ?_
    cases hstate : w.portDS.portState <;> rw [hstate] at h <;> first | rfl | cases h
  rw [hsame] at htarget
  refine ⟨by simpa using htarget, ?_⟩
  have hagrees : w.portDS.portState.agrees w.recommendedState := hc.agrees
  cases hstate : w.portDS.portState <;> rw [hstate] at h hagrees
  case PTP_INITIALIZING => exact .inr rfl
  case PTP_FAULTY => exact .inl rfl
  case PTP_DISABLED => exact hagrees.elim
  all_goals cases h

/-- In PRE_MASTER, with nothing to take the port out of it. -/
structure World.Qualifies (w : World) : Prop where
  port : w.portDS.portState = PTP_PRE_MASTER
  event : w.events.STATE_DECISION_EVENT = false
  timer : (timerExpired .QUALIFICATION_TIMEOUT w).1 = false

/-- A port that stays in PRE_MASTER has but asked its timer. -/
theorem recommendedAction_preMaster (hport : w.portDS.portState = PTP_PRE_MASTER)
    (hstay : (recommendedAction w).portDS.portState = PTP_PRE_MASTER)
    (hagrees : PTP_PRE_MASTER.agrees (recommendedAction w).recommendedState) :
    recommendedAction w = (timerExpired .QUALIFICATION_TIMEOUT w).2 := by
  have hleft : ∀ {s : PortState}, recommendedAction w = toState s w → s = PTP_PRE_MASTER := by
    intro s heq
    rw [heq, toState_portState] at hstay
    exact hstay
  obtain ⟨call, hcall⟩ : ∃ call, timerExpired .QUALIFICATION_TIMEOUT w = call := ⟨_, rfl⟩
  rw [hcall]
  cases hrec : w.recommendedState
  case PTP_MASTER =>
    have heq : recommendedAction w = branch (toState .PTP_MASTER) id call := by
      unfold recommendedAction recommendedMaster ifExpired
      rw [hrec, hport, ← hcall]
    rw [heq] at hstay ⊢
    unfold branch at hstay ⊢
    split
    case isTrue hexpired =>
      rw [if_pos hexpired, toState_portState] at hstay
      cases hstay
    case isFalse hexpired => rfl
  case PTP_PASSIVE =>
    have heq : recommendedAction w = toState PTP_PASSIVE w := by
      unfold recommendedAction
      rw [hrec]
      exact if_pos (by rw [hport]; decide)
    cases hleft heq
  case PTP_LISTENING =>
    have heq : recommendedAction w = toState PTP_LISTENING w := by
      unfold recommendedAction
      rw [hrec]
      exact if_pos (by rw [hport]; decide)
    cases hleft heq
  case PTP_SLAVE =>
    have heq : recommendedAction w = toState PTP_UNCALIBRATED w := by
      unfold recommendedAction recommendedSlave
      rw [hrec, hport]
    cases hleft heq
  all_goals
    -- nothing else leaves the port in PRE_MASTER
    rw [recommendedAction_stay (by rw [hrec]; rfl), hrec] at hagrees
    cases hagrees

/-- A port that stays in PRE_MASTER has taken its decision, and its timer has not expired. -/
theorem qualifies_of_decided (hc : w.core.Consistent) (hport : w.portDS.portState = PTP_PRE_MASTER)
    (hstay : w.decided.portDS.portState = PTP_PRE_MASTER) : w.decided.Qualifies := by
  have hagrees : w.decided.portDS.portState.agrees w.decided.recommendedState :=
    (decided_consistent hc).agrees
  rw [hstay] at hagrees
  have hevent : (stateDecision { w with messageActivity := false }).events.STATE_DECISION_EVENT = false :=
    stateDecision_event (by rw [hport]; rfl)
  have hport₁ : (stateDecision { w with messageActivity := false }).portDS.portState = PTP_PRE_MASTER := by
    rw [(stateDecision_frame _).1]
    exact hport
  unfold World.decided at hstay hagrees ⊢
  generalize stateDecision { w with messageActivity := false } = w₁ at *
  have hwait := recommendedAction_preMaster hport₁ hstay hagrees
  have hengine := timerExpired_engine .QUALIFICATION_TIMEOUT w₁
  have helapsed := timerExpired_elapsed_ms .QUALIFICATION_TIMEOUT w₁
  have hexpire := timerExpired_expire .QUALIFICATION_TIMEOUT w₁
  rw [hwait] at hstay ⊢
  obtain ⟨call, hcall⟩ : ∃ call, timerExpired .QUALIFICATION_TIMEOUT w₁ = call := ⟨_, rfl⟩
  rw [hcall] at hengine helapsed hexpire hstay ⊢
  refine ⟨hstay, ?_, (timerExpired_of_elapsed _ helapsed).trans hexpire⟩
  exact (congrArg (fun e => e.core.events.STATE_DECISION_EVENT) hengine).trans hevent

end Ptpd
