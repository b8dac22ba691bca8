import Ptpd.Stillness
import Ptpd.Draining
import Ptpd.Mastership

/-! # A port whose master falls silent

    As long as nothing is heard, a port that waits for Announces waits out its
    announce receipt timer, whatever passes the time comes in, and takes over at
    the pass at which it has run out.
-/

namespace Ptpd

open PortState MachineInt Watched

variable {w w' : World}

/-! ## Waiting -/

/-- The states whose port waits for Announces. -/
def PortState.waits : PortState → Bool
  | PTP_LISTENING | PTP_UNCALIBRATED | PTP_SLAVE | PTP_PASSIVE => true
  | _ => false

/-- What is left of the announce receipt timer. -/
def World.patience (w : World) : Int := (w.itimer .ANNOUNCE_RECEIPT_TIMER).left

/-- The port waits for Announces, nothing else is to be done, and nothing has been heard. -/
structure World.Deserted (w : World) : Prop where
  waits : w.portDS.portState.waits
  agrees : w.portDS.portState.agrees w.recommendedState
  events : w.events = ⟨false, false, false, false⟩
  waiting : w.netPath.waiting = 0
  elapsed_ms : w.elapsed_ms = 0
  running : 0 < (w.itimer .ANNOUNCE_RECEIPT_TIMER).interval
  patience_pos : 0 < w.patience
  patience_lt : w.patience < 2 ^ 31
  expire : (w.itimer .ANNOUNCE_RECEIPT_TIMER).expire = false

/-- Time passes, and the state machine looks at it, once for each of these. -/
def passes (ts : List UInt32) : List Input := ts.flatMap fun t => [.catchAlarm t, .doState]

/-- All that a port which only waits keeps, its timers apart. -/
structure Keeps (w w' : World) : Prop where
  portState : w'.portDS.portState = w.portDS.portState
  recommendedState : w'.recommendedState = w.recommendedState
  events : w'.events = w.events
  netPath : w'.netPath = w.netPath
  defaultDS : w'.defaultDS = w.defaultDS
  messageActivity : w.messageActivity = false → w'.messageActivity = false

theorem Keeps.refl (w : World) : Keeps w w := ⟨rfl, rfl, rfl, rfl, rfl, id⟩

theorem Keeps.trans {w'' : World} (h : Keeps w w') (h' : Keeps w' w'') : Keeps w w'' :=
  ⟨h'.1.trans h.1, h'.2.trans h.2, h'.3.trans h.3, h'.4.trans h.4, h'.5.trans h.5, h'.6 ∘ h.6⟩

theorem Keeps.isSlaveOnly (h : Keeps w w') : w'.isSlaveOnly = w.isSlaveOnly := by
  unfold PtpClock.isSlaveOnly
  rw [h.defaultDS]

theorem timerUpdate_keeps (w : World) : Keeps w (timerUpdate w) := by
  unfold timerUpdate
  dsimp only
  split <;> exact ⟨rfl, rfl, rfl, rfl, rfl, id⟩

theorem takeExpire_keeps (i : Timer) (w : World) : Keeps w (takeExpire i w).2 := by
  unfold takeExpire
  split <;> exact ⟨rfl, rfl, rfl, rfl, rfl, id⟩

theorem timerExpired_keeps (i : Timer) (w : World) : Keeps w (timerExpired i w).2 :=
  (timerUpdate_keeps w).trans (takeExpire_keeps i _)

theorem issueManagement_keeps (w : World) :
    Keeps w (issueManagement w) ∧ (issueManagement w).itimer = w.itimer ∧
      (issueManagement w).elapsed_ms = w.elapsed_ms := by
  rw [issueManagement_eq]
  exact ⟨⟨rfl, rfl, rfl, rfl, rfl, id⟩, rfl, rfl⟩

/-- Without a packet there is nothing to handle. -/
theorem handle_nothing (hactive : w.messageActivity = false) (hwaiting : w.netPath.waiting = 0) :
    handle w = w := by
  have hselect : netSelect w = 0 := by
    have hnot : ¬ netSelect w > 0 := fun hpos => netSelect_pos.mp hpos hwaiting
    unfold netSelect at hnot ⊢
    split at hnot
    · exact absurd (by decide) hnot
    · next hno => rw [if_neg hno]
  unfold handle
  rw [hactive]
  simp [hselect]

/-! ## One pass -/

/-- No decision is due and the state is the recommended one: the first two switches do nothing. -/
theorem decided_eq (hwaits : w.portDS.portState.waits)
    (hagrees : w.portDS.portState.agrees w.recommendedState)
    (hevents : w.events = ⟨false, false, false, false⟩) :
    recommendedAction (stateDecision w) = w := by
  have hstay : stateDecision w = w := by
    unfold stateDecision
    rw [hevents]
    simp
  rw [hstay]
  unfold recommendedAction
  cases hport : w.portDS.portState
  case PTP_LISTENING | PTP_PASSIVE =>
    rw [hport] at hagrees
    rw [show w.recommendedState = _ from hagrees]
    simp
  case PTP_UNCALIBRATED | PTP_SLAVE =>
    rw [hport] at hagrees
    rw [show w.recommendedState = _ from hagrees]
    simp [recommendedSlave, hport, hevents]
  all_goals
    rw [hport] at hwaits
    cases hwaits

/-- The report that a port sends before it looks at its messages. -/
def report (w : World) : World :=
  ifExpired .MANAGEMENT_INTERVAL_TIMER (fun w => handle (issueManagement w)) id w

theorem timerUpdate_of_elapsed (h : w.elapsed_ms = 0) (i : Timer) :
    (timerUpdate w).itimer i = w.itimer i := by
  have hzero : wrapS 32 ((0 : UInt32).toNat : Int) ≤ 0 := by
    rw [wrapS_32 (by simp) (by simp)]
    simp
  rw [timerUpdate_eq, chargeTimers_itimer, h]
  exact if_pos hzero

theorem report_keeps (hactive : w.messageActivity = false) (hwaiting : w.netPath.waiting = 0) :
    Keeps w (report w) ∧ (report w).elapsed_ms = 0 ∧
      (report w).itimer .ANNOUNCE_RECEIPT_TIMER =
        (timerUpdate w).itimer .ANNOUNCE_RECEIPT_TIMER := by
  obtain ⟨call, hcall⟩ : ∃ call, timerExpired .MANAGEMENT_INTERVAL_TIMER w = call := ⟨_, rfl⟩
  have hkeeps : Keeps w call.2 := hcall ▸ timerExpired_keeps .MANAGEMENT_INTERVAL_TIMER w
  have helapsed : call.2.elapsed_ms = 0 :=
    hcall ▸ timerExpired_elapsed_ms .MANAGEMENT_INTERVAL_TIMER w
  have htimer : call.2.itimer .ANNOUNCE_RECEIPT_TIMER =
      (timerUpdate w).itimer .ANNOUNCE_RECEIPT_TIMER := by
    rw [← hcall, timerExpired_eq, takeExpire_itimer]
    simp
  have hreport : report w = if call.1 then handle (issueManagement call.2) else call.2 := by
    unfold report ifExpired
    rw [hcall]
    rfl
  rw [hreport]
  split
  · obtain ⟨hissue, htimers, helapsed'⟩ := issueManagement_keeps call.2
    have hboth := hkeeps.trans hissue
    rw [handle_nothing (hboth.messageActivity hactive)
      (by rw [hboth.netPath]; exact hwaiting)]
    exact ⟨hboth, helapsed'.trans helapsed, by rw [htimers, htimer]⟩
  · exact ⟨hkeeps, helapsed, htimer⟩

/-- The port after its announce receipt timer has been looked at. -/
theorem passiveAction_keeps (hactive : w.messageActivity = false)
    (hwaiting : w.netPath.waiting = 0)
    (hexpire : ((timerUpdate w).itimer .ANNOUNCE_RECEIPT_TIMER).expire = false) :
    Keeps w (passiveAction w) ∧ (passiveAction w).elapsed_ms = 0 ∧
      (passiveAction w).itimer .ANNOUNCE_RECEIPT_TIMER =
        (timerUpdate w).itimer .ANNOUNCE_RECEIPT_TIMER := by
  have hkeeps := timerExpired_keeps .ANNOUNCE_RECEIPT_TIMER w
  have helapsed := timerExpired_elapsed_ms .ANNOUNCE_RECEIPT_TIMER w
  have hno : (timerExpired .ANNOUNCE_RECEIPT_TIMER w).1 = false := by
    rw [timerExpired_eq, takeExpire_fst, hexpire]
  have htimer : (timerExpired .ANNOUNCE_RECEIPT_TIMER w).2.itimer .ANNOUNCE_RECEIPT_TIMER =
      (timerUpdate w).itimer .ANNOUNCE_RECEIPT_TIMER := by
    rw [timerExpired_eq, takeExpire_itimer]
    simp [hexpire]
  unfold passiveAction ifExpired
  generalize timerExpired .ANNOUNCE_RECEIPT_TIMER w = call at hkeeps helapsed hno htimer ⊢
  unfold branch
  rw [hno]
  simp only [Bool.false_eq_true, if_false]
  rw [handle_nothing (hkeeps.messageActivity hactive)
    (by rw [hkeeps.netPath]; exact hwaiting)]
  exact ⟨hkeeps, helapsed, htimer⟩

/-- Where the timeout leads: a port that may only be a slave goes back to listening, any other
    becomes master and advertises its own clock. -/
theorem announceReceiptTimeoutExpires_ends (w : World) :
    (announceReceiptTimeoutExpires w).portDS.portState =
        (if w.isSlaveOnly then PTP_LISTENING else PTP_MASTER) ∧
      (w.isSlaveOnly = false → (announceReceiptTimeoutExpires w).AdvertisesOwn) := by
  have hslave : (emptyForeignMasterDS w).isSlaveOnly = w.isSlaveOnly := rfl
  have hm1 : ∀ w : World, (m1 w).AdvertisesOwn := fun _ => ⟨rfl, rfl, rfl, rfl, rfl⟩
  unfold announceReceiptTimeoutExpires
  generalize emptyForeignMasterDS w = w₁ at hslave ⊢
  dsimp only
  rw [hslave]
  cases w.isSlaveOnly with
  | false =>
    simp only [Bool.not_false, if_true, Bool.false_eq_true, if_false]
    constructor
    · exact toState_portState _ _
    · intro _
      exact (hm1 w₁).congr
        (toState_dataSets PTP_MASTER { m1 w₁ with recommendedState := PTP_MASTER })
  | true =>
    simp only [Bool.not_true, Bool.false_eq_true, if_false, if_true]
    constructor
    · split
      · exact toState_portState _ _
      · next hlistening => exact not_not.mp hlistening
    · intro h
      exact absurd h Bool.noConfusion

theorem passiveAction_expires
    (hexpire : ((timerUpdate w).itimer .ANNOUNCE_RECEIPT_TIMER).expire = true) :
    (passiveAction w).portDS.portState = (if w.isSlaveOnly then PTP_LISTENING else PTP_MASTER) ∧
      (w.isSlaveOnly = false → (passiveAction w).AdvertisesOwn) := by
  obtain ⟨call, hcall⟩ : ∃ call, timerExpired .ANNOUNCE_RECEIPT_TIMER w = call := ⟨_, rfl⟩
  have hkeeps : Keeps w call.2 := hcall ▸ timerExpired_keeps .ANNOUNCE_RECEIPT_TIMER w
  have hyes : call.1 = true := by
    rw [← hcall, timerExpired_eq, takeExpire_fst, hexpire]
  have hpass : passiveAction w = announceReceiptTimeoutExpires call.2 := by
    unfold passiveAction ifExpired
    rw [hcall]
    unfold branch
    rw [if_pos hyes]
  rw [hpass, ← hkeeps.isSlaveOnly]
  exact announceReceiptTimeoutExpires_ends call.2

/-- A pass of a port that waits: the report at most, and the timer. -/
theorem doState_waits (hwaits : w.portDS.portState.waits)
    (hagrees : w.portDS.portState.agrees w.recommendedState)
    (hevents : w.events = ⟨false, false, false, false⟩) (hwaiting : w.netPath.waiting = 0) :
    ∃ w₁, doState w = passiveAction w₁ ∧ Keeps w w₁ ∧ w₁.messageActivity = false ∧
      (timerUpdate w₁).itimer .ANNOUNCE_RECEIPT_TIMER =
        (timerUpdate w).itimer .ANNOUNCE_RECEIPT_TIMER := by
  have hdecided : doState w = portAction { w with messageActivity := false } :=
    congrArg portAction (decided_eq (w := { w with messageActivity := false }) hwaits hagrees hevents)
  obtain ⟨hkeeps, helapsed, htimer⟩ :=
    report_keeps (w := { w with messageActivity := false }) rfl hwaiting
  have hclear : Keeps w { w with messageActivity := false } := ⟨rfl, rfl, rfl, rfl, rfl, fun _ => rfl⟩
  have hupdate : (timerUpdate { w with messageActivity := false }).itimer .ANNOUNCE_RECEIPT_TIMER =
      (timerUpdate w).itimer .ANNOUNCE_RECEIPT_TIMER := by
    rw [timerUpdate_eq, timerUpdate_eq, chargeTimers_itimer, chargeTimers_itimer]
  rw [hdecided]
  cases hport : w.portDS.portState
  case PTP_PASSIVE =>
    refine ⟨{ w with messageActivity := false }, ?_, hclear, rfl, hupdate⟩
    unfold portAction
    rw [show (World.toPtpClock { w with messageActivity := false }).portDS.portState = _ from hport]
  case PTP_LISTENING | PTP_UNCALIBRATED | PTP_SLAVE =>
    refine ⟨report { w with messageActivity := false }, ?_, hclear.trans hkeeps, hkeeps.messageActivity rfl, ?_⟩
    · unfold portAction
      rw [show (World.toPtpClock { w with messageActivity := false }).portDS.portState = _
        from hport]
      rfl
    · rw [timerUpdate_of_elapsed helapsed, htimer, hupdate]
  all_goals
    rw [hport] at hwaits
    cases hwaits

/-! ## The wait -/

/-- The milliseconds in all of these. -/
def spent (ts : List UInt32) : Nat := (ts.map UInt32.toNat).sum

section

variable {t : UInt32}

/-- The timer after `t`, once it is brought up to date. -/
theorem timerUpdate_catchAlarm (h : w.Deserted) (ht : t.toNat < 2 ^ 31) :
    (timerUpdate (catchAlarm t w)).itimer .ANNOUNCE_RECEIPT_TIMER =
      if t.toNat = 0 then w.itimer .ANNOUNCE_RECEIPT_TIMER
      else if w.patience ≤ t.toNat then
        { w.itimer .ANNOUNCE_RECEIPT_TIMER with
          left := (w.itimer .ANNOUNCE_RECEIPT_TIMER).interval, expire := true }
      else { w.itimer .ANNOUNCE_RECEIPT_TIMER with left := w.patience - t.toNat } := by
  have hpos := h.patience_pos
  have hlt := h.patience_lt
  have helapsed : (catchAlarm t w).elapsed_ms = t := by
    show w.elapsed_ms + t = t
    rw [h.elapsed_ms]
    simp
  have hitimer : (catchAlarm t w).itimer = w.itimer := rfl
  have hwrap : wrapS 32 (w.patience - t.toNat) = w.patience - t.toNat := by
    apply wrapS_32
    · omega
    · omega
  rw [timerUpdate_eq, chargeTimers_itimer, helapsed, wrapS_32 (by omega) (by omega), hitimer]
  by_cases hzero : t.toNat = 0
  · rw [if_pos (by omega), if_pos hzero]
  · rw [if_neg (by omega), if_neg hzero]
    unfold IntervalTimer.advance
    rw [if_pos h.running]
    dsimp only
    rw [show wrapS 32 ((w.itimer .ANNOUNCE_RECEIPT_TIMER).left - t.toNat) = _ from hwrap]
    by_cases hout : w.patience ≤ t.toNat
    · rw [if_pos (by omega), if_pos hout]
    · rw [if_neg (by omega), if_neg hout]

/-- The port has only waited: the time is gone from the timer. -/
theorem World.Deserted.of_keeps (h : w.Deserted) (hkeeps : Keeps w w') (helapsed : w'.elapsed_ms = 0)
    {left : Int} (hpos : 0 < left) (hle : left ≤ w.patience)
    (htimer : w'.itimer .ANNOUNCE_RECEIPT_TIMER =
      { w.itimer .ANNOUNCE_RECEIPT_TIMER with left := left }) :
    w'.Deserted ∧ w'.patience = left := by
  have hpatience : w'.patience = left := by
    unfold World.patience
    rw [htimer]
  refine ⟨?_, hpatience⟩
  constructor
  · rw [hkeeps.portState]
    exact h.waits
  · rw [hkeeps.portState, hkeeps.recommendedState]
    exact h.agrees
  · exact hkeeps.events.trans h.events
  · rw [hkeeps.netPath]
    exact h.waiting
  · exact helapsed
  · rw [htimer]
    exact h.running
  · rw [hpatience]
    exact hpos
  · rw [hpatience]
    exact hle.trans_lt h.patience_lt
  · rw [htimer]
    exact h.expire

/-- Time passes and the state machine looks at it: a port that has kept all but its timers is
    left with the announce receipt timer. -/
theorem World.Deserted.pass (h : w.Deserted) :
    ∃ w₁, runInputs [.catchAlarm t, .doState] w = passiveAction w₁ ∧ Keeps w w₁ ∧
      w₁.messageActivity = false ∧
      (timerUpdate w₁).itimer .ANNOUNCE_RECEIPT_TIMER =
        (timerUpdate (catchAlarm t w)).itimer .ANNOUNCE_RECEIPT_TIMER := by
  have hpass : runInputs [.catchAlarm t, .doState] w = doState (catchAlarm t w) := rfl
  have halarm : Keeps w (catchAlarm t w) := ⟨rfl, rfl, rfl, rfl, rfl, id⟩
  obtain ⟨w₁, hrun, hkeeps, hactive, htimer⟩ :=
    doState_waits (w := catchAlarm t w) h.waits h.agrees h.events h.waiting
  exact ⟨w₁, hpass.trans hrun, halarm.trans hkeeps, hactive, htimer⟩

/-- Before the time is out, the port waits on. -/
theorem World.Deserted.waits_on (h : w.Deserted) (ht : (t.toNat : Int) < w.patience) :
    Keeps w (runInputs [.catchAlarm t, .doState] w) ∧
      (runInputs [.catchAlarm t, .doState] w).Deserted ∧
      (runInputs [.catchAlarm t, .doState] w).patience = w.patience - t.toNat := by
  have hlt := h.patience_lt
  obtain ⟨w₁, hrun, hkeeps, hactive, htimer⟩ := h.pass (t := t)
  rw [timerUpdate_catchAlarm h (by omega)] at htimer
  -- the timer has been charged and has not run out
  have hleft : (timerUpdate w₁).itimer .ANNOUNCE_RECEIPT_TIMER =
      { w.itimer .ANNOUNCE_RECEIPT_TIMER with left := w.patience - t.toNat } := by
    rw [htimer]
    by_cases hzero : t.toNat = 0
    · rw [if_pos hzero, hzero]
      simp [World.patience]
    · rw [if_neg hzero, if_neg (by omega)]
  have hwaiting : w₁.netPath.waiting = 0 := by
    rw [hkeeps.netPath]
    exact h.waiting
  obtain ⟨hkeeps', helapsed, htimer'⟩ :=
    passiveAction_keeps (w := w₁) hactive hwaiting (by rw [hleft]; exact h.expire)
  rw [hleft] at htimer'
  rw [hrun]
  exact ⟨hkeeps.trans hkeeps',
    h.of_keeps (hkeeps.trans hkeeps') helapsed (by omega) (by omega) htimer'⟩

/-- At the pass that uses up the time, it takes over. -/
theorem World.Deserted.gives_up (h : w.Deserted) (ht : w.patience ≤ t.toNat)
    (hsmall : t.toNat < 2 ^ 31) :
    (runInputs [.catchAlarm t, .doState] w).portDS.portState =
        (if w.isSlaveOnly then PTP_LISTENING else PTP_MASTER) ∧
      (w.isSlaveOnly = false → (runInputs [.catchAlarm t, .doState] w).AdvertisesOwn) := by
  have hpos := h.patience_pos
  obtain ⟨w₁, hrun, hkeeps, -, htimer⟩ := h.pass (t := t)
  rw [timerUpdate_catchAlarm h hsmall, if_neg (by omega), if_pos ht] at htimer
  have hslave : w₁.isSlaveOnly = w.isSlaveOnly := hkeeps.isSlaveOnly
  have hends := passiveAction_expires (w := w₁) (by rw [htimer])
  rw [hslave] at hends
  rw [hrun]
  exact hends

end

theorem passes_append (ts ts' : List UInt32) (w : World) :
    runInputs (passes (ts ++ ts')) w = runInputs (passes ts') (runInputs (passes ts) w) := by
  unfold runInputs passes
  rw [List.flatMap_append, List.foldl_append]

/-- As long as the passes do not use up the time, the port waits. -/
theorem World.Deserted.waits_through (h : w.Deserted) {ts : List UInt32}
    (hts : (spent ts : Int) < w.patience) :
    Keeps w (runInputs (passes ts) w) ∧ (runInputs (passes ts) w).Deserted ∧
      (runInputs (passes ts) w).patience = w.patience - spent ts := by
  induction ts generalizing w with
  | nil =>
    refine ⟨.refl w, h, ?_⟩
    show w.patience = w.patience - ((0 : Nat) : Int)
    omega
  | cons t ts ih =>
    have hspent : spent (t :: ts) = t.toNat + spent ts := rfl
    obtain ⟨hkeeps, hdeserted, hpatience⟩ := h.waits_on (t := t) (by omega)
    have hsplit : runInputs (passes (t :: ts)) w =
        runInputs (passes ts) (runInputs [.catchAlarm t, .doState] w) := rfl
    obtain ⟨hkeeps', hdeserted', hpatience'⟩ := ih hdeserted (by omega)
    rw [hsplit]
    exact ⟨hkeeps.trans hkeeps', hdeserted', by omega⟩

/-- A port that waits for Announces and hears nothing keeps its state until the passes have used
    up what is left of its announce receipt timer, and at that pass, whatever the times the
    passes come at, becomes master and advertises its own clock, or listens if it may only be a
    slave. -/
theorem takes_over_in_time (h : w.Deserted) {ts : List UInt32} {t : UInt32}
    (ht : t.toNat < 2 ^ 31) (hwait : (spent ts : Int) < w.patience) :
    (runInputs (passes ts) w).portDS.portState = w.portDS.portState ∧
      (runInputs (passes ts) w).patience = w.patience - spent ts ∧
      (w.patience ≤ spent (ts ++ [t]) →
        (runInputs (passes (ts ++ [t])) w).portDS.portState =
            (if w.isSlaveOnly then PTP_LISTENING else PTP_MASTER) ∧
          (w.isSlaveOnly = false → (runInputs (passes (ts ++ [t])) w).AdvertisesOwn)) := by
  obtain ⟨hkeeps, hdeserted, hpatience⟩ := h.waits_through hwait
  refine ⟨hkeeps.portState, hpatience, ?_⟩
  intro hout
  have hspent : spent (ts ++ [t]) = spent ts + t.toNat := by
    unfold spent
    simp
  have hends := hdeserted.gives_up (t := t) (by omega) ht
  rw [hkeeps.isSlaveOnly] at hends
  rw [passes_append]
  exact hends

/-- A board that follows its master. -/
def forsaken : World :=
  sampleRun .E2E [.doState, sampleAnnounce 9 200 1, .doState, .doState, .doState]

theorem deserted_forsaken : forsaken.Deserted := by
  have hreachable : Reachable forsaken := reachable_sampleRun .E2E (by decide)
  exact ⟨by decide +kernel, hreachable.consistent.agrees, by decide +kernel, by decide +kernel,
    by decide +kernel, by decide +kernel, by decide +kernel, by decide +kernel, by decide +kernel⟩

/-- The master falls silent: the board waits for five seconds, and has taken over after twelve. -/
theorem takes_over_in_time_alone :
    (runInputs (passes [2000, 3000]) forsaken).portDS.portState = forsaken.portDS.portState ∧
      (runInputs (passes [2000, 3000]) forsaken).patience =
        forsaken.patience - spent [2000, 3000] ∧
      (runInputs (passes ([2000, 3000] ++ [7000])) forsaken).portDS.portState = PTP_MASTER ∧
      (runInputs (passes ([2000, 3000] ++ [7000])) forsaken).AdvertisesOwn := by
  have hmayLead : forsaken.isSlaveOnly = false := by decide +kernel
  have hout : forsaken.patience ≤ spent ([2000, 3000] ++ [7000]) := by decide +kernel
  have hwait : (spent [2000, 3000] : Int) < forsaken.patience := by decide +kernel
  obtain ⟨hport, hpatience, hends⟩ :=
    takes_over_in_time deserted_forsaken (t := 7000) (by decide) hwait
  obtain ⟨hmaster, hown⟩ := hends hout
  rw [hmayLead] at hmaster
  exact ⟨hport, hpatience, hmaster, hown hmayLead⟩

end Ptpd
