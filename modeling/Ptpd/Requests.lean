import Ptpd.Recognition
import Ptpd.Refinement.Asks
import Ptpd.RoleTimers

/-! # The request timers

    A port that measures the delay to its master, or to its peer, starts its
    request timer with a random interval whenever it enters such a state and
    after every request. An interval of 0 stops the timer, and nothing starts
    it again before the port leaves the state. With the E2E mechanism the bound
    of the random number comes from the master, and may be 0 itself.
-/

namespace Ptpd

open PortState MachineInt

variable {w w' : World}

/-- The interval that the timer is started with. -/
def Arming.interval (a : Arming) : Int := wrapS 32 ((a.rand : Int) % (a.randMax % 2 ^ 32))

/-! ## The last arming -/

/-- The states in which the request timer of a delay mechanism is to run. -/
def DelayMechanism.asksIn : DelayMechanism → PortState → Bool
  | .P2P, PTP_UNCALIBRATED | .P2P, PTP_SLAVE | .P2P, PTP_MASTER | .P2P, PTP_PASSIVE
  | .E2E, PTP_UNCALIBRATED | .E2E, PTP_SLAVE => true
  | _, _ => false

/-- The last arming started this timer, and nothing stopped it since. -/
def World.StartedLast (w : World) (t : Timer) : Prop :=
  ∃ a ∈ w.armings.head?, a.index = t ∧ (w.itimer t).interval = a.interval

/-- The last arming started the request timer, where it is to run. -/
def World.Armed (w : World) : Prop :=
  ∀ t, w.portDS.delayMechanism.timer = some t →
    w.portDS.delayMechanism.asksIn w.portDS.portState = true → w.StartedLast t

theorem DelayMechanism.requests_of_timer {m : DelayMechanism} {t : Timer}
    (h : m.timer = some t) : t.requests = true := by
  cases m <;> cases h <;> rfl

theorem World.StartedLast.congr {t : Timer} (h : w.StartedLast t)
    (hinterval : (w'.itimer t).interval = (w.itimer t).interval)
    (harmings : w'.armings = w.armings) : w'.StartedLast t := by
  unfold World.StartedLast
  rw [hinterval, harmings]
  exact h

/-- The interval that a master sets is not looked at before the next arming. -/
theorem World.Armed.congr {l : Int} (hw : w.Armed)
    (h : w'.asking = { w.asking with logMinDelayReqInterval := l }) : w'.Armed := by
  have hmech : w'.portDS.delayMechanism = w.portDS.delayMechanism :=
    congrArg Asking.delayMechanism h
  have hport : w'.portDS.portState = w.portDS.portState := congrArg Asking.portState h
  intro t ht hasks
  rw [hmech] at ht
  rw [hmech, hport] at hasks
  have hinterval := congrFun (congrArg Asking.interval h) t
  simp only [World.asking, DelayMechanism.requests_of_timer ht, if_true] at hinterval
  exact (hw t ht hasks).congr hinterval (congrArg Asking.armings h)

theorem timerStartRand_startedLast (index : Timer) (randMax : Int) (w : World) :
    (timerStartRand index randMax w).StartedLast index := by
  refine ⟨⟨index, randMax, w.platform.rand.head, w.toPtpClock⟩, rfl, rfl, ?_⟩
  simp [timerStartRand, timerStart, World.setTimer, getRand, World.recordArming, Arming.interval]

/-! ## Changing the state -/

theorem stopRequestTimer_asking (w : World) :
    (stopRequestTimer w).asking =
      { w.asking with interval := (stopRequestTimer w).asking.interval } := by
  unfold stopRequestTimer
  split <;> rfl

/-- Leaving a state may stop the timers, and nothing else of them. -/
theorem leaveState_asking (s : PortState) (w : World) :
    (leaveState s w).asking = { w.asking with interval := (leaveState s w).asking.interval } := by
  have hinit : ∀ w : World, (initClock w).asking = w.asking := fun w => (initClock_still w).asking
  unfold leaveState
  cases w.portDS.portState
  case PTP_INITIALIZING | PTP_FAULTY | PTP_DISABLED => rfl
  case PTP_LISTENING | PTP_PRE_MASTER =>
    have hasking := hinit w
    generalize initClock w = w₁ at hasking ⊢
    rw [← hasking]
    rfl
  case PTP_MASTER | PTP_PASSIVE =>
    have hasking := hinit w
    generalize initClock w = w₁ at hasking ⊢
    rw [← hasking]
    rfl
  case PTP_UNCALIBRATED | PTP_SLAVE =>
    dsimp only
    split
    · rfl
    · rw [hinit, stopRequestTimer_asking]
      rfl

theorem leaveState_delayMechanism (s : PortState) (w : World) :
    (leaveState s w).portDS.delayMechanism = w.portDS.delayMechanism :=
  congrArg Asking.delayMechanism (leaveState_asking s w)

theorem leaveState_armings (s : PortState) (w : World) :
    (leaveState s w).armings = w.armings :=
  congrArg Asking.armings (leaveState_asking s w)

theorem leaveState_logMinDelayReqInterval (s : PortState) (w : World) :
    (leaveState s w).portDS.logMinDelayReqInterval = w.portDS.logMinDelayReqInterval :=
  congrArg Asking.logMinDelayReqInterval (leaveState_asking s w)

theorem enterState_delayMechanism (s : PortState) (w : World) :
    (enterState s w).portDS.delayMechanism = w.portDS.delayMechanism := by
  cases s
  case PTP_MASTER =>
    dsimp only [enterState, startPDelayTimer]
    split <;> rfl
  case PTP_PASSIVE =>
    dsimp only [enterState]
    split <;> rfl
  case PTP_UNCALIBRATED =>
    dsimp only [enterState, startRequestTimer]
    split <;> rfl
  all_goals rfl

theorem toState_delayMechanism (s : PortState) (w : World) :
    (toState s w).portDS.delayMechanism = w.portDS.delayMechanism :=
  (enterState_delayMechanism s _).trans (leaveState_delayMechanism s _)

theorem startRequestTimer_startedLast {t : Timer}
    (ht : w.portDS.delayMechanism.timer = some t) : (startRequestTimer w).StartedLast t := by
  unfold startRequestTimer
  cases hmech : w.portDS.delayMechanism <;> rw [hmech] at ht
  case E2E =>
    cases ht
    exact timerStartRand_startedLast _ _ _
  case P2P =>
    cases ht
    exact timerStartRand_startedLast _ _ _
  case DELAY_DISABLED => cases ht

theorem startPDelayTimer_startedLast {t : Timer} (hp2p : w.portDS.delayMechanism = .P2P)
    (ht : w.portDS.delayMechanism.timer = some t) : (startPDelayTimer w).StartedLast t := by
  unfold startPDelayTimer
  rw [hp2p] at ht ⊢
  cases ht
  exact timerStartRand_startedLast _ _ _

theorem DelayMechanism.p2p_of_asksIn {m : DelayMechanism} {s : PortState}
    (h : m.asksIn s = true) (hs : s = PTP_MASTER ∨ s = PTP_PASSIVE) : m = .P2P := by
  rcases hs with rfl | rfl
  · cases m <;> first | rfl | cases h
  · cases m <;> first | rfl | cases h

/-- Every state but SLAVE starts the request timer that it needs. -/
theorem enterState_startedLast {s : PortState} (hs : s ≠ PTP_SLAVE) {t : Timer}
    (ht : w.portDS.delayMechanism.timer = some t)
    (hasks : w.portDS.delayMechanism.asksIn s = true) : (enterState s w).StartedLast t := by
  have hport : ∀ (s : PortState) {w : World}, w.StartedLast t →
      ({ w with portDS.portState := s } : World).StartedLast t := fun _ _ h => h
  cases hstate : s
  case PTP_UNCALIBRATED =>
    refine hport _ ?_
    exact startRequestTimer_startedLast ht
  case PTP_MASTER =>
    have hp2p := DelayMechanism.p2p_of_asksIn hasks (.inl hstate)
    refine hport _ ?_
    exact startPDelayTimer_startedLast hp2p ht
  case PTP_PASSIVE =>
    have hp2p := DelayMechanism.p2p_of_asksIn hasks (.inr hstate)
    refine hport _ ?_
    rw [hp2p] at ht
    cases ht
    have hstart : (timerStart .ANNOUNCE_RECEIPT_TIMER w.announceReceiptInterval w).portDS.delayMechanism =
      .P2P := hp2p
    rw [if_pos hstart]
    exact timerStartRand_startedLast _ _ _
  case PTP_SLAVE => exact absurd hstate hs
  all_goals
    rw [hstate] at hasks
    cases hmech : w.portDS.delayMechanism <;> rw [hmech] at hasks <;> cases hasks

/-- A port becomes SLAVE with the timer that it has as UNCALIBRATED. -/
theorem slave_armed (hport : w.portDS.portState = PTP_UNCALIBRATED) (hw : w.Armed) :
    (toState PTP_SLAVE w).Armed := by
  intro t ht hasks
  rw [toState_delayMechanism] at ht hasks
  rw [toState_portState] at hasks
  have hasks' : w.portDS.delayMechanism.asksIn w.portDS.portState = true := by
    rw [hport]
    cases hmech : w.portDS.delayMechanism <;> rw [hmech] at hasks <;> first | rfl | cases hasks
  have hshort := leaveState_shortcut (s := PTP_SLAVE)
    (w := { w.record (.toState PTP_SLAVE) with messageActivity := true })
    (congrArg PortState.follows hport) rfl
  have hentered : toState PTP_SLAVE w = timerStart .MANAGEMENT_INTERVAL_TIMER 1000
      { w.record (.toState PTP_SLAVE) with
        messageActivity := true
        portDS.portState := PTP_SLAVE } := by
    unfold toState
    dsimp only
    rw [hshort]
    rfl
  have hmanagement : t ≠ .MANAGEMENT_INTERVAL_TIMER := by
    rintro rfl
    exact absurd (DelayMechanism.requests_of_timer ht) (by decide)
  rw [hentered]
  refine (hw t ht hasks').congr ?_ rfl
  simp [timerStart, World.setTimer, hmanagement, World.record]

theorem World.Armed.toState (hw : w.Armed) {s : PortState}
    (hs : s = PTP_SLAVE → w.portDS.portState = PTP_UNCALIBRATED) : (toState s w).Armed := by
  by_cases hslave : s = PTP_SLAVE
  · subst hslave
    exact slave_armed (hs rfl) hw
  · intro t ht hasks
    rw [toState_delayMechanism] at ht hasks
    rw [toState_portState] at hasks
    have hmech := leaveState_delayMechanism s
      { w.record (.toState s) with messageActivity := true }
    exact enterState_startedLast hslave (by rw [hmech]; exact ht) (by rw [hmech]; exact hasks)

theorem updateDelay_msgTmpHeader (e r f : TimeInternal) (w : World) :
    (updateDelay e r f w).msgTmpHeader = w.msgTmpHeader := by
  have hset : ∀ filtered (w : World), (setFilteredDelay filtered w).msgTmpHeader = w.msgTmpHeader :=
    fun _ _ => rfl
  have hfilter : ∀ w : World, (filterDelay w).msgTmpHeader = w.msgTmpHeader := by
    intro w
    unfold filterDelay
    dsimp only
    split
    · rfl
    · exact hset _ _
  unfold updateDelay
  split
  · rfl
  · dsimp only
    refine (hfilter _).trans ?_
    rfl

/-- A Delay_Resp sets the interval of the requests, and leaves the timer as it is. -/
theorem acceptDelayResp_asking (w : World) :
    (acceptDelayResp w).asking =
      { w.asking with logMinDelayReqInterval := w.msgTmpHeader.logMessageInterval } := by
  have hstill := updateDelay_still w.timestamp_delayReqSend
    (storeDelayResp (w.record .acceptDelayResp)).timestamp_delayReqRecieve w.correctionField
    (storeDelayResp (w.record .acceptDelayResp))
  have hheader := updateDelay_msgTmpHeader w.timestamp_delayReqSend
    (storeDelayResp (w.record .acceptDelayResp)).timestamp_delayReqRecieve w.correctionField
    (storeDelayResp (w.record .acceptDelayResp))
  have haccept : (acceptDelayResp w).asking =
      { (updateDelay w.timestamp_delayReqSend
          (storeDelayResp (w.record .acceptDelayResp)).timestamp_delayReqRecieve w.correctionField
          (storeDelayResp (w.record .acceptDelayResp))).asking with
        logMinDelayReqInterval := (updateDelay w.timestamp_delayReqSend
          (storeDelayResp (w.record .acceptDelayResp)).timestamp_delayReqRecieve w.correctionField
          (storeDelayResp (w.record .acceptDelayResp))).msgTmpHeader.logMessageInterval } := rfl
  rw [haccept, hstill.asking, hheader]
  rfl

theorem Asks.armed (h : Asks w w') (hw : w.Armed) : w'.Armed := by
  cases h with
  | still h => exact hw.congr (l := w.portDS.logMinDelayReqInterval) h.asking
  | arm index randMax hindex hmax =>
    intro t ht hasks
    have hsame : some index = some t := hindex.symm.trans ht
    rw [← Option.some.inj hsame]
    exact timerStartRand_startedLast index randMax w
  | toState s hs => exact hw.toState hs
  | initData hport =>
    intro t ht hasks
    have hstate : (Ptpd.initData w).portDS.portState = PTP_INITIALIZING := hport
    rw [hstate] at hasks
    cases hmech : (Ptpd.initData w).portDS.delayMechanism <;> rw [hmech] at hasks <;> cases hasks
  | respond =>
    exact hw.congr (acceptDelayResp_asking w)

/-! ## The request timer runs on -/

theorem Reachable.armed (hw : Reachable w) : w.Armed := by
  refine hw.of_asks World.Armed ?_ fun _ _ h hw => h.armed hw
  intro platform t ht hasks
  cases ht

/-- The request timer runs in the states in which the delay is measured. -/
structure PtpClock.RequestsRun (c : PtpClock) : Prop where
  p2p : c.portDS.delayMechanism = .P2P →
    c.portDS.portState = PTP_UNCALIBRATED ∨ c.portDS.portState = PTP_SLAVE ∨
      c.portDS.portState = PTP_MASTER ∨ c.portDS.portState = PTP_PASSIVE →
    0 < (c.itimer .PDELAYREQ_INTERVAL_TIMER).interval
  e2e : c.portDS.delayMechanism = .E2E →
    c.portDS.portState = PTP_UNCALIBRATED ∨ c.portDS.portState = PTP_SLAVE →
    0 < (c.itimer .DELAYREQ_INTERVAL_TIMER).interval

theorem requestsRun_iff_timer {c : PtpClock} :
    c.RequestsRun ↔ ∀ t, c.portDS.delayMechanism.timer = some t →
      c.portDS.delayMechanism.asksIn c.portDS.portState = true → 0 < (c.itimer t).interval := by
  constructor
  · intro h t ht hasks
    cases hmech : c.portDS.delayMechanism <;> rw [hmech] at ht hasks
    case E2E =>
      cases ht
      refine h.e2e hmech ?_
      cases hport : c.portDS.portState <;> rw [hport] at hasks <;> simp_all [DelayMechanism.asksIn]
    case P2P =>
      cases ht
      refine h.p2p hmech ?_
      cases hport : c.portDS.portState <;> rw [hport] at hasks <;> simp_all [DelayMechanism.asksIn]
    case DELAY_DISABLED => cases ht
  · intro h
    constructor
    · intro hmech hport
      refine h _ (by rw [hmech]; rfl) ?_
      rw [hmech]
      rcases hport with hport | hport | hport | hport <;> rw [hport] <;> rfl
    · intro hmech hport
      refine h _ (by rw [hmech]; rfl) ?_
      rw [hmech]
      rcases hport with hport | hport <;> rw [hport] <;> rfl

/-- The last random number leaves a positive interval, if the request timer is to run. -/
def World.DrewInterval (w : World) : Prop :=
  ∀ t, w.portDS.delayMechanism.timer = some t →
    w.portDS.delayMechanism.asksIn w.portDS.portState = true →
    ∃ a ∈ w.armings.head?, 0 < a.interval

/-- The request timer runs on for exactly as long as no random number stops it. -/
theorem requestsRun_iff (hw : Reachable w) :
    (w.RequestsRun ↔ w.DrewInterval) ∧
      ((∀ a ∈ w.armings, 0 < a.interval) → w.RequestsRun) := by
  have hiff : w.RequestsRun ↔ w.DrewInterval := by
    rw [requestsRun_iff_timer]
    constructor
    · intro h t ht hasks
      obtain ⟨a, ha, -, hinterval⟩ := hw.armed t ht hasks
      exact ⟨a, ha, hinterval ▸ h t ht hasks⟩
    · intro h t ht hasks
      obtain ⟨a, ha, -, hinterval⟩ := hw.armed t ht hasks
      obtain ⟨b, hb, hpos⟩ := h t ht hasks
      have hsame : a = b := Option.some.inj (ha.symm.trans hb)
      rw [hinterval, hsame]
      exact hpos
  refine ⟨hiff, fun hall => hiff.mpr ?_⟩
  intro t ht hasks
  obtain ⟨a, ha, -⟩ := hw.armed t ht hasks
  exact ⟨a, ha, hall a (List.mem_of_mem_head? ha)⟩

/-- The board, on which every random number is 1. -/
def Platform.uneven : Platform := { Platform.steady with rand := fun _ => 1 }

theorem requestsRun_iff_uneven :
    let w := runInputs [.doState, .catchAlarm 12000, .doState]
      (ptpdStartup (.sample .P2P) (World.zero .uneven))
    w.portDS.portState = PTP_MASTER ∧ w.RequestsRun :=
  ⟨by decide +kernel, (requestsRun_iff ((Reachable.init .uneven (.sample .P2P) rfl).runInputs
    (by decide))).2 (by decide +kernel)⟩

/-- A random number that is a multiple of the bound stops the timer for as long as
    the port is master. -/
theorem requestTimer_stops :
    let w := sampleRun .P2P [.doState, .catchAlarm 12000, .doState]
    Reachable w ∧ w.portDS.portState = PTP_MASTER ∧
      (w.itimer .PDELAYREQ_INTERVAL_TIMER).interval = 0 ∧ ¬ w.RequestsRun := by
  have hstate : (sampleRun .P2P [.doState, .catchAlarm 12000, .doState]).portDS.portState =
      PTP_MASTER := by decide +kernel
  have hmech : (sampleRun .P2P [.doState, .catchAlarm 12000, .doState]).portDS.delayMechanism =
      .P2P := by decide +kernel
  have hinterval : ((sampleRun .P2P [.doState, .catchAlarm 12000, .doState]).itimer
      .PDELAYREQ_INTERVAL_TIMER).interval = 0 := by decide +kernel
  refine ⟨reachable_sampleRun .P2P (by decide), hstate, hinterval, ?_⟩
  intro h
  have hpos := h.p2p hmech (.inr (.inr (.inl hstate)))
  rw [hinterval] at hpos
  exact absurd hpos (by decide)

/-! ## The interval that the master sets -/

/-- The interval of the requests, in logarithm, when the timer was started. -/
abbrev Arming.logInterval (a : Arming) : Int := a.before.portDS.logMinDelayReqInterval

/-- The interval satisfies `P`, and did whenever a Delay_Req was scheduled. -/
structure World.Heeds (P : Int → Prop) (w : World) : Prop where
  interval : P w.portDS.logMinDelayReqInterval
  armings : ∀ a ∈ w.armings, a.index = .DELAYREQ_INTERVAL_TIMER →
    a.randMax = pow2ms (a.logInterval + 1) ∧ P a.logInterval

variable {P : Int → Prop}

theorem World.Heeds.congr (hw : w.Heeds P)
    (hinterval : w'.portDS.logMinDelayReqInterval = w.portDS.logMinDelayReqInterval)
    (harmings : w'.armings = w.armings) : w'.Heeds P :=
  ⟨hinterval ▸ hw.interval, harmings ▸ hw.armings⟩

theorem World.Heeds.timerStartRand (hw : w.Heeds P) {index : Timer} {randMax : Int}
    (hmax : index = .DELAYREQ_INTERVAL_TIMER →
      randMax = pow2ms (w.portDS.logMinDelayReqInterval + 1)) :
    (timerStartRand index randMax w).Heeds P := by
  refine ⟨hw.interval, ?_⟩
  intro a ha hindex
  rcases List.mem_cons.mp ha with rfl | ha
  · exact ⟨hmax hindex, hw.interval⟩
  · exact hw.armings a ha hindex

theorem World.Heeds.startRequestTimer (hw : w.Heeds P) : (startRequestTimer w).Heeds P := by
  unfold Ptpd.startRequestTimer
  split
  · exact hw.timerStartRand fun _ => rfl
  · exact hw.timerStartRand nofun
  · exact hw

theorem World.Heeds.startPDelayTimer (hw : w.Heeds P) : (startPDelayTimer w).Heeds P := by
  unfold Ptpd.startPDelayTimer
  split
  · exact hw.timerStartRand nofun
  · exact hw
  · exact hw

/-- Only a master forgets the interval that another master had set. -/
theorem World.Heeds.enterState (hw : w.Heeds P) (hdefault : P DEFAULT_DELAYREQ_INTERVAL)
    (s : PortState) : (enterState s w).Heeds P := by
  have hport : ∀ (s : PortState) {w : World}, w.Heeds P →
      World.Heeds P { w with portDS.portState := s } := fun _ _ h => h.congr rfl rfl
  have hreceipt : (timerStart .ANNOUNCE_RECEIPT_TIMER w.announceReceiptInterval w).Heeds P :=
    hw.congr rfl rfl
  cases s
  case PTP_MASTER =>
    refine hport _ (World.Heeds.startPDelayTimer ?_)
    exact ⟨hdefault, hw.armings⟩
  case PTP_PASSIVE =>
    refine hport _ ?_
    split
    · exact hreceipt.timerStartRand nofun
    · exact hreceipt
  case PTP_UNCALIBRATED => exact hport _ hreceipt.startRequestTimer
  all_goals exact hw.congr rfl rfl

theorem Asks.grows (h : Asks w w') : Grows (fun _ => True) w w' := by
  cases h with
  | still h => exact h.grows
  | arm => exact .of_eq rfl
  | toState s => exact (toState_grows s w).imp fun _ _ => trivial
  | initData => exact .cons (x := ⟨.initData, w.toPtpClock⟩) trivial rfl
  | respond => exact (acceptDelayResp_quiet w).grows.imp fun _ _ => trivial

/-- Every Delay_Resp that was taken carries an interval that satisfies `P`. -/
def Heeded (P : Int → Prop) (log : List LogEntry) : Prop :=
  ∀ x ∈ log, x.call = .acceptDelayResp → P x.before.msgTmpHeader.logMessageInterval

theorem Asks.heeds (h : Asks w w') (hdefault : P DEFAULT_DELAYREQ_INTERVAL)
    (hlog : Heeded P w'.log) (hw : w.Heeds P) : w'.Heeds P := by
  cases h with
  | still h =>
    exact hw.congr (congrArg Asking.logMinDelayReqInterval h.asking)
      (congrArg Asking.armings h.asking)
  | arm index randMax hindex hmax => exact hw.timerStartRand hmax
  | toState s =>
    have hleave : World.Heeds P (leaveState s { w.record (.toState s) with messageActivity := true }) :=
      hw.congr (leaveState_logMinDelayReqInterval s _) (leaveState_armings s _)
    exact hleave.enterState hdefault s
  | initData => exact ⟨hdefault, hw.armings⟩
  | respond =>
    have hasking := acceptDelayResp_asking w
    have hinterval : (acceptDelayResp w).portDS.logMinDelayReqInterval =
        w.msgTmpHeader.logMessageInterval := congrArg Asking.logMinDelayReqInterval hasking
    have harmings : (acceptDelayResp w).armings = w.armings := congrArg Asking.armings hasking
    refine ⟨?_, harmings ▸ hw.armings⟩
    rw [hinterval]
    exact hlog _ (List.mem_of_mem_take (acceptDelayResp_records w)) rfl

theorem Reachable.heeds (hw : Reachable w) (hzero : P 0) (hdefault : P DEFAULT_DELAYREQ_INTERVAL)
    (hlog : Heeded P w.log) : w.Heeds P := by
  refine hw.of_asks (fun w => Heeded P w.log → w.Heeds P) ?_ ?_ hlog
  · intro platform _
    have hinterval : (World.zero platform).portDS.logMinDelayReqInterval = 0 := rfl
    refine ⟨hinterval ▸ hzero, ?_⟩
    intro a ha
    cases ha
  · intro w w' hasks hheeds hlog'
    obtain ⟨new, hnew, -⟩ := hasks.grows
    refine hasks.heeds hdefault hlog' (hheeds fun x hx => hlog' x ?_)
    rw [hnew]
    exact List.mem_append_right new hx

/-- `pow2ms(logMinDelayReqInterval + 1)` shifts by less than the width of an `int`,
    and `getRand` can divide by its value. -/
structure Arming.Divides (a : Arming) : Prop where
  shift : |a.logInterval + 1| < 32
  randMax : a.randMax = pow2ms (a.logInterval + 1)
  ne_zero : a.randMax % 2 ^ 32 ≠ 0

/-- The intervals, in logarithm, that a master may set. -/
def Divisible (logInterval : Int) : Prop := -10 ≤ logInterval ∧ logInterval ≤ 27

instance : DecidablePred Divisible := fun _ => inferInstanceAs (Decidable (_ ∧ _))

theorem pow2ms_ne_zero_iff {a : Int} (h : |a| < 32) :
    pow2ms a % 2 ^ 32 ≠ 0 ↔ -9 ≤ a ∧ a ≤ 28 := by
  have hall : ∀ n < 63, pow2ms ((n : Nat) - 31) % 2 ^ 32 ≠ 0 ↔ 22 ≤ n ∧ n ≤ 59 := by
    decide +kernel
  have hbounds := abs_lt.mp h
  have hcase := hall (a + 31).toNat (by omega)
  rw [show (((a + 31).toNat : Nat) : Int) - 31 = a by omega] at hcase
  rw [hcase]
  omega

theorem divides_iff {a : Arming} (hmax : a.randMax = pow2ms (a.logInterval + 1)) :
    a.Divides ↔ Divisible a.logInterval := by
  unfold Divisible
  constructor
  · intro h
    have hne := h.ne_zero
    rw [hmax, pow2ms_ne_zero_iff h.shift] at hne
    omega
  · intro h
    have hshift : |a.logInterval + 1| < 32 := abs_lt.mpr ⟨by omega, by omega⟩
    refine ⟨hshift, hmax, ?_⟩
    rw [hmax, pow2ms_ne_zero_iff hshift]
    omega

/-- Every Delay_Req was scheduled safely. -/
def World.DelayReqsDivide (w : World) : Prop :=
  ∀ a ∈ w.armings, a.index = .DELAYREQ_INTERVAL_TIMER → a.Divides

/-- A Delay_Req is scheduled safely exactly if the interval in force lets it, and
    in a run whose masters set no other intervals every one is. -/
theorem delayReq_divides (hw : Reachable w) :
    (∀ a ∈ w.armings, a.index = .DELAYREQ_INTERVAL_TIMER →
      (a.Divides ↔ Divisible a.logInterval)) ∧
    (Heeded Divisible w.log → w.DelayReqsDivide) := by
  constructor
  · intro a ha hindex
    have hheeds : w.Heeds (fun _ => True) := hw.heeds trivial trivial fun _ _ _ => trivial
    exact divides_iff (hheeds.armings a ha hindex).1
  · intro hlog a ha hindex
    have hheeds : w.Heeds Divisible := hw.heeds (by decide) (by decide) hlog
    obtain ⟨hmax, hdivisible⟩ := hheeds.armings a ha hindex
    exact (divides_iff hmax).mpr hdivisible

/-- Clock `source` sends a one-step Sync, without delay. -/
def sampleSync (source sequenceId : UInt8) : Input :=
  .netRecvEventCallback (samplePacket (sampleMessage .SYNC 0 source sequenceId
    [0, 0, 0, 0, 0, 100, 0, 0, 0, 0]) 100)

/-- Clock 9 answers the first Delay_Req of the board with this interval. -/
def sampleDelayResp (logMessageInterval : UInt8) : Input :=
  .netRecvGeneralCallback (samplePacket ((sampleMessage .DELAY_RESP 0 9 0
    [0, 0, 0, 0, 0, 100, 0, 0, 0, 9, 1, 2, 3, 0xff, 0xfe, 4, 5, 6, 0, 1]).set 33
      logMessageInterval) 0)

/-- The board follows clock 9, which answers its first request, and is due to send
    the next. -/
def scheduledRun (logMessageInterval : UInt8) : World :=
  runInputs [.doState, sampleAnnounce 9 200 1, .doState, .doState, sampleSync 9 1, .doState,
    .doState, .catchAlarm 10, sampleSync 9 2, .doState, sampleDelayResp logMessageInterval,
    .doState, .catchAlarm 10, sampleSync 9 3, .doState]
    (ptpdStartup (.sample .E2E) (World.zero .uneven))

theorem reachable_scheduledRun (logMessageInterval : UInt8) :
    Reachable (scheduledRun logMessageInterval) :=
  (Reachable.init .uneven (.sample .E2E) rfl).runInputs (by simp [Input.Valid, sampleAnnounce,
    sampleSync, sampleDelayResp])

theorem delayReq_divides_ordinary : (scheduledRun 2).DelayReqsDivide :=
  (delayReq_divides (reachable_scheduledRun 2)).2 (by unfold Heeded; decide +kernel)

/-- The interval 0x7f, which says that none is given, is taken for one: the shift is
    by 128, and the bound of the next random number is 0. -/
theorem delayReq_divides_by_zero :
    ∃ w, Reachable w ∧ ¬ w.DelayReqsDivide ∧ ∃ a ∈ w.armings,
      a.index = .DELAYREQ_INTERVAL_TIMER ∧ a.logInterval = 127 ∧ a.randMax = 0 := by
  have hhead : (scheduledRun 0x7f).armings.head?.map
      (fun a => (a.index, a.logInterval, a.randMax)) =
      some (.DELAYREQ_INTERVAL_TIMER, 127, 0) := by decide +kernel
  obtain ⟨a, ha, hfields⟩ := Option.map_eq_some_iff.mp hhead
  obtain ⟨hindex, hinterval, hmax⟩ : a.index = .DELAYREQ_INTERVAL_TIMER ∧ a.logInterval = 127 ∧
      a.randMax = 0 := by simpa only [Prod.mk.injEq] using hfields
  refine ⟨_, reachable_scheduledRun 0x7f, ?_, a, List.mem_of_mem_head? ha, hindex, hinterval, hmax⟩
  intro h
  exact (h a (List.mem_of_mem_head? ha) hindex).ne_zero (by rw [hmax]; rfl)

end Ptpd
