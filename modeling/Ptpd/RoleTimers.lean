import Ptpd.Refinement.Act

/-! # The timers of a role

    A port that listens, follows or is passive waits for Announces, a master
    paces its Syncs and Announces, and a port that is to be master waits for its
    qualification. Each of these timers runs in the states of its role and in no
    other, once the data sets are initialised.
-/

namespace Ptpd

open PortState History MachineInt

variable {w w' : World}

/-- The timers that run in a state because of its role. -/
def PortState.runs : PortState → Timer → Bool
  | PTP_LISTENING, t | PTP_UNCALIBRATED, t | PTP_SLAVE, t | PTP_PASSIVE, t =>
    t == .ANNOUNCE_RECEIPT_TIMER
  | PTP_MASTER, t => t == .SYNC_INTERVAL_TIMER || t == .ANNOUNCE_INTERVAL_TIMER
  | PTP_PRE_MASTER, t => t == .QUALIFICATION_TIMEOUT
  | PTP_INITIALIZING, _ | PTP_FAULTY, _ | PTP_DISABLED, _ => false

/-- The timers that entering a state starts. -/
def PortState.starts : PortState → Timer → Bool
  | PTP_SLAVE, _ => false
  | s, t => s.runs t

/-- What the timers of the roles depend on. -/
structure Timing where
  portState : PortState
  logAnnounceInterval : Int
  announceReceiptTimeout : UInt8
  logSyncInterval : Int
  interval : Timer → Int

def Setting.timing (s : Setting) : Timing where
  portState := s.portState
  logAnnounceInterval := s.dataSets.logAnnounceInterval
  announceReceiptTimeout := s.dataSets.announceReceiptTimeout
  logSyncInterval := s.dataSets.logSyncInterval
  interval := s.interval

abbrev PtpClock.timing (c : PtpClock) : Timing := c.setting.timing

/-! ## Changing the state -/

@[simp] theorem timerStop_interval (i t : Timer) (w : World) :
    (timerStop i w).setting.interval t = if t = i then 0 else w.setting.interval t := by
  by_cases ht : t = i
  · subst ht
    simp [PtpClock.setting, timerStop, World.setTimer]
  · simp [PtpClock.setting, timerStop, World.setTimer, ht]

theorem timerStart_interval (i t : Timer) (ms : Int) (w : World) :
    (timerStart i ms w).setting.interval t =
      if t = i ∧ t.ofRole then wrapS 32 ms else w.setting.interval t := by
  by_cases ht : t = i
  · subst ht
    by_cases hrole : t.ofRole = true
    · simp [PtpClock.setting, timerStart, World.setTimer, hrole]
    · simp [PtpClock.setting, hrole]
  · simp [PtpClock.setting, timerStart, World.setTimer, ht]

@[simp] theorem initClock_interval (w : World) :
    (initClock w).setting.interval = w.setting.interval := by
  have hsetting := congrArg Setting.interval (initClock_setting w)
  exact hsetting

theorem stopRequestTimer_interval (w : World) :
    (stopRequestTimer w).setting.interval = w.setting.interval := by
  unfold stopRequestTimer
  split
  · exact congrArg Setting.interval (timerStop_quiet w rfl).setting
  · exact congrArg Setting.interval (timerStop_quiet w rfl).setting
  · rfl

theorem startRequestTimer_interval (w : World) :
    (startRequestTimer w).setting.interval = w.setting.interval := by
  unfold startRequestTimer
  split
  · exact congrArg Setting.interval (timerStartRand_quiet _ w rfl).setting
  · exact congrArg Setting.interval (timerStartRand_quiet _ w rfl).setting
  · rfl

theorem startPDelayTimer_interval (w : World) :
    (startPDelayTimer w).setting.interval = w.setting.interval := by
  unfold startPDelayTimer
  split
  · exact congrArg Setting.interval (timerStartRand_quiet _ w rfl).setting
  · rfl
  · rfl

/-- Nothing of a role is undone between UNCALIBRATED and SLAVE. -/
theorem leaveState_shortcut {s : PortState} (hport : w.portDS.portState.follows)
    (hs : s.follows) : leaveState s w = w := by
  have hs' : s = PTP_UNCALIBRATED ∨ s = PTP_SLAVE := by
    cases s <;> simp_all [PortState.follows]
  unfold leaveState
  cases hold : w.portDS.portState
  case PTP_UNCALIBRATED | PTP_SLAVE => exact if_pos hs'
  all_goals exact absurd (hold ▸ hport) (by decide)

/-- Every other change of state stops the timers of the role that is left. -/
theorem leaveState_interval {s : PortState}
    (h : ¬ (w.portDS.portState.follows ∧ s.follows)) (t : Timer) :
    (leaveState s w).setting.interval t =
      if w.portDS.portState.runs t then 0 else w.setting.interval t := by
  unfold leaveState
  cases hold : w.portDS.portState
  case PTP_INITIALIZING | PTP_FAULTY | PTP_DISABLED => rfl
  case PTP_LISTENING | PTP_PRE_MASTER => simp [PortState.runs]
  case PTP_PASSIVE =>
    by_cases ht : t = .PDELAYREQ_INTERVAL_TIMER
    · subst ht
      simp [PortState.runs, PtpClock.setting, Timer.ofRole]
    · simp [PortState.runs, ht]
  case PTP_MASTER =>
    by_cases ht : t = .PDELAYREQ_INTERVAL_TIMER
    · subst ht
      simp [PortState.runs, PtpClock.setting, Timer.ofRole]
    · by_cases hsync : t = .SYNC_INTERVAL_TIMER
      · simp [PortState.runs, hsync]
      · simp [PortState.runs, hsync, ht]
  case PTP_UNCALIBRATED | PTP_SLAVE =>
    -- the port stops following, so its timers are stopped
    have hs : ¬ (s = PTP_UNCALIBRATED ∨ s = PTP_SLAVE) := by
      rintro (rfl | rfl)
      · exact h ⟨by rw [hold]; rfl, rfl⟩
      · exact h ⟨by rw [hold]; rfl, rfl⟩
    rw [if_neg hs]
    by_cases ht : t = .MANAGEMENT_INTERVAL_TIMER
    · subst ht
      simp [PortState.runs, PtpClock.setting, Timer.ofRole]
    · simp [PortState.runs, stopRequestTimer_interval, ht]

/-- The interval that a timer of a role is started with. -/
def PtpClock.roleInterval (c : PtpClock) : Timer → Int
  | .ANNOUNCE_RECEIPT_TIMER => wrapS 32 c.announceReceiptInterval
  | .SYNC_INTERVAL_TIMER => wrapS 32 (pow2ms c.portDS.logSyncInterval)
  | .ANNOUNCE_INTERVAL_TIMER => wrapS 32 (pow2ms c.portDS.logAnnounceInterval)
  | .QUALIFICATION_TIMEOUT => wrapS 32 (pow2ms DEFAULT_QUALIFICATION_TIMEOUT)
  | .PDELAYREQ_INTERVAL_TIMER | .DELAYREQ_INTERVAL_TIMER | .MANAGEMENT_INTERVAL_TIMER => 0

/-- Entering a state starts the timers of its role. -/
theorem enterState_interval (s : PortState) (t : Timer) (w : World) :
    (enterState s w).setting.interval t =
      if s.starts t then w.roleInterval t else w.setting.interval t := by
  have hport : ∀ (s : PortState) (w : World),
      (World.toPtpClock { w with portDS.portState := s }).setting.interval = w.setting.interval :=
    fun _ _ => rfl
  cases s
  case PTP_INITIALIZING | PTP_FAULTY | PTP_DISABLED => rfl
  case PTP_LISTENING =>
    have hstart := timerStart_interval .ANNOUNCE_RECEIPT_TIMER t w.announceReceiptInterval w
    refine Eq.trans ?_ (hstart.trans ?_)
    · rfl
    · cases t <;> rfl
  case PTP_PRE_MASTER =>
    have hstart := timerStart_interval .QUALIFICATION_TIMEOUT t
      (pow2ms DEFAULT_QUALIFICATION_TIMEOUT) w
    refine (congrFun (hport PTP_PRE_MASTER _) t).trans (hstart.trans ?_)
    cases t <;> rfl
  case PTP_SLAVE =>
    have hstart := timerStart_interval .MANAGEMENT_INTERVAL_TIMER t 1000
      { w with portDS.portState := PTP_SLAVE }
    refine hstart.trans ?_
    cases t <;> rfl
  case PTP_UNCALIBRATED =>
    have hstart := timerStart_interval .ANNOUNCE_RECEIPT_TIMER t w.announceReceiptInterval w
    refine (congrFun (hport PTP_UNCALIBRATED _) t).trans ?_
    rw [startRequestTimer_interval]
    refine hstart.trans ?_
    cases t <;> rfl
  case PTP_PASSIVE =>
    have hstart := timerStart_interval .ANNOUNCE_RECEIPT_TIMER t w.announceReceiptInterval w
    refine (congrFun (hport PTP_PASSIVE _) t).trans (Eq.trans ?_ (hstart.trans ?_))
    · split
      · exact congrFun (congrArg Setting.interval (timerStartRand_quiet _ _ rfl).setting) t
      · rfl
    · cases t <;> rfl
  case PTP_MASTER =>
    refine (congrFun (hport PTP_MASTER _) t).trans ?_
    rw [startPDelayTimer_interval, timerStart_interval, timerStart_interval]
    cases t <;> rfl

/-! ## The invariant -/

/-- The timers of the roles run as the state wants it, and those that the data
    sets set would run if they were started. -/
structure World.Fit (w : World) : Prop where
  runs : ∀ t, 0 < w.setting.interval t ↔ w.portDS.portState.runs t = true
  announce : 0 < pow2ms w.portDS.logAnnounceInterval
  sync : 0 < pow2ms w.portDS.logSyncInterval
  receipt : w.portDS.portState.runs .ANNOUNCE_RECEIPT_TIMER →
    0 < wrapS 32 w.announceReceiptInterval
  initialised : Initialised w.log → 0 < wrapS 32 w.announceReceiptInterval

theorem announceReceiptInterval_congr {c c' : PtpClock} (h : c'.dataSets = c.dataSets) :
    c'.announceReceiptInterval = c.announceReceiptInterval :=
  congrArg (fun d : DataSets => d.announceReceiptTimeout.toNat * pow2ms d.logAnnounceInterval) h

/-- Nothing that the invariant speaks of has changed. -/
theorem World.Fit.congr (hw : w.Fit) (h : w'.timing = w.timing)
    (hinit : Initialised w'.log → Initialised w.log) : w'.Fit := by
  have hport : w'.portDS.portState = w.portDS.portState := congrArg Timing.portState h
  have hreceipt : w'.announceReceiptInterval = w.announceReceiptInterval :=
    congrArg (fun d : Timing => d.announceReceiptTimeout.toNat * pow2ms d.logAnnounceInterval) h
  have hannounce : w'.portDS.logAnnounceInterval = w.portDS.logAnnounceInterval :=
    congrArg Timing.logAnnounceInterval h
  have hsync : w'.portDS.logSyncInterval = w.portDS.logSyncInterval :=
    congrArg Timing.logSyncInterval h
  have hinterval : w'.setting.interval = w.setting.interval := congrArg Timing.interval h
  constructor
  · rw [hinterval, hport]
    exact hw.runs
  · rw [hannounce]
    exact hw.announce
  · rw [hsync]
    exact hw.sync
  · rw [hport, hreceipt]
    exact hw.receipt
  · rw [hreceipt]
    intro h
    exact hw.initialised (hinit h)

theorem wrapS_pow2ms (a : Int) : wrapS 32 (pow2ms a) = pow2ms a := by
  unfold pow2ms
  split
  · exact wrapS_idem (by decide) _
  · have hnonneg : (0 : Int) ≤ 1000 / 2 ^ (-a).toNat := Int.ediv_nonneg (by decide) (by positivity)
    have hle : (1000 : Int) / 2 ^ (-a).toNat ≤ 1000 := Int.ediv_le_self _ (by decide)
    exact wrapS_32 (by omega) (by omega)

/-- What a state starts runs afterwards. -/
theorem World.Fit.roleInterval_pos (hw : w.Fit) {s : PortState}
    (hready : s.starts .ANNOUNCE_RECEIPT_TIMER → Initialised w.log) {t : Timer}
    (ht : s.starts t) : 0 < w.roleInterval t := by
  have hrole : s.runs t = true := by
    cases s <;> simp_all [PortState.starts]
  cases t with
  | ANNOUNCE_RECEIPT_TIMER => exact hw.initialised (hready ht)
  | SYNC_INTERVAL_TIMER =>
    have hsync := hw.sync
    rwa [← wrapS_pow2ms] at hsync
  | ANNOUNCE_INTERVAL_TIMER =>
    have hannounce := hw.announce
    rwa [← wrapS_pow2ms] at hannounce
  | QUALIFICATION_TIMEOUT => exact (by decide : 0 < wrapS 32 (pow2ms DEFAULT_QUALIFICATION_TIMEOUT))
  | PDELAYREQ_INTERVAL_TIMER | DELAYREQ_INTERVAL_TIMER | MANAGEMENT_INTERVAL_TIMER =>
    cases s <;> cases hrole

theorem PortState.runs_of_follows {s : PortState} (h : s.follows) (t : Timer) :
    s.runs t = (t == .ANNOUNCE_RECEIPT_TIMER) := by
  cases s <;> simp_all [PortState.follows, PortState.runs]

theorem toState_portState (s : PortState) (w : World) : (toState s w).portDS.portState = s :=
  congrArg Core.portState (toState_noted s w).core_eq

theorem roleInterval_congr {c c' : PtpClock} (h : c'.dataSets = c.dataSets) :
    c'.roleInterval = c.roleInterval := by
  have hreceipt := announceReceiptInterval_congr h
  have hannounce : c'.portDS.logAnnounceInterval = c.portDS.logAnnounceInterval :=
    congrArg DataSets.logAnnounceInterval h
  have hsync : c'.portDS.logSyncInterval = c.portDS.logSyncInterval :=
    congrArg DataSets.logSyncInterval h
  funext t
  cases t <;> simp only [PtpClock.roleInterval, hreceipt, hannounce, hsync]

/-- Only SLAVE is entered without starting the timer that runs in it, and only
    from UNCALIBRATED, where that timer runs already. -/
theorem World.Fit.toState_runs (hw : w.Fit) {s : PortState} (hs : w.MayEnter s)
    (hready : s.starts .ANNOUNCE_RECEIPT_TIMER → Initialised w.log) (t : Timer) :
    0 < (toState s w).setting.interval t ↔ s.runs t = true := by
  have henter := enterState_interval s t (leaveState s
    { w.record (.toState s) with messageActivity := true })
  have hrole : (leaveState s { w.record (.toState s) with messageActivity := true }).roleInterval =
      w.roleInterval := roleInterval_congr (leaveState_dataSets s _)
  rw [hrole] at henter
  rw [show (toState s w).setting.interval t = _ from henter]
  -- the timer is started, or kept by a change among followers, or stopped
  by_cases hstarts : s.starts t = true
  · rw [if_pos hstarts]
    have hruns : s.runs t = true := by
      cases s <;> simp_all [PortState.starts]
    exact iff_of_true (hw.roleInterval_pos hready hstarts) hruns
  · rw [if_neg hstarts]
    by_cases hshort : w.portDS.portState.follows ∧ s.follows
    · rw [leaveState_shortcut (w := { w.record (.toState s) with messageActivity := true })
        hshort.1 hshort.2]
      have hruns := hw.runs t
      rw [PortState.runs_of_follows hshort.1] at hruns
      rw [PortState.runs_of_follows hshort.2]
      exact hruns
    · have hslave : s ≠ PTP_SLAVE := by
        rintro rfl
        rcases hs with h | h | h | ⟨-, h⟩
        · cases h
        · cases h
        · cases h
        · exact hshort ⟨by rw [h rfl]; rfl, rfl⟩
      have hruns : s.runs t = false := by
        cases s <;> simp_all [PortState.starts]
      have hleave := leaveState_interval
        (w := { w.record (.toState s) with messageActivity := true }) hshort t
      rw [hleave, hruns]
      split
      · simp
      · next hold =>
        have hstop : ¬ 0 < w.setting.interval t := fun h => hold ((hw.runs t).mp h)
        exact iff_of_false hstop (by simp)

theorem World.Fit.toState (hw : w.Fit) {s : PortState} (hs : w.MayEnter s)
    (hready : s.starts .ANNOUNCE_RECEIPT_TIMER → Initialised w.log) : (toState s w).Fit := by
  have hdata := toState_dataSets s w
  have hport := toState_portState s w
  have hreceipt := announceReceiptInterval_congr hdata
  constructor
  · rw [hport]
    exact hw.toState_runs hs hready
  · rw [show (Ptpd.toState s w).portDS.logAnnounceInterval = w.portDS.logAnnounceInterval from
      congrArg DataSets.logAnnounceInterval hdata]
    exact hw.announce
  · rw [show (Ptpd.toState s w).portDS.logSyncInterval = w.portDS.logSyncInterval from
      congrArg DataSets.logSyncInterval hdata]
    exact hw.sync
  · rw [hport, hreceipt]
    intro hruns
    by_cases hstarts : s.starts .ANNOUNCE_RECEIPT_TIMER = true
    · exact hw.initialised (hready hstarts)
    · -- SLAVE, whose predecessor waits for Announces too
      have hslave : s = PTP_SLAVE := by
        cases s <;> simp_all [PortState.starts, PortState.runs]
      subst hslave
      rcases hs with h | h | h | ⟨-, h⟩
      · cases h
      · cases h
      · cases h
      · exact hw.receipt (by rw [h rfl]; rfl)
  · rw [hreceipt]
    intro hinit
    refine hw.initialised (hinit.of_grows (toState_grows s w) ?_)
    rintro (h | h)
    · cases h
    · exact h

/-! ## Runs -/

/-- The data sets are initialised from intervals that do not overflow. -/
def LogEntry.Configured (x : LogEntry) : Prop :=
  x.call = .initData →
    0 < pow2ms x.before.rtOpts.announceInterval ∧ 0 < pow2ms x.before.rtOpts.syncInterval

/-- The announce receipt timeout does not overflow either. -/
def LogEntry.FitsReceipt (x : LogEntry) : Prop :=
  x.call = .initData →
    0 < wrapS 32 (DEFAULT_ANNOUNCE_RECEIPT_TIMEOUT.toNat * pow2ms x.before.rtOpts.announceInterval)

/-- A state in which Announces are waited for is entered with initialised data sets. -/
def LogEntry.EntersInitialised (x : LogEntry) (older : List LogEntry) : Prop :=
  match x.call with
  | .toState s => s.starts .ANNOUNCE_RECEIPT_TIMER → Initialised older
  | _ => True

instance : DecidablePred LogEntry.Configured := fun _ => inferInstanceAs (Decidable (_ → _))

instance : DecidablePred LogEntry.FitsReceipt := fun _ => inferInstanceAs (Decidable (_ → _))

instance (x : LogEntry) (older : List LogEntry) : Decidable (x.EntersInitialised older) := by
  obtain ⟨call, before⟩ := x
  apply @Call.casesOn (fun call => Decidable (LogEntry.EntersInitialised ⟨call, before⟩ older)) call
  case toState =>
    exact fun s => inferInstanceAs (Decidable (s.starts .ANNOUNCE_RECEIPT_TIMER → Initialised older))
  all_goals intros; exact .isTrue trivial

/-- What the invariant assumes of the history. -/
structure WellConfigured (log : List LogEntry) : Prop where
  configured : ∀ x ∈ log, x.Configured
  receipt : ∀ x ∈ log, x.FitsReceipt
  initialised : Every LogEntry.EntersInitialised log

theorem WellConfigured.of_append {new older : List LogEntry} (h : WellConfigured (new ++ older)) :
    WellConfigured older where
  configured x hx := h.configured x (List.mem_append_right new hx)
  receipt x hx := h.receipt x (List.mem_append_right new hx)
  initialised := every_append h.initialised

theorem initData_announceReceiptInterval (w : World) :
    (initData w).announceReceiptInterval =
      DEFAULT_ANNOUNCE_RECEIPT_TIMEOUT.toNat * pow2ms w.rtOpts.announceInterval := rfl

theorem World.Fit.initData (hw : w.Fit) (hport : w.portDS.portState = PTP_INITIALIZING)
    (hlog : WellConfigured (initData w).log) : (initData w).Fit := by
  have hmem : (⟨.initData, w.toPtpClock⟩ : LogEntry) ∈ (Ptpd.initData w).log :=
    List.mem_cons_self
  have hconf := hlog.configured _ hmem rfl
  have hreceipt := hlog.receipt _ hmem rfl
  rw [← initData_announceReceiptInterval] at hreceipt
  constructor
  · exact hw.runs
  · exact hconf.1
  · exact hconf.2
  · intro hruns
    have hruns' : w.portDS.portState.runs .ANNOUNCE_RECEIPT_TIMER = true := hruns
    rw [hport] at hruns'
    cases hruns'
  · intro _
    exact hreceipt

/-- An Announce finds the receipt timer running, and leaves it so. -/
theorem World.Fit.restart (hw : w.Fit)
    (hport : w.portDS.portState.follows ∨ w.portDS.portState = PTP_PASSIVE) :
    (timerStart .ANNOUNCE_RECEIPT_TIMER w.announceReceiptInterval w).Fit := by
  have hruns : w.portDS.portState.runs .ANNOUNCE_RECEIPT_TIMER = true := by
    rcases hport with hport | hport
    · rw [PortState.runs_of_follows hport]
      rfl
    · rw [hport]
      rfl
  refine ⟨fun t => ?_, hw.announce, hw.sync, hw.receipt, hw.initialised⟩
  rw [timerStart_interval]
  split
  · next ht =>
    rw [ht.1]
    exact iff_of_true (hw.receipt hruns) hruns
  · exact hw.runs t

theorem Act.fit (h : Act w w') (hlog : WellConfigured w'.log) (hw : w.Fit) : w'.Fit := by
  have hrestart : ∀ {w' : World}, Grows Call.isRestart w w' →
      Initialised w'.log → Initialised w.log := fun hgrows => .of_grows hgrows id
  -- only a new state, a restarted timer and `initData` touch what the timers are set to
  cases h with
  | quiet h => exact hw.congr (congrArg Setting.timing h.setting) (.of_grows h.grows id)
  | toState s hs =>
    apply hw.toState hs
    intro hstarts
    obtain ⟨new, hnew, -⟩ := leaveState_grows s
      { w.record (.toState s) with messageActivity := true }
    have heq : (Ptpd.toState s w).log = new ++ ⟨.toState s, w.toPtpClock⟩ :: w.log :=
      (enterState_log s _).trans hnew
    rw [heq] at hlog
    exact hlog.of_append.initialised.1 hstarts
  | initClock =>
    have htiming := congrArg Setting.timing (initClock_setting w)
    exact hw.congr htiming (hrestart (initClock_grows w))
  | receiveEvent time =>
    have htiming := congrArg Setting.timing (netRecvEvent_setting time w)
    exact hw.congr htiming (hrestart (netRecv_grows _ time
      { w with netPath.eventQ := (netQGet w.netPath.eventQ).2 }))
  | receiveGeneral time =>
    have htiming := congrArg Setting.timing (netRecvGeneral_setting time w)
    exact hw.congr htiming (hrestart (netRecv_grows _ time
        { w with netPath.generalQ := (netQGet w.netPath.generalQ).2 }))
  | decide =>
    obtain ⟨hport, htimer, -⟩ := stateDecision_frame w
    have htiming : (stateDecision w).timing = w.timing := by
      simp only [PtpClock.timing, Setting.timing, PtpClock.setting, PtpClock.dataSets, hport, htimer]
    exact hw.congr htiming (.of_grows (stateDecision_grows w) id)
  | follow header announce =>
    exact hw.congr rfl (.of_grows
      (.cons (P := Call.calm) (x := ⟨.s1 header announce, w.toPtpClock⟩) trivial rfl) id)
  | restart hport => exact hw.restart hport
  | m1 => exact hw.congr rfl id
  | lead => exact hw.congr rfl id
  | netInit =>
    have hlog' : (Ptpd.netInit w).2.log = w.log := congrArg Engine.log (netInit_engine w)
    refine hw.congr ?_ fun h => hlog' ▸ h
    rcases netInit_setting w with hsetting | hsetting
    all_goals
      have htiming := congrArg Setting.timing hsetting
      exact htiming
  | initData hport => exact hw.initData hport hlog
  | issue port group m =>
    refine hw.congr rfl (.of_grows (P := fun call => call ≠ .initData)
      (.cons (x := w.issued port group m m.length) ?_ rfl) (by simp))
    exact Call.noConfusion
  | startup => exact hw.congr rfl id

theorem Event.fit (h : Event w w') (hlog : WellConfigured w'.log) (hw : w.Fit) : w'.Fit := by
  cases h with
  | act h => exact h.fit hlog hw
  | arriveEvent p =>
    have htiming := congrArg Setting.timing (netRecvEventCallback_setting p w)
    exact hw.congr htiming (.of_grows (netRecvEventCallback_grows p w) id)
  | arriveGeneral p =>
    have htiming := congrArg Setting.timing (netRecvGeneralCallback_setting p w)
    exact hw.congr htiming (.of_grows (netRecvGeneralCallback_grows p w) id)

/-- At power-on nothing is initialised, and no timer runs. -/
theorem fit_zero (platform : Platform) : (World.zero platform).Fit := by
  have hpow : 0 < pow2ms 0 := by decide
  refine ⟨fun t => ?_, hpow, hpow, nofun, ?_⟩
  · have hinterval : (World.zero platform).setting.interval t = 0 := by
      cases t <;> rfl
    rw [hinterval]
    exact iff_of_false (by decide) nofun
  · rintro ⟨x, hx, -⟩
    cases hx

theorem Reachable.fit (hw : Reachable w) (hlog : WellConfigured w.log) : w.Fit := by
  refine hw.of_events (fun w => WellConfigured w.log → w.Fit) ?_ ?_ hlog
  · intro platform _
    exact fit_zero platform
  · intro w w' hevent hfit hlog'
    obtain ⟨new, hnew, -⟩ := hevent.records
    have hold : WellConfigured w.log := by
      rw [hnew] at hlog'
      exact hlog'.of_append
    exact hevent.fit hlog' (hfit hold)

/-! ## Main result -/

/-- Each timer of a role runs in the states of the role and in no other. -/
structure World.RoleTimers (w : World) : Prop where
  announceReceipt : 0 < (w.itimer .ANNOUNCE_RECEIPT_TIMER).interval ↔
    w.portDS.portState = PTP_LISTENING ∨ w.portDS.portState = PTP_UNCALIBRATED ∨
      w.portDS.portState = PTP_SLAVE ∨ w.portDS.portState = PTP_PASSIVE
  syncInterval : 0 < (w.itimer .SYNC_INTERVAL_TIMER).interval ↔
    w.portDS.portState = PTP_MASTER
  announceInterval : 0 < (w.itimer .ANNOUNCE_INTERVAL_TIMER).interval ↔
    w.portDS.portState = PTP_MASTER
  qualification : 0 < (w.itimer .QUALIFICATION_TIMEOUT).interval ↔
    w.portDS.portState = PTP_PRE_MASTER

theorem World.Fit.toRoleTimers (hw : w.Fit) : w.RoleTimers := by
  constructor
  · refine (hw.runs .ANNOUNCE_RECEIPT_TIMER).trans ?_
    cases w.portDS.portState <;> simp [PortState.runs]
  · refine (hw.runs .SYNC_INTERVAL_TIMER).trans ?_
    cases w.portDS.portState <;> simp [PortState.runs]
  · refine (hw.runs .ANNOUNCE_INTERVAL_TIMER).trans ?_
    cases w.portDS.portState <;> simp [PortState.runs]
  · refine (hw.runs .QUALIFICATION_TIMEOUT).trans ?_
    cases w.portDS.portState <;> simp [PortState.runs]

/-- The timers match the roles in every run that initialises the data sets before
    it waits for Announces, from intervals that do not overflow. -/
theorem roleTimers (hw : Reachable w) (hconf : ∀ x ∈ w.log, x.Configured)
    (hreceipt : ∀ x ∈ w.log, x.FitsReceipt)
    (hinit : Every LogEntry.EntersInitialised w.log) : w.RoleTimers :=
  (hw.fit ⟨hconf, hreceipt, hinit⟩).toRoleTimers

theorem roleTimers_master :
    (sampleRun .E2E [.doState, .catchAlarm 12000, .doState]).RoleTimers :=
  roleTimers (reachable_sampleRun .E2E (by decide)) (by decide +kernel) (by decide +kernel)
    (by decide +kernel)

/-- The link comes up before the first pass: the port listens, and never gives up. -/
theorem linkUp_before_initData :
    let w := sampleRun .E2E [.linkUp]
    Reachable w ∧ (∀ x ∈ w.log, x.Configured) ∧
      0 < pow2ms w.rtOpts.announceInterval ∧ 0 < pow2ms w.rtOpts.syncInterval ∧
      w.portDS.portState = PTP_LISTENING ∧
      (w.itimer .ANNOUNCE_RECEIPT_TIMER).interval = 0 ∧ ¬ w.RoleTimers := by
  have hstate : (sampleRun .E2E [.linkUp]).portDS.portState = PTP_LISTENING := by decide +kernel
  have hinterval :
      ((sampleRun .E2E [.linkUp]).itimer .ANNOUNCE_RECEIPT_TIMER).interval = 0 := by
    decide +kernel
  refine ⟨reachable_sampleRun .E2E (by decide), by decide +kernel, by decide +kernel,
    by decide +kernel, hstate, hinterval, ?_⟩
  intro h
  have hpos := h.announceReceipt.mpr (.inl hstate)
  rw [hinterval] at hpos
  exact absurd hpos (by decide)

end Ptpd
