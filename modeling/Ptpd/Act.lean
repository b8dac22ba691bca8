import Ptpd.Invariant
import Ptpd.Issuing

/-! # Acts

    One input makes the port perform a sequence of acts: the calls that change
    its state, its data sets, the timers of its roles, or its packet queues,
    and between them whatever leaves all of these alone. Each act keeps the
    guard under which the code performs it.
-/

namespace Ptpd

open PortState Engine

/-! ## Settings -/

/-- The timers that belong to a role of the port. -/
def Timer.ofRole : Timer → Bool
  | .ANNOUNCE_RECEIPT_TIMER | .SYNC_INTERVAL_TIMER | .ANNOUNCE_INTERVAL_TIMER
  | .QUALIFICATION_TIMEOUT => true
  | .PDELAYREQ_INTERVAL_TIMER | .DELAYREQ_INTERVAL_TIMER | .MANAGEMENT_INTERVAL_TIMER => false

/-- The data sets that a master announces, and the intervals of its roles. -/
structure DataSets where
  defaultDS : DefaultDS
  grandmasterIdentity : ClockIdentity
  grandmasterClockQuality : ClockQuality
  grandmasterPriority1 : UInt8
  grandmasterPriority2 : UInt8
  stepsRemoved : UInt16
  logAnnounceInterval : Int
  announceReceiptTimeout : UInt8
  logSyncInterval : Int

def PtpClock.dataSets (c : PtpClock) : DataSets where
  defaultDS := c.defaultDS
  grandmasterIdentity := c.parentDS.grandmasterIdentity
  grandmasterClockQuality := c.parentDS.grandmasterClockQuality
  grandmasterPriority1 := c.parentDS.grandmasterPriority1
  grandmasterPriority2 := c.parentDS.grandmasterPriority2
  stepsRemoved := c.currentDS.stepsRemoved
  logAnnounceInterval := c.portDS.logAnnounceInterval
  announceReceiptTimeout := c.portDS.announceReceiptTimeout
  logSyncInterval := c.portDS.logSyncInterval

/-- What the acts are about. -/
structure Setting where
  portState : PortState
  recommendedState : PortState
  dataSets : DataSets
  interval : Timer → Int
  netPath : NetPath
  rtOpts : RunTimeOpts

def PtpClock.setting (c : PtpClock) : Setting where
  portState := c.portDS.portState
  recommendedState := c.recommendedState
  dataSets := c.dataSets
  interval := fun t => if t.ofRole then (c.itimer t).interval else 0
  netPath := c.netPath
  rtOpts := c.rtOpts

/-- The message types that only a master sends. -/
def MessageType.leads : MessageType → Bool
  | .ANNOUNCE | .SYNC | .FOLLOW_UP => true
  | _ => false

/-- The octets are a message of a master. -/
def leading (bytes : List UInt8) : Prop :=
  ∃ t, MessageType.ofCode (msgUnpackHeader (bufOf bytes)).messageType = some t ∧ t.leads

/-- Entries that no invariant about the acts looks for. -/
def Call.calm : Call → Prop
  | .toState _ | .initData | .pbuf_free _ => False
  | .send _ _ bytes _ => ¬ leading bytes
  | _ => True

/-- Nothing happened that the acts are about. -/
structure Quiet (w w' : World) : Prop where
  setting : w'.setting = w.setting
  grows : Grows Call.calm w w'

variable {w w' w'' : World}

theorem Quiet.refl (w : World) : Quiet w w := ⟨rfl, .refl w⟩

theorem Quiet.trans (h : Quiet w w') (h' : Quiet w' w'') : Quiet w w'' :=
  ⟨h'.setting.trans h.setting, h.grows.trans h'.grows⟩

theorem Quiet.of_eq (hsetting : w'.setting = w.setting) (hlog : w'.log = w.log) : Quiet w w' :=
  ⟨hsetting, .of_eq hlog⟩

/-- One calm entry, and whatever is not in the setting. -/
theorem Quiet.cons {x : LogEntry} (hx : x.call.calm) (hsetting : w'.setting = w.setting)
    (hlog : w'.log = x :: w.log) : Quiet w w' :=
  ⟨hsetting, .cons hx hlog⟩

theorem record_quiet (w : World) (call : Call) (h : call.calm) : Quiet w (w.record call) :=
  ⟨rfl, .record w call h⟩

/-! ## What leaves the setting alone -/

theorem freeAll_setting (freed : List Pbuf) (w : World) :
    (freeAll freed w).setting = w.setting := by
  induction freed generalizing w with
  | nil => rfl
  | cons p freed ih => exact ih (w.record (.pbuf_free p))

theorem netEmptyEventQ_setting (w : World) :
    (netEmptyEventQ w).setting =
      { w.setting with netPath.eventQ := (netQEmpty w.netPath.eventQ).2 } :=
  freeAll_setting (netQEmpty w.netPath.eventQ).1
    { w with netPath.eventQ := (netQEmpty w.netPath.eventQ).2 }

/-- `initClock` empties the event queue. -/
theorem initClock_setting (w : World) :
    (initClock w).setting =
      { w.setting with netPath.eventQ := (netQEmpty w.netPath.eventQ).2 } := by
  have hdata : (initClockData w).setting = w.setting := rfl
  unfold initClock
  generalize initClockData w = w₁ at hdata ⊢
  have hqueue : w₁.netPath = w.netPath := congrArg Setting.netPath hdata
  rw [← hdata, ← hqueue]
  dsimp only
  split
  · exact netEmptyEventQ_setting (adjFreq 0 w₁)
  · exact netEmptyEventQ_setting w₁

theorem netRecv_setting (p : Option Pbuf) (time : TimeInternal) (w : World) :
    (netRecv p time w).2.setting = w.setting := by
  unfold netRecv
  split
  · rfl
  · split <;> rfl

theorem netRecvEvent_setting (time : TimeInternal) (w : World) :
    (netRecvEvent time w).2.setting =
      { w.setting with netPath.eventQ := (netQGet w.netPath.eventQ).2 } :=
  netRecv_setting (netQGet w.netPath.eventQ).1 time
    { w with netPath.eventQ := (netQGet w.netPath.eventQ).2 }

theorem netRecvGeneral_setting (time : TimeInternal) (w : World) :
    (netRecvGeneral time w).2.setting =
      { w.setting with netPath.generalQ := (netQGet w.netPath.generalQ).2 } :=
  netRecv_setting (netQGet w.netPath.generalQ).1 time
    { w with netPath.generalQ := (netQGet w.netPath.generalQ).2 }

theorem netInit_setting (w : World) :
    (netInit w).2.setting = w.setting ∨
      (netInit w).2.setting =
        { w.setting with
          netPath.eventQ := netQInit w.netPath.eventQ
          netPath.generalQ := netQInit w.netPath.generalQ } := by
  unfold netInit
  dsimp only
  split
  · exact .inl rfl
  · split
    · exact .inl rfl
    · split
      · exact .inl rfl
      · exact .inr rfl

theorem netRecvEventCallback_setting (p : Pbuf) (w : World) :
    (netRecvEventCallback p w).setting =
      { w.setting with netPath.eventQ := (netQPut w.netPath.eventQ p).2 } := by
  unfold netRecvEventCallback netQPut
  dsimp only
  split <;> rfl

theorem netRecvGeneralCallback_setting (p : Pbuf) (w : World) :
    (netRecvGeneralCallback p w).setting =
      { w.setting with netPath.generalQ := (netQPut w.netPath.generalQ p).2 } := by
  unfold netRecvGeneralCallback netQPut
  dsimp only
  split <;> rfl

@[simp] theorem timerStop_dataSets (i : Timer) (w : World) :
    (timerStop i w).dataSets = w.dataSets := rfl

@[simp] theorem stopRequestTimer_dataSets (w : World) :
    (stopRequestTimer w).dataSets = w.dataSets := by
  unfold stopRequestTimer
  split <;> rfl

@[simp] theorem startRequestTimer_dataSets (w : World) :
    (startRequestTimer w).dataSets = w.dataSets := by
  unfold startRequestTimer
  split <;> rfl

@[simp] theorem startPDelayTimer_dataSets (w : World) :
    (startPDelayTimer w).dataSets = w.dataSets := by
  unfold startPDelayTimer
  split <;> rfl

@[simp] theorem initClock_dataSets (w : World) : (initClock w).dataSets = w.dataSets :=
  congrArg Setting.dataSets (initClock_setting w)

theorem leaveState_dataSets (s : PortState) (w : World) :
    (leaveState s w).dataSets = w.dataSets := by
  unfold leaveState
  cases w.portDS.portState
  case PTP_INITIALIZING | PTP_FAULTY | PTP_DISABLED => rfl
  case PTP_LISTENING | PTP_PRE_MASTER | PTP_MASTER | PTP_PASSIVE =>
    simp only [timerStop_dataSets, initClock_dataSets]
  case PTP_UNCALIBRATED | PTP_SLAVE =>
    dsimp only
    split
    · rfl
    · simp only [initClock_dataSets, stopRequestTimer_dataSets, timerStop_dataSets]

theorem setPortState_dataSets (s : PortState) (w : World) :
    (World.toPtpClock { w with portDS.portState := s }).dataSets = w.dataSets := rfl

theorem enterState_dataSets (s : PortState) (w : World) :
    (enterState s w).dataSets = w.dataSets := by
  cases s
  case PTP_MASTER =>
    exact (setPortState_dataSets _ _).trans (startPDelayTimer_dataSets _)
  case PTP_PASSIVE =>
    refine (setPortState_dataSets _ _).trans ?_
    split <;> rfl
  case PTP_UNCALIBRATED =>
    exact (setPortState_dataSets _ _).trans (startRequestTimer_dataSets _)
  all_goals rfl

/-- A change of state leaves the data sets alone. -/
theorem toState_dataSets (s : PortState) (w : World) : (toState s w).dataSets = w.dataSets :=
  (enterState_dataSets s _).trans (leaveState_dataSets s _)

/-! ## Acts -/

/-- The parent data set names the local clock as its grandmaster. -/
structure PtpClock.AdvertisesOwn (c : PtpClock) : Prop where
  grandmasterIdentity : c.parentDS.grandmasterIdentity = c.defaultDS.clockIdentity
  grandmasterClockQuality : c.parentDS.grandmasterClockQuality = c.defaultDS.clockQuality
  grandmasterPriority1 : c.parentDS.grandmasterPriority1 = c.defaultDS.priority1
  grandmasterPriority2 : c.parentDS.grandmasterPriority2 = c.defaultDS.priority2
  stepsRemoved : c.currentDS.stepsRemoved = 0

/-- The state may be entered: by a fault, a fault that is cleared, the end of
    initialisation or the link coming up, or because it is recommended. -/
def PtpClock.MayEnter (c : PtpClock) (s : PortState) : Prop :=
  s = PTP_INITIALIZING ∨ s = PTP_FAULTY ∨ s = PTP_LISTENING ∨
    s.agrees c.recommendedState ∧ (s = PTP_SLAVE → c.portDS.portState = PTP_UNCALIBRATED)

/-- One act. -/
inductive Act : World → World → Prop where
  | quiet {w w' : World} (h : Quiet w w') : Act w w'
  | toState {w : World} (s : PortState) (h : w.MayEnter s) : Act w (toState s w)
  | initClock {w : World} : Act w (initClock w)
  | receiveEvent {w : World} (time : TimeInternal) : Act w (netRecvEvent time w).2
  | receiveGeneral {w : World} (time : TimeInternal) : Act w (netRecvGeneral time w).2
  | decide {w : World} : Act w (stateDecision w)
  /-- An Announce of the parent. -/
  | follow {w : World} (header : MsgHeader) (announce : MsgAnnounce)
      (h : w.portDS.portState.follows) (hc : w.core.Consistent) : Act w (s1 header announce w)
  /-- An Announce restarts the receipt timer. -/
  | restart {w : World}
      (h : w.portDS.portState.follows ∨ w.portDS.portState = PTP_PASSIVE) :
      Act w (timerStart .ANNOUNCE_RECEIPT_TIMER w.announceReceiptInterval w)
  | m1 {w : World} : Act w (m1 w)
  /-- The announce receipt timeout recommends MASTER. -/
  | lead {w : World} (hso : w.isSlaveOnly = false) (h : w.AdvertisesOwn) :
      Act w { w with recommendedState := PTP_MASTER }
  | netInit {w : World} : Act w (netInit w).2
  | initData {w : World} (h : w.portDS.portState = PTP_INITIALIZING) (hc : w.core.Consistent) :
      Act w (initData w)
  /-- A master sends one of its messages. -/
  | issue {w : World} (port : UdpPort) (group : Group) (m : Outgoing)
      (h : w.portDS.portState = PTP_MASTER) (hc : w.core.Consistent) :
      Act w (w.issue port group m m.length)
  | startup {w : World} (rtOpts : RunTimeOpts) : Act w { w with rtOpts := rtOpts.checked }

/-- Any number of acts. -/
abbrev Acts : World → World → Prop := Relation.ReflTransGen Act

theorem Quiet.acts (h : Quiet w w') : Acts w w' := .single (.quiet h)

/-! ## What acts record -/

/-- The entries that an act adds to the history of `w`. -/
inductive Records (w : World) (x : LogEntry) : Prop where
  | calm (h : x.call.calm)
  | free (p : Pbuf) (h : x.call = .pbuf_free p)
  | toState (s : PortState) (h : x.call = .toState s) (hbefore : x.before = w.toPtpClock)
      (hs : w.MayEnter s)
  | initData (h : x.call = .initData) (hbefore : x.before = w.toPtpClock)
  | issue (port : UdpPort) (group : Group) (m : Outgoing)
      (h : x = w.issued port group m m.length) (hport : w.portDS.portState = PTP_MASTER)
      (hc : w.core.Consistent)

theorem Records.of_isRestart {x : LogEntry} (h : x.call.isRestart) : Records w x := by
  cases hcall : x.call with
  | pbuf_free p => exact .free p hcall
  | adjFreq adj =>
    refine .calm ?_
    rw [hcall]
    trivial
  | _ =>
    rw [hcall] at h
    exact h.elim

theorem stateDecision_grows (w : World) : Grows Call.calm w (stateDecision w) := by
  obtain ⟨c, l, hdecide, hengine⟩ := stateDecision_decide w
  have hlog : (stateDecision w).log = l := congrArg Engine.log hengine
  rcases hdecide.log_cases with ⟨-, rfl⟩ | ⟨new, b, reads, rfl, hb, hnew⟩
  · exact .of_eq hlog
  · refine ⟨new ++ [b], by rw [hlog, List.append_assoc]; rfl, ?_⟩
    intro x hx
    rcases List.mem_append.mp hx with hx | hx
    · obtain ⟨header, announce, hs1⟩ := hnew x hx
      rw [hs1]
      trivial
    · rw [List.mem_singleton.mp hx, hb]
      trivial

theorem netRecv_grows (p : Option Pbuf) (time : TimeInternal) (w : World) :
    Grows Call.isRestart w (netRecv p time w).2 := by
  unfold netRecv
  split
  · exact .refl w
  · split
    · exact .refl w
    · exact .cons (x := ⟨.pbuf_free _, _⟩) trivial rfl

/-- The history grows, by entries that the act accounts for. -/
theorem Act.records (h : Act w w') :
    ∃ new, w'.log = new ++ w.log ∧ ∀ x ∈ new, Records w x := by
  have hrestart : ∀ {w' : World}, Grows Call.isRestart w w' →
      ∃ new, w'.log = new ++ w.log ∧ ∀ x ∈ new, Records w x := by
    rintro w' ⟨new, hlog, hnew⟩
    exact ⟨new, hlog, fun x hx => .of_isRestart (hnew x hx)⟩
  have hcalm : ∀ {w' : World}, Grows Call.calm w w' →
      ∃ new, w'.log = new ++ w.log ∧ ∀ x ∈ new, Records w x := by
    rintro w' ⟨new, hlog, hnew⟩
    exact ⟨new, hlog, fun x hx => .calm (hnew x hx)⟩
  have hnone : ∀ {w' : World}, w'.log = w.log →
      ∃ new, w'.log = new ++ w.log ∧ ∀ x ∈ new, Records w x := fun hlog => hcalm (.of_eq hlog)
  cases h with
  | quiet h => exact hcalm h.grows
  | toState s hs =>
    -- the call itself, and what leaving the old state records after it
    obtain ⟨new, hlog, hnew⟩ := (leaveState_grows s
      { w.record (.toState s) with messageActivity := true })
    refine ⟨new ++ [⟨.toState s, w.toPtpClock⟩], ?_, ?_⟩
    · rw [List.append_assoc]
      exact (enterState_log s _).trans hlog
    · intro x hx
      rcases List.mem_append.mp hx with hx | hx
      · exact .of_isRestart (hnew x hx)
      · rw [List.mem_singleton.mp hx]
        exact .toState s rfl rfl hs
  | initClock => exact hrestart (initClock_grows w)
  | receiveEvent time =>
    exact hrestart (netRecv_grows (netQGet w.netPath.eventQ).1 time
      { w with netPath.eventQ := (netQGet w.netPath.eventQ).2 })
  | receiveGeneral time =>
    exact hrestart (netRecv_grows (netQGet w.netPath.generalQ).1 time
      { w with netPath.generalQ := (netQGet w.netPath.generalQ).2 })
  | decide => exact hcalm (stateDecision_grows w)
  | follow header announce => exact hcalm (.cons (x := ⟨.s1 header announce, w.toPtpClock⟩) trivial rfl)
  | restart => exact hnone rfl
  | m1 => exact hnone rfl
  | lead => exact hnone rfl
  | netInit => exact hnone (congrArg Engine.log (netInit_engine w))
  | initData hport hc =>
    exact ⟨[⟨.initData, w.toPtpClock⟩], rfl, by
      intro x hx
      rw [List.mem_singleton.mp hx]
      exact .initData rfl rfl⟩
  | issue port group m hport hc =>
    exact ⟨[w.issued port group m m.length], rfl, by
      intro x hx
      rw [List.mem_singleton.mp hx]
      exact .issue port group m rfl hport hc⟩
  | startup => exact hnone rfl

end Ptpd
