import Ptpd.Refinement.Handle

/-! # The state machine refines the engine

    One pass of `doState` is a decision with the move that follows it, and then
    the steps of the port's actions. With the other inputs, every reachable
    world is the end of a run of the engine.
-/

namespace Ptpd

open PortState Engine

/-! ## State decision -/

theorem PtpClock.bmcBest_le (c : PtpClock) (k : Nat) : c.bmcBest k ≤ k := by
  induction k with
  | zero => exact le_rfl
  | succ k ih =>
    unfold bmcBest
    dsimp only
    split
    · exact le_rfl
    · omega

theorem PtpClock.bmcReads_le (c : PtpClock) :
    ∀ k ∈ c.bmcReads, k ≤ c.foreignMasterDS.count - 1 := by
  intro k hk
  simp only [bmcReads, List.mem_append, List.mem_flatMap, List.mem_range] at hk
  rcases hk with ⟨j, hj, hk⟩ | hk
  · have hle := c.bmcBest_le j
    simp only [List.mem_cons, List.not_mem_nil, or_false] at hk
    omega
  · split at hk
    · simp at hk
    · simp only [List.mem_singleton] at hk
      exact hk ▸ c.bmcBest_le _

theorem PtpClock.bmcBest_mem_reads {c : PtpClock}
    (h : ¬ (c.foreignMasterDS.count = 0 ∧ c.portDS.portState = PTP_LISTENING)) :
    c.bmcBest (c.foreignMasterDS.count - 1) ∈ c.bmcReads := by
  simp only [bmcReads, if_neg h, List.mem_append, List.mem_singleton, or_true]

theorem PtpClock.bmcReads_listening {c : PtpClock}
    (h : c.foreignMasterDS.count = 0 ∧ c.portDS.portState = PTP_LISTENING) : c.bmcReads = [] := by
  simp [bmcReads, h.1, h.2]

/-- What `bmcStateDecision` returns for a port that does not keep listening. -/
theorem bmcStateDecision_cases (header : MsgHeader) (announce : MsgAnnounce) {w : World}
    (h : ¬ (w.foreignMasterDS.count = 0 ∧ w.portDS.portState = PTP_LISTENING)) :
    (∃ p r, (r = PTP_MASTER ∨ r = PTP_PASSIVE) ∧ (bmcStateDecision header announce w).1 = r ∧
      (bmcStateDecision header announce w).2.engine = ⟨{ w.core with parent := p }, w.log⟩) ∨
    ((bmcStateDecision header announce w).1 = PTP_SLAVE ∧
      (bmcStateDecision header announce w).2 = s1 header announce (copyD0 w)) := by
  have hdecide : bmcStateDecision header announce w = _ := if_neg h
  rw [hdecide]
  dsimp only
  split
  · split
    · exact .inl ⟨_, _, .inl rfl, rfl, rfl⟩
    · exact .inl ⟨w.core.parent, _, .inr rfl, rfl, rfl⟩
  · split
    · exact .inl ⟨_, _, .inl rfl, rfl, rfl⟩
    · exact .inr ⟨rfl, rfl⟩

/-- Recommend the state that `bmc` returned, or LISTENING to a port that may only follow. -/
def recommend (decision : PortState × World) : World :=
  let w := { decision.2 with recommendedState := decision.1 }
  match w.recommendedState with
  | .PTP_MASTER | .PTP_PASSIVE =>
    if w.isSlaveOnly then { w with recommendedState := .PTP_LISTENING } else w
  | _ => w

theorem recommend_lead {d : PortState × World} (hr : d.1 = PTP_MASTER ∨ d.1 = PTP_PASSIVE) :
    ∃ r', (r' = PTP_MASTER ∨ r' = PTP_PASSIVE ∨ r' = PTP_LISTENING) ∧
      (recommend d).engine = ⟨{ d.2.core with recommendedState := r' }, d.2.log⟩ := by
  obtain ⟨r, w⟩ := d
  rcases hr with rfl | rfl
  all_goals
    unfold recommend
    dsimp only
    split
    · exact ⟨PTP_LISTENING, by simp, rfl⟩
    · exact ⟨_, by simp, rfl⟩

theorem recommend_follow (header : MsgHeader) (announce : MsgAnnounce) (w : World) :
    (recommend (PTP_SLAVE, s1 header announce w)).engine =
      ⟨{ w.core with
          events.MASTER_CLOCK_CHANGED :=
            !isSamePortIdentity w.parentDS.parentPortIdentity header.sourcePortIdentity ||
              w.events.MASTER_CLOCK_CHANGED
          parent := header.sourcePortIdentity
          recommendedState := PTP_SLAVE },
        ⟨.s1 header announce, w.toPtpClock⟩ :: w.log⟩ := rfl

/-- The world in which `bmc` calls `bmcStateDecision`. -/
def World.selected (w : World) : World :=
  { w.record (.bmc w.bmcReads) with
    foreignMasterDS.best := w.bmcBest (w.foreignMasterDS.count - 1) }

/-- The record that `bmc` selects. -/
def PtpClock.bmcRecord (c : PtpClock) : ForeignMasterRecord :=
  c.foreignMasterDS.records (c.bmcBest (c.foreignMasterDS.count - 1))

theorem bmc_eq (w : World) :
    bmc w = bmcStateDecision w.bmcRecord.header w.bmcRecord.announce w.selected := rfl

theorem stateDecision_eq (w : World) :
    stateDecision w =
      if w.portDS.portState.decides && w.events.STATE_DECISION_EVENT then
        recommend (bmc { w with events.STATE_DECISION_EVENT := false })
      else w := rfl

theorem recommend_bmc_decide {w w₁ : World} (hstate : w.portDS.portState.decides)
    (hevent : w.events.STATE_DECISION_EVENT)
    (h₁ : w₁ = { w with events.STATE_DECISION_EVENT := false }) :
    ∃ c l, Decide w.core w.log c l ∧ (recommend (bmc w₁)).engine = ⟨c, l⟩ := by
  have hcore : w₁.core = { w.core with events.STATE_DECISION_EVENT := false } := h₁ ▸ rfl
  have hlog : w₁.log = w.log := h₁ ▸ rfl
  have hcount : w₁.foreignMasterDS.count = w.foreignMasterDS.count := h₁ ▸ rfl
  have hport : w₁.portDS.portState = w.portDS.portState := h₁ ▸ rfl
  have hrecords : w₁.foreignMasterDS.records = w.foreignMasterDS.records := h₁ ▸ rfl
  rw [bmc_eq]
  clear h₁
  -- `.listen` if nothing is known, else `.lead` or `.follow` by the outcome
  by_cases hlisten : w₁.foreignMasterDS.count = 0 ∧ w₁.portDS.portState = PTP_LISTENING
  · have hdecide : bmcStateDecision w₁.bmcRecord.header w₁.bmcRecord.announce w₁.selected =
        (PTP_LISTENING, w₁.selected) := if_pos hlisten
    have hbest : w₁.bmcBest (w₁.foreignMasterDS.count - 1) = 0 := by
      rw [hlisten.1]
      rfl
    rw [hdecide]
    refine ⟨_, _, .listen ⟨.bmc w₁.bmcReads, w₁.toPtpClock⟩ (hport.symm.trans hlisten.2)
      hevent (hcount.symm.trans hlisten.1) (by rw [PtpClock.bmcReads_listening hlisten]) hcore, ?_⟩
    have hengine : (recommend (PTP_LISTENING, w₁.selected)).engine =
        ⟨{ w₁.core with
            foreignMasterDS.best := w₁.bmcBest (w₁.foreignMasterDS.count - 1)
            recommendedState := PTP_LISTENING },
          ⟨.bmc w₁.bmcReads, w₁.toPtpClock⟩ :: w₁.log⟩ := rfl
    rw [hengine, hbest, hcore, hlog]
  · have hbest : w₁.bmcBest (w₁.foreignMasterDS.count - 1) ≤ w.foreignMasterDS.count - 1 :=
      hcount ▸ w₁.bmcBest_le _
    have hreads : ∀ k ∈ w₁.bmcReads, k ≤ w.foreignMasterDS.count - 1 := hcount ▸ w₁.bmcReads_le
    have hmem := PtpClock.bmcBest_mem_reads hlisten
    have hselected : w₁.selected.core = { w.core with
        events.STATE_DECISION_EVENT := false
        foreignMasterDS.best := w₁.bmcBest (w₁.foreignMasterDS.count - 1) } := by
      have h : w₁.selected.core = { w₁.core with
        foreignMasterDS.best := w₁.bmcBest (w₁.foreignMasterDS.count - 1) } := rfl
      rw [h, hcore]
    have hselectedLog : w₁.selected.log = ⟨.bmc w₁.bmcReads, w₁.toPtpClock⟩ :: w.log :=
      hlog ▸ rfl
    have hrecord : w₁.bmcRecord =
        w.foreignMasterDS.records (w₁.bmcBest (w₁.foreignMasterDS.count - 1)) := hrecords ▸ rfl
    rw [hcount, hport] at hlisten
    have hlisten' : ¬ (w₁.selected.foreignMasterDS.count = 0 ∧
        w₁.selected.portDS.portState = PTP_LISTENING) := by
      rwa [← hcount, ← hport] at hlisten
    rcases bmcStateDecision_cases w₁.bmcRecord.header w₁.bmcRecord.announce hlisten' with
      ⟨p, r, hr, hfst, hsnd⟩ | ⟨hfst, hsnd⟩
    · generalize bmcStateDecision w₁.bmcRecord.header w₁.bmcRecord.announce w₁.selected = d at *
      obtain ⟨r', hr', hrec⟩ := recommend_lead (hfst ▸ hr)
      have hdcore : d.2.core = { w₁.selected.core with parent := p } := congrArg Engine.core hsnd
      have hdlog : d.2.log = w₁.selected.log := congrArg Engine.log hsnd
      refine ⟨_, _, .lead ⟨.bmc w₁.bmcReads, w₁.toPtpClock⟩ _ w₁.bmcReads p r' hstate hevent
        hlisten hbest hreads hmem hr' rfl hcore, ?_⟩
      rw [hrec, hdcore, hdlog, hselected, hselectedLog]
    · generalize bmcStateDecision w₁.bmcRecord.header w₁.bmcRecord.announce w₁.selected = d at *
      obtain ⟨r, w₂⟩ := d
      dsimp only at hfst hsnd
      subst hfst hsnd
      refine ⟨_, _, .follow ⟨.bmc w₁.bmcReads, w₁.toPtpClock⟩
        ⟨.s1 w₁.bmcRecord.header w₁.bmcRecord.announce, (copyD0 w₁.selected).toPtpClock⟩ _
        w₁.bmcReads hstate hevent hlisten hbest hreads hmem rfl hcore (by rw [hrecord]; rfl)
        hselected
        (!isSamePortIdentity (copyD0 w₁.selected).parentDS.parentPortIdentity
            w₁.bmcRecord.header.sourcePortIdentity ||
          (copyD0 w₁.selected).events.MASTER_CLOCK_CHANGED), ?_⟩
      have hcopy : (copyD0 w₁.selected).core = w₁.selected.core := rfl
      have hcopyLog : (copyD0 w₁.selected).log = w₁.selected.log := rfl
      rw [recommend_follow, hcopy, hcopyLog, hselected, hselectedLog]
      simp only [hrecord]
      rfl

theorem stateDecision_decide (w : World) :
    ∃ c l, Decide w.core w.log c l ∧ (stateDecision w).engine = ⟨c, l⟩ := by
  rw [stateDecision_eq]
  split
  case isFalse h =>
    have h' : ¬ (w.portDS.portState.decides ∧ w.events.STATE_DECISION_EVENT) := by simpa using h
    exact ⟨w.core, w.log, .none h', rfl⟩
  case isTrue h =>
    obtain ⟨hstate, hevent⟩ : w.portDS.portState.decides = true ∧
        w.events.STATE_DECISION_EVENT = true := by simpa using h
    exact recommend_bmc_decide hstate hevent rfl

/-! ## Move to the recommended state -/

/-- The world moves as the engine does, and notes follow. -/
def Moved (w w' : World) : Prop :=
  ∃ c l, Move w.core w.log c l ∧ Noted ⟨c, l⟩ w'

theorem Moved.of_engine_eq {w₁ w w' : World} (h : w₁.engine = w.engine) (hmoved : Moved w₁ w') :
    Moved w w' := by
  unfold Moved at hmoved ⊢
  rwa [show w₁.core = w.core from congrArg Engine.core h,
    show w₁.log = w.log from congrArg Engine.log h] at hmoved

theorem Moved.stay {w : World} (h : w.core.settled) : Moved w w :=
  ⟨w.core, w.log, .stay h, .of_eq rfl⟩

theorem Moved.enter {w : World} (s : PortState)
    (hs : s = w.recommendedState ∧ (s = PTP_MASTER ∨ s = PTP_PASSIVE ∨ s = PTP_LISTENING) ∨
      s = PTP_PRE_MASTER ∧ w.recommendedState = PTP_MASTER) :
    Moved w (toState s w) :=
  ⟨_, _, .enter s ⟨.toState s, w.toPtpClock⟩ hs rfl rfl, toState_noted s w⟩

theorem Moved.branch {w : World} {call : Bool × World} {f g : World → World}
    (hcall : call.2.engine = w.engine) (hf : ∀ w₁ : World, w₁.core = w.core → Moved w₁ (f w₁))
    (hg : ∀ w₁ : World, w₁.core = w.core → Moved w₁ (g w₁)) : Moved w (branch f g call) := by
  have hcore : call.2.core = w.core := congrArg Engine.core hcall
  unfold Ptpd.branch
  split
  · exact (hf call.2 hcore).of_engine_eq hcall
  · exact (hg call.2 hcore).of_engine_eq hcall

theorem recommendedMaster_moved {w : World} (hrec : w.recommendedState = PTP_MASTER) :
    Moved w (recommendedMaster w) := by
  unfold recommendedMaster
  cases hport : w.portDS.portState
  case PTP_PRE_MASTER =>
    refine Moved.branch (timerExpired_engine .QUALIFICATION_TIMEOUT w) ?_ ?_
    · intro w₁ hcore
      have hrec₁ : w₁.recommendedState = PTP_MASTER :=
        (congrArg Core.recommendedState hcore).trans hrec
      exact .enter PTP_MASTER (.inl ⟨hrec₁.symm, by simp⟩)
    · intro w₁ hcore
      refine .stay ?_
      rw [hcore, Core.settled, show w.core.recommendedState = PTP_MASTER from hrec]
      exact .inl hport
  case PTP_MASTER =>
    refine .stay ?_
    rw [Core.settled, show w.core.recommendedState = PTP_MASTER from hrec]
    exact .inr hport
  all_goals exact .enter PTP_PRE_MASTER (.inr ⟨rfl, hrec⟩)

/-- Towards PASSIVE or LISTENING. -/
theorem recommended_moved {w : World} {s : PortState} (hrec : w.recommendedState = s)
    (hs : s = PTP_PASSIVE ∨ s = PTP_LISTENING) :
    Moved w (if w.portDS.portState ≠ s then toState s w else w) := by
  split
  case isTrue => exact .enter s (.inl ⟨hrec.symm, .inr hs⟩)
  case isFalse heq =>
    have hport : w.core.portState = s := not_not.mp heq
    refine .stay ?_
    rw [Core.settled, show w.core.recommendedState = s from hrec]
    rcases hs with rfl | rfl <;> exact hport

/-- Between UNCALIBRATED and SLAVE nothing is undone. -/
theorem leaveState_follows {s : PortState} {w : World} (hs : s.follows)
    (hport : w.portDS.portState.follows) : leaveState s w = w := by
  have hs' : s = PTP_UNCALIBRATED ∨ s = PTP_SLAVE := by cases s <;> simp_all [PortState.follows]
  unfold leaveState
  cases hp : w.portDS.portState <;> simp_all [PortState.follows]

theorem toState_follows_engine {s : PortState} {w : World} (hs : s.follows)
    (hport : w.portDS.portState.follows) :
    (toState s w).engine =
      ⟨{ w.core with portState := s }, ⟨.toState s, w.toPtpClock⟩ :: w.log⟩ := by
  have henter : toState s w = enterState s { w.record (.toState s) with messageActivity := true } :=
    congrArg (enterState s) (leaveState_follows hs hport)
  rw [henter, enterState_engine]
  cases s <;> simp [PortState.follows] at hs <;> rfl

theorem Core.clearChanged {c : Core} (h : c.events.MASTER_CLOCK_CHANGED = false) :
    { c with events.MASTER_CLOCK_CHANGED := false } = c := by
  obtain ⟨_, _, ⟨_, _, _, changed⟩⟩ := c
  cases h
  rfl

theorem clearChanged_engine (w : World) :
    World.engine (if w.events.MASTER_CLOCK_CHANGED then
        { w with events.MASTER_CLOCK_CHANGED := false } else w) =
      ⟨{ w.core with events.MASTER_CLOCK_CHANGED := false }, w.log⟩ := by
  split
  case isTrue => rfl
  case isFalse h =>
    have hclear : w.core.events.MASTER_CLOCK_CHANGED = false := Bool.not_eq_true _ ▸ h
    rw [Core.clearChanged hclear]
    rfl

theorem calibrate_moved {w : World} (hrec : w.recommendedState = PTP_SLAVE)
    (hport : w.portDS.portState = PTP_UNCALIBRATED) : Moved w (recommendedSlave w) := by
  unfold recommendedSlave
  rw [hport]
  dsimp only
  cases hevent : w.events.MASTER_CLOCK_SELECTED
  case false => exact ⟨_, _, .calibrating hrec hport hevent, .of_eq (clearChanged_engine w)⟩
  case true =>
    simp only [if_true]
    generalize h₀ : ({ w with events.MASTER_CLOCK_SELECTED := false } : World) = w₀
    have hcore : w₀.core = { w.core with events.MASTER_CLOCK_SELECTED := false } := h₀ ▸ rfl
    have hlog : w₀.log = w.log := h₀ ▸ rfl
    have hslave : (toState PTP_SLAVE w₀).engine = _ :=
      toState_follows_engine rfl (by
        rw [show w₀.portDS.portState = _ from (congrArg Core.portState hcore).trans hport]
        rfl)
    generalize toState PTP_SLAVE w₀ = w₁ at hslave ⊢
    refine ⟨_, _, .calibrated ⟨.toState PTP_SLAVE, w₀.toPtpClock⟩ hrec hport hevent rfl hcore,
      .of_eq ((clearChanged_engine w₁).trans ?_)⟩
    rw [show w₁.core = _ from congrArg Engine.core hslave,
      show w₁.log = _ from congrArg Engine.log hslave, hcore, hlog]

theorem recalibrate_moved {w : World} (hrec : w.recommendedState = PTP_SLAVE)
    (hport : w.portDS.portState = PTP_SLAVE) : Moved w (recommendedSlave w) := by
  have hfollows : w.portDS.portState.follows := by rw [hport]; rfl
  unfold recommendedSlave
  rw [hport]
  dsimp only
  by_cases hfault : w.events.SYNCHRONIZATION_FAULT
  case neg =>
    rw [if_neg hfault]
    -- no fault: at most the change of master sends the port back
    split
    case isFalse => exact ⟨_, _, .slave hrec hport, .of_eq rfl⟩
    case isTrue =>
      generalize h₀ : ({ w with events.MASTER_CLOCK_CHANGED := false } : World) = w₀
      have hcore : w₀.core = { w.core with events.MASTER_CLOCK_CHANGED := false } := h₀ ▸ rfl
      have hlog : w₀.log = w.log := h₀ ▸ rfl
      have hfollows₀ : w₀.portDS.portState.follows := by
        rw [show w₀.portDS.portState = w.portDS.portState from congrArg Core.portState hcore]
        exact hfollows
      refine ⟨_, _, .recalibrate ⟨.toState PTP_UNCALIBRATED, w₀.toPtpClock⟩
        w.events.SYNCHRONIZATION_FAULT false hrec hport rfl
        (congrArg (fun c => c.events.MASTER_CLOCK_SELECTED) hcore) hfollows₀, .of_eq ?_⟩
      rw [toState_follows_engine rfl hfollows₀, hcore, hlog]
      rfl
  case pos =>
    rw [if_pos hfault]
    -- a fault: the change of master then finds the port UNCALIBRATED already
    generalize h₀ : ({ w with events.SYNCHRONIZATION_FAULT := false } : World) = w₀
    have hcore : w₀.core = { w.core with events.SYNCHRONIZATION_FAULT := false } := h₀ ▸ rfl
    have hlog : w₀.log = w.log := h₀ ▸ rfl
    have hfollows₀ : w₀.portDS.portState.follows := by
      rw [show w₀.portDS.portState = w.portDS.portState from congrArg Core.portState hcore]
      exact hfollows
    have hfirst : (toState PTP_UNCALIBRATED w₀).engine = _ := toState_follows_engine rfl hfollows₀
    generalize toState PTP_UNCALIBRATED w₀ = w₁ at hfirst ⊢
    have hcore₁ : w₁.core = _ := congrArg Engine.core hfirst
    have hlog₁ : w₁.log = _ := congrArg Engine.log hfirst
    have hselected : w₀.events.MASTER_CLOCK_SELECTED = w.events.MASTER_CLOCK_SELECTED :=
      congrArg (fun c => c.events.MASTER_CLOCK_SELECTED) hcore
    split
    case isFalse =>
      exact ⟨_, _, .recalibrate ⟨.toState PTP_UNCALIBRATED, w₀.toPtpClock⟩ false
        w.events.MASTER_CLOCK_CHANGED hrec hport rfl hselected hfollows₀, .of_eq (by
          rw [hfirst, hcore, hlog]
          rfl)⟩
    case isTrue =>
      generalize h₂ : ({ w₁ with events.MASTER_CLOCK_CHANGED := false } : World) = w₂
      have hcore₂ : w₂.core = { w₁.core with events.MASTER_CLOCK_CHANGED := false } := h₂ ▸ rfl
      have hlog₂ : w₂.log = w₁.log := h₂ ▸ rfl
      have hport₂ : w₂.portDS.portState.follows := by
        rw [show w₂.portDS.portState = w₁.core.portState from congrArg Core.portState hcore₂, hcore₁]
        rfl
      have hselected₂ : w₂.events.MASTER_CLOCK_SELECTED = w.events.MASTER_CLOCK_SELECTED := by
        rw [show w₂.events.MASTER_CLOCK_SELECTED = w₁.core.events.MASTER_CLOCK_SELECTED from
          congrArg (fun c => c.events.MASTER_CLOCK_SELECTED) hcore₂, hcore₁]
        exact hselected
      refine ⟨_, _, .recalibrateTwice ⟨.toState PTP_UNCALIBRATED, w₀.toPtpClock⟩
        ⟨.toState PTP_UNCALIBRATED, w₂.toPtpClock⟩ hrec hport rfl rfl hselected hselected₂
        hfollows₀ hport₂, .of_eq ?_⟩
      rw [toState_follows_engine rfl hport₂, hcore₂, hlog₂, hcore₁, hlog₁, hcore, hlog]

theorem recommendedSlave_moved {w : World} (hrec : w.recommendedState = PTP_SLAVE) :
    Moved w (recommendedSlave w) := by
  cases hport : w.portDS.portState
  case PTP_UNCALIBRATED => exact calibrate_moved hrec hport
  case PTP_SLAVE => exact recalibrate_moved hrec hport
  all_goals
    unfold recommendedSlave
    rw [hport]
    exact ⟨_, _, .uncalibrate ⟨.toState PTP_UNCALIBRATED, w.toPtpClock⟩ hrec
      (by rw [show w.core.portState = _ from hport]; rfl) rfl rfl, toState_noted _ w⟩

theorem recommendedAction_moved (w : World) : Moved w (recommendedAction w) := by
  unfold recommendedAction
  cases hrec : w.recommendedState
  case PTP_MASTER => exact recommendedMaster_moved hrec
  case PTP_PASSIVE => exact recommended_moved hrec (.inl rfl)
  case PTP_LISTENING => exact recommended_moved hrec (.inr rfl)
  case PTP_SLAVE => exact recommendedSlave_moved hrec
  all_goals
    refine .stay ?_
    rw [Core.settled, show w.core.recommendedState = _ from hrec]
    trivial

/-- First and second switch. -/
theorem decision_run (w : World) :
    Run w.engine (recommendedAction (stateDecision w)).engine := by
  obtain ⟨c₁, l₁, hdecide, hengine⟩ := stateDecision_decide w
  obtain ⟨c₂, l₂, hmove, hnoted⟩ := recommendedAction_moved (stateDecision w)
  have hcore : (stateDecision w).core = c₁ := congrArg Engine.core hengine
  have hlog : (stateDecision w).log = l₁ := congrArg Engine.log hengine
  rw [hcore, hlog] at hmove
  exact .head (.decision hdecide hmove) hnoted.run

/-! ## Port actions -/

theorem announceReceiptTimeoutExpires_run (w : World) :
    Run w.engine (announceReceiptTimeoutExpires w).engine := by
  unfold announceReceiptTimeoutExpires
  generalize h₁ : emptyForeignMasterDS w = w₁
  have hcore : w₁.core =
      { w.core with foreignMasterDS.count := 0, foreignMasterDS.i := 0 } := h₁ ▸ rfl
  have hlog : w₁.log = ⟨.announceTimeout, w.toPtpClock⟩ :: w.log := h₁ ▸ rfl
  have hslave : w₁.isSlaveOnly = w.core.slaveOnly := congrArg Core.slaveOnly hcore
  have hport : w₁.portDS.portState = w.core.portState := congrArg Core.portState hcore
  dsimp only
  rw [hslave, hport]
  split
  case isTrue hso =>
    -- the port makes itself master, skipping PRE_MASTER
    generalize h₂ : ({ m1 w₁ with recommendedState := .PTP_MASTER } : World) = w₂
    have hcore₂ : w₂.core =
        { w₁.core with parent := w₂.core.parent, recommendedState := PTP_MASTER } := h₂ ▸ rfl
    have hlog₂ : w₂.log = w₁.log := h₂ ▸ rfl
    have hport₂ : w₂.portDS.portState = w.core.portState :=
      (congrArg Core.portState hcore₂).trans hport
    have hnoted := toState_noted PTP_MASTER w₂
    rw [hcore₂, hcore, hlog₂, hlog] at hnoted
    exact .head (.timeoutMaster ⟨.announceTimeout, w.toPtpClock⟩ ⟨.toState PTP_MASTER,
      w₂.toPtpClock⟩ w₂.core.parent (by simpa using hso) rfl rfl rfl hport₂) hnoted.run
  case isFalse hso =>
    have hso' : w.core.slaveOnly = true := by simpa using hso
    split
    case isTrue =>
      have hnoted := toState_noted PTP_LISTENING w₁
      rw [hcore, hlog] at hnoted
      exact .head (.timeoutListen ⟨.announceTimeout, w.toPtpClock⟩ ⟨.toState PTP_LISTENING,
        w₁.toPtpClock⟩ hso' rfl rfl rfl hport) hnoted.run
    case isFalse hlisten =>
      rw [show w₁.engine = ⟨w₁.core, w₁.log⟩ from rfl, hcore, hlog]
      exact .single (.timeoutStay ⟨.announceTimeout, w.toPtpClock⟩ hso' (not_not.mp hlisten) rfl rfl)

theorem passiveAction_run (w : World) : Run w.engine (passiveAction w).engine :=
  ifExpired_run .ANNOUNCE_RECEIPT_TIMER w announceReceiptTimeoutExpires_run handle_run

theorem netInit_engine (w : World) : (netInit w).2.engine = w.engine := by
  unfold netInit
  dsimp only
  split
  · rfl
  · split
    · rfl
    · split <;> rfl

/-- `doInit` once the network is up. -/
def initialise (w : World) : World :=
  let w := m1 (initClock (initTimer (initData w)))
  { w with msgObuf := msgPackHeader w.toPtpClock w.msgObuf }

theorem doInit_eq (w : World) :
    doInit w = if !(netInit w).1 then (false, (netInit w).2)
      else (true, initialise (netInit w).2) := rfl

theorem initialise_run {w : World} (hport : w.portDS.portState = PTP_INITIALIZING) :
    Run w.engine (initialise w).engine := by
  have hdata : (initTimer (initData w)).engine =
      ⟨{ w.core with
          slaveOnly := (initData w).core.slaveOnly
          portIdentity := (initData w).core.portIdentity
          foreignMasterDS.count := 0
          foreignMasterDS.capacity := w.core.maxForeignRecords },
        ⟨.initData, w.toPtpClock⟩ :: w.log⟩ := rfl
  have hclock : Noted _ (initClock (initTimer (initData w))) :=
    initClock_noted (initTimer (initData w))
  rw [show (initTimer (initData w)).core = _ from congrArg Engine.core hdata,
    show (initTimer (initData w)).log = _ from congrArg Engine.log hdata] at hclock
  unfold initialise
  -- only the parent changes after `initClock`
  generalize initClock (initTimer (initData w)) = w₁ at hclock ⊢
  obtain ⟨new, hquiet, heq⟩ := hclock
  generalize hm1 : m1 w₁ = w₂
  have hcore : w₂.core = { w₁.core with parent := w₂.core.parent } := hm1 ▸ rfl
  have hlog : w₂.log = w₁.log := hm1 ▸ rfl
  have hend : World.engine { w₂ with msgObuf := msgPackHeader w₂.toPtpClock w₂.msgObuf } =
      ⟨w₂.core, w₂.log⟩ := rfl
  dsimp only
  rw [hend, hcore, hlog, show w₁.core = _ from congrArg Engine.core heq,
    show w₁.log = _ from congrArg Engine.log heq]
  exact .head (.initialise ⟨.initData, w.toPtpClock⟩ (initData w).core.portIdentity
    w₂.core.parent (initData w).core.slaveOnly hport rfl rfl) (Run.notes hquiet)

theorem doInit_run {w : World} (hport : w.portDS.portState = PTP_INITIALIZING) :
    Run w.engine (doInit w).2.engine := by
  rw [doInit_eq, ← netInit_engine w]
  have hport' : (netInit w).2.portDS.portState = PTP_INITIALIZING :=
    (congrArg (fun e => e.core.portState) (netInit_engine w)).trans hport
  split
  · exact .refl
  · exact initialise_run hport'

theorem portAction_run (w : World) : Run w.engine (portAction w).engine := by
  unfold portAction
  cases hport : w.portDS.portState
  case PTP_INITIALIZING =>
    refine (doInit_run hport).trans (branch_run rfl ?_ ?_)
    · exact toState_run (by simp)
    · exact fault_run
  case PTP_FAULTY => exact toState_run (by simp) w
  case PTP_DISABLED => exact handle_run w
  case PTP_PASSIVE => exact passiveAction_run w
  case PTP_MASTER =>
    exact ((ifExpired_run .SYNC_INTERVAL_TIMER w issueSync_run fun _ => .refl).trans
      (ifExpired_run .ANNOUNCE_INTERVAL_TIMER _ issueAnnounce_run fun _ => .refl)).trans
      ((handle_run _).trans (issueDelayReqTimerExpired_run _))
  case PTP_PRE_MASTER => exact .refl
  all_goals
    exact (ifExpired_run .MANAGEMENT_INTERVAL_TIMER w
      (fun w => (issueManagement_run w).trans (handle_run _)) fun _ => .refl).trans
      (passiveAction_run _)

theorem doState_run (w : World) : Run w.engine (doState w).engine :=
  (decision_run { w with messageActivity := false }).trans (portAction_run _)

/-! ## Runs -/

theorem netRecvEventCallback_noted (p : Pbuf) (w : World) :
    Noted w.engine (netRecvEventCallback p w) := by
  unfold netRecvEventCallback
  dsimp only
  split
  · exact .of_eq rfl
  · exact record_noted w (.pbuf_free p) rfl

theorem netRecvGeneralCallback_noted (p : Pbuf) (w : World) :
    Noted w.engine (netRecvGeneralCallback p w) := by
  unfold netRecvGeneralCallback
  dsimp only
  split
  · exact .of_eq rfl
  · exact record_noted w (.pbuf_free p) rfl

/-- The startup that follows checks the options, and sets nothing else. -/
theorem ptpdStartup_noted {rtOpts : RunTimeOpts} (hv : rtOpts.Valid) (w : World) :
    ∃ x : LogEntry, x.call = .toState PTP_INITIALIZING ∧
      x.before.portDS.portState = w.portDS.portState ∧
      Noted ⟨{ w.core with maxForeignRecords := DEFAULT_MAX_FOREIGN_RECORDS }.enter
        PTP_INITIALIZING, x :: w.log⟩ (ptpdStartup rtOpts w) := by
  unfold ptpdStartup
  generalize h₁ : ({ w with rtOpts := rtOpts.checked } : World) = w₁
  have hcore : w₁.core =
      { w.core with maxForeignRecords := rtOpts.checked.maxForeignRecords } := h₁ ▸ rfl
  have hlog : w₁.log = w.log := h₁ ▸ rfl
  have hnoted := toState_noted PTP_INITIALIZING w₁
  rw [hcore, hlog, RunTimeOpts.checked_maxForeignRecords,
    show rtOpts.maxForeignRecords = _ from hv] at hnoted
  exact ⟨⟨.toState PTP_INITIALIZING, w₁.toPtpClock⟩, rfl, congrArg Core.portState hcore, hnoted⟩

theorem step_run (input : Input) (hv : input.Valid) (w : World) :
    Run w.engine (step input w).engine := by
  cases input with
  | ptpdStartup rtOpts =>
    obtain ⟨x, hx, hport, hnoted⟩ := ptpdStartup_noted hv w
    exact .head (.startup x hx hport) hnoted.run
  | catchAlarm time_ms => exact .refl
  | netRecvEventCallback p => exact (netRecvEventCallback_noted p w).run
  | netRecvGeneralCallback p => exact (netRecvGeneralCallback_noted p w).run
  | doState => exact doState_run w
  | linkUp => exact toState_run (by simp) w
  | adjust offset => exact updateClock_run { w with currentDS.offsetFromMaster := offset }

/-- Every reachable world is the end of a run of the engine. -/
theorem Reachable.engine_run {w : World} (hw : Reachable w) :
    ∃ e, Engine.Initial e ∧ Run e w.engine := by
  induction hw with
  | init platform rtOpts hv =>
    obtain ⟨x, hx, -, hnoted⟩ := ptpdStartup_noted hv (World.zero platform)
    exact ⟨_, ⟨rfl, x, rfl, hx⟩, hnoted.run⟩
  | step input _ hv ih =>
    obtain ⟨e, he, hrun⟩ := ih
    exact ⟨e, he, hrun.trans (step_run input hv _)⟩

end Ptpd
