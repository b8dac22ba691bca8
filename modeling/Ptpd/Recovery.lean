import Ptpd.Invariant

/-! # Recovery from a fault

    A faulty port is to be initialised again. `doState` looks at the
    recommended state first, and what was recommended before the fault is still
    there: the port recovers through INITIALIZING exactly if no state to move to
    was recommended when the fault occurred.
-/

namespace Ptpd

open PortState Engine

/-! ## The states that are taken -/

/-- The state that a call enters. -/
def LogEntry.state? (x : LogEntry) : Option PortState :=
  match x.call with
  | .toState s => some s
  | _ => none

/-- The states entered, the latest first. -/
def statesTaken (log : List LogEntry) : List PortState := log.filterMap LogEntry.state?

theorem statesTaken_append (newer older : List LogEntry) :
    statesTaken (newer ++ older) = statesTaken newer ++ statesTaken older :=
  List.filterMap_append

theorem statesTaken_quiet {log : List LogEntry} (h : ∀ x ∈ log, x.call.quiet) :
    statesTaken log = [] := by
  apply List.filterMap_eq_nil_iff.mpr
  intro x hx
  have hquiet : x.call.kind = .note := h x hx
  unfold LogEntry.state?
  split
  · next heq => simp [heq, Call.kind] at hquiet
  · rfl

/-- The first state entered stays the first. -/
theorem statesTaken_first {newer older : List LogEntry} {s : PortState}
    (h : s ∈ (statesTaken older).getLast?) : s ∈ (statesTaken (newer ++ older)).getLast? := by
  rw [statesTaken_append, List.getLast?_append]
  rw [Option.mem_def] at h ⊢
  rw [h]
  rfl

/-- The port takes part in the protocol. -/
def PortState.participates : PortState → Bool
  | PTP_INITIALIZING | PTP_FAULTY | PTP_DISABLED => false
  | _ => true

/-- Everything but the link coming up, which changes the state from outside. -/
def Input.Inside : Input → Prop
  | .linkUp => False
  | _ => True

/-- Whatever happens to `w` from inside: the next state taken is INITIALIZING,
    and the port takes part again only after it was initialised. -/
def World.RecoversTo (w w' : World) : Prop :=
  ∃ new, w'.log = new ++ w.log ∧
    (∀ s ∈ (statesTaken new).getLast?, s = PTP_INITIALIZING) ∧
    (w'.portDS.portState.participates → ∃ x ∈ new, x.call = .initData)

/-- The port recovers in every run from inside that goes on from `w`. -/
def World.Recovers (w : World) : Prop :=
  ∀ inputs : List Input, (∀ input ∈ inputs, input.Inside ∧ input.Valid) →
    w.RecoversTo (runInputs inputs w)

/-- A state is recommended that `doState` moves to at once. -/
def PortState.isTarget : PortState → Bool
  | PTP_MASTER | PTP_PASSIVE | PTP_SLAVE | PTP_LISTENING => true
  | _ => false

/-! ## One pass -/

theorem recommendedAction_stay {w : World} (h : w.recommendedState.isTarget = false) :
    recommendedAction w = w := by
  unfold recommendedAction
  cases hrec : w.recommendedState <;> simp_all [PortState.isTarget]

theorem stateDecision_stay {w : World} (h : w.portDS.portState.decides = false) :
    stateDecision w = w := by
  rw [stateDecision_eq, h]
  rfl

/-- The pass of a port that neither decides nor moves. -/
theorem doState_portAction {w : World} (hstate : w.portDS.portState.decides = false)
    (htarget : w.recommendedState.isTarget = false) :
    doState w = portAction { w with messageActivity := false } := by
  have hdecide : stateDecision { w with messageActivity := false } =
      { w with messageActivity := false } := stateDecision_stay hstate
  have hmove : recommendedAction { w with messageActivity := false } =
      { w with messageActivity := false } := recommendedAction_stay htarget
  unfold doState
  dsimp only
  rw [hdecide, hmove]

theorem doState_faulty {w : World} (hport : w.portDS.portState = PTP_FAULTY)
    (htarget : w.recommendedState.isTarget = false) :
    doState w = toState PTP_INITIALIZING { w with messageActivity := false } := by
  rw [doState_portAction (by rw [hport]; rfl) htarget, portAction]
  simp only [hport]

theorem doState_initializing {w : World} (hport : w.portDS.portState = PTP_INITIALIZING)
    (htarget : w.recommendedState.isTarget = false) :
    doState w = branch (toState PTP_LISTENING) (toState PTP_FAULTY)
      (doInit { w with messageActivity := false }) := by
  rw [doState_portAction (by rw [hport]; rfl) htarget, portAction]
  simp only [hport]

/-! ## Until the port is initialised -/

/-- The port waits to be initialised, and nothing else is recommended. -/
structure World.Idle (w : World) : Prop where
  target : w.recommendedState.isTarget = false
  port : w.portDS.portState = PTP_FAULTY ∨ w.portDS.portState = PTP_INITIALIZING

/-- What one input does to an idle port, with the entries it adds. -/
inductive IdleStep (w w' : World) (new : List LogEntry) : Prop where
  | stay (htaken : statesTaken new = []) (hport : w'.portDS.portState = w.portDS.portState)
      (hrec : w'.recommendedState = w.recommendedState)
  | initialise (htaken : statesTaken new = [PTP_INITIALIZING])
      (hport : w'.portDS.portState = PTP_INITIALIZING)
      (hrec : w'.recommendedState = PTP_INITIALIZING)
  | fail (hfrom : w.portDS.portState = PTP_INITIALIZING)
      (hport : w'.portDS.portState = PTP_FAULTY) (hrec : w'.recommendedState = w.recommendedState)
  | initialised (hfrom : w.portDS.portState = PTP_INITIALIZING)
      (hinit : ∃ x ∈ new, x.call = .initData)

/-- Entries that the engine only notes. -/
theorem Noted.idleStep {c : Core} {w w' : World} (h : Noted ⟨c, w.log⟩ w')
    (hport : c.portState = w.portDS.portState) (hrec : c.recommendedState = w.recommendedState) :
    ∃ new, w'.log = new ++ w.log ∧ IdleStep w w' new := by
  obtain ⟨new, hquiet, heq⟩ := h
  refine ⟨new, congrArg Engine.log heq, .stay (statesTaken_quiet hquiet) ?_ ?_⟩
  · exact (congrArg (fun e => e.core.portState) heq).trans hport
  · exact (congrArg (fun e => e.core.recommendedState) heq).trans hrec

/-- A change of state by `toState`: the entry of the call, notes, and the new state. -/
theorem toState_taken (s : PortState) (w : World) :
    ∃ new, (toState s w).log = new ++ w.log ∧ statesTaken new = [s] ∧
      (toState s w).portDS.portState = s ∧
      (toState s w).recommendedState = (w.core.enter s).recommendedState := by
  obtain ⟨new, hquiet, heq⟩ := toState_noted s w
  refine ⟨new ++ [⟨.toState s, w.toPtpClock⟩], ?_, ?_, ?_, ?_⟩
  · rw [show (toState s w).log = _ from congrArg Engine.log heq, List.append_assoc]
    rfl
  · rw [statesTaken_append, statesTaken_quiet hquiet]
    rfl
  · exact congrArg (fun e => e.core.portState) heq
  · exact congrArg (fun e => e.core.recommendedState) heq

theorem toState_initializing_idleStep {w w₁ : World} (hlog : w₁.log = w.log) :
    ∃ new, (toState PTP_INITIALIZING w₁).log = new ++ w.log ∧
      IdleStep w (toState PTP_INITIALIZING w₁) new := by
  obtain ⟨new, hnew, htaken, hport, hrec⟩ := toState_taken PTP_INITIALIZING w₁
  exact ⟨new, by rw [hnew, hlog], .initialise htaken hport hrec⟩

/-- `doInit` records the initial data, or fails and leaves the port where it was. -/
theorem doInit_cases (w : World) :
    (doInit w).1 = false ∧ (doInit w).2.engine = w.engine ∨
      (doInit w).1 = true ∧ ∃ new, (doInit w).2.log = new ++ w.log ∧
        ∃ x ∈ new, x.call = .initData := by
  rw [doInit_eq]
  by_cases hup : (netInit w).1 = true
  · refine .inr ?_
    rw [hup]
    refine ⟨rfl, ?_⟩
    obtain ⟨new, -, heq⟩ := initClock_noted (initTimer (initData (netInit w).2))
    refine ⟨new ++ [⟨.initData, (netInit w).2.toPtpClock⟩], ?_, _,
      List.mem_append_right new List.mem_cons_self, rfl⟩
    have hlog : (initialise (netInit w).2).log =
        (initClock (initTimer (initData (netInit w).2))).log := rfl
    have hnet : (netInit w).2.log = w.log := congrArg Engine.log (netInit_engine w)
    rw [show (if (!true) = true then (false, (netInit w).2)
      else (true, initialise (netInit w).2)).2.log = (initialise (netInit w).2).log from rfl, hlog,
      show (initClock _).log = _ from congrArg Engine.log heq, List.append_assoc]
    exact congrArg (new ++ ⟨.initData, (netInit w).2.toPtpClock⟩ :: ·) hnet
  · refine .inl ?_
    rw [Bool.not_eq_true] at hup
    rw [hup]
    exact ⟨rfl, netInit_engine w⟩

theorem doState_idleStep {w : World} (h : w.Idle) :
    ∃ new, (doState w).log = new ++ w.log ∧ IdleStep w (doState w) new := by
  rcases h.port with hport | hport
  · rw [doState_faulty hport h.target]
    exact toState_initializing_idleStep rfl
  · rw [doState_initializing hport h.target]
    have hcases := doInit_cases { w with messageActivity := false }
    generalize doInit { w with messageActivity := false } = call at hcases
    obtain ⟨up, w₁⟩ := call
    -- the network did not come up, or the clock was initialised
    rcases hcases with ⟨hup, heq⟩ | ⟨hup, new, hlog, hinit⟩
    · have hbranch : branch (toState PTP_LISTENING) (toState PTP_FAULTY) (up, w₁) =
          toState PTP_FAULTY w₁ := if_neg (by rw [show up = false from hup]; simp)
      obtain ⟨new, hnew, -, hfaulty, hrec⟩ := toState_taken PTP_FAULTY w₁
      rw [hbranch]
      refine ⟨new, ?_, .fail hport hfaulty ?_⟩
      · rw [hnew, show w₁.log = w.log from congrArg Engine.log heq]
      · rw [hrec, w₁.core.enter_recommendedState (by simp) (by simp)]
        exact congrArg (fun e => e.core.recommendedState) heq
    · have hbranch : branch (toState PTP_LISTENING) (toState PTP_FAULTY) (up, w₁) =
          toState PTP_LISTENING w₁ := if_pos hup
      obtain ⟨new', hnew', -, -, -⟩ := toState_taken PTP_LISTENING w₁
      rw [hbranch]
      refine ⟨new' ++ new, ?_, .initialised hport ?_⟩
      · rw [hnew', show w₁.log = _ from hlog, List.append_assoc]
      · obtain ⟨x, hx, hcall⟩ := hinit
        exact ⟨x, List.mem_append_right new' hx, hcall⟩

theorem step_idleStep {w : World} (h : w.Idle) {input : Input} (hin : input.Inside) :
    ∃ new, (step input w).log = new ++ w.log ∧ IdleStep w (step input w) new := by
  cases input with
  | ptpdStartup rtOpts => exact toState_initializing_idleStep rfl
  | catchAlarm time_ms => exact ⟨[], rfl, .stay rfl rfl rfl⟩
  | netRecvEventCallback p => exact (netRecvEventCallback_noted p w).idleStep rfl rfl
  | netRecvGeneralCallback p => exact (netRecvGeneralCallback_noted p w).idleStep rfl rfl
  | doState => exact doState_idleStep h
  | linkUp => exact hin.elim
  | adjust offset =>
    rcases updateClock_noted { w with currentDS.offsetFromMaster := offset } with
      hnoted | ⟨x, time, hx, new, hquiet, heq⟩
    · exact Noted.idleStep (w := w) hnoted rfl rfl
    · refine ⟨new ++ [x], ?_, .stay ?_ ?_ ?_⟩
      · rw [List.append_assoc]
        exact congrArg Engine.log heq
      · rw [statesTaken_append, statesTaken_quiet hquiet]
        simp [statesTaken, LogEntry.state?, hx]
      · exact congrArg (fun e => e.core.portState) heq
      · exact congrArg (fun e => e.core.recommendedState) heq

/-! ## Runs -/

/-- How far the port has come since the fault, where `new` is what the history has gained. -/
inductive Recovering (w' : World) (new : List LogEntry) : Prop where
  | faulty (htaken : statesTaken new = []) (hport : w'.portDS.portState = PTP_FAULTY)
      (hidle : w'.Idle)
  | initialising (hfirst : PTP_INITIALIZING ∈ (statesTaken new).getLast?) (hidle : w'.Idle)
  | initialised (hfirst : PTP_INITIALIZING ∈ (statesTaken new).getLast?)
      (hinit : ∃ x ∈ new, x.call = .initData)

theorem Recovering.idleStep {w' w'' : World} {new new' : List LogEntry}
    (h : Recovering w' new) (hidle : w'.Idle) (hstep : IdleStep w' w'' new') :
    Recovering w'' (new' ++ new) := by
  -- a port in INITIALIZING went there first
  have hkept : w'.portDS.portState = PTP_INITIALIZING →
      PTP_INITIALIZING ∈ (statesTaken new).getLast? := by
    intro hport
    cases h with
    | faulty htaken hfaulty =>
      rw [hport] at hfaulty
      cases hfaulty
    | initialising hfirst => exact hfirst
    | initialised hfirst => exact hfirst
  cases hstep with
  | stay htaken hport hrec =>
    have hidle' : w''.Idle := ⟨by rw [hrec]; exact hidle.target, by rw [hport]; exact hidle.port⟩
    have hsame : statesTaken (new' ++ new) = statesTaken new := by
      rw [statesTaken_append, htaken, List.nil_append]
    cases h with
    | faulty hnone hfaulty => exact .faulty (hsame.trans hnone) (hport.trans hfaulty) hidle'
    | initialising hfirst => exact .initialising (hsame ▸ hfirst) hidle'
    | initialised hfirst hinit =>
      obtain ⟨x, hx, hcall⟩ := hinit
      exact .initialised (hsame ▸ hfirst) ⟨x, List.mem_append_right new' hx, hcall⟩
  | initialise htaken hport hrec =>
    refine .initialising ?_ ⟨by rw [hrec]; rfl, .inr hport⟩
    cases h with
    | faulty hnone =>
      rw [statesTaken_append, htaken, hnone]
      rfl
    | initialising hfirst => exact statesTaken_first hfirst
    | initialised hfirst => exact statesTaken_first hfirst
  | fail hfrom hport hrec =>
    exact .initialising (statesTaken_first (hkept hfrom))
      ⟨by rw [hrec]; exact hidle.target, .inl hport⟩
  | initialised hfrom hinit =>
    obtain ⟨x, hx, hcall⟩ := hinit
    exact .initialised (statesTaken_first (hkept hfrom)) ⟨x, List.mem_append_left new hx, hcall⟩

/-- One more input. Once the port is initialised nothing is left to show. -/
theorem Recovering.step {w' : World} {new : List LogEntry} (h : Recovering w' new) {input : Input}
    (hin : input.Inside) (hv : input.Valid) :
    ∃ new', (Ptpd.step input w').log = new' ++ w'.log ∧
      Recovering (Ptpd.step input w') (new' ++ new) := by
  have hidle : w'.Idle → ∃ new', (Ptpd.step input w').log = new' ++ w'.log ∧
      Recovering (Ptpd.step input w') (new' ++ new) := by
    intro hidle
    obtain ⟨new', hlog, hstep⟩ := step_idleStep hidle hin
    exact ⟨new', hlog, h.idleStep hidle hstep⟩
  cases h with
  | faulty htaken hport hidle' => exact hidle hidle'
  | initialising hfirst hidle' => exact hidle hidle'
  | initialised hfirst hinit =>
    obtain ⟨new', hlog⟩ := (step_run input hv w').log_eq
    obtain ⟨x, hx, hcall⟩ := hinit
    exact ⟨new', hlog, .initialised (statesTaken_first hfirst)
      ⟨x, List.mem_append_right new' hx, hcall⟩⟩

theorem Recovering.runInputs {w w' : World} {new : List LogEntry} (h : Recovering w' new)
    (hlog : w'.log = new ++ w.log) {inputs : List Input}
    (hin : ∀ input ∈ inputs, input.Inside ∧ input.Valid) :
    ∃ new', (Ptpd.runInputs inputs w').log = new' ++ w.log ∧
      Recovering (Ptpd.runInputs inputs w') new' := by
  induction inputs generalizing w' new with
  | nil => exact ⟨new, hlog, h⟩
  | cons input inputs ih =>
    obtain ⟨hinside, hv⟩ := hin input List.mem_cons_self
    obtain ⟨new', hnew', hstep⟩ := h.step hinside hv
    exact ih hstep (by rw [hnew', hlog, List.append_assoc])
      fun input' hmem => hin input' (List.mem_cons_of_mem input hmem)

/-- With nothing else recommended the port recovers. -/
theorem World.Recovers.of_idle {w : World} (hport : w.portDS.portState = PTP_FAULTY)
    (htarget : w.recommendedState.isTarget = false) : w.Recovers := by
  intro inputs hin
  have hfaulty : Recovering w [] := .faulty rfl hport ⟨htarget, .inl hport⟩
  obtain ⟨new, hlog, h⟩ := hfaulty.runInputs rfl hin
  refine ⟨new, hlog, ?_, ?_⟩
  · intro s hs
    cases h with
    | faulty hnone =>
      rw [hnone] at hs
      cases hs
    | initialising hfirst => exact Option.mem_unique hs hfirst
    | initialised hfirst => exact Option.mem_unique hs hfirst
  · intro hparticipates
    -- an idle port takes no part, so it has been initialised
    have hidle : ∀ {w' : World}, w'.Idle → w'.portDS.portState.participates = false := by
      intro w' hidle
      rcases hidle.port with hport | hport <;> rw [hport] <;> rfl
    cases h with
    | faulty htaken hport' hidle' =>
      rw [hidle hidle'] at hparticipates
      cases hparticipates
    | initialising hfirst hidle' =>
      rw [hidle hidle'] at hparticipates
      cases hparticipates
    | initialised hfirst hinit => exact hinit

/-! ## The state recommended before the fault -/

/-- A faulty port moves to the state that is still recommended. -/
theorem recommendedAction_faulty {w : World} (hport : w.portDS.portState = PTP_FAULTY)
    (htarget : w.recommendedState.isTarget) :
    ∃ s, s ≠ PTP_INITIALIZING ∧ recommendedAction w = toState s w := by
  unfold recommendedAction recommendedMaster recommendedSlave
  cases hrec : w.recommendedState
  case PTP_MASTER => exact ⟨PTP_PRE_MASTER, by simp, by simp only [hport]⟩
  case PTP_PASSIVE => exact ⟨PTP_PASSIVE, by simp, by simp [hport]⟩
  case PTP_SLAVE => exact ⟨PTP_UNCALIBRATED, by simp, by simp only [hport]⟩
  case PTP_LISTENING => exact ⟨PTP_LISTENING, by simp, by simp [hport]⟩
  all_goals
    rw [hrec] at htarget
    cases htarget

/-- `doState` takes it there at once. -/
theorem World.not_recovers {w : World} (hport : w.portDS.portState = PTP_FAULTY)
    (htarget : w.recommendedState.isTarget) : ¬ w.Recovers := by
  intro h
  obtain ⟨new, hlog, hfirst, -⟩ := h [.doState] (by simp [Input.Inside, Input.Valid])
  have hdecide : stateDecision { w with messageActivity := false } =
      { w with messageActivity := false } := stateDecision_stay (by rw [hport]; rfl)
  obtain ⟨s, hs, hmove⟩ := recommendedAction_faulty
    (w := { w with messageActivity := false }) hport htarget
  obtain ⟨new₁, hlog₁, htaken, -, -⟩ := toState_taken s { w with messageActivity := false }
  obtain ⟨new₂, hlog₂⟩ := (portAction_run
    (toState s { w with messageActivity := false })).log_eq
  have hdo : doState w = portAction (toState s { w with messageActivity := false }) := by
    unfold doState
    dsimp only
    rw [hdecide, hmove]
  -- the first change of state is that of the second switch
  have hnew : new = new₂ ++ new₁ := by
    have heq : new ++ w.log = (new₂ ++ new₁) ++ w.log := by
      rw [← hlog, List.append_assoc]
      refine (congrArg World.log hdo).trans ?_
      rw [show (portAction _).log = _ from hlog₂, show World.engine _ = ⟨_, _⟩ from rfl]
      exact congrArg (new₂ ++ ·) hlog₁
    exact List.append_cancel_right heq
  refine hs (hfirst s ?_)
  rw [hnew]
  refine statesTaken_first ?_
  rw [htaken]
  rfl

/-- A faulty port recovers exactly if no state to move to was left recommended. -/
theorem recovers_iff {w : World} (hport : w.portDS.portState = PTP_FAULTY) :
    w.Recovers ↔ w.recommendedState.isTarget = false := by
  constructor
  · intro h
    by_contra htarget
    exact World.not_recovers hport (by simpa using htarget) h
  · exact World.Recovers.of_idle hport

/-- A message of three octets sends a listening port to FAULTY, and LISTENING is recommended. -/
theorem short_message_not_recovers :
    ¬ ∀ w, Reachable w → w.portDS.portState = PTP_FAULTY → w.Recovers := by
  intro h
  have hreach : Reachable (sampleRun .E2E [.doState,
      .netRecvGeneralCallback (samplePacket [0, 2, 0] 0), .doState]) :=
    reachable_sampleRun .E2E (by decide)
  exact World.not_recovers (by decide +kernel) (by decide +kernel) (h _ hreach (by decide +kernel))

/-- A board without an address: its network does not come up. -/
def offlineRun : World :=
  doState (ptpdStartup (.sample .E2E)
    (World.zero { Platform.steady with iface := fun i => { Platform.steady.iface i with ip_addr := 0 } }))

theorem offline_recovers : offlineRun.Recovers ↔ offlineRun.recommendedState.isTarget = false :=
  recovers_iff (by decide +kernel)

end Ptpd
