import Ptpd.Refinement.DoState

/-! # Invariants of the engine

    Facts about single steps that every safety argument uses, and the rule that
    carries an invariant of the engine to all reachable worlds.
-/

namespace Ptpd

open PortState Engine

/-! ## What single steps do -/

/-- A move records the changes of state it makes and nothing else. -/
theorem Move.log_eq {c c' : Core} {l l' : List LogEntry} (h : Move c l c' l') :
    ∃ new, l' = new ++ l ∧ ∀ x ∈ new, ∃ s, x.call = .toState s := by
  cases h with
  | stay => exact ⟨[], rfl, by simp⟩
  | enter s x hs hx => exact ⟨[x], rfl, by simpa using ⟨s, hx⟩⟩
  | uncalibrate x hrec hstate hx => exact ⟨[x], rfl, by simpa using ⟨_, hx⟩⟩
  | calibrated x hrec hstate hevent hx => exact ⟨[x], rfl, by simpa using ⟨_, hx⟩⟩
  | calibrating => exact ⟨[], rfl, by simp⟩
  | slave => exact ⟨[], rfl, by simp⟩
  | recalibrate x fault changed hrec hstate hx => exact ⟨[x], rfl, by simpa using ⟨_, hx⟩⟩
  | recalibrateTwice x y hrec hstate hx hy =>
    exact ⟨[y, x], rfl, by simpa using ⟨⟨_, hy⟩, ⟨_, hx⟩⟩⟩

/-- A state decision records `bmc` first, and then at most the call of `s1`. -/
theorem Decide.log_cases {c c' : Core} {l l' : List LogEntry} (h : Decide c l c' l') :
    (c' = c ∧ l' = l) ∨
    ∃ new b reads, l' = new ++ b :: l ∧ b.call = .bmc reads ∧
      ∀ x ∈ new, ∃ header announce, x.call = .s1 header announce := by
  cases h with
  | none => exact .inl ⟨rfl, rfl⟩
  | listen b hstate hevent hcount hb => exact .inr ⟨[], b, _, rfl, hb, by simp⟩
  | lead b best reads p r hstate hevent hlisten hbest hreads hmem hr hb =>
    exact .inr ⟨[], b, _, rfl, hb, by simp⟩
  | follow b x best reads hstate hevent hlisten hbest hreads hmem hb hbc hx =>
    exact .inr ⟨[x], b, _, rfl, hb, by simpa using ⟨_, _, hx⟩⟩

theorem Filtered.log_kind {c c' : Core} {new : List LogEntry} (h : Filtered c c' new) :
    ∀ x ∈ new, x.call.kind = .note ∨ x.call.kind = .offset := by
  cases h with
  | far q fault hq => simpa using .inl hq
  | near q y n selected fault hq hy => simpa [hy, Call.kind] using .inl hq

theorem Measurement.log_eq {c c' : Core} {l l' : List LogEntry} (h : Measurement c l c' l') :
    ∃ new, l' = new ++ l ∧ ∀ x ∈ new, x.call.kind = .note ∨ x.call.kind = .offset := by
  cases h with
  | sync a time ha => exact ⟨[a], rfl, by simp [ha, Call.kind]⟩
  | @syncOffset c' new r u time stack hmem hr htype htwo hsender hstate hu huc huh hmessage hfilter =>
    refine ⟨new ++ [u], by simp, List.forall_mem_append.mpr ⟨hfilter.log_kind, ?_⟩⟩
    simp [hu, Call.kind]
  | @followUp c' new r u time stack hmem hr htype hsender hstate hwait hseq hu huc huh hmessage hfilter =>
    refine ⟨new ++ [u], by simp, List.forall_mem_append.mpr ⟨hfilter.log_kind, ?_⟩⟩
    simp [hu, Call.kind]

theorem PeerExchange.log_eq {c c' : Core} {l l' : List LogEntry} (h : PeerExchange c l c' l') :
    ∃ new, l' = new ++ l ∧ ∀ x ∈ new, x.call.kind = .note ∨ x.call.kind = .peer := by
  cases h with
  | issuePDelayReq x s bytes result t1 hx hs =>
    exact ⟨[s, x], rfl, by simp [hx, hs, Call.kind]⟩
  | pDelayResp a time stack ha => exact ⟨[a], rfl, by simp [ha, Call.kind]⟩
  | pDelayRespOneStep a x time ha htwo hx =>
    exact ⟨[x, a], rfl, by rw [List.forall_mem_cons, hx]; simp [ha, Call.kind]⟩
  | pDelayRespFollowUp x stack hwait hx => exact ⟨[x], rfl, by simp [hx, Call.kind]⟩

/-- The history only grows. -/
theorem Engine.Step.log_eq {e e' : Engine} (h : Step e e') : ∃ new, e'.log = new ++ e.log := by
  cases h with
  | note x => exact ⟨[x], rfl⟩
  | startup x => exact ⟨[x], rfl⟩
  | toState s x => exact ⟨[x], rfl⟩
  | clockStep x => exact ⟨[x], rfl⟩
  | initialise x => exact ⟨[x], rfl⟩
  | decision hdecide hmove =>
    obtain ⟨new', rfl, -⟩ := hmove.log_eq
    rcases hdecide.log_cases with ⟨-, rfl⟩ | ⟨new, b, reads, rfl, -⟩
    · exact ⟨new', rfl⟩
    · exact ⟨new' ++ new ++ [b], by simp⟩
  | timeoutMaster x y => exact ⟨[y, x], rfl⟩
  | timeoutListen x y => exact ⟨[y, x], rfl⟩
  | timeoutStay x => exact ⟨[x], rfl⟩
  | announceParent a x => exact ⟨[x, a], rfl⟩
  | announceForeign a x => exact ⟨[x, a], rfl⟩
  | measurement h =>
    obtain ⟨new, rfl, -⟩ := h.log_eq
    exact ⟨new, rfl⟩
  | delayResp r x => exact ⟨[x], rfl⟩
  | peer h =>
    obtain ⟨new, rfl, -⟩ := h.log_eq
    exact ⟨new, rfl⟩

theorem Engine.Run.log_eq {e e' : Engine} (h : Run e e') : ∃ new, e'.log = new ++ e.log := by
  induction h with
  | refl => exact ⟨[], rfl⟩
  | tail _ hlast ih =>
    obtain ⟨new, hnew⟩ := ih
    obtain ⟨new', hnew'⟩ := hlast.log_eq
    exact ⟨new' ++ new, by rw [hnew', hnew, List.append_assoc]⟩

/-- Filtering the offset touches the sample count and two event bits. -/
theorem Filtered.core_eq {c c' : Core} {new : List LogEntry} (h : Filtered c c' new) :
    ∃ n selected fault, c' =
      { c with
        offsetSamples := n
        events.MASTER_CLOCK_SELECTED := selected
        events.SYNCHRONIZATION_FAULT := fault } := by
  cases h with
  | far q fault => exact ⟨c.offsetSamples, c.events.MASTER_CLOCK_SELECTED, fault, rfl⟩
  | near q y n selected fault =>
    exact ⟨n, selected || c.events.MASTER_CLOCK_SELECTED, fault, rfl⟩

@[simp] theorem Core.leave_eq (s : PortState) (c : Core) :
    c.leave s = if c.portState.restarts s then c.clockInit else c := rfl

@[simp] theorem Core.enter_portState (s : PortState) (c : Core) : (c.enter s).portState = s := rfl

@[simp] theorem Core.enter_events (s : PortState) (c : Core) : (c.enter s).events = c.events := by
  unfold Core.enter Core.leave Core.clockInit
  split <;> rfl

@[simp] theorem Core.enter_parent (s : PortState) (c : Core) : (c.enter s).parent = c.parent := by
  unfold Core.enter Core.leave Core.clockInit
  split <;> rfl

@[simp] theorem Core.enter_foreignMasterDS (s : PortState) (c : Core) :
    (c.enter s).foreignMasterDS = c.foreignMasterDS := by
  unfold Core.enter Core.leave Core.clockInit
  split <;> rfl

@[simp] theorem Core.enter_maxForeignRecords (s : PortState) (c : Core) :
    (c.enter s).maxForeignRecords = c.maxForeignRecords := by
  unfold Core.enter Core.leave Core.clockInit
  split <;> rfl

theorem Core.enter_recommendedState {s : PortState} (c : Core) (hi : s ≠ PTP_INITIALIZING)
    (hl : s ≠ PTP_LISTENING) : (c.enter s).recommendedState = c.recommendedState := by
  unfold Core.enter
  cases s <;> simp_all

/-- What moves, measurements and peer exchanges leave alone. -/
structure Core.Frame (c c' : Core) : Prop where
  recommendedState : c'.recommendedState = c.recommendedState
  pending : c'.events.STATE_DECISION_EVENT = c.events.STATE_DECISION_EVENT
  slaveOnly : c'.slaveOnly = c.slaveOnly
  maxForeignRecords : c'.maxForeignRecords = c.maxForeignRecords
  parent : c'.parent = c.parent
  foreignMasterDS : c'.foreignMasterDS = c.foreignMasterDS

@[simp] theorem Core.enter_slaveOnly (s : PortState) (c : Core) :
    (c.enter s).slaveOnly = c.slaveOnly := by
  unfold Core.enter Core.leave Core.clockInit
  split <;> rfl

theorem Core.Frame.enter {c : Core} {s : PortState}
    (h : (c.enter s).recommendedState = c.recommendedState) : c.Frame (c.enter s) := by
  constructor <;> simp [h]

theorem Move.frame {c c' : Core} {l l' : List LogEntry} (h : Move c l c' l') : c.Frame c' := by
  cases h with
  | stay => constructor <;> rfl
  | enter s x hs =>
    refine .enter ?_
    rcases hs with ⟨hs, rfl | rfl | rfl⟩ | ⟨rfl, hmaster⟩
    · exact c.enter_recommendedState (by simp) (by simp)
    · exact c.enter_recommendedState (by simp) (by simp)
    · exact hs
    · exact c.enter_recommendedState (by simp) (by simp)
  | uncalibrate => exact .enter (c.enter_recommendedState (by simp) (by simp))
  | calibrated => constructor <;> rfl
  | calibrating => constructor <;> rfl
  | slave => constructor <;> rfl
  | recalibrate => constructor <;> rfl
  | recalibrateTwice => constructor <;> rfl

theorem Filtered.frame {c c' : Core} {new : List LogEntry} (h : Filtered c c' new) :
    c.Frame c' ∧ c'.portState = c.portState := by
  obtain ⟨n, selected, fault, rfl⟩ := h.core_eq
  exact ⟨by constructor <;> rfl, rfl⟩

theorem Measurement.frame {c c' : Core} {l l' : List LogEntry} (h : Measurement c l c' l') :
    c.Frame c' ∧ c'.portState = c.portState := by
  cases h with
  | sync => exact ⟨by constructor <;> rfl, rfl⟩
  | syncOffset r u time stack hmem hr htype htwo hsender hstate hu huc huh hmessage hfilter =>
    obtain ⟨hframe, hport⟩ := hfilter.frame
    exact ⟨⟨hframe.1, hframe.2, hframe.3, hframe.4, hframe.5, hframe.6⟩, hport⟩
  | followUp r u time stack hmem hr htype hsender hstate hwait hseq hu huc huh hmessage hfilter =>
    obtain ⟨hframe, hport⟩ := hfilter.frame
    exact ⟨⟨hframe.1, hframe.2, hframe.3, hframe.4, hframe.5, hframe.6⟩, hport⟩

theorem PeerExchange.frame {c c' : Core} {l l' : List LogEntry} (h : PeerExchange c l c' l') :
    c.Frame c' ∧ c'.portState = c.portState := by
  cases h <;> exact ⟨by constructor <;> rfl, rfl⟩

theorem Decide.maxForeignRecords {c c' : Core} {l l' : List LogEntry} (h : Decide c l c' l') :
    c'.maxForeignRecords = c.maxForeignRecords := by
  cases h <;> rfl

/-! ## Port state and recommended state -/

/-- The recommended states that a port in this state can have between two events. -/
def PortState.agrees : PortState → PortState → Prop
  | PTP_INITIALIZING, r => r = PTP_INITIALIZING
  | PTP_LISTENING, r => r = PTP_LISTENING
  | PTP_PRE_MASTER, r | PTP_MASTER, r => r = PTP_MASTER
  | PTP_PASSIVE, r => r = PTP_PASSIVE
  | PTP_UNCALIBRATED, r | PTP_SLAVE, r => r = PTP_SLAVE
  | PTP_FAULTY, _ => True
  | PTP_DISABLED, _ => False

/-- What holds of the engine whatever happens. -/
structure Core.Consistent (c : Core) : Prop where
  agrees : c.portState.agrees c.recommendedState
  maxForeignRecords : c.maxForeignRecords = DEFAULT_MAX_FOREIGN_RECORDS

theorem Core.Consistent.recommends {c : Core} (h : c.Consistent) (hf : c.portState.follows) :
    c.recommendedState = PTP_SLAVE := by
  have hagrees := h.agrees
  cases hport : c.portState <;> simp_all [PortState.follows, PortState.agrees]

/-- `c` may not be consistent yet, but the move to the recommended state makes it so. -/
theorem Move.agrees {c c' : Core} {l l' : List LogEntry} (h : Move c l c' l')
    (hc : c.portState.agrees c.recommendedState ∨ c.recommendedState = PTP_MASTER ∨
      c.recommendedState = PTP_PASSIVE ∨ c.recommendedState = PTP_LISTENING ∨
      c.recommendedState = PTP_SLAVE) :
    c'.portState.agrees c'.recommendedState := by
  cases h with
  | stay h =>
    -- a settled port is already in the state that is recommended
    rcases hc with hc | hc | hc | hc | hc
    · exact hc
    · rw [Core.settled, hc] at h
      rcases h with h | h <;> rw [h, hc] <;> rfl
    · rw [Core.settled, hc] at h
      rw [show c.portState = _ from h, hc]
      rfl
    · rw [Core.settled, hc] at h
      rw [show c.portState = _ from h, hc]
      rfl
    · rw [Core.settled, hc] at h
      exact h.elim
  | enter s x hs =>
    rcases hs with ⟨hs, rfl | rfl | rfl⟩ | ⟨rfl, hmaster⟩
    · exact hs.symm
    · exact hs.symm
    · rfl
    · exact hmaster
  | uncalibrate x hrec => exact hrec
  | calibrated x hrec => exact hrec
  | calibrating hrec hstate =>
    rw [show ({ c with events.MASTER_CLOCK_CHANGED := false } : Core).portState = _ from hstate]
    exact hrec
  | slave hrec hstate =>
    rw [hstate]
    exact hrec
  | recalibrate x fault changed hrec => exact hrec
  | recalibrateTwice x y hrec => exact hrec

theorem Core.Consistent.decision {c c₁ c₂ : Core} {l l₁ l₂ : List LogEntry}
    (hc : c.Consistent) (hdecide : Decide c l c₁ l₁) (hmove : Move c₁ l₁ c₂ l₂) :
    c₂.Consistent := by
  refine ⟨hmove.agrees ?_, ?_⟩
  · cases hdecide with
    | none => exact .inl hc.agrees
    | listen => simp
    | lead b best reads p r hstate hevent hlisten hbest hreads hmem hr =>
      rcases hr with rfl | rfl | rfl <;> simp
    | follow => simp
  · rw [hmove.frame.maxForeignRecords, hdecide.maxForeignRecords, hc.maxForeignRecords]

theorem Core.Consistent.enter {c : Core} (hc : c.Consistent) {s : PortState}
    (hs : s.agrees (c.enter s).recommendedState) : (c.enter s).Consistent :=
  ⟨hs, by rw [Core.enter_maxForeignRecords, hc.maxForeignRecords]⟩

theorem Core.Consistent.frame {c c' : Core} (hc : c.Consistent)
    (h : c.Frame c' ∧ c'.portState = c.portState) : c'.Consistent := by
  obtain ⟨hframe, hport⟩ := h
  constructor
  · rw [hport, hframe.recommendedState]
    exact hc.agrees
  · rw [hframe.maxForeignRecords]
    exact hc.maxForeignRecords

theorem Engine.Step.consistent {e e' : Engine} (h : Step e e') (hc : e.core.Consistent) :
    e'.core.Consistent := by
  cases h with
  | note x => exact hc
  | startup x => exact ⟨rfl, by simp⟩
  | toState s x hs =>
    refine hc.enter ?_
    rcases hs with rfl | rfl | rfl
    · rfl
    · trivial
    · rfl
  | clockStep => exact ⟨hc.agrees, hc.maxForeignRecords⟩
  | initialise x => exact ⟨hc.agrees, hc.maxForeignRecords⟩
  | decision hdecide hmove => exact hc.decision hdecide hmove
  | timeoutMaster x y => exact ⟨rfl, by simpa using hc.maxForeignRecords⟩
  | timeoutListen x y => exact ⟨rfl, by simpa using hc.maxForeignRecords⟩
  | timeoutStay x => exact ⟨hc.agrees, hc.maxForeignRecords⟩
  | announceParent a x => exact ⟨hc.agrees, hc.maxForeignRecords⟩
  | announceForeign a x => exact ⟨hc.agrees, hc.maxForeignRecords⟩
  | measurement h => exact hc.frame h.frame
  | delayResp r x => exact hc
  | peer h => exact hc.frame h.frame

theorem Engine.Initial.consistent {e : Engine} (h : Engine.Initial e) : e.core.Consistent := by
  rw [h.core]
  exact ⟨rfl, rfl⟩

/-! ## Invariants of reachable worlds -/

/-- What holds of every initial engine and is preserved by every step, as long
    as an assumption about the history has not failed, holds of every reachable
    world whose history satisfies the assumption. -/
theorem Reachable.invariant {w : World} (hw : Reachable w) {Inv assumption : Engine → Prop}
    (hinit : ∀ e, Engine.Initial e → Inv e)
    (hmono : ∀ e e', Step e e' → assumption e' → assumption e)
    (hstep : ∀ e e', Step e e' → assumption e' → Inv e → Inv e')
    (ha : assumption w.engine) : Inv w.engine := by
  obtain ⟨e, he, hrun⟩ := hw.engine_run
  exact History.invariant_of_run hmono hstep hrun ha (hinit e he)

/-- An assumption about each entry of the history. -/
theorem Engine.Step.forall_log {p : LogEntry → Prop} {e e' : Engine} (h : Step e e')
    (hall : ∀ x ∈ e'.log, p x) : ∀ x ∈ e.log, p x := by
  obtain ⟨new, heq⟩ := h.log_eq
  intro x hx
  exact hall x (heq ▸ List.mem_append_right new hx)

/-- The same of each entry with the history before it. -/
theorem Engine.Step.every_log {P : LogEntry → List LogEntry → Prop} {e e' : Engine}
    (h : Step e e') (hall : History.Every P e'.log) : History.Every P e.log := by
  obtain ⟨new, heq⟩ := h.log_eq
  exact History.every_append (heq ▸ hall)

end Ptpd
