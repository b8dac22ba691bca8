import Ptpd.Measuring
import Ptpd.Requests

/-! # From UNCALIBRATED to SLAVE

    A small offset sets MASTER_CLOCK_SELECTED, and the next state decision takes
    the port to SLAVE. Nothing else clears the bit: neither entering UNCALIBRATED
    nor selecting another parent asks for a new offset.
-/

namespace Ptpd

open PortState Engine History

/-! ## Calibration -/

/-- The offset was filtered and is small, and it is one of `p`. -/
def LogEntry.Calibrates (y : LogEntry) (before : List LogEntry) (p : PortIdentity) : Prop :=
  y.call = .filteredOffset ∧ y.before.currentDS.offsetFromMaster.seconds = 0 ∧
    |y.before.currentDS.offsetFromMaster.nanoseconds| < DEFAULT_CALIBRATED_OFFSET_NS ∧
    Since (fun u older => u.UpdatesOffset ∧ u.OffsetOf older p) LogEntry.UpdatesOffset before

/-- UNCALIBRATED is entered, or another port is selected as the parent. -/
def LogEntry.StartsCalibration (x : LogEntry) : Prop :=
  match x.call with
  | .toState s => s = PTP_UNCALIBRATED
  | .s1 header _ => header.sourcePortIdentity ≠ x.parent
  | _ => False

instance : DecidablePred LogEntry.StartsCalibration := fun ⟨call, before⟩ => by
  apply @Call.casesOn (fun call => Decidable (LogEntry.StartsCalibration ⟨call, before⟩)) call
  case toState => exact fun s => decEq s PTP_UNCALIBRATED
  case s1 => exact fun header _ => instDecidableNot
  all_goals intros; exact .isFalse id

/-- The port is about to move from UNCALIBRATED to SLAVE. -/
def LogEntry.Synchronizes (x : LogEntry) : Prop :=
  x.call = .toState PTP_SLAVE ∧ x.before.portDS.portState = PTP_UNCALIBRATED

instance : DecidablePred LogEntry.Synchronizes := fun _ => inferInstanceAs (Decidable (_ ∧ _))

/-- Since calibration started, a small offset of the parent was computed. -/
def LogEntry.Calibrated (x : LogEntry) (older : List LogEntry) : Prop :=
  Since (fun y before => y.Calibrates before x.parent) LogEntry.StartsCalibration older

/-! ## What the code does not see to -/

/-- No calibration starts with the bit still set. -/
def LogEntry.StartsClear (x : LogEntry) : Prop :=
  x.StartsCalibration → x.before.events.MASTER_CLOCK_SELECTED = false

instance : DecidablePred LogEntry.StartsClear := fun _ => inferInstanceAs (Decidable (_ → _))

/-- While the port is calibrated, each offset is one of the parent. -/
def LogEntry.KeepsParentUncalibrated (u : LogEntry) (older : List LogEntry) : Prop :=
  u.UpdatesOffset → u.before.portDS.portState = PTP_UNCALIBRATED → u.KeepsParent older

instance (u : LogEntry) (older : List LogEntry) : Decidable (u.KeepsParentUncalibrated older) :=
  inferInstanceAs (Decidable (_ → _ → _))

/-- What is assumed of the history. -/
def Undisturbed (log : List LogEntry) : Prop :=
  Every (fun x older => x.StartsClear ∧ x.KeepsParentUncalibrated older) log

instance : DecidablePred Undisturbed := fun log => inferInstanceAs (Decidable (Every _ log))

/-! ## The invariant -/

/-- The bit was set by an offset of the parent, since calibration started. -/
def Engine.Selects (e : Engine) : Prop :=
  e.core.portState = PTP_UNCALIBRATED → e.core.events.MASTER_CLOCK_SELECTED →
    Since (fun y before => y.Calibrates before e.core.parent) LogEntry.StartsCalibration e.log

/-- What holds of each entry. -/
def Engine.CalibratedFirst (e : Engine) : Prop :=
  Every (fun x older => x.Synchronizes → x.Calibrated older) e.log

structure Engine.Calibrating (e : Engine) : Prop where
  selects : e.Selects
  first : e.CalibratedFirst

/-- An entry that neither starts calibration nor ends it. -/
structure LogEntry.Passes (x : LogEntry) : Prop where
  starts : ¬ x.StartsCalibration
  synchronizes : ¬ x.Synchronizes

theorem LogEntry.passes_of_kind {x : LogEntry}
    (h : x.call.kind ≠ .toState ∧ x.call.kind ≠ .select) : x.Passes := by
  obtain ⟨htoState, hselect⟩ := h
  constructor
  · intro hstarts
    unfold LogEntry.StartsCalibration at hstarts
    split at hstarts
    · next hcall =>
      rw [hcall] at htoState
      exact htoState rfl
    · next hcall =>
      rw [hcall] at hselect
      exact hselect rfl
    · exact hstarts
  · rintro ⟨hcall, -⟩
    rw [hcall] at htoState
    exact htoState rfl

theorem LogEntry.passes_toState {x : LogEntry} {s : PortState} (hx : x.call = .toState s)
    (hu : s ≠ PTP_UNCALIBRATED) (hs : s ≠ PTP_SLAVE) : x.Passes := by
  constructor
  · unfold LogEntry.StartsCalibration
    rw [hx]
    exact hu
  · rintro ⟨hcall, -⟩
    rw [hx] at hcall
    exact hs (Call.toState.inj hcall)

theorem LogEntry.passes_s1 {x : LogEntry} {header : MsgHeader} {announce : MsgAnnounce}
    (hx : x.call = .s1 header announce) (hparent : header.sourcePortIdentity = x.parent) :
    x.Passes := by
  constructor
  · unfold LogEntry.StartsCalibration
    rw [hx]
    exact not_not.mpr hparent
  · rintro ⟨hcall, -⟩
    rw [hx] at hcall
    cases hcall

/-- A step that neither starts calibration nor sets the bit. -/
theorem Engine.Selects.append {c c' : Core} {l new : List LogEntry} (h : Selects ⟨c, l⟩)
    (hstate : c'.portState = c.portState)
    (hbit : c'.events.MASTER_CLOCK_SELECTED = c.events.MASTER_CLOCK_SELECTED)
    (hparent : c'.parent = c.parent) (hnew : ∀ x ∈ new, x.Passes) : Selects ⟨c', new ++ l⟩ := by
  intro hport hset
  have hsince := h (hstate ▸ hport) (hbit ▸ hset)
  dsimp only at hsince ⊢
  rw [hparent]
  exact hsince.append fun x hx => (hnew x hx).starts

theorem Engine.Selects.of_state {e : Engine} (h : e.core.portState ≠ PTP_UNCALIBRATED) :
    e.Selects := fun hport => absurd hport h

theorem Engine.Selects.of_clear {e : Engine}
    (h : e.core.events.MASTER_CLOCK_SELECTED = false) : e.Selects := by
  intro _ hset
  rw [h] at hset
  cases hset

theorem Engine.CalibratedFirst.append {l new : List LogEntry} {c c' : Core}
    (h : CalibratedFirst ⟨c, l⟩) (hnew : ∀ x ∈ new, ¬ x.Synchronizes) :
    CalibratedFirst ⟨c', new ++ l⟩ := by
  have hall : Every (fun x older => x.Synchronizes → x.Calibrated older) l := h
  exact hall.append fun x hx _ hsync => absurd hsync (hnew x hx)

/-! ## State decisions -/

theorem Undisturbed.of_append {new log : List LogEntry} (h : Undisturbed (new ++ log)) :
    Undisturbed log := every_append h

theorem Undisturbed.clear {new log : List LogEntry} (h : Undisturbed (new ++ log)) :
    ∀ x ∈ new, x.StartsClear := by
  intro x hx
  obtain ⟨newer, older, rfl⟩ := List.append_of_mem hx
  have hx' := every_iff.mp h newer x (older ++ log) (by simp)
  exact hx'.1

/-- Only a port that is to be no slave may have lost its parent without being told. -/
theorem Decide.selects {c c' : Core} {l l' : List LogEntry} (h : Decide c l c' l')
    (hinv : Selects ⟨c, l⟩) (hclear : Undisturbed l') :
    Selects ⟨c', l'⟩ ∨ c'.recommendedState = PTP_MASTER ∨ c'.recommendedState = PTP_PASSIVE ∨
      c'.recommendedState = PTP_LISTENING := by
  cases h with
  | none => exact .inl hinv
  | listen => exact .inr (.inr (.inr rfl))
  | lead b best reads p r hstate hevent hlisten hbest hreads hmem hr => exact .inr hr
  | follow b x best reads hstate hevent hlisten hbest hreads hmem hb hbc hx hxc changed =>
    left
    have hpass : b.Passes := LogEntry.passes_of_kind (by simp [hb, Call.kind])
    have hxparent : x.parent = c.parent := congrArg Core.parent hxc
    by_cases hparent :
        (c.foreignMasterDS.records best).header.sourcePortIdentity = c.parent
    · -- the parent is selected again
      have hpass' : x.Passes := LogEntry.passes_s1 hx (hparent.trans hxparent.symm)
      have hnew : ∀ y ∈ [x, b], y.Passes := by simpa using ⟨hpass', hpass⟩
      show Selects ⟨_, [x, b] ++ l⟩
      exact hinv.append rfl rfl hparent hnew
    · have hstarts : x.StartsCalibration := by
        unfold LogEntry.StartsCalibration
        rw [hx, hxparent]
        exact hparent
      have hbit := hclear.1.1 hstarts
      have hevents : x.before.events.MASTER_CLOCK_SELECTED = c.events.MASTER_CLOCK_SELECTED :=
        congrArg (fun c => c.events.MASTER_CLOCK_SELECTED) hxc
      exact .of_clear (hevents.symm.trans hbit)

/-- Entering UNCALIBRATED with the bit clear. -/
theorem Undisturbed.selects {x : LogEntry} {log : List LogEntry} (h : Undisturbed (x :: log))
    (hx : x.call = .toState PTP_UNCALIBRATED) : x.before.events.MASTER_CLOCK_SELECTED = false := by
  apply h.1.1
  unfold LogEntry.StartsCalibration
  rw [hx]

theorem Move.selects {c c' : Core} {l l' : List LogEntry} (h : Move c l c' l')
    (hinv : Selects ⟨c, l⟩ ∨ c.recommendedState = PTP_MASTER ∨ c.recommendedState = PTP_PASSIVE ∨
      c.recommendedState = PTP_LISTENING)
    (hfirst : CalibratedFirst ⟨c, l⟩) (hclear : Undisturbed l') : Calibrating ⟨c', l'⟩ := by
  have hslave : c.recommendedState = PTP_SLAVE → Selects ⟨c, l⟩ := by
    intro hrec
    rcases hinv with hinv | hr | hr | hr
    · exact hinv
    · rw [hrec] at hr
      cases hr
    · rw [hrec] at hr
      cases hr
    · rw [hrec] at hr
      cases hr
  cases h with
  | stay hsettled =>
    refine ⟨?_, hfirst⟩
    rcases hinv with hinv | hr | hr | hr
    · exact hinv
    · rw [Core.settled, hr] at hsettled
      refine .of_state fun hport : c.portState = _ => ?_
      rcases hsettled with hs | hs <;> rw [hport] at hs <;> cases hs
    · rw [Core.settled, hr] at hsettled
      refine .of_state fun hport : c.portState = _ => ?_
      rw [show c.portState = _ from hsettled] at hport
      cases hport
    · rw [Core.settled, hr] at hsettled
      refine .of_state fun hport : c.portState = _ => ?_
      rw [show c.portState = _ from hsettled] at hport
      cases hport
  | enter s x hs hx =>
    have hother : s ≠ PTP_UNCALIBRATED ∧ s ≠ PTP_SLAVE := by
      rcases hs with ⟨-, rfl | rfl | rfl⟩ | ⟨rfl, -⟩ <;> simp
    have hpass := LogEntry.passes_toState hx hother.1 hother.2
    have hno : ∀ y ∈ [x], ¬ y.Synchronizes := by simpa using hpass.synchronizes
    exact ⟨.of_state hother.1, hfirst.append hno⟩
  | uncalibrate x hrec hstate hx hxc =>
    have hno : ∀ y ∈ [x], ¬ y.Synchronizes := by simp [LogEntry.Synchronizes, hx]
    have hbit := hclear.selects hx
    have hevents : x.before.events = c.events := congrArg Core.events hxc
    refine ⟨.of_clear ?_, hfirst.append hno⟩
    rw [Core.enter_events, ← hevents]
    exact hbit
  | calibrated x hrec hstate hevent hx hxc =>
    refine ⟨.of_state (by simp), fun _ => ?_, hfirst⟩
    have hparent : x.parent = c.parent := congrArg Core.parent hxc
    unfold LogEntry.Calibrated
    rw [hparent]
    exact hslave hrec hstate hevent
  | calibrating hrec hstate hevent => exact ⟨.of_clear hevent, hfirst⟩
  | slave hrec hstate => exact ⟨hslave hrec, hfirst⟩
  | recalibrate x fault changed hrec hstate hx hxe =>
    have hno : ∀ y ∈ [x], ¬ y.Synchronizes := by simp [LogEntry.Synchronizes, hx]
    exact ⟨.of_clear (hxe.symm.trans (hclear.selects hx)),
      hfirst.append hno⟩
  | recalibrateTwice x y hrec hstate hx hy hxe hye =>
    have hno : ∀ z ∈ [y, x], ¬ z.Synchronizes := by simp [LogEntry.Synchronizes, hx, hy]
    exact ⟨.of_clear (hye.symm.trans (hclear.selects hy)), hfirst.append hno⟩

/-! ## Offsets -/

/-- A filtered offset sets the bit only if it is small. -/
theorem Filtered.selects {c c' : Core} {l new : List LogEntry} {u : LogEntry}
    (h : Filtered c c' new) (hcore : c.portState = PTP_UNCALIBRATED →
      c.events.MASTER_CLOCK_SELECTED →
        Since (fun y before => y.Calibrates before c.parent) LogEntry.StartsCalibration (u :: l))
    (hu : u.UpdatesOffset) (hof : c.portState = PTP_UNCALIBRATED → u.OffsetOf l c.parent) :
    Selects ⟨c', new ++ u :: l⟩ := by
  have hquiet : ∀ {q : LogEntry}, q.call.quiet → q.Passes ∧ q.Aside := by
    intro q hq
    have hnote : q.call.kind = .note := hq
    exact ⟨LogEntry.passes_of_kind (by simp [hnote]), LogEntry.aside_of_kind (by simp [hnote])⟩
  cases h with
  | far q fault hq =>
    intro hport hset
    exact .inr ⟨(hquiet hq).1.starts, hcore hport hset⟩
  | near q y n selected fault hq hy hyc hsel =>
    obtain ⟨hpassq, hasideq⟩ := hquiet hq
    have hpassy : y.Passes := LogEntry.passes_of_kind (by simp [hy, Call.kind])
    intro hport hset
    have hport' : c.portState = PTP_UNCALIBRATED := hport
    have hset' : (selected || c.events.MASTER_CLOCK_SELECTED) = true := hset
    cases hs : selected with
    | true =>
      obtain ⟨-, hseconds, hnanoseconds⟩ := hsel hs
      refine .inl ⟨hy, hseconds, hnanoseconds, .inr ⟨hasideq.offset, .inl ⟨hu, hof hport'⟩⟩⟩
    | false =>
      rw [hs] at hset'
      exact .inr ⟨hpassy.starts, .inr ⟨hpassq.starts, hcore hport' hset'⟩⟩

/-- An update in a port that is calibrated is one of the parent. -/
theorem Undisturbed.offsetOf {u : LogEntry} {new l : List LogEntry} {c : Core}
    (h : Undisturbed (new ++ u :: l)) (hentries : Every LogEntry.Measured (new ++ u :: l))
    (hu : u.UpdatesOffset) (hparent : u.parent = c.parent)
    (hstate : u.before.portDS.portState = c.portState) (hport : c.portState = PTP_UNCALIBRATED) :
    u.OffsetOf l c.parent := by
  obtain ⟨hmeasured, hbefore⟩ := every_append hentries
  have hkept := h.of_append.1.2 hu (hstate.trans hport)
  rw [← hparent]
  exact (hmeasured.offsetOf_iff hu hbefore).mpr hkept

theorem Measurement.selects {c c' : Core} {l l' : List LogEntry} (hm : Measurement c l c' l')
    (h : Selects ⟨c, l⟩) (hclear : Undisturbed l') (hentries : Every LogEntry.Measured l') :
    Selects ⟨c', l'⟩ := by
  have hcarry : ∀ {u : LogEntry}, u.UpdatesOffset → c.portState = PTP_UNCALIBRATED →
      c.events.MASTER_CLOCK_SELECTED →
        Since (fun y before => y.Calibrates before c.parent) LogEntry.StartsCalibration (u :: l) := by
    intro u hu hport hset
    have hpass : u.Passes := LogEntry.passes_of_kind (by simp [hu.kind])
    exact .inr ⟨hpass.starts, h hport hset⟩
  cases hm with
  | sync a time ha =>
    have hpass : ∀ x ∈ [a], x.Passes := by
      simpa using LogEntry.passes_of_kind (x := a) (by simp [ha, Call.kind])
    show Selects ⟨_, [a] ++ l⟩
    exact h.append rfl rfl rfl hpass
  | syncOffset r u time stack hmem hr htype htwo hsender hstate hu huc huh hmessage hfilter =>
    have hupdates : u.UpdatesOffset := by simp [LogEntry.UpdatesOffset, hu]
    apply hfilter.selects (hcarry hupdates) hupdates
    intro hport
    exact hclear.offsetOf hentries hupdates (congrArg Core.parent huc)
      (congrArg Core.portState huc) hport
  | followUp r u time stack hmem hr htype hsender hstate hwait hseq hu huc huh hmessage hfilter =>
    have hupdates : u.UpdatesOffset := by simp [LogEntry.UpdatesOffset, hu]
    apply hfilter.selects (hcarry hupdates) hupdates
    intro hport
    exact hclear.offsetOf hentries hupdates (congrArg Core.parent huc)
      (congrArg Core.portState huc) hport

/-! ## Runs -/

/-- A step after which the port is not calibrated. -/
theorem Engine.Calibrating.leave {c c' : Core} {l new : List LogEntry} (h : Calibrating ⟨c, l⟩)
    (hstate : c'.portState ≠ PTP_UNCALIBRATED) (hnew : ∀ x ∈ new, ¬ x.Synchronizes) :
    Calibrating ⟨c', new ++ l⟩ :=
  ⟨.of_state hstate, h.first.append hnew⟩

/-- A step that goes past calibration. -/
theorem Engine.Calibrating.past {c c' : Core} {l new : List LogEntry} (h : Calibrating ⟨c, l⟩)
    (hstate : c'.portState = c.portState)
    (hbit : c'.events.MASTER_CLOCK_SELECTED = c.events.MASTER_CLOCK_SELECTED)
    (hparent : c'.parent = c.parent) (hnew : ∀ x ∈ new, x.Passes) :
    Calibrating ⟨c', new ++ l⟩ :=
  ⟨h.selects.append hstate hbit hparent hnew,
    h.first.append fun x hx => (hnew x hx).synchronizes⟩

theorem Decide.first {c c' : Core} {l l' : List LogEntry} (h : Decide c l c' l')
    (hfirst : CalibratedFirst ⟨c, l⟩) : CalibratedFirst ⟨c', l'⟩ := by
  rcases h.log_cases with ⟨rfl, rfl⟩ | ⟨new, b, reads, rfl, hb, hnew⟩
  · exact hfirst
  · have hno : ∀ x ∈ new ++ [b], ¬ x.Synchronizes := by
      refine List.forall_mem_append.mpr ⟨fun x hx => ?_, by simp [LogEntry.Synchronizes, hb]⟩
      obtain ⟨header, announce, hs1⟩ := hnew x hx
      simp [LogEntry.Synchronizes, hs1]
    have happend : CalibratedFirst ⟨c', (new ++ [b]) ++ l⟩ := hfirst.append hno
    rw [List.append_assoc] at happend
    exact happend

theorem PeerExchange.events {c c' : Core} {l l' : List LogEntry} (h : PeerExchange c l c' l') :
    c'.events.MASTER_CLOCK_SELECTED = c.events.MASTER_CLOCK_SELECTED := by
  cases h <;> rfl

theorem Engine.Step.selects {e e' : Engine} (hstep : Step e e') (hclear : Undisturbed e'.log)
    (hattributed : e'.Attributed) (h : e.Calibrating) : e'.Calibrating := by
  cases hstep with
  | note x hx =>
    have hnote : x.call.kind = .note := hx
    have hnew : ∀ y ∈ [x], y.Passes := by simpa using LogEntry.passes_of_kind (by simp [hnote])
    exact h.past rfl rfl rfl hnew
  | startup x hx =>
    have hnew : ∀ y ∈ [x], ¬ y.Synchronizes := by simp [LogEntry.Synchronizes, hx]
    exact h.leave (by simp) hnew
  | toState s x hs hx =>
    have hnew : ∀ y ∈ [x], ¬ y.Synchronizes := by
      rcases hs with rfl | rfl | rfl <;> simp [LogEntry.Synchronizes, hx]
    exact h.leave (by rcases hs with rfl | rfl | rfl <;> simp) hnew
  | clockStep x time hx =>
    have hnew : ∀ y ∈ [x], y.Passes := by
      simpa using LogEntry.passes_of_kind (by simp [hx, Call.kind])
    show Calibrating ⟨_, [x] ++ _⟩
    exact h.past rfl rfl rfl hnew
  | initialise x id p slaveOnly hstate hx =>
    have hnew : ∀ y ∈ [x], ¬ y.Synchronizes := by simp [LogEntry.Synchronizes, hx]
    exact h.leave (by simp [Core.clockInit, hstate]) hnew
  | decision hdecide hmove =>
    obtain ⟨new, rfl, -⟩ := hmove.log_eq
    have hdecided := hdecide.selects h.selects hclear.of_append
    exact hmove.selects hdecided (hdecide.first h.first) hclear
  | timeoutMaster x y p hso hx hxc hy =>
    have hnew : ∀ z ∈ [y, x], ¬ z.Synchronizes := by simp [LogEntry.Synchronizes, hx, hy]
    exact h.leave (by simp) hnew
  | timeoutListen x y hso hx hxc hy =>
    have hnew : ∀ z ∈ [y, x], ¬ z.Synchronizes := by simp [LogEntry.Synchronizes, hx, hy]
    exact h.leave (by simp) hnew
  | timeoutStay x hso hstate hx =>
    have hnew : ∀ y ∈ [x], ¬ y.Synchronizes := by simp [LogEntry.Synchronizes, hx]
    exact h.leave (by simp [hstate]) hnew
  | announceParent a x header announce hstate hsender ha hac hx hxc =>
    have hparent : x.parent = _ := congrArg Core.parent hxc
    have hpass : x.Passes := LogEntry.passes_s1 hx (hsender.trans hparent.symm)
    have hnew : ∀ y ∈ [x, a], y.Passes := by
      simpa using ⟨hpass, LogEntry.passes_of_kind (by simp [ha, Call.kind])⟩
    show Calibrating ⟨_, [x, a] ++ _⟩
    exact h.past rfl rfl rfl hnew
  | announceForeign a x header announce hstate hsender ha hac hx =>
    have hnew : ∀ y ∈ [x, a], y.Passes := by
      simpa using ⟨LogEntry.passes_of_kind (by simp [hx, Call.kind]),
        LogEntry.passes_of_kind (by simp [ha, Call.kind])⟩
    show Calibrating ⟨_, [x, a] ++ _⟩
    exact h.past rfl rfl rfl hnew
  | measurement hm =>
    refine ⟨hm.selects h.selects hclear hattributed.entries, ?_⟩
    obtain ⟨new, rfl, hkind⟩ := hm.log_eq
    refine h.first.append fun x hx => (LogEntry.passes_of_kind ?_).synchronizes
    rcases hkind x hx with hk | hk <;> simp [hk]
  | delayResp r x time egress stale hmem hr htype hsender hstate hsamples hx =>
    have hnew : ∀ y ∈ [x], y.Passes := by
      simpa using LogEntry.passes_of_kind (by simp [hx, Call.kind])
    exact h.past rfl rfl rfl hnew
  | peer hpeer =>
    obtain ⟨hframe, hport⟩ := hpeer.frame
    have hbit := hpeer.events
    obtain ⟨new, rfl, hkind⟩ := hpeer.log_eq
    refine h.past hport hbit hframe.parent fun x hx => LogEntry.passes_of_kind ?_
    rcases hkind x hx with hk | hk <;> simp [hk]

theorem Engine.Initial.calibrating {e : Engine} (h : Engine.Initial e) : e.Calibrating := by
  obtain ⟨x, hlog, hx⟩ := h.log
  constructor
  · refine .of_state ?_
    rw [h.core]
    decide
  · unfold Engine.CalibratedFirst
    rw [hlog]
    exact ⟨fun hsync => by simp [LogEntry.Synchronizes, hx] at hsync, trivial⟩

/-- The port becomes SLAVE only after a small offset of the present parent, since
    UNCALIBRATED was entered and that parent selected, in every run in which the bit is
    clear then and each offset is one of the parent. -/
theorem slave_after_calibration {w : World} (hw : Reachable w) (hclear : Undisturbed w.log) :
    Every (fun x older => x.Synchronizes → x.Calibrated older) w.log := by
  have hinv : w.engine.Attributed ∧ w.engine.Calibrating :=
    @Reachable.invariant w hw (fun e => e.Attributed ∧ e.Calibrating)
      (fun e => Undisturbed e.log) (fun _ he => ⟨he.attributed, he.calibrating⟩)
      (fun _ _ hstep h => hstep.every_log h)
      (fun _ _ hstep h hinv =>
        ⟨hstep.attributed hinv.1, hstep.selects h (hstep.attributed hinv.1) hinv.2⟩) hclear
  exact hinv.2.first

/-! ## The bit that stays -/

/-- The board follows clock 9 and takes its Sync. -/
def syncedRun : World :=
  sampleRun .E2E [.doState, sampleAnnounce 9 200 1, .doState, .doState, sampleSync 9 1, .doState,
    .doState]

set_option maxRecDepth 3000 in
theorem slave_after_calibration_synced :
    Every (fun x older => x.Synchronizes → x.Calibrated older) syncedRun.log := by
  have hreach : Reachable syncedRun := reachable_sampleRun .E2E (by decide)
  exact slave_after_calibration hreach (by decide +kernel)

/-- The link comes up again after that Sync, and the clock is only announced. -/
def relinkedRun : World :=
  sampleRun .E2E [.doState, sampleAnnounce 9 200 1, .doState, .doState, sampleSync 9 1, .doState,
    .linkUp, sampleAnnounce 9 200 2, .doState, .doState, .doState]

/-- Some offset was filtered since calibration started. -/
def FilteredSince (log : List LogEntry) : Prop :=
  Since (fun y _ => y.call = .filteredOffset) LogEntry.StartsCalibration log

instance : DecidablePred FilteredSince := fun log => inferInstanceAs (Decidable (Since _ _ log))

theorem LogEntry.Calibrated.filteredSince {x : LogEntry} {older : List LogEntry}
    (h : x.Calibrated older) : FilteredSince older := h.imp fun _ _ hy => hy.1

set_option maxRecDepth 3000 in
/-- The port becomes SLAVE once more, with no offset. -/
theorem slave_without_calibration :
    ¬ ∀ w, Reachable w → Every (fun x older => x.Synchronizes → x.Calibrated older) w.log := by
  intro h
  have hreach : Reachable relinkedRun := reachable_sampleRun .E2E (by decide)
  have hfiltered := (h relinkedRun hreach).imp
    fun _ older hx hsync => LogEntry.Calibrated.filteredSince (hx hsync)
  exact absurd hfiltered (by decide +kernel)

end Ptpd
