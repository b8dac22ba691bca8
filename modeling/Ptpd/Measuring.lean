import Ptpd.Invariant

/-! # Which master an offset and a delay are of

    The receive time and the correction of a two-step Sync wait in the clock for
    the Follow_Up, and Tms waits there for the Delay_Resp. Each message is
    compared with the parent when it is handled; what waits is not, and selecting
    another parent leaves it where it is.
-/

namespace Ptpd

open PortState Engine History

/-! ## Messages and updates -/

/-- A two-step Sync is kept for its Follow_Up. -/
def LogEntry.AcceptsSync (x : LogEntry) : Prop :=
  match x.call with
  | .acceptSync _ => True
  | _ => False

instance : DecidablePred LogEntry.AcceptsSync := fun ⟨call, before⟩ => by
  apply @Call.casesOn (fun call => Decidable (LogEntry.AcceptsSync ⟨call, before⟩)) call
  all_goals intros
  all_goals first | exact .isTrue trivial | exact .isFalse id

def LogEntry.UpdatesOffset (x : LogEntry) : Prop :=
  match x.call with
  | .updateOffset .. => True
  | _ => False

instance : DecidablePred LogEntry.UpdatesOffset := fun ⟨call, before⟩ => by
  apply @Call.casesOn (fun call => Decidable (LogEntry.UpdatesOffset ⟨call, before⟩)) call
  all_goals intros
  all_goals first | exact .isTrue trivial | exact .isFalse id

def LogEntry.UpdatesDelay (x : LogEntry) : Prop :=
  match x.call with
  | .updateDelay .. => True
  | _ => False

instance : DecidablePred LogEntry.UpdatesDelay := fun ⟨call, before⟩ => by
  apply @Call.casesOn (fun call => Decidable (LogEntry.UpdatesDelay ⟨call, before⟩)) call
  all_goals intros
  all_goals first | exact .isTrue trivial | exact .isFalse id

theorem LogEntry.AcceptsSync.kind {x : LogEntry} (h : x.AcceptsSync) : x.call.kind = .offset := by
  unfold LogEntry.AcceptsSync at h
  split at h
  · next hcall =>
    rw [hcall]
    rfl
  · exact h.elim

theorem LogEntry.UpdatesOffset.kind {x : LogEntry} (h : x.UpdatesOffset) :
    x.call.kind = .offset := by
  unfold LogEntry.UpdatesOffset at h
  split at h
  · next hcall =>
    rw [hcall]
    rfl
  · exact h.elim

theorem LogEntry.UpdatesDelay.kind {x : LogEntry} (h : x.UpdatesDelay) : x.call.kind = .delay := by
  unfold LogEntry.UpdatesDelay at h
  split at h
  · next hcall =>
    rw [hcall]
    rfl
  · exact h.elim

/-- The parent when the call was made. -/
abbrev LogEntry.parent (x : LogEntry) : PortIdentity := x.before.parentDS.parentPortIdentity

/-! ## Where the numbers come from -/

/-- The offset is computed from the one-step Sync at hand, as it was received. -/
def LogEntry.OfOneStepSync (u : LogEntry) (older : List LogEntry) : Prop :=
  u.before.handles .SYNC ∧ ∃ time stack,
    (∃ r ∈ older, r.call = .received time ∧ r.before.msgTmpHeader = u.before.msgTmpHeader) ∧
    u.call = .updateOffset time
      (toInternalTime stack (msgUnpackSync u.before.msgIbuf).originTimestamp)
      u.before.correctionField

/-- The offset is computed from the Sync that `a` kept and the Follow_Up at hand. -/
def LogEntry.OfFollowUp (u a : LogEntry) : Prop :=
  u.before.handles .FOLLOW_UP ∧ a.before.handles .SYNC ∧ ∃ time stack,
    a.call = .acceptSync time ∧
    u.call = .updateOffset time
      (toInternalTime stack (msgUnpackFollowUp u.before.msgIbuf).preciseOriginTimestamp)
      (addTime u.before.correctionField a.before.correctionField)

/-- Every message that the offset is computed from is one of `p`. -/
def LogEntry.OffsetOf (u : LogEntry) (older : List LogEntry) (p : PortIdentity) : Prop :=
  u.before.sender = p ∧
    (u.OfOneStepSync older ∨
      Since (fun a _ => u.OfFollowUp a ∧ a.before.sender = p) LogEntry.AcceptsSync older)

/-- This is the time from the master to the slave that the call computes. -/
def LogEntry.Computes (u : LogEntry) (Tms : TimeInternal) : Prop :=
  ∃ ingress origin correctionField, u.call = .updateOffset ingress origin correctionField ∧
    Tms = subTime (subTime ingress origin) correctionField

/-- The delay is computed from the Delay_Resp at hand. -/
def LogEntry.OfDelayResp (x : LogEntry) : Prop :=
  x.before.handles .DELAY_RESP ∧ ∃ egress stale,
    x.call = .updateDelay egress
      (toInternalTime stale (msgUnpackDelayResp x.before.msgIbuf).receiveTimestamp)
      x.before.correctionField

/-- The Delay_Resp is one of `p`, and so is every message that Tms is computed from. -/
def LogEntry.DelayOf (x : LogEntry) (older : List LogEntry) (p : PortIdentity) : Prop :=
  x.before.sender = p ∧ x.OfDelayResp ∧
    Since (fun u before => u.Computes x.before.Tms ∧ u.OffsetOf before p)
      LogEntry.UpdatesOffset older

/-! ## What the code does not check -/

/-- The parent is the one that the Sync was taken from. -/
def LogEntry.KeepsParent (u : LogEntry) (older : List LogEntry) : Prop :=
  u.before.handles .FOLLOW_UP →
    Since (fun a _ => a.AcceptsSync ∧ a.parent = u.parent) LogEntry.AcceptsSync older

instance (u : LogEntry) (older : List LogEntry) : Decidable (u.KeepsParent older) :=
  inferInstanceAs (Decidable (_ → Since _ _ older))

/-- The parent is the one of the last offset, and was kept for that. -/
def LogEntry.KeepsOffsetParent (x : LogEntry) (older : List LogEntry) : Prop :=
  Since (fun u before => u.UpdatesOffset ∧ u.parent = x.parent ∧ u.KeepsParent before)
    LogEntry.UpdatesOffset older

instance (x : LogEntry) (older : List LogEntry) : Decidable (x.KeepsOffsetParent older) :=
  inferInstanceAs (Decidable (Since _ _ older))

/-! ## What the code does check -/

/-- What holds of each entry. -/
structure LogEntry.Measured (x : LogEntry) (older : List LogEntry) : Prop where
  sync : x.AcceptsSync → x.before.sender = x.parent
  offset : x.UpdatesOffset → x.before.sender = x.parent ∧
    (x.OfOneStepSync older ∨ Since (fun a _ => x.OfFollowUp a) LogEntry.AcceptsSync older)
  delay : x.UpdatesDelay → x.before.sender = x.parent ∧ x.OfDelayResp ∧
    Since (fun u _ => u.Computes x.before.Tms) LogEntry.UpdatesOffset older

theorem LogEntry.measured_of_kind {x : LogEntry}
    (h : x.call.kind ≠ .offset ∧ x.call.kind ≠ .delay) (older : List LogEntry) :
    x.Measured older :=
  ⟨fun hsync => absurd hsync.kind h.1, fun hoffset => absurd hoffset.kind h.1,
    fun hdelay => absurd hdelay.kind h.2⟩

theorem LogEntry.OfFollowUp.accepts {u a : LogEntry} (h : u.OfFollowUp a) : a.AcceptsSync := by
  obtain ⟨-, -, time, stack, ha, -⟩ := h
  unfold LogEntry.AcceptsSync
  rw [ha]
  trivial

theorem LogEntry.Computes.updates {u : LogEntry} {Tms : TimeInternal} (h : u.Computes Tms) :
    u.UpdatesOffset := by
  obtain ⟨ingress, origin, correctionField, hu, -⟩ := h
  unfold LogEntry.UpdatesOffset
  rw [hu]
  trivial

theorem LogEntry.not_both {u : LogEntry} {older : List LogEntry} (h : u.OfOneStepSync older) :
    ¬ u.before.handles .FOLLOW_UP := by
  intro hfollow
  have hsync : MessageType.ofCode u.before.msgTmpHeader.messageType = some .SYNC := h.1
  have hfollow' : MessageType.ofCode u.before.msgTmpHeader.messageType = some .FOLLOW_UP := hfollow
  rw [hsync] at hfollow'
  cases hfollow'

/-- An offset is one of the parent exactly if the parent was kept. -/
theorem LogEntry.Measured.offsetOf_iff {u : LogEntry} {older : List LogEntry}
    (h : u.Measured older) (hu : u.UpdatesOffset) (hbefore : Every LogEntry.Measured older) :
    u.OffsetOf older u.parent ↔ u.KeepsParent older := by
  obtain ⟨hsender, hmessages⟩ := h.offset hu
  constructor
  · rintro ⟨-, honeStep | hsync⟩ hfollow
    · exact absurd hfollow (LogEntry.not_both honeStep)
    · refine (hsync.and_every hbefore).imp fun a _ ⟨⟨hof, hparent⟩, ha⟩ => ?_
      exact ⟨hof.accepts, (ha.sync hof.accepts).symm.trans hparent⟩
  · intro hkept
    refine ⟨hsender, hmessages.imp id ?_⟩
    intro hsync
    have hfollow : u.before.handles .FOLLOW_UP := by
      obtain ⟨-, a, -, -, ⟨hfollow, -⟩, -⟩ := since_iff.mp hsync
      exact hfollow
    have hboth := hsync.and (fun a _ hof => hof.accepts) (fun a _ ha => ha.1) (hkept hfollow)
    refine (hboth.and_every hbefore).imp fun a _ ⟨⟨hof, haccepts, hparent⟩, ha⟩ => ?_
    exact ⟨hof, (ha.sync haccepts).trans hparent⟩

/-- A delay is one of the parent exactly if the parent was kept since the offset. -/
theorem LogEntry.Measured.delayOf_iff {x : LogEntry} {older : List LogEntry}
    (h : x.Measured older) (hx : x.UpdatesDelay) (hbefore : Every LogEntry.Measured older)
    (hoffsets : Every (fun u before => u.UpdatesOffset →
      (u.OffsetOf before u.parent ↔ u.KeepsParent before)) older) :
    x.DelayOf older x.parent ↔ x.KeepsOffsetParent older := by
  obtain ⟨hsender, hresp, hTms⟩ := h.delay hx
  constructor
  · rintro ⟨-, -, hoffset⟩
    refine ((hoffset.and_every hbefore).and_every hoffsets).imp
      fun u before ⟨⟨⟨hcomputes, hof⟩, hu⟩, hiff⟩ => ?_
    have hupdates := hcomputes.updates
    have hparent : u.parent = x.parent := (hu.offset hupdates).1.symm.trans hof.1
    exact ⟨hupdates, hparent, (hiff hupdates).mp (hparent ▸ hof)⟩
  · intro hkept
    refine ⟨hsender, hresp, ?_⟩
    have hboth := hTms.and (fun u _ hcomputes => hcomputes.updates) (fun u _ hu => hu.1) hkept
    refine (hboth.and_every hoffsets).imp
      fun u before ⟨⟨hcomputes, hupdates, hparent, hkeeps⟩, hiff⟩ => ?_
    exact ⟨hcomputes, hparent ▸ (hiff hupdates).mpr hkeeps⟩

/-! ## What waits in the clock -/

/-- The messages of an offset are as they were. -/
structure Core.KeepsMessages (c c' : Core) : Prop where
  waiting : c'.waitingForFollowUp = c.waitingForFollowUp
  timestamp : c'.timestamp_syncRecieve = c.timestamp_syncRecieve
  correction : c'.correctionField_sync = c.correctionField_sync
  Tms : c'.Tms = c.Tms
  samples : c'.offsetSamples = c.offsetSamples

/-- Nothing is waited for, and no offset has been filtered. -/
structure Core.Forgets (c : Core) : Prop where
  waiting : c.waitingForFollowUp = false
  samples : c.offsetSamples = 0

theorem Core.KeepsMessages.trans {c c' c'' : Core} (h : c.KeepsMessages c')
    (h' : c'.KeepsMessages c'') : c.KeepsMessages c'' :=
  ⟨h'.1.trans h.1, h'.2.trans h.2, h'.3.trans h.3, h'.4.trans h.4, h'.5.trans h.5⟩

theorem Core.enter_messages (c : Core) (s : PortState) :
    c.KeepsMessages (c.enter s) ∨ (c.enter s).Forgets := by
  unfold Core.enter Core.leave
  by_cases hrestart : c.portState.restarts s = true
  · rw [if_pos hrestart]
    exact .inr ⟨rfl, rfl⟩
  · rw [if_neg hrestart]
    exact .inl ⟨rfl, rfl, rfl, rfl, rfl⟩

theorem Decide.messages {c c' : Core} {l l' : List LogEntry} (h : Decide c l c' l') :
    c.KeepsMessages c' := by
  cases h <;> exact ⟨rfl, rfl, rfl, rfl, rfl⟩

theorem Move.messages {c c' : Core} {l l' : List LogEntry} (h : Move c l c' l') :
    c.KeepsMessages c' ∨ c'.Forgets := by
  cases h with
  | enter s => exact c.enter_messages s
  | uncalibrate => exact c.enter_messages _
  | stay | calibrated | calibrating | slave | recalibrate | recalibrateTwice =>
    exact .inl ⟨rfl, rfl, rfl, rfl, rfl⟩

theorem PeerExchange.messages {c c' : Core} {l l' : List LogEntry}
    (h : PeerExchange c l c' l') : c.KeepsMessages c' := by
  cases h <;> exact ⟨rfl, rfl, rfl, rfl, rfl⟩

/-- The entries of a decision are about no measurement. -/
theorem decision_log {c c₁ c₂ : Core} {l l₁ l₂ : List LogEntry} (hdecide : Decide c l c₁ l₁)
    (hmove : Move c₁ l₁ c₂ l₂) :
    ∃ new, l₂ = new ++ l ∧ ∀ x ∈ new, x.call.kind ≠ .offset ∧ x.call.kind ≠ .delay := by
  obtain ⟨new', rfl, hnew'⟩ := hmove.log_eq
  have hmoves : ∀ x ∈ new', x.call.kind ≠ .offset ∧ x.call.kind ≠ .delay := by
    intro x hx
    obtain ⟨s, hs⟩ := hnew' x hx
    simp [hs, Call.kind]
  rcases hdecide.log_cases with ⟨-, rfl⟩ | ⟨new, b, reads, rfl, hb, hnew⟩
  · exact ⟨new', rfl, hmoves⟩
  · refine ⟨new' ++ (new ++ [b]), by simp, List.forall_mem_append.mpr ⟨hmoves, ?_⟩⟩
    refine List.forall_mem_append.mpr ⟨fun x hx => ?_, by simp [hb, Call.kind]⟩
    obtain ⟨header, announce, hs1⟩ := hnew x hx
    simp [hs1, Call.kind]

/-- Correction, type and sender are all read from the header. -/
theorem PtpClock.header_congr {c c' : PtpClock} (h : c.msgTmpHeader = c'.msgTmpHeader) :
    c.correctionField = c'.correctionField ∧ (∀ t, c.handles t ↔ c'.handles t) ∧
      c.sender = c'.sender := by
  unfold PtpClock.correctionField PtpClock.handles PtpClock.sender
  rw [h]
  exact ⟨rfl, fun _ => Iff.rfl, rfl⟩

/-- The entries of a step that measures nothing. -/
structure Engine.Idle (e e' : Engine) : Prop where
  log : ∃ new, e'.log = new ++ e.log ∧ ∀ x ∈ new, x.call.kind ≠ .offset ∧ x.call.kind ≠ .delay
  core : e.core.KeepsMessages e'.core ∨ e'.core.Forgets

/-- A step measures an offset, or a delay, or nothing. -/
theorem Engine.Step.measures {e e' : Engine} (h : Step e e') :
    Measurement e.core e.log e'.core e'.log ∨ e.Idle e' ∨
      ∃ x, e' = ⟨e.core, x :: e.log⟩ ∧ x.before.core = e.core ∧ x.before.sender = e.core.parent ∧
        x.OfDelayResp ∧ e.core.offsetSamples ≠ 0 := by
  -- all but the first two leave Tms and the kept Sync alone, or clear them
  cases h with
  | measurement h => exact .inl h
  | @delayResp c l r x time egress stale hmem hr htype hsender hstate hsamples hx hxc hmessage =>
    obtain ⟨hheader, hbuf⟩ := hmessage
    obtain ⟨hcorrection, hhandles, hsame⟩ := PtpClock.header_congr hheader
    rw [← hbuf, ← hcorrection] at hx
    exact .inr (.inr ⟨x, rfl, hxc, hsame.trans hsender, ⟨(hhandles _).mpr htype, egress, stale, hx⟩,
      hsamples⟩)
  | note x hx =>
    have hquiet : x.call.kind = .note := hx
    exact .inr (.inl ⟨⟨[x], rfl, by simp [hquiet]⟩, .inl ⟨rfl, rfl, rfl, rfl, rfl⟩⟩)
  | startup x hx =>
    exact .inr (.inl ⟨⟨[x], rfl, by simp [hx, Call.kind]⟩,
      (Core.enter_messages _ _).imp_left fun hkeeps => ⟨hkeeps.1, hkeeps.2, hkeeps.3, hkeeps.4, hkeeps.5⟩⟩)
  | @toState c l s x hs hx =>
    exact .inr (.inl ⟨⟨[x], rfl, by simp [hx, Call.kind]⟩, c.enter_messages s⟩)
  | clockStep x time hx =>
    exact .inr (.inl ⟨⟨[x], rfl, by simp [hx, Call.kind]⟩, .inr ⟨rfl, rfl⟩⟩)
  | initialise x id p slaveOnly hstate hx =>
    exact .inr (.inl ⟨⟨[x], rfl, by simp [hx, Call.kind]⟩, .inr ⟨rfl, rfl⟩⟩)
  | decision hdecide hmove =>
    exact .inr (.inl ⟨decision_log hdecide hmove, hmove.messages.imp_left hdecide.messages.trans⟩)
  | timeoutMaster x y p hso hx hxc hy =>
    exact .inr (.inl ⟨⟨[y, x], rfl, by simp [hx, hy, Call.kind]⟩,
      (Core.enter_messages _ _).imp_left fun hkeeps => ⟨hkeeps.1, hkeeps.2, hkeeps.3, hkeeps.4, hkeeps.5⟩⟩)
  | timeoutListen x y hso hx hxc hy =>
    exact .inr (.inl ⟨⟨[y, x], rfl, by simp [hx, hy, Call.kind]⟩,
      (Core.enter_messages _ _).imp_left fun hkeeps => ⟨hkeeps.1, hkeeps.2, hkeeps.3, hkeeps.4, hkeeps.5⟩⟩)
  | timeoutStay x hso hstate hx =>
    exact .inr (.inl ⟨⟨[x], rfl, by simp [hx, Call.kind]⟩, .inl ⟨rfl, rfl, rfl, rfl, rfl⟩⟩)
  | announceParent a x header announce hstate hsender ha hac hx =>
    exact .inr (.inl ⟨⟨[x, a], rfl, by simp [hx, ha, Call.kind]⟩, .inl ⟨rfl, rfl, rfl, rfl, rfl⟩⟩)
  | announceForeign a x header announce hstate hsender ha hac hx =>
    exact .inr (.inl ⟨⟨[x, a], rfl, by simp [hx, ha, Call.kind]⟩, .inl ⟨rfl, rfl, rfl, rfl, rfl⟩⟩)
  | peer h =>
    obtain ⟨new, heq, hnew⟩ := h.log_eq
    refine .inr (.inl ⟨⟨new, heq, fun x hx => ?_⟩, .inl h.messages⟩)
    rcases hnew x hx with hk | hk <;> simp [hk]

/-! ## The invariant -/

/-- What waits for a Follow_Up is from the last Sync kept, and Tms is from the last
    offset, once one has been filtered. -/
structure Engine.Attributed (e : Engine) : Prop where
  sync : e.core.waitingForFollowUp →
    Since (fun a _ => a.before.handles .SYNC ∧ a.call = .acceptSync e.core.timestamp_syncRecieve ∧
      a.before.correctionField = e.core.correctionField_sync) LogEntry.AcceptsSync e.log
  offset : e.core.offsetSamples ≠ 0 →
    Since (fun u _ => u.Computes e.core.Tms) LogEntry.UpdatesOffset e.log
  entries : Every LogEntry.Measured e.log

/-- Neither a Sync is kept nor an offset or a delay computed. -/
structure LogEntry.Aside (x : LogEntry) : Prop where
  sync : ¬ x.AcceptsSync
  offset : ¬ x.UpdatesOffset
  delay : ¬ x.UpdatesDelay

theorem LogEntry.aside_of_kind {x : LogEntry} (h : x.call.kind ≠ .offset ∧ x.call.kind ≠ .delay) :
    x.Aside :=
  ⟨fun hsync => h.1 hsync.kind, fun hoffset => h.1 hoffset.kind, fun hdelay => h.2 hdelay.kind⟩

theorem LogEntry.Aside.measured {x : LogEntry} (h : x.Aside) (older : List LogEntry) :
    x.Measured older :=
  ⟨fun hsync => absurd hsync h.sync, fun hoffset => absurd hoffset h.offset,
    fun hdelay => absurd hdelay h.delay⟩

theorem Filtered.aside {c c' : Core} {new : List LogEntry} (h : Filtered c c' new) :
    ∀ x ∈ new, x.Aside := by
  have hquiet : ∀ {q : LogEntry}, q.call.quiet → q.Aside := by
    intro q hq
    have hnote : q.call.kind = .note := hq
    exact LogEntry.aside_of_kind (by simp [hnote])
  cases h with
  | far q fault hq => simpa using hquiet hq
  | near q y n selected fault hq hy =>
    have hfiltered : y.Aside := by
      constructor
      · simp [LogEntry.AcceptsSync, hy]
      · simp [LogEntry.UpdatesOffset, hy]
      · simp [LogEntry.UpdatesDelay, hy]
    simpa using ⟨hfiltered, hquiet hq⟩

theorem Engine.Attributed.idle {e e' : Engine} (h : e.Attributed) (hidle : e.Idle e') :
    e'.Attributed := by
  obtain ⟨⟨new, hlog, hnew⟩, hcore⟩ := hidle
  have haside : ∀ x ∈ new, x.Aside := fun x hx => LogEntry.aside_of_kind (hnew x hx)
  obtain ⟨hsync, hoffset, hentries⟩ := h
  constructor
  · intro hwait
    rcases hcore with hkeeps | hforgets
    · rw [hlog, hkeeps.timestamp, hkeeps.correction]
      exact (hsync (hkeeps.waiting ▸ hwait)).append fun x hx => (haside x hx).sync
    · rw [hforgets.waiting] at hwait
      cases hwait
  · intro hsamples
    rcases hcore with hkeeps | hforgets
    · rw [hlog, hkeeps.Tms]
      exact (hoffset (hkeeps.samples ▸ hsamples)).append fun x hx => (haside x hx).offset
    · exact absurd hforgets.samples hsamples
  · rw [hlog]
    exact hentries.append fun x hx older => (haside x hx).measured older

/-- An offset is computed, and no Sync is waiting then. -/
theorem Engine.Attributed.computed {c c' : Core} {l new : List LogEntry} {u : LogEntry}
    (h : Attributed ⟨c, l⟩) (hwait : c'.waitingForFollowUp = false) (hcomputes : u.Computes c'.Tms)
    (hu : u.Measured l) (hnew : ∀ x ∈ new, x.Aside) : Attributed ⟨c', new ++ u :: l⟩ := by
  constructor
  · intro hwait'
    rw [show (⟨c', new ++ u :: l⟩ : Engine).core.waitingForFollowUp = false from hwait] at hwait'
    cases hwait'
  · intro _
    have hlast : Since (fun u _ => u.Computes c'.Tms) LogEntry.UpdatesOffset (u :: l) :=
      .inl hcomputes
    exact hlast.append fun x hx => (hnew x hx).offset
  · have hentries : Every LogEntry.Measured (u :: l) := ⟨hu, h.entries⟩
    exact hentries.append fun x hx older => (hnew x hx).measured older

/-- The parent of an entry made in this state. -/
theorem LogEntry.parent_eq {x : LogEntry} {c : Core} (h : x.before.core = c) :
    x.parent = c.parent := congrArg Core.parent h

theorem Measurement.attributed {c c' : Core} {l l' : List LogEntry} (hm : Measurement c l c' l')
    (h : Attributed ⟨c, l⟩) : Attributed ⟨c', l'⟩ := by
  cases hm with
  | sync a time ha hac htype htwo hsender =>
    have hno : ¬ a.UpdatesOffset := by simp [LogEntry.UpdatesOffset, ha]
    have hnodelay : ¬ a.UpdatesDelay := by simp [LogEntry.UpdatesDelay, ha]
    refine ⟨fun _ => .inl ⟨htype, ha, rfl⟩, fun hsamples => .inr ⟨hno, h.offset hsamples⟩, ?_,
      h.entries⟩
    exact ⟨fun _ => hsender.trans (LogEntry.parent_eq hac).symm, fun hupdates => absurd hupdates hno,
      fun hupdates => absurd hupdates hnodelay⟩
  | @syncOffset c' new r u time stack hmem hr htype htwo hsender hstate hu huc huh hmessage hfilter =>
    obtain ⟨n, selected, fault, hcore⟩ := hfilter.core_eq
    obtain ⟨hheader, hbuf⟩ := hmessage
    obtain ⟨hcorrection, -, hsame⟩ := PtpClock.header_congr hheader
    rw [← hbuf, ← hcorrection] at hu hcore
    have hof : u.OfOneStepSync l := ⟨huh, time, stack, ⟨r, hmem, hr, hheader.symm⟩, hu⟩
    refine h.computed (by rw [hcore]) ⟨_, _, _, hu, by rw [hcore]⟩ ?_ hfilter.aside
    refine ⟨fun hsync => ?_, fun _ => ⟨?_, .inl hof⟩, fun hdelay => ?_⟩
    · simp [LogEntry.AcceptsSync, hu] at hsync
    · rw [LogEntry.parent_eq huc]
      exact hsame.trans hsender
    · simp [LogEntry.UpdatesDelay, hu] at hdelay
  | @followUp c' new r u time stack hmem hr htype hsender hstate hwait hseq hu huc huh hmessage
      hfilter =>
    obtain ⟨n, selected, fault, hcore⟩ := hfilter.core_eq
    obtain ⟨hheader, hbuf⟩ := hmessage
    obtain ⟨hcorrection, -, hsame⟩ := PtpClock.header_congr hheader
    rw [← hbuf, ← hcorrection] at hu hcore
    -- the Sync that waits is the one that was accepted last
    have hof : Since (fun a _ => u.OfFollowUp a) LogEntry.AcceptsSync l := by
      refine (h.sync hwait).imp fun a _ ⟨hsync, ha, hfield⟩ => ?_
      exact ⟨huh, hsync, _, stack, ha, hfield.symm ▸ hu⟩
    refine h.computed (by rw [hcore]) ⟨_, _, _, hu, by rw [hcore]⟩ ?_ hfilter.aside
    refine ⟨fun hsync => ?_, fun _ => ⟨?_, .inr hof⟩, fun hdelay => ?_⟩
    · simp [LogEntry.AcceptsSync, hu] at hsync
    · rw [LogEntry.parent_eq huc]
      exact hsame.trans hsender
    · simp [LogEntry.UpdatesDelay, hu] at hdelay

theorem Engine.Step.attributed {e e' : Engine} (hstep : Step e e') (h : e.Attributed) :
    e'.Attributed := by
  rcases hstep.measures with hm | hidle | ⟨x, rfl, hxc, hsender, hresp, hsamples⟩
  · exact hm.attributed h
  · exact h.idle hidle
  · have hcall : ∃ egress recieve correctionField,
        x.call = .updateDelay egress recieve correctionField := by
      obtain ⟨-, egress, stale, hx⟩ := hresp
      exact ⟨egress, _, _, hx⟩
    obtain ⟨egress, recieve, correctionField, hx⟩ := hcall
    have hnosync : ¬ x.AcceptsSync := by simp [LogEntry.AcceptsSync, hx]
    have hno : ¬ x.UpdatesOffset := by simp [LogEntry.UpdatesOffset, hx]
    refine ⟨fun hwait => .inr ⟨hnosync, h.sync hwait⟩, fun hne => .inr ⟨hno, h.offset hne⟩, ?_,
      h.entries⟩
    refine ⟨fun hsync => absurd hsync hnosync, fun hoffset => absurd hoffset hno, ?_⟩
    intro _
    have hTms : x.before.Tms = e.core.Tms := congrArg Core.Tms hxc
    refine ⟨hsender.trans (LogEntry.parent_eq hxc).symm, hresp, ?_⟩
    rw [hTms]
    exact h.offset hsamples

theorem Engine.Initial.attributed {e : Engine} (h : Engine.Initial e) : e.Attributed := by
  obtain ⟨x, hlog, hx⟩ := h.log
  constructor
  · rw [h.core]
    intro hwait
    cases hwait
  · rw [h.core]
    intro hne
    exact absurd rfl hne
  · rw [hlog]
    exact ⟨LogEntry.measured_of_kind (by simp [hx, Call.kind]) _, trivial⟩

theorem Reachable.measured {w : World} (hw : Reachable w) : Every LogEntry.Measured w.log := by
  have hinv : w.engine.Attributed :=
    @Reachable.invariant w hw Engine.Attributed (fun _ => True) (fun _ he => he.attributed)
      (fun _ _ _ _ => trivial) (fun _ _ hstep _ h => hstep.attributed h) trivial
  exact hinv.entries

/-- Where the offsets are those of the parent it was kept. -/
theorem Reachable.keepsParent_of {w : World} (hw : Reachable w)
    (h : Every (fun x older =>
      (x.UpdatesOffset → x.before.handles .FOLLOW_UP → x.OffsetOf older x.parent) ∧
      (x.UpdatesDelay → x.DelayOf older x.parent)) w.log) :
    Every (fun x older => x.UpdatesOffset → x.KeepsParent older) w.log := by
  have hmeasured := hw.measured.before
  rw [every_iff] at h hmeasured ⊢
  intro newer x older hlog hu hfollow
  obtain ⟨hx, hbefore⟩ := hmeasured newer x older hlog
  exact (hx.offsetOf_iff hu hbefore).mp ((h newer x older hlog).1 hu hfollow) hfollow

/-- In every run each offset of a Follow_Up is of the parent exactly if that is the one
    that the Sync was taken from, and each delay exactly if it is the one of the offset. -/
theorem measured_of_parent_iff {w : World} (hw : Reachable w) :
    Every (fun x older =>
      (x.UpdatesOffset → x.before.handles .FOLLOW_UP →
        (x.OffsetOf older x.parent ↔ x.KeepsParent older)) ∧
      (x.UpdatesDelay → (x.DelayOf older x.parent ↔ x.KeepsOffsetParent older))) w.log := by
  refine hw.measured.before.imp fun x older ⟨hx, hbefore⟩ => ?_
  have hoffsets : Every (fun u before => u.UpdatesOffset →
      (u.OffsetOf before u.parent ↔ u.KeepsParent before)) older :=
    hbefore.before.imp fun u before ⟨hu, hbefore'⟩ hupdates => hu.offsetOf_iff hupdates hbefore'
  exact ⟨fun hu _ => hx.offsetOf_iff hu hbefore, fun hu => hx.delayOf_iff hu hbefore hoffsets⟩

/-! ## Two masters -/

/-- A two-step Sync of a clock. -/
def sampleTwoStepSync (source sequenceId : UInt8) : Input :=
  .netRecvEventCallback (samplePacket (sampleMessage .SYNC FLAG0_TWO_STEP source sequenceId
    [0, 0, 0, 0, 0, 0, 0, 0, 0, 0]) 100)

/-- Its Follow_Up. -/
def sampleFollowUp (source sequenceId : UInt8) : Input :=
  .netRecvGeneralCallback (samplePacket (sampleMessage .FOLLOW_UP 0 source sequenceId
    [0, 0, 0, 0, 0, 100, 0, 0, 0, 0]) 0)

/-- The board follows clock 9, and takes its Sync with number 5. -/
def syncTaken : List Input :=
  [.doState, sampleAnnounce 9 200 1, .doState, .doState, sampleTwoStepSync 9 5, .doState]

/-- The Follow_Up comes from clock 9 as well. -/
def followedRun : World := sampleRun .E2E (syncTaken ++ [sampleFollowUp 9 5, .doState])

set_option maxRecDepth 3000 in
theorem measured_of_parent_followed :
    Every (fun x older =>
      (x.UpdatesOffset → x.before.handles .FOLLOW_UP →
        (x.OffsetOf older x.parent ↔ x.KeepsParent older)) ∧
      (x.UpdatesDelay → (x.DelayOf older x.parent ↔ x.KeepsOffsetParent older)))
      followedRun.log := by
  have hreach : Reachable followedRun := reachable_sampleRun .E2E (by decide)
  exact measured_of_parent_iff hreach

/-- Clock 8 is selected, and the numbers of its messages are the same. -/
def parentChanged : World :=
  sampleRun .E2E (syncTaken ++ [sampleAnnounce 8 230 1, .doState, sampleFollowUp 8 5, .doState])

set_option maxRecDepth 3000 in
/-- The Sync of clock 9 is combined with the Follow_Up of clock 8. -/
theorem follow_up_of_another_master :
    ¬ ∀ w, Reachable w → Every (fun x older =>
      (x.UpdatesOffset → x.before.handles .FOLLOW_UP → x.OffsetOf older x.parent) ∧
      (x.UpdatesDelay → x.DelayOf older x.parent)) w.log := by
  intro h
  have hreach : Reachable parentChanged := reachable_sampleRun .E2E (by decide)
  have hoffsets := h parentChanged hreach
  have hkept := hreach.keepsParent_of hoffsets
  exact absurd hkept (by decide +kernel)

end Ptpd
