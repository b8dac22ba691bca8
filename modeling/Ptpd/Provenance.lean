import Ptpd.Measuring
import Ptpd.Refinement.Traffic

/-! # Where the masters come from

    A port follows only a master that has announced itself to it, although the
    table is emptied without its indices being reset, and `bmc` may then read
    records that are no longer live: the slots that it can read are ones that an
    Announce was written to. Every offset is computed from a message that was
    received from the parent.
-/

namespace Ptpd

open PortState Engine History

/-- An Announce with this header and this content was accepted. -/
def Accepted (log : List LogEntry) (header : MsgHeader) (announce : MsgAnnounce) : Prop :=
  ∃ a ∈ log, a.call = .acceptAnnounce header announce

variable {header : MsgHeader} {announce : MsgAnnounce} {l new : List LogEntry} {c c' : Core}

theorem Accepted.append (h : Accepted l header announce) (new : List LogEntry) :
    Accepted (new ++ l) header announce := by
  obtain ⟨a, ha, hcall⟩ := h
  exact ⟨a, List.mem_append_right new ha, hcall⟩

/-! ## The slots that were written -/

/-- The first `n` slots of the table hold Announces that were accepted. The
    slots are taken in order as long as some are free. -/
structure Filled (c : Core) (l : List LogEntry) (n : Nat) : Prop where
  accepted : ∀ k < n,
    Accepted l (c.foreignMasterDS.records k).header (c.foreignMasterDS.records k).announce
  count_le : c.foreignMasterDS.count ≤ n
  i_le : c.foreignMasterDS.i ≤ n
  order : n < c.foreignMasterDS.capacity → c.foreignMasterDS.count ≤ c.foreignMasterDS.i
  pos : c.events.STATE_DECISION_EVENT ∨ c.recommendedState = PTP_SLAVE → 0 < n

/-- The table and the parent come from Announces that were accepted. -/
structure Engine.Sourced (e : Engine) : Prop where
  consistent : e.core.Consistent
  filled : ∃ n, Filled e.core e.log n
  parent : e.core.recommendedState = PTP_SLAVE → ∃ header announce,
    Accepted e.log header announce ∧ e.core.parent = header.sourcePortIdentity

theorem Filled.append {n : Nat} (h : Filled c l n) (new : List LogEntry) :
    Filled c (new ++ l) n :=
  ⟨fun k hk => (h.accepted k hk).append new, h.count_le, h.i_le, h.order, h.pos⟩

/-- The table is the same, and no state decision has become due. -/
theorem Filled.congr {n : Nat} (h : Filled c l n)
    (hds : c'.foreignMasterDS = c.foreignMasterDS)
    (hpos : c'.events.STATE_DECISION_EVENT ∨ c'.recommendedState = PTP_SLAVE →
      c.events.STATE_DECISION_EVENT ∨ c.recommendedState = PTP_SLAVE) : Filled c' l n := by
  constructor
  · rw [hds]
    exact h.accepted
  · rw [hds]
    exact h.count_le
  · rw [hds]
    exact h.i_le
  · rw [hds]
    exact h.order
  · intro hdue
    exact h.pos (hpos hdue)

/-- The table is emptied: the records stay. -/
theorem Filled.empty {n : Nat} (h : Filled c l n)
    (hrecords : c'.foreignMasterDS.records = c.foreignMasterDS.records)
    (hcount : c'.foreignMasterDS.count = 0)
    (hi : c'.foreignMasterDS.i ≤ c.foreignMasterDS.i)
    (hpos : c'.events.STATE_DECISION_EVENT ∨ c'.recommendedState = PTP_SLAVE →
      c.events.STATE_DECISION_EVENT ∨ c.recommendedState = PTP_SLAVE) : Filled c' l n := by
  constructor
  · rw [hrecords]
    exact h.accepted
  · rw [hcount]
    exact Nat.zero_le n
  · exact hi.trans h.i_le
  · intro _
    rw [hcount]
    exact Nat.zero_le _
  · intro hdue
    exact h.pos (hpos hdue)

/-! ## An Announce is written -/

theorem ForeignMasterDS.search_pos {ds : ForeignMasterDS} {id : PortIdentity} {n : Nat}
    (h : ds.search id ds.count ds.best = some n) : 0 < ds.count := by
  apply Nat.pos_of_ne_zero
  intro hzero
  rw [hzero] at h
  cases h

/-- Which slot is written, and what becomes of the indices. -/
theorem ForeignMasterDS.addForeign_slot (ds : ForeignMasterDS) (header : MsgHeader)
    (announce : MsgAnnounce) :
    let added := ds.addForeign header announce
    (added.2.records added.1).header = header ∧ (added.2.records added.1).announce = announce ∧
      (∀ k, k ≠ added.1 → added.2.records k = ds.records k) ∧
      added.2.capacity = ds.capacity ∧
      ((added.2.count = ds.count ∧ added.2.i = ds.i ∧ 0 < ds.count) ∨
        (added.1 = ds.i ∧ added.2.i = (ds.i + 1) % ds.capacity ∧
          (added.2.count = ds.count + 1 ∧ ds.count < ds.capacity ∨
            added.2.count = ds.count ∧ ds.capacity ≤ ds.count))) := by
  dsimp only
  unfold ForeignMasterDS.addForeign
  cases hsearch : ds.search header.sourcePortIdentity ds.count ds.best with
  | some j =>
    have hpos := search_pos hsearch
    refine ⟨by simp [setRecord], by simp [setRecord], ?_, rfl, .inl ⟨rfl, rfl, hpos⟩⟩
    intro k hk
    simp [setRecord, hk]
  | none =>
    by_cases hroom : ds.count < ds.capacity
    · rw [if_pos hroom]
      refine ⟨by simp [setRecord], by simp [setRecord], ?_, rfl, .inr ⟨rfl, rfl, .inl ⟨rfl, hroom⟩⟩⟩
      intro k hk
      simp [setRecord, hk]
    · rw [if_neg hroom]
      refine ⟨by simp [setRecord], by simp [setRecord], ?_, rfl,
        .inr ⟨rfl, rfl, .inr ⟨rfl, not_lt.mp hroom⟩⟩⟩
      intro k hk
      simp [setRecord, hk]

/-- The next free slot comes right after the filled ones, or is one of them. -/
theorem Filled.addForeign {n : Nat} (h : Filled c l n) {a x : LogEntry}
    (ha : a.call = .acceptAnnounce header announce) :
    ∃ n', Filled
      { c with
        events.STATE_DECISION_EVENT := true
        foreignMasterDS := (c.foreignMasterDS.addForeign header announce).2 } (x :: a :: l) n' := by
  have hnew : Accepted (x :: a :: l) header announce := ⟨a, by simp, ha⟩
  have hold : ∀ k < n, Accepted (x :: a :: l) (c.foreignMasterDS.records k).header
      (c.foreignMasterDS.records k).announce := fun k hk => (h.accepted k hk).append [x, a]
  have hcount := h.count_le
  have hi := h.i_le
  have horder := h.order
  obtain ⟨hheader, hannounce, hothers, hcapacity, hslot⟩ :=
    c.foreignMasterDS.addForeign_slot header announce
  generalize c.foreignMasterDS.addForeign header announce = added at *
  obtain ⟨j, ds⟩ := added
  dsimp only at *
  -- the slot written holds this Announce, the others what they held
  have haccepted : ∀ k, k = j ∨ k < n →
      Accepted (x :: a :: l) (ds.records k).header (ds.records k).announce := by
    intro k hk
    by_cases hkj : k = j
    · rw [hkj, hheader, hannounce]
      exact hnew
    · rw [hothers k hkj]
      exact hold k (hk.resolve_left hkj)
  rcases hslot with ⟨hsame, hsame', hpos⟩ | ⟨rfl, hnext, hroom⟩
  · refine ⟨n, fun k hk => haccepted k (.inr hk), ?_, ?_, ?_, fun _ => ?_⟩
    · exact hsame.trans_le hcount
    · exact hsame'.trans_le hi
    · intro hfree
      change n < ds.capacity at hfree
      rw [hcapacity] at hfree
      change ds.count ≤ ds.i
      rw [hsame, hsame']
      exact horder hfree
    · omega
  · refine ⟨max n (c.foreignMasterDS.i + 1), fun k hk => haccepted k ?_, ?_, ?_, ?_, fun _ => ?_⟩
    · by_cases hk' : k < n
      · exact .inr hk'
      · left
        omega
    · change ds.count ≤ _
      rcases hroom with ⟨hgrown, hfree⟩ | ⟨hfull, -⟩
      · by_cases hn : n < c.foreignMasterDS.capacity
        · have := horder hn
          omega
        · omega
      · omega
    · change ds.i ≤ _
      have hmod := Nat.mod_le (c.foreignMasterDS.i + 1) c.foreignMasterDS.capacity
      omega
    · intro hfree
      change _ < ds.capacity at hfree
      change ds.count ≤ ds.i
      rw [hcapacity] at hfree
      rw [hnext, Nat.mod_eq_of_lt (by omega)]
      have := horder (by omega)
      rcases hroom with ⟨hgrown, -⟩ | ⟨-, hfull⟩
      · omega
      · omega
    · omega

/-! ## One step -/

/-- A state that is entered is recommended already, or is not SLAVE. -/
theorem Core.enter_slave {s : PortState} (h : (c.enter s).recommendedState = PTP_SLAVE) :
    c.recommendedState = PTP_SLAVE := by
  cases s <;> first | exact h | cases h

/-- The table and the parent are the same, and following has not begun. -/
theorem Engine.Sourced.congr (h : Sourced ⟨c, l⟩) (new : List LogEntry) (hc : c'.Consistent)
    (hds : c'.foreignMasterDS = c.foreignMasterDS)
    (hevent : c'.events.STATE_DECISION_EVENT → c.events.STATE_DECISION_EVENT)
    (hslave : c'.recommendedState = PTP_SLAVE →
      c.recommendedState = PTP_SLAVE ∧ c'.parent = c.parent) : Sourced ⟨c', new ++ l⟩ := by
  refine ⟨hc, ?_, fun hrec => ?_⟩
  · obtain ⟨n, hn⟩ := h.filled
    refine ⟨n, (hn.append new).congr hds ?_⟩
    exact Or.imp hevent fun hrec => (hslave hrec).1
  · obtain ⟨hrec', hparent⟩ := hslave hrec
    obtain ⟨header, announce, haccepted, hsource⟩ := h.parent hrec'
    exact ⟨header, announce, haccepted.append new, hparent.trans hsource⟩

/-- The table is emptied, and the port does not follow. -/
theorem Engine.Sourced.empty (h : Sourced ⟨c, l⟩) (new : List LogEntry) (hc : c'.Consistent)
    (hrecords : c'.foreignMasterDS.records = c.foreignMasterDS.records)
    (hcount : c'.foreignMasterDS.count = 0)
    (hi : c'.foreignMasterDS.i ≤ c.foreignMasterDS.i)
    (hevent : c'.events.STATE_DECISION_EVENT → c.events.STATE_DECISION_EVENT)
    (hrec : c'.recommendedState ≠ PTP_SLAVE) : Sourced ⟨c', new ++ l⟩ := by
  refine ⟨hc, ?_, fun hslave => absurd hslave hrec⟩
  obtain ⟨n, hn⟩ := h.filled
  refine ⟨n, (hn.append new).empty hrecords hcount hi ?_⟩
  exact Or.imp hevent fun hslave => absurd hslave hrec

theorem Engine.Sourced.frame (h : Sourced ⟨c, l⟩) (new : List LogEntry) (hc : c'.Consistent)
    (hframe : c.Frame c') : Sourced ⟨c', new ++ l⟩ := by
  apply h.congr new hc hframe.foreignMasterDS
  · intro hevent
    exact hframe.pending ▸ hevent
  · intro hslave
    exact ⟨hframe.recommendedState ▸ hslave, hframe.parent⟩

/-- What a state decision recommends to follow has announced itself. -/
theorem Engine.Sourced.decide {c₁ : Core} {l₁ : List LogEntry} (h : Sourced ⟨c, l⟩)
    (hdecide : Decide c l c₁ l₁) :
    (∃ n, Filled c₁ l₁ n) ∧ (c₁.recommendedState = PTP_SLAVE → ∃ header announce,
      Accepted l₁ header announce ∧ c₁.parent = header.sourcePortIdentity) := by
  obtain ⟨n, hn⟩ := h.filled
  cases hdecide with
  | none => exact ⟨⟨n, hn⟩, h.parent⟩
  | listen b hstate hevent =>
    have hfilled := hn.append [b]
    refine ⟨⟨n, hfilled.accepted, hfilled.count_le, hfilled.i_le, hfilled.order, ?_⟩, ?_⟩
    · intro _
      exact hn.pos (.inl hevent)
    · intro hslave
      cases hslave
  | lead b best reads p r hstate hevent hlisten hbest hreads hmem hr =>
    have hfilled := hn.append [b]
    refine ⟨⟨n, hfilled.accepted, hfilled.count_le, hfilled.i_le, hfilled.order, ?_⟩, ?_⟩
    · intro _
      exact hn.pos (.inl hevent)
    · intro hslave
      have hslave' : r = PTP_SLAVE := hslave
      rw [hslave'] at hr
      simp at hr
  | follow b x best reads hstate hevent hlisten hbest =>
    have hfilled := hn.append [x, b]
    have hpos : 0 < n := hn.pos (.inl hevent)
    refine ⟨⟨n, hfilled.accepted, hfilled.count_le, hfilled.i_le, hfilled.order, ?_⟩, ?_⟩
    · intro _
      exact hpos
    · intro _
      -- an empty table is read at its first slot, which is filled
      have hread : best < n := by
        have hcount : c.foreignMasterDS.count ≤ n := hn.count_le
        omega
      exact ⟨_, _, hfilled.accepted best hread, rfl⟩

theorem Engine.Step.sourced {e e' : Engine} (hstep : Step e e') (h : e.Sourced) : e'.Sourced := by
  have hc := hstep.consistent h.consistent
  cases hstep with
  | note x hx => exact h.congr [x] hc rfl id fun hslave => ⟨hslave, rfl⟩
  | startup x hx =>
    -- the table stays, but nothing is recommended to follow
    refine h.congr [x] hc (by simp) (by simp) ?_
    intro hslave
    simp [Core.enter] at hslave
  | toState s x hs hx =>
    refine h.congr [x] hc (by simp) (by simp) ?_
    intro hslave
    exact ⟨Core.enter_slave hslave, by simp⟩
  | clockStep x time hx => exact h.congr [x] hc rfl id fun hslave => ⟨hslave, rfl⟩
  | @initialise c l x identity p slaveOnly hstate hx hxc =>
    -- the table goes, and a port that initialises does not follow
    have hagrees : c.recommendedState = PTP_INITIALIZING := by
      have := h.consistent.agrees
      rwa [show (⟨c, l⟩ : Engine).core.portState = _ from hstate] at this
    refine h.empty [x] hc rfl rfl le_rfl id ?_
    intro hslave
    have hslave' : c.recommendedState = PTP_SLAVE := hslave
    rw [hagrees] at hslave'
    cases hslave'
  | decision hdecide hmove =>
    obtain ⟨⟨n, hn⟩, hparent⟩ := h.decide hdecide
    obtain ⟨moves, rfl, -⟩ := hmove.log_eq
    have hframe := hmove.frame
    refine ⟨hc, ⟨n, (hn.append moves).congr hframe.foreignMasterDS ?_⟩, fun hslave => ?_⟩
    · rw [hframe.pending, hframe.recommendedState]
      exact id
    · obtain ⟨header, announce, haccepted, hsource⟩ :=
        hparent (hframe.recommendedState.symm.trans hslave)
      exact ⟨header, announce, haccepted.append moves, hframe.parent.trans hsource⟩
  | timeoutMaster x y p =>
    exact h.empty [y, x] hc (by simp) (by simp) (by simp) (by simp) (by simp [Core.enter])
  | timeoutListen x y =>
    exact h.empty [y, x] hc (by simp) (by simp) (by simp) (by simp) (by simp [Core.enter])
  | @timeoutStay c l x hso hstate =>
    have hagrees : c.recommendedState = PTP_LISTENING := by
      have := h.consistent.agrees
      rwa [show (⟨c, l⟩ : Engine).core.portState = _ from hstate] at this
    refine h.empty [x] hc rfl rfl (Nat.zero_le _) id ?_
    intro hslave
    have hslave' : c.recommendedState = PTP_SLAVE := hslave
    rw [hagrees] at hslave'
    cases hslave'
  | @announceParent c l a x header announce hstate =>
    obtain ⟨n, hn⟩ := h.filled
    have hrec : c.recommendedState = PTP_SLAVE := h.consistent.recommends hstate
    have hfilled := hn.append [x, a]
    refine ⟨hc, ⟨n, hfilled.accepted, hfilled.count_le, hfilled.i_le, hfilled.order, ?_⟩, ?_⟩
    · intro _
      exact hn.pos (.inr hrec)
    · intro _
      obtain ⟨header', announce', haccepted, hsource⟩ := h.parent hrec
      exact ⟨header', announce', haccepted.append [x, a], hsource⟩
  | @announceForeign c l a x header announce hstate hsender ha =>
    obtain ⟨n, hn⟩ := h.filled
    refine ⟨hc, hn.addForeign ha, fun hslave => ?_⟩
    obtain ⟨header', announce', haccepted, hsource⟩ := h.parent hslave
    exact ⟨header', announce', haccepted.append [x, a], hsource⟩
  | measurement hmeasure =>
    obtain ⟨new, rfl, -⟩ := hmeasure.log_eq
    exact h.frame new hc hmeasure.frame.1
  | delayResp r x => exact h.congr [x] hc rfl id fun hslave => ⟨hslave, rfl⟩
  | peer hpeer =>
    obtain ⟨new, rfl, -⟩ := hpeer.log_eq
    exact h.frame new hc hpeer.frame.1

theorem Engine.Initial.sourced {e : Engine} (h : Engine.Initial e) : e.Sourced := by
  refine ⟨h.consistent, ⟨0, ?_⟩, fun hslave => ?_⟩
  · rw [h.core]
    constructor
    · intro k hk
      exact absurd hk (Nat.not_lt_zero k)
    · exact le_rfl
    · exact le_rfl
    · intro _
      exact le_rfl
    · rintro (hevent | hslave)
      · cases hevent
      · cases hslave
  · rw [h.core] at hslave
    cases hslave

/-! ## Offsets -/

/-- The offset is computed from the time in `r`, a Sync or Follow_Up received
    from the port that is followed. -/
structure LogEntry.OffsetFrom (u r : LogEntry) : Prop where
  received : ∃ time, r.call = .received time
  sender : r.before.sender = u.parent
  follows : u.before.portDS.portState.follows
  origin : ∃ ingress stack correctionField,
    r.before.handles .SYNC ∧ r.before.isTwoStep = false ∧
        u.call = .updateOffset ingress
          (toInternalTime stack (msgUnpackSync r.before.msgIbuf).originTimestamp) correctionField ∨
      r.before.handles .FOLLOW_UP ∧
        u.call = .updateOffset ingress
          (toInternalTime stack (msgUnpackFollowUp r.before.msgIbuf).preciseOriginTimestamp)
          correctionField

/-- An offset is computed from a message of a master that has announced itself. -/
def LogEntry.OffsetSourced (u : LogEntry) (older : List LogEntry) : Prop :=
  u.UpdatesOffset → (∃ r ∈ older, u.OffsetFrom r) ∧
    ∃ header announce, Accepted older header announce ∧ u.parent = header.sourcePortIdentity

theorem LogEntry.Aside.offsetSourced {x : LogEntry} (h : x.Aside) (older : List LogEntry) :
    x.OffsetSourced older := fun hx => absurd hx h.offset

theorem Engine.Sourced.offset (h : Sourced ⟨c, l⟩) {r u : LogEntry} (hmem : r ∈ l)
    (hstate : c.portState.follows) (hparent : u.parent = c.parent) (hu : u.OffsetFrom r) :
    u.OffsetSourced l := by
  intro _
  obtain ⟨header, announce, haccepted, hsource⟩ := h.parent (h.consistent.recommends hstate)
  exact ⟨⟨r, hmem, hu⟩, header, announce, haccepted, hparent.trans hsource⟩

theorem Engine.Step.offsetSourced {e e' : Engine} (hstep : Step e e') (h : e.Sourced)
    (hlog : Every LogEntry.OffsetSourced e.log) : Every LogEntry.OffsetSourced e'.log := by
  -- an offset is computed by a measurement only
  rcases hstep.measures with hmeasure | ⟨⟨new, heq, hnew⟩, -⟩ | ⟨x, rfl, -, -, hdelay, -⟩
  · obtain ⟨c, l⟩ := e
    obtain ⟨c', l'⟩ := e'
    cases hmeasure with
    | sync a time ha =>
      refine ⟨fun hx => ?_, hlog⟩
      rw [LogEntry.UpdatesOffset, ha] at hx
      exact hx.elim
    | syncOffset r u time stack hmem hr htype htwo hsender hstate hu huc huh hmessage hfilter =>
      have hparent : u.parent = c.parent := congrArg Core.parent huc
      have hport : u.before.portDS.portState = c.portState := congrArg Core.portState huc
      have hfirst : Every LogEntry.OffsetSourced (u :: l) := by
        refine ⟨h.offset hmem hstate hparent ⟨⟨time, hr⟩, hsender.trans hparent.symm, ?_, ?_⟩, hlog⟩
        · rw [hport]
          exact hstate
        · exact ⟨time, stack, r.before.correctionField, .inl ⟨htype, htwo, hu⟩⟩
      exact hfirst.append fun x hx older => (hfilter.aside x hx).offsetSourced older
    | followUp r u time stack hmem hr htype hsender hstate hwait hseq hu huc huh hmessage hfilter =>
      have hparent : u.parent = c.parent := congrArg Core.parent huc
      have hport : u.before.portDS.portState = c.portState := congrArg Core.portState huc
      have hfirst : Every LogEntry.OffsetSourced (u :: l) := by
        refine ⟨h.offset hmem hstate hparent ⟨⟨time, hr⟩, hsender.trans hparent.symm, ?_, ?_⟩, hlog⟩
        · rw [hport]
          exact hstate
        · exact ⟨c.timestamp_syncRecieve, stack,
            addTime r.before.correctionField c.correctionField_sync, .inr ⟨htype, hu⟩⟩
      exact hfirst.append fun x hx older => (hfilter.aside x hx).offsetSourced older
  · rw [heq]
    exact hlog.append fun x hx older => (LogEntry.aside_of_kind (hnew x hx)).offsetSourced older
  · refine ⟨fun hx => ?_, hlog⟩
    obtain ⟨-, egress, stale, hcall⟩ := hdelay
    rw [LogEntry.UpdatesOffset, hcall] at hx
    exact hx.elim

/-- Both invariants. -/
def Engine.Traced (e : Engine) : Prop := e.Sourced ∧ Every LogEntry.OffsetSourced e.log

theorem Engine.Initial.traced {e : Engine} (h : Engine.Initial e) : e.Traced := by
  obtain ⟨x, hlog, hx⟩ := h.log
  refine ⟨h.sourced, ?_⟩
  rw [hlog]
  refine ⟨fun hu => ?_, every_nil⟩
  rw [LogEntry.UpdatesOffset, hx] at hu
  exact hu.elim

theorem Reachable.traced {w : World} (hw : Reachable w) : w.engine.Traced :=
  hw.invariant (fun _ he => Engine.Initial.traced he) (fun _ _ _ (_ : True) => trivial)
    (fun _ _ hstep _ he => ⟨hstep.sourced he.1, hstep.offsetSourced he.1 he.2⟩) trivial

/-! ## What was accepted -/

/-- The Announce was recognised, in the domain of the port and from another port. -/
structure LogEntry.Recognises (x : LogEntry) (header : MsgHeader) (announce : MsgAnnounce) :
    Prop where
  atHand : x.before.AtHand .ANNOUNCE
  length : ANNOUNCE_LENGTH ≤ x.before.msgIbufLength
  header_eq : header = x.before.msgTmpHeader
  announce_eq : announce = msgUnpackAnnounce x.before.msgIbuf
  foreign : header.sourcePortIdentity ≠ x.before.portDS.portIdentity

/-- If an Announce is accepted here, it was recognised. -/
def LogEntry.Sound (x : LogEntry) : Prop :=
  ∀ header announce, x.call = .acceptAnnounce header announce → x.Recognises header announce

variable {w w' : World}

theorem Grows.sound (h : Grows Call.mute w w') (hlog : ∀ x ∈ w.log, x.Sound) :
    ∀ x ∈ w'.log, x.Sound := by
  obtain ⟨new, heq, hnew⟩ := h
  intro x hx header announce hcall
  rw [heq] at hx
  rcases List.mem_append.mp hx with hx | hx
  · have hmute := hnew x hx
    rw [hcall] at hmute
    exact hmute.elim
  · exact hlog x hx header announce hcall

theorem Exchange.sound (h : Exchange w w') (hlog : ∀ x ∈ w.log, x.Sound) :
    ∀ x ∈ w'.log, x.Sound := by
  cases h with
  | muted h => exact h.grows.sound hlog
  | takeIn p => exact hlog
  | nothing => exact hlog
  | fault => exact (toState_mute PTP_FAULTY w).sound hlog
  | receive time =>
    refine List.forall_mem_cons.mpr ⟨?_, hlog⟩
    intro header announce hcall
    cases hcall
  | accept hat hlength hforeign =>
    refine List.forall_mem_cons.mpr ⟨?_, hlog⟩
    intro header announce hcall
    obtain ⟨rfl, rfl⟩ : w.msgTmpHeader = header ∧ msgUnpackAnnounce w.msgIbuf = announce := by
      injection hcall with h₁ h₂
      exact ⟨h₁, h₂⟩
    exact ⟨⟨hat.header, hat.handles, hat.version, hat.domain⟩, hlength, rfl, rfl, hforeign⟩
  | emit m =>
    rw [World.emit_log]
    refine List.forall_mem_cons.mpr ⟨?_, hlog⟩
    intro header announce hcall
    cases hcall

theorem initialise_sound (hlog : ∀ x ∈ w.log, x.Sound) : ∀ x ∈ (initialise w).log, x.Sound := by
  have hdata : Grows Call.mute w (initTimer (initData w)) := .record w .initData trivial
  have hclock := hdata.trans (initClock_muted (initTimer (initData w))).grows
  unfold initialise
  generalize initClock (initTimer (initData w)) = w₁ at hclock ⊢
  exact hclock.sound hlog

theorem Traffic.sound (h : Traffic w w') (hlog : ∀ x ∈ w.log, x.Sound) : ∀ x ∈ w'.log, x.Sound := by
  cases h with
  | talk h =>
    cases h with
    | exchange h => exact h.sound hlog
    | enter s => exact (toState_mute s w).sound hlog
    | initialise => exact initialise_sound hlog
  | arriveEvent p =>
    unfold netRecvEventCallback
    dsimp only
    split
    · exact hlog
    · exact (Grows.record w (.pbuf_free p) trivial).sound hlog
  | arriveGeneral p =>
    unfold netRecvGeneralCallback
    dsimp only
    split
    · exact hlog
    · exact (Grows.record w (.pbuf_free p) trivial).sound hlog

theorem Reachable.sound (hw : Reachable w) : ∀ x ∈ w.log, x.Sound := by
  apply hw.of_traffic fun w => ∀ x ∈ w.log, x.Sound
  · intro platform x hx
    cases hx
  · intro w w' htraffic hlog
    exact htraffic.sound hlog

/-! ## The parent -/

/-- In every run, a port that follows has accepted an Announce of its parent, and every offset
    was computed from a message that came from a parent which had announced itself before.
    What was accepted had been recognised. -/
theorem parent_has_announced {w : World} (hw : Reachable w) :
    (w.portDS.portState.follows → ∃ header announce, Accepted w.log header announce ∧
      w.parentDS.parentPortIdentity = header.sourcePortIdentity) ∧
    Every LogEntry.OffsetSourced w.log ∧ ∀ x ∈ w.log, x.Sound := by
  obtain ⟨hsourced, hoffsets⟩ := hw.traced
  refine ⟨fun hfollows => ?_, hoffsets, hw.sound⟩
  exact hsourced.parent (hsourced.consistent.recommends hfollows)

/-- The board follows the master that has announced itself to it. -/
theorem parent_has_announced_follower :
    let w := sampleRun .E2E [.doState, sampleAnnounce 9 200 1, .doState, .doState]
    ∃ header announce, Accepted w.log header announce ∧
      w.parentDS.parentPortIdentity = header.sourcePortIdentity :=
  (parent_has_announced (reachable_sampleRun .E2E (by decide))).1 (by decide +kernel)

end Ptpd
