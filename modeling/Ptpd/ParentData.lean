import Ptpd.ForeignMaster

/-! # The data sets of the parent

    An Announce of the current parent updates the data sets but not the record
    table, and the next state decision copies the record back over it. The data
    sets follow the latest Announce in every run in which such an Announce says
    what the table already holds.
-/

namespace Ptpd

open PortState Engine History

/-! ## What an Announce says -/

/-- The part of an Announce that is compared by `bmc` and copied by `s1`. -/
structure AnnouncedData where
  grandmasterIdentity : ClockIdentity
  grandmasterClockQuality : ClockQuality
  grandmasterPriority1 : UInt8
  grandmasterPriority2 : UInt8
  timePropertiesDS : TimePropertiesDS
  stepsRemoved : UInt16

/-- Field by field, so that it can be evaluated on received octets. -/
instance : DecidableEq AnnouncedData := fun a b =>
  decidable_of_iff
    (a.grandmasterIdentity.toList = b.grandmasterIdentity.toList ∧
      a.grandmasterClockQuality.clockClass = b.grandmasterClockQuality.clockClass ∧
      a.grandmasterClockQuality.clockAccuracy = b.grandmasterClockQuality.clockAccuracy ∧
      a.grandmasterClockQuality.offsetScaledLogVariance =
        b.grandmasterClockQuality.offsetScaledLogVariance ∧
      a.grandmasterPriority1 = b.grandmasterPriority1 ∧
      a.grandmasterPriority2 = b.grandmasterPriority2 ∧
      a.timePropertiesDS = b.timePropertiesDS ∧ a.stepsRemoved = b.stepsRemoved) <| by
    obtain ⟨_, ⟨_, _, _⟩, _, _, _, _⟩ := a
    obtain ⟨_, ⟨_, _, _⟩, _, _, _, _⟩ := b
    simp only [Vector.toList_inj, AnnouncedData.mk.injEq, ClockQuality.mk.injEq, and_assoc]

/-- The data of a received Announce. -/
def announcedData (header : MsgHeader) (announce : MsgAnnounce) : AnnouncedData where
  grandmasterIdentity := announce.grandmasterIdentity
  grandmasterClockQuality := announce.grandmasterClockQuality
  grandmasterPriority1 := announce.grandmasterPriority1
  grandmasterPriority2 := announce.grandmasterPriority2
  timePropertiesDS :=
    let flags := header.flagField1
    { currentUtcOffset := announce.currentUtcOffset
      currentUtcOffsetValid := getFlag flags FLAG1_UTC_OFFSET_VALID
      leap59 := getFlag flags FLAG1_LEAP59
      leap61 := getFlag flags FLAG1_LEAP61
      timeTraceable := getFlag flags FLAG1_TIME_TRACEABLE
      frequencyTraceable := getFlag flags FLAG1_FREQUENCY_TRACEABLE
      ptpTimescale := getFlag flags FLAG1_PTP_TIMESCALE
      timeSource := announce.timeSource }
  stepsRemoved := announce.stepsRemoved

/-- The data that the record holds. -/
def ForeignMasterRecord.data (r : ForeignMasterRecord) : AnnouncedData :=
  announcedData r.header r.announce

/-- The data sets hold what `data` says; the port is one step further away. -/
structure PtpClock.Holds (c : PtpClock) (data : AnnouncedData) : Prop where
  grandmasterIdentity : c.parentDS.grandmasterIdentity = data.grandmasterIdentity
  grandmasterClockQuality : c.parentDS.grandmasterClockQuality = data.grandmasterClockQuality
  grandmasterPriority1 : c.parentDS.grandmasterPriority1 = data.grandmasterPriority1
  grandmasterPriority2 : c.parentDS.grandmasterPriority2 = data.grandmasterPriority2
  timePropertiesDS : c.timePropertiesDS = data.timePropertiesDS
  stepsRemoved : c.currentDS.stepsRemoved = data.stepsRemoved + 1

theorem s1_holds (header : MsgHeader) (announce : MsgAnnounce) (w : World) :
    (s1 header announce w).Holds (announcedData header announce) := by
  constructor <;> rfl

/-! ## The latest Announce of the parent -/

/-- An Announce that was taken, and the clock that took it. -/
structure TakenAnnounce where
  header : MsgHeader
  announce : MsgAnnounce
  clock : PtpClock

/-- The latest Announce of this port, if no state decision has been taken since. -/
def latestAnnounce (p : PortIdentity) : List LogEntry → Option TakenAnnounce
  | [] => none
  | e :: older =>
    match e.call with
    | .bmc _ => none
    | .acceptAnnounce header announce =>
      if header.sourcePortIdentity = p then some ⟨header, announce, e.before⟩
      else latestAnnounce p older
    | _ => latestAnnounce p older

/-- The port followed a master, and the Announce was of that master. -/
def TakenAnnounce.FromParent (m : TakenAnnounce) : Prop :=
  m.clock.portDS.portState.follows ∧
    m.header.sourcePortIdentity = m.clock.parentDS.parentPortIdentity

instance (m : TakenAnnounce) : Decidable m.FromParent :=
  inferInstanceAs (Decidable (_ ∧ _))

/-- The latest Announce of the master that `bmc` is about to select. -/
def World.latestOfSelected (w : World) : Option TakenAnnounce :=
  latestAnnounce w.bmcRecord.header.sourcePortIdentity w.log

/-- The state decision that comes next, if it selects the parent again: it has
    compared the data of the parent's latest Announce, and leaves them in the data sets. -/
def World.DecidesOnLatest (w : World) : Prop :=
  ∀ m ∈ w.latestOfSelected, m.FromParent →
    w.portDS.portState.decides → w.events.STATE_DECISION_EVENT →
    (stateDecision w).recommendedState = PTP_SLAVE →
    w.bmcRecord.data = announcedData m.header m.announce ∧
      (stateDecision w).parentDS.parentPortIdentity = m.header.sourcePortIdentity ∧
      (stateDecision w).Holds (announcedData m.header m.announce)

/-! ## The condition -/

/-- An Announce of the current parent says what the live records of the parent say. -/
def LogEntry.RepeatsRecord (e : LogEntry) : Prop :=
  match e.call with
  | .acceptAnnounce header announce =>
    e.before.portDS.portState.follows →
    header.sourcePortIdentity = e.before.parentDS.parentPortIdentity →
    ∀ k < max 1 e.before.foreignMasterDS.count,
      (e.before.foreignMasterDS.records k).header.sourcePortIdentity = header.sourcePortIdentity →
      (e.before.foreignMasterDS.records k).data = announcedData header announce
  | _ => True

/-- The free slots of the table are taken in order. -/
def LogEntry.ExtendsInOrder (e : LogEntry) : Prop :=
  match e.call with
  | .addForeign _ =>
    e.before.foreignMasterDS.count < e.before.foreignMasterDS.capacity →
      e.before.foreignMasterDS.i = e.before.foreignMasterDS.count
  | _ => True

instance : DecidablePred LogEntry.RepeatsRecord := fun ⟨call, before⟩ => by
  apply @Call.casesOn (fun call => Decidable (LogEntry.RepeatsRecord ⟨call, before⟩)) call
  case acceptAnnounce =>
    intro header announce
    change Decidable (before.portDS.portState.follows → _ → _)
    infer_instance
  all_goals intros; exact .isTrue trivial

instance : DecidablePred LogEntry.ExtendsInOrder := fun ⟨call, before⟩ => by
  apply @Call.casesOn (fun call => Decidable (LogEntry.ExtendsInOrder ⟨call, before⟩)) call
  case addForeign => exact fun _ => inferInstanceAs (Decidable (_ < _ → _ = _))
  all_goals intros; exact .isTrue trivial

/-! ## The invariant -/

/-- What `bmc` may read of a master whose latest Announce came while it was
    followed is that Announce. -/
def Engine.RecordsAgree (e : Engine) : Prop :=
  ∀ p, ∀ m ∈ latestAnnounce p e.log, m.FromParent →
    ∀ k < max 1 e.core.foreignMasterDS.count,
      (e.core.foreignMasterDS.records k).header.sourcePortIdentity = p →
      (e.core.foreignMasterDS.records k).data = announcedData m.header m.announce

theorem latestAnnounce_append {p : PortIdentity} {m : TakenAnnounce} {l : List LogEntry}
    (new : List LogEntry) (hnew : ∀ x ∈ new, x.call.kind ≠ .announce) (h : m ∈ latestAnnounce p (new ++ l)) :
    m ∈ latestAnnounce p l := by
  induction new with
  | nil => exact h
  | cons x new ih =>
    simp only [List.mem_cons, forall_eq_or_imp] at hnew
    refine ih hnew.2 ?_
    rw [List.cons_append, latestAnnounce] at h
    split at h
    · cases h
    · next hcall => simp [hcall, Call.kind] at hnew
    · exact h

theorem latestAnnounce_source {p : PortIdentity} {m : TakenAnnounce} {l : List LogEntry}
    (h : m ∈ latestAnnounce p l) : m.header.sourcePortIdentity = p := by
  induction l with
  | nil => cases h
  | cons x l ih =>
    rw [latestAnnounce] at h
    split at h
    · cases h
    · split at h
      · next hp =>
        cases h
        exact hp
      · exact ih h
    · exact ih h

/-- After a state decision no Announce is the latest. -/
theorem latestAnnounce_decided {p : PortIdentity} {l new : List LogEntry} {b : LogEntry}
    {reads : List Nat} (hnew : ∀ x ∈ new, x.call.kind ≠ .announce) (hb : b.call = .bmc reads) :
    latestAnnounce p (new ++ b :: l) = none := by
  apply Option.eq_none_iff_forall_not_mem.mpr
  intro m hm
  have h := latestAnnounce_append _ hnew hm
  simp [latestAnnounce, hb] at h

/-- The Announce just taken is its sender's latest, and no other master's. -/
theorem latestAnnounce_taken {p : PortIdentity} {m : TakenAnnounce} {l : List LogEntry}
    {a x : LogEntry} {header : MsgHeader} {announce : MsgAnnounce}
    (ha : a.call = .acceptAnnounce header announce) (hx : x.call.kind ≠ .announce)
    (h : m ∈ latestAnnounce p (x :: a :: l)) :
    (header.sourcePortIdentity = p ∧ m = ⟨header, announce, a.before⟩) ∨
      (header.sourcePortIdentity ≠ p ∧ m ∈ latestAnnounce p l) := by
  have h' := latestAnnounce_append [x] (by simpa using hx) h
  rw [latestAnnounce, ha] at h'
  dsimp only at h'
  split at h'
  · next hp => exact .inl ⟨hp, (Option.some.inj h').symm⟩
  · next hp => exact .inr ⟨hp, h'⟩

/-- Steps that take no Announce, and shrink the table if anything. -/
theorem Engine.RecordsAgree.frame {c c' : Core} {l : List LogEntry} (h : RecordsAgree ⟨c, l⟩)
    (new : List LogEntry) (hnew : ∀ x ∈ new, x.call.kind ≠ .announce)
    (hrecords : c'.foreignMasterDS.records = c.foreignMasterDS.records)
    (hcount : c'.foreignMasterDS.count ≤ c.foreignMasterDS.count) :
    RecordsAgree ⟨c', new ++ l⟩ := by
  intro p m hm hparent k hk
  have hk' : k < max 1 c.foreignMasterDS.count := by
    have hlt : k < max 1 c'.foreignMasterDS.count := hk
    omega
  rw [show (⟨c', new ++ l⟩ : Engine).core.foreignMasterDS.records = _ from hrecords]
  exact h p m (latestAnnounce_append _ hnew hm) hparent k hk'

/-- What `addForeign` writes, and how the table grows. -/
theorem ForeignMasterDS.addForeign_cases (ds : ForeignMasterDS) (header : MsgHeader)
    (announce : MsgAnnounce) :
    ((ds.addForeign header announce).2.records (ds.addForeign header announce).1).header = header ∧
    (∀ k, k ≠ (ds.addForeign header announce).1 →
      (ds.addForeign header announce).2.records k = ds.records k) ∧
    ((ds.addForeign header announce).2.count = ds.count ∨
      ds.count < ds.capacity ∧ (ds.addForeign header announce).1 = ds.i ∧
        (ds.addForeign header announce).2.count = ds.count + 1) := by
  unfold ForeignMasterDS.addForeign
  split
  · refine ⟨by simp [ForeignMasterDS.setRecord], fun k hk => ?_, .inl rfl⟩
    simp [ForeignMasterDS.setRecord, hk]
  · by_cases hroom : ds.count < ds.capacity
    · simp only [hroom, if_true]
      refine ⟨by simp [ForeignMasterDS.setRecord], fun k hk => ?_, .inr (by simp [ForeignMasterDS.setRecord])⟩
      simp [ForeignMasterDS.setRecord, hk]
    · simp only [hroom, if_false]
      refine ⟨by simp [ForeignMasterDS.setRecord], fun k hk => ?_, .inl rfl⟩
      simp [ForeignMasterDS.setRecord, hk]

/-- A state decision with the move that follows it leaves no latest Announce, or changes no
    record. -/
theorem Engine.RecordsAgree.decision {c c₁ c₂ : Core} {l l₁ l₂ : List LogEntry}
    (h : RecordsAgree ⟨c, l⟩) (hdecide : Decide c l c₁ l₁) (hmove : Move c₁ l₁ c₂ l₂) :
    RecordsAgree ⟨c₂, l₂⟩ := by
  obtain ⟨moves, rfl, hmoves⟩ := hmove.log_eq
  have hmoves' : ∀ x ∈ moves, x.call.kind ≠ .announce := by
    intro x hx
    obtain ⟨s, hs⟩ := hmoves x hx
    simp [hs, Call.kind]
  rcases hdecide.log_cases with ⟨rfl, rfl⟩ | ⟨new, b, reads, rfl, hb, hnew⟩
  · have hds := hmove.frame.foreignMasterDS
    exact h.frame moves hmoves' (by rw [hds]) (by rw [hds])
  · have hnew' : ∀ x ∈ new, x.call.kind ≠ .announce := by
      intro x hx
      obtain ⟨header, announce, hs1⟩ := hnew x hx
      simp [hs1, Call.kind]
    intro p m hm
    dsimp only at hm
    rw [← List.append_assoc,
      latestAnnounce_decided (List.forall_mem_append.mpr ⟨hmoves', hnew'⟩) hb] at hm
    cases hm

/-- An Announce that goes into the table: it takes no record of another master away
    from what that master said last. -/
theorem Engine.RecordsAgree.addForeign {c : Core} {l : List LogEntry} {a x : LogEntry}
    {header : MsgHeader} {announce : MsgAnnounce} (h : RecordsAgree ⟨c, l⟩)
    (hsender : c.portState.follows → header.sourcePortIdentity ≠ c.parent)
    (ha : a.call = .acceptAnnounce header announce)
    (hac : a.before.core = { c with events.STATE_DECISION_EVENT := true })
    (hx : x.call = .addForeign (c.foreignMasterDS.addForeign header announce).1)
    (hxc : x.before.core = { c with events.STATE_DECISION_EVENT := true })
    (horder : x.ExtendsInOrder) :
    RecordsAgree
      ⟨{ c with
          events.STATE_DECISION_EVENT := true
          foreignMasterDS := (c.foreignMasterDS.addForeign header announce).2 }, x :: a :: l⟩ := by
  have hds : x.before.foreignMasterDS = c.foreignMasterDS := congrArg Core.foreignMasterDS hxc
  rw [LogEntry.ExtendsInOrder, hx, hds] at horder
  obtain ⟨hwritten, hothers, hcount⟩ := c.foreignMasterDS.addForeign_cases header announce
  intro p m hm hparent k hk hsource
  -- either this Announce is the latest of its sender, who is then the parent and has
  -- no record written here, or another port's record is written
  rcases latestAnnounce_taken ha (by simp [hx, Call.kind]) hm with ⟨-, rfl⟩ | ⟨hne, hlatest⟩
  · obtain ⟨hfollows, hparent⟩ := hparent
    have hport : a.before.portDS.portState = c.portState := congrArg Core.portState hac
    have hparent' : a.before.parentDS.parentPortIdentity = c.parent := congrArg Core.parent hac
    dsimp only at hfollows hparent
    rw [hport] at hfollows
    rw [hparent'] at hparent
    exact absurd hparent (hsender hfollows)
  · have hslot : k ≠ (c.foreignMasterDS.addForeign header announce).1 := by
      rintro rfl
      exact hne (hwritten ▸ hsource)
    have hk' : k < max 1 (c.foreignMasterDS.addForeign header announce).2.count := hk
    have hrecord := hothers k hslot
    dsimp only at hsource ⊢
    rw [hrecord] at hsource ⊢
    refine h p m hlatest hparent k ?_ hsource
    rcases hcount with hcount | ⟨hroom, hfree, hcount⟩
    · rwa [hcount] at hk'
    · have hi := horder hroom
      rw [hfree, hi] at hslot
      change k < max 1 c.foreignMasterDS.count
      omega

theorem Engine.RecordsAgree.step {e e' : Engine} (h : e.RecordsAgree) (hstep : Step e e')
    (hlog : ∀ x ∈ e'.log, x.RepeatsRecord ∧ x.ExtendsInOrder) : e'.RecordsAgree := by
  -- only the two announce steps write records or the parent's data
  cases hstep with
  | note x hx => exact h.frame [x] (by simp [hx]) rfl le_rfl
  | startup x hx => exact h.frame [x] (by simp [hx, Call.kind]) (by simp) (by simp)
  | toState s x hs hx => exact h.frame [x] (by simp [hx, Call.kind]) (by simp) (by simp)
  | clockStep x time hx => exact h.frame [x] (by simp [hx, Call.kind]) rfl le_rfl
  | initialise x id p slaveOnly hstate hx hxc =>
    exact h.frame [x] (by simp [hx, Call.kind]) rfl (Nat.zero_le _)
  | decision hdecide hmove => exact h.decision hdecide hmove
  | timeoutMaster x y p hso hx hxc hy =>
    exact h.frame [y, x] (by simp [hx, hy, Call.kind]) (by simp) (by simp)
  | timeoutListen x y hso hx hxc hy =>
    exact h.frame [y, x] (by simp [hx, hy, Call.kind]) (by simp) (by simp)
  | timeoutStay x hso hstate hx hxc =>
    exact h.frame [x] (by simp [hx, Call.kind]) rfl (Nat.zero_le _)
  | @announceParent c l a x header announce hstate hsender ha hac hx hxc =>
    intro p m hm hparent k hk hsource
    rcases latestAnnounce_taken ha (by simp [hx, Call.kind]) hm with ⟨rfl, rfl⟩ | ⟨-, hlatest⟩
    · have hrecord := (hlog a (by simp)).1
      have hds : a.before.foreignMasterDS = c.foreignMasterDS := congrArg Core.foreignMasterDS hac
      rw [LogEntry.RepeatsRecord, ha, hds] at hrecord
      exact hrecord hparent.1 hparent.2 k hk hsource
    · exact h p m hlatest hparent k hk hsource
  | @announceForeign c l a x header announce hstate hsender ha hac hx hxc =>
    exact h.addForeign hsender ha hac hx hxc (hlog x (by simp)).2
  | measurement hmeasure =>
    obtain ⟨new, rfl, hnew⟩ := hmeasure.log_eq
    have hds := hmeasure.frame.1.foreignMasterDS
    exact h.frame new (fun x hx => by rcases hnew x hx with hk | hk <;> simp [hk]) (by rw [hds])
      (by rw [hds])
  | delayResp r x time egress stale hmem hr htype hsender hstate hsamples hx =>
    exact h.frame [x] (by simp [hx, Call.kind]) rfl le_rfl
  | peer hpeer =>
    obtain ⟨new, rfl, hnew⟩ := hpeer.log_eq
    have hds := hpeer.frame.1.foreignMasterDS
    exact h.frame new (fun x hx => by rcases hnew x hx with hk | hk <;> simp [hk]) (by rw [hds])
      (by rw [hds])

theorem Engine.Initial.recordsAgree {e : Engine} (h : Engine.Initial e) : e.RecordsAgree := by
  obtain ⟨x, hlog, hx⟩ := h.log
  intro p m hm
  rw [hlog] at hm
  cases latestAnnounce_append [x] (by simp [hx, Call.kind]) hm

/-! ## The decision -/

theorem PtpClock.bmcBest_congr {c c' : PtpClock} (hds : c'.foreignMasterDS = c.foreignMasterDS)
    (hport : c'.portDS = c.portDS) (k : Nat) : c'.bmcBest k = c.bmcBest k := by
  induction k with
  | zero => rfl
  | succ k ih => simp only [bmcBest, ih, hds, bmcDataSetComparison, bmcCompareTopology, hport]

theorem PtpClock.bmcRecord_congr {c c' : PtpClock} (hds : c'.foreignMasterDS = c.foreignMasterDS)
    (hport : c'.portDS = c.portDS) : c'.bmcRecord = c.bmcRecord := by
  unfold bmcRecord
  rw [bmcBest_congr hds hport, hds]

/-- A decision for SLAVE ends in `s1` of the selected record. -/
theorem stateDecision_slave {w : World} (hstate : w.portDS.portState.decides)
    (hevent : w.events.STATE_DECISION_EVENT)
    (hslave : (stateDecision w).recommendedState = PTP_SLAVE) :
    ∃ w₁ : World, stateDecision w =
      { s1 w.bmcRecord.header w.bmcRecord.announce w₁ with recommendedState := PTP_SLAVE } := by
  have hdecision : stateDecision w =
      recommend (bmc { w with events.STATE_DECISION_EVENT := false }) :=
    if_pos (by rw [hstate, hevent]; rfl)
  have hrecord : PtpClock.bmcRecord
      (World.toPtpClock { w with events.STATE_DECISION_EVENT := false }) = w.bmcRecord :=
    PtpClock.bmcRecord_congr rfl rfl
  rw [hdecision, bmc_eq, hrecord] at hslave ⊢
  generalize World.selected _ = w₁ at hslave ⊢
  -- of the three outcomes only `s1` recommends SLAVE
  by_cases hlisten : w₁.foreignMasterDS.count = 0 ∧ w₁.portDS.portState = PTP_LISTENING
  · have hdecide : bmcStateDecision w.bmcRecord.header w.bmcRecord.announce w₁ =
        (PTP_LISTENING, w₁) := if_pos hlisten
    rw [hdecide] at hslave
    cases hslave
  · rcases bmcStateDecision_cases w.bmcRecord.header w.bmcRecord.announce hlisten with
      ⟨p, r, hr, hfst, -⟩ | ⟨hfst, hsnd⟩
    · generalize bmcStateDecision w.bmcRecord.header w.bmcRecord.announce w₁ = d at *
      obtain ⟨r', hr', hrec⟩ := recommend_lead (hfst ▸ hr)
      have hrec' : (recommend d).recommendedState = r' :=
        congrArg (fun e => e.core.recommendedState) hrec
      rw [hrec'] at hslave
      simp [hslave] at hr'
    · generalize bmcStateDecision w.bmcRecord.header w.bmcRecord.announce w₁ = d at *
      obtain ⟨r, w₂⟩ := d
      dsimp only at hfst hsnd
      subst hfst hsnd
      exact ⟨copyD0 w₁, rfl⟩

/-- The data sets follow the parent's latest Announce in every run in which such an Announce
    repeats what the table holds of the parent, and no stale record comes back to life. -/
theorem decides_on_latest {w : World} (hw : Reachable w)
    (hlog : ∀ x ∈ w.log, x.RepeatsRecord ∧ x.ExtendsInOrder) : w.DecidesOnLatest := by
  have hagree : w.engine.RecordsAgree := hw.invariant (fun _ => Engine.Initial.recordsAgree)
    (fun _ _ hstep => hstep.forall_log) (fun _ _ hstep hlog h => h.step hstep hlog) hlog
  intro m hm hparent hstate hevent hslave
  have hbest : w.bmcBest (w.foreignMasterDS.count - 1) < max 1 w.foreignMasterDS.count := by
    have hle := w.bmcBest_le (w.foreignMasterDS.count - 1)
    omega
  have hdata : w.bmcRecord.data = announcedData m.header m.announce :=
    hagree _ m hm hparent _ hbest rfl
  have hsource := latestAnnounce_source hm
  obtain ⟨w₁, hdecision⟩ := stateDecision_slave hstate hevent hslave
  refine ⟨hdata, ?_, ?_⟩
  · rw [hdecision, hsource]
    rfl
  · obtain ⟨hid, hquality, hp1, hp2, htime, hsteps⟩ :=
      s1_holds w.bmcRecord.header w.bmcRecord.announce w₁
    rw [hdecision, ← hdata]
    exact ⟨hid, hquality, hp1, hp2, htime, hsteps⟩

/-- The parent is followed and announces a new priority. -/
def staleRun : World :=
  sampleRun .E2E [.doState, sampleAnnounce 9 200 1, .doState, .doState, sampleAnnounce 9 150 2,
    .doState]

/-- The next decision takes the old priority back. -/
theorem decides_on_stale : ¬ ∀ w, Reachable w → w.DecidesOnLatest := by
  intro h
  have hdecides : staleRun.DecidesOnLatest := h _ (reachable_sampleRun .E2E (by decide))
  obtain ⟨m, hm⟩ : ∃ m, m ∈ staleRun.latestOfSelected :=
    Option.isSome_iff_exists.mp (by decide +kernel)
  have hparent : ∀ m ∈ staleRun.latestOfSelected, m.FromParent := by decide +kernel
  have hnew : ∀ m ∈ staleRun.latestOfSelected, m.announce.grandmasterPriority1 = 150 := by
    decide +kernel
  have hold : staleRun.bmcRecord.announce.grandmasterPriority1 = 200 := by decide +kernel
  obtain ⟨hdata, -⟩ := hdecides m hm (hparent m hm) (by decide +kernel) (by decide +kernel)
    (by decide +kernel)
  generalize staleRun.bmcRecord = r at hold hdata
  have heq : r.announce.grandmasterPriority1 = m.announce.grandmasterPriority1 :=
    congrArg AnnouncedData.grandmasterPriority1 hdata
  rw [hold, hnew m hm] at heq
  exact absurd heq (by decide)

/-- The parent, followed, announces what it announced before. -/
theorem decides_on_latest_repeated :
    World.DecidesOnLatest (sampleRun .E2E [.doState, sampleAnnounce 9 200 1, .doState, .doState,
      sampleAnnounce 9 200 2, .doState]) :=
  decides_on_latest (reachable_sampleRun .E2E (by decide)) (by decide +kernel)

end Ptpd
