import Ptpd.Refinement.Act

/-! # Mastership

    A port that is recommended to be master describes itself in its parent data
    set, and a port that may only be a slave is never recommended to be one. So
    what a master announces is its own clock, and a slave-only port neither
    enters a master state nor sends what masters send.
-/

namespace Ptpd

open PortState Engine Octets

variable {w w' : World}

theorem PtpClock.AdvertisesOwn.congr {c c' : PtpClock} (h : c.AdvertisesOwn)
    (heq : c'.dataSets = c.dataSets) : c'.AdvertisesOwn := by
  have hdefault := congrArg DataSets.defaultDS heq
  constructor
  · exact (congrArg DataSets.grandmasterIdentity heq).trans
      (h.grandmasterIdentity.trans (congrArg DefaultDS.clockIdentity hdefault).symm)
  · exact (congrArg DataSets.grandmasterClockQuality heq).trans
      (h.grandmasterClockQuality.trans (congrArg DefaultDS.clockQuality hdefault).symm)
  · exact (congrArg DataSets.grandmasterPriority1 heq).trans
      (h.grandmasterPriority1.trans (congrArg DefaultDS.priority1 hdefault).symm)
  · exact (congrArg DataSets.grandmasterPriority2 heq).trans
      (h.grandmasterPriority2.trans (congrArg DefaultDS.priority2 hdefault).symm)
  · exact (congrArg DataSets.stepsRemoved heq).trans h.stepsRemoved

theorem isSlaveOnly_congr {c c' : PtpClock} (heq : c'.dataSets = c.dataSets) :
    c'.isSlaveOnly = c.isSlaveOnly :=
  congrArg (fun d : DataSets => d.defaultDS.slaveOnly || d.defaultDS.clockQuality.clockClass == 255)
    heq

/-! ## The state decision -/

theorem bmcStateDecision_master {header : MsgHeader} {announce : MsgAnnounce} {w : World}
    (h : (bmcStateDecision header announce w).1 = PTP_MASTER) :
    (bmcStateDecision header announce w).2.AdvertisesOwn := by
  have hm1 : ∀ w : World, (m1 w).AdvertisesOwn := fun _ => ⟨rfl, rfl, rfl, rfl, rfl⟩
  unfold bmcStateDecision at h ⊢
  split at h
  · cases h
  · next hlisten =>
    rw [if_neg hlisten]
    dsimp only at h ⊢
    split at h
    · next hclass =>
      rw [if_pos hclass]
      split at h
      · next hbetter =>
        rw [if_pos hbetter]
        exact hm1 _
      · cases h
    · next hclass =>
      rw [if_neg hclass]
      split at h
      · next hbetter =>
        rw [if_pos hbetter]
        exact hm1 _
      · cases h

theorem recommend_dataSets (d : PortState × World) :
    (recommend d).dataSets = d.2.dataSets := by
  unfold recommend
  dsimp only
  split
  · split <;> rfl
  · split <;> rfl
  · rfl

theorem recommend_slaveOnly {r : PortState} {w : World} (hr : r = PTP_MASTER ∨ r = PTP_PASSIVE)
    (h : w.isSlaveOnly) : (recommend (r, w)).recommendedState = PTP_LISTENING := by
  rcases hr with rfl | rfl
  all_goals exact congrArg (fun w : World => w.recommendedState) (if_pos h)

/-- A slave-only port is not recommended to lead or to be passive. -/
theorem recommend_masked (d : PortState × World) (h : (recommend d).isSlaveOnly) :
    (recommend d).recommendedState ≠ PTP_MASTER ∧
      (recommend d).recommendedState ≠ PTP_PASSIVE := by
  obtain ⟨r, w⟩ := d
  have hslave : w.isSlaveOnly = true := (isSlaveOnly_congr (recommend_dataSets (r, w))) ▸ h
  cases r
  case PTP_MASTER =>
    rw [recommend_slaveOnly (.inl rfl) hslave]
    exact ⟨by simp, by simp⟩
  case PTP_PASSIVE =>
    rw [recommend_slaveOnly (.inr rfl) hslave]
    exact ⟨by simp, by simp⟩
  all_goals exact ⟨PortState.noConfusion, PortState.noConfusion⟩

theorem recommend_master {d : PortState × World}
    (h : (recommend d).recommendedState = PTP_MASTER) : d.1 = PTP_MASTER := by
  obtain ⟨r, w⟩ := d
  cases r
  case PTP_MASTER => rfl
  case PTP_PASSIVE =>
    by_cases hslave : w.isSlaveOnly = true
    · rw [recommend_slaveOnly (.inr rfl) hslave] at h
      cases h
    · have hpassive : (recommend (PTP_PASSIVE, w)).recommendedState = PTP_PASSIVE :=
        congrArg (fun w : World => w.recommendedState) (if_neg hslave)
      rw [hpassive] at h
      cases h
  all_goals cases h

/-! ## The invariant -/

/-- What the recommendation to be master, or passive, presupposes. -/
structure World.Leadership (w : World) : Prop where
  own : w.recommendedState = PTP_MASTER → w.AdvertisesOwn
  masked : w.isSlaveOnly → w.recommendedState ≠ PTP_MASTER ∧ w.recommendedState ≠ PTP_PASSIVE

/-- Nothing that the invariant speaks of has changed. -/
theorem World.Leadership.congr (h : w.Leadership) (hdata : w'.dataSets = w.dataSets)
    (hrec : w'.recommendedState = w.recommendedState) : w'.Leadership where
  own hmaster := (h.own (hrec.symm.trans hmaster)).congr hdata
  masked hslave := by
    rw [hrec]
    exact h.masked ((isSlaveOnly_congr hdata).symm.trans hslave)

/-- Neither state is recommended. -/
theorem World.Leadership.of_rec (hmaster : w.recommendedState ≠ PTP_MASTER)
    (hpassive : w.recommendedState ≠ PTP_PASSIVE) : w.Leadership :=
  ⟨fun h => absurd h hmaster, fun _ => ⟨hmaster, hpassive⟩⟩

theorem toState_recommendedState (s : PortState) (w : World) :
    (toState s w).recommendedState = (w.core.enter s).recommendedState :=
  congrArg Core.recommendedState (toState_noted s w).core_eq

theorem World.Leadership.toState (h : w.Leadership) (s : PortState) :
    (toState s w).Leadership := by
  have hrec := toState_recommendedState s w
  by_cases hi : s = PTP_INITIALIZING
  · subst hi
    exact .of_rec (by rw [hrec]; simp [Core.enter]) (by rw [hrec]; simp [Core.enter])
  · by_cases hl : s = PTP_LISTENING
    · subst hl
      exact .of_rec (by rw [hrec]; simp [Core.enter]) (by rw [hrec]; simp [Core.enter])
    · exact h.congr (toState_dataSets s w)
        (hrec.trans (Core.enter_recommendedState w.core hi hl))

theorem World.Leadership.stateDecision (h : w.Leadership) : (stateDecision w).Leadership := by
  rw [stateDecision_eq]
  split
  · rw [bmc_eq]
    generalize ({ w with events.STATE_DECISION_EVENT := false } : World) = w₁
    refine ⟨fun hmaster => ?_, recommend_masked _⟩
    have hdecision := bmcStateDecision_master (recommend_master hmaster)
    exact hdecision.congr (recommend_dataSets _)
  · exact h

theorem Act.leadership (h : Act w w') (hw : w.Leadership) : w'.Leadership := by
  cases h with
  | quiet h =>
    exact hw.congr (congrArg Setting.dataSets h.setting)
      (congrArg Setting.recommendedState h.setting)
  | toState s => exact hw.toState s
  | initClock =>
    exact hw.congr (initClock_dataSets w)
      (congrArg Core.recommendedState (initClock_noted w).core_eq)
  | receiveEvent time =>
    exact hw.congr (congrArg Setting.dataSets (netRecvEvent_setting time w))
      (congrArg Core.recommendedState (netRecvEvent_noted time w).core_eq)
  | receiveGeneral time =>
    exact hw.congr (congrArg Setting.dataSets (netRecvGeneral_setting time w))
      (congrArg Core.recommendedState (netRecvGeneral_noted time w).core_eq)
  | decide => exact hw.stateDecision
  | follow header announce hport hc =>
    -- the parent data set is overwritten, but by a port that is to be slave
    have hrec : w.recommendedState = PTP_SLAVE := hc.recommends hport
    have hrec' : (s1 header announce w).recommendedState = PTP_SLAVE := hrec
    exact .of_rec (by simp [hrec']) (by simp [hrec'])
  | restart => exact hw.congr rfl rfl
  | m1 => exact ⟨fun _ => ⟨rfl, rfl, rfl, rfl, rfl⟩, hw.masked⟩
  | lead hso hown =>
    refine ⟨fun _ => hown.congr rfl, ?_⟩
    intro hslave
    have hslave' : w.isSlaveOnly = true := hslave
    rw [hso] at hslave'
    cases hslave'
  | netInit =>
    exact hw.congr
      ((netInit_setting w).elim (congrArg Setting.dataSets) (congrArg Setting.dataSets))
      (congrArg (fun e => e.core.recommendedState) (netInit_engine w))
  | initData hport hc =>
    have hrec : w.recommendedState = PTP_INITIALIZING := by
      have hagrees := hc.agrees
      rw [show w.core.portState = _ from hport] at hagrees
      exact hagrees
    have hrec' : (Ptpd.initData w).recommendedState = PTP_INITIALIZING := hrec
    exact .of_rec (by simp [hrec']) (by simp [hrec'])
  | issue => exact hw.congr rfl rfl
  | startup => exact hw.congr rfl rfl

theorem Event.leadership (h : Event w w') (hw : w.Leadership) : w'.Leadership := by
  cases h with
  | act h => exact h.leadership hw
  | arriveEvent p =>
    exact hw.congr (congrArg Setting.dataSets (netRecvEventCallback_setting p w))
      (congrArg Core.recommendedState (netRecvEventCallback_noted p w).core_eq)
  | arriveGeneral p =>
    exact hw.congr (congrArg Setting.dataSets (netRecvGeneralCallback_setting p w))
      (congrArg Core.recommendedState (netRecvGeneralCallback_noted p w).core_eq)

theorem leadership_zero (platform : Platform) : (World.zero platform).Leadership :=
  .of_rec (by simp [World.zero, PtpClock.zero]) (by simp [World.zero, PtpClock.zero])

theorem Reachable.leadership (hw : Reachable w) : w.Leadership :=
  hw.of_events World.Leadership leadership_zero fun _ _ => Event.leadership

/-! ## What is sent -/

/-- Who sends a message of a master is one. -/
theorem Records.sends_leads {x : LogEntry} {t : MessageType} {buf : Buf} (h : Records w x)
    (hsends : x.HandsOver t buf) (ht : t.leads) :
    ∃ port group m, x = w.issued port group m m.length ∧ t = m.messageType ∧
      buf = bufOf (take m.length (m.pack w.toPtpClock w.msgObuf)) ∧
      w.recommendedState = PTP_MASTER := by
  obtain ⟨hmsg, htype⟩ := hsends
  cases h with
  | issue port group m hx hport hc =>
    -- sent by a port in MASTER, which is recommended to be there
    have hlen : 34 ≤ m.length := le_trans (by decide) m.length_ge
    subst hx
    obtain ⟨hbuf, hm⟩ := (issued_sends port group m w hlen).mp ⟨hmsg, htype⟩
    have hagrees := hc.agrees
    rw [show w.core.portState = _ from hport] at hagrees
    exact ⟨port, group, m, rfl, hm, hbuf, hagrees⟩
  | calm h =>
    unfold LogEntry.message? at hmsg
    split at hmsg
    · next port group bytes result hcall =>
      rw [hcall] at h
      obtain rfl := Option.some.inj hmsg
      exact absurd ⟨t, htype, ht⟩ h
    · cases hmsg
  | free p hcall =>
    rw [LogEntry.message?, hcall] at hmsg
    cases hmsg
  | toState s hcall =>
    rw [LogEntry.message?, hcall] at hmsg
    cases hmsg
  | initData hcall =>
    rw [LogEntry.message?, hcall] at hmsg
    cases hmsg

/-- The Announce describes this clock. -/
structure MsgAnnounce.IsOwn (a : MsgAnnounce) (c : PtpClock) : Prop where
  grandmasterIdentity : a.grandmasterIdentity = c.defaultDS.clockIdentity
  grandmasterClockQuality : a.grandmasterClockQuality = c.defaultDS.clockQuality
  grandmasterPriority1 : a.grandmasterPriority1 = c.defaultDS.priority1
  grandmasterPriority2 : a.grandmasterPriority2 = c.defaultDS.priority2
  stepsRemoved : a.stepsRemoved = 0

theorem msgUnpackAnnounce_bufOf {n : Nat} (buf : Buf) (h : 64 ≤ n) :
    msgUnpackAnnounce (bufOf (take n buf)) = msgUnpackAnnounce buf := by
  have hsame : ∀ i < 64, bufOf (take n buf) i = buf i := fun i hi => bufOf_take buf (by omega)
  have hget : ∀ off, off + 2 ≤ 64 → get16 (bufOf (take n buf)) off = get16 buf off :=
    fun off hoff => get16_congr fun i _ hi => hsame i (by omega)
  have hid : getClockIdentity (bufOf (take n buf)) 53 = getClockIdentity buf 53 :=
    getVec_congr fun i _ hi => hsame i (by omega)
  simp only [msgUnpackAnnounce, getTimestamp_bufOf buf (show 34 + 10 ≤ n by omega), hid,
    hget 44 (by omega), hget 50 (by omega), hget 61 (by omega), hsame 47 (by omega),
    hsame 48 (by omega), hsame 49 (by omega), hsame 52 (by omega), hsame 63 (by omega)]

/-- What is packed from a parent data set that names the local clock. -/
theorem PtpClock.AdvertisesOwn.isOwn {c : PtpClock} (h : c.AdvertisesOwn) (buf : Buf) :
    (msgUnpackAnnounce (bufOf (take ANNOUNCE_LENGTH (msgPackAnnounce c buf)))).IsOwn c := by
  rw [msgUnpackAnnounce_bufOf _ (by decide), msgUnpackAnnounce_pack]
  exact ⟨h.grandmasterIdentity, rfl, h.grandmasterPriority1, h.grandmasterPriority2,
    h.stepsRemoved⟩

/-! ## Main results -/

/-- What holds of every message of a master, given what was recommended when it
    was sent, holds of the whole history. -/
theorem Reachable.forall_sent (hw : Reachable w) {p : LogEntry → Prop}
    (hp : ∀ x : LogEntry, (∀ t buf, x.HandsOver t buf → ¬ t.leads) → p x)
    (hissue : ∀ (w : World) port group m, w.Leadership → w.recommendedState = PTP_MASTER →
      p (w.issued port group m m.length)) : ∀ x ∈ w.log, p x := by
  have hinv : w.Leadership ∧ ∀ x ∈ w.log, p x := by
    refine hw.of_events (fun w => w.Leadership ∧ ∀ x ∈ w.log, p x) ?_ ?_
    · intro platform
      exact ⟨leadership_zero platform, by simp [World.zero]⟩
    rintro w w' hevent ⟨hlead, hlog⟩
    refine ⟨hevent.leadership hlead, hevent.forall_log hlog ?_⟩
    intro x hx
    by_cases hsends : ∃ t buf, x.HandsOver t buf ∧ t.leads
    · obtain ⟨t, buf, hsends, ht⟩ := hsends
      obtain ⟨port, group, m, rfl, -, -, hrec⟩ := hx.sends_leads hsends ht
      exact hissue w port group m hlead hrec
    · exact hp x fun t buf h ht => hsends ⟨t, buf, h, ht⟩
  exact hinv.2

/-- A slave-only port is never in a master state or passive, and never sends
    what masters send. -/
theorem slaveOnly_never_leads (hw : Reachable w) :
    (w.isSlaveOnly → w.portDS.portState ≠ PTP_PRE_MASTER ∧ w.portDS.portState ≠ PTP_MASTER ∧
      w.portDS.portState ≠ PTP_PASSIVE) ∧
    ∀ x ∈ w.log, x.before.isSlaveOnly → ∀ t, t.leads → ∀ buf, ¬ x.HandsOver t buf := by
  constructor
  · intro hslave
    obtain ⟨hmaster, hpassive⟩ := hw.leadership.masked hslave
    have hagrees := hw.consistent.agrees
    refine ⟨fun hport => ?_, fun hport => ?_, fun hport => ?_⟩
    all_goals rw [show w.core.portState = _ from hport] at hagrees
    · exact hmaster hagrees
    · exact hmaster hagrees
    · exact hpassive hagrees
  · refine hw.forall_sent ?_ ?_
    · intro x hx hslave t ht buf hsends
      exact hx t buf hsends ht
    · intro w port group m hlead hrec hslave
      exact absurd hrec (hlead.masked hslave).1

/-- The board as one that may only be a slave, after the announce receipt timeout. -/
def slaveOnlyBoard : World :=
  runInputs [.doState, .catchAlarm 12000, .doState]
    (ptpdStartup { RunTimeOpts.sample .E2E with slaveOnly := true } (World.zero .steady))

theorem slaveOnly_never_leads_board :
    slaveOnlyBoard.portDS.portState ≠ PTP_PRE_MASTER ∧
      slaveOnlyBoard.portDS.portState ≠ PTP_MASTER ∧
      slaveOnlyBoard.portDS.portState ≠ PTP_PASSIVE := by
  have hreach : Reachable slaveOnlyBoard :=
    (Reachable.init .steady { RunTimeOpts.sample .E2E with slaveOnly := true } rfl).runInputs
      (by simp [Input.Valid])
  exact (slaveOnly_never_leads hreach).1 (by decide +kernel)

/-- A master, and a port that is to be one, has the local clock as its
    grandmaster, and every Announce describes the clock that sends it. -/
theorem masters_advertise_own (hw : Reachable w) :
    (w.portDS.portState = PTP_PRE_MASTER ∨ w.portDS.portState = PTP_MASTER → w.AdvertisesOwn) ∧
    ∀ x ∈ w.log, ∀ buf, x.HandsOver .ANNOUNCE buf → (msgUnpackAnnounce buf).IsOwn x.before := by
  constructor
  · intro hport
    refine hw.leadership.own ?_
    have hagrees := hw.consistent.agrees
    rcases hport with hport | hport
    all_goals
      rw [show w.core.portState = _ from hport] at hagrees
      exact hagrees
  · refine hw.forall_sent ?_ ?_
    · intro x hx buf hsends
      exact absurd rfl (hx .ANNOUNCE buf hsends)
    · intro w port group m hlead hrec buf hsends
      have hlen : 34 ≤ m.length := le_trans (by decide) m.length_ge
      obtain ⟨rfl, hm⟩ := (issued_sends port group m w hlen).mp hsends
      have hown : w.AdvertisesOwn := hlead.own hrec
      cases m with
      | announce =>
        obtain ⟨hid, hquality, hp1, hp2, hsteps⟩ := hown.isOwn w.msgObuf
        exact ⟨hid, hquality, hp1, hp2, hsteps⟩
      | _ => cases hm

/-- The board becomes master after the announce receipt timeout, and announces itself. -/
theorem masters_advertise_own_alone :
    (sampleRun .E2E [.doState, .catchAlarm 12000, .doState]).AdvertisesOwn :=
  (masters_advertise_own (reachable_sampleRun .E2E (by decide))).1 (.inr (by decide +kernel))

end Ptpd
