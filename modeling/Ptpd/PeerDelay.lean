import Ptpd.Invariant

/-! # The peer delay exchange

    The four times of an exchange are kept in separate fields: t1 when the
    request is sent, t2 and t4 when a two-step response is taken, t3 when its
    Follow_Up is. Starting the servo afresh clears them, but not the number of
    the last request, by which responses are recognised.
-/

namespace Ptpd

open PortState Engine History

/-! ## What starts the servo afresh -/

/-- The call runs `initClock`: a step of the clock, the initialisation, or a change of state. -/
def LogEntry.RunsInitClock (x : LogEntry) : Prop :=
  match x.call with
  | .setTime _ | .initData => True
  | .toState s => x.before.portDS.portState.restarts s
  | _ => False

instance : DecidablePred LogEntry.RunsInitClock := fun ⟨call, before⟩ => by
  apply @Call.casesOn (fun call => Decidable (LogEntry.RunsInitClock ⟨call, before⟩)) call
  case toState => exact fun s => decEq (before.portDS.portState.restarts s) true
  all_goals intros
  all_goals first | exact .isTrue trivial | exact .isFalse id

/-- The exchange is as it was. -/
structure Core.Keeps (c c' : Core) : Prop where
  portIdentity : c'.portIdentity = c.portIdentity
  sentPDelayReqSequenceId : c'.sentPDelayReqSequenceId = c.sentPDelayReqSequenceId
  waiting : c'.waitingForPDelayRespFollowUp = c.waitingForPDelayRespFollowUp
  pdelay_t1 : c'.pdelay_t1 = c.pdelay_t1
  pdelay_t2 : c'.pdelay_t2 = c.pdelay_t2
  pdelay_t4 : c'.pdelay_t4 = c.pdelay_t4

/-- Of the exchange only the number of the last request is left. -/
structure Core.Clears (c c' : Core) : Prop where
  sentPDelayReqSequenceId : c'.sentPDelayReqSequenceId = c.sentPDelayReqSequenceId
  waiting : c'.waitingForPDelayRespFollowUp = false
  pdelay_t1 : c'.pdelay_t1 = ⟨0, 0⟩

theorem Core.Keeps.refl (c : Core) : c.Keeps c := ⟨rfl, rfl, rfl, rfl, rfl, rfl⟩

theorem Core.Keeps.trans {c c' c'' : Core} (h : c.Keeps c') (h' : c'.Keeps c'') : c.Keeps c'' :=
  ⟨h'.1.trans h.1, h'.2.trans h.2, h'.3.trans h.3, h'.4.trans h.4, h'.5.trans h.5, h'.6.trans h.6⟩

theorem Core.Keeps.clears {c c' c'' : Core} (h : c.Keeps c') (h' : c'.Clears c'') : c.Clears c'' :=
  ⟨h'.1.trans h.2, h'.2, h'.3⟩

/-- Entering a state keeps the exchange, unless the call starts the servo afresh. -/
theorem Core.enter_exchange (c : Core) {s : PortState} {x : LogEntry} (hx : x.call = .toState s)
    (hxp : x.before.portDS.portState = c.portState) :
    (c.Keeps (c.enter s) ∧ ¬ x.RunsInitClock) ∨ c.Clears (c.enter s) := by
  unfold LogEntry.RunsInitClock
  rw [hx, hxp]
  unfold Core.enter Core.leave
  by_cases hrestart : c.portState.restarts s = true
  · rw [if_pos hrestart]
    exact .inr ⟨rfl, rfl, rfl⟩
  · rw [if_neg hrestart]
    exact .inl ⟨⟨rfl, rfl, rfl, rfl, rfl, rfl⟩, hrestart⟩

theorem not_runsInitClock_follows {x : LogEntry} {s : PortState} (hx : x.call = .toState s)
    (hxp : x.before.portDS.portState.follows) (hs : s.follows) : ¬ x.RunsInitClock := by
  unfold LogEntry.RunsInitClock
  rw [hx]
  cases hport : x.before.portDS.portState <;> rw [hport] at hxp <;>
    simp_all [PortState.restarts, PortState.follows]

/-! ## Steps that are no part of an exchange -/

/-- The exchange before and after a step, and the entries that the step adds. -/
inductive Core.Aside (c c' : Core) (new : List LogEntry) : Prop where
  | keeps (h : c.Keeps c') (hnew : ∀ x ∈ new, ¬ x.RunsInitClock)
  | clears (h : c.Clears c')

theorem Core.Aside.enter (c : Core) {s : PortState} {x : LogEntry} (hx : x.call = .toState s)
    (hxp : x.before.portDS.portState = c.portState) : c.Aside (c.enter s) [x] := by
  rcases c.enter_exchange hx hxp with ⟨hkeeps, hno⟩ | hclears
  · exact .keeps hkeeps (by simpa using hno)
  · exact .clears hclears

theorem Core.Aside.trans {c c' c'' : Core} {new new' : List LogEntry} (h : c.Keeps c')
    (hnew : ∀ x ∈ new, ¬ x.RunsInitClock) (h' : c'.Aside c'' new') :
    c.Aside c'' (new' ++ new) := by
  cases h' with
  | keeps h' hnew' => exact .keeps (h.trans h') (List.forall_mem_append.mpr ⟨hnew', hnew⟩)
  | clears h' => exact .clears (h.clears h')

theorem Decide.keeps {c c' : Core} {l l' : List LogEntry} (h : Decide c l c' l') : c.Keeps c' := by
  cases h <;> exact ⟨rfl, rfl, rfl, rfl, rfl, rfl⟩

theorem Move.aside {c c' : Core} {l l' : List LogEntry} (h : Move c l c' l') :
    ∃ new, l' = new ++ l ∧ (∀ x ∈ new, ∃ s, x.call = .toState s) ∧ c.Aside c' new := by
  have hport : ∀ {x : LogEntry} {c : Core}, x.before.core = c →
      x.before.portDS.portState = c.portState := fun h => congrArg Core.portState h
  cases h with
  | stay => exact ⟨[], rfl, by simp, .keeps (.refl c) (by simp)⟩
  | enter s x hs hx hxc => exact ⟨[x], rfl, by simpa using ⟨s, hx⟩, .enter c hx (hport hxc)⟩
  | uncalibrate x hrec hstate hx hxc =>
    exact ⟨[x], rfl, by simpa using ⟨_, hx⟩, .enter c hx (hport hxc)⟩
  | calibrated x hrec hstate hevent hx hxc =>
    have hxp : x.before.portDS.portState.follows := by
      rw [hport hxc]
      exact hstate ▸ rfl
    exact ⟨[x], rfl, by simpa using ⟨_, hx⟩, .keeps ⟨rfl, rfl, rfl, rfl, rfl, rfl⟩
      (by simpa using not_runsInitClock_follows hx hxp rfl)⟩
  | calibrating => exact ⟨[], rfl, by simp, .keeps ⟨rfl, rfl, rfl, rfl, rfl, rfl⟩ (by simp)⟩
  | slave => exact ⟨[], rfl, by simp, .keeps (.refl c) (by simp)⟩
  | recalibrate x fault changed hrec hstate hx hxe hxp =>
    exact ⟨[x], rfl, by simpa using ⟨_, hx⟩, .keeps ⟨rfl, rfl, rfl, rfl, rfl, rfl⟩
      (by simpa using not_runsInitClock_follows hx hxp rfl)⟩
  | recalibrateTwice x y hrec hstate hx hy hxe hye hxp hyp =>
    exact ⟨[y, x], rfl, by simpa using ⟨⟨_, hy⟩, ⟨_, hx⟩⟩, .keeps ⟨rfl, rfl, rfl, rfl, rfl, rfl⟩
      (by simpa using ⟨not_runsInitClock_follows hy hyp rfl, not_runsInitClock_follows hx hxp rfl⟩)⟩

theorem Filtered.keeps {c c' : Core} {new : List LogEntry} (h : Filtered c c' new) :
    c.Keeps c' := by
  obtain ⟨n, selected, fault, rfl⟩ := h.core_eq
  exact ⟨rfl, rfl, rfl, rfl, rfl, rfl⟩

theorem Measurement.keeps {c c' : Core} {l l' : List LogEntry} (h : Measurement c l c' l') :
    c.Keeps c' := by
  cases h with
  | sync => exact ⟨rfl, rfl, rfl, rfl, rfl, rfl⟩
  | syncOffset r u time stack hmem hr htype htwo hsender hstate hu huc huh hmessage hfilter =>
    obtain ⟨hid, hsent, hwaiting, ht1, ht2, ht4⟩ := hfilter.keeps
    exact ⟨hid, hsent, hwaiting, ht1, ht2, ht4⟩
  | followUp r u time stack hmem hr htype hsender hstate hwait hseq hu huc huh hmessage hfilter =>
    obtain ⟨hid, hsent, hwaiting, ht1, ht2, ht4⟩ := hfilter.keeps
    exact ⟨hid, hsent, hwaiting, ht1, ht2, ht4⟩

theorem not_runsInitClock {x : LogEntry}
    (h : ∀ time s, x.call ≠ .setTime time ∧ x.call ≠ .initData ∧ x.call ≠ .toState s) :
    ¬ x.RunsInitClock := by
  unfold LogEntry.RunsInitClock
  split
  · next time hcall => exact absurd hcall (h time .PTP_DISABLED).1
  · next hcall => exact absurd hcall (h ⟨0, 0⟩ .PTP_DISABLED).2.1
  · next s hcall => exact absurd hcall (h ⟨0, 0⟩ s).2.2
  · exact id

theorem not_runsInitClock_of_kind {x : LogEntry}
    (h : x.call.kind ≠ .clock ∧ x.call.kind ≠ .table ∧ x.call.kind ≠ .toState) :
    ¬ x.RunsInitClock := by
  obtain ⟨hclock, htable, hstate⟩ := h
  apply not_runsInitClock
  intro time s
  refine ⟨?_, ?_, ?_⟩
  · intro hcall
    simp [hcall, Call.kind] at hclock
  · intro hcall
    simp [hcall, Call.kind] at htable
  · intro hcall
    simp [hcall, Call.kind] at hstate

/-- A step is part of an exchange, or leaves the exchange alone, or clears it. -/
theorem Engine.Step.exchange {e e' : Engine} (h : Step e e') :
    PeerExchange e.core e.log e'.core e'.log ∨
      ∃ new, e'.log = new ++ e.log ∧ (∀ x ∈ new, x.call.kind ≠ .peer) ∧ e.core.Aside e'.core new := by
  cases h with
  | note x hx =>
    have hquiet : x.call.kind = .note := hx
    exact .inr ⟨[x], rfl, by simp [hquiet],
      .keeps (.refl _) (by simpa using not_runsInitClock_of_kind (by simp [hquiet]))⟩
  | @startup c l x hx hxp =>
    have hkeeps : c.Keeps { c with maxForeignRecords := DEFAULT_MAX_FOREIGN_RECORDS } :=
      ⟨rfl, rfl, rfl, rfl, rfl, rfl⟩
    have hnone : ∀ y ∈ ([] : List LogEntry), ¬ y.RunsInitClock := by simp
    exact .inr ⟨[x] ++ [], rfl, by simp [hx, Call.kind], .trans hkeeps hnone (.enter _ hx hxp)⟩
  | @toState c l s x hs hx hxp => exact .inr ⟨[x], rfl, by simp [hx, Call.kind], .enter c hx hxp⟩
  | clockStep x time hx => exact .inr ⟨[x], rfl, by simp [hx, Call.kind], .clears ⟨rfl, rfl, rfl⟩⟩
  | initialise x id p slaveOnly hstate hx =>
    exact .inr ⟨[x], rfl, by simp [hx, Call.kind], .clears ⟨rfl, rfl, rfl⟩⟩
  | decision hdecide hmove =>
    obtain ⟨new', rfl, htoState, haside⟩ := hmove.aside
    have hkind' : ∀ x ∈ new', x.call.kind ≠ .peer := by
      intro x hx
      obtain ⟨s, hs⟩ := htoState x hx
      simp [hs, Call.kind]
    -- no decision was due, or `bmc` and perhaps `s1` were recorded before the move
    rcases hdecide.log_cases with ⟨rfl, rfl⟩ | ⟨new, b, reads, rfl, hb, hnew⟩
    · exact .inr ⟨new', rfl, hkind', haside⟩
    · have hkind : ∀ x ∈ new ++ [b], x.call.kind ≠ .peer ∧ ¬ x.RunsInitClock := by
        intro x hx
        rcases List.mem_append.mp hx with hx | hx
        · obtain ⟨header, announce, hs1⟩ := hnew x hx
          exact ⟨by simp [hs1, Call.kind], not_runsInitClock_of_kind (by simp [hs1, Call.kind])⟩
        · rw [List.mem_singleton.mp hx]
          exact ⟨by simp [hb, Call.kind], not_runsInitClock (by simp [hb])⟩
      refine .inr ⟨new' ++ (new ++ [b]), by simp, ?_, ?_⟩
      · exact List.forall_mem_append.mpr ⟨hkind', fun x hx => (hkind x hx).1⟩
      · exact .trans hdecide.keeps (fun x hx => (hkind x hx).2) haside
  | @timeoutMaster c l x y p hso hx hxc hy hyp =>
    have hno : ¬ x.RunsInitClock := not_runsInitClock (by simp [hx])
    refine .inr ⟨[y] ++ [x], rfl, by simp [hx, hy, Call.kind], .trans ?_ (by simpa using hno)
      (.enter _ hy hyp)⟩
    exact ⟨rfl, rfl, rfl, rfl, rfl, rfl⟩
  | @timeoutListen c l x y hso hx hxc hy hyp =>
    have hno : ¬ x.RunsInitClock := not_runsInitClock (by simp [hx])
    refine .inr ⟨[y] ++ [x], rfl, by simp [hx, hy, Call.kind], .trans ?_ (by simpa using hno)
      (.enter _ hy hyp)⟩
    exact ⟨rfl, rfl, rfl, rfl, rfl, rfl⟩
  | timeoutStay x hso hstate hx =>
    have hno : ¬ x.RunsInitClock := not_runsInitClock (by simp [hx])
    exact .inr ⟨[x], rfl, by simp [hx, Call.kind],
      .keeps ⟨rfl, rfl, rfl, rfl, rfl, rfl⟩ (by simpa using hno)⟩
  | announceParent a x header announce hstate hsender ha hac hx =>
    exact .inr ⟨[x, a], rfl, by simp [hx, ha, Call.kind],
      .keeps ⟨rfl, rfl, rfl, rfl, rfl, rfl⟩ (by
        simpa using ⟨not_runsInitClock_of_kind (by simp [hx, Call.kind]),
          not_runsInitClock_of_kind (by simp [ha, Call.kind])⟩)⟩
  | announceForeign a x header announce hstate hsender ha hac hx =>
    exact .inr ⟨[x, a], rfl, by simp [hx, ha, Call.kind],
      .keeps ⟨rfl, rfl, rfl, rfl, rfl, rfl⟩ (by
        simpa using ⟨not_runsInitClock_of_kind (by simp [hx, Call.kind]),
          not_runsInitClock_of_kind (by simp [ha, Call.kind])⟩)⟩
  | measurement hmeasure =>
    obtain ⟨new, rfl, hnew⟩ := hmeasure.log_eq
    refine .inr ⟨new, rfl, fun x hx => ?_, .keeps hmeasure.keeps fun x hx => ?_⟩
    · rcases hnew x hx with hk | hk <;> simp [hk]
    · exact not_runsInitClock_of_kind (by rcases hnew x hx with hk | hk <;> simp [hk])
  | delayResp r x time egress stale hmem hr htype hsender hstate hsamples hx =>
    exact .inr ⟨[x], rfl, by simp [hx, Call.kind],
      .keeps (.refl _) (by simpa using not_runsInitClock_of_kind (by simp [hx, Call.kind]))⟩
  | peer hpeer => exact .inl hpeer

/-! ## Requests -/

/-- The transmit timestamp that `issuePDelayReq` gets for the Pdelay_Req of this
    entry, and keeps. -/
def LogEntry.requested? (x : LogEntry) (older : List LogEntry) : Option TimeInternal :=
  match x.call, older with
  | .send .event .peer _ (.sent time), q :: _ =>
    if time.seconds ≠ 0 ∧ q.call = .issuePDelayReq then some time else none
  | _, _ => none

theorem LogEntry.mem_requested? {x : LogEntry} {older : List LogEntry} {time : TimeInternal} :
    time ∈ x.requested? older ↔
      (∃ bytes, x.call = .send .event .peer bytes (.sent time)) ∧ time.seconds ≠ 0 ∧
        ∃ q ∈ older.head?, q.call = .issuePDelayReq := by
  unfold LogEntry.requested?
  split
  · next hcall =>
    constructor
    · intro h
      split at h
      · next hcond =>
        obtain rfl := Option.some.inj h
        exact ⟨⟨_, hcall⟩, hcond.1, _, rfl, hcond.2⟩
      · cases h
    · rintro ⟨⟨bytes, hsend⟩, hsec, q', hq', hissue⟩
      obtain rfl := Option.some.inj hq'
      rw [hcall] at hsend
      obtain ⟨-, -, -, hresult⟩ := Call.send.inj hsend
      obtain rfl := SendResult.sent.inj hresult
      exact if_pos ⟨hsec, hissue⟩
  · next hno =>
    refine ⟨nofun, ?_⟩
    rintro ⟨⟨bytes, hsend⟩, -, q, hq, -⟩
    obtain ⟨tail, htail⟩ := List.head?_eq_some_iff.mp hq
    exact (hno _ _ _ _ hsend htail).elim

/-- The last Pdelay_Req left with a transmit timestamp that was kept. -/
def LastRequested (log : List LogEntry) : Prop :=
  Since (fun x older => (x.requested? older).isSome) (fun x => x.call = .issuePDelayReq) log

instance : DecidablePred LastRequested := fun log =>
  inferInstanceAs (Decidable (Since _ _ log))

/-- A later request, or what starts the servo afresh. -/
def LogEntry.EndsExchange (x : LogEntry) : Prop := x.call = .issuePDelayReq ∨ x.RunsInitClock

instance : DecidablePred LogEntry.EndsExchange := fun _ => inferInstanceAs (Decidable (_ ∨ _))

/-- No request is about to be sent. -/
def Settled (log : List LogEntry) : Prop := ∀ q ∈ log.head?, q.call ≠ .issuePDelayReq

theorem Settled.append {new log : List LogEntry} (hlog : Settled log)
    (hnew : ∀ x ∈ new, x.call ≠ .issuePDelayReq) : Settled (new ++ log) := by
  cases new with
  | nil => exact hlog
  | cons x new =>
    intro q hq
    obtain rfl : x = q := Option.some.inj hq
    exact hnew x (by simp)

/-- Entries that are no request leave the last request as it is. -/
theorem LastRequested.of_append {new log : List LogEntry} (hlog : Settled log)
    (hnew : ∀ x ∈ new, x.call ≠ .issuePDelayReq) (h : LastRequested (new ++ log)) :
    LastRequested log := by
  induction new with
  | nil => exact h
  | cons x new ih =>
    have hnew' : ∀ x ∈ new, x.call ≠ .issuePDelayReq := fun y hy => hnew y (by simp [hy])
    rcases h with hsome | ⟨-, hrest⟩
    · obtain ⟨time, htime⟩ := Option.isSome_iff_exists.mp hsome
      obtain ⟨-, -, q, hq, hcall⟩ := LogEntry.mem_requested?.mp htime
      exact absurd hcall (hlog.append hnew' q hq)
    · exact ih hnew' hrest

/-- The request that `number` was given to, with the transmit time that is kept of it. -/
def LogEntry.RequestedAs (x : LogEntry) (older : List LogEntry) (next : UInt16)
    (t1 : TimeInternal) : Prop :=
  ∃ time ∈ x.requested? older, next = x.before.sentPDelayReqSequenceId + 1 ∧
    t1 = addTime time x.before.outboundLatency

/-- If the last request was stamped then t1 is cleared, or is the stamp of that request. -/
structure Engine.KeepsT1 (e : Engine) : Prop where
  settled : Settled e.log
  recorded : LastRequested e.log → e.core.pdelay_t1 ≠ ⟨0, 0⟩ →
    Since (fun x older => x.RequestedAs older e.core.sentPDelayReqSequenceId e.core.pdelay_t1)
      LogEntry.EndsExchange e.log

theorem Engine.KeepsT1.append {c c' : Core} {l new : List LogEntry} (h : KeepsT1 ⟨c, l⟩)
    (hsent : c'.sentPDelayReqSequenceId = c.sentPDelayReqSequenceId)
    (ht1 : c'.pdelay_t1 = c.pdelay_t1) (hnew : ∀ x ∈ new, ¬ x.EndsExchange) :
    KeepsT1 ⟨c', new ++ l⟩ := by
  have hnew' : ∀ x ∈ new, x.call ≠ .issuePDelayReq := fun x hx hcall => hnew x hx (.inl hcall)
  refine ⟨h.settled.append hnew', ?_⟩
  intro hlast hne
  have hold := h.recorded (hlast.of_append h.settled hnew') (by simpa [ht1] using hne)
  dsimp only at hold ⊢
  rw [hsent, ht1]
  exact hold.append hnew

theorem Engine.KeepsT1.clear {c c' : Core} {l new : List LogEntry} (h : KeepsT1 ⟨c, l⟩)
    (ht1 : c'.pdelay_t1 = ⟨0, 0⟩) (hnew : ∀ x ∈ new, x.call ≠ .issuePDelayReq) :
    KeepsT1 ⟨c', new ++ l⟩ :=
  ⟨h.settled.append hnew, fun _ hne => absurd ht1 hne⟩

theorem Engine.KeepsT1.request {c : Core} {l : List LogEntry} {x s : LogEntry}
    {bytes : List UInt8} {result : SendResult} {t1 : TimeInternal}
    (hx : x.call = .issuePDelayReq) (hs : s.call = .send .event .peer bytes result)
    (hsc : s.before.core = c)
    (ht1 : ∀ t, result = .sent t → t.seconds ≠ 0 → t1 = addTime t s.before.outboundLatency) :
    KeepsT1 ⟨{ c with
      sentPDelayReqSequenceId := c.sentPDelayReqSequenceId + 1
      pdelay_t1 := t1 }, s :: x :: l⟩ := by
  constructor
  · intro q hq
    obtain rfl : s = q := Option.some.inj hq
    rw [hs]
    exact Call.noConfusion
  · intro hlast hne
    -- only the entry of the send itself can be the last request
    rcases hlast with hsome | ⟨-, hsome | ⟨hstop, -⟩⟩
    · obtain ⟨time, htime⟩ := Option.isSome_iff_exists.mp hsome
      refine .inl ⟨time, htime, ?_, ?_⟩
      · exact congrArg (· + 1) (congrArg Core.sentPDelayReqSequenceId hsc).symm
      · obtain ⟨⟨bytes', hcall⟩, hsec, -⟩ := LogEntry.mem_requested?.mp htime
        rw [hs] at hcall
        obtain ⟨-, -, -, hresult⟩ := Call.send.inj hcall
        exact ht1 time hresult hsec
    · obtain ⟨time, htime⟩ := Option.isSome_iff_exists.mp hsome
      obtain ⟨⟨bytes', hcall⟩, -⟩ := LogEntry.mem_requested?.mp htime
      rw [hx] at hcall
      cases hcall
    · exact absurd hx hstop

theorem not_endsExchange {x : LogEntry} (hkind : x.call.kind ≠ .peer) (h : ¬ x.RunsInitClock) :
    ¬ x.EndsExchange := by
  rintro (hcall | hruns)
  · rw [hcall] at hkind
    exact hkind rfl
  · exact h hruns

/-- An entry of a handler that takes a message of the exchange. -/
theorem not_endsExchange_accept {x : LogEntry} {time : TimeInternal}
    (h : x.call = .acceptPDelayResp time) : ¬ x.EndsExchange := by
  unfold LogEntry.EndsExchange LogEntry.RunsInitClock
  simp [h]

theorem not_endsExchange_update {x : LogEntry} {f : TimeInternal} {two : Bool}
    (h : x.call = .updatePeerDelay f two) : ¬ x.EndsExchange := by
  unfold LogEntry.EndsExchange LogEntry.RunsInitClock
  simp [h]

theorem PeerExchange.keepsT1 {c c' : Core} {l l' : List LogEntry} (hpeer : PeerExchange c l c' l')
    (h : KeepsT1 ⟨c, l⟩) : KeepsT1 ⟨c', l'⟩ := by
  cases hpeer with
  | issuePDelayReq x s bytes result t1 hx hs hsc ht1 => exact .request hx hs hsc ht1
  | pDelayResp a time stack ha =>
    have hstay : ∀ y ∈ [a], ¬ y.EndsExchange := by simpa using not_endsExchange_accept ha
    refine h.append ?_ ?_ hstay <;> rfl
  | pDelayRespOneStep a x time ha htwo hx =>
    have hstay : ∀ y ∈ [x, a], ¬ y.EndsExchange := by
      rw [List.forall_mem_cons, List.forall_mem_singleton]
      exact ⟨not_endsExchange_update hx, not_endsExchange_accept ha⟩
    refine h.append ?_ ?_ hstay <;> rfl
  | pDelayRespFollowUp x stack hwait hx =>
    have hstay : ∀ y ∈ [x], ¬ y.EndsExchange := by simpa using not_endsExchange_update hx
    refine h.append ?_ ?_ hstay <;> rfl

theorem Engine.Step.keepsT1 {e e' : Engine} (hstep : Step e e') (h : e.KeepsT1) :
    e'.KeepsT1 := by
  rcases hstep.exchange with hpeer | ⟨new, hlog, hkind, haside⟩
  · exact hpeer.keepsT1 h
  · obtain ⟨c', l'⟩ := e'
    obtain rfl : l' = _ := hlog
    cases haside with
    | keeps hkeeps hnew =>
      exact h.append hkeeps.sentPDelayReqSequenceId hkeeps.pdelay_t1
        fun x hx => not_endsExchange (hkind x hx) (hnew x hx)
    | clears hclears =>
      refine h.clear hclears.pdelay_t1 fun x hx hcall => hkind x hx ?_
      rw [hcall]
      rfl

/-! ## Answers -/

def LogEntry.UpdatesPeerDelay (x : LogEntry) : Prop :=
  match x.call with
  | .updatePeerDelay .. => True
  | _ => False

instance : DecidablePred LogEntry.UpdatesPeerDelay := fun ⟨call, before⟩ => by
  apply @Call.casesOn (fun call => Decidable (LogEntry.UpdatesPeerDelay ⟨call, before⟩)) call
  all_goals intros
  all_goals first | exact .isTrue trivial | exact .isFalse id

theorem LogEntry.UpdatesPeerDelay.exists {x : LogEntry} (h : x.UpdatesPeerDelay) :
    ∃ f two, x.call = .updatePeerDelay f two := by
  unfold LogEntry.UpdatesPeerDelay at h
  split at h
  · next hcall => exact ⟨_, _, hcall⟩
  · exact h.elim

/-- The message at hand answers the last request, t1 is the transmit time of that
    request, and the servo has not been started afresh since it was sent. -/
def LogEntry.AnswersRequest (x : LogEntry) (older : List LogEntry) : Prop :=
  Since (fun s before => ∃ time ∈ s.requested? before,
      s.before.sentPDelayReqSequenceId = x.before.msgTmpHeader.sequenceId ∧
      x.before.pdelay_t1 = addTime time s.before.outboundLatency)
    LogEntry.EndsExchange older

instance (x : LogEntry) (older : List LogEntry) : Decidable (x.AnswersRequest older) :=
  inferInstanceAs (Decidable (Since _ _ older))

/-- The last request left with a transmit timestamp, and t1 has not been cleared. -/
def LogEntry.FindsT1 (x : LogEntry) (older : List LogEntry) : Prop :=
  LastRequested older ∧ x.before.pdelay_t1 ≠ ⟨0, 0⟩

instance (x : LogEntry) (older : List LogEntry) : Decidable (x.FindsT1 older) :=
  inferInstanceAs (Decidable (_ ∧ _))

/-- The condition on the request is necessary. -/
theorem LogEntry.AnswersRequest.lastRequested {x : LogEntry} {older : List LogEntry}
    (h : x.AnswersRequest older) : LastRequested older := by
  refine Since.imp_stop (fun _ => .inl) (h.imp ?_)
  intro s before hs
  obtain ⟨time, htime, -⟩ := hs
  exact Option.isSome_iff_exists.mpr ⟨time, htime⟩

/-- A response is recognised by the number of the last request. -/
theorem lastNumber_eq {next s q : UInt16} (h : next = s + 1)
    (hq : (next.toNat : Int) - 1 = q.toNat) : s = q := by
  have hs := s.toNat_lt
  have hnext : next.toNat = (s.toNat + 1) % 65536 := by
    rw [h]
    simp [UInt16.toNat_add]
  apply UInt16.toNat_inj.mp
  omega

theorem Engine.KeepsT1.answers {c : Core} {l : List LogEntry} {x : LogEntry} (h : KeepsT1 ⟨c, l⟩)
    (hlast : LastRequested l) (hne : x.before.pdelay_t1 ≠ ⟨0, 0⟩)
    (ht1 : x.before.pdelay_t1 = c.pdelay_t1)
    (hseq : (c.sentPDelayReqSequenceId.toNat : Int) - 1 = x.before.msgTmpHeader.sequenceId.toNat) :
    x.AnswersRequest l := by
  have hrecorded := h.recorded hlast (by rw [← ht1]; exact hne)
  refine hrecorded.imp fun s before ⟨time, hreq, hnext, hstamp⟩ => ?_
  exact ⟨time, hreq, lastNumber_eq hnext hseq, ht1.trans hstamp⟩

/-- What holds of each update of the peer delay. -/
def Engine.AnswersKept (e : Engine) : Prop :=
  Every (fun x older => x.UpdatesPeerDelay → x.FindsT1 older → x.AnswersRequest older) e.log

theorem PeerExchange.answersKept {c c' : Core} {l l' : List LogEntry}
    (hpeer : PeerExchange c l c' l') (ht1 : KeepsT1 ⟨c, l⟩) (h : AnswersKept ⟨c, l⟩) :
    AnswersKept ⟨c', l'⟩ := by
  have hno : ∀ {x : LogEntry}, (∀ f two, x.call ≠ .updatePeerDelay f two) →
      ∀ older, x.UpdatesPeerDelay → x.FindsT1 older → x.AnswersRequest older := by
    intro x hx older hupdate
    obtain ⟨f, two, hcall⟩ := hupdate.exists
    exact absurd hcall (hx f two)
  cases hpeer with
  | issuePDelayReq x s bytes result t1 hx hs =>
    exact ⟨hno (by simp [hs]) _, hno (by simp [hx]) _, h⟩
  | pDelayResp a time stack ha => exact ⟨hno (by simp [ha]) _, h⟩
  | pDelayRespOneStep a x time ha htwo hx hxc hseq =>
    -- the update comes right after the entry of the response
    refine ⟨fun _ ⟨hlast, hne⟩ => ?_, hno (by simp [ha]) _, h⟩
    have hstay : ∀ y ∈ [a], ¬ y.EndsExchange := by simpa using not_endsExchange_accept ha
    have hcall : ∀ y ∈ [a], y.call ≠ .issuePDelayReq := by simp [ha]
    have hlast' : LastRequested l := LastRequested.of_append ht1.settled hcall hlast
    have hanswers : x.AnswersRequest l :=
      ht1.answers hlast' hne (congrArg Core.pdelay_t1 hxc) hseq
    exact hanswers.append hstay
  | pDelayRespFollowUp x stack hwait hx hxc htype hseq =>
    refine ⟨fun _ ⟨hlast, hne⟩ => ?_, h⟩
    exact ht1.answers hlast hne (congrArg Core.pdelay_t1 hxc) hseq.symm

theorem Engine.Step.answersKept {e e' : Engine} (hstep : Step e e') (ht1 : e.KeepsT1)
    (h : e.AnswersKept) : e'.AnswersKept := by
  rcases hstep.exchange with hpeer | ⟨new, hlog, hkind, -⟩
  · exact hpeer.answersKept ht1 h
  · unfold Engine.AnswersKept
    rw [hlog]
    apply h.append
    intro x hx older hupdate
    obtain ⟨f, two, hcall⟩ := hupdate.exists
    exact absurd (hcall ▸ rfl) (hkind x hx)

theorem Engine.Initial.keepsT1 {e : Engine} (h : Engine.Initial e) :
    e.KeepsT1 ∧ e.AnswersKept := by
  obtain ⟨x, hlog, hx⟩ := h.log
  refine ⟨⟨?_, ?_⟩, ?_⟩
  · rw [hlog]
    intro q hq
    obtain rfl : x = q := Option.some.inj hq
    simp [hx]
  · rw [h.core]
    intro _ hne
    exact absurd rfl hne
  · unfold Engine.AnswersKept
    rw [hlog]
    refine ⟨fun hupdate => ?_, trivial⟩
    obtain ⟨f, two, hcall⟩ := hupdate.exists
    simp [hx] at hcall

/-- Whenever the peer delay is updated, t1 is the transmit time of the request that
    is answered and the servo has run on since, in every run in which an answer is
    only handled while t1 of a stamped request is there. -/
theorem pdelay_t1_of_request {w : World} (hw : Reachable w)
    (hfinds : Every (fun x older => x.UpdatesPeerDelay → x.FindsT1 older) w.log) :
    Every (fun x older => x.UpdatesPeerDelay → x.AnswersRequest older) w.log := by
  have hkeeps : ∀ e e' : Engine, Step e e' → True → e.KeepsT1 ∧ e.AnswersKept →
      e'.KeepsT1 ∧ e'.AnswersKept := by
    rintro e e' hstep - ⟨ht1, hkept⟩
    exact ⟨hstep.keepsT1 ht1, hstep.answersKept ht1 hkept⟩
  have hinv : w.engine.KeepsT1 ∧ w.engine.AnswersKept :=
    @Reachable.invariant w hw (fun e => e.KeepsT1 ∧ e.AnswersKept) (fun _ => True)
      (fun e he => he.keepsT1) (fun _ _ _ _ => trivial) hkeeps trivial
  have hkept : Every (fun x older => x.UpdatesPeerDelay → x.FindsT1 older →
      x.AnswersRequest older) w.log := hinv.2
  rw [every_iff] at hfinds hkept ⊢
  exact fun newer x older hlog hupdate => hkept newer x older hlog hupdate
    (hfinds newer x older hlog hupdate)

/-- A peer whose request timers do run, after these inputs. -/
def peerRun (inputs : List Input) : World :=
  runInputs inputs (ptpdStartup (.sample .P2P)
    (World.zero { Platform.steady with rand := fun _ => 700 }))

theorem reachable_peerRun {inputs : List Input} (hv : ∀ input ∈ inputs, input.Valid) :
    Reachable (peerRun inputs) :=
  (Reachable.init _ (.sample .P2P) rfl).runInputs hv

/-- It becomes master and sends its first Pdelay_Req. -/
def firstRequest : List Input :=
  [.doState, .catchAlarm 12000, .doState, .catchAlarm 1000, .doState]

/-- Clock 9 answers that request, in one step. -/
def firstResponse : Input :=
  .netRecvEventCallback (samplePacket (sampleMessage .PDELAY_RESP 0 9 0
    [0, 0, 0, 0, 0, 100, 0, 0, 0, 0, 1, 2, 3, 0xff, 0xfe, 4, 5, 6, 0, 1]) 101)

/-- The answer is handled. -/
def answeredRun : World := peerRun (firstRequest ++ [firstResponse, .doState])

/-- The clock is stepped while the answer is on its way. -/
def steppedRun : World := peerRun (firstRequest ++ [.adjust ⟨2, 0⟩, firstResponse, .doState])

set_option maxRecDepth 3000 in
theorem pdelay_t1_of_request_answered :
    Every (fun x older => x.UpdatesPeerDelay → x.AnswersRequest older) answeredRun.log := by
  have hreach : Reachable answeredRun := reachable_peerRun (by decide +kernel)
  exact pdelay_t1_of_request hreach (by decide +kernel)

/-- The answer is taken all the same, and t1 is gone. -/
theorem clock_step_loses_t1 :
    Reachable steppedRun ∧
      (∃ x ∈ steppedRun.log, x.UpdatesPeerDelay ∧ x.before.pdelay_t1 = ⟨0, 0⟩) ∧
      ¬ Every (fun x older => x.UpdatesPeerDelay → x.AnswersRequest older) steppedRun.log :=
  ⟨reachable_peerRun (by decide +kernel), by decide +kernel, by decide +kernel⟩

end Ptpd
