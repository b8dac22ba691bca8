import Ptpd.PeerDelay

/-! # Responses and their Follow_Ups

    A two-step Pdelay_Resp is stored by one handler and used by another, when
    its Follow_Up arrives. The response is recognised by the number of the last
    request and by the port that it names, the Follow_Up by the number alone,
    and a request that is sent in between leaves the stored response waiting.
-/

namespace Ptpd

open PortState Engine History

/-! ## What an update uses -/

/-- A Pdelay_Resp is taken for the answer to the last request. -/
def LogEntry.TakesPDelayResp (x : LogEntry) : Prop :=
  match x.call with
  | .acceptPDelayResp _ => True
  | _ => False

instance : DecidablePred LogEntry.TakesPDelayResp := fun ⟨call, before⟩ => by
  apply @Call.casesOn (fun call => Decidable (LogEntry.TakesPDelayResp ⟨call, before⟩)) call
  all_goals intros
  all_goals first | exact .isTrue trivial | exact .isFalse id

/-- A two-step response to this port is taken, and t2 and t4 are those of it. -/
structure LogEntry.Fills (a : LogEntry) (c : Core) : Prop where
  takes : a.call = .acceptPDelayResp c.pdelay_t4
  response : a.before.handles .PDELAY_RESP
  twoStep : a.before.isTwoStep
  t2 : ∃ stack, c.pdelay_t2 =
    toInternalTime stack (msgUnpackPDelayResp a.before.msgIbuf).requestReceiptTimestamp
  requesting : (msgUnpackPDelayResp a.before.msgIbuf).requestingPortIdentity = c.portIdentity

theorem LogEntry.Fills.takesPDelayResp {a : LogEntry} {c : Core} (h : a.Fills c) :
    a.TakesPDelayResp := by
  unfold LogEntry.TakesPDelayResp
  rw [h.takes]
  trivial

/-- The peer delay is updated with the times of a two-step exchange. -/
def LogEntry.UpdatesTwoStep (x : LogEntry) : Prop :=
  match x.call with
  | .updatePeerDelay _ true => True
  | _ => False

instance : DecidablePred LogEntry.UpdatesTwoStep := fun ⟨call, before⟩ => by
  apply @Call.casesOn (fun call => Decidable (LogEntry.UpdatesTwoStep ⟨call, before⟩)) call
  case updatePeerDelay =>
    intro f twoStep
    exact match twoStep with
      | true => .isTrue trivial
      | false => .isFalse id
  all_goals intros; exact .isFalse id

theorem LogEntry.UpdatesTwoStep.exists {x : LogEntry} (h : x.UpdatesTwoStep) :
    ∃ f, x.call = .updatePeerDelay f true := by
  unfold LogEntry.UpdatesTwoStep at h
  split at h
  · next hcall => exact ⟨_, hcall⟩
  · exact h.elim

/-- The Follow_Up at hand gives t3 and names this port. -/
structure LogEntry.FollowsUp (x : LogEntry) : Prop where
  followUp : x.before.handles .PDELAY_RESP_FOLLOW_UP
  t3 : ∃ stack, x.before.pdelay_t3 =
    toInternalTime stack (msgUnpackPDelayRespFollowUp x.before.msgIbuf).responseOriginTimestamp
  requesting : (msgUnpackPDelayRespFollowUp x.before.msgIbuf).requestingPortIdentity =
    x.before.portDS.portIdentity

/-- `a` gave t2 and t4, and has the number and the sender of the message at hand. -/
structure LogEntry.Matches (a x : LogEntry) : Prop where
  fills : a.Fills x.before.core
  sequenceId : a.before.msgTmpHeader.sequenceId = x.before.msgTmpHeader.sequenceId
  sender : a.before.sender = x.before.sender

/-- The last response taken and the Follow_Up at hand belong together. -/
structure LogEntry.Paired (x : LogEntry) (older : List LogEntry) : Prop where
  followsUp : x.FollowsUp
  matched : Since (fun a _ => a.Matches x) LogEntry.TakesPDelayResp older

/-! ## What the code does not check -/

/-- Another response is taken, or another request is sent. -/
def LogEntry.EndsAnswer (x : LogEntry) : Prop := x.TakesPDelayResp ∨ x.call = .issuePDelayReq

instance : DecidablePred LogEntry.EndsAnswer := fun _ => inferInstanceAs (Decidable (_ ∨ _))

/-- The message at hand names this port and comes from the sender of the last
    response taken, after which no request was sent. -/
def LogEntry.Continues (x : LogEntry) (older : List LogEntry) : Prop :=
  (msgUnpackPDelayRespFollowUp x.before.msgIbuf).requestingPortIdentity =
      x.before.portDS.portIdentity ∧
    Since (fun a _ => a.TakesPDelayResp ∧ a.before.sender = x.before.sender)
      LogEntry.EndsAnswer older

instance (x : LogEntry) (older : List LogEntry) : Decidable (x.Continues older) :=
  inferInstanceAs (Decidable (_ ∧ _))

theorem LogEntry.EndsAnswer.kind {x : LogEntry} (h : x.EndsAnswer) : x.call.kind = .peer := by
  rcases h with htakes | hissue
  · unfold LogEntry.TakesPDelayResp at htakes
    split at htakes
    · next hcall =>
      rw [hcall]
      rfl
    · exact htakes.elim
  · rw [hissue]
    rfl

/-! ## The response that is waited for -/

/-- `a` gave t2 and t4, and has the number of the last request. -/
def LogEntry.Answers (a : LogEntry) (c : Core) : Prop :=
  a.Fills c ∧ (c.sentPDelayReqSequenceId.toNat : Int) - 1 = a.before.msgTmpHeader.sequenceId.toNat

theorem LogEntry.Answers.keeps {a : LogEntry} {c c' : Core} (h : a.Answers c)
    (hkeeps : c.Keeps c') : a.Answers c' := by
  obtain ⟨⟨htakes, htype, htwo, ht2, hrequesting⟩, hseq⟩ := h
  refine ⟨⟨?_, htype, htwo, ?_, ?_⟩, ?_⟩
  · rw [hkeeps.pdelay_t4]
    exact htakes
  · rw [hkeeps.pdelay_t2]
    exact ht2
  · rw [hkeeps.portIdentity]
    exact hrequesting
  · rw [hkeeps.sentPDelayReqSequenceId]
    exact hseq

/-- While a Follow_Up is waited for and no request has been sent since a response
    was taken, that response gave t2 and t4. -/
def Engine.KeepsAnswer (e : Engine) : Prop :=
  e.core.waitingForPDelayRespFollowUp →
    Since (fun a _ => a.TakesPDelayResp) LogEntry.EndsAnswer e.log →
      Since (fun a _ => a.Answers e.core) LogEntry.EndsAnswer e.log

theorem Engine.KeepsAnswer.append {c c' : Core} {l new : List LogEntry} (h : KeepsAnswer ⟨c, l⟩)
    (hkeeps : c.Keeps c') (hnew : ∀ x ∈ new, ¬ x.EndsAnswer) : KeepsAnswer ⟨c', new ++ l⟩ := by
  intro hwait hsince
  have hno : ∀ x ∈ new, List LogEntry → ¬ x.TakesPDelayResp :=
    fun x hx _ htakes => hnew x hx (.inl htakes)
  have hanswers := h (hkeeps.waiting ▸ hwait) (hsince.of_append hno)
  exact (hanswers.imp fun a _ ha => ha.keeps hkeeps).append hnew

theorem Engine.KeepsAnswer.clear {c : Core} {l : List LogEntry}
    (hwait : c.waitingForPDelayRespFollowUp = false) : KeepsAnswer ⟨c, l⟩ := by
  intro hwaiting
  rw [hwait] at hwaiting
  cases hwaiting

theorem PeerExchange.keepsAnswer {c c' : Core} {l l' : List LogEntry}
    (hpeer : PeerExchange c l c' l') : KeepsAnswer ⟨c', l'⟩ := by
  cases hpeer with
  | issuePDelayReq x s bytes result t1 hx hs =>
    -- the request stands between the last response and the end of the history
    rintro - (htakes | ⟨-, htakes | ⟨hno, -⟩⟩)
    · simp [LogEntry.TakesPDelayResp, hs] at htakes
    · simp [LogEntry.TakesPDelayResp, hx] at htakes
    · exact absurd (.inr hx) hno
  | pDelayResp a time stack ha hac htype htwo hrequest hseq =>
    intro _ _
    exact .inl ⟨⟨ha, htype, htwo, ⟨stack, rfl⟩, hrequest⟩, hseq⟩
  | pDelayRespOneStep => exact .clear rfl
  | pDelayRespFollowUp => exact .clear rfl

theorem Engine.Step.keepsAnswer {e e' : Engine} (hstep : Step e e') (h : e.KeepsAnswer) :
    e'.KeepsAnswer := by
  rcases hstep.exchange with hpeer | ⟨new, hlog, hkind, haside⟩
  · exact hpeer.keepsAnswer
  · obtain ⟨c', l'⟩ := e'
    obtain rfl : l' = _ := hlog
    cases haside with
    | keeps hkeeps hnew => exact h.append hkeeps fun x hx hends => hkind x hx hends.kind
    | clears hclears => exact .clear hclears.waiting

/-! ## Pairs -/

theorem Engine.KeepsAnswer.matched {c : Core} {l : List LogEntry} {x : LogEntry}
    (h : KeepsAnswer ⟨c, l⟩) (hwait : c.waitingForPDelayRespFollowUp) (hxc : x.before.core = c)
    (hseq : (x.before.msgTmpHeader.sequenceId.toNat : Int) = c.sentPDelayReqSequenceId.toNat - 1)
    (hcont : x.Continues l) :
    Since (fun a _ => a.Matches x) LogEntry.TakesPDelayResp l := by
  obtain ⟨-, hsender⟩ := hcont
  have hanswers := h hwait (hsender.imp fun a _ ha => ha.1)
  have hboth := hanswers.and (fun a _ ha => .inl ha.1.takesPDelayResp) (fun a _ ha => .inl ha.1)
    hsender
  refine (hboth.imp fun a _ ⟨⟨hfills, hnumber⟩, _, heq⟩ => ?_).imp_stop fun _ => .inl
  refine ⟨hxc ▸ hfills, ?_, heq⟩
  apply UInt16.toNat_inj.mp
  dsimp only at hnumber
  omega

/-- What holds of each two-step update of the peer delay. -/
def Engine.PairsKept (e : Engine) : Prop :=
  Every (fun x older => x.UpdatesTwoStep → x.Continues older → x.Paired older) e.log

theorem PeerExchange.pairsKept {c c' : Core} {l l' : List LogEntry} (hpeer : PeerExchange c l c' l')
    (hkeeps : KeepsAnswer ⟨c, l⟩) (h : PairsKept ⟨c, l⟩) : PairsKept ⟨c', l'⟩ := by
  have hno : ∀ {x : LogEntry}, (∀ f, x.call ≠ .updatePeerDelay f true) →
      ∀ older, x.UpdatesTwoStep → x.Continues older → x.Paired older := by
    intro x hx older hupdate
    obtain ⟨f, hcall⟩ := hupdate.exists
    exact absurd hcall (hx f)
  cases hpeer with
  | issuePDelayReq x s bytes result t1 hx hs =>
    exact ⟨hno (by simp [hs]) _, hno (by simp [hx]) _, h⟩
  | pDelayResp a time stack ha => exact ⟨hno (by simp [ha]) _, h⟩
  | pDelayRespOneStep a x time ha htwo hx =>
    have hone : ∀ f, x.call ≠ .updatePeerDelay f true := by
      intro f hcall
      rw [hx] at hcall
      simp at hcall
    exact ⟨hno hone _, hno (by simp [ha]) _, h⟩
  | pDelayRespFollowUp x stack hwait hx hxc htype hseq ht3 =>
    exact ⟨fun _ hcont => ⟨⟨htype, ⟨stack, ht3⟩, hcont.1⟩,
      hkeeps.matched hwait hxc hseq hcont⟩, h⟩

theorem Engine.Step.pairsKept {e e' : Engine} (hstep : Step e e') (hkeeps : e.KeepsAnswer)
    (h : e.PairsKept) : e'.PairsKept := by
  rcases hstep.exchange with hpeer | ⟨new, hlog, hkind, -⟩
  · exact hpeer.pairsKept hkeeps h
  · unfold Engine.PairsKept
    rw [hlog]
    apply h.append
    intro x hx older hupdate
    obtain ⟨f, hcall⟩ := hupdate.exists
    exact absurd (hcall ▸ rfl) (hkind x hx)

theorem Engine.Initial.pairsKept {e : Engine} (h : Engine.Initial e) :
    e.KeepsAnswer ∧ e.PairsKept := by
  obtain ⟨x, hlog, hx⟩ := h.log
  constructor
  · intro hwait
    rw [h.core] at hwait
    cases hwait
  · unfold Engine.PairsKept
    rw [hlog]
    refine ⟨fun hupdate => ?_, trivial⟩
    obtain ⟨f, hcall⟩ := hupdate.exists
    simp [hx] at hcall

/-- Each two-step update of the peer delay uses a response and a Follow_Up of one
    number and one sender that both name this port, in every run in which each
    Follow_Up that is used names it too and continues the last response taken. -/
theorem pdelay_t3_of_response {w : World} (hw : Reachable w)
    (hcont : Every (fun x older => x.UpdatesTwoStep → x.Continues older) w.log) :
    Every (fun x older => x.UpdatesTwoStep → x.Paired older) w.log := by
  have hkeeps : ∀ e e' : Engine, Step e e' → True → e.KeepsAnswer ∧ e.PairsKept →
      e'.KeepsAnswer ∧ e'.PairsKept := by
    rintro e e' hstep - ⟨hanswer, hkept⟩
    exact ⟨hstep.keepsAnswer hanswer, hstep.pairsKept hanswer hkept⟩
  have hinv : w.engine.KeepsAnswer ∧ w.engine.PairsKept :=
    @Reachable.invariant w hw (fun e => e.KeepsAnswer ∧ e.PairsKept) (fun _ => True)
      (fun e he => he.pairsKept) (fun _ _ _ _ => trivial) hkeeps trivial
  have hkept : Every (fun x older => x.UpdatesTwoStep → x.Continues older → x.Paired older)
      w.log := hinv.2
  rw [every_iff] at hcont hkept ⊢
  exact fun newer x older hlog hupdate => hkept newer x older hlog hupdate
    (hcont newer x older hlog hupdate)

/-- A message of clock `source` to port 1 of the clock whose octets end in `last`. -/
def sampleResponse (t : MessageType) (source last : UInt8) : Pbuf :=
  samplePacket (sampleMessage t FLAG0_TWO_STEP source 0
    [0, 0, 0, 0, 0, 100, 0, 0, 0, 0, 1, 2, 3, 0xff, 0xfe, 4, 5, last, 0, 1]) 101

/-- Clock 9 answers the first request in two steps, and this Follow_Up is received. -/
def followUpRun (followUp : Pbuf) : World :=
  peerRun (firstRequest ++ [.netRecvEventCallback (sampleResponse .PDELAY_RESP 9 6), .doState,
    .netRecvGeneralCallback followUp, .doState])

set_option maxRecDepth 3000 in
theorem pdelay_t3_of_response_followed :
    Every (fun x older => x.UpdatesTwoStep → x.Paired older)
      (followUpRun (sampleResponse .PDELAY_RESP_FOLLOW_UP 9 6)).log := by
  have hreach : Reachable (followUpRun (sampleResponse .PDELAY_RESP_FOLLOW_UP 9 6)) :=
    reachable_peerRun (by decide +kernel)
  exact pdelay_t3_of_response hreach (by decide +kernel)

/-- Follow_Ups that are used name this port. -/
theorem names_of_paired {log : List LogEntry}
    (h : Every (fun x older => x.UpdatesTwoStep → x.Paired older) log) :
    Every (fun x _ => x.UpdatesTwoStep →
      (msgUnpackPDelayRespFollowUp x.before.msgIbuf).requestingPortIdentity =
        x.before.portDS.portIdentity) log :=
  h.imp fun _ _ hx hupdate => (hx hupdate).followsUp.requesting

set_option maxRecDepth 3000 in
/-- The Follow_Up by which clock 8 answers a third port is taken for that of clock 9. -/
theorem foreign_followUp_taken :
    Reachable (followUpRun (sampleResponse .PDELAY_RESP_FOLLOW_UP 8 7)) ∧
      ¬ Every (fun x older => x.UpdatesTwoStep → x.Paired older)
        (followUpRun (sampleResponse .PDELAY_RESP_FOLLOW_UP 8 7)).log :=
  ⟨reachable_peerRun (by decide +kernel),
    fun hpaired => absurd (names_of_paired hpaired) (by decide +kernel)⟩

end Ptpd
