import Ptpd.Refinement.Act

/-! # Recognising responses

    A response is taken if its number is that of the last request. The code
    subtracts 1 from the counter after it has been promoted to a wider type, so
    that the number of the last request is not found when the counter is 0.
-/

namespace Ptpd

open PortState

/-! ## The three handlers -/

/-- The messages that are recognised by the number of a request. -/
inductive Response where
  | delayResp
  | pDelayResp (time : TimeInternal)
  | pDelayRespFollowUp

namespace Response

/-- The handler, for a message of another port. -/
def handle : Response → World → World
  | delayResp => handleDelayResp
  | pDelayResp time => handlePDelayResp time false
  | pDelayRespFollowUp => handlePDelayRespFollowUp

/-- The number of the next request. -/
def counter : Response → PtpClock → UInt16
  | delayResp, c => c.sentDelayReqSequenceId
  | pDelayResp _, c | pDelayRespFollowUp, c => c.sentPDelayReqSequenceId

/-- The number of the request issued last. -/
def lastNumber (r : Response) (c : PtpClock) : UInt16 := r.counter c - 1

/-- The call that records that a response was taken. -/
def acceptance : Response → Call
  | delayResp => .acceptDelayResp
  | pDelayResp time => .acceptPDelayResp time
  | pDelayRespFollowUp => .acceptPDelayRespFollowUp

/-- The message at hand is of a port that the handler listens to, for this port,
    long enough, and the port is in a state that processes it. -/
def Processed : Response → World → Prop
  | delayResp, w =>
    w.portDS.delayMechanism = .E2E ∧ (DELAY_RESP_LENGTH : Int) ≤ w.msgIbufLength ∧
      (w.portDS.portState = PTP_UNCALIBRATED ∨ w.portDS.portState = PTP_SLAVE) ∧
      w.isFromCurrentParent ∧
      (msgUnpackDelayResp w.msgIbuf).requestingPortIdentity = w.portDS.portIdentity
  | pDelayResp _, w =>
    w.portDS.delayMechanism = .P2P ∧ (PDELAY_RESP_LENGTH : Int) ≤ w.msgIbufLength ∧
      (w.portDS.portState = PTP_SLAVE ∨ w.portDS.portState = PTP_MASTER) ∧
      (msgUnpackPDelayResp w.msgIbuf).requestingPortIdentity = w.portDS.portIdentity
  | pDelayRespFollowUp, w =>
    w.portDS.delayMechanism = .P2P ∧ (PDELAY_RESP_FOLLOW_UP_LENGTH : Int) ≤ w.msgIbufLength ∧
      (w.portDS.portState = PTP_SLAVE ∨ w.portDS.portState = PTP_MASTER) ∧
      w.waitingForPDelayRespFollowUp ∧
      (msgUnpackPDelayRespFollowUp w.msgIbuf).requestingPortIdentity = w.portDS.portIdentity

instance (r : Response) : DecidablePred r.Processed := fun w => by
  cases r <;> unfold Processed <;> infer_instance

/-- The handler takes the message at hand. -/
def Accepted (r : Response) (w : World) : Prop :=
  ∃ x ∈ entriesSince w (r.handle w), x.call = r.acceptance

/-- The message at hand, numbered as a response to the request before the last `n`. -/
def numbered (r : Response) (n : Nat) (w : World) : World :=
  { w with msgTmpHeader.sequenceId := r.lastNumber w.toPtpClock - UInt16.ofNat n }

/-- Of the responses to the last 65536 requests the one to the last request is
    taken, and no other. -/
def Recognises (r : Response) (w : World) : Prop :=
  ∀ n < 65536, r.Accepted (r.numbered n w) ↔ n = 0

end Response

/-! ## Requests and their numbers -/

/-- A numbered message is sent with its number. -/
theorem issued_number {port : UdpPort} {group : Group} {m : Outgoing} {n : Nat} {w : World}
    {q : UInt16} (hn : 34 ≤ n) (hseq : m.sequenceId w.toPtpClock = some q) :
    ∃ buf, (w.issued port group m n).HandsOver m.messageType buf ∧
      (msgUnpackHeader buf).sequenceId = q := by
  refine ⟨_, (issued_sends port group m w hn).mpr ⟨rfl, rfl⟩, ?_⟩
  rw [msgUnpackHeader_bufOf _ hn, msgUnpackHeader_pack, Outgoing.header, hseq]
  rfl

/-- The Delay_Req that is sent carries the number that is the last one from then on. -/
theorem issueDelayReq_lastNumber (w : World) :
    ∃ x ∈ entriesSince w (issueDelayReq w), ∃ buf, x.HandsOver .DELAY_REQ buf ∧
      (msgUnpackHeader buf).sequenceId =
        Response.delayResp.lastNumber (issueDelayReq w).toPtpClock := by
  have hnumber : Response.delayResp.lastNumber (issueDelayReq w).toPtpClock =
      w.sentDelayReqSequenceId := by
    rw [Response.lastNumber, Response.counter, issueDelayReq_counts]
    simp
  have hlog : (issueDelayReq w).log = [w.popTime.popTimestamp.issued .event .ptp
      (.delayReq (w.popTime.external w.platform.time.head)) DELAY_REQ_LENGTH] ++ w.log := by
    rw [issueDelayReq_eq]
    dsimp only
    split <;> rfl
  rw [hnumber, entriesSince_eq hlog]
  exact ⟨_, List.mem_singleton_self _, issued_number (by decide) rfl⟩

/-- So does the Pdelay_Req. -/
theorem issuePDelayReq_lastNumber (w : World) :
    ∃ x ∈ entriesSince w (issuePDelayReq w), ∃ buf, x.HandsOver .PDELAY_REQ buf ∧
      (msgUnpackHeader buf).sequenceId =
        Response.pDelayRespFollowUp.lastNumber (issuePDelayReq w).toPtpClock := by
  have hnumber : Response.pDelayRespFollowUp.lastNumber (issuePDelayReq w).toPtpClock =
      w.sentPDelayReqSequenceId := by
    rw [Response.lastNumber, Response.counter, issuePDelayReq_counts]
    simp
  have hlog : (issuePDelayReq w).log =
      [(w.record .issuePDelayReq).popTime.popTimestamp.issued .event .peer
          (.pDelayReq ((w.record .issuePDelayReq).popTime.external w.platform.time.head))
          PDELAY_REQ_LENGTH,
        ⟨.issuePDelayReq, w.toPtpClock⟩] ++ w.log := by
    rw [issuePDelayReq_eq]
    dsimp only
    split <;> rfl
  rw [hnumber, entriesSince_eq hlog]
  exact ⟨_, List.mem_cons_self, issued_number (by decide) rfl⟩

/-! ## What the handlers do -/

variable {w w' : World}

/-- A call that is recorded first is among the new entries. -/
theorem mem_entriesSince {P : Call → Prop} {call : Call} (h : Grows P (w.record call) w') :
    ⟨call, w.toPtpClock⟩ ∈ entriesSince w w' := by
  obtain ⟨new, hlog, -⟩ := h
  have hlog' : w'.log = (new ++ [⟨call, w.toPtpClock⟩]) ++ w.log := by
    rw [hlog, List.append_assoc]
    rfl
  rw [entriesSince_eq hlog']
  exact List.mem_append_right new List.mem_cons_self

theorem acceptDelayResp_records (w : World) :
    ⟨.acceptDelayResp, w.toPtpClock⟩ ∈ entriesSince w (acceptDelayResp w) := by
  apply mem_entriesSince
  unfold acceptDelayResp
  dsimp only
  exact (((storeDelayResp_quiet _).trans (updateDelay_quiet _ _ _ _)).trans
    (.of_eq rfl rfl)).grows

theorem acceptTwoStepPDelayResp_records (time : TimeInternal) (w : World) :
    ⟨.acceptPDelayResp time, w.toPtpClock⟩ ∈ entriesSince w (acceptTwoStepPDelayResp time w) := by
  apply mem_entriesSince
  have hgrows : Grows Call.calm (w.record (.acceptPDelayResp time))
      (acceptTwoStepPDelayResp time w) := .of_eq rfl
  exact hgrows

theorem acceptOneStepPDelayResp_records (time : TimeInternal) (w : World) :
    ⟨.acceptPDelayResp time, w.toPtpClock⟩ ∈ entriesSince w (acceptOneStepPDelayResp time w) := by
  apply mem_entriesSince
  unfold acceptOneStepPDelayResp
  dsimp only
  exact ((storePDelayResp_quiet _ _ _).trans (updatePeerDelay_quiet _ _ _)).grows

theorem acceptPDelayRespFollowUp_records (w : World) :
    ⟨.acceptPDelayRespFollowUp, w.toPtpClock⟩ ∈ entriesSince w (acceptPDelayRespFollowUp w) := by
  have hstore : ∀ t (w : World), Quiet w (storePDelayRespFollowUp t w) := fun _ _ => .of_eq rfl rfl
  apply mem_entriesSince
  unfold acceptPDelayRespFollowUp
  dsimp only
  exact ((((newTimeInternal_quiet _ _).trans (hstore _ _)).trans
    (updatePeerDelay_quiet _ _ _)).trans (.of_eq rfl rfl)).grows

/-- A handler that does nothing takes nothing. -/
theorem not_accepted {r : Response} (h : r.handle w = w) : ¬ r.Accepted w := by
  rintro ⟨x, hx, -⟩
  rw [h, show entriesSince w w = [] from entriesSince_eq rfl] at hx
  cases hx

/-- A handler that takes the message on one condition, and else does nothing. -/
theorem accepted_of_handle {r : Response} {p : Prop} [Decidable p] {taken : World}
    (hhandle : r.handle w = if p then taken else w)
    (htaken : ⟨r.acceptance, w.toPtpClock⟩ ∈ entriesSince w taken) : r.Accepted w ↔ p := by
  by_cases hp : p
  · rw [if_pos hp] at hhandle
    refine iff_of_true ⟨⟨r.acceptance, w.toPtpClock⟩, ?_, rfl⟩ hp
    rw [hhandle]
    exact htaken
  · rw [if_neg hp] at hhandle
    exact iff_of_false (not_accepted hhandle) hp

theorem handleDelayResp_processed (h : Response.delayResp.Processed w) :
    handleDelayResp w =
      if (w.sentDelayReqSequenceId.toNat : Int) - 1 = w.msgTmpHeader.sequenceId.toNat then
        acceptDelayResp w
      else w := by
  obtain ⟨hmech, hlen, hstate, hparent, hport⟩ := h
  have hcurrent : isSamePortIdentity w.portDS.portIdentity
      (msgUnpackDelayResp w.msgIbuf).requestingPortIdentity = true :=
    isSamePortIdentity_iff.mpr hport.symm
  unfold handleDelayResp
  rw [hmech]
  dsimp only
  rw [if_neg (by omega), hcurrent, hparent]
  rcases hstate with hstate | hstate
  · rw [hstate]
    simp
  · rw [hstate]
    simp

theorem handlePDelayResp_processed {time : TimeInternal} (h : (Response.pDelayResp time).Processed w) :
    handlePDelayResp time false w =
      if (w.sentPDelayReqSequenceId.toNat : Int) - 1 = w.msgTmpHeader.sequenceId.toNat then
        if w.isTwoStep then acceptTwoStepPDelayResp time w else acceptOneStepPDelayResp time w
      else w := by
  obtain ⟨hmech, hlen, hstate, hport⟩ := h
  have hcurrent : isSamePortIdentity w.portDS.portIdentity
      (msgUnpackPDelayResp w.msgIbuf).requestingPortIdentity = true :=
    isSamePortIdentity_iff.mpr hport.symm
  unfold handlePDelayResp
  rw [hmech]
  dsimp only
  rw [if_neg (by omega), hcurrent]
  rcases hstate with hstate | hstate
  · rw [hstate]
    simp
  · rw [hstate]
    simp

theorem handlePDelayRespFollowUp_processed (h : Response.pDelayRespFollowUp.Processed w) :
    handlePDelayRespFollowUp w =
      if (w.msgTmpHeader.sequenceId.toNat : Int) = w.sentPDelayReqSequenceId.toNat - 1 then
        acceptPDelayRespFollowUp w
      else w := by
  obtain ⟨hmech, hlen, hstate, hwait, hport⟩ := h
  unfold handlePDelayRespFollowUp
  rw [hmech]
  dsimp only
  rw [if_neg (by omega), hwait]
  rcases hstate with hstate | hstate
  · rw [hstate]
    simp
  · rw [hstate]
    simp

/-- The test that all three handlers make. -/
theorem Response.accepted_iff {r : Response} (h : r.Processed w) :
    r.Accepted w ↔
      ((r.counter w.toPtpClock).toNat : Int) - 1 = w.msgTmpHeader.sequenceId.toNat := by
  cases r with
  | delayResp => exact accepted_of_handle (handleDelayResp_processed h) (acceptDelayResp_records w)
  | pDelayResp time =>
    refine accepted_of_handle (handlePDelayResp_processed h) ?_
    split
    · exact acceptTwoStepPDelayResp_records time w
    · exact acceptOneStepPDelayResp_records time w
  | pDelayRespFollowUp =>
    have hiff : Response.pDelayRespFollowUp.Accepted w ↔
        (w.msgTmpHeader.sequenceId.toNat : Int) = w.sentPDelayReqSequenceId.toNat - 1 :=
      accepted_of_handle (handlePDelayRespFollowUp_processed h) (acceptPDelayRespFollowUp_records w)
    exact hiff.trans eq_comm

/-! ## Numbers -/

theorem Response.Processed.numbered {r : Response} (h : r.Processed w) (n : Nat) :
    r.Processed (r.numbered n w) := by
  cases r with
  | delayResp => exact h
  | pDelayResp time => exact h
  | pDelayRespFollowUp => exact h

theorem Response.numbered_counter (r : Response) (n : Nat) (w : World) :
    r.counter (r.numbered n w).toPtpClock = r.counter w.toPtpClock := by
  cases r <;> rfl

/-- The number of the request before the last `n` is what the code computes only
    for the last, and only if the counter has not wrapped to 0. -/
theorem sub_one_eq_iff (counter : UInt16) {n : Nat} (hn : n < 65536) :
    (counter.toNat : Int) - 1 = (counter - 1 - UInt16.ofNat n).toNat ↔ n = 0 ∧ counter ≠ 0 := by
  have hlt := counter.toNat_lt
  have hzero : counter = 0 ↔ counter.toNat = 0 := by
    rw [← UInt16.toNat_inj]
    rfl
  have hnumber : (counter - 1 - UInt16.ofNat n).toNat =
      (65536 - n + (65536 - 1 + counter.toNat) % 65536) % 65536 := by
    simp [UInt16.toNat_sub, Nat.mod_eq_of_lt hn]
  rw [hnumber, ne_eq, hzero]
  omega

/-- The responses are recognised exactly if the counter is not 0. -/
theorem recognises_iff {r : Response} (h : r.Processed w) :
    r.Recognises w ↔ r.counter w.toPtpClock ≠ 0 := by
  have haccepted : ∀ n < 65536,
      (r.Accepted (r.numbered n w) ↔ n = 0 ∧ r.counter w.toPtpClock ≠ 0) := by
    intro n hn
    rw [Response.accepted_iff (h.numbered n), r.numbered_counter]
    exact sub_one_eq_iff (r.counter w.toPtpClock) hn
  constructor
  · intro hall
    exact ((haccepted 0 (by omega)).mp ((hall 0 (by omega)).mpr rfl)).2
  · intro hcounter n hn
    rw [haccepted n hn]
    exact and_iff_left hcounter

/-- A port that follows clock 9, has numbered its next Delay_Req like this and
    sends it, with the Delay_Resp of clock 9 at hand. -/
def answeredAfter (number : UInt16) : World :=
  let w := sampleRun .E2E [.doState, sampleAnnounce 9 200 1, .doState, .doState]
  let w := issueDelayReq { w with sentDelayReqSequenceId := number }
  let buf := bufOf (sampleMessage .DELAY_RESP 0 9 0
    [0, 0, 0, 0, 0, 100, 0, 0, 0, 9, 1, 2, 3, 0xff, 0xfe, 4, 5, 6, 0, 1])
  { w with msgIbuf := buf, msgTmpHeader := msgUnpackHeader buf, msgIbufLength := DELAY_RESP_LENGTH }

theorem recognises_first : Response.delayResp.Recognises (answeredAfter 0) :=
  (recognises_iff (by decide +kernel)).mpr (by decide +kernel)

/-- The Delay_Resp to the request of number 65535 is not taken. -/
theorem wrapped_not_recognised :
    ¬ ∀ (r : Response) (w : World), r.Processed w → r.Recognises w := by
  intro h
  have hprocessed : Response.delayResp.Processed (answeredAfter 65535) := by decide +kernel
  have haccepted := (h .delayResp _ hprocessed 0 (by decide)).mpr rfl
  have heq := (Response.accepted_iff (hprocessed.numbered 0)).mp haccepted
  revert heq
  decide +kernel

end Ptpd
