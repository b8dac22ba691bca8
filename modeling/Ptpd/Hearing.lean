import Ptpd.Lib.Wire
import Ptpd.PacketCopy
import Ptpd.Sending

/-! # What a port hears

    Everything that a port handles was on the wire: whatever order its packets
    come in, the octets that it unpacks are those of a message that somebody
    sent, in full, and not what an earlier message has left in the buffer.
-/

namespace Ptpd

open PortState Octets

variable {w w' : World} {K K' : Set (List UInt8)}

/-! ## Chains -/

/-- The copy of a well-formed chain puts its octets at the front of the buffer. -/
theorem Pbuf.WellChained.take_copy {p : Pbuf} (h : p.WellChained) (buf : Buf) :
    take p.tot_len (copyPayload p.tot_len 0 0 p.payload buf) = p.payload.flatten := by
  have hlength : p.payload.flatten.length = p.tot_len := by
    rw [List.length_flatten, h.tot_len]
  rw [copyPayload_of_checked (h.copied buf)]
  apply List.ext_getElem?
  intro i
  by_cases hi : i < p.tot_len
  · rw [take_getElem? _ hi, List.getElem?_eq_getElem (by omega)]
    simp [overwrite, List.getElem?_eq_getElem (hlength.symm ▸ hi)]
  · rw [List.getElem?_eq_none (by rw [take_length]; omega), List.getElem?_eq_none (by omega)]

/-! ## The invariant -/

/-- The packet carries octets of `K`, or none. -/
def Pbuf.HeardIn (K : Set (List UInt8)) (p : Pbuf) : Prop :=
  p = default ∨ p.WellChained ∧ p.payload.flatten ∈ K

/-- The message at hand is one of `K`. -/
def PtpClock.AtHandIn (K : Set (List UInt8)) (c : PtpClock) : Prop :=
  ∃ bytes ∈ K, c.msgIbufLength = bytes.length ∧ take bytes.length c.msgIbuf = bytes

/-- What is handled or accepted is a message of `K`. -/
def LogEntry.HeardIn (K : Set (List UInt8)) (x : LogEntry) : Prop :=
  match x.call with
  | .received _ =>
    x.before.msgTmpHeader = msgUnpackHeader x.before.msgIbuf ∧
      HEADER_LENGTH ≤ x.before.msgIbufLength ∧ x.before.AtHandIn K
  | .acceptAnnounce header announce =>
    header = msgUnpackHeader x.before.msgIbuf ∧ announce = msgUnpackAnnounce x.before.msgIbuf ∧
      MessageType.ofCode header.messageType = some .ANNOUNCE ∧
      ANNOUNCE_LENGTH ≤ x.before.msgIbufLength ∧ x.before.AtHandIn K ∧
      header.sourcePortIdentity ≠ x.before.portDS.portIdentity
  | _ => True

/-- The port has heard nothing that is not in `K`. -/
structure World.HasHeard (K : Set (List UInt8)) (w : World) : Prop where
  slots : ∀ p, w.HasSlot p → p.HeardIn K
  inbox : w.msgIbufLength ≤ 0 ∨ w.AtHandIn K
  log : ∀ x ∈ w.log, x.HeardIn K

theorem PtpClock.AtHandIn.mono {c : PtpClock} (hK : K ⊆ K') (h : c.AtHandIn K) :
    c.AtHandIn K' := by
  obtain ⟨bytes, hbytes, hrest⟩ := h
  exact ⟨bytes, hK hbytes, hrest⟩

theorem Pbuf.HeardIn.mono {p : Pbuf} (hK : K ⊆ K') (h : p.HeardIn K) : p.HeardIn K' :=
  h.imp_right fun ⟨hchained, hmem⟩ => ⟨hchained, hK hmem⟩

theorem LogEntry.HeardIn.mono {x : LogEntry} (hK : K ⊆ K') (h : x.HeardIn K) : x.HeardIn K' := by
  unfold HeardIn at h ⊢
  cases hcall : x.call with
  | received time =>
    rw [hcall] at h
    obtain ⟨hheader, hlength, hhand⟩ := h
    exact ⟨hheader, hlength, hhand.mono hK⟩
  | acceptAnnounce header announce =>
    rw [hcall] at h
    obtain ⟨hheader, hannounce, htype, hlength, hhand, hforeign⟩ := h
    exact ⟨hheader, hannounce, htype, hlength, hhand.mono hK, hforeign⟩
  | _ => trivial

theorem World.HasHeard.mono (hK : K ⊆ K') (h : w.HasHeard K) : w.HasHeard K' where
  slots p hp := (h.slots p hp).mono hK
  inbox := h.inbox.imp_right (·.mono hK)
  log x hx := (h.log x hx).mono hK

theorem LogEntry.HeardIn.of_mute {x : LogEntry} (h : x.call.mute) : x.HeardIn K := by
  unfold HeardIn
  cases hcall : x.call with
  | received time =>
    rw [hcall] at h
    exact h.elim
  | acceptAnnounce header announce =>
    rw [hcall] at h
    exact h.elim
  | _ => trivial

/-! ## One step -/

theorem Grows.hasHeard (h : Grows Call.mute w w') (hlog : ∀ x ∈ w.log, x.HeardIn K) :
    ∀ x ∈ w'.log, x.HeardIn K := by
  obtain ⟨new, heq, hnew⟩ := h
  intro x hx
  rw [heq] at hx
  rcases List.mem_append.mp hx with hx | hx
  · exact .of_mute (hnew x hx)
  · exact hlog x hx

/-- The buffers and queues are the same, and nothing was heard. -/
theorem World.HasHeard.frame (h : w.HasHeard K) (hbuf : w'.msgIbuf = w.msgIbuf)
    (hlength : w'.msgIbufLength = w.msgIbufLength)
    (hevent : w'.netPath.eventQ.pbuf = w.netPath.eventQ.pbuf)
    (hgeneral : w'.netPath.generalQ.pbuf = w.netPath.generalQ.pbuf)
    (hlog : ∀ x ∈ w'.log, x.HeardIn K) : w'.HasHeard K where
  slots p hp := by
    apply h.slots
    obtain ⟨k, hk⟩ := hp
    rw [hevent, hgeneral] at hk
    exact ⟨k, hk⟩
  inbox := by
    unfold PtpClock.AtHandIn
    rw [hlength, hbuf]
    exact h.inbox
  log := hlog

theorem Muted.hasHeard (h : Muted w w') (hw : w.HasHeard K) : w'.HasHeard K :=
  hw.frame (congrArg Line.msgIbuf h.line) (congrArg Line.msgIbufLength h.line)
    (congrArg Line.eventSlots h.line) (congrArg Line.generalSlots h.line) (h.grows.hasHeard hw.log)

theorem enter_hasHeard (s : PortState) (h : w.HasHeard K) : (toState s w).HasHeard K := by
  have hline := toState_line s w
  apply h.frame
  · exact congrArg Line.msgIbuf hline
  · exact congrArg Line.msgIbufLength hline
  · exact congrArg Line.eventSlots hline
  · exact congrArg Line.generalSlots hline
  · exact (toState_mute s w).hasHeard h.log

theorem takeIn_hasHeard {p : Pbuf} (hp : w.HasSlot p) (h : w.HasHeard K) :
    (w.takeIn p).HasHeard K where
  slots := h.slots
  inbox := by
    rcases h.slots p hp with rfl | ⟨hchained, hmem⟩
    · exact .inl le_rfl
    · refine .inr ⟨p.payload.flatten, hmem, ?_, ?_⟩
      · rw [List.length_flatten, ← hchained.tot_len]
        rfl
      · rw [List.length_flatten, ← hchained.tot_len]
        exact hchained.take_copy w.msgIbuf
  log := h.log

theorem Exchange.hasHeard (h : Exchange w w') (hw : w.HasHeard K) : w'.HasHeard K := by
  cases h with
  | muted h => exact h.hasHeard hw
  | takeIn p hp => exact takeIn_hasHeard hp hw
  | nothing => exact ⟨hw.slots, .inl le_rfl, hw.log⟩
  | fault => exact enter_hasHeard PTP_FAULTY hw
  | receive time hheader hlength =>
    refine hw.frame rfl rfl rfl rfl (List.forall_mem_cons.mpr ⟨?_, hw.log⟩)
    have hhand : w.AtHandIn K := by
      apply hw.inbox.resolve_left
      have hpos : (0 : Int) < HEADER_LENGTH := by decide
      omega
    exact ⟨hheader, hlength, hhand⟩
  | accept hat hlength hforeign =>
    refine hw.frame rfl rfl rfl rfl (List.forall_mem_cons.mpr ⟨?_, hw.log⟩)
    have hhand : w.AtHandIn K := by
      apply hw.inbox.resolve_left
      have hpos : (0 : Int) < ANNOUNCE_LENGTH := by decide
      omega
    exact ⟨hat.header, rfl, hat.handles, hlength, hhand, hforeign⟩
  | emit m =>
    refine hw.frame ?_ ?_ ?_ ?_ ?_
    iterate 4 cases m <;> rfl
    rw [World.emit_log]
    exact List.forall_mem_cons.mpr ⟨trivial, hw.log⟩

theorem initialise_hasHeard (h : w.HasHeard K) : (initialise w).HasHeard K := by
  have hdata : (initTimer (initData w)).HasHeard K :=
    h.frame rfl rfl rfl rfl (List.forall_mem_cons.mpr ⟨trivial, h.log⟩)
  have hclock := (initClock_muted (initTimer (initData w))).hasHeard hdata
  unfold initialise
  generalize initClock (initTimer (initData w)) = w₁ at hclock ⊢
  exact hclock.frame rfl rfl rfl rfl hclock.log

theorem Talk.hasHeard (h : Talk w w') (hw : w.HasHeard K) : w'.HasHeard K := by
  cases h with
  | exchange h => exact h.hasHeard hw
  | enter s => exact enter_hasHeard s hw
  | initialise => exact initialise_hasHeard hw

theorem Talks.hasHeard (h : Talks w w') (hw : w.HasHeard K) : w'.HasHeard K := by
  induction h with
  | refl => exact hw
  | tail _ hlast ih => exact hlast.hasHeard ih

/-! ## A packet arrives -/

theorem netQPut_slot (q : BufQueue) (p : Pbuf) (k : Nat) :
    (netQPut q p).2.pbuf k = p ∨ (netQPut q p).2.pbuf k = q.pbuf k := by
  unfold netQPut
  split
  · exact .inr rfl
  · by_cases hk : k = q.put
    · exact .inl (if_pos hk)
    · exact .inr (if_neg hk)

/-- A queue slot is overwritten by the packet, or the packet is freed. -/
theorem World.HasHeard.put (h : w.HasHeard K) {p : Pbuf} (hp : p.HeardIn K)
    (hbuf : w'.msgIbuf = w.msgIbuf) (hlength : w'.msgIbufLength = w.msgIbufLength)
    (hslot : ∀ p', w'.HasSlot p' → p' = p ∨ w.HasSlot p')
    (hgrows : Grows Call.mute w w') : w'.HasHeard K where
  slots p' hp' := by
    rcases hslot p' hp' with rfl | hold
    · exact hp
    · exact h.slots p' hold
  inbox := by
    unfold PtpClock.AtHandIn
    rw [hlength, hbuf]
    exact h.inbox
  log := hgrows.hasHeard h.log

theorem arriveEvent_hasHeard {p : Pbuf} (hp : p.HeardIn K) (h : w.HasHeard K) :
    (netRecvEventCallback p w).HasHeard K := by
  unfold netRecvEventCallback
  dsimp only
  split
  · refine h.put hp rfl rfl ?_ (.of_eq rfl)
    rintro p' ⟨k, hk | hk⟩
    · rcases netQPut_slot w.netPath.eventQ p k with heq | heq
      · exact .inl (hk.trans heq)
      · exact .inr ⟨k, .inl (hk.trans heq)⟩
    · exact .inr ⟨k, .inr hk⟩
  · exact (record_muted w (.pbuf_free p) trivial).hasHeard h

theorem arriveGeneral_hasHeard {p : Pbuf} (hp : p.HeardIn K) (h : w.HasHeard K) :
    (netRecvGeneralCallback p w).HasHeard K := by
  unfold netRecvGeneralCallback
  dsimp only
  split
  · refine h.put hp rfl rfl ?_ (.of_eq rfl)
    rintro p' ⟨k, hk | hk⟩
    · exact .inr ⟨k, .inl hk⟩
    · rcases netQPut_slot w.netPath.generalQ p k with heq | heq
      · exact .inl (hk.trans heq)
      · exact .inr ⟨k, .inr (hk.trans heq)⟩
  · exact (record_muted w (.pbuf_free p) trivial).hasHeard h

/-- An input whose packet, if it brings one, is a well-formed chain with octets of `K`. -/
theorem step_hasHeard {input : Input} (h : w.HasHeard K)
    (hp : ∀ p ∈ input.packet?, p.WellChained ∧ p.payload.flatten ∈ K) :
    (step input w).HasHeard K := by
  cases hinput : input with
  | netRecvEventCallback p =>
    rw [hinput] at hp
    exact arriveEvent_hasHeard (.inr (hp p rfl)) h
  | netRecvGeneralCallback p =>
    rw [hinput] at hp
    exact arriveGeneral_hasHeard (.inr (hp p rfl)) h
  | _ => exact (step_talks rfl w).hasHeard h

theorem hasHeard_zero (platform : Platform) : (World.zero platform).HasHeard K where
  slots := by
    rintro p ⟨k, rfl | rfl⟩
    · exact .inl rfl
    · exact .inl rfl
  inbox := .inl le_rfl
  log := by
    intro x hx
    cases hx

end Ptpd
