import Ptpd.Recognition
import Ptpd.Residue
import Ptpd.Sums

/-! # From one port to another

    What the receiver of a message has at hand, in terms of what its sender was
    given. Transparent clocks on the way rewrite the correction field and
    nothing else. Timestamps and correction fields survive the way through
    octets and 32-bit words exactly, as long as they fit.
-/

namespace Ptpd

open Octets MachineInt

/-! ## Times -/

/-- A reading of the clock that leaves room for the arithmetic of the servo. -/
structure TimeInternal.Stamp (t : TimeInternal) : Prop where
  canonical : t.Canonical
  positive : 0 < t.seconds
  small : t.seconds < 2 ^ 29

/-- A configured latency: less than a second. -/
structure TimeInternal.Latency (t : TimeInternal) : Prop where
  seconds : t.seconds = 0
  nonneg : 0 ≤ t.nanoseconds
  small : t.nanoseconds < 1000000000

instance : DecidablePred TimeInternal.Stamp := fun _ =>
  decidable_of_iff (_ ∧ _ ∧ _) ⟨fun ⟨h₁, h₂, h₃⟩ => ⟨h₁, h₂, h₃⟩, fun ⟨h₁, h₂, h₃⟩ => ⟨h₁, h₂, h₃⟩⟩

instance : DecidablePred TimeInternal.Latency := fun _ =>
  decidable_of_iff (_ ∧ _ ∧ _) ⟨fun ⟨h₁, h₂, h₃⟩ => ⟨h₁, h₂, h₃⟩, fun ⟨h₁, h₂, h₃⟩ => ⟨h₁, h₂, h₃⟩⟩

/-- A 64-bit correction field that has a negation. -/
def IsCorrection (c : Int) : Prop := SRange 64 c ∧ c ≠ -2 ^ 63

instance : DecidablePred IsCorrection := fun _ => inferInstanceAs (Decidable (_ ∧ _))

/-- Whole nanoseconds of a correction field, rounded toward zero. -/
def correctionNanos (c : Int) : Int := c.tdiv 65536

theorem correctionNanos_bounds {c : Int} (hc : IsCorrection c) :
    -140737488355328 < correctionNanos c ∧ correctionNanos c < 140737488355328 := by
  obtain ⟨⟨hlo, hhi⟩, hne⟩ := hc
  obtain ⟨hsum, ⟨hrlo, hrhi⟩, hpos, hneg⟩ := tdiv_split c (d := 65536) (by norm_num)
  norm_num at hlo hhi hne
  unfold correctionNanos
  rcases le_total 0 c with h | h
  · have := hpos h
    omega
  · have := hneg h
    omega

/-- The correction field as a time is its number of nanoseconds. -/
theorem scaledNanosecondsToInternalTime_eq {c : Int} (hc : IsCorrection c) :
    scaledNanosecondsToInternalTime c = .ofNanos (correctionNanos c) := by
  obtain ⟨hblo, hbhi⟩ := correctionNanos_bounds hc
  obtain ⟨⟨hlo, hhi⟩, hne⟩ := hc
  norm_num at hlo hhi hne
  -- the magnitude is converted, and the sign put back
  have hmagnitude : ∀ n : Int, 0 ≤ n → n < 140737488355328 → ∀ s : Int, s = 1 ∨ s = -1 →
      wrapS 32 (s * n.tdiv 1000000000) = (s * n).tdiv 1000000000 ∧
        wrapS 32 (s * n.tmod 1000000000) = (s * n).tmod 1000000000 := by
    intro n hn hn' s hs
    obtain ⟨hsum, ⟨hrlo, hrhi⟩, hpos, -⟩ := tdiv_split n (d := 1000000000) (by norm_num)
    have := hpos hn
    rcases hs with rfl | rfl
    · rw [one_mul, one_mul, one_mul]
      exact ⟨wrapS_32 (by omega) (by omega), wrapS_32 (by omega) (by omega)⟩
    · rw [neg_one_mul, neg_one_mul, neg_one_mul, Int.neg_tdiv, Int.neg_tmod]
      exact ⟨wrapS_32 (by omega) (by omega), wrapS_32 (by omega) (by omega)⟩
  unfold scaledNanosecondsToInternalTime TimeInternal.ofNanos
  by_cases hsign : c < 0
  · have hdiv : -1 * (-c / 2 ^ 16) = correctionNanos c := by
      rw [show (2 : Int) ^ 16 = 65536 by norm_num, ← Int.tdiv_eq_ediv_of_nonneg (by omega),
        Int.neg_tdiv, neg_one_mul, neg_neg, correctionNanos]
    have hwrap : wrapS 64 (-c) = -c := wrapS_64 (by omega) (by omega)
    obtain ⟨hsec, hns⟩ := hmagnitude (-c / 2 ^ 16) (by omega) (by omega) (-1) (.inr rfl)
    simp only [hsign, if_true, hwrap]
    rw [hsec, hns, hdiv]
  · have hdiv : 1 * (c / 2 ^ 16) = correctionNanos c := by
      rw [show (2 : Int) ^ 16 = 65536 by norm_num, one_mul,
        ← Int.tdiv_eq_ediv_of_nonneg (by omega), correctionNanos]
    obtain ⟨hsec, hns⟩ := hmagnitude (c / 2 ^ 16) (by omega) (by omega) 1 (.inl rfl)
    simp only [hsign, if_false]
    rw [hsec, hns, hdiv]

/-- A time that is not negative is read back from its timestamp. -/
theorem toInternalTime_fromInternalTime {n : Int} (hlo : 0 ≤ n) (hhi : n < 2147483647000000000)
    (stale : TimeInternal) (external : Timestamp) :
    toInternalTime stale (fromInternalTime (.ofNanos n) external) = .ofNanos n := by
  obtain ⟨hsum, ⟨hrlo, hrhi⟩, hpos, -⟩ := tdiv_split n (d := 1000000000) (by norm_num)
  obtain ⟨hq, hr⟩ := hpos hlo
  have hcast : ∀ x : Int, 0 ≤ x → x < 2 ^ 32 → ((UInt32.ofInt x).toNat : Int) = x := by
    intro x hxlo hxhi
    rw [UInt32.ofInt, UInt32.toNat_ofNat']
    omega
  have hlsb := hcast (n.tdiv 1000000000) hq (by omega)
  have hnano := hcast (n.tmod 1000000000) hr (by omega)
  have hneg : ¬ (n.tdiv 1000000000 < 0 ∨ n.tmod 1000000000 < 0) := by omega
  unfold toInternalTime fromInternalTime TimeInternal.ofNanos
  simp only [if_neg hneg]
  rw [if_pos (by omega), hlsb, hnano, wrapS_32 (by omega) (by omega)]

variable {t l : TimeInternal}

theorem TimeInternal.Stamp.bounds (h : t.Stamp) :
    1000000000 ≤ t.nanos ∧ t.nanos < 536870912000000000 := by
  have hpos := h.positive
  have hsmall := h.small
  have hcanonical := h.canonical
  have hns := hcanonical.positive hpos
  have hgreatest := hcanonical.greatest
  unfold TimeInternal.nanos
  omega

theorem TimeInternal.Latency.canonical (h : l.Latency) : l.Canonical := by
  obtain ⟨hsec, hlo, hhi⟩ := h
  constructor <;> omega

theorem TimeInternal.Latency.bounds (h : l.Latency) : 0 ≤ l.nanos ∧ l.nanos < 1000000000 := by
  obtain ⟨hsec, hlo, hhi⟩ := h
  unfold TimeInternal.nanos
  omega

/-- The time at which a message left, corrected by the latency of the way out. -/
theorem TimeInternal.Stamp.egress (ht : t.Stamp) (hl : l.Latency) :
    addTime t l = .ofNanos (t.nanos + l.nanos) := by
  have htb := ht.bounds
  have hlb := hl.bounds
  rw [ht.canonical.eq_ofNanos, hl.canonical.eq_ofNanos, addTime_ofNanos (by omega),
    TimeInternal.ofNanos_nanos, TimeInternal.ofNanos_nanos]

/-- The receive timestamp, corrected by the latency of the way in. -/
def PtpClock.ingress (c : PtpClock) (time : TimeInternal) : TimeInternal :=
  if time.seconds > 0 then subTime time c.inboundLatency else time

theorem TimeInternal.Stamp.ingress {c : PtpClock} (ht : t.Stamp) (hl : c.inboundLatency.Latency) :
    c.ingress t = .ofNanos (t.nanos - c.inboundLatency.nanos) := by
  have htb := ht.bounds
  have hlb := hl.bounds
  unfold PtpClock.ingress
  rw [if_pos ht.positive]
  conv_lhs => rw [ht.canonical.eq_ofNanos, hl.canonical.eq_ofNanos]
  exact subTime_ofNanos (by omega)

/-- It has not lost its last second on the way. -/
theorem TimeInternal.Stamp.egress_seconds (ht : t.Stamp) (hl : l.Latency) :
    (addTime t l).seconds ≠ 0 := by
  have htb := ht.bounds
  have hlb := hl.bounds
  rw [ht.egress hl]
  obtain ⟨hsum, ⟨hrlo, hrhi⟩, -⟩ := tdiv_split (t.nanos + l.nanos) (d := 1000000000) (by norm_num)
  show (t.nanos + l.nanos).tdiv 1000000000 ≠ 0
  omega

/-! ## Octets on the way -/

/-- The octets with another correction field. -/
def rewriteCorrection (c : Int) (octets : List UInt8) : List UInt8 :=
  take octets.length (putCorrectionField (bufOf octets) c)

/-- The octets are what was received last. -/
structure World.Holds (w : World) (octets : List UInt8) : Prop where
  length : w.msgIbufLength = octets.length
  octets : take octets.length w.msgIbuf = octets

instance (w : World) (octets : List UInt8) : Decidable (w.Holds octets) :=
  decidable_of_iff (_ ∧ _) ⟨fun ⟨h₁, h₂⟩ => ⟨h₁, h₂⟩, fun ⟨h₁, h₂⟩ => ⟨h₁, h₂⟩⟩

/-- The world once these octets have been received. -/
def World.receiving (w : World) (octets : List UInt8) : World :=
  { w with msgIbuf := bufOf octets, msgIbufLength := octets.length }

theorem World.receiving_holds (w : World) (octets : List UInt8) :
    (w.receiving octets).Holds octets := by
  refine ⟨rfl, List.ext_getElem (by simp) ?_⟩
  intro i _ hi
  have hoctet : bufOf octets i = octets[i] := by
    rw [bufOf, List.getD_eq_getElem?_getD, List.getElem?_eq_getElem hi]
    rfl
  simpa [take, World.receiving] using hoctet

/-- The messages that were handed to the network, the newest first. -/
def World.messages (w : World) : List (List UInt8) :=
  w.log.filterMap fun x =>
    match x.call with
    | .send _ _ bytes _ => some bytes
    | _ => none

variable {w : World} {buf : Buf} {n : Nat} {c : Int}

theorem World.Holds.octet {octets : List UInt8} (h : w.Holds octets) {i : Nat}
    (hi : i < octets.length) : w.msgIbuf i = bufOf octets i := by
  rw [← bufOf_take w.msgIbuf hi, h.octets]

/-- Of a message whose correction field was rewritten the receiver has the rest as it was sent. -/
theorem World.Holds.rewritten (h : w.Holds (rewriteCorrection c (take n buf))) {i : Nat}
    (hi : i < n) : w.msgIbuf i = putCorrectionField buf c i := by
  have hlength : (rewriteCorrection c (take n buf)).length = n := by
    simp [rewriteCorrection]
  rw [h.octet (by omega), rewriteCorrection, bufOf_take _ (by simpa using hi)]
  -- outside the correction field both buffers agree
  by_cases hfield : 8 ≤ i ∧ i < 16
  · exact putCorrectionField_congr c (.inl hfield)
  · exact putCorrectionField_congr c (.inr (bufOf_take buf hi))

theorem World.Holds.rewritten_length (h : w.Holds (rewriteCorrection c (take n buf))) :
    w.msgIbufLength = n := by
  rw [h.length]
  simp [rewriteCorrection]

theorem World.Holds.header (h : w.Holds (rewriteCorrection c (take n buf))) (hn : 34 ≤ n)
    (hc : IsCorrection c) :
    msgUnpackHeader w.msgIbuf = { msgUnpackHeader buf with correctionfield := c } := by
  have hrange : wrapS 64 c = c := wrapS_of_range (by decide) hc.1
  rw [msgUnpackHeader_congr fun i hi => h.rewritten (i := i) (by omega),
    msgUnpackHeader_putCorrectionField, hrange]

theorem World.Holds.timestamp (h : w.Holds (rewriteCorrection c (take n buf))) (hn : 44 ≤ n) :
    getTimestamp w.msgIbuf 34 = getTimestamp buf 34 :=
  getTimestamp_congr fun i hlo hhi => by
    rw [h.rewritten (by omega), putCorrectionField_other _ _ (by omega)]

theorem World.Holds.portIdentity (h : w.Holds (rewriteCorrection c (take n buf))) (hn : 54 ≤ n) :
    getPortIdentity w.msgIbuf 44 = getPortIdentity buf 44 :=
  getPortIdentity_congr fun i hlo hhi => by
    rw [h.rewritten (by omega), putCorrectionField_other _ _ (by omega)]

/-! ## Ports that speak -/

/-- The output buffer of a two-step clock has what `msgPackHeader` wrote there. -/
structure PtpClock.Speaks (c : PtpClock) : Prop where
  twoStepFlag : c.defaultDS.twoStepFlag = true
  header : HeaderPacked c c.msgObuf
  twoStep : c.obufTwoStep = true
  version : c.portDS.versionNumber = VERSION_PTP

theorem PtpClock.Speaks.receiving {v : World} (h : v.Speaks) (octets : List UInt8) :
    (v.receiving octets).Speaks :=
  ⟨h.twoStepFlag, ⟨h.header.versionNumber, h.header.domainNumber, h.header.portIdentity⟩, h.twoStep,
    h.version⟩

/-- What a receiver reads in the header of a message of the clock `c`. -/
structure MsgHeader.Of (h : MsgHeader) (c : PtpClock) (m : Outgoing) (correctionfield : Int) :
    Prop where
  messageType : MessageType.ofCode h.messageType = some m.messageType
  versionPTP : h.versionPTP = c.portDS.versionNumber
  domainNumber : h.domainNumber = c.defaultDS.domainNumber
  sourcePortIdentity : h.sourcePortIdentity = c.portDS.portIdentity
  twoStep : h.isTwoStep = true
  correctionfield : h.correctionfield = correctionfield
  sequenceId : ∀ s ∈ m.sequenceId c, h.sequenceId = s

/-- A message that `sender` packs is received as one of its own. -/
theorem World.Holds.of_speaks {sender : PtpClock} {m : Outgoing} (hspeaks : sender.Speaks)
    (h : w.Holds (rewriteCorrection c (take n (m.pack sender sender.msgObuf)))) (hn : 34 ≤ n)
    (hc : IsCorrection c) : (msgUnpackHeader w.msgIbuf).Of sender m c := by
  have hpacked := hspeaks.header.pack sender m
  have hheader := msgUnpackHeader_pack sender sender.msgObuf m
  have hflag : (msgUnpackHeader (m.pack sender sender.msgObuf)).flagField[0] =
      sender.msgObuf 6 := by
    have hoctet : (m.pack sender sender.msgObuf) 6 = sender.msgObuf 6 :=
      pack_other sender sender.msgObuf m (by omega)
    simp [msgUnpackHeader, getVec, hoctet]
  rw [h.header hn hc]
  generalize m.pack sender sender.msgObuf = packed at hpacked hheader hflag
  refine ⟨?_, ?_, hpacked.domainNumber, hpacked.portIdentity, ?_, rfl, ?_⟩
  · dsimp only
    rw [hheader]
    exact MessageType.ofCode_code _
  · show packed 1 &&& 0x0F = sender.portDS.versionNumber
    rw [hpacked.versionNumber]
    exact versionNumber_nibble (hspeaks.version ▸ by decide)
  · unfold MsgHeader.isTwoStep
    dsimp only
    rw [hflag]
    exact hspeaks.twoStep
  · intro s hs
    dsimp only
    rw [hheader, Outgoing.header, Option.mem_def.mp hs]
    rfl

/-- What was packed still stands in the buffer after the next message. -/
theorem PtpClock.Speaks.issue {v : World} (h : v.Speaks) (port : UdpPort) (group : Group)
    (m : Outgoing) (n : Nat) : (v.issue port group m n).Speaks where
  twoStepFlag := h.twoStepFlag
  header := by
    obtain ⟨hversion, hdomain, hid⟩ := h.header.pack v.toPtpClock m
    exact ⟨hversion, hdomain, hid⟩
  twoStep := by
    have hoctet : (m.pack v.toPtpClock v.msgObuf) 6 = v.msgObuf 6 :=
      pack_other v.toPtpClock v.msgObuf m (by omega)
    show getFlag ((m.pack v.toPtpClock v.msgObuf) 6) FLAG0_TWO_STEP = true
    rw [hoctet]
    exact h.twoStep
  version := h.version

theorem World.issue_messages (v : World) (port : UdpPort) (group : Group) (m : Outgoing) (n : Nat) :
    (v.issue port group m n).messages =
      take n (m.pack v.toPtpClock v.msgObuf) :: v.messages := rfl

/-! ## Handling what was received -/

/-- What `read` gave of the clock at such a call between two worlds. -/
def Measures {α : Type} (call : Call) (read : PtpClock → α) (w w' : World) (value : α) : Prop :=
  ∃ x ∈ entriesSince w w', x.call = call ∧ read x.before = value

theorem Measures.of_log {α : Type} {call : Call} {read : PtpClock → α} {v v' : World}
    {c : PtpClock} {value : α} (h : ∃ new older, v'.log = new ++ ⟨call, c⟩ :: older ∧
      ∃ since, older = since ++ v.log) (hread : read c = value) :
    Measures call read v v' value := by
  obtain ⟨new, older, hlog, since, rfl⟩ := h
  have hall : v'.log = (new ++ ⟨call, c⟩ :: since) ++ v.log := by
    rw [hlog, List.append_assoc, List.cons_append]
  refine ⟨⟨call, c⟩, ?_, rfl, hread⟩
  rw [entriesSince_eq hall]
  simp

/-- The world in which the message at hand is dispatched. -/
def World.delivered (w : World) (time : TimeInternal) : World :=
  { w with messageActivity := true, msgTmpHeader := msgUnpackHeader w.msgIbuf }.record
    (.received time)

theorem PtpClock.Speaks.delivered (h : w.Speaks) (time : TimeInternal) :
    (w.delivered time).Speaks :=
  ⟨h.twoStepFlag, ⟨h.header.versionNumber, h.header.domainNumber, h.header.portIdentity⟩, h.twoStep,
    h.version⟩

/-- The number that a request was given is the one before the next. -/
theorem number_before {s : UInt16} (h : s + 1 ≠ 0) : ((s + 1).toNat : Int) - 1 = s.toNat := by
  have hnumber := (sub_one_eq_iff (s + 1) (n := 0) (by decide)).mpr ⟨rfl, h⟩
  simpa using hnumber

/-- A message of another port in the same domain is dispatched. -/
theorem handleMessage_eq {sender : PtpClock} {m : Outgoing} {time : TimeInternal}
    (hlength : (34 : Int) ≤ w.msgIbufLength)
    (h : (msgUnpackHeader w.msgIbuf).Of sender m c)
    (hversion : sender.portDS.versionNumber = w.portDS.versionNumber)
    (hdomain : sender.defaultDS.domainNumber = w.defaultDS.domainNumber)
    (hother : w.portDS.portIdentity ≠ sender.portDS.portIdentity) :
    handleMessage time w = dispatch (w.ingress time) false (w.delivered (w.ingress time)) := by
  have hself : isSamePortIdentity w.portDS.portIdentity
      (msgUnpackHeader w.msgIbuf).sourcePortIdentity = false := by
    rw [h.sourcePortIdentity]
    exact isSamePortIdentity_eq_false.mpr hother
  have hlong : ¬ w.msgIbufLength < ((HEADER_LENGTH : Nat) : Int) := not_lt.mpr hlength
  have hver : ¬ (msgUnpackHeader w.msgIbuf).versionPTP ≠ w.portDS.versionNumber :=
    not_not.mpr (h.versionPTP.trans hversion)
  have hdom : ¬ (msgUnpackHeader w.msgIbuf).domainNumber ≠ w.defaultDS.domainNumber :=
    not_not.mpr (h.domainNumber.trans hdomain)
  unfold handleMessage
  dsimp only
  rw [if_neg hlong, if_neg hver, if_neg hdom, hself]
  simp only [Bool.not_false, true_and]
  rfl

end Ptpd
