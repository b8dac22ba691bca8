import Ptpd.Refinement.Act

/-! # What earlier messages leave behind

    All packers share one output buffer, and each rewrites a different part of
    it. The residue of a history is what a packer may find there: the last
    correction field, the last sequence number, and octet 46, which is reserved
    in an Announce. The octets sent depend on the history through the residue
    alone, and only where the packer does not overwrite it. A Management message
    also shows two octets of the stack.
-/

namespace Ptpd

open Octets MachineInt

/-! ## The residue of a history -/

structure Residue where
  correctionfield : Int
  sequenceId : UInt16
  octet46 : UInt8

/-- Octet 46, where the packer sets it. -/
def Outgoing.octet46 : Outgoing → Option UInt8
  | announce | sync _ | delayReq _ | followUp _ => none
  | pDelayReq _ => some 0
  | delayResp header _ | pDelayResp header _ | pDelayRespFollowUp header _ =>
    some (header.sourcePortIdentity.clockIdentity[2]?.getD 0)
  | management _ local_ip => some (octet local_ip.toNat 1)

/-- The residue once `m` has been packed. -/
def Residue.after (r : Residue) (c : PtpClock) (m : Outgoing) : Residue where
  correctionfield := m.correctionfield.getD r.correctionfield
  sequenceId := (m.sequenceId c).getD r.sequenceId
  octet46 := m.octet46.getD r.octet46

/-- The residue of a history that starts with a cleared buffer. -/
def residue (sent : List (PtpClock × Outgoing)) : Residue :=
  sent.foldl (fun r s => r.after s.1 s.2) ⟨0, 0, 0⟩

/-- Two residues that `m` cannot tell apart. -/
structure Outgoing.SameResidue (c : PtpClock) (m : Outgoing) (r₁ r₂ : Residue) : Prop where
  correctionfield : m.correctionfield = none → r₁.correctionfield = r₂.correctionfield
  sequenceId : m.sequenceId c = none → r₁.sequenceId = r₂.sequenceId
  octet46 : m.messageType = .ANNOUNCE → r₁.octet46 = r₂.octet46

/-- The buffer that holds this residue. -/
structure Residue.Fits (r : Residue) (buf : Buf) : Prop where
  correctionfield : (msgUnpackHeader buf).correctionfield = r.correctionfield
  sequenceId : (msgUnpackHeader buf).sequenceId = r.sequenceId
  octet46 : buf 46 = r.octet46

theorem putPortIdentity_46 (buf : Buf) (id : PortIdentity) :
    putPortIdentity buf 44 id 46 = id.clockIdentity[2]?.getD 0 := by
  rw [putPortIdentity, put16_other _ _ (by omega)]
  rfl

theorem pack_46 (c : PtpClock) (buf : Buf) (m : Outgoing) :
    m.pack c buf 46 = m.octet46.getD (buf 46) := by
  cases m with
  | announce =>
    rw [Outgoing.pack, msgPackAnnounce_other _ _ (by omega),
      packCommon_other _ _ _ _ _ _ (by omega)]
    rfl
  | sync t =>
    rw [Outgoing.pack, msgPackSync, putTimestamp_other _ _ (by omega), zero_other _ (by omega),
      packCommon_other _ _ _ _ _ _ (by omega)]
    rfl
  | delayReq t =>
    rw [Outgoing.pack, msgPackDelayReq, putTimestamp_other _ _ (by omega),
      zero_other _ (by omega), packCommon_other _ _ _ _ _ _ (by omega)]
    rfl
  | followUp t =>
    rw [Outgoing.pack, msgPackFollowUp, putTimestamp_other _ _ (by omega),
      packCommon_other _ _ _ _ _ _ (by omega)]
    rfl
  | delayResp header t =>
    rw [Outgoing.pack, msgPackDelayResp, putPortIdentity_46]
    rfl
  | pDelayReq t =>
    rw [Outgoing.pack, msgPackPDelayReq, zero_same _ (by omega) (by omega)]
    rfl
  | pDelayResp header t =>
    rw [Outgoing.pack, msgPackPDelayResp, putPortIdentity_46]
    rfl
  | pDelayRespFollowUp header t =>
    rw [Outgoing.pack, msgPackPDelayRespFollowUp, putPortIdentity_46]
    rfl
  | management offset local_ip =>
    rw [Outgoing.pack, msgPackManagement, flip32, put32_htonl, put8_other _ _ (by omega), put8_same]
    rfl

theorem Residue.Fits.pack {r : Residue} {buf : Buf} (h : r.Fits buf) (c : PtpClock)
    (m : Outgoing) : (r.after c m).Fits (m.pack c buf) := by
  have hheader := msgUnpackHeader_pack c buf m
  have h46 := pack_46 c buf m
  obtain ⟨hcorrection, hsequence, hoctet⟩ := h
  generalize msgUnpackHeader buf = old at hheader hcorrection hsequence
  constructor
  · rw [hheader]
    exact congrArg m.correctionfield.getD hcorrection
  · rw [hheader]
    exact congrArg (m.sequenceId c).getD hsequence
  · rw [h46, hoctet]
    rfl

/-- What `msgPackHeader` leaves of a cleared buffer. -/
theorem fits_msgPackHeader (c : PtpClock) :
    Residue.Fits ⟨0, 0, 0⟩ (msgPackHeader c fun _ => 0) := by
  have hflag : ∀ i, i ≠ 6 → ∀ b : Buf,
      (if c.defaultDS.twoStepFlag then put8 b 6 FLAG0_TWO_STEP else b) i = b i := by
    intro i hi b
    split
    · exact put8_other _ _ hi
    · rfl
  have hclear : ∀ i, 8 ≤ i → i < 16 → msgPackHeader c (fun _ => 0) i = 0 := by
    intro i hlo hhi
    rw [msgPackHeader, put8_other _ _ (by omega), putPortIdentity_other _ _ (by omega),
      zero_same _ (by omega) (by omega)]
  have hrest : ∀ i, i = 30 ∨ i = 31 ∨ i = 46 → msgPackHeader c (fun _ => 0) i = 0 := by
    intro i hi
    rw [msgPackHeader, put8_other _ _ (by omega), putPortIdentity_other _ _ (by omega),
      zero_other _ (by omega), hflag i (by omega), put8_other _ _ (by omega),
      put8_other _ _ (by omega), put8_other _ _ (by omega)]
  generalize msgPackHeader c (fun _ => 0) = b at hclear hrest
  constructor
  · have hmsb : get32 b 8 = 0 := get32_zero fun i hlo hhi => hclear i hlo (by omega)
    have hlsb : get32 b 12 = 0 := get32_zero fun i hlo hhi => hclear i (by omega) (by omega)
    rw [msgUnpackHeader, hmsb, hlsb, show flip32 0 = 0 by decide]
    simp [wrapS]
  · have hsequence : get16 b 30 = 0 := get16_zero fun i hlo hhi => hrest i (by omega)
    rw [msgUnpackHeader, hsequence]
    rfl
  · exact hrest 46 (by omega)

theorem residue_fits (c₀ : PtpClock) (sent : List (PtpClock × Outgoing)) :
    (residue sent).Fits (packAll sent (msgPackHeader c₀ fun _ => 0)) := by
  have hrun : ∀ (sent : List (PtpClock × Outgoing)) (r : Residue) (buf : Buf), r.Fits buf →
      (sent.foldl (fun r s => r.after s.1 s.2) r).Fits (packAll sent buf) := by
    intro sent
    induction sent with
    | nil => exact fun r buf h => h
    | cons s sent ih => exact fun r buf h => ih _ _ (h.pack s.1 s.2)
  exact hrun sent _ _ (fits_msgPackHeader c₀)

/-! ## What is sent -/

theorem putTimestamp_congr {a b : Buf} {off i : Nat} (t : Timestamp)
    (h : off ≤ i ∧ i < off + 10 ∨ a i = b i) :
    putTimestamp a off t i = putTimestamp b off t i := by
  refine put32_congr _ ?_
  by_cases hnano : off + 6 ≤ i ∧ i < off + 6 + 4
  · exact .inl hnano
  · refine .inr (put32_congr _ ?_)
    by_cases hlsb : off + 2 ≤ i ∧ i < off + 2 + 4
    · exact .inl hlsb
    · refine .inr (put16_congr _ ?_)
      rcases h with h | h
      · exact .inl (by omega)
      · exact .inr h

theorem putPortIdentity_congr {a b : Buf} {off i : Nat} (id : PortIdentity)
    (h : off ≤ i ∧ i < off + 10 ∨ a i = b i) :
    putPortIdentity a off id i = putPortIdentity b off id i := by
  refine put16_congr _ ?_
  by_cases hport : off + 8 ≤ i ∧ i < off + 8 + 2
  · exact .inl hport
  · refine .inr (putVec_congr _ ?_)
    rcases h with h | h
    · exact .inl (by omega)
    · exact .inr h

theorem putCorrectionField_congr {a b : Buf} {i : Nat} (c : Int)
    (h : 8 ≤ i ∧ i < 16 ∨ a i = b i) :
    putCorrectionField a c i = putCorrectionField b c i := by
  refine put32_congr _ ?_
  by_cases hlsb : 12 ≤ i ∧ i < 12 + 4
  · exact .inl hlsb
  · refine .inr (put32_congr _ ?_)
    rcases h with h | h
    · exact .inl (by omega)
    · exact .inr h

/-- Of the first octet the packers keep the transport nibble. -/
theorem packCommon_congr {a b : Buf} {i : Nat} (t : MessageType) (length : Nat)
    (sequenceId : UInt16) (control : UInt8) (interval : Int)
    (h : i = 0 ∧ a 0 &&& 0xF0 = b 0 &&& 0xF0 ∨ i = 2 ∨ i = 3 ∨ 30 ≤ i ∧ i < 34 ∨
      i ≠ 0 ∧ a i = b i) :
    packCommon a t length sequenceId control interval i =
      packCommon b t length sequenceId control interval i := by
  refine put8_congr _ ?_
  by_cases h33 : i = 33
  · exact .inl h33
  refine .inr (put8_congr _ ?_)
  by_cases h32 : i = 32
  · exact .inl h32
  refine .inr (put16_congr _ ?_)
  by_cases hsequence : 30 ≤ i ∧ i < 30 + 2
  · exact .inl hsequence
  refine .inr (put16_congr _ ?_)
  by_cases hlength : 2 ≤ i ∧ i < 2 + 2
  · exact .inl hlength
  refine .inr ?_
  rcases h with ⟨rfl, hnibble⟩ | h | h | h | ⟨hne, hkeep⟩
  · rw [put8_same, put8_same, put8_same, put8_same, hnibble]
  · omega
  · omega
  · omega
  · rw [put8_other _ _ hne, put8_other _ _ hne, put8_other _ _ hne, put8_other _ _ hne, hkeep]

theorem transport_nibble {a b : UInt8} (h : a >>> 4 = b >>> 4) : a &&& 0xF0 = b &&& 0xF0 := by
  have hshift : ∀ v : BitVec 8,
      (UInt8.ofBitVec v >>> 4) <<< 4 = UInt8.ofBitVec v &&& 0xF0 := by
    decide +kernel
  have ha : (a >>> 4) <<< 4 = a &&& 0xF0 := hshift a.toBitVec
  have hb : (b >>> 4) <<< 4 = b &&& 0xF0 := hshift b.toBitVec
  rw [← ha, ← hb, h]

/-- Two buffers that a packer turns into the same message. -/
structure Outgoing.SameBelow (c : PtpClock) (m : Outgoing) (a b : Buf) : Prop where
  transport : a 0 >>> 4 = b 0 >>> 4
  fixed : ∀ i, i = 1 ∨ 4 ≤ i ∧ i < 8 ∨ 16 ≤ i ∧ i < 30 → a i = b i
  correctionfield : m.correctionfield = none → ∀ i, 8 ≤ i → i < 16 → a i = b i
  sequenceId : m.sequenceId c = none → a 30 = b 30 ∧ a 31 = b 31
  octet46 : m.messageType = .ANNOUNCE → a 46 = b 46

/-- The common fields, and whichever octets the packer clears before it goes on. -/
theorem Outgoing.SameBelow.packCommon {c : PtpClock} {m : Outgoing} {a b : Buf}
    (h : m.SameBelow c a b) (t : MessageType) (length : Nat) (sequenceId : UInt16)
    (control : UInt8) (interval : Int) {i : Nat} (hi : i < 34)
    (hcorrection : i < 8 ∨ 16 ≤ i ∨ m.correctionfield = none) :
    Ptpd.packCommon a t length sequenceId control interval i =
      Ptpd.packCommon b t length sequenceId control interval i := by
  refine packCommon_congr t length sequenceId control interval ?_
  by_cases h0 : i = 0
  · exact .inl ⟨h0, transport_nibble h.transport⟩
  by_cases hset : i = 2 ∨ i = 3 ∨ 30 ≤ i
  · omega
  refine .inr (.inr (.inr (.inr ⟨h0, ?_⟩)))
  by_cases hfield : 8 ≤ i ∧ i < 16
  · rcases hcorrection with hlt | hge | hnone
    · omega
    · omega
    · exact h.correctionfield hnone i hfield.1 hfield.2
  · exact h.fixed i (by omega)

/-- The packers that clear the correction field. -/
theorem Outgoing.SameBelow.cleared {c : PtpClock} {m : Outgoing} {a b : Buf}
    (h : m.SameBelow c a b) (t : MessageType) (length : Nat) (sequenceId : UInt16)
    (control : UInt8) (interval : Int) {i : Nat} (hi : i < 34) :
    zero (Ptpd.packCommon a t length sequenceId control interval) 8 8 i =
      zero (Ptpd.packCommon b t length sequenceId control interval) 8 8 i := by
  refine zero_congr ?_
  by_cases hfield : 8 ≤ i ∧ i < 8 + 8
  · exact .inl hfield
  · exact .inr (h.packCommon _ _ _ _ _ hi (by omega))

/-- Behind the header an announcement leaves octet 46 only. -/
theorem msgPackAnnounce_written (c : PtpClock) (a b : Buf) {i : Nat} (hlo : 34 ≤ i) (hhi : i < 64)
    (hreserved : i ≠ 46) : msgPackAnnounce c a i = msgPackAnnounce c b i := by
  refine put8_congr _ ?_
  by_cases hsource : i = 63
  · exact .inl hsource
  refine .inr (put16_congr _ ?_)
  by_cases hsteps : 61 ≤ i
  · exact .inl ⟨hsteps, by omega⟩
  refine .inr (putVec_congr _ ?_)
  by_cases hidentity : 53 ≤ i
  · exact .inl ⟨hidentity, by omega⟩
  refine .inr (put8_congr _ ?_)
  by_cases hpriority2 : i = 52
  · exact .inl hpriority2
  refine .inr (put16_congr _ ?_)
  by_cases hvariance : 50 ≤ i
  · exact .inl ⟨hvariance, by omega⟩
  refine .inr (put8_congr _ ?_)
  by_cases haccuracy : i = 49
  · exact .inl haccuracy
  refine .inr (put8_congr _ ?_)
  by_cases hclass : i = 48
  · exact .inl hclass
  refine .inr (put8_congr _ ?_)
  by_cases hpriority1 : i = 47
  · exact .inl hpriority1
  refine .inr (put16_congr _ ?_)
  by_cases hutc : 44 ≤ i
  · exact .inl ⟨hutc, by omega⟩
  · exact .inr (zero_congr (.inl ⟨by omega, by omega⟩))

/-- A timestamp behind the header. -/
theorem putTimestamp_behind {a b : Buf} {i : Nat} (t : Timestamp) (hi : i < 44)
    (h : i < 34 → a i = b i) : putTimestamp a 34 t i = putTimestamp b 34 t i := by
  refine putTimestamp_congr t ?_
  by_cases hbody : 34 ≤ i
  · exact .inl ⟨hbody, hi⟩
  · exact .inr (h (by omega))

/-- A port identity behind the timestamp. -/
theorem putPortIdentity_behind {a b : Buf} {i : Nat} (id : PortIdentity) (hi : i < 54)
    (h : i < 44 → a i = b i) : putPortIdentity a 44 id i = putPortIdentity b 44 id i := by
  refine putPortIdentity_congr id ?_
  by_cases hid : 44 ≤ i
  · exact .inl ⟨hid, hi⟩
  · exact .inr (h (by omega))

theorem Outgoing.SameBelow.pack {c : PtpClock} {m : Outgoing} {a b : Buf}
    (h : m.SameBelow c a b) {i : Nat} (hi : i < m.length) : m.pack c a i = m.pack c b i := by
  cases m with
  | announce =>
    by_cases hheader : i < 34
    · rw [Outgoing.pack, Outgoing.pack, msgPackAnnounce_other c a (.inl hheader),
        msgPackAnnounce_other c b (.inl hheader)]
      exact h.packCommon _ _ _ _ _ hheader (.inr (.inr rfl))
    by_cases hreserved : i = 46
    · rw [hreserved, pack_46, pack_46, h.octet46 rfl]
    · exact msgPackAnnounce_written c a b (by omega) hi hreserved
  | sync t => exact putTimestamp_behind t hi (h.cleared _ _ _ _ _)
  | delayReq t => exact putTimestamp_behind t hi (h.cleared _ _ _ _ _)
  | followUp t =>
    exact putTimestamp_behind t hi fun hheader => h.packCommon _ _ _ _ _ hheader (.inr (.inr rfl))
  | delayResp header t =>
    refine putPortIdentity_behind _ hi fun hbody => putTimestamp_behind t hbody fun hheader => ?_
    exact putCorrectionField_congr _ (.inr (h.cleared _ _ _ _ _ hheader))
  | pDelayReq t =>
    refine zero_congr ?_
    by_cases hid : 44 ≤ i
    · exact .inl ⟨hid, hi⟩
    · exact .inr (putTimestamp_behind t (by omega) (h.cleared _ _ _ _ _))
  | pDelayResp header t =>
    exact putPortIdentity_behind _ hi fun hbody => putTimestamp_behind t hbody (h.cleared _ _ _ _ _)
  | pDelayRespFollowUp header t =>
    refine putPortIdentity_behind _ hi fun hbody => putTimestamp_behind t hbody fun hheader => ?_
    refine putCorrectionField_congr _ ?_
    by_cases hfield : 8 ≤ i ∧ i < 16
    · exact .inl hfield
    · exact .inr (h.packCommon _ _ _ _ _ hheader (by omega))
  | management offset local_ip =>
    by_cases hbody : 34 ≤ i
    · refine put32_congr _ ?_
      by_cases hip : 44 ≤ i
      · exact .inl ⟨hip, hi⟩
      · exact .inr (putTimestamp_congr _ (.inl ⟨hbody, by omega⟩))
    · have hsequence : get16 a 30 = get16 b 30 := by
        obtain ⟨h30, h31⟩ := h.sequenceId rfl
        apply get16_congr
        intro k hlo hhi
        obtain rfl | rfl : k = 30 ∨ k = 31 := by omega
        · exact h30
        · exact h31
      rw [Outgoing.pack, Outgoing.pack, msgPackManagement_other a _ _ (by omega),
        msgPackManagement_other b _ _ (by omega), hsequence]
      exact h.packCommon _ _ _ _ _ (by omega) (.inr (.inr rfl))

/-- The correction field determines its eight octets. -/
theorem correctionfield_octets {a b : Buf}
    (h : (msgUnpackHeader a).correctionfield = (msgUnpackHeader b).correctionfield) :
    ∀ i, 8 ≤ i → i < 16 → a i = b i := by
  rw [msgUnpackHeader, msgUnpackHeader] at h
  simp only [flip32, htonl_get32] at h
  generalize ha : be32 (a 8) (a (8 + 1)) (a (8 + 2)) (a (8 + 3)) = amsb at h
  generalize hb : be32 (b 8) (b (8 + 1)) (b (8 + 2)) (b (8 + 3)) = bmsb at h
  generalize ha' : be32 (a 12) (a (12 + 1)) (a (12 + 2)) (a (12 + 3)) = alsb at h
  generalize hb' : be32 (b 12) (b (12 + 1)) (b (12 + 2)) (b (12 + 3)) = blsb at h
  -- the signed number determines both words
  have hmod : ((amsb.toNat : Int) * 2 ^ 32 + alsb.toNat) % 2 ^ 64 =
      ((bmsb.toNat : Int) * 2 ^ 32 + blsb.toNat) % 2 ^ 64 := by
    have hwrap : ∀ x : Int, wrapS 64 x % 2 ^ 64 = x % 2 ^ 64 := fun x => by
      have := Int.bmod_emod (x := x) (m := 2 ^ 64)
      push_cast at this
      exact this
    rw [← hwrap, h, hwrap]
  have h1 := amsb.toNat_lt
  have h2 := alsb.toNat_lt
  have h3 := bmsb.toNat_lt
  have h4 := blsb.toNat_lt
  have hmsb : amsb = bmsb := UInt32.toNat_inj.mp (by omega)
  have hlsb : alsb = blsb := UInt32.toNat_inj.mp (by omega)
  rw [← ha, ← hb] at hmsb
  rw [← ha', ← hb'] at hlsb
  obtain ⟨e8, e9, e10, e11⟩ := be32_inj hmsb
  obtain ⟨e12, e13, e14, e15⟩ := be32_inj hlsb
  intro i hlo hhi
  obtain rfl | rfl | rfl | rfl | rfl | rfl | rfl | rfl : i = 8 ∨ i = 9 ∨ i = 10 ∨ i = 11 ∨ i = 12 ∨
    i = 13 ∨ i = 14 ∨ i = 15 := by omega
  all_goals assumption

/-- The sequence number determines its two octets. -/
theorem sequenceId_octets {a b : Buf}
    (h : (msgUnpackHeader a).sequenceId = (msgUnpackHeader b).sequenceId) :
    a 30 = b 30 ∧ a 31 = b 31 := by
  rw [msgUnpackHeader, msgUnpackHeader] at h
  simp only [flip16, htons_get16] at h
  exact be16_inj h

theorem packAll_fixed (sent : List (PtpClock × Outgoing)) (buf : Buf) {i : Nat}
    (hi : i = 1 ∨ 4 ≤ i ∧ i < 8 ∨ 16 ≤ i ∧ i < 30) : packAll sent buf i = buf i := by
  induction sent generalizing buf with
  | nil => rfl
  | cons s sent ih => exact (ih (s.2.pack s.1 buf)).trans (pack_other s.1 buf s.2 hi)

theorem packAll_transport (sent : List (PtpClock × Outgoing)) (buf : Buf) :
    packAll sent buf 0 >>> 4 = buf 0 >>> 4 := by
  induction sent generalizing buf with
  | nil => rfl
  | cons s sent ih =>
    refine (ih (s.2.pack s.1 buf)).trans ?_
    exact congrArg MsgHeader.transportSpecific (msgUnpackHeader_pack s.1 buf s.2)

/-- Two buffers with the residues of two histories give the same octets exactly if the message
    cannot tell the residues apart. -/
theorem Outgoing.take_pack_eq_iff (c₀ : PtpClock) (sent₁ sent₂ : List (PtpClock × Outgoing))
    (c : PtpClock) (m : Outgoing) :
    take m.length (m.pack c (packAll sent₁ (msgPackHeader c₀ fun _ => 0))) =
        take m.length (m.pack c (packAll sent₂ (msgPackHeader c₀ fun _ => 0))) ↔
      m.SameResidue c (residue sent₁) (residue sent₂) := by
  have hfit₁ := residue_fits c₀ sent₁
  have hfit₂ := residue_fits c₀ sent₂
  have hfixed : ∀ i, i = 1 ∨ 4 ≤ i ∧ i < 8 ∨ 16 ≤ i ∧ i < 30 →
      packAll sent₁ (msgPackHeader c₀ fun _ => 0) i =
        packAll sent₂ (msgPackHeader c₀ fun _ => 0) i := fun i hi => by
    rw [packAll_fixed _ _ hi, packAll_fixed _ _ hi]
  have htransport : packAll sent₁ (msgPackHeader c₀ fun _ => 0) 0 >>> 4 =
      packAll sent₂ (msgPackHeader c₀ fun _ => 0) 0 >>> 4 := by
    rw [packAll_transport, packAll_transport]
  rw [take_eq_take]
  generalize packAll sent₁ (msgPackHeader c₀ fun _ => 0) = a at hfit₁ hfixed htransport ⊢
  generalize packAll sent₂ (msgPackHeader c₀ fun _ => 0) = b at hfit₂ hfixed htransport ⊢
  constructor
  · intro hsame
    -- equal octets give equal headers, and those the residue the packer left
    have hlength : 44 ≤ m.length := m.length_ge
    have hheader : m.header c (msgUnpackHeader a) = m.header c (msgUnpackHeader b) := by
      rw [← msgUnpackHeader_pack, ← msgUnpackHeader_pack]
      exact msgUnpackHeader_congr fun i hi => hsame i (by omega)
    constructor
    · intro hnone
      have hfield : m.correctionfield.getD (msgUnpackHeader a).correctionfield =
          m.correctionfield.getD (msgUnpackHeader b).correctionfield :=
        congrArg MsgHeader.correctionfield hheader
      rwa [hnone, Option.getD_none, Option.getD_none, hfit₁.correctionfield,
        hfit₂.correctionfield] at hfield
    · intro hnone
      have hfield : (m.sequenceId c).getD (msgUnpackHeader a).sequenceId =
          (m.sequenceId c).getD (msgUnpackHeader b).sequenceId :=
        congrArg MsgHeader.sequenceId hheader
      rwa [hnone, Option.getD_none, Option.getD_none, hfit₁.sequenceId,
        hfit₂.sequenceId] at hfield
    · intro hannounce
      obtain rfl : m = .announce := by cases m <;> first | rfl | cases hannounce
      have h46 := hsame 46 (by decide)
      rw [pack_46, pack_46] at h46
      rw [← hfit₁.octet46, ← hfit₂.octet46]
      exact h46
  · intro hsame i hi
    -- equal residue gives buffers that agree where the packer does not write
    refine Outgoing.SameBelow.pack ⟨htransport, hfixed, ?_, ?_, ?_⟩ hi
    · intro hnone
      refine correctionfield_octets ?_
      rw [hfit₁.correctionfield, hfit₂.correctionfield]
      exact hsame.correctionfield hnone
    · intro hnone
      refine sequenceId_octets ?_
      rw [hfit₁.sequenceId, hfit₂.sequenceId]
      exact hsame.sequenceId hnone
    · intro hannounce
      rw [hfit₁.octet46, hfit₂.octet46]
      exact hsame.octet46 hannounce

/-! ## The next message -/

/-- The `Timestamp` that `issueManagement` fills: the high seconds word is never set. -/
def PtpClock.reportedOffset (c : PtpClock) (stack : Timestamp) : Timestamp :=
  { secondsField := { stack.secondsField with
      lsb := UInt32.ofInt c.currentDS.offsetFromMaster.seconds }
    nanosecondsField := UInt32.ofInt c.currentDS.offsetFromMaster.nanoseconds }

/-- A packer with its arguments, or `issueManagement`, which packs what its `Timestamp` holds. -/
inductive Next where
  | pack (m : Outgoing)
  | issueManagement (local_ip : UInt32)

namespace Next

/-- The message, with what the stack holds. -/
def message (c : PtpClock) (stack : Timestamp) : Next → Outgoing
  | pack m => m
  | issueManagement local_ip => .management (c.reportedOffset stack) local_ip

/-- The buffer that `issueManagement` sends. -/
theorem issueManagement_msgObuf (w : World) :
    (Ptpd.issueManagement w).msgObuf =
      ((issueManagement w.platform.netif_ip_addr).message w.toPtpClock
        w.platform.stackTimestamp.head).pack w.toPtpClock w.msgObuf := by
  rw [issueManagement_eq]
  rfl

/-- Two stacks that `m` cannot tell apart. -/
def SameStack (m : Next) (stack₁ stack₂ : Timestamp) : Prop :=
  ∀ local_ip, m = issueManagement local_ip → stack₁.secondsField.msb = stack₂.secondsField.msb

/-- The octets sent when `m` follows the messages `sent`. -/
def transmitted (c₀ : PtpClock) (sent : List (PtpClock × Outgoing)) (stack : Timestamp) (c : PtpClock)
    (m : Next) : List UInt8 :=
  take (m.message c stack).length
    ((m.message c stack).pack c (packAll sent (msgPackHeader c₀ fun _ => 0)))

theorem SameStack.message_eq {m : Next} {stack₁ stack₂ : Timestamp} (h : m.SameStack stack₁ stack₂)
    (c : PtpClock) : m.message c stack₁ = m.message c stack₂ := by
  cases m with
  | pack m => rfl
  | issueManagement local_ip =>
    have hoffset : c.reportedOffset stack₁ = c.reportedOffset stack₂ := by
      unfold PtpClock.reportedOffset
      dsimp only
      rw [h local_ip rfl]
    exact congrArg (Outgoing.management · local_ip) hoffset

/-- The octets of a Management message show the high seconds word. -/
theorem msb_of_take_eq {c : PtpClock} {a b : Buf} {stack₁ stack₂ : Timestamp} {local_ip : UInt32}
    (h : take MANAGEMENT_LENGTH (msgPackManagement a (c.reportedOffset stack₁) local_ip) =
      take MANAGEMENT_LENGTH (msgPackManagement b (c.reportedOffset stack₂) local_ip)) :
    stack₁.secondsField.msb = stack₂.secondsField.msb := by
  have hmanage := msgUnpackManagement_congr (take_eq_take.mp h)
  rw [msgUnpackManagement_pack, msgUnpackManagement_pack] at hmanage
  injection hmanage with _ hoffset
  have hmsb := congrArg (fun t : Timestamp => t.secondsField.msb) hoffset
  exact hmsb

theorem transmitted_sameStack {c₀ c : PtpClock} {sent₁ sent₂ : List (PtpClock × Outgoing)}
    {stack₁ stack₂ : Timestamp} {m : Next}
    (h : m.transmitted c₀ sent₁ stack₁ c = m.transmitted c₀ sent₂ stack₂ c) :
    m.SameStack stack₁ stack₂ := by
  rintro local_ip rfl
  exact msb_of_take_eq h

end Next

/-- Two histories and two stacks lead to the same octets exactly if the message cannot tell
    them apart. -/
theorem transmitted_eq_iff (c₀ : PtpClock) (sent₁ sent₂ : List (PtpClock × Outgoing))
    (stack₁ stack₂ : Timestamp) (c : PtpClock) (m : Next) :
    m.transmitted c₀ sent₁ stack₁ c = m.transmitted c₀ sent₂ stack₂ c ↔
      (m.message c stack₁).SameResidue c (residue sent₁) (residue sent₂) ∧
        m.SameStack stack₁ stack₂ := by
  constructor
  · intro hsame
    have hstack := Next.transmitted_sameStack hsame
    unfold Next.transmitted at hsame
    rw [← hstack.message_eq c] at hsame
    exact ⟨(Outgoing.take_pack_eq_iff c₀ sent₁ sent₂ c _).mp hsame, hstack⟩
  · rintro ⟨hresidue, hstack⟩
    unfold Next.transmitted
    rw [← hstack.message_eq c]
    exact (Outgoing.take_pack_eq_iff c₀ sent₁ sent₂ c _).mpr hresidue

/-- A Follow_Up after a Sync, with and without a Delay_Resp in between; and a Management message
    with and without a seconds word on the stack. -/
theorem transmitted_leaks :
    (¬ ∀ (c₀ : PtpClock) (sent₁ sent₂ : List (PtpClock × Outgoing)) (stack₁ stack₂ : Timestamp)
      (c : PtpClock) (m : Outgoing),
      (Next.pack m).transmitted c₀ sent₁ stack₁ c = (Next.pack m).transmitted c₀ sent₂ stack₂ c) ∧
    ¬ ∀ (c₀ : PtpClock) (sent₁ sent₂ : List (PtpClock × Outgoing)) (stack₁ stack₂ : Timestamp)
      (c : PtpClock) (local_ip : UInt32),
      (Next.issueManagement local_ip).transmitted c₀ sent₁ stack₁ c =
        (Next.issueManagement local_ip).transmitted c₀ sent₂ stack₂ c := by
  constructor
  · intro h
    have hleak := h PtpClock.zero [(PtpClock.zero, .sync ⟨⟨1, 0⟩, 0⟩)]
      [(PtpClock.zero, .sync ⟨⟨1, 0⟩, 0⟩),
        (PtpClock.zero,
          .delayResp { (default : MsgHeader) with correctionfield := 65536 } ⟨⟨1, 0⟩, 0⟩)]
      ⟨⟨0, 0⟩, 0⟩ ⟨⟨0, 0⟩, 0⟩ PtpClock.zero (.followUp ⟨⟨1, 0⟩, 0⟩)
    revert hleak
    decide +kernel
  · intro h
    have hmsb := Next.msb_of_take_eq (h PtpClock.zero [] [] ⟨⟨0, 0⟩, 0⟩ ⟨⟨0, 1⟩, 0⟩ PtpClock.zero 0)
    revert hmsb
    decide

end Ptpd
