import Ptpd.IrigB.Code

/-! # Sending and receiving the IRIG-B code

    The receiver finds the bits of a number from the least on, in two groups
    with a place free between them. The sender gives them from the greatest on
    and without the free place, so that few times are read as they were sent.
-/

namespace Ptpd

/-! ## A frame -/

/-- The variables after the pulses. -/
def irigRun (d : IrigIn) (pulses : List UInt16) : IrigIn :=
  pulses.foldl (fun d pulse => (irig_b_in d pulse).2) d

theorem irigRun_cons (d : IrigIn) (pulse : UInt16) (pulses : List UInt16) :
    irigRun d (pulse :: pulses) = irigRun (irig_b_in d pulse).2 pulses := rfl

theorem irigStates_succ (t : BDc) (n : Nat) (pos : UInt8) :
    irigStates t (n + 1) pos = irigState t pos :: irigStates t n (step_irig_b_out t pos).2 := rfl

/-- The pulses of one second. -/
def irigFrame (b_code : BDc) : List UInt16 := (irigStates b_code 100 0).map irig_b_out

structure BDc.Valid (t : BDc) : Prop where
  sec : t.sec.toNat < 60
  min : t.min.toNat < 60
  hour : t.hour.toNat < 24
  day : 1 ≤ t.day.toNat ∧ t.day.toNat ≤ 366

instance : DecidablePred BDc.Valid := fun _ =>
  decidable_of_iff (_ ∧ _ ∧ _ ∧ _) ⟨fun ⟨h₁, h₂, h₃, h₄⟩ => ⟨h₁, h₂, h₃, h₄⟩,
    fun ⟨h₁, h₂, h₃, h₄⟩ => ⟨h₁, h₂, h₃, h₄⟩⟩

/-- The time is what the receiver has after the last marker of a frame and the frame of `t`. -/
structure BDc.RoundTrips (t : BDc) (d : IrigIn) : Prop where
  sec : (irigRun d (irig_b_out p_code :: irigFrame t)).BTime.sec = t.sec
  min : (irigRun d (irig_b_out p_code :: irigFrame t)).BTime.min = t.min
  hour : (irigRun d (irig_b_out p_code :: irigFrame t)).BTime.hour = t.hour
  day : (irigRun d (irig_b_out p_code :: irigFrame t)).BTime.day = t.day

variable {t : BDc} {d : IrigIn} {k : Nat}

/-! ## The states that are sent -/

/-- Every tenth state is a marker, and so is the first. -/
theorem irigState_marker (t : BDc) (hk : k < 100) (h : k = 0 ∨ k % 10 = 9) :
    irigState t (.ofNat k) = p_code := by
  have hpos : ∀ k < 100, k = 0 ∨ k % 10 = 9 →
      (UInt8.ofNat k = 0 ∨ UInt8.ofNat k = 9 ∨ UInt8.ofNat k = 19 ∨ UInt8.ofNat k = 29 ∨
        UInt8.ofNat k = 39 ∨ UInt8.ofNat k = 49 ∨ UInt8.ofNat k = 59 ∨ UInt8.ofNat k = 69 ∨
        UInt8.ofNat k = 79 ∨ UInt8.ofNat k = 89 ∨ UInt8.ofNat k = 99) := by decide
  exact if_pos (hpos k hk h)

theorem and_one_code (x : UInt8) : x &&& 0x01 = zero_code ∨ x &&& 0x01 = one_code := by
  have hlt : (x &&& 0x01).toNat = x.toNat % 2 := by
    rw [UInt8.toNat_and]
    exact Nat.and_one_is_mod _
  rcases Nat.mod_two_eq_zero_or_one x.toNat with h | h
  · exact .inl (UInt8.toNat_inj.mp (hlt.trans h))
  · exact .inr (UInt8.toNat_inj.mp (hlt.trans h))

theorem ite_bit {c : Prop} [Decidable c] {x y : UInt8} (hx : x = zero_code ∨ x = one_code)
    (hy : ¬ c → y = zero_code ∨ y = one_code) :
    (if c then x else y) = zero_code ∨ (if c then x else y) = one_code := by
  by_cases h : c
  · rw [if_pos h]
    exact hx
  · rw [if_neg h]
    exact hy h

/-- The others are bits. -/
theorem irigState_bit (t : BDc) (hk : k < 100) (hzero : k ≠ 0) (hten : k % 10 ≠ 9) :
    irigState t (.ofNat k) = zero_code ∨ irigState t (.ofNat k) = one_code := by
  have hnat : (UInt8.ofNat k).toNat = k := UInt8.toNat_ofNat_of_lt' (show k < 256 by omega)
  have hpos : ¬ (UInt8.ofNat k = 0 ∨ UInt8.ofNat k = 9 ∨ UInt8.ofNat k = 19 ∨
      UInt8.ofNat k = 29 ∨ UInt8.ofNat k = 39 ∨ UInt8.ofNat k = 49 ∨ UInt8.ofNat k = 59 ∨
      UInt8.ofNat k = 69 ∨ UInt8.ofNat k = 79 ∨ UInt8.ofNat k = 89 ∨ UInt8.ofNat k = 99) := by
    simp only [← UInt8.toNat_inj, hnat, UInt8.reduceToNat]
    omega
  unfold irigState
  rw [if_neg hpos]
  apply ite_bit (and_one_code _)
  intro hsec
  apply ite_bit (and_one_code _)
  intro hmin
  apply ite_bit (and_one_code _)
  intro hhour
  apply ite_bit (and_one_code _)
  intro hday
  apply ite_bit (and_one_code _)
  intro hhundreds
  apply ite_bit (.inl rfl)
  intro hyear
  apply ite_bit (.inl rfl)
  intro hfirst
  apply ite_bit (.inl rfl)
  intro hsecond
  apply ite_bit (and_one_code _)
  intro hlow
  apply ite_bit (and_one_code _)
  intro hhigh
  -- no position is left
  simp only [gt_iff_lt, UInt8.lt_iff_toNat_lt, hnat, UInt8.reduceToNat] at hsec hmin hhour hday
  simp only [gt_iff_lt, UInt8.lt_iff_toNat_lt, hnat, UInt8.reduceToNat] at hhundreds hyear hfirst
  simp only [gt_iff_lt, UInt8.lt_iff_toNat_lt, hnat, UInt8.reduceToNat] at hsecond hlow hhigh
  omega

/-! ## The run -/

/-- The receiver has the states before position `k` of the frame. -/
structure Reading (t : BDc) (d : IrigIn) (k : Nat) : Prop where
  flag : d.BCodeStartFlag = 1
  index : d.BCodeRuningCnt = UInt8.ofNat k
  /-- A marker was last exactly behind a tenth position. -/
  pair : d.BCodeStartCnt = if k % 10 = 0 then 1 else 0
  stored : ∀ i < k, d.Bcode (.ofNat i) = irigState t (.ofNat i)

theorem ofNat_succ (k : Nat) : UInt8.ofNat k + 1 = UInt8.ofNat (k + 1) :=
  (UInt8.ofNat_add k 1).symm

/-- What is stored next is stored behind the others. -/
theorem put_stored {code : UInt8} (hk : k < 100) (hindex : d.BCodeRuningCnt = UInt8.ofNat k)
    (hstored : ∀ i < k, d.Bcode (.ofNat i) = irigState t (.ofNat i))
    (hcode : code = irigState t (.ofNat k)) :
    ∀ i < k + 1, (d.put code).Bcode (.ofNat i) = irigState t (.ofNat i) := by
  intro i hi
  unfold IrigIn.put
  dsimp only
  rw [hindex]
  by_cases h : i = k
  · rw [h, Function.update_self, hcode]
  · have hne : UInt8.ofNat i ≠ UInt8.ofNat k := by
      intro heq
      have hnat := congrArg UInt8.toNat heq
      rw [UInt8.toNat_ofNat_of_lt' (show i < 256 by omega),
        UInt8.toNat_ofNat_of_lt' (show k < 256 by omega)] at hnat
      exact h hnat
    rw [Function.update_of_ne hne]
    exact hstored i (by omega)

/-- One position of the frame. -/
theorem Reading.next (h : Reading t d k) (hpos : 0 < k) (hk : k < 99) :
    Reading t (irig_b_in d (irig_b_out (irigState t (.ofNat k)))).2 (k + 1) := by
  by_cases hten : k % 10 = 9
  · have hcode := irigState_marker t (show k < 100 by omega) (.inr hten)
    have hapart : d.BCodeStartCnt = 0 := by
      rw [h.pair]
      exact if_neg (by omega)
    have hindex : ¬ d.BCodeRuningCnt + 1 ≥ 99 := by
      rw [h.index, ofNat_succ, ge_iff_le, UInt8.le_iff_toNat_le,
        UInt8.toNat_ofNat_of_lt' (show k + 1 < 256 by omega)]
      have : (99 : UInt8).toNat = 99 := rfl
      omega
    rw [hcode, irig_b_in_marker, IrigIn.marker_within hapart hindex]
    refine ⟨h.flag, ?_, ?_, put_stored (by omega) h.index h.stored hcode.symm⟩
    · exact (congrArg (· + 1) h.index).trans (ofNat_succ k)
    · rw [if_pos (by omega)]
      rfl
  · have hbit := irigState_bit t (show k < 100 by omega) hpos.ne' hten
    have hpulse : irig_b_in d (irig_b_out (irigState t (.ofNat k))) =
        d.bit (irigState t (.ofNat k)) := by
      rcases hbit with hbit | hbit
      · rw [hbit, irig_b_in_zero]
      · rw [hbit, irig_b_in_one]
    rw [hpulse, IrigIn.bit_started h.flag]
    refine ⟨h.flag, ?_, ?_, put_stored (by omega) h.index h.stored rfl⟩
    · exact (congrArg (· + 1) h.index).trans (ofNat_succ k)
    · rw [if_neg (by omega)]
      rfl

/-- The rest of the frame: the time is read when all of its states are stored. -/
theorem Reading.finish {n : Nat} (h : Reading t d k) (hpos : 0 < k) (hn : k + n = 99) :
    ∃ d' : IrigIn, (∀ i < 100, d'.Bcode (.ofNat i) = irigState t (.ofNat i)) ∧
      (irigRun d ((irigStates t (n + 1) (.ofNat k)).map irig_b_out)).BTime = d'.readTime := by
  induction n generalizing d k with
  | zero =>
    obtain rfl : k = 99 := by omega
    have hcode := irigState_marker t (show 99 < 100 by omega) (.inr rfl)
    have hapart : d.BCodeStartCnt = 0 := h.pair
    have hindex : d.BCodeRuningCnt + 1 ≥ 99 := by
      rw [h.index]
      decide
    refine ⟨{ d with BCodeStartCnt := 1 }.put p_code,
      put_stored (by omega) h.index h.stored hcode.symm, ?_⟩
    have hrun : irigRun d ((irigStates t 1 (.ofNat 99)).map irig_b_out) =
        (irig_b_in d (irig_b_out (irigState t (.ofNat 99)))).2 := rfl
    rw [hrun, hcode, irig_b_in_marker, IrigIn.marker_ends hapart hindex]
  | succ n ih =>
    have hstep : (step_irig_b_out t (.ofNat k)).2 = UInt8.ofNat (k + 1) := by
      unfold step_irig_b_out
      dsimp only
      rw [ofNat_succ]
      apply if_neg
      rw [ge_iff_le, UInt8.le_iff_toNat_le, UInt8.toNat_ofNat_of_lt' (show k + 1 < 256 by omega)]
      have : (100 : UInt8).toNat = 100 := rfl
      omega
    rw [irigStates_succ, List.map_cons, irigRun_cons, hstep]
    exact ih (h.next hpos (by omega)) (Nat.succ_pos k) (by omega)

theorem irigFrame_eq (t : BDc) :
    irigFrame t = irig_b_out p_code :: (irigStates t 99 (.ofNat 1)).map irig_b_out := by
  have hfirst : irigState t 0 = p_code := if_pos (.inl rfl)
  have hsecond : (step_irig_b_out t 0).2 = UInt8.ofNat 1 := rfl
  rw [irigFrame, irigStates_succ t 99 0, List.map_cons, hfirst, hsecond]

/-- **What a frame is read as.** -/
theorem irigRun_frame (t : BDc) (hapart : d.BCodeStartCnt = 0) :
    ∃ d' : IrigIn, (∀ i < 100, d'.Bcode (.ofNat i) = irigState t (.ofNat i)) ∧
      (irigRun d (irig_b_out p_code :: irigFrame t)).BTime = d'.readTime := by
  have hfirst : d.marker.2.BCodeStartCnt = 1 := IrigIn.marker_startCnt hapart
  have hopened : Reading t d.marker.2.marker.2 1 := by
    rw [IrigIn.marker_opens hfirst]
    refine ⟨rfl, rfl, rfl, put_stored (k := 0) (by omega) rfl (fun i hi => absurd hi (by omega)) ?_⟩
    exact (irigState_marker t (by omega) (.inl rfl)).symm
  rw [irigFrame_eq, irigRun_cons, irigRun_cons, irig_b_in_marker, irig_b_in_marker]
  exact hopened.finish (by omega) (by omega)

/-! ## What is read -/

/-- Seven bits of a number, read least first from the shift `first` on. -/
def sevenRead (n : UInt16) (first : UInt8) : UInt8 :=
  BCD_TO_DEC ((codeBit n (first + 7) <<< 6) ||| (codeBit n (first + 6) <<< 5) |||
    (codeBit n (first + 5) <<< 4) ||| (codeBit n (first + 3) <<< 3) |||
    (codeBit n (first + 2) <<< 2) ||| (codeBit n (first + 1) <<< 1) ||| codeBit n first)

def hourRead (n : UInt16) : UInt8 :=
  BCD_TO_DEC ((codeBit n 6 <<< 5) ||| (codeBit n 5 <<< 4) ||| (codeBit n 3 <<< 3) |||
    (codeBit n 2 <<< 2) ||| (codeBit n 1 <<< 1) ||| codeBit n 0)

def dayRead (n : UInt16) : UInt16 :=
  let hundreds := fun shift => (codeBit (n / 100) shift).toUInt16
  let rest := fun shift => (codeBit (n % 100) shift).toUInt16
  BcdToDec ((hundreds 1 <<< 9) ||| (hundreds 0 <<< 8) ||| (rest 8 <<< 7) ||| (rest 7 <<< 6) |||
    (rest 6 <<< 5) ||| (rest 5 <<< 4) ||| (rest 3 <<< 3) ||| (rest 2 <<< 2) ||| (rest 1 <<< 1) |||
    rest 0)

/-- What is read depends on the array alone. -/
theorem readTime_sent (h : ∀ i : UInt8, i < 100 → d.Bcode i = irigState t i) :
    d.readTime = { d with Bcode := irigState t }.readTime := by
  unfold IrigIn.readTime
  simp (disch := decide) only [h]

theorem sent_sec : { d with Bcode := irigState t }.readTime.sec = sevenRead t.sec.toUInt16 1 := rfl

theorem sent_min : { d with Bcode := irigState t }.readTime.min = sevenRead t.min.toUInt16 0 := rfl

theorem sent_hour : { d with Bcode := irigState t }.readTime.hour = hourRead t.hour.toUInt16 := rfl

theorem sent_day : { d with Bcode := irigState t }.readTime.day = dayRead t.day := rfl

/-! ## Which numbers are read as they were sent -/

theorem octet_induction {P : UInt8 → Prop} {bound : Nat} (h : ∀ k < bound, P (.ofNat k)) {n : UInt8}
    (hn : n.toNat < bound) : P n := by
  have hk := h n.toNat hn
  rwa [UInt8.ofNat_toNat] at hk

theorem sec_read {n : UInt8} (hn : n.toNat < 60) : sevenRead n.toUInt16 1 = n ↔ n = 0 := by
  apply octet_induction (P := fun n => sevenRead n.toUInt16 1 = n ↔ n = 0) ?_ hn
  decide +kernel

theorem min_read {n : UInt8} (hn : n.toNat < 60) :
    sevenRead n.toUInt16 0 = n ↔ n = 0 ∨ n = 8 := by
  apply octet_induction (P := fun n => sevenRead n.toUInt16 0 = n ↔ n = 0 ∨ n = 8) ?_ hn
  decide +kernel

theorem hour_read {n : UInt8} (hn : n.toNat < 24) : hourRead n.toUInt16 = n ↔ n = 0 ∨ n = 8 := by
  apply octet_induction (P := fun n => hourRead n.toUInt16 = n ↔ n = 0 ∨ n = 8) ?_ hn
  decide +kernel

theorem day_read {n : UInt16} (hn : 1 ≤ n.toNat ∧ n.toNat ≤ 366) : dayRead n = n ↔ n = 8 := by
  have hall : ∀ k < 367, 1 ≤ k → (dayRead (.ofNat k) = .ofNat k ↔ UInt16.ofNat k = 8) := by
    decide +kernel
  have hk := hall n.toNat (by omega) hn.1
  rwa [UInt16.ofNat_toNat] at hk

/-- The time that a frame leaves is the one in its states. -/
theorem irigRun_sent (t : BDc) (hapart : d.BCodeStartCnt = 0) :
    ∃ d' : IrigIn, (irigRun d (irig_b_out p_code :: irigFrame t)).BTime =
      { d' with Bcode := irigState t }.readTime := by
  obtain ⟨d', hstored, hread⟩ := irigRun_frame t hapart
  refine ⟨d', hread.trans (readTime_sent ?_)⟩
  intro i hi
  exact octet_induction (P := fun i => d'.Bcode i = irigState t i) hstored
    (UInt8.lt_iff_toNat_lt.mp hi)

/-- **Sending and receiving.** -/
theorem roundTrips_iff (t : BDc) (d : IrigIn) (hvalid : t.Valid) (hapart : d.BCodeStartCnt = 0) :
    t.RoundTrips d ↔
      t.sec = 0 ∧ (t.min = 0 ∨ t.min = 8) ∧ (t.hour = 0 ∨ t.hour = 8) ∧ t.day = 8 := by
  obtain ⟨d', hread⟩ := irigRun_sent t hapart
  rw [← sec_read hvalid.sec, ← min_read hvalid.min, ← hour_read hvalid.hour,
    ← day_read hvalid.day]
  constructor
  · intro h
    obtain ⟨hsec, hmin, hhour, hday⟩ := h
    rw [hread] at hsec hmin hhour hday
    exact ⟨hsec, hmin, hhour, hday⟩
  · intro h
    obtain ⟨hsec, hmin, hhour, hday⟩ := h
    refine ⟨?_, ?_, ?_, ?_⟩ <;> rw [hread]
    · exact sent_sec.trans hsec
    · exact sent_min.trans hmin
    · exact sent_hour.trans hhour
    · exact sent_day.trans hday

/-- Eight minutes and eight hours into day 8. -/
theorem roundTrips_eighth : (⟨0, 8, 8, 8, 29280, 26, 0⟩ : BDc).RoundTrips .initial :=
  (roundTrips_iff ⟨0, 8, 8, 8, 29280, 26, 0⟩ .initial (by decide) rfl).mpr (by decide)

/-- 12:34:56 of day 100. -/
theorem midday_misread :
    (⟨56, 34, 12, 100, 45296, 26, 0⟩ : BDc).Valid ∧
      ¬ (⟨56, 34, 12, 100, 45296, 26, 0⟩ : BDc).RoundTrips .initial := by
  refine ⟨by decide, ?_⟩
  intro h
  obtain ⟨d', hread⟩ := irigRun_sent (d := .initial) ⟨56, 34, 12, 100, 45296, 26, 0⟩ rfl
  have hsec : sevenRead 56 1 = 56 := by
    have hsec := h.sec
    rwa [hread] at hsec
  exact absurd hsec (by decide)

end Ptpd
