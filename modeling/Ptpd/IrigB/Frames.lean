import Mathlib.Data.List.Basic
import Ptpd.Lib.EachStep
import Ptpd.IrigB.Code

/-! # The receiver on a noisy line

    The index of `Bcode` is looked at only when a marker was stored, and is taken
    for the last one from 99 elements on. A frame that lacks a marker, or has one
    too many, is followed by what no frame has.
-/

namespace Ptpd

open Steps

/-! ## Pulses -/

/-- 2 ms or 5 ms. -/
def IsBit (Dval : UInt16) : Prop := Dval > 1000 ∧ Dval < 3000 ∨ Dval > 4000 ∧ Dval < 6000

/-- 8 ms. -/
def IsMarker (Dval : UInt16) : Prop := Dval > 7000 ∧ Dval < 9000

instance : DecidablePred IsBit := fun _ => instDecidableOr

instance : DecidablePred IsMarker := fun _ => instDecidableAnd

/-- The number of pulses that are recognized. -/
def elements (pulses : List UInt16) : Nat :=
  pulses.countP fun pulse => decide (IsBit pulse ∨ IsMarker pulse)

/-- Of the pulses, the newest first: two markers with `n - 1` elements behind them. -/
def BehindMarkers (n : Nat) (pulses : List UInt16) : Prop :=
  ∃ rest second first before, pulses = rest ++ second :: first :: before ∧
    IsMarker second ∧ IsMarker first ∧ elements rest + 1 = n

/-! ## Frames -/

/-- The markers in a row up to the newest pulse. -/
def markersInRow : List UInt16 → Nat
  | [] => 0
  | pulse :: before => if IsMarker pulse then markersInRow before + 1 else 0

/-- The pulse is the second marker of a pair, which opens a frame. -/
def OpensFrame (before : List UInt16) (pulse : UInt16) : Prop :=
  IsMarker pulse ∧ markersInRow before % 2 = 1

instance (before : List UInt16) (pulse : UInt16) : Decidable (OpensFrame before pulse) :=
  instDecidableAnd

/-- Between two frames with so many markers since the last one, or so many elements into a frame:
    the first is the second marker of the pair. -/
inductive Phase where
  | between (markers : Nat)
  | frame (elements : Nat)
deriving DecidableEq

/-- The phase behind the pulses, the newest first. A frame ends with a marker as its hundredth
    element. -/
def phase : List UInt16 → Phase
  | [] => .between 0
  | pulse :: before =>
    if OpensFrame before pulse then .frame 1
    else
      match phase before with
      | .between markers => if IsMarker pulse then .between (markers + 1) else .between markers
      | .frame elements =>
        if IsMarker pulse ∧ elements = 99 then .between 0
        else if IsBit pulse ∨ IsMarker pulse then .frame (elements + 1)
        else .frame elements

/-- What the receiver relies on of a pulse and the pulses before it. -/
structure WellFramed (before : List UInt16) (pulse : UInt16) : Prop where
  /-- Behind a hundred elements without a marker at the end comes no other. -/
  ended : phase before = .frame 100 → ¬ (IsBit pulse ∨ IsMarker pulse)
  /-- No lone marker is the last but one element of a frame. -/
  lastButOne : phase before = .frame 98 → IsMarker pulse → OpensFrame before pulse
  /-- There are no 99 lone markers between two frames. -/
  lone : phase before = .between 98 → IsMarker pulse → OpensFrame before pulse

instance (before : List UInt16) (pulse : UInt16) : Decidable (WellFramed before pulse) :=
  decidable_of_iff (_ ∧ _ ∧ _) ⟨fun ⟨h₁, h₂, h₃⟩ => ⟨h₁, h₂, h₃⟩, fun ⟨h₁, h₂, h₃⟩ => ⟨h₁, h₂, h₃⟩⟩

/-! ## Runs -/

/-- The variables, and the pulses so far, the newest first. -/
abbrev IrigLine := IrigIn × List UInt16

def irigStep (s : IrigLine) (pulse : UInt16) : IrigLine := ((irig_b_in s.1 pulse).2, pulse :: s.2)

def IrigWrite.Inside : IrigWrite → Prop
  | .Bcode index => index < 100
  | .BTime => True

/-- The array is written within its bounds, and the time at the end of a frame only. -/
structure InFrame (s : IrigLine) (pulse : UInt16) : Prop where
  inside : ∀ w ∈ (irig_b_in s.1 pulse).1, w.Inside
  ended : .BTime ∈ (irig_b_in s.1 pulse).1 → BehindMarkers 100 (pulse :: s.2)

/-! ## What is recognized -/

variable {d : IrigIn} {pulse : UInt16} {pulses : List UInt16} {n : Nat}

theorem irig_b_in_bit (d : IrigIn) (h : IsBit pulse) : ∃ code, irig_b_in d pulse = d.bit code := by
  by_cases hzero : pulse > 1000 ∧ pulse < 3000
  · exact ⟨zero_code, if_pos hzero⟩
  · have hone : pulse > 4000 ∧ pulse < 6000 := h.resolve_left hzero
    exact ⟨one_code, (if_neg hzero).trans (if_pos hone)⟩

theorem IsMarker.not_bit (h : IsMarker pulse) : ¬ IsBit pulse := by
  unfold IsMarker at h
  unfold IsBit
  simp only [gt_iff_lt, UInt16.lt_iff_toNat_lt, UInt16.reduceToNat] at *
  omega

theorem irig_b_in_isMarker (d : IrigIn) (h : IsMarker pulse) : irig_b_in d pulse = d.marker := by
  obtain ⟨hzero, hone⟩ := not_or.mp h.not_bit
  exact (if_neg hzero).trans ((if_neg hone).trans (if_pos h))

theorem irig_b_in_noise (d : IrigIn) (hbit : ¬ IsBit pulse) (hmarker : ¬ IsMarker pulse) :
    irig_b_in d pulse = ([], { d with BCodeStartCnt := 0 }) := by
  obtain ⟨hzero, hone⟩ := not_or.mp hbit
  exact (if_neg hzero).trans ((if_neg hone).trans (if_neg hmarker))

/-! ## Elements behind two markers -/

theorem elements_recognized (pulses : List UInt16) (h : IsBit pulse ∨ IsMarker pulse) :
    elements (pulse :: pulses) = elements pulses + 1 := List.countP_cons_of_pos (decide_eq_true h)

theorem elements_noise (pulses : List UInt16) (hbit : ¬ IsBit pulse) (hmarker : ¬ IsMarker pulse) :
    elements (pulse :: pulses) = elements pulses := by
  have hpulse : ¬ (IsBit pulse ∨ IsMarker pulse) := not_or.mpr ⟨hbit, hmarker⟩
  apply List.countP_cons_of_neg
  rwa [decide_eq_true_eq]

theorem BehindMarkers.element (h : BehindMarkers n pulses) (hpulse : IsBit pulse ∨ IsMarker pulse) :
    BehindMarkers (n + 1) (pulse :: pulses) := by
  obtain ⟨rest, second, first, before, rfl, hsecond, hfirst, hcount⟩ := h
  refine ⟨pulse :: rest, second, first, before, rfl, hsecond, hfirst, ?_⟩
  rw [elements_recognized rest hpulse, hcount]

theorem BehindMarkers.noise (h : BehindMarkers n pulses) (hbit : ¬ IsBit pulse)
    (hmarker : ¬ IsMarker pulse) : BehindMarkers n (pulse :: pulses) := by
  obtain ⟨rest, second, first, before, rfl, hsecond, hfirst, hcount⟩ := h
  refine ⟨pulse :: rest, second, first, before, rfl, hsecond, hfirst, ?_⟩
  rw [elements_noise rest hbit hmarker, hcount]

theorem BehindMarkers.length_lt (h : BehindMarkers n pulses) : n < pulses.length := by
  obtain ⟨rest, second, first, before, rfl, -, -, rfl⟩ := h
  have hrest : elements rest ≤ rest.length := List.countP_le_length
  simp only [List.length_append, List.length_cons]
  omega

/-! ## Phases -/

theorem OpensFrame.not_of_other (h : ¬ IsMarker pulse) : ¬ OpensFrame pulses pulse :=
  fun hopens => h hopens.1

theorem IsBit.not_marker (h : IsBit pulse) : ¬ IsMarker pulse := fun hmarker => hmarker.not_bit h

theorem phase_opens (h : OpensFrame pulses pulse) : phase (pulse :: pulses) = .frame 1 := if_pos h

theorem phase_other_between {markers : Nat} (hother : ¬ IsMarker pulse)
    (h : phase pulses = .between markers) : phase (pulse :: pulses) = .between markers := by
  have hopens : ¬ OpensFrame pulses pulse := OpensFrame.not_of_other hother
  simp only [phase, h, if_neg hopens, if_neg hother]

theorem phase_bit_frame (hbit : IsBit pulse) (h : phase pulses = .frame n) :
    phase (pulse :: pulses) = .frame (n + 1) := by
  have hopens : ¬ OpensFrame pulses pulse := OpensFrame.not_of_other hbit.not_marker
  have hends : ¬ (IsMarker pulse ∧ n = 99) := fun hends => hbit.not_marker hends.1
  have helement : IsBit pulse ∨ IsMarker pulse := .inl hbit
  simp only [phase, h, if_neg hopens, if_neg hends, if_pos helement]

theorem phase_lone_between {markers : Nat} (hmarker : IsMarker pulse)
    (hlone : ¬ OpensFrame pulses pulse) (h : phase pulses = .between markers) :
    phase (pulse :: pulses) = .between (markers + 1) := by
  simp only [phase, h, if_neg hlone, if_pos hmarker]

theorem phase_last (hmarker : IsMarker pulse) (hlone : ¬ OpensFrame pulses pulse)
    (h : phase pulses = .frame 99) : phase (pulse :: pulses) = .between 0 := by
  simp only [phase, h, if_neg hlone, and_true, if_pos hmarker]

theorem phase_lone_frame (hmarker : IsMarker pulse) (hlone : ¬ OpensFrame pulses pulse)
    (h : phase pulses = .frame n) (hn : n ≠ 99) : phase (pulse :: pulses) = .frame (n + 1) := by
  have hends : ¬ (IsMarker pulse ∧ n = 99) := fun hends => hn hends.2
  have helement : IsBit pulse ∨ IsMarker pulse := .inr hmarker
  simp only [phase, h, if_neg hlone, if_neg hends, if_pos helement]

theorem phase_noise (hbit : ¬ IsBit pulse) (hmarker : ¬ IsMarker pulse) :
    phase (pulse :: pulses) = phase pulses := by
  cases h : phase pulses with
  | between markers => exact phase_other_between hmarker h
  | frame n =>
    have hopens : ¬ OpensFrame pulses pulse := OpensFrame.not_of_other hmarker
    have hends : ¬ (IsMarker pulse ∧ n = 99) := fun hends => hmarker hends.1
    have helement : ¬ (IsBit pulse ∨ IsMarker pulse) := not_or.mpr ⟨hbit, hmarker⟩
    simp only [phase, h, if_neg hopens, if_neg hends, if_neg helement]

theorem markersInRow_marker (h : IsMarker pulse) :
    markersInRow (pulse :: pulses) = markersInRow pulses + 1 := if_pos h

theorem markersInRow_other (h : ¬ IsMarker pulse) : markersInRow (pulse :: pulses) = 0 := if_neg h

theorem OpensFrame.first (h : OpensFrame pulses pulse) :
    ∃ first before, pulses = first :: before ∧ IsMarker first := by
  obtain ⟨-, hodd⟩ := h
  cases pulses with
  | nil => cases hodd
  | cons first before =>
    by_cases hfirst : IsMarker first
    · exact ⟨first, before, rfl, hfirst⟩
    · rw [markersInRow_other hfirst] at hodd
      cases hodd

/-! ## The invariant -/

/-- The index in each phase. -/
def Phase.Index (pulses : List UInt16) (index : Nat) : Phase → Prop
  | .between markers => index = markers ∧ markers ≤ 98
  | .frame elements => index = elements ∧ elements ≤ 100 ∧ BehindMarkers elements pulses

theorem Phase.Index.noise {p : Phase} (h : p.Index pulses n) (hbit : ¬ IsBit pulse)
    (hmarker : ¬ IsMarker pulse) : p.Index (pulse :: pulses) n := by
  cases p with
  | between markers => exact h
  | frame elements =>
    obtain ⟨hcnt, hle, hbehind⟩ := h
    exact ⟨hcnt, hle, hbehind.noise hbit hmarker⟩

/-- The value of `BCodeStartFlag`. -/
def Phase.flag : Phase → UInt8
  | .between _ => 0
  | .frame _ => 1

/-- Where the variables stand in the pulses so far. -/
structure Aligned (s : IrigLine) : Prop where
  startCnt : s.1.BCodeStartCnt.toNat = markersInRow s.2 % 2
  flag : s.1.BCodeStartFlag = (phase s.2).flag
  index : (phase s.2).Index s.2 s.1.BCodeRuningCnt.toNat

theorem toNat_succ_of_lt {n : UInt8} (h : n.toNat < 100) : (n + 1).toNat = n.toNat + 1 := by
  have hone : (1 : UInt8).toNat = 1 := rfl
  rw [UInt8.toNat_add, hone]
  omega

variable {s : IrigLine}

theorem InFrame.of_silent (h : (irig_b_in s.1 pulse).1 = []) : InFrame s pulse := by
  constructor
  · intro w hw
    rw [h] at hw
    cases hw
  · intro hw
    rw [h] at hw
    cases hw

theorem InFrame.of_put {index : UInt8} (h : (irig_b_in s.1 pulse).1 = [.Bcode index])
    (hindex : index < 100) : InFrame s pulse := by
  constructor
  · intro w hw
    rw [h] at hw
    rw [List.mem_singleton.mp hw]
    exact hindex
  · intro hw
    rw [h] at hw
    cases List.mem_singleton.mp hw

/-- A bit between two frames. -/
theorem Aligned.bit_between {markers : Nat} (h : Aligned s) (hbit : IsBit pulse)
    (hphase : phase s.2 = .between markers) : InFrame s pulse ∧ Aligned (irigStep s pulse) := by
  obtain ⟨code, hcode⟩ := irig_b_in_bit s.1 hbit
  obtain ⟨-, hflag, hindex⟩ := h
  rw [hphase] at hflag hindex
  have hwaiting : s.1.BCodeStartFlag ≠ 1 := by
    rw [hflag, Phase.flag]
    decide
  have hcall := hcode.trans (IrigIn.bit_waiting hwaiting code)
  have hnext := phase_other_between hbit.not_marker hphase
  refine ⟨.of_silent (congrArg Prod.fst hcall), ?_⟩
  unfold irigStep
  rw [hcall]
  constructor
  · rw [markersInRow_other hbit.not_marker]
    rfl
  · rw [hnext]
    exact hflag
  · rw [hnext]
    exact hindex

/-- A bit of a frame that has no hundred elements yet. -/
theorem Aligned.bit_frame (h : Aligned s) (hbit : IsBit pulse) (hphase : phase s.2 = .frame n)
    (hn : n ≠ 100) : InFrame s pulse ∧ Aligned (irigStep s pulse) := by
  obtain ⟨code, hcode⟩ := irig_b_in_bit s.1 hbit
  obtain ⟨-, hflag, hindex⟩ := h
  rw [hphase] at hflag hindex
  obtain ⟨hcnt, hle, hbehind⟩ := hindex
  have hroom : s.1.BCodeRuningCnt.toNat < 100 := by omega
  have hcall := hcode.trans (IrigIn.bit_started hflag code)
  have hnext := phase_bit_frame hbit hphase
  refine ⟨.of_put (congrArg Prod.fst hcall) (UInt8.lt_iff_toNat_lt.mpr hroom), ?_⟩
  unfold irigStep
  rw [hcall]
  constructor
  · rw [markersInRow_other hbit.not_marker]
    rfl
  · rw [hnext]
    exact hflag
  · rw [hnext]
    refine ⟨?_, by omega, hbehind.element (.inl hbit)⟩
    exact (toNat_succ_of_lt hroom).trans (congrArg (· + 1) hcnt)

theorem Aligned.bit (h : Aligned s) (hbit : IsBit pulse) (hframed : WellFramed s.2 pulse) :
    InFrame s pulse ∧ Aligned (irigStep s pulse) := by
  cases hphase : phase s.2 with
  | between markers => exact h.bit_between hbit hphase
  | frame n =>
    refine h.bit_frame hbit hphase ?_
    rintro rfl
    exact hframed.ended hphase (.inl hbit)

/-- A marker that begins a frame. -/
theorem Aligned.opens (h : Aligned s) (hopens : OpensFrame s.2 pulse) :
    InFrame s pulse ∧ Aligned (irigStep s pulse) := by
  -- the counter is the parity of the markers in a row
  have hone : s.1.BCodeStartCnt = 1 := by
    apply UInt8.toNat_inj.mp
    rw [h.startCnt, hopens.2]
    rfl
  have hcall := (irig_b_in_isMarker s.1 hopens.1).trans (IrigIn.marker_opens hone)
  have hnext := phase_opens hopens
  obtain ⟨first, before, hpulses, hfirst⟩ := hopens.first
  refine ⟨.of_put (congrArg Prod.fst hcall) (by decide), ?_⟩
  unfold irigStep
  rw [hcall]
  constructor
  · have hodd := hopens.2
    have hzero : (0 : UInt8).toNat = 0 := rfl
    rw [markersInRow_marker hopens.1]
    dsimp only [IrigIn.put]
    omega
  · rw [hnext]
    rfl
  · rw [hnext]
    exact ⟨rfl, by decide, [], pulse, first, before, by rw [hpulses]; rfl, hopens.1, hfirst, rfl⟩

/-- What a lone marker finds. -/
theorem Aligned.startCnt_zero (h : Aligned s) (hmarker : IsMarker pulse)
    (hlone : ¬ OpensFrame s.2 pulse) :
    s.1.BCodeStartCnt = 0 ∧ markersInRow (pulse :: s.2) % 2 = 1 := by
  have heven : markersInRow s.2 % 2 = 0 := by
    have hodd : ¬ markersInRow s.2 % 2 = 1 := fun hodd => hlone ⟨hmarker, hodd⟩
    omega
  constructor
  · apply UInt8.toNat_inj.mp
    rw [h.startCnt, heven]
    rfl
  · rw [markersInRow_marker hmarker]
    omega

/-- A lone marker on the way. -/
theorem Aligned.marker_within (h : Aligned s) (hmarker : IsMarker pulse)
    (hlone : ¬ OpensFrame s.2 pulse) (hindex : s.1.BCodeRuningCnt.toNat < 98)
    (hnext : (phase (pulse :: s.2)).Index (pulse :: s.2) (s.1.BCodeRuningCnt.toNat + 1))
    (hflag : (phase (pulse :: s.2)).flag = (phase s.2).flag) :
    InFrame s pulse ∧ Aligned (irigStep s pulse) := by
  obtain ⟨hzero, hodd⟩ := h.startCnt_zero hmarker hlone
  have hsucc := toNat_succ_of_lt (hindex.trans (by decide))
  have hwithin : ¬ s.1.BCodeRuningCnt + 1 ≥ 99 := by
    have hlast : (99 : UInt8).toNat = 99 := rfl
    rw [ge_iff_le, UInt8.le_iff_toNat_le, hsucc, hlast]
    omega
  have hcall := (irig_b_in_isMarker s.1 hmarker).trans (IrigIn.marker_within hzero hwithin)
  have hroom : s.1.BCodeRuningCnt < 100 := UInt8.lt_iff_toNat_lt.mpr (hindex.trans (by decide))
  refine ⟨.of_put (congrArg Prod.fst hcall) hroom, ?_⟩
  unfold irigStep
  rw [hcall]
  constructor
  · rw [hodd]
    rfl
  · rw [hflag]
    exact h.flag
  · rw [← hsucc] at hnext
    exact hnext

/-- The last marker of a frame. -/
theorem Aligned.marker_last (h : Aligned s) (hmarker : IsMarker pulse)
    (hlone : ¬ OpensFrame s.2 pulse) (hphase : phase s.2 = .frame 99) :
    InFrame s pulse ∧ Aligned (irigStep s pulse) := by
  obtain ⟨hzero, hodd⟩ := h.startCnt_zero hmarker hlone
  have hindex := h.index
  rw [hphase] at hindex
  obtain ⟨hcnt, -, hbehind⟩ := hindex
  have hroom : s.1.BCodeRuningCnt.toNat < 100 := by omega
  have hlast : s.1.BCodeRuningCnt + 1 ≥ 99 := by
    rw [ge_iff_le, UInt8.le_iff_toNat_le, toNat_succ_of_lt hroom, hcnt]
    decide
  have hcall := (irig_b_in_isMarker s.1 hmarker).trans (IrigIn.marker_ends hzero hlast)
  have hnext := phase_last hmarker hlone hphase
  refine ⟨⟨?_, fun _ => hbehind.element (.inr hmarker)⟩, ?_⟩
  · -- the marker is stored before the time is read
    rw [hcall]
    intro w hw
    rcases List.mem_cons.mp hw with rfl | hw
    · exact UInt8.lt_iff_toNat_lt.mpr hroom
    · rw [List.mem_singleton.mp hw]
      trivial
  · unfold irigStep
    rw [hcall]
    constructor
    · rw [hodd]
      rfl
    · rw [hnext]
      rfl
    · rw [hnext]
      exact ⟨rfl, Nat.zero_le 98⟩

/-- Any marker that begins no frame. -/
theorem Aligned.stores (h : Aligned s) (hmarker : IsMarker pulse) (hlone : ¬ OpensFrame s.2 pulse)
    (hframed : WellFramed s.2 pulse) : InFrame s pulse ∧ Aligned (irigStep s pulse) := by
  have hindex := h.index
  cases hphase : phase s.2 with
  | between markers =>
    -- it is stored and counted as well, but not as the last one
    rw [hphase] at hindex
    obtain ⟨hcnt, hle⟩ := hindex
    have hne : markers ≠ 98 := by
      rintro rfl
      exact hlone (hframed.lone hphase hmarker)
    have hnext := phase_lone_between hmarker hlone hphase
    apply h.marker_within hmarker hlone (by omega)
    · rw [hnext]
      exact ⟨congrArg (· + 1) hcnt, by omega⟩
    · rw [hnext, hphase]
      rfl
  | frame n =>
    by_cases hlast : n = 99
    · rw [hlast] at hphase
      exact h.marker_last hmarker hlone hphase
    · -- too early for the last one, which is taken from 99 elements on
      rw [hphase] at hindex
      obtain ⟨hcnt, hle, hbehind⟩ := hindex
      have hfull : n ≠ 100 := by
        rintro rfl
        exact hframed.ended hphase (.inr hmarker)
      have hne : n ≠ 98 := by
        rintro rfl
        exact hlone (hframed.lastButOne hphase hmarker)
      have hnext := phase_lone_frame hmarker hlone hphase hlast
      apply h.marker_within hmarker hlone (by omega)
      · rw [hnext]
        exact ⟨congrArg (· + 1) hcnt, by omega, hbehind.element (.inr hmarker)⟩
      · rw [hnext, hphase]
        rfl

/-- Noise. -/
theorem Aligned.noise (h : Aligned s) (hbit : ¬ IsBit pulse) (hmarker : ¬ IsMarker pulse) :
    InFrame s pulse ∧ Aligned (irigStep s pulse) := by
  have hcall := irig_b_in_noise s.1 hbit hmarker
  have hnext : phase (pulse :: s.2) = phase s.2 := phase_noise hbit hmarker
  refine ⟨.of_silent (congrArg Prod.fst hcall), ?_⟩
  unfold irigStep
  rw [hcall]
  constructor
  · rw [markersInRow_other hmarker]
    rfl
  · rw [hnext]
    exact h.flag
  · rw [hnext]
    exact h.index.noise hbit hmarker

theorem Aligned.step (h : Aligned s) (hframed : WellFramed s.2 pulse) :
    InFrame s pulse ∧ Aligned (irigStep s pulse) := by
  by_cases hbit : IsBit pulse
  · exact h.bit hbit hframed
  · by_cases hmarker : IsMarker pulse
    · by_cases hopens : OpensFrame s.2 pulse
      · exact h.opens hopens
      · exact h.stores hmarker hopens hframed
    · exact h.noise hbit hmarker

/-- **Frames.** -/
theorem irig_b_in_inFrame (pulses : List UInt16)
    (hframed : EachStep irigStep (fun s pulse => WellFramed s.2 pulse) (.initial, []) pulses) :
    EachStep irigStep InFrame (.initial, []) pulses := by
  have hstart : Aligned (.initial, []) := ⟨rfl, rfl, rfl, Nat.zero_le 98⟩
  exact EachStep.of_invariant (fun s _ => Aligned s)
    (fun _ _ _ haligned hstep => haligned.step hstep) hstart hframed

/-- The frame of a second behind the marker of the one before. -/
theorem irig_b_in_inFrame_second :
    EachStep irigStep InFrame (.initial, [])
      (irig_b_out p_code :: (irigStates ⟨56, 34, 12, 100, 45296, 26, 0⟩ 100 0).map irig_b_out) :=
  irig_b_in_inFrame _ (by decide +kernel)

instance : DecidablePred IrigWrite.Inside
  | .Bcode index => inferInstanceAs (Decidable (index < 100))
  | .BTime => inferInstanceAs (Decidable True)

/-- What a step does at least. -/
def Plausible (s : IrigLine) (pulse : UInt16) : Prop :=
  (∀ w ∈ (irig_b_in s.1 pulse).1, w.Inside) ∧
    (.BTime ∈ (irig_b_in s.1 pulse).1 → 100 ≤ s.2.length)

instance (s : IrigLine) (pulse : UInt16) : Decidable (Plausible s pulse) := instDecidableAnd

theorem plausible_of_inFrame (h : EachStep irigStep InFrame s pulses) :
    EachStep irigStep Plausible s pulses :=
  EachStep.of_invariant (fun _ _ => True)
    (fun _ _ _ _ h => ⟨⟨h.inside, fun hw => Nat.le_of_lt_succ (h.ended hw).length_lt⟩, trivial⟩)
    trivial h

/-- Behind two markers, a hundred bits are written past the end of the array, and a marker in the
    place of the last bit has the time read from 99 elements. -/
theorem irig_b_in_notInFrame :
    ¬ EachStep irigStep InFrame (.initial, []) (8000 :: 8000 :: List.replicate 100 2000) ∧
      ¬ EachStep irigStep InFrame (.initial, [])
        (8000 :: 8000 :: (List.replicate 97 2000 ++ [8000])) :=
  ⟨fun h => absurd (plausible_of_inFrame h) (by decide +kernel),
    fun h => absurd (plausible_of_inFrame h) (by decide +kernel)⟩

end Ptpd
