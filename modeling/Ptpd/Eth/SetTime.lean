import Ptpd.Eth.Clock

/-! # Setting the MAC clock (`ethernetif.c`)

    A time is written in units of 2^-31 s and read back in nanoseconds. Both
    conversions round down, and together they lose a nanosecond at most.
-/

namespace Ptpd

open MachineInt

/-- The product is less than 2^63. -/
def ETH_PTPNanoSecond2SubSecond (SubSecondValue : UInt32) : UInt32 :=
  UInt32.ofNat (SubSecondValue.toNat * 0x80000000 / 1000000000)

def ETH_PTP_PositiveTime : UInt32 := 0x00000000

def ETH_PTP_NegativeTime : UInt32 := 0x80000000

/-- The two update registers. -/
structure TimeStampUpdate where
  PTPTSHUR : UInt32
  PTPTSLUR : UInt32

def ETH_SetPTPTimeStampUpdate (Sign SecondValue SubSecondValue : UInt32) : TimeStampUpdate :=
  ⟨SecondValue, Sign ||| SubSecondValue⟩

/-- What `ETH_PTPTime_SetTime` writes before it has the counter initialized. -/
def ETH_PTPTime_SetTime (timestamp : PtpTime) : TimeStampUpdate :=
  if timestamp.tv_sec < 0 ∨ timestamp.tv_sec = 0 ∧ timestamp.tv_nsec < 0 then
    ETH_SetPTPTimeStampUpdate ETH_PTP_NegativeTime (UInt32.ofInt (-timestamp.tv_sec))
      (ETH_PTPNanoSecond2SubSecond (UInt32.ofInt (-timestamp.tv_nsec)))
  else
    ETH_SetPTPTimeStampUpdate ETH_PTP_PositiveTime (UInt32.ofInt timestamp.tv_sec)
      (ETH_PTPNanoSecond2SubSecond (UInt32.ofInt timestamp.tv_nsec))

/-- The MAC: the counter starts with the value in the update registers. -/
def Loads (start : TimeStampUpdate → HardwareTime) : Prop :=
  ∀ written : TimeStampUpdate, written.PTPTSLUR.toNat < 2 ^ 31 →
    (start written).PTPTSHR = written.PTPTSHUR ∧ (start written).PTPTSLR = written.PTPTSLUR

/-! ## The conversions -/

theorem ETH_PTPNanoSecond2SubSecond_toNat {ns : UInt32} (h : ns.toNat < 2000000000) :
    (ETH_PTPNanoSecond2SubSecond ns).toNat = ns.toNat * 0x80000000 / 1000000000 := by
  unfold ETH_PTPNanoSecond2SubSecond
  rw [UInt32.toNat_ofNat_of_lt' (by rw [UInt32.size]; omega)]

theorem ETH_PTPNanoSecond2SubSecond_lt {ns : UInt32} (h : ns.toNat < 1000000000) :
    (ETH_PTPNanoSecond2SubSecond ns).toNat < 2 ^ 31 := by
  rw [ETH_PTPNanoSecond2SubSecond_toNat (by omega)]
  omega

/-- Up to two seconds the quotient is not cut to 32 bits. -/
theorem ETH_PTPNanoSecond2SubSecond_mono {ns ns' : UInt32} (h : ns'.toNat < 2000000000)
    (hle : ns ≤ ns') : ETH_PTPNanoSecond2SubSecond ns ≤ ETH_PTPNanoSecond2SubSecond ns' := by
  rw [UInt32.le_iff_toNat_le] at hle ⊢
  rw [ETH_PTPNanoSecond2SubSecond_toNat (by omega), ETH_PTPNanoSecond2SubSecond_toNat h]
  exact Nat.div_le_div_right (Nat.mul_le_mul_right _ hle)

theorem ETH_PTPSubSecond2NanoSecond_mono {sub sub' : UInt32} (hle : sub ≤ sub') :
    ETH_PTPSubSecond2NanoSecond sub ≤ ETH_PTPSubSecond2NanoSecond sub' := by
  have hsub := sub.toNat_lt
  have hsub' := sub'.toNat_lt
  rw [UInt32.le_iff_toNat_le] at hle ⊢
  unfold ETH_PTPSubSecond2NanoSecond
  rw [UInt32.toNat_ofNat_of_lt' (by rw [UInt32.size]; omega),
    UInt32.toNat_ofNat_of_lt' (by rw [UInt32.size]; omega)]
  omega

/-- There and back. -/
theorem nanoSecond_roundTrip {ns : UInt32} (h : ns.toNat < 1000000000) :
    (ETH_PTPSubSecond2NanoSecond (ETH_PTPNanoSecond2SubSecond ns)).toNat = ns.toNat ∨
      (ETH_PTPSubSecond2NanoSecond (ETH_PTPNanoSecond2SubSecond ns)).toNat + 1 = ns.toNat := by
  rw [ETH_PTPSubSecond2NanoSecond_toNat (ETH_PTPNanoSecond2SubSecond_lt h),
    ETH_PTPNanoSecond2SubSecond_toNat (by omega)]
  omega

/-! ## A time that is set and read back -/

theorem toNat_ofInt_of_range {x : Int} (hlo : 0 ≤ x) (hhi : x < 2 ^ 32) : ((UInt32.ofInt x).toNat : Int) = x := by
  rw [UInt32.ofInt, UInt32.toNat_ofNat']
  omega

/-- What is written for a time that is not negative. -/
theorem ETH_PTPTime_SetTime_nonneg {t : PtpTime} (hsec : 0 ≤ t.tv_sec) (hnsec : 0 ≤ t.tv_nsec) :
    ETH_PTPTime_SetTime t =
      ⟨UInt32.ofInt t.tv_sec, ETH_PTPNanoSecond2SubSecond (UInt32.ofInt t.tv_nsec)⟩ := by
  have hnonneg : ¬ (t.tv_sec < 0 ∨ t.tv_sec = 0 ∧ t.tv_nsec < 0) := by omega
  unfold ETH_PTPTime_SetTime
  rw [if_neg hnonneg]
  unfold ETH_SetPTPTimeStampUpdate ETH_PTP_PositiveTime
  rw [UInt32.zero_or]

/-- The conversions of nanoseconds: no product leaves the 64 bits, and their order is kept. -/
structure ConversionsSound : Prop where
  lt : ∀ ns : UInt32, ns.toNat < 1000000000 → (ETH_PTPNanoSecond2SubSecond ns).toNat < 2 ^ 31
  product : ∀ ns : UInt32, SRange 64 (ns.toNat * 0x80000000)
  mono : ∀ ns ns' : UInt32, ns'.toNat < 1000000000 → ns ≤ ns' →
    ETH_PTPNanoSecond2SubSecond ns ≤ ETH_PTPNanoSecond2SubSecond ns'
  product' : ∀ sub : UInt32, SRange 64 (sub.toNat * 1000000000)
  mono' : ∀ sub sub' : UInt32, sub ≤ sub' →
    ETH_PTPSubSecond2NanoSecond sub ≤ ETH_PTPSubSecond2NanoSecond sub'

theorem conversionsSound : ConversionsSound where
  lt _ := ETH_PTPNanoSecond2SubSecond_lt
  product ns := by
    have hns := ns.toNat_lt
    exact ⟨by norm_num; omega, by norm_num; omega⟩
  mono _ _ h hle := ETH_PTPNanoSecond2SubSecond_mono (by omega) hle
  product' sub := by
    have hsub := sub.toNat_lt
    exact ⟨by norm_num; omega, by norm_num; omega⟩
  mono' _ _ := ETH_PTPSubSecond2NanoSecond_mono

/-- At both instants the MAC shows what it was started with when the clock was set to `t`. -/
structure ClockSet {Instant : Type} (hardware : Instant → HardwareTime) (τ₁ τ₂ : Instant)
    (t : TimeInternal) : Prop where
  canonical : t.Canonical
  seconds : 0 ≤ t.seconds ∧ t.seconds < 2 ^ 31
  nanoseconds : 0 ≤ t.nanoseconds
  started : ∃ start, Loads start ∧
    hardware τ₁ = start (ETH_PTPTime_SetTime ⟨t.seconds, t.nanoseconds⟩) ∧
    hardware τ₂ = start (ETH_PTPTime_SetTime ⟨t.seconds, t.nanoseconds⟩)

/-- The time `t` was set, and this is read. -/
structure ReadsBack (t read : TimeInternal) : Prop where
  seconds : read.seconds = t.seconds
  nanoseconds : read.nanoseconds = t.nanoseconds ∨ read.nanoseconds = t.nanoseconds - 1
  nonneg : 0 ≤ read.nanoseconds
  lt : read.nanoseconds < 1000000000

theorem ClockSet.readsBack {Instant : Type} {hardware : Instant → HardwareTime} {τ₁ τ₂ : Instant}
    {t : TimeInternal} (h : ClockSet hardware τ₁ τ₂ t) :
    ReadsBack t (ETH_PTPTime_GetTime hardware τ₁ τ₂).getTime := by
  obtain ⟨hcanonical, ⟨hsec, hsec'⟩, hnsec, start, hstart, h₁, h₂⟩ := h
  have hlt := hcanonical.greatest
  have hns : ((UInt32.ofInt t.nanoseconds).toNat : Int) = t.nanoseconds :=
    toNat_ofInt_of_range hnsec (by omega)
  have hs : ((UInt32.ofInt t.seconds).toNat : Int) = t.seconds := toNat_ofInt_of_range hsec (by omega)
  have hrange : (UInt32.ofInt t.nanoseconds).toNat < 1000000000 := by omega
  have hsub := ETH_PTPNanoSecond2SubSecond_lt hrange
  have hback := nanoSecond_roundTrip hrange
  have hread := ETH_PTPSubSecond2NanoSecond_lt hsub
  -- the registers hold what was written
  rw [ETH_PTPTime_SetTime_nonneg hsec hnsec] at h₁ h₂
  dsimp only at h₁ h₂
  obtain ⟨hhigh, hlow⟩ := hstart
    ⟨UInt32.ofInt t.seconds, ETH_PTPNanoSecond2SubSecond (UInt32.ofInt t.nanoseconds)⟩ hsub
  have hlow₁ : (hardware τ₁).PTPTSLR = ETH_PTPNanoSecond2SubSecond (UInt32.ofInt t.nanoseconds) := by
    rw [h₁, hlow]
  have hhigh₂ : (hardware τ₂).PTPTSHR = UInt32.ofInt t.seconds := by
    rw [h₂, hhigh]
  have hgot : (ETH_PTPTime_GetTime hardware τ₁ τ₂).getTime =
      ⟨t.seconds, (ETH_PTPSubSecond2NanoSecond
        (ETH_PTPNanoSecond2SubSecond (UInt32.ofInt t.nanoseconds))).toNat⟩ := by
    unfold ETH_PTPTime_GetTime PtpTime.getTime
    dsimp only
    rw [hlow₁, hhigh₂, hs, wrapS_32 (by omega) (by omega), wrapS_32 (by omega) (by omega)]
  rw [hgot]
  constructor <;> dsimp only <;> omega

/-- **The clock shows the time it was set to**, or a nanosecond less. -/
theorem setTime_getTime :
    ConversionsSound ∧
      ∀ {Instant : Type} {hardware : Instant → HardwareTime} {τ₁ τ₂ : Instant} {t : TimeInternal},
        ClockSet hardware τ₁ τ₂ t →
          ReadsBack t (ETH_PTPTime_GetTime hardware τ₁ τ₂).getTime :=
  ⟨conversionsSound, ClockSet.readsBack⟩

/-- A counter that is loaded with what it is given. -/
def HardwareTime.load (written : TimeStampUpdate) : HardwareTime where
  PTPTSHR := written.PTPTSHUR
  PTPTSLR := UInt32.ofNat (written.PTPTSLUR.toNat % 2 ^ 31)
  subsecond := by
    rw [UInt32.toNat_ofNat_of_lt' (by rw [UInt32.size]; omega)]
    omega

theorem HardwareTime.load_loads : Loads HardwareTime.load := by
  intro written h
  refine ⟨rfl, ?_⟩
  unfold load
  dsimp only
  rw [Nat.mod_eq_of_lt h, UInt32.ofNat_toNat]

/-- The clock set to 100.999999999 s. -/
theorem setTime_getTime_endOfSecond :
    ReadsBack ⟨100, 999999999⟩
      (ETH_PTPTime_GetTime (fun _ : Unit => HardwareTime.load (ETH_PTPTime_SetTime ⟨100, 999999999⟩))
        () ()).getTime :=
  setTime_getTime.2
    ⟨by decide, by decide, by decide, HardwareTime.load, HardwareTime.load_loads, rfl, rfl⟩

end Ptpd
