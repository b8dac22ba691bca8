import Ptpd.Lib.MachineInt
import Mathlib.Data.Nat.Bitwise
import Mathlib.Tactic.Ring

/-! # 32-bit words added by halves

    Code that cannot see the carry of a 32-bit addition adds the two 16-bit
    halves and looks at bit 16 of each sum. This module has the masks and
    shifts of such code as divisions and remainders, and the two facts that it
    relies on: the halves make up the sum, and bit 16 of the upper one is its
    carry.
-/

namespace HalfWords

open MachineInt

/-! ## Masks and shifts -/

@[simp] theorem low_toNat (x : UInt32) : (x &&& 0xffff).toNat = x.toNat % 65536 := by
  rw [UInt32.toNat_and]
  exact Nat.and_two_pow_sub_one_eq_mod x.toNat 16

@[simp] theorem high_toNat (x : UInt32) : ((x >>> 16) &&& 0xffff).toNat = x.toNat / 65536 := by
  have hx := x.toNat_lt
  have hshift : (x >>> 16).toNat = x.toNat / 65536 := by
    rw [UInt32.toNat_shiftRight]
    exact Nat.shiftRight_eq_div_pow x.toNat 16
  rw [low_toNat, hshift]
  omega

/-- Two halves put together. -/
theorem join_toNat (h l : UInt32) :
    (((h &&& 0xffff) <<< 16) ||| (l &&& 0xffff)).toNat =
      h.toNat % 65536 * 65536 + l.toNat % 65536 := by
  have hshift : ((h &&& 0xffff) <<< 16).toNat = 2 ^ 16 * (h.toNat % 65536) := by
    simp only [UInt32.toNat_shiftLeft, low_toNat, UInt32.reduceToNat, Nat.reduceMod]
    rw [Nat.shiftLeft_eq]
    omega
  rw [UInt32.toNat_or, hshift, low_toNat, ← Nat.two_pow_add_eq_or_of_lt (by omega)]
  ring

/-- A single bit of a word. -/
theorem bit_ne_zero_iff {x mask : UInt32} {k : Nat} (hmask : mask.toNat = 2 ^ k) :
    x &&& mask ≠ 0 ↔ x.toNat / 2 ^ k % 2 = 1 := by
  have hand : (x &&& mask).toNat = 2 ^ k * (x.toNat / 2 ^ k % 2) := by
    rw [UInt32.toNat_and, hmask, Nat.and_two_pow, Nat.toNat_testBit, Nat.mul_comm]
  have hne : x &&& mask ≠ 0 ↔ (x &&& mask).toNat ≠ 0 := by
    rw [ne_eq, ne_eq, ← UInt32.toNat_inj]
    rfl
  have hpos : 0 < 2 ^ k := Nat.two_pow_pos k
  rw [hne, hand]
  constructor
  · intro h
    rcases Nat.mod_two_eq_zero_or_one (x.toNat / 2 ^ k) with h0 | h1
    · rw [h0] at h
      exact absurd rfl h
    · exact h1
  · intro h
    rw [h]
    omega

/-! ## Addition by halves -/

/-- The sum of the lower halves, 17 bits wide. -/
def lowSum (a b : UInt32) : UInt32 := (a &&& 0xffff) + (b &&& 0xffff)

/-- The sum of the upper halves and the carry of the lower ones. -/
def highSum (a b : UInt32) : UInt32 :=
  let sum : UInt32 := ((a >>> 16) &&& (0xffff : UInt32)) + ((b >>> 16) &&& (0xffff : UInt32))
  if lowSum a b &&& (0x10000 : UInt32) ≠ 0 then sum + 1 else sum

variable (a b : UInt32)

theorem lowSum_toNat : (lowSum a b).toNat = a.toNat % 65536 + b.toNat % 65536 := by
  unfold lowSum
  rw [UInt32.toNat_add, low_toNat, low_toNat]
  omega

theorem highSum_toNat :
    (highSum a b).toNat =
      a.toNat / 65536 + b.toNat / 65536 + (a.toNat % 65536 + b.toNat % 65536) / 65536 := by
  have ha := a.toNat_lt
  have hb := b.toNat_lt
  have hsum :
      (((a >>> 16) &&& (0xffff : UInt32)) + ((b >>> 16) &&& (0xffff : UInt32))).toNat =
      a.toNat / 65536 + b.toNat / 65536 := by
    rw [UInt32.toNat_add, high_toNat, high_toNat]
    omega
  have hcarry := bit_ne_zero_iff (x := lowSum a b) (show (0x10000 : UInt32).toNat = 2 ^ 16 by decide)
  rw [lowSum_toNat] at hcarry
  unfold highSum
  dsimp only
  split
  · rename_i hc
    have hbit := hcarry.mp hc
    rw [UInt32.toNat_add, hsum]
    simp only [UInt32.reduceToNat]
    omega
  · rename_i hc
    have hbit := mt hcarry.mpr hc
    rw [hsum]
    omega

/-- The halves make up the sum of the words. -/
theorem join_sums :
    ((highSum a b &&& 0xffff) <<< 16) ||| (lowSum a b &&& 0xffff) = a + b := by
  have ha := a.toNat_lt
  have hb := b.toNat_lt
  rw [← UInt32.toNat_inj, join_toNat, highSum_toNat, lowSum_toNat, UInt32.toNat_add]
  omega

/-- Bit 16 of the upper sum is the carry of the words. -/
theorem carry_iff : highSum a b &&& (0x10000 : UInt32) ≠ 0 ↔ 2 ^ 32 ≤ a.toNat + b.toNat := by
  have ha := a.toNat_lt
  have hb := b.toNat_lt
  rw [bit_ne_zero_iff (show (0x10000 : UInt32).toNat = 2 ^ 16 by decide), highSum_toNat]
  omega

/-! ## Two words as one number -/

/-- The 64-bit number of an upper and a lower word. -/
def pair (hi lo : UInt32) : Nat := hi.toNat * 2 ^ 32 + lo.toNat

theorem pair_lt (hi lo : UInt32) : pair hi lo < 2 ^ 64 := by
  have hhi := hi.toNat_lt
  have hlo := lo.toNat_lt
  unfold pair
  omega

/-- Adding the lower words by halves and carrying into the upper ones. -/
theorem pair_add (hi lo hi' lo' : UInt32) :
    pair (if highSum lo lo' &&& (0x10000 : UInt32) ≠ 0 then hi + hi' + 1 else hi + hi')
        (lo + lo') =
      (pair hi lo + pair hi' lo') % 2 ^ 64 := by
  have hcarry := carry_iff lo lo'
  have hhi := hi.toNat_lt
  have hhi' := hi'.toNat_lt
  have hlo := lo.toNat_lt
  have hlo' := lo'.toNat_lt
  unfold pair
  rw [UInt32.toNat_add lo lo']
  split
  · rename_i hc
    have hover := hcarry.mp hc
    rw [UInt32.toNat_add, UInt32.toNat_add]
    simp only [UInt32.reduceToNat]
    omega
  · rename_i hc
    have hfits := mt hcarry.mpr hc
    rw [UInt32.toNat_add]
    omega

/-- The complement in two words: subtracting `lo` borrows unless it is 0. -/
theorem pair_neg {hi lo : UInt32} (hne : lo ≠ 0) : pair (~~~hi) (-lo) = 2 ^ 64 - pair hi lo := by
  have hhi := hi.toNat_lt
  have hlo := lo.toNat_lt
  have hpos : lo.toNat ≠ 0 := fun h => hne (UInt32.toNat_inj.mp h)
  unfold pair
  rw [UInt32.toNat_not, UInt32.toNat_neg]
  unfold UInt32.size
  omega

/-! ## Halving a signed number -/

theorem shiftRight_one_toNat (x : UInt32) : (x >>> 1).toNat = x.toNat / 2 := by
  rw [UInt32.toNat_shiftRight]
  exact Nat.shiftRight_eq_div_pow x.toNat 1

/-- After a shift the top bit is free. -/
theorem or_top_toNat (x : UInt32) :
    ((x >>> 1) ||| (0x80000000 : UInt32)).toNat = 2 ^ 31 + x.toNat / 2 := by
  have hx := x.toNat_lt
  have hor := Nat.two_pow_add_eq_or_of_lt (i := 31) (b := x.toNat / 2) (by omega) 1
  rw [UInt32.toNat_or, shiftRight_one_toNat, Nat.lor_comm]
  exact hor.symm

/-- The number of a pair, read with its sign. -/
def signed (hi lo : UInt32) : Int := wrapS 64 (pair hi lo)

theorem signed_eq (hi lo : UInt32) :
    signed hi lo = if hi.toNat < 2 ^ 31 then (pair hi lo : Int) else pair hi lo - 2 ^ 64 := by
  have hlo := lo.toNat_lt
  have hlt := pair_lt hi lo
  unfold signed
  split
  · rename_i hpos
    apply wrapS_64
    · omega
    · unfold pair
      omega
  · rename_i hneg
    rw [← wrapS_sub_pow]
    apply wrapS_64
    · unfold pair
      omega
    · omega

/-- The sign does not change the number modulo 2^64. -/
theorem pair_emod (hi lo : UInt32) : (pair hi lo : Int) % 2 ^ 64 = signed hi lo % 2 ^ 64 := by
  rw [signed_eq]
  split
  · rfl
  · rw [Int.sub_emod_right]

/-- A number modulo 2^64 that fits is the signed number of its pair. -/
theorem signed_eq_of_emod {hi lo : UInt32} {x : Int} (hx : SRange 64 x)
    (h : (pair hi lo : Int) % 2 ^ 64 = x % 2 ^ 64) : signed hi lo = x := by
  unfold signed
  rw [← wrapS_emod, h, wrapS_emod, wrapS_of_range (by norm_num) hx]

/-- An arithmetic shift of the pair: the low bit of the upper word becomes the
    top bit of the lower one, and the sign is kept. -/
theorem signed_halve (hi lo : UInt32) :
    signed
        (if hi &&& (0x80000000 : UInt32) ≠ 0 then (hi >>> 1) ||| (0x80000000 : UInt32)
          else hi >>> 1)
        (if hi &&& (1 : UInt32) ≠ 0 then (lo >>> 1) ||| (0x80000000 : UInt32) else lo >>> 1) =
      signed hi lo / 2 := by
  have hhi := hi.toNat_lt
  have hlo := lo.toNat_lt
  have hodd := bit_ne_zero_iff (x := hi) (show (1 : UInt32).toNat = 2 ^ 0 by decide)
  have htop := bit_ne_zero_iff (x := hi) (show (0x80000000 : UInt32).toNat = 2 ^ 31 by decide)
  have hlow : (if hi &&& (1 : UInt32) ≠ 0 then (lo >>> 1) ||| (0x80000000 : UInt32)
      else lo >>> 1).toNat = hi.toNat % 2 * 2 ^ 31 + lo.toNat / 2 := by
    split
    · rename_i h
      have hbit := hodd.mp h
      rw [or_top_toNat]
      omega
    · rename_i h
      have hbit := mt hodd.mpr h
      rw [shiftRight_one_toNat]
      omega
  have hhigh : (if hi &&& (0x80000000 : UInt32) ≠ 0 then (hi >>> 1) ||| (0x80000000 : UInt32)
      else hi >>> 1).toNat = hi.toNat / 2 ^ 31 * 2 ^ 31 + hi.toNat / 2 := by
    split
    · rename_i h
      have hbit := htop.mp h
      rw [or_top_toNat]
      omega
    · rename_i h
      have hbit := mt htop.mpr h
      rw [shiftRight_one_toNat]
      omega
  -- the top bit, and with it the sign, stays what it was
  rw [signed_eq, signed_eq]
  unfold pair
  rw [hlow, hhigh]
  push_cast
  split
  · rw [if_pos (by omega)]
    omega
  · rw [if_neg (by omega)]
    omega

end HalfWords
