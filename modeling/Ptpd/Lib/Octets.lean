import Mathlib.Tactic.Ring

/-! # Octet buffers of a little-endian machine

    A buffer is a function from offsets to octets. `put16`/`put32` and
    `get16`/`get32` are the machine's own word accesses (low octet first);
    `htons`/`htonl` are the byte swaps that turn them into network order. The
    lemmas reduce a swapped word access to its octets, most significant first,
    so that packing and unpacking meet field by field.
-/

namespace Octets

/-- A memory area addressed by octet offset. -/
abbrev Buf := Nat → UInt8

/-! ## Byte order -/

/-- Swap the two octets of a 16-bit word. -/
def htons (n : UInt16) : UInt16 :=
  ((n &&& 0xff) <<< 8) ||| ((n &&& 0xff00) >>> 8)

/-- Reverse the four octets of a 32-bit word. -/
def htonl (n : UInt32) : UInt32 :=
  ((n &&& 0xff) <<< 24) ||| ((n &&& 0xff00) <<< 8) ||| ((n &&& 0xff0000) >>> 8) |||
    ((n &&& 0xff000000) >>> 24)

/-- Octet `k` of a natural number, octet 0 being the least significant. -/
def octet (n k : Nat) : UInt8 := UInt8.ofNat (n / 256 ^ k % 256)

@[simp] theorem octet_toNat (n k : Nat) : (octet n k).toNat = n / 256 ^ k % 256 := by
  simp only [octet, UInt8.toNat_ofNat']
  omega

/-- Masking out octet `k` and shifting it down is division and remainder. -/
private theorem and_mask_shiftRight (n k : Nat) :
    (n &&& (0xff <<< (8 * k))) >>> (8 * k) = n / 2 ^ (8 * k) % 256 := by
  rw [Nat.shiftRight_and_distrib, Nat.shiftLeft_shiftRight,
    show (0xff : Nat) = 2 ^ 8 - 1 from rfl, Nat.and_two_pow_sub_one_eq_mod,
    Nat.shiftRight_eq_div_pow]

theorem htons_toNat (n : UInt16) :
    (htons n).toNat = n.toNat % 256 * 256 + n.toNat / 256 := by
  have hlt := n.toNat_lt
  have hhi : (n.toNat &&& 0xff00) >>> 8 = n.toNat / 256 := by
    have := and_mask_shiftRight n.toNat 1
    simp only [Nat.reduceMul, Nat.reduceShiftLeft, Nat.reducePow] at this
    rw [this]; omega
  have hlo : (n.toNat &&& 0xff) <<< 8 % 2 ^ 16 = 2 ^ 8 * (n.toNat % 256) := by
    rw [show (0xff : Nat) = 2 ^ 8 - 1 from rfl, Nat.and_two_pow_sub_one_eq_mod, Nat.shiftLeft_eq]
    omega
  simp only [htons, UInt16.toNat_or, UInt16.toNat_shiftLeft, UInt16.toNat_shiftRight,
    UInt16.toNat_and, UInt16.reduceToNat, Nat.reduceMod]
  rw [hhi, hlo, ← Nat.two_pow_add_eq_or_of_lt (by omega)]
  omega

theorem htonl_toNat (n : UInt32) :
    (htonl n).toNat = n.toNat % 256 * 16777216 + n.toNat / 256 % 256 * 65536 +
      n.toNat / 65536 % 256 * 256 + n.toNat / 16777216 := by
  have hlt := n.toNat_lt
  -- each masked and shifted octet as a number
  have h0 : (n.toNat &&& 0xff) <<< 24 % 2 ^ 32 = 2 ^ 24 * (n.toNat % 256) := by
    rw [show (0xff : Nat) = 2 ^ 8 - 1 from rfl, Nat.and_two_pow_sub_one_eq_mod, Nat.shiftLeft_eq]
    omega
  have h1 : (n.toNat &&& 0xff00) <<< 8 % 2 ^ 32 = 2 ^ 16 * (n.toNat / 256 % 256) := by
    have hs := and_mask_shiftRight n.toNat 1
    simp only [Nat.reduceMul, Nat.reduceShiftLeft, Nat.reducePow] at hs
    have hle : n.toNat &&& 0xff00 ≤ 0xff00 := Nat.and_le_right
    have hdvd : (n.toNat &&& 0xff00) % 256 = 0 := by
      rw [show (256 : Nat) = 2 ^ 8 from rfl, ← Nat.and_two_pow_sub_one_eq_mod, Nat.and_assoc]
      simp
    rw [Nat.shiftRight_eq_div_pow] at hs
    rw [Nat.shiftLeft_eq]
    omega
  have h2 : (n.toNat &&& 0xff0000) >>> 8 = 2 ^ 8 * (n.toNat / 65536 % 256) := by
    have hs := and_mask_shiftRight n.toNat 2
    simp only [Nat.reduceMul, Nat.reduceShiftLeft, Nat.reducePow] at hs
    have hdvd : (n.toNat &&& 0xff0000) % 65536 = 0 := by
      rw [show (65536 : Nat) = 2 ^ 16 from rfl, ← Nat.and_two_pow_sub_one_eq_mod, Nat.and_assoc]
      simp
    rw [Nat.shiftRight_eq_div_pow] at hs ⊢
    omega
  have h3 : (n.toNat &&& 0xff000000) >>> 24 = n.toNat / 16777216 := by
    have hs := and_mask_shiftRight n.toNat 3
    simp only [Nat.reduceMul, Nat.reduceShiftLeft, Nat.reducePow] at hs
    rw [hs]; omega
  simp only [htonl, UInt32.toNat_or, UInt32.toNat_shiftLeft, UInt32.toNat_shiftRight,
    UInt32.toNat_and, UInt32.reduceToNat, Nat.reduceMod]
  rw [h0, h1, h2, h3]
  -- the parts do not overlap, so `or` is a sum
  have ha : 2 ^ 24 * (n.toNat % 256) ||| 2 ^ 16 * (n.toNat / 256 % 256) =
      2 ^ 16 * (256 * (n.toNat % 256) + n.toNat / 256 % 256) := by
    rw [← Nat.two_pow_add_eq_or_of_lt (by omega)]; omega
  have hb : 2 ^ 16 * (256 * (n.toNat % 256) + n.toNat / 256 % 256) |||
      2 ^ 8 * (n.toNat / 65536 % 256) =
      2 ^ 8 * (65536 * (n.toNat % 256) + 256 * (n.toNat / 256 % 256) +
        n.toNat / 65536 % 256) := by
    rw [← Nat.two_pow_add_eq_or_of_lt (by omega)]; omega
  rw [ha, hb, ← Nat.two_pow_add_eq_or_of_lt (by omega)]
  omega

/-- Four octets put together, taken apart in the opposite order. -/
private theorem reverse_octets {a b c d : Nat} (hb : b < 256) (hc : c < 256) (hd : d < 256) :
    let n := a * 16777216 + b * 65536 + c * 256 + d
    n % 256 * 16777216 + n / 256 % 256 * 65536 + n / 65536 % 256 * 256 + n / 16777216 =
      d * 16777216 + c * 65536 + b * 256 + a := by
  intro n
  have h0 : n % 256 = d := by omega
  have h1 : n / 256 % 256 = c := by omega
  have h2 : n / 65536 % 256 = b := by omega
  have h3 : n / 16777216 = a := by omega
  rw [h0, h1, h2, h3]

theorem htonl_htonl (n : UInt32) : htonl (htonl n) = n := by
  have hlt := n.toNat_lt
  rw [← UInt32.toNat_inj, htonl_toNat, htonl_toNat,
    reverse_octets (by omega) (by omega) (by omega)]
  omega

/-! ## Word accesses -/

/-- Store one octet. -/
def put8 (buf : Buf) (off : Nat) (v : UInt8) : Buf :=
  fun i => if i = off then v else buf i

/-- Store a 16-bit word, low octet first. -/
def put16 (buf : Buf) (off : Nat) (v : UInt16) : Buf :=
  put8 (put8 buf off (octet v.toNat 0)) (off + 1) (octet v.toNat 1)

/-- Store a 32-bit word, low octet first. -/
def put32 (buf : Buf) (off : Nat) (v : UInt32) : Buf :=
  put8 (put8 (put8 (put8 buf off (octet v.toNat 0)) (off + 1) (octet v.toNat 1))
    (off + 2) (octet v.toNat 2)) (off + 3) (octet v.toNat 3)

/-- Load a 16-bit word, low octet first. -/
def get16 (buf : Buf) (off : Nat) : UInt16 :=
  UInt16.ofNat ((buf off).toNat + 256 * (buf (off + 1)).toNat)

/-- Load a 32-bit word, low octet first. -/
def get32 (buf : Buf) (off : Nat) : UInt32 :=
  UInt32.ofNat ((buf off).toNat + 256 * (buf (off + 1)).toNat +
    65536 * (buf (off + 2)).toNat + 16777216 * (buf (off + 3)).toNat)

/-- Copy `n` octets from a vector into the buffer. -/
def putVec {n : Nat} (buf : Buf) (off : Nat) (v : Vector UInt8 n) : Buf :=
  fun i => if h : off ≤ i ∧ i < off + n then v[i - off] else buf i

/-- Read `n` octets into a vector. -/
def getVec (n : Nat) (buf : Buf) (off : Nat) : Vector UInt8 n :=
  Vector.ofFn fun i => buf (off + i.val)

/-- Clear `n` octets. -/
def zero (buf : Buf) (off n : Nat) : Buf :=
  fun i => if off ≤ i ∧ i < off + n then 0 else buf i

/-- The first `n` octets. -/
def take (n : Nat) (buf : Buf) : List UInt8 := (List.range n).map buf

/-! ## Words in network order -/

/-- The 16-bit word whose octets are `a`, `b`, most significant first. -/
def be16 (a b : UInt8) : UInt16 := UInt16.ofNat (a.toNat * 256 + b.toNat)

/-- The 32-bit word whose octets are `a`, `b`, `c`, `d`, most significant first. -/
def be32 (a b c d : UInt8) : UInt32 :=
  UInt32.ofNat (a.toNat * 16777216 + b.toNat * 65536 + c.toNat * 256 + d.toNat)

theorem htons_get16 (buf : Buf) (off : Nat) :
    htons (get16 buf off) = be16 (buf off) (buf (off + 1)) := by
  apply UInt16.toNat_inj.mp
  have ha := (buf off).toNat_lt
  have hb := (buf (off + 1)).toNat_lt
  have hget : (get16 buf off).toNat = (buf off).toNat + 256 * (buf (off + 1)).toNat := by
    simp only [get16, UInt16.toNat_ofNat']; omega
  rw [htons_toNat, hget, be16, UInt16.toNat_ofNat']
  generalize (buf off).toNat = a at ha
  generalize (buf (off + 1)).toNat = b at hb
  have h0 : (a + 256 * b) % 256 = a := by omega
  have h1 : (a + 256 * b) / 256 = b := by omega
  rw [h0, h1]; omega

theorem htonl_get32 (buf : Buf) (off : Nat) :
    htonl (get32 buf off) =
      be32 (buf off) (buf (off + 1)) (buf (off + 2)) (buf (off + 3)) := by
  apply UInt32.toNat_inj.mp
  have ha := (buf off).toNat_lt
  have hb := (buf (off + 1)).toNat_lt
  have hc := (buf (off + 2)).toNat_lt
  have hd := (buf (off + 3)).toNat_lt
  have hget : (get32 buf off).toNat = (buf off).toNat + 256 * (buf (off + 1)).toNat +
      65536 * (buf (off + 2)).toNat + 16777216 * (buf (off + 3)).toNat := by
    simp only [get32, UInt32.toNat_ofNat']; omega
  rw [htonl_toNat, hget, be32, UInt32.toNat_ofNat']
  generalize (buf off).toNat = a at ha
  generalize (buf (off + 1)).toNat = b at hb
  generalize (buf (off + 2)).toNat = c at hc
  generalize (buf (off + 3)).toNat = d at hd
  have h0 : (a + 256 * b + 65536 * c + 16777216 * d) % 256 = a := by omega
  have h1 : (a + 256 * b + 65536 * c + 16777216 * d) / 256 % 256 = b := by omega
  have h2 : (a + 256 * b + 65536 * c + 16777216 * d) / 65536 % 256 = c := by omega
  have h3 : (a + 256 * b + 65536 * c + 16777216 * d) / 16777216 = d := by omega
  rw [h0, h1, h2, h3]; omega

private theorem octet_htons (v : UInt16) :
    octet (htons v).toNat 0 = octet v.toNat 1 ∧ octet (htons v).toNat 1 = octet v.toNat 0 := by
  have hr : v.toNat % 256 < 256 := Nat.mod_lt _ (by decide)
  have hq : v.toNat / 256 < 256 := by have := v.toNat_lt; omega
  constructor <;> apply UInt8.toNat_inj.mp <;>
    simp only [octet_toNat, htons_toNat, Nat.pow_zero, Nat.pow_one, Nat.div_one] <;>
    generalize v.toNat % 256 = r at hr ⊢ <;> generalize v.toNat / 256 = q at hq ⊢ <;> omega

private theorem octet_htonl (v : UInt32) (k : Nat) (hk : k < 4) :
    octet (htonl v).toNat k = octet v.toNat (3 - k) := by
  have h0 : v.toNat % 256 < 256 := Nat.mod_lt _ (by decide)
  have h1 : v.toNat / 256 % 256 < 256 := Nat.mod_lt _ (by decide)
  have h2 : v.toNat / 65536 % 256 < 256 := Nat.mod_lt _ (by decide)
  have h3 : v.toNat / 16777216 < 256 := by have := v.toNat_lt; omega
  apply UInt8.toNat_inj.mp
  rw [octet_toNat, octet_toNat, htonl_toNat]
  obtain rfl | rfl | rfl | rfl : k = 0 ∨ k = 1 ∨ k = 2 ∨ k = 3 := by omega
  all_goals
    simp only [Nat.reduceSub, Nat.reducePow, Nat.div_one]
    generalize v.toNat % 256 = a at h0 ⊢
    generalize v.toNat / 256 % 256 = b at h1 ⊢
    generalize v.toNat / 65536 % 256 = c at h2 ⊢
    generalize v.toNat / 16777216 = d at h3 ⊢
    omega

theorem put16_htons (buf : Buf) (off : Nat) (v : UInt16) :
    put16 buf off (htons v) =
      put8 (put8 buf off (octet v.toNat 1)) (off + 1) (octet v.toNat 0) := by
  rw [put16, (octet_htons v).1, (octet_htons v).2]

theorem put32_htonl (buf : Buf) (off : Nat) (v : UInt32) :
    put32 buf off (htonl v) =
      put8 (put8 (put8 (put8 buf off (octet v.toNat 3)) (off + 1) (octet v.toNat 2))
        (off + 2) (octet v.toNat 1)) (off + 3) (octet v.toNat 0) := by
  rw [put32, octet_htonl v 0 (by decide), octet_htonl v 1 (by decide),
    octet_htonl v 2 (by decide), octet_htonl v 3 (by decide)]

@[simp] theorem be16_octet (v : UInt16) : be16 (octet v.toNat 1) (octet v.toNat 0) = v := by
  have h := v.toNat_lt
  apply UInt16.toNat_inj.mp
  simp only [be16, octet_toNat, UInt16.toNat_ofNat', Nat.reducePow]
  omega

@[simp] theorem be32_octet (v : UInt32) :
    be32 (octet v.toNat 3) (octet v.toNat 2) (octet v.toNat 1) (octet v.toNat 0) = v := by
  have h := v.toNat_lt
  apply UInt32.toNat_inj.mp
  simp only [be32, octet_toNat, UInt32.toNat_ofNat', Nat.reducePow]
  omega

@[simp] theorem octet_be16 (a b : UInt8) :
    octet (be16 a b).toNat 1 = a ∧ octet (be16 a b).toNat 0 = b := by
  have ha := a.toNat_lt
  have hb := b.toNat_lt
  constructor <;> apply UInt8.toNat_inj.mp <;>
    simp only [be16, octet_toNat, UInt16.toNat_ofNat', Nat.reducePow] <;> omega

theorem be16_inj {a b a' b' : UInt8} (h : be16 a b = be16 a' b') : a = a' ∧ b = b' := by
  have ha := octet_be16 a b
  rw [h, (octet_be16 a' b').1, (octet_be16 a' b').2] at ha
  exact ⟨ha.1.symm, ha.2.symm⟩

theorem be32_inj {a b c d a' b' c' d' : UInt8} (h : be32 a b c d = be32 a' b' c' d') :
    a = a' ∧ b = b' ∧ c = c' ∧ d = d' := by
  have h := congrArg UInt32.toNat h
  simp only [be32, UInt32.toNat_ofNat'] at h
  have := a.toNat_lt
  have := b.toNat_lt
  have := c.toNat_lt
  have := d.toNat_lt
  have := a'.toNat_lt
  have := b'.toNat_lt
  have := c'.toNat_lt
  have := d'.toNat_lt
  refine ⟨?_, ?_, ?_, ?_⟩ <;> apply UInt8.toNat_inj.mp <;> omega

/-! ## Reading back -/

@[simp] theorem put8_same (buf : Buf) (off : Nat) (v : UInt8) : put8 buf off v off = v := by
  simp [put8]

theorem put8_other (buf : Buf) {off i : Nat} (v : UInt8) (h : i ≠ off) :
    put8 buf off v i = buf i := by
  simp [put8, h]

theorem put16_other (buf : Buf) {off i : Nat} (v : UInt16) (h : i < off ∨ off + 2 ≤ i) :
    put16 buf off v i = buf i := by
  rw [put16, put8_other _ _ (by omega), put8_other _ _ (by omega)]

theorem put32_other (buf : Buf) {off i : Nat} (v : UInt32) (h : i < off ∨ off + 4 ≤ i) :
    put32 buf off v i = buf i := by
  rw [put32, put8_other _ _ (by omega), put8_other _ _ (by omega), put8_other _ _ (by omega),
    put8_other _ _ (by omega)]

theorem putVec_other {n : Nat} (buf : Buf) {off i : Nat} (v : Vector UInt8 n)
    (h : i < off ∨ off + n ≤ i) : putVec buf off v i = buf i := by
  rw [putVec, dif_neg (by omega)]

theorem zero_other (buf : Buf) {off n i : Nat} (h : i < off ∨ off + n ≤ i) :
    zero buf off n i = buf i := by
  rw [zero, if_neg (by omega)]

theorem zero_same (buf : Buf) {off n i : Nat} (hlo : off ≤ i) (hhi : i < off + n) :
    zero buf off n i = 0 := by
  rw [zero, if_pos ⟨hlo, hhi⟩]

/-- A word stored in network order is read back. -/
theorem htons_get16_put16 (buf : Buf) (off : Nat) (v : UInt16) :
    htons (get16 (put16 buf off (htons v)) off) = v := by
  have hhi : put16 buf off (htons v) off = octet v.toNat 1 := by
    rw [put16_htons, put8_other _ _ (by omega), put8_same]
  have hlo : put16 buf off (htons v) (off + 1) = octet v.toNat 0 := by
    rw [put16_htons, put8_same]
  rw [htons_get16, hhi, hlo, be16_octet]

theorem htonl_get32_put32 (buf : Buf) (off : Nat) (v : UInt32) :
    htonl (get32 (put32 buf off (htonl v)) off) = v := by
  have h3 : put32 buf off (htonl v) off = octet v.toNat 3 := by
    rw [put32_htonl, put8_other _ _ (by omega), put8_other _ _ (by omega),
      put8_other _ _ (by omega), put8_same]
  have h2 : put32 buf off (htonl v) (off + 1) = octet v.toNat 2 := by
    rw [put32_htonl, put8_other _ _ (by omega), put8_other _ _ (by omega), put8_same]
  have h1 : put32 buf off (htonl v) (off + 2) = octet v.toNat 1 := by
    rw [put32_htonl, put8_other _ _ (by omega), put8_same]
  have h0 : put32 buf off (htonl v) (off + 3) = octet v.toNat 0 := by
    rw [put32_htonl, put8_same]
  rw [htonl_get32, h3, h2, h1, h0, be32_octet]

theorem get16_zero {buf : Buf} {off : Nat} (h : ∀ i, off ≤ i → i < off + 2 → buf i = 0) :
    get16 buf off = 0 := by
  rw [get16, h off (by omega) (by omega), h (off + 1) (by omega) (by omega)]
  rfl

theorem get32_zero {buf : Buf} {off : Nat} (h : ∀ i, off ≤ i → i < off + 4 → buf i = 0) :
    get32 buf off = 0 := by
  rw [get32, h off (by omega) (by omega), h (off + 1) (by omega) (by omega),
    h (off + 2) (by omega) (by omega), h (off + 3) (by omega) (by omega)]
  rfl

/-- Storing a word where it was read changes nothing. -/
theorem put16_get16 {a b : Buf} {off : Nat} (h : ∀ i, off ≤ i → i < off + 2 → a i = b i) :
    put16 a off (htons (htons (get16 b off))) = a := by
  rw [put16_htons, htons_get16, (octet_be16 _ _).1, (octet_be16 _ _).2,
    ← h off (by omega) (by omega), ← h (off + 1) (by omega) (by omega)]
  funext i
  by_cases hi : i = off + 1
  · rw [hi, put8_same]
  · rw [put8_other _ _ hi]
    by_cases hi : i = off
    · rw [hi, put8_same]
    · rw [put8_other _ _ hi]

/-- Two buffers that agree on a word read the same word. -/
theorem get16_congr {a b : Buf} {off : Nat} (h : ∀ i, off ≤ i → i < off + 2 → a i = b i) :
    get16 a off = get16 b off := by
  rw [get16, get16, h off (by omega) (by omega), h (off + 1) (by omega) (by omega)]

theorem get32_congr {a b : Buf} {off : Nat} (h : ∀ i, off ≤ i → i < off + 4 → a i = b i) :
    get32 a off = get32 b off := by
  rw [get32, get32, h off (by omega) (by omega), h (off + 1) (by omega) (by omega),
    h (off + 2) (by omega) (by omega), h (off + 3) (by omega) (by omega)]

theorem getVec_putVec {n : Nat} (buf : Buf) (off : Nat) (v : Vector UInt8 n) :
    getVec n (putVec buf off v) off = v := by
  apply Vector.ext
  intro i hi
  simp [getVec, putVec]

/-- Two buffers that agree on the field read the same vector from it. -/
theorem getVec_congr {n : Nat} {a b : Buf} {off : Nat}
    (h : ∀ i, off ≤ i → i < off + n → a i = b i) : getVec n a off = getVec n b off := by
  apply Vector.ext
  intro i hi
  simp [getVec, h (off + i) (by omega) (by omega)]

/-- A prefix shows every octet below its length. -/
theorem take_getElem? {n i : Nat} (buf : Buf) (h : i < n) : (take n buf)[i]? = some (buf i) := by
  simp [take, h]

theorem take_eq_take {n : Nat} {a b : Buf} : take n a = take n b ↔ ∀ i < n, a i = b i := by
  simp [take]

@[simp] theorem take_length (n : Nat) (buf : Buf) : (take n buf).length = n := by
  simp [take]

/-! ## Writing over different contents

    A writer leaves the same octet in two buffers if it writes that octet or
    the buffers agreed on it. -/

theorem put8_congr {a b : Buf} {off i : Nat} (v : UInt8) (h : i = off ∨ a i = b i) :
    put8 a off v i = put8 b off v i := by
  rcases h with rfl | h
  · rw [put8_same, put8_same]
  · by_cases hi : i = off
    · rw [put8, put8, if_pos hi, if_pos hi]
    · rw [put8, put8, if_neg hi, if_neg hi, h]

theorem put16_congr {a b : Buf} {off i : Nat} (v : UInt16)
    (h : off ≤ i ∧ i < off + 2 ∨ a i = b i) : put16 a off v i = put16 b off v i := by
  refine put8_congr _ ?_
  by_cases h1 : i = off + 1
  · exact .inl h1
  · refine .inr (put8_congr _ ?_)
    rcases h with h | h
    · exact .inl (by omega)
    · exact .inr h

theorem put32_congr {a b : Buf} {off i : Nat} (v : UInt32)
    (h : off ≤ i ∧ i < off + 4 ∨ a i = b i) : put32 a off v i = put32 b off v i := by
  refine put8_congr _ ?_
  by_cases h3 : i = off + 3
  · exact .inl h3
  · refine .inr (put8_congr _ ?_)
    by_cases h2 : i = off + 2
    · exact .inl h2
    · refine .inr (put8_congr _ ?_)
      by_cases h1 : i = off + 1
      · exact .inl h1
      · refine .inr (put8_congr _ ?_)
        rcases h with h | h
        · exact .inl (by omega)
        · exact .inr h

theorem putVec_congr {n : Nat} {a b : Buf} {off i : Nat} (v : Vector UInt8 n)
    (h : off ≤ i ∧ i < off + n ∨ a i = b i) : putVec a off v i = putVec b off v i := by
  by_cases hi : off ≤ i ∧ i < off + n
  · rw [putVec, putVec, dif_pos hi, dif_pos hi]
  · rw [putVec, putVec, dif_neg hi, dif_neg hi]
    exact h.resolve_left hi

theorem zero_congr {a b : Buf} {off n i : Nat} (h : off ≤ i ∧ i < off + n ∨ a i = b i) :
    zero a off n i = zero b off n i := by
  by_cases hi : off ≤ i ∧ i < off + n
  · rw [zero, zero, if_pos hi, if_pos hi]
  · rw [zero, zero, if_neg hi, if_neg hi]
    exact h.resolve_left hi

/-! ## Comparison -/

/-- The difference of the first two octets that differ, 0 if none do. -/
def memcmp : List UInt8 → List UInt8 → Int
  | a :: as, b :: bs => if a = b then memcmp as bs else a.toNat - b.toNat
  | _, _ => 0

theorem memcmp_antisymm (a b : List UInt8) : memcmp b a = -memcmp a b := by
  induction a generalizing b with
  | nil => cases b <;> rfl
  | cons x xs ih =>
    cases b with
    | nil => rfl
    | cons y ys =>
      by_cases hxy : x = y
      · subst hxy
        simpa [memcmp] using ih ys
      · simp only [memcmp, if_neg hxy, if_neg (Ne.symm hxy)]
        omega

theorem memcmp_eq_zero {a b : List UInt8} (hlen : a.length = b.length) :
    memcmp a b = 0 ↔ a = b := by
  induction a generalizing b with
  | nil => cases b <;> simp_all [memcmp]
  | cons x xs ih =>
    cases b with
    | nil => simp at hlen
    | cons y ys =>
      have hlen' : xs.length = ys.length := by simpa using hlen
      by_cases hxy : x = y
      · subst hxy
        simpa [memcmp] using ih hlen'
      · have hne : x.toNat ≠ y.toNat := fun h => hxy (UInt8.toNat_inj.mp h)
        simp only [memcmp, hxy, if_false, List.cons.injEq, false_and, iff_false]
        omega

/-- The comparison of two fixed-length octet strings vanishes on equal ones only. -/
theorem memcmp_toList_eq_zero {n : Nat} {a b : Vector UInt8 n} :
    memcmp a.toList b.toList = 0 ↔ a = b := by
  rw [memcmp_eq_zero (by simp), Vector.toList_inj]

end Octets
