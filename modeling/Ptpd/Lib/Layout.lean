import Ptpd.Lib.Octets

/-! # Layouts

    How values are laid out in a buffer: where a value is written, nothing else is
    touched, and it is read back. Layouts are put one behind the other, and a table
    is as many of one layout as it has entries.
-/

/-- A way to write values of `E` at an offset, and to read them there. -/
structure Layout (E : Type*) where
  size : Nat
  put : (Nat → UInt8) → Nat → E → Nat → UInt8
  get : (Nat → UInt8) → Nat → E
  put_other : ∀ buf off e i, i < off ∨ off + size ≤ i → put buf off e i = buf i
  get_congr : ∀ buf buf' off, (∀ i, off ≤ i → i < off + size → buf i = buf' i) →
    get buf off = get buf' off
  get_put : ∀ buf off e, get (put buf off e) off = e

namespace Layout

open Octets

variable {E F : Type*}

/-- What stands elsewhere is read as before. -/
theorem get_put_other (A : Layout E) (B : Layout F) (buf : Buf) {off off' : Nat} (e : E)
    (h : off' + B.size ≤ off ∨ off + A.size ≤ off') :
    B.get (A.put buf off e) off' = B.get buf off' := by
  apply B.get_congr
  intro i hlo hhi
  apply A.put_other
  omega

theorem get32_put32 (buf : Buf) (off : Nat) (v : UInt32) : get32 (put32 buf off v) off = v := by
  have h0 : put32 buf off v off = octet v.toNat 0 := by
    rw [put32, put8_other _ _ (by omega), put8_other _ _ (by omega), put8_other _ _ (by omega),
      put8_same]
  have h1 : put32 buf off v (off + 1) = octet v.toNat 1 := by
    rw [put32, put8_other _ _ (by omega), put8_other _ _ (by omega), put8_same]
  have h2 : put32 buf off v (off + 2) = octet v.toNat 2 := by
    rw [put32, put8_other _ _ (by omega), put8_same]
  have h3 : put32 buf off v (off + 3) = octet v.toNat 3 := by
    rw [put32, put8_same]
  have hlt := v.toNat_lt
  apply UInt32.toNat_inj.mp
  unfold get32
  rw [h0, h1, h2, h3]
  simp only [octet_toNat, UInt32.toNat_ofNat', Nat.reducePow]
  omega

/-- A word of four octets, low octet first. -/
def word : Layout UInt32 where
  size := 4
  put := put32
  get := get32
  put_other buf _ v _ h := put32_other buf v h
  get_congr _ _ _ h := get32_congr h
  get_put := get32_put32

/-- One behind the other. -/
def seq (A : Layout E) (B : Layout F) : Layout (E × F) where
  size := A.size + B.size
  put buf off e := B.put (A.put buf off e.1) (off + A.size) e.2
  get buf off := (A.get buf off, B.get buf (off + A.size))
  put_other buf off e i h := by
    rw [B.put_other _ _ _ _ (by omega), A.put_other _ _ _ _ (by omega)]
  get_congr buf buf' off h := by
    have hfirst := A.get_congr buf buf' off fun i hlo hhi => h i hlo (by omega)
    have hsecond := B.get_congr buf buf' (off + A.size) fun i hlo hhi =>
      h i (by omega) (by omega)
    rw [hfirst, hsecond]
  get_put buf off e := by
    have hfirst := get_put_other B A (A.put buf off e.1) e.2 (.inl (le_refl (off + A.size)))
    rw [hfirst, A.get_put, B.get_put]

/-! ## Tables -/

/-- The first `n` entries of a table that starts at `off`. -/
def putTable (A : Layout E) (off : Nat) (table : Nat → E) : Nat → Buf → Buf
  | 0, buf => buf
  | n + 1, buf => A.put (A.putTable off table n buf) (off + n * A.size) (table n)

variable (A : Layout E) (off : Nat) (table : Nat → E)

theorem putTable_other (n : Nat) (buf : Buf) {i : Nat} (h : i < off ∨ off + n * A.size ≤ i) :
    A.putTable off table n buf i = buf i := by
  induction n with
  | zero => rfl
  | succ n ih =>
    rw [Nat.succ_mul] at h
    unfold putTable
    rw [A.put_other _ _ _ _ (by omega), ih (by omega)]

/-- Each entry is read where it was written. -/
theorem get_putTable (n : Nat) (buf : Buf) {k : Nat} (hk : k < n) :
    A.get (A.putTable off table n buf) (off + k * A.size) = table k := by
  induction n with
  | zero => exact absurd hk (Nat.not_lt_zero k)
  | succ n ih =>
    unfold putTable
    by_cases hlast : k = n
    · rw [hlast, A.get_put]
    · -- the last entry stands behind this one
      have hbefore : off + k * A.size + A.size ≤ off + n * A.size := by
        have hmul : (k + 1) * A.size ≤ n * A.size := Nat.mul_le_mul_right A.size (by omega)
        rw [Nat.succ_mul] at hmul
        omega
      rw [get_put_other A A _ _ (.inl hbefore)]
      exact ih (by omega)

end Layout
