import Ptpd.Lib.Decimal
import Ptpd.Lib.MachineInt

/-! # Fields of a sentence (`bds.c`)

    A field is found by its comma and its number is read in two passes: the first
    counts the digits, the second adds them up. The octets in reach are a list, and
    `none` is the result of reading behind it.
-/

namespace Ptpd

open MachineInt

/-! ## The functions -/

def ascii (c : Char) : UInt8 := .ofNat c.toNat

/-- Inner `none` is `NULL`. -/
def my_strstr (s1 s2 : List UInt8) : (s1len : Nat) → Option (Option (List UInt8))
  | 0 => if s2 = [] then some (some s1) else some none
  | s1len + 1 =>
    if s1len + 1 ≥ s2.length then
      if s1.length < s2.length then none
      else if s1.take s2.length = s2 then some (some s1)
      else my_strstr s1.tail s2 s1len
    else some none

/-- `pos`: the octets passed so far, counted in 8 bits. -/
def NMEA_Comma_Pos : (buf : List UInt8) → (cx pos : UInt8) → Option UInt8
  | [], cx, pos => if cx = 0 then some pos else none
  | c :: buf, cx, pos =>
    if cx = 0 then some pos
    else if c = ascii '*' ∨ c < ascii ' ' ∨ c > ascii 'z' then some 0xFF
    else NMEA_Comma_Pos buf (if c = ascii ',' then cx - 1 else cx) (pos + 1)

def NMEA_Pow (m n : UInt8) : UInt32 := Nat.iterate (· * m.toUInt32) n.toNat 1

/-- What the first pass counts. -/
structure NmeaCount where
  ilen : UInt8
  flen : UInt8
  /-- `mask & 1`. -/
  point : Bool
  /-- `mask & 2`. -/
  minus : Bool
deriving DecidableEq

def NmeaCount.digit (s : NmeaCount) : NmeaCount :=
  if s.point then { s with flen := s.flen + 1 } else { s with ilen := s.ilen + 1 }

/-- The first pass. `signed`: the octet before was a sign, and this one is not tested
    for another. -/
def countDigits : (p : List UInt8) → (signed : Bool) → NmeaCount → Option NmeaCount
  | [], _, _ => none
  | c :: p, signed, s =>
    if c = ascii '-' ∧ !signed then countDigits p true { s with minus := true }
    else if c = ascii ',' ∨ c = ascii '*' then some s
    else if c = ascii '.' then
      -- the octet after the point is counted without being looked at
      match p with
      | [] => none
      | _ :: p => countDigits p false { s with point := true, flen := s.flen + 1 }
    else if c > ascii '9' ∨ c < ascii '0' then some { s with ilen := 0, flen := 0 }
    else countDigits p false s.digit

/-- A loop of the second pass, over `n` octets from `buf[off]` on. -/
def addDigits (buf : List UInt8) (off : Nat) (n : UInt8) : Option UInt32 :=
  (List.range n.toNat).foldlM (fun res i => do
    let c ← buf[off + i]?
    return res + NMEA_Pow 10 (n - 1 - .ofNat i) * (c.toUInt32 - (ascii '0').toUInt32)) 0

/-- What `NMEA_Str2num` returns, and `*dx`. -/
structure NmeaNumber where
  res : Int
  dx : UInt8
deriving DecidableEq

def NMEA_Str2num (buf : List UInt8) : Option NmeaNumber := do
  let s ← countDigits buf false ⟨0, 0, false, false⟩
  let buf := if s.minus then buf.tail else buf
  let ires ← addDigits buf 0 s.ilen
  let flen := if s.flen > 5 then 5 else s.flen
  let fres ← addDigits buf (s.ilen.toNat + 1) flen
  let res := wrapS 32 (ires * NMEA_Pow 10 flen + fres).toNat
  return ⟨if s.minus then wrapS 32 (-res) else res, flen⟩

/-! ## What is claimed -/

/-- A field `-?d*(.d*)?` with at most four digits before the point. -/
structure NmeaField where
  minus : Bool
  ints : List (Fin 10)
  /-- The digits behind the point, if there is one. -/
  fraction : Option (List (Fin 10))
  ints_le : ints.length ≤ 4

namespace NmeaField

def octets (f : NmeaField) : List UInt8 :=
  (if f.minus then [ascii '-'] else []) ++ Decimal.text f.ints ++
    match f.fraction with
    | none => []
    | some ds => ascii '.' :: Decimal.text ds

/-- The digits behind the point. -/
def digits (f : NmeaField) : List (Fin 10) := f.fraction.getD []

/-- The number of decimals that are read. -/
def decimals (f : NmeaField) : Nat := min 5 f.digits.length

/-- The field's number truncated to these decimals, in units of the last one. -/
def scaled (f : NmeaField) : Int :=
  (if f.minus then -1 else 1) *
    (Decimal.value f.ints * 10 ^ f.decimals + Decimal.value (f.digits.take f.decimals) : Nat)

/-- There is no point, or digits follow it whose number is not seen to be less than 5 in 8 bits
    unless it is. -/
def Plain (f : NmeaField) : Prop :=
  ∀ ds, f.fraction = some ds → ds ≠ [] ∧ (ds.length < 256 ∨ 5 ≤ ds.length % 256)

end NmeaField

/-! ## The second pass -/

theorem NMEA_Pow_eq (n : UInt8) : NMEA_Pow 10 n = UInt32.ofNat (10 ^ n.toNat) := by
  unfold NMEA_Pow
  induction n.toNat with
  | zero => rfl
  | succ k ih =>
    rw [Function.iterate_succ_apply', ih, Nat.pow_succ, UInt32.ofNat_mul]
    rfl

theorem digit_toUInt32 (d : Fin 10) :
    (Decimal.octet d).toUInt32 - (ascii '0').toUInt32 = UInt32.ofNat d := by
  have hd := d.isLt
  have hzero : (ascii '0').toUInt32.toNat = 48 := rfl
  have hdigit : (Decimal.octet d).toUInt32.toNat = 48 + d := by
    rw [UInt8.toNat_toUInt32, Decimal.octet_toNat]
  rw [← UInt32.toNat_inj, UInt32.toNat_sub_of_le, hdigit, hzero,
    UInt32.toNat_ofNat_of_lt' (show d.val < 4294967296 by omega), Nat.add_sub_cancel_left]
  rw [UInt32.le_iff_toNat_le, hdigit, hzero]
  omega

/-- The loop over so many digits leaves their number with the weights of all `n`. -/
theorem addDigits_steps {ds : List (Fin 10)} {buf : List UInt8} {off : Nat} {n : UInt8}
    (hds : ds.length = n.toNat) (hbuf : ∀ i (h : i < ds.length), buf[off + i]? = some (Decimal.octet ds[i]))
    {k : Nat} (hk : k ≤ n.toNat) :
    (List.range k).foldlM (fun (res : UInt32) i => do
      let c ← buf[off + i]?
      return res + NMEA_Pow 10 (n - 1 - .ofNat i) * (c.toUInt32 - (ascii '0').toUInt32)) 0 =
      some (UInt32.ofNat (Decimal.value (ds.take k) * 10 ^ (n.toNat - k))) := by
  induction k with
  | zero =>
    rw [List.range_zero, List.foldlM_nil, List.take_zero, Decimal.value_nil, Nat.zero_mul]
    rfl
  | succ k ih =>
    have hlt : k < ds.length := by omega
    have hn := n.toNat_lt
    have hone : (1 : UInt8).toNat = 1 := rfl
    have hindex : (UInt8.ofNat k).toNat = k := UInt8.toNat_ofNat_of_lt' (show k < 256 by omega)
    -- the exponent of this digit, computed in 8 bits
    have hweight : (n - 1 - UInt8.ofNat k).toNat = n.toNat - (k + 1) := by
      have hsub : (n - 1).toNat = n.toNat - 1 := by
        rw [UInt8.toNat_sub_of_le, hone]
        rw [UInt8.le_iff_toNat_le, hone]
        omega
      rw [UInt8.toNat_sub_of_le, hsub, hindex]
      · omega
      · rw [UInt8.le_iff_toNat_le, hsub, hindex]
        omega
    have hpow : 10 ^ (n.toNat - k) = 10 * 10 ^ (n.toNat - (k + 1)) := by
      rw [← Nat.pow_succ']
      congr 1
      omega
    rw [List.range_succ, List.foldlM_append, ih (by omega)]
    simp only [Option.bind_eq_bind, Option.bind_some, List.foldlM_cons, List.foldlM_nil]
    rw [hbuf k hlt]
    simp only [Option.bind_some, Option.pure_def]
    rw [NMEA_Pow_eq, hweight, digit_toUInt32, ← UInt32.ofNat_mul, ← UInt32.ofNat_add,
      Decimal.value_take_succ hlt, hpow]
    congr 2
    ring

theorem addDigits_text {ds : List (Fin 10)} (pre post : List UInt8) {n : UInt8}
    (hds : ds.length = n.toNat) :
    addDigits (pre ++ Decimal.text ds ++ post) pre.length n = some (.ofNat (Decimal.value ds)) := by
  have hbuf : ∀ i (h : i < ds.length),
      (pre ++ Decimal.text ds ++ post)[pre.length + i]? = some (Decimal.octet ds[i]) := by
    intro i hi
    rw [List.append_assoc, List.getElem?_append_right (by omega), Nat.add_sub_cancel_left,
      List.getElem?_append_left (by rw [Decimal.text_length]; exact hi)]
    unfold Decimal.text
    rw [List.getElem?_map, List.getElem?_eq_getElem hi]
    rfl
  unfold addDigits
  rw [addDigits_steps hds hbuf le_rfl, ← hds, List.take_length, Nat.sub_self, Nat.pow_zero,
    Nat.mul_one]

/-! ## The first pass -/

/-- What ends a field. -/
def IsTerminator (c : UInt8) : Prop := c = ascii ',' ∨ c = ascii '*'

instance : DecidablePred IsTerminator := fun _ => inferInstanceAs (Decidable (_ ∨ _))

theorem octet_ne {d : Fin 10} {c : UInt8} (hc : c.toNat < 48 ∨ 57 < c.toNat) :
    Decimal.octet d ≠ c := by
  intro heq
  have hd := d.isLt
  have hoctet := Decimal.octet_toNat d
  rw [heq] at hoctet
  omega

variable {s : NmeaCount} {p : List UInt8} {signed : Bool}

theorem countDigits_cons (c : UInt8) :
    countDigits (c :: p) signed s =
      if c = ascii '-' ∧ !signed then countDigits p true { s with minus := true }
      else if c = ascii ',' ∨ c = ascii '*' then some s
      else if c = ascii '.' then
        if p = [] then none
        else countDigits p.tail false { s with point := true, flen := s.flen + 1 }
      else if c > ascii '9' ∨ c < ascii '0' then some { s with ilen := 0, flen := 0 }
      else countDigits p false s.digit := by
  cases p <;> rfl

theorem countDigits_digit (d : Fin 10) :
    countDigits (Decimal.octet d :: p) signed s = countDigits p false s.digit := by
  have hd := d.isLt
  have hoctet := Decimal.octet_toNat d
  have hdigit : ¬ (Decimal.octet d > ascii '9' ∨ Decimal.octet d < ascii '0') := by
    have hnine : (ascii '9').toNat = 57 := rfl
    have hzero : (ascii '0').toNat = 48 := rfl
    rw [gt_iff_lt, UInt8.lt_iff_toNat_lt, UInt8.lt_iff_toNat_lt, hoctet, hnine, hzero]
    omega
  have hne : ∀ c : UInt8, c.toNat < 48 → Decimal.octet d ≠ c := fun c hc => octet_ne (.inl hc)
  rw [countDigits_cons, if_neg fun h => hne _ (by decide) h.1,
    if_neg fun h => h.elim (hne _ (by decide)) (hne _ (by decide)), if_neg (hne _ (by decide)),
    if_neg hdigit]

theorem countDigits_terminator {term : UInt8} (h : IsTerminator term) :
    countDigits (term :: p) signed s = some s := by
  have hminus : term ≠ ascii '-' := by rcases h with rfl | rfl <;> decide
  rw [countDigits_cons, if_neg fun hand => hminus hand.1]
  exact if_pos h

theorem countDigits_minus :
    countDigits (ascii '-' :: p) false s = countDigits p true { s with minus := true } := by
  rw [countDigits_cons, if_pos ⟨rfl, rfl⟩]

/-- One octet is passed with the point. -/
theorem countDigits_point (c : UInt8) :
    countDigits (ascii '.' :: c :: p) signed s =
      countDigits p false { s with point := true, flen := s.flen + 1 } := by
  rw [countDigits_cons, if_neg fun h => absurd h.1 (by decide), if_neg (by decide),
    if_pos rfl, if_neg (List.cons_ne_nil c p)]
  rfl

theorem countDigits_signed {c : UInt8} (hc : c ≠ ascii '-') :
    countDigits (c :: p) signed s = countDigits (c :: p) false s := by
  have hsigned : ∀ b : Bool, ¬ (c = ascii '-' ∧ !b) := fun _ h => hc h.1
  rw [countDigits_cons, countDigits_cons, if_neg (hsigned signed), if_neg (hsigned false)]

/-- Digits before the point. -/
theorem countDigits_ints (ds : List (Fin 10)) {c : UInt8} (hc : c ≠ ascii '-')
    (hpoint : s.point = false) :
    countDigits (Decimal.text ds ++ c :: p) signed s =
      countDigits (c :: p) false { s with ilen := s.ilen + .ofNat ds.length } := by
  induction ds generalizing signed s with
  | nil =>
    have hzero : s.ilen + UInt8.ofNat 0 = s.ilen := UInt8.add_zero _
    rw [List.length_nil, hzero]
    exact countDigits_signed hc
  | cons d ds ih =>
    have hdigit : s.digit = { s with ilen := s.ilen + 1 } :=
      if_neg (by rw [hpoint]; exact Bool.false_ne_true)
    have hnext : { s with ilen := s.ilen + 1 }.point = false := hpoint
    show countDigits (Decimal.octet d :: (Decimal.text ds ++ c :: p)) signed s = _
    rw [countDigits_digit, hdigit, ih hnext, List.length_cons, UInt8.ofNat_add, UInt8.add_assoc,
      UInt8.add_comm 1]
    rfl

/-- Digits behind the point. -/
theorem countDigits_fraction (ds : List (Fin 10)) (hpoint : s.point = true) :
    countDigits (Decimal.text ds ++ p) false s =
      countDigits p false { s with flen := s.flen + .ofNat ds.length } := by
  induction ds generalizing s with
  | nil =>
    have hzero : s.flen + UInt8.ofNat 0 = s.flen := UInt8.add_zero _
    rw [List.length_nil, hzero]
    rfl
  | cons d ds ih =>
    have hdigit : s.digit = { s with flen := s.flen + 1 } := if_pos hpoint
    have hnext : { s with flen := s.flen + 1 }.point = true := hpoint
    show countDigits (Decimal.octet d :: (Decimal.text ds ++ p)) false s = _
    rw [countDigits_digit, hdigit, ih hnext, List.length_cons, UInt8.ofNat_add, UInt8.add_assoc,
      UInt8.add_comm 1]
    rfl

/-! ## A field -/

namespace NmeaField

variable (f : NmeaField) {term : UInt8} (rest : List UInt8)

/-- What stands behind the digits before the point. -/
def tail : List UInt8 :=
  match f.fraction with
  | none => []
  | some ds => ascii '.' :: Decimal.text ds

/-- The octets of the field without its sign. -/
theorem octets_eq : f.octets = (if f.minus then [ascii '-'] else []) ++ Decimal.text f.ints ++ f.tail :=
  rfl

/-- The sign and the digits before the point are counted. -/
theorem count_head {c : UInt8} (hc : c ≠ ascii '-') (p : List UInt8) :
    countDigits ((if f.minus then [ascii '-'] else []) ++ Decimal.text f.ints ++ c :: p) false
      ⟨0, 0, false, false⟩ =
      countDigits (c :: p) false ⟨.ofNat f.ints.length, 0, false, f.minus⟩ := by
  have hzero : (0 : UInt8) + .ofNat f.ints.length = .ofNat f.ints.length := UInt8.zero_add _
  rw [List.append_assoc]
  by_cases hminus : f.minus
  · rw [if_pos hminus, List.singleton_append, countDigits_minus, countDigits_ints f.ints hc rfl, hminus,
      hzero]
  · rw [if_neg hminus, List.nil_append, countDigits_ints f.ints hc rfl, hzero]
    rw [Bool.not_eq_true] at hminus
    rw [hminus]

/-- The counters after the first pass. -/
def count (f : NmeaField) : NmeaCount :=
  ⟨.ofNat f.ints.length, .ofNat f.digits.length, f.fraction.isSome, f.minus⟩

variable {f}

/-- The first pass stops at the terminator, unless that follows the point. -/
theorem countDigits_octets (hterm : IsTerminator term) (h : f.fraction ≠ some []) :
    countDigits (f.octets ++ term :: rest) false ⟨0, 0, false, false⟩ = some f.count := by
  have htermMinus : term ≠ ascii '-' := by rcases hterm with rfl | rfl <;> decide
  rw [octets_eq, List.append_assoc]
  unfold tail count digits
  match hfraction : f.fraction with
  | none =>
    rw [List.nil_append, f.count_head htermMinus, countDigits_terminator hterm]
    rfl
  | some [] => exact absurd hfraction h
  | some (d :: ds) =>
    have hzero : (0 : UInt8) + 1 + .ofNat ds.length = .ofNat (d :: ds).length := by
      rw [List.length_cons, UInt8.ofNat_add, UInt8.zero_add, UInt8.add_comm]
      rfl
    show countDigits (_ ++ ascii '.' :: (Decimal.octet d :: (Decimal.text ds ++ term :: rest))) _ _ = _
    rw [f.count_head (by decide), countDigits_point, countDigits_fraction ds rfl,
      countDigits_terminator hterm, hzero]
    rfl

/-- The octet behind the point is passed unseen, and the next one is read. -/
theorem countDigits_empty (term : UInt8) (h : f.fraction = some []) :
    countDigits (f.octets ++ [term]) false ⟨0, 0, false, false⟩ = none := by
  rw [octets_eq, List.append_assoc]
  unfold tail
  rw [h]
  show countDigits (_ ++ ascii '.' :: [term]) _ _ = _
  rw [f.count_head (by decide), countDigits_point]
  rfl

variable (f)

/-- The decimals that are read, by the counter. -/
def read : Nat := min 5 (f.digits.length % 256)

theorem flen_toNat :
    (if f.count.flen > 5 then (5 : UInt8) else f.count.flen).toNat = f.read := by
  have hflen : f.count.flen.toNat = f.digits.length % 256 := UInt8.toNat_ofNat'
  have hfive : (5 : UInt8).toNat = 5 := rfl
  unfold read
  by_cases h : f.count.flen > 5
  · have hlt := UInt8.lt_iff_toNat_lt.mp h
    rw [if_pos h]
    omega
  · have hle : ¬ 5 < f.count.flen.toNat := fun hlt => h (UInt8.lt_iff_toNat_lt.mpr hlt)
    rw [if_neg h]
    omega

/-- The number of all digits fits in 31 bits. -/
theorem number_lt {k : Nat} (hk : k ≤ 5) :
    Decimal.value f.ints * 10 ^ k + Decimal.value (f.digits.take k) < 1000000000 := by
  have hints := Decimal.value_lt f.ints
  have hints' : 10 ^ f.ints.length ≤ 10 ^ 4 := Nat.pow_le_pow_right (by decide) f.ints_le
  have hfraction := Decimal.value_lt (f.digits.take k)
  have hfraction' : 10 ^ (f.digits.take k).length ≤ 10 ^ k :=
    Nat.pow_le_pow_right (by decide) (List.length_take_le _ _)
  have hpow : 10 ^ k ≤ 10 ^ 5 := Nat.pow_le_pow_right (by decide) hk
  have hprod : Decimal.value f.ints * 10 ^ k ≤ 9999 * 10 ^ k := Nat.mul_le_mul_right _ (by omega)
  omega

/-- The sum of the second pass. -/
theorem number_eq {k : Nat} (hk : k ≤ 5) :
    wrapS 32 (UInt32.ofNat (Decimal.value f.ints) * .ofNat (10 ^ k) +
      .ofNat (Decimal.value (f.digits.take k))).toNat =
      (Decimal.value f.ints * 10 ^ k + Decimal.value (f.digits.take k) : Nat) := by
  have hlt := f.number_lt hk
  rw [← UInt32.ofNat_mul, ← UInt32.ofNat_add, UInt32.toNat_ofNat_of_lt' (by
    show _ < 4294967296
    omega)]
  exact wrapS_32 (by omega) (by omega)

/-- The second pass starts behind the sign. -/
theorem tail_octets :
    (if f.count.minus then (f.octets ++ term :: rest).tail else f.octets ++ term :: rest) =
      Decimal.text f.ints ++ f.tail ++ term :: rest := by
  have hcount : f.count.minus = f.minus := rfl
  rw [octets_eq, hcount]
  by_cases hminus : f.minus
  · rw [if_pos hminus, if_pos hminus]
    rfl
  · rw [if_neg hminus, if_neg hminus]
    rfl

theorem ilen_toNat : f.count.ilen.toNat = f.ints.length := by
  have hints := f.ints_le
  exact UInt8.toNat_ofNat_of_lt' (show f.ints.length < 256 by omega)

theorem addDigits_ints :
    addDigits (Decimal.text f.ints ++ f.tail ++ term :: rest) 0 f.count.ilen =
      some (.ofNat (Decimal.value f.ints)) := by
  have hadd := addDigits_text [] (f.tail ++ term :: rest) f.ilen_toNat.symm
  rw [List.nil_append, ← List.append_assoc] at hadd
  exact hadd

theorem digits_of_fraction {ds : List (Fin 10)} (h : f.fraction = some ds) : f.digits = ds := by
  unfold digits
  rw [h]
  rfl

theorem addDigits_decimals :
    addDigits (Decimal.text f.ints ++ f.tail ++ term :: rest) (f.count.ilen.toNat + 1)
      (if f.count.flen > 5 then 5 else f.count.flen) =
      some (.ofNat (Decimal.value (f.digits.take f.read))) := by
  have hflen := f.flen_toNat
  match hfraction : f.fraction with
  | none =>
    -- no digit is read, wherever the loop would begin
    have hdigits : f.digits = [] := by
      unfold digits
      rw [hfraction]
      rfl
    have hzero : f.read = 0 := by
      unfold read
      rw [hdigits]
      rfl
    rw [hzero] at hflen
    unfold addDigits
    rw [hflen, hdigits, List.take_nil]
    rfl
  | some ds =>
    have hdigits := f.digits_of_fraction hfraction
    have htake : (ds.take f.read).length =
        (if f.count.flen > 5 then (5 : UInt8) else f.count.flen).toNat := by
      rw [hflen, List.length_take]
      unfold read
      rw [hdigits]
      omega
    have hadd := addDigits_text (Decimal.text f.ints ++ [ascii '.'])
      (Decimal.text (ds.drop f.read) ++ term :: rest) htake
    have hlength : (Decimal.text f.ints ++ [ascii '.']).length = f.count.ilen.toNat + 1 := by
      rw [List.length_append, Decimal.text_length, f.ilen_toNat]
      rfl
    -- the loop reads the first digits of the fraction and not the rest
    have hsplit : Decimal.text f.ints ++ [ascii '.'] ++ Decimal.text (ds.take f.read) ++
        (Decimal.text (ds.drop f.read) ++ term :: rest) =
        Decimal.text f.ints ++ f.tail ++ term :: rest := by
      have htail : f.tail = ascii '.' :: Decimal.text ds := by
        unfold tail
        rw [hfraction]
      have hds : Decimal.text ds = Decimal.text (ds.take f.read) ++ Decimal.text (ds.drop f.read) := by
        unfold Decimal.text
        rw [← List.map_append, List.take_append_drop]
      rw [htail, hds]
      simp only [List.append_assoc, List.cons_append, List.nil_append]
    rw [hlength, hsplit] at hadd
    rw [hdigits]
    exact hadd

/-- What is read when the first pass stops at the terminator. -/
theorem Str2num_octets (hterm : IsTerminator term) (h : f.fraction ≠ some []) :
    NMEA_Str2num (f.octets ++ term :: rest) = some
      ⟨(if f.minus then -1 else 1) * (Decimal.value f.ints * 10 ^ f.read +
        Decimal.value (f.digits.take f.read) : Nat), .ofNat f.read⟩ := by
  have hread : f.read ≤ 5 := Nat.min_le_left _ _
  have hdx : (if f.count.flen > 5 then (5 : UInt8) else f.count.flen) = .ofNat f.read := by
    rw [← UInt8.toNat_inj, f.flen_toNat]
    exact (UInt8.toNat_ofNat_of_lt' (show f.read < 256 by omega)).symm
  unfold NMEA_Str2num
  rw [countDigits_octets rest hterm h]
  simp only [Option.bind_eq_bind, Option.bind_some]
  rw [f.tail_octets, f.addDigits_ints]
  simp only [Option.bind_some]
  rw [f.addDigits_decimals]
  simp only [Option.bind_some, Option.pure_def]
  rw [NMEA_Pow_eq, f.flen_toNat, f.number_eq hread, hdx]
  -- at most nine digits, so neither the sum nor its negation wraps
  have hlt := f.number_lt hread
  generalize Decimal.value f.ints * 10 ^ f.read + Decimal.value (f.digits.take f.read) = v at hlt ⊢
  show some (NmeaNumber.mk (if f.minus then wrapS 32 (-(v : Int)) else v) _) = _
  by_cases hminus : f.minus
  · rw [if_pos hminus, if_pos hminus, wrapS_32 (by omega) (by omega), Int.neg_one_mul]
  · rw [if_neg hminus, if_neg hminus, Int.one_mul]

/-- The field is read as it is written, whatever follows it. -/
def Read (f : NmeaField) (term : UInt8) : Prop :=
  ∀ rest, NMEA_Str2num (f.octets ++ term :: rest) = some ⟨f.scaled, .ofNat f.decimals⟩

end NmeaField

/-- **Fields are read as they are written** if digits follow their point, and not so many that
    the counter hides it. -/
theorem NMEA_Str2num_read_iff (f : NmeaField) {term : UInt8} (hterm : IsTerminator term) :
    f.Read term ↔ f.Plain := by
  constructor
  · intro hread ds hfraction
    have hdigits := f.digits_of_fraction hfraction
    have hempty : ds ≠ [] := by
      rintro rfl
      have hnone : NMEA_Str2num (f.octets ++ [term]) = none := by
        unfold NMEA_Str2num
        rw [NmeaField.countDigits_empty term hfraction]
        rfl
      exact absurd ((hread []).symm.trans hnone) (Option.some_ne_none _)
    refine ⟨hempty, ?_⟩
    have hsome : f.fraction ≠ some [] := by
      rw [hfraction]
      intro heq
      exact hempty (Option.some.inj heq)
    have heq := Option.some.inj ((f.Str2num_octets [] hterm hsome).symm.trans (hread []))
    -- the two numbers of decimals agree
    have hdx := congrArg (fun r => r.dx.toNat) heq
    simp only [UInt8.toNat_ofNat'] at hdx
    unfold NmeaField.read NmeaField.decimals at hdx
    rw [hdigits] at hdx
    omega
  · intro hplain rest
    have hsome : f.fraction ≠ some [] := fun heq => (hplain [] heq).1 rfl
    have hsame : f.read = f.decimals := by
      unfold NmeaField.read NmeaField.decimals NmeaField.digits
      match hfraction : f.fraction with
      | none => rfl
      | some ds =>
        have hcount := (hplain ds hfraction).2
        show min 5 (ds.length % 256) = min 5 ds.length
        omega
    rw [f.Str2num_octets rest hterm hsome, hsame]
    rfl

/-- `-12.345678,` is -1234567 in units of 10^-5. -/
theorem NMEA_Str2num_read_sample :
    (NmeaField.mk true [1, 2] (some [3, 4, 5, 6, 7, 8]) (by decide)).Read (ascii ',') :=
  (NMEA_Str2num_read_iff _ (by decide)).mpr fun _ h => by
    obtain rfl := Option.some.inj h
    decide

/-- `1.,` is read behind the comma. -/
theorem NMEA_Str2num_overread : ¬ ∀ (f : NmeaField) (term : UInt8), IsTerminator term → f.Read term := by
  intro h
  have hread := h ⟨false, [1], some [], by decide⟩ (ascii ',') (by decide) []
  exact absurd hread (by decide)

end Ptpd
