import Ptpd.Lib.Octets

/-! # Flash memory

    A page is erased to ones; a half-word can be programmed where all its bits are
    ones and keeps its value elsewhere. What is programmed into blank memory is what
    overwriting it would leave.
-/

namespace NorFlash

open Octets

/-! ## The device -/

/-- Set `n` octets from `addr` on to ones. -/
def erase (addr n : Nat) (mem : Buf) : Buf :=
  fun i => if addr ≤ i ∧ i < addr + n then 0xFF else mem i

/-- Store a half-word where it is blank. -/
def program (addr : Nat) (v : UInt16) (mem : Buf) : Buf :=
  if get16 mem addr = 0xFFFF then put16 mem addr v else mem

/-- Program one half-word after the other. -/
def programAll : (addr : Nat) → (vs : List UInt16) → Buf → Buf
  | _, [], mem => mem
  | addr, v :: vs, mem => programAll (addr + 2) vs (program addr v mem)

/-- Put the half-words there, whatever was there before. -/
def overwrite : (addr : Nat) → (vs : List UInt16) → Buf → Buf
  | _, [], mem => mem
  | addr, v :: vs, mem => overwrite (addr + 2) vs (put16 mem addr v)

/-- `n` half-words without a zero bit. -/
def Blank (mem : Buf) (addr n : Nat) : Prop := ∀ k < n, get16 mem (addr + 2 * k) = 0xFFFF

instance (mem : Buf) (addr n : Nat) : Decidable (Blank mem addr n) :=
  inferInstanceAs (Decidable (∀ k < n, _))

/-- The octets of half-words, the low one first. -/
def octetOf (vs : List UInt16) (i : Nat) : UInt8 := octet (vs.getD (i / 2) 0).toNat (i % 2)

variable {mem mem' : Buf} {addr i : Nat} {v : UInt16} {vs : List UInt16}

/-! ## Half-words and octets -/

theorem put16_low (mem : Buf) (addr : Nat) (v : UInt16) : put16 mem addr v addr = octet v.toNat 0 := by
  rw [put16, put8_other _ _ (by omega), put8, if_pos rfl]

theorem put16_high (mem : Buf) (addr : Nat) (v : UInt16) :
    put16 mem addr v (addr + 1) = octet v.toNat 1 := by
  rw [put16, put8, if_pos rfl]

theorem get16_put16 (mem : Buf) (addr : Nat) (v : UInt16) : get16 (put16 mem addr v) addr = v := by
  have hv := v.toNat_lt
  rw [get16, put16_low, put16_high, ← UInt16.toNat_inj, octet_toNat, octet_toNat, UInt16.toNat_ofNat']
  omega

/-- Equal half-words have equal octets. -/
theorem get16_inj (h : get16 mem addr = get16 mem' addr) :
    mem addr = mem' addr ∧ mem (addr + 1) = mem' (addr + 1) := by
  have ha := (mem addr).toNat_lt
  have hb := (mem (addr + 1)).toNat_lt
  have ha' := (mem' addr).toNat_lt
  have hb' := (mem' (addr + 1)).toNat_lt
  rw [get16, get16, ← UInt16.toNat_inj, UInt16.toNat_ofNat', UInt16.toNat_ofNat'] at h
  rw [← UInt8.toNat_inj, ← UInt8.toNat_inj]
  omega

theorem get16_ones (addr : Nat) : get16 (fun _ => 0xFF) addr = 0xFFFF := by
  show UInt16.ofNat ((0xFF : UInt8).toNat + 256 * (0xFF : UInt8).toNat) = 0xFFFF
  decide

theorem Blank.octet {n : Nat} (h : Blank mem addr n) (hi : i < 2 * n) : mem (addr + i) = 0xFF := by
  have hword := h (i / 2) (by omega)
  obtain ⟨hlow, hhigh⟩ := get16_inj (hword.trans (get16_ones _).symm)
  rcases Nat.mod_two_eq_zero_or_one i with heven | hodd
  · rw [show addr + i = addr + 2 * (i / 2) by omega]
    exact hlow
  · rw [show addr + i = addr + 2 * (i / 2) + 1 by omega]
    exact hhigh

theorem Blank.congr {n : Nat} (h : ∀ i, addr ≤ i → i < addr + 2 * n → mem i = mem' i) :
    Blank mem addr n ↔ Blank mem' addr n := by
  unfold Blank
  apply forall₂_congr
  intro k hk
  rw [get16_congr fun i hlo hhi => h i (by omega) (by omega)]

theorem octetOf_cons_zero : octetOf (v :: vs) 0 = octet v.toNat 0 := rfl

theorem octetOf_cons_one : octetOf (v :: vs) 1 = octet v.toNat 1 := rfl

theorem octetOf_cons (i : Nat) : octetOf (v :: vs) (i + 2) = octetOf vs i := by
  unfold octetOf
  rw [Nat.add_mod_right, Nat.add_div_right _ (by decide)]
  rfl

theorem octetOf_drop (vs : List UInt16) (n i : Nat) : octetOf (vs.drop n) i = octetOf vs (2 * n + i) := by
  unfold octetOf
  rw [List.getD_eq_getElem?_getD, List.getD_eq_getElem?_getD, List.getElem?_drop,
    show (2 * n + i) / 2 = n + i / 2 by omega, show (2 * n + i) % 2 = i % 2 by omega]

theorem octetOf_take {n : Nat} (vs : List UInt16) (hi : i < 2 * n) :
    octetOf (vs.take n) i = octetOf vs i := by
  unfold octetOf
  rw [List.getD_eq_getElem?_getD, List.getD_eq_getElem?_getD, List.getElem?_take, if_pos (by omega)]

/-- Half-words of ones are those whose octets are. -/
theorem eq_ones_of_octets (h : ∀ i < 2 * vs.length, octetOf vs i = 0xFF) : ∀ v ∈ vs, v = 0xFFFF := by
  intro v hv
  obtain ⟨k, hk, rfl⟩ := List.mem_iff_getElem.mp hv
  have hget : vs.getD k 0 = vs[k] := (List.getElem_eq_getD 0).symm
  have hlow := h (2 * k) (by omega)
  have hhigh := h (2 * k + 1) (by omega)
  unfold octetOf at hlow hhigh
  rw [show 2 * k / 2 = k by omega, show 2 * k % 2 = 0 by omega, hget, ← UInt8.toNat_inj,
    octet_toNat] at hlow
  rw [show (2 * k + 1) / 2 = k by omega, show (2 * k + 1) % 2 = 1 by omega, hget, ← UInt8.toNat_inj,
    octet_toNat] at hhigh
  have hlt := vs[k].toNat_lt
  have h255 : (0xFF : UInt8).toNat = 255 := rfl
  have hones : (0xFFFF : UInt16).toNat = 65535 := rfl
  rw [← UInt16.toNat_inj]
  omega

/-! ## Overwriting -/

theorem overwrite_other (h : i < addr ∨ addr + 2 * vs.length ≤ i) :
    overwrite addr vs mem i = mem i := by
  induction vs generalizing addr mem with
  | nil => rfl
  | cons v vs ih =>
    rw [List.length_cons] at h
    rw [overwrite, ih (by omega), put16_other _ _ (by omega)]

theorem overwrite_same (hi : i < 2 * vs.length) : overwrite addr vs mem (addr + i) = octetOf vs i := by
  induction vs generalizing addr mem i with
  | nil =>
    rw [List.length_nil] at hi
    omega
  | cons v vs ih =>
    rw [List.length_cons] at hi
    rw [overwrite]
    match i with
    | 0 => rw [overwrite_other (by omega), octetOf_cons_zero, Nat.add_zero, put16_low]
    | 1 => rw [overwrite_other (by omega), octetOf_cons_one, put16_high]
    | i + 2 =>
      rw [octetOf_cons, show addr + (i + 2) = addr + 2 + i by omega]
      exact ih (by omega)

theorem overwrite_append (vs ws : List UInt16) :
    overwrite addr (vs ++ ws) mem = overwrite (addr + 2 * vs.length) ws (overwrite addr vs mem) := by
  induction vs generalizing addr mem with
  | nil => rfl
  | cons v vs ih =>
    rw [List.cons_append, overwrite, ih, List.length_cons, overwrite]
    congr 1
    omega

/-- In two steps, the second from where the first has ended. -/
theorem overwrite_take_drop {n next : Nat} (hn : n ≤ vs.length)
    (hnext : 0 < (vs.drop n).length → next = addr + 2 * n) :
    overwrite next (vs.drop n) (overwrite addr (vs.take n) mem) = overwrite addr vs mem := by
  have htake : (vs.take n).length = n := by
    rw [List.length_take, Nat.min_eq_left hn]
  have happend : overwrite addr (vs.take n ++ vs.drop n) mem =
      overwrite (addr + 2 * n) (vs.drop n) (overwrite addr (vs.take n) mem) := by
    rw [overwrite_append, htake]
  rw [List.take_append_drop] at happend
  rw [happend]
  cases hleft : vs.drop n with
  | nil => rw [overwrite, overwrite]
  | cons v rest => rw [hnext (hleft ▸ Nat.succ_pos _)]

theorem octetOf_behind {n next : Nat} (hnext : 0 < (vs.drop n).length → next = addr + 2 * n)
    (h : ∀ i < 2 * vs.length, mem (addr + i) = octetOf vs i) :
    ∀ i < 2 * (vs.drop n).length, mem (next + i) = octetOf (vs.drop n) i := by
  intro i hi
  rw [hnext (by omega), octetOf_drop, Nat.add_assoc]
  rw [List.length_drop] at hi
  exact h (2 * n + i) (by omega)

theorem get16_overwrite {k : Nat} (hk : k < vs.length) :
    get16 (overwrite addr vs mem) (addr + 2 * k) = vs[k] := by
  induction vs generalizing addr mem k with
  | nil => exact absurd hk (Nat.not_lt_zero k)
  | cons v vs ih =>
    rw [overwrite]
    match k with
    | 0 =>
      have hsame : get16 (overwrite (addr + 2) vs (put16 mem addr v)) addr =
          get16 (put16 mem addr v) addr :=
        get16_congr fun i _ hi => overwrite_other (.inl hi)
      exact hsame.trans (get16_put16 mem addr v)
    | k + 1 =>
      rw [show addr + 2 * (k + 1) = addr + 2 + 2 * k by omega]
      exact ih (Nat.lt_of_succ_lt_succ hk)

/-- Where all half-words are there and all else is as before, the memory was overwritten. -/
theorem eq_overwrite (hsame : ∀ i, i < addr ∨ addr + 2 * vs.length ≤ i → mem' i = mem i)
    (hget : ∀ k (hk : k < vs.length), get16 mem' (addr + 2 * k) = vs[k]) :
    mem' = overwrite addr vs mem := by
  funext i
  by_cases hi : i < addr ∨ addr + 2 * vs.length ≤ i
  · rw [hsame i hi, overwrite_other hi]
  · obtain ⟨k, hk⟩ : ∃ k, i = addr + 2 * k ∨ i = addr + 2 * k + 1 :=
      ⟨(i - addr) / 2, by omega⟩
    have hkLength : k < vs.length := by omega
    have hput : get16 (overwrite addr vs mem) (addr + 2 * k) = vs[k] := get16_overwrite hkLength
    obtain ⟨hlow, hhigh⟩ := get16_inj ((hget k hkLength).trans hput.symm)
    rcases hk with rfl | rfl
    · exact hlow
    · exact hhigh

/-! ## Programming -/

/-- Blank memory is overwritten. -/
theorem programAll_blank (h : Blank mem addr vs.length) :
    programAll addr vs mem = overwrite addr vs mem := by
  induction vs generalizing addr mem with
  | nil => rfl
  | cons v vs ih =>
    have hfirst : get16 mem addr = 0xFFFF := h 0 (Nat.succ_pos _)
    have hprogram : program addr v mem = put16 mem addr v := if_pos hfirst
    have hrest : Blank (put16 mem addr v) (addr + 2) vs.length := by
      intro k hk
      have hkeep : get16 (put16 mem addr v) (addr + 2 + 2 * k) = get16 mem (addr + 2 * (k + 1)) := by
        rw [show addr + 2 * (k + 1) = addr + 2 + 2 * k by omega]
        exact get16_congr fun i hlo _ => put16_other _ _ (.inr (by omega))
      rw [hkeep]
      exact h (k + 1) (Nat.succ_lt_succ hk)
    rw [programAll, overwrite, hprogram, ih hrest]

theorem program_other (h : i < addr ∨ addr + 2 ≤ i) : program addr v mem i = mem i := by
  unfold program
  split
  · exact put16_other _ _ h
  · rfl

theorem programAll_other (h : i < addr ∨ addr + 2 * vs.length ≤ i) :
    programAll addr vs mem i = mem i := by
  induction vs generalizing addr mem with
  | nil => rfl
  | cons v vs ih =>
    rw [List.length_cons] at h
    rw [programAll, ih (by omega), program_other (by omega)]

/-- An octet is programmed or left. -/
theorem programAll_cases (hi : i < 2 * vs.length) :
    programAll addr vs mem (addr + i) = mem (addr + i) ∨
      programAll addr vs mem (addr + i) = octetOf vs i := by
  induction vs generalizing addr mem i with
  | nil =>
    rw [List.length_nil] at hi
    omega
  | cons v vs ih =>
    rw [List.length_cons] at hi
    rw [programAll]
    -- the first half-word, or one of those that follow
    by_cases hfirst : i < 2
    · rw [programAll_other (by omega)]
      unfold program
      split
      · right
        match i with
        | 0 => rw [octetOf_cons_zero, Nat.add_zero, put16_low]
        | 1 => rw [octetOf_cons_one, put16_high]
      · exact .inl rfl
    · obtain ⟨j, rfl⟩ : ∃ j, i = j + 2 := ⟨i - 2, by omega⟩
      rw [octetOf_cons, show addr + (j + 2) = addr + 2 + j by omega,
        show mem (addr + 2 + j) = program addr v mem (addr + 2 + j) from
          (program_other (.inr (by omega))).symm]
      exact ih (by omega)

/-- Half-words of ones change nothing. -/
theorem programAll_ones (h : ∀ v ∈ vs, v = 0xFFFF) : programAll addr vs mem = mem := by
  induction vs generalizing addr mem with
  | nil => rfl
  | cons v vs ih =>
    have hprogram : program addr v mem = mem := by
      unfold program
      split
      · rename_i hblank
        rw [h v List.mem_cons_self]
        funext i
        by_cases hi : i < addr ∨ addr + 2 ≤ i
        · exact put16_other _ _ hi
        · obtain ⟨hlow, hhigh⟩ := get16_inj ((get16_put16 mem addr 0xFFFF).trans hblank.symm)
          obtain rfl | rfl : i = addr ∨ i = addr + 1 := by omega
          · exact hlow
          · exact hhigh
      · rfl
    rw [programAll, hprogram, ih fun w hw => h w (List.mem_cons_of_mem v hw)]

/-- Blank memory holds ones. -/
theorem overwrite_ones (hblank : Blank mem addr vs.length) (h : ∀ v ∈ vs, v = 0xFFFF) :
    overwrite addr vs mem = mem :=
  (programAll_blank hblank).symm.trans (programAll_ones h)

/-- What is programmed too low into blank memory is there in its own place only if it is all
    ones: each octet is that of a later place. -/
theorem ones_of_misplaced {start : Nat} (hstart : start < addr) (hblank : Blank mem addr vs.length)
    (h : ∀ i < 2 * vs.length, programAll start vs mem (addr + i) = octetOf vs i) :
    ∀ v ∈ vs, v = 0xFFFF := by
  apply eq_ones_of_octets
  intro i hi
  -- from the last octet down
  induction hn : 2 * vs.length - i using Nat.strong_induction_on generalizing i with
  | h n ih =>
    have hones := hblank.octet hi
    have hplace := h i hi
    by_cases hreach : i + (addr - start) < 2 * vs.length
    · obtain ⟨j, hj⟩ : ∃ j, j = i + (addr - start) := ⟨_, rfl⟩
      have hcases : programAll start vs mem (start + j) = mem (start + j) ∨
          programAll start vs mem (start + j) = octetOf vs j := programAll_cases (hj ▸ hreach)
      rw [show start + j = addr + i by omega, hplace] at hcases
      rcases hcases with hleft | hlater
      · exact hleft.trans hones
      · rw [hlater]
        exact ih (2 * vs.length - j) (by omega) j (hj ▸ hreach) rfl
    · rw [← hplace, programAll_other (by omega)]
      exact hones

end NorFlash
