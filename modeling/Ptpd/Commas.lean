import Ptpd.Tod

/-! # The search for a field (`bds.c`)

    The sentence parsers find a field behind its comma. The search returns the
    offset behind the comma in eight bits, and 0xFF is its answer that there is
    no such comma, while the buffers it is used on have 512 octets.
-/

namespace Ptpd

/-- The octets that end the search. -/
def Stops (c : UInt8) : Prop := c = ascii '*' ∨ c < ascii ' ' ∨ c > ascii 'z'

instance : DecidablePred Stops := fun _ => instDecidableOr

/-- The octet with index `j` is comma number `cx`, and the search comes to it. -/
structure CommaAt (buf : List UInt8) (cx j : Nat) : Prop where
  comma : buf[j]? = some (ascii ',')
  ordinal : (buf.take j).count (ascii ',') + 1 = cx
  clear : ∀ c ∈ buf.take j, ¬ Stops c

instance (buf : List UInt8) (cx j : Nat) : Decidable (CommaAt buf cx j) :=
  have : Decidable (∀ c ∈ buf.take j, ¬ Stops c) := List.decidableBAll (fun c => ¬ Stops c) _
  decidable_of_iff (_ ∧ _ ∧ _) ⟨fun ⟨h₁, h₂, h₃⟩ => ⟨h₁, h₂, h₃⟩, fun ⟨h₁, h₂, h₃⟩ => ⟨h₁, h₂, h₃⟩⟩

/-- The search returns the offset behind the comma, and 0xFF exactly if there is none. -/
structure FindsComma (buf : List UInt8) (cx : UInt8) : Prop where
  offset : ∀ j, CommaAt buf cx.toNat j → ∃ r, NMEA_Comma_Pos buf cx 0 = some r ∧ r.toNat = j + 1
  missing : NMEA_Comma_Pos buf cx 0 = some 0xFF ↔ ∀ j, ¬ CommaAt buf cx.toNat j

variable {c : UInt8} {buf : List UInt8}

theorem not_stops_comma : ¬ Stops (ascii ',') := by decide

/-! ## One octet of the search -/

theorem CommaAt.zero_iff {n : Nat} : CommaAt (c :: buf) n 0 ↔ c = ascii ',' ∧ n = 1 := by
  constructor
  · rintro ⟨hcomma, hordinal, -⟩
    exact ⟨Option.some.inj hcomma, hordinal.symm⟩
  · rintro ⟨rfl, rfl⟩
    exact ⟨rfl, rfl, fun c hc => absurd hc List.not_mem_nil⟩

/-- The commas behind the first octet are those of the rest. -/
theorem CommaAt.succ_iff {n j : Nat} :
    CommaAt (c :: buf) n (j + 1) ↔
      ¬ Stops c ∧ CommaAt buf (if c = ascii ',' then n - 1 else n) j := by
  constructor
  · rintro ⟨hcomma, hordinal, hclear⟩
    rw [List.take_succ_cons, List.count_cons] at hordinal
    rw [List.take_succ_cons] at hclear
    refine ⟨hclear c List.mem_cons_self, hcomma, ?_, fun c hc =>
      hclear c (List.mem_cons_of_mem _ hc)⟩
    simp only [beq_iff_eq] at hordinal
    split at hordinal
    · next h => rw [if_pos h]; omega
    · next h => rw [if_neg h]; omega
  · rintro ⟨hc, hcomma, hordinal, hclear⟩
    refine ⟨hcomma, ?_, ?_⟩
    · rw [List.take_succ_cons, List.count_cons]
      simp only [beq_iff_eq]
      split
      · next h => rw [if_pos h] at hordinal; omega
      · next h => rw [if_neg h] at hordinal; omega
    · rw [List.take_succ_cons]
      intro d hd
      exact (List.mem_cons.mp hd).elim (fun heq => heq ▸ hc) (hclear d)

theorem NMEA_Comma_Pos_stops {cx pos : UInt8} (hcx : cx ≠ 0) (h : Stops c) :
    NMEA_Comma_Pos (c :: buf) cx pos = some 0xFF := by
  unfold NMEA_Comma_Pos
  rw [if_neg hcx]
  exact if_pos h

theorem sub_one_toNat {cx : UInt8} (hcx : cx ≠ 0) : (cx - 1).toNat = cx.toNat - 1 := by
  have hpos : cx.toNat ≠ 0 := fun h => hcx (UInt8.toNat_inj.mp h)
  rw [UInt8.toNat_sub_of_le]
  · rfl
  · rw [UInt8.le_iff_toNat_le]
    exact Nat.one_le_iff_ne_zero.mpr hpos

/-! ## The whole search -/

/-- Where there is such a comma, the search counts the octets up to it. -/
theorem NMEA_Comma_Pos_found {cx pos : UInt8} {j : Nat} (h : CommaAt buf cx.toNat j) :
    NMEA_Comma_Pos buf cx pos = some (pos + UInt8.ofNat (j + 1)) := by
  induction buf generalizing cx pos j with
  | nil => exact absurd h.comma (by simp)
  | cons c buf ih =>
    have hcx : cx ≠ 0 := by
      rintro rfl
      exact absurd h.ordinal (Nat.succ_ne_zero _)
    cases j with
    | zero =>
      obtain ⟨rfl, hone⟩ := CommaAt.zero_iff.mp h
      obtain rfl : cx = 1 := UInt8.toNat_inj.mp hone
      rw [NMEA_Comma_Pos_cons not_stops_comma hcx, if_pos rfl]
      exact NMEA_Comma_Pos_zero
    | succ j =>
      obtain ⟨hc, hrest⟩ := CommaAt.succ_iff.mp h
      have hcount : (if c = ascii ',' then cx - 1 else cx).toNat =
          if c = ascii ',' then cx.toNat - 1 else cx.toNat := by
        split
        · exact sub_one_toNat hcx
        · rfl
      rw [NMEA_Comma_Pos_cons hc hcx, ih (by rw [hcount]; exact hrest), UInt8.add_assoc]
      congr 2
      rw [UInt8.ofNat_add (j + 1), UInt8.add_comm]
      rfl

/-- Where there is none, it is ended by an octet, or runs out of the buffer. -/
theorem NMEA_Comma_Pos_missing {cx pos : UInt8} (hcx : cx ≠ 0)
    (h : ∀ j, ¬ CommaAt buf cx.toNat j) :
    NMEA_Comma_Pos buf cx pos = if ∃ c ∈ buf, Stops c then some 0xFF else none := by
  induction buf generalizing cx pos with
  | nil => simp [NMEA_Comma_Pos, hcx]
  | cons c buf ih =>
    by_cases hc : Stops c
    · rw [NMEA_Comma_Pos_stops hcx hc, if_pos ⟨c, List.mem_cons_self, hc⟩]
    · have hexists : (∃ d ∈ c :: buf, Stops d) ↔ ∃ d ∈ buf, Stops d := by
        simp [hc]
      rw [NMEA_Comma_Pos_cons hc hcx, if_congr hexists rfl rfl]
      by_cases hcomma : c = ascii ','
      · rw [if_pos hcomma]
        have hmore : cx - 1 ≠ 0 := by
          -- the last comma looked for would be this one
          intro hzero
          have hone : cx.toNat = 1 := by
            have hsub := sub_one_toNat hcx
            have hpos : cx.toNat ≠ 0 := fun h => hcx (UInt8.toNat_inj.mp h)
            rw [hzero] at hsub
            have : (0 : UInt8).toNat = 0 := rfl
            omega
          exact h 0 (CommaAt.zero_iff.mpr ⟨hcomma, hone⟩)
        apply ih hmore
        intro j hj
        refine h (j + 1) (CommaAt.succ_iff.mpr ⟨hc, ?_⟩)
        rw [if_pos hcomma, ← sub_one_toNat hcx]
        exact hj
      · rw [if_neg hcomma]
        apply ih hcx
        intro j hj
        refine h (j + 1) (CommaAt.succ_iff.mpr ⟨hc, ?_⟩)
        rw [if_neg hcomma]
        exact hj

/-- **A comma is found** if the offset behind it is less than 255, and its absence is seen if an
    octet ends the search before the buffer does. -/
theorem findsComma_iff (buf : List UInt8) {cx : UInt8} (hcx : cx ≠ 0) :
    FindsComma buf cx ↔
      (∀ j, CommaAt buf cx.toNat j → j + 1 < 255) ∧
        ((∃ j, CommaAt buf cx.toNat j) ∨ ∃ c ∈ buf, Stops c) := by
  constructor
  · rintro ⟨hoffset, hmissing⟩
    constructor
    · intro j hj
      obtain ⟨r, hr, heq⟩ := hoffset j hj
      have hlt := r.toNat_lt
      have hne : r ≠ 0xFF := by
        rintro rfl
        exact hmissing.mp hr j hj
      have hne' : r.toNat ≠ 255 := fun h => hne (UInt8.toNat_inj.mp h)
      omega
    · by_cases hfound : ∃ j, CommaAt buf cx.toNat j
      · exact .inl hfound
      · refine .inr ?_
        have hnone : ∀ j, ¬ CommaAt buf cx.toNat j := fun j hj => hfound ⟨j, hj⟩
        have hresult := hmissing.mpr hnone
        rw [NMEA_Comma_Pos_missing hcx hnone] at hresult
        by_contra hstops
        rw [if_neg hstops] at hresult
        cases hresult
  · rintro ⟨hlt, hends⟩
    have hvalue : ∀ j, CommaAt buf cx.toNat j →
        (0 + UInt8.ofNat (j + 1)).toNat = j + 1 := by
      intro j hj
      have := hlt j hj
      rw [UInt8.zero_add, UInt8.toNat_ofNat_of_lt' (by rw [UInt8.size]; omega)]
    constructor
    · intro j hj
      exact ⟨_, NMEA_Comma_Pos_found hj, hvalue j hj⟩
    · constructor
      · intro hresult j hj
        rw [NMEA_Comma_Pos_found hj] at hresult
        have hff := congrArg UInt8.toNat (Option.some.inj hresult)
        rw [hvalue j hj] at hff
        have hlt := hlt j hj
        have : (0xFF : UInt8).toNat = 255 := rfl
        omega
      · intro hnone
        rw [NMEA_Comma_Pos_missing hcx hnone]
        exact if_pos (hends.resolve_left fun ⟨j, hj⟩ => hnone j hj)

/-- The second field of a short sentence. -/
theorem findsComma_second :
    FindsComma ("$GPGGA,1,2*".toList.map ascii) 2 ↔
      (∀ j, CommaAt ("$GPGGA,1,2*".toList.map ascii) 2 j → j + 1 < 255) ∧
        ((∃ j, CommaAt ("$GPGGA,1,2*".toList.map ascii) 2 j) ∨
          ∃ c ∈ "$GPGGA,1,2*".toList.map ascii, Stops c) :=
  findsComma_iff _ (by decide)

/-- One comma behind `n` letters. -/
def lateComma (n : Nat) : List UInt8 := List.replicate n (ascii 'A') ++ [ascii ',']

theorem lateComma_commaAt (n : Nat) : CommaAt (lateComma n) 1 n := by
  have htake : (lateComma n).take n = List.replicate n (ascii 'A') :=
    List.take_left' List.length_replicate
  constructor
  · unfold lateComma
    rw [List.getElem?_append_right (by rw [List.length_replicate]), List.length_replicate,
      Nat.sub_self]
    rfl
  · rw [htake, List.count_replicate]
    rfl
  · intro c hc
    rw [htake] at hc
    rw [List.eq_of_mem_replicate hc]
    decide

theorem zero_not_mem_lateComma (n : Nat) : 0 ∉ lateComma n := by
  intro h
  rcases List.mem_append.mp h with h | h
  · exact absurd (List.eq_of_mem_replicate h) (by decide)
  · exact absurd h (by decide)

/-- Behind 299 letters, the offset is returned less 256. -/
theorem lateComma_not_found :
    ¬ ∀ (buf : List UInt8) (cx : UInt8), 0 ∉ buf → buf.length ≤ 512 → cx ≠ 0 →
      FindsComma buf cx := by
  intro h
  have hlength : (lateComma 299).length ≤ 512 := by
    unfold lateComma
    rw [List.length_append, List.length_replicate]
    decide
  obtain ⟨r, hr, heq⟩ := (h (lateComma 299) 1 (zero_not_mem_lateComma 299) hlength
    (by decide)).offset 299 (lateComma_commaAt 299)
  have hlt := r.toNat_lt
  omega

end Ptpd
