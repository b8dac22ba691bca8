import Ptpd.Run

/-! # Copying a packet (`dep/net.c`)

    The loop of `netRecv` counts octets of the packet in `i` and octets of the
    segment in `j`, and goes on to the next segment after the last octet of one.
    Here every access of the loop is checked.
-/

namespace Ptpd

open Octets

/-- The loop as `copyPayload` has it. It ends with `none` where it would follow
    the null pointer behind the last segment, read behind a segment, or write
    behind `msgIbuf`. -/
def copyPayloadChecked : Nat → Nat → Nat → List (List UInt8) → Buf → Option Buf
  | 0, _, _, _, buf => some buf
  | _ + 1, _, _, [], _ => none
  | remaining + 1, i, j, segment :: next, buf => do
    let octet ← segment[j]?
    if i < PACKET_SIZE then
      let buf := put8 buf i octet
      if j + 1 = segment.length then copyPayloadChecked remaining (i + 1) 0 next buf
      else copyPayloadChecked remaining (i + 1) (j + 1) (segment :: next) buf
    else none

theorem copyPayload_cons (remaining i j : Nat) (segment : List UInt8) (next : List (List UInt8))
    (buf : Buf) :
    copyPayload (remaining + 1) i j (segment :: next) buf =
      if j + 1 = segment.length then
        copyPayload remaining (i + 1) 0 next (put8 buf i (segment.getD j 0))
      else copyPayload remaining (i + 1) (j + 1) (segment :: next) (put8 buf i (segment.getD j 0)) :=
  rfl

/-- Where the checks pass the loop does what it does without them. -/
theorem copyPayload_of_checked {remaining i j : Nat} {pcopy : List (List UInt8)} {buf buf' : Buf}
    (h : copyPayloadChecked remaining i j pcopy buf = some buf') :
    copyPayload remaining i j pcopy buf = buf' := by
  induction remaining generalizing i j pcopy buf with
  | zero => exact Option.some.inj h
  | succ remaining ih =>
    cases pcopy with
    | nil => cases h
    | cons segment next =>
      unfold copyPayloadChecked at h
      cases hread : segment[j]? with
      | none =>
        rw [hread] at h
        cases h
      | some octet =>
        rw [hread] at h
        simp only [Option.bind_eq_bind, Option.bind_some] at h
        have hvalue : segment.getD j 0 = octet := by
          rw [List.getD_eq_getElem?_getD, hread]
          rfl
        rw [copyPayload_cons, hvalue]
        by_cases hroom : i < PACKET_SIZE
        · rw [if_pos hroom] at h
          by_cases hlast : j + 1 = segment.length
          · rw [if_pos hlast] at h ⊢
            exact ih h
          · rw [if_neg hlast] at h ⊢
            exact ih h
        · rw [if_neg hroom] at h
          cases h

/-! ## The octets that are copied -/

/-- The buffer with the octets stored from `off` on. -/
def overwrite (buf : Buf) (off : Nat) (octets : List UInt8) : Buf :=
  fun k => if k < off then buf k else octets[k - off]?.getD (buf k)

theorem overwrite_nil (buf : Buf) (off : Nat) : overwrite buf off [] = buf := by
  funext k
  simp [overwrite]

theorem overwrite_put8 (buf : Buf) (off : Nat) (octet : UInt8) (octets : List UInt8) :
    overwrite (put8 buf off octet) (off + 1) octets = overwrite buf off (octet :: octets) := by
  funext k
  unfold overwrite
  rcases Nat.lt_trichotomy k off with h | h | h
  · rw [if_pos (by omega), if_pos h, put8_other buf octet (by omega)]
  · rw [if_pos (by omega), if_neg (by omega), h, put8_same, Nat.sub_self]
    rfl
  · obtain ⟨d, hd⟩ : ∃ d, k - off = d + 1 := ⟨k - off - 1, by omega⟩
    rw [if_neg (by omega), if_neg (by omega), put8_other buf octet (by omega), hd,
      show k - (off + 1) = d by omega, List.getElem?_cons_succ]

/-- **Loop invariant**: the octets still to be copied are the rest of this segment and all of the
    segments behind it, and they fit. -/
theorem copyPayloadChecked_eq {remaining i j : Nat} {segment : List UInt8}
    {next : List (List UInt8)} (buf : Buf) (hj : j < segment.length) (hnext : ∀ s ∈ next, s ≠ [])
    (hremaining : remaining = (segment.drop j ++ next.flatten).length)
    (hroom : i + remaining ≤ PACKET_SIZE) :
    copyPayloadChecked remaining i j (segment :: next) buf =
      some (overwrite buf i (segment.drop j ++ next.flatten)) := by
  induction remaining generalizing i j segment next buf with
  | zero =>
    -- the octet at `j` is still to be copied
    rw [List.length_append, List.length_drop] at hremaining
    omega
  | succ remaining ih =>
    have hdrop : segment.drop j = segment[j] :: segment.drop (j + 1) :=
      List.drop_eq_getElem_cons hj
    rw [hdrop, List.cons_append, List.length_cons, Nat.succ_inj] at hremaining
    unfold copyPayloadChecked
    rw [List.getElem?_eq_getElem hj]
    simp only [Option.bind_eq_bind, Option.bind_some]
    rw [if_pos (by omega), hdrop, List.cons_append, ← overwrite_put8]
    by_cases hlast : j + 1 = segment.length
    · -- the segment ends here
      rw [hlast, List.drop_length, List.nil_append] at hremaining
      rw [if_pos hlast, hlast, List.drop_length, List.nil_append]
      cases next with
      | nil =>
        rw [hremaining]
        exact congrArg some (overwrite_nil _ _).symm
      | cons following rest =>
        have hlength : 0 < following.length :=
          List.length_pos_iff.mpr (hnext following List.mem_cons_self)
        have hcopied := ih (put8 buf i segment[j]) hlength
          (fun s hs => hnext s (List.mem_cons_of_mem _ hs)) hremaining (i := i + 1) (by omega)
        rw [List.drop_zero] at hcopied
        exact hcopied
    · rw [if_neg hlast]
      exact ih (put8 buf i segment[j]) (by omega) hnext hremaining (by omega)

/-! ## A chain as lwIP passes it -/

/-- No segment is empty, and the total length is that of the segments and within the buffer. -/
structure Pbuf.WellChained (p : Pbuf) : Prop where
  nonempty : ∀ segment ∈ p.payload, segment ≠ []
  tot_len : p.tot_len = (p.payload.map List.length).sum
  fits : p.tot_len ≤ PACKET_SIZE

instance : DecidablePred Pbuf.WellChained := fun _ =>
  decidable_of_iff (_ ∧ _ ∧ _) ⟨fun ⟨h₁, h₂, h₃⟩ => ⟨h₁, h₂, h₃⟩, fun ⟨h₁, h₂, h₃⟩ => ⟨h₁, h₂, h₃⟩⟩

theorem Pbuf.WellChained.copied {p : Pbuf} (h : p.WellChained) (buf : Buf) :
    copyPayloadChecked p.tot_len 0 0 p.payload buf = some (overwrite buf 0 p.payload.flatten) := by
  have hlength : p.tot_len = p.payload.flatten.length := by
    rw [h.tot_len, List.length_flatten]
  cases hpayload : p.payload with
  | nil =>
    rw [hpayload] at hlength
    rw [hlength]
    exact congrArg some (overwrite_nil _ _).symm
  | cons segment next =>
    have hnonempty := h.nonempty
    rw [hpayload] at hlength hnonempty
    have hcopied := copyPayloadChecked_eq buf (i := 0) (j := 0)
      (List.length_pos_iff.mpr (hnonempty segment List.mem_cons_self))
      (fun s hs => hnonempty s (List.mem_cons_of_mem _ hs)) hlength
      (by rw [Nat.zero_add]; exact h.fits)
    exact hcopied

/-- **The copy is exact and stays within its bounds**: every access of the loop is to an octet of
    the chain and of `msgIbuf`, whose first octets are then those of the packet and whose others
    are as before. -/
theorem netRecv_copies {p : Pbuf} (h : p.WellChained) (time : TimeInternal) (w : World) :
    copyPayloadChecked p.tot_len 0 0 p.payload w.msgIbuf =
        some (netRecv (some p) time w).2.msgIbuf ∧
      (netRecv (some p) time w).1.length = p.payload.flatten.length ∧
      take p.payload.flatten.length (netRecv (some p) time w).2.msgIbuf = p.payload.flatten ∧
      ∀ i, p.payload.flatten.length ≤ i → (netRecv (some p) time w).2.msgIbuf i = w.msgIbuf i := by
  have hcopied := h.copied w.msgIbuf
  have hrecv : netRecv (some p) time w =
      (⟨p.tot_len, ⟨p.time_sec, p.time_nsec⟩⟩,
        { w with msgIbuf := copyPayload p.tot_len 0 0 p.payload w.msgIbuf }.record (.pbuf_free p)) :=
    if_neg (Nat.not_lt.mpr h.fits)
  have hbuf : (netRecv (some p) time w).2.msgIbuf = overwrite w.msgIbuf 0 p.payload.flatten := by
    rw [hrecv]
    exact copyPayload_of_checked hcopied
  rw [hbuf]
  refine ⟨hcopied, ?_, ?_, fun i hi => ?_⟩
  · rw [hrecv, List.length_flatten, ← h.tot_len]
  · apply List.ext_getElem?
    intro i
    by_cases hi : i < p.payload.flatten.length
    · rw [take_getElem? _ hi, List.getElem?_eq_getElem hi]
      simp [overwrite, List.getElem?_eq_getElem hi]
    · rw [List.getElem?_eq_none (by rw [take_length]; omega), List.getElem?_eq_none (by omega)]
  · simp [overwrite, List.getElem?_eq_none hi]

/-- Three segments of one, three and two octets. -/
def threeSegments : Pbuf := ⟨[[1], [2, 3, 4], [5, 6]], 6, 100, 0⟩

theorem netRecv_copies_threeSegments :
    take 6 (netRecv (some threeSegments) default (World.zero Platform.steady)).2.msgIbuf = [1, 2, 3, 4, 5, 6] :=
  (netRecv_copies (p := threeSegments) (by decide) default _).2.2.1

end Ptpd
