import Ptpd.EndToEnd.Delivery
import Ptpd.Lib.CheckedInt

/-! # Correction fields from the network (`arith.c`)

    A correction field is converted as it was received. The conversion negates
    a negative field, and the least 64-bit value has no negation.
-/

namespace Ptpd

open MachineInt Octets

/-- The conversion, with each signed operation checked. -/
def scaledNanosecondsToInternalTimeChecked (scaledNanoseconds : Int) : Option TimeInternal := do
  let nanoseconds ←
    if scaledNanoseconds < 0 then checkS 64 (-scaledNanoseconds) else some scaledNanoseconds
  let sign : Int := if scaledNanoseconds < 0 then -1 else 1
  let nanoseconds := nanoseconds / 2 ^ 16
  let seconds ← checkS 64 (sign * nanoseconds.tdiv 1000000000)
  let remainder ← checkS 64 (sign * nanoseconds.tmod 1000000000)
  -- both are narrowed to the 32-bit fields
  return { seconds := wrapS 32 seconds, nanoseconds := wrapS 32 remainder }

/-- The field is converted to the canonical time of its whole nanoseconds. -/
structure ConvertsExactly (x : Int) : Prop where
  defined : scaledNanosecondsToInternalTimeChecked x = some (scaledNanosecondsToInternalTime x)
  canonical : (scaledNanosecondsToInternalTime x).Canonical
  nanos : (scaledNanosecondsToInternalTime x).nanos = x.tdiv (2 ^ 16)
  nonneg : 0 ≤ x → 0 ≤ (scaledNanosecondsToInternalTime x).seconds ∧
    0 ≤ (scaledNanosecondsToInternalTime x).nanoseconds
  nonpos : x ≤ 0 → (scaledNanosecondsToInternalTime x).seconds ≤ 0 ∧
    (scaledNanosecondsToInternalTime x).nanoseconds ≤ 0

/-- A field that has a negation is converted without overflow. -/
theorem scaledNanosecondsToInternalTimeChecked_eq {x : Int} (hx : IsCorrection x) :
    scaledNanosecondsToInternalTimeChecked x = some (scaledNanosecondsToInternalTime x) := by
  obtain ⟨⟨hlo, hhi⟩, hne⟩ := hx
  norm_num at hlo hhi hne
  have hsplit : ∀ n : Int, 0 ≤ n → n < 140737488355328 → ∀ s : Int, s = 1 ∨ s = -1 →
      SRange 64 (s * n.tdiv 1000000000) ∧ SRange 64 (s * n.tmod 1000000000) := by
    intro n hn hn' s hs
    obtain ⟨hsum, ⟨hrlo, hrhi⟩, hpos, -⟩ := tdiv_split n (d := 1000000000) (by norm_num)
    have hnonneg := hpos hn
    rcases hs with rfl | rfl
    · exact ⟨⟨by norm_num; omega, by norm_num; omega⟩, ⟨by norm_num; omega, by norm_num; omega⟩⟩
    · exact ⟨⟨by norm_num; omega, by norm_num; omega⟩, ⟨by norm_num; omega, by norm_num; omega⟩⟩
  unfold scaledNanosecondsToInternalTimeChecked scaledNanosecondsToInternalTime
  by_cases hsign : x < 0
  · obtain ⟨hsec, hns⟩ := hsplit (-x / 2 ^ 16) (by omega) (by omega) (-1) (.inr rfl)
    simp only [hsign, if_true]
    rw [checkS_64 (by omega) (by omega), wrapS_64 (by omega) (by omega)]
    simp only [Option.bind_eq_bind, Option.bind_some]
    rw [checkS_of_range hsec]
    simp only [Option.bind_some]
    rw [checkS_of_range hns]
    rfl
  · obtain ⟨hsec, hns⟩ := hsplit (x / 2 ^ 16) (by omega) (by omega) 1 (.inl rfl)
    simp only [hsign, if_false, Option.bind_eq_bind, Option.bind_some]
    rw [checkS_of_range hsec]
    simp only [Option.bind_some]
    rw [checkS_of_range hns]
    rfl

/-- **A correction field is converted exactly** unless it is the least of all. -/
theorem convertsExactly_iff {x : Int} (hx : SRange 64 x) : ConvertsExactly x ↔ x ≠ -2 ^ 63 := by
  constructor
  · rintro ⟨hdefined, -, -, -, -⟩ rfl
    exact absurd hdefined (by decide)
  · intro hne
    have hcorrection : IsCorrection x := ⟨hx, hne⟩
    have heq := scaledNanosecondsToInternalTime_eq hcorrection
    obtain ⟨hsum, hrem, hpos, hneg⟩ := tdiv_split x (d := 65536) (by norm_num)
    obtain ⟨hsum', hrem', hpos', hneg'⟩ :=
      tdiv_split (correctionNanos x) (d := 1000000000) (by norm_num)
    constructor
    · exact scaledNanosecondsToInternalTimeChecked_eq hcorrection
    · rw [heq]
      exact TimeInternal.ofNanos_canonical _
    · rw [heq, TimeInternal.ofNanos_nanos]
      rfl
    · intro h
      rw [heq]
      exact hpos' (hpos h).1
    · intro h
      rw [heq]
      exact hneg' (hneg h).1

/-- One and a half nanoseconds back. -/
theorem convertsExactly_negative : ConvertsExactly (-98304) ↔ (-98304 : Int) ≠ -2 ^ 63 :=
  convertsExactly_iff (by decide)

/-- A header whose correction field is 80 00 00 00 00 00 00 00. -/
def leastCorrection : Buf := put8 (fun _ => 0) 8 0x80

/-- The least correction field can be received. It has no negation, and what is converted in its
    place is a time of more than a day ahead. -/
theorem leastCorrection_not_exact :
    (msgUnpackHeader leastCorrection).correctionfield = -2 ^ 63 ∧
      scaledNanosecondsToInternalTime (-2 ^ 63) = ⟨140737, 488355328⟩ ∧
      ¬ ∀ x, SRange 64 x → ConvertsExactly x := by
  refine ⟨by decide, by decide, ?_⟩
  intro h
  have hexact := h (-2 ^ 63) (by decide)
  exact absurd hexact.defined (by decide)

end Ptpd
