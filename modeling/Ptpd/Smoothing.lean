import Ptpd.Servo
import Ptpd.Lib.EachStep
import Ptpd.Lib.ScaledMean
import Mathlib.Tactic.Linarith

/-! # The smoothing filter over a run (`filter`, `order` in `dep/servo.c`)

    `filterExact` is `filter` over unbounded integers. Over those, the filter
    is a running mean kept as a scaled sum, and its output never leaves the
    range of the samples. The 32-bit `filter` agrees with it as long as no
    intermediate value overflows, and the second half of the module says when
    that is.
-/

namespace Ptpd

open MachineInt ScaledMean Steps

/-! ## The binary logarithm -/

/-- One halving of `floorLog2`: the digits below `2 ^ h` are dropped if there
    are digits above. -/
theorem floorLog2_halve {n₀ n k h : Nat} (hn : n = n₀ / 2 ^ k) (hpos : 0 < n)
    (hw : n < 2 ^ (h + h)) :
    ∃ k' : Nat, (if n ≥ 2 ^ h then (n / 2 ^ h, (k : Int) + h) else (n, (k : Int))) =
        (n₀ / 2 ^ k', (k' : Int)) ∧ 0 < n₀ / 2 ^ k' ∧ n₀ / 2 ^ k' < 2 ^ h := by
  by_cases hge : n ≥ 2 ^ h
  · have hdiv : n / 2 ^ h = n₀ / 2 ^ (k + h) := by
      rw [hn, Nat.div_div_eq_div_mul, ← pow_add]
    refine ⟨k + h, ?_, ?_, ?_⟩
    · rw [if_pos hge, hdiv]
      push_cast
      rfl
    · rw [← hdiv]
      exact Nat.div_pos hge (by positivity)
    · rw [← hdiv]
      apply Nat.div_lt_of_lt_mul
      rw [← pow_add]
      exact hw
  · refine ⟨k, ?_, hn ▸ hpos, ?_⟩
    · rw [if_neg hge, hn]
    · rw [← hn]
      omega

theorem floorLog2_spec {n : Nat} (hpos : 0 < n) (hn : n < 2 ^ 32) :
    ∃ k : Nat, floorLog2 n = k ∧ 2 ^ k ≤ n ∧ n < 2 ^ (k + 1) := by
  obtain ⟨k₁, e₁, p₁, w₁⟩ := floorLog2_halve (k := 0) (h := 16) (n.div_one.symm) hpos hn
  obtain ⟨k₂, e₂, p₂, w₂⟩ := floorLog2_halve (h := 8) rfl p₁ w₁
  obtain ⟨k₃, e₃, p₃, w₃⟩ := floorLog2_halve (h := 4) rfl p₂ w₂
  obtain ⟨k₄, e₄, p₄, w₄⟩ := floorLog2_halve (h := 2) rfl p₃ w₃
  obtain ⟨k₅, e₅, p₅, w₅⟩ := floorLog2_halve (h := 1) rfl p₄ w₄
  -- one digit is left, so `n` has exactly `k₅` digits below it
  have hone : n / 2 ^ k₅ = 1 := by omega
  refine ⟨k₅, ?_, ?_, ?_⟩
  · simp only [Nat.cast_ofNat, Nat.cast_zero, zero_add, Nat.cast_one] at e₁ e₂ e₃ e₄ e₅
    unfold floorLog2
    rw [if_neg (by omega), e₁]
    simp only [e₂, e₃, e₄]
    have h := congrArg Prod.snd e₅
    rw [apply_ite Prod.snd] at h
    exact h
  · rw [← Nat.one_le_div_iff (by positivity)]
    omega
  · rw [pow_succ, Nat.mul_comm]
    exact Nat.lt_mul_of_div_lt (by omega) (by positivity)

/-! ## Over unbounded integers -/

/-- `order` without the wrap of the negation. -/
def orderExact (n : Int) : Int :=
  let n := if n < 0 then -n else n
  if n = 0 then 0 else floorLog2 n.toNat

/-- Count a sample; the first one initializes the filter. -/
def Filter.started (filt : Filter) (nsec_current : Int) : Filter :=
  let filt := { filt with n := filt.n + 1 }
  if filt.n = 1 then { filt with y_prev := nsec_current, y_sum := nsec_current, s_prev := 0 }
  else filt

/-- The order for a sample: lower until `2 ^ s` samples were seen, and not so
    high that the sum of the larger value overflows. -/
def Filter.orderFor (filt : Filter) (nsec_current : Int) : Int :=
  let s := if 2 ^ filt.s.toNat > filt.n then orderExact filt.n else filt.s
  min s (30 - orderExact (max filt.y_prev nsec_current))

/-- The sample count, kept at `2 ^ s`. -/
def Filter.cappedCount (filt : Filter) : Int :=
  if 2 ^ filt.s.toNat > filt.n then filt.n else 2 ^ filt.s.toNat

/-- The sum at another order. -/
def Filter.rescaled (filt : Filter) (s : Int) : Int :=
  if filt.s_prev > s then filt.y_sum / 2 ^ (filt.s_prev - s).toNat
  else if filt.s_prev < s then filt.y_sum * 2 ^ (s - filt.s_prev).toNat
  else filt.y_sum

/-- `filter` over unbounded integers. -/
def filterExact (nsec_current : Int) (filt : Filter) : Int × Filter :=
  let filt := filt.started nsec_current
  let s := filt.orderFor nsec_current
  let y_sum := filt.rescaled s + (nsec_current - filt.y_prev)
  let y_prev := y_sum / 2 ^ s.toNat
  (y_prev, { filt with n := filt.cappedCount, y_sum := y_sum, y_prev := y_prev, s_prev := s })

/-- The filter after one more sample, through `call`. -/
def afterSample (call : Int → Filter → Int × Filter) (filt : Filter) (x : Int) : Filter :=
  (call x filt).2

theorem afterSample_congr {call call' : Int → Filter → Int × Filter} {filt : Filter} {x : Int}
    (h : call x filt = call' x filt) : afterSample call filt x = afterSample call' filt x := by
  unfold afterSample
  rw [h]

/-! ## The order -/

theorem orderExact_zero : orderExact 0 = 0 := by decide

theorem orderExact_neg (n : Int) : orderExact (-n) = orderExact n := by
  unfold orderExact
  rcases lt_trichotomy n 0 with h | rfl | h
  · rw [if_neg (show ¬ -n < 0 by omega), if_pos h]
  · rfl
  · rw [if_pos (show -n < 0 by omega), if_neg (show ¬ n < 0 by omega), neg_neg]

theorem orderExact_spec {n : Int} (hpos : 0 < n) (hn : n < 2 ^ 32) :
    ∃ k : Nat, orderExact n = k ∧ 2 ^ k ≤ n ∧ n < 2 ^ (k + 1) := by
  obtain ⟨k, hk, hlo, hhi⟩ := floorLog2_spec (n := n.toNat) (by omega) (by omega)
  have hcast : ((n.toNat : Nat) : Int) = n := Int.toNat_of_nonneg hpos.le
  refine ⟨k, ?_, ?_, ?_⟩
  · unfold orderExact
    rw [if_neg (show ¬ n < 0 by omega), if_neg (show ¬ n = 0 by omega)]
    exact hk
  · rw [← hcast]
    exact_mod_cast hlo
  · rw [← hcast]
    exact_mod_cast hhi

theorem orderExact_abs (n : Int) : orderExact n = orderExact |n| := by
  rcases abs_choice n with h | h
  · rw [h]
  · rw [h, orderExact_neg]

/-- The order counts binary digits: it is below any power the value is below. -/
theorem orderExact_bounds {n : Int} {b : Nat} (hb : b < 32) (hn : |n| < 2 ^ (b + 1)) :
    0 ≤ orderExact n ∧ orderExact n ≤ b := by
  rw [orderExact_abs]
  rcases (abs_nonneg n).eq_or_lt with h0 | hpos
  · rw [← h0, orderExact_zero]
    omega
  · have h32 : |n| < 2 ^ 32 := hn.trans_le (pow_le_pow_right₀ (by norm_num) (by omega))
    obtain ⟨k, hk, hlo, -⟩ := orderExact_spec hpos h32
    have hlt : (2 : Int) ^ k < 2 ^ (b + 1) := hlo.trans_lt hn
    have hkb : k < b + 1 := (pow_lt_pow_iff_right₀ (by norm_num)).mp hlt
    omega

theorem lt_two_pow_orderExact {n : Int} (hn : |n| < 2 ^ 32) :
    n < 2 ^ ((orderExact n).toNat + 1) := by
  rw [orderExact_abs]
  rcases (abs_nonneg n).eq_or_lt with h0 | hpos
  · have hn0 : n = 0 := abs_eq_zero.mp h0.symm
    rw [hn0]
    positivity
  · obtain ⟨k, hk, -, hhi⟩ := orderExact_spec hpos hn
    rw [hk, Int.toNat_natCast]
    exact (le_abs_self n).trans_lt hhi

/-! ## The invariant -/

/-- The filter holds a mean of the samples seen: `y_prev` is the floor of
    `y_sum` at the order last used, and lies between two of the samples. -/
structure Filter.Means (filt : Filter) (seen : List Int) : Prop where
  counted : 1 ≤ filt.n
  scale : 0 ≤ filt.s_prev
  stands : Stands filt.y_sum filt.y_prev filt.s_prev.toNat
  least : ∃ a ∈ seen, a ≤ filt.y_prev
  greatest : ∃ b ∈ seen, filt.y_prev ≤ b

namespace Filter

variable {filt : Filter} {seen : List Int} {x : Int}

theorem started_of_fresh (hn : filt.n = 0) (x : Int) :
    filt.started x = { filt with n := 1, y_prev := x, y_sum := x, s_prev := 0 } := by
  simp [started, hn]

theorem started_of_counted (hn : 1 ≤ filt.n) (x : Int) :
    filt.started x = { filt with n := filt.n + 1 } := by
  unfold started
  rw [if_neg]
  show ¬ filt.n + 1 = 1
  omega

@[simp] theorem started_s (x : Int) : (filt.started x).s = filt.s := by
  unfold started
  dsimp only
  split <;> rfl

@[simp] theorem started_n (x : Int) : (filt.started x).n = filt.n + 1 := by
  unfold started
  dsimp only
  split <;> rfl

namespace Means

theorem within {B : Int} (h : filt.Means seen) (hB : ∀ a ∈ seen, |a| < B) :
    |filt.y_prev| < B := by
  obtain ⟨a, ha, hle⟩ := h.least
  obtain ⟨b, hb, hge⟩ := h.greatest
  have ha' := abs_lt.mp (hB a ha)
  have hb' := abs_lt.mp (hB b hb)
  exact abs_lt.mpr ⟨by omega, by omega⟩

theorem greater_within {B : Int} (h : filt.Means seen) (hB : ∀ a ∈ seen, |a| < B)
    (hx : x ∈ seen) : |max filt.y_prev x| < B :=
  abs_max_le_max_abs_abs.trans_lt (max_lt (h.within hB) (hB x hx))

theorem of_fresh (hn : filt.n = 0) (x : Int) : (filt.started x).Means [x] := by
  rw [started_of_fresh hn]
  constructor
  · exact le_refl 1
  · exact le_refl 0
  · exact Stands.of_zero
  · exact ⟨x, List.mem_singleton.mpr rfl, le_refl x⟩
  · exact ⟨x, List.mem_singleton.mpr rfl, le_refl x⟩

/-- Counting one more sample changes nothing else. -/
theorem started (h : filt.Means seen) (x : Int) : (filt.started x).Means (seen ++ [x]) := by
  rw [started_of_counted h.counted]
  obtain ⟨a, ha, hle⟩ := h.least
  obtain ⟨b, hb, hge⟩ := h.greatest
  constructor
  · have hn := h.counted
    show 1 ≤ filt.n + 1
    omega
  · exact h.scale
  · exact h.stands
  · exact ⟨a, List.mem_append_left _ ha, hle⟩
  · exact ⟨b, List.mem_append_left _ hb, hge⟩

/-- Changing the order keeps the mean, whichever way the sum is scaled. -/
theorem rescaled (h : filt.Means seen) {s : Int} (hs : 0 ≤ s) :
    Stands (filt.rescaled s) filt.y_prev s.toNat := by
  have hscale := h.scale
  unfold Filter.rescaled
  rcases lt_trichotomy filt.s_prev s with hlt | heq | hgt
  · rw [if_neg (by omega), if_pos hlt]
    have hup := h.stands.raise (Int.toNat_le_toNat hlt.le)
    rw [show (s - filt.s_prev).toNat = s.toNat - filt.s_prev.toNat by omega]
    exact hup
  · rw [if_neg (by omega), if_neg (by omega), ← heq]
    exact h.stands
  · rw [if_pos hgt]
    have hdown := h.stands.lower (Int.toNat_le_toNat hgt.le)
    rw [show (filt.s_prev - s).toNat = filt.s_prev.toNat - s.toNat by omega]
    exact hdown

/-- The order used for a sample is a shift count. -/
theorem orderFor_nonneg (h : filt.Means seen) (hseen : ∀ a ∈ seen, |a| < 2 ^ 30)
    (hx : x ∈ seen) (hs : 0 ≤ filt.s) (hn : filt.n ≤ 2 ^ 30 + 1) : 0 ≤ filt.orderFor x := by
  have hcount := h.counted
  have hmax : |max filt.y_prev x| < 2 ^ (29 + 1) := h.greater_within hseen hx
  have hmax' := orderExact_bounds (by norm_num) hmax
  have hnum : 0 ≤ orderExact filt.n := by
    refine (orderExact_bounds (b := 30) (by norm_num) ?_).1
    rw [abs_of_nonneg (by omega)]
    omega
  unfold Filter.orderFor
  refine le_min ?_ (by omega)
  split
  · exact hnum
  · exact hs

/-- One sample, once it is counted: the output is a mean of what was seen. -/
theorem step (h : filt.Means seen) (hx : x ∈ seen) (hord : 0 ≤ filt.orderFor x) :
    Filter.Means
      { filt with
        n := filt.cappedCount
        y_sum := filt.rescaled (filt.orderFor x) + (x - filt.y_prev)
        y_prev := (filt.rescaled (filt.orderFor x) + (x - filt.y_prev))
          / 2 ^ (filt.orderFor x).toNat
        s_prev := filt.orderFor x } seen := by
  have hsum := h.rescaled hord
  -- the new mean lies between the old one and the sample
  obtain ⟨hlo, hhi⟩ := hsum.step_mem ⟨min_le_left _ x, le_max_left _ x⟩
    ⟨min_le_right filt.y_prev _, le_max_right filt.y_prev _⟩
  constructor
  · show 1 ≤ filt.cappedCount
    have hn := h.counted
    have hpow : (0 : Int) < 2 ^ filt.s.toNat := by positivity
    unfold Filter.cappedCount
    split <;> omega
  · exact hord
  · rfl
  · obtain ⟨a, ha, hle⟩ := h.least
    rcases min_choice filt.y_prev x with hm | hm
    · rw [hm] at hlo
      exact ⟨a, ha, hle.trans hlo⟩
    · rw [hm] at hlo
      exact ⟨x, hx, hlo⟩
  · obtain ⟨b, hb, hge⟩ := h.greatest
    rcases max_choice filt.y_prev x with hm | hm
    · rw [hm] at hhi
      exact ⟨b, hb, hhi.trans hge⟩
    · rw [hm] at hhi
      exact ⟨x, hx, hhi⟩

end Means

theorem cappedCount_le (filt : Filter) : filt.cappedCount ≤ 2 ^ filt.s.toNat := by
  unfold cappedCount
  split <;> omega

@[simp] theorem filterExact_s (x : Int) : (filterExact x filt).2.s = filt.s :=
  started_s x

@[simp] theorem run_filterExact_s (xs : List Int) :
    (run (afterSample filterExact) filt xs).s = filt.s := by
  induction xs generalizing filt with
  | nil => rfl
  | cons x xs ih =>
    rw [run, ih]
    exact filterExact_s x

/-- What holds after each call: no sample yet, or a mean of the samples; the
    count has not passed `2 ^ s`. -/
structure Tracks (filt : Filter) (seen : List Int) : Prop where
  order : 0 ≤ filt.s ∧ filt.s ≤ 30
  count : filt.n ≤ 2 ^ filt.s.toNat
  means : filt.n = 0 ∨ filt.Means seen

theorem Tracks.of_fresh (hn : filt.n = 0) (hs : 0 ≤ filt.s ∧ filt.s ≤ 30) :
    filt.Tracks [] := by
  constructor
  · exact hs
  · rw [hn]
    positivity
  · exact Or.inl hn

/-- The next sample joins the samples, as the only one if none was counted. -/
theorem Tracks.started (h : filt.Tracks seen) (x : Int) :
    (filt.started x).Means (seen ++ [x]) := by
  rcases h.means with hn | hm
  · have hone := Means.of_fresh hn x
    obtain ⟨hc, hscale, hstands, ⟨a, ha, hle⟩, ⟨b, hb, hge⟩⟩ := hone
    exact ⟨hc, hscale, hstands, ⟨a, List.mem_append_right _ ha, hle⟩,
      ⟨b, List.mem_append_right _ hb, hge⟩⟩
  · exact hm.started x

theorem Tracks.pow_le (h : filt.Tracks seen) : (2 : Int) ^ filt.s.toNat ≤ 2 ^ 30 := by
  have hs := h.order
  exact pow_le_pow_right₀ (by norm_num) (by omega)

theorem Tracks.orderFor_nonneg (h : filt.Tracks seen) (hseen : ∀ a ∈ seen ++ [x], |a| < 2 ^ 30) :
    0 ≤ (filt.started x).orderFor x := by
  have hpow := h.pow_le
  have hcount := h.count
  refine (h.started x).orderFor_nonneg hseen ?_ ?_ ?_
  · exact List.mem_append_right _ (List.mem_singleton.mpr rfl)
  · rw [started_s]
    exact h.order.1
  · rw [started_n]
    omega

/-- After a call the filter holds a mean of the samples, this one included. -/
theorem Tracks.means_filterExact (h : filt.Tracks seen)
    (hseen : ∀ a ∈ seen ++ [x], |a| < 2 ^ 30) :
    (filterExact x filt).2.Means (seen ++ [x]) :=
  (h.started x).step (List.mem_append_right _ (List.mem_singleton.mpr rfl))
    (h.orderFor_nonneg hseen)

/-- One call of the filter keeps the invariant. -/
theorem Tracks.after_filterExact (h : filt.Tracks seen) (hseen : ∀ a ∈ seen ++ [x], |a| < 2 ^ 30) :
    (filterExact x filt).2.Tracks (seen ++ [x]) := by
  have hcap := cappedCount_le (filt.started x)
  constructor
  · rw [filterExact_s]
    exact h.order
  · exact hcap
  · exact Or.inr (h.means_filterExact hseen)

/-- So does a run. -/
theorem Tracks.run_filterExact (h : filt.Tracks seen) {xs : List Int}
    (hseen : ∀ a ∈ seen ++ xs, |a| < 2 ^ 30) :
    (run (afterSample filterExact) filt xs).Tracks (seen ++ xs) := by
  induction xs generalizing filt seen with
  | nil =>
    rw [List.append_nil]
    exact h
  | cons x xs ih =>
    rw [List.append_cons] at hseen ⊢
    refine ih (h.after_filterExact ?_) hseen
    intro a ha
    exact hseen a (List.mem_append_left _ ha)

end Filter

/-- Over unbounded integers, after every call: `y_prev` is the floor of `y_sum`
    at the order in use, the count has not passed `2 ^ s`, and the output lies
    between the least and the greatest sample so far. -/
theorem filterExact_tracks (filt : Filter) (hn : filt.n = 0) (hs : 0 ≤ filt.s ∧ filt.s ≤ 30)
    (xs : List Int) (x : Int) (hx : ∀ a ∈ xs ++ [x], |a| < 2 ^ 30) :
    let call := filterExact x (run (afterSample filterExact) filt xs)
    0 ≤ call.2.s_prev ∧ call.2.y_prev = call.2.y_sum / 2 ^ call.2.s_prev.toNat ∧
      call.2.n ≤ 2 ^ filt.s.toNat ∧
      (∃ a ∈ xs ++ [x], a ≤ call.1) ∧ (∃ b ∈ xs ++ [x], call.1 ≤ b) := by
  have hxs : ∀ a ∈ xs, |a| < 2 ^ 30 := fun a ha => hx a (List.mem_append_left _ ha)
  have hrun := (Filter.Tracks.of_fresh hn hs).run_filterExact hxs
  rw [List.nil_append] at hrun
  have hmeans := hrun.means_filterExact hx
  have hcount := (hrun.after_filterExact hx).count
  rw [Filter.filterExact_s, Filter.run_filterExact_s] at hcount
  exact ⟨hmeans.scale, hmeans.stands, hcount, hmeans.least, hmeans.greatest⟩

theorem filterExact_tracks_lowered :
    let call := filterExact (-7) (run (afterSample filterExact) ⟨0, 0, 6, 0, 0⟩ [3, 1000000000, 5])
    0 ≤ call.2.s_prev ∧ call.2.y_prev = call.2.y_sum / 2 ^ call.2.s_prev.toNat ∧
      call.2.n ≤ 2 ^ 6 ∧
      (∃ a ∈ [3, 1000000000, 5, -7], a ≤ call.1) ∧
      (∃ b ∈ [3, 1000000000, 5, -7], call.1 ≤ b) :=
  filterExact_tracks ⟨0, 0, 6, 0, 0⟩ rfl (by decide) [3, 1000000000, 5] (-7) (by decide)

/-! ## In 32 bits -/

/-- No intermediate value of `filter` on this sample leaves the 32-bit range. -/
structure Filter.Fits (filt : Filter) (x : Int) : Prop where
  count : SRange 32 (filt.n + 1)
  shift : SRange 32 ((filt.started x).rescaled ((filt.started x).orderFor x))
  difference : SRange 32 (x - (filt.started x).y_prev)
  sum : SRange 32
    ((filt.started x).rescaled ((filt.started x).orderFor x) + (x - (filt.started x).y_prev))

/-- The digits of `y_sum` below the mean, at order `s`. -/
def Filter.fraction (filt : Filter) (s : Int) : Int :=
  filt.y_sum % 2 ^ filt.s_prev.toNat * 2 ^ s.toNat / 2 ^ filt.s_prev.toNat

/-- The order, chosen for the larger of the mean and the sample, has room for
    a negative mean, and for the sum when the sample takes it further down. -/
def Filter.RoomBelow (filt : Filter) (x : Int) : Prop :=
  let filt := filt.started x
  let s := filt.orderFor x
  filt.y_prev * 2 ^ s.toNat ≥ -2 ^ 31 ∧
    (x < filt.y_prev → filt.y_prev < 0 →
      filt.y_prev * 2 ^ s.toNat + filt.fraction s + (x - filt.y_prev) ≥ -2 ^ 31)

theorem order_eq_orderExact {n : Int} (hn : |n| < 2 ^ 31) : order n = orderExact n := by
  obtain ⟨hlo, hhi⟩ := abs_lt.mp hn
  unfold order orderExact
  rw [wrapS_32 (by omega) (by omega)]
  dsimp only
  rw [Int.emod_eq_of_lt]
  · split <;> omega
  · split <;> omega

/-- `filter` with the reduction to 32 bits as a parameter. -/
def filterWith (wrap : Int → Int) (nsec_current : Int) (filt : Filter) : Int × Filter :=
  let filt := { filt with n := wrap (filt.n + 1) }
  let filt :=
    if filt.n = 1 then { filt with y_prev := nsec_current, y_sum := nsec_current, s_prev := 0 }
    else filt
  let s := filt.s
  let (s, filt) :=
    if wrap (2 ^ s.toNat) > filt.n then (order filt.n, filt)
    else (s, { filt with n := wrap (2 ^ s.toNat) })
  let s2 := 30 - order (max filt.y_prev nsec_current)
  let s := min s s2
  let filt :=
    if filt.s_prev > s then { filt with y_sum := filt.y_sum / 2 ^ (filt.s_prev - s).toNat }
    else if filt.s_prev < s then
      { filt with y_sum := wrap (filt.y_sum * 2 ^ (s - filt.s_prev).toNat) }
    else filt
  let y_sum := wrap (filt.y_sum + wrap (nsec_current - filt.y_prev))
  let y_prev := y_sum / 2 ^ s.toNat
  (y_prev, { filt with y_sum := y_sum, y_prev := y_prev, s_prev := s })

theorem filter_eq_filterWith : filter = filterWith (wrapS 32) := by
  -- the two bodies agree as they stand; evaluating them would unfold the wraps
  delta filter filterWith
  with_reducible rfl

/-- The three values that depend on the sample; the count and the orders are
    small enough not to. -/
theorem filterWith_eq_filterExact {wrap : Int → Int} {filt : Filter} {x : Int}
    (hcount : wrap (filt.n + 1) = filt.n + 1)
    (hpow : wrap (2 ^ filt.s.toNat) = 2 ^ filt.s.toNat)
    (hnum : order (filt.started x).n = orderExact (filt.started x).n)
    (hmax : order (max (filt.started x).y_prev x) = orderExact (max (filt.started x).y_prev x))
    (hshift : wrap ((filt.started x).rescaled ((filt.started x).orderFor x)) =
      (filt.started x).rescaled ((filt.started x).orderFor x))
    (hdiff : wrap (x - (filt.started x).y_prev) = x - (filt.started x).y_prev)
    (hsum : wrap ((filt.started x).rescaled ((filt.started x).orderFor x) +
        (x - (filt.started x).y_prev)) =
      (filt.started x).rescaled ((filt.started x).orderFor x) + (x - (filt.started x).y_prev)) :
    filterWith wrap x filt = filterExact x filt := by
  have hstarted :
      (if filt.n + 1 = 1 then
        { filt with n := filt.n + 1, y_prev := x, y_sum := x, s_prev := 0 }
      else { filt with n := filt.n + 1 }) = filt.started x := rfl
  rw [← Filter.started_s x] at hpow
  unfold filterWith filterExact
  simp only [hcount]
  rw [hstarted]
  generalize filt.started x = f at *
  -- the sample count decides which order is asked for
  have hasked :
      (if 2 ^ f.s.toNat > f.n then (orderExact f.n, f) else (f.s, { f with n := 2 ^ f.s.toNat })) =
        (if 2 ^ f.s.toNat > f.n then orderExact f.n else f.s, { f with n := f.cappedCount }) := by
    unfold Filter.cappedCount
    split <;> rfl
  simp only [hpow, hmax, hnum, hasked]
  have hord : min (if 2 ^ f.s.toNat > f.n then orderExact f.n else f.s)
      (30 - orderExact (max f.y_prev x)) = f.orderFor x := rfl
  simp only [hord]
  generalize f.orderFor x = s at *
  unfold Filter.rescaled at hsum hshift ⊢
  rcases lt_trichotomy f.s_prev s with hup | rfl | hdown
  · simp only [if_neg hup.le.not_gt, if_pos hup] at hsum hshift ⊢
    rw [hshift, hdiff, hsum]
  · simp only [gt_iff_lt, lt_irrefl, if_false] at hsum ⊢
    rw [hdiff, hsum]
  · simp only [if_pos hdown] at hsum ⊢
    rw [hdiff, hsum]

/-- As long as nothing overflows, the 32-bit filter is the unbounded one. -/
theorem filter_eq_filterExact {filt : Filter} {x : Int} (h : filt.Fits x)
    (hs : 0 ≤ filt.s ∧ filt.s ≤ 30) (hn : 0 ≤ filt.n)
    (hmax : |max (filt.started x).y_prev x| < 2 ^ 31) : filter x filt = filterExact x filt := by
  rw [filter_eq_filterWith]
  apply filterWith_eq_filterExact
  · exact wrapS_of_range (by decide) h.count
  · have hle : (2 : Int) ^ filt.s.toNat ≤ 2 ^ 30 := pow_le_pow_right₀ (by norm_num) (by omega)
    have hpos : (0 : Int) < 2 ^ filt.s.toNat := by positivity
    exact wrapS_32 (by omega) (by omega)
  · apply order_eq_orderExact
    rw [Filter.started_n, abs_of_nonneg (by omega)]
    exact h.count.2
  · exact order_eq_orderExact hmax
  · exact wrapS_of_range (by decide) h.shift
  · exact wrapS_of_range (by decide) h.difference
  · exact wrapS_of_range (by decide) h.sum

/-! ## When nothing overflows -/

namespace Filter

variable {filt : Filter} {seen : List Int} {x : Int}

/-- The rescaled sum is the scaled mean and the digits below it. -/
theorem Means.rescaled_eq (h : filt.Means seen) {s : Int} (hs : 0 ≤ s) :
    filt.rescaled s = filt.y_prev * 2 ^ s.toNat + filt.fraction s := by
  have hscale := h.scale
  unfold Filter.fraction
  rw [← h.stands.scaled]
  unfold Filter.rescaled
  rcases lt_trichotomy filt.s_prev s with hlt | heq | hgt
  · rw [if_neg (by omega), if_pos hlt, ← raise_eq _ (Int.toNat_le_toNat hlt.le)]
    rw [show (s - filt.s_prev).toNat = s.toNat - filt.s_prev.toNat by omega]
  · rw [if_neg (by omega), if_neg (by omega), ← heq, ← raise_eq _ (le_refl _)]
    simp
  · rw [if_pos hgt, ← lower_eq _ (Int.toNat_le_toNat hgt.le)]
    rw [show (filt.s_prev - s).toNat = filt.s_prev.toNat - s.toNat by omega]

/-- The order leaves room above the larger of the mean and the sample. -/
theorem room_above {m s : Int} (hm : 0 ≤ m) (hm31 : m < 2 ^ 31)
    (hsm : s ≤ 30 - orderExact m) : (m + 1) * 2 ^ s.toNat ≤ 2 ^ 31 := by
  have habs : |m| < 2 ^ (30 + 1) := by
    rw [abs_of_nonneg hm]
    exact hm31
  obtain ⟨ho, ho'⟩ := orderExact_bounds (by norm_num) habs
  have hlt := lt_two_pow_orderExact (n := m) (habs.trans (by norm_num))
  calc (m + 1) * 2 ^ s.toNat
      ≤ 2 ^ ((orderExact m).toNat + 1) * 2 ^ (30 - orderExact m).toNat := by
        apply mul_le_mul
        · omega
        · exact pow_le_pow_right₀ (by norm_num) (Int.toNat_le_toNat hsm)
        · positivity
        · positivity
    _ = 2 ^ ((orderExact m).toNat + 1 + (30 - orderExact m).toNat) := (pow_add _ _ _).symm
    _ = 2 ^ 31 := by
        congr 1
        omega

theorem sRange_32 {v : Int} : SRange 32 v ↔ -2 ^ 31 ≤ v ∧ v < 2 ^ 31 := by
  unfold SRange
  norm_num

/-- Nothing up to the larger of the mean and the sample overflows upwards. -/
theorem Means.top (h : filt.Means seen) (hseen : ∀ a ∈ seen, |a| < 10 ^ 9) (hx : x ∈ seen)
    {t : Int} (ht : t ≤ max filt.y_prev x) :
    (t + 1) * 2 ^ (filt.orderFor x).toNat ≤ 2 ^ 31 := by
  have hy := abs_lt.mp (h.within hseen)
  have hx' := abs_lt.mp (hseen x hx)
  have hpos : (0 : Int) < 2 ^ (filt.orderFor x).toNat := by positivity
  rcases lt_or_ge (max filt.y_prev x) 0 with hneg | hnn
  · have hle : (t + 1) * 2 ^ (filt.orderFor x).toNat ≤ 0 :=
      mul_nonpos_of_nonpos_of_nonneg (by omega) hpos.le
    omega
  · calc (t + 1) * 2 ^ (filt.orderFor x).toNat
        ≤ (max filt.y_prev x + 1) * 2 ^ (filt.orderFor x).toNat :=
          mul_le_mul_of_nonneg_right (by omega) hpos.le
      _ ≤ 2 ^ 31 := room_above hnn (by omega) (min_le_right _ _)

/-- A rescaled sum is in range below exactly if its mean is: the least value is
    a multiple of the scale. -/
theorem Means.bottom_iff (h : filt.Means seen) {s : Int} (hs : 0 ≤ s) (hs31 : s ≤ 31) :
    -2 ^ 31 ≤ filt.rescaled s ↔ filt.y_prev * 2 ^ s.toNat ≥ -2 ^ 31 := by
  have hstands := h.rescaled hs
  have hlo := hstands.le_sum
  have hhi := hstands.sum_lt
  have hpos : (0 : Int) < 2 ^ s.toNat := by positivity
  have hsplit : (2 : Int) ^ 31 = 2 ^ (31 - s.toNat) * 2 ^ s.toNat := by
    rw [← pow_add]
    congr 1
    omega
  constructor
  · intro hR
    have hlt : -2 ^ (31 - s.toNat) * 2 ^ s.toNat < (filt.y_prev + 1) * 2 ^ s.toNat := by
      rw [neg_mul, ← hsplit]
      omega
    have hy : -2 ^ (31 - s.toNat) < filt.y_prev + 1 := lt_of_mul_lt_mul_right hlt hpos.le
    calc filt.y_prev * 2 ^ s.toNat
        ≥ -2 ^ (31 - s.toNat) * 2 ^ s.toNat :=
          mul_le_mul_of_nonneg_right (Int.lt_add_one_iff.mp hy) hpos.le
      _ = -2 ^ 31 := by rw [neg_mul, ← hsplit]
  · intro hy
    omega

theorem Means.orderFor_le (h : filt.Means seen) (hseen : ∀ a ∈ seen, |a| < 10 ^ 9)
    (hx : x ∈ seen) : filt.orderFor x ≤ 30 := by
  have hmax : |max filt.y_prev x| < 2 ^ (30 + 1) :=
    (h.greater_within hseen hx).trans (by norm_num)
  have ho := (orderExact_bounds (by norm_num) hmax).1
  have hle : filt.orderFor x ≤ 30 - orderExact (max filt.y_prev x) := min_le_right _ _
  omega

/-- The values of one call, once the sample is counted: in range exactly if
    there is room below. -/
theorem Means.fits_iff (h : filt.Means seen) (hseen : ∀ a ∈ seen, |a| < 10 ^ 9)
    (hx : x ∈ seen) (hord : 0 ≤ filt.orderFor x) :
    (SRange 32 (filt.rescaled (filt.orderFor x)) ∧ SRange 32 (x - filt.y_prev) ∧
        SRange 32 (filt.rescaled (filt.orderFor x) + (x - filt.y_prev))) ↔
      filt.y_prev * 2 ^ (filt.orderFor x).toNat ≥ -2 ^ 31 ∧
        (x < filt.y_prev → filt.y_prev < 0 →
          filt.y_prev * 2 ^ (filt.orderFor x).toNat + filt.fraction (filt.orderFor x)
            + (x - filt.y_prev) ≥ -2 ^ 31) := by
  have hbottom := h.bottom_iff hord (by have := h.orderFor_le hseen hx; omega)
  rw [← h.rescaled_eq hord, sRange_32, sRange_32, sRange_32]
  constructor
  · rintro ⟨hshift, -, hsum⟩
    exact ⟨hbottom.mp hshift.1, fun _ _ => hsum.1⟩
  · rintro ⟨hlow, hdrop⟩
    have hy := abs_lt.mp (h.within hseen)
    have hx' := abs_lt.mp (hseen x hx)
    have hstands := h.rescaled hord
    have hlo := hstands.le_sum
    have hhi := hstands.sum_lt
    have hpos : (0 : Int) < 2 ^ (filt.orderFor x).toNat := by positivity
    have hR := hbottom.mpr hlow
    refine ⟨⟨hR, ?_⟩, ⟨by omega, by omega⟩, ?_, ?_⟩
    · have htop := h.top hseen hx (le_max_left _ _)
      omega
    · -- only a sample below a negative mean takes the sum down out of range
      rcases le_or_gt filt.y_prev x with hup | hfall
      · omega
      · rcases le_or_gt 0 filt.y_prev with hnn | hneg
        · have hR0 : 0 ≤ filt.y_prev * 2 ^ (filt.orderFor x).toNat := mul_nonneg hnn hpos.le
          omega
        · exact hdrop hfall hneg
    · -- the new mean is at most the larger of the two
      have hmem := hstands.step_mem ⟨min_le_left _ x, le_max_left _ x⟩
        ⟨min_le_right filt.y_prev _, le_max_right filt.y_prev _⟩
      have htop := h.top hseen hx hmem.2
      have hnew : Stands (filt.rescaled (filt.orderFor x) + (x - filt.y_prev)) _
        (filt.orderFor x).toNat := rfl
      have hlt := hnew.sum_lt
      omega

/-- One call: the values stay in range exactly if there is room below. -/
theorem Tracks.fits_iff (h : filt.Tracks seen) (hn : 0 ≤ filt.n)
    (hseen : ∀ a ∈ seen ++ [x], |a| < 10 ^ 9) : filt.Fits x ↔ filt.RoomBelow x := by
  have hx : x ∈ seen ++ [x] := List.mem_append_right _ (List.mem_singleton.mpr rfl)
  have hord : 0 ≤ (filt.started x).orderFor x :=
    h.orderFor_nonneg (fun a ha => (hseen a ha).trans (by norm_num))
  have hiff := (h.started x).fits_iff hseen hx hord
  have hpow := h.pow_le
  have hcount := h.count
  constructor
  · intro hfits
    exact hiff.mp ⟨hfits.shift, hfits.difference, hfits.sum⟩
  · intro hroom
    obtain ⟨hshift, hdiff, hsum⟩ := hiff.mpr hroom
    exact ⟨sRange_32.mpr ⟨by omega, by omega⟩, hshift, hdiff, hsum⟩

theorem Tracks.n_nonneg (h : filt.Tracks seen) : 0 ≤ filt.n := by
  rcases h.means with hn | hm
  · omega
  · have hcounted := hm.counted
    omega

/-- While the values fit, the 32-bit filter keeps the invariant. -/
theorem Tracks.after_filter (h : filt.Tracks seen) (hseen : ∀ a ∈ seen ++ [x], |a| < 10 ^ 9)
    (hfits : filt.Fits x) : (afterSample filter filt x).Tracks (seen ++ [x]) := by
  have hx : x ∈ seen ++ [x] := List.mem_append_right _ (List.mem_singleton.mpr rfl)
  have hmax : |max (filt.started x).y_prev x| < 2 ^ 31 :=
    ((h.started x).greater_within hseen hx).trans (by norm_num)
  rw [afterSample_congr (filter_eq_filterExact hfits h.order h.n_nonneg hmax)]
  exact h.after_filterExact (fun a ha => (hseen a ha).trans (by norm_num))

/-- What holds before the samples still to come. -/
def TracksBefore (filt : Filter) (xs : List Int) : Prop :=
  ∃ seen, filt.Tracks seen ∧ ∀ a ∈ seen ++ xs, |a| < 10 ^ 9

/-- A call that fits has room below, and leads on. -/
theorem TracksBefore.step {xs : List Int} (h : filt.TracksBefore (x :: xs)) :
    (filt.Fits x ↔ filt.RoomBelow x) ∧ (filt.Fits x → (afterSample filter filt x).TracksBefore xs) := by
  obtain ⟨seen, htracks, hseen⟩ := h
  rw [List.append_cons] at hseen
  have hsofar : ∀ a ∈ seen ++ [x], |a| < 10 ^ 9 := fun a ha =>
    hseen a (List.mem_append_left _ ha)
  exact ⟨htracks.fits_iff htracks.n_nonneg hsofar,
    fun hfits => ⟨seen ++ [x], htracks.after_filter hsofar hfits, hseen⟩⟩

end Filter

/-- From the first sample on, no value of the filter overflows exactly if at
    each call the order leaves room for a negative mean and a sample below it. -/
theorem filter_fits_iff (filt : Filter) (hn : filt.n = 0) (hs : 0 ≤ filt.s ∧ filt.s ≤ 6)
    (xs : List Int) (hx : ∀ x ∈ xs, |x| < 10 ^ 9) :
    EachStep (afterSample filter) Filter.Fits filt xs ↔ EachStep (afterSample filter) Filter.RoomBelow filt xs := by
  have hstart : filt.TracksBefore xs :=
    ⟨[], Filter.Tracks.of_fresh hn ⟨hs.1, hs.2.trans (by norm_num)⟩, hx⟩
  constructor
  · apply EachStep.of_invariant Filter.TracksBefore _ hstart
    intro filt x xs h hfits
    exact ⟨h.step.1.mp hfits, h.step.2 hfits⟩
  · apply EachStep.of_invariant Filter.TracksBefore _ hstart
    intro filt x xs h hroom
    have hfits := h.step.1.mpr hroom
    exact ⟨hfits, h.step.2 hfits⟩

theorem filter_fits_iff_falling :
    EachStep (afterSample filter) Filter.Fits ⟨0, 0, 6, 0, 0⟩ [-20, -70, 30, -1000000] ↔
      EachStep (afterSample filter) Filter.RoomBelow ⟨0, 0, 6, 0, 0⟩ [-20, -70, 30, -1000000] :=
  filter_fits_iff ⟨0, 0, 6, 0, 0⟩ rfl (by decide) [-20, -70, 30, -1000000] (by decide)

/-- Three samples near -10^9 and then 5: the order is chosen for 5, and the sum
    of the large negative mean overflows when it is scaled up to that order. -/
theorem filter_overflows :
    ¬ ∀ filt : Filter, filt.n = 0 → 0 ≤ filt.s ∧ filt.s ≤ 6 →
      ∀ xs : List Int, (∀ x ∈ xs, |x| < 10 ^ 9) → EachStep (afterSample filter) Filter.Fits filt xs := by
  intro h
  obtain ⟨-, -, -, hfits, -⟩ := h ⟨0, 0, 6, 0, 0⟩ rfl (by decide)
    [-999999999, -999999999, -999999999, 5] (by decide)
  exact absurd hfits.shift (by decide +kernel)

end Ptpd
