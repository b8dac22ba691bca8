import Ptpd.Lib.BubbleSort
import Ptpd.Lib.CheckedInt
import Mathlib.Algebra.BigOperators.Group.List.Basic
import Mathlib.Algebra.Order.BigOperators.Group.List
import Mathlib.Order.Bounds.Basic
import Mathlib.Tactic.Linarith

/-! # Outlier filters (`filter.c`)

    Two functions take the mean of a buffer without its least and its greatest
    sample. One finds the two in a pass that starts from zeros, the other sorts
    the buffer. All sums are checked against the range of `int`.
-/

namespace Ptpd.Outliers

open MachineInt

/-! ## The functions -/

/-- The variables of the loop of `AvrValueFiter`. -/
structure AvrState where
  tmp_value : Int
  isMax : Int
  isMin : Int

def AvrValueFiter_step (s : AvrState) (x : Int) : Option AvrState := do
  let tmp_value ← checkS 32 (s.tmp_value + x)
  return {
    tmp_value := tmp_value
    isMax := if x > s.isMax then x else s.isMax
    isMin := if x < s.isMin then x else s.isMin }

/-- `none` if a sum leaves the range. -/
def AvrValueFiter (buf : List Int) : Option Int := do
  let s ← buf.foldlM AvrValueFiter_step ⟨0, 0, 0⟩
  let tmp_value ← checkS 32 (s.tmp_value - s.isMax)
  let tmp_value ← checkS 32 (tmp_value - s.isMin)
  return tmp_value.tdiv (buf.length - 2)

/-- The value returned, and the buffer, which is left sorted. -/
def Filter (filter_buf : List Int) : Option (Int × List Int) := do
  let filter_buf := BubbleSort.sort filter_buf
  let filter_sum ← ((filter_buf.drop 1).take (filter_buf.length - 2)).foldlM
    (fun sum x => checkS 32 (sum + x)) 0
  return (filter_sum.tdiv (filter_buf.length - 2), filter_buf)

/-! ## Checked sums -/

variable {buf : List Int} {lo hi : Int}

theorem foldlM_checkS {l : List Int} {sum total : Int}
    (h : l.foldlM (fun sum x => checkS 32 (sum + x)) sum = some total) : total = sum + l.sum := by
  induction l generalizing sum with
  | nil =>
    rw [List.sum_nil, add_zero]
    exact (Option.some.inj h).symm
  | cons x l ih =>
    rw [List.foldlM_cons] at h
    obtain ⟨next, hnext, hrest⟩ := Option.bind_eq_some_iff.mp h
    obtain ⟨-, rfl⟩ := checkS_eq_some.mp hnext
    rw [ih hrest, List.sum_cons, add_assoc]

/-- The loop leaves the sum and, from zeros on, the extremes. -/
theorem AvrValueFiter_loop {l : List Int} {s s' : AvrState}
    (h : l.foldlM AvrValueFiter_step s = some s') :
    s' = ⟨s.tmp_value + l.sum, l.foldl max s.isMax, l.foldl min s.isMin⟩ := by
  induction l generalizing s with
  | nil =>
    rw [List.sum_nil, add_zero]
    exact (Option.some.inj h).symm
  | cons x l ih =>
    rw [List.foldlM_cons] at h
    obtain ⟨next, hnext, hrest⟩ := Option.bind_eq_some_iff.mp h
    obtain ⟨sum, hsum, hnext⟩ := Option.bind_eq_some_iff.mp hnext
    obtain ⟨-, rfl⟩ := checkS_eq_some.mp hsum
    obtain rfl := Option.some.inj hnext
    have hmax : (if x > s.isMax then x else s.isMax) = max s.isMax x := by
      split <;> omega
    have hmin : (if x < s.isMin then x else s.isMin) = min s.isMin x := by
      split <;> omega
    rw [ih hrest, hmax, hmin, List.sum_cons, add_assoc]
    rfl

theorem foldl_max_eq {α : Type*} [LinearOrder α] {l : List α} {hi : α}
    (hhi : IsGreatest {x | x ∈ l} hi) (a : α) : l.foldl max a = max a hi := by
  apply le_antisymm
  · have hle : ∀ (l : List α) (a : α), (∀ x ∈ l, x ≤ hi) → l.foldl max a ≤ max a hi := by
      intro l
      induction l with
      | nil => exact fun a _ => le_max_left a hi
      | cons x l ih =>
        intro a hl
        have hrest := ih (max a x) fun y hy => hl y (List.mem_cons_of_mem _ hy)
        rw [max_assoc, max_eq_right (hl x List.mem_cons_self)] at hrest
        exact hrest
    exact hle l a hhi.2
  · have hge : ∀ (l : List α) (a : α), a ≤ l.foldl max a ∧ ∀ x ∈ l, x ≤ l.foldl max a := by
      intro l
      induction l with
      | nil => exact fun a => ⟨le_refl a, fun x hx => absurd hx List.not_mem_nil⟩
      | cons x l ih =>
        intro a
        obtain ⟨hstart, hall⟩ := ih (max a x)
        refine ⟨(le_max_left a x).trans hstart, ?_⟩
        intro y hy
        rcases List.mem_cons.mp hy with rfl | hy
        · exact (le_max_right a y).trans hstart
        · exact hall y hy
    exact max_le (hge l a).1 ((hge l a).2 hi hhi.1)

theorem foldl_min_eq {α : Type*} [LinearOrder α] {l : List α} {lo : α}
    (hlo : IsLeast {x | x ∈ l} lo) (a : α) : l.foldl min a = min a lo :=
  foldl_max_eq (α := αᵒᵈ) hlo a

/-! ## Without the extremes -/

/-- The samples without one least and one greatest. -/
def trimmed (buf : List Int) (lo hi : Int) : List Int := (buf.erase lo).erase hi

theorem mem_of_mem_trimmed {x : Int} (h : x ∈ trimmed buf lo hi) : x ∈ buf :=
  List.mem_of_mem_erase (List.mem_of_mem_erase h)

/-- With two samples or more the greatest is still there when the least is gone. -/
theorem mem_erase_extreme (hlo : IsLeast {x | x ∈ buf} lo) (hhi : IsGreatest {x | x ∈ buf} hi)
    (hn : 2 ≤ buf.length) : hi ∈ buf.erase lo := by
  by_cases h : hi = lo
  · -- all samples are equal
    have hlength : 0 < (buf.erase lo).length := by
      rw [List.length_erase_of_mem hlo.1]
      omega
    obtain ⟨x, hx⟩ := List.exists_mem_of_length_pos hlength
    have hmem := List.mem_of_mem_erase hx
    have hle : lo ≤ x := hlo.2 hmem
    have hge : x ≤ hi := hhi.2 hmem
    obtain rfl : x = hi := by omega
    exact hx
  · exact (List.mem_erase_of_ne h).mpr hhi.1

theorem sum_trimmed (hlo : IsLeast {x | x ∈ buf} lo) (hhi : IsGreatest {x | x ∈ buf} hi)
    (hn : 2 ≤ buf.length) : (trimmed buf lo hi).sum = buf.sum - lo - hi := by
  have hfirst := (List.perm_cons_erase hlo.1).sum_eq
  have hsecond := (List.perm_cons_erase (mem_erase_extreme hlo hhi hn)).sum_eq
  rw [List.sum_cons] at hfirst hsecond
  unfold trimmed
  omega

/-- What the sorted buffer has between its ends. -/
theorem sum_between_ends (hlo : IsLeast {x | x ∈ buf} lo) (hhi : IsGreatest {x | x ∈ buf} hi)
    (hn : 2 ≤ buf.length) :
    (((BubbleSort.sort buf).drop 1).take (buf.length - 2)).sum = buf.sum - lo - hi := by
  have hperm := BubbleSort.sort_perm buf
  have hsorted := BubbleSort.sort_pairwise buf
  have hlength := hperm.length_eq
  have hmem : ∀ x, x ∈ BubbleSort.sort buf ↔ x ∈ buf := fun x => hperm.mem_iff
  have hsum := hperm.sum_eq
  generalize BubbleSort.sort buf = s at hperm hsorted hlength hmem hsum ⊢
  cases s with
  | nil =>
    rw [List.length_nil] at hlength
    omega
  | cons first rest =>
    rcases List.eq_nil_or_concat rest with rfl | ⟨middle, last, hrest⟩
    · rw [List.length_singleton] at hlength
      omega
    · rw [List.concat_eq_append] at hrest
      subst hrest
      rw [List.length_cons, List.length_append, List.length_singleton] at hlength
      have hmiddle : ((first :: (middle ++ [last])).drop 1).take (buf.length - 2) = middle := by
        rw [List.drop_one, List.tail_cons]
        exact List.take_left' (by omega)
      have hfirst : first = lo := by
        have hle : lo ≤ first := hlo.2 ((hmem first).mp List.mem_cons_self)
        rcases List.mem_cons.mp ((hmem lo).mpr hlo.1) with h | h
        · exact h.symm
        · exact le_antisymm ((List.pairwise_cons.mp hsorted).1 lo h) hle
      have hlast : last = hi := by
        have hle : last ≤ hi := hhi.2 ((hmem last).mp (by simp))
        have hmem' : hi ∈ (first :: middle) ++ [last] := (hmem hi).mpr hhi.1
        have hsorted' : ((first :: middle) ++ [last]).Pairwise (· ≤ ·) := hsorted
        rcases List.mem_append.mp hmem' with h | h
        · exact le_antisymm hle ((List.pairwise_append.mp hsorted').2.2 hi h last (by simp))
        · exact (List.mem_singleton.mp h).symm
      rw [List.sum_cons, List.sum_append, List.sum_singleton] at hsum
      rw [hmiddle]
      omega

/-! ## The two results -/

theorem AvrValueFiter_eq {v : Int} (hlo : IsLeast {x | x ∈ buf} lo)
    (hhi : IsGreatest {x | x ∈ buf} hi) (h : AvrValueFiter buf = some v) :
    v = (buf.sum - max 0 hi - min 0 lo).tdiv (buf.length - 2) := by
  obtain ⟨s, hs, h⟩ := Option.bind_eq_some_iff.mp h
  obtain ⟨d, hd, h⟩ := Option.bind_eq_some_iff.mp h
  obtain ⟨e, he, h⟩ := Option.bind_eq_some_iff.mp h
  obtain ⟨-, rfl⟩ := checkS_eq_some.mp hd
  obtain ⟨-, rfl⟩ := checkS_eq_some.mp he
  obtain rfl := Option.some.inj h
  rw [AvrValueFiter_loop hs]
  dsimp only
  rw [foldl_max_eq hhi, foldl_min_eq hlo, zero_add]

theorem Filter_eq {v : Int} {sorted : List Int} (hlo : IsLeast {x | x ∈ buf} lo)
    (hhi : IsGreatest {x | x ∈ buf} hi) (hn : 2 ≤ buf.length) (h : Filter buf = some (v, sorted)) :
    v = (trimmed buf lo hi).sum.tdiv (buf.length - 2) := by
  have hlength : (BubbleSort.sort buf).length = buf.length := (BubbleSort.sort_perm buf).length_eq
  obtain ⟨sum, hsum, h⟩ := Option.bind_eq_some_iff.mp h
  obtain ⟨rfl, -⟩ := Prod.mk.inj (Option.some.inj h)
  rw [hlength] at hsum ⊢
  rw [foldlM_checkS hsum, zero_add, sum_between_ends hlo hhi hn, sum_trimmed hlo hhi hn]

/-- The mean of what is left lies between the extremes. -/
theorem trimmed_mean_between (hlo : IsLeast {x | x ∈ buf} lo) (hhi : IsGreatest {x | x ∈ buf} hi)
    (hn : 3 ≤ buf.length) :
    lo ≤ (trimmed buf lo hi).sum.tdiv (buf.length - 2) ∧
      (trimmed buf lo hi).sum.tdiv (buf.length - 2) ≤ hi := by
  have hlength : (trimmed buf lo hi).length = buf.length - 2 := by
    unfold trimmed
    rw [List.length_erase_of_mem (mem_erase_extreme hlo hhi (by omega)),
      List.length_erase_of_mem hlo.1]
    omega
  have hle := List.sum_le_card_nsmul (trimmed buf lo hi) hi fun x hx => hhi.2 (mem_of_mem_trimmed hx)
  have hge := List.card_nsmul_le_sum (trimmed buf lo hi) lo fun x hx => hlo.2 (mem_of_mem_trimmed hx)
  rw [hlength, nsmul_eq_mul, Nat.cast_sub (by omega)] at hle hge
  push_cast at hle hge
  have hm : (0 : Int) < buf.length - 2 := by omega
  obtain ⟨hsum, ⟨hrlo, hrhi⟩, -, -⟩ := tdiv_split (trimmed buf lo hi).sum hm
  generalize (buf.length : Int) - 2 = m at *
  generalize (trimmed buf lo hi).sum.tdiv m = q at *
  constructor
  · by_contra hlt
    have : m * (q + 1) ≤ m * lo := mul_le_mul_of_nonneg_left (by omega) hm.le
    linarith
  · by_contra hlt
    have : m * (hi + 1) ≤ m * q := mul_le_mul_of_nonneg_left (by omega) hm.le
    linarith

/-! ## Agreement -/

/-- No sum that one of the filters forms leaves the range of `int`. -/
def SumsInRange (buf : List Int) : Prop := (AvrValueFiter buf).isSome ∧ (Filter buf).isSome

instance : DecidablePred SumsInRange := fun _ => instDecidableAnd

/-- Both return the mean of the samples without their extremes, which lies between these. -/
def FiltersAgree (buf : List Int) (lo hi : Int) : Prop :=
  ∃ v, AvrValueFiter buf = some v ∧ (Filter buf).map Prod.fst = some v ∧
    v = (trimmed buf lo hi).sum.tdiv (buf.length - 2) ∧ lo ≤ v ∧ v ≤ hi

/-- Samples of both signs, or of one sign and so small that the one nearest to zero, which
    `AvrValueFiter` leaves in the sum, is lost when this is divided. -/
def ExtremesSeen (buf : List Int) (lo hi : Int) : Prop :=
  lo ≤ 0 ∧ 0 ≤ hi ∨
    0 < lo ∧ (trimmed buf lo hi).sum % (buf.length - 2) + lo < buf.length - 2 ∨
    hi < 0 ∧ -(trimmed buf lo hi).sum % (buf.length - 2) - hi < buf.length - 2

/-- An addend is lost in a quotient if the remainder has room for it. -/
theorem tdiv_add_eq_iff {a b m : Int} (ha : 0 ≤ a) (hb : 0 ≤ b) (hm : 0 < m) :
    (a + b).tdiv m = a.tdiv m ↔ a % m + b < m := by
  rw [Int.tdiv_eq_ediv_of_nonneg (by omega), Int.tdiv_eq_ediv_of_nonneg ha]
  have hsplit := Int.mul_ediv_add_emod a m
  have hrem := Int.emod_nonneg a hm.ne'
  constructor
  · intro heq
    have hsplit' := Int.mul_ediv_add_emod (a + b) m
    have hlt := Int.emod_lt_of_pos (a + b) hm
    rw [heq] at hsplit'
    linarith
  · intro hlt
    have hsum : a % m + b + m * (a / m) = a + b := by linarith
    have hquotient : (a % m + b + m * (a / m)) / m = a / m := by
      rw [Int.add_mul_ediv_left _ _ hm.ne', Int.ediv_eq_zero_of_lt (by omega) hlt, zero_add]
    rw [hsum] at hquotient
    exact hquotient

/-- What the first filter leaves in the sum is lost in the division. -/
theorem mean_eq_iff (hlo : IsLeast {x | x ∈ buf} lo) (hhi : IsGreatest {x | x ∈ buf} hi)
    (hn : 3 ≤ buf.length) :
    (buf.sum - max 0 hi - min 0 lo).tdiv (buf.length - 2) =
        (trimmed buf lo hi).sum.tdiv (buf.length - 2) ↔ ExtremesSeen buf lo hi := by
  have hm : (0 : Int) < buf.length - 2 := by omega
  have hle : lo ≤ hi := hlo.2 hhi.1
  have hsum := sum_trimmed hlo hhi (by omega)
  unfold ExtremesSeen
  rcases lt_or_ge 0 lo with hpos | hnonpos
  · -- the least sample stays in the sum
    have hnonneg : 0 ≤ (trimmed buf lo hi).sum :=
      List.sum_nonneg fun x hx => hpos.le.trans (hlo.2 (mem_of_mem_trimmed hx))
    have hadd : buf.sum - max 0 hi - min 0 lo = (trimmed buf lo hi).sum + lo := by omega
    rw [hadd, tdiv_add_eq_iff hnonneg hpos.le hm]
    constructor
    · intro h
      exact .inr (.inl ⟨hpos, h⟩)
    · intro h
      rcases h with h | h | h
      · omega
      · exact h.2
      · omega
  · rcases lt_or_ge hi 0 with hneg | hnonneg
    · -- the greatest sample stays in the sum
      have hnonpos' : 0 ≤ -(trimmed buf lo hi).sum := by
        have hsums := List.sum_le_card_nsmul (trimmed buf lo hi) 0
          fun x hx => (hhi.2 (mem_of_mem_trimmed hx)).trans hneg.le
        rw [nsmul_zero] at hsums
        omega
      have hadd : buf.sum - max 0 hi - min 0 lo = -(-(trimmed buf lo hi).sum + -hi) := by omega
      have hneg' : (trimmed buf lo hi).sum.tdiv (buf.length - 2) =
          -(-(trimmed buf lo hi).sum).tdiv (buf.length - 2) := by
        rw [Int.neg_tdiv, neg_neg]
      rw [hadd, hneg', Int.neg_tdiv, neg_inj, tdiv_add_eq_iff hnonpos' (by omega) hm]
      constructor
      · intro h
        exact .inr (.inr ⟨hneg, h⟩)
      · intro h
        rcases h with h | h | h
        · omega
        · omega
        · exact h.2
    · have hadd : buf.sum - max 0 hi - min 0 lo = (trimmed buf lo hi).sum := by omega
      rw [hadd]
      constructor
      · intro _
        exact .inl ⟨hnonpos, hnonneg⟩
      · intro _
        exact rfl

/-- **The two filters agree** if the first one sees both extremes. -/
theorem filtersAgree_iff (hn : 3 ≤ buf.length) (hrange : SumsInRange buf)
    (hlo : IsLeast {x | x ∈ buf} lo) (hhi : IsGreatest {x | x ∈ buf} hi) :
    FiltersAgree buf lo hi ↔ ExtremesSeen buf lo hi := by
  obtain ⟨a, ha⟩ := Option.isSome_iff_exists.mp hrange.1
  obtain ⟨⟨b, sorted⟩, hb⟩ := Option.isSome_iff_exists.mp hrange.2
  have heq := AvrValueFiter_eq hlo hhi ha
  have heq' := Filter_eq hlo hhi (by omega) hb
  rw [← mean_eq_iff hlo hhi hn, ← heq, ← heq']
  constructor
  · rintro ⟨v, hv, hv', -, -⟩
    rw [ha] at hv
    rw [hb] at hv'
    rw [Option.some.inj hv]
    exact (Option.some.inj hv').symm
  · intro hab
    obtain ⟨hge, hle⟩ := trimmed_mean_between hlo hhi hn
    rw [← heq'] at hge hle
    refine ⟨b, ?_, ?_, heq', hge, hle⟩
    · rw [ha, hab]
    · rw [hb]
      rfl

/-- Samples around zero. -/
theorem filtersAgree_bothSigns :
    FiltersAgree [5, -3, 8, 0, -7] (-7) 8 ↔ ExtremesSeen [5, -3, 8, 0, -7] (-7) 8 :=
  filtersAgree_iff (by decide) (by decide) ⟨by decide, by simp [lowerBounds]⟩
    ⟨by decide, by simp [upperBounds]⟩

/-- Three equal samples: the least is not left out, and the mean is twice what they are. -/
theorem filters_differ :
    ¬ ∀ (buf : List Int) (lo hi : Int), 3 ≤ buf.length → SumsInRange buf →
      IsLeast {x | x ∈ buf} lo → IsGreatest {x | x ∈ buf} hi → FiltersAgree buf lo hi := by
  intro h
  have hagree := h [10, 10, 10] 10 10 (by decide) (by decide)
    ⟨by decide, by simp [lowerBounds]⟩ ⟨by decide, by simp [upperBounds]⟩
  obtain ⟨v, hv, hv', -⟩ := hagree
  have hfirst : AvrValueFiter [10, 10, 10] = some 20 := by decide
  have hsecond : (Filter [10, 10, 10]).map Prod.fst = some 10 := by decide
  rw [hfirst] at hv
  rw [hsecond] at hv'
  exact absurd ((Option.some.inj hv).trans (Option.some.inj hv').symm) (by decide)

end Ptpd.Outliers
