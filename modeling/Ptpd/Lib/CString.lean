import Mathlib.Data.List.TakeWhile
import Ptpd.Lib.Decimal

/-! # Strings that end with a zero octet

    The functions of `string.h` and `stdlib.h` over the octets in reach, which need
    not hold a zero. `none` is the result of reading behind them.
-/

namespace CString

/-! ## Search -/

def strlen : List UInt8 → Option Nat
  | [] => none
  | c :: p => if c = 0 then some 0 else (strlen p).map (· + 1)

/-- Inner `none`: the string ends before. -/
def strstr (s : List UInt8) : List UInt8 → Option (Option (List UInt8))
  | [] => none
  | c :: p => if s <+: c :: p then some (some (c :: p)) else if c = 0 then some none else strstr s p

/-- The first `s` in the octets, which are `pre` before it and `post` behind. -/
structure First (s p pre post : List UInt8) : Prop where
  split : p = pre ++ (s ++ post)
  first : ∀ k < pre.length, ¬ s <+: p.drop k

/-- `s` begins before the string ends. -/
def InString (s p : List UInt8) : Prop := ∃ pre post, p = pre ++ (s ++ post) ∧ 0 ∉ pre

variable {s p pre post q : List UInt8}

theorem strlen_eq_none (h : 0 ∉ p) : strlen p = none := by
  induction p with
  | nil => rfl
  | cons c p ih =>
    obtain ⟨hc, hp⟩ := List.ne_and_not_mem_of_not_mem_cons h
    rw [strlen, if_neg hc.symm, ih hp]
    rfl

/-- There is one first place. -/
theorem First.unique {pre' post' : List UInt8} (h : First s p pre post) (h' : First s p pre' post') :
    pre' = pre ∧ post' = post := by
  have hplace : ∀ {a b a' b' : List UInt8}, First s p a b → First s p a' b' → a'.length ≤ a.length := by
    intro a b a' b' ha ha'
    by_contra hlt
    refine ha'.first a.length (not_le.mp hlt) ?_
    rw [ha.split, List.drop_left]
    exact List.prefix_append s b
  have hlength : pre.length = pre'.length := le_antisymm (hplace h' h) (hplace h h')
  have heq : pre ++ (s ++ post) = pre' ++ (s ++ post') := h.split.symm.trans h'.split
  obtain ⟨hpre, hrest⟩ := List.append_inj heq hlength
  exact ⟨hpre.symm, (List.append_cancel_left hrest).symm⟩

/-- The search ends with the string. -/
theorem strstr_ne_none (h : 0 ∈ p) : strstr s p ≠ none := by
  induction p with
  | nil => exact absurd h List.not_mem_nil
  | cons c p ih =>
    rw [strstr]
    split
    · exact Option.some_ne_none _
    · split
      · exact Option.some_ne_none _
      · rename_i hc
        rcases List.mem_cons.mp h with heq | hp
        · exact absurd heq.symm hc
        · exact ih hp

/-- What is found is the first place. -/
theorem First.of_strstr (h : strstr s p = some (some q)) :
    ∃ pre post, First s p pre post ∧ 0 ∉ pre ∧ q = s ++ post := by
  induction p with
  | nil => exact absurd h (Option.some_ne_none _).symm
  | cons c p ih =>
    rw [strstr] at h
    by_cases hs : s <+: c :: p
    · rw [if_pos hs] at h
      obtain ⟨post, hpost⟩ := hs
      refine ⟨[], post, ⟨hpost.symm, fun k hk => absurd hk (Nat.not_lt_zero k)⟩, List.not_mem_nil, ?_⟩
      rw [← Option.some.inj (Option.some.inj h), hpost]
    · rw [if_neg hs] at h
      by_cases hc : c = 0
      · rw [if_pos hc] at h
        exact absurd (Option.some.inj h).symm (Option.some_ne_none _)
      · rw [if_neg hc] at h
        obtain ⟨pre, post, hfirst, hpre, hq⟩ := ih h
        refine ⟨c :: pre, post, ⟨by rw [hfirst.split]; rfl, fun k hk => ?_⟩, ?_, hq⟩
        · -- the place just looked at is no match, and none of the later ones is
          match k with
          | 0 => exact hs
          | k + 1 => exact hfirst.first k (Nat.lt_of_succ_lt_succ hk)
        · exact List.not_mem_cons_of_ne_of_not_mem (Ne.symm hc) hpre

/-- Where the search gives up, the string ends before any `s`. -/
theorem not_inString_of_strstr (h : strstr s p = some none) : 0 ∈ p ∧ ¬ InString s p := by
  induction p with
  | nil => exact absurd h (Option.some_ne_none _).symm
  | cons c p ih =>
    rw [strstr] at h
    by_cases hfront : s <+: c :: p
    · rw [if_pos hfront] at h
      exact absurd (Option.some.inj h) (Option.some_ne_none _)
    · rw [if_neg hfront] at h
      have hnil : ∀ post : List UInt8, c :: p ≠ [] ++ (s ++ post) := fun post heq =>
        hfront ⟨post, heq.symm⟩
      by_cases hc : c = 0
      · -- the string ends here, so only the empty front is left
        refine ⟨List.mem_cons.mpr (.inl hc.symm), ?_⟩
        rintro ⟨pre, post, hsplit, hpre⟩
        match pre with
        | [] => exact hnil post hsplit
        | d :: pre =>
          obtain ⟨rfl, -⟩ := List.cons.inj hsplit
          exact (List.ne_and_not_mem_of_not_mem_cons hpre).1 hc.symm
      · rw [if_neg hc] at h
        obtain ⟨hmem, hnot⟩ := ih h
        refine ⟨List.mem_cons.mpr (.inr hmem), ?_⟩
        rintro ⟨pre, post, hsplit, hpre⟩
        match pre with
        | [] => exact hnil post hsplit
        | d :: pre =>
          obtain ⟨rfl, hp⟩ := List.cons.inj hsplit
          exact hnot ⟨pre, post, hp, (List.ne_and_not_mem_of_not_mem_cons hpre).2⟩

/-- The first place in the string is found. -/
theorem First.strstr (h : First s p pre post) (hpre : 0 ∉ pre) (hp : 0 ∈ p) :
    strstr s p = some (some (s ++ post)) := by
  match hresult : CString.strstr s p with
  | none => exact absurd hresult (strstr_ne_none hp)
  | some none => exact absurd ⟨pre, post, h.split, hpre⟩ (not_inString_of_strstr hresult).2
  | some (some q) =>
    obtain ⟨pre', post', hfirst, -, rfl⟩ := First.of_strstr hresult
    rw [(h.unique hfirst).2]

/-- So is any place. -/
theorem InString.strstr (h : InString s p) (hp : 0 ∈ p) :
    ∃ q, strstr s p = some (some q) := by
  match hresult : CString.strstr s p with
  | none => exact absurd hresult (strstr_ne_none hp)
  | some none => exact absurd h (not_inString_of_strstr hresult).2
  | some (some q) => exact ⟨q, rfl⟩

/-- A first place behind the end of the string is not found. -/
theorem First.not_inString (h : First s p pre post) (hpre : 0 ∈ pre) : ¬ InString s p := by
  rintro ⟨pre', post', hsplit, hpre'⟩
  have hlength : pre.length ≤ pre'.length := by
    by_contra hlt
    refine h.first pre'.length (not_le.mp hlt) ?_
    rw [hsplit, List.drop_left]
    exact List.prefix_append s post'
  have hfront : pre <+: pre' := by
    refine List.prefix_of_prefix_length_le (List.prefix_append pre (s ++ post)) ?_ hlength
    rw [← h.split, hsplit]
    exact List.prefix_append pre' _
  exact hpre' (hfront.subset hpre)

theorem strstr_of_not_inString (hp : 0 ∈ p) (h : ¬ InString s p) :
    strstr s p = some none := by
  match hresult : strstr s p with
  | none => exact absurd hresult (strstr_ne_none hp)
  | some none => rfl
  | some (some q) =>
    obtain ⟨pre, post, hfirst, hpre, -⟩ := First.of_strstr hresult
    exact absurd ⟨pre, post, hfirst.split, hpre⟩ h

/-! ## Numbers -/

def isspace (c : UInt8) : Bool := c = 32 ∨ (9 ≤ c ∧ c ≤ 13)

def isdigit (c : UInt8) : Bool := 48 ≤ c ∧ c ≤ 57

/-- The number that the digits at the beginning make. -/
def digitsValue (s : List UInt8) : Nat :=
  (s.takeWhile isdigit).foldl (fun n c => 10 * n + (c.toNat - 48)) 0

/-- Of numbers that fit in an `int`. -/
def atoi (s : List UInt8) : Int :=
  match s.dropWhile isspace with
  | [] => 0
  | c :: s =>
    if c = 45 then -digitsValue s
    else if c = 43 then digitsValue s
    else digitsValue (c :: s)

theorem isdigit_octet (d : Fin 10) : isdigit (Decimal.octet d) = true := by
  revert d
  decide

theorem takeWhile_text (ds : List (Fin 10)) :
    (Decimal.text ds).takeWhile isdigit = Decimal.text ds := by
  apply List.takeWhile_eq_self_iff.mpr
  intro c hc
  obtain ⟨d, -, rfl⟩ := List.mem_map.mp hc
  exact isdigit_octet d

theorem digitsValue_text (ds : List (Fin 10)) : digitsValue (Decimal.text ds) = Decimal.value ds := by
  unfold digitsValue
  rw [takeWhile_text]
  induction ds using List.reverseRecOn with
  | nil => rfl
  | append_singleton ds d ih =>
    have htext : Decimal.text (ds ++ [d]) = Decimal.text ds ++ [Decimal.octet d] := List.map_append
    rw [htext, List.foldl_append, ih, Decimal.value_concat, List.foldl_cons, List.foldl_nil,
      Decimal.octet_toNat, Nat.add_sub_cancel_left]

/-- A number that is written as digits is read. -/
theorem atoi_text {ds : List (Fin 10)} (h : ds ≠ []) : atoi (Decimal.text ds) = Decimal.value ds := by
  have hfirst : ∀ d : Fin 10, isspace (Decimal.octet d) = false ∧ Decimal.octet d ≠ 45 ∧
      Decimal.octet d ≠ 43 := by decide
  match ds with
  | [] => exact absurd rfl h
  | d :: ds =>
    obtain ⟨hspace, hminus, hplus⟩ := hfirst d
    have hdrop : (Decimal.text (d :: ds)).dropWhile isspace = Decimal.text (d :: ds) := by
      show (Decimal.octet d :: Decimal.text ds).dropWhile isspace = _
      rw [List.dropWhile_cons_of_neg (by rw [hspace]; exact Bool.false_ne_true)]
      rfl
    unfold atoi
    rw [hdrop]
    show (if Decimal.octet d = 45 then _ else if Decimal.octet d = 43 then _ else
      (digitsValue (Decimal.text (d :: ds)) : Int)) = _
    rw [if_neg hminus, if_neg hplus, digitsValue_text]

end CString
