import Mathlib.Data.Nat.Digits.Lemmas

/-! # Decimal digits

    Digits as they are written, the most significant first, their number and their
    octets in ASCII.
-/

namespace Decimal

/-! ## Numbers -/

instance neZero_ten : NeZero (9 + 1) := ⟨Nat.succ_ne_zero 9⟩

def value (ds : List (Fin 10)) : Nat := Nat.ofDigits 10 (ds.reverse.map Fin.val)

variable {ds : List (Fin 10)}

@[simp] theorem value_nil : value [] = 0 := rfl

/-- One more digit at the end. -/
@[simp] theorem value_concat (ds : List (Fin 10)) (d : Fin 10) :
    value (ds ++ [d]) = 10 * value ds + d := by
  unfold value
  rw [List.reverse_append, List.reverse_singleton, List.singleton_append, List.map_cons,
    Nat.ofDigits_cons]
  exact Nat.add_comm _ _

theorem value_lt (ds : List (Fin 10)) : value ds < 10 ^ ds.length := by
  have hlt := Nat.ofDigits_lt_base_pow_length (b := 10) (l := ds.reverse.map Fin.val) (by decide)
    (by
      intro x hx
      obtain ⟨d, -, rfl⟩ := List.mem_map.mp hx
      exact d.isLt)
  rw [List.length_map, List.length_reverse] at hlt
  exact hlt

theorem value_take_succ {i : Nat} (h : i < ds.length) :
    value (ds.take (i + 1)) = 10 * value (ds.take i) + ds[i] := by
  rw [List.take_succ_eq_append_getElem h, value_concat]

/-! ## Octets -/

/-- The digit in ASCII. -/
def octet (d : Fin 10) : UInt8 := .ofNat (48 + d)

def text (ds : List (Fin 10)) : List UInt8 := ds.map octet

theorem octet_toNat (d : Fin 10) : (octet d).toNat = 48 + d := by
  have hd := d.isLt
  exact UInt8.toNat_ofNat_of_lt' (show 48 + d.val < 256 by omega)

@[simp] theorem text_length (ds : List (Fin 10)) : (text ds).length = ds.length := List.length_map _

end Decimal
