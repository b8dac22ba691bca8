import Ptpd.Lib.NorFlash
import Ptpd.Lib.Tiling
import Ptpd.Lwip.Mem

/-! # The blocks of the heap

    The structs of the heap are a doubly linked list of blocks that cover it. A store to the
    structs of a few neighbouring blocks replaces these and leaves the others alone.
-/

namespace Ptpd

open Octets Tiling
open NorFlash (get16_put16)

namespace Mem

variable {ram ram' : Buf} {mem mem' n : Nat}

/-! ## Structs -/

/-- A struct is read from five octets. -/
theorem struct_congr (h : ∀ i, mem ≤ i → i < mem + 5 → ram' i = ram i) :
    next ram' mem = next ram mem ∧ prev ram' mem = prev ram mem ∧ used ram' mem = used ram mem := by
  have hnext : get16 ram' mem = get16 ram mem :=
    get16_congr fun i hlo hhi => h i hlo (by omega)
  have hprev : get16 ram' (mem + 2) = get16 ram (mem + 2) :=
    get16_congr fun i hlo hhi => h i (by omega) (by omega)
  unfold next prev used
  rw [hnext, hprev, h (mem + 4) (by omega) (by omega)]
  exact ⟨rfl, rfl, rfl⟩

theorem setNext_other {i : Nat} (h : i < mem ∨ mem + 2 ≤ i) : setNext mem n ram i = ram i :=
  put16_other _ _ h

theorem setPrev_other {i : Nat} (h : i < mem + 2 ∨ mem + 4 ≤ i) : setPrev mem n ram i = ram i :=
  put16_other _ _ (by omega)

theorem setUsed_other {v : UInt8} {i : Nat} (h : i ≠ mem + 4) : setUsed mem v ram i = ram i :=
  put8_other _ _ h

theorem next_setNext (h : n < 65536) : next (setNext mem n ram) mem = n := by
  unfold next setNext
  rw [get16_put16]
  exact UInt16.toNat_ofNat_of_lt' h

theorem prev_setPrev (h : n < 65536) : prev (setPrev mem n ram) mem = n := by
  unfold prev setPrev
  rw [get16_put16]
  exact UInt16.toNat_ofNat_of_lt' h

@[simp] theorem used_setUsed (v : UInt8) : used (setUsed mem v ram) mem = v := put8_same _ _ _

theorem next_setNext_other (h : mem' + 2 ≤ mem ∨ mem + 2 ≤ mem') :
    next (setNext mem n ram) mem' = next ram mem' := by
  unfold next
  rw [get16_congr fun i hlo hhi => setNext_other (by omega)]

theorem next_setPrev (h : mem' ≤ mem ∨ mem + 4 ≤ mem') :
    next (setPrev mem n ram) mem' = next ram mem' := by
  unfold next
  rw [get16_congr fun i hlo hhi => setPrev_other (by omega)]

theorem next_setUsed {v : UInt8} (h : mem' ≤ mem + 2 ∨ mem + 5 ≤ mem') :
    next (setUsed mem v ram) mem' = next ram mem' := by
  unfold next
  rw [get16_congr fun i hlo hhi => setUsed_other (by omega)]

theorem prev_setNext (h : mem' + 4 ≤ mem ∨ mem ≤ mem') :
    prev (setNext mem n ram) mem' = prev ram mem' := by
  unfold prev
  rw [get16_congr fun i hlo hhi => setNext_other (by omega)]

theorem prev_setPrev_other (h : mem' + 2 ≤ mem ∨ mem + 2 ≤ mem') :
    prev (setPrev mem n ram) mem' = prev ram mem' := by
  unfold prev
  rw [get16_congr fun i hlo hhi => setPrev_other (by omega)]

theorem prev_setUsed {v : UInt8} (h : mem' ≤ mem ∨ mem + 5 ≤ mem') :
    prev (setUsed mem v ram) mem' = prev ram mem' := by
  unfold prev
  rw [get16_congr fun i hlo hhi => setUsed_other (by omega)]

theorem used_setNext (h : mem' + 4 < mem ∨ mem ≤ mem') :
    used (setNext mem n ram) mem' = used ram mem' := setNext_other (by omega)

theorem used_setPrev (h : mem' + 2 < mem ∨ mem ≤ mem') :
    used (setPrev mem n ram) mem' = used ram mem' := setPrev_other (by omega)

theorem used_setUsed_other {v : UInt8} (h : mem' ≠ mem) :
    used (setUsed mem v ram) mem' = used ram mem' := setUsed_other (by omega)

/-! ## The list -/

/-- The structs of the blocks, the first of which links back to `back`. -/
def Linked (ram : Buf) : Nat → List Tile → Prop
  | _, [] => True
  | back, t :: ts =>
    (next ram t.start = t.stop ∧ prev ram t.start = back ∧ (used ram t.start ≠ 0 ↔ t.used)) ∧
      Linked ram t.start ts

def lastStart : Nat → List Tile → Nat
  | back, [] => back
  | _, t :: ts => lastStart t.start ts

variable {back back' s e : Nat} {t : Tile} {ts xs ys mid mid' : List Tile}

@[simp] theorem linked_nil : Linked ram back [] := trivial

@[simp] theorem linked_cons : Linked ram back (t :: ts) ↔
    (next ram t.start = t.stop ∧ prev ram t.start = back ∧ (used ram t.start ≠ 0 ↔ t.used)) ∧
      Linked ram t.start ts := Iff.rfl

@[simp] theorem lastStart_nil : lastStart back [] = back := rfl

@[simp] theorem lastStart_cons : lastStart back (t :: ts) = lastStart t.start ts := rfl

theorem lastStart_append : lastStart back (xs ++ ys) = lastStart (lastStart back xs) ys := by
  induction xs generalizing back with
  | nil => rfl
  | cons t xs ih => exact ih

theorem linked_append :
    Linked ram back (xs ++ ys) ↔ Linked ram back xs ∧ Linked ram (lastStart back xs) ys := by
  induction xs generalizing back with
  | nil => simp
  | cons t xs ih => simp [ih, and_assoc]

theorem Linked.congr (h : Linked ram back ts)
    (hsame : ∀ t ∈ ts, ∀ i, t.start ≤ i → i < t.start + 5 → ram' i = ram i) :
    Linked ram' back ts := by
  induction ts generalizing back with
  | nil => exact trivial
  | cons t ts ih =>
    obtain ⟨hstruct, hrest⟩ := h
    obtain ⟨hnext, hprev, hused⟩ := struct_congr (hsame t List.mem_cons_self)
    constructor
    · rw [hnext, hprev, hused]
      exact hstruct
    · exact ih hrest fun t ht => hsame t (List.mem_cons_of_mem _ ht)

/-- Only where the first block links back to has changed. -/
theorem Linked.relink {z : Nat} (h : Linked ram back ts) (htiles : Tiles 20 e ts z)
    (hsame : ∀ i, e ≤ i → i < e + 2 ∨ e + 4 ≤ i → ram' i = ram i)
    (hback : ts ≠ [] → prev ram' e = back') : Linked ram' back' ts := by
  cases ts with
  | nil => exact trivial
  | cons t ts =>
    obtain ⟨hstart, hleast, htiles⟩ := htiles
    obtain ⟨⟨hnext, -, hused⟩, hrest⟩ := h
    rw [linked_cons]
    rw [hstart] at hnext hused hrest ⊢
    refine ⟨⟨?_, hback (by simp), ?_⟩, ?_⟩
    · rw [← hnext]
      unfold next
      rw [get16_congr fun i hlo hhi => hsame i hlo (by omega)]
    · rw [← hused]
      unfold used
      rw [hsame _ (by omega) (by omega)]
    · apply hrest.congr
      intro u hu i hlo hhi
      have hbound := (htiles.mem hu).1
      exact hsame i (by omega) (by omega)

/-! ## The heap -/

/-- The blocks cover the heap, and `ram_end` stands behind them. -/
structure Shape (ram : Buf) (ts : List Tile) : Prop where
  tiles : Tiles 20 0 ts MEM_SIZE_ALIGNED
  aligned : ∀ t ∈ ts, t.start % 4 = 0 ∧ t.stop % 4 = 0
  linked : Linked ram 0 ts
  ram_end : used ram MEM_SIZE_ALIGNED ≠ 0

/-- A store between `s` and `e`, to the blocks there, and to the link back behind them. -/
theorem Shape.replace (mid mid' : List Tile) (h : Shape ram (xs ++ (mid ++ ys))) (hxs : Tiles 20 0 xs s)
    (hys : Tiles 20 e ys MEM_SIZE_ALIGNED) (hmid' : Tiles 20 s mid' e)
    (haligned : ∀ t ∈ mid', t.start % 4 = 0 ∧ t.stop % 4 = 0)
    (hlinked : Linked ram' (lastStart 0 xs) mid')
    (hsame : ∀ i, i < s ∨ e ≤ i → i < e + 2 ∨ e + 4 ≤ i → ram' i = ram i)
    (hback : e ≠ MEM_SIZE_ALIGNED → prev ram' e = lastStart s mid') (hne : mid' ≠ []) :
    Shape ram' (xs ++ (mid' ++ ys)) := by
  have hold := h.linked
  rw [linked_append, linked_append] at hold
  have hse := hmid'.le
  have hend := hys.le
  have hlast : lastStart (lastStart 0 xs) mid' = lastStart s mid' := by
    cases mid' with
    | nil => exact absurd rfl hne
    | cons t ts => rfl
  constructor
  · rw [tiles_append]
    refine ⟨s, hxs, ?_⟩
    rw [tiles_append]
    exact ⟨e, hmid', hys⟩
  · intro t ht
    simp only [List.mem_append] at ht
    obtain ht | ht | ht := ht
    · exact h.aligned t (List.mem_append_left _ ht)
    · exact haligned t ht
    · exact h.aligned t (List.mem_append_right _ (List.mem_append_right _ ht))
  · rw [linked_append, linked_append]
    refine ⟨?_, hlinked, ?_⟩
    · apply hold.1.congr
      intro t ht i hlo hhi
      have hbound := hxs.mem ht
      exact hsame i (by omega) (by omega)
    · apply hold.2.2.relink hys
      · intro i hlo hhi
        exact hsame i (by omega) hhi
      · intro hys'
        rw [hlast]
        apply hback
        rintro rfl
        cases ys with
        | nil => exact hys' rfl
        | cons t ts =>
          have hle := hys.2.2.le
          have hleast := hys.2.1
          omega
  · unfold used
    rw [hsame _ (by omega) (by omega)]
    exact h.ram_end

/-! ## Changes -/

/-- What is known about a block of the heap. -/
structure Block (ram : Buf) (xs : List Tile) (s e : Nat) (u : Bool) (ys : List Tile) : Prop where
  before : Tiles 20 0 xs s
  least : s + 20 ≤ e
  behind : Tiles 20 e ys MEM_SIZE_ALIGNED
  aligned : s % 4 = 0 ∧ e % 4 = 0
  next : next ram s = e
  prev : prev ram s = lastStart 0 xs
  used : used ram s ≠ 0 ↔ u
  linked : Linked ram s ys

theorem Shape.block {u : Bool} (h : Shape ram (xs ++ ⟨s, e, u⟩ :: ys)) : Block ram xs s e u ys := by
  have htiles := h.tiles
  have hlinked := h.linked
  rw [tiles_append] at htiles
  rw [linked_append] at hlinked
  obtain ⟨m, hxs, hstart, hleast, hys⟩ := htiles
  obtain ⟨-, ⟨hnext, hprev, hused⟩, hlinked⟩ := hlinked
  dsimp only at hstart hleast hys
  rw [← hstart] at hxs hleast
  exact ⟨hxs, hleast, hys, h.aligned ⟨s, e, u⟩ (by simp), hnext, hprev, hused, hlinked⟩

namespace Block

variable {u : Bool} (hb : Block ram xs s e u ys)
include hb

theorem stop_le : e ≤ MEM_SIZE_ALIGNED := hb.behind.le

/-- The block behind links back. -/
theorem linked_back (he : e ≠ MEM_SIZE_ALIGNED) : Mem.prev ram e = s := by
  have hlinked := hb.linked
  have hbehind := hb.behind
  cases ys with
  | nil => exact absurd hbehind he
  | cons t ts =>
    rw [← hbehind.1]
    exact hlinked.1.2.1

/-- A block is in its place only. -/
theorem not_mem (v : Bool) : ⟨s, e, v⟩ ∉ xs ∧ ⟨s, e, v⟩ ∉ ys := by
  have hleast := hb.least
  constructor
  · intro hmem
    have hbound := hb.before.mem hmem
    dsimp only at hbound
    omega
  · intro hmem
    have hbound := hb.behind.mem hmem
    dsimp only at hbound
    omega

end Block

/-- The mark of a block. -/
theorem Shape.mark {u : Bool} (h : Shape ram (xs ++ ⟨s, e, u⟩ :: ys)) (v : UInt8) :
    Shape (setUsed s v ram) (xs ++ ⟨s, e, v != 0⟩ :: ys) := by
  have hb := h.block
  have hleast := hb.least
  apply Shape.replace [⟨s, e, u⟩] [⟨s, e, v != 0⟩] h hb.before hb.behind
  · simp [hleast]
  · simpa using hb.aligned
  · simp [next_setUsed, prev_setUsed, hb.next, hb.prev]
  · intro i hi hi'
    exact setUsed_other (by omega)
  · intro he
    rw [prev_setUsed (by omega)]
    exact hb.linked_back he
  · simp

/-- The front of the blocks between `s` and `e` becomes one block, and the rest is unused. -/
theorem Shape.split {u : Bool} (h : Shape ram (xs ++ (mid ++ ys))) (hxs : Tiles 20 0 xs s)
    (hys : Tiles 20 e ys MEM_SIZE_ALIGNED) (hsm : s + 20 ≤ n) (hme : n + 20 ≤ e)
    (haligned : s % 4 = 0 ∧ n % 4 = 0 ∧ e % 4 = 0)
    (hfront : next ram' s = n ∧ prev ram' s = lastStart 0 xs ∧ (used ram' s ≠ 0 ↔ u))
    (hrest : next ram' n = e ∧ prev ram' n = s ∧ used ram' n = 0)
    (hsame : ∀ i, i < s ∨ e ≤ i → ram' i = ram i) :
    Shape (backLink n ram') (xs ++ ⟨s, n, u⟩ :: ⟨n, e, false⟩ :: ys) ∧
      ∀ i, i < e + 2 ∨ e + 4 ≤ i → backLink n ram' i = ram' i := by
  have hend := hys.le
  have hsize : MEM_SIZE_ALIGNED = 10240 := rfl
  have hback : backLink n ram' = if e ≠ MEM_SIZE_ALIGNED then setPrev e n ram' else ram' := by
    unfold backLink
    rw [hrest.1]
  have hother : ∀ i, i < e + 2 ∨ e + 4 ≤ i → backLink n ram' i = ram' i := by
    intro i hi
    rw [hback]
    split
    · exact setPrev_other hi
    · rfl
  refine ⟨?_, hother⟩
  have hsame₁ : ∀ i, s ≤ i → i < s + 5 → backLink n ram' i = ram' i :=
    fun i hlo hhi => hother i (by omega)
  have hsame₂ : ∀ i, n ≤ i → i < n + 5 → backLink n ram' i = ram' i :=
    fun i hlo hhi => hother i (by omega)
  obtain ⟨hnext, hprev, hused⟩ := struct_congr hsame₁
  obtain ⟨hnext', hprev', hused'⟩ := struct_congr hsame₂
  apply Shape.replace mid [⟨s, n, u⟩, ⟨n, e, false⟩] h hxs hys
  · simp [hsm, hme]
  · simp [haligned]
  · simp [hnext, hprev, hused, hnext', hprev', hused', hfront, hrest]
  · intro i hi hi'
    rw [hother i (by omega), hsame i hi]
  · intro he
    rw [hback, if_pos he]
    exact prev_setPrev (by omega)
  · simp

/-- A block and the one behind it become one. -/
theorem Shape.merge {u v : Bool} (h : Shape ram (xs ++ ⟨s, n, u⟩ :: ⟨n, e, v⟩ :: ys)) :
    Shape (setPrev e s (setNext s e ram)) (xs ++ ⟨s, e, u⟩ :: ys) := by
  have hb := h.block
  have hb' : Block ram (xs ++ [⟨s, n, u⟩]) n e v ys := by
    apply Shape.block
    rw [List.append_assoc]
    exact h
  have hleast := hb.least
  have hleast' := hb'.least
  have hend := hb'.stop_le
  have hsize : MEM_SIZE_ALIGNED = 10240 := rfl
  apply Shape.replace [⟨s, n, u⟩, ⟨n, e, v⟩] [⟨s, e, u⟩] h hb.before hb'.behind
  · simp
    omega
  · simp [hb.aligned, hb'.aligned]
  · rw [linked_cons]
    dsimp only
    rw [next_setPrev (by omega), next_setNext (by omega), prev_setPrev_other (by omega),
      prev_setNext (by omega), used_setPrev (by omega), used_setNext (by omega)]
    exact ⟨⟨rfl, hb.prev, hb.used⟩, trivial⟩
  · intro i hi hi'
    rw [setPrev_other (by omega), setNext_other (by omega)]
  · intro he
    exact prev_setPrev (by omega)
  · simp

/-! ## Loops -/

theorem length_lt_offsets (h : Tiles 20 s ts MEM_SIZE_ALIGNED) : ts.length < MemHeap.offsets := by
  have hle := h.length_le
  have hsize : MEM_SIZE_ALIGNED = 10240 := rfl
  have hoffsets : MemHeap.offsets = 65536 := rfl
  omega

theorem userData_eq (hnext : next ram s = e) (hse : s + 8 ≤ e) : userData ram s = e - (s + 8) := by
  have hlt := (get16 ram s).toNat_lt
  unfold userData
  unfold next at hnext ⊢
  rw [hnext] at hlt ⊢
  have hsize : SIZEOF_STRUCT_MEM = 8 := rfl
  omega

/-- The scan finds the first unused block that is large enough. -/
theorem scan_eq {size fuel : Nat} (htiles : Tiles 20 s ts MEM_SIZE_ALIGNED)
    (hlinked : Linked ram back ts) (hfuel : ts.length < fuel) :
    MemHeap.scan ram size fuel s = some ((firstOf (8 + size) ts).map Tile.start) := by
  induction ts generalizing s fuel back with
  | nil =>
    cases fuel with
    | zero => cases hfuel
    | succ fuel =>
      rw [tiles_nil] at htiles
      rw [MemHeap.scan, if_neg (by omega)]
      rfl
  | cons t ts ih =>
    cases fuel with
    | zero => cases hfuel
    | succ fuel =>
      obtain ⟨⟨hnext, -, hused⟩, hlinked⟩ := hlinked
      have hall := htiles
      obtain ⟨hstart, hleast, htiles⟩ := htiles
      rw [hstart] at hnext hused hlinked
      have hend := htiles.le
      rw [MemHeap.scan]
      by_cases hroom : s < MEM_SIZE_ALIGNED - size
      · rw [if_pos hroom, userData_eq hnext (by omega), hnext,
          ih htiles hlinked (by simpa using hfuel)]
        unfold firstOf
        by_cases hfits : used ram s = 0 ∧ t.stop - (s + 8) ≥ size
        · have hfree : t.used = false := by
            rw [← Bool.not_eq_true, ← hused]
            simp [hfits.1]
          rw [if_pos hfits, List.find?_cons_of_pos (by simp [hfree]; omega), Option.map_some, hstart]
        · rw [if_neg hfits, List.find?_cons_of_neg]
          simp only [Bool.and_eq_true, Bool.not_eq_true', decide_eq_true_eq, not_and]
          intro hfree hsize
          rw [← Bool.not_eq_true, ← hused, not_not] at hfree
          exact hfits ⟨hfree, by omega⟩
      · -- no block from here on has room
        rw [if_neg hroom, firstOf_eq_none.mpr]
        · rfl
        · intro u hu _
          have hbound := hall.mem hu
          omega

/-- `lfree` goes on to the first unused block. -/
theorem nextFree_eq {fuel : Nat} (htiles : Tiles 20 s ts MEM_SIZE_ALIGNED)
    (hlinked : Linked ram back ts) (hfuel : ts.length < fuel) :
    MemHeap.nextFree ram fuel s = some (lowest ts MEM_SIZE_ALIGNED) := by
  induction ts generalizing s fuel back with
  | nil =>
    cases fuel with
    | zero => cases hfuel
    | succ fuel =>
      rw [tiles_nil] at htiles
      rw [MemHeap.nextFree, if_neg fun h => h.2 htiles, htiles]
      rfl
  | cons t ts ih =>
    cases fuel with
    | zero => cases hfuel
    | succ fuel =>
      obtain ⟨⟨hnext, -, hused⟩, hlinked⟩ := hlinked
      obtain ⟨hstart, hleast, htiles⟩ := htiles
      rw [hstart] at hnext hused hlinked
      have hend := htiles.le
      rw [MemHeap.nextFree, lowest_cons]
      by_cases hu : t.used
      · rw [if_pos ⟨hused.mpr hu, by omega⟩, if_pos hu, hnext]
        exact ih htiles hlinked (by simpa using hfuel)
      · rw [if_neg fun h => hu (hused.mp h.1), if_neg hu, hstart]

end Mem

end Ptpd
