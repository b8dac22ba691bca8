import Ptpd.Lwip.Allocation

/-! # What the heap hands out

    The areas that `mem_malloc` has handed out stay apart and keep what is stored in them,
    whatever is allocated, freed and shrunk in between.
-/

namespace Ptpd

open Octets Tiling Mem MemHeap

/-! ## Runs -/

/-- What the users hold: at each pointer that they have, the data of the area. -/
abbrev Areas : Type := Nat → Option (List UInt8)

def Areas.set (areas : Areas) (p : Nat) (data : Option (List UInt8)) : Areas :=
  fun q => if q = p then data else areas q

/-- The octets of an area. -/
def MemHeap.area (h : MemHeap) (p length : Nat) : List UInt8 := take length fun i => h.ram (p + i)

/-- Since `mem_init` the users have called the three functions, each with a pointer that it has,
    and stored into their own areas. Nobody asks for more than can be aligned in 16 bits. -/
inductive HeapRun : MemHeap → Areas → Prop where
  | mem_init (ram : Buf) : HeapRun (mem_init ram) fun _ => none
  | mem_malloc {h h' : MemHeap} {areas : Areas} {size : UInt16} {p : Nat} : HeapRun h areas →
      size.toNat ≤ 65532 → MemHeap.mem_malloc size h = some (some p, h') →
      HeapRun h' (areas.set p (some (h'.area p size.toNat)))
  | failed {h h' : MemHeap} {areas : Areas} {size : UInt16} : HeapRun h areas →
      size.toNat ≤ 65532 → MemHeap.mem_malloc size h = some (none, h') → HeapRun h' areas
  | mem_free {h : MemHeap} {areas : Areas} {p : Nat} {data : List UInt8} : HeapRun h areas →
      areas p = some data → HeapRun (MemHeap.mem_free (some p) h) (areas.set p none)
  | mem_realloc {h : MemHeap} {areas : Areas} {p : Nat} {data : List UInt8} {newsize : UInt16} :
      HeapRun h areas → areas p = some data → newsize.toNat ≤ data.length →
      HeapRun (MemHeap.mem_realloc p newsize h).2 (areas.set p (some (data.take newsize.toNat)))
  | store {h : MemHeap} {areas : Areas} {p i : Nat} {data : List UInt8} (v : UInt8) :
      HeapRun h areas → areas p = some data → i < data.length →
      HeapRun { h with ram := put8 h.ram (p + i) v } (areas.set p (some (data.set i v)))

/-- Each area is in a used block, and each used block has an area in it. -/
structure Held (h : MemHeap) (ts : List Tile) (areas : Areas) : Prop where
  holds : h.Holds ts
  area : ∀ p data, areas p = some data → ∃ t ∈ ts, t.used ∧ p = t.start + 8 ∧
    p + data.length ≤ t.stop ∧ t.stop < p + data.length + 32 ∧ h.area p data.length = data
  owner : ∀ t ∈ ts, t.used → areas (t.start + 8) ≠ none

namespace Held

variable {h h' : MemHeap} {ts ts' : List Tile} {areas : Areas} {t u : Tile} {p q : Nat}
  {data : List UInt8}

/-- What is stored in an area depends on its octets only. -/
theorem area_congr {length : Nat} (hsame : ∀ i, p ≤ i → i < p + length → h'.ram i = h.ram i) :
    h'.area p length = h.area p length := by
  unfold MemHeap.area
  rw [take_eq_take]
  intro i hi
  exact hsame (p + i) (by omega) (by omega)

theorem start_ne (hheld : Held h ts areas) (ht : t ∈ ts) (hu : u ∈ ts) (hne : u ≠ t) :
    u.start ≠ t.start := by
  have htiles := hheld.holds.shape.tiles
  have ht' := htiles.mem ht
  have hu' := htiles.mem hu
  obtain heq | hapart | hapart := htiles.apart hu ht
  · exact absurd heq hne
  · omega
  · omega

/-- The areas of the blocks that have stayed. -/
theorem stay (hheld : Held h ts areas) (hkeeps : KeepsData h.ram h'.ram ts') (hp : areas p = some data)
    (hstay : ∀ u ∈ ts, u.used → u.start + 8 = p → u ∈ ts') : ∃ t ∈ ts', t.used ∧ p = t.start + 8 ∧
      p + data.length ≤ t.stop ∧ t.stop < p + data.length + 32 ∧ h'.area p data.length = data := by
  obtain ⟨t, ht, hused, rfl, hlong, hshort, hdata⟩ := hheld.area p data hp
  have ht' := hstay t ht hused rfl
  refine ⟨t, ht', hused, rfl, hlong, hshort, ?_⟩
  rw [← hdata]
  have hlength : (h.area (t.start + 8) data.length).length = data.length := take_length _ _
  rw [hlength]
  exact area_congr fun i hlo hhi => hkeeps t ht' hused i hlo (by omega)

/-- A block is replaced by one that holds an area. -/
theorem replace (hheld : Held h ts areas) (hholds : h'.Holds ts') {m : Nat}
    (hblocks : ∀ u : Tile, u.used → (u ∈ ts' ↔ u = ⟨t.start, m, true⟩ ∨ u ∈ ts ∧ u ≠ t))
    (hkeeps : KeepsData h.ram h'.ram ts')
    (hlong : t.start + 8 + data.length ≤ m) (hshort : m < t.start + 8 + data.length + 32)
    (hdata : h'.area (t.start + 8) data.length = data) :
    Held h' ts' (areas.set (t.start + 8) (some data)) := by
  constructor
  · exact hholds
  · intro q data' hq
    unfold Areas.set at hq
    split at hq
    · rename_i heq
      cases hq
      rw [heq]
      exact ⟨⟨t.start, m, true⟩, (hblocks _ rfl).mpr (.inl rfl), rfl, rfl, hlong, hshort, hdata⟩
    · rename_i hne
      apply hheld.stay hkeeps hq
      intro u hu hused hstart
      refine (hblocks u hused).mpr (.inr ⟨hu, ?_⟩)
      rintro rfl
      exact hne hstart.symm
  · intro u hu hused
    unfold Areas.set
    split
    · exact Option.some_ne_none _
    · rename_i hne
      cases (hblocks u hused).mp hu with
      | inl heq =>
        rw [heq] at hne
        exact absurd rfl hne
      | inr hmem => exact hheld.owner u hmem.1 hused

theorem mem_init (ram : Buf) :
    Held (MemHeap.mem_init ram) [⟨0, MEM_SIZE_ALIGNED, false⟩] fun _ => none := by
  constructor
  · exact mem_init_holds ram
  · intro p data hp
    cases hp
  · intro t ht hused
    rw [List.mem_singleton] at ht
    rw [ht] at hused
    cases hused

/-- A call that has no area to give changes nothing. -/
theorem mem_malloc_cases (hheld : Held h ts areas) {size : UInt16} (hsize : size.toNat ≤ 65532) :
    MemHeap.mem_malloc size h = some (none, h) ∨
      ∃ t ∈ ts, t.used = false ∧ ∃ m h' ts', MemHeap.mem_malloc size h = some (some (t.start + 8), h') ∧
        h'.Holds ts' ∧ (∀ u : Tile, u.used → (u ∈ ts' ↔ u = ⟨t.start, m, true⟩ ∨ u ∈ ts ∧ u ≠ t)) ∧
        t.start + 8 + size.toNat ≤ m ∧ m < t.start + 8 + size.toNat + 32 ∧
        KeepsData h.ram h'.ram ts' := by
  by_cases hpos : size = 0
  · left
    unfold MemHeap.mem_malloc
    rw [if_pos hpos]
  · cases hfirst : firstOf (8 + alignedSize size) ts with
    | none => exact .inl (mem_malloc_none hheld.holds hpos hfirst)
    | some t =>
      obtain ⟨hfree, -, xs, ys, hsplit⟩ := firstOf_eq_some hfirst
      exact .inr ⟨t, by simp [hsplit], hfree, mem_malloc_some hheld.holds hpos hsize hfirst⟩

/-- An area that nobody has. -/
theorem fresh (hheld : Held h ts areas) (ht : t ∈ ts) (hfree : t.used = false) :
    areas (t.start + 8) = none := by
  rw [Option.eq_none_iff_forall_ne_some]
  intro data hp
  obtain ⟨u, hu, hused, hstart, -⟩ := hheld.area _ _ hp
  have hne : u ≠ t := by
    rintro rfl
    rw [hfree] at hused
    cases hused
  have hstarts := hheld.start_ne ht hu hne
  omega

theorem mem_malloc (hheld : Held h ts areas) {size : UInt16} (hsize : size.toNat ≤ 65532)
    (hcall : MemHeap.mem_malloc size h = some (some p, h')) :
    ∃ ts', Held h' ts' (areas.set p (some (h'.area p size.toNat))) := by
  obtain hnone | ⟨t, ht, hfree, m, h₁, ts', hsome, hholds, hblocks, hlong, hshort, hkeeps⟩ :=
    hheld.mem_malloc_cases hsize
  · rw [hnone] at hcall
    cases hcall
  · rw [hsome] at hcall
    obtain ⟨hgot, rfl⟩ := Prod.mk.inj (Option.some.inj hcall)
    obtain rfl := Option.some.inj hgot
    have hlength : (h₁.area (t.start + 8) size.toNat).length = size.toNat := take_length _ _
    refine ⟨ts', hheld.replace hholds hblocks hkeeps ?_ ?_ ?_⟩
    · rw [hlength]
      exact hlong
    · rw [hlength]
      exact hshort
    · rw [hlength]

theorem mem_free (hheld : Held h ts areas) (hp : areas p = some data) :
    ∃ ts', Held (MemHeap.mem_free (some p) h) ts' (areas.set p none) := by
  obtain ⟨t, ht, hused, rfl, -, -, -⟩ := hheld.area p data hp
  obtain ⟨ts', hholds, hblocks, hkeeps⟩ := mem_free_spec hheld.holds ht hused
  refine ⟨ts', hholds, ?_, ?_⟩
  · intro q data hq
    unfold Areas.set at hq
    split at hq
    · cases hq
    · rename_i hne
      apply hheld.stay hkeeps hq
      intro u hu hused hstart
      refine (hblocks u hused).mpr ⟨hu, ?_⟩
      rintro rfl
      exact hne hstart.symm
  · intro u hu hused
    obtain ⟨hmem, hne⟩ := (hblocks u hused).mp hu
    have hstart := hheld.start_ne ht hmem hne
    unfold Areas.set
    rw [if_neg (by omega)]
    exact hheld.owner u hmem hused

theorem mem_realloc (hheld : Held h ts areas) (hp : areas p = some data) {newsize : UInt16}
    (hsize : newsize.toNat ≤ data.length) : (MemHeap.mem_realloc p newsize h).1 = some p ∧
      ∃ ts', Held (MemHeap.mem_realloc p newsize h).2 ts'
        (areas.set p (some (data.take newsize.toNat))) := by
  obtain ⟨t, ht, hused, rfl, hlong, -, hdata⟩ := hheld.area p data hp
  have hfits : t.start + 8 + newsize.toNat ≤ t.stop := by omega
  obtain ⟨m, ts', hpointer, hholds, hblocks, hlo, hhi, hstop, hkeeps⟩ :=
    mem_realloc_spec hheld.holds ht hused hfits
  have hlength : (data.take newsize.toNat).length = newsize.toNat := List.length_take_of_le hsize
  refine ⟨hpointer, ts', hheld.replace hholds hblocks hkeeps ?_ ?_ ?_⟩
  · rw [hlength]
    exact hlo
  · rw [hlength]
    exact hhi
  · have hmem := (hblocks ⟨t.start, m, true⟩ rfl).mpr (.inl rfl)
    have hsame : (MemHeap.mem_realloc (t.start + 8) newsize h).2.area (t.start + 8) newsize.toNat =
        h.area (t.start + 8) newsize.toNat := by
      apply area_congr
      intro i hi hi'
      apply hkeeps _ hmem rfl i hi
      dsimp only
      omega
    rw [hlength, hsame, ← hdata]
    unfold MemHeap.area take
    rw [← List.map_take, List.take_range, Nat.min_eq_left hsize]

/-- A user stores into its area. -/
theorem store (hheld : Held h ts areas) (hp : areas p = some data) {i : Nat} (v : UInt8)
    (hi : i < data.length) :
    Held { h with ram := put8 h.ram (p + i) v } ts (areas.set p (some (data.set i v))) := by
  obtain ⟨t, ht, hused, rfl, hlong, hshort, hdata⟩ := hheld.area p data hp
  have htiles := hheld.holds.shape.tiles
  have hbound := htiles.mem ht
  have hother (j : Nat) (hj : j ≠ t.start + 8 + i) : put8 h.ram (t.start + 8 + i) v j = h.ram j :=
    put8_other _ _ hj
  refine ⟨⟨⟨htiles, hheld.holds.shape.aligned, ?_, ?_⟩, hheld.holds.merged, hheld.holds.lfree⟩, ?_, ?_⟩
  · apply hheld.holds.shape.linked.congr
    intro u hu j hlo hhi
    apply hother
    have hbound' := htiles.mem hu
    obtain rfl | hapart | hapart := htiles.apart hu ht <;> omega
  · unfold Mem.used
    dsimp only
    rw [hother _ (by omega)]
    exact hheld.holds.shape.ram_end
  · intro q data' hq
    unfold Areas.set at hq
    split at hq
    · rename_i heq
      cases hq
      rw [heq, List.length_set]
      refine ⟨t, ht, hused, rfl, hlong, hshort, ?_⟩
      apply List.ext_getElem?
      intro j
      unfold MemHeap.area at hdata ⊢
      by_cases hj : j < data.length
      · rw [take_getElem? _ hj, List.getElem?_set]
        dsimp only
        by_cases hij : i = j
        · rw [if_pos hij, if_pos hi, hij, put8_same]
        · rw [if_neg hij, hother _ (by omega), ← hdata, take_getElem? _ hj]
      · rw [List.getElem?_eq_none (by rw [take_length]; omega),
          List.getElem?_eq_none (by rw [List.length_set]; omega)]
    · rename_i hne
      obtain ⟨u, hu, hused', rfl, hlong', hshort', hdata'⟩ := hheld.area q data' hq
      refine ⟨u, hu, hused', rfl, hlong', hshort', ?_⟩
      rw [← hdata']
      have hlength : (h.area (u.start + 8) data'.length).length = data'.length := take_length _ _
      rw [hlength]
      apply area_congr
      intro j hlo hhi
      apply hother
      have hbound' := htiles.mem hu
      obtain rfl | hapart | hapart := htiles.apart hu ht
      · exact absurd rfl hne
      · omega
      · omega
  · intro u hu hused'
    unfold Areas.set
    split
    · exact Option.some_ne_none _
    · exact hheld.owner u hu hused'

end Held

section Runs

variable {h : MemHeap} {areas : Areas} {ts : List Tile}

theorem HeapRun.held (run : HeapRun h areas) : ∃ ts, Held h ts areas := by
  induction run with
  | mem_init ram => exact ⟨_, .mem_init ram⟩
  | mem_malloc _ hsize hcall ih =>
    obtain ⟨ts, hheld⟩ := ih
    exact hheld.mem_malloc hsize hcall
  | failed _ hsize hcall ih =>
    obtain ⟨ts, hheld⟩ := ih
    obtain hnone | ⟨t, -, -, m, h', ts', hsome, -⟩ := hheld.mem_malloc_cases hsize
    · rw [hnone] at hcall
      obtain ⟨-, rfl⟩ := Prod.mk.inj (Option.some.inj hcall)
      exact ⟨ts, hheld⟩
    · rw [hsome] at hcall
      cases hcall
  | mem_free _ hp ih =>
    obtain ⟨ts, hheld⟩ := ih
    exact hheld.mem_free hp
  | mem_realloc _ hp hsize ih =>
    obtain ⟨ts, hheld⟩ := ih
    exact (hheld.mem_realloc hp hsize).2
  | store v _ hp hi ih =>
    obtain ⟨ts, hheld⟩ := ih
    exact ⟨ts, hheld.store hp v hi⟩

/-- **The areas of the heap stay apart**: whatever the users have allocated, freed, shrunk and stored,
    each area is aligned, inside of the heap, and holds what its user stored there; between two
    areas there is room for a struct. Every call returns, `mem_malloc` with nothing that somebody
    has, and `mem_realloc` leaves the area where it is. -/
theorem areas_apart (run : HeapRun h areas) :
    (∀ p data, areas p = some data → p % 4 = 0 ∧ 8 ≤ p ∧ p + data.length ≤ MEM_SIZE_ALIGNED ∧
      h.area p data.length = data) ∧
    (∀ p q data data', areas p = some data → areas q = some data' → p < q →
      p + data.length + 8 ≤ q) ∧
    (∀ size : UInt16, size.toNat ≤ 65532 → ∃ got h', mem_malloc size h = some (got, h') ∧
      ∀ p ∈ got, areas p = none) ∧
    ∀ p data, areas p = some data → ∀ newsize : UInt16, newsize.toNat ≤ data.length →
      (mem_realloc p newsize h).1 = some p := by
  obtain ⟨ts, hheld⟩ := run.held
  have htiles := hheld.holds.shape.tiles
  refine ⟨?_, ?_, ?_, ?_⟩
  · intro p data hp
    obtain ⟨t, ht, hused, rfl, hlong, -, hdata⟩ := hheld.area p data hp
    have hbound := htiles.mem ht
    have haligned := hheld.holds.shape.aligned t ht
    exact ⟨by omega, by omega, by omega, hdata⟩
  · intro p q data data' hp hq hlt
    obtain ⟨t, ht, -, rfl, hlong, -, -⟩ := hheld.area p data hp
    obtain ⟨u, hu, -, rfl, -, -, -⟩ := hheld.area q data' hq
    have hbound := htiles.mem hu
    obtain rfl | hapart | hapart := htiles.apart ht hu
    · exact absurd hlt (Nat.lt_irrefl _)
    · omega
    · omega
  · intro size hsize
    obtain hnone | ⟨t, ht, hfree, m, h', ts', hsome, -⟩ := hheld.mem_malloc_cases hsize
    · refine ⟨none, h, hnone, ?_⟩
      intro p hp
      cases hp
    · refine ⟨some (t.start + 8), h', hsome, ?_⟩
      intro p hp
      obtain rfl := Option.some.inj hp
      exact hheld.fresh ht hfree
  · intro p data hp newsize hsize
    exact (hheld.mem_realloc hp hsize).1

/-- An area of 100 octets, and a request for another one. -/
theorem areas_apart_hundred : ∃ h data, HeapRun h (Areas.set (fun _ => none) 8 (some data)) ∧
    h.area 8 data.length = data ∧
    ∃ got h', mem_malloc 40 h = some (got, h') ∧ ∀ p ∈ got, p ≠ 8 := by
  have hfirst : firstOf (8 + alignedSize 100) [⟨0, MEM_SIZE_ALIGNED, false⟩] =
      some ⟨0, MEM_SIZE_ALIGNED, false⟩ := by decide
  obtain ⟨m, h, ts, hcall, -⟩ :=
    mem_malloc_some (mem_init_holds fun _ => 0) (by decide) (by decide) hfirst
  have hrun := (HeapRun.mem_init fun _ => 0).mem_malloc (by decide) hcall
  obtain ⟨hareas, -, hmalloc, -⟩ := areas_apart hrun
  obtain ⟨got, h', hsome, hfresh⟩ := hmalloc 40 (by decide)
  refine ⟨h, _, hrun, (hareas 8 _ (if_pos rfl)).2.2.2, got, h', hsome, ?_⟩
  rintro p hp rfl
  exact absurd (hfresh 8 hp) (by simp [Areas.set])

/-- If nothing is held the heap is one unused block. -/
theorem Held.all_free (hheld : Held h ts fun _ => none) : ts = [⟨0, MEM_SIZE_ALIGNED, false⟩] := by
  have hfree : ∀ t ∈ ts, t.used = false := by
    intro t ht
    rw [← Bool.not_eq_true]
    intro hused
    exact hheld.owner t ht hused rfl
  have htiles := hheld.holds.shape.tiles
  have hmerged := hheld.holds.merged
  match ts with
  | [] => cases htiles
  | [⟨start, stop, used⟩] =>
    obtain ⟨hstart, -, hstop⟩ := htiles
    have hused := hfree _ List.mem_cons_self
    rw [tiles_nil] at hstop
    dsimp only at hstart hstop hused
    rw [hstart, hstop, hused]
  | t :: u :: us =>
    have hnext := (List.isChain_cons_cons.mp hmerged).1
    rw [hfree t (by simp), hfree u (by simp)] at hnext
    simp at hnext

/-- **What is free is found**: `mem_malloc` fails only if no gap between the areas and their structs has
    39 octets more than the size that is needed; and when all areas have been freed, in whatever
    order, the whole heap can be had in one piece again. -/
theorem gap_is_found (run : HeapRun h areas) {size : UInt16} (hpos : size ≠ 0)
    (hsize : size.toNat ≤ 65532) :
    (∀ x length, x + length ≤ MEM_SIZE_ALIGNED → alignedSize size + 39 ≤ length →
      (∀ p data, areas p = some data → p + data.length ≤ x ∨ x + length + 8 ≤ p) →
      ∃ p h', mem_malloc size h = some (some p, h')) ∧
    ((∀ p, areas p = none) → size.toNat + 8 ≤ MEM_SIZE_ALIGNED →
      ∃ h', mem_malloc size h = some (some 8, h')) := by
  obtain ⟨ts, hheld⟩ := run.held
  constructor
  · intro x length hend hlong hclear
    -- a used block occupies its struct and its area
    let occupied (t : Tile) : Nat := 8 + ((areas (t.start + 8)).getD []).length
    have howner (t : Tile) (ht : t ∈ ts) (hused : t.used) : ∃ data, areas (t.start + 8) = some data ∧
        occupied t = 8 + data.length ∧ t.stop < t.start + occupied t + 32 := by
      obtain ⟨data, hp⟩ := Option.ne_none_iff_exists'.mp (hheld.owner t ht hused)
      have hoccupied : occupied t = 8 + data.length := by
        show 8 + ((areas (t.start + 8)).getD []).length = _
        rw [hp, Option.getD_some]
      obtain ⟨u, hu, -, hstart, -, hshort, -⟩ := hheld.area _ data hp
      have hsame : u = t := by
        by_contra hne
        have hstarts := hheld.start_ne ht hu hne
        omega
      rw [hsame] at hshort
      exact ⟨data, hp, hoccupied, by omega⟩
    have hwaste : ∀ t ∈ ts, t.used → t.stop ≤ t.start + occupied t + 31 := by
      intro t ht hused
      obtain ⟨data, -, -, hshort⟩ := howner t ht hused
      omega
    have hapart : ∀ t ∈ ts, t.used → t.start + occupied t ≤ x ∨ x + length ≤ t.start := by
      intro t ht hused
      obtain ⟨data, hp, hoccupied, -⟩ := howner t ht hused
      have hgap := hclear _ data hp
      omega
    obtain ⟨t, ht, hfree, hroom⟩ := hheld.holds.shape.tiles.gap hheld.holds.merged hwaste hapart
      (Nat.zero_le x) hend (by omega)
    cases hfirst : firstOf (8 + alignedSize size) ts with
    | none =>
      have hsmall := firstOf_eq_none.mp hfirst t ht hfree
      omega
    | some u =>
      obtain ⟨m, h', ts', hsome, -⟩ := mem_malloc_some hheld.holds hpos hsize hfirst
      exact ⟨_, h', hsome⟩
  · intro hnone hfits
    have hareas : areas = fun _ => none := funext hnone
    rw [hareas] at hheld
    have hall := hheld.all_free
    have hram : MEM_SIZE_ALIGNED = 10240 := rfl
    obtain ⟨-, -, hfour, -, hcase⟩ := alignedSize_spec size hsize
    have hfirst : firstOf (8 + alignedSize size) ts = some ⟨0, MEM_SIZE_ALIGNED, false⟩ := by
      rw [hall]
      unfold firstOf
      rw [List.find?_cons_of_pos]
      simp only [Bool.not_false, Bool.true_and, decide_eq_true_eq]
      omega
    obtain ⟨m, h', ts', hsome, -⟩ := mem_malloc_some hheld.holds hpos hsize hfirst
    exact ⟨h', hsome⟩

/-- There is room behind an area of 100 octets. -/
theorem gap_is_found_hundred : ∃ h data, HeapRun h (Areas.set (fun _ => none) 8 (some data)) ∧
    ∃ p h', mem_malloc 40 h = some (some p, h') := by
  have hfirst : firstOf (8 + alignedSize 100) [⟨0, MEM_SIZE_ALIGNED, false⟩] =
      some ⟨0, MEM_SIZE_ALIGNED, false⟩ := by decide
  obtain ⟨m, h, ts, hcall, -⟩ :=
    mem_malloc_some (mem_init_holds fun _ => 0) (by decide) (by decide) hfirst
  have hrun := (HeapRun.mem_init fun _ => 0).mem_malloc (by decide) hcall
  refine ⟨h, _, hrun, ?_⟩
  obtain ⟨hgap, -⟩ := gap_is_found hrun (show (40 : UInt16) ≠ 0 by decide) (by decide)
  apply hgap 200 1000 (by decide) (by decide)
  intro p data hp
  unfold Areas.set at hp
  split at hp
  · rename_i heq
    cases hp
    left
    have hlength : (h.area 8 (100 : UInt16).toNat).length = 100 := take_length _ _
    rw [heq]
    show 8 + (h.area 8 (100 : UInt16).toNat).length ≤ 200
    omega
  · cases hp

end Runs

end Ptpd
