import Ptpd.Lwip.Blocks

/-! # What the calls do to the blocks

    Freeing merges unused neighbours, shrinking and allocating split a block, and
    `lfree` stays at the lowest unused one. The data of the other used blocks is left alone.
-/

namespace Ptpd

open Octets Tiling Mem MemHeap

/-! ## The invariant -/

/-- The heap consists of these blocks, and `lfree` is where it should be. -/
structure MemHeap.Holds (h : MemHeap) (ts : List Tile) : Prop where
  shape : Shape h.ram ts
  merged : Merged ts
  lfree : h.lfree = lowest ts MEM_SIZE_ALIGNED

/-- The data of the used blocks is left alone. -/
def KeepsData (ram ram' : Buf) (ts : List Tile) : Prop :=
  ∀ t ∈ ts, t.used → ∀ i, t.start + 8 ≤ i → i < t.stop → ram' i = ram i

section Calls

variable {h : MemHeap} {ram : Buf} {ts xs ys : List Tile} {t : Tile} {s e : Nat}

theorem mem_init_holds (ram : Buf) : (mem_init ram).Holds [⟨0, MEM_SIZE_ALIGNED, false⟩] := by
  have hsize : MEM_SIZE_ALIGNED = 10240 := rfl
  constructor
  · unfold mem_init
    constructor
    · simp [hsize]
    · simp [hsize]
    · rw [linked_cons]
      dsimp only
      rw [next_setPrev (by omega), next_setNext_other (by omega), next_setUsed (by omega),
        next_setUsed (by omega), next_setPrev (by omega), next_setNext (by omega),
        prev_setPrev_other (by omega), prev_setNext (by omega), prev_setUsed (by omega),
        prev_setUsed (by omega), prev_setPrev (by omega), used_setPrev (by omega),
        used_setNext (by omega), used_setUsed_other (by omega), used_setUsed]
      simp
    · dsimp only
      rw [used_setPrev (by omega), used_setNext (by omega), used_setUsed]
      decide
  · exact List.isChain_singleton _
  · rfl

/-! ## Freeing -/

theorem lowest_le_start (hxs : Tiles 20 0 xs s) : lowest xs s ≤ s := by
  obtain ⟨-, hz⟩ | ⟨u, hu, -, hstart⟩ := lowest_cases xs
  · rw [hz]
  · have hbound := hxs.mem hu
    rw [hstart]
    omega

/-- Joining two blocks touches no other one. -/
theorem join_keeps {n : Nat} (ram : Buf) (hxs : Tiles 20 0 xs s) (hsn : s + 20 ≤ n)
    (hys : Tiles 20 n ys MEM_SIZE_ALIGNED) :
    KeepsData ram (setPrev n s (setNext s n ram)) (xs ++ ⟨s, n, false⟩ :: ys) := by
  intro t ht hused i hlo hhi
  simp only [List.mem_append, List.mem_cons] at ht
  obtain ht | rfl | ht := ht
  · have hbound := hxs.mem ht
    rw [setPrev_other (by omega), setNext_other (by omega)]
  · cases hused
  · have hbound := hys.mem ht
    rw [setPrev_other (by omega), setNext_other (by omega)]

theorem plugForward_used (hb : Block h.ram xs s e false ys) (hys : ∀ u ∈ ys.head?, u.used) :
    plugForward s h = h := by
  unfold plugForward
  dsimp only
  rw [hb.next]
  have hbehind := hb.behind
  have hlinked := hb.linked
  cases ys with
  | nil =>
    rw [tiles_nil] at hbehind
    exact if_neg fun hall => hall.2.2 hbehind
  | cons u us =>
    have hused := hlinked.1.2.2
    rw [hbehind.1] at hused
    exact if_neg fun hall => hused.mpr (hys u rfl) hall.2.1

theorem plugForward_free {e' : Nat}
    (hshape : Shape h.ram (xs ++ ⟨s, e, false⟩ :: ⟨e, e', false⟩ :: ys)) (hlfree : h.lfree ≤ s) :
    plugForward s h = ⟨setPrev e' s (setNext s e' h.ram), h.lfree⟩ := by
  have hb := hshape.block
  have hb' : Block h.ram (xs ++ [⟨s, e, false⟩]) e e' false ys := by
    apply Shape.block
    rw [List.append_assoc]
    exact hshape
  have hleast := hb.least
  have hleast' := hb'.least
  have hend := hb'.stop_le
  have hfree : Mem.used h.ram e = 0 := by
    by_contra hne
    exact absurd (hb'.used.mp hne) Bool.false_ne_true
  unfold plugForward
  dsimp only
  rw [hb.next, if_pos ⟨by omega, hfree, by omega⟩, if_neg (by omega), hb'.next,
    next_setNext_other (by omega), hb'.next]

/-- The block behind is not an unused one any more. -/
theorem plugForward_spec (hshape : Shape h.ram (xs ++ ⟨s, e, false⟩ :: ys))
    (hlfree : h.lfree = lowest xs s) (hmerged : Merged ys) :
    ∃ e' ys', Shape (plugForward s h).ram (xs ++ ⟨s, e', false⟩ :: ys') ∧
      (plugForward s h).lfree = lowest xs s ∧ Merged ys' ∧ (∀ u ∈ ys'.head?, u.used) ∧
      (∀ u : Tile, u.used → (u ∈ ys' ↔ u ∈ ys)) ∧
      KeepsData h.ram (plugForward s h).ram (xs ++ ⟨s, e', false⟩ :: ys') := by
  have hb := hshape.block
  have hlow := lowest_le_start hb.before
  by_cases hnext : ∀ u ∈ ys.head?, u.used
  · rw [plugForward_used hb hnext]
    exact ⟨e, ys, hshape, hlfree, hmerged, hnext, fun _ _ => .rfl, fun _ _ _ _ _ _ => rfl⟩
  · cases ys with
    | nil => exact absurd (by simp) hnext
    | cons u us =>
      obtain ⟨start, stop, used⟩ := u
      have hbehind := hb.behind
      obtain ⟨rfl, hleast, hus⟩ := hbehind
      cases used with
      | true => exact absurd (by simp) hnext
      | false =>
        have hsize := hb.least
        rw [plugForward_free hshape (by omega)]
        obtain ⟨hused, hrest⟩ := List.isChain_cons.mp hmerged
        refine ⟨stop, us, hshape.merge, hlfree, hrest, by simpa using hused, ?_, ?_⟩
        · intro v hv
          constructor
          · exact List.mem_cons_of_mem _
          · intro hmem
            cases hmem with
            | head => cases hv
            | tail _ hmem => exact hmem
        · dsimp only at hleast hus hsize
          exact join_keeps h.ram hb.before (by omega) hus

theorem plugBackward_used (hb : Block h.ram xs s e false ys) (hlinked : Linked h.ram 0 xs)
    (hxs : ∀ u ∈ xs.getLast?, u.used) : plugBackward s h = h := by
  unfold plugBackward
  dsimp only
  rw [hb.prev]
  have hbefore := hb.before
  cases List.eq_nil_or_concat xs with
  | inl hnil =>
    subst hnil
    rw [tiles_nil] at hbefore
    exact if_neg fun hall => hall.1 hbefore
  | inr hlast =>
    obtain ⟨init, u, rfl⟩ := hlast
    rw [List.concat_eq_append] at hlinked hxs ⊢
    rw [linked_append] at hlinked
    rw [lastStart_append]
    exact if_neg fun hall => hlinked.2.1.2.2.mpr (hxs u (by simp)) hall.2

theorem plugBackward_free {s' : Nat}
    (hshape : Shape h.ram (xs ++ ⟨s', s, false⟩ :: ⟨s, e, false⟩ :: ys)) (hlfree : h.lfree ≤ s') :
    plugBackward s h = ⟨setPrev e s' (setNext s' e h.ram), h.lfree⟩ := by
  have hb := hshape.block
  have hb' : Block h.ram (xs ++ [⟨s', s, false⟩]) s e false ys := by
    apply Shape.block
    rw [List.append_assoc]
    exact hshape
  have hleast := hb.least
  have hprev : Mem.prev h.ram s = s' := by
    rw [hb'.prev, lastStart_append]
    rfl
  have hfree : Mem.used h.ram s' = 0 := by
    by_contra hne
    exact absurd (hb.used.mp hne) Bool.false_ne_true
  unfold plugBackward
  dsimp only
  rw [hprev, if_pos ⟨by omega, hfree⟩, if_neg (by omega), hb'.next, next_setNext_other (by omega),
    hb'.next]

/-- The block in front is not an unused one any more, and the heap is as it should be. -/
theorem plugBackward_spec (hshape : Shape h.ram (xs ++ ⟨s, e, false⟩ :: ys))
    (hlfree : h.lfree = lowest xs s) (hmerged : Merged xs ∧ Merged ys) (hnext : ∀ u ∈ ys.head?, u.used) :
    ∃ ts, (plugBackward s h).Holds ts ∧ (∀ u : Tile, u.used → (u ∈ ts ↔ u ∈ xs ∨ u ∈ ys)) ∧
      KeepsData h.ram (plugBackward s h).ram ts := by
  have hb := hshape.block
  by_cases hlast : ∀ u ∈ xs.getLast?, u.used
  · have hlinked := hshape.linked
    rw [linked_append] at hlinked
    rw [plugBackward_used hb hlinked.1 hlast]
    refine ⟨xs ++ ⟨s, e, false⟩ :: ys, ⟨hshape, ?_, ?_⟩, ?_, fun _ _ _ _ _ _ => rfl⟩
    · rw [merged_middle]
      exact ⟨hmerged.1, fun u hu => .inl (hlast u hu), fun u hu => .inr (hnext u hu), hmerged.2⟩
    · rw [lowest_append]
      exact hlfree
    · intro u hu
      simp only [List.mem_append, List.mem_cons]
      constructor
      · rintro (hmem | rfl | hmem)
        · exact .inl hmem
        · cases hu
        · exact .inr hmem
      · rintro (hmem | hmem)
        · exact .inl hmem
        · exact .inr (.inr hmem)
  · cases List.eq_nil_or_concat xs with
    | inl hnil =>
      subst hnil
      exact absurd (by simp) hlast
    | inr hconcat =>
      obtain ⟨init, u, rfl⟩ := hconcat
      obtain ⟨start, stop, used⟩ := u
      rw [List.concat_eq_append] at *
      have hbefore := hb.before
      rw [tiles_append] at hbefore
      obtain ⟨m, hinit, rfl, hleast, hstop⟩ := hbefore
      rw [tiles_nil] at hstop
      dsimp only at hstop hleast hinit
      subst hstop
      cases used with
      | true => exact absurd (by simp) hlast
      | false =>
        rw [List.append_assoc] at hshape
        have hlow := lowest_le_start hinit
        rw [lowest_append] at hlfree
        rw [plugBackward_free hshape (by rw [hlfree]; exact hlow)]
        have hmiddle := merged_middle.mp hmerged.1
        have hsize := hb.least
        refine ⟨init ++ ⟨start, e, false⟩ :: ys, ⟨hshape.merge, ?_, ?_⟩, ?_, ?_⟩
        · rw [merged_middle]
          exact ⟨hmiddle.1, hmiddle.2.1, fun u hu => .inr (hnext u hu), hmerged.2⟩
        · rw [lowest_append]
          exact hlfree
        · intro u hu
          simp only [List.mem_append, List.mem_cons, List.not_mem_nil, or_false]
          constructor
          · rintro (hmem | rfl | hmem)
            · exact .inl (.inl hmem)
            · cases hu
            · exact .inr hmem
          · rintro ((hmem | rfl) | hmem)
            · exact .inl hmem
            · cases hu
            · exact .inr (.inr hmem)
        · exact join_keeps h.ram hinit (by omega) hb.behind

theorem KeepsData.trans {ram₁ ram₂ ram₃ : Buf} {ts₁ ts₂ : List Tile} (h₁ : KeepsData ram₁ ram₂ ts₁)
    (h₂ : KeepsData ram₂ ram₃ ts₂) (hmem : ∀ t ∈ ts₂, t.used → t ∈ ts₁) : KeepsData ram₁ ram₃ ts₂ := by
  intro t ht hused i hlo hhi
  rw [h₂ t ht hused i hlo hhi, h₁ t (hmem t ht hused) hused i hlo hhi]

/-- The lowest unused block, when the block at `s` is unused. -/
theorem lowest_freed (hb : Block ram xs s e true ys) :
    (if s < lowest (xs ++ ⟨s, e, true⟩ :: ys) MEM_SIZE_ALIGNED then s
      else lowest (xs ++ ⟨s, e, true⟩ :: ys) MEM_SIZE_ALIGNED) = lowest xs s := by
  have hbehind := hb.behind.lowest_le
  have hleast := hb.least
  rw [lowest_append, lowest_cons, if_pos rfl]
  obtain ⟨-, hz⟩ | ⟨u, hu, -, hstart⟩ := lowest_cases xs
  · rw [hz, hz, if_pos (by omega)]
  · have hbound := hb.before.mem hu
    rw [hstart, hstart, if_neg (by omega)]

/-- The block goes, and the others stay. -/
theorem mem_free_spec (hh : h.Holds ts) (ht : t ∈ ts) (hused : t.used) :
    ∃ ts', (mem_free (some (t.start + 8)) h).Holds ts' ∧
      (∀ u : Tile, u.used → (u ∈ ts' ↔ u ∈ ts ∧ u ≠ t)) ∧
      KeepsData h.ram (mem_free (some (t.start + 8)) h).ram ts' := by
  obtain ⟨xs, ys, rfl⟩ := List.append_of_mem ht
  have hshape := hh.shape
  obtain ⟨s, e, used⟩ := t
  dsimp only at hused
  subst hused
  have hb := hshape.block
  have hleast := hb.least
  have hend := hb.stop_le
  have hmiddle := merged_middle.mp hh.merged
  have hsize : SIZEOF_STRUCT_MEM = 8 := rfl
  have hmem : s + 8 - SIZEOF_STRUCT_MEM = s := by omega
  unfold mem_free
  dsimp only
  rw [if_neg (by omega), hmem, hh.lfree, lowest_freed hb]
  unfold plug_holes
  obtain ⟨e', ys', hshape₁, hlfree₁, hys', hnext, hbehind, hkeeps₁⟩ :=
    plugForward_spec (h := ⟨setUsed s 0 h.ram, lowest xs s⟩) (hshape.mark 0) rfl hmiddle.2.2.2
  generalize hplug : plugForward s ⟨setUsed s 0 h.ram, lowest xs s⟩ = h₁ at hshape₁ hlfree₁ hkeeps₁
  obtain ⟨ts', hholds, hothers, hkeeps₂⟩ := plugBackward_spec hshape₁ hlfree₁ ⟨hmiddle.1, hys'⟩ hnext
  have hne : ∀ u : Tile, u ∈ xs ∨ u ∈ ys → u ≠ ⟨s, e, true⟩ := by
    rintro u hu rfl
    exact hu.elim (hb.not_mem true).1 (hb.not_mem true).2
  have hall : ∀ u : Tile, u.used → (u ∈ ts' ↔ u ∈ xs ∨ u ∈ ys) := by
    intro u hu
    rw [hothers u hu, hbehind u hu]
  refine ⟨ts', hholds, ?_, ?_⟩
  · intro u hu
    rw [hall u hu, List.mem_append, List.mem_cons]
    constructor
    · intro hmem
      exact ⟨hmem.imp_right .inr, hne u hmem⟩
    · rintro ⟨hmem | rfl | hmem, hne⟩
      · exact .inl hmem
      · exact absurd rfl hne
      · exact .inr hmem
  · have hkeeps : KeepsData (setUsed s 0 h.ram) (plugBackward s h₁).ram ts' := by
      apply hkeeps₁.trans hkeeps₂
      intro u hu hused
      have hmem := (hothers u hused).mp hu
      simp only [List.mem_append, List.mem_cons]
      exact hmem.imp_right .inr
    intro u hu hused i hlo hhi
    rw [hkeeps u hu hused i hlo hhi]
    apply setUsed_other
    cases (hall u hused).mp hu with
    | inl hu =>
      have hbound := hb.before.mem hu
      omega
    | inr hu =>
      have hbound := hb.behind.mem hu
      omega

/-! ## Shrinking -/

theorem alignedSize_spec (size : UInt16) (hsize : size.toNat ≤ 65532) :
    size.toNat ≤ alignedSize size ∧ alignedSize size ≤ size.toNat + 12 ∧ alignedSize size % 4 = 0 ∧
      12 ≤ alignedSize size ∧ (alignedSize size ≤ size.toNat + 3 ∨ alignedSize size = 12) := by
  have hmin : MIN_SIZE_ALIGNED = 12 := rfl
  unfold alignedSize LWIP_MEM_ALIGN_SIZE
  dsimp only
  split <;> omega

/-- What a new struct is, and what it leaves alone. -/
theorem splitBlock_spec {m : Nat} (ram : Buf) (hsm : s + 20 ≤ m) (hme : m + 20 ≤ e)
    (he : e ≤ MEM_SIZE_ALIGNED) :
    (next (splitBlock s m e ram) s = m ∧ Mem.prev (splitBlock s m e ram) s = Mem.prev ram s ∧
      Mem.used (splitBlock s m e ram) s = Mem.used ram s) ∧
    (next (splitBlock s m e ram) m = e ∧ Mem.prev (splitBlock s m e ram) m = s ∧
      Mem.used (splitBlock s m e ram) m = 0) ∧
    ∀ i, i < s ∨ s + 8 ≤ i ∧ i < m ∨ e ≤ i → splitBlock s m e ram i = ram i := by
  have hsize : MEM_SIZE_ALIGNED = 10240 := rfl
  unfold splitBlock
  refine ⟨⟨next_setNext (by omega), ?_, ?_⟩, ⟨?_, ?_, ?_⟩, ?_⟩
  · rw [prev_setNext (by omega), prev_setPrev_other (by omega), prev_setNext (by omega),
      prev_setUsed (by omega)]
  · rw [used_setNext (by omega), used_setPrev (by omega), used_setNext (by omega),
      used_setUsed_other (by omega)]
  · rw [next_setNext_other (by omega), next_setPrev (by omega), next_setNext (by omega)]
  · rw [prev_setNext (by omega), prev_setPrev (by omega)]
  · rw [used_setNext (by omega), used_setPrev (by omega), used_setNext (by omega), used_setUsed]
  · intro i hi
    rw [setNext_other (by omega), setPrev_other (by omega), setNext_other (by omega),
      setUsed_other (by omega)]

/-- Splitting touches only the structs of the two blocks, and what the new one was before. -/
theorem split_keeps {m : Nat} {ram' : Buf} (u : Bool) (hxs : Tiles 20 0 xs s) (hsm : s + 20 ≤ m)
    (hme : m + 20 ≤ e) (hys : Tiles 20 e ys MEM_SIZE_ALIGNED)
    (hsame : ∀ i, i < s ∨ s + 8 ≤ i ∧ i < m ∨ e ≤ i → i < e + 2 ∨ e + 4 ≤ i → ram' i = ram i) :
    KeepsData ram ram' (xs ++ ⟨s, m, u⟩ :: ⟨m, e, false⟩ :: ys) := by
  intro t ht hused i hlo hhi
  simp only [List.mem_append, List.mem_cons] at ht
  obtain ht | rfl | rfl | ht := ht
  · have hbound := hxs.mem ht
    exact hsame i (by omega) (by omega)
  · dsimp only at hlo hhi
    exact hsame i (by omega) (by omega)
  · cases hused
  · have hbound := hys.mem ht
    exact hsame i (by omega) (by omega)

/-- The struct behind a block tells whether there is an unused one. -/
theorem used_behind {u : Bool} (hshape : Shape ram (xs ++ ⟨s, e, u⟩ :: ys)) :
    (Mem.used ram e = 0 → ∃ e' ys', ys = ⟨e, e', false⟩ :: ys') ∧
      (Mem.used ram e ≠ 0 → ∀ v ∈ ys.head?, v.used) := by
  have hb := hshape.block
  have hbehind := hb.behind
  have hlinked := hb.linked
  cases ys with
  | nil =>
    rw [tiles_nil] at hbehind
    rw [hbehind]
    exact ⟨fun hfree => absurd hfree hshape.ram_end, by simp⟩
  | cons v vs =>
    obtain ⟨start, stop, used⟩ := v
    obtain ⟨rfl, -, -⟩ := hbehind
    obtain ⟨⟨-, -, hused⟩, -⟩ := hlinked
    dsimp only at hused
    constructor
    · intro hfree
      cases used with
      | false => exact ⟨stop, vs, rfl⟩
      | true => exact absurd hfree (hused.mpr rfl)
    · intro hne
      simpa using hused.mp hne

/-- The members of a list in which one block is replaced by another and unused ones. -/
theorem mem_replaced (mid mid' : List Tile) {u v : Tile} (hu : u.used)
    (hmid : ∀ w ∈ mid, w.used → w = t) (hmid' : ∀ w ∈ mid', w.used → w = v)
    (hv : v ∈ mid') (hxs : t ∉ xs) (hys : t ∉ ys) :
    u ∈ xs ++ (mid' ++ ys) ↔ u = v ∨ u ∈ xs ++ (mid ++ ys) ∧ u ≠ t := by
  simp only [List.mem_append]
  constructor
  · rintro (hmem | hmem | hmem)
    · exact .inr ⟨.inl hmem, fun heq => hxs (heq ▸ hmem)⟩
    · exact .inl (hmid' u hmem hu)
    · exact .inr ⟨.inr (.inr hmem), fun heq => hys (heq ▸ hmem)⟩
  · rintro (rfl | ⟨hmem | hmem | hmem, hne⟩)
    · exact .inr (.inl hv)
    · exact .inl hmem
    · exact absurd (hmid u hmem hu) hne
    · exact .inr (.inr hmem)

/-- The end of the blocks between `s` and `e` becomes unused. -/
theorem shrink_spec {mid zs : List Tile} {m m' : Nat} (hshape : Shape ram (xs ++ (mid ++ ys)))
    (hb : Block ram xs s m' true zs) (hys : Tiles 20 e ys MEM_SIZE_ALIGNED) (hsm : s + 20 ≤ m)
    (hme : m + 20 ≤ e) (haligned : m % 4 = 0 ∧ e % 4 = 0) :
    Shape (backLink m (splitBlock s m e ram)) (xs ++ ⟨s, m, true⟩ :: ⟨m, e, false⟩ :: ys) ∧
      KeepsData ram (backLink m (splitBlock s m e ram)) (xs ++ ⟨s, m, true⟩ :: ⟨m, e, false⟩ :: ys) := by
  obtain ⟨⟨hnext, hprev, hused⟩, hrest, hsame⟩ := splitBlock_spec ram hsm hme hys.le
  rw [hb.prev] at hprev
  obtain ⟨hsplit, hother⟩ := hshape.split (u := true) hb.before hys hsm hme
    ⟨hb.aligned.1, haligned⟩ ⟨hnext, hprev, by rw [hused]; exact hb.used⟩ hrest
    fun i hi => hsame i (by omega)
  refine ⟨hsplit, split_keeps true hb.before hsm hme hys ?_⟩
  intro i hi hi'
  rw [hother i (by omega), hsame i hi]

/-- The unused block behind moves down. -/
theorem MemHeap.Holds.shrink_free {us : List Tile} {e' m : Nat}
    (hh : h.Holds (xs ++ ⟨s, e, true⟩ :: ⟨e, e', false⟩ :: us)) (hsm : s + 20 ≤ m) (hme : m ≤ e)
    (haligned : m % 4 = 0) :
    MemHeap.Holds ⟨backLink m (splitBlock s m e' h.ram), if h.lfree = e then m else h.lfree⟩
        (xs ++ ⟨s, m, true⟩ :: ⟨m, e', false⟩ :: us) ∧
      KeepsData h.ram (backLink m (splitBlock s m e' h.ram))
        (xs ++ ⟨s, m, true⟩ :: ⟨m, e', false⟩ :: us) := by
  have hb := hh.shape.block
  have hb' : Block h.ram (xs ++ [⟨s, e, true⟩]) e e' false us := by
    apply Shape.block
    rw [List.append_assoc]
    exact hh.shape
  have hleast := hb'.least
  have hshape : Shape h.ram (xs ++ ([⟨s, e, true⟩, ⟨e, e', false⟩] ++ us)) := hh.shape
  obtain ⟨hsplit, hkeeps⟩ :=
    shrink_spec hshape hb hb'.behind hsm (by omega) ⟨haligned, hb'.aligned.2⟩
  refine ⟨⟨hsplit, ?_, ?_⟩, hkeeps⟩
  · have hmiddle := merged_middle.mp hh.merged
    obtain ⟨hfirst, hrest⟩ := List.isChain_cons.mp hmiddle.2.2.2
    rw [merged_middle]
    exact ⟨hmiddle.1, by simp, by simp, List.isChain_cons.mpr ⟨hfirst, hrest⟩⟩
  · dsimp only
    rw [hh.lfree, lowest_append, lowest_append]
    simp only [lowest_cons, if_true, Bool.false_eq_true, if_false]
    obtain ⟨-, hz⟩ | ⟨u, hu, -, hstart⟩ := lowest_cases xs
    · rw [hz, hz, if_pos rfl]
    · have hbound := hb.before.mem hu
      have hpos := hb.least
      rw [hstart, hstart, if_neg (by omega)]

/-- The end of the block becomes a block of its own, in front of a used one or of the end. -/
theorem MemHeap.Holds.shrink_used {m : Nat} (hh : h.Holds (xs ++ ⟨s, e, true⟩ :: ys))
    (hnext : ∀ u ∈ ys.head?, u.used) (hsm : s + 20 ≤ m) (hme : m + 20 ≤ e) (haligned : m % 4 = 0) :
    MemHeap.Holds ⟨backLink m (splitBlock s m e h.ram), if m < h.lfree then m else h.lfree⟩
        (xs ++ ⟨s, m, true⟩ :: ⟨m, e, false⟩ :: ys) ∧
      KeepsData h.ram (backLink m (splitBlock s m e h.ram))
        (xs ++ ⟨s, m, true⟩ :: ⟨m, e, false⟩ :: ys) := by
  have hb := hh.shape.block
  have hshape : Shape h.ram (xs ++ ([⟨s, e, true⟩] ++ ys)) := hh.shape
  obtain ⟨hsplit, hkeeps⟩ := shrink_spec hshape hb hb.behind hsm hme ⟨haligned, hb.aligned.2⟩
  refine ⟨⟨hsplit, ?_, ?_⟩, hkeeps⟩
  · have hmiddle := merged_middle.mp hh.merged
    rw [merged_middle]
    refine ⟨hmiddle.1, by simp, by simp, ?_⟩
    exact List.isChain_cons.mpr ⟨fun u hu => .inr (hnext u hu), hmiddle.2.2.2⟩
  · have hbehind := hb.behind.lowest_le
    dsimp only
    rw [hh.lfree, lowest_append, lowest_append]
    simp only [lowest_cons, if_true, Bool.false_eq_true, if_false]
    obtain ⟨-, hz⟩ | ⟨u, hu, -, hstart⟩ := lowest_cases xs
    · rw [hz, hz, if_pos (by omega)]
    · have hbound := hb.before.mem hu
      rw [hstart, hstart, if_neg (by omega)]

/-- The block gets shorter, or keeps what is too short for another one. -/
theorem mem_realloc_spec (hh : h.Holds ts) (ht : t ∈ ts) (hused : t.used) {newsize : UInt16}
    (hsize : t.start + 8 + newsize.toNat ≤ t.stop) :
    ∃ m ts', (mem_realloc (t.start + 8) newsize h).1 = some (t.start + 8) ∧
      (mem_realloc (t.start + 8) newsize h).2.Holds ts' ∧
      (∀ u : Tile, u.used → (u ∈ ts' ↔ u = ⟨t.start, m, true⟩ ∨ u ∈ ts ∧ u ≠ t)) ∧
      t.start + 8 + newsize.toNat ≤ m ∧ m < t.start + 8 + newsize.toNat + 32 ∧ m ≤ t.stop ∧
      KeepsData h.ram (mem_realloc (t.start + 8) newsize h).2.ram ts' := by
  obtain ⟨xs, ys, rfl⟩ := List.append_of_mem ht
  obtain ⟨s, e, used⟩ := t
  dsimp only at hused hsize ⊢
  subst hused
  have hb := hh.shape.block
  have hleast := hb.least
  have hend := hb.stop_le
  have haligned := hb.aligned
  have hram : MEM_SIZE_ALIGNED = 10240 := rfl
  have hstruct : SIZEOF_STRUCT_MEM = 8 := rfl
  have hmin : MIN_SIZE_ALIGNED = 12 := rfl
  obtain ⟨hge, hle, hfour, htwelve, hcase⟩ := alignedSize_spec newsize (by omega)
  have hptr : s + 8 - SIZEOF_STRUCT_MEM = s := by omega
  have hdata : (e + 2 ^ 16 - (s + SIZEOF_STRUCT_MEM)) % 2 ^ 16 = e - (s + 8) := by omega
  obtain ⟨hnotbefore, hnotbehind⟩ := hb.not_mem true
  have hunchanged : ∀ u : Tile, u.used →
      (u ∈ xs ++ ⟨s, e, true⟩ :: ys ↔ u = ⟨s, e, true⟩ ∨ u ∈ xs ++ ⟨s, e, true⟩ :: ys ∧ u ≠ ⟨s, e, true⟩) :=
    fun u hu => mem_replaced [⟨s, e, true⟩] [⟨s, e, true⟩] hu (by simp) (by simp) (by simp) hnotbefore
      hnotbehind
  unfold mem_realloc
  dsimp only
  rw [if_neg (by omega), if_neg (by omega), hptr, hb.next, hdata, if_neg (by omega)]
  by_cases hequal : alignedSize newsize = e - (s + 8)
  · rw [if_pos hequal]
    exact ⟨e, _, rfl, hh, hunchanged, hsize, by omega, Nat.le_refl e, fun _ _ _ _ _ _ => rfl⟩
  · rw [if_neg hequal]
    have hm : s + SIZEOF_STRUCT_MEM + alignedSize newsize = s + 8 + alignedSize newsize := by omega
    rw [hm]
    generalize hptr2 : s + 8 + alignedSize newsize = m at *
    obtain ⟨hfree, hnext⟩ := used_behind hh.shape
    by_cases hunused : Mem.used h.ram e = 0
    · obtain ⟨e', us, rfl⟩ := hfree hunused
      have hb' : Block h.ram (xs ++ [⟨s, e, true⟩]) e e' false us := by
        apply Shape.block
        rw [List.append_assoc]
        exact hh.shape
      obtain ⟨hholds, hkeeps⟩ := hh.shrink_free (m := m) (by omega) (by omega) (by omega)
      rw [if_pos hunused, hb'.next]
      refine ⟨m, _, rfl, hholds, ?_, by omega, by omega, by omega, hkeeps⟩
      intro u hu
      apply mem_replaced [⟨s, e, true⟩, ⟨e, e', false⟩] [⟨s, m, true⟩, ⟨m, e', false⟩] hu
      · simp
      · simp
      · simp
      · exact hnotbefore
      · intro hmem
        exact hnotbehind (List.mem_cons_of_mem _ hmem)
    · rw [if_neg hunused]
      by_cases hroom : alignedSize newsize + SIZEOF_STRUCT_MEM + MIN_SIZE_ALIGNED ≤ e - (s + 8)
      · obtain ⟨hholds, hkeeps⟩ :=
          hh.shrink_used (m := m) (hnext hunused) (by omega) (by omega) (by omega)
        rw [if_pos hroom]
        refine ⟨m, _, rfl, hholds, ?_, by omega, by omega, by omega, hkeeps⟩
        intro u hu
        exact mem_replaced [⟨s, e, true⟩] [⟨s, m, true⟩, ⟨m, e, false⟩] hu (by simp) (by simp)
          (by simp) hnotbefore hnotbehind
      · rw [if_neg hroom]
        exact ⟨e, _, rfl, hh, hunchanged, hsize, by omega, Nat.le_refl e, fun _ _ _ _ _ _ => rfl⟩

/-! ## Allocating -/

/-- The scan starts at the lowest unused block, and finds the first one that is large enough. -/
theorem scan_spec (hh : h.Holds ts) (size : Nat) :
    scan h.ram size offsets h.lfree = some ((firstOf (8 + size) ts).map Tile.start) := by
  have htiles := hh.shape.tiles
  have hlinked := hh.shape.linked
  rw [hh.lfree]
  obtain ⟨hall, hz⟩ | ⟨t, ht, hfree, hstart⟩ := lowest_cases ts
  · rw [hz, firstOf_used hall]
    exact scan_eq (tiles_nil.mpr rfl) (show Linked h.ram 0 [] from trivial) (by decide)
  · -- all blocks in front of it are used
    rw [hstart]
    obtain ⟨xs, ys, rfl⟩ := List.append_of_mem ht
    have hxs : ∀ u ∈ xs, u.used := by
      obtain ⟨hused, -⟩ | ⟨u, hu, -, hstart'⟩ := lowest_cases xs
      · exact hused
      · have hsame := hstart MEM_SIZE_ALIGNED
        rw [tiles_append] at htiles
        obtain ⟨m, hbefore, hm, -⟩ := htiles
        rw [lowest_append, hstart'] at hsame
        have hbound := hbefore.mem hu
        omega
    rw [firstOf_append, firstOf_used hxs, Option.none_or]
    rw [tiles_append] at htiles
    obtain ⟨m, -, htiles⟩ := htiles
    rw [linked_append] at hlinked
    have hm := htiles.1
    rw [← hm] at htiles
    exact scan_eq htiles hlinked.2 (Mem.length_lt_offsets htiles)

/-- No block is large enough, and nothing is done. -/
theorem mem_malloc_none (hh : h.Holds ts) {size : UInt16} (hsize : size ≠ 0)
    (hnone : firstOf (8 + alignedSize size) ts = none) : mem_malloc size h = some (none, h) := by
  unfold mem_malloc
  rw [if_neg hsize]
  dsimp only
  split
  · rfl
  · rw [scan_spec hh, hnone]
    rfl

/-- `lfree` is moved on if it was at the block that has been taken. -/
theorem movedFree_eq {e' : Nat} {zs : List Tile} (hb : Block ram xs s e false ys)
    {ram' : Buf} (hshape : Shape ram' (xs ++ ⟨s, e', true⟩ :: zs)) :
    movedFree s ram' (lowest (xs ++ ⟨s, e, false⟩ :: ys) MEM_SIZE_ALIGNED) =
      some (lowest (xs ++ ⟨s, e', true⟩ :: zs) MEM_SIZE_ALIGNED) := by
  have htiles := hshape.tiles
  have hlinked := hshape.linked
  rw [tiles_append] at htiles
  rw [linked_append] at hlinked
  obtain ⟨s', -, htiles⟩ := htiles
  have hs := htiles.1
  dsimp only at hs
  subst hs
  unfold movedFree
  rw [lowest_append, lowest_cons, if_neg Bool.false_ne_true]
  obtain ⟨-, hz⟩ | ⟨u, hu, -, hstart⟩ := lowest_cases xs
  · rw [hz, if_pos rfl, nextFree_eq htiles hlinked.2 (Mem.length_lt_offsets htiles), lowest_append, hz]
  · have hbound := hb.before.mem hu
    rw [hstart, if_neg (by omega), lowest_append, hstart]

/-- The front of an unused block is taken. -/
theorem take_spec {m : Nat} (hshape : Shape ram (xs ++ ⟨s, e, false⟩ :: ys)) (hsm : s + 20 ≤ m)
    (hme : m + 20 ≤ e) (haligned : m % 4 = 0) :
    Shape (backLink m (setUsed s 1 (splitBlock s m e ram)))
        (xs ++ ⟨s, m, true⟩ :: ⟨m, e, false⟩ :: ys) ∧
      KeepsData ram (backLink m (setUsed s 1 (splitBlock s m e ram)))
        (xs ++ ⟨s, m, true⟩ :: ⟨m, e, false⟩ :: ys) := by
  have hb := hshape.block
  obtain ⟨⟨hnext, hprev, -⟩, ⟨hnext', hprev', hused'⟩, hsame⟩ := splitBlock_spec ram hsm hme hb.stop_le
  have hshape' : Shape ram (xs ++ ([⟨s, e, false⟩] ++ ys)) := hshape
  rw [hb.prev] at hprev
  have hfront : next (setUsed s 1 (splitBlock s m e ram)) s = m ∧
      Mem.prev (setUsed s 1 (splitBlock s m e ram)) s = lastStart 0 xs ∧
      (Mem.used (setUsed s 1 (splitBlock s m e ram)) s ≠ 0 ↔ true) := by
    rw [next_setUsed (by omega), prev_setUsed (by omega), used_setUsed]
    exact ⟨hnext, hprev, by decide⟩
  have hrest : next (setUsed s 1 (splitBlock s m e ram)) m = e ∧
      Mem.prev (setUsed s 1 (splitBlock s m e ram)) m = s ∧
      Mem.used (setUsed s 1 (splitBlock s m e ram)) m = 0 := by
    rw [next_setUsed (by omega), prev_setUsed (by omega), used_setUsed_other (by omega)]
    exact ⟨hnext', hprev', hused'⟩
  have hmarked : ∀ i, i < s ∨ s + 8 ≤ i ∧ i < m ∨ e ≤ i →
      setUsed s 1 (splitBlock s m e ram) i = ram i := by
    intro i hi
    rw [setUsed_other (by omega), hsame i hi]
  obtain ⟨hsplit, hother⟩ := hshape'.split hb.before hb.behind hsm hme
    ⟨hb.aligned.1, haligned, hb.aligned.2⟩ hfront hrest fun i hi => hmarked i (by omega)
  refine ⟨hsplit, split_keeps true hb.before hsm hme hb.behind ?_⟩
  intro i hi hi'
  rw [hother i (by omega), hmarked i hi]

/-- The first block that is large enough is taken, and the rest of it if that is too short. -/
theorem mem_malloc_some (hh : h.Holds ts) {size : UInt16} (hpos : size ≠ 0)
    (hsize : size.toNat ≤ 65532) (hfirst : firstOf (8 + alignedSize size) ts = some t) :
    ∃ m h' ts', mem_malloc size h = some (some (t.start + 8), h') ∧ h'.Holds ts' ∧
      (∀ u : Tile, u.used → (u ∈ ts' ↔ u = ⟨t.start, m, true⟩ ∨ u ∈ ts ∧ u ≠ t)) ∧
      t.start + 8 + size.toNat ≤ m ∧ m < t.start + 8 + size.toNat + 32 ∧
      KeepsData h.ram h'.ram ts' := by
  have hscan := scan_spec hh (alignedSize size)
  rw [hfirst, Option.map_some] at hscan
  obtain ⟨hfree, hfits, xs, ys, rfl⟩ := firstOf_eq_some hfirst
  obtain ⟨s, e, used⟩ := t
  dsimp only at hfree hfits hscan ⊢
  subst hfree
  have hshape := hh.shape
  have hb := hshape.block
  have hleast := hb.least
  have hend := hb.stop_le
  have haligned := hb.aligned
  have hram : MEM_SIZE_ALIGNED = 10240 := rfl
  have hstruct : SIZEOF_STRUCT_MEM = 8 := rfl
  have hmin : MIN_SIZE_ALIGNED = 12 := rfl
  obtain ⟨hge, hle, hfour, htwelve, -⟩ := alignedSize_spec size hsize
  obtain ⟨hnotbefore, hnotbehind⟩ := hb.not_mem false
  have hdata := userData_eq hb.next (by omega)
  unfold mem_malloc
  rw [if_neg hpos]
  dsimp only
  rw [if_neg (by omega), hscan]
  dsimp only [Option.bind_eq_bind, Option.bind_some]
  rw [hdata, hb.next, hh.lfree]
  by_cases hroom : e - (s + 8) ≥ alignedSize size + SIZEOF_STRUCT_MEM + MIN_SIZE_ALIGNED
  · rw [if_pos hroom]
    have hm : s + SIZEOF_STRUCT_MEM + alignedSize size = s + 8 + alignedSize size := by omega
    rw [hm]
    generalize hptr2 : s + 8 + alignedSize size = m at *
    obtain ⟨hsplit, hkeeps⟩ := take_spec hshape (m := m) (by omega) (by omega) (by omega)
    rw [movedFree_eq hb hsplit]
    refine ⟨m, _, _, rfl, ⟨hsplit, ?_, rfl⟩, ?_, by omega, by omega, hkeeps⟩
    · exact hh.merged.split rfl rfl rfl
    · intro u hu
      exact mem_replaced [⟨s, e, false⟩] [⟨s, m, true⟩, ⟨m, e, false⟩] hu (by simp) (by simp) (by simp)
        hnotbefore hnotbehind
  · rw [if_neg hroom]
    have hmark := hshape.mark 1
    rw [movedFree_eq hb hmark]
    refine ⟨e, _, _, rfl, ⟨hmark, hh.merged.use rfl, rfl⟩, ?_, by omega, by omega, ?_⟩
    · intro u hu
      exact mem_replaced [⟨s, e, false⟩] [⟨s, e, true⟩] hu (by simp) (by simp) (by simp) hnotbefore
        hnotbehind
    · intro u hu hused i hlo hhi
      apply setUsed_other
      simp only [List.mem_append, List.mem_cons] at hu
      obtain hu | rfl | hu := hu
      · have hbound := hb.before.mem hu
        omega
      · dsimp only at hlo
        omega
      · have hbound := hb.behind.mem hu
        omega

end Calls

end Ptpd
