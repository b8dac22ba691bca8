import Mathlib.Algebra.BigOperators.Group.Finset.Basic
import Mathlib.Algebra.Order.BigOperators.Group.Finset
import Mathlib.Data.Finset.Max
import Mathlib.Logic.Relation

/-! # Counted references

    Nodes in memory point to a next one each, and count how many pointers point to
    them: those of other nodes and those that their users hold. The counts are exact
    if every step that moves a pointer moves the count with it, and then no pointer
    dangles, and without users nothing is left.
-/

namespace RefCount

structure Node (V : Type*) where
  next : Option Nat
  ref : Nat
  value : V

/-- The nodes at their addresses, which are below `size`. -/
structure Heap (V : Type*) where
  node : Nat → Option (Node V)
  size : Nat
  bounded : ∀ a, size ≤ a → node a = none

namespace Heap

variable {V : Type*}

def empty (size : Nat) : Heap V := ⟨fun _ => none, size, fun _ _ => rfl⟩

/-- Write a node, or none. -/
def set (h : Heap V) (a : Nat) (n : Option (Node V)) : Heap V where
  node := fun k => if k = a ∧ a < h.size then n else h.node k
  size := h.size
  bounded := by
    intro k hk
    rw [if_neg (by omega)]
    exact h.bounded k hk

/-- Where the node points to. -/
def succ (h : Heap V) (a : Nat) : Option Nat := (h.node a).bind Node.next

/-- What the node counts. -/
def refs (h : Heap V) (a : Nat) : Nat := ((h.node a).map Node.ref).getD 0

/-- How many nodes point to `p`. -/
def incoming (h : Heap V) (p : Nat) : Nat :=
  ∑ a ∈ Finset.range h.size, if h.succ a = some p then 1 else 0

/-- Change the node at `a`. Without one there is no result. -/
def modify (h : Heap V) (a : Nat) (f : Node V → Node V) : Option (Heap V) :=
  (h.node a).map fun n => h.set a (some (f n))

/-- How many nodes there are. -/
def live (h : Heap V) : Nat := ((Finset.range h.size).filter fun a => (h.node a).isSome).card

variable {h : Heap V} {a b p : Nat} {n : Node V}

theorem lt_size (ha : h.node a = some n) : a < h.size := by
  by_contra hle
  rw [h.bounded a (by omega)] at ha
  cases ha

@[simp] theorem set_size (h : Heap V) (a : Nat) (n : Option (Node V)) : (h.set a n).size = h.size :=
  rfl

theorem set_node_self (ha : a < h.size) (n : Option (Node V)) : (h.set a n).node a = n :=
  if_pos ⟨rfl, ha⟩

theorem set_node_other (hp : p ≠ a) (n : Option (Node V)) : (h.set a n).node p = h.node p :=
  if_neg fun hand => hp hand.1

theorem succ_eq (ha : h.node a = some n) : h.succ a = n.next := by
  unfold succ
  rw [ha]
  rfl

theorem refs_eq (ha : h.node a = some n) : h.refs a = n.ref := by
  unfold refs
  rw [ha]
  rfl

theorem refs_none (ha : h.node a = none) : h.refs a = 0 := by
  unfold refs
  rw [ha]
  rfl

theorem succ_set_self (ha : a < h.size) (n : Option (Node V)) :
    (h.set a n).succ a = n.bind Node.next := by
  unfold succ
  rw [set_node_self ha]

theorem succ_set_other (hp : p ≠ a) (n : Option (Node V)) : (h.set a n).succ p = h.succ p := by
  unfold succ
  rw [set_node_other hp]

theorem refs_set_self (ha : a < h.size) (n : Option (Node V)) :
    (h.set a n).refs a = (n.map Node.ref).getD 0 := by
  unfold refs
  rw [set_node_self ha]

theorem refs_set_other (hp : p ≠ a) (n : Option (Node V)) : (h.set a n).refs p = h.refs p := by
  unfold refs
  rw [set_node_other hp]

theorem succ_live (ha : h.succ a = some b) : ∃ n, h.node a = some n ∧ n.next = some b := by
  unfold succ at ha
  exact Option.bind_eq_some_iff.mp ha

/-- Writing a node takes its old pointer away and adds the new one. -/
theorem incoming_set (ha : a < h.size) (n : Option (Node V)) (p : Nat) :
    (h.set a n).incoming p + (if h.succ a = some p then 1 else 0) =
      h.incoming p + (if n.bind Node.next = some p then 1 else 0) := by
  have hmem : a ∈ Finset.range h.size := Finset.mem_range.mpr ha
  have hrest : ∀ k ∈ (Finset.range h.size).erase a,
      (if (h.set a n).succ k = some p then 1 else 0) = if h.succ k = some p then 1 else 0 := by
    intro k hk
    rw [succ_set_other (Finset.ne_of_mem_erase hk)]
  have hnew := Finset.add_sum_erase _ (fun k => if (h.set a n).succ k = some p then 1 else 0) hmem
  have hold := Finset.add_sum_erase _ (fun k => if h.succ k = some p then 1 else 0) hmem
  rw [Finset.sum_congr rfl hrest] at hnew
  rw [succ_set_self ha] at hnew
  unfold incoming
  rw [set_size]
  omega

theorem incoming_pos (hb : h.succ a = some b) : 0 < h.incoming b := by
  obtain ⟨n, ha, -⟩ := succ_live hb
  have hle := Finset.single_le_sum (f := fun k => if h.succ k = some b then 1 else 0)
    (fun _ _ => Nat.zero_le _) (Finset.mem_range.mpr (lt_size ha))
  rw [if_pos hb] at hle
  exact hle

theorem exists_of_incoming (hp : 0 < h.incoming p) : ∃ a, h.succ a = some p := by
  by_contra hno
  have hzero : h.incoming p = 0 := by
    apply Finset.sum_eq_zero
    intro a _
    rw [if_neg fun ha => hno ⟨a, ha⟩]
  omega

theorem modify_eq (ha : h.node a = some n) (f : Node V → Node V) :
    h.modify a f = some (h.set a (some (f n))) := by
  unfold modify
  rw [ha]
  rfl

theorem live_le (h : Heap V) : h.live ≤ h.size := by
  unfold live
  have hle := Finset.card_filter_le (Finset.range h.size) fun a => (h.node a).isSome
  rwa [Finset.card_range] at hle

/-- A node that goes is one less. -/
theorem live_dispose (ha : h.node a = some n) : (h.set a none).live + 1 = h.live := by
  have hmem : a ∈ (Finset.range h.size).filter fun k => (h.node k).isSome := by
    rw [Finset.mem_filter, Finset.mem_range, ha]
    exact ⟨lt_size ha, rfl⟩
  have herase : ((Finset.range h.size).filter fun k => ((h.set a none).node k).isSome) =
      ((Finset.range h.size).filter fun k => (h.node k).isSome).erase a := by
    ext k
    rw [Finset.mem_erase, Finset.mem_filter, Finset.mem_filter]
    by_cases hk : k = a
    · rw [hk, set_node_self (lt_size ha)]
      simp
    · rw [set_node_other hk]
      simp [hk]
  unfold live
  rw [set_size, herase]
  exact Finset.card_erase_add_one hmem

end Heap

/-! ## Exact counts -/

variable {V : Type*}

/-- A user takes a pointer. -/
def gain (owned : Nat → Nat) (a : Nat) : Nat → Nat := Function.update owned a (owned a + 1)

/-- A user gives one up. -/
def lose (owned : Nat → Nat) (a : Nat) : Nat → Nat := Function.update owned a (owned a - 1)

theorem gain_self (owned : Nat → Nat) (a : Nat) : gain owned a a = owned a + 1 := by
  simp [gain]

theorem lose_gain (owned : Nat → Nat) (a : Nat) : lose (gain owned a) a = owned := by
  funext p
  by_cases hp : p = a
  · simp [lose, gain, hp]
  · simp [lose, gain, hp]

theorem gain_lose {owned : Nat → Nat} {a : Nat} (ha : 0 < owned a) :
    gain (lose owned a) a = owned := by
  funext p
  by_cases hp : p = a
  · simp [lose, gain, hp]
    omega
  · simp [lose, gain, hp]

/-- The pointers lead from node to node. -/
def Reaches (h : Heap V) : Nat → Nat → Prop := Relation.ReflTransGen fun a b => h.succ a = some b

/-- Writing a value moves no pointer. -/
theorem succ_revalue {h : Heap V} {a : Nat} {n : Node V} (hn : h.node a = some n) (v : V) :
    (h.set a (some { n with value := v })).succ = h.succ := by
  funext p
  by_cases hp : p = a
  · rw [hp, Heap.succ_set_self (Heap.lt_size hn), Heap.succ_eq hn]
    rfl
  · exact Heap.succ_set_other hp _

theorem refs_revalue {h : Heap V} {a : Nat} {n : Node V} (hn : h.node a = some n) (v : V)
    (p : Nat) : (h.set a (some { n with value := v })).refs p = h.refs p := by
  by_cases hp : p = a
  · rw [hp, Heap.refs_set_self (Heap.lt_size hn), Heap.refs_eq hn]
    rfl
  · exact Heap.refs_set_other hp _

theorem Reaches.congr {h h' : Heap V} (hsame : h'.succ = h.succ) {a b : Nat} :
    Reaches h' a b ↔ Reaches h a b := by
  unfold Reaches
  rw [hsame]

/-- A node without a pointer leads to itself only. -/
theorem Reaches.eq_of_end {h : Heap V} {a b : Nat} (hend : h.succ a = none)
    (hb : Reaches h a b) : b = a := by
  cases hb.cases_head with
  | inl hsame => exact hsame.symm
  | inr hmore =>
    obtain ⟨c, hc, -⟩ := hmore
    rw [hend] at hc
    cases hc

/-- Every count is that of the users' pointers and of the nodes', no node that nobody points to is
    kept, and the pointers do not lead in circles. -/
structure Counted (h : Heap V) (owned : Nat → Nat) : Prop where
  live : ∀ a n, h.node a = some n → 0 < n.ref
  exact_count : ∀ a, h.refs a = owned a + h.incoming a
  ranked : ∃ rank : Nat → Nat, ∀ a b, h.succ a = some b → rank b < rank a

namespace Counted

open Heap

variable {h : Heap V} {owned : Nat → Nat} {a b : Nat} {n : Node V}

theorem empty (size : Nat) : Counted (Heap.empty size : Heap V) fun _ => 0 := by
  constructor
  · intro a n ha
    cases ha
  · intro a
    have hno : (Heap.empty size : Heap V).incoming a = 0 := by
      by_contra hne
      obtain ⟨b, hb⟩ := exists_of_incoming (Nat.pos_of_ne_zero hne)
      cases hb
    rw [hno]
    rfl
  · refine ⟨fun _ => 0, ?_⟩
    intro a b hb
    cases hb

/-- **Nothing dangles**: what a user points to is there. -/
theorem live_of_owned (hc : Counted h owned) (ha : 0 < owned a) : ∃ n, h.node a = some n := by
  cases hnode : h.node a with
  | some n => exact ⟨n, rfl⟩
  | none =>
    have hcount := hc.exact_count a
    rw [refs_none hnode] at hcount
    omega

/-- And so is what a node points to. -/
theorem live_of_succ (hc : Counted h owned) (hb : h.succ a = some b) : ∃ n, h.node b = some n := by
  cases hnode : h.node b with
  | some n => exact ⟨n, rfl⟩
  | none =>
    have hcount := hc.exact_count b
    have hpos := incoming_pos hb
    rw [refs_none hnode] at hcount
    omega

/-- All that the users can get at is there. -/
theorem live_of_reaches (hc : Counted h owned) (ha : 0 < owned a) (hb : Reaches h a b) :
    ∃ n, h.node b = some n := by
  cases hb.cases_tail with
  | inl hsame =>
    rw [hsame]
    exact hc.live_of_owned ha
  | inr hlast =>
    obtain ⟨c, -, hc'⟩ := hlast
    exact hc.live_of_succ hc'

/-- **Nothing is left over**: without users' pointers there is no node. -/
theorem all_gone (hc : Counted h owned) (hnone : ∀ a, owned a = 0) : ∀ a, h.node a = none := by
  intro a
  by_contra hlive
  obtain ⟨rank, hrank⟩ := hc.ranked
  have hne : ((Finset.range h.size).filter fun k => (h.node k).isSome).Nonempty := by
    refine ⟨a, ?_⟩
    rw [Finset.mem_filter, Finset.mem_range]
    obtain ⟨n, hn⟩ := Option.ne_none_iff_exists'.mp hlive
    exact ⟨lt_size hn, by rw [hn]; rfl⟩
  -- nothing points to the node of the highest rank
  obtain ⟨top, htop, hmax⟩ := Finset.exists_max_image _ rank hne
  obtain ⟨n, hn⟩ := Option.isSome_iff_exists.mp (Finset.mem_filter.mp htop).2
  have hcount := hc.exact_count top
  have hpos := hc.live top n hn
  rw [refs_eq hn, hnone] at hcount
  obtain ⟨c, hsucc⟩ := exists_of_incoming (h := h) (p := top) (by omega)
  obtain ⟨m, hm, -⟩ := succ_live hsucc
  have hle := hmax c (Finset.mem_filter.mpr
    ⟨Finset.mem_range.mpr (lt_size hm), by rw [hm]; rfl⟩)
  have hlt := hrank c top hsucc
  omega

/-- A chain is shorter than the memory: the ranks can be counted off below its size. -/
theorem ranked_below (hc : Counted h owned) :
    ∃ rank : Nat → Nat, (∀ a b, h.succ a = some b → rank b < rank a) ∧
      ∀ a n, h.node a = some n → rank a < h.size := by
  obtain ⟨rank, hrank⟩ := hc.ranked
  let nodes := (Finset.range h.size).filter fun k => (h.node k).isSome
  have hnodes : ∀ {a n}, h.node a = some n → a ∈ nodes := by
    intro a n ha
    rw [Finset.mem_filter, Finset.mem_range, ha]
    exact ⟨lt_size ha, rfl⟩
  -- how many nodes have a lower rank
  refine ⟨fun a => (nodes.filter fun k => rank k < rank a).card, ?_, ?_⟩
  · intro a b hsucc
    obtain ⟨m, hm⟩ := hc.live_of_succ hsucc
    have hlt := hrank a b hsucc
    apply Finset.card_lt_card
    constructor
    · intro k hk
      rw [Finset.mem_filter] at hk ⊢
      exact ⟨hk.1, hk.2.trans hlt⟩
    · intro hsub
      have hb := hsub (Finset.mem_filter.mpr ⟨hnodes hm, hlt⟩)
      exact (Finset.mem_filter.mp hb).2.false
  · intro a n ha
    have hless : (nodes.filter fun k => rank k < rank a).card < nodes.card := by
      apply Finset.card_lt_card
      constructor
      · exact Finset.filter_subset _ _
      · intro hsub
        exact (Finset.mem_filter.mp (hsub (hnodes ha))).2.false
    exact hless.trans_le h.live_le

/-! ## One write -/

/-- The counts stay exact if a write changes the count of its node and the users' pointers as it
    changes what the node points to. -/
theorem set (hc : Counted h owned) (ha : a < h.size) (n : Option (Node V)) {owned' : Nat → Nat}
    (hlive : ∀ m, n = some m → 0 < m.ref)
    (hbalance : ∀ p, (if p = a then (n.map Node.ref).getD 0 else h.refs p) + owned p +
        (if h.succ a = some p then 1 else 0) =
      h.refs p + owned' p + (if n.bind Node.next = some p then 1 else 0))
    (hranked : ∃ rank : Nat → Nat, ∀ b c, (h.set a n).succ b = some c → rank c < rank b) :
    Counted (h.set a n) owned' := by
  refine ⟨?_, ?_, hranked⟩
  · intro b m hm
    by_cases hb : b = a
    · rw [hb, set_node_self ha] at hm
      exact hlive m hm
    · rw [set_node_other hb] at hm
      exact hc.live b m hm
  · intro p
    have hcount := hc.exact_count p
    have hmove := incoming_set ha n p
    have hp := hbalance p
    by_cases hpa : p = a
    · rw [if_pos hpa] at hp
      rw [hpa] at hp hcount hmove ⊢
      rw [refs_set_self ha]
      omega
    · rw [if_neg hpa] at hp
      rw [refs_set_other hpa]
      omega

/-- A write that makes no node point elsewhere leads in no circles. -/
theorem ranked_set (hc : Counted h owned) {n : Option (Node V)}
    (hnext : n.bind Node.next = none ∨ n.bind Node.next = h.succ a) :
    ∃ rank : Nat → Nat, ∀ b c, (h.set a n).succ b = some c → rank c < rank b := by
  obtain ⟨rank, hrank⟩ := hc.ranked
  refine ⟨rank, ?_⟩
  intro b c hsucc
  apply hrank
  by_cases hb : b = a
  · subst hb
    by_cases hlt : b < h.size
    · rw [succ_set_self hlt] at hsucc
      rcases hnext with hnone | hsame
      · rw [hnone] at hsucc
        cases hsucc
      · rw [← hsame]
        exact hsucc
    · have hsame : (h.set b n).succ b = h.succ b := by
        unfold Heap.succ Heap.set
        dsimp only
        rw [if_neg fun hand => hlt hand.2]
      rw [← hsame]
      exact hsucc
  · rw [succ_set_other hb] at hsucc
    exact hsucc

/-! ## Moves -/

/-- A new node, which its user points to. -/
theorem fresh (hc : Counted h owned) (ha : a < h.size) (hnone : h.node a = none) (v : V) :
    Counted (h.set a (some ⟨none, 1, v⟩)) (gain owned a) := by
  have hsucc : h.succ a = none := by
    unfold Heap.succ
    rw [hnone]
    rfl
  apply hc.set ha _ _ _ (hc.ranked_set (.inl rfl))
  · intro m hm
    cases hm
    exact Nat.one_pos
  · intro p
    rw [hsucc]
    by_cases hp : p = a
    · rw [if_pos hp, hp, refs_none hnone]
      simp [gain]
      omega
    · simp [gain, hp]

/-- Only the value changes. -/
theorem revalue (hc : Counted h owned) (hn : h.node a = some n) (v : V) :
    Counted (h.set a (some { n with value := v })) owned := by
  apply hc.set (lt_size hn)
  · intro m hm
    cases hm
    exact hc.live a n hn
  · intro p
    rw [succ_eq hn]
    by_cases hp : p = a
    · rw [if_pos hp, hp, refs_eq hn]
      rfl
    · rw [if_neg hp]
      rfl
  · exact hc.ranked_set (.inr (succ_eq hn).symm)

/-- One more user. -/
theorem retain (hc : Counted h owned) (hn : h.node a = some n) :
    Counted (h.set a (some { n with ref := n.ref + 1 })) (gain owned a) := by
  apply hc.set (lt_size hn)
  · intro m hm
    cases hm
    exact Nat.succ_pos _
  · intro p
    rw [succ_eq hn]
    by_cases hp : p = a
    · rw [if_pos hp, hp, refs_eq hn]
      simp [gain]
      omega
    · simp [gain, hp]
  · exact hc.ranked_set (.inr (succ_eq hn).symm)

/-- One user less, of several. -/
theorem drop (hc : Counted h owned) (hn : h.node a = some n) (ha : 0 < owned a) (href : 1 < n.ref) :
    Counted (h.set a (some { n with ref := n.ref - 1 })) (lose owned a) := by
  apply hc.set (lt_size hn)
  · intro m hm
    cases hm
    exact Nat.sub_pos_of_lt href
  · intro p
    rw [succ_eq hn]
    by_cases hp : p = a
    · rw [if_pos hp, hp, refs_eq hn]
      simp [lose]
      omega
    · simp [lose, hp]
  · exact hc.ranked_set (.inr (succ_eq hn).symm)

/-- The last user goes, and the node with it: its own pointer is left to the user. -/
theorem dispose (hc : Counted h owned) (hn : h.node a = some n) (ha : 0 < owned a)
    (href : n.ref = 1) :
    Counted (h.set a none) (n.next.elim (lose owned a) (gain (lose owned a))) := by
  apply hc.set (lt_size hn) _ _ _ (hc.ranked_set (.inl rfl))
  · intro m hm
    cases hm
  · intro p
    rw [succ_eq hn]
    cases hnext : n.next with
    | none =>
      by_cases hp : p = a
      · rw [if_pos hp, hp, refs_eq hn]
        simp [lose]
        omega
      · simp [lose, hp]
    | some b =>
      have hne : b ≠ a := by
        obtain ⟨rank, hrank⟩ := hc.ranked
        rintro rfl
        exact (hrank b b ((succ_eq hn).trans hnext)).false
      by_cases hp : p = a
      · rw [if_pos hp, hp, refs_eq hn]
        simp [gain, lose, hne, Ne.symm hne]
        omega
      · by_cases hpb : p = b
        · rw [hpb]
          simp [gain, lose, hne]
          omega
        · have hbp : b ≠ p := Ne.symm hpb
          simp [gain, lose, hp, hpb, hbp]

/-- A user's pointer becomes the one of a node that had none. -/
theorem link (hc : Counted h owned) (hn : h.node a = some n) (hnext : n.next = none)
    (hb : 0 < owned b) (hno : ¬ Reaches h b a) (v : V) :
    Counted (h.set a (some { n with next := some b, value := v })) (lose owned b) := by
  have hlt := lt_size hn
  apply hc.set hlt
  · intro m hm
    cases hm
    exact hc.live a n hn
  · intro p
    rw [succ_eq hn, hnext]
    by_cases hpb : p = b
    · subst hpb
      by_cases hp : p = a
      · rw [if_pos hp, hp, refs_eq hn]
        rw [hp] at hb
        simp [lose]
        omega
      · simp [lose, hp]
        omega
    · have hbp : b ≠ p := Ne.symm hpb
      by_cases hp : p = a
      · rw [if_pos hp, hp, refs_eq hn]
        rw [hp] at hbp
        simp [lose, hbp, Ne.symm hbp]
      · simp [lose, hp, hpb, hbp]
  · -- what leads to `a` now leads to `b` too, and is put above it
    classical
    obtain ⟨rank, hrank⟩ := hc.ranked
    refine ⟨fun p => if Reaches h p a then rank p + rank b + 1 else rank p, ?_⟩
    intro p q hq
    by_cases hp : p = a
    · subst hp
      rw [succ_set_self hlt] at hq
      cases hq
      have hself : Reaches h p p := Relation.ReflTransGen.refl
      dsimp only
      rw [if_neg hno, if_pos hself]
      omega
    · rw [succ_set_other hp] at hq
      have hless := hrank p q hq
      dsimp only
      by_cases hreach : Reaches h q a
      · have hlonger : Reaches h p a :=
          Relation.ReflTransGen.head (r := fun a b => h.succ a = some b) hq hreach
        rw [if_pos hreach, if_pos hlonger]
        omega
      · rw [if_neg hreach]
        split <;> omega

/-- The pointer of a node is taken over by the user. -/
theorem unlink (hc : Counted h owned) (hn : h.node a = some n) (hnext : n.next = some b) (v : V) :
    Counted (h.set a (some { n with next := none, value := v })) (gain owned b) := by
  apply hc.set (lt_size hn) _ _ _ (hc.ranked_set (.inl rfl))
  · intro m hm
    cases hm
    exact hc.live a n hn
  · intro p
    rw [succ_eq hn, hnext]
    by_cases hpb : p = b
    · subst hpb
      by_cases hp : p = a
      · rw [if_pos hp, hp, refs_eq hn]
        simp [gain]
        omega
      · simp [gain, hp]
        omega
    · have hbp : b ≠ p := Ne.symm hpb
      by_cases hp : p = a
      · rw [if_pos hp, hp, refs_eq hn]
        rw [hp] at hbp
        simp [gain, hbp, Ne.symm hbp]
      · simp [gain, hp, hpb, hbp]

end Counted

end RefCount
