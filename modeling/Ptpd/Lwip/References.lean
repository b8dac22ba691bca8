import Ptpd.Lwip.Pbuf

/-! # Who holds which packet buffer (`lwip-1.3.1/src/core/pbuf.c`)

    The rules that `pbuf.c` writes at its functions: a pointer is given up once, by
    `pbuf_free` or to `pbuf_cat`, and two chains are joined only if they are apart.
    Users who keep them never touch a pbuf that is gone, and leave none behind.
-/

namespace Ptpd

open RefCount

/-! ## Calls -/

inductive PbufCall where
  | alloc (layer : PbufLayer) (length : Nat) (type : PbufType)
  | free (p : Nat)
  | ref (p : Nat)
  | cat (head t : Nat)
  | chain (head t : Nat)
  | dechain (p : Nat)

/-- The pointer that the call returns, and the pbufs after it. -/
def PbufCall.perform (malloc : Malloc) (h : Pbufs) : PbufCall → Option (Option Nat × Pbufs)
  | alloc layer length type => pbuf_alloc malloc layer length type h
  | free p => (pbuf_free h (some p)).map fun (h, _) => (none, h)
  | ref p => (pbuf_ref h p).map fun h => (some p, h)
  | cat head t => (pbuf_cat h head t).map fun h => (some head, h)
  | chain head t => (pbuf_chain h head t).map fun h => (some head, h)
  | dechain p => (pbuf_dechain h p).map fun (h, rest) => (rest, h)

/-- The users' pointers after the call, which returned `got`. -/
def PbufCall.owned (owned : Nat → Nat) (got : Option Nat) : PbufCall → Nat → Nat
  | alloc _ _ _ => got.elim owned (gain owned)
  | free p => lose owned p
  | ref p => gain owned p
  | cat _ t => lose owned t
  | chain _ _ => owned
  | dechain _ => owned

/-- The chains have no pbuf in common. -/
def Apart (h : Pbufs) (p t : Nat) : Prop := ∀ q, Reaches h p q → ¬ Reaches h t q

/-- The users have the pointers that they pass, `pbuf_cat` gets two chains, and there is room for
    one more in the 16 bits of the count. -/
def PbufCall.Permitted (h : Pbufs) (owned : Nat → Nat) : PbufCall → Prop
  | alloc _ _ _ => True
  | free p => 0 < owned p
  | ref p => 0 < owned p ∧ h.refs p < 65535
  | cat head t => 0 < owned head ∧ 0 < owned t ∧ Apart h head t
  | chain head t => 0 < owned head ∧ 0 < owned t ∧ Apart h head t ∧ h.refs t < 65535
  | dechain p => 0 < owned p

/-- The allocators give memory that nobody has. -/
def Malloc.Fresh (malloc : Malloc) : Prop :=
  ∀ type size h p, malloc type size h = some p → p < h.size ∧ h.node p = none

/-- The pbufs and the users' pointers after permitted calls in any order, each with what the
    allocators had at that time. -/
inductive Usage (size : Nat) : Pbufs → (Nat → Nat) → Prop where
  | start : Usage size (Heap.empty size) fun _ => 0
  | call : ∀ {h owned h'} (malloc : Malloc) (c : PbufCall) (got : Option Nat),
      Usage size h owned → malloc.Fresh → c.Permitted h owned →
      c.perform malloc h = some (got, h') → Usage size h' (c.owned owned got)

/-! ## What a call keeps -/

/-- The counts are exact and fit into 16 bits. -/
structure Sound (h : Pbufs) (owned : Nat → Nat) : Prop where
  counted : Counted h owned
  small : ∀ a n, h.node a = some n → n.ref < 65536

namespace Sound

variable {h : Pbufs} {owned : Nat → Nat} {a p r t q : Nat} {n : PbufNode} {malloc : Malloc}

/-- What is written fits if the count does. -/
theorem set_small (hs : Sound h owned) {n : Option PbufNode} (hn : ∀ m, n = some m → m.ref < 65536) :
    ∀ b m, (h.set a n).node b = some m → m.ref < 65536 := by
  intro b m hm
  by_cases hb : b = a ∧ a < h.size
  · rw [hb.1, Heap.set_node_self hb.2] at hm
    exact hn m hm
  · have hsame : (h.set a n).node b = h.node b := if_neg hb
    rw [hsame] at hm
    exact hs.small b m hm

theorem owned_node (hs : Sound h owned) (hp : 0 < owned p) : ∃ n, h.node p = some n :=
  hs.counted.live_of_owned hp

theorem fresh (hs : Sound h owned) (hlt : a < h.size) (hnone : h.node a = none) (v : PbufData) :
    Sound (h.set a (some ⟨none, 1, v⟩)) (gain owned a) := by
  constructor
  · exact hs.counted.fresh hlt hnone v
  · apply hs.set_small
    intro m hm
    cases hm
    exact Nat.lt_of_sub_eq_succ rfl

theorem revalue (hs : Sound h owned) (hn : h.node a = some n) (v : PbufData) :
    Sound (h.set a (some { n with value := v })) owned := by
  constructor
  · exact hs.counted.revalue hn v
  · apply hs.set_small
    intro m hm
    cases hm
    exact hs.small a n hn

theorem link (hs : Sound h owned) (hn : h.node a = some n) (hnext : n.next = none)
    (ht : 0 < owned t) (hno : ¬ Reaches h t a) (v : PbufData) :
    Sound (h.set a (some { n with next := some t, value := v })) (lose owned t) := by
  constructor
  · exact hs.counted.link hn hnext ht hno v
  · apply hs.set_small
    intro m hm
    cases hm
    exact hs.small a n hn

theorem unlink (hs : Sound h owned) (hn : h.node a = some n) (hnext : n.next = some t)
    (v : PbufData) :
    Sound (h.set a (some { n with next := none, value := v })) (gain owned t) := by
  constructor
  · exact hs.counted.unlink hn hnext v
  · apply hs.set_small
    intro m hm
    cases hm
    exact hs.small a n hn

/-- `pbuf_free` takes back one pointer of a user. The induction is on the number of pbufs: where the
    count was 1 the pbuf goes, and its own pointer is the next one to give up. -/
theorem free (hs : Sound h owned) (hp : 0 < owned p) :
    ∃ h' count, pbuf_free h (some p) = some (h', count) ∧ Sound h' (lose owned p) := by
  induction hlive : h.live using Nat.strong_induction_on generalizing h owned p with
  | _ k ih =>
    obtain ⟨n, hn⟩ := hs.owned_node hp
    have hpos := hs.counted.live p n hn
    have hsmall := hs.small p n hn
    by_cases hone : n.ref = 1
    · rw [pbuf_free_last hn hone]
      have hgone : Sound (h.set p none) (n.next.elim (lose owned p) (gain (lose owned p))) := by
        constructor
        · exact hs.counted.dispose hn hp hone
        · apply hs.set_small
          intro m hm
          cases hm
      cases hnext : n.next with
      | none =>
        rw [hnext] at hgone
        rw [pbuf_free_none]
        exact ⟨_, _, rfl, hgone⟩
      | some b =>
        rw [hnext] at hgone
        have hless := Heap.live_dispose hn
        have hb : 0 < gain (lose owned p) b b := by
          rw [gain_self]
          exact Nat.succ_pos _
        obtain ⟨h', count, hfree, hs'⟩ := ih _ (by omega) hgone hb rfl
        rw [Option.elim_some, lose_gain] at hs'
        rw [hfree]
        exact ⟨_, _, rfl, hs'⟩
    · rw [pbuf_free_shared hn (by omega) hsmall]
      refine ⟨_, _, rfl, ?_⟩
      constructor
      · exact hs.counted.drop hn hp (by omega)
      · apply hs.set_small
        intro m hm
        cases hm
        dsimp only
        omega

/-- `pbuf_ref` gives a pointer to a pbuf that is there. -/
theorem ref (hs : Sound h owned) (hn : h.node p = some n) (hroom : h.refs p < 65535) :
    ∃ h', pbuf_ref h p = some h' ∧ Sound h' (gain owned p) := by
  rw [Heap.refs_eq hn] at hroom
  have hsucc : (n.ref + 1) % 65536 = n.ref + 1 := Nat.mod_eq_of_lt (by omega)
  unfold pbuf_ref
  rw [Heap.modify_eq hn, hsucc]
  refine ⟨_, rfl, ?_⟩
  constructor
  · exact hs.counted.retain hn
  · apply hs.set_small
    intro m hm
    cases hm
    dsimp only
    omega

/-! ## Allocation -/

/-- The chain grows at its end: the new pbuf is the user's until the last one points to it. -/
theorem allocTail (hmalloc : malloc.Fresh) (rem_len : Nat) (hs : Sound h (gain owned p))
    (hn : h.node r = some n) (hend : n.next = none) :
    ∃ got h', allocTail malloc p r rem_len h = some (got, h') ∧
      Sound h' (got.elim owned (gain owned)) := by
  induction rem_len using Nat.strong_induction_on generalizing h r n with
  | _ rem_len ih =>
    rw [Ptpd.allocTail.eq_def]
    by_cases hmore : rem_len > 0
    · rw [if_pos hmore]
      cases halloc : malloc .PBUF_POOL PBUF_POOL_BUFSIZE h with
      | none =>
        have hp : 0 < gain owned p p := by
          rw [gain_self]
          exact Nat.succ_pos _
        obtain ⟨h', count, hfree, hs'⟩ := hs.free hp
        rw [lose_gain] at hs'
        refine ⟨none, h', ?_, hs'⟩
        dsimp only
        rw [hfree]
        rfl
      | some q =>
        dsimp only
        obtain ⟨hlt, hnone⟩ := hmalloc _ _ _ _ halloc
        have hne : r ≠ q := by
          rintro rfl
          rw [hn] at hnone
          cases hnone
        generalize hv : (⟨.PBUF_POOL, some 0, rem_len,
          min rem_len (LWIP_MEM_ALIGN_SIZE PBUF_POOL_BUFSIZE)⟩ : PbufData) = v
        have hnew := hs.fresh hlt hnone v
        have hr : (h.set q (some ⟨none, 1, v⟩)).node r = some n := by
          rw [Heap.set_node_other hne]
          exact hn
        have hq : (h.set q (some ⟨none, 1, v⟩)).succ q = none := Heap.succ_set_self hlt _
        rw [Heap.modify_eq hr]
        dsimp only
        have hlinked := hnew.link hr hend (t := q) (by rw [gain_self]; exact Nat.succ_pos _)
          (fun hback => hne (Reaches.eq_of_end hq hback)) n.value
        rw [lose_gain] at hlinked
        have hless : rem_len - min rem_len (LWIP_MEM_ALIGN_SIZE PBUF_POOL_BUFSIZE) < rem_len := by
          have hsize : 0 < LWIP_MEM_ALIGN_SIZE PBUF_POOL_BUFSIZE := by decide
          omega
        apply ih _ hless hlinked (n := ⟨none, 1, v⟩) _ rfl
        rw [Heap.set_node_other (Ne.symm hne), Heap.set_node_self hlt]
    · rw [if_neg hmore]
      exact ⟨some p, h, rfl, hs⟩

theorem alloc (hmalloc : malloc.Fresh) (hs : Sound h owned) (layer : PbufLayer) (length : Nat)
    (type : PbufType) :
    ∃ got h', pbuf_alloc malloc layer length type h = some (got, h') ∧
      Sound h' (got.elim owned (gain owned)) := by
  unfold pbuf_alloc
  cases type with
  | PBUF_POOL =>
    dsimp only
    cases halloc : malloc .PBUF_POOL PBUF_POOL_BUFSIZE h with
    | none => exact ⟨none, h, rfl, hs⟩
    | some p =>
      obtain ⟨hlt, hnone⟩ := hmalloc _ _ _ _ halloc
      exact (hs.fresh hlt hnone _).allocTail hmalloc _ (Heap.set_node_self hlt _) rfl
  | PBUF_RAM =>
    dsimp only
    generalize LWIP_MEM_ALIGN_SIZE layer.offset + LWIP_MEM_ALIGN_SIZE length = size
    cases halloc : malloc .PBUF_RAM size h with
    | none => exact ⟨none, h, rfl, hs⟩
    | some p =>
      obtain ⟨hlt, hnone⟩ := hmalloc _ _ _ _ halloc
      exact ⟨some p, _, rfl, hs.fresh hlt hnone _⟩
  | PBUF_ROM =>
    dsimp only
    cases halloc : malloc .PBUF_ROM 0 h with
    | none => exact ⟨none, h, rfl, hs⟩
    | some p =>
      obtain ⟨hlt, hnone⟩ := hmalloc _ _ _ _ halloc
      exact ⟨some p, _, rfl, hs.fresh hlt hnone _⟩
  | PBUF_REF =>
    dsimp only
    cases halloc : malloc .PBUF_REF 0 h with
    | none => exact ⟨none, h, rfl, hs⟩
    | some p =>
      obtain ⟨hlt, hnone⟩ := hmalloc _ _ _ _ halloc
      exact ⟨some p, _, rfl, hs.fresh hlt hnone _⟩

/-! ## Chains -/

/-- The loop comes to the end of the chain: each pbuf has a lower rank than the one before. -/
theorem catLoop (fuel : Nat) (hs : Sound h owned) (hp : h.node p = some n) (ht : 0 < owned t)
    (hapart : Apart h p t) {rank : Nat → Nat} (hrank : ∀ a b, h.succ a = some b → rank b < rank a)
    (hfuel : rank p < fuel) :
    ∃ h', catLoop t fuel p h = some h' ∧ Sound h' (lose owned t) ∧ ∀ a, h'.refs a = h.refs a := by
  induction fuel generalizing h p n with
  | zero => exact absurd hfuel (Nat.not_lt_zero _)
  | succ fuel ih =>
    obtain ⟨tail, htail⟩ := hs.owned_node ht
    rw [Ptpd.catLoop, hp, htail]
    dsimp only
    cases hnext : n.next with
    | none =>
      refine ⟨_, rfl, hs.link hp hnext ht (hapart p Relation.ReflTransGen.refl) _, ?_⟩
      intro a
      by_cases ha : a = p
      · rw [ha, Heap.refs_set_self (Heap.lt_size hp), Heap.refs_eq hp]
        rfl
      · exact Heap.refs_set_other ha _
    | some q =>
      dsimp only
      generalize hv : ({ n.value with
        tot_len := (n.value.tot_len + tail.value.tot_len) % 65536 } : PbufData) = v
      have hsucc : h.succ p = some q := (Heap.succ_eq hp).trans hnext
      have hsame := succ_revalue hp v
      obtain ⟨m, hm⟩ := (hs.revalue hp v).counted.live_of_succ (by rw [hsame]; exact hsucc)
      have hfurther : Apart (h.set p (some { n with value := v })) q t := by
        intro b hb hback
        apply hapart b _ ((Reaches.congr hsame).mp hback)
        exact Relation.ReflTransGen.head (r := fun a b => h.succ a = some b) hsucc
          ((Reaches.congr hsame).mp hb)
      have hless := hrank p q hsucc
      obtain ⟨h', hcat, hs', hrefs⟩ := ih (hs.revalue hp v) hm hfurther (by rw [hsame]; exact hrank)
        (by omega)
      rw [hnext] at hcat
      refine ⟨h', hcat, hs', ?_⟩
      intro a
      rw [hrefs, refs_revalue hp]

theorem cat (hs : Sound h owned) (hp : 0 < owned p) (ht : 0 < owned t) (hapart : Apart h p t) :
    ∃ h', pbuf_cat h p t = some h' ∧ Sound h' (lose owned t) ∧ ∀ a, h'.refs a = h.refs a := by
  obtain ⟨n, hn⟩ := hs.owned_node hp
  obtain ⟨rank, hrank, hbelow⟩ := hs.counted.ranked_below
  exact hs.catLoop h.size hn ht hapart hrank (hbelow p n hn)

/-- After `pbuf_cat` the user has given the pointer away, and `pbuf_ref` gives it back. -/
theorem chain (hs : Sound h owned) (hp : 0 < owned p) (ht : 0 < owned t) (hapart : Apart h p t)
    (hroom : h.refs t < 65535) : ∃ h', pbuf_chain h p t = some h' ∧ Sound h' owned := by
  obtain ⟨h₁, hcat, hs₁, hrefs⟩ := hs.cat hp ht hapart
  -- the pointer of the chain's last pbuf counts, whoever else has one
  have hlive : ∃ n, h₁.node t = some n := by
    obtain ⟨n, hn⟩ := hs.owned_node ht
    cases hnode : h₁.node t with
    | some m => exact ⟨m, rfl⟩
    | none =>
      have hsame := hrefs t
      have hpos := hs.counted.live t n hn
      rw [Heap.refs_none hnode, Heap.refs_eq hn] at hsame
      omega
  obtain ⟨m, hm⟩ := hlive
  obtain ⟨h', href, hs'⟩ := hs₁.ref hm (by rw [hrefs]; exact hroom)
  rw [gain_lose ht] at hs'
  refine ⟨h', ?_, hs'⟩
  unfold pbuf_chain
  rw [hcat]
  exact href

/-- The rest of the chain is the user's for a moment, until it is freed. -/
theorem dechain (hs : Sound h owned) (hp : 0 < owned p) :
    ∃ h' rest, pbuf_dechain h p = some (h', rest) ∧ Sound h' owned := by
  obtain ⟨n, hn⟩ := hs.owned_node hp
  unfold pbuf_dechain
  rw [hn]
  dsimp only [Option.bind_eq_bind, Option.bind_some]
  cases hnext : n.next with
  | none => exact ⟨h, none, rfl, hs⟩
  | some q =>
    have hsucc : h.succ p = some q := (Heap.succ_eq hn).trans hnext
    obtain ⟨tail, htail⟩ := hs.counted.live_of_succ hsucc
    have hne : p ≠ q := by
      obtain ⟨rank, hrank⟩ := hs.counted.ranked
      rintro rfl
      exact (hrank p p hsucc).false
    dsimp only
    rw [Heap.modify_eq htail]
    dsimp only [Option.bind_some]
    generalize hv : ({ tail.value with
      tot_len := (n.value.tot_len + 65536 - n.value.len) % 65536 } : PbufData) = v
    have hn' : (h.set q (some { tail with value := v })).node p = some n := by
      rw [Heap.set_node_other hne]
      exact hn
    rw [Heap.modify_eq hn']
    dsimp only [Option.bind_some]
    have hopen := (hs.revalue htail v).unlink hn' hnext { n.value with tot_len := n.value.len }
    obtain ⟨h', count, hfree, hs'⟩ := hopen.free (p := q) (by rw [gain_self]; exact Nat.succ_pos _)
    rw [lose_gain] at hs'
    rw [hfree]
    exact ⟨h', _, rfl, hs'⟩

/-! ## Runs -/

/-- **A permitted call returns**, and the counts stay exact. -/
theorem perform (hmalloc : malloc.Fresh) (hs : Sound h owned) (c : PbufCall)
    (hc : c.Permitted h owned) :
    ∃ got h', c.perform malloc h = some (got, h') ∧ Sound h' (c.owned owned got) := by
  unfold PbufCall.perform
  cases c with
  | alloc layer length type => exact hs.alloc hmalloc layer length type
  | free p =>
    obtain ⟨h', count, hfree, hs'⟩ := hs.free hc
    dsimp only
    rw [hfree]
    exact ⟨none, h', rfl, hs'⟩
  | ref p =>
    obtain ⟨n, hn⟩ := hs.owned_node hc.1
    obtain ⟨h', href, hs'⟩ := hs.ref hn hc.2
    dsimp only
    rw [href]
    exact ⟨some p, h', rfl, hs'⟩
  | cat head t =>
    obtain ⟨h', hcat, hs', -⟩ := hs.cat hc.1 hc.2.1 hc.2.2
    dsimp only
    rw [hcat]
    exact ⟨some head, h', rfl, hs'⟩
  | chain head t =>
    obtain ⟨h', hchain, hs'⟩ := hs.chain hc.1 hc.2.1 hc.2.2.1 hc.2.2.2
    dsimp only
    rw [hchain]
    exact ⟨some head, h', rfl, hs'⟩
  | dechain p =>
    obtain ⟨h', rest, hdechain, hs'⟩ := hs.dechain hc
    dsimp only
    rw [hdechain]
    exact ⟨rest, h', rfl, hs'⟩

end Sound

theorem Usage.sound {size : Nat} {h : Pbufs} {owned : Nat → Nat} (hu : Usage size h owned) :
    Sound h owned := by
  induction hu with
  | start =>
    constructor
    · exact Counted.empty size
    · intro a n ha
      cases ha
  | call malloc c got _ hmalloc hc hgot ih =>
    obtain ⟨got', h'', hperform, hs'⟩ := ih.perform hmalloc c hc
    rw [hgot] at hperform
    cases hperform
    exact hs'

/-- **No pbuf dangles and none is lost.** Whatever calls the users made, in any order and with any
    outcome of the allocators, what they can get at is there, the counts are those of the
    pointers, every further permitted call returns, and once they have given up all their
    pointers no pbuf is left. -/
theorem pbufs_accounted {size : Nat} {h : Pbufs} {owned : Nat → Nat} (hu : Usage size h owned) :
    (∀ a b, 0 < owned a → Reaches h a b → ∃ n, h.node b = some n) ∧
    (∀ a n, h.node a = some n → n.ref = owned a + h.incoming a ∧ 0 < n.ref) ∧
    (∀ (malloc : Malloc) (c : PbufCall), malloc.Fresh → c.Permitted h owned →
      ∃ got h', c.perform malloc h = some (got, h')) ∧
    ((∀ a, owned a = 0) → ∀ a, h.node a = none) := by
  have hs := hu.sound
  refine ⟨?_, ?_, ?_, ?_⟩
  · intro a b ha hb
    exact hs.counted.live_of_reaches ha hb
  · intro a n ha
    constructor
    · rw [← Heap.refs_eq ha]
      exact hs.counted.exact_count a
    · exact hs.counted.live a n ha
  · intro malloc c hmalloc hc
    obtain ⟨got, h', hperform, -⟩ := hs.perform hmalloc c hc
    exact ⟨got, h', hperform⟩
  · exact hs.counted.all_gone

/-- The lowest address without a pbuf. -/
def firstFree : Malloc := fun _ _ h => (List.range h.size).find? fun a => (h.node a).isNone

theorem firstFree_fresh : firstFree.Fresh := by
  intro type size h p hp
  constructor
  · exact List.mem_range.mp (List.mem_of_find?_eq_some hp)
  · exact Option.isNone_iff_eq_none.mp (List.find?_some (p := fun a => (h.node a).isNone) hp)

/-- A payload is chained to a header, and the user keeps both. -/
theorem pbufs_accounted_twoChained :
    ∃ h, Usage 2 h (gain (gain (fun _ => 0) 0) 1) ∧ (∃ n, h.node 1 = some n) ∧
      ∃ got h', (PbufCall.free 0).perform firstFree h = some (got, h') := by
  have hheader := Usage.call firstFree (.alloc .PBUF_LINK 8 .PBUF_RAM) (some 0) (@Usage.start 2)
    firstFree_fresh trivial rfl
  obtain ⟨h, hboth, hend₀, hend₁, href⟩ : ∃ h, Usage 2 h (gain (gain (fun _ => 0) 0) 1) ∧
      h.succ 0 = none ∧ h.succ 1 = none ∧ h.refs 1 = 1 :=
    ⟨_, .call firstFree (.alloc .PBUF_RAW 20 .PBUF_REF) (some 1) hheader firstFree_fresh trivial rfl,
      rfl, rfl, rfl⟩
  have hpermitted : (PbufCall.chain 0 1).Permitted h (gain (gain (fun _ => 0) 0) 1) := by
    refine ⟨by decide, by decide, ?_, by omega⟩
    intro q hq hback
    rw [Reaches.eq_of_end hend₀ hq] at hback
    exact absurd (Reaches.eq_of_end hend₁ hback) (by decide)
  obtain ⟨-, -, hreturn, -⟩ := pbufs_accounted hboth
  obtain ⟨got, h, hchain⟩ := hreturn firstFree _ firstFree_fresh hpermitted
  have hchained := Usage.call firstFree _ got hboth firstFree_fresh hpermitted hchain
  obtain ⟨hthere, -, hnext, -⟩ := pbufs_accounted hchained
  refine ⟨h, hchained, ?_, ?_⟩
  · exact hthere 1 1 Nat.one_pos Relation.ReflTransGen.refl
  · exact hnext firstFree (.free 0) firstFree_fresh Nat.one_pos

end Ptpd
