import Mathlib.Algebra.Group.Nat.Defs
import Mathlib.Data.List.Range
import Mathlib.Logic.Function.Basic

/-! # Rings of Ethernet DMA descriptors (`stm32_eth.h`, `stm32_eth.c`)

    The two address words of a descriptor chain it to its buffer and to the next
    descriptor, until the DMA writes a timestamp over them. A helper table keeps
    copies of the addresses. It is walked on its own: the `Status` of its last entry
    points to its first.
-/

namespace Ptpd

/-! ## Flags of a status word -/

theorem or_flag_self (status flag : UInt32) : (status ||| flag) &&& flag = flag := by
  rw [← UInt32.toBitVec_inj]
  ext i
  simp
  grind

theorem or_flag_other {status flag other : UInt32} (h : flag &&& other = 0) :
    (status ||| flag) &&& other = status &&& other := by
  rw [← UInt32.toBitVec_inj] at h ⊢
  rw [UInt32.toBitVec_and, UInt32.toBitVec_or, BitVec.and_or_distrib_right]
  rw [UInt32.toBitVec_and] at h
  rw [h, UInt32.toBitVec_and]
  exact BitVec.or_zero

theorem clear_flag_self (status flag : UInt32) : (status &&& ~~~flag) &&& flag = 0 := by
  rw [UInt32.and_assoc, UInt32.not_and_self, UInt32.and_zero]

theorem clear_flag_other {status flag other : UInt32} (h : ~~~flag &&& other = other) :
    (status &&& ~~~flag) &&& other = status &&& other := by
  rw [UInt32.and_assoc, h]

/-! ## Descriptors -/

/-- `ETH_DMADESCTypeDef`. -/
structure EthDesc where
  Status : UInt32
  ControlBufferSize : UInt32
  Buffer1Addr : UInt32
  Buffer2NextDescAddr : UInt32
deriving DecidableEq, Inhabited

/-- The descriptors in memory, by address. -/
abbrev EthMem := UInt32 → EthDesc

/-- `sizeof(ETH_DMADESCTypeDef)`. -/
abbrev ethDescSize : Nat := 16

abbrev ETH_MAX_PACKET_SIZE : Nat := 1520

/-- The bit is the same in descriptors to send and in those to receive. -/
abbrev ETH_DMADesc_OWN : UInt32 := 0x80000000

/-- The DMA may use the descriptor. -/
def EthDesc.Owned (d : EthDesc) : Prop := d.Status &&& ETH_DMADesc_OWN ≠ 0

instance (d : EthDesc) : Decidable d.Owned := inferInstanceAs (Decidable (_ ≠ _))

/-- The address of entry `i` of an array. -/
theorem entry_toNat {base : UInt32} {size count i : Nat} (hsize : 0 < size)
    (hfits : base.toNat + size * count ≤ 2 ^ 32) (hi : i < count) :
    (base + UInt32.ofNat (size * i)).toNat = base.toNat + size * i := by
  have hend : size * i < size * count := (Nat.mul_lt_mul_left hsize).mpr hi
  rw [UInt32.toNat_add, UInt32.toNat_ofNat_of_lt' (by rw [UInt32.size]; omega)]
  exact Nat.mod_eq_of_lt (by omega)

theorem entry_inj {base : UInt32} {size count i j : Nat} (hsize : 0 < size)
    (hfits : base.toNat + size * count ≤ 2 ^ 32) (hi : i < count) (hj : j < count) :
    base + UInt32.ofNat (size * i) = base + UInt32.ofNat (size * j) ↔ i = j := by
  rw [← UInt32.toNat_inj, entry_toNat hsize hfits hi, entry_toNat hsize hfits hj,
    Nat.add_left_cancel_iff]
  exact Nat.mul_right_inj hsize.ne'

/-! ## Tables -/

/-- Where a table of descriptors, its helper table and its buffers are. -/
structure EthRing where
  DMADscrTab : UInt32
  DMAPTPDscrTab : UInt32
  Buff : UInt32
  BuffCount : Nat
  count_pos : 0 < BuffCount
  fits : DMADscrTab.toNat + ethDescSize * BuffCount ≤ 2 ^ 32
  fitsPTP : DMAPTPDscrTab.toNat + ethDescSize * BuffCount ≤ 2 ^ 32
  fitsBuff : Buff.toNat + ETH_MAX_PACKET_SIZE * BuffCount ≤ 2 ^ 32
  notNull : DMAPTPDscrTab ≠ 0
  apart : DMADscrTab.toNat + ethDescSize * BuffCount ≤ DMAPTPDscrTab.toNat ∨
    DMAPTPDscrTab.toNat + ethDescSize * BuffCount ≤ DMADscrTab.toNat

/-- The tables of a board. -/
def EthRing.sample : EthRing where
  DMADscrTab := 0x20000000
  DMAPTPDscrTab := 0x20000100
  Buff := 0x20001000
  BuffCount := 5
  count_pos := by decide
  fits := by decide
  fitsPTP := by decide
  fitsBuff := by decide
  notNull := by decide
  apart := by decide

namespace EthRing

variable (ring : EthRing)

def desc (i : Nat) : UInt32 := ring.DMADscrTab + UInt32.ofNat (ethDescSize * i)

def ptpDesc (i : Nat) : UInt32 := ring.DMAPTPDscrTab + UInt32.ofNat (ethDescSize * i)

def buff (i : Nat) : UInt32 := ring.Buff + UInt32.ofNat (ETH_MAX_PACKET_SIZE * i)

def next (i : Nat) : Nat := if i < ring.BuffCount - 1 then i + 1 else 0

/-! ## Initialization -/

/-- One descriptor and its helper. `fill` sets the words that are not addresses. -/
def chainEntry (fill : EthDesc → EthDesc) (mem : EthMem) (i : Nat) : EthMem :=
  let nextAddr := if i < ring.BuffCount - 1 then ring.desc (i + 1) else ring.DMADscrTab
  let mem : EthMem := Function.update mem (ring.desc i)
    { fill (mem (ring.desc i)) with
      Buffer1Addr := ring.buff i, Buffer2NextDescAddr := nextAddr }
  Function.update mem (ring.ptpDesc i)
    { mem (ring.ptpDesc i) with
      Buffer1Addr := ring.buff i, Buffer2NextDescAddr := nextAddr }

/-- What `ETH_DMAPTPTxDescChainInit` and `ETH_DMAPTPRxDescChainInit` do, each with
    its `fill`. -/
def chainInit (fill : EthDesc → EthDesc) (mem : EthMem) : EthMem :=
  let mem := (List.range ring.BuffCount).foldl (ring.chainEntry fill) mem
  let last := ring.ptpDesc (ring.BuffCount - 1)
  Function.update mem last { mem last with Status := ring.DMAPTPDscrTab }

/-- The step to the next helper. -/
def nextPTP (mem : EthMem) (DMAPTPDesc : UInt32) : UInt32 :=
  if (mem DMAPTPDesc).Status ≠ 0 then (mem DMAPTPDesc).Status
  else DMAPTPDesc + UInt32.ofNat ethDescSize

/-- The helper of descriptor `i` once the tables are initialized. -/
def helper (i : Nat) : EthDesc where
  Status := if i = ring.BuffCount - 1 then ring.DMAPTPDscrTab else 0
  ControlBufferSize := 0
  Buffer1Addr := ring.buff i
  Buffer2NextDescAddr := ring.desc (ring.next i)

/-! ## Addresses -/

variable {ring} {i j : Nat}

theorem desc_toNat (hi : i < ring.BuffCount) :
    (ring.desc i).toNat = ring.DMADscrTab.toNat + ethDescSize * i :=
  entry_toNat (by decide) ring.fits hi

theorem ptpDesc_toNat (hi : i < ring.BuffCount) :
    (ring.ptpDesc i).toNat = ring.DMAPTPDscrTab.toNat + ethDescSize * i :=
  entry_toNat (by decide) ring.fitsPTP hi

theorem desc_inj (hi : i < ring.BuffCount) (hj : j < ring.BuffCount) :
    ring.desc i = ring.desc j ↔ i = j :=
  entry_inj (by decide) ring.fits hi hj

theorem ptpDesc_inj (hi : i < ring.BuffCount) (hj : j < ring.BuffCount) :
    ring.ptpDesc i = ring.ptpDesc j ↔ i = j :=
  entry_inj (by decide) ring.fitsPTP hi hj

theorem buff_inj (hi : i < ring.BuffCount) (hj : j < ring.BuffCount) :
    ring.buff i = ring.buff j ↔ i = j :=
  entry_inj (by decide) ring.fitsBuff hi hj

theorem desc_ne_ptpDesc (hi : i < ring.BuffCount) (hj : j < ring.BuffCount) :
    ring.desc i ≠ ring.ptpDesc j := by
  have hapart := ring.apart
  rw [ne_eq, ← UInt32.toNat_inj, desc_toNat hi, ptpDesc_toNat hj]
  unfold ethDescSize at *
  omega

theorem next_lt (i : Nat) : ring.next i < ring.BuffCount := by
  have hpos := ring.count_pos
  unfold next
  split <;> omega

/-- The ring is used in order: position `k` modulo its size is followed by `k + 1`. -/
theorem next_mod (k : Nat) : ring.next (k % ring.BuffCount) = (k + 1) % ring.BuffCount := by
  have hlt := Nat.mod_lt k ring.count_pos
  have hmod : (k + 1) % ring.BuffCount = (k % ring.BuffCount + 1) % ring.BuffCount :=
    (Nat.mod_add_mod k ring.BuffCount 1).symm
  unfold next
  rw [hmod]
  split
  · exact (Nat.mod_eq_of_lt (by omega)).symm
  · have hend : k % ring.BuffCount + 1 = ring.BuffCount := by omega
    rw [hend, Nat.mod_self]

/-- Two uses of one descriptor are a whole turn apart. -/
theorem mod_ne {n j k : Nat} (hjk : j < k) (hk : k < j + n) : j % n ≠ k % n := by
  intro heq
  have hzero := Nat.sub_mod_eq_zero_of_mod_eq heq.symm
  rw [Nat.mod_eq_of_lt (by omega)] at hzero
  omega

theorem desc_zero : ring.desc 0 = ring.DMADscrTab := by
  unfold desc
  rw [Nat.mul_zero]
  exact UInt32.add_zero ..

theorem ptpDesc_zero : ring.ptpDesc 0 = ring.DMAPTPDscrTab := by
  unfold ptpDesc
  rw [Nat.mul_zero]
  exact UInt32.add_zero ..

theorem desc_next (i : Nat) :
    (if i < ring.BuffCount - 1 then ring.desc (i + 1) else ring.DMADscrTab) =
      ring.desc (ring.next i) := by
  unfold next
  split
  · rfl
  · exact desc_zero.symm

/-- The helpers are walked in step with the descriptors. -/
theorem nextPTP_eq {mem : EthMem} (hi : i < ring.BuffCount)
    (hmem : mem (ring.ptpDesc i) = ring.helper i) :
    nextPTP mem (ring.ptpDesc i) = ring.ptpDesc (ring.next i) := by
  unfold nextPTP next
  rw [hmem]
  unfold helper
  dsimp only
  by_cases hlast : i = ring.BuffCount - 1
  · rw [if_pos hlast, if_pos ring.notNull, if_neg (by omega)]
    exact ptpDesc_zero.symm
  · rw [if_neg hlast, if_neg (not_not.mpr rfl), if_pos (by omega)]
    unfold ptpDesc
    rw [UInt32.add_assoc, Nat.mul_succ, UInt32.ofNat_add]

/-! ## The tables after initialization -/

theorem chainEntry_desc (fill : EthDesc → EthDesc) (mem : EthMem) (hi : i < ring.BuffCount) :
    ring.chainEntry fill mem i (ring.desc i) =
      { fill (mem (ring.desc i)) with
        Buffer1Addr := ring.buff i, Buffer2NextDescAddr := ring.desc (ring.next i) } := by
  unfold chainEntry
  dsimp only
  rw [Function.update_of_ne (desc_ne_ptpDesc hi hi), Function.update_self, desc_next]

theorem chainEntry_ptpDesc (fill : EthDesc → EthDesc) (mem : EthMem) (hi : i < ring.BuffCount) :
    ring.chainEntry fill mem i (ring.ptpDesc i) =
      { mem (ring.ptpDesc i) with
        Buffer1Addr := ring.buff i, Buffer2NextDescAddr := ring.desc (ring.next i) } := by
  unfold chainEntry
  dsimp only
  rw [Function.update_self, Function.update_of_ne (desc_ne_ptpDesc hi hi).symm, desc_next]

theorem chainEntry_other (fill : EthDesc → EthDesc) (mem : EthMem) {a : UInt32}
    (hdesc : a ≠ ring.desc i) (hptp : a ≠ ring.ptpDesc i) :
    ring.chainEntry fill mem i a = mem a := by
  unfold chainEntry
  dsimp only
  rw [Function.update_of_ne hptp, Function.update_of_ne hdesc]

/-- The loop of the initialization, `n` times. -/
theorem chainEntries (fill : EthDesc → EthDesc) (n : Nat) (hn : n ≤ ring.BuffCount)
    (hi : i < ring.BuffCount) :
    (List.range n).foldl (ring.chainEntry fill) (fun _ => default) (ring.desc i) =
        (if i < n then
          { fill default with
            Buffer1Addr := ring.buff i, Buffer2NextDescAddr := ring.desc (ring.next i) }
        else default) ∧
      (List.range n).foldl (ring.chainEntry fill) (fun _ => default) (ring.ptpDesc i) =
        (if i < n then ⟨0, 0, ring.buff i, ring.desc (ring.next i)⟩ else default) := by
  induction n with
  | zero => exact ⟨rfl, rfl⟩
  | succ n ih =>
    obtain ⟨hdesc, hptp⟩ := ih (by omega)
    rw [List.range_succ, List.foldl_append, List.foldl_cons, List.foldl_nil]
    by_cases hin : i = n
    · subst hin
      rw [if_neg (Nat.lt_irrefl i)] at hdesc hptp
      rw [chainEntry_desc _ _ hi, chainEntry_ptpDesc _ _ hi, hdesc, hptp,
        if_pos (Nat.lt_succ_self i), if_pos (Nat.lt_succ_self i)]
      exact ⟨rfl, rfl⟩
    · have hlt : i < n + 1 ↔ i < n := by omega
      rw [chainEntry_other _ _ (by rw [ne_eq, desc_inj hi (by omega)]; exact hin)
          (desc_ne_ptpDesc hi (by omega)),
        chainEntry_other _ _ (desc_ne_ptpDesc (by omega) hi).symm
          (by rw [ne_eq, ptpDesc_inj hi (by omega)]; exact hin), hdesc, hptp]
      simp only [hlt, and_self]

theorem chainInit_desc (fill : EthDesc → EthDesc) (hi : i < ring.BuffCount) :
    ring.chainInit fill (fun _ => default) (ring.desc i) =
      { fill default with
        Buffer1Addr := ring.buff i, Buffer2NextDescAddr := ring.desc (ring.next i) } := by
  have hlast : ring.BuffCount - 1 < ring.BuffCount := by omega
  unfold chainInit
  dsimp only
  rw [Function.update_of_ne (desc_ne_ptpDesc hi hlast), (chainEntries fill _ le_rfl hi).1,
    if_pos hi]

theorem chainInit_ptpDesc (fill : EthDesc → EthDesc) (hi : i < ring.BuffCount) :
    ring.chainInit fill (fun _ => default) (ring.ptpDesc i) = ring.helper i := by
  have hlast : ring.BuffCount - 1 < ring.BuffCount := by omega
  have hentry := (chainEntries fill _ le_rfl hi).2
  rw [if_pos hi] at hentry
  unfold chainInit helper
  dsimp only
  by_cases hi' : i = ring.BuffCount - 1
  · rw [← hi', Function.update_self, hentry, if_pos rfl]
  · rw [Function.update_of_ne (by rw [ne_eq, ptpDesc_inj hi hlast]; exact hi'), hentry,
      if_neg hi']

end EthRing

end Ptpd
