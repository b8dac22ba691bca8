import Ptpd.Lib.RefCount

/-! # Packet buffers (`lwip-1.3.1/src/core/pbuf.c`)

    A packet is a chain of pbufs, which count the pointers to them. Memory is a heap
    of pbufs; a function that would follow a pointer to none has no result.
-/

namespace Ptpd

open RefCount

/-! ## Data -/

inductive PbufLayer where
  | PBUF_TRANSPORT
  | PBUF_IP
  | PBUF_LINK
  | PBUF_RAW

inductive PbufType where
  | PBUF_RAM
  | PBUF_ROM
  | PBUF_REF
  | PBUF_POOL
deriving DecidableEq

/-- `struct pbuf` without `next` and `ref`. `payload` is the offset behind the structure. -/
structure PbufData where
  type : PbufType
  payload : Option Nat
  tot_len : Nat
  len : Nat

abbrev Pbufs : Type := Heap PbufData

abbrev PbufNode : Type := Node PbufData

/-- `memp_malloc(MEMP_PBUF_POOL)`, `memp_malloc(MEMP_PBUF)` or `mem_malloc`, for a pbuf of this type
    and the size of what comes behind it. -/
abbrev Malloc : Type := PbufType → Nat → Pbufs → Option Nat

abbrev PBUF_TRANSPORT_HLEN : Nat := 20
abbrev PBUF_IP_HLEN : Nat := 20
abbrev PBUF_LINK_HLEN : Nat := 14
abbrev PBUF_POOL_BUFSIZE : Nat := 512

/-- `(size + MEM_ALIGNMENT - 1) & ~(MEM_ALIGNMENT - 1)`, for an alignment of 4. -/
def LWIP_MEM_ALIGN_SIZE (size : Nat) : Nat := (size + 3) / 4 * 4

/-- The header offset of `pbuf_alloc`: each case falls through to the next one. -/
def PbufLayer.offset : PbufLayer → Nat
  | PBUF_TRANSPORT => PBUF_TRANSPORT_HLEN + PBUF_IP_HLEN + PBUF_LINK_HLEN
  | PBUF_IP => PBUF_IP_HLEN + PBUF_LINK_HLEN
  | PBUF_LINK => PBUF_LINK_HLEN
  | PBUF_RAW => 0

/-! ## References -/

/-- The pbufs after the call and the number of those that were deallocated, in 8 bits. -/
def pbuf_free (h : Pbufs) (p : Option Nat) : Option (Pbufs × UInt8) :=
  match p with
  | none => some (h, 0)
  | some p =>
    match hp : h.node p with
    | none => none
    | some n =>
      let ref := (n.ref + 65535) % 65536
      if ref = 0 then
        (pbuf_free (h.set p none) n.next).map fun (h, count) => (h, count + 1)
      else some (h.set p (some { n with ref := ref }), 0)
termination_by h.live
decreasing_by
  have hless := Heap.live_dispose hp
  omega

theorem pbuf_free_none (h : Pbufs) : pbuf_free h none = some (h, 0) := by
  rw [pbuf_free.eq_def]

/-- Without its last pointer the pbuf goes, and the next one loses one. -/
theorem pbuf_free_last {h : Pbufs} {p : Nat} {n : PbufNode} (hn : h.node p = some n)
    (hone : n.ref = 1) : pbuf_free h (some p) =
      (pbuf_free (h.set p none) n.next).map fun (h, count) => (h, count + 1) := by
  rw [pbuf_free.eq_def]
  dsimp only
  split
  · rename_i hnone
    rw [hn] at hnone
    cases hnone
  · rename_i m hm
    rw [hn] at hm
    cases hm
    rw [if_pos (by omega)]

theorem pbuf_free_shared {h : Pbufs} {p : Nat} {n : PbufNode} (hn : h.node p = some n)
    (hshared : 1 < n.ref) (hsmall : n.ref < 65536) :
    pbuf_free h (some p) = some (h.set p (some { n with ref := n.ref - 1 }), 0) := by
  have hpred : (n.ref + 65535) % 65536 = n.ref - 1 := by omega
  rw [pbuf_free.eq_def]
  dsimp only
  split
  · rename_i hnone
    rw [hn] at hnone
    cases hnone
  · rename_i m hm
    rw [hn] at hm
    cases hm
    rw [hpred, if_neg (by omega)]

def pbuf_ref (h : Pbufs) (p : Nat) : Option Pbufs :=
  h.modify p fun n => { n with ref := (n.ref + 1) % 65536 }

/-! ## Allocation -/

/-- The tail of a chain from the pool: `r` is the last pbuf so far. If there is no pbuf left the
    chain is freed. -/
def allocTail (malloc : Malloc) (p : Nat) (r rem_len : Nat) (h : Pbufs) :
    Option (Option Nat × Pbufs) :=
  if rem_len > 0 then
    match malloc .PBUF_POOL PBUF_POOL_BUFSIZE h with
    | none => (pbuf_free h (some p)).map fun (h, _) => (none, h)
    | some q =>
      let len := min rem_len (LWIP_MEM_ALIGN_SIZE PBUF_POOL_BUFSIZE)
      let h := h.set q (some ⟨none, 1, ⟨.PBUF_POOL, some 0, rem_len, len⟩⟩)
      match h.modify r fun n => { n with next := some q } with
      | none => none
      | some h => allocTail malloc p q (rem_len - len) h
  else some (some p, h)
termination_by rem_len
decreasing_by
  have hpos : 0 < LWIP_MEM_ALIGN_SIZE PBUF_POOL_BUFSIZE := by decide
  omega

def pbuf_alloc (malloc : Malloc) (layer : PbufLayer) (length : Nat) (type : PbufType) (h : Pbufs) :
    Option (Option Nat × Pbufs) :=
  let offset := LWIP_MEM_ALIGN_SIZE layer.offset
  match type with
  | .PBUF_POOL =>
    match malloc .PBUF_POOL PBUF_POOL_BUFSIZE h with
    | none => some (none, h)
    | some p =>
      let len := min length (LWIP_MEM_ALIGN_SIZE PBUF_POOL_BUFSIZE - offset)
      let h := h.set p (some ⟨none, 1, ⟨.PBUF_POOL, some offset, length, len⟩⟩)
      allocTail malloc p p (length - len) h
  | .PBUF_RAM =>
    match malloc .PBUF_RAM (offset + LWIP_MEM_ALIGN_SIZE length) h with
    | none => some (none, h)
    | some p =>
      some (some p, h.set p (some ⟨none, 1, ⟨.PBUF_RAM, some offset, length, length⟩⟩))
  | type =>
    match malloc type 0 h with
    | none => some (none, h)
    | some p => some (some p, h.set p (some ⟨none, 1, ⟨type, none, length, length⟩⟩))

/-! ## Chains -/

/-- The loop of `pbuf_cat`, at most `fuel` pbufs, and the link at its end. -/
def catLoop (t : Nat) : Nat → Nat → Pbufs → Option Pbufs
  | 0, _, _ => none
  | fuel + 1, p, h =>
    match h.node p, h.node t with
    | some n, some tail =>
      let tot_len := (n.value.tot_len + tail.value.tot_len) % 65536
      match n.next with
      | some q => catLoop t fuel q (h.set p (some { n with value.tot_len := tot_len }))
      | none => some (h.set p (some { n with next := some t, value.tot_len := tot_len }))
    | _, _ => none

def pbuf_cat (h : Pbufs) (head t : Nat) : Option Pbufs := catLoop t h.size head h

def pbuf_chain (h : Pbufs) (head t : Nat) : Option Pbufs := do
  let h ← pbuf_cat h head t
  pbuf_ref h t

/-- The pbufs after the call, and the rest of the chain if it is still there. -/
def pbuf_dechain (h : Pbufs) (p : Nat) : Option (Pbufs × Option Nat) := do
  let n ← h.node p
  match n.next with
  | none => some (h, none)
  | some q =>
    let h ← h.modify q fun tail =>
      { tail with value.tot_len := (n.value.tot_len + 65536 - n.value.len) % 65536 }
    let h ← h.modify p fun n => { n with next := none, value.tot_len := n.value.len }
    let (h, tail_gone) ← pbuf_free h (some q)
    some (h, if tail_gone > 0 then none else some q)

end Ptpd
