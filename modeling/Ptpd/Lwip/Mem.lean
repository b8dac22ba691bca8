import Ptpd.Lwip.Pbuf
import Ptpd.Lib.Octets

/-! # The heap (`lwip-1.3.1/src/core/mem.c`)

    The heap is octets, and a `struct mem` stands in them in front of each block: two
    16-bit words, little-endian, and an octet. A pointer is its offset in `ram`. Nothing
    interrupts a call, and a failed assertion changes nothing.
-/

namespace Ptpd

open Octets

abbrev MIN_SIZE_ALIGNED : Nat := 12
abbrev SIZEOF_STRUCT_MEM : Nat := 8
abbrev MEM_SIZE_ALIGNED : Nat := 10240

/-- `ram` and `lfree`. `ram_end` is at `MEM_SIZE_ALIGNED`. -/
structure MemHeap where
  ram : Buf
  lfree : Nat

namespace Mem

/-! ## `struct mem` -/

def next (ram : Buf) (mem : Nat) : Nat := (get16 ram mem).toNat
def prev (ram : Buf) (mem : Nat) : Nat := (get16 ram (mem + 2)).toNat
def used (ram : Buf) (mem : Nat) : UInt8 := ram (mem + 4)

def setNext (mem next : Nat) (ram : Buf) : Buf := put16 ram mem (UInt16.ofNat next)
def setPrev (mem prev : Nat) (ram : Buf) : Buf := put16 ram (mem + 2) (UInt16.ofNat prev)
def setUsed (mem : Nat) (used : UInt8) (ram : Buf) : Buf := put8 ram (mem + 4) used

/-- A new struct for the unused rest of a block, and `mem->next` to it. -/
def splitBlock (ptr ptr2 next : Nat) (ram : Buf) : Buf :=
  setNext ptr ptr2 (setPrev ptr2 ptr (setNext ptr2 next (setUsed ptr2 0 ram)))

/-- `mem2->next->prev`, unless `mem2->next` is the end. -/
def backLink (ptr2 : Nat) (ram : Buf) : Buf :=
  if next ram ptr2 ≠ MEM_SIZE_ALIGNED then setPrev (next ram ptr2) ptr2 ram else ram

/-- `mem->next - (ptr + SIZEOF_STRUCT_MEM)`, in 32 bits. -/
def userData (ram : Buf) (ptr : Nat) : Nat :=
  (next ram ptr + 2 ^ 32 - (ptr + SIZEOF_STRUCT_MEM)) % 2 ^ 32

end Mem

open Mem

/-- The size that is needed, in 16 bits. -/
def alignedSize (size : UInt16) : Nat :=
  let size := LWIP_MEM_ALIGN_SIZE size.toNat % 2 ^ 16
  if size < MIN_SIZE_ALIGNED then MIN_SIZE_ALIGNED else size

namespace MemHeap

def mem_init (ram : Buf) : MemHeap where
  ram := setPrev MEM_SIZE_ALIGNED MEM_SIZE_ALIGNED (setNext MEM_SIZE_ALIGNED MEM_SIZE_ALIGNED
    (setUsed MEM_SIZE_ALIGNED 1 (setUsed 0 0 (setPrev 0 0 (setNext 0 MEM_SIZE_ALIGNED ram)))))
  lfree := 0

/-! ## Freeing -/

/-- "plug hole forward" -/
def plugForward (mem : Nat) (h : MemHeap) : MemHeap :=
  let nmem := next h.ram mem
  if mem ≠ nmem ∧ used h.ram nmem = 0 ∧ nmem ≠ MEM_SIZE_ALIGNED then
    let ram := setNext mem (next h.ram nmem) h.ram
    { ram := setPrev (next ram nmem) mem ram
      lfree := if h.lfree = nmem then mem else h.lfree }
  else h

/-- "plug hole backward" -/
def plugBackward (mem : Nat) (h : MemHeap) : MemHeap :=
  let pmem := prev h.ram mem
  if pmem ≠ mem ∧ used h.ram pmem = 0 then
    let ram := setNext pmem (next h.ram mem) h.ram
    { ram := setPrev (next ram mem) pmem ram
      lfree := if h.lfree = mem then pmem else h.lfree }
  else h

def plug_holes (mem : Nat) (h : MemHeap) : MemHeap := plugBackward mem (plugForward mem h)

def mem_free (rmem : Option Nat) (h : MemHeap) : MemHeap :=
  match rmem with
  | none => h
  | some rmem =>
    if rmem ≥ MEM_SIZE_ALIGNED then h
    else
      let mem := rmem - SIZEOF_STRUCT_MEM
      plug_holes mem
        { ram := setUsed mem 0 h.ram
          lfree := if mem < h.lfree then mem else h.lfree }

/-! ## Shrinking -/

/-- The pointer that is returned, and the heap. -/
def mem_realloc (rmem : Nat) (newsize : UInt16) (h : MemHeap) : Option Nat × MemHeap :=
  let newsize := alignedSize newsize
  if newsize > MEM_SIZE_ALIGNED then (none, h)
  else if rmem ≥ MEM_SIZE_ALIGNED then (some rmem, h)
  else
    let ptr := rmem - SIZEOF_STRUCT_MEM
    let size := (next h.ram ptr + 2 ^ 16 - (ptr + SIZEOF_STRUCT_MEM)) % 2 ^ 16
    if newsize > size then (none, h)
    else if newsize = size then (some rmem, h)
    else
      let mem2 := next h.ram ptr
      let ptr2 := ptr + SIZEOF_STRUCT_MEM + newsize
      if used h.ram mem2 = 0 then
        (some rmem,
          { ram := backLink ptr2 (splitBlock ptr ptr2 (next h.ram mem2) h.ram)
            lfree := if h.lfree = mem2 then ptr2 else h.lfree })
      else if newsize + SIZEOF_STRUCT_MEM + MIN_SIZE_ALIGNED ≤ size then
        (some rmem,
          { ram := backLink ptr2 (splitBlock ptr ptr2 mem2 h.ram)
            lfree := if ptr2 < h.lfree then ptr2 else h.lfree })
      else (some rmem, h)

/-! ## Allocating -/

/-- The scan from `ptr`: there is no result if it has not ended after `fuel` steps. -/
def scan (ram : Buf) (size : Nat) : Nat → Nat → Option (Option Nat)
  | 0, _ => none
  | fuel + 1, ptr =>
    if ptr < MEM_SIZE_ALIGNED - size then
      if used ram ptr = 0 ∧ userData ram ptr ≥ size then some (some ptr)
      else scan ram size fuel (next ram ptr)
    else some none

/-- The next value of `lfree`. -/
def nextFree (ram : Buf) : Nat → Nat → Option Nat
  | 0, _ => none
  | fuel + 1, lfree =>
    if used ram lfree ≠ 0 ∧ lfree ≠ MEM_SIZE_ALIGNED then nextFree ram fuel (next ram lfree)
    else some lfree

/-- A loop over 16-bit offsets that takes more steps than there are never ends. -/
abbrev offsets : Nat := 65536

/-- `lfree`, when the block at `ptr` has been taken. -/
def movedFree (ptr : Nat) (ram : Buf) (lfree : Nat) : Option Nat :=
  if ptr = lfree then nextFree ram offsets lfree else some lfree

def mem_malloc (size : UInt16) (h : MemHeap) : Option (Option Nat × MemHeap) :=
  if size = 0 then some (none, h)
  else
    let size := alignedSize size
    if size > MEM_SIZE_ALIGNED then some (none, h)
    else do
      match ← scan h.ram size offsets h.lfree with
      | none => some (none, h)
      | some ptr =>
        let ptr2 := ptr + SIZEOF_STRUCT_MEM + size
        let ram :=
          if userData h.ram ptr ≥ size + SIZEOF_STRUCT_MEM + MIN_SIZE_ALIGNED then
            backLink ptr2 (setUsed ptr 1 (splitBlock ptr ptr2 (next h.ram ptr) h.ram))
          else setUsed ptr 1 h.ram
        let lfree ← movedFree ptr ram h.lfree
        some (some (ptr + SIZEOF_STRUCT_MEM), ⟨ram, lfree⟩)

end MemHeap

end Ptpd
