import Ptpd.Lib.NorFlash

/-! # Writing to flash (`stmflash.c`)

    A buffer is written sector by sector: into a blank range directly, else the
    sector is erased and written back with the buffer's part merged in. The direct
    way goes by an address that is moved on by half-words as if they were octets.
-/

namespace Ptpd

open Octets NorFlash

/-! ## The functions -/

def STM32_FLASH_BASE : Nat := 0x08000000

/-- In units of 1024 octets. -/
def STM32_FLASH_SIZE : Nat := 256

def STM_SECTOR_SIZE : Nat := 2048

def FLASH_ErasePage (Page_Address : Nat) (flash : Buf) : Buf := erase Page_Address STM_SECTOR_SIZE flash

def STMFLASH_Write_NoCheck (WriteAddr : Nat) (pBuffer : List UInt16) (flash : Buf) : Buf :=
  programAll WriteAddr pBuffer flash

def STMFLASH_Read (ReadAddr NumToRead : Nat) (flash : Buf) : List UInt16 :=
  (List.range NumToRead).map fun i => get16 flash (ReadAddr + 2 * i)

def sectorAddr (secpos : Nat) : Nat := secpos * STM_SECTOR_SIZE + STM32_FLASH_BASE

/-- What the loop does to one sector. -/
def writeSector (secpos secoff secremain WriteAddr : Nat) (pBuffer : List UInt16) (flash : Buf) : Buf :=
  let STMFLASH_BUF := STMFLASH_Read (sectorAddr secpos) (STM_SECTOR_SIZE / 2) flash
  if ∃ i < secremain, STMFLASH_BUF.getD (secoff + i) 0 ≠ 0xFFFF then
    let flash := FLASH_ErasePage (sectorAddr secpos) flash
    let STMFLASH_BUF :=
      STMFLASH_BUF.take secoff ++ pBuffer.take secremain ++ STMFLASH_BUF.drop (secoff + secremain)
    STMFLASH_Write_NoCheck (sectorAddr secpos) STMFLASH_BUF flash
  else STMFLASH_Write_NoCheck WriteAddr (pBuffer.take secremain) flash

/-- The loop in at most so many iterations. No address leaves the 32 bits. -/
def writeLoop : (fuel secpos secoff secremain WriteAddr : Nat) → (pBuffer : List UInt16) →
    (NumToWrite : Nat) → Buf → Option Buf
  | 0, _, _, _, _, _, _, _ => none
  | fuel + 1, secpos, secoff, secremain, WriteAddr, pBuffer, NumToWrite, flash =>
    let flash := writeSector secpos secoff secremain WriteAddr pBuffer flash
    if NumToWrite = secremain then some flash
    else
      let NumToWrite := NumToWrite - secremain
      writeLoop fuel (secpos + 1) 0
        (if NumToWrite > STM_SECTOR_SIZE / 2 then STM_SECTOR_SIZE / 2 else NumToWrite)
        -- the address counts octets, `secremain` half-words
        (WriteAddr + secremain) (pBuffer.drop secremain) NumToWrite flash

def STMFLASH_Write (WriteAddr : UInt32) (pBuffer : List UInt16) (NumToWrite : UInt16) (flash : Buf) :
    Option Buf :=
  let WriteAddr := WriteAddr.toNat
  if WriteAddr < STM32_FLASH_BASE ∨ WriteAddr ≥ STM32_FLASH_BASE + 1024 * STM32_FLASH_SIZE then
    some flash
  else
    let offaddr := WriteAddr - STM32_FLASH_BASE
    let secpos := offaddr / STM_SECTOR_SIZE
    let secoff := offaddr % STM_SECTOR_SIZE / 2
    let secremain := STM_SECTOR_SIZE / 2 - secoff
    let secremain := if NumToWrite.toNat ≤ secremain then NumToWrite.toNat else secremain
    writeLoop (NumToWrite.toNat + 1) secpos secoff secremain WriteAddr pBuffer NumToWrite.toNat flash

/-! ## What is claimed -/

def InFlash (addr : Nat) : Prop :=
  STM32_FLASH_BASE ≤ addr ∧ addr < STM32_FLASH_BASE + 1024 * STM32_FLASH_SIZE

/-- The range holds the buffer, and the other half-words of the flash are as before. -/
structure FlashWritten (WriteAddr : Nat) (pBuffer : List UInt16) (flash flash' : Buf) : Prop where
  read : STMFLASH_Read WriteAddr pBuffer.length flash' = pBuffer
  other : ∀ addr, addr % 2 = 0 → InFlash addr →
    addr < WriteAddr ∨ WriteAddr + 2 * pBuffer.length ≤ addr → get16 flash' addr = get16 flash addr

/-- The half-words of the sector of an address from there on. -/
def firstPart (WriteAddr : Nat) : Nat :=
  STM_SECTOR_SIZE / 2 - (WriteAddr - STM32_FLASH_BASE) % STM_SECTOR_SIZE / 2

/-- The part of a buffer for its `j`-th sector, where it begins with one. -/
def sectorPart (pBuffer : List UInt16) (j : Nat) : List UInt16 :=
  (pBuffer.drop (STM_SECTOR_SIZE / 2 * j)).take (STM_SECTOR_SIZE / 2)

/-- Where a sector's part of the range is blank, only ones are to be written. -/
def OnesToBlank (addr : Nat) (pBuffer : List UInt16) (flash : Buf) : Prop :=
  ∀ j, Blank flash (addr + STM_SECTOR_SIZE * j) (sectorPart pBuffer j).length →
    ∀ v ∈ sectorPart pBuffer j, v = 0xFFFF

/-- So it is in each sector but the first. -/
def LaterOnesToBlank (WriteAddr : Nat) (pBuffer : List UInt16) (flash : Buf) : Prop :=
  OnesToBlank (WriteAddr + 2 * firstPart WriteAddr) (pBuffer.drop (firstPart WriteAddr)) flash

/-! ## One sector -/

variable {flash flash' : Buf} {pBuffer : List UInt16} {secpos secoff secremain WriteAddr : Nat}

theorem STMFLASH_Read_getD {n addr k : Nat} (hk : k < n) :
    (STMFLASH_Read addr n flash).getD k 0 = get16 flash (addr + 2 * k) := by
  unfold STMFLASH_Read
  rw [List.getD_eq_getElem?_getD, List.getElem?_map, List.getElem?_range hk]
  rfl

theorem STMFLASH_Read_length (n addr : Nat) (flash : Buf) :
    (STMFLASH_Read addr n flash).length = n := by
  unfold STMFLASH_Read
  rw [List.length_map, List.length_range]

theorem used_iff (h : secoff + secremain ≤ STM_SECTOR_SIZE / 2) :
    (∃ i < secremain,
      (STMFLASH_Read (sectorAddr secpos) (STM_SECTOR_SIZE / 2) flash).getD (secoff + i) 0 ≠ 0xFFFF) ↔
      ¬ Blank flash (sectorAddr secpos + 2 * secoff) secremain := by
  unfold Blank
  rw [not_forall]
  apply exists_congr
  intro i
  rw [Classical.not_imp]
  apply and_congr_right
  intro hi
  rw [STMFLASH_Read_getD (by omega), show sectorAddr secpos + 2 * (secoff + i) =
    sectorAddr secpos + 2 * secoff + 2 * i by omega]

theorem writeSector_blank (hpart : secoff + secremain ≤ STM_SECTOR_SIZE / 2)
    (hblank : Blank flash (sectorAddr secpos + 2 * secoff) secremain) :
    writeSector secpos secoff secremain WriteAddr pBuffer flash =
      programAll WriteAddr (pBuffer.take secremain) flash :=
  if_neg fun hused => (used_iff hpart).mp hused hblank

/-- The sector as it is written back, half-word by half-word. -/
theorem merged_getElem (buf part : List UInt16) (k : Nat) (hbuf : secoff + part.length ≤ buf.length) :
    (buf.take secoff ++ part ++ buf.drop (secoff + part.length))[k]? =
      if secoff ≤ k ∧ k < secoff + part.length then part[k - secoff]? else buf[k]? := by
  have hhead : (buf.take secoff).length = secoff := by
    rw [List.length_take]
    omega
  have hfront : (buf.take secoff ++ part).length = secoff + part.length := by
    rw [List.length_append, hhead]
  by_cases hbefore : k < secoff
  · rw [if_neg (by omega), List.getElem?_append_left (by omega), List.getElem?_append_left (by omega),
      List.getElem?_take, if_pos hbefore]
  by_cases hafter : secoff + part.length ≤ k
  · rw [if_neg (by omega), List.getElem?_append_right (by omega), List.getElem?_drop, hfront]
    congr 1
    omega
  · rw [if_pos (by omega), List.getElem?_append_left (by omega), List.getElem?_append_right (by omega),
      hhead]

theorem FLASH_ErasePage_blank (addr : Nat) (flash : Buf) :
    Blank (FLASH_ErasePage addr flash) addr (STM_SECTOR_SIZE / 2) := by
  have hsize : 2 * (STM_SECTOR_SIZE / 2) = STM_SECTOR_SIZE := rfl
  intro k hk
  rw [← get16_ones (addr + 2 * k)]
  exact get16_congr fun i hlo hhi => if_pos (by omega)

/-- A page that is rewritten with its own contents around the part. -/
theorem overwrite_merged {merged part : List UInt16} {addr : Nat}
    (hpart : secoff + part.length ≤ STM_SECTOR_SIZE / 2) (hlength : merged.length = STM_SECTOR_SIZE / 2)
    (hmerged : ∀ k < STM_SECTOR_SIZE / 2, merged[k]? =
      if secoff ≤ k ∧ k < secoff + part.length then part[k - secoff]?
      else some (get16 flash (addr + 2 * k))) :
    overwrite addr merged (FLASH_ErasePage addr flash) = overwrite (addr + 2 * secoff) part flash := by
  have hsize : 2 * (STM_SECTOR_SIZE / 2) = STM_SECTOR_SIZE := rfl
  have hword : ∀ k < STM_SECTOR_SIZE / 2, ∀ v, merged[k]? = some v →
      get16 (overwrite addr merged (FLASH_ErasePage addr flash)) (addr + 2 * k) = v := by
    intro k hk v hv
    obtain ⟨hk', rfl⟩ := List.getElem?_eq_some_iff.mp hv
    exact get16_overwrite hk'
  refine eq_overwrite (fun i hi => ?_) fun k hk => ?_
  · by_cases hsector : i < addr ∨ addr + STM_SECTOR_SIZE ≤ i
    · rw [overwrite_other (by rw [hlength]; omega)]
      exact if_neg (by omega)
    · obtain ⟨k, hk⟩ : ∃ k, i = addr + 2 * k ∨ i = addr + 2 * k + 1 := ⟨(i - addr) / 2, by omega⟩
      -- the sector keeps its own half-words outside the part
      have hown : merged[k]? = some (get16 flash (addr + 2 * k)) := by
        rw [hmerged k (by omega), if_neg (by omega)]
      obtain ⟨hlow, hhigh⟩ := get16_inj (hword k (by omega) _ hown)
      rcases hk with rfl | rfl
      · exact hlow
      · exact hhigh
  · have hnew : merged[secoff + k]? = some part[k] := by
      rw [hmerged _ (by omega), if_pos (by omega), Nat.add_sub_cancel_left,
        List.getElem?_eq_getElem hk]
    rw [show addr + 2 * secoff + 2 * k = addr + 2 * (secoff + k) by omega]
    exact hword (secoff + k) (by omega) _ hnew

/-- The sector's own contents come back around the part. -/
theorem writeSector_used (hpart : secoff + secremain ≤ STM_SECTOR_SIZE / 2)
    (hlength : secremain ≤ pBuffer.length)
    (hused : ¬ Blank flash (sectorAddr secpos + 2 * secoff) secremain) :
    writeSector secpos secoff secremain WriteAddr pBuffer flash =
      overwrite (sectorAddr secpos + 2 * secoff) (pBuffer.take secremain) flash := by
  unfold writeSector STMFLASH_Write_NoCheck
  rw [if_pos ((used_iff hpart).mpr hused)]
  have hread := STMFLASH_Read_length (STM_SECTOR_SIZE / 2) (sectorAddr secpos) flash
  have hget : ∀ k < STM_SECTOR_SIZE / 2,
      (STMFLASH_Read (sectorAddr secpos) (STM_SECTOR_SIZE / 2) flash)[k]? =
        some (get16 flash (sectorAddr secpos + 2 * k)) := by
    intro k hk
    unfold STMFLASH_Read
    rw [List.getElem?_map, List.getElem?_range hk]
    rfl
  generalize STMFLASH_Read (sectorAddr secpos) (STM_SECTOR_SIZE / 2) flash = buf at hread hget
  obtain ⟨part, hpartEq⟩ : ∃ part, part = pBuffer.take secremain := ⟨_, rfl⟩
  have htake : secremain = part.length := by
    rw [hpartEq, List.length_take]
    omega
  rw [← hpartEq]
  subst htake
  have hmerged : (buf.take secoff ++ part ++ buf.drop (secoff + part.length)).length =
      STM_SECTOR_SIZE / 2 := by
    rw [List.length_append, List.length_append, List.length_take, List.length_drop]
    omega
  -- all of the sector is programmed again, from a blank page
  have hblank := FLASH_ErasePage_blank (sectorAddr secpos) flash
  rw [← hmerged] at hblank
  rw [programAll_blank hblank]
  apply overwrite_merged hpart hmerged
  intro k hk
  rw [merged_getElem buf part k (hpart.trans_eq hread.symm), hget k hk]

/-- At its own address the part is written, whatever was there. -/
theorem writeSector_own (hpart : secoff + secremain ≤ STM_SECTOR_SIZE / 2)
    (hlength : secremain ≤ pBuffer.length) (haddr : WriteAddr = sectorAddr secpos + 2 * secoff) :
    writeSector secpos secoff secremain WriteAddr pBuffer flash =
      overwrite WriteAddr (pBuffer.take secremain) flash := by
  subst haddr
  by_cases hblank : Blank flash (sectorAddr secpos + 2 * secoff) secremain
  · rw [writeSector_blank hpart hblank]
    refine programAll_blank ?_
    rwa [List.length_take, Nat.min_eq_left hlength]
  · exact writeSector_used hpart hlength hblank

/-! ## A later sector

    Its part goes to an address below the sector.
-/

section Later

variable (hpart : secremain ≤ STM_SECTOR_SIZE / 2) (hlength : secremain ≤ pBuffer.length)
  (hbelow : WriteAddr < sectorAddr secpos)

include hpart

theorem writeSector_later_blank (hblank : Blank flash (sectorAddr secpos) secremain) :
    writeSector secpos 0 secremain WriteAddr pBuffer flash =
      programAll WriteAddr (pBuffer.take secremain) flash := by
  refine writeSector_blank (by omega) ?_
  rwa [Nat.mul_zero, Nat.add_zero]

include hlength

theorem writeSector_later_used (hused : ¬ Blank flash (sectorAddr secpos) secremain) :
    writeSector secpos 0 secremain WriteAddr pBuffer flash =
      overwrite (sectorAddr secpos) (pBuffer.take secremain) flash := by
  have hzero : sectorAddr secpos + 2 * 0 = sectorAddr secpos := by rw [Nat.mul_zero, Nat.add_zero]
  rw [← hzero] at hused ⊢
  exact writeSector_used (by omega) hlength hused

include hbelow in
/-- Nothing behind the part changes. -/
theorem writeSector_behind {i : Nat} (hi : sectorAddr secpos + 2 * secremain ≤ i) :
    writeSector secpos 0 secremain WriteAddr pBuffer flash i = flash i := by
  have htake : (pBuffer.take secremain).length = secremain := by
    rw [List.length_take, Nat.min_eq_left hlength]
  by_cases hblank : Blank flash (sectorAddr secpos) secremain
  · rw [writeSector_later_blank hpart hblank]
    exact programAll_other (.inr (by omega))
  · rw [writeSector_later_used hpart hlength hblank]
    exact overwrite_other (.inr (by omega))

theorem writeSector_later
    (hones : Blank flash (sectorAddr secpos) secremain → ∀ v ∈ pBuffer.take secremain, v = 0xFFFF) :
    writeSector secpos 0 secremain WriteAddr pBuffer flash =
      overwrite (sectorAddr secpos) (pBuffer.take secremain) flash := by
  by_cases hblank : Blank flash (sectorAddr secpos) secremain
  · rw [writeSector_later_blank hpart hblank, programAll_ones (hones hblank)]
    refine (overwrite_ones ?_ (hones hblank)).symm
    rwa [List.length_take, Nat.min_eq_left hlength]
  · exact writeSector_later_used hpart hlength hblank

include hbelow in
theorem ones_of_writeSector
    (hwritten : ∀ i < 2 * secremain, writeSector secpos 0 secremain WriteAddr pBuffer flash
      (sectorAddr secpos + i) = octetOf pBuffer i)
    (hblank : Blank flash (sectorAddr secpos) secremain) : ∀ v ∈ pBuffer.take secremain, v = 0xFFFF := by
  have htake : (pBuffer.take secremain).length = secremain := by
    rw [List.length_take, Nat.min_eq_left hlength]
  rw [writeSector_later_blank hpart hblank] at hwritten
  rw [← htake] at hblank
  apply ones_of_misplaced hbelow hblank
  intro i hi
  rw [htake] at hi
  rw [octetOf_take pBuffer hi]
  exact hwritten i hi

end Later

/-! ## The loop -/

theorem sectorAddr_succ (secpos : Nat) : sectorAddr (secpos + 1) = sectorAddr secpos + STM_SECTOR_SIZE := by
  unfold sectorAddr
  rw [Nat.succ_mul]
  omega

theorem sectorPart_zero (pBuffer : List UInt16) :
    sectorPart pBuffer 0 = pBuffer.take (STM_SECTOR_SIZE / 2) := by
  unfold sectorPart
  rw [Nat.mul_zero, List.drop_zero]

theorem sectorPart_succ (pBuffer : List UInt16) (j : Nat) :
    sectorPart pBuffer (j + 1) = sectorPart (pBuffer.drop (STM_SECTOR_SIZE / 2)) j := by
  unfold sectorPart
  rw [List.drop_drop, Nat.mul_succ, Nat.add_comm]

theorem OnesToBlank.nil (addr : Nat) (flash : Buf) : OnesToBlank addr [] flash := by
  intro j _ v hv
  unfold sectorPart at hv
  rw [List.drop_nil, List.take_nil] at hv
  exact absurd hv List.not_mem_nil

theorem OnesToBlank_iff {addr : Nat} :
    OnesToBlank addr pBuffer flash ↔
      (Blank flash addr (pBuffer.take (STM_SECTOR_SIZE / 2)).length →
        ∀ v ∈ pBuffer.take (STM_SECTOR_SIZE / 2), v = 0xFFFF) ∧
      OnesToBlank (addr + STM_SECTOR_SIZE) (pBuffer.drop (STM_SECTOR_SIZE / 2)) flash := by
  have hnext : ∀ j, addr + STM_SECTOR_SIZE * (j + 1) = addr + STM_SECTOR_SIZE + STM_SECTOR_SIZE * j := by
    intro j
    rw [Nat.mul_succ]
    omega
  constructor
  · intro h
    refine ⟨?_, fun j => ?_⟩
    · have hfirst := h 0
      rwa [sectorPart_zero, Nat.mul_zero, Nat.add_zero] at hfirst
    · have hlater := h (j + 1)
      rwa [sectorPart_succ, hnext] at hlater
  · rintro ⟨hfirst, hlater⟩ j
    cases j with
    | zero => rwa [sectorPart_zero, Nat.mul_zero, Nat.add_zero]
    | succ j =>
      rw [sectorPart_succ, hnext]
      exact hlater j

theorem OnesToBlank.congr {addr : Nat} (h : ∀ i, addr ≤ i → flash i = flash' i) :
    OnesToBlank addr pBuffer flash ↔ OnesToBlank addr pBuffer flash' := by
  unfold OnesToBlank
  apply forall_congr'
  intro j
  rw [Blank.congr fun i hi _ => h i (by omega)]

/-- What becomes of the part of the range behind the first sector. -/
structure LaterOutcome (addr : Nat) (pBuffer : List UInt16) (flash flash' : Buf) : Prop where
  done : OnesToBlank addr pBuffer flash → flash' = overwrite addr pBuffer flash
  ones : (∀ i < 2 * pBuffer.length, flash' (addr + i) = octetOf pBuffer i) → OnesToBlank addr pBuffer flash

theorem LaterOutcome.nil (addr : Nat) (flash : Buf) : LaterOutcome addr [] flash flash :=
  ⟨fun _ => rfl, fun _ => OnesToBlank.nil addr flash⟩

/-- One sector, then the rest from the next one on: the last sector that goes wrong stays so. -/
theorem LaterOutcome.sector (hpart : secremain = min pBuffer.length (STM_SECTOR_SIZE / 2))
    (hbelow : WriteAddr < sectorAddr secpos)
    (hrest : LaterOutcome (sectorAddr (secpos + 1)) (pBuffer.drop secremain)
      (writeSector secpos 0 secremain WriteAddr pBuffer flash) flash') :
    LaterOutcome (sectorAddr secpos) pBuffer flash flash' := by
  have hlength : secremain ≤ pBuffer.length := by omega
  have hsector : secremain ≤ STM_SECTOR_SIZE / 2 := by omega
  have htake : (pBuffer.take secremain).length = secremain := by
    rw [List.length_take, Nat.min_eq_left hlength]
  have hdrop : (pBuffer.drop secremain).length = pBuffer.length - secremain := List.length_drop
  have hnext := sectorAddr_succ secpos
  have hsize : 2 * (STM_SECTOR_SIZE / 2) = STM_SECTOR_SIZE := rfl
  -- if anything is left, the sector was filled
  have hfilled : 0 < (pBuffer.drop secremain).length →
      sectorAddr (secpos + 1) = sectorAddr secpos + 2 * secremain := by omega
  have hones : OnesToBlank (sectorAddr secpos) pBuffer flash ↔
      (Blank flash (sectorAddr secpos) secremain → ∀ v ∈ pBuffer.take secremain, v = 0xFFFF) ∧
      OnesToBlank (sectorAddr (secpos + 1)) (pBuffer.drop secremain)
        (writeSector secpos 0 secremain WriteAddr pBuffer flash) := by
    have hbehind : ∀ i, sectorAddr (secpos + 1) ≤ i →
        flash i = writeSector secpos 0 secremain WriteAddr pBuffer flash i :=
      fun i hi => (writeSector_behind hsector hlength hbelow (by omega)).symm
    have hsame : pBuffer.take (STM_SECTOR_SIZE / 2) = pBuffer.take secremain ∧
        pBuffer.drop (STM_SECTOR_SIZE / 2) = pBuffer.drop secremain := by
      rcases Nat.le_total pBuffer.length (STM_SECTOR_SIZE / 2) with hle | hle
      · rw [List.take_of_length_le hle, List.take_of_length_le (by omega), List.drop_eq_nil_of_le hle,
          List.drop_eq_nil_of_le (by omega)]
        exact ⟨rfl, rfl⟩
      · rw [hpart, Nat.min_eq_right hle]
        exact ⟨rfl, rfl⟩
    rw [OnesToBlank_iff, hsame.1, hsame.2, htake, ← hnext, OnesToBlank.congr hbehind]
  constructor
  · intro hall
    obtain ⟨hfirst, hothers⟩ := hones.mp hall
    rw [hrest.done hothers, writeSector_later hsector hlength hfirst]
    exact overwrite_take_drop hlength hfilled
  · intro hwritten
    have hothers := hrest.ones (octetOf_behind hfilled hwritten)
    refine hones.mpr ⟨ones_of_writeSector hsector hlength hbelow fun i hi => ?_, hothers⟩
    rw [← hwritten i (by omega), hrest.done hothers]
    exact (overwrite_other (.inl (by omega))).symm

/-- What is to be written into one sector of so many half-words. -/
theorem secremain_eq (n : Nat) :
    (if n > STM_SECTOR_SIZE / 2 then STM_SECTOR_SIZE / 2 else n) = min n (STM_SECTOR_SIZE / 2) := by
  split
  · omega
  · omega

/-- The iterations from a sector on that is reached from the one before. -/
theorem writeLoop_later (flash : Buf) {fuel : Nat} (hbelow : WriteAddr < sectorAddr secpos)
    (hfuel : pBuffer.length < fuel) :
    ∃ flash', writeLoop fuel secpos 0 (min pBuffer.length (STM_SECTOR_SIZE / 2)) WriteAddr pBuffer
        pBuffer.length flash = some flash' ∧
      LaterOutcome (sectorAddr secpos) pBuffer flash flash' := by
  induction fuel generalizing secpos WriteAddr pBuffer flash with
  | zero => exact absurd hfuel (Nat.not_lt_zero _)
  | succ fuel ih =>
    obtain ⟨secremain, hpart⟩ : ∃ n, n = min pBuffer.length (STM_SECTOR_SIZE / 2) := ⟨_, rfl⟩
    unfold writeLoop
    rw [← hpart]
    by_cases hlast : pBuffer.length = secremain
    · refine ⟨_, if_pos hlast, LaterOutcome.sector hpart hbelow ?_⟩
      rw [List.drop_eq_nil_of_le (Nat.le_of_eq hlast)]
      exact LaterOutcome.nil _ _
    · have hpos : 0 < STM_SECTOR_SIZE / 2 := by decide
      have hnext := sectorAddr_succ secpos
      have hsize : 2 * (STM_SECTOR_SIZE / 2) = STM_SECTOR_SIZE := rfl
      have hrest : (pBuffer.drop secremain).length = pBuffer.length - secremain := List.length_drop
      -- half-words are added to an address in octets, so it stays below the sector
      obtain ⟨flash', hrun, houtcome⟩ := ih (writeSector secpos 0 secremain WriteAddr pBuffer flash)
        (show WriteAddr + secremain < sectorAddr (secpos + 1) by omega)
        (show (pBuffer.drop secremain).length < fuel by omega)
      refine ⟨flash', (if_neg hlast).trans ?_, LaterOutcome.sector hpart hbelow houtcome⟩
      rw [hrest, ← secremain_eq] at hrun
      exact hrun

/-! ## The whole write -/

theorem octet_of_read {addr i : Nat} (h : STMFLASH_Read addr pBuffer.length flash = pBuffer)
    (hi : i < 2 * pBuffer.length) : flash (addr + i) = octetOf pBuffer i := by
  have hword : ∀ k (hk : k < pBuffer.length), get16 flash (addr + 2 * k) = pBuffer[k] := by
    intro k hk
    rw [← STMFLASH_Read_getD hk, h, List.getElem_eq_getD]
  have hwritten : flash = overwrite addr pBuffer flash := eq_overwrite (fun _ _ => rfl) hword
  rw [hwritten]
  exact overwrite_same hi

theorem FlashWritten.overwrite (heven : WriteAddr % 2 = 0) (pBuffer : List UInt16) (flash : Buf) :
    FlashWritten WriteAddr pBuffer flash (overwrite WriteAddr pBuffer flash) where
  read := by
    refine List.ext_getElem (STMFLASH_Read_length _ _ _) ?_
    intro k hk hk'
    rw [List.getElem_eq_getD 0, STMFLASH_Read_getD hk']
    exact get16_overwrite hk'
  other addr haddr _ houtside :=
    get16_congr fun i hlo hhi => overwrite_other (by omega)

/-- The first sector is written right, whatever was there; the others come after it. -/
theorem writeLoop_first (flash : Buf) {fuel : Nat} (hfuel : pBuffer.length < fuel)
    (hsecoff : secoff < STM_SECTOR_SIZE / 2)
    (hpart : secremain = min pBuffer.length (STM_SECTOR_SIZE / 2 - secoff))
    (haddr : WriteAddr = sectorAddr secpos + 2 * secoff) :
    ∃ flash', writeLoop fuel secpos secoff secremain WriteAddr pBuffer pBuffer.length flash =
        some flash' ∧
      (OnesToBlank (sectorAddr (secpos + 1)) (pBuffer.drop secremain) flash →
        flash' = overwrite WriteAddr pBuffer flash) ∧
      ((∀ i < 2 * pBuffer.length, flash' (WriteAddr + i) = octetOf pBuffer i) →
        OnesToBlank (sectorAddr (secpos + 1)) (pBuffer.drop secremain) flash) := by
  have hlength : secremain ≤ pBuffer.length := by omega
  have hdrop : (pBuffer.drop secremain).length = pBuffer.length - secremain := List.length_drop
  have htake : (pBuffer.take secremain).length = secremain := by
    rw [List.length_take, Nat.min_eq_left hlength]
  have hnext := sectorAddr_succ secpos
  have hsize : 2 * (STM_SECTOR_SIZE / 2) = STM_SECTOR_SIZE := rfl
  have hfilled : 0 < (pBuffer.drop secremain).length →
      sectorAddr (secpos + 1) = WriteAddr + 2 * secremain := by omega
  have hown : writeSector secpos secoff secremain WriteAddr pBuffer flash =
      overwrite WriteAddr (pBuffer.take secremain) flash :=
    writeSector_own (by omega) hlength haddr
  -- the part of the first sector is outside what the others are judged by
  have hsame : OnesToBlank (sectorAddr (secpos + 1)) (pBuffer.drop secremain)
        (overwrite WriteAddr (pBuffer.take secremain) flash) ↔
      OnesToBlank (sectorAddr (secpos + 1)) (pBuffer.drop secremain) flash :=
    OnesToBlank.congr fun i hi => overwrite_other (by omega)
  obtain ⟨flash', hrun, houtcome⟩ : ∃ flash',
      writeLoop fuel secpos secoff secremain WriteAddr pBuffer pBuffer.length flash = some flash' ∧
        LaterOutcome (sectorAddr (secpos + 1)) (pBuffer.drop secremain)
          (overwrite WriteAddr (pBuffer.take secremain) flash) flash' := by
    obtain ⟨fuel, rfl⟩ : ∃ n, fuel = n + 1 := ⟨fuel - 1, by omega⟩
    unfold writeLoop
    rw [hown]
    by_cases hlast : pBuffer.length = secremain
    · refine ⟨_, if_pos hlast, ?_⟩
      rw [List.drop_eq_nil_of_le (Nat.le_of_eq hlast)]
      exact LaterOutcome.nil _ _
    · obtain ⟨flash', hrun, houtcome⟩ := writeLoop_later (overwrite WriteAddr (pBuffer.take secremain) flash)
        (show WriteAddr + secremain < sectorAddr (secpos + 1) by omega)
        (show (pBuffer.drop secremain).length < fuel by omega)
      refine ⟨flash', (if_neg hlast).trans ?_, houtcome⟩
      rw [hdrop, ← secremain_eq] at hrun
      exact hrun
  refine ⟨flash', hrun, fun hall => ?_, fun hwritten => ?_⟩
  · rw [houtcome.done (hsame.mpr hall)]
    exact overwrite_take_drop hlength hfilled
  · exact hsame.mp (houtcome.ones (octetOf_behind hfilled hwritten))

/-- The same of the function. -/
theorem STMFLASH_Write_runs (flash : Buf) {WriteAddr : UInt32} {NumToWrite : UInt16}
    (hlength : pBuffer.length = NumToWrite.toNat) (heven : WriteAddr.toNat % 2 = 0)
    (hbase : STM32_FLASH_BASE ≤ WriteAddr.toNat)
    (hend : WriteAddr.toNat + 2 * pBuffer.length ≤ STM32_FLASH_BASE + 1024 * STM32_FLASH_SIZE) :
    ∃ flash', STMFLASH_Write WriteAddr pBuffer NumToWrite flash = some flash' ∧
      (LaterOnesToBlank WriteAddr.toNat pBuffer flash →
        flash' = overwrite WriteAddr.toNat pBuffer flash) ∧
      ((∀ i < 2 * pBuffer.length, flash' (WriteAddr.toNat + i) = octetOf pBuffer i) →
        LaterOnesToBlank WriteAddr.toNat pBuffer flash) := by
  have hsize : STM_SECTOR_SIZE = 2048 := rfl
  have haligned : STM32_FLASH_BASE % 2 = 0 := rfl
  unfold STMFLASH_Write LaterOnesToBlank
  rw [← hlength]
  generalize WriteAddr.toNat = addr at heven hbase hend ⊢
  -- an address at the end of the flash leaves room for no half-word
  by_cases houtside : addr < STM32_FLASH_BASE ∨ addr ≥ STM32_FLASH_BASE + 1024 * STM32_FLASH_SIZE
  · obtain rfl : pBuffer = [] := List.eq_nil_of_length_eq_zero (by omega)
    rw [List.drop_nil]
    exact ⟨flash, if_pos houtside, fun _ => rfl, fun _ => OnesToBlank.nil _ _⟩
  · obtain ⟨secpos, hsecpos⟩ : ∃ n, n = (addr - STM32_FLASH_BASE) / STM_SECTOR_SIZE := ⟨_, rfl⟩
    obtain ⟨secoff, hsecoff⟩ : ∃ n, n = (addr - STM32_FLASH_BASE) % STM_SECTOR_SIZE / 2 := ⟨_, rfl⟩
    have hfirst : firstPart addr = STM_SECTOR_SIZE / 2 - secoff := by
      rw [hsecoff]
      rfl
    have haddr : addr = sectorAddr secpos + 2 * secoff := by
      rw [hsize] at hsecpos hsecoff
      unfold sectorAddr
      rw [hsize]
      omega
    have hrange : secoff < STM_SECTOR_SIZE / 2 := by
      rw [hsize] at hsecoff ⊢
      omega
    have hnext : sectorAddr (secpos + 1) = addr + 2 * firstPart addr := by
      rw [sectorAddr_succ, hfirst]
      rw [hsize] at hrange ⊢
      omega
    have hdrop : pBuffer.drop (min pBuffer.length (firstPart addr)) = pBuffer.drop (firstPart addr) := by
      rcases Nat.le_total pBuffer.length (firstPart addr) with hle | hle
      · rw [Nat.min_eq_left hle, List.drop_length, List.drop_eq_nil_of_le hle]
      · rw [Nat.min_eq_right hle]
    have hpart : (if pBuffer.length ≤ STM_SECTOR_SIZE / 2 - secoff then pBuffer.length
        else STM_SECTOR_SIZE / 2 - secoff) = min pBuffer.length (STM_SECTOR_SIZE / 2 - secoff) :=
      Nat.min_def.symm
    obtain ⟨flash', hrun, houtcome⟩ :=
      writeLoop_first flash (Nat.lt_succ_self pBuffer.length) hrange rfl haddr
    rw [← hfirst, hdrop, hnext] at houtcome
    rw [← hpart] at hrun
    subst hsecpos hsecoff
    exact ⟨flash', (if_neg houtside).trans hrun, houtcome⟩

theorem STMFLASH_Write_iff (flash : Buf) (WriteAddr : UInt32) (pBuffer : List UInt16)
    (NumToWrite : UInt16) (hlength : pBuffer.length = NumToWrite.toNat)
    (heven : WriteAddr.toNat % 2 = 0) (hbase : STM32_FLASH_BASE ≤ WriteAddr.toNat)
    (hend : WriteAddr.toNat + 2 * pBuffer.length ≤ STM32_FLASH_BASE + 1024 * STM32_FLASH_SIZE) :
    (∃ flash', STMFLASH_Write WriteAddr pBuffer NumToWrite flash = some flash' ∧
        FlashWritten WriteAddr.toNat pBuffer flash flash') ↔
      LaterOnesToBlank WriteAddr.toNat pBuffer flash := by
  obtain ⟨flash', hrun, hdone, hones⟩ := STMFLASH_Write_runs flash hlength heven hbase hend
  rw [hrun]
  constructor
  · rintro ⟨flash₁, hflash, hwritten⟩
    obtain rfl := Option.some.inj hflash
    exact hones fun i hi => octet_of_read hwritten.read hi
  · intro hall
    rw [hdone hall]
    exact ⟨_, rfl, FlashWritten.overwrite heven pBuffer flash⟩

/-- Two half-words on either side of a sector's end, over sectors that are in use. -/
theorem STMFLASH_Write_used :
    ∃ flash', STMFLASH_Write 0x080007FE [0x1234, 0x5678] 2 (fun _ => 0) = some flash' ∧
      FlashWritten (0x080007FE : UInt32).toNat [0x1234, 0x5678] (fun _ => 0) flash' := by
  refine (STMFLASH_Write_iff (fun _ => 0) 0x080007FE [0x1234, 0x5678] 2 rfl (by decide) (by decide)
    (by decide)).mpr fun j hblank v hv => ?_
  have hfirst := hblank 0 (List.length_pos_of_mem hv)
  exact absurd hfirst (show (0 : UInt16) ≠ 0xFFFF by decide)

/-- Where the second sector is blank, its half-word is sent to the octet after the first one's. -/
theorem STMFLASH_Write_blank :
    ¬ ∃ flash', STMFLASH_Write 0x080007FE [0x1234, 0x5678] 2 (fun _ => 0xFF) = some flash' ∧
      FlashWritten (0x080007FE : UInt32).toNat [0x1234, 0x5678] (fun _ => 0xFF) flash' := by
  rintro ⟨flash', hflash, hwritten⟩
  have hlength : [(0x1234 : UInt16), 0x5678].length = (2 : UInt16).toNat := rfl
  have heven : (0x080007FE : UInt32).toNat % 2 = 0 := by decide
  obtain ⟨flash₁, hrun, -, hones⟩ :=
    STMFLASH_Write_runs (fun _ => 0xFF) hlength heven (by decide) (by decide)
  obtain rfl := Option.some.inj (hflash.symm.trans hrun)
  have hall := hones fun i hi => octet_of_read hwritten.read hi
  have hlast : (0x5678 : UInt16) = 0xFFFF :=
    hall 0 (fun k _ => get16_ones _) 0x5678 (by decide)
  exact absurd hlast (by decide)

end Ptpd
