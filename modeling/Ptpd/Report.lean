import Ptpd.Adjust
import Ptpd.Lib.Checksum
import Ptpd.Lib.Layout
import Ptpd.Monitor
import Ptpd.Serial

/-! # The report to the host (`task.c`)

    Every four seconds a master sends its table of monitored slaves to the host: a
    tag, 16 rows of four words, low octet first, and the exclusive or of all that.
    With what the slaves report, the host sees the last offset of every slave.
-/

namespace Ptpd

open MachineInt Octets SlotTable Checksum

/-! ## The message -/

def fe5650a_cs_calc (pDat : Buf) (len : Nat) : UInt8 :=
  (List.range len).foldl (fun tmpXor i => tmpXor ^^^ pDat i) 0

/-- `buff[k + 3] = (x & 0xff000000) >> 24` and so on, down to `buff[k]`. -/
def storeWord (buff : Buf) (k : Nat) (x : UInt32) : Buf :=
  let buff := put8 buff (k + 3) ((x &&& 0xff000000) >>> 24).toUInt8
  let buff := put8 buff (k + 2) ((x &&& 0x00ff0000) >>> 16).toUInt8
  let buff := put8 buff (k + 1) ((x &&& 0x0000ff00) >>> 8).toUInt8
  put8 buff k ((x &&& 0x000000ff) >>> 0).toUInt8

/-- The row of one slave. -/
def storeRow (buff : Buf) (i : Nat) (e : PtpControl) : Buf :=
  let buff := storeWord buff (i * 16 + 4) e.ipaddr
  let buff := storeWord buff (i * 16 + 8) (UInt32.ofInt e.Offset.seconds)
  let buff := storeWord buff (i * 16 + 12) (UInt32.ofInt e.Offset.nanoseconds)
  storeWord buff (i * 16 + 16) e.Time

/-- `memcpy(buff, "$EONE", 4)` into a cleared buffer. -/
def reportTag : Buf :=
  put8 (put8 (put8 (put8 (fun _ => 0) 0 0x24) 1 0x45) 2 0x4f) 3 0x4e

/-- The message, as `com_send_str` puts it out. -/
def ptp_msg_hanlde_packed (ptpMonitorl : Nat → PtpControl) : List UInt8 :=
  let buff := (List.range ptpMonitorlConstant).foldl
    (fun buff i => storeRow buff i (ptpMonitorl i)) reportTag
  let buff := put8 buff 261 (fe5650a_cs_calc buff 261)
  take 262 buff

/-- What `KEY_CallBack` sends to the host. -/
def KEY_CallBack (PTP_MODE : PtpMode) (w : World) : Option (List UInt8) :=
  if PTP_MODE = .emPTPMaster then some (ptp_msg_hanlde_packed w.ptpMonitorl) else none

/-! ## Rows -/

/-- The words of a row. -/
abbrev Row : Type := UInt32 × UInt32 × UInt32 × UInt32

def rowLayout : Layout Row := .seq .word (.seq .word (.seq .word .word))

def PtpControl.row (e : PtpControl) : Row :=
  (e.ipaddr, UInt32.ofInt e.Offset.seconds, UInt32.ofInt e.Offset.nanoseconds, e.Time)

/-- What a host makes of a row. -/
def Row.entry (r : Row) : PtpControl :=
  { ipaddr := r.1
    Offset := { seconds := wrapS 32 r.2.1.toNat, nanoseconds := wrapS 32 r.2.2.1.toNat }
    Time := r.2.2.2 }

/-- The row of slot `i` in a message. -/
def readRow (message : List UInt8) (i : Nat) : PtpControl :=
  Row.entry (rowLayout.get (bufOf message) (4 + i * 16))

/-- Masked and shifted down, an octet of the word is left. -/
theorem masked_toUInt8 (x : UInt32) (k : Nat) (hk : k < 4) :
    ((x &&& (0xff <<< UInt32.ofNat (8 * k))) >>> UInt32.ofNat (8 * k)).toUInt8 =
      octet x.toNat k := by
  have hlt := x.toNat_lt
  have hmask : ∀ j, (x.toNat &&& (0xff <<< j)) >>> j = x.toNat / 2 ^ j % 256 := by
    intro j
    rw [Nat.shiftRight_and_distrib, Nat.shiftLeft_shiftRight, show (0xff : Nat) = 2 ^ 8 - 1 from rfl,
      Nat.and_two_pow_sub_one_eq_mod, Nat.shiftRight_eq_div_pow]
  apply UInt8.toNat_inj.mp
  have h := hmask (8 * k)
  obtain rfl | rfl | rfl | rfl : k = 0 ∨ k = 1 ∨ k = 2 ∨ k = 3 := by omega
  all_goals
    simp only [UInt32.toNat_toUInt8, UInt32.toNat_shiftRight, UInt32.toNat_shiftLeft,
      UInt32.toNat_and, UInt32.toNat_ofNat', octet_toNat, UInt32.reduceToNat, Nat.reduceMod,
      Nat.reduceMul, Nat.reduceShiftLeft, Nat.reducePow] at h ⊢
    omega

theorem storeWord_eq (buff : Buf) (k : Nat) (x : UInt32) : storeWord buff k x = put32 buff k x := by
  have h0 := masked_toUInt8 x 0 (by decide)
  have h1 := masked_toUInt8 x 1 (by decide)
  have h2 := masked_toUInt8 x 2 (by decide)
  have h3 := masked_toUInt8 x 3 (by decide)
  unfold storeWord put32
  rw [← h0, ← h1, ← h2, ← h3]
  -- the octets are stored in the opposite order
  funext i
  simp only [put8]
  split_ifs <;> first | rfl | omega

theorem storeRow_eq (buff : Buf) (i : Nat) (e : PtpControl) :
    storeRow buff i e = rowLayout.put buff (4 + i * 16) e.row := by
  unfold storeRow
  simp only [storeWord_eq]
  rw [Nat.add_comm (i * 16) 4, show i * 16 + 8 = 4 + i * 16 + 4 by omega,
    show i * 16 + 12 = 4 + i * 16 + 4 + 4 by omega,
    show i * 16 + 16 = 4 + i * 16 + 4 + 4 + 4 by omega]
  rfl

/-- The loop lays the table out. -/
theorem storeRows_eq (ptpMonitorl : Nat → PtpControl) (n : Nat) (buff : Buf) :
    (List.range n).foldl (fun buff i => storeRow buff i (ptpMonitorl i)) buff =
      rowLayout.putTable 4 (fun i => (ptpMonitorl i).row) n buff := by
  induction n with
  | zero => rfl
  | succ n ih =>
    rw [List.range_succ, List.foldl_append, ih, List.foldl_cons, List.foldl_nil, storeRow_eq]
    rfl

theorem PtpControl.row_ipaddr (e : PtpControl) : (Row.entry e.row).ipaddr = e.ipaddr := by
  delta PtpControl.row Row.entry
  with_reducible rfl

/-- A difference that fits its fields is read as it was. -/
theorem PtpControl.row_entry {e : PtpControl} (hseconds : SRange 32 e.Offset.seconds)
    (hnanos : SRange 32 e.Offset.nanoseconds) : e.row.entry = e := by
  obtain ⟨ipaddr, ⟨seconds, nanoseconds⟩, Time⟩ := e
  unfold PtpControl.row Row.entry
  dsimp only
  rw [toInteger32_ofInt, toInteger32_ofInt, wrapS_of_range (by decide) hseconds,
    wrapS_of_range (by decide) hnanos]

/-! ## What the host reads -/

theorem cs_calc_eq (pDat : Buf) (len : Nat) : fe5650a_cs_calc pDat len = xorSum (take len pDat) := by
  unfold fe5650a_cs_calc xorSum take
  rw [List.foldl_map]

/-- The message without its checksum. -/
def reportBody (ptpMonitorl : Nat → PtpControl) : Buf :=
  rowLayout.putTable 4 (fun i => (ptpMonitorl i).row) ptpMonitorlConstant reportTag

theorem ptp_msg_hanlde_packed_eq (ptpMonitorl : Nat → PtpControl) :
    ptp_msg_hanlde_packed ptpMonitorl =
      take 261 (reportBody ptpMonitorl) ++ [xorSum (take 261 (reportBody ptpMonitorl))] := by
  unfold ptp_msg_hanlde_packed
  dsimp only
  rw [storeRows_eq, cs_calc_eq]
  exact take_put8_succ (reportBody ptpMonitorl) 261 _

theorem packed_length (ptpMonitorl : Nat → PtpControl) :
    (ptp_msg_hanlde_packed ptpMonitorl).length = 262 := by
  rw [ptp_msg_hanlde_packed_eq, List.length_append, take_length, List.length_singleton]

/-- The octets cancel out. -/
theorem packed_closed (ptpMonitorl : Nat → PtpControl) :
    xorSum (ptp_msg_hanlde_packed ptpMonitorl) = 0 := by
  rw [ptp_msg_hanlde_packed_eq]
  exact xorSum_closed _

theorem packed_tag (ptpMonitorl : Nat → PtpControl) :
    (ptp_msg_hanlde_packed ptpMonitorl).take 4 = [0x24, 0x45, 0x4f, 0x4e] := by
  have htag : take 4 (reportBody ptpMonitorl) = take 4 reportTag := by
    apply take_eq_take.mpr
    intro i hi
    exact rowLayout.putTable_other _ _ _ _ (.inl hi)
  have hfirst : (take 261 (reportBody ptpMonitorl)).take 4 = take 4 (reportBody ptpMonitorl) := by
    unfold take
    rw [← List.map_take, List.take_range]
    rfl
  rw [ptp_msg_hanlde_packed_eq, List.take_append_of_le_length (by rw [take_length]; decide), hfirst,
    htag]
  decide

/-- Every row is read back as it stands in the table. -/
theorem readRow_packed (ptpMonitorl : Nat → PtpControl) {i : Nat} (hi : i < ptpMonitorlConstant) :
    readRow (ptp_msg_hanlde_packed ptpMonitorl) i = (ptpMonitorl i).row.entry := by
  have hlt : i < 16 := hi
  have hsize : rowLayout.size = 16 := rfl
  have hsame : ∀ k, 4 + i * 16 ≤ k → k < 4 + i * 16 + rowLayout.size →
      bufOf (ptp_msg_hanlde_packed ptpMonitorl) k = reportBody ptpMonitorl k := by
    intro k _ hk
    rw [ptp_msg_hanlde_packed_eq]
    unfold bufOf
    rw [List.getD_append _ _ _ _ (by rw [take_length]; omega)]
    exact bufOf_take _ (by omega)
  unfold readRow
  rw [rowLayout.get_congr _ _ _ hsame, show i * 16 = i * rowLayout.size from rfl]
  unfold reportBody
  rw [rowLayout.get_putTable _ _ _ _ hi]

/-! ## Slaves, their master and the host -/

theorem Reporting.range {slaves : Finset UInt32} {last : UInt32 → Option TimeInternal} {w : World}
    (h : Reporting slaves last w) :
    ∀ ipaddr offset, last ipaddr = some offset →
      SRange 32 offset.seconds ∧ SRange 32 offset.nanoseconds := by
  induction h with
  | start _ _ =>
    intro ipaddr offset hlast
    cases hlast
  | other _ _ _ ih => exact ih
  | @report last w v bytes time before _ _ hcanonical hseconds _ _ _ _ ih =>
    intro ipaddr offset hlast
    by_cases hip : ipaddr = v.platform.netif_ip_addr
    · rw [hip, Function.update_self] at hlast
      cases hlast
      have hleast := hcanonical.least
      have hgreatest := hcanonical.greatest
      refine ⟨hseconds, ?_, ?_⟩
      · norm_num
        omega
      · norm_num
        omega
    · rw [Function.update_of_ne hip] at hlast
      exact ih ipaddr offset hlast

/-- Up to 16 slaves report to a master in any order and as often as they like: the message that it
    sends to the host holds one row for each slave that has reported, with its last offset, and no
    row of any other. Its octets cancel out, and no change of a single one goes unnoticed. -/
theorem report_mirrors {slaves : Finset UInt32} (hcard : slaves.card ≤ ptpMonitorlConstant)
    {last : UInt32 → Option TimeInternal} {w : World} (h : Reporting slaves last w)
    {message : List UInt8}
    (hsent : KEY_CallBack .emPTPMaster w = some message) :
    (∀ ipaddr ≠ 0, ∀ offset, last ipaddr = some offset ↔
      ∃ i < ptpMonitorlConstant, (readRow message i).ipaddr = ipaddr ∧
        (readRow message i).Offset = offset) ∧
    (∀ i < ptpMonitorlConstant, ∀ j < ptpMonitorlConstant,
      (readRow message i).ipaddr = (readRow message j).ipaddr →
        (readRow message i).ipaddr ≠ 0 → i = j) ∧
    message.length = 262 ∧ message.take 4 = [0x24, 0x45, 0x4f, 0x4e] ∧ xorSum message = 0 ∧
    ∀ k, ∀ hk : k < message.length, ∀ a, xorSum (message.set k a) = 0 ↔ a = message[k] := by
  obtain rfl : ptp_msg_hanlde_packed w.ptpMonitorl = message := Option.some.inj hsent
  obtain ⟨entries, hrepresents, hoffsets, hslaves, -⟩ := h.entered hcard
  have hrange := h.range
  -- the address is read as it is, and the offset too where there is one
  have haddress : ∀ i < ptpMonitorlConstant,
      (readRow (ptp_msg_hanlde_packed w.ptpMonitorl) i).ipaddr = (w.ptpMonitorl i).ipaddr := by
    intro i hi
    rw [readRow_packed w.ptpMonitorl hi]
    exact PtpControl.row_ipaddr _
  have hentries : ∀ i < ptpMonitorlConstant, (w.ptpMonitorl i).ipaddr ≠ 0 →
      last (w.ptpMonitorl i).ipaddr = some (w.ptpMonitorl i).Offset := by
    intro i hi hne
    have honly : entries (w.ptpMonitorl i).ipaddr = some (w.ptpMonitorl i) :=
      hrepresents.only i hi hne
    rw [hoffsets, honly]
    rfl
  have hrow : ∀ i < ptpMonitorlConstant, (w.ptpMonitorl i).ipaddr ≠ 0 →
      readRow (ptp_msg_hanlde_packed w.ptpMonitorl) i = w.ptpMonitorl i := by
    intro i hi hne
    obtain ⟨hseconds, hnanos⟩ := hrange _ _ (hentries i hi hne)
    rw [readRow_packed w.ptpMonitorl hi]
    exact PtpControl.row_entry hseconds hnanos
  refine ⟨?_, ?_, packed_length _, packed_tag _, packed_closed _, ?_⟩
  · intro ipaddr hne offset
    constructor
    · intro hlast
      rw [hoffsets] at hlast
      obtain ⟨entry, hentry, hoffset⟩ := Option.map_eq_some_iff.mp hlast
      obtain ⟨hkey, i, hi, hfound⟩ := hrepresents.found ipaddr hne entry hentry
      have hslot : w.ptpMonitorl i = entry := hfound
      have hip : (w.ptpMonitorl i).ipaddr = ipaddr := by rw [hslot, hkey]
      refine ⟨i, hi, (haddress i hi).trans hip, ?_⟩
      rw [hrow i hi (hip.symm ▸ hne), hslot, hoffset]
    · rintro ⟨i, hi, hip, hoffset⟩
      have hip' : (w.ptpMonitorl i).ipaddr = ipaddr := (haddress i hi).symm.trans hip
      rw [hrow i hi (hip'.symm ▸ hne)] at hoffset
      rw [← hip', ← hoffset]
      exact hentries i hi (hip'.symm ▸ hne)
  · intro i hi j hj hip hne
    rw [haddress i hi] at hip hne
    rw [haddress j hj] at hip
    exact hrepresents.distinct i hi j hj hip hne
  · intro k hk a
    have hiff := xorSum_set_eq_iff _ hk a
    rw [packed_closed] at hiff
    exact hiff

/-- Two slaves have reported, and the host reads both. -/
theorem report_mirrors_two :
    let slaves : Finset UInt32 := {0xC0A80002, 0xC0A80003}
    let last : UInt32 → Option TimeInternal :=
      Function.update (Function.update (fun _ => none) 0xC0A80002 (some ⟨-1, -5⟩))
        0xC0A80003 (some ⟨0, 7⟩)
    ∃ w message, Reporting slaves last w ∧ KEY_CallBack .emPTPMaster w = some message ∧
      ∀ ipaddr ≠ 0, ∀ offset, last ipaddr = some offset ↔
        ∃ i < ptpMonitorlConstant, (readRow message i).ipaddr = ipaddr ∧
          (readRow message i).Offset = offset := by
  have hstart : Reporting {0xC0A80002, 0xC0A80003} (fun _ => none) (World.zero .steady) :=
    .start (fun _ => rfl) rfl
  have hfirst := hstart.withMessageOf (v := slaveAt 0xC0A80002 ⟨-1, -5⟩) (by decide)
    ⟨by decide, by decide, by decide, by decide⟩ (by decide) rfl
  have hsecond := hfirst.withMessageOf (v := slaveAt 0xC0A80003 ⟨0, 7⟩) (by decide)
    ⟨by decide, by decide, by decide, by decide⟩ (by decide) rfl
  exact ⟨_, _, hsecond, rfl, (report_mirrors (by decide) hsecond rfl).1⟩

end Ptpd
