import Ptpd.Lib.HalfWords
import Ptpd.Lib.Octets
import Mathlib.Tactic.Linarith

/-! # An SNTP exchange (`sntp.h`, `sntp_client.c`, `udp_echoserver.c`)

    The client sends its transmit time, the server answers with it and its own
    two times, and the client computes delay and offset from the four. The
    64-bit fixed-point arithmetic is done on two 32-bit words with 16-bit
    carries; it comes out as arithmetic modulo 2^64.
-/

namespace Ptpd

open MachineInt Octets HalfWords

/-! ## Fixed-point numbers (`sntp.h`) -/

/-- `time_fp`: seconds and 2^-32 seconds. -/
structure TimeFp where
  fp_ui : UInt32
  fp_uf : UInt32
deriving DecidableEq, Inhabited

namespace TimeFp

/-- In units of 2^-32 s. -/
def units (t : TimeFp) : Nat := pair t.fp_ui t.fp_uf

/-- The same, read with its sign. -/
def signedUnits (t : TimeFp) : Int := signed t.fp_ui t.fp_uf

end TimeFp

/-- `r += a`. -/
def FP_ADD (r a : TimeFp) : TimeFp :=
  let lo_half := (r.fp_uf &&& 0xffff) + (a.fp_uf &&& 0xffff)
  let hi_half := ((r.fp_uf >>> 16) &&& (0xffff : UInt32)) + ((a.fp_uf >>> 16) &&& (0xffff : UInt32))
  let hi_half := if lo_half &&& (0x10000 : UInt32) ≠ 0 then hi_half + 1 else hi_half
  { fp_uf := ((hi_half &&& 0xffff) <<< 16) ||| (lo_half &&& 0xffff)
    fp_ui := if hi_half &&& (0x10000 : UInt32) ≠ 0 then r.fp_ui + a.fp_ui + 1
      else r.fp_ui + a.fp_ui }

/-- `r -= a`: the complement of `a` is added, which has no fraction to negate
    when that is 0. -/
def FP_SUB (r a : TimeFp) : TimeFp :=
  if a.fp_uf = 0 then { r with fp_ui := r.fp_ui - a.fp_ui }
  else
    let lo_half := (r.fp_uf &&& 0xffff) + ((-a.fp_uf) &&& 0xffff)
    -- masked to 16 bits, the shift of the negative `int` is the unsigned one
    let hi_half :=
      ((r.fp_uf >>> 16) &&& (0xffff : UInt32)) + (((-a.fp_uf) >>> 16) &&& (0xffff : UInt32))
    let hi_half := if lo_half &&& (0x10000 : UInt32) ≠ 0 then hi_half + 1 else hi_half
    { fp_uf := ((hi_half &&& 0xffff) <<< 16) ||| (lo_half &&& 0xffff)
      fp_ui := if hi_half &&& (0x10000 : UInt32) ≠ 0 then r.fp_ui + ~~~a.fp_ui + 1
        else r.fp_ui + ~~~a.fp_ui }

/-- `v >>= 1`, `v` is signed. The top bit is set again after the shift. -/
def FP_RSHIFT (v : TimeFp) : TimeFp where
  fp_uf :=
    if v.fp_ui &&& (1 : UInt32) ≠ 0 then (v.fp_uf >>> 1) ||| (0x80000000 : UInt32)
    else v.fp_uf >>> 1
  fp_ui :=
    if v.fp_ui &&& (0x80000000 : UInt32) ≠ 0 then (v.fp_ui >>> 1) ||| (0x80000000 : UInt32)
    else v.fp_ui >>> 1

def HTONL_FP (h : TimeFp) : TimeFp := ⟨htonl h.fp_ui, htonl h.fp_uf⟩

def NTOHL_FP (n : TimeFp) : TimeFp := ⟨htonl n.fp_ui, htonl n.fp_uf⟩

theorem NTOHL_FP_HTONL_FP (t : TimeFp) : NTOHL_FP (HTONL_FP t) = t := by
  unfold NTOHL_FP HTONL_FP
  rw [htonl_htonl, htonl_htonl]

theorem FP_ADD_units (r a : TimeFp) : (FP_ADD r a).units = (r.units + a.units) % 2 ^ 64 := by
  have hadd := pair_add r.fp_ui r.fp_uf a.fp_ui a.fp_uf
  rw [← join_sums r.fp_uf a.fp_uf] at hadd
  exact hadd

/-- Subtracting is modulo 2^64, with or without a fraction to borrow for. -/
theorem FP_SUB_units (r a : TimeFp) :
    (FP_SUB r a).units = (r.units + (2 ^ 64 - a.units)) % 2 ^ 64 := by
  unfold FP_SUB
  split
  · rename_i hzero
    have hui := r.fp_ui.toNat_lt
    have huf := r.fp_uf.toNat_lt
    have hai := a.fp_ui.toNat_lt
    unfold TimeFp.units pair
    rw [hzero, UInt32.toNat_sub]
    simp only [UInt32.reduceToNat]
    omega
  · rename_i hne
    have hadd := pair_add r.fp_ui r.fp_uf (~~~a.fp_ui) (-a.fp_uf)
    rw [← join_sums r.fp_uf (-a.fp_uf), pair_neg hne] at hadd
    exact hadd

theorem FP_RSHIFT_signedUnits (v : TimeFp) : (FP_RSHIFT v).signedUnits = v.signedUnits / 2 :=
  signed_halve v.fp_ui v.fp_uf

theorem TimeFp.units_lt (t : TimeFp) : t.units < 2 ^ 64 := pair_lt t.fp_ui t.fp_uf

theorem TimeFp.units_emod (t : TimeFp) : (t.units : Int) % 2 ^ 64 = t.signedUnits % 2 ^ 64 :=
  pair_emod t.fp_ui t.fp_uf

/-- A number modulo 2^64 that fits has that sign. -/
theorem TimeFp.signedUnits_eq (t : TimeFp) {x : Int} (hx : SRange 64 x)
    (h : (t.units : Int) % 2 ^ 64 = x % 2 ^ 64) : t.signedUnits = x :=
  signed_eq_of_emod hx h

/-- Half of a signed difference. -/
theorem FP_RSHIFT_FP_SUB (r a : TimeFp) {x : Int} (hx : SRange 64 x)
    (h : x % 2 ^ 64 = ((r.units : Int) - a.units) % 2 ^ 64) :
    (FP_RSHIFT (FP_SUB r a)).signedUnits = x / 2 := by
  have ha := a.units_lt
  rw [FP_RSHIFT_signedUnits, TimeFp.signedUnits_eq (FP_SUB r a) hx]
  rw [h, FP_SUB_units]
  generalize r.units = m
  generalize a.units = n at ha
  omega

/-- A sum of signed numbers that fits. -/
theorem FP_ADD_signedUnits (r a : TimeFp) (h : SRange 64 (r.signedUnits + a.signedUnits)) :
    (FP_ADD r a).signedUnits = r.signedUnits + a.signedUnits := by
  have hr := r.units_emod
  have ha := a.units_emod
  apply TimeFp.signedUnits_eq _ h
  rw [FP_ADD_units]
  -- `omega` must not look into the signed numbers
  generalize r.units = m at hr
  generalize a.units = n at ha
  generalize r.signedUnits = x at hr
  generalize a.signedUnits = y at ha
  omega

/-! ## Messages -/

def SNTP_VERSION : UInt8 := 3
def SNTP_STRATUM : UInt8 := 2
def MODE_CLIENT : UInt8 := 3
def MODE_SERVER : UInt8 := 4
def LEAP_NO_WARNING : UInt8 := 0

def MSG_MODE (vi_vn_md : UInt8) : UInt8 := vi_vn_md &&& 0x7

def MSG_LI_VN_MODE (li vn md : UInt8) : UInt8 :=
  ((li <<< 6) &&& (0xc0 : UInt8)) ||| ((vn <<< 3) &&& (0x38 : UInt8)) ||| (md &&& (0x7 : UInt8))

/-- `struct sntp_s`. -/
structure SntpMsg where
  li_vn_md : UInt8
  stratum : UInt8
  poll : UInt8
  percision : UInt8
  root_delay : UInt32
  root_disp : UInt32
  ref_id : UInt32
  ref_time : TimeFp
  orig : TimeFp
  recv : TimeFp
  xmt : TimeFp
deriving DecidableEq

/-- After `memset`. -/
def SntpMsg.zero : SntpMsg := ⟨0, 0, 0, 0, 0, 0, 0, ⟨0, 0⟩, ⟨0, 0⟩, ⟨0, 0⟩, ⟨0, 0⟩⟩

/-! ## Client and server -/

/-- The request that the client sends at `sys_timer`, if it gets a pbuf for it. -/
def udp_sntp_client_connect (sys_timer : TimeFp) : SntpMsg :=
  { SntpMsg.zero with
    li_vn_md := MSG_LI_VN_MODE LEAP_NO_WARNING SNTP_VERSION MODE_CLIENT
    stratum := SNTP_STRATUM
    xmt := HTONL_FP sys_timer }

/-- The answer that the server sends at `sys_timer`, if it gets a pbuf for it. -/
def sntp_packet_senddata (sync_state : UInt8) (local_ip : UInt32) (xmt : Option TimeFp)
    (recv sys_timer : TimeFp) : SntpMsg :=
  let sntp_msg :=
    match xmt with
    -- the client's time goes back as it came, in network order
    | some xmt => { SntpMsg.zero with orig := xmt, recv := HTONL_FP recv }
    | none => SntpMsg.zero
  { sntp_msg with
    ref_time := HTONL_FP ⟨recv.fp_ui, 0⟩
    li_vn_md := MSG_LI_VN_MODE sync_state SNTP_VERSION MODE_SERVER
    stratum := SNTP_STRATUM
    ref_id := local_ip
    xmt := HTONL_FP sys_timer }

/-- The server's answer to a whole message; only requests are answered. -/
def sntp_server_receive_callback (sync_state : UInt8) (local_ip : UInt32)
    (recv_t sys_timer : TimeFp) (sntp_msg : SntpMsg) : Option SntpMsg :=
  if MSG_MODE sntp_msg.li_vn_md ≠ MODE_CLIENT then none
  else some (sntp_packet_senddata sync_state local_ip (some sntp_msg.xmt) recv_t sys_timer)

/-- `*delay` and `*offset` after the call. Without an originate time neither is
    written. -/
def sntp_client_time_handle (rev_time : TimeFp) (sntp_msg : SntpMsg) (delay offset : TimeFp) :
    TimeFp × TimeFp :=
  let orig_t := NTOHL_FP sntp_msg.orig
  let recv_t := NTOHL_FP sntp_msg.recv
  let xmt_t := NTOHL_FP sntp_msg.xmt
  if orig_t.fp_ui = 0 ∧ orig_t.fp_uf = 0 then (delay, offset)
  else
    let t3_4 := FP_SUB xmt_t rev_time
    let t2_1 := FP_SUB recv_t orig_t
    -- each difference is halved on its own
    let offset_t := FP_ADD (FP_RSHIFT t3_4) (FP_RSHIFT t2_1)
    let t4_1 := FP_SUB rev_time orig_t
    let t3_2 := FP_SUB xmt_t recv_t
    (FP_SUB t4_1 t3_2, offset_t)

/-- The client's side of an answer; other messages are dropped. -/
def sntp_receive_callback (rev_time : TimeFp) (sntp_msg : SntpMsg) (delay_t offset_t : TimeFp) :
    TimeFp × TimeFp :=
  if MSG_MODE sntp_msg.li_vn_md ≠ MODE_SERVER then (delay_t, offset_t)
  else sntp_client_time_handle rev_time sntp_msg delay_t offset_t

/-- The mode can be read back, whatever the leap indicator says. -/
theorem MSG_MODE_server (sync_state : UInt8) :
    MSG_MODE (MSG_LI_VN_MODE sync_state SNTP_VERSION MODE_SERVER) = MODE_SERVER := by
  obtain ⟨bits⟩ := sync_state
  revert bits
  decide +kernel

theorem MSG_MODE_client (sys_timer : TimeFp) :
    MSG_MODE (udp_sntp_client_connect sys_timer).li_vn_md = MODE_CLIENT := by
  show MSG_MODE (MSG_LI_VN_MODE LEAP_NO_WARNING SNTP_VERSION MODE_CLIENT) = MODE_CLIENT
  decide

/-! ## The exchange -/

/-- What the client knows after a request at `t1` that arrives at `t2` and is
    answered at `t3`, the answer being handled at `t4`. -/
def sntpExchange (sync_state : UInt8) (local_ip : UInt32) (t1 t2 t3 t4 delay_t offset_t : TimeFp) :
    Option (TimeFp × TimeFp) :=
  (sntp_server_receive_callback sync_state local_ip t2 t3 (udp_sntp_client_connect t1)).map
    fun reply => sntp_receive_callback t4 reply delay_t offset_t

theorem TimeFp.ne_zero {t : TimeFp} (h : t ≠ ⟨0, 0⟩) : ¬ (t.fp_ui = 0 ∧ t.fp_uf = 0) := by
  rintro ⟨hui, huf⟩
  apply h
  cases t
  simp only at hui huf
  rw [hui, huf]

/-- The four times as the client reads them, and the words it computes. -/
theorem sntpExchange_eq (sync_state : UInt8) (local_ip : UInt32)
    {t1 : TimeFp} (h : t1 ≠ ⟨0, 0⟩) (t2 t3 t4 delay_t offset_t : TimeFp) :
    sntpExchange sync_state local_ip t1 t2 t3 t4 delay_t offset_t =
      some (FP_SUB (FP_SUB t4 t1) (FP_SUB t3 t2),
        FP_ADD (FP_RSHIFT (FP_SUB t3 t4)) (FP_RSHIFT (FP_SUB t2 t1))) := by
  have hclient : ¬ MSG_MODE (udp_sntp_client_connect t1).li_vn_md ≠ MODE_CLIENT :=
    not_not.mpr (MSG_MODE_client t1)
  have hserver : ¬ MSG_MODE (MSG_LI_VN_MODE sync_state SNTP_VERSION MODE_SERVER) ≠ MODE_SERVER :=
    not_not.mpr (MSG_MODE_server sync_state)
  unfold sntpExchange sntp_server_receive_callback
  rw [if_neg hclient, Option.map_some]
  unfold sntp_receive_callback sntp_packet_senddata
  dsimp only
  rw [if_neg hserver]
  unfold sntp_client_time_handle
  -- each time was swapped once on either side
  have horig : NTOHL_FP (udp_sntp_client_connect t1).xmt = t1 := NTOHL_FP_HTONL_FP t1
  dsimp only
  rw [horig, NTOHL_FP_HTONL_FP, NTOHL_FP_HTONL_FP, if_neg (TimeFp.ne_zero h)]

/-- **End to end**: the delay is exact modulo 2^64, and the offset is within one
    unit of half the sum of the two signed differences. -/
theorem sntp_delay_and_offset (sync_state : UInt8) (local_ip : UInt32)
    (t1 t2 t3 t4 delay_t offset_t : TimeFp) (h : t1 ≠ ⟨0, 0⟩) :
    ∃ delay offset,
      sntpExchange sync_state local_ip t1 t2 t3 t4 delay_t offset_t = some (delay, offset) ∧
      (delay.units : Int) =
        (((t4.units : Int) - t1.units) - ((t3.units : Int) - t2.units)) % 2 ^ 64 ∧
      ∀ a b : Int, SRange 64 a → SRange 64 b →
        a % 2 ^ 64 = ((t2.units : Int) - t1.units) % 2 ^ 64 →
        b % 2 ^ 64 = ((t3.units : Int) - t4.units) % 2 ^ 64 →
        |2 * offset.signedUnits - (a + b)| ≤ 2 := by
  refine ⟨_, _, sntpExchange_eq sync_state local_ip h t2 t3 t4 delay_t offset_t, ?_, ?_⟩
  · have ht1 := t1.units_lt
    have ht2 := t2.units_lt
    rw [FP_SUB_units, FP_SUB_units, FP_SUB_units]
    generalize t1.units = n₁ at ht1
    generalize t2.units = n₂ at ht2
    generalize t3.units = n₃
    generalize t4.units = n₄
    omega
  · intro a b ha hb hab hbb
    have h21 := FP_RSHIFT_FP_SUB t2 t1 ha hab
    have h34 := FP_RSHIFT_FP_SUB t3 t4 hb hbb
    obtain ⟨halo, hahi⟩ := ha
    obtain ⟨hblo, hbhi⟩ := hb
    norm_num at halo hahi hblo hbhi
    -- the halves are small enough for their sum
    have hsum : SRange 64 ((FP_RSHIFT (FP_SUB t3 t4)).signedUnits
        + (FP_RSHIFT (FP_SUB t2 t1)).signedUnits) := by
      rw [h21, h34]
      constructor <;> norm_num <;> omega
    rw [FP_ADD_signedUnits _ _ hsum, h21, h34]
    rw [abs_le]
    omega

/-- A request sent just before the era ends, and answered after it. -/
theorem sntp_delay_and_offset_era :
    let t1 : TimeFp := ⟨0xFFFFFFFF, 0xC0000000⟩
    let t2 : TimeFp := ⟨1, 0⟩
    let t3 : TimeFp := ⟨1, 0x40000000⟩
    let t4 : TimeFp := ⟨0, 0x80000000⟩
    ∃ delay offset,
      sntpExchange 0 0 t1 t2 t3 t4 ⟨0, 0⟩ ⟨0, 0⟩ = some (delay, offset) ∧
      (delay.units : Int) =
        (((t4.units : Int) - t1.units) - ((t3.units : Int) - t2.units)) % 2 ^ 64 ∧
      ∀ a b : Int, SRange 64 a → SRange 64 b →
        a % 2 ^ 64 = ((t2.units : Int) - t1.units) % 2 ^ 64 →
        b % 2 ^ 64 = ((t3.units : Int) - t4.units) % 2 ^ 64 →
        |2 * offset.signedUnits - (a + b)| ≤ 2 :=
  sntp_delay_and_offset 0 0 ⟨0xFFFFFFFF, 0xC0000000⟩ ⟨1, 0⟩ ⟨1, 0x40000000⟩ ⟨0, 0x80000000⟩
    ⟨0, 0⟩ ⟨0, 0⟩ (by decide)

end Ptpd
