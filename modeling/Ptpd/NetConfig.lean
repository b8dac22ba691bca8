import Ptpd.Adjust
import Ptpd.Lib.EachStep
import Ptpd.Lib.Octets

/-! # The address of the interface (`netconf.c`, `stm32f4x7_eth_bsp.c`, `cmd_handle.c`)

    The stored configuration is written when the stack starts and by a serial
    command, and read when the link comes up. The first writer stores words in
    network order, the second in the order of the machine, which is what the reader
    expects.
-/

namespace Ptpd

open Octets Steps

/-! ## Addresses (`ip_addr.h`) -/

/-- `a.b.c.d`. -/
structure IpQuad where
  a : UInt8
  b : UInt8
  c : UInt8
  d : UInt8
deriving DecidableEq, Inhabited

namespace IpQuad

/-- The word in the order of the machine. -/
def word (q : IpQuad) : UInt32 :=
  ((q.a.toUInt32 &&& 0xff) <<< 24) ||| ((q.b.toUInt32 &&& 0xff) <<< 16) |||
    ((q.c.toUInt32 &&& 0xff) <<< 8) ||| (q.d.toUInt32 &&& 0xff)

/-- `ip4_addr1` to `ip4_addr4`. -/
def of (addr : UInt32) : IpQuad where
  a := ((htonl addr >>> 24).toUInt16 &&& 0xff).toUInt8
  b := ((htonl addr >>> 16).toUInt16 &&& 0xff).toUInt8
  c := ((htonl addr >>> 8).toUInt16 &&& 0xff).toUInt8
  d := ((htonl addr).toUInt16 &&& 0xff).toUInt8

end IpQuad

def IP4_ADDR (q : IpQuad) : UInt32 := htonl q.word

/-! ## The functions -/

/-- Address, mask and gateway. -/
structure NetConfig where
  ip : IpQuad
  mask : IpQuad
  gatway : IpQuad
deriving DecidableEq, Inhabited

/-- `ts_IP`, without the port. -/
structure TsIP where
  ui_ip : UInt32
  ui_mask : UInt32
  ui_gatway : UInt32
deriving DecidableEq, Inhabited

/-- `TS_FDS`, as far as it is used here. -/
structure TsFds where
  ts_local_ipaddr : TsIP
  PTP_MODE : PtpMode
deriving DecidableEq

/-- The addresses of `struct netif`. -/
structure Netif where
  ip_addr : UInt32
  netmask : UInt32
  gw : UInt32
deriving DecidableEq, Inhabited

structure NetState where
  TS_FDS : TsFds
  netif : Netif
deriving DecidableEq

/-- `netif_add` and `netif_set_addr` install these words. -/
def netif_set_addr (ipaddr netmask gw : UInt32) (s : NetState) : NetState :=
  { s with netif := ⟨ipaddr, netmask, gw⟩ }

def LwIP_Init (s : NetState) : NetState :=
  let local_ipaddr : TsIP := ⟨0xE11FA8C0, 0x00FFFFFF, 0x011FA8C0⟩
  netif_set_addr local_ipaddr.ui_ip local_ipaddr.ui_mask local_ipaddr.ui_gatway
    { s with TS_FDS := ⟨local_ipaddr, .emPTPMaster⟩ }

/-- The link comes up. -/
def ETH_link_callback (s : NetState) : NetState :=
  netif_set_addr (htonl s.TS_FDS.ts_local_ipaddr.ui_ip) (htonl s.TS_FDS.ts_local_ipaddr.ui_mask)
    (htonl s.TS_FDS.ts_local_ipaddr.ui_gatway) s

/-- What `AT+SETP` does with its twelve numbers. -/
def setNetConfig (c : NetConfig) (s : NetState) : NetState :=
  netif_set_addr (IP4_ADDR c.ip) (IP4_ADDR c.mask) (IP4_ADDR c.gatway)
    { s with TS_FDS.ts_local_ipaddr := ⟨c.ip.word, c.mask.word, c.gatway.word⟩ }

/-! ## Runs -/

inductive NetEvent where
  | LwIP_Init
  | SETP (c : NetConfig)
  | link_up

/-- Where the configuration comes from. -/
inductive NetSource where
  | powerOn
  | LwIP_Init
  | SETP (c : NetConfig)
deriving DecidableEq

/-- The configuration itself: 192.168.31.225/24 from the beginning. -/
def NetSource.config : NetSource → NetConfig
  | powerOn => default
  | LwIP_Init => ⟨⟨192, 168, 31, 225⟩, ⟨255, 255, 255, 0⟩, ⟨192, 168, 31, 1⟩⟩
  | SETP c => c

/-- The system with the source of its latest configuration. -/
structure NetifRun where
  state : NetState
  latest : NetSource
deriving DecidableEq

def NetifRun.powerOn : NetifRun := ⟨⟨⟨default, .emPTPSlave⟩, default⟩, .powerOn⟩

def NetifRun.step (r : NetifRun) : NetEvent → NetifRun
  | .LwIP_Init => ⟨Ptpd.LwIP_Init r.state, .LwIP_Init⟩
  | .SETP c => ⟨setNetConfig c r.state, .SETP c⟩
  | .link_up => ⟨ETH_link_callback r.state, r.latest⟩

/-- The interface has the configured addresses. -/
def Netif.Denotes (n : Netif) (c : NetConfig) : Prop :=
  IpQuad.of n.ip_addr = c.ip ∧ IpQuad.of n.netmask = c.mask ∧ IpQuad.of n.gw = c.gatway

instance (n : Netif) (c : NetConfig) : Decidable (n.Denotes c) := inferInstanceAs (Decidable (_ ∧ _))

/-- It has them after an event, and a link-up leaves them alone. -/
def NetifRun.Configured (r : NetifRun) (e : NetEvent) : Prop :=
  (r.step e).state.netif.Denotes (r.step e).latest.config ∧
    (e = .link_up → (r.step e).state.netif = r.state.netif)

/-- The link comes up with the configuration of `LwIP_Init`. -/
def NetifRun.Swaps (r : NetifRun) (e : NetEvent) : Prop := e = .link_up ∧ r.latest = .LwIP_Init

/-! ## Words and numbers -/

namespace IpQuad

theorem word_toNat (q : IpQuad) :
    q.word.toNat = q.a.toNat * 16777216 + q.b.toNat * 65536 + q.c.toNat * 256 + q.d.toNat := by
  have ha := q.a.toNat_lt
  have hb := q.b.toNat_lt
  have hc := q.c.toNat_lt
  have hd := q.d.toNat_lt
  have hoctet : ∀ x : UInt8, (x.toUInt32 &&& 0xff).toNat = x.toNat := by
    intro x
    have hx := x.toNat_lt
    have h255 : (0xff : UInt32).toNat = 2 ^ 8 - 1 := rfl
    rw [UInt32.toNat_and, h255, Nat.and_two_pow_sub_one_eq_mod, UInt8.toNat_toUInt32]
    exact Nat.mod_eq_of_lt hx
  have h24 : q.a.toNat <<< 24 % 2 ^ 32 = 2 ^ 24 * q.a.toNat := by
    rw [Nat.shiftLeft_eq]
    omega
  have h16 : q.b.toNat <<< 16 % 2 ^ 32 = 2 ^ 16 * q.b.toNat := by
    rw [Nat.shiftLeft_eq]
    omega
  have h8 : q.c.toNat <<< 8 % 2 ^ 32 = 2 ^ 8 * q.c.toNat := by
    rw [Nat.shiftLeft_eq]
    omega
  unfold word
  simp only [UInt32.toNat_or, UInt32.toNat_shiftLeft, hoctet, UInt32.reduceToNat, Nat.reduceMod]
  rw [h24, h16, h8]
  -- the octets are put together from the left
  have hab : 2 ^ 24 * q.a.toNat ||| 2 ^ 16 * q.b.toNat = 2 ^ 16 * (256 * q.a.toNat + q.b.toNat) := by
    rw [← Nat.two_pow_add_eq_or_of_lt (by omega)]
    ring
  have habc : 2 ^ 16 * (256 * q.a.toNat + q.b.toNat) ||| 2 ^ 8 * q.c.toNat =
      2 ^ 8 * (65536 * q.a.toNat + 256 * q.b.toNat + q.c.toNat) := by
    rw [← Nat.two_pow_add_eq_or_of_lt (by omega)]
    ring
  rw [hab, habc, ← Nat.two_pow_add_eq_or_of_lt (by omega)]
  ring

/-- The octets can be read back from the word in network order. -/
theorem of_IP4_ADDR (q : IpQuad) : of (IP4_ADDR q) = q := by
  have ha := q.a.toNat_lt
  have hb := q.b.toNat_lt
  have hc := q.c.toNat_lt
  have hd := q.d.toNat_lt
  have hword := q.word_toNat
  have hlow : ∀ x : UInt32, ((x.toUInt16 &&& 0xff).toUInt8).toNat = x.toNat % 256 := by
    intro x
    have h255 : (0xff : UInt16).toNat = 2 ^ 8 - 1 := rfl
    rw [UInt16.toNat_toUInt8, UInt16.toNat_and, h255, Nat.and_two_pow_sub_one_eq_mod,
      UInt32.toNat_toUInt16]
    omega
  have hshift : ∀ (k : UInt32) (n : Nat), k.toNat % 32 = n →
      (q.word >>> k).toNat = q.word.toNat / 2 ^ n := by
    intro k n hk
    rw [UInt32.toNat_shiftRight, hk, Nat.shiftRight_eq_div_pow]
  -- the four octets by which the conversion shifts
  have h24 := hshift 24 24 rfl
  have h16 := hshift 16 16 rfl
  have h8 := hshift 8 8 rfl
  unfold of IP4_ADDR
  rw [htonl_htonl]
  obtain ⟨a, b, c, d⟩ := q
  simp only [IpQuad.mk.injEq, ← UInt8.toNat_inj, hlow]
  dsimp only at ha hb hc hd hword h24 h16 h8
  omega

end IpQuad

/-! ## What is stored -/

/-- The words that are stored with a configuration. -/
def NetSource.words : NetSource → TsIP
  | powerOn => default
  | LwIP_Init => ⟨0xE11FA8C0, 0x00FFFFFF, 0x011FA8C0⟩
  | SETP c => ⟨c.ip.word, c.mask.word, c.gatway.word⟩

/-- The words that are installed with it. -/
def NetSource.netif : NetSource → Netif
  | powerOn => default
  | LwIP_Init => ⟨0xE11FA8C0, 0x00FFFFFF, 0x011FA8C0⟩
  | SETP c => ⟨IP4_ADDR c.ip, IP4_ADDR c.mask, IP4_ADDR c.gatway⟩

theorem NetSource.denotes (source : NetSource) : source.netif.Denotes source.config := by
  cases source with
  | powerOn => decide
  | LwIP_Init => decide
  | SETP c => exact ⟨c.ip.of_IP4_ADDR, c.mask.of_IP4_ADDR, c.gatway.of_IP4_ADDR⟩

/-- A link-up installs the stored words the other way round. -/
def TsIP.htonl (w : TsIP) : Netif :=
  ⟨Octets.htonl w.ui_ip, Octets.htonl w.ui_mask, Octets.htonl w.ui_gatway⟩

/-- The words of `LwIP_Init` are in network order already. -/
theorem NetSource.htonl_words (source : NetSource) :
    source.words.htonl = source.netif ↔ source ≠ .LwIP_Init := by
  cases source with
  | powerOn => decide
  | LwIP_Init => decide
  | SETP c => exact iff_of_true rfl (NetSource.noConfusion ·)

namespace NetifRun

/-- The stored words are those of the latest configuration. -/
structure Stored (r : NetifRun) : Prop where
  words : r.state.TS_FDS.ts_local_ipaddr = r.latest.words

/-- The installed words are its words too. -/
structure Installed (r : NetifRun) : Prop extends Stored r where
  netif : r.state.netif = r.latest.netif

variable {r : NetifRun}

theorem Stored.step (h : r.Stored) (e : NetEvent) : (r.step e).Stored := by
  cases e with
  | LwIP_Init => exact ⟨rfl⟩
  | SETP c => exact ⟨rfl⟩
  | link_up => exact ⟨h.words⟩

/-- What a link-up installs. -/
theorem Stored.link_up (h : r.Stored) : (r.step .link_up).state.netif = r.latest.words.htonl := by
  rw [← h.words]
  rfl

theorem Installed.step (h : r.Installed) {e : NetEvent} (he : ¬ r.Swaps e) :
    (r.step e).Installed ∧ (e = .link_up → (r.step e).state.netif = r.state.netif) := by
  have hstored := h.toStored.step e
  cases e with
  | LwIP_Init => exact ⟨⟨hstored, rfl⟩, fun heq => NetEvent.noConfusion heq⟩
  | SETP c => exact ⟨⟨hstored, rfl⟩, fun heq => NetEvent.noConfusion heq⟩
  | link_up =>
    have hlatest : r.latest ≠ .LwIP_Init := fun heq => he ⟨rfl, heq⟩
    have hnetif : (r.step .link_up).state.netif = r.latest.netif := by
      rw [h.link_up]
      exact r.latest.htonl_words.mpr hlatest
    exact ⟨⟨hstored, hnetif⟩, fun _ => hnetif.trans h.netif.symm⟩

end NetifRun

/-- **The interface keeps the configured addresses** exactly if the link does not come up with
    those of `LwIP_Init`. -/
theorem netif_configured_iff (es : List NetEvent) :
    EachStep NetifRun.step NetifRun.Configured .powerOn es ↔
      EachStep NetifRun.step (fun r e => ¬ r.Swaps e) .powerOn es := by
  constructor
  · refine EachStep.of_invariant (fun r _ => r.Stored) (fun r e _ hstored hconfigured => ?_) ⟨rfl⟩
    refine ⟨?_, hstored.step e⟩
    rintro ⟨rfl, hlatest⟩
    -- the octets are installed in the wrong order
    have hdenotes := hconfigured.1
    rw [hstored.link_up] at hdenotes
    have hsame : (r.step .link_up).latest = .LwIP_Init := hlatest
    rw [hlatest, hsame] at hdenotes
    exact absurd hdenotes (by decide)
  · refine EachStep.of_invariant (fun r _ => r.Installed) (fun r e _ hinstalled he => ?_) ⟨⟨rfl⟩, rfl⟩
    obtain ⟨hnext, hkept⟩ := hinstalled.step he
    refine ⟨⟨?_, hkept⟩, hnext⟩
    rw [hnext.netif]
    exact (r.step e).latest.denotes

/-- The first link-up after the start turns 192.168.31.225 into 225.31.168.192. -/
theorem netif_swapped : ¬ ∀ es : List NetEvent, EachStep NetifRun.step NetifRun.Configured .powerOn es := by
  intro h
  have hswaps := (h [.LwIP_Init, .link_up]).2.1.1
  exact absurd hswaps (by decide)

end Ptpd
