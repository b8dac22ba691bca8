import Ptpd.Lib.Layout
import Ptpd.Lib.NorFlash
import Ptpd.Lwip.Datagrams
import Ptpd.Lwip.Output
import Ptpd.PacketCopy

/-! # From board to board

    What `netSend` gives to the MAC of one board is a datagram for every board that
    has joined the group: its callback gets the octets of the message, whatever the MAC
    writes for checksums and however it fills up a short frame.
-/

namespace Ptpd

open Octets
open NorFlash (get16_put16)

/-! ## Words -/

section Words

variable (buf : Buf) {off off' : Nat}

theorem htons_htons (n : UInt16) : htons (htons n) = n := by
  have hlt := n.toNat_lt
  apply UInt16.toNat_inj.mp
  rw [htons_toNat, htons_toNat]
  omega

theorem get16_put16_other (v : UInt16) (h : off' + 2 ≤ off ∨ off + 2 ≤ off') :
    get16 (put16 buf off v) off' = get16 buf off' := by
  apply get16_congr
  intro i hlo hhi
  exact put16_other buf v (by omega)

theorem get16_put32_other (v : UInt32) (h : off' + 2 ≤ off ∨ off + 4 ≤ off') :
    get16 (put32 buf off v) off' = get16 buf off' := by
  apply get16_congr
  intro i hlo hhi
  exact put32_other buf v (by omega)

theorem get32_put16_other (v : UInt16) (h : off' + 4 ≤ off ∨ off + 2 ≤ off') :
    get32 (put16 buf off v) off' = get32 buf off' := by
  apply get32_congr
  intro i hlo hhi
  exact put16_other buf v (by omega)

theorem get32_put32_other (v : UInt32) (h : off' + 4 ≤ off ∨ off + 4 ≤ off') :
    get32 (put32 buf off v) off' = get32 buf off' := by
  apply get32_congr
  intro i hlo hhi
  exact put32_other buf v (by omega)

end Words

/-- The words behind a header are those of what was there. -/
theorem get16_behind {H B : Buf} {n : Nat} (h : ∀ i, H (n + i) = B i) (off : Nat) :
    get16 H (n + off) = get16 B off := by
  unfold get16
  rw [h off, show n + off + 1 = n + (off + 1) from rfl, h (off + 1)]

theorem get32_behind {H B : Buf} {n : Nat} (h : ∀ i, H (n + i) = B i) (off : Nat) :
    get32 H (n + off) = get32 B off := by
  unfold get32
  rw [h off, show n + off + 1 = n + (off + 1) from rfl, h (off + 1),
    show n + off + 2 = n + (off + 2) from rfl, h (off + 2),
    show n + off + 3 = n + (off + 3) from rfl, h (off + 3)]

/-- The protocol stands in the low octet, whatever the time to live. -/
theorem protocol_octet (hdr : Buf) (ttl : UInt16)
    (h : htons (get16 hdr 8) = IP_PROTO_UDP ||| (ttl <<< 8)) : hdr 9 = 17 := by
  have hmask : (0xff : UInt16).toNat = 2 ^ 8 - 1 := rfl
  have height : (8 : UInt16).toNat % 16 = 8 := rfl
  have hudp : IP_PROTO_UDP.toNat = 17 := rfl
  apply UInt8.toNat_inj.mp
  rw [← IPH_PROTO_toNat]
  unfold IPH_PROTO
  rw [h, UInt16.toNat_and, hmask, Nat.and_two_pow_sub_one_eq_mod, UInt16.toNat_or,
    UInt16.toNat_shiftLeft, height, hudp, Nat.or_mod_two_pow, Nat.shiftLeft_eq]
  have hlow : ttl.toNat * 2 ^ 8 % 2 ^ 16 % 2 ^ 8 = 0 := by omega
  rw [hlow]
  rfl

/-! ## Headers in front -/

namespace TxPbuf

variable {p q : TxPbuf} {n : Nat}

theorem store8_header (off : Nat) (v : UInt8) : (p.store8 off v).header = put8 p.header off v := by
  funext i
  unfold header store8 put8
  dsimp only
  by_cases h : i = off
  · rw [if_pos h, if_pos (by omega)]
  · rw [if_neg h, if_neg (by omega)]

theorem store16_header (off : Nat) (v : UInt16) :
    (p.store16 off v).header = put16 p.header off v := by
  have hstore : p.store16 off v =
      (p.store8 off (octet v.toNat 0)).store8 (off + 1) (octet v.toNat 1) := rfl
  rw [hstore, store8_header, store8_header]
  rfl

theorem store32_header (off : Nat) (v : UInt32) :
    (p.store32 off v).header = put32 p.header off v := by
  have hstore : p.store32 off v = (((p.store8 off (octet v.toNat 0)).store8 (off + 1)
    (octet v.toNat 1)).store8 (off + 2) (octet v.toNat 2)).store8 (off + 3) (octet v.toNat 3) := rfl
  rw [hstore, store8_header, store8_header, store8_header, store8_header]
  rfl

@[simp] theorem store16_len (off : Nat) (v : UInt16) : (p.store16 off v).len = p.len := rfl

@[simp] theorem store32_len (off : Nat) (v : UInt32) : (p.store32 off v).len = p.len := rfl

@[simp] theorem store16_payload (off : Nat) (v : UInt16) :
    (p.store16 off v).payload = p.payload := rfl

@[simp] theorem store32_payload (off : Nat) (v : UInt32) :
    (p.store32 off v).payload = p.payload := rfl

/-- What was in front before is behind the new header. -/
theorem pbuf_header_eq (h : n ≤ p.payload) : ∃ q, p.pbuf_header n = some q ∧
    q.payload = p.payload - n ∧ q.len = p.len + n ∧ ∀ i, q.header (n + i) = p.header i := by
  unfold pbuf_header
  rw [if_pos h]
  refine ⟨_, rfl, rfl, rfl, ?_⟩
  intro i
  unfold header
  dsimp only
  rw [show p.payload - n + (n + i) = p.payload + i by omega]

/-! ## The frame -/

theorem storeAddress_header {off i : Nat} (addr : Vector UInt8 6) (h : i < off ∨ off + 6 ≤ i) :
    (p.storeAddress off addr).header i = p.header i := by
  unfold storeAddress
  rw [store8_header, store8_header, store8_header, store8_header, store8_header, store8_header,
    put8_other _ _ (by omega), put8_other _ _ (by omega), put8_other _ _ (by omega),
    put8_other _ _ (by omega), put8_other _ _ (by omega), put8_other _ _ (by omega)]

/-- The type is written, and what is behind the header is left alone. -/
theorem etharp_send_ip_eq (src dst : Vector UInt8 6) (p : TxPbuf) : ∃ H : Buf,
    p.etharp_send_ip src dst = take p.len H ∧ be16 (H 12) (H 13) = ETHTYPE_IP ∧
      ∀ i, 14 ≤ i → H i = p.header i := by
  refine ⟨_, rfl, ?_, ?_⟩
  · rw [← htons_get16, store16_header, get16_put16]
    decide
  · intro i hi
    rw [store16_header, put16_other _ _ (by omega), storeAddress_header _ (by omega),
      storeAddress_header _ (by omega)]

theorem etharp_output_eq (netif : EthNetif) {ipaddr : UInt32} (hmulticast : ip_addr_ismulticast ipaddr)
    (hroom : ETH_HLEN ≤ p.payload) : ∃ H : Buf,
    p.etharp_output netif ipaddr = some (take (p.len + ETH_HLEN) H) ∧
      be16 (H 12) (H 13) = ETHTYPE_IP ∧ ∀ i, H (14 + i) = p.header i := by
  obtain ⟨q, hq, -, hlen, hheader⟩ := pbuf_header_eq hroom
  unfold etharp_output
  rw [hq]
  dsimp only [Option.bind_eq_bind, Option.bind_some]
  split
  · obtain ⟨H, hsend, htype, hrest⟩ := etharp_send_ip_eq netif.hwaddr
      #v[0xff, 0xff, 0xff, 0xff, 0xff, 0xff] q
    refine ⟨H, ?_, htype, fun i => (hrest _ (by omega)).trans (hheader i)⟩
    rw [hsend, hlen]
  · obtain ⟨H, hsend, htype, hrest⟩ := etharp_send_ip_eq netif.hwaddr (mcastaddr ipaddr) q
    refine ⟨H, ?_, htype, fun i => (hrest _ (by omega)).trans (hheader i)⟩
    rw [hsend, hlen]

section IpHeader

variable (src dest : UInt32) (ttl tos : UInt8) (proto ip_id : UInt16) (netif : EthNetif)

theorem writeIpHeader_len (p : TxPbuf) :
    (p.writeIpHeader src dest ttl tos proto ip_id netif).len = p.len := rfl

theorem writeIpHeader_payload (p : TxPbuf) :
    (p.writeIpHeader src dest ttl tos proto ip_id netif).payload = p.payload := rfl

/-- Store by store. What is in the octet of the time to live at first does not matter. -/
theorem writeIpHeader_header (p : TxPbuf) : ∃ word time : UInt16,
    (p.writeIpHeader src dest ttl tos proto ip_id netif).header =
      put16 (put32 (put16 (put16 (put16 (put16 (put32 (put16 (put16 p.header 8 word) 8
        (htons (proto ||| (time <<< 8)))) 16 dest) 0
        (htons (((4 : UInt16) <<< 12) ||| (UInt16.ofNat (IP_HLEN / 4) <<< 8) ||| tos.toUInt16))) 2
        (htons (UInt16.ofNat p.len))) 6 0) 4 (htons ip_id)) 12
        (if src = 0 then netif.ip_addr else src)) 10 0 := by
  refine ⟨htons (IPH_PROTO p.header ||| (ttl.toUInt16 <<< 8)), IPH_TTL (p.IPH_TTL_SET ttl).header, ?_⟩
  unfold writeIpHeader
  dsimp only
  rw [store16_header, store32_header, store16_header, store16_header, store16_header]
  unfold IPH_VHLTOS_SET
  rw [store16_header, store32_header]
  unfold IPH_PROTO_SET
  rw [store16_header]
  unfold IPH_TTL_SET
  rw [store16_header]
  rfl

end IpHeader

/-- The fields that `ip_output_if` writes in front of the UDP header. -/
theorem ip_output_if_eq (netif : EthNetif) {src dest : UInt32} (hmulticast : ip_addr_ismulticast dest)
    (hsrc : src ≠ 0) (ttl : UInt8) (ip_id : UInt16) (hroom : 34 ≤ p.payload) (hfits : p.len ≤ 1480) :
    ∃ H : Buf, p.ip_output_if src dest ttl 0 IP_PROTO_UDP ip_id netif =
        some (take (p.len + IP_HLEN + ETH_HLEN) H) ∧
      be16 (H 12) (H 13) = ETHTYPE_IP ∧ H 14 = 0x45 ∧
      htons (get16 H 16) = UInt16.ofNat (p.len + IP_HLEN) ∧ get16 H 20 = 0 ∧ H 23 = 17 ∧
      get32 H 26 = src ∧ get32 H 30 = dest ∧ ∀ i, H (34 + i) = p.header i := by
  have hip : IP_HLEN = 20 := rfl
  have heth : ETH_HLEN = 14 := rfl
  have hmtu : MTU = 1500 := rfl
  obtain ⟨q, hq, hpayload, hlen, hheader⟩ := pbuf_header_eq (p := p) (n := IP_HLEN) (by omega)
  obtain ⟨word, time, hstores⟩ := writeIpHeader_header src dest ttl 0 IP_PROTO_UDP ip_id netif q
  obtain ⟨H, hsend, htype, hrest⟩ := etharp_output_eq netif hmulticast
    (p := q.writeIpHeader src dest ttl 0 IP_PROTO_UDP ip_id netif) (by
      rw [writeIpHeader_payload]
      omega)
  rw [hstores] at hrest
  generalize hP : put16 (put32 _ _ _) 10 0 = P at hrest
  have hword (off : Nat) : get16 H (14 + off) = get16 P off := get16_behind hrest off
  have haddr (off : Nat) : get32 H (14 + off) = get32 P off := get32_behind hrest off
  refine ⟨H, ?_, htype, ?_, ?_, ?_, ?_, ?_, ?_, ?_⟩
  · unfold ip_output_if
    rw [hq]
    dsimp only [Option.bind_eq_bind, Option.bind_some]
    rw [writeIpHeader_len, if_neg (by omega), hsend,
      writeIpHeader_len, hlen]
  · have hversion : be16 (P 0) (P 1) = be16 0x45 0 := by
      rw [← htons_get16, ← hP, get16_put16_other _ _ (by decide), get16_put32_other _ _ (by decide),
        get16_put16_other _ _ (by decide), get16_put16_other _ _ (by decide),
        get16_put16_other _ _ (by decide), get16_put16]
      decide
    exact (hrest 0).trans (be16_inj hversion).1
  · rw [hword 2, ← hP, get16_put16_other _ _ (by decide), get16_put32_other _ _ (by decide),
      get16_put16_other _ _ (by decide), get16_put16_other _ _ (by decide), get16_put16, htons_htons,
      hlen]
  · rw [hword 6, ← hP, get16_put16_other _ _ (by decide), get16_put32_other _ _ (by decide),
      get16_put16_other _ _ (by decide), get16_put16]
  · rw [hrest 9]
    apply protocol_octet P time
    rw [← hP, get16_put16_other _ _ (by decide), get16_put32_other _ _ (by decide),
      get16_put16_other _ _ (by decide), get16_put16_other _ _ (by decide),
      get16_put16_other _ _ (by decide), get16_put16_other _ _ (by decide),
      get16_put32_other _ _ (by decide), get16_put16, htons_htons]
  · rw [haddr 12, ← hP, get32_put16_other _ _ (by decide), Layout.get32_put32, if_neg hsrc]
  · rw [haddr 16, ← hP, get32_put16_other _ _ (by decide), get32_put32_other _ _ (by decide),
      get32_put16_other _ _ (by decide), get32_put16_other _ _ (by decide),
      get32_put16_other _ _ (by decide), get32_put16_other _ _ (by decide), Layout.get32_put32]
  · intro i
    rw [show 34 + i = 14 + (20 + i) by omega, hrest, ← hP, put16_other _ _ (by omega),
      put32_other _ _ (by omega), put16_other _ _ (by omega), put16_other _ _ (by omega),
      put16_other _ _ (by omega), put16_other _ _ (by omega), put32_other _ _ (by omega),
      put16_other _ _ (by omega), put16_other _ _ (by omega)]
    exact hheader i

end TxPbuf

theorem ip_route_up {netif : EthNetif} (hup : netif.NETIF_FLAG_UP = true) (dest : UInt32) :
    ip_route dest netif = some netif := by
  unfold ip_route
  by_cases hsame : dest &&& netif.netmask = netif.ip_addr &&& netif.netmask
  · rw [if_pos ⟨hup, hsame⟩]
  · rw [if_neg fun h => hsame h.2, if_pos hup]

theorem Group.addr_multicast (group : Group) : ip_addr_ismulticast group.addr = true := by
  cases group <;> decide

/-- What a frame with a message of PTP holds. -/
structure Framed (H : Buf) (src : UInt32) (group : Group) (port : UdpPort) (data : List UInt8) :
    Prop where
  type : be16 (H 12) (H 13) = ETHTYPE_IP
  version : H 14 = 0x45
  total : htons (get16 H 16) = UInt16.ofNat (data.length + UDP_HLEN + IP_HLEN)
  unfragmented : get16 H 20 = 0
  protocol : H 23 = 17
  source : get32 H 26 = src
  destination : get32 H 30 = group.addr
  port : htons (get16 H 36) = port.port
  data : ∀ i, i < data.length → H (42 + i) = bufOf data i

/-- The message goes out in one frame. -/
theorem netSendFrame_eq (port : UdpPort) (group : Group) (buf memory : Buf) {length : Nat}
    (hlength : length ≤ 1472) (ip_id : UInt16) {netif : EthNetif} (hup : netif.NETIF_FLAG_UP = true)
    (haddr : netif.ip_addr ≠ 0) : ∃ H : Buf,
    netSendFrame port group buf length memory ip_id netif = some (take (length + 42) H) ∧
      Framed H netif.ip_addr group port (take length buf) := by
  have hudp : UDP_HLEN = 8 := rfl
  have hip : IP_HLEN = 20 := rfl
  have hpayload : (TxPbuf.alloc memory length).payload = 56 := rfl
  obtain ⟨p, hp, hplen, hppayload, hpdata⟩ : ∃ p, (TxPbuf.alloc memory length).pbuf_take buf length =
      some p ∧ p.len = length ∧ p.payload = 56 ∧ ∀ i < length, p.header i = buf i := by
    have hlen : (TxPbuf.alloc memory length).len = length := rfl
    unfold TxPbuf.pbuf_take
    rw [hlen, hpayload, if_neg (Nat.lt_irrefl length)]
    refine ⟨_, rfl, rfl, rfl, ?_⟩
    intro i hi
    unfold TxPbuf.header
    dsimp only
    rw [memcpy_same _ _ (by omega) (by omega), Nat.add_sub_cancel_left]
    exact bufOf_take buf hi
  obtain ⟨q, hq, hqpayload, hqlen, hqheader⟩ :=
    TxPbuf.pbuf_header_eq (p := p) (n := UDP_HLEN) (by omega)
  generalize hr : (q.writePorts port.pcb.local_port port.pcb.local_port).store16 4
    (htons (UInt16.ofNat q.len)) = r
  have hrlen : r.len = q.len := by
    rw [← hr]
    rfl
  have hrpayload : r.payload = q.payload := by
    rw [← hr]
    rfl
  have hrheader : r.header = put16 (put16 (put16 (put16 q.header 0 (htons port.port)) 2
      (htons port.port)) 6 0) 4 (htons (UInt16.ofNat q.len)) := by
    rw [← hr, TxPbuf.store16_header]
    unfold TxPbuf.writePorts
    rw [TxPbuf.store16_header, TxPbuf.store16_header, TxPbuf.store16_header]
    rfl
  obtain ⟨H, hsend, htype, hversion, htotal, hoffset, hprotocol, hsource, hdest, hrest⟩ :=
    TxPbuf.ip_output_if_eq netif (p := r) group.addr_multicast haddr port.pcb.ttl ip_id (by omega)
      (by omega)
  refine ⟨H, ?_, ?_⟩
  · unfold netSendFrame
    rw [hp]
    dsimp only [Option.bind_eq_bind, Option.bind_some]
    unfold TxPbuf.udp_sendto
    rw [ip_route_up hup]
    dsimp only [Option.bind_eq_bind, Option.bind_some]
    unfold TxPbuf.udp_sendto_if
    rw [hq]
    dsimp only [Option.bind_eq_bind, Option.bind_some]
    rw [if_pos (show port.pcb.local_ip = 0 from rfl)]
    have hwriteLen : (q.writePorts port.pcb.local_port port.pcb.local_port).len = q.len := rfl
    have hlast : r.len + IP_HLEN + ETH_HLEN = length + 42 := by
      have heth : ETH_HLEN = 14 := rfl
      omega
    rw [hwriteLen, hr, show port.pcb.tos = 0 from rfl, hsend, hlast]
  · constructor
    · exact htype
    · exact hversion
    · rw [htotal, hrlen, hqlen, hplen, take_length]
    · exact hoffset
    · exact hprotocol
    · exact hsource
    · exact hdest
    · rw [get16_behind hrest 2, hrheader, get16_put16_other _ _ (by decide),
        get16_put16_other _ _ (by decide), get16_put16, htons_htons]
    · intro i hi
      rw [take_length] at hi
      rw [show 42 + i = 34 + (8 + i) by omega, hrest, hrheader, put16_other _ _ (by omega),
        put16_other _ _ (by omega), put16_other _ _ (by omega), put16_other _ _ (by omega),
        bufOf_take buf hi, ← hpdata i hi]
      exact hqheader i

/-! ## The wire -/

/-- The MAC writes the checksums of IP and UDP, and fills up a short frame. -/
def onWire (checksums : Vector UInt8 4) (padding frame : List UInt8) : List UInt8 :=
  ((((frame.set 24 checksums[0]).set 25 checksums[1]).set 40 checksums[2]).set 41 checksums[3]) ++
    padding

section Wire

variable {data : List UInt8} {H : Buf} {src : UInt32}
  {group : Group} {port : UdpPort} {receiver : EthNetif}

theorem bufOf_onWire (checksums : Vector UInt8 4) (padding : List UInt8) (H : Buf) {n i : Nat}
    (hi : i < n) (hchecksum : i ≠ 24 ∧ i ≠ 25 ∧ i ≠ 40 ∧ i ≠ 41) :
    bufOf (onWire checksums padding (take n H)) i = H i := by
  unfold bufOf onWire
  rw [List.getD_eq_getElem?_getD, List.getElem?_append_left (by simpa using hi),
    List.getElem?_set_ne (by omega), List.getElem?_set_ne (by omega),
    List.getElem?_set_ne (by omega), List.getElem?_set_ne (by omega), take_getElem? H hi,
    Option.getD_some]

theorem onWire_length (checksums : Vector UInt8 4) (padding frame : List UInt8) :
    (onWire checksums padding frame).length = frame.length + padding.length := by
  simp [onWire]

theorem Frame.bufOf_packet (frame : List UInt8) (i : Nat) :
    bufOf (Frame.packet frame) i = bufOf frame (14 + i) := by
  unfold bufOf Frame.packet
  rw [List.getD_eq_getElem?_getD, List.getD_eq_getElem?_getD, List.getElem?_drop]

/-- Every board that has joined the group takes the frame for a datagram with the message. -/
theorem Framed.datagram (h : Framed H src group port data) (checksums : Vector UInt8 4)
    (padding : List UInt8) (hlength : data.length ≤ 1472)
    (hsource : ip_addr_isbroadcast src receiver = false ∧ ip_addr_ismulticast src = false)
    (hjoined : receiver.NETIF_FLAG_IGMP = true ∧ group.addr ∈ receiver.groups) :
    Frame.IsDatagram (onWire checksums padding (take (data.length + 42) H)) receiver port.port ∧
      Frame.data (onWire checksums padding (take (data.length + 42) H)) = data := by
  have hudp : UDP_HLEN = 8 := rfl
  have hip : IP_HLEN = 20 := rfl
  have heth : ETH_HLEN = 14 := rfl
  generalize hW : onWire checksums padding (take (data.length + 42) H) = W
  have hoctet (i : Nat) (hi : i < data.length + 42) (hne : i ≠ 24 ∧ i ≠ 25 ∧ i ≠ 40 ∧ i ≠ 41) :
      bufOf W i = H i := by
    rw [← hW]
    exact bufOf_onWire _ _ _ hi hne
  have hpacket (i : Nat) (hi : 14 + i < data.length + 42)
      (hne : 14 + i ≠ 24 ∧ 14 + i ≠ 25 ∧ 14 + i ≠ 40 ∧ 14 + i ≠ 41) :
      bufOf (Frame.packet W) i = H (14 + i) := by
    rw [Frame.bufOf_packet, hoctet _ hi hne]
  have hWlength : W.length = data.length + 42 + padding.length := by
    rw [← hW, onWire_length, take_length]
  have hpacketLength := Frame.packet_length W
  have hheader : Frame.headerLength W = 20 := by
    unfold Frame.headerLength
    rw [hpacket 0 (by omega) (by decide), h.version]
    rfl
  have htotal : Frame.totalLength W = data.length + 28 := by
    unfold Frame.totalLength
    rw [hpacket 2 (by omega) (by decide), hpacket 3 (by omega) (by decide),
      show 14 + 3 = 14 + 2 + 1 from rfl, ← htons_get16, h.total]
    exact UInt16.toNat_ofNat_of_lt' (show _ < 65536 by omega)
  have haddr (off : Nat) (hlo : 12 ≤ off) (hhi : off + 4 ≤ 20) :
      get32 (bufOf (Frame.packet W)) off = get32 H (14 + off) := by
    unfold get32
    rw [hpacket off (by omega) (by omega), hpacket (off + 1) (by omega) (by omega),
      hpacket (off + 2) (by omega) (by omega), hpacket (off + 3) (by omega) (by omega)]
    rfl
  have hsrc : IPH_SRC (bufOf (Frame.packet W)) = src :=
    (haddr 12 (by decide) (by decide)).trans h.source
  have hdest : IPH_DEST (bufOf (Frame.packet W)) = group.addr :=
    (haddr 16 (by decide) (by decide)).trans h.destination
  constructor
  · constructor
    · rw [hoctet 12 (by omega) (by decide), hoctet 13 (by omega) (by decide)]
      exact h.type
    · rw [hpacket 0 (by omega) (by decide), h.version]
      rfl
    · omega
    · omega
    · rw [hpacket 6 (by omega) (by decide), hpacket 7 (by omega) (by decide),
        show 14 + 7 = 14 + 6 + 1 from rfl, ← htons_get16, h.unfragmented]
      rfl
    · rw [hpacket 9 (by omega) (by decide)]
      exact h.protocol
    · rw [hsrc]
      exact hsource
    · rw [hdest]
      unfold ipAccepted igmp_lookfor_group
      rw [if_pos group.addr_multicast, hjoined.1, List.contains_iff_mem.mpr hjoined.2]
      rfl
    · rw [hheader, hpacket _ (by omega) (by decide), hpacket _ (by omega) (by decide),
        show 14 + (20 + 3) = 14 + (20 + 2) + 1 from rfl, ← htons_get16]
      exact h.port
  · unfold Frame.data
    rw [hheader, htotal]
    apply List.ext_getElem?
    intro i
    rw [List.getElem?_drop]
    by_cases hi : i < data.length
    · have hat := hpacket (20 + UDP_HLEN + i) (by omega) (by omega)
      have hfield := h.data i hi
      rw [show 14 + (20 + UDP_HLEN + i) = 42 + i by omega, hfield] at hat
      unfold bufOf at hat
      rw [List.getD_eq_getElem _ _ (by omega), List.getD_eq_getElem _ _ hi] at hat
      rw [List.getElem?_take_of_lt (by omega), List.getElem?_eq_getElem (by omega), hat,
        List.getElem?_eq_getElem hi]
    · have hcut : ((Frame.packet W).take (data.length + 28)).length = data.length + 28 :=
        List.length_take_of_le (by omega)
      rw [List.getElem?_eq_none (by omega), List.getElem?_eq_none (by omega)]

end Wire

/-- **A message crosses the network**: what `netSend` is given goes out, and at every board that has
    joined the group the callback of the port gets one packet with these octets, which `netRecv`
    can copy, while the callback of the other port gets nothing. -/
theorem message_crosses (port : UdpPort) (group : Group) (buf memory : Buf) {length : Nat}
    (hlength : 0 < length ∧ length ≤ PACKET_SIZE) (ip_id : UInt16) {sender receiver : EthNetif}
    (hup : sender.NETIF_FLAG_UP = true)
    (hsource : ip_addr_isbroadcast sender.ip_addr receiver = false ∧
      ip_addr_ismulticast sender.ip_addr = false)
    (hjoined : receiver.NETIF_FLAG_IGMP = true ∧ group.addr ∈ receiver.groups)
    {pcbs : List BoundPcb} {arrivals : List Arrival} {handed : List Handed}
    (h : Reception pcbs arrivals handed) :
    ∃ frame, netSendFrame port group buf length memory ip_id sender = some frame ∧
      frame.length = length + 42 ∧
      ∀ checksums padding time_sec time_nsec, 60 ≤ (onWire checksums padding frame).length →
        let a : Arrival := ⟨receiver, onWire checksums padding frame, time_sec, time_nsec⟩
        (∃ p : Pbuf, Handed.packet? port.recv (a.input pcbs).1 = some p ∧ p.WellChained ∧
          p.payload.flatten = take length buf ∧ p.time_sec = time_sec ∧ p.time_nsec = time_nsec) ∧
        ∀ other : UdpPort, other ≠ port → Handed.packet? other.recv (a.input pcbs).1 = none := by
  have hsize : PACKET_SIZE = 300 := rfl
  have haddr : sender.ip_addr ≠ 0 := by
    intro hzero
    rw [hzero] at hsource
    exact absurd hsource.1 (by simp [ip_addr_isbroadcast])
  have hready := h.ready
  have hfits : length ≤ 1472 := by omega
  obtain ⟨H, hsend, hframed⟩ := netSendFrame_eq port group buf memory hfits ip_id hup haddr
  refine ⟨_, hsend, take_length _ _, ?_⟩
  intro checksums padding time_sec time_nsec hlong a
  have hdata : (take length buf).length = length := take_length length buf
  obtain ⟨hdatagram, hoctets⟩ := hframed.datagram checksums padding (by omega) hsource hjoined
  rw [hdata] at hdatagram hoctets
  constructor
  · obtain ⟨p, k, hp, hholds, hsec, hnsec⟩ :=
      ethernet_input_delivers hlong time_sec time_nsec hready hdatagram
    rw [hoctets] at hholds
    refine ⟨p, hp, ?_, hholds.flatten, hsec, hnsec⟩
    constructor
    · apply hholds.nonempty
      rw [← List.length_pos_iff]
      omega
    · rw [hholds.tot_len, ← hholds.flatten, List.length_flatten]
    · rw [hholds.tot_len]
      omega
  · intro other hother
    rw [Option.eq_none_iff_forall_ne_some]
    intro p hp
    have hport := (ethernet_input_sound hlong time_sec time_nsec hready hp).port
    rw [hdatagram.port] at hport
    cases other <;> cases port
    · exact hother rfl
    · exact absurd hport (by decide)
    · exact absurd hport (by decide)
    · exact hother rfl

/-- An `Announce` between two boards of one network. -/
theorem message_crosses_announce :
    let sender : EthNetif := ⟨⟨0xe11fa8c0, 0x00ffffff, 0x011fa8c0⟩, #v[2, 0, 0, 4, 5, 6], true, true,
      true, [Group.addr .ptp, Group.addr .peer]⟩
    let receiver : EthNetif := ⟨⟨0xe21fa8c0, 0x00ffffff, 0x011fa8c0⟩, #v[2, 0, 0, 1, 2, 3], true, true,
      true, [Group.addr .ptp, Group.addr .peer]⟩
    let buf : Buf := bufOf [0x0b, 0x02, 0, 64]
    ∃ frame, netSendFrame .general .ptp buf 64 (fun _ => 0) 1 sender = some frame ∧
      ∃ p : Pbuf, Handed.packet? .netRecvGeneralCallback
          ((⟨receiver, onWire #v[0, 0, 0, 0] [] frame, 5, 9⟩ : Arrival).input
            [UdpPort.general.pcb, UdpPort.event.pcb]).1 = some p ∧
        p.payload.flatten = take 64 buf := by
  intro sender receiver buf
  have hstart : Reception [UdpPort.general.pcb, UdpPort.event.pcb] [] [] := .netInit [] (by simp)
  have hsource : ip_addr_isbroadcast sender.ip_addr receiver = false ∧
      ip_addr_ismulticast sender.ip_addr = false := by decide
  obtain ⟨frame, hsend, hlength, hcrosses⟩ := message_crosses .general .ptp buf (fun _ => 0)
    (show 0 < 64 ∧ 64 ≤ PACKET_SIZE by decide) 1 rfl hsource ⟨rfl, by decide⟩ hstart
  refine ⟨frame, hsend, ?_⟩
  obtain ⟨⟨p, hp, -, hoctets, -⟩, -⟩ := hcrosses #v[0, 0, 0, 0] [] 5 9 (by
    rw [onWire_length, hlength]
    decide)
  exact ⟨p, hp, hoctets⟩

end Ptpd
