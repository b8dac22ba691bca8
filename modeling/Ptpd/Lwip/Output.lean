import Ptpd.Lwip.Netif
import Ptpd.Lwip.Pbuf

/-! # Sending a message (`net.c`, `udp.c`, `ip.c`, `etharp.c`, `ethernetif.c`)

    From `netSend` to the octets that are given to the MAC. A packet to a single host
    needs the ARP cache, one longer than the MTU is cut up, and a header that finds
    no room gets a pbuf of its own; none of that is here, and a message of PTP needs none of it.
-/

namespace Ptpd

open Octets

/-! ## The pbuf -/

/-- A pbuf of type `PBUF_RAM`: `memory` is what is behind the structure. -/
structure TxPbuf where
  memory : Buf
  payload : Nat
  len : Nat

namespace TxPbuf

/-- `pbuf_alloc(PBUF_TRANSPORT, length, PBUF_RAM)`, in memory that has been used before. -/
def alloc (memory : Buf) (length : Nat) : TxPbuf :=
  ⟨memory, LWIP_MEM_ALIGN_SIZE PbufLayer.PBUF_TRANSPORT.offset, length⟩

def pbuf_take (p : TxPbuf) (buf : Buf) (length : Nat) : Option TxPbuf :=
  if p.len < length then none
  else some { p with memory := memcpy p.memory p.payload (take length buf) length }

/-- `pbuf_header(p, n)`: there is no result if the first pbuf has no room in front. -/
def pbuf_header (p : TxPbuf) (n : Nat) : Option TxPbuf :=
  if n ≤ p.payload then some { p with payload := p.payload - n, len := p.len + n } else none

def store8 (off : Nat) (v : UInt8) (p : TxPbuf) : TxPbuf :=
  { p with memory := put8 p.memory (p.payload + off) v }

def store16 (off : Nat) (v : UInt16) (p : TxPbuf) : TxPbuf :=
  { p with memory := put16 p.memory (p.payload + off) v }

def store32 (off : Nat) (v : UInt32) (p : TxPbuf) : TxPbuf :=
  { p with memory := put32 p.memory (p.payload + off) v }

/-- What `p->payload` points to. -/
def header (p : TxPbuf) : Buf := fun i => p.memory (p.payload + i)

/-! ## The headers -/

def IPH_TTL_SET (ttl : UInt8) (p : TxPbuf) : TxPbuf :=
  p.store16 8 (htons (IPH_PROTO p.header ||| (ttl.toUInt16 <<< 8)))

def IPH_PROTO_SET (proto : UInt16) (p : TxPbuf) : TxPbuf :=
  p.store16 8 (htons (proto ||| (IPH_TTL p.header <<< 8)))

def IPH_VHLTOS_SET (v hl tos : UInt16) (p : TxPbuf) : TxPbuf :=
  p.store16 0 (htons ((v <<< 12) ||| (hl <<< 8) ||| tos))

/-! ## Ethernet -/

/-- The octets that the DMA reads. -/
def low_level_output (p : TxPbuf) : List UInt8 := take p.len p.header

/-- The loop stores the last octet first. -/
def storeAddress (off : Nat) (addr : Vector UInt8 6) (p : TxPbuf) : TxPbuf :=
  (((((p.store8 (off + 5) (addr.get 5)).store8 (off + 4) (addr.get 4)).store8 (off + 3)
    (addr.get 3)).store8 (off + 2) (addr.get 2)).store8 (off + 1) (addr.get 1)).store8 off (addr.get 0)

def etharp_send_ip (src dst : Vector UInt8 6) (p : TxPbuf) : List UInt8 :=
  (((p.storeAddress 0 dst).storeAddress 6 src).store16 12 (htons ETHTYPE_IP)).low_level_output

/-- `ip4_addr1` to `ip4_addr4`. -/
def ip4_addr (k : Nat) (ipaddr : UInt32) : UInt8 := octet (htonl ipaddr).toNat (4 - k)

/-- A group has an Ethernet address of its own. -/
def mcastaddr (ipaddr : UInt32) : Vector UInt8 6 :=
  #v[0x01, 0x00, 0x5e, ip4_addr 2 ipaddr &&& 0x7f, ip4_addr 3 ipaddr, ip4_addr 4 ipaddr]

def etharp_output (netif : EthNetif) (ipaddr : UInt32) (q : TxPbuf) : Option (List UInt8) := do
  let q ← q.pbuf_header ETH_HLEN
  if ip_addr_isbroadcast ipaddr netif then
    some (q.etharp_send_ip netif.hwaddr #v[0xff, 0xff, 0xff, 0xff, 0xff, 0xff])
  else if ip_addr_ismulticast ipaddr then
    some (q.etharp_send_ip netif.hwaddr (mcastaddr ipaddr))
  else none

/-! ## IP and UDP -/

abbrev MTU : Nat := 1500

/-- What `ip_output_if` writes into the header. `ip_id` is the number of the packet. -/
def writeIpHeader (src dest : UInt32) (ttl tos : UInt8) (proto ip_id : UInt16) (netif : EthNetif)
    (p : TxPbuf) : TxPbuf :=
  let p := (p.IPH_TTL_SET ttl).IPH_PROTO_SET proto
  let p := p.store32 16 dest
  let p := p.IPH_VHLTOS_SET 4 (UInt16.ofNat (IP_HLEN / 4)) tos.toUInt16
  let p := p.store16 2 (htons (UInt16.ofNat p.len))
  let p := p.store16 6 0
  let p := p.store16 4 (htons ip_id)
  let p := p.store32 12 (if src = 0 then netif.ip_addr else src)
  p.store16 10 0

def ip_output_if (src dest : UInt32) (ttl tos : UInt8) (proto ip_id : UInt16) (netif : EthNetif)
    (p : TxPbuf) : Option (List UInt8) := do
  let p ← p.pbuf_header IP_HLEN
  let p := p.writeIpHeader src dest ttl tos proto ip_id netif
  if p.len > MTU then none else p.etharp_output netif dest

/-- What `udp_sendto_if` writes into the header before it knows the source address. -/
def writePorts (src dest : UInt16) (q : TxPbuf) : TxPbuf :=
  ((q.store16 0 (htons src)).store16 2 (htons dest)).store16 6 0

def udp_sendto_if (pcb : BoundPcb) (dst_ip : UInt32) (dst_port ip_id : UInt16) (netif : EthNetif)
    (p : TxPbuf) : Option (List UInt8) := do
  let q ← p.pbuf_header UDP_HLEN
  let q := q.writePorts pcb.local_port dst_port
  let src_ip ← if pcb.local_ip = 0 then some netif.ip_addr
    else if pcb.local_ip ≠ netif.ip_addr then none
    else some pcb.local_ip
  let q := q.store16 4 (htons (UInt16.ofNat q.len))
  q.ip_output_if src_ip dst_ip pcb.ttl pcb.tos IP_PROTO_UDP ip_id netif

def udp_sendto (pcb : BoundPcb) (dst_ip : UInt32) (dst_port ip_id : UInt16) (netif : EthNetif)
    (p : TxPbuf) : Option (List UInt8) := do
  let netif ← ip_route (if ip_addr_ismulticast dst_ip then pcb.multicast_ip else dst_ip) netif
  p.udp_sendto_if pcb dst_ip dst_port ip_id netif

end TxPbuf

/-- The frame that `netSend` gives to the MAC, if `pbuf_alloc` has this memory for it. -/
def netSendFrame (port : UdpPort) (group : Group) (buf : Buf) (length : Nat) (memory : Buf)
    (ip_id : UInt16) (netif : EthNetif) : Option (List UInt8) := do
  let p ← (TxPbuf.alloc memory length).pbuf_take buf length
  p.udp_sendto port.pcb group.addr port.pcb.local_port ip_id netif

end Ptpd
