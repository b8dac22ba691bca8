import Ptpd.Lib.Segments
import Ptpd.Lwip.Netif
import Ptpd.Lwip.Pbuf

/-! # Receiving a frame (`ethernetif.c`, `etharp.c`, `ip.c`, `udp.c`)

    From the octets of a frame to the callback that gets the datagram. What a frame
    does to the ARP cache is left out, as are the protocols besides UDP; there is no
    TCP in this build.
-/

namespace Ptpd

open Octets Segments

/-! ## Chains of pbufs -/

namespace Pbuf

/-- What `p->payload` points to. -/
def memory (p : Pbuf) : Buf := bufOf (p.payload.headD [])

def len (p : Pbuf) : Nat := (p.payload.headD []).length

/-- The chain that `low_level_input` gets from the pool and copies the frame to. -/
def ofFrame (frame : List UInt8) (time_sec time_nsec : Int) : Pbuf :=
  ⟨split PBUF_POOL_BUFSIZE frame, frame.length, time_sec, time_nsec⟩

/-- `pbuf_header(p, -n)`: there is no result if the first pbuf is too short. -/
def pbuf_header (p : Pbuf) (n : Nat) : Option Pbuf :=
  if n ≤ p.len then some { p with payload := behind n p.payload, tot_len := p.tot_len - n } else none

/-- The memory of the pbufs stays as it is. -/
def pbuf_realloc (p : Pbuf) (new_len : Nat) : Pbuf :=
  if new_len ≥ p.tot_len then p else { p with payload := trim new_len p.payload, tot_len := new_len }

end Pbuf

/-- What becomes of the packet: it is freed, or goes to a callback or to another part of lwIP. -/
inductive Handed where
  | freed
  | recv (callback : UdpRecv) (p : Pbuf) (addr : UInt32) (port : UInt16)
  | etharp_arp_input (p : Pbuf)
  | ip_reass (p : Pbuf)
  | icmp_input (p : Pbuf)
  | igmp_input (p : Pbuf)
  | icmp_dest_unreach (p : Pbuf)

/-! ## UDP -/

/-- The search of `udp_input`: `before` are the blocks passed, the last one first. A block that matches
    fully is moved to the front, else it is the first unconnected one for the port. -/
def udpSearch (src dest : UInt16) (src_ip dest_ip : UInt32) (broadcast : Bool) :
    List BoundPcb → Option BoundPcb → List BoundPcb → Option BoundPcb × List BoundPcb
  | before, uncon_pcb, [] => (uncon_pcb, before.reverse)
  | before, uncon_pcb, pcb :: rest =>
    let local_match := pcb.local_port = dest ∧
      ((!broadcast ∧ pcb.local_ip = 0) ∨ pcb.local_ip = dest_ip ∨ ip_addr_ismulticast dest_ip ∨
        broadcast)
    let uncon_pcb := if local_match ∧ uncon_pcb = none ∧ !pcb.connected then some pcb
      else uncon_pcb
    if local_match ∧ pcb.remote_port = src ∧ (pcb.remote_ip = 0 ∨ pcb.remote_ip = src_ip) then
      (some pcb, pcb :: (before.reverse ++ rest))
    else udpSearch src dest src_ip dest_ip broadcast (pcb :: before) uncon_pcb rest

/-- `iphdr` is what `p->payload` points to. -/
def udp_input (iphdr : Buf) (p : Pbuf) (inp : EthNetif) (pcbs : List BoundPcb) : Handed × List BoundPcb :=
  let iphdr_hlen := (IPH_HL iphdr).toNat * 4
  if p.tot_len < iphdr_hlen + UDP_HLEN then (.freed, pcbs)
  else
    match p.pbuf_header iphdr_hlen with
    | none => (.freed, pcbs)
    | some p =>
      let udphdr := p.memory
      let broadcast := ip_addr_isbroadcast (IPH_DEST iphdr) inp
      let src := htons (get16 udphdr 0)
      let dest := htons (get16 udphdr 2)
      let (pcb, pcbs) := udpSearch src dest (IPH_SRC iphdr) (IPH_DEST iphdr) broadcast [] none pcbs
      if pcb ≠ none ∨ inp.ip_addr = IPH_DEST iphdr then
        match p.pbuf_header UDP_HLEN with
        | none => (.freed, pcbs)
        | some p =>
          match pcb with
          | some pcb =>
            match pcb.recv with
            | some callback => (.recv callback p (IPH_SRC iphdr) src, pcbs)
            | none => (.freed, pcbs)
          | none =>
            if !broadcast ∧ !ip_addr_ismulticast (IPH_DEST iphdr) then (.icmp_dest_unreach p, pcbs)
            else (.freed, pcbs)
      else (.freed, pcbs)

/-! ## IP and Ethernet -/

/-- The packet is for this interface: the loop over the others finds none. -/
def ipAccepted (dest : UInt32) (inp : EthNetif) : Bool :=
  if ip_addr_ismulticast dest then inp.NETIF_FLAG_IGMP && igmp_lookfor_group inp dest
  else inp.NETIF_FLAG_UP && inp.ip_addr != 0 &&
    (dest == inp.ip_addr || ip_addr_isbroadcast dest inp)

def ip_input (p : Pbuf) (inp : EthNetif) (pcbs : List BoundPcb) : Handed × List BoundPcb :=
  let iphdr := p.memory
  if IPH_V iphdr ≠ 4 then (.freed, pcbs)
  else
    let iphdr_hlen := (IPH_HL iphdr).toNat * 4
    let iphdr_len := (htons (IPH_LEN iphdr)).toNat
    if iphdr_hlen > p.len ∨ iphdr_len > p.tot_len then (.freed, pcbs)
    else
      let p := p.pbuf_realloc iphdr_len
      if ip_addr_isbroadcast (IPH_SRC iphdr) inp ∨ ip_addr_ismulticast (IPH_SRC iphdr) then
        (.freed, pcbs)
      else if !ipAccepted (IPH_DEST iphdr) inp then (.freed, pcbs)
      else if IPH_OFFSET iphdr &&& htons (IP_OFFMASK ||| IP_MF) ≠ 0 then (.ip_reass p, pcbs)
      -- no raw block takes the packet first
      else if IPH_PROTO iphdr = IP_PROTO_UDP then udp_input iphdr p inp pcbs
      else if IPH_PROTO iphdr = IP_PROTO_ICMP then (.icmp_input p, pcbs)
      else if IPH_PROTO iphdr = IP_PROTO_IGMP then (.igmp_input p, pcbs)
      else if !ip_addr_isbroadcast (IPH_DEST iphdr) inp ∧ !ip_addr_ismulticast (IPH_DEST iphdr) then
        (.icmp_dest_unreach p, pcbs)
      else (.freed, pcbs)

def ethernet_input (p : Pbuf) (netif : EthNetif) (pcbs : List BoundPcb) : Handed × List BoundPcb :=
  let type := htons (get16 p.memory 12)
  if type = ETHTYPE_IP then
    match p.pbuf_header ETH_HLEN with
    | none => (.freed, pcbs)
    | some p => ip_input p netif pcbs
  else if type = ETHTYPE_ARP then (.etharp_arp_input p, pcbs)
  else (.freed, pcbs)

end Ptpd
