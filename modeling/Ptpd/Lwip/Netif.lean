import Ptpd.Issuing
import Ptpd.NetConfig
import Ptpd.SntpServer

/-! # Addresses, headers and interfaces of lwIP

    `lwip-1.3.1/src/include`, `ip_addr.c`, and what `netInit` and `ethernetif_init` set up.
    Addresses and ports are kept as the code keeps them: addresses in network byte
    order, and the board is little-endian.
-/

namespace Ptpd

open Octets

/-! ## Interfaces -/

/-- The rest of `struct netif`, and the groups that IGMP has joined on it. -/
structure EthNetif extends Netif where
  hwaddr : Vector UInt8 6
  NETIF_FLAG_UP : Bool
  NETIF_FLAG_BROADCAST : Bool
  NETIF_FLAG_IGMP : Bool
  groups : List UInt32

/-- The one interface is the default one. -/
def ip_route (dest : UInt32) (netif : EthNetif) : Option EthNetif :=
  if netif.NETIF_FLAG_UP ∧ dest &&& netif.netmask = netif.ip_addr &&& netif.netmask then some netif
  else if netif.NETIF_FLAG_UP then some netif
  else none

def ip_addr_ismulticast (addr : UInt32) : Bool := addr &&& htonl 0xf0000000 = htonl 0xe0000000

def ip_addr_isbroadcast (addr : UInt32) (netif : EthNetif) : Bool :=
  if ~~~addr = 0 ∨ addr = 0 then true
  else if !netif.NETIF_FLAG_BROADCAST then false
  else if addr = netif.ip_addr then false
  else if addr &&& netif.netmask = netif.ip_addr &&& netif.netmask ∧
      addr &&& ~~~netif.netmask = 0xffffffff &&& ~~~netif.netmask then true
  else false

def igmp_lookfor_group (netif : EthNetif) (addr : UInt32) : Bool := netif.groups.contains addr

/-! ## Headers

    A header is read and written in place: the buffer starts where the header does. -/

abbrev ETHTYPE_IP : UInt16 := 0x0800
abbrev ETHTYPE_ARP : UInt16 := 0x0806
abbrev ETH_HLEN : Nat := 14
abbrev IP_HLEN : Nat := 20
abbrev UDP_HLEN : Nat := 8
abbrev IP_PROTO_ICMP : UInt16 := 1
abbrev IP_PROTO_IGMP : UInt16 := 2
abbrev IP_PROTO_UDP : UInt16 := 17
abbrev IP_MF : UInt16 := 0x2000
abbrev IP_OFFMASK : UInt16 := 0x1fff

def IPH_V (hdr : Buf) : UInt16 := htons (get16 hdr 0) >>> 12
def IPH_HL (hdr : Buf) : UInt16 := (htons (get16 hdr 0) >>> 8) &&& 0x0f
def IPH_LEN (hdr : Buf) : UInt16 := get16 hdr 2
def IPH_OFFSET (hdr : Buf) : UInt16 := get16 hdr 6
def IPH_TTL (hdr : Buf) : UInt16 := htons (get16 hdr 8) >>> 8
def IPH_PROTO (hdr : Buf) : UInt16 := htons (get16 hdr 8) &&& 0xff
def IPH_SRC (hdr : Buf) : UInt32 := get32 hdr 12
def IPH_DEST (hdr : Buf) : UInt32 := get32 hdr 16

/-! ## UDP control blocks -/

/-- The receive callbacks: those of `netInit`, and those of the other programs. -/
inductive UdpRecv where
  | netRecvEventCallback
  | netRecvGeneralCallback
  | other
deriving DecidableEq

/-- The rest of `struct udp_pcb`, for one on the list `udp_pcbs`. -/
structure BoundPcb extends UdpPcb where
  local_port : UInt16
  multicast_ip : UInt32
  tos : UInt8
  ttl : UInt8
  recv : Option UdpRecv
deriving DecidableEq

abbrev PTP_EVENT_PORT : UInt16 := 319
abbrev PTP_GENERAL_PORT : UInt16 := 320

/-- `inet_aton` of `DEFAULT_PTP_DOMAIN_ADDRESS` or `PEER_PTP_DOMAIN_ADDRESS`. -/
def Group.addr : Group → UInt32
  | ptp => htonl 0xe0000181
  | peer => htonl 0xe000006b

def UdpPort.port : UdpPort → UInt16
  | event => PTP_EVENT_PORT
  | general => PTP_GENERAL_PORT

def UdpPort.recv : UdpPort → UdpRecv
  | event => .netRecvEventCallback
  | general => .netRecvGeneralCallback

/-- A block of `netInit`: from `udp_new` it is zero but for the `ttl`, then it is bound. -/
def UdpPort.pcb (port : UdpPort) : BoundPcb where
  local_ip := 0
  remote_ip := 0
  remote_port := 0
  connected := false
  local_port := port.port
  multicast_ip := Group.addr .ptp
  tos := 0
  ttl := 255
  recv := some port.recv

end Ptpd
