import Ptpd.Lwip.Input

/-! # Which frames are datagrams

    A frame is a UDP datagram by its octets alone; that `ethernet_input` cuts it out of
    a chain of pbufs, and that `udp_input` reorders its list of control blocks, makes no
    difference to what the PTP callbacks get.
-/

namespace Ptpd

open Octets Segments

/-! ## Frames -/

namespace Frame

variable (frame : List UInt8)

/-- Behind the Ethernet header. -/
def packet : List UInt8 := frame.drop ETH_HLEN

/-- The length of the IP header. -/
def headerLength : Nat := (bufOf (packet frame) 0).toNat % 16 * 4

/-- The length that the IP header gives. -/
def totalLength : Nat := (be16 (bufOf (packet frame) 2) (bufOf (packet frame) 3)).toNat

/-- The data of the datagram. -/
def data : List UInt8 := ((packet frame).take (totalLength frame)).drop (headerLength frame + UDP_HLEN)

/-- A whole UDP datagram to this port, from a host, to the interface. -/
structure IsDatagram (netif : EthNetif) (port : UInt16) : Prop where
  type : be16 (bufOf frame 12) (bufOf frame 13) = ETHTYPE_IP
  version : (bufOf (packet frame) 0).toNat / 16 = 4
  headers : headerLength frame + UDP_HLEN ≤ totalLength frame
  complete : totalLength frame ≤ (packet frame).length
  unfragmented : (be16 (bufOf (packet frame) 6) (bufOf (packet frame) 7)).toNat % 2 ^ 14 = 0
  protocol : bufOf (packet frame) 9 = 17
  source : ip_addr_isbroadcast (IPH_SRC (bufOf (packet frame))) netif = false ∧
    ip_addr_ismulticast (IPH_SRC (bufOf (packet frame))) = false
  destination : ipAccepted (IPH_DEST (bufOf (packet frame))) netif = true
  port : be16 (bufOf (packet frame) (headerLength frame + 2))
    (bufOf (packet frame) (headerLength frame + 3)) = port

instance (netif : EthNetif) (port : UInt16) : Decidable (IsDatagram frame netif port) :=
  decidable_of_iff (_ ∧ _ ∧ _ ∧ _ ∧ _ ∧ _ ∧ _ ∧ _ ∧ _)
    ⟨fun ⟨h₁, h₂, h₃, h₄, h₅, h₆, h₇, h₈, h₉⟩ => ⟨h₁, h₂, h₃, h₄, h₅, h₆, h₇, h₈, h₉⟩,
      fun ⟨h₁, h₂, h₃, h₄, h₅, h₆, h₇, h₈, h₉⟩ => ⟨h₁, h₂, h₃, h₄, h₅, h₆, h₇, h₈, h₉⟩⟩

end Frame

/-! ## Header words -/

section Headers

variable (hdr : Buf)

theorem IPH_V_eq : IPH_V hdr = 4 ↔ (hdr 0).toNat / 16 = 4 := by
  have ha := (hdr 0).toNat_lt
  have hb := (hdr (0 + 1)).toNat_lt
  have hfour : (4 : UInt16).toNat = 4 := rfl
  have htwelve : (12 : UInt16).toNat % 16 = 12 := rfl
  unfold IPH_V
  rw [htons_get16, ← UInt16.toNat_inj, UInt16.toNat_shiftRight, htwelve, hfour,
    Nat.shiftRight_eq_div_pow, be16, UInt16.toNat_ofNat']
  omega

theorem IPH_HL_toNat : (IPH_HL hdr).toNat = (hdr 0).toNat % 16 := by
  have ha := (hdr 0).toNat_lt
  have hb := (hdr (0 + 1)).toNat_lt
  have hmask : (0x0f : UInt16).toNat = 2 ^ 4 - 1 := rfl
  have height : (8 : UInt16).toNat % 16 = 8 := rfl
  unfold IPH_HL
  rw [htons_get16, UInt16.toNat_and, hmask, Nat.and_two_pow_sub_one_eq_mod,
    UInt16.toNat_shiftRight, height, Nat.shiftRight_eq_div_pow, be16, UInt16.toNat_ofNat']
  omega

theorem IPH_PROTO_toNat : (IPH_PROTO hdr).toNat = (hdr 9).toNat := by
  have ha := (hdr 8).toNat_lt
  have hb := (hdr 9).toNat_lt
  have hmask : (0xff : UInt16).toNat = 2 ^ 8 - 1 := rfl
  unfold IPH_PROTO
  rw [htons_get16, UInt16.toNat_and, hmask, Nat.and_two_pow_sub_one_eq_mod, be16,
    UInt16.toNat_ofNat', show 8 + 1 = 9 from rfl]
  omega

/-- A fragment has an offset, or more fragments behind it. -/
theorem IPH_OFFSET_eq : IPH_OFFSET hdr &&& htons (IP_OFFMASK ||| IP_MF) = 0 ↔
    (be16 (hdr 6) (hdr 7)).toNat % 2 ^ 14 = 0 := by
  have ha := (hdr 6).toNat_lt
  have hb := (hdr (6 + 1)).toNat_lt
  have hmask : (htons (IP_OFFMASK ||| IP_MF)).toNat = 0xff3f := by decide
  have hword : (get16 hdr 6).toNat = (hdr 6).toNat + 256 * (hdr (6 + 1)).toNat := by
    rw [get16, UInt16.toNat_ofNat']
    omega
  unfold IPH_OFFSET
  rw [← UInt16.toNat_inj, UInt16.toNat_and, hmask, hword, be16, UInt16.toNat_ofNat']
  generalize (hdr 6).toNat = a at ha
  generalize (hdr (6 + 1)).toNat = b at hb
  -- octet by octet
  have hlow : ((a + 256 * b) &&& 0xff3f) % 2 ^ 8 = a % 2 ^ 6 := by
    rw [Nat.and_mod_two_pow, show 0xff3f % 2 ^ 8 = 2 ^ 6 - 1 from rfl,
      Nat.and_two_pow_sub_one_eq_mod]
    omega
  have hhigh : ((a + 256 * b) &&& 0xff3f) / 2 ^ 8 = b := by
    rw [Nat.and_div_two_pow, show 0xff3f / 2 ^ 8 = 2 ^ 8 - 1 from rfl,
      Nat.and_two_pow_sub_one_eq_mod]
    omega
  have hzero : (0 : UInt16).toNat = 0 := rfl
  rw [hzero]
  omega

end Headers

/-! ## Chains -/

/-- The octets are in the chain, the first `k` of them in the first pbuf. -/
structure Pbuf.Holds (p : Pbuf) (octets : List UInt8) (k : Nat) : Prop where
  flatten : p.payload.flatten = octets
  tot_len : p.tot_len = octets.length
  first : ∃ segment segments, p.payload = segment :: segments ∧ min k octets.length ≤ segment.length
  nonempty : octets ≠ [] → ∀ segment ∈ p.payload, segment ≠ []

namespace Pbuf.Holds

variable {p : Pbuf} {octets : List UInt8} {k n i : Nat}

theorem ofFrame (frame : List UInt8) (time_sec time_nsec : Int) :
    (Pbuf.ofFrame frame time_sec time_nsec).Holds frame PBUF_POOL_BUFSIZE := by
  constructor
  · exact flatten_split
  · rfl
  · obtain ⟨segments, hsplit⟩ := split_eq_cons frame (show 0 < PBUF_POOL_BUFSIZE by decide)
    refine ⟨_, segments, hsplit, ?_⟩
    rw [List.length_take]
  · intro hne
    exact split_nonempty hne

theorem memory (hp : p.Holds octets k) (hi : i < k) (hlt : i < octets.length) :
    p.memory i = bufOf octets i := by
  obtain ⟨segment, segments, hpayload, hle⟩ := hp.first
  have hflatten := hp.flatten
  rw [hpayload, List.flatten_cons] at hflatten
  have hseg : i < segment.length := by omega
  unfold Pbuf.memory bufOf
  rw [hpayload, ← hflatten, List.headD_cons, List.getD_append _ _ _ _ hseg]

/-- A word in network order, of what is behind the first `n` octets. -/
theorem word (hp : p.Holds (octets.drop n) k) (hi : i + 1 < k) (hlt : n + i + 1 < octets.length) :
    htons (get16 p.memory i) = be16 (bufOf octets (n + i)) (bufOf octets (n + i + 1)) := by
  have hrest : (octets.drop n).length = octets.length - n := List.length_drop
  have hbehind (j : Nat) : bufOf (octets.drop n) j = bufOf octets (n + j) := by
    unfold bufOf
    rw [List.getD_eq_getElem?_getD, List.getD_eq_getElem?_getD, List.getElem?_drop]
  rw [htons_get16, hp.memory (by omega) (by omega), hp.memory (by omega) (by omega), hbehind,
    hbehind]
  rfl

theorem le_len (hp : p.Holds octets k) (hk : n ≤ k) (hn : n ≤ octets.length) : n ≤ p.len := by
  obtain ⟨segment, segments, hpayload, hle⟩ := hp.first
  unfold Pbuf.len
  rw [hpayload, List.headD_cons]
  omega

theorem header (hp : p.Holds octets k) (hk : n < k) (hn : n ≤ octets.length) :
    ∃ p', p.pbuf_header n = some p' ∧ p'.Holds (octets.drop n) (k - n) ∧
      p'.time_sec = p.time_sec ∧ p'.time_nsec = p.time_nsec := by
  obtain ⟨segment, segments, hpayload, hle⟩ := hp.first
  have hseg : n ≤ segment.length := by omega
  have hlength : (octets.drop n).length = octets.length - n := List.length_drop
  have hsum := hp.flatten
  rw [hpayload] at hsum
  unfold Pbuf.pbuf_header
  rw [if_pos (hp.le_len (by omega) hn)]
  refine ⟨_, rfl, ?_, rfl, rfl⟩
  constructor
  · dsimp only
    rw [hpayload, flatten_behind hseg, hsum]
  · dsimp only
    rw [hp.tot_len, hlength]
  · refine ⟨segment.drop n, segments, ?_, ?_⟩
    · dsimp only
      rw [hpayload, behind]
    · rw [List.length_drop, List.length_drop]
      omega
  · intro hne other hmem
    dsimp only at hmem
    rw [hpayload, behind] at hmem
    have hoctets : octets ≠ [] := by
      rintro rfl
      exact hne List.drop_nil
    have hall := hp.nonempty hoctets
    rw [hpayload] at hall
    cases hmem with
    | tail _ hmem => exact hall other (List.mem_cons_of_mem _ hmem)
    | head =>
      -- if nothing of the first pbuf were left there would be no other
      rw [← List.length_pos_iff, List.length_drop]
      have hpos := List.length_pos_iff.mpr hne
      have htotal := congrArg List.length hsum
      rw [List.flatten_cons, List.length_append] at htotal
      cases segments with
      | nil =>
        rw [List.flatten_nil, List.length_nil] at htotal
        omega
      | cons next rest =>
        have hnext := List.length_pos_iff.mpr (hall next (by simp))
        rw [List.flatten_cons, List.length_append] at htotal
        omega

theorem realloc (hp : p.Holds octets k) (hn : n ≤ octets.length) :
    (p.pbuf_realloc n).Holds (octets.take n) k ∧
      (p.pbuf_realloc n).time_sec = p.time_sec ∧ (p.pbuf_realloc n).time_nsec = p.time_nsec := by
  unfold Pbuf.pbuf_realloc
  rw [hp.tot_len]
  by_cases hall : n ≥ octets.length
  · rw [if_pos hall, List.take_of_length_le hall]
    exact ⟨hp, rfl, rfl⟩
  · rw [if_neg hall]
    refine ⟨?_, rfl, rfl⟩
    obtain ⟨segment, segments, hpayload, hle⟩ := hp.first
    have hlength : (octets.take n).length = n := List.length_take_of_le hn
    constructor
    · dsimp only
      rw [flatten_trim (by rw [hp.flatten]; exact hn), hp.flatten]
    · exact hlength.symm
    · obtain ⟨rest, htrim⟩ := trim_eq_cons n segment segments
      refine ⟨segment.take n, rest, ?_, ?_⟩
      · dsimp only
        rw [hpayload, htrim]
      · rw [hlength, List.length_take]
        omega
    · intro hne
      have hpos := List.length_pos_iff.mpr hne
      rw [hlength] at hpos
      apply trim_nonempty hpos
      apply hp.nonempty
      rintro rfl
      exact hne List.take_nil

end Pbuf.Holds

/-! ## The search -/

section Search

variable {src dest : UInt16} {src_ip dest_ip : UInt32} {broadcast : Bool} {pcb : BoundPcb}

theorem udpSearch_perm (before rest : List BoundPcb) (uncon_pcb : Option BoundPcb) :
    (udpSearch src dest src_ip dest_ip broadcast before uncon_pcb rest).2.Perm
      (before.reverse ++ rest) := by
  induction rest generalizing before uncon_pcb with
  | nil => rw [udpSearch, List.append_nil]
  | cons pcb rest ih =>
    rw [udpSearch]
    split
    · exact List.perm_middle.symm
    · apply (ih (pcb :: before) _).trans
      rw [List.reverse_cons, List.append_assoc, List.singleton_append]

/-- Only blocks of the port are found. -/
theorem udpSearch_chosen {before rest : List BoundPcb} {uncon_pcb : Option BoundPcb}
    (h : (udpSearch src dest src_ip dest_ip broadcast before uncon_pcb rest).1 = some pcb) :
    uncon_pcb = some pcb ∨ pcb ∈ rest ∧ pcb.local_port = dest := by
  induction rest generalizing before uncon_pcb with
  | nil => exact .inl h
  | cons first rest ih =>
    rw [udpSearch] at h
    split at h
    · rename_i hmatch
      cases h
      exact .inr ⟨List.mem_cons_self, hmatch.1.1⟩
    · cases ih h with
      | inr hrest => exact .inr ⟨List.mem_cons_of_mem _ hrest.1, hrest.2⟩
      | inl huncon =>
        split at huncon
        · rename_i hmatch
          cases huncon
          exact .inr ⟨List.mem_cons_self, hmatch.1.1⟩
        · exact .inl huncon

theorem udpSearch_other {before rest : List BoundPcb} {uncon_pcb : Option BoundPcb}
    (h : ∀ pcb ∈ rest, pcb.local_port ≠ dest) :
    (udpSearch src dest src_ip dest_ip broadcast before uncon_pcb rest).1 = uncon_pcb := by
  induction rest generalizing before with
  | nil => rfl
  | cons first rest ih =>
    have hne := h first List.mem_cons_self
    rw [udpSearch]
    rw [if_neg fun hmatch => hne hmatch.1.1, if_neg fun hmatch => hne hmatch.1.1]
    exact ih fun pcb hpcb => h pcb (List.mem_cons_of_mem _ hpcb)

/-- The only block of the port is found, wherever it stands and whoever sends. -/
theorem udpSearch_only {before rest : List BoundPcb}
    (honly : rest.filter (fun pcb => pcb.local_port = dest) = [pcb]) (hany : pcb.local_ip = 0)
    (hconn : pcb.connected = false) :
    (udpSearch src dest src_ip dest_ip broadcast before none rest).1 = some pcb := by
  induction rest generalizing before with
  | nil => cases honly
  | cons first rest ih =>
    rw [udpSearch]
    by_cases hport : first.local_port = dest
    · rw [List.filter_cons_of_pos (by simpa using hport)] at honly
      obtain ⟨rfl, hnone⟩ := List.cons.inj honly
      have hothers : ∀ pcb ∈ rest, pcb.local_port ≠ dest := by
        intro pcb hpcb hp
        have hmem : pcb ∈ rest.filter fun pcb => pcb.local_port = dest :=
          List.mem_filter.mpr ⟨hpcb, by simpa using hp⟩
        rw [hnone] at hmem
        cases hmem
      have hlocal : first.local_port = dest ∧ ((!broadcast ∧ first.local_ip = 0) ∨
          first.local_ip = dest_ip ∨ ip_addr_ismulticast dest_ip ∨ broadcast) := by
        refine ⟨hport, ?_⟩
        cases broadcast with
        | false => exact .inl ⟨rfl, hany⟩
        | true => exact .inr (.inr (.inr rfl))
      split
      · rfl
      · rw [udpSearch_other hothers, if_pos ⟨hlocal, rfl, by simpa using hconn⟩]
    · rw [List.filter_cons_of_neg (by simpa using hport)] at honly
      rw [if_neg fun hmatch => hport hmatch.1.1, if_neg fun hmatch => hport hmatch.1.1]
      exact ih honly

end Search

/-! ## What the callbacks of PTP get -/

/-- The packet that the callback gets. -/
def Handed.packet? (callback : UdpRecv) : Handed → Option Pbuf
  | recv called p _ _ => if called = callback then some p else none
  | _ => none

/-- The blocks of `netInit` are on the list, and nobody else has their ports or callbacks. -/
def Ready (pcbs : List BoundPcb) : Prop :=
  ∀ port : UdpPort,
    pcbs.filter (fun pcb => pcb.local_port = port.port ∨ pcb.recv = some port.recv) = [port.pcb]

namespace Ready

variable {pcbs pcbs' : List BoundPcb} {pcb : BoundPcb}

theorem perm (hready : Ready pcbs) (hperm : pcbs'.Perm pcbs) : Ready pcbs' := by
  intro port
  apply List.perm_singleton.mp
  rw [← hready port]
  exact hperm.filter _

theorem only (hready : Ready pcbs) (port : UdpPort) :
    pcbs.filter (fun pcb => pcb.local_port = port.port) = [port.pcb] := by
  have hfilter := congrArg (List.filter fun pcb => pcb.local_port = port.port) (hready port)
  rw [List.filter_filter] at hfilter
  have hsame : (fun pcb : BoundPcb => decide (pcb.local_port = port.port) &&
      decide (pcb.local_port = port.port ∨ pcb.recv = some port.recv)) =
      fun pcb => decide (pcb.local_port = port.port) := by
    funext pcb
    by_cases h : pcb.local_port = port.port
    · simp [h]
    · simp [h]
  rw [hsame] at hfilter
  rw [hfilter]
  cases port <;> rfl

/-- The callback belongs to the port. -/
theorem port_of_recv (hready : Ready pcbs) (hmem : pcb ∈ pcbs) {port : UdpPort}
    (hrecv : pcb.recv = some port.recv) : pcb.local_port = port.port := by
  have hfound : pcb ∈ pcbs.filter
      fun pcb => pcb.local_port = port.port ∨ pcb.recv = some port.recv :=
    List.mem_filter.mpr ⟨hmem, by simp [hrecv]⟩
  rw [hready port, List.mem_singleton] at hfound
  rw [hfound]
  rfl

end Ready

section Handling

variable {p : Pbuf} {octets frame : List UInt8} {k : Nat} {iphdr : Buf} {inp netif : EthNetif}
  {pcbs : List BoundPcb}

theorem udp_input_perm (iphdr : Buf) (p : Pbuf) (inp : EthNetif) (pcbs : List BoundPcb) :
    (udp_input iphdr p inp pcbs).2.Perm pcbs := by
  unfold udp_input
  dsimp only
  split
  · exact .refl _
  · split
    · exact .refl _
    · have hsearch (src dest : UInt16) (src_ip dest_ip : UInt32) (broadcast : Bool) :=
        @udpSearch_perm src dest src_ip dest_ip broadcast [] pcbs none
      simp only [List.reverse_nil, List.nil_append] at hsearch
      split
      · split
        · exact hsearch _ _ _ _ _
        · split
          · split <;> exact hsearch _ _ _ _ _
          · split <;> exact hsearch _ _ _ _ _
      · exact hsearch _ _ _ _ _

/-- The data goes to the callback of its port. -/
theorem udp_input_delivers (iphdr : Buf) (inp : EthNetif) (hp : p.Holds octets k)
    (hk : (IPH_HL iphdr).toNat * 4 + UDP_HLEN < k) (hready : Ready pcbs) {port : UdpPort}
    (hlength : (IPH_HL iphdr).toNat * 4 + UDP_HLEN ≤ octets.length)
    (hport : be16 (bufOf octets ((IPH_HL iphdr).toNat * 4 + 2))
      (bufOf octets ((IPH_HL iphdr).toNat * 4 + 3)) = port.port) :
    ∃ p', Handed.packet? port.recv (udp_input iphdr p inp pcbs).1 = some p' ∧
      p'.Holds (octets.drop ((IPH_HL iphdr).toNat * 4 + UDP_HLEN))
        (k - ((IPH_HL iphdr).toNat * 4 + UDP_HLEN)) ∧
      p'.time_sec = p.time_sec ∧ p'.time_nsec = p.time_nsec := by
  have hudp : UDP_HLEN = 8 := rfl
  generalize hhlen : (IPH_HL iphdr).toNat * 4 = hlen at *
  obtain ⟨p₁, hp₁, hholds₁, hsec₁, hnsec₁⟩ := hp.header (n := hlen) (by omega) (by omega)
  have hrest : (octets.drop hlen).length = octets.length - hlen := List.length_drop
  obtain ⟨p₂, hp₂, hholds₂, hsec₂, hnsec₂⟩ :=
    hholds₁.header (n := UDP_HLEN) (by omega) (by omega)
  have hdest : htons (get16 p₁.memory 2) = port.port := by
    rw [hholds₁.word (by omega) (by omega)]
    exact hport
  have hfound (src : UInt16) (src_ip dest_ip : UInt32) (broadcast : Bool) :
      (udpSearch src port.port src_ip dest_ip broadcast [] none pcbs).1 = some port.pcb :=
    udpSearch_only (hready.only port) rfl rfl
  rw [List.drop_drop] at hholds₂
  refine ⟨p₂, ?_, ?_, hsec₂.trans hsec₁, hnsec₂.trans hnsec₁⟩
  · unfold udp_input
    rw [hhlen, hp.tot_len, if_neg (by omega)]
    dsimp only
    rw [hp₁]
    dsimp only
    rw [hdest, hfound, if_pos (.inl (Option.some_ne_none _)), hp₂]
    dsimp only [UdpPort.pcb, Handed.packet?]
    rw [if_pos rfl]
  · have hsub : k - (hlen + UDP_HLEN) = k - hlen - UDP_HLEN := by omega
    rw [hsub]
    exact hholds₂

/-- What goes to the callback is a datagram to its port. -/
theorem udp_input_sound (hp : p.Holds octets k) (hk : (IPH_HL iphdr).toNat * 4 + UDP_HLEN < k)
    (hready : Ready pcbs) {port : UdpPort} {p' : Pbuf}
    (h : Handed.packet? port.recv (udp_input iphdr p inp pcbs).1 = some p') :
    (IPH_HL iphdr).toNat * 4 + UDP_HLEN ≤ octets.length ∧
      be16 (bufOf octets ((IPH_HL iphdr).toNat * 4 + 2))
        (bufOf octets ((IPH_HL iphdr).toNat * 4 + 3)) = port.port := by
  have hudp : UDP_HLEN = 8 := rfl
  generalize hhlen : (IPH_HL iphdr).toNat * 4 = hlen at *
  unfold udp_input at h
  rw [hhlen, hp.tot_len] at h
  by_cases hshort : octets.length < hlen + UDP_HLEN
  · rw [if_pos hshort] at h
    cases h
  · refine ⟨by omega, ?_⟩
    obtain ⟨p₁, hp₁, hholds₁, -, -⟩ := hp.header (n := hlen) (by omega) (by omega)
    have hrest : (octets.drop hlen).length = octets.length - hlen := List.length_drop
    obtain ⟨p₂, hp₂, -, -, -⟩ := hholds₁.header (n := UDP_HLEN) (by omega) (by omega)
    have hdest : htons (get16 p₁.memory 2) = be16 (bufOf octets (hlen + 2))
        (bufOf octets (hlen + 3)) := hholds₁.word (by omega) (by omega)
    rw [if_neg hshort] at h
    dsimp only at h
    rw [hp₁] at h
    dsimp only at h
    rw [hdest, hp₂] at h
    generalize hsearch : udpSearch _ _ _ _ _ [] none pcbs = found at h
    cases hpcb : found.1 with
    | none =>
      rw [hpcb] at h
      dsimp only at h
      split at h
      · split at h <;> cases h
      · cases h
    | some pcb =>
      rw [hpcb, if_pos (.inl (Option.some_ne_none _))] at h
      dsimp only at h
      rw [← hsearch] at hpcb
      cases udpSearch_chosen hpcb with
      | inl hnone => cases hnone
      | inr hmem =>
        cases hrecv : pcb.recv with
        | none =>
          rw [hrecv] at h
          cases h
        | some callback =>
          rw [hrecv] at h
          dsimp only [Handed.packet?] at h
          by_cases hsame : callback = port.recv
          · rw [hsame] at hrecv
            rw [← hmem.2]
            exact hready.port_of_recv hmem.1 hrecv
          · rw [if_neg hsame] at h
            cases h

/-! ## IP -/

/-- The fields are those of the octets. -/
theorem Pbuf.Holds.ipHeader (hp : p.Holds octets k) (hk : IP_HLEN ≤ k) (hlong : IP_HLEN ≤ octets.length) :
    IPH_V p.memory = IPH_V (bufOf octets) ∧ IPH_HL p.memory = IPH_HL (bufOf octets) ∧
    IPH_LEN p.memory = IPH_LEN (bufOf octets) ∧ IPH_OFFSET p.memory = IPH_OFFSET (bufOf octets) ∧
    IPH_PROTO p.memory = IPH_PROTO (bufOf octets) ∧ IPH_SRC p.memory = IPH_SRC (bufOf octets) ∧
    IPH_DEST p.memory = IPH_DEST (bufOf octets) := by
  have hip : IP_HLEN = 20 := rfl
  have hword (off : Nat) (h : off + 2 ≤ 20) : get16 p.memory off = get16 (bufOf octets) off := by
    apply get16_congr
    intro i hlo hhi
    exact hp.memory (by omega) (by omega)
  have haddr (off : Nat) (h : off + 4 ≤ 20) : get32 p.memory off = get32 (bufOf octets) off := by
    apply get32_congr
    intro i hlo hhi
    exact hp.memory (by omega) (by omega)
  unfold IPH_V IPH_HL IPH_LEN IPH_OFFSET IPH_PROTO IPH_SRC IPH_DEST
  rw [hword 0 (by decide), hword 2 (by decide), hword 6 (by decide), hword 8 (by decide),
    haddr 12 (by decide), haddr 16 (by decide)]
  exact ⟨rfl, rfl, rfl, rfl, rfl, rfl, rfl⟩

theorem ip_input_perm (p : Pbuf) (inp : EthNetif) (pcbs : List BoundPcb) :
    (ip_input p inp pcbs).2.Perm pcbs := by
  unfold ip_input
  dsimp only
  repeat' split
  all_goals first
    | exact .refl _
    | exact udp_input_perm _ _ _ _

theorem Frame.headerLength_eq (frame : List UInt8) :
    (IPH_HL (bufOf (Frame.packet frame))).toNat * 4 = Frame.headerLength frame := by
  rw [IPH_HL_toNat]
  rfl

theorem Frame.totalLength_eq (frame : List UInt8) :
    (htons (IPH_LEN (bufOf (Frame.packet frame)))).toNat = Frame.totalLength frame := by
  unfold IPH_LEN
  rw [htons_get16]
  rfl

theorem Frame.headerLength_le (frame : List UInt8) : Frame.headerLength frame ≤ 60 := by
  unfold Frame.headerLength
  omega

/-- What `udp_input` gets is cut off at the length that the header gives. -/
theorem ip_input_delivers (hp : p.Holds (Frame.packet frame) k) (hk : 68 < k)
    (hlong : IP_HLEN ≤ (Frame.packet frame).length) (hready : Ready pcbs) {port : UdpPort}
    (hd : Frame.IsDatagram frame netif port.port) :
    ∃ p', Handed.packet? port.recv (ip_input p netif pcbs).1 = some p' ∧
      p'.Holds (Frame.data frame) (k - (Frame.headerLength frame + UDP_HLEN)) ∧
      p'.time_sec = p.time_sec ∧ p'.time_nsec = p.time_nsec := by
  have hip : IP_HLEN = 20 := rfl
  have hudp : UDP_HLEN = 8 := rfl
  have hheader := Frame.headerLength_le frame
  have htotal := hd.headers
  have hcomplete := hd.complete
  obtain ⟨hv, hhl, hlen, hoff, hproto, hsrc, hdest⟩ := hp.ipHeader (by omega) hlong
  obtain ⟨hholds, hsec, hnsec⟩ := hp.realloc hcomplete
  have hheaderLength := Frame.headerLength_eq frame
  rw [← hhl] at hheaderLength
  have hcut : ((Frame.packet frame).take (Frame.totalLength frame)).length =
      Frame.totalLength frame := List.length_take_of_le hcomplete
  have hin (i : Nat) (hi : i < Frame.totalLength frame) :
      bufOf ((Frame.packet frame).take (Frame.totalLength frame)) i =
        bufOf (Frame.packet frame) i := by
    unfold bufOf
    rw [List.getD_eq_getElem?_getD, List.getD_eq_getElem?_getD, List.getElem?_take_of_lt hi]
  have hport : be16 (bufOf ((Frame.packet frame).take (Frame.totalLength frame))
      ((IPH_HL p.memory).toNat * 4 + 2)) (bufOf ((Frame.packet frame).take (Frame.totalLength frame))
        ((IPH_HL p.memory).toNat * 4 + 3)) = port.port := by
    rw [hheaderLength, hin _ (by omega), hin _ (by omega)]
    exact hd.port
  obtain ⟨p', hp', hholds', hsec', hnsec'⟩ :=
    udp_input_delivers p.memory netif hholds (by omega) hready (by omega) hport
  rw [hheaderLength] at hholds'
  refine ⟨p', ?_, hholds', hsec'.trans hsec, hnsec'.trans hnsec⟩
  rw [← hp']
  have hfits : ¬ (Frame.headerLength frame > p.len ∨ Frame.totalLength frame > p.tot_len) := by
    have hfirst := hp.le_len (n := Frame.headerLength frame) (by omega) (by omega)
    rw [hp.tot_len]
    omega
  have hprotocol : IPH_PROTO (bufOf (Frame.packet frame)) = IP_PROTO_UDP := by
    apply UInt16.toNat_inj.mp
    rw [IPH_PROTO_toNat, hd.protocol]
    rfl
  unfold ip_input
  dsimp only
  rw [hv, if_neg (not_not.mpr ((IPH_V_eq _).mpr hd.version)), hlen, Frame.totalLength_eq,
    hheaderLength, if_neg hfits, hsrc, hd.source.1, hd.source.2, if_neg (by decide), hdest,
    hd.destination, if_neg (by decide), hoff,
    if_neg (not_not.mpr ((IPH_OFFSET_eq _).mpr hd.unfragmented)), hproto, if_pos hprotocol]

theorem ip_input_sound (hp : p.Holds (Frame.packet frame) k) (hk : 68 < k)
    (hlong : IP_HLEN ≤ (Frame.packet frame).length) (hready : Ready pcbs) {port : UdpPort}
    {p' : Pbuf} (htype : be16 (bufOf frame 12) (bufOf frame 13) = ETHTYPE_IP)
    (h : Handed.packet? port.recv (ip_input p netif pcbs).1 = some p') :
    Frame.IsDatagram frame netif port.port := by
  have hip : IP_HLEN = 20 := rfl
  have hudp : UDP_HLEN = 8 := rfl
  have hheader := Frame.headerLength_le frame
  obtain ⟨hv, hhl, hlen, hoff, hproto, hsrc, hdest⟩ := hp.ipHeader (by omega) hlong
  have hheaderLength := Frame.headerLength_eq frame
  rw [← hhl] at hheaderLength
  unfold ip_input at h
  dsimp only at h
  rw [hv, hlen, Frame.totalLength_eq, hheaderLength, hsrc, hdest, hoff, hproto] at h
  by_cases hversion : IPH_V (bufOf (Frame.packet frame)) = 4
  swap
  · rw [if_pos hversion] at h
    cases h
  rw [if_neg (not_not.mpr hversion)] at h
  by_cases hfits : Frame.headerLength frame > p.len ∨ Frame.totalLength frame > p.tot_len
  · rw [if_pos hfits] at h
    cases h
  rw [if_neg hfits] at h
  rw [hp.tot_len] at hfits
  have hcomplete : Frame.totalLength frame ≤ (Frame.packet frame).length := by omega
  split at h
  · cases h
  rename_i hsource
  split at h
  · cases h
  rename_i hdestination
  split at h
  · cases h
  rename_i hfragment
  split at h
  swap
  · repeat' split at h
    all_goals cases h
  rename_i hprotocol
  obtain ⟨hholds, -, -⟩ := hp.realloc hcomplete
  obtain ⟨hheaders, hport⟩ := udp_input_sound hholds (by omega) hready h
  have hcut : ((Frame.packet frame).take (Frame.totalLength frame)).length =
      Frame.totalLength frame := List.length_take_of_le hcomplete
  have hin (i : Nat) (hi : i < Frame.totalLength frame) :
      bufOf ((Frame.packet frame).take (Frame.totalLength frame)) i =
        bufOf (Frame.packet frame) i := by
    unfold bufOf
    rw [List.getD_eq_getElem?_getD, List.getD_eq_getElem?_getD, List.getElem?_take_of_lt hi]
  rw [hheaderLength, hin _ (by omega), hin _ (by omega)] at hport
  rw [hheaderLength, hcut] at hheaders
  constructor
  · exact htype
  · exact (IPH_V_eq _).mp hversion
  · exact hheaders
  · exact hcomplete
  · exact (IPH_OFFSET_eq _).mp (not_not.mp hfragment)
  · apply UInt8.toNat_inj.mp
    rw [← IPH_PROTO_toNat, hprotocol]
    rfl
  · constructor
    · exact Bool.eq_false_iff.mpr fun hbroadcast => hsource (.inl hbroadcast)
    · exact Bool.eq_false_iff.mpr fun hmulticast => hsource (.inr hmulticast)
  · simpa using hdestination
  · exact hport

/-! ## Ethernet -/

theorem ethernet_input_perm (p : Pbuf) (netif : EthNetif) (pcbs : List BoundPcb) :
    (ethernet_input p netif pcbs).2.Perm pcbs := by
  unfold ethernet_input
  dsimp only
  repeat' split
  all_goals first
    | exact .refl _
    | exact ip_input_perm _ _ _

theorem Frame.packet_length (frame : List UInt8) :
    (Frame.packet frame).length = frame.length - ETH_HLEN := List.length_drop

/-- The `EtherType` is read from the frame. -/
theorem ofFrame_type (hlong : 60 ≤ frame.length) (time_sec time_nsec : Int) :
    htons (get16 (Pbuf.ofFrame frame time_sec time_nsec).memory 12) =
      be16 (bufOf frame 12) (bufOf frame 13) := by
  have hp := Pbuf.Holds.ofFrame frame time_sec time_nsec
  rw [htons_get16, hp.memory (by decide) (by omega), hp.memory (by decide) (by omega)]

theorem ethernet_input_delivers (hlong : 60 ≤ frame.length) (time_sec time_nsec : Int)
    (hready : Ready pcbs) {port : UdpPort} (hd : Frame.IsDatagram frame netif port.port) :
    ∃ p' k, Handed.packet? port.recv
        (ethernet_input (Pbuf.ofFrame frame time_sec time_nsec) netif pcbs).1 = some p' ∧
      p'.Holds (Frame.data frame) k ∧ p'.time_sec = time_sec ∧ p'.time_nsec = time_nsec := by
  have heth : ETH_HLEN = 14 := rfl
  have hip : IP_HLEN = 20 := rfl
  have hpacket := Frame.packet_length frame
  obtain ⟨p₁, hp₁, hholds, hsec, hnsec⟩ :=
    (Pbuf.Holds.ofFrame frame time_sec time_nsec).header (n := ETH_HLEN) (by decide) (by omega)
  obtain ⟨p', hp', hholds', hsec', hnsec'⟩ :=
    ip_input_delivers hholds (by decide) (by omega) hready hd
  refine ⟨p', _, ?_, hholds', hsec'.trans hsec, hnsec'.trans hnsec⟩
  unfold ethernet_input
  dsimp only
  rw [ofFrame_type hlong, hd.type, if_pos rfl, hp₁]
  exact hp'

theorem ethernet_input_sound (hlong : 60 ≤ frame.length) (time_sec time_nsec : Int)
    (hready : Ready pcbs) {port : UdpPort} {p' : Pbuf}
    (h : Handed.packet? port.recv
      (ethernet_input (Pbuf.ofFrame frame time_sec time_nsec) netif pcbs).1 = some p') :
    Frame.IsDatagram frame netif port.port := by
  have heth : ETH_HLEN = 14 := rfl
  have hip : IP_HLEN = 20 := rfl
  have hpacket := Frame.packet_length frame
  obtain ⟨p₁, hp₁, hholds, -, -⟩ :=
    (Pbuf.Holds.ofFrame frame time_sec time_nsec).header (n := ETH_HLEN) (by decide) (by omega)
  unfold ethernet_input at h
  dsimp only at h
  rw [ofFrame_type hlong] at h
  split at h
  · rename_i htype
    rw [hp₁] at h
    exact ip_input_sound hholds (by decide) (by omega) hready htype h
  · split at h <;> cases h

end Handling

/-! ## Runs -/

/-- A frame, as the interface is when it comes, with the time of receipt. -/
structure Arrival where
  netif : EthNetif
  frame : List UInt8
  time_sec : Int
  time_nsec : Int

/-- What becomes of it. A fragment goes to `ip_reass`, and is not followed further. -/
def Arrival.input (a : Arrival) (pcbs : List BoundPcb) : Handed × List BoundPcb :=
  ethernet_input (Pbuf.ofFrame a.frame a.time_sec a.time_nsec) a.netif pcbs

/-- The data, if the frame is a datagram to the port, with the time. -/
def Arrival.datagram (port : UdpPort) (a : Arrival) : Option (List UInt8 × Int × Int) :=
  if Frame.IsDatagram a.frame a.netif port.port then some (Frame.data a.frame, a.time_sec, a.time_nsec)
  else none

/-- What came since `netInit`, and what became of it. Meanwhile other programs do with their control
    blocks what they like, and the interface changes. No frame is shorter than Ethernet has them. -/
inductive Reception : List BoundPcb → List Arrival → List Handed → Prop where
  | netInit (others : List BoundPcb)
      (h : ∀ pcb ∈ others, ∀ port : UdpPort, pcb.local_port ≠ port.port ∧ pcb.recv ≠ some port.recv) :
      Reception (UdpPort.general.pcb :: UdpPort.event.pcb :: others) [] []
  | arrival : ∀ {pcbs arrivals handed} (a : Arrival), Reception pcbs arrivals handed →
      60 ≤ a.frame.length →
      Reception (a.input pcbs).2 (arrivals ++ [a]) (handed ++ [(a.input pcbs).1])
  | others : ∀ {pcbs pcbs' arrivals handed}, Reception pcbs arrivals handed → Ready pcbs' →
      Reception pcbs' arrivals handed

namespace Reception

variable {pcbs : List BoundPcb} {arrivals : List Arrival} {handed : List Handed}

theorem ready (h : Reception pcbs arrivals handed) : Ready pcbs := by
  induction h with
  | netInit others h =>
    intro port
    have hnone : others.filter
        (fun pcb => pcb.local_port = port.port ∨ pcb.recv = some port.recv) = [] := by
      rw [List.filter_eq_nil_iff]
      intro pcb hpcb
      simp [h pcb hpcb port]
    cases port with
    | event =>
      rw [List.filter_cons_of_neg (by decide), List.filter_cons_of_pos (by decide), hnone]
    | general =>
      rw [List.filter_cons_of_pos (by decide), List.filter_cons_of_neg (by decide), hnone]
  | arrival a _ _ ih => exact ih.perm (ethernet_input_perm _ _ _)
  | others _ hready _ => exact hready

end Reception

/-- **The PTP callbacks get the datagrams to their ports and nothing else**: in the order in which the
    frames came, each with its data, which no chain of pbufs and no padding changes, and with its
    own time, whatever else came and however the list of control blocks was reordered. -/
theorem datagrams_delivered {pcbs : List BoundPcb} {arrivals : List Arrival} {handed : List Handed}
    (h : Reception pcbs arrivals handed) (port : UdpPort) :
    (handed.filterMap (Handed.packet? port.recv)).map
        (fun p => (p.payload.flatten, p.time_sec, p.time_nsec)) =
      arrivals.filterMap (Arrival.datagram port) ∧
    ∀ p ∈ handed.filterMap (Handed.packet? port.recv), p.tot_len = p.payload.flatten.length ∧
      (p.payload.flatten ≠ [] → ∀ segment ∈ p.payload, segment ≠ []) := by
  induction h with
  | netInit others h =>
    constructor
    · rfl
    · intro p hp
      cases hp
  | others _ _ ih => exact ih
  | @arrival pcbs arrivals handed a hrest hlong ih =>
    have hready := hrest.ready
    have happend (f : Handed → Option Pbuf) (x : Handed) :
        (handed ++ [x]).filterMap f = handed.filterMap f ++ (f x).toList := by
      rw [List.filterMap_append]
      cases hf : f x with
      | none => simp [hf]
      | some p => simp [hf]
    have happend' : (arrivals ++ [a]).filterMap (Arrival.datagram port) =
        arrivals.filterMap (Arrival.datagram port) ++ (a.datagram port).toList := by
      rw [List.filterMap_append]
      cases hf : a.datagram port with
      | none => simp [hf]
      | some d => simp [hf]
    rw [happend, happend', List.map_append, ih.1]
    by_cases hd : Frame.IsDatagram a.frame a.netif port.port
    · obtain ⟨p', k, hp', hholds, hsec, hnsec⟩ :=
        ethernet_input_delivers hlong a.time_sec a.time_nsec hready hd
      have hinput : Handed.packet? port.recv (a.input pcbs).1 = some p' := hp'
      have hdatagram : a.datagram port = some (Frame.data a.frame, a.time_sec, a.time_nsec) :=
        if_pos hd
      rw [hinput, hdatagram]
      constructor
      · rw [← hholds.flatten, ← hsec, ← hnsec]
        rfl
      · intro p hp
        cases List.mem_append.mp hp with
        | inl hbefore => exact ih.2 p hbefore
        | inr hlast =>
          rw [List.mem_singleton.mp hlast, hholds.flatten]
          exact ⟨hholds.tot_len, hholds.nonempty⟩
    · have hinput : Handed.packet? port.recv (a.input pcbs).1 = none := by
        rw [Option.eq_none_iff_forall_ne_some]
        intro p' hp'
        exact hd (ethernet_input_sound hlong a.time_sec a.time_nsec hready hp')
      have hdatagram : a.datagram port = none := if_neg hd
      rw [hinput, hdatagram]
      constructor
      · rfl
      · intro p hp
        rw [Option.toList_none, List.append_nil] at hp
        exact ih.2 p hp

/-- Two octets to the event port, in a frame that is filled up to the shortest length. -/
theorem datagrams_delivered_filled :
    let netif : EthNetif := ⟨⟨0xe21fa8c0, 0x00ffffff, 0x011fa8c0⟩, #v[2, 0, 0, 1, 2, 3], true, true, true,
      [Group.addr .ptp, Group.addr .peer]⟩
    let frame : List UInt8 := [0x01, 0x00, 0x5e, 0x00, 0x01, 0x81, 2, 0, 0, 4, 5, 6, 0x08, 0x00,
      0x45, 0, 0, 30, 0, 1, 0, 0, 255, 17, 0, 0, 192, 168, 31, 225, 224, 0, 1, 129,
      1, 63, 1, 63, 0, 10, 0, 0, 7, 8] ++ List.replicate 16 0
    ∃ pcbs handed, Reception pcbs [⟨netif, frame, 5, 9⟩] handed ∧
      (handed.filterMap (Handed.packet? .netRecvEventCallback)).map
        (fun p => (p.payload.flatten, p.time_sec, p.time_nsec)) = [([7, 8], 5, 9)] := by
  intro netif frame
  have hstart : Reception [UdpPort.general.pcb, UdpPort.event.pcb] [] [] := .netInit [] (by simp)
  have hrun := hstart.arrival ⟨netif, frame, 5, 9⟩ (by decide)
  refine ⟨_, _, hrun, ?_⟩
  apply (datagrams_delivered hrun .event).1.trans
  decide

end Ptpd
