import Ptpd.Monitor
import Ptpd.SntpReplies

/-! # The SNTP server (`udp_echoserver.c`)

    A datagram is copied out of its pbuf chain into a buffer of fixed size and then
    answered, entered into the table of clients or left alone, by its mode. The
    server's pcb is connected to the sender for as long as that takes.
-/

namespace Ptpd

open Octets

/-! ## The functions -/

def UDP_DEMO_RX_BUFSIZE : Nat := 2048

/-- `sizeof(struct sntp_s)`. -/
def SNTP_MSG_LENGTH : Nat := 48

/-- A pbuf of a chain. -/
structure UdpSegment where
  payload : List UInt8
  length_lt : payload.length < 65536

def UdpSegment.len (q : UdpSegment) : UInt16 := .ofNat q.payload.length

/-- The octets of a chain. -/
def UdpSegment.octets (p : List UdpSegment) : List UInt8 := (p.map (·.payload)).flatten

/-- What `struct udp_pcb` is used for. -/
structure UdpPcb where
  local_ip : UInt32
  remote_ip : UInt32
  remote_port : UInt16
  connected : Bool
deriving DecidableEq

/-- Of a pcb that is bound already. -/
def udp_connect (ipaddr : UInt32) (port : UInt16) (pcb : UdpPcb) : UdpPcb :=
  { pcb with remote_ip := ipaddr, remote_port := port, connected := true }

def udp_disconnect (pcb : UdpPcb) : UdpPcb :=
  { pcb with remote_ip := 0, remote_port := 0, connected := false }

/-- A message that went out. -/
structure UdpSent where
  ipaddr : UInt32
  port : UInt16
  sntp_msg : SntpMsg
deriving DecidableEq

structure SntpServer where
  upcb : UdpPcb
  /-- The memory from `udp_demo_recvbuf` on. -/
  recvbuf : Buf
  monitor : SntpMonitor
  sent : List UdpSent

/-- A call of the callback: its parameters, and what the functions read that it calls. -/
structure SntpCall where
  /-- Empty if `p` is `NULL`. -/
  p : List UdpSegment
  addr : UInt32
  port : UInt16
  sync_state : UInt8
  recv_t : TimeFp
  /-- The system time of the answer. -/
  xmt_t : TimeFp
  /-- `pbuf_alloc` has a pbuf left. -/
  alloc : Bool
  PTPTSHR : UInt32

/-- `n` octets from the beginning of `src`. -/
def memcpy (buf : Buf) (off : Nat) (src : List UInt8) (n : Nat) : Buf :=
  fun i => if off ≤ i ∧ i < off + n then src.getD (i - off) 0 else buf i

/-- The loop over the chain, with the buffer and `data_len`. -/
def copyChain : List UdpSegment → Buf → UInt32 → Buf × UInt32
  | [], buf, data_len => (buf, data_len)
  | q :: rest, buf, data_len =>
    let room := UInt32.ofNat UDP_DEMO_RX_BUFSIZE - data_len
    let buf :=
      if q.len.toUInt32 > room then memcpy buf data_len.toNat q.payload room.toNat
      else memcpy buf data_len.toNat q.payload q.len.toNat
    let data_len := data_len + q.len.toUInt32
    if data_len > UInt32.ofNat UDP_DEMO_RX_BUFSIZE then (buf, data_len)
    else copyChain rest buf data_len

/-- `struct sntp_s` at the beginning of the buffer. -/
def SntpMsg.load (buf : Buf) : SntpMsg where
  li_vn_md := buf 0
  stratum := buf 1
  poll := buf 2
  percision := buf 3
  root_delay := get32 buf 4
  root_disp := get32 buf 8
  ref_id := get32 buf 12
  ref_time := ⟨get32 buf 16, get32 buf 20⟩
  orig := ⟨get32 buf 24, get32 buf 28⟩
  recv := ⟨get32 buf 32, get32 buf 36⟩
  xmt := ⟨get32 buf 40, get32 buf 44⟩

namespace SntpServer

variable (disp : TimeFp → UInt64)

def disconnect (s : SntpServer) : SntpServer := { s with upcb := udp_disconnect s.upcb }

/-- The answer goes where the pcb is connected to. -/
def sntp_packet_senddata (call : SntpCall) (xmt : TimeFp) (s : SntpServer) : SntpServer :=
  if call.alloc then
    { s with sent := s.sent ++ [⟨s.upcb.remote_ip, s.upcb.remote_port,
        Ptpd.sntp_packet_senddata call.sync_state s.upcb.local_ip (some xmt) call.recv_t
          call.xmt_t⟩] }
  else s

def sntp_unpack_control (call : SntpCall) (msg : SntpMsg) (s : SntpServer) : SntpServer :=
  { s with monitor :=
      Ptpd.sntp_unpack_control disp ⟨s.upcb.remote_ip, msg, call.PTPTSHR⟩ s.monitor }

def sntp_server_receive_callback (call : SntpCall) (s : SntpServer) : SntpServer :=
  if call.p = [] then s
  else
    let (recvbuf, data_len) := copyChain call.p (zero s.recvbuf 0 UDP_DEMO_RX_BUFSIZE) 0
    let s := { s with recvbuf := recvbuf, upcb := udp_connect call.addr call.port s.upcb }
    let sntp_msg := SntpMsg.load recvbuf
    if data_len < UInt32.ofNat SNTP_MSG_LENGTH ∨ MSG_MODE sntp_msg.li_vn_md ≠ MODE_CLIENT then
      s.disconnect
    else if MSG_MODE sntp_msg.li_vn_md = MODE_CLIENT then
      (s.sntp_packet_senddata call sntp_msg.xmt).disconnect
    else if MSG_MODE sntp_msg.li_vn_md = MODE_CONTROL then
      (s.sntp_unpack_control disp call sntp_msg).disconnect
    else s

end SntpServer

/-! ## What is claimed -/

/-- The datagram, and the message in it. -/
def SntpCall.octets (call : SntpCall) : List UInt8 := UdpSegment.octets call.p

def SntpCall.msg (call : SntpCall) : SntpMsg := .load fun i => call.octets.getD i 0

def SntpCall.mode (call : SntpCall) : UInt8 := MSG_MODE call.msg.li_vn_md

/-- From `s` to `s'` a datagram is treated according to its mode. -/
structure SntpServer.Served (disp : TimeFp → UInt64) (call : SntpCall) (s s' : SntpServer) :
    Prop where
  /-- A client is answered, if there is a pbuf for it. -/
  client : call.mode = MODE_CLIENT → s'.monitor = s.monitor ∧
    s'.sent = s.sent ++ if call.alloc then [⟨call.addr, call.port,
      Ptpd.sntp_packet_senddata call.sync_state s.upcb.local_ip (some call.msg.xmt) call.recv_t
        call.xmt_t⟩] else []
  /-- The sender of a control message is recorded. -/
  control : call.mode = MODE_CONTROL → s'.sent = s.sent ∧
    s'.monitor = Ptpd.sntp_unpack_control disp ⟨call.addr, call.msg, call.PTPTSHR⟩ s.monitor
  other : call.mode ≠ MODE_CLIENT → call.mode ≠ MODE_CONTROL →
    s'.sent = s.sent ∧ s'.monitor = s.monitor
  /-- Nothing behind the buffer is written. -/
  within : ∀ i ≥ UDP_DEMO_RX_BUFSIZE, s'.recvbuf i = s.recvbuf i
  /-- The pcb is unconnected again. -/
  disconnected : s'.upcb = udp_disconnect s.upcb

/-! ## The copy -/

theorem memcpy_other (buf : Buf) {off i n : Nat} (src : List UInt8) (h : i < off ∨ off + n ≤ i) :
    memcpy buf off src n i = buf i :=
  if_neg (by omega)

theorem memcpy_same (buf : Buf) {off i n : Nat} (src : List UInt8) (hlo : off ≤ i)
    (hhi : i < off + n) : memcpy buf off src n i = src.getD (i - off) 0 :=
  if_pos ⟨hlo, hhi⟩

theorem UdpSegment.len_toNat (q : UdpSegment) : q.len.toUInt32.toNat = q.payload.length := by
  rw [UInt16.toNat_toUInt32]
  exact UInt16.toNat_ofNat_of_lt' q.length_lt

theorem UdpSegment.octets_cons (q : UdpSegment) (rest : List UdpSegment) :
    octets (q :: rest) = q.payload ++ octets rest := rfl

/-- What the loop leaves behind, of `done` octets before it. -/
structure Copied (octets : List UInt8) (done : Nat) (buf buf' : Buf) (data_len : UInt32) :
    Prop where
  same : ∀ i, i < done ∨ UDP_DEMO_RX_BUFSIZE ≤ i → buf' i = buf i
  copied : ∀ i, done ≤ i → i < done + octets.length → i < UDP_DEMO_RX_BUFSIZE →
    buf' i = octets.getD (i - done) 0
  /-- The length is that of the datagram as far as it matters. -/
  long : UDP_DEMO_RX_BUFSIZE < data_len.toNat ∧ data_len.toNat ≤ done + octets.length ∨
    data_len.toNat = done + octets.length

/-- One segment, all of it or what there is room for. -/
theorem memcpy_segment (q : UdpSegment) (buf : Buf) {data_len : UInt32}
    (h : data_len.toNat ≤ UDP_DEMO_RX_BUFSIZE) :
    (if q.len.toUInt32 > UInt32.ofNat UDP_DEMO_RX_BUFSIZE - data_len then
      memcpy buf data_len.toNat q.payload (UInt32.ofNat UDP_DEMO_RX_BUFSIZE - data_len).toNat
    else memcpy buf data_len.toNat q.payload q.len.toNat) =
      memcpy buf data_len.toNat q.payload
        (min q.payload.length (UDP_DEMO_RX_BUFSIZE - data_len.toNat)) := by
  have hlen := q.len_toNat
  have hlen16 : q.len.toNat = q.payload.length := UInt16.toNat_ofNat_of_lt' q.length_lt
  have hsize : (UInt32.ofNat UDP_DEMO_RX_BUFSIZE).toNat = UDP_DEMO_RX_BUFSIZE := rfl
  have hroom : (UInt32.ofNat UDP_DEMO_RX_BUFSIZE - data_len).toNat =
      UDP_DEMO_RX_BUFSIZE - data_len.toNat := by
    rw [UInt32.toNat_sub_of_le _ _ (by rw [UInt32.le_iff_toNat_le, hsize]; exact h), hsize]
  by_cases hcut : q.len.toUInt32 > UInt32.ofNat UDP_DEMO_RX_BUFSIZE - data_len
  · have hlt := UInt32.lt_iff_toNat_lt.mp hcut
    rw [if_pos hcut, hroom, min_eq_right (by omega)]
  · have hle : q.len.toUInt32.toNat ≤ (UInt32.ofNat UDP_DEMO_RX_BUFSIZE - data_len).toNat :=
      Nat.le_of_not_lt fun hlt => hcut (UInt32.lt_iff_toNat_lt.mpr hlt)
    rw [if_neg hcut, hlen16, min_eq_left (by omega)]

/-- The first segment, where nothing else can follow or matters. -/
theorem copied_segment (q : UdpSegment) (rest : List UdpSegment) (buf : Buf) {done i : Nat}
    (hlo : done ≤ i) (hhi : i < done + q.payload.length) (hin : i < UDP_DEMO_RX_BUFSIZE) :
    memcpy buf done q.payload (min q.payload.length (UDP_DEMO_RX_BUFSIZE - done)) i =
      (UdpSegment.octets (q :: rest)).getD (i - done) 0 := by
  rw [memcpy_same _ _ hlo (by omega), UdpSegment.octets_cons]
  exact (List.getD_append _ _ _ _ (by omega)).symm

/-- What the rest of the chain leaves behind a first segment that fits. -/
theorem Copied.cons {q : UdpSegment} {rest : List UdpSegment} {buf buf' : Buf} {done : Nat}
    {data_len : UInt32} (hdone : done ≤ UDP_DEMO_RX_BUFSIZE)
    (h : Copied (UdpSegment.octets rest) (done + q.payload.length)
      (memcpy buf done q.payload (min q.payload.length (UDP_DEMO_RX_BUFSIZE - done))) buf' data_len) :
    Copied (UdpSegment.octets (q :: rest)) done buf buf' data_len := by
  have hlength : (UdpSegment.octets (q :: rest)).length =
      q.payload.length + (UdpSegment.octets rest).length := by
    rw [UdpSegment.octets_cons, List.length_append]
  obtain ⟨hsame, hcopied, hlong⟩ := h
  refine ⟨fun i hi => ?_, fun i hlo hhi hin => ?_, by omega⟩
  · rw [hsame i (by omega)]
    exact memcpy_other _ _ (by omega)
  · by_cases hcut : i < done + q.payload.length
    · rw [hsame i (.inl hcut), copied_segment q rest buf hlo hcut hin]
    · rw [hcopied i (by omega) (by omega) hin, ← Nat.sub_sub, UdpSegment.octets_cons]
      exact (List.getD_append_right _ _ _ _ (by omega)).symm

theorem copyChain_copied (p : List UdpSegment) (buf : Buf) (data_len : UInt32)
    (h : data_len.toNat ≤ UDP_DEMO_RX_BUFSIZE) :
    Copied (UdpSegment.octets p) data_len.toNat buf (copyChain p buf data_len).1
      (copyChain p buf data_len).2 := by
  induction p generalizing buf data_len with
  | nil =>
    refine ⟨fun _ _ => rfl, fun i hlo hhi => ?_, .inr rfl⟩
    have hempty : i < data_len.toNat + 0 := hhi
    omega
  | cons q rest ih =>
    have hq := q.length_lt
    have hbound : UDP_DEMO_RX_BUFSIZE = 2048 := rfl
    have hnext : (data_len + q.len.toUInt32).toNat = data_len.toNat + q.payload.length := by
      rw [UInt32.toNat_add, q.len_toNat]
      exact Nat.mod_eq_of_lt (by omega)
    rw [copyChain, memcpy_segment q buf h]
    by_cases hlast : data_len + q.len.toUInt32 > UInt32.ofNat UDP_DEMO_RX_BUFSIZE
    · -- the buffer is full, whatever follows
      have hfull : UDP_DEMO_RX_BUFSIZE < data_len.toNat + q.payload.length := by
        rw [← hnext]
        exact UInt32.lt_iff_toNat_lt.mp hlast
      have hlength : q.payload.length ≤ (UdpSegment.octets (q :: rest)).length := by
        rw [UdpSegment.octets_cons, List.length_append]
        exact Nat.le_add_right _ _
      rw [if_pos hlast]
      dsimp only
      exact ⟨fun i hi => memcpy_other _ _ (by omega),
        fun i hlo _ hin => copied_segment q rest buf hlo (by omega) hin,
        .inl ⟨by rw [hnext]; exact hfull, by omega⟩⟩
    · have hroom : (data_len + q.len.toUInt32).toNat ≤ UDP_DEMO_RX_BUFSIZE :=
        Nat.le_of_not_lt fun hlt => hlast (UInt32.lt_iff_toNat_lt.mpr hlt)
      have hrest := ih (memcpy buf data_len.toNat q.payload
        (min q.payload.length (UDP_DEMO_RX_BUFSIZE - data_len.toNat))) _ hroom
      rw [if_neg hlast]
      rw [hnext] at hrest
      exact hrest.cons h

/-! ## One datagram -/

/-- What is decided on is the datagram. -/
structure SntpCall.Received (call : SntpCall) (recvbuf buf : Buf) (data_len : UInt32) : Prop where
  length : ¬ data_len < UInt32.ofNat SNTP_MSG_LENGTH
  msg : SntpMsg.load buf = call.msg
  within : ∀ i ≥ UDP_DEMO_RX_BUFSIZE, buf i = recvbuf i

theorem SntpMsg.load_congr {a b : Buf} (h : ∀ i < SNTP_MSG_LENGTH, a i = b i) :
    SntpMsg.load a = SntpMsg.load b := by
  have hword : ∀ off, off + 4 ≤ 48 → get32 a off = get32 b off := fun off hoff =>
    get32_congr fun i _ hi => h i (Nat.lt_of_lt_of_le hi hoff)
  unfold SntpMsg.load
  rw [h 0 (by decide), h 1 (by decide), h 2 (by decide), h 3 (by decide), hword 4 (by omega),
    hword 8 (by omega), hword 12 (by omega), hword 16 (by omega), hword 20 (by omega),
    hword 24 (by omega), hword 28 (by omega), hword 32 (by omega), hword 36 (by omega),
    hword 40 (by omega), hword 44 (by omega)]

variable {call : SntpCall}

theorem SntpCall.received (h : SNTP_MSG_LENGTH ≤ call.octets.length) (recvbuf : Buf) :
    call.Received recvbuf (copyChain call.p (zero recvbuf 0 UDP_DEMO_RX_BUFSIZE) 0).1
      (copyChain call.p (zero recvbuf 0 UDP_DEMO_RX_BUFSIZE) 0).2 := by
  have hzero : (0 : UInt32).toNat = 0 := rfl
  have hsize : (UInt32.ofNat SNTP_MSG_LENGTH).toNat = SNTP_MSG_LENGTH := rfl
  have hmsg : SNTP_MSG_LENGTH = 48 := rfl
  have hbuf : UDP_DEMO_RX_BUFSIZE = 2048 := rfl
  obtain ⟨hsame, hcopied, hlong⟩ := copyChain_copied call.p (zero recvbuf 0 UDP_DEMO_RX_BUFSIZE) 0
    (Nat.zero_le _)
  rw [hzero] at hcopied hlong
  change SNTP_MSG_LENGTH ≤ (UdpSegment.octets call.p).length at h
  refine ⟨fun hshort => ?_, SntpMsg.load_congr fun i hi => ?_, fun i hi => ?_⟩
  · have hlt := UInt32.lt_iff_toNat_lt.mp hshort
    rw [hsize] at hlt
    omega
  · exact hcopied i (Nat.zero_le i) (by omega) (by omega)
  · rw [hsame i (.inr hi)]
    exact zero_other _ (.inr (by omega))

namespace SntpServer

variable (disp : TimeFp → UInt64)

theorem callback_eq (h : SNTP_MSG_LENGTH ≤ call.octets.length) (s : SntpServer) :
    ∃ buf : Buf, (∀ i ≥ UDP_DEMO_RX_BUFSIZE, buf i = s.recvbuf i) ∧
      sntp_server_receive_callback disp call s =
        if call.mode = MODE_CLIENT then
          (sntp_packet_senddata call call.msg.xmt { s with
            recvbuf := buf, upcb := udp_connect call.addr call.port s.upcb }).disconnect
        else { s with recvbuf := buf, upcb := udp_disconnect s.upcb } := by
  obtain ⟨hlength, hmsg, hwithin⟩ := call.received h s.recvbuf
  have hsome : call.p ≠ [] := by
    intro hnull
    unfold SntpCall.octets at h
    rw [hnull] at h
    exact absurd h (by decide)
  refine ⟨_, hwithin, ?_⟩
  unfold sntp_server_receive_callback
  rw [if_neg hsome]
  dsimp only
  rw [hmsg]
  -- the length is sufficient, so only the mode is left of the test
  by_cases hmode : call.mode = MODE_CLIENT
  · have hclient : MSG_MODE call.msg.li_vn_md = MODE_CLIENT := hmode
    rw [if_neg (by rintro (hshort | hne) <;> contradiction), if_pos hclient, if_pos hmode]
  · rw [if_pos (.inr hmode), if_neg hmode]
    rfl

/-- The answers are those of the exchange. -/
theorem callback_sent (h : SNTP_MSG_LENGTH ≤ call.octets.length) (halloc : call.alloc = true)
    (s : SntpServer) :
    (sntp_server_receive_callback disp call s).sent = s.sent ++
      (Ptpd.sntp_server_receive_callback call.sync_state s.upcb.local_ip call.recv_t call.xmt_t
        call.msg).toList.map (⟨call.addr, call.port, ·⟩) := by
  obtain ⟨buf, -, heq⟩ := callback_eq disp h s
  rw [heq]
  unfold Ptpd.sntp_server_receive_callback sntp_packet_senddata
  by_cases hmode : call.mode = MODE_CLIENT
  · have hrequest : ¬ MSG_MODE call.msg.li_vn_md ≠ MODE_CLIENT := not_not.mpr hmode
    rw [if_pos hmode, if_pos halloc, if_neg hrequest]
    rfl
  · have hother : MSG_MODE call.msg.li_vn_md ≠ MODE_CLIENT := hmode
    rw [if_neg hmode, if_pos hother]
    exact (List.append_nil _).symm

/-- A table in which the entry of `addr` is older than the call. -/
def aged (call : SntpCall) : SntpMonitor := ⟨fun _ => ⟨call.addr, call.PTPTSHR + 1, default⟩, 0⟩

/-- A control message makes the entry newer. -/
theorem unpack_control_aged (call : SntpCall) :
    Ptpd.sntp_unpack_control disp ⟨call.addr, call.msg, call.PTPTSHR⟩ (aged call) ≠ aged call := by
  intro heq
  have htime : ((Ptpd.sntp_unpack_control disp ⟨call.addr, call.msg, call.PTPTSHR⟩
      (aged call)).SntpMonitorl 0).Time = call.PTPTSHR := by
    unfold Ptpd.sntp_unpack_control unpackControl aged SntpControlCall.entry
    simp [List.range_succ_eq_map]
  rw [heq] at htime
  have hsucc : call.PTPTSHR + 1 = call.PTPTSHR := htime
  rw [← UInt32.toNat_inj, UInt32.toNat_add] at hsucc
  have hlt := call.PTPTSHR.toNat_lt
  have hone : (1 : UInt32).toNat = 1 := rfl
  omega

end SntpServer

/-- **Datagrams are treated according to their mode**, except control messages, which are never
    taken. -/
theorem sntp_server_served_iff (disp : TimeFp → UInt64) (call : SntpCall)
    (hlong : SNTP_MSG_LENGTH ≤ call.octets.length) :
    (∀ s : SntpServer, s.Served disp call (s.sntp_server_receive_callback disp call)) ↔
      call.mode ≠ MODE_CONTROL := by
  constructor
  · intro h hcontrol
    -- a table in which an entry of the sender would show
    let s : SntpServer := ⟨⟨0, 0, 0, false⟩, fun _ => 0, SntpServer.aged call, []⟩
    obtain ⟨buf, -, heq⟩ := SntpServer.callback_eq disp hlong s
    have hentered := (h s).control hcontrol
    rw [heq, if_neg (by rw [hcontrol]; decide)] at hentered
    exact SntpServer.unpack_control_aged disp call hentered.2.symm
  · intro hmode s
    obtain ⟨buf, hwithin, heq⟩ := SntpServer.callback_eq disp hlong s
    rw [heq]
    by_cases hclient : call.mode = MODE_CLIENT
    · rw [if_pos hclient]
      unfold SntpServer.sntp_packet_senddata
      by_cases halloc : call.alloc
      · rw [if_pos halloc]
        refine ⟨fun _ => ⟨rfl, ?_⟩, fun hcontrol => absurd hcontrol hmode,
          fun hother => absurd hclient hother, hwithin, rfl⟩
        rw [if_pos halloc]
        rfl
      · rw [if_neg halloc]
        refine ⟨fun _ => ⟨rfl, ?_⟩, fun hcontrol => absurd hcontrol hmode,
          fun hother => absurd hclient hother, hwithin, rfl⟩
        rw [if_neg halloc]
        exact (List.append_nil _).symm
    · rw [if_neg hclient]
      exact ⟨fun h => absurd h hclient, fun h => absurd h hmode, fun _ _ => ⟨rfl, rfl⟩, hwithin, rfl⟩

/-- A datagram of 48 octets in one pbuf, with this first octet. -/
def sntpDatagram (li_vn_md : UInt8) : SntpCall where
  p := [⟨li_vn_md :: List.replicate 47 0, by simp⟩]
  addr := 0x0B1FA8C0
  port := 123
  sync_state := 0
  recv_t := ⟨0, 0⟩
  xmt_t := ⟨0, 1⟩
  alloc := true
  PTPTSHR := 0

/-- Nothing received yet. -/
def SntpServer.idle : SntpServer := ⟨⟨0, 0, 0, false⟩, fun _ => 0, ⟨fun _ => ⟨0, 0, default⟩, 0⟩, []⟩

theorem sntp_server_served_client :
    SntpServer.idle.Served (fun _ => 0) (sntpDatagram 0x1B)
      (SntpServer.idle.sntp_server_receive_callback (fun _ => 0) (sntpDatagram 0x1B)) :=
  (sntp_server_served_iff _ _ (by decide)).mpr (by decide) _

/-- A control message of version 3 leaves no trace. -/
theorem sntp_server_ignores_control : ¬ ∀ (disp : TimeFp → UInt64) (call : SntpCall),
    SNTP_MSG_LENGTH ≤ call.octets.length → ∀ s : SntpServer,
      s.Served disp call (s.sntp_server_receive_callback disp call) := by
  intro h
  have hlong : SNTP_MSG_LENGTH ≤ (sntpDatagram 0x1E).octets.length := by decide
  let s : SntpServer := ⟨⟨0, 0, 0, false⟩, fun _ => 0, SntpServer.aged (sntpDatagram 0x1E), []⟩
  obtain ⟨buf, -, heq⟩ := SntpServer.callback_eq (fun _ => 0) hlong s
  have hentered := (h (fun _ => 0) (sntpDatagram 0x1E) hlong s).control (by decide)
  rw [heq, if_neg (by decide)] at hentered
  exact SntpServer.unpack_control_aged _ _ hentered.2.symm

end Ptpd
