import Ptpd.World

/-! # Network layer (`dep/net.c`)

    Two bounded queues between lwIP and the stack, the copy of a packet chain
    into `msgIbuf`, and the send routine that all issuers share.
-/

namespace Ptpd

open Octets

/-! ## Packet queue -/

def netQInit (pQ : BufQueue) : BufQueue :=
  { pQ with get := 0, put := 0, count := 0 }

/-- The queue after the call, and whether the packet was stored. -/
def netQPut (pQ : BufQueue) (pbuf : Pbuf) : Bool × BufQueue :=
  -- a full queue keeps what it has: the newest packet is the one turned away
  if pQ.count ≥ PBUF_QUEUE_SIZE then (false, pQ)
  else
    (true,
      { pbuf := fun j => if j = pQ.put then pbuf else pQ.pbuf j
        get := pQ.get
        put := (pQ.put + 1) % PBUF_QUEUE_SIZE
        count := pQ.count + 1 })

def netQGet (pQ : BufQueue) : Option Pbuf × BufQueue :=
  if pQ.count = 0 then (none, pQ)
  else
    (some (pQ.pbuf pQ.get),
      { pQ with get := (pQ.get + 1) % PBUF_QUEUE_SIZE, count := pQ.count - 1 })

def netQCheck (pQ : BufQueue) : Bool := pQ.count ≠ 0

/-- The loop of `netQEmpty`: take and free `cnt` packets. -/
def netQEmptyLoop : Nat → BufQueue → List Pbuf × BufQueue
  | 0, pQ => ([], pQ)
  | cnt + 1, pQ =>
    let (p, pQ) := netQGet pQ
    let (freed, pQ) := netQEmptyLoop cnt pQ
    (p.toList ++ freed, pQ)

/-- The packets freed, and the queue after the call. -/
def netQEmpty (pQ : BufQueue) : List Pbuf × BufQueue := netQEmptyLoop pQ.count pQ

/-! ## Starting and stopping -/

/-- Only addresses and control blocks are reset, which the model leaves out. -/
def netShutdown (w : World) : World := w

/-- Whether the network came up. The queues are reset (without freeing) only
    once both UDP blocks were obtained. -/
def netInit (w : World) : Bool × World :=
  let iface := w.platform.iface.head
  -- the hardware address is taken over even if the rest fails
  let w := { w with
    platform.iface := w.platform.iface.tail
    portUuidField := iface.hwaddr }
  if iface.ip_addr = 0 then (false, w)
  else if !iface.eventPcb then (false, w)
  else if !iface.generalPcb then (false, w)
  else
    (true, { w with
      netPath.eventQ := netQInit w.netPath.eventQ
      netPath.generalQ := netQInit w.netPath.generalQ })

/-! ## Receiving -/

/-- Processing an incoming message on the event port. -/
def netRecvEventCallback (p : Pbuf) (w : World) : World :=
  let (stored, q) := netQPut w.netPath.eventQ p
  if stored then { w with netPath.eventQ := q } else w.record (.pbuf_free p)

/-- Processing an incoming message on the general port. -/
def netRecvGeneralCallback (p : Pbuf) (w : World) : World :=
  let (stored, q) := netQPut w.netPath.generalQ p
  if stored then { w with netPath.generalQ := q } else w.record (.pbuf_free p)

/-- 1 if a packet waits on either port, 0 otherwise. -/
def netSelect (w : World) : Int :=
  if netQCheck w.netPath.eventQ || netQCheck w.netPath.generalQ then 1 else 0

/-- Free every waiting packet. -/
def freeAll (freed : List Pbuf) (w : World) : World :=
  freed.foldl (fun w p => w.record (.pbuf_free p)) w

/-- Delete all waiting packets in the event queue. -/
def netEmptyEventQ (w : World) : World :=
  let (freed, q) := netQEmpty w.netPath.eventQ
  freeAll freed { w with netPath.eventQ := q }

/-- The copy loop of `netRecv`: `remaining` octets are still to be copied to
    `buf[i..]` from octet `j` of the first segment of `pcopy`. -/
def copyPayload : Nat → Nat → Nat → List (List UInt8) → Buf → Buf
  | 0, _, _, _, buf => buf
  | remaining + 1, i, j, pcopy, buf =>
    let segment := pcopy.headD []
    let buf := put8 buf i (segment.getD j 0)
    -- at the end of a segment go on with the next of the chain
    if j + 1 = segment.length then copyPayload remaining (i + 1) 0 pcopy.tail buf
    else copyPayload remaining (i + 1) (j + 1) pcopy buf

/-- What `netRecv` returns: the length, and `*time`. -/
structure Received where
  length : Int
  time : TimeInternal

/-- Copy a packet into `msgIbuf` and free it; an oversized packet is dropped
    without being freed. -/
def netRecv (p : Option Pbuf) (time : TimeInternal) (w : World) : Received × World :=
  match p with
  | none => (⟨0, time⟩, w)
  | some p =>
    -- this path returns without `pbuf_free`
    if p.tot_len > PACKET_SIZE then (⟨0, time⟩, w)
    else
      (⟨p.tot_len, ⟨p.time_sec, p.time_nsec⟩⟩,
        { w with msgIbuf := copyPayload p.tot_len 0 0 p.payload w.msgIbuf }.record (.pbuf_free p))

def netRecvEvent (time : TimeInternal) (w : World) : Received × World :=
  let (p, q) := netQGet w.netPath.eventQ
  netRecv p time { w with netPath.eventQ := q }

def netRecvGeneral (time : TimeInternal) (w : World) : Received × World :=
  let (p, q) := netQGet w.netPath.generalQ
  netRecv p time { w with netPath.generalQ := q }

/-! ## Sending -/

/-- The return value of a send, and `*time` after it. -/
structure Sent where
  ret : Int
  time : TimeInternal

/-- Every path returns `length`; only a successful send sets `*time`. -/
def netSend (port : UdpPort) (group : Group) (buf : Buf) (length : Nat) (time : TimeInternal)
    (w : World) : Sent × World :=
  let result := w.platform.tx.head
  let w := { w with platform.tx := w.platform.tx.tail }.record
    (.send port group (take length buf) result)
  match result with
  | .sent txTime => (⟨length, txTime⟩, w)
  | .allocFailed => (⟨length, time⟩, w)
  | .takeFailed => (⟨length, time⟩, w)
  | .sendFailed => (⟨length, time⟩, w)

def netSendEvent (buf : Buf) (length : Nat) (time : TimeInternal) (w : World) : Sent × World :=
  netSend .event .ptp buf length time w

def netSendPeerEvent (buf : Buf) (length : Nat) (time : TimeInternal) (w : World) :
    Sent × World :=
  netSend .event .peer buf length time w

/-- General messages are sent without a time argument. -/
def netSendGeneral (buf : Buf) (length : Nat) (w : World) : Int × World :=
  let (sent, w) := netSend .general .ptp buf length default w
  (sent.ret, w)

def netSendPeerGeneral (buf : Buf) (length : Nat) (w : World) : Int × World :=
  let (sent, w) := netSend .general .peer buf length default w
  (sent.ret, w)

end Ptpd
