import Ptpd.Eth.Clock
import Ptpd.Eth.Descriptor
import Ptpd.Lib.Octets

/-! # Reception with timestamps (`ethernetif.c`)

    The DMA stores each frame in the buffer of the next descriptor and writes the
    timestamp over the addresses. `low_level_input` copies the frame, takes the
    timestamp and restores the addresses from the helper before it gives the
    descriptor back.
-/

namespace Ptpd

open MachineInt Octets

/-! ## Constants and initialization -/

abbrev ETH_DMARxDesc_FL : UInt32 := 0x3FFF0000
abbrev ETH_DMARxDesc_FrameLengthShift : UInt32 := 16
abbrev ETH_DMARxDesc_ES : UInt32 := 0x00008000
abbrev ETH_DMARxDesc_FS : UInt32 := 0x00000200
abbrev ETH_DMARxDesc_LS : UInt32 := 0x00000100
abbrev ETH_DMARxDesc_RCH : UInt32 := 0x00004000
abbrev ETH_ERROR : UInt32 := 0

def ETH_DMAPTPRxDescChainInit (ring : EthRing) (mem : EthMem) : EthMem :=
  ring.chainInit
    (fun d => { d with
      Status := ETH_DMADesc_OWN
      ControlBufferSize := ETH_DMARxDesc_RCH ||| UInt32.ofNat ETH_MAX_PACKET_SIZE }) mem

/-! ## Frames -/

/-- A whole frame without an error. -/
def goodStatus (Status : UInt32) : Prop :=
  Status &&& ETH_DMARxDesc_ES = 0 ∧ Status &&& ETH_DMARxDesc_LS ≠ 0 ∧
    Status &&& ETH_DMARxDesc_FS ≠ 0

instance : DecidablePred goodStatus := fun _ => inferInstanceAs (Decidable (_ ∧ _))

/-- What the DMA puts into a descriptor and its buffer, which it does not overrun.
    The length of a good frame counts the four octets of the CRC. -/
structure RxFrame where
  Status : UInt32
  stored : List UInt8
  subsecond : UInt32
  second : UInt32
  fits : stored.length ≤ ETH_MAX_PACKET_SIZE
  released : Status &&& ETH_DMADesc_OWN = 0
  length : goodStatus Status → 4 ≤ stored.length ∧
    ((Status &&& ETH_DMARxDesc_FL) >>> ETH_DMARxDesc_FrameLengthShift).toNat = stored.length

namespace RxFrame

/-- Without the CRC. -/
def bytes (f : RxFrame) : List UInt8 := f.stored.take (f.stored.length - 4)

def timestamp (f : RxFrame) : PtpTime := stampTime f.subsecond f.second

end RxFrame

/-! ## The program and the DMA -/

/-- `FrameTypeDef`. -/
structure FrameTypeDef where
  length : UInt32
  buffer : UInt32
  descriptor : UInt32
  PTPdescriptor : UInt32

/-- The pbuf that `low_level_input` fills: the octets of its chain, and the time. -/
structure RxPbuf where
  payload : List UInt8
  time : PtpTime
deriving DecidableEq

/-- A call of `low_level_input`: whether `pbuf_alloc` gave a pbuf, and what was returned. -/
structure RxCall where
  allocated : Bool
  result : Option RxPbuf
deriving DecidableEq

structure RxState where
  mem : EthMem
  /-- The buffer at each address. -/
  buffers : UInt32 → Buf
  DMARxDescToGet : UInt32
  DMAPTPRxDescToGet : UInt32
  /-- The descriptor that the DMA uses next. -/
  dmaDesc : UInt32
  -- history
  received : List RxFrame
  calls : List RxCall

namespace RxState

def init (ring : EthRing) (buffers : UInt32 → Buf) : RxState where
  mem := ETH_DMAPTPRxDescChainInit ring (fun _ => default)
  buffers := buffers
  DMARxDescToGet := ring.DMADscrTab
  DMAPTPRxDescToGet := ring.DMAPTPDscrTab
  dmaDesc := ring.DMADscrTab
  received := []
  calls := []

/-- The descriptor is taken out of the ring unless the DMA still has it. -/
def ETH_PTPRxPkt_ChainMode (frame : FrameTypeDef) (s : RxState) : FrameTypeDef × RxState :=
  let frame := { frame with length := 0, buffer := 0 }
  let d := s.mem s.DMARxDescToGet
  if d.Owned then ({ frame with length := ETH_ERROR }, s)
  else
    let frame :=
      if goodStatus d.Status then
        { frame with
          length := ((d.Status &&& ETH_DMARxDesc_FL) >>> ETH_DMARxDesc_FrameLengthShift) - 4
          buffer := (s.mem s.DMAPTPRxDescToGet).Buffer1Addr }
      else { frame with length := ETH_ERROR }
    ({ frame with descriptor := s.DMARxDescToGet, PTPdescriptor := s.DMAPTPRxDescToGet },
      { s with
        DMARxDescToGet := (s.mem s.DMAPTPRxDescToGet).Buffer2NextDescAddr
        DMAPTPRxDescToGet := EthRing.nextPTP s.mem s.DMAPTPRxDescToGet })

def ETH_PTPRxPkt_ChainMode_CleanUp (frame : FrameTypeDef) (s : RxState) : PtpTime × RxState :=
  let d := s.mem frame.descriptor
  let ptp := s.mem frame.PTPdescriptor
  (stampTime d.Buffer1Addr d.Buffer2NextDescAddr,
    { s with
      mem := Function.update s.mem frame.descriptor
        { d with
          Buffer1Addr := ptp.Buffer1Addr
          Buffer2NextDescAddr := ptp.Buffer2NextDescAddr } })

/-- The DMA is woken up then, if it sleeps. -/
def ETH_RxPkt_ChainMode_CleanUp (frame : FrameTypeDef) (s : RxState) : RxState :=
  { s with
    mem := Function.update s.mem frame.descriptor
      { s.mem frame.descriptor with Status := ETH_DMADesc_OWN } }

/-- `alloc`: whether `pbuf_alloc` has a pbuf of the length left. -/
def low_level_input (alloc : Bool) (s : RxState) : Option RxPbuf × RxState :=
  let (frame, s) := ETH_PTPRxPkt_ChainMode ⟨0, 0, 0, 0⟩ s
  let len := frame.length.toUInt16
  let p := if alloc then some (take len.toNat (s.buffers frame.buffer)) else none
  let (timestamp, s) := ETH_PTPRxPkt_ChainMode_CleanUp frame s
  let p := p.map fun payload => { payload := payload, time := timestamp : RxPbuf }
  (p, ETH_RxPkt_ChainMode_CleanUp frame s)

/-- `low_level_input` is called. -/
def input (alloc : Bool) (s : RxState) : RxState :=
  let (p, s) := low_level_input alloc s
  { s with calls := s.calls ++ [⟨alloc, p⟩] }

/-- The DMA receives a frame: it goes by the addresses that it finds in its descriptor. -/
def receive (f : RxFrame) (s : RxState) : RxState :=
  let d := s.mem s.dmaDesc
  { s with
    mem := Function.update s.mem s.dmaDesc
      { d with
        Status := f.Status
        Buffer1Addr := f.subsecond
        Buffer2NextDescAddr := f.second }
    buffers := Function.update s.buffers d.Buffer1Addr
      fun i => f.stored.getD i (s.buffers d.Buffer1Addr i)
    dmaDesc := d.Buffer2NextDescAddr
    received := s.received ++ [f] }

end RxState

/-- The DMA uses only descriptors that it owns, and `low_level_input` is called only
    for one that it does not. -/
inductive RxRun (ring : EthRing) : RxState → Prop where
  | init (buffers : UInt32 → Buf) : RxRun ring (RxState.init ring buffers)
  | receive {s : RxState} (f : RxFrame) : RxRun ring s → (s.mem s.dmaDesc).Owned →
      RxRun ring (s.receive f)
  | input {s : RxState} (alloc : Bool) : RxRun ring s → ¬ (s.mem s.DMARxDescToGet).Owned →
      RxRun ring (s.input alloc)

/-! ## Frames and calls -/

/-- Call by call the frames are read in the order in which they came: `payload` of
    the frame is returned, with the frame's timestamp, if there is a pbuf. The two
    pointers go together, and what the DMA owns has its addresses. -/
structure RxState.Orderly (payload : RxFrame → List UInt8) (ring : EthRing) (s : RxState) :
    Prop where
  reads : ∀ (k : Nat) (call : RxCall), s.calls[k]? = some call → ∃ f, s.received[k]? = some f ∧
    call.result = if call.allocated then some ⟨payload f, f.timestamp⟩ else none
  together : ∃ p < ring.BuffCount,
    s.DMARxDescToGet = ring.desc p ∧ s.DMAPTPRxDescToGet = ring.ptpDesc p
  restored : ∀ i < ring.BuffCount, (s.mem (ring.desc i)).Owned →
    (s.mem (ring.desc i)).Buffer1Addr = ring.buff i ∧
      (s.mem (ring.desc i)).Buffer2NextDescAddr = ring.desc (ring.next i)

/-- What is passed on of a frame: of one with an error nothing. -/
def RxFrame.payload (f : RxFrame) : List UInt8 := if goodStatus f.Status then f.bytes else []

section Spec

variable {ring : EthRing} {s : RxState} {f : RxFrame}

/-- The length that the program computes for a good frame. -/
theorem RxFrame.length_toNat (f : RxFrame) (hgood : goodStatus f.Status) :
    (((f.Status &&& ETH_DMARxDesc_FL) >>> ETH_DMARxDesc_FrameLengthShift) - 4).toUInt16.toNat =
      f.stored.length - 4 := by
  obtain ⟨hcrc, hlength⟩ := f.length hgood
  have hfour : (4 : UInt32).toNat = 4 := rfl
  have hmask : (f.Status &&& ETH_DMARxDesc_FL).toNat ≤ 0x3FFF0000 := by
    rw [UInt32.toNat_and]
    exact Nat.and_le_right
  have hbound : ((f.Status &&& ETH_DMARxDesc_FL) >>> ETH_DMARxDesc_FrameLengthShift).toNat ≤
      0x3FFF := by
    have hshift : ETH_DMARxDesc_FrameLengthShift.toNat % 32 = 16 := rfl
    rw [UInt32.toNat_shiftRight, hshift, Nat.shiftRight_eq_div_pow]
    omega
  rw [UInt32.toNat_toUInt16, UInt32.toNat_sub_of_le _ _ (by
    rw [UInt32.le_iff_toNat_le, hfour]
    omega), hfour, hlength]
  exact Nat.mod_eq_of_lt (by omega)

/-- The frame is in descriptor `p` and its buffer. -/
structure RxState.Holds (ring : EthRing) (s : RxState) (p : Nat) (f : RxFrame) : Prop where
  status : (s.mem (ring.desc p)).Status = f.Status
  subsecond : (s.mem (ring.desc p)).Buffer1Addr = f.subsecond
  second : (s.mem (ring.desc p)).Buffer2NextDescAddr = f.second
  stored : take f.stored.length (s.buffers (ring.buff p)) = f.stored

theorem RxState.Holds.not_owned {p : Nat} (h : s.Holds ring p f) :
    ¬ (s.mem (ring.desc p)).Owned := by
  unfold EthDesc.Owned
  rw [h.status, not_not]
  exact f.released

/-- What is copied from the buffer of a good frame. -/
theorem RxState.Holds.bytes {p : Nat} (h : s.Holds ring p f) :
    take (f.stored.length - 4) (s.buffers (ring.buff p)) = f.bytes := by
  have htake : take (f.stored.length - 4) (s.buffers (ring.buff p)) =
      (take f.stored.length (s.buffers (ring.buff p))).take (f.stored.length - 4) := by
    unfold take
    rw [← List.map_take, List.take_range, Nat.min_eq_left (by omega)]
  rw [htake, h.stored]
  rfl

/-- Both pointers are at `p`, whose helper is as it was initialized. -/
structure RxState.At (ring : EthRing) (s : RxState) (p : Nat) : Prop where
  index : p < ring.BuffCount
  current : s.DMARxDescToGet = ring.desc p
  ptpCurrent : s.DMAPTPRxDescToGet = ring.ptpDesc p
  helper : s.mem (ring.ptpDesc p) = ring.helper p

theorem ETH_PTPRxPkt_ChainMode_eq {p : Nat} (hat : s.At ring p) (hholds : s.Holds ring p f)
    (frame : FrameTypeDef) :
    RxState.ETH_PTPRxPkt_ChainMode frame s =
      ({ length :=
          if goodStatus f.Status then
            ((f.Status &&& ETH_DMARxDesc_FL) >>> ETH_DMARxDesc_FrameLengthShift) - 4
          else ETH_ERROR
         buffer := if goodStatus f.Status then ring.buff p else 0
         descriptor := ring.desc p
         PTPdescriptor := ring.ptpDesc p },
        { s with
          DMARxDescToGet := ring.desc (ring.next p)
          DMAPTPRxDescToGet := ring.ptpDesc (ring.next p) }) := by
  unfold RxState.ETH_PTPRxPkt_ChainMode
  dsimp only
  rw [hat.current, hat.ptpCurrent, EthRing.nextPTP_eq hat.index hat.helper, hat.helper,
    if_neg hholds.not_owned, hholds.status]
  by_cases hgood : goodStatus f.Status
  · rw [if_pos hgood, if_pos hgood, if_pos hgood]
    rfl
  · rw [if_neg hgood, if_neg hgood, if_neg hgood]
    rfl

/-- `low_level_input` passes the frame on and gives the descriptor back as it was. -/
theorem low_level_input_eq {p : Nat} (hat : s.At ring p) (hholds : s.Holds ring p f)
    (alloc : Bool) :
    RxState.low_level_input alloc s =
      (if alloc then some ⟨f.payload, f.timestamp⟩ else none,
        { s with
          mem := Function.update s.mem (ring.desc p)
            { s.mem (ring.desc p) with
              Status := ETH_DMADesc_OWN
              Buffer1Addr := ring.buff p
              Buffer2NextDescAddr := ring.desc (ring.next p) }
          DMARxDescToGet := ring.desc (ring.next p)
          DMAPTPRxDescToGet := ring.ptpDesc (ring.next p) }) := by
  have hpayload : take (if goodStatus f.Status then
        ((f.Status &&& ETH_DMARxDesc_FL) >>> ETH_DMARxDesc_FrameLengthShift) - 4
      else ETH_ERROR).toUInt16.toNat
      (s.buffers (if goodStatus f.Status then ring.buff p else 0)) = f.payload := by
    unfold RxFrame.payload
    by_cases hgood : goodStatus f.Status
    · rw [if_pos hgood, if_pos hgood, if_pos hgood, f.length_toNat hgood]
      exact hholds.bytes
    · rw [if_neg hgood, if_neg hgood, if_neg hgood]
      rfl
  have hstamp : stampTime f.subsecond f.second = f.timestamp := rfl
  unfold RxState.low_level_input
  rw [ETH_PTPRxPkt_ChainMode_eq hat hholds]
  dsimp only
  rw [hpayload]
  unfold RxState.ETH_PTPRxPkt_ChainMode_CleanUp RxState.ETH_RxPkt_ChainMode_CleanUp
  dsimp only
  rw [hat.helper, hholds.subsecond, hholds.second, hstamp, Function.update_self,
    Function.update_idem]
  cases alloc <;> rfl

end Spec

/-! ## Invariant -/

section Invariant

variable {ring : EthRing} {s : RxState}

/-- With `calls` frames read of those `received`: the descriptors in between hold the
    frames, and the DMA owns the others, with their addresses. -/
structure RxInv (ring : EthRing) (s : RxState) : Prop where
  helpers : ∀ i < ring.BuffCount, s.mem (ring.ptpDesc i) = ring.helper i
  current : s.DMARxDescToGet = ring.desc (s.calls.length % ring.BuffCount)
  ptpCurrent : s.DMAPTPRxDescToGet = ring.ptpDesc (s.calls.length % ring.BuffCount)
  dma : s.dmaDesc = ring.desc (s.received.length % ring.BuffCount)
  before : s.calls.length ≤ s.received.length
  within : s.received.length ≤ s.calls.length + ring.BuffCount
  waiting : ∀ (k : Nat) (f : RxFrame), s.calls.length ≤ k → s.received[k]? = some f →
    s.Holds ring (k % ring.BuffCount) f
  owned : ∀ k, s.received.length ≤ k → k < s.calls.length + ring.BuffCount →
    (s.mem (ring.desc (k % ring.BuffCount))).Owned ∧
      (s.mem (ring.desc (k % ring.BuffCount))).Buffer1Addr = ring.buff (k % ring.BuffCount) ∧
      (s.mem (ring.desc (k % ring.BuffCount))).Buffer2NextDescAddr =
        ring.desc ((k + 1) % ring.BuffCount)
  reads : ∀ (k : Nat) (call : RxCall), s.calls[k]? = some call → ∃ f, s.received[k]? = some f ∧
    call.result = if call.allocated then some ⟨f.payload, f.timestamp⟩ else none

theorem RxInv.place (h : RxInv ring s) : s.At ring (s.calls.length % ring.BuffCount) :=
  ⟨Nat.mod_lt _ ring.count_pos, h.current, h.ptpCurrent, h.helpers _ (Nat.mod_lt _ ring.count_pos)⟩

/-- A descriptor that the program may read holds the next frame. -/
theorem RxInv.next_frame (h : RxInv ring s) (hfree : ¬ (s.mem s.DMARxDescToGet).Owned) :
    ∃ f, s.received[s.calls.length]? = some f := by
  have hpos := ring.count_pos
  by_contra hnone
  have hlength : s.received.length ≤ s.calls.length := by
    by_contra hlt
    exact hnone ⟨_, List.getElem?_eq_getElem (by omega)⟩
  obtain ⟨hown, -⟩ := h.owned s.calls.length hlength (by omega)
  rw [← h.current] at hown
  exact hfree hown

/-- There is room in the ring for a frame that the DMA can receive. -/
theorem RxInv.room (h : RxInv ring s) (hown : (s.mem s.dmaDesc).Owned) :
    s.received.length < s.calls.length + ring.BuffCount := by
  have hpos := ring.count_pos
  by_contra hfull
  have hlength : s.received.length = s.calls.length + ring.BuffCount := by
    have hwithin := h.within
    omega
  have hlt : s.calls.length < s.received.length := by omega
  have hholds := h.waiting _ _ le_rfl (List.getElem?_eq_getElem hlt)
  rw [h.dma, hlength, Nat.add_mod_right] at hown
  exact hholds.not_owned hown

theorem take_getD (l : List UInt8) (b : Buf) : take l.length (fun i => l.getD i (b i)) = l := by
  unfold take
  apply List.ext_getElem (by simp)
  intro i _ hi
  rw [List.getElem_map, List.getElem_range, List.getD_eq_getElem _ _ hi]

/-- The frame received is in the descriptor that the DMA has used. -/
theorem RxInv.receive_holds (h : RxInv ring s) (hown : (s.mem s.dmaDesc).Owned) (f : RxFrame) :
    (s.receive f).Holds ring (s.received.length % ring.BuffCount) f := by
  obtain ⟨-, hbuffer, -⟩ := h.owned s.received.length le_rfl (h.room hown)
  rw [← h.dma] at hbuffer
  have hmem : (s.receive f).mem (ring.desc (s.received.length % ring.BuffCount)) =
      { s.mem s.dmaDesc with
        Status := f.Status, Buffer1Addr := f.subsecond, Buffer2NextDescAddr := f.second } := by
    unfold RxState.receive
    dsimp only
    rw [← h.dma, Function.update_self]
  refine ⟨by rw [hmem], by rw [hmem], by rw [hmem], ?_⟩
  unfold RxState.receive
  dsimp only
  rw [hbuffer, Function.update_self, take_getD]

/-- Another position is as it was. -/
theorem RxInv.receive_other (h : RxInv ring s) (hown : (s.mem s.dmaDesc).Owned) (f : RxFrame)
    {q : Nat} (hq : q < ring.BuffCount) (hne : q ≠ s.received.length % ring.BuffCount) :
    (s.receive f).mem (ring.desc q) = s.mem (ring.desc q) ∧
      (s.receive f).buffers (ring.buff q) = s.buffers (ring.buff q) := by
  have hmod : s.received.length % ring.BuffCount < ring.BuffCount := Nat.mod_lt _ ring.count_pos
  obtain ⟨-, hbuffer, -⟩ := h.owned s.received.length le_rfl (h.room hown)
  rw [← h.dma] at hbuffer
  unfold RxState.receive
  dsimp only
  rw [hbuffer, h.dma,
    Function.update_of_ne (by rw [ne_eq, EthRing.desc_inj hq hmod]; exact hne),
    Function.update_of_ne (by rw [ne_eq, EthRing.buff_inj hq hmod]; exact hne)]
  exact ⟨rfl, rfl⟩

theorem RxInv.receive (h : RxInv ring s) (hown : (s.mem s.dmaDesc).Owned) (f : RxFrame) :
    RxInv ring (s.receive f) := by
  have hroom := h.room hown
  have hbefore := h.before
  have hmod : ∀ k, k % ring.BuffCount < ring.BuffCount := fun k => Nat.mod_lt k ring.count_pos
  obtain ⟨-, -, hnext⟩ := h.owned s.received.length le_rfl hroom
  rw [← h.dma] at hnext
  have hlength : (s.receive f).received.length = s.received.length + 1 := by
    unfold RxState.receive
    rw [List.length_append, List.length_singleton]
  refine ⟨fun i hi => ?_, h.current, h.ptpCurrent, by rw [hlength]; exact hnext,
    by rw [hlength]; exact Nat.le_succ_of_le hbefore, by rw [hlength]; exact hroom,
    fun k g hk hg => ?_, fun k hk hlt => ?_, fun k call hcall => ?_⟩
  · unfold RxState.receive
    dsimp only
    rw [h.dma, Function.update_of_ne (EthRing.desc_ne_ptpDesc (hmod _) hi).symm]
    exact h.helpers i hi
  · -- the new frame is the last one, and the others are in other descriptors
    have hk' : s.calls.length ≤ k := hk
    have hg' : (s.received ++ [f])[k]? = some g := hg
    by_cases hold : k < s.received.length
    · rw [List.getElem?_append_left hold] at hg'
      obtain ⟨hmem, hbuffers⟩ := h.receive_other hown f (hmod k)
        (EthRing.mod_ne hold (by omega))
      obtain ⟨hstatus, hsubsecond, hsecond, hstored⟩ := h.waiting k g hk' hg'
      exact ⟨by rw [hmem]; exact hstatus, by rw [hmem]; exact hsubsecond,
        by rw [hmem]; exact hsecond, by rw [hbuffers]; exact hstored⟩
    · rw [List.getElem?_append_right (by omega), List.getElem?_singleton] at hg'
      split at hg'
      next hzero =>
        have hkeq : k = s.received.length := by omega
        rw [hkeq, ← Option.some.inj hg']
        exact h.receive_holds hown f
      · cases hg'
  · -- the descriptors behind it still belong to the DMA
    rw [hlength] at hk
    have hlt' : k < s.calls.length + ring.BuffCount := hlt
    obtain ⟨hmem, -⟩ := h.receive_other hown f (hmod k)
      (EthRing.mod_ne (show s.received.length < k by omega) (by omega)).symm
    rw [hmem]
    exact h.owned k (by omega) hlt'
  · obtain ⟨g, hg, hresult⟩ := h.reads k call hcall
    refine ⟨g, ?_, hresult⟩
    have hold := (List.getElem?_eq_some_iff.mp hg).1
    unfold RxState.receive
    dsimp only
    rw [List.getElem?_append_left hold]
    exact hg

/-- A call reads frame `f`, and both pointers step on. -/
theorem RxInv.input_eq (h : RxInv ring s) {f : RxFrame}
    (hf : s.received[s.calls.length]? = some f) (alloc : Bool) :
    s.input alloc =
      { s with
        mem := Function.update s.mem (ring.desc (s.calls.length % ring.BuffCount))
          { s.mem (ring.desc (s.calls.length % ring.BuffCount)) with
            Status := ETH_DMADesc_OWN
            Buffer1Addr := ring.buff (s.calls.length % ring.BuffCount)
            Buffer2NextDescAddr := ring.desc ((s.calls.length + 1) % ring.BuffCount) }
        DMARxDescToGet := ring.desc ((s.calls.length + 1) % ring.BuffCount)
        DMAPTPRxDescToGet := ring.ptpDesc ((s.calls.length + 1) % ring.BuffCount)
        calls := s.calls ++
          [⟨alloc, if alloc then some ⟨f.payload, f.timestamp⟩ else none⟩] } := by
  unfold RxState.input
  rw [low_level_input_eq h.place (h.waiting _ f le_rfl hf) alloc, EthRing.next_mod]

/-- The descriptor read is given back as it was. -/
theorem RxInv.input_current (h : RxInv ring s) {f : RxFrame}
    (hf : s.received[s.calls.length]? = some f) (alloc : Bool) :
    (s.input alloc).mem (ring.desc (s.calls.length % ring.BuffCount)) =
      { s.mem (ring.desc (s.calls.length % ring.BuffCount)) with
        Status := ETH_DMADesc_OWN
        Buffer1Addr := ring.buff (s.calls.length % ring.BuffCount)
        Buffer2NextDescAddr := ring.desc ((s.calls.length + 1) % ring.BuffCount) } := by
  rw [h.input_eq hf]
  exact Function.update_self ..

/-- Another position is as it was. -/
theorem RxInv.input_other (h : RxInv ring s) {f : RxFrame}
    (hf : s.received[s.calls.length]? = some f) (alloc : Bool) {q : Nat} (hq : q < ring.BuffCount)
    (hne : q ≠ s.calls.length % ring.BuffCount) :
    (s.input alloc).mem (ring.desc q) = s.mem (ring.desc q) := by
  have hmod : s.calls.length % ring.BuffCount < ring.BuffCount := Nat.mod_lt _ ring.count_pos
  rw [h.input_eq hf]
  dsimp only
  rw [Function.update_of_ne (by rw [ne_eq, EthRing.desc_inj hq hmod]; exact hne)]

theorem RxInv.input (h : RxInv ring s) (hfree : ¬ (s.mem s.DMARxDescToGet).Owned) (alloc : Bool) :
    RxInv ring (s.input alloc) := by
  obtain ⟨f, hf⟩ := h.next_frame hfree
  have hlt : s.calls.length < s.received.length := (List.getElem?_eq_some_iff.mp hf).1
  have hwithin := h.within
  have hmod : ∀ k, k % ring.BuffCount < ring.BuffCount := fun k => Nat.mod_lt k ring.count_pos
  have heq := h.input_eq hf alloc
  have hbuffers : (s.input alloc).buffers = s.buffers := by rw [heq]
  have hreceived : (s.input alloc).received = s.received := by rw [heq]
  have hcalls : (s.input alloc).calls = s.calls ++
      [⟨alloc, if alloc then some ⟨f.payload, f.timestamp⟩ else none⟩] := by rw [heq]
  have hlength : (s.input alloc).calls.length = s.calls.length + 1 := by
    rw [hcalls, List.length_append, List.length_singleton]
  refine ⟨fun i hi => ?_, ?_, ?_, ?_, ?_, ?_, fun k g hk hg => ?_, fun k hk hklt => ?_,
    fun k call hcall => ?_⟩
  · -- the software reads the PTP chain and does not write it
    rw [heq]
    dsimp only
    rw [Function.update_of_ne (EthRing.desc_ne_ptpDesc (hmod _) hi).symm]
    exact h.helpers i hi
  · rw [hlength, heq]
  · rw [hlength, heq]
  · rw [hreceived, heq]
    exact h.dma
  · rw [hlength, hreceived]
    exact hlt
  · rw [hlength, hreceived]
    omega
  · -- the frames that still wait are in other descriptors
    rw [hlength] at hk
    rw [hreceived] at hg
    have hold := (List.getElem?_eq_some_iff.mp hg).1
    have hmem := h.input_other hf alloc (hmod k) (EthRing.mod_ne
      (show s.calls.length < k by omega) (show k < s.calls.length + ring.BuffCount by omega)).symm
    obtain ⟨hstatus, hsubsecond, hsecond, hstored⟩ := h.waiting k g (by omega) hg
    rw [← hmem] at hstatus hsubsecond hsecond
    rw [← hbuffers] at hstored
    exact ⟨hstatus, hsubsecond, hsecond, hstored⟩
  · rw [hreceived] at hk
    rw [hlength] at hklt
    by_cases hend : k = s.calls.length + ring.BuffCount
    · -- the descriptor that has just been given back
      have hsame : k % ring.BuffCount = s.calls.length % ring.BuffCount := by
        rw [hend, Nat.add_mod_right]
      have hnext : (k + 1) % ring.BuffCount = (s.calls.length + 1) % ring.BuffCount := by
        rw [hend, Nat.add_right_comm, Nat.add_mod_right]
      rw [hsame, hnext, h.input_current hf]
      refine ⟨?_, rfl, rfl⟩
      change ETH_DMADesc_OWN &&& ETH_DMADesc_OWN ≠ 0
      decide
    · rw [h.input_other hf alloc (hmod k) (EthRing.mod_ne
        (show s.calls.length < k by omega) (show k < s.calls.length + ring.BuffCount by omega)).symm]
      exact h.owned k hk (by omega)
  · -- the last call reads the oldest frame that waited
    rw [hcalls] at hcall
    rw [hreceived]
    by_cases hold : k < s.calls.length
    · rw [List.getElem?_append_left hold] at hcall
      exact h.reads k call hcall
    · rw [List.getElem?_append_right (by omega), List.getElem?_singleton] at hcall
      split at hcall
      next hzero =>
        have hkeq : k = s.calls.length := by omega
        rw [hkeq, ← Option.some.inj hcall]
        exact ⟨f, hf, rfl⟩
      · cases hcall

theorem RxInv.init (ring : EthRing) (buffers : UInt32 → Buf) :
    RxInv ring (RxState.init ring buffers) := by
  have hpos := ring.count_pos
  have hzero : 0 % ring.BuffCount = 0 := Nat.zero_mod _
  have hdesc : ∀ i < ring.BuffCount, (RxState.init ring buffers).mem (ring.desc i) =
      { Status := ETH_DMADesc_OWN
        ControlBufferSize := ETH_DMARxDesc_RCH ||| UInt32.ofNat ETH_MAX_PACKET_SIZE
        Buffer1Addr := ring.buff i
        Buffer2NextDescAddr := ring.desc (ring.next i) } :=
    fun i hi => EthRing.chainInit_desc _ hi
  refine ⟨fun i hi => EthRing.chainInit_ptpDesc _ hi, ?_, ?_, ?_, le_rfl, Nat.zero_le _,
    fun _ _ _ hnone => ?_, fun k _ hk => ?_, fun _ _ hnone => ?_⟩
  · exact (hzero ▸ EthRing.desc_zero.symm :)
  · exact (hzero ▸ EthRing.ptpDesc_zero.symm :)
  · exact (hzero ▸ EthRing.desc_zero.symm :)
  · cases hnone
  · rw [hdesc _ (Nat.mod_lt k hpos), EthRing.next_mod]
    refine ⟨?_, rfl, rfl⟩
    change ETH_DMADesc_OWN &&& ETH_DMADesc_OWN ≠ 0
    decide
  · cases hnone

/-- Every position of the ring is used once in a turn. -/
theorem exists_mod {n i : Nat} (hi : i < n) (c : Nat) : ∃ k, c ≤ k ∧ k < c + n ∧ k % n = i := by
  have hc := Nat.mod_lt c (show 0 < n by omega)
  have hdiv := Nat.div_add_mod c n
  by_cases hle : c % n ≤ i
  · refine ⟨c - c % n + i, by omega, by omega, ?_⟩
    have hsub : c - c % n = n * (c / n) := by omega
    rw [hsub, Nat.mul_add_mod, Nat.mod_eq_of_lt hi]
  · refine ⟨c - c % n + n + i, by omega, by omega, ?_⟩
    have hsub : c - c % n = n * (c / n) := by omega
    rw [hsub, Nat.add_assoc, Nat.mul_add_mod, Nat.add_mod_left, Nat.mod_eq_of_lt hi]

theorem RxInv.restored (h : RxInv ring s) {i : Nat} (hi : i < ring.BuffCount)
    (hown : (s.mem (ring.desc i)).Owned) :
    (s.mem (ring.desc i)).Buffer1Addr = ring.buff i ∧
      (s.mem (ring.desc i)).Buffer2NextDescAddr = ring.desc (ring.next i) := by
  obtain ⟨k, hle, hlt, rfl⟩ := exists_mod hi s.calls.length
  by_cases hwaiting : k < s.received.length
  · have hholds := h.waiting k _ hle (List.getElem?_eq_getElem hwaiting)
    exact absurd hown hholds.not_owned
  · obtain ⟨-, hbuffer, hnext⟩ := h.owned k (by omega) hlt
    rw [EthRing.next_mod]
    exact ⟨hbuffer, hnext⟩

/-- In every run the frames are passed on in order, whichever of them have errors
    and whenever no pbuf is left; of a frame with an error an empty pbuf is. -/
theorem rxFrames_orderly (h : RxRun ring s) : s.Orderly RxFrame.payload ring := by
  have hinv : RxInv ring s := by
    induction h with
    | init buffers => exact .init ring buffers
    | receive f _ hown ih => exact ih.receive hown f
    | input alloc _ hfree ih => exact ih.input hfree alloc
  exact ⟨hinv.reads, ⟨_, hinv.place.index, hinv.place.current, hinv.place.ptpCurrent⟩,
    fun i hi hown => hinv.restored hi hown⟩

end Invariant

/-! ## One frame -/

/-- Eight octets with their CRC among them. -/
def RxFrame.good : RxFrame where
  Status := 0x00080300
  stored := [1, 2, 3, 4, 5, 6, 7, 8]
  subsecond := 1000
  second := 10
  fits := by decide
  released := by decide
  length := fun _ => by decide

/-- The same with the error summary bit. -/
def RxFrame.bad : RxFrame where
  Status := 0x00088300
  stored := [1, 2, 3, 4, 5, 6, 7, 8]
  subsecond := 1000
  second := 10
  fits := by decide
  released := by decide
  length := fun hgood => absurd hgood (by decide)

/-- A frame is received and read, and there is a pbuf for it. -/
def RxState.single (f : RxFrame) : RxState :=
  ((RxState.init .sample fun _ _ => 0).receive f).input true

theorem RxState.single_run (f : RxFrame) : RxRun .sample (RxState.single f) := by
  have hinit : RxRun .sample (RxState.init .sample fun _ _ => 0) := .init _
  have howned : ((RxState.init .sample fun _ _ => 0).mem
      (RxState.init .sample fun _ _ => 0).dmaDesc).Owned := by decide +kernel
  refine (hinit.receive f howned).input true ?_
  have hholds := (RxInv.init .sample fun _ _ => 0).receive_holds howned f
  exact hholds.not_owned

theorem rxFrames_orderly_good : (RxState.single .good).Orderly RxFrame.payload .sample :=
  rxFrames_orderly (RxState.single_run .good)

/-- Of a frame with an error none of its octets is passed on. -/
theorem rxFrames_error :
    ¬ ∀ (ring : EthRing) (s : RxState), RxRun ring s → s.Orderly RxFrame.bytes ring := by
  intro h
  have horderly := h .sample _ (RxState.single_run .bad)
  have hcalls : (RxState.single .bad).calls = [⟨true, some ⟨[], RxFrame.bad.timestamp⟩⟩] := by
    decide +kernel
  obtain ⟨f, hf, hresult⟩ := horderly.reads 0 ⟨true, some ⟨[], RxFrame.bad.timestamp⟩⟩ (by
    rw [hcalls]
    rfl)
  have hbad : f = .bad := (Option.some.inj hf).symm
  rw [hbad] at hresult
  exact absurd hresult (by decide +kernel)

end Ptpd
