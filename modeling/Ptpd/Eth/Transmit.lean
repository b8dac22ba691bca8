import Ptpd.Eth.Clock
import Ptpd.Eth.Descriptor

/-! # Transmission with timestamps (`ethernetif.c`)

    `ETH_PTPTxPkt_PrepareBuffer` gives out the buffer of the current descriptor, and
    `ETH_PTPTxPkt_ChainMode` hands the descriptor over to the DMA and polls it for
    the timestamp. The program and the DMA share the words of the descriptor: the
    program is a sequence of accesses to them, and the DMA may complete a descriptor
    between any two.

    A call that gives up polling leaves the descriptor where it is. The flag that
    the DMA sets in the end is then still set when the next frame is handed over.
-/

namespace Ptpd

open MachineInt

/-! ## Constants and initialization -/

abbrev ETH_DMATxDesc_LS : UInt32 := 0x20000000
abbrev ETH_DMATxDesc_FS : UInt32 := 0x10000000
abbrev ETH_DMATxDesc_TTSE : UInt32 := 0x02000000
abbrev ETH_DMATxDesc_ChecksumTCPUDPICMPFull : UInt32 := 0x00C00000
abbrev ETH_DMATxDesc_TCH : UInt32 := 0x00100000
abbrev ETH_DMATxDesc_TTSS : UInt32 := 0x00020000
abbrev ETH_DMATxDesc_TBS1 : UInt32 := 0x00001FFF
abbrev PHY_READ_TO : Nat := 0xFF

/-- The timestamp of the frame is in the address words. -/
def EthDesc.Stamped (d : EthDesc) : Prop := d.Status &&& ETH_DMATxDesc_TTSS ≠ 0

instance (d : EthDesc) : Decidable d.Stamped := inferInstanceAs (Decidable (_ ≠ _))

def ETH_DMAPTPTxDescChainInit (ring : EthRing) (mem : EthMem) : EthMem :=
  ring.chainInit (fun d => { d with Status := ETH_DMATxDesc_TCH ||| ETH_DMATxDesc_TTSE }) mem

def ETH_DMATxDescChecksumInsertionConfig (DMATxDesc DMATxDesc_Checksum : UInt32) (mem : EthMem) :
    EthMem :=
  Function.update mem DMATxDesc
    { mem DMATxDesc with Status := (mem DMATxDesc).Status ||| DMATxDesc_Checksum }

/-- The descriptors after `low_level_init`. -/
def txInit (ring : EthRing) : EthMem :=
  (List.range ring.BuffCount).foldl
    (fun mem i => ETH_DMATxDescChecksumInsertionConfig (ring.desc i)
      ETH_DMATxDesc_ChecksumTCPUDPICMPFull mem)
    (ETH_DMAPTPTxDescChainInit ring (fun _ => default))

/-! ## The program and the DMA -/

/-- The next access of the program to a descriptor. -/
inductive TxPc where
  | idle
  -- `ETH_PTPTxPkt_PrepareBuffer`
  | testOwn
  | restoreBuffer1Addr
  | restoreBuffer2NextDescAddr
  | currentBuffer
  -- `ETH_PTPTxPkt_ChainMode`
  | setLength
  | setSegments
  | setOwn
  | poll
  | readNsec
  | readSec
  | loadStatus
  | storeStatus
  | resetBuffer1Addr
  | resetBuffer2NextDescAddr
  | nextDesc
deriving DecidableEq

/-- A frame that is sent, and the buffer that `ETH_PTPTxPkt_PrepareBuffer` gave out for it. -/
structure TxFrame where
  id : Nat
  buffer : UInt32
deriving DecidableEq

/-- What the DMA did with a frame: where it read it, and the words it wrote back. -/
structure TxSent where
  frame : TxFrame
  Buffer1Addr : UInt32
  subsecond : UInt32
  second : UInt32
deriving DecidableEq

/-- A call of `ETH_PTPTxPkt_ChainMode` that returned `ETH_SUCCESS`. -/
structure TxReturned where
  frame : TxFrame
  timestamp : PtpTime
deriving DecidableEq

structure TxState where
  mem : EthMem
  DMATxDescToSet : UInt32
  DMAPTPTxDescToSet : UInt32
  pc : TxPc
  -- arguments and local variables
  FrameLength : UInt16
  timeout : Nat
  timestamp : PtpTime
  status : UInt32
  -- history: the present frame, whether its descriptor was still stamped when it was
  -- handed over, the frames so far, and the frame that each descriptor holds
  frame : TxFrame
  stale : Bool
  count : Nat
  holds : UInt32 → TxFrame
  sent : List TxSent
  returned : List TxReturned

namespace TxState

def desc (s : TxState) : EthDesc := s.mem s.DMATxDescToSet

def ptpDesc (s : TxState) : EthDesc := s.mem s.DMAPTPTxDescToSet

def setDesc (s : TxState) (d : EthDesc) : TxState :=
  { s with mem := Function.update s.mem s.DMATxDescToSet d }

/-- After `low_level_init`. -/
def init (ring : EthRing) : TxState where
  mem := txInit ring
  DMATxDescToSet := ring.DMADscrTab
  DMAPTPTxDescToSet := ring.DMAPTPDscrTab
  pc := .idle
  FrameLength := 0
  timeout := 0
  timestamp := ⟨0, 0⟩
  status := 0
  frame := ⟨0, 0⟩
  stale := false
  count := 0
  holds := fun _ => ⟨0, 0⟩
  sent := []
  returned := []

/-- One access of the program. The DMA is woken up after `setOwn`, if it sleeps;
    its delay is arbitrary anyway. -/
def cpu (s : TxState) : TxState :=
  match s.pc with
  | .idle => s
  | .testOwn => { s with pc := if s.desc.Owned then .idle else .restoreBuffer1Addr }
  | .restoreBuffer1Addr =>
    { s.setDesc { s.desc with Buffer1Addr := s.ptpDesc.Buffer1Addr } with
      pc := .restoreBuffer2NextDescAddr }
  | .restoreBuffer2NextDescAddr =>
    { s.setDesc { s.desc with Buffer2NextDescAddr := s.ptpDesc.Buffer2NextDescAddr } with
      pc := .currentBuffer }
  | .currentBuffer =>
    { s with frame := ⟨s.count, s.desc.Buffer1Addr⟩, count := s.count + 1, pc := .setLength }
  | .setLength =>
    { s.setDesc
        { s.desc with ControlBufferSize := s.FrameLength.toUInt32 &&& ETH_DMATxDesc_TBS1 } with
      pc := .setSegments }
  | .setSegments =>
    { s.setDesc
        { s.desc with Status := s.desc.Status ||| (ETH_DMATxDesc_LS ||| ETH_DMATxDesc_FS) } with
      pc := .setOwn }
  | .setOwn =>
    { s.setDesc { s.desc with Status := s.desc.Status ||| ETH_DMADesc_OWN } with
      pc := .poll
      timeout := 0
      stale := decide s.desc.Stamped
      holds := Function.update s.holds s.DMATxDescToSet s.frame }
  | .poll =>
    let timeout := s.timeout + 1
    if ¬ s.desc.Stamped ∧ timeout < PHY_READ_TO then { s with timeout := timeout }
    -- `ETH_ERROR`, also if the flag was set at last
    else if timeout = PHY_READ_TO then { s with timeout := timeout, pc := .idle }
    else { s with timeout := timeout, pc := .readNsec }
  | .readNsec =>
    { s with
      timestamp.tv_nsec := (stampTime s.desc.Buffer1Addr 0).tv_nsec
      pc := .readSec }
  | .readSec =>
    { s with
      timestamp.tv_sec := (stampTime 0 s.desc.Buffer2NextDescAddr).tv_sec
      pc := .loadStatus }
  | .loadStatus => { s with status := s.desc.Status, pc := .storeStatus }
  | .storeStatus =>
    { s.setDesc { s.desc with Status := s.status &&& ~~~ETH_DMATxDesc_TTSS } with
      pc := .resetBuffer1Addr }
  | .resetBuffer1Addr =>
    { s.setDesc { s.desc with Buffer1Addr := s.ptpDesc.Buffer1Addr } with
      pc := .resetBuffer2NextDescAddr }
  | .resetBuffer2NextDescAddr =>
    { s.setDesc { s.desc with Buffer2NextDescAddr := s.ptpDesc.Buffer2NextDescAddr } with
      pc := .nextDesc }
  | .nextDesc =>
    { s with
      DMATxDescToSet := s.desc.Buffer2NextDescAddr
      DMAPTPTxDescToSet := EthRing.nextPTP s.mem s.DMAPTPTxDescToSet
      returned := ⟨s.frame, s.timestamp⟩ :: s.returned
      pc := .idle }

/-- The DMA completes the descriptor at `a`. -/
def dma (s : TxState) (a subsecond second : UInt32) : TxState :=
  { s with
    mem := Function.update s.mem a
      { s.mem a with
        Status := ((s.mem a).Status ||| ETH_DMATxDesc_TTSS) &&& ~~~ETH_DMADesc_OWN
        Buffer1Addr := subsecond
        Buffer2NextDescAddr := second }
    sent := ⟨s.holds a, (s.mem a).Buffer1Addr, subsecond, second⟩ :: s.sent }

end TxState

/-- `low_level_output` is called; the program goes on; the DMA completes descriptor
    `i` with this timestamp. -/
inductive TxAct where
  | output (FrameLength : UInt16)
  | cpu
  | dma (i : Nat) (subsecond second : UInt32)

def TxState.step (ring : EthRing) (s : TxState) : TxAct → Option TxState
  | .output FrameLength =>
    if s.pc = .idle then some { s with FrameLength := FrameLength, pc := .testOwn } else none
  | .cpu => some s.cpu
  | .dma i subsecond second =>
    if i < ring.BuffCount ∧ (s.mem (ring.desc i)).Owned then
      some (s.dma (ring.desc i) subsecond second)
    else none

/-- The states of the runs in which `P` holds before each step. -/
inductive TxRun (ring : EthRing) (P : TxState → TxAct → Prop) : TxState → Prop where
  | init : TxRun ring P (TxState.init ring)
  | step {s s' : TxState} (act : TxAct) : TxRun ring P s → P s act → s.step ring act = some s' →
      TxRun ring P s'

/-! ## Integrity -/

/-- Every timestamp returned is the one written back for the frame of that call,
    every frame was read from the buffer given out for it, and no frame twice. -/
structure TxState.Intact (s : TxState) : Prop where
  genuine : ∀ r ∈ s.returned, ∃ x ∈ s.sent,
    x.frame = r.frame ∧ r.timestamp = stampTime x.subsecond x.second
  fromBuffer : ∀ x ∈ s.sent, x.Buffer1Addr = x.frame.buffer
  once : s.sent.Pairwise fun x y => x.frame.id ≠ y.frame.id

/-- A frame that was handed over with its descriptor still stamped is completed
    before the program reads the timestamp. -/
def TxState.InTime (s : TxState) (act : TxAct) : Prop :=
  match act with
  | .cpu => s.pc = .readNsec → s.stale = true → ¬ s.desc.Owned
  | .output _ | .dma _ _ _ => True

/-! ## Invariant -/

section Invariant

variable {ring : EthRing} {s : TxState} {p : Nat}

/-- Both pointers are at `p`, the helpers are as they were initialized, and the DMA
    may use no other descriptor. -/
structure TxAt (ring : EthRing) (mem : EthMem) (DMATxDescToSet DMAPTPTxDescToSet : UInt32)
    (p : Nat) : Prop where
  index : p < ring.BuffCount
  current : DMATxDescToSet = ring.desc p
  helper : DMAPTPTxDescToSet = ring.ptpDesc p
  helpers : ∀ i < ring.BuffCount, mem (ring.ptpDesc i) = ring.helper i
  others : ∀ i < ring.BuffCount, i ≠ p → ¬ (mem (ring.desc i)).Owned

/-- The frame is one of those so far and has not been sent. -/
def TxState.Unsent (s : TxState) (frame : TxFrame) : Prop :=
  frame.id < s.count ∧ ∀ x ∈ s.sent, x.frame.id ≠ frame.id

/-- The timestamp of the frame is in the address words. -/
def TxState.Completed (s : TxState) : Prop :=
  ∃ x ∈ s.sent, x.frame = s.frame ∧ s.desc.Buffer1Addr = x.subsecond ∧
    s.desc.Buffer2NextDescAddr = x.second

/-- The program has read the timestamp of the frame. -/
def TxState.Read (s : TxState) : Prop :=
  ∃ x ∈ s.sent, x.frame = s.frame ∧ s.timestamp = stampTime x.subsecond x.second

/-- What holds before each access of the program. -/
def TxState.Phase (ring : EthRing) (p : Nat) (s : TxState) : TxPc → Prop
  | .idle | .testOwn => True
  | .restoreBuffer1Addr => ¬ s.desc.Owned
  | .restoreBuffer2NextDescAddr => ¬ s.desc.Owned
  | .currentBuffer => ¬ s.desc.Owned
  | .setLength | .setSegments | .setOwn =>
    ¬ s.desc.Owned ∧ s.desc.Buffer1Addr = s.frame.buffer ∧ s.Unsent s.frame
  | .poll =>
    s.holds s.DMATxDescToSet = s.frame ∧ (s.desc.Owned ∨ s.Completed) ∧
      (s.stale = false → s.desc.Stamped → ¬ s.desc.Owned) ∧ s.timeout < PHY_READ_TO
  | .readNsec =>
    s.holds s.DMATxDescToSet = s.frame ∧ (s.desc.Owned ∨ s.Completed) ∧
      (s.stale = false → ¬ s.desc.Owned)
  | .readSec =>
    ¬ s.desc.Owned ∧ ∃ x ∈ s.sent, x.frame = s.frame ∧
      s.timestamp.tv_nsec = (stampTime x.subsecond x.second).tv_nsec ∧
      s.desc.Buffer2NextDescAddr = x.second
  | .loadStatus => ¬ s.desc.Owned ∧ s.Read
  | .storeStatus => ¬ s.desc.Owned ∧ s.Read ∧ s.status &&& ETH_DMADesc_OWN = 0
  | .resetBuffer1Addr | .resetBuffer2NextDescAddr => ¬ s.desc.Owned ∧ s.Read
  | .nextDesc =>
    ¬ s.desc.Owned ∧ s.Read ∧ s.desc.Buffer2NextDescAddr = ring.desc (ring.next p)

structure TxInv (ring : EthRing) (p : Nat) (s : TxState) : Prop where
  place : TxAt ring s.mem s.DMATxDescToSet s.DMAPTPTxDescToSet p
  intact : s.Intact
  known : ∀ x ∈ s.sent, x.frame.id < s.count
  pending : s.desc.Owned →
    s.desc.Buffer1Addr = (s.holds s.DMATxDescToSet).buffer ∧
      s.Unsent (s.holds s.DMATxDescToSet)
  phase : s.Phase ring p s.pc

theorem TxState.setDesc_desc (s : TxState) (d : EthDesc) : (s.setDesc d).desc = d :=
  Function.update_self ..

/-- Writing to the current descriptor moves nothing. -/
theorem TxAt.write {mem : EthMem} {DMATxDescToSet DMAPTPTxDescToSet : UInt32}
    (h : TxAt ring mem DMATxDescToSet DMAPTPTxDescToSet p) (d : EthDesc) :
    TxAt ring (Function.update mem DMATxDescToSet d) DMATxDescToSet DMAPTPTxDescToSet p where
  index := h.index
  current := h.current
  helper := h.helper
  helpers i hi := by
    rw [h.current, Function.update_of_ne (EthRing.desc_ne_ptpDesc h.index hi).symm]
    exact h.helpers i hi
  others i hi hne := by
    rw [h.current, Function.update_of_ne (by rw [ne_eq, EthRing.desc_inj hi h.index]; exact hne)]
    exact h.others i hi hne

/-- Nor does stepping on from a descriptor that the DMA may not use. -/
theorem TxAt.advance {mem : EthMem} {DMATxDescToSet DMAPTPTxDescToSet : UInt32}
    (h : TxAt ring mem DMATxDescToSet DMAPTPTxDescToSet p)
    (hown : ¬ (mem DMATxDescToSet).Owned)
    (hnext : (mem DMATxDescToSet).Buffer2NextDescAddr = ring.desc (ring.next p)) :
    TxAt ring mem (mem DMATxDescToSet).Buffer2NextDescAddr
      (EthRing.nextPTP mem DMAPTPTxDescToSet) (ring.next p) where
  index := EthRing.next_lt p
  current := hnext
  helper := by
    rw [h.helper]
    exact EthRing.nextPTP_eq h.index (h.helpers p h.index)
  helpers := h.helpers
  others i hi _ := by
    by_cases hip : i = p
    · rw [hip, ← h.current]
      exact hown
    · exact h.others i hi hip

theorem TxInv.ptpDesc_eq (h : TxInv ring p s) : s.ptpDesc = ring.helper p := by
  unfold TxState.ptpDesc
  rw [h.place.helper]
  exact h.place.helpers p h.place.index

/-! ## Accesses of the program -/

/-- Only the descriptors and the local variables have changed. -/
structure TxState.Kept (s s' : TxState) : Prop where
  DMATxDescToSet : s'.DMATxDescToSet = s.DMATxDescToSet
  DMAPTPTxDescToSet : s'.DMAPTPTxDescToSet = s.DMAPTPTxDescToSet
  count : s'.count = s.count
  sent : s'.sent = s.sent
  returned : s'.returned = s.returned

theorem TxState.Kept.unsent {s' : TxState} (h : s.Kept s') {frame : TxFrame}
    (hunsent : s.Unsent frame) : s'.Unsent frame := by
  unfold Unsent
  rw [h.count, h.sent]
  exact hunsent

theorem TxState.Kept.read {s' : TxState} (h : s.Kept s') (hframe : s'.frame = s.frame)
    (htimestamp : s'.timestamp = s.timestamp) (hread : s.Read) : s'.Read := by
  unfold Read
  rw [h.sent, hframe, htimestamp]
  exact hread

theorem TxState.Kept.intact {s' : TxState} (h : s.Kept s') (hintact : s.Intact) : s'.Intact := by
  obtain ⟨hgenuine, hbuffer, honce⟩ := hintact
  exact ⟨by rw [h.returned, h.sent]; exact hgenuine, by rw [h.sent]; exact hbuffer,
    by rw [h.sent]; exact honce⟩

theorem TxState.Kept.desc_eq {s' : TxState} (h : s.Kept s') {d : EthDesc}
    (hmem : s'.mem = Function.update s.mem s.DMATxDescToSet d) : s'.desc = d := by
  unfold desc
  rw [hmem, h.DMATxDescToSet, Function.update_self]

/-- An access that does not write to a descriptor. -/
theorem TxInv.read (h : TxInv ring p s) {s' : TxState} (hkept : s.Kept s') (hmem : s'.mem = s.mem)
    (hholds : s'.holds = s.holds) (hphase : s'.Phase ring p s'.pc) : TxInv ring p s' where
  place := by
    rw [hmem, hkept.DMATxDescToSet, hkept.DMAPTPTxDescToSet]
    exact h.place
  intact := hkept.intact h.intact
  known := by
    rw [hkept.sent, hkept.count]
    exact h.known
  pending hown := by
    have hdesc : s'.desc = s.desc := by
      unfold TxState.desc
      rw [hmem, hkept.DMATxDescToSet]
    rw [hdesc] at hown ⊢
    obtain ⟨hbuffer, hunsent⟩ := h.pending hown
    rw [hholds, hkept.DMATxDescToSet]
    exact ⟨hbuffer, hkept.unsent hunsent⟩
  phase := hphase

/-- A write to the current descriptor. -/
theorem TxInv.write (h : TxInv ring p s) {s' : TxState} (hkept : s.Kept s') {d : EthDesc}
    (hmem : s'.mem = Function.update s.mem s.DMATxDescToSet d)
    (hpending : d.Owned → d.Buffer1Addr = (s'.holds s.DMATxDescToSet).buffer ∧
      s.Unsent (s'.holds s.DMATxDescToSet))
    (hphase : s'.Phase ring p s'.pc) : TxInv ring p s' where
  place := by
    rw [hmem, hkept.DMATxDescToSet, hkept.DMAPTPTxDescToSet]
    exact h.place.write d
  intact := hkept.intact h.intact
  known := by
    rw [hkept.sent, hkept.count]
    exact h.known
  pending hown := by
    rw [hkept.desc_eq hmem] at hown ⊢
    obtain ⟨hbuffer, hunsent⟩ := hpending hown
    rw [hkept.DMATxDescToSet]
    exact ⟨hbuffer, hkept.unsent hunsent⟩
  phase := hphase

/-- One that leaves the descriptor with the program. -/
theorem TxInv.writeFree (h : TxInv ring p s) {s' : TxState} (hkept : s.Kept s') {d : EthDesc}
    (hmem : s'.mem = Function.update s.mem s.DMATxDescToSet d) (hfree : ¬ d.Owned)
    (hphase : ¬ s'.desc.Owned → s'.desc = d → s'.Phase ring p s'.pc) : TxInv ring p s' := by
  have hdesc := hkept.desc_eq hmem
  exact h.write hkept hmem (fun hown => absurd hown hfree) (hphase (hdesc ▸ hfree) hdesc)

theorem TxInv.testOwn (h : TxInv ring p s) (hpc : s.pc = .testOwn) : TxInv ring p s.cpu := by
  unfold TxState.cpu
  rw [hpc]
  refine h.read ⟨rfl, rfl, rfl, rfl, rfl⟩ rfl rfl ?_
  dsimp only
  by_cases hown : s.desc.Owned
  · rw [if_pos hown]
    trivial
  · rw [if_neg hown]
    exact hown

theorem TxInv.restoreBuffer1Addr (h : TxInv ring p s) (hpc : s.pc = .restoreBuffer1Addr) :
    TxInv ring p s.cpu := by
  have hfree : s.Phase ring p .restoreBuffer1Addr := hpc ▸ h.phase
  unfold TxState.cpu
  rw [hpc]
  exact h.writeFree ⟨rfl, rfl, rfl, rfl, rfl⟩ rfl hfree fun hfree' _ => hfree'

theorem TxInv.restoreBuffer2NextDescAddr (h : TxInv ring p s)
    (hpc : s.pc = .restoreBuffer2NextDescAddr) : TxInv ring p s.cpu := by
  have hfree : s.Phase ring p .restoreBuffer2NextDescAddr := hpc ▸ h.phase
  unfold TxState.cpu
  rw [hpc]
  exact h.writeFree ⟨rfl, rfl, rfl, rfl, rfl⟩ rfl hfree fun hfree' _ => hfree'

/-- The buffer is given out for a new frame. -/
theorem TxInv.currentBuffer (h : TxInv ring p s) (hpc : s.pc = .currentBuffer) :
    TxInv ring p s.cpu := by
  have hfree : s.Phase ring p .currentBuffer := hpc ▸ h.phase
  unfold TxState.cpu
  rw [hpc]
  refine ⟨h.place, ⟨h.intact.genuine, h.intact.fromBuffer, h.intact.once⟩,
    fun x hx => Nat.lt_succ_of_lt (h.known x hx), fun hown => absurd hown hfree, ?_⟩
  exact ⟨hfree, rfl, Nat.lt_succ_self _, fun x hx => (h.known x hx).ne⟩

theorem TxInv.setLength (h : TxInv ring p s) (hpc : s.pc = .setLength) : TxInv ring p s.cpu := by
  have hready : s.Phase ring p .setLength := hpc ▸ h.phase
  obtain ⟨hfree, hbuffer, hunsent⟩ := hready
  unfold TxState.cpu
  rw [hpc]
  refine h.writeFree ⟨rfl, rfl, rfl, rfl, rfl⟩ rfl hfree fun hfree' hdesc => ⟨hfree', ?_, hunsent⟩
  rw [hdesc]
  exact hbuffer

theorem TxInv.setSegments (h : TxInv ring p s) (hpc : s.pc = .setSegments) :
    TxInv ring p s.cpu := by
  have hready : s.Phase ring p .setSegments := hpc ▸ h.phase
  obtain ⟨hfree, hbuffer, hunsent⟩ := hready
  have hsegments : ¬ ({ s.desc with
      Status := s.desc.Status ||| (ETH_DMATxDesc_LS ||| ETH_DMATxDesc_FS) } : EthDesc).Owned := by
    unfold EthDesc.Owned
    rw [or_flag_other (by decide)]
    exact hfree
  unfold TxState.cpu
  rw [hpc]
  refine h.writeFree ⟨rfl, rfl, rfl, rfl, rfl⟩ rfl hsegments fun hfree' hdesc => ⟨hfree', ?_, hunsent⟩
  rw [hdesc]
  exact hbuffer

/-- The descriptor is handed over with a buffer that was given out. -/
theorem TxInv.setOwn (h : TxInv ring p s) (hpc : s.pc = .setOwn) : TxInv ring p s.cpu := by
  have hready : s.Phase ring p .setOwn := hpc ▸ h.phase
  obtain ⟨-, hbuffer, hunsent⟩ := hready
  have hown : ({ s.desc with Status := s.desc.Status ||| ETH_DMADesc_OWN } : EthDesc).Owned := by
    unfold EthDesc.Owned
    rw [or_flag_self]
    decide
  have hstamped : ({ s.desc with Status := s.desc.Status ||| ETH_DMADesc_OWN } : EthDesc).Stamped ↔
      s.desc.Stamped := by
    unfold EthDesc.Stamped
    rw [or_flag_other (by decide)]
  unfold TxState.cpu
  rw [hpc]
  refine h.write ⟨rfl, rfl, rfl, rfl, rfl⟩ rfl (fun _ => ?_) ?_
  · dsimp only
    rw [Function.update_self]
    exact ⟨hbuffer, hunsent⟩
  · refine ⟨Function.update_self .., .inl ?_, fun hfresh hstamp => ?_, Nat.zero_lt_succ _⟩
    · change (s.setDesc _).desc.Owned
      rw [s.setDesc_desc]
      exact hown
    · change (s.setDesc _).desc.Stamped at hstamp
      rw [s.setDesc_desc, hstamped] at hstamp
      exact absurd hstamp (of_decide_eq_false hfresh)

theorem TxInv.poll (h : TxInv ring p s) (hpc : s.pc = .poll) : TxInv ring p s.cpu := by
  have hpoll : s.Phase ring p .poll := hpc ▸ h.phase
  obtain ⟨hholds, hdone, hfresh, htimeout⟩ := hpoll
  unfold TxState.cpu
  rw [hpc]
  dsimp only
  split
  next hagain =>
    exact h.read ⟨rfl, rfl, rfl, rfl, rfl⟩ rfl rfl ⟨hholds, hdone, hfresh, hagain.2⟩
  next hend =>
    split
    · exact h.read ⟨rfl, rfl, rfl, rfl, rfl⟩ rfl rfl trivial
    next hbefore =>
      -- the loop has ended early: the flag is set
      have hstamped : s.desc.Stamped := by
        by_contra hnot
        exact hend ⟨hnot, by omega⟩
      exact h.read ⟨rfl, rfl, rfl, rfl, rfl⟩ rfl rfl
        ⟨hholds, hdone, fun hfresh' => hfresh hfresh' hstamped⟩

/-- The first word is read from a descriptor that the DMA has given back. -/
theorem TxInv.readNsec (h : TxInv ring p s) (hpc : s.pc = .readNsec) (htime : s.InTime .cpu) :
    TxInv ring p s.cpu := by
  have hphase : s.Phase ring p .readNsec := hpc ▸ h.phase
  obtain ⟨-, hdone, hfresh⟩ := hphase
  have hfree : ¬ s.desc.Owned := by
    cases hstale : s.stale with
    | true => exact htime hpc hstale
    | false => exact hfresh hstale
  obtain ⟨x, hx, hframe, hsubsecond, hsecond⟩ := hdone.resolve_left hfree
  unfold TxState.cpu
  rw [hpc]
  refine h.read ⟨rfl, rfl, rfl, rfl, rfl⟩ rfl rfl ⟨hfree, x, hx, hframe, ?_, hsecond⟩
  dsimp only
  rw [hsubsecond]
  rfl

theorem TxInv.readSec (h : TxInv ring p s) (hpc : s.pc = .readSec) : TxInv ring p s.cpu := by
  have hphase : s.Phase ring p .readSec := hpc ▸ h.phase
  obtain ⟨hfree, x, hx, hframe, hnsec, hsecond⟩ := hphase
  unfold TxState.cpu
  rw [hpc]
  refine h.read ⟨rfl, rfl, rfl, rfl, rfl⟩ rfl rfl ⟨hfree, x, hx, hframe, ?_⟩
  dsimp only
  rw [hnsec, hsecond]
  unfold stampTime
  dsimp only

theorem TxInv.loadStatus (h : TxInv ring p s) (hpc : s.pc = .loadStatus) : TxInv ring p s.cpu := by
  have hphase : s.Phase ring p .loadStatus := hpc ▸ h.phase
  obtain ⟨hfree, hread⟩ := hphase
  unfold TxState.cpu
  rw [hpc]
  exact h.read ⟨rfl, rfl, rfl, rfl, rfl⟩ rfl rfl ⟨hfree, hread, not_not.mp hfree⟩

theorem TxInv.storeStatus (h : TxInv ring p s) (hpc : s.pc = .storeStatus) :
    TxInv ring p s.cpu := by
  have hphase : s.Phase ring p .storeStatus := hpc ▸ h.phase
  obtain ⟨-, hread, hstatus⟩ := hphase
  have hfree : ¬ ({ s.desc with
      Status := s.status &&& ~~~ETH_DMATxDesc_TTSS } : EthDesc).Owned := by
    unfold EthDesc.Owned
    rw [clear_flag_other (by decide), not_not]
    exact hstatus
  unfold TxState.cpu
  rw [hpc]
  exact h.writeFree ⟨rfl, rfl, rfl, rfl, rfl⟩ rfl hfree fun hfree' _ => ⟨hfree', hread⟩

theorem TxInv.resetBuffer1Addr (h : TxInv ring p s) (hpc : s.pc = .resetBuffer1Addr) :
    TxInv ring p s.cpu := by
  have hphase : s.Phase ring p .resetBuffer1Addr := hpc ▸ h.phase
  obtain ⟨hfree, hread⟩ := hphase
  unfold TxState.cpu
  rw [hpc]
  exact h.writeFree ⟨rfl, rfl, rfl, rfl, rfl⟩ rfl hfree fun hfree' _ => ⟨hfree', hread⟩

theorem TxInv.resetBuffer2NextDescAddr (h : TxInv ring p s)
    (hpc : s.pc = .resetBuffer2NextDescAddr) : TxInv ring p s.cpu := by
  have hphase : s.Phase ring p .resetBuffer2NextDescAddr := hpc ▸ h.phase
  obtain ⟨hfree, hread⟩ := hphase
  unfold TxState.cpu
  rw [hpc]
  refine h.writeFree ⟨rfl, rfl, rfl, rfl, rfl⟩ rfl hfree fun hfree' hdesc => ⟨hfree', hread, ?_⟩
  rw [hdesc, h.ptpDesc_eq]
  rfl

/-- The call returns, and both pointers step on. -/
theorem TxInv.nextDesc (h : TxInv ring p s) (hpc : s.pc = .nextDesc) :
    TxInv ring (ring.next p) s.cpu := by
  have hphase : s.Phase ring p .nextDesc := hpc ▸ h.phase
  obtain ⟨hfree, hread, hnext⟩ := hphase
  have hplace := h.place.advance hfree hnext
  unfold TxState.cpu
  rw [hpc]
  refine ⟨hplace, ⟨fun r hr => ?_, h.intact.fromBuffer, h.intact.once⟩, h.known, ?_, trivial⟩
  · rcases List.mem_cons.mp hr with rfl | hr
    · exact hread
    · exact h.intact.genuine r hr
  · intro hown
    by_cases hstay : ring.next p = p
    · have hsame : s.desc.Buffer2NextDescAddr = s.DMATxDescToSet := by
        rw [hnext, hstay, h.place.current]
      change (s.mem s.desc.Buffer2NextDescAddr).Owned at hown
      rw [hsame] at hown
      exact absurd hown hfree
    · have hother := h.place.others _ (EthRing.next_lt p) hstay
      change (s.mem s.desc.Buffer2NextDescAddr).Owned at hown
      rw [hnext] at hown
      exact absurd hown hother

/-- Every access keeps the invariant, if the timestamp is read in time. -/
theorem TxInv.cpu (h : TxInv ring p s) (htime : s.InTime .cpu) : ∃ p', TxInv ring p' s.cpu := by
  cases hpc : s.pc with
  | idle =>
    refine ⟨p, ?_⟩
    unfold TxState.cpu
    rw [hpc]
    exact h
  | testOwn => exact ⟨p, h.testOwn hpc⟩
  | restoreBuffer1Addr => exact ⟨p, h.restoreBuffer1Addr hpc⟩
  | restoreBuffer2NextDescAddr => exact ⟨p, h.restoreBuffer2NextDescAddr hpc⟩
  | currentBuffer => exact ⟨p, h.currentBuffer hpc⟩
  | setLength => exact ⟨p, h.setLength hpc⟩
  | setSegments => exact ⟨p, h.setSegments hpc⟩
  | setOwn => exact ⟨p, h.setOwn hpc⟩
  | poll => exact ⟨p, h.poll hpc⟩
  | readNsec => exact ⟨p, h.readNsec hpc htime⟩
  | readSec => exact ⟨p, h.readSec hpc⟩
  | loadStatus => exact ⟨p, h.loadStatus hpc⟩
  | storeStatus => exact ⟨p, h.storeStatus hpc⟩
  | resetBuffer1Addr => exact ⟨p, h.resetBuffer1Addr hpc⟩
  | resetBuffer2NextDescAddr => exact ⟨p, h.resetBuffer2NextDescAddr hpc⟩
  | nextDesc => exact ⟨_, h.nextDesc hpc⟩

/-! ## Completion by the DMA -/

/-- The DMA completes the current descriptor, which holds a frame not yet sent. -/
theorem TxInv.dma (h : TxInv ring p s) {i : Nat} (hi : i < ring.BuffCount)
    (hown : (s.mem (ring.desc i)).Owned) (subsecond second : UInt32) :
    TxInv ring p (s.dma (ring.desc i) subsecond second) := by
  have hip : i = p := by
    by_contra hne
    exact h.place.others i hi hne hown
  rw [hip, ← h.place.current] at hown ⊢
  obtain ⟨hbuffer, hlt, hunsent⟩ := h.pending hown
  have hfree : ¬ (s.dma s.DMATxDescToSet subsecond second).desc.Owned := by
    unfold TxState.dma TxState.desc EthDesc.Owned
    dsimp only
    rw [Function.update_self, clear_flag_self]
    intro hne
    exact hne rfl
  have hcompleted : s.holds s.DMATxDescToSet = s.frame →
      (s.dma s.DMATxDescToSet subsecond second).Completed := by
    intro hframe
    refine ⟨_, List.mem_cons_self .., hframe, ?_, ?_⟩ <;>
      · unfold TxState.dma TxState.desc
        dsimp only
        rw [Function.update_self]
  refine ⟨h.place.write _, ⟨fun r hr => ?_, fun x hx => ?_, ?_⟩, fun x hx => ?_,
    fun hown' => absurd hown' hfree, ?_⟩
  · obtain ⟨x, hx, hgenuine⟩ := h.intact.genuine r hr
    exact ⟨x, List.mem_cons_of_mem _ hx, hgenuine⟩
  · rcases List.mem_cons.mp hx with rfl | hx
    · exact hbuffer
    · exact h.intact.fromBuffer x hx
  · exact List.pairwise_cons.mpr ⟨fun x hx => (hunsent x hx).symm, h.intact.once⟩
  · rcases List.mem_cons.mp hx with rfl | hx
    · exact hlt
    · exact h.known x hx
  · change (s.dma _ _ _).Phase ring p s.pc
    have hphase := h.phase
    cases hpc : s.pc with
    | idle => trivial
    | testOwn => trivial
    | poll =>
      rw [hpc] at hphase
      obtain ⟨hholds, -, -, htimeout⟩ := hphase
      exact ⟨hholds, .inr (hcompleted hholds), fun _ _ => hfree, htimeout⟩
    | readNsec =>
      rw [hpc] at hphase
      exact ⟨hphase.1, .inr (hcompleted hphase.1), fun _ => hfree⟩
    -- in between the descriptor belongs to the program
    | restoreBuffer1Addr | restoreBuffer2NextDescAddr | currentBuffer =>
      rw [hpc] at hphase
      exact absurd hown hphase
    | setLength | setSegments | setOwn | readSec | loadStatus | storeStatus | resetBuffer1Addr
    | resetBuffer2NextDescAddr | nextDesc =>
      rw [hpc] at hphase
      exact absurd hown hphase.1

/-! ## Runs -/

theorem TxInv.step (h : TxInv ring p s) {act : TxAct} (htime : s.InTime act) {s' : TxState}
    (hstep : s.step ring act = some s') : ∃ p', TxInv ring p' s' := by
  cases act with
  | output FrameLength =>
    unfold TxState.step at hstep
    dsimp only at hstep
    split at hstep
    · cases hstep
      exact ⟨p, h.read ⟨rfl, rfl, rfl, rfl, rfl⟩ rfl rfl trivial⟩
    · cases hstep
  | cpu =>
    cases hstep
    exact h.cpu htime
  | dma i subsecond second =>
    unfold TxState.step at hstep
    dsimp only at hstep
    split at hstep
    next henabled =>
      cases hstep
      exact ⟨p, h.dma henabled.1 henabled.2 subsecond second⟩
    · cases hstep

/-- The program has every descriptor, and the helpers are as they were initialized. -/
structure TxFree (ring : EthRing) (mem : EthMem) : Prop where
  descs : ∀ i < ring.BuffCount, ¬ (mem (ring.desc i)).Owned
  helpers : ∀ i < ring.BuffCount, mem (ring.ptpDesc i) = ring.helper i

theorem TxFree.chainInit (ring : EthRing) :
    TxFree ring (ETH_DMAPTPTxDescChainInit ring fun _ => default) := by
  refine ⟨fun i hi => ?_, fun i hi => EthRing.chainInit_ptpDesc _ hi⟩
  unfold ETH_DMAPTPTxDescChainInit EthDesc.Owned
  rw [EthRing.chainInit_desc _ hi]
  change ¬ (ETH_DMATxDesc_TCH ||| ETH_DMATxDesc_TTSE) &&& ETH_DMADesc_OWN ≠ 0
  decide

/-- Setting the checksum bits neither gives a descriptor to the DMA nor changes a helper. -/
theorem TxFree.checksum {mem : EthMem} (h : TxFree ring mem) {n : Nat}
    (hn : n < ring.BuffCount) :
    TxFree ring (ETH_DMATxDescChecksumInsertionConfig (ring.desc n)
      ETH_DMATxDesc_ChecksumTCPUDPICMPFull mem) := by
  unfold ETH_DMATxDescChecksumInsertionConfig
  refine ⟨fun i hi => ?_, fun i hi => ?_⟩
  · by_cases hin : i = n
    · rw [hin, Function.update_self]
      unfold EthDesc.Owned
      rw [or_flag_other (by decide)]
      exact h.descs n hn
    · rw [Function.update_of_ne (by rw [ne_eq, EthRing.desc_inj hi hn]; exact hin)]
      exact h.descs i hi
  · rw [Function.update_of_ne (EthRing.desc_ne_ptpDesc hn hi).symm]
    exact h.helpers i hi

theorem TxFree.txInit (ring : EthRing) : TxFree ring (txInit ring) := by
  have hloop : ∀ n ≤ ring.BuffCount, TxFree ring ((List.range n).foldl
      (fun mem i => ETH_DMATxDescChecksumInsertionConfig (ring.desc i)
        ETH_DMATxDesc_ChecksumTCPUDPICMPFull mem)
      (ETH_DMAPTPTxDescChainInit ring (fun _ => default))) := by
    intro n
    induction n with
    | zero => exact fun _ => .chainInit ring
    | succ n ih =>
      intro hn
      rw [List.range_succ, List.foldl_append, List.foldl_cons, List.foldl_nil]
      exact (ih (by omega)).checksum hn
  exact hloop _ le_rfl

theorem TxInv.init (ring : EthRing) : TxInv ring 0 (TxState.init ring) := by
  obtain ⟨hfree, hhelpers⟩ := TxFree.txInit ring
  refine ⟨⟨ring.count_pos, EthRing.desc_zero.symm, EthRing.ptpDesc_zero.symm, hhelpers,
    fun i hi _ => hfree i hi⟩, ⟨by simp [TxState.init], by simp [TxState.init], .nil⟩,
    by simp [TxState.init], fun hown => ?_, trivial⟩
  have hzero := hfree 0 ring.count_pos
  rw [EthRing.desc_zero] at hzero
  exact absurd hown hzero

/-- In every run in which each timestamp is read in time, they are all genuine. -/
theorem txTimestamps_intact (h : TxRun ring TxState.InTime s) : s.Intact := by
  have hinv : ∃ p, TxInv ring p s := by
    induction h with
    | init => exact ⟨0, .init ring⟩
    | step act _ htime hstep ih =>
      obtain ⟨p, hp⟩ := ih
      exact hp.step htime hstep
  obtain ⟨p, hp⟩ := hinv
  exact hp.intact

end Invariant

/-! ## Two frames -/

instance (s : TxState) (act : TxAct) : Decidable (s.InTime act) :=
  match act with
  | .cpu => inferInstanceAs (Decidable (s.pc = .readNsec → s.stale = true → ¬ s.desc.Owned))
  | .output _ => inferInstanceAs (Decidable True)
  | .dma _ _ _ => inferInstanceAs (Decidable True)

/-- The state after these steps, if `P` holds before each. -/
def TxState.follow (ring : EthRing) (P : TxState → TxAct → Prop) [∀ s act, Decidable (P s act)] :
    TxState → List TxAct → Option TxState
  | s, [] => some s
  | s, act :: acts =>
    if P s act then
      match s.step ring act with
      | some s' => follow ring P s' acts
      | none => none
    else none

theorem TxRun.follow {ring : EthRing} {P : TxState → TxAct → Prop} [∀ s act, Decidable (P s act)]
    {acts : List TxAct} {s s' : TxState} (h : TxRun ring P s)
    (hfollow : s.follow ring P acts = some s') : TxRun ring P s' := by
  induction acts generalizing s with
  | nil =>
    cases hfollow
    exact h
  | cons act acts ih =>
    unfold TxState.follow at hfollow
    split at hfollow
    next hP =>
      split at hfollow
      next hstep => exact ih (h.step act hP hstep) hfollow
      · cases hfollow
    · cases hfollow

/-- A frame is handed over, and the DMA completes it before the second poll. -/
def frameInTime : List TxAct :=
  .output 64 :: List.replicate 8 .cpu ++ .dma 0 1000 10 :: List.replicate 8 .cpu

theorem frameInTime_follow :
    ((TxState.init .sample).follow .sample TxState.InTime frameInTime).isSome = true := by
  decide +kernel

theorem txTimestamps_intact_inTime :
    (((TxState.init .sample).follow .sample TxState.InTime frameInTime).get
      frameInTime_follow).Intact :=
  txTimestamps_intact (.follow .init (Option.some_get frameInTime_follow).symm)

/-- The DMA completes a frame after 255 polls. The next one is handed over on the same
    descriptor, and `ETH_SUCCESS` is returned at once. -/
def frameTimedOut : List TxAct :=
  .output 64 :: List.replicate 262 .cpu ++ .dma 0 1000 10 :: .output 64 :: List.replicate 15 .cpu

theorem frameTimedOut_follow :
    ((TxState.init .sample).follow .sample (fun _ _ => True) frameTimedOut).map
      (fun s => (s.sent.map (·.frame.id), s.returned)) =
        some ([0], [⟨⟨1, 0x20001000⟩, stampTime 0x20001000 0x20000010⟩]) := by
  decide +kernel

/-- The second frame has a timestamp before it is sent: the two addresses. -/
theorem txTimestamps_stale :
    ¬ ∀ (ring : EthRing) (s : TxState), TxRun ring (fun _ _ => True) s → s.Intact := by
  intro h
  obtain ⟨s, hs, hpair⟩ := Option.map_eq_some_iff.mp frameTimedOut_follow
  obtain ⟨hsent, hreturned⟩ := Prod.mk.inj hpair
  have hintact := h .sample s (.follow .init hs)
  obtain ⟨x, hx, hframe, -⟩ := hintact.genuine ⟨⟨1, 0x20001000⟩, stampTime 0x20001000 0x20000010⟩
    (by rw [hreturned]; exact List.mem_singleton_self _)
  have hid : x.frame.id ∈ s.sent.map (·.frame.id) := List.mem_map_of_mem hx
  rw [hsent, List.mem_singleton, hframe] at hid
  exact absurd hid (by decide)

end Ptpd
