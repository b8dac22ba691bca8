import Ptpd.Usart1
import Ptpd.Lib.Octets
import Ptpd.Lib.Transducer

/-! # Messages on a serial port (`usart.c`)

    The interrupt appends octets to the buffer of the port. A poll takes the
    buffer for a message when the number of octets is what it was at the poll
    before, and a counter of eight bits tells it that there were octets at all.
-/

namespace Ptpd

open Octets Steps Transducer

/-! ## The functions -/

inductive EUsart where
  | EUsart_1
  | EUsart_2
  | EUsart_3
  | EUsart_4
  | EUsart_5
deriving DecidableEq

structure STUsart where
  name : EUsart
  receive_count : UInt16
  buff : Buf

/-- The two static variables of `receive_str_manage` for one port. -/
structure UsartStatics where
  tmp : UInt32
  state : UInt8

structure SerialPort where
  com : STUsart
  statics : EUsart → UsartStatics

/-- `USART1_IRQHandler`, and its siblings on their ports: an octet was received. -/
def USART_IRQHandler (Res : UInt8) (g : STUsart) : STUsart :=
  let g := { g with
    buff := put8 g.buff g.receive_count.toNat Res
    receive_count := g.receive_count + 1 }
  if g.receive_count.toNat ≥ USART_RECEIVE_MAX then { g with receive_count := 0 } else g

/-- The value returned, and what the callback was given. -/
structure Polled where
  tmp : Int
  message : Option (List UInt8)

/-- `func` is the callback of the port, applied to `store` and `count`. -/
def receive_str_manage (func : Buf → UInt16 → Int) (port : SerialPort) : Polled × SerialPort :=
  let com := port.com
  let s := port.statics com.name
  if com.receive_count.toUInt32 ≠ s.tmp then
    let s := { tmp := com.receive_count.toUInt32, state := s.state + 1 }
    (⟨0, none⟩, { port with statics := Function.update port.statics com.name s })
  else if s.state > 0 then
    let len := com.receive_count
    let buff := fun i => if i < len.toNat then com.buff i else 0
    let com := { com with receive_count := 0, buff := zero com.buff 0 USART_RECEIVE_MAX }
    (⟨MachineInt.wrapS 8 (func buff len), some (take len.toNat buff)⟩,
      ⟨com, Function.update port.statics com.name ⟨0, 0⟩⟩)
  else (⟨0, none⟩, port)

/-! ## Schedules -/

inductive UsartEvent where
  | receive (Res : UInt8)
  | poll

/-- One event, and the message that it delivers. -/
def serialStep (func : Buf → UInt16 → Int) (port : SerialPort) :
    UsartEvent → Option (List UInt8) × SerialPort
  | .receive Res => (none, { port with com := USART_IRQHandler Res port.com })
  | .poll => ((receive_str_manage func port).1.message, (receive_str_manage func port).2)

/-- A port at the start. -/
def SerialPort.initial (name : EUsart) (buff : Buf) : SerialPort :=
  ⟨⟨name, 0, buff⟩, fun _ => ⟨0, 0⟩⟩

/-- Framing as it is meant: the octets since the last delivery, whether one was received since
    the last poll, and the number of polls since the last delivery that saw new ones. -/
structure Framing where
  pending : List UInt8
  fresh : Bool
  busy : Nat

def Framing.initial : Framing := ⟨[], false, 0⟩

def Framing.step (t : Framing) : UsartEvent → Option (List UInt8) × Framing
  | .receive Res => (none, ⟨t.pending ++ [Res], true, t.busy⟩)
  | .poll =>
    if t.fresh then (none, ⟨t.pending, false, t.busy + 1⟩)
    else if t.pending ≠ [] then (some t.pending, .initial)
    else (none, t)

/-- Fewer than `USART_RECEIVE_MAX` octets are received between deliveries. -/
def Framing.HasRoom (t : Framing) : UsartEvent → Prop
  | .receive _ => t.pending.length + 1 < USART_RECEIVE_MAX
  | .poll => True

/-- At a poll that should deliver, the number of polls that saw the message grow is not a multiple
    of 256. -/
def Framing.Seen (t : Framing) : UsartEvent → Prop
  | .receive _ => True
  | .poll => t.fresh = false → t.pending ≠ [] → t.busy % 256 ≠ 0

/-! ## One event -/

/-- The port has what the framing has. -/
structure Frames (port : SerialPort) (t : Framing) : Prop where
  count : port.com.receive_count.toNat = t.pending.length
  room : t.pending.length < USART_RECEIVE_MAX
  octets : take t.pending.length port.com.buff = t.pending
  tmp_le : (port.statics port.com.name).tmp.toNat ≤ t.pending.length
  fresh : t.fresh = true ↔ (port.statics port.com.name).tmp.toNat ≠ t.pending.length
  state : (port.statics port.com.name).state.toNat = t.busy % 256
  idle : t.pending = [] → t.busy = 0

variable {func : Buf → UInt16 → Int} {port : SerialPort} {t : Framing}

theorem SerialPort.initial_frames (name : EUsart) (buff : Buf) :
    Frames (.initial name buff) .initial :=
  ⟨rfl, by decide, rfl, le_rfl, ⟨fun h => absurd h Bool.noConfusion, fun h => absurd rfl h⟩, rfl,
    fun _ => rfl⟩

theorem take_put8_succ (buff : Buf) (n : Nat) (Res : UInt8) :
    take (n + 1) (put8 buff n Res) = take n buff ++ [Res] := by
  unfold take
  rw [List.range_succ, List.map_append, List.map_singleton, put8_same]
  congr 1
  apply List.map_congr_left
  intro i hi
  exact put8_other buff Res (List.mem_range.mp hi).ne

theorem USART_IRQHandler_frames (h : Frames port t) (Res : UInt8)
    (hroom : t.pending.length + 1 < USART_RECEIVE_MAX) :
    Frames { port with com := USART_IRQHandler Res port.com }
      ⟨t.pending ++ [Res], true, t.busy⟩ := by
  have hmax : USART_RECEIVE_MAX = 1024 := rfl
  have hcount : (port.com.receive_count + 1).toNat = t.pending.length + 1 := by
    have hone : (1 : UInt16).toNat = 1 := rfl
    rw [UInt16.toNat_add, h.count, hone]
    exact Nat.mod_eq_of_lt (by omega)
  have hhandler : USART_IRQHandler Res port.com =
      { port.com with
        buff := put8 port.com.buff port.com.receive_count.toNat Res
        receive_count := port.com.receive_count + 1 } := by
    unfold USART_IRQHandler
    exact if_neg (by dsimp only; omega)
  have hle := h.tmp_le
  rw [hhandler]
  constructor
  · rw [List.length_append]
    exact hcount
  · rw [List.length_append]
    exact hroom
  · rw [List.length_append]
    dsimp only [List.length_singleton]
    rw [h.count, take_put8_succ, h.octets]
  · rw [List.length_append]
    dsimp only [List.length_singleton]
    omega
  · rw [List.length_append]
    dsimp only [List.length_singleton]
    constructor
    · intro _
      omega
    · intro _
      exact rfl
  · exact h.state
  · intro hnil
    exact absurd hnil (by simp)

/-- The counter compared is the number of octets. -/
theorem Frames.tmp_eq (h : Frames port t) :
    port.com.receive_count.toUInt32 = (port.statics port.com.name).tmp ↔ t.fresh = false := by
  rw [← UInt32.toNat_inj, UInt16.toNat_toUInt32, h.count, ← Bool.not_eq_true, h.fresh]
  constructor
  · intro heq hne
    exact hne heq.symm
  · intro hnot
    by_contra hne
    exact hnot fun heq => hne heq.symm

/-- A poll that finds new octets counts itself. -/
theorem receive_str_manage_fresh (h : Frames port t) (hfresh : t.fresh = true) :
    (receive_str_manage func port).1.message = none ∧
      Frames (receive_str_manage func port).2 ⟨t.pending, false, t.busy + 1⟩ := by
  have hne : port.com.receive_count.toUInt32 ≠ (port.statics port.com.name).tmp := by
    intro heq
    rw [h.tmp_eq.mp heq] at hfresh
    cases hfresh
  have hpoll : receive_str_manage func port = (⟨0, none⟩, { port with
      statics := Function.update port.statics port.com.name
        ⟨port.com.receive_count.toUInt32, (port.statics port.com.name).state + 1⟩ }) :=
    if_pos hne
  rw [hpoll]
  refine ⟨rfl, ?_⟩
  constructor
  · exact h.count
  · exact h.room
  · exact h.octets
  · dsimp only
    rw [Function.update_self, UInt16.toNat_toUInt32, h.count]
  · dsimp only
    rw [Function.update_self, UInt16.toNat_toUInt32, h.count]
    constructor
    · intro hf
      exact absurd hf Bool.noConfusion
    · intro hne
      exact absurd rfl hne
  · dsimp only
    rw [Function.update_self, UInt8.toNat_add, h.state]
    exact Nat.mod_add_mod _ _ _
  · intro hnil
    -- the octet that was new is still pending
    have hlength : t.pending.length = 0 := by
      have hempty : t.pending = [] := hnil
      rw [hempty]
      rfl
    have hle := h.tmp_le
    exact absurd (h.fresh.mp hfresh) (by omega)

/-- A poll that finds none delivers if the counter is not 0. -/
theorem receive_str_manage_seen (h : Frames port t) (hfresh : t.fresh = false)
    (hstate : t.busy % 256 ≠ 0) :
    (receive_str_manage func port).1.message = some t.pending ∧
      Frames (receive_str_manage func port).2 .initial := by
  have heq : ¬ port.com.receive_count.toUInt32 ≠ (port.statics port.com.name).tmp :=
    not_not.mpr (h.tmp_eq.mpr hfresh)
  have hpos : (port.statics port.com.name).state > 0 := by
    rw [gt_iff_lt, UInt8.lt_iff_toNat_lt, h.state]
    exact Nat.pos_of_ne_zero hstate
  have hpoll : receive_str_manage func port =
      (⟨MachineInt.wrapS 8 (func (fun i => if i < port.com.receive_count.toNat then port.com.buff i
          else 0) port.com.receive_count),
        some (take port.com.receive_count.toNat
          (fun i => if i < port.com.receive_count.toNat then port.com.buff i else 0))⟩,
        ⟨{ port.com with receive_count := 0, buff := zero port.com.buff 0 USART_RECEIVE_MAX },
          Function.update port.statics port.com.name ⟨0, 0⟩⟩) := by
    unfold receive_str_manage
    rw [if_neg heq]
    exact if_pos hpos
  rw [hpoll]
  constructor
  · dsimp only
    rw [← h.octets, h.count]
    congr 1
    apply take_eq_take.mpr
    intro i hi
    exact if_pos hi
  · constructor
    · rfl
    · decide
    · rfl
    · dsimp only
      rw [Function.update_self]
      exact Nat.le_refl 0
    · dsimp only
      rw [Function.update_self]
      decide
    · dsimp only
      rw [Function.update_self]
      rfl
    · intro _
      exact rfl

/-- A poll that finds none does nothing if the counter is 0. -/
theorem receive_str_manage_unseen (h : Frames port t) (hfresh : t.fresh = false)
    (hstate : t.busy % 256 = 0) : receive_str_manage func port = (⟨0, none⟩, port) := by
  have heq : ¬ port.com.receive_count.toUInt32 ≠ (port.statics port.com.name).tmp :=
    not_not.mpr (h.tmp_eq.mpr hfresh)
  have hzero : ¬ (port.statics port.com.name).state > 0 := by
    rw [gt_iff_lt, UInt8.lt_iff_toNat_lt, h.state, hstate]
    exact Nat.lt_irrefl 0
  unfold receive_str_manage
  rw [if_neg heq]
  exact if_neg hzero

theorem serialStep_frames (h : Frames port t) (event : UsartEvent) (hroom : t.HasRoom event)
    (hseen : t.Seen event) :
    (serialStep func port event).1 = (t.step event).1 ∧
      Frames (serialStep func port event).2 (t.step event).2 := by
  cases event with
  | receive Res => exact ⟨rfl, USART_IRQHandler_frames h Res hroom⟩
  | poll =>
    unfold serialStep Framing.step
    by_cases hfresh : t.fresh = true
    · rw [if_pos hfresh]
      exact receive_str_manage_fresh h hfresh
    · have hquiet : t.fresh = false := Bool.eq_false_iff.mpr hfresh
      rw [if_neg hfresh]
      by_cases hpending : t.pending ≠ []
      · rw [if_pos hpending]
        exact receive_str_manage_seen h hquiet (hseen hquiet hpending)
      · rw [if_neg hpending]
        have hidle := h.idle (not_not.mp hpending)
        dsimp only
        rw [receive_str_manage_unseen h hquiet (by rw [hidle])]
        exact ⟨rfl, h⟩

theorem serialStep_misses (h : Frames port t) (event : UsartEvent) (hseen : ¬ t.Seen event) :
    (serialStep func port event).1 ≠ (t.step event).1 := by
  cases event with
  | receive Res => exact absurd trivial hseen
  | poll =>
    have hcase : t.fresh = false ∧ t.pending ≠ [] ∧ t.busy % 256 = 0 := by
      by_contra hnot
      refine hseen fun hfresh hpending hzero => hnot ⟨hfresh, hpending, hzero⟩
    obtain ⟨hfresh, hpending, hzero⟩ := hcase
    unfold serialStep Framing.step
    rw [if_neg (by rw [hfresh]; exact Bool.noConfusion), if_pos hpending]
    dsimp only
    rw [receive_str_manage_unseen h hfresh hzero]
    exact (Option.some_ne_none _).symm

/-! ## Runs -/

/-- **Messages are framed as they are meant** if no message grows at a multiple of 256 polls. -/
theorem serial_framing_iff (func : Buf → UInt16 → Int) (name : EUsart) (buff : Buf)
    {events : List UsartEvent}
    (hroom : EachStep (fun t e => (Framing.step t e).2) Framing.HasRoom .initial events) :
    (run (serialStep func) (.initial name buff) events).1 =
        (run Framing.step .initial events).1 ↔
      EachStep (fun t e => (Framing.step t e).2) Framing.Seen .initial events :=
  answers_eq_iff (fun _ _ event h hroom hseen => serialStep_frames h event hroom hseen)
    (fun _ _ event h _ hseen => serialStep_misses h event hseen)
    (SerialPort.initial_frames name buff) hroom

instance (t : Framing) (event : UsartEvent) : Decidable (t.HasRoom event) :=
  match event with
  | .receive _ => inferInstanceAs (Decidable (_ < _))
  | .poll => .isTrue trivial

/-- Two octets, a poll, one more, and two polls. -/
def shortMessage : List UsartEvent := [.receive 65, .receive 66, .poll, .receive 67, .poll, .poll]

theorem serial_framing_shortMessage :
    (run (serialStep fun _ _ => 0) (.initial .EUsart_1 fun _ => 0) shortMessage).1 =
        (run Framing.step .initial shortMessage).1 ↔
      EachStep (fun t e => (Framing.step t e).2) Framing.Seen .initial shortMessage :=
  serial_framing_iff _ _ _ (by decide)

/-- An octet before each of 256 polls, and one poll more. -/
def longMessage : List UsartEvent :=
  (List.replicate 256 [UsartEvent.receive 65, UsartEvent.poll]).flatten ++ [UsartEvent.poll]

/-- The last poll delivers nothing. -/
theorem longMessage_missed :
    ¬ ∀ (func : Buf → UInt16 → Int) (name : EUsart) (buff : Buf) (events : List UsartEvent),
      EachStep (fun t e => (Framing.step t e).2) Framing.HasRoom .initial events →
      (run (serialStep func) (.initial name buff) events).1 = (run Framing.step .initial events).1 := by
  intro h
  have heq := h (fun _ _ => 0) .EUsart_1 (fun _ => 0) longMessage (by decide +kernel)
  have hlast := congrArg (fun answers => answers.getLast?.map Option.isSome) heq
  exact absurd hlast (by decide +kernel)

end Ptpd
