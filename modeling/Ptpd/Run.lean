import Ptpd.Protocol.DoState

/-! # Runs (`dep/startup.c`, `ptpd.c`)

    What can happen to the clock from power-on: start and restart, the passage
    of time, packets handed over by lwIP, passes of the state machine, the link
    coming up, and the adjustment from another time source. A state is
    reachable if some sequence of these leads to it.
-/

namespace Ptpd

/-! ## Entry points -/

/-- The options as the stack uses them: a port that may only be a slave says so
    in its class, and no attenuation is zero or negative. -/
def RunTimeOpts.checked (rtOpts : RunTimeOpts) : RunTimeOpts :=
  let rtOpts :=
    if rtOpts.slaveOnly then
      { rtOpts with clockQuality.clockClass := DEFAULT_CLOCK_CLASS_SLAVE_ONLY }
    else rtOpts
  let rtOpts := if rtOpts.servo.ap < 1 then { rtOpts with servo.ap := 1 } else rtOpts
  if rtOpts.servo.ai < 1 then { rtOpts with servo.ai := 1 } else rtOpts

@[simp] theorem RunTimeOpts.checked_maxForeignRecords (rtOpts : RunTimeOpts) :
    rtOpts.checked.maxForeignRecords = rtOpts.maxForeignRecords := by
  unfold checked
  dsimp only
  split_ifs <;> rfl

/-- Start the stack with these options. -/
def ptpdStartup (rtOpts : RunTimeOpts) (w : World) : World :=
  toState .PTP_INITIALIZING { w with rtOpts := rtOpts.checked }

/-- The loop of `ptpd_Periodic_Handle`, at most `fuel` passes: the clock at its
    end, if that many are enough. -/
def periodicLoop : Nat → World → Option World
  | 0, _ => none
  | fuel + 1, w =>
    let w := doState w
    -- `do … while (netSelect(…) > 0)`
    if netSelect w > 0 then periodicLoop fuel w else some w

def ptpd_Periodic_Handle (fuel : Nat) (elapsed : UInt32) (w : World) : Option World :=
  periodicLoop fuel (catchAlarm elapsed w)

/-! ## Inputs -/

inductive Input where
  | ptpdStartup (rtOpts : RunTimeOpts)
  | catchAlarm (time_ms : UInt32)
  | netRecvEventCallback (p : Pbuf)
  | netRecvGeneralCallback (p : Pbuf)
  | doState
  /-- The Ethernet link comes up: `toState(PTP_LISTENING)`, whatever the state. -/
  | linkUp
  /-- Another time source sets `offsetFromMaster` and calls `updateClock`. -/
  | adjust (offset : TimeInternal)

/-- The record table has room for `maxForeignRecords` entries. -/
def RunTimeOpts.Valid (rtOpts : RunTimeOpts) : Prop :=
  rtOpts.maxForeignRecords = DEFAULT_MAX_FOREIGN_RECORDS

instance (rtOpts : RunTimeOpts) : Decidable rtOpts.Valid :=
  inferInstanceAs (Decidable (_ = _))

/-- Restarts keep to the statically allocated record table. -/
def Input.Valid : Input → Prop
  | .ptpdStartup rtOpts => rtOpts.Valid
  | _ => True

instance : DecidablePred Input.Valid := fun input => by
  unfold Input.Valid
  split <;> infer_instance

/-- One input. -/
def step : Input → World → World
  | .ptpdStartup rtOpts, w => ptpdStartup rtOpts w
  | .catchAlarm time_ms, w => catchAlarm time_ms w
  | .netRecvEventCallback p, w => netRecvEventCallback p w
  | .netRecvGeneralCallback p, w => netRecvGeneralCallback p w
  | .doState, w => doState w
  | .linkUp, w => toState .PTP_LISTENING w
  | .adjust offset, w => updateClock { w with currentDS.offsetFromMaster := offset }

/-- The worlds that some sequence of inputs leads to from power-on. -/
inductive Reachable : World → Prop where
  | init : ∀ platform rtOpts, rtOpts.Valid →
      Reachable (ptpdStartup rtOpts (World.zero platform))
  | step : ∀ {w} input, Reachable w → input.Valid → Reachable (step input w)

/-- A run given as the list of its inputs, first input first. -/
def runInputs (inputs : List Input) (w : World) : World :=
  inputs.foldl (fun w input => step input w) w

theorem Reachable.runInputs {w : World} (hw : Reachable w) {inputs : List Input}
    (hv : ∀ input ∈ inputs, input.Valid) : Reachable (runInputs inputs w) := by
  induction inputs generalizing w with
  | nil => exact hw
  | cons input inputs ih =>
    exact ih (hw.step input (hv input (by simp))) fun i hi => hv i (by simp [hi])

/-! ## Concrete runs

    A board on which every answer of the platform is always the same, its
    options, and messages with small identities, for the runs that later modules
    evaluate. -/

/-- The network comes up, every send succeeds, and the clock stands still. -/
def Platform.steady : Platform where
  rand := fun _ => 0
  time := fun _ => ⟨100, 0⟩
  ptptshr := fun _ => 0
  tx := fun _ => .sent ⟨100, 5⟩
  iface := fun _ => ⟨#v[1, 2, 3, 4, 5, 6], 1, true, true⟩
  stackTime := fun _ => ⟨0, 0⟩
  stackTimestamp := fun _ => ⟨⟨0, 0⟩, 0⟩
  netif_ip_addr := 0

/-- Another board of the kind. -/
def Platform.other : Platform :=
  { Platform.steady with iface := fun _ => ⟨#v[6, 5, 4, 3, 2, 1], 2, true, true⟩ }

/-- The defaults of the repository, with this delay mechanism. -/
def RunTimeOpts.sample (delayMechanism : DelayMechanism) : RunTimeOpts where
  announceInterval := 1
  syncInterval := 0
  clockQuality := ⟨248, 0xfe, 5000⟩
  priority1 := 248
  priority2 := 248
  domainNumber := 0
  slaveOnly := false
  currentUtcOffset := 0
  inboundLatency := ⟨0, 0⟩
  outboundLatency := ⟨0, 0⟩
  maxForeignRecords := DEFAULT_MAX_FOREIGN_RECORDS
  delayMechanism := delayMechanism
  servo := ⟨false, false, 2, 16, 6, 0⟩

/-- The board after `inputs`, which follow the first startup. -/
def sampleRun (delayMechanism : DelayMechanism) (inputs : List Input) : World :=
  runInputs inputs (ptpdStartup (.sample delayMechanism) (World.zero .steady))

theorem reachable_sampleRun (delayMechanism : DelayMechanism) {inputs : List Input}
    (hv : ∀ input ∈ inputs, input.Valid) : Reachable (sampleRun delayMechanism inputs) :=
  (Reachable.init .steady (.sample delayMechanism) rfl).runInputs hv

/-- The octets of a message of the clock `source`. -/
def sampleMessage (t : MessageType) (flag source sequenceId : UInt8) (body : List UInt8) :
    List UInt8 :=
  [0x80 ||| t.code, VERSION_PTP, 0, UInt8.ofNat (34 + body.length), 0, 0, flag, 0,
    0, 0, 0, 0, 0, 0, 0, 0, 0, 0, 0, 0, source, 0, 0, 0, 0, 0, 0, 0, 0, 1, 0, sequenceId, 0, 0] ++
    body

/-- The packet of these octets, received at `seconds`. -/
def samplePacket (octets : List UInt8) (seconds : Int) : Pbuf :=
  ⟨[octets], octets.length, seconds, 0⟩

/-- A clock announces itself with this first priority. -/
def sampleAnnounce (source priority1 sequenceId : UInt8) : Input :=
  .netRecvGeneralCallback (samplePacket (sampleMessage .ANNOUNCE 0 source sequenceId
    [0, 0, 0, 0, 0, 0, 0, 0, 0, 0, 0, 0, 0, priority1, 100, 0x20, 0, 0, 10,
      source, 0, 0, 0, 0, 0, 0, 0, 0, 0, 0xA0]) 0)

end Ptpd
