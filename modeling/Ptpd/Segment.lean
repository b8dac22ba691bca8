import Ptpd.Hearing
import Ptpd.Mastership
import Ptpd.Provenance

/-! # A segment of clocks

    Any number of clocks on one segment. They take their inputs in any order, and
    the network may lose, repeat, delay and reorder what they send, cut it into
    chains of any kind, and stamp it with any time of receipt; it makes up
    nothing. Whatever a clock then takes for a master is one that was a master and
    said so, and every offset comes from the time that this master sent.
-/

namespace Ptpd

open PortState Octets History Wire

variable {ι : Type*} {s : ι → World} {w : World}

/-- A clock as a party on the wire: it has said what it has sent, and hears the
    octets of the packet that lwIP hands over. -/
def clock : Party World Input (List UInt8) where
  step := Ptpd.step
  allowed := fun input => input.Valid ∧ ∀ p ∈ input.packet?, p.WellChained
  hears := fun input => {bytes | ∃ p ∈ input.packet?, p.payload.flatten = bytes}
  said := fun w => {bytes | ∃ x ∈ w.log, ∃ port group time,
    x.call = .send port group bytes (.sent time)}

/-- Clocks that were started, and what they have come to since. -/
structure Segment [DecidableEq ι] (s : ι → World) : Prop where
  ran : ∃ s₀ : ι → World, Run clock s₀ s ∧
    ∀ i, ∃ platform rtOpts, rtOpts.Valid ∧ s₀ i = ptpdStartup rtOpts (World.zero platform)

theorem clock_remembers : clock.Remembers := by
  rintro input w ⟨hv, -⟩ bytes ⟨x, hx, hsent⟩
  obtain ⟨new, hlog⟩ := (step_run input hv w).log_eq
  have hlog' : (step input w).log = new ++ w.log := hlog
  refine ⟨x, ?_, hsent⟩
  change x ∈ (step input w).log
  rw [hlog']
  exact List.mem_append_right new hx

theorem Segment.each [DecidableEq ι] (hs : Segment s) :
    ∀ i, Reachable (s i) ∧ (s i).HasHeard (wire clock s) := by
  obtain ⟨s₀, hrun, hstarted⟩ := hs.ran
  refine Run.each (I := fun K w => Reachable w ∧ w.HasHeard K) clock_remembers ?_ ?_ hrun ?_
  · rintro K K' w hK ⟨hw, hheard⟩
    exact ⟨hw, hheard.mono hK⟩
  · rintro K input w ⟨hv, hchained⟩ hhears ⟨hw, hheard⟩
    refine ⟨hw.step input hv, step_hasHeard hheard ?_⟩
    intro p hp
    exact ⟨hchained p hp, hhears ⟨p, hp, rfl⟩⟩
  · intro i
    obtain ⟨platform, rtOpts, hv, hi⟩ := hstarted i
    rw [hi]
    refine ⟨.init platform rtOpts hv, ?_⟩
    have hquiet : ∀ p ∈ (Input.ptpdStartup rtOpts).packet?,
        p.WellChained ∧ p.payload.flatten ∈ wire clock s₀ := by simp [Input.packet?]
    exact step_hasHeard (hasHeard_zero platform) hquiet

/-! ## What is sent -/

/-- The entry of a message that this port may send in its own name. -/
structure LogEntry.Genuine (y : LogEntry) : Prop where
  sender : ∀ t buf, y.HandsOver t buf →
    (msgUnpackHeader buf).sourcePortIdentity = y.before.portDS.portIdentity
  master : ∀ t buf, y.HandsOver t buf → t.leads → y.before.portDS.portState = PTP_MASTER
  length : ∀ port group bytes result, y.call = .send port group bytes result → 44 ≤ bytes.length

/-- The entry of a message of a master: the port may lead, and announces itself. -/
structure LogEntry.Masterly (y : LogEntry) : Prop where
  mayLead : ∀ t buf, y.HandsOver t buf → t.leads → y.before.isSlaveOnly = false
  own : ∀ buf, y.HandsOver .ANNOUNCE buf → (msgUnpackAnnounce buf).IsOwn y.before

theorem Reachable.genuine (hw : Reachable w) : ∀ y ∈ w.log, y.Genuine := by
  have hevery : Every (fun y _ => y.Genuine) w.log := by
    apply hw.every_sent
    · intro x hx older
      constructor
      · intro t buf hsends
        rw [LogEntry.HandsOver, hx] at hsends
        cases hsends.1
      · intro t buf hsends
        rw [LogEntry.HandsOver, hx] at hsends
        cases hsends.1
      · intro port group bytes result hcall
        rw [LogEntry.message?, hcall] at hx
        cases hx
    · intro w m hheaded hmay hafter
      constructor
      · intro t buf hsends
        obtain ⟨hbuf, -⟩ := (emitted_sends m w).mp hsends
        rw [hbuf, emitted_header]
        exact hheaded.portIdentity
      · intro t buf hsends ht
        obtain ⟨-, htype⟩ := (emitted_sends m w).mp hsends
        rw [htype] at ht
        cases m <;> first | exact hmay | cases ht
      · intro port group bytes result hcall
        obtain rfl : take m.length (m.pack w.toPtpClock w.msgObuf) = bytes := by
          injection hcall
        rw [take_length]
        exact m.length_ge
  intro y hy
  obtain ⟨newer, older, hlog⟩ := List.append_of_mem hy
  exact every_iff.mp hevery newer y older hlog

theorem Reachable.masterly (hw : Reachable w) : ∀ y ∈ w.log, y.Masterly := by
  refine hw.forall_sent ?_ ?_
  · intro x hx
    constructor
    · intro t buf hsends ht
      exact absurd ht (hx t buf hsends)
    · intro buf hsends
      exact absurd rfl (hx .ANNOUNCE buf hsends)
  · intro w port group m hlead hrec
    have hlen : 34 ≤ m.length := le_trans (by decide) m.length_ge
    have hslave : w.isSlaveOnly = false := by
      by_contra hslave
      exact (hlead.masked (by simpa using hslave)).1 hrec
    constructor
    · intro t buf _ _
      exact hslave
    · intro buf hsends
      obtain ⟨rfl, hm⟩ := (issued_sends port group m w hlen).mp hsends
      cases m with
      | announce =>
        obtain ⟨hid, hquality, hp1, hp2, hsteps⟩ := (hlead.own hrec).isOwn w.msgObuf
        exact ⟨hid, hquality, hp1, hp2, hsteps⟩
      | _ => cases hm

/-! ## What is heard -/

/-- A message at hand that is long enough is the one that was sent. -/
theorem heard_sent {c : PtpClock} (h : c.AtHandIn (wire clock s)) :
    ∃ j, ∃ y ∈ (s j).log, ∃ bytes port group time, y.call = .send port group bytes (.sent time) ∧
      c.msgIbufLength = bytes.length ∧ take bytes.length c.msgIbuf = bytes := by
  obtain ⟨bytes, ⟨j, y, hy, port, group, time, hcall⟩, hlength, htake⟩ := h
  exact ⟨j, y, hy, bytes, port, group, time, hcall, hlength, htake⟩

theorem sends_of_call {y : LogEntry} {port : UdpPort} {group : Group} {bytes : List UInt8}
    {time : TimeInternal} (hcall : y.call = .send port group bytes (.sent time)) {t : MessageType}
    (ht : MessageType.ofCode (msgUnpackHeader (bufOf bytes)).messageType = some t) :
    y.Sends t (bufOf bytes) := by
  refine ⟨⟨?_, ht⟩, port, group, bytes, time, hcall⟩
  rw [LogEntry.message?, hcall]

/-- The Announce was sent by a master that describes itself. -/
structure LogEntry.Announces (y : LogEntry) (header : MsgHeader) (announce : MsgAnnounce) :
    Prop where
  sends : ∃ buf, y.Sends .ANNOUNCE buf ∧ header = msgUnpackHeader buf ∧
    announce = msgUnpackAnnounce buf
  master : y.before.portDS.portState = PTP_MASTER
  mayLead : y.before.isSlaveOnly = false
  sender : header.sourcePortIdentity = y.before.portDS.portIdentity
  own : announce.IsOwn y.before

theorem Segment.accepted [DecidableEq ι] (hs : Segment s) {i : ι} {header : MsgHeader}
    {announce : MsgAnnounce} (h : Accepted (s i).log header announce) :
    ∃ j, ∃ y ∈ (s j).log, y.Announces header announce := by
  obtain ⟨x, hx, hcall⟩ := h
  have hheard := (hs.each i).2.log x hx
  rw [LogEntry.HeardIn, hcall] at hheard
  obtain ⟨hheader, hannounce, htype, hlength, hhand, -⟩ := hheard
  obtain ⟨j, y, hy, bytes, port, group, time, hsent, hbytes, htake⟩ := heard_sent hhand
  have hlong : 64 ≤ bytes.length := by
    rw [hbytes] at hlength
    exact Int.ofNat_le.mp hlength
  have hheader' : header = msgUnpackHeader (bufOf bytes) := by
    rw [hheader, ← msgUnpackHeader_bufOf _ (show 34 ≤ bytes.length by omega), htake]
  have hannounce' : announce = msgUnpackAnnounce (bufOf bytes) := by
    rw [hannounce, ← msgUnpackAnnounce_bufOf _ hlong, htake]
  have hsends : y.Sends .ANNOUNCE (bufOf bytes) := sends_of_call hsent (hheader' ▸ htype)
  have hhands := hsends.1
  have hgenuine := (hs.each j).1.genuine y hy
  have hmasterly := (hs.each j).1.masterly y hy
  refine ⟨j, y, hy, ⟨_, hsends, hheader', hannounce'⟩, ?_, ?_, ?_, ?_⟩
  · exact hgenuine.master _ _ hhands rfl
  · exact hmasterly.mayLead _ _ hhands rfl
  · rw [hheader']
    exact hgenuine.sender _ _ hhands
  · rw [hannounce']
    exact hmasterly.own _ hhands

/-- **Nobody follows a master that is none**: whatever the order of events, every Announce that a
    clock accepts was sent by a clock in MASTER, which may be one and describes itself, and the
    parent of a clock that follows is such a master. -/
theorem parents_are_masters [DecidableEq ι] (hs : Segment s) (i : ι) :
    (∀ header announce, Accepted (s i).log header announce →
      ∃ j, ∃ y ∈ (s j).log, y.Announces header announce) ∧
    ((s i).portDS.portState.follows → ∃ j, ∃ y ∈ (s j).log, ∃ header announce,
      y.Announces header announce ∧ Accepted (s i).log header announce ∧
        (s i).parentDS.parentPortIdentity = y.before.portDS.portIdentity) := by
  refine ⟨fun header announce => hs.accepted, fun hfollows => ?_⟩
  obtain ⟨hsourced, -⟩ := (hs.each i).1.traced
  obtain ⟨header, announce, haccepted, hparent⟩ :=
    hsourced.parent (hsourced.consistent.recommends hfollows)
  obtain ⟨j, y, hy, hannounces⟩ := hs.accepted haccepted
  exact ⟨j, y, hy, header, announce, hannounces, haccepted, hparent.trans hannounces.sender⟩

/-! ## Offsets -/

/-- The time that the offset is computed from is the one in the message of `y`, which has left.
    A Follow_Up stands right behind its Sync, and gives the time at which that left, if it did. -/
inductive LogEntry.TimedBy (u y : LogEntry) (older : List LogEntry) : Prop where
  | sync (buf : Buf) (ingress stack correctionField : TimeInternal) (hsends : y.Sends .SYNC buf)
      (hcall : u.call = .updateOffset ingress
        (toInternalTime stack (msgUnpackSync buf).originTimestamp) correctionField)
  | followUp (buf sync : Buf) (ingress stack correctionField : TimeInternal) (z : LogEntry)
      (rest : List LogEntry) (hsends : y.Sends .FOLLOW_UP buf)
      (hcall : u.call = .updateOffset ingress
        (toInternalTime stack (msgUnpackFollowUp buf).preciseOriginTimestamp) correctionField)
      (holder : older = z :: rest) (hsync : z.HandsOver .SYNC sync)
      (hsequence : (msgUnpackHeader buf).sequenceId = (msgUnpackHeader sync).sequenceId)
      (htime : ∀ port group bytes tx, z.call = .send port group bytes (.sent tx) →
        ∃ stale, (msgUnpackFollowUp buf).preciseOriginTimestamp =
          fromInternalTime (addTime tx z.before.outboundLatency) stale)

theorem msgUnpackSync_bufOf {n : Nat} (buf : Buf) (h : 44 ≤ n) :
    msgUnpackSync (bufOf (take n buf)) = msgUnpackSync buf := by
  unfold msgUnpackSync
  rw [getTimestamp_bufOf buf h]

/-- A message that was handled was sent, in the name of its sender. -/
theorem Segment.received [DecidableEq ι] (hs : Segment s) {i : ι} {r : LogEntry}
    (hr : r ∈ (s i).log) {time : TimeInternal} (hcall : r.call = .received time) {t : MessageType}
    (ht : r.before.handles t) :
    ∃ j newer y older bytes, (s j).log = newer ++ y :: older ∧ y.Sends t (bufOf bytes) ∧
      r.before.sender = y.before.portDS.portIdentity ∧ take bytes.length r.before.msgIbuf = bytes ∧
      44 ≤ bytes.length := by
  have hheard := (hs.each i).2.log r hr
  rw [LogEntry.HeardIn, hcall] at hheard
  obtain ⟨hheader, -, hhand⟩ := hheard
  obtain ⟨j, y, hy, bytes, port, group, tx, hsent, -, htake⟩ := heard_sent hhand
  have hgenuine := (hs.each j).1.genuine y hy
  have hlong : 44 ≤ bytes.length := hgenuine.length _ _ _ _ hsent
  have hheader' : r.before.msgTmpHeader = msgUnpackHeader (bufOf bytes) := by
    rw [hheader, ← msgUnpackHeader_bufOf _ (show 34 ≤ bytes.length by omega), htake]
  have hsends : y.Sends t (bufOf bytes) := by
    apply sends_of_call hsent
    rw [← hheader']
    exact ht
  obtain ⟨newer, older, hlog⟩ := List.append_of_mem hy
  refine ⟨j, newer, y, older, bytes, hlog, hsends, ?_, htake, hlong⟩
  rw [PtpClock.sender, hheader']
  exact hgenuine.sender _ _ hsends.1

/-- **Every offset is measured against a master**: the time it is computed from is the one that a
    clock in MASTER, which is the parent, has sent in a Sync or in a Follow_Up. -/
theorem offsets_from_masters [DecidableEq ι] (hs : Segment s) (i : ι) :
    ∀ u ∈ (s i).log, u.UpdatesOffset → ∃ j newer y older, (s j).log = newer ++ y :: older ∧
      y.before.portDS.portState = PTP_MASTER ∧ u.parent = y.before.portDS.portIdentity ∧
      u.TimedBy y older := by
  intro u hu hupdates
  obtain ⟨before, after, hlog⟩ := List.append_of_mem hu
  obtain ⟨-, hoffsets⟩ := (hs.each i).1.traced
  obtain ⟨⟨r, hr, hfrom⟩, -⟩ := every_iff.mp hoffsets before u after hlog hupdates
  have hr' : r ∈ (s i).log := by
    rw [hlog]
    exact List.mem_append_right before (List.mem_cons_of_mem u hr)
  obtain ⟨time, hreceived⟩ := hfrom.received
  obtain ⟨ingress, stack, correctionField, ⟨htype, -, hcall⟩ | ⟨htype, hcall⟩⟩ := hfrom.origin
  · obtain ⟨j, newer, y, older, bytes, hsender, hsends, hidentity, htake, hlong⟩ :=
      hs.received hr' hreceived htype
    have hy : y ∈ (s j).log := by
      rw [hsender]
      exact List.mem_append_right newer List.mem_cons_self
    refine ⟨j, newer, y, older, hsender, ((hs.each j).1.genuine y hy).master _ _ hsends.1 rfl,
      hfrom.sender.symm.trans hidentity, .sync _ ingress stack correctionField hsends ?_⟩
    have hbody : msgUnpackSync r.before.msgIbuf = msgUnpackSync (bufOf bytes) := by
      rw [← msgUnpackSync_bufOf _ hlong, htake]
    rw [← hbody]
    exact hcall
  · obtain ⟨j, newer, y, older, bytes, hsender, hsends, hidentity, htake, hlong⟩ :=
      hs.received hr' hreceived htype
    have hy : y ∈ (s j).log := by
      rw [hsender]
      exact List.mem_append_right newer List.mem_cons_self
    have hbehind := every_iff.mp (hs.each j).1.standsBehind newer y older hsender
    obtain ⟨z, rest, holder, ⟨sync, hsync, hsequence⟩, htime⟩ := hbehind.followUp _ hsends.1
    refine ⟨j, newer, y, older, hsender, ((hs.each j).1.genuine y hy).master _ _ hsends.1 rfl,
      hfrom.sender.symm.trans hidentity,
      .followUp _ sync ingress stack correctionField z rest hsends ?_ holder hsync hsequence htime⟩
    have hbody : msgUnpackFollowUp r.before.msgIbuf = msgUnpackFollowUp (bufOf bytes) := by
      rw [← msgUnpackFollowUp_bufOf _ hlong, htake]
    rw [← hbody]
    exact hcall

/-! ## Two clocks -/

/-- Two boards that have just been started. -/
def started (i : Bool) : World :=
  ptpdStartup (.sample .E2E) (World.zero (if i then Platform.other else Platform.steady))

/-- The first becomes master, sends two Syncs and announces itself. -/
def leader : World :=
  runInputs [.doState, .catchAlarm 12000, .doState, .catchAlarm 1000, .doState,
    .catchAlarm 1000, .doState] (started false)

/-- The octets that the call has put on the wire. -/
def LogEntry.octets? (x : LogEntry) : Option (List UInt8) :=
  match x.call with
  | .send _ _ bytes (.sent _) => some bytes
  | _ => none

/-- Its message number `n`, as the second board receives it. -/
def fromLeader (n : Nat) : Pbuf :=
  samplePacket ((leader.log.reverse.filterMap LogEntry.octets?).getD n []) 101

/-- The second hears the Announce, and follows; then a Sync and its Follow_Up. -/
def follower : World :=
  runInputs [.doState, .netRecvGeneralCallback (fromLeader 4), .doState, .doState,
    .netRecvEventCallback (fromLeader 0), .doState, .netRecvGeneralCallback (fromLeader 1),
    .doState] (started true)

def twoClocks : Bool → World := fun i => if i then follower else leader

theorem twoClocks_true : twoClocks true = follower := if_pos rfl

/-- A clock takes any inputs that bring it only what is on the wire. -/
theorem Segment.inputs [DecidableEq ι] (hs : Segment s) (i : ι) {inputs : List Input}
    (hinputs : ∀ input ∈ inputs, input.Valid ∧
      ∀ p ∈ input.packet?, p.WellChained ∧ p.payload.flatten ∈ wire clock s) :
    Segment (Function.update s i (runInputs inputs (s i))) := by
  induction inputs generalizing s with
  | nil =>
    rw [show runInputs [] (s i) = s i from rfl, Function.update_eq_self]
    exact hs
  | cons input inputs ih =>
    obtain ⟨s₀, hrun, hstarted⟩ := hs.ran
    obtain ⟨hv, hpacket⟩ := hinputs input List.mem_cons_self
    have hstep : Step clock s (Function.update s i (step input (s i))) := by
      have hallowed : clock.allowed input := ⟨hv, fun p hp => (hpacket p hp).1⟩
      refine .act i input hallowed ?_
      rintro bytes ⟨p, hp, rfl⟩
      exact (hpacket p hp).2
    have hnext := ih ⟨⟨s₀, hrun.tail hstep, hstarted⟩⟩ (by
      intro input' hinput'
      obtain ⟨hv', hpacket'⟩ := hinputs input' (List.mem_cons_of_mem _ hinput')
      refine ⟨hv', fun p hp => ⟨(hpacket' p hp).1, ?_⟩⟩
      exact hstep.wire_subset clock_remembers (hpacket' p hp).2)
    rw [Function.update_self, Function.update_idem] at hnext
    exact hnext

theorem leader_said {n : Nat} {s : Bool → World} (hs : s false = leader)
    (hn : (leader.log.reverse.filterMap LogEntry.octets?).length > n) :
    (fromLeader n).payload.flatten ∈ wire clock s := by
  have hmem : (fromLeader n).payload.flatten ∈ leader.log.reverse.filterMap LogEntry.octets? := by
    unfold fromLeader
    generalize leader.log.reverse.filterMap LogEntry.octets? = sent at hn ⊢
    rw [List.getD_eq_getElem?_getD, List.getElem?_eq_getElem hn]
    simp [samplePacket]
  obtain ⟨x, hx, hoctets⟩ := List.mem_filterMap.mp hmem
  refine ⟨false, x, ?_, ?_⟩
  · rw [hs]
    exact List.mem_reverse.mp hx
  · unfold LogEntry.octets? at hoctets
    split at hoctets
    · next port group bytes time hcall =>
      rw [← Option.some.inj hoctets]
      exact ⟨port, group, time, hcall⟩
    · cases hoctets

theorem segment_twoClocks : Segment twoClocks := by
  have hstarted : Segment started :=
    ⟨⟨started, .refl, fun i => ⟨if i then .other else .steady, .sample .E2E, rfl, rfl⟩⟩⟩
  have hleader : Segment (Function.update started false leader) :=
    hstarted.inputs false (by
      intro input hinput
      simp only [List.mem_cons, List.not_mem_nil, or_false] at hinput
      rcases hinput with rfl | rfl | rfl | rfl | rfl | rfl | rfl
      all_goals exact ⟨trivial, fun p hp => by cases hp⟩)
  have hsaid : ∀ n, (leader.log.reverse.filterMap LogEntry.octets?).length > n →
      (fromLeader n).payload.flatten ∈ wire clock (Function.update started false leader) :=
    fun n => leader_said (Function.update_self false leader started)
  have hboth : Segment (Function.update (Function.update started false leader) true follower) :=
    hleader.inputs true (by
      intro input hinput
      simp only [List.mem_cons, List.not_mem_nil, or_false] at hinput
      rcases hinput with rfl | rfl | rfl | rfl | rfl | rfl | rfl | rfl
      all_goals refine ⟨trivial, fun p hp => ?_⟩
      all_goals cases hp
      all_goals exact ⟨by decide +kernel, hsaid _ (by decide +kernel)⟩)
  have heq : Function.update (Function.update started false leader) true follower = twoClocks := by
    funext i
    cases i <;> rfl
  rw [← heq]
  exact hboth

theorem parents_are_masters_twoClocks :
    ∃ j, ∃ y ∈ (twoClocks j).log, ∃ header announce, y.Announces header announce ∧
      Accepted follower.log header announce ∧
        follower.parentDS.parentPortIdentity = y.before.portDS.portIdentity := by
  have hfollows : follower.portDS.portState.follows := by decide +kernel
  obtain ⟨-, hparent⟩ := parents_are_masters segment_twoClocks true
  rw [twoClocks_true] at hparent
  exact hparent hfollows

theorem offsets_from_masters_twoClocks :
    ∃ u ∈ follower.log, ∃ j newer y older, (twoClocks j).log = newer ++ y :: older ∧
      y.before.portDS.portState = PTP_MASTER ∧ u.parent = y.before.portDS.portIdentity ∧
      u.TimedBy y older := by
  obtain ⟨u, hu, hupdates⟩ : ∃ u ∈ follower.log, u.UpdatesOffset := by decide +kernel
  have hoffsets := offsets_from_masters segment_twoClocks true
  rw [twoClocks_true] at hoffsets
  exact ⟨u, hu, hoffsets u hu hupdates⟩

end Ptpd
