import Ptpd.Adjust
import Ptpd.Sntp

/-! # A sequence of SNTP replies (`sntp_client.c`)

    The client keeps delay and offset in static variables. A reply without an
    originate time writes neither, and what is reported to the server and handed
    to the clock servo then is what the last other reply has left there.
-/

namespace Ptpd

/-! ## The client -/

/-- A message that the client receives whole, and the time at which it does. -/
structure SntpReply where
  sntp_msg : SntpMsg
  rev_time : TimeFp

/-- The static variables of `sntp_receive_callback`. -/
structure SntpStatics where
  delay_t : TimeFp
  offset_t : TimeFp
deriving DecidableEq

/-- What becomes of a reply: the control message to the server, and the offset
    that is converted for `NTPupdateclock`. -/
structure SntpReport where
  control : SntpMsg
  adjusted : Option TimeFp
deriving DecidableEq

def MODE_CONTROL : UInt8 := 6

def udp_sntp_client_control_send (delay offset : TimeFp) : SntpMsg :=
  { SntpMsg.zero with
    li_vn_md := MSG_LI_VN_MODE LEAP_NO_WARNING SNTP_VERSION MODE_CONTROL
    stratum := SNTP_STRATUM
    xmt := HTONL_FP delay
    recv := HTONL_FP offset }

/-- The static variables after a message. -/
def SntpStatics.next (statics : SntpStatics) (reply : SntpReply) : SntpStatics :=
  let (delay_t, offset_t) :=
    sntp_receive_callback reply.rev_time reply.sntp_msg statics.delay_t statics.offset_t
  ⟨delay_t, offset_t⟩

/-- What the client does with a message after those of `history`, first one first. -/
def sntpReport (PTP_MODE : PtpMode) (history : List SntpReply) (reply : SntpReply) :
    Option SntpReport :=
  let statics := (history.foldl SntpStatics.next ⟨⟨0, 0⟩, ⟨0, 0⟩⟩).next reply
  if MSG_MODE reply.sntp_msg.li_vn_md ≠ MODE_SERVER then none
  else some
    { control := udp_sntp_client_control_send statics.delay_t statics.offset_t
      adjusted := if PTP_MODE = .emNTPSlave then some statics.offset_t else none }

/-! ## Fresh reports -/

/-- The reply says when the request was sent. -/
def SntpReply.HasOrigin (reply : SntpReply) : Prop := NTOHL_FP reply.sntp_msg.orig ≠ ⟨0, 0⟩

instance : DecidablePred SntpReply.HasOrigin := fun _ => inferInstanceAs (Decidable (_ ≠ _))

/-- The offset that is to be computed from this reply. -/
def SntpReply.offset (reply : SntpReply) : TimeFp :=
  let xmt_t := NTOHL_FP reply.sntp_msg.xmt
  if reply.HasOrigin then
    FP_ADD (FP_RSHIFT (FP_SUB xmt_t reply.rev_time))
      (FP_RSHIFT (FP_SUB (NTOHL_FP reply.sntp_msg.recv) (NTOHL_FP reply.sntp_msg.orig)))
  else FP_SUB xmt_t reply.rev_time

/-- The delay of the exchange, which only a reply with an originate time has. -/
def SntpReply.delay (reply : SntpReply) : TimeFp :=
  FP_SUB (FP_SUB reply.rev_time (NTOHL_FP reply.sntp_msg.orig))
    (FP_SUB (NTOHL_FP reply.sntp_msg.xmt) (NTOHL_FP reply.sntp_msg.recv))

/-- The report is made of this reply. -/
structure SntpReply.Fresh (reply : SntpReply) (PTP_MODE : PtpMode) (report : SntpReport) :
    Prop where
  offset : report.control.recv = HTONL_FP reply.offset
  delay : reply.HasOrigin → report.control.xmt = HTONL_FP reply.delay
  adjusted : report.adjusted = if PTP_MODE = .emNTPSlave then some reply.offset else none

theorem SntpStatics.next_of_origin (statics : SntpStatics) {reply : SntpReply}
    (hmode : MSG_MODE reply.sntp_msg.li_vn_md = MODE_SERVER) (h : reply.HasOrigin) :
    statics.next reply = ⟨reply.delay, reply.offset⟩ := by
  unfold next sntp_receive_callback sntp_client_time_handle SntpReply.offset
  dsimp only
  rw [if_neg (not_not.mpr hmode), if_neg (TimeFp.ne_zero h), if_pos h]
  rfl

/-- Without an originate time the static variables stay as they are. -/
theorem SntpStatics.next_of_not_origin (statics : SntpStatics) {reply : SntpReply}
    (hmode : MSG_MODE reply.sntp_msg.li_vn_md = MODE_SERVER) (h : ¬ reply.HasOrigin) :
    statics.next reply = statics := by
  have hzero : NTOHL_FP reply.sntp_msg.orig = ⟨0, 0⟩ := not_not.mp h
  unfold next sntp_receive_callback sntp_client_time_handle
  dsimp only
  rw [if_neg (not_not.mpr hmode), hzero, if_pos ⟨rfl, rfl⟩]

/-- A reply to a request sent at 1 s, handled at that time; the server was at 5 s. -/
def laggingReply : SntpReply where
  sntp_msg :=
    { SntpMsg.zero with
      li_vn_md := MSG_LI_VN_MODE LEAP_NO_WARNING SNTP_VERSION MODE_SERVER
      orig := HTONL_FP ⟨1, 0⟩
      recv := HTONL_FP ⟨5, 0⟩
      xmt := HTONL_FP ⟨5, 0⟩ }
  rev_time := ⟨1, 0⟩

/-- A reply is reported fresh, whatever was received before it, exactly if it has
    an originate time. -/
theorem sntpReport_fresh_iff (PTP_MODE : PtpMode) (reply : SntpReply)
    (hmode : MSG_MODE reply.sntp_msg.li_vn_md = MODE_SERVER) :
    (∀ history : List SntpReply,
      ∃ report ∈ sntpReport PTP_MODE history reply, reply.Fresh PTP_MODE report) ↔
      reply.HasOrigin := by
  have hreport : ∀ history, sntpReport PTP_MODE history reply = some _ :=
    fun history => if_neg (not_not.mpr hmode)
  constructor
  · intro hfresh
    by_contra hno
    -- two histories that leave different offsets cannot both be right
    obtain ⟨first, hfirst, hempty⟩ := hfresh []
    obtain ⟨second, hsecond, hlagging⟩ := hfresh [laggingReply]
    rw [hreport, SntpStatics.next_of_not_origin _ hmode hno] at hfirst hsecond
    have heq : first.control.recv = second.control.recv := hempty.offset.trans hlagging.offset.symm
    rw [← Option.some.inj hfirst, ← Option.some.inj hsecond] at heq
    have hleft : HTONL_FP (([] : List SntpReply).foldl SntpStatics.next
        ⟨⟨0, 0⟩, ⟨0, 0⟩⟩).offset_t ≠
        HTONL_FP ([laggingReply].foldl SntpStatics.next ⟨⟨0, 0⟩, ⟨0, 0⟩⟩).offset_t := by
      decide +kernel
    exact hleft heq
  · intro horigin history
    refine ⟨_, hreport history, ?_⟩
    rw [SntpStatics.next_of_origin _ hmode horigin]
    exact ⟨rfl, fun _ => rfl, rfl⟩

theorem sntpReport_fresh_lagging :
    (∀ history : List SntpReply,
      ∃ report ∈ sntpReport .emNTPSlave history laggingReply,
        laggingReply.Fresh .emNTPSlave report) ↔ laggingReply.HasOrigin :=
  sntpReport_fresh_iff .emNTPSlave laggingReply (by decide)

/-- A reply without an originate time, sent and handled at 1 s. -/
def unsolicitedReply : SntpReply where
  sntp_msg :=
    { SntpMsg.zero with
      li_vn_md := MSG_LI_VN_MODE LEAP_NO_WARNING SNTP_VERSION MODE_SERVER
      xmt := HTONL_FP ⟨1, 0⟩ }
  rev_time := ⟨1, 0⟩

/-- The client is told once more to move by the four seconds of the reply before. -/
theorem sntpReport_stale :
    ∃ report ∈ sntpReport .emNTPSlave [laggingReply] unsolicitedReply,
      report.adjusted = some laggingReply.offset ∧
        ¬ unsolicitedReply.Fresh .emNTPSlave report := by
  refine ⟨_, rfl, by decide +kernel, ?_⟩
  intro hfresh
  have hoffset := hfresh.adjusted
  revert hoffset
  decide +kernel

end Ptpd
