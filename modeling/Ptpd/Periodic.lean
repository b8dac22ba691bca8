import Ptpd.Draining
import Ptpd.Lib.Descent
import Ptpd.Mastership
import Ptpd.Stillness

/-! # The loop of the periodic handler (`ptpd.c`)

    The state machine is run as long as a packet waits. A port that handles messages
    takes one in every pass, but for the pass in which the announce receipt timer
    expires. A port in PRE_MASTER handles none, and no time passes in the loop; and
    a port that cannot be initialised tries again and again.
-/

namespace Ptpd

open PortState

variable {w w' : World}

/-- Not initialised, and the network never comes up. -/
structure World.Offline (w : World) : Prop where
  idle : w.Idle
  iface : ∀ i, (w.platform.iface.get i).up = false

/-- A packet waits that no pass will take. -/
structure World.Blocked (w : World) : Prop where
  waiting : w.netPath.waiting ≠ 0
  port : w.Qualifies ∨ w.Offline

/-! ## The third switch -/

theorem Quiet.netPath (h : Quiet w w') : w'.netPath = w.netPath := congrArg Setting.netPath h.setting

theorem Core.Consistent.of_engine (hc : w.core.Consistent) (h : w'.engine = w.engine) :
    w'.core.Consistent := by
  rw [show w'.core = w.core from congrArg Engine.core h]
  exact hc

theorem World.Still.announceReceiptTimeoutExpires (h : w.Still) :
    (announceReceiptTimeoutExpires w).Still := by
  unfold Ptpd.announceReceiptTimeoutExpires
  have hempty : (emptyForeignMasterDS w).Still := h.congr rfl rfl
  generalize emptyForeignMasterDS w = w₁ at hempty ⊢
  dsimp only
  split
  · refine World.Still.toState ?_ _
    exact hempty.congr rfl rfl
  · split
    · exact hempty.toState _
    · exact hempty

/-- A packet is taken, or the announce receipt timer has expired. -/
theorem passiveAction_takes (hc : w.core.Consistent) :
    (passiveAction w).netPath.waiting ≤ w.netPath.waiting - 1 ∨
      ¬ w.Still ∧ (passiveAction w).Still := by
  have hstill := announceReceipt_still w
  have hnot : w.Still → (timerExpired .ANNOUNCE_RECEIPT_TIMER w).1 = false := World.Still.not_expired
  have hpath := (timerExpired_quiet .ANNOUNCE_RECEIPT_TIMER w).netPath
  have hc₁ := hc.of_engine (timerExpired_engine .ANNOUNCE_RECEIPT_TIMER w)
  unfold passiveAction ifExpired
  generalize timerExpired .ANNOUNCE_RECEIPT_TIMER w = call at hstill hnot hpath hc₁ ⊢
  unfold branch
  split
  case isTrue hexpired =>
    refine .inr ⟨fun h => ?_, hstill.announceReceiptTimeoutExpires⟩
    rw [hnot h] at hexpired
    cases hexpired
  case isFalse =>
    rw [← hpath]
    exact .inl (handle_takes hc₁)

theorem passiveAction_waiting_le (hc : w.core.Consistent) :
    (passiveAction w).netPath.waiting ≤ w.netPath.waiting :=
  Acts.waiting_le (passiveAction_acts hc)

/-- A report that is due takes a packet, too. -/
theorem report_takes (hc : w.core.Consistent)
    (h : w' = ifExpired .MANAGEMENT_INTERVAL_TIMER (fun w => handle (issueManagement w)) id w) :
    w'.core.Consistent ∧
      (w'.netPath.waiting ≤ w.netPath.waiting - 1 ∨
        w'.netPath = w.netPath ∧ (w.Still → w'.Still)) := by
  obtain ⟨call, hcall⟩ : ∃ call, timerExpired .MANAGEMENT_INTERVAL_TIMER w = call := ⟨_, rfl⟩
  have hstill : w.Still → call.2.Still := fun h => hcall ▸ h.timerExpired .MANAGEMENT_INTERVAL_TIMER
  have hpath : call.2.netPath = w.netPath :=
    hcall ▸ (timerExpired_quiet .MANAGEMENT_INTERVAL_TIMER w).netPath
  have hc₁ : call.2.core.Consistent :=
    hcall ▸ hc.of_engine (timerExpired_engine .MANAGEMENT_INTERVAL_TIMER w)
  unfold ifExpired at h
  rw [hcall] at h
  clear hcall
  subst h
  rw [← hpath]
  unfold branch
  split
  case isTrue =>
    have hc₂ : (issueManagement call.2).core.Consistent := (issueManagement_run call.2).consistent hc₁
    -- the report leads to `handle`, as every message does
    refine ⟨(handle_run _).consistent hc₂, .inl ?_⟩
    rw [← (issueManagement_quiet call.2).netPath]
    exact handle_takes hc₂
  case isFalse => exact ⟨hc₁, .inr ⟨rfl, hstill⟩⟩

/-- The same of LISTENING, UNCALIBRATED and SLAVE. -/
theorem followAction_takes (hc : w.core.Consistent)
    (h : w' = ifExpired .MANAGEMENT_INTERVAL_TIMER (fun w => handle (issueManagement w)) id w) :
    (passiveAction w').netPath.waiting ≤ w.netPath.waiting - 1 ∨
      ¬ w.Still ∧ (passiveAction w').Still := by
  obtain ⟨hc', hreport | ⟨hpath, hstill⟩⟩ := report_takes hc h
  · exact .inl ((passiveAction_waiting_le hc').trans hreport)
  · rw [← hpath]
    exact (passiveAction_takes hc').imp_right fun ⟨hno, hafter⟩ => ⟨fun h => hno (hstill h), hafter⟩

theorem masterAction_takes (hport : w.portDS.portState = PTP_MASTER) (hc : w.core.Consistent) :
    (issueDelayReqTimerExpired (handle (ifExpired .ANNOUNCE_INTERVAL_TIMER issueAnnounce id
      (ifExpired .SYNC_INTERVAL_TIMER issueSync id w)))).netPath.waiting ≤ w.netPath.waiting - 1 := by
  have hsync := syncExpired_acts hport hc
  have hsyncRun : Engine.Run w.engine (ifExpired .SYNC_INTERVAL_TIMER issueSync id w).engine :=
    ifExpired_run .SYNC_INTERVAL_TIMER w issueSync_run fun _ => .refl
  have hport₁ := (syncExpired_portState w).trans hport
  have hc₁ := hsyncRun.consistent hc
  generalize ifExpired .SYNC_INTERVAL_TIMER issueSync id w = w₁ at hsync hport₁ hc₁ ⊢
  have hannounce := announceExpired_acts hport₁ hc₁
  have hrun : Engine.Run w₁.engine (ifExpired .ANNOUNCE_INTERVAL_TIMER issueAnnounce id w₁).engine :=
    ifExpired_run .ANNOUNCE_INTERVAL_TIMER w₁ issueAnnounce_run fun _ => .refl
  have hc₂ := hrun.consistent hc₁
  generalize ifExpired .ANNOUNCE_INTERVAL_TIMER issueAnnounce id w₁ = w₂ at hannounce hc₂ ⊢
  have hbefore := Acts.waiting_le (hsync.trans hannounce)
  have htaken := handle_takes hc₂
  have hafter := Acts.waiting_le (issueDelayReqTimerExpired_quiet (handle w₂)).acts
  omega

/-! ## One pass -/

/-- What a pass can come to if it takes no packet. -/
theorem doState_cases (hc : w.core.Consistent) :
    (doState w).netPath.waiting ≤ w.netPath.waiting - 1 ∨
      ¬ w.Still ∧ (doState w).Still ∨
      (doState w).portDS.portState = PTP_PRE_MASTER ∧ (w.Still → (doState w).Still) ∧
        (w.portDS.portState = PTP_PRE_MASTER → (doState w).Qualifies) ∨
      w.Idle := by
  have hc₁ := decided_consistent hc
  have hless := Acts.waiting_le (decided_acts w)
  have hstill : w.Still → w.decided.Still := fun h => h.decided
  have hidle := idle_of_decided hc
  have hqualifies := qualifies_of_decided hc
  rw [doState_decided]
  -- what happens depends on the state in which the port acts
  generalize w.decided = w₁ at hc₁ hless hstill hidle hqualifies ⊢
  unfold portAction
  cases hport : w₁.portDS.portState
  case PTP_INITIALIZING | PTP_FAULTY | PTP_DISABLED =>
    exact .inr (.inr (.inr (hidle (by rw [hport]; rfl))))
  case PTP_PRE_MASTER => exact .inr (.inr (.inl ⟨hport, hstill, fun h => hqualifies h hport⟩))
  case PTP_MASTER =>
    have htaken := masterAction_takes hport hc₁
    exact .inl (by dsimp only; omega)
  case PTP_PASSIVE =>
    rcases passiveAction_takes hc₁ with htaken | ⟨hno, hafter⟩
    · exact .inl (by dsimp only; omega)
    · exact .inr (.inl ⟨fun h => hno (hstill h), hafter⟩)
  all_goals
    rcases followAction_takes hc₁ rfl with htaken | ⟨hno, hafter⟩
    · exact .inl (by dsimp only; omega)
    · exact .inr (.inl ⟨fun h => hno (hstill h), hafter⟩)

/-! ## Ports that wait to be initialised -/

theorem netInit_up (w : World) : (netInit w).1 = w.platform.iface.head.up := by
  unfold netInit Iface.up
  dsimp only
  by_cases haddr : w.platform.iface.head.ip_addr = 0
  · simp [haddr]
  · by_cases hevent : w.platform.iface.head.eventPcb = true
    · by_cases hgeneral : w.platform.iface.head.generalPcb = true
      · simp [haddr, hevent, hgeneral]
      · simp [haddr, hevent, hgeneral]
    · simp [haddr, hevent]

theorem netInit_iface (w : World) : (netInit w).2.platform.iface = w.platform.iface.tail := by
  unfold netInit
  dsimp only
  split
  · rfl
  · split
    · rfl
    · split <;> rfl

/-- A port without a role undoes nothing. -/
theorem toState_idle {s : PortState} (hs : s = PTP_FAULTY ∨ s = PTP_INITIALIZING)
    (hport : w.portDS.portState = PTP_FAULTY ∨ w.portDS.portState = PTP_INITIALIZING) :
    (toState s w).platform = w.platform ∧ (toState s w).netPath = w.netPath := by
  have hleave : leaveState s { w.record (.toState s) with messageActivity := true } =
      { w.record (.toState s) with messageActivity := true } := by
    unfold leaveState
    rcases hport with hport | hport
    · rw [show ({ w.record (.toState s) with messageActivity := true } : World).portDS.portState = _
        from hport]
    · rw [show ({ w.record (.toState s) with messageActivity := true } : World).portDS.portState = _
        from hport]
  unfold toState
  dsimp only
  rw [hleave]
  rcases hs with rfl | rfl
  · exact ⟨rfl, rfl⟩
  · exact ⟨rfl, rfl⟩

theorem World.Idle.faulty (h : w.Idle) (hport : w.portDS.portState = PTP_FAULTY) :
    (doState w).Idle ∧ (doState w).portDS.portState = PTP_INITIALIZING ∧
      (doState w).platform.iface = w.platform.iface ∧ (doState w).netPath = w.netPath := by
  have hframe := toState_idle (w := { w with messageActivity := false }) (.inr rfl) (.inl hport)
  have hrec := toState_recommendedState PTP_INITIALIZING { w with messageActivity := false }
  have hstate := toState_portState PTP_INITIALIZING { w with messageActivity := false }
  rw [doState_faulty hport h.target]
  generalize toState PTP_INITIALIZING { w with messageActivity := false } = w₁ at hframe hrec hstate ⊢
  exact ⟨⟨by rw [hrec]; rfl, .inr hstate⟩, hstate, congrArg Platform.iface hframe.1, hframe.2⟩

theorem World.Idle.down (h : w.Idle) (hport : w.portDS.portState = PTP_INITIALIZING)
    (hdown : w.platform.iface.head.up = false) :
    (doState w).Idle ∧ (doState w).portDS.portState = PTP_FAULTY ∧
      (doState w).platform.iface = w.platform.iface.tail ∧ (doState w).netPath = w.netPath := by
  have hup := netInit_up { w with messageActivity := false }
  have hiface := netInit_iface { w with messageActivity := false }
  have hpath := netInit_netPath { w with messageActivity := false }
  have hengine := netInit_engine { w with messageActivity := false }
  rw [doState_initializing hport h.target, doInit_eq]
  generalize netInit { w with messageActivity := false } = call at hup hiface hpath hengine ⊢
  obtain ⟨up, w₁⟩ := call
  obtain rfl : up = false := hup.trans hdown
  -- the failed call leaves the state of the port
  have hport₁ : w₁.portDS.portState = PTP_INITIALIZING :=
    (congrArg (fun e => e.core.portState) hengine).trans hport
  have hrec₁ : w₁.recommendedState = w.recommendedState :=
    congrArg (fun e => e.core.recommendedState) hengine
  have hpath₁ : w₁.netPath = w.netPath := hpath.trans (if_neg (by rw [hdown]; simp))
  have hframe := toState_idle (w := w₁) (.inl rfl) (.inr hport₁)
  have hrec := toState_recommendedState PTP_FAULTY w₁
  have hstate := toState_portState PTP_FAULTY w₁
  have hbranch : branch (toState PTP_LISTENING) (toState PTP_FAULTY)
      (if !false then (false, w₁) else (true, initialise w₁)) = toState PTP_FAULTY w₁ := rfl
  rw [hbranch]
  generalize toState PTP_FAULTY w₁ = w₂ at hframe hrec hstate ⊢
  have htarget : w₂.recommendedState = w.recommendedState := hrec.trans hrec₁
  refine ⟨⟨htarget ▸ h.target, .inl hstate⟩, hstate, ?_, hframe.2.trans hpath₁⟩
  exact (congrArg Platform.iface hframe.1).trans hiface

/-- Once the network is up, both queues are empty. -/
theorem World.Idle.up (h : w.Idle) (hport : w.portDS.portState = PTP_INITIALIZING)
    (hup : w.platform.iface.head.up = true) : (doState w).netPath.waiting = 0 := by
  have hcall := netInit_up { w with messageActivity := false }
  have hpath := netInit_netPath { w with messageActivity := false }
  rw [doState_initializing hport h.target, doInit_eq]
  generalize netInit { w with messageActivity := false } = call at hcall hpath ⊢
  obtain ⟨up, w₁⟩ := call
  obtain rfl : up = true := hcall.trans hup
  have hempty : w₁.netPath.waiting = 0 := by
    rw [show w₁.netPath = _ from hpath.trans (if_pos hup)]
    rfl
  have hbranch : branch (toState PTP_LISTENING) (toState PTP_FAULTY)
      (if !true then (false, w₁) else (true, initialise w₁)) =
        toState PTP_LISTENING (initialise w₁) := rfl
  have hinit : (initialise w₁).netPath.waiting ≤ w₁.netPath.waiting :=
    initClock_waiting (initTimer (initData w₁))
  have hlisten := toState_waiting PTP_LISTENING (initialise w₁)
  rw [hbranch]
  omega

/-- A port that comes to be initialised finds the queues empty. -/
theorem World.Idle.ends_of_initializing {i : Nat} (h : w.Idle)
    (hport : w.portDS.portState = PTP_INITIALIZING) (hup : (w.platform.iface.get i).up = true) :
    ∃ k, (doState^[k] w).netPath.waiting = 0 := by
  induction i generalizing w with
  | zero => exact ⟨1, h.up hport hup⟩
  | succ i ih =>
    by_cases hnow : w.platform.iface.head.up = true
    · exact ⟨1, h.up hport hnow⟩
    -- two passes later the port tries again
    obtain ⟨hidle, hfaulty, hiface, -⟩ := h.down hport (Bool.eq_false_iff.mpr hnow)
    obtain ⟨hidle', hport', hiface', -⟩ := hidle.faulty hfaulty
    obtain ⟨k, hk⟩ := ih hidle' hport' (by rw [hiface', hiface]; exact hup)
    exact ⟨k + 2, hk⟩

theorem World.Idle.ends {i : Nat} (h : w.Idle) (hup : (w.platform.iface.get i).up = true) :
    ∃ k, (doState^[k] w).netPath.waiting = 0 := by
  rcases h.port with hport | hport
  · obtain ⟨hidle, hport', hiface, -⟩ := h.faulty hport
    obtain ⟨k, hk⟩ := hidle.ends_of_initializing hport' (by rw [hiface]; exact hup)
    exact ⟨k + 1, hk⟩
  · exact h.ends_of_initializing hport hup

theorem World.Offline.doState (h : w.Offline) :
    (doState w).Offline ∧ (doState w).netPath = w.netPath := by
  rcases h.idle.port with hport | hport
  · obtain ⟨hidle, -, hiface, hpath⟩ := h.idle.faulty hport
    exact ⟨⟨hidle, fun i => hiface ▸ h.iface i⟩, hpath⟩
  · obtain ⟨hidle, -, hiface, hpath⟩ := h.idle.down hport (h.iface 0)
    exact ⟨⟨hidle, fun i => hiface ▸ h.iface (i + 1)⟩, hpath⟩

/-! ## The loop -/

open Watched in
theorem timerExpired_fst_congr (i : Timer) (helapsed : w'.elapsed_ms = w.elapsed_ms)
    (htimer : w'.itimer = w.itimer) : (timerExpired i w').1 = (timerExpired i w).1 := by
  rw [timerExpired_eq, timerExpired_eq, takeExpire_fst, takeExpire_fst, timerUpdate_eq,
    timerUpdate_eq, chargeTimers_itimer, chargeTimers_itimer, helapsed, htimer]

theorem World.Qualifies.doState (h : w.Qualifies) (hc : w.core.Consistent) :
    (doState w).Qualifies ∧ (doState w).netPath = w.netPath := by
  have hrec : w.recommendedState = PTP_MASTER := by
    have hagrees : w.portDS.portState.agrees w.recommendedState := hc.agrees
    rw [h.port] at hagrees
    exact hagrees
  have hdecide : stateDecision { w with messageActivity := false } =
      { w with messageActivity := false } := by
    rw [stateDecision_eq]
    exact if_neg (by rw [h.event]; simp)
  -- no decision is pending and MASTER stays recommended, so only the timer is asked
  obtain ⟨call, hcall⟩ :
      ∃ call, timerExpired .QUALIFICATION_TIMEOUT { w with messageActivity := false } = call := ⟨_, rfl⟩
  have hno : (timerExpired .QUALIFICATION_TIMEOUT { w with messageActivity := false }).1 =
      (timerExpired .QUALIFICATION_TIMEOUT w).1 := timerExpired_fst_congr _ rfl rfl
  rw [hcall, h.timer] at hno
  have hengine := timerExpired_engine .QUALIFICATION_TIMEOUT { w with messageActivity := false }
  have hpath := (timerExpired_quiet .QUALIFICATION_TIMEOUT { w with messageActivity := false }).netPath
  rw [hcall] at hengine hpath
  have heq : w.decided = call.2 := by
    have hmove : w.decided = branch (toState .PTP_MASTER) id call := by
      unfold World.decided recommendedAction recommendedMaster ifExpired
      rw [hdecide, ← hcall, hrec, h.port]
    rw [hmove]
    exact if_neg (by rw [hno]; simp)
  have hstay : w.decided.portDS.portState = PTP_PRE_MASTER := by
    rw [heq]
    exact (congrArg (fun e => e.core.portState) hengine).trans h.port
  have hact : Ptpd.doState w = w.decided := by
    rw [doState_decided]
    unfold portAction
    rw [hstay]
  rw [hact]
  exact ⟨qualifies_of_decided hc h.port hstay, heq ▸ hpath⟩

theorem World.Blocked.doState (h : w.Blocked) (hc : w.core.Consistent) : (doState w).Blocked := by
  rcases h.port with hqualifies | hoffline
  · obtain ⟨hport, hpath⟩ := hqualifies.doState hc
    exact ⟨hpath ▸ h.waiting, .inl hport⟩
  · obtain ⟨hport, hpath⟩ := hoffline.doState
    exact ⟨hpath ▸ h.waiting, .inr hport⟩

instance : DecidablePred World.Still := fun w =>
  decidable_of_iff (w.elapsed_ms = 0 ∧ (w.itimer .ANNOUNCE_RECEIPT_TIMER).expire = false)
    ⟨fun h => ⟨h.1, h.2⟩, fun h => ⟨h.1, h.2⟩⟩

/-- The passes that take no packet come in this order: a timeout, then PRE_MASTER. -/
def World.rank (w : World) : Nat :=
  (if w.Still then 0 else 2) + if w.portDS.portState = PTP_PRE_MASTER then 0 else 1

/-- The packets and, while their number stays, the rank. -/
def World.toDo (w : World) : ℕ ×ₗ ℕ := toLex (w.netPath.waiting, w.rank)

theorem toDo_falls (hc : w.core.Consistent) (hwaiting : w.netPath.waiting ≠ 0)
    (hfree : ∀ k, ¬ (doState^[k] w).Blocked) :
    ∃ k, (doState^[k] w).netPath.waiting = 0 ∨ (doState^[k] w).toDo < w.toDo := by
  have hle := doState_waiting_le hc
  by_cases hless : (doState w).netPath.waiting < w.netPath.waiting
  · exact ⟨1, .inr (Prod.Lex.toLex_lt_toLex.mpr (.inl hless))⟩
  have hsame : (doState w).netPath.waiting = w.netPath.waiting := by omega
  have hrank : (doState w).rank < w.rank →
      ∃ k, (doState^[k] w).netPath.waiting = 0 ∨ (doState^[k] w).toDo < w.toDo :=
    fun h => ⟨1, .inr (Prod.Lex.toLex_lt_toLex.mpr (.inr ⟨hsame, h⟩))⟩
  -- a pass that takes nothing lowers the rank, is blocked or finds the port not initialised
  rcases doState_cases hc with htaken | ⟨hno, hstill⟩ | ⟨hport, hstill, hqualifies⟩ | hidle
  · omega
  · refine hrank ?_
    unfold World.rank
    rw [if_pos hstill, if_neg hno]
    split <;> omega
  · by_cases hbefore : w.portDS.portState = PTP_PRE_MASTER
    · exact absurd ⟨hsame ▸ hwaiting, .inl (hqualifies hbefore)⟩ (hfree 1)
    · refine hrank ?_
      unfold World.rank
      rw [if_pos hport, if_neg hbefore]
      by_cases h : w.Still
      · rw [if_pos h, if_pos (hstill h)]
        omega
      · rw [if_neg h]
        split <;> omega
  · have hup : ∃ i, (w.platform.iface.get i).up = true := by
      by_contra hnever
      refine hfree 0 ⟨hwaiting, .inr ⟨hidle, fun i => Bool.eq_false_iff.mpr fun hi => hnever ⟨i, hi⟩⟩⟩
    obtain ⟨i, hi⟩ := hup
    obtain ⟨k, hk⟩ := hidle.ends hi
    exact ⟨k, .inl hk⟩

theorem periodicLoop_of_waiting {k : Nat} (h : (doState^[k + 1] w).netPath.waiting = 0) :
    ∃ fuel w', periodicLoop fuel w = some w' := by
  induction k generalizing w with
  | zero =>
    refine ⟨1, doState w, if_neg ?_⟩
    intro hselect
    exact netSelect_pos.mp hselect h
  | succ k ih =>
    obtain ⟨fuel, w', hloop⟩ := ih h
    by_cases hselect : netSelect (doState w) > 0
    · exact ⟨fuel + 1, w', (if_pos hselect).trans hloop⟩
    · exact ⟨1, doState w, if_neg hselect⟩

theorem waiting_of_periodicLoop {fuel : Nat} (h : periodicLoop fuel w = some w') :
    ∃ k, (doState^[k] w).netPath.waiting = 0 := by
  induction fuel generalizing w with
  | zero => cases h
  | succ fuel ih =>
    unfold periodicLoop at h
    dsimp only at h
    split at h
    · obtain ⟨k, hk⟩ := ih h
      exact ⟨k + 1, hk⟩
    · next hselect =>
      refine ⟨1, ?_⟩
      by_contra hwaiting
      exact hselect (netSelect_pos.mpr hwaiting)

theorem periodicLoop_ends_iff (hc : w.core.Consistent) :
    (∃ fuel w', periodicLoop fuel w = some w') ↔ ∀ k, ¬ (doState^[k] w).Blocked := by
  have hinv : ∀ w : World, w.core.Consistent → (doState w).core.Consistent :=
    fun w hc => doState_consistent hc
  have hkept : ∀ w : World, w.core.Consistent → w.netPath.waiting = 0 →
      (doState w).netPath.waiting = 0 := fun w hc => doState_waiting_zero hc
  constructor
  · rintro ⟨fuel, w', hloop⟩ k hblocked
    have hstuck : ∀ w : World, w.core.Consistent → w.Blocked → (doState w).Blocked :=
      fun w hc h => h.doState hc
    obtain ⟨j, hj⟩ := waiting_of_periodicLoop hloop
    exact Descent.not_goal_of_stuck hstuck hkept hinv (fun w h => h.waiting) hc hblocked hj
  · intro hfree
    have hfall : ∀ w : World, w.core.Consistent → (∀ k, ¬ (doState^[k] w).Blocked) →
        ¬ w.netPath.waiting = 0 →
        ∃ k, (doState^[k] w).netPath.waiting = 0 ∨ (doState^[k] w).toDo < w.toDo :=
      fun w hc hfree hwaiting => toDo_falls hc hwaiting hfree
    obtain ⟨k, hk⟩ := Descent.exists_goal World.toDo hinv hfall hc hfree
    have hnext := hkept _ (Descent.forall_iterate hinv hc k) hk
    rw [← Function.iterate_succ_apply' doState] at hnext
    exact periodicLoop_of_waiting hnext

/-- **The periodic handler returns** exactly if it never meets a packet that a port in
    PRE_MASTER, or one that cannot be initialised, leaves waiting. -/
theorem ptpd_Periodic_Handle_ends_iff (hw : Reachable w) (netPath : NetPath) (elapsed : UInt32) :
    (∃ fuel w', ptpd_Periodic_Handle fuel elapsed { w with netPath := netPath } = some w') ↔
      ∀ k, ¬ (doState^[k] (catchAlarm elapsed { w with netPath := netPath })).Blocked :=
  periodicLoop_ends_iff hw.consistent

/-- A listening port to which a clock worse than its own has announced itself. -/
def worseMaster : World := sampleRun .E2E [.doState, sampleAnnounce 9 255 1]

/-- The announcement is taken in the first pass, and there is no second one. -/
theorem ptpd_Periodic_Handle_ends_worseMaster :
    ∃ fuel w', ptpd_Periodic_Handle fuel 10 worseMaster = some w' := by
  have hreach : Reachable worseMaster := reachable_sampleRun .E2E (by decide)
  refine (ptpd_Periodic_Handle_ends_iff hreach worseMaster.netPath 10).mpr ?_
  have hstart : (catchAlarm 10 worseMaster).core.Consistent := hreach.consistent
  intro k hblocked
  cases k with
  | zero =>
    have hport : (catchAlarm 10 worseMaster).portDS.portState = PTP_LISTENING := by decide +kernel
    rcases hblocked.port with hqualifies | hoffline
    · exact absurd (hport.symm.trans hqualifies.port) (by decide)
    · rcases hoffline.idle.port with h | h <;> exact absurd (hport.symm.trans h) (by decide)
  | succ k =>
    have hfirst : (doState (catchAlarm 10 worseMaster)).netPath.waiting = 0 := by decide +kernel
    have hlater : ∀ w : World, w.core.Consistent ∧ w.netPath.waiting = 0 →
        (doState w).core.Consistent ∧ (doState w).netPath.waiting = 0 :=
      fun w h => ⟨doState_consistent h.1, doState_waiting_zero h.1 h.2⟩
    exact hblocked.waiting
      (Descent.forall_iterate hlater ⟨doState_consistent hstart, hfirst⟩ k).2

/-- Such a port, with one more announcement behind the first. -/
def crowdedMaster : World :=
  sampleRun .E2E [.doState, sampleAnnounce 9 255 1, sampleAnnounce 9 255 2]

/-- The first pass takes the first announcement, the second one moves to PRE_MASTER, and the
    second announcement is never taken. -/
theorem crowdedMaster_never_ends :
    ¬ ∀ w : World, Reachable w → ∀ (netPath : NetPath) (elapsed : UInt32),
      ∃ fuel w', ptpd_Periodic_Handle fuel elapsed { w with netPath := netPath } = some w' := by
  intro h
  have hreach : Reachable crowdedMaster := reachable_sampleRun .E2E (by decide)
  have hends := h crowdedMaster hreach crowdedMaster.netPath 0
  have hfree := (periodicLoop_ends_iff hreach.consistent).mp hends
  have hqualifies : (doState^[2] (catchAlarm 0 crowdedMaster)).Qualifies :=
    ⟨by decide +kernel, by decide +kernel, by decide +kernel⟩
  exact hfree 2 ⟨by decide +kernel, .inl hqualifies⟩

end Ptpd
