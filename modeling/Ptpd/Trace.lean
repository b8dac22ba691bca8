import Ptpd.Protocol.ToState

/-! # What a call adds to the history

    The history only grows. For the functions under a change of state the
    entries are few: the call itself, and what starting the servo afresh tells
    the platform.
-/

namespace Ptpd

/-- Every call between `w` and `w'` satisfies `P`. -/
def Grows (P : Call → Prop) (w w' : World) : Prop :=
  ∃ new, w'.log = new ++ w.log ∧ ∀ x ∈ new, P x.call

variable {P Q : Call → Prop} {w w' w'' : World}

theorem Grows.of_eq (h : w'.log = w.log) : Grows P w w' := ⟨[], h, by simp⟩

theorem Grows.refl (w : World) : Grows P w w := .of_eq rfl

theorem Grows.trans (h : Grows P w w') (h' : Grows P w' w'') : Grows P w w'' := by
  obtain ⟨new, heq, hP⟩ := h
  obtain ⟨new', heq', hP'⟩ := h'
  refine ⟨new' ++ new, by rw [heq', heq, List.append_assoc], ?_⟩
  intro x hx
  rcases List.mem_append.mp hx with hx | hx
  · exact hP' x hx
  · exact hP x hx

/-- What follows may change everything but the history. -/
theorem Grows.congr (h : Grows P w w') (heq : w''.log = w'.log) : Grows P w w'' :=
  h.trans (.of_eq heq)

theorem Grows.imp (hPQ : ∀ call, P call → Q call) (h : Grows P w w') : Grows Q w w' := by
  obtain ⟨new, heq, hP⟩ := h
  exact ⟨new, heq, fun x hx => hPQ x.call (hP x hx)⟩

theorem Grows.record (w : World) (call : Call) (h : P call) : Grows P w (w.record call) :=
  ⟨[⟨call, w.toPtpClock⟩], rfl, by simpa using h⟩

/-- One entry is added. -/
theorem Grows.cons {x : LogEntry} (hx : P x.call) (h : w'.log = x :: w.log) : Grows P w w' :=
  ⟨[x], h, by simpa using hx⟩

/-! ## Initialisation -/

/-- The data sets have been initialised. -/
def Initialised (log : List LogEntry) : Prop := ∃ x ∈ log, x.call = .initData

instance : DecidablePred Initialised := fun log =>
  inferInstanceAs (Decidable (∃ x ∈ log, x.call = .initData))

theorem Initialised.of_append {log : List LogEntry} (new : List LogEntry)
    (hnew : ∀ x ∈ new, x.call ≠ .initData) (h : Initialised (new ++ log)) :
    Initialised log := by
  obtain ⟨x, hx, hcall⟩ := h
  rcases List.mem_append.mp hx with hx | hx
  · exact absurd hcall (hnew x hx)
  · exact ⟨x, hx, hcall⟩

theorem Initialised.of_grows (h : Grows P w w') (hP : ¬ P .initData)
    (hinit : Initialised w'.log) : Initialised w.log := by
  obtain ⟨new, hlog, hnew⟩ := h
  rw [hlog] at hinit
  apply Initialised.of_append new _ hinit
  intro x hx hcall
  exact hP (hcall ▸ hnew x hx)

/-! ## Starting the servo afresh -/

/-- What `initClock` tells the platform. -/
def Call.isRestart : Call → Prop
  | .adjFreq _ | .pbuf_free _ => True
  | _ => False

theorem freeAll_grows (freed : List Pbuf) (w : World) :
    Grows Call.isRestart w (freeAll freed w) := by
  induction freed generalizing w with
  | nil => exact .refl w
  | cons p freed ih => exact (Grows.record w (.pbuf_free p) trivial).trans (ih _)

theorem netEmptyEventQ_grows (w : World) : Grows Call.isRestart w (netEmptyEventQ w) :=
  freeAll_grows (netQEmpty w.netPath.eventQ).1
    { w with netPath.eventQ := (netQEmpty w.netPath.eventQ).2 }

theorem initClock_grows (w : World) : Grows Call.isRestart w (initClock w) := by
  have hdata : Grows Call.isRestart w (initClockData w) := .of_eq rfl
  unfold initClock
  generalize initClockData w = w₁ at hdata ⊢
  dsimp only
  split
  · exact hdata.trans ((Grows.record w₁ (.adjFreq 0) trivial).trans
      (netEmptyEventQ_grows _))
  · exact hdata.trans (netEmptyEventQ_grows w₁)

@[simp] theorem timerStop_log (i : Timer) (w : World) : (timerStop i w).log = w.log := rfl

@[simp] theorem timerStart_log (i : Timer) (t : Int) (w : World) :
    (timerStart i t w).log = w.log := rfl

@[simp] theorem timerStartRand_log (i : Timer) (t : Int) (w : World) :
    (timerStartRand i t w).log = w.log := rfl

@[simp] theorem stopRequestTimer_log (w : World) : (stopRequestTimer w).log = w.log := by
  unfold stopRequestTimer
  split <;> rfl

theorem leaveState_grows (s : PortState) (w : World) :
    Grows Call.isRestart w (leaveState s w) := by
  unfold leaveState
  cases w.portDS.portState
  case PTP_INITIALIZING | PTP_FAULTY | PTP_DISABLED => exact .refl w
  case PTP_LISTENING => exact (initClock_grows w).congr (timerStop_log _ _)
  case PTP_PRE_MASTER => exact (initClock_grows w).congr (timerStop_log _ _)
  case PTP_MASTER => exact (initClock_grows w).congr (by simp only [timerStop_log])
  case PTP_PASSIVE => exact (initClock_grows w).congr (by simp only [timerStop_log])
  case PTP_UNCALIBRATED | PTP_SLAVE =>
    dsimp only
    split
    · exact .refl w
    · exact Grows.trans (.of_eq (by simp only [stopRequestTimer_log, timerStop_log]))
        (initClock_grows _)

theorem enterState_log (s : PortState) (w : World) : (enterState s w).log = w.log := by
  cases s
  case PTP_MASTER =>
    dsimp only [enterState, startPDelayTimer]
    split <;> rfl
  case PTP_PASSIVE =>
    dsimp only [enterState]
    split <;> rfl
  case PTP_UNCALIBRATED =>
    dsimp only [enterState, startRequestTimer]
    split <;> rfl
  all_goals rfl

/-- A change of state records the call, and then only what `initClock` does. -/
theorem toState_grows (s : PortState) (w : World) :
    Grows (fun call => call = .toState s ∨ call.isRestart) w (toState s w) := by
  have hrecord : Grows (fun call => call = .toState s ∨ call.isRestart) w
      { w.record (.toState s) with messageActivity := true } :=
    .cons (x := ⟨.toState s, w.toPtpClock⟩) (.inl rfl) rfl
  have hleave := (leaveState_grows s
    { w.record (.toState s) with messageActivity := true }).imp
      (Q := fun call => call = .toState s ∨ call.isRestart) fun _ h => .inr h
  exact hrecord.trans (hleave.trans (.of_eq (enterState_log s _)))

end Ptpd
