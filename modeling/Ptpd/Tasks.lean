import Ptpd.Lib.Trigger
import Mathlib.Algebra.BigOperators.Group.List.Basic

/-! # The main loop (`task.c`, `netconf.c`, `ptpd.c`)

    The board does everything from one loop: tasks that are due, the ARP timer of
    lwIP if it is due (there is no TCP in this build), and then PTP, which is told
    how much time has passed. All of it goes by `LocalTime`, which counts
    milliseconds in 32 bits and wraps around after 49 days.
-/

namespace Ptpd

open Trigger

variable {σ : Type*}

/-! ## Time -/

abbrev SYSTEMTICK_PERIOD_MS : UInt32 := 1

/-- `LocalTime += SYSTEMTICK_PERIOD_MS`, in the tick interrupt. -/
def Time_Update (LocalTime : UInt32) : UInt32 := LocalTime + SYSTEMTICK_PERIOD_MS

/-- After `t` ticks `LocalTime` reads `t`. -/
theorem Time_Update_iterate (t : Nat) : Time_Update^[t] 0 = reading t := by
  induction t with
  | zero => rfl
  | succ t ih =>
    rw [Function.iterate_succ_apply', ih]
    unfold Time_Update reading
    apply UInt32.toNat_inj.mp
    have hone : SYSTEMTICK_PERIOD_MS.toNat = 1 := rfl
    rw [UInt32.toNat_add, UInt32.toNat_ofNat', UInt32.toNat_ofNat', hone]
    omega

/-! ## Tasks -/

structure Task (σ : Type*) where
  Count : UInt32
  Period : UInt32
  CallBackFuntion : σ → σ

def Task.due (time : UInt32) (p : Task σ) : Bool := decide (p.Period ≤ time - p.Count)

def Task_Poll (time : UInt32) : List (Task σ) → σ → List (Task σ) × σ
  | [], s => ([], s)
  | p :: ps, s =>
    if p.due time then
      let (ps, s) := Task_Poll time ps (p.CallBackFuntion s)
      ({ p with Count := time } :: ps, s)
    else
      let (ps, s) := Task_Poll time ps s
      (p :: ps, s)

/-- The task after it has been polled. -/
def Task.polled (time : UInt32) (p : Task σ) : Task σ :=
  if p.due time then { p with Count := time } else p

theorem Task_Poll_fst (time : UInt32) (p : List (Task σ)) (s : σ) :
    (Task_Poll time p s).1 = p.map (Task.polled time) := by
  induction p generalizing s with
  | nil => rfl
  | cons p ps ih =>
    unfold Task_Poll
    by_cases hdue : p.due time = true
    · have hpolled : p.polled time = { p with Count := time } := if_pos hdue
      rw [if_pos hdue, List.map_cons, hpolled, ← ih (p.CallBackFuntion s)]
    · have hpolled : p.polled time = p := if_neg hdue
      rw [if_neg hdue, List.map_cons, hpolled, ← ih s]

/-- The callbacks of the tasks that are due are called, in the order of the list. -/
theorem Task_Poll_snd (time : UInt32) (p : List (Task σ)) (s : σ) :
    (Task_Poll time p s).2 = (p.filter (Task.due time)).foldl (fun s p => p.CallBackFuntion s) s := by
  induction p generalizing s with
  | nil => rfl
  | cons p ps ih =>
    unfold Task_Poll
    by_cases hdue : p.due time = true
    · rw [if_pos hdue, List.filter_cons_of_pos hdue, List.foldl_cons]
      exact ih (p.CallBackFuntion s)
    · rw [if_neg hdue, List.filter_cons_of_neg hdue]
      exact ih s

/-! ## The loop -/

abbrev ARP_TMR_INTERVAL : UInt32 := 5000

/-- What the loop calls: its tasks, the timer of lwIP, and PTP with the time that has passed. -/
structure Callbacks (σ : Type*) where
  RunStateLock_CallBack : σ → σ
  USART_CallBack : σ → σ
  KEY_CallBack : σ → σ
  ADJ_CallBack : σ → σ
  LED_CallBack : σ → σ
  UDBG_CallBack : σ → σ
  DS1302_CallBack : σ → σ
  etharp_tmr : σ → σ
  ptpd : UInt32 → σ → σ

/-- `List`, as it is initialised. -/
def Callbacks.tasks (c : Callbacks σ) : List (Task σ) :=
  [⟨0, 1000, c.RunStateLock_CallBack⟩,
    ⟨0, 20, c.USART_CallBack⟩,
    ⟨0, 4000, c.KEY_CallBack⟩,
    ⟨0, 1000, c.ADJ_CallBack⟩,
    ⟨0, 500, c.LED_CallBack⟩,
    ⟨0, 2000, c.UDBG_CallBack⟩,
    ⟨0, 60000, c.DS1302_CallBack⟩]

/-- What the loop keeps, and the rest of the board. -/
structure MainLoop (σ : Type*) where
  tasks : List (Task σ)
  ARPTimer : UInt32
  old_localtime : UInt32
  board : σ

def MainLoop.start (c : Callbacks σ) (board : σ) : MainLoop σ := ⟨c.tasks, 0, 0, board⟩

def LwIP_Periodic_Handle (c : Callbacks σ) (localtime : UInt32) (l : MainLoop σ) : MainLoop σ :=
  if localtime - l.ARPTimer ≥ ARP_TMR_INTERVAL then
    { l with ARPTimer := localtime, board := c.etharp_tmr l.board }
  else l

/-- `ptpd_Periodic_Handle(localtime)`: PTP is told what has passed since the last call. -/
def MainLoop.ptpd (c : Callbacks σ) (localtime : UInt32) (l : MainLoop σ) : MainLoop σ :=
  { l with old_localtime := localtime, board := c.ptpd (localtime - l.old_localtime) l.board }

/-- The times at which a turn of the loop reads `LocalTime`. -/
structure Turn where
  polled : Nat
  lwip : Nat
  ptpd : Nat

/-- One turn. -/
def run_task (c : Callbacks σ) (turn : Turn) (l : MainLoop σ) : MainLoop σ :=
  let (tasks, board) := Task_Poll (reading turn.polled) l.tasks l.board
  let l := { l with tasks := tasks, board := board }
  let l := LwIP_Periodic_Handle c (reading turn.lwip) l
  l.ptpd c (reading turn.ptpd)

section Turn

variable (c : Callbacks σ) (turn : Turn) (l : MainLoop σ)

theorem LwIP_Periodic_Handle_eq (localtime : UInt32) :
    (LwIP_Periodic_Handle c localtime l).tasks = l.tasks ∧
      (LwIP_Periodic_Handle c localtime l).ARPTimer =
        (if localtime - l.ARPTimer ≥ ARP_TMR_INTERVAL then localtime else l.ARPTimer) ∧
      (LwIP_Periodic_Handle c localtime l).old_localtime = l.old_localtime := by
  unfold LwIP_Periodic_Handle
  by_cases harp : localtime - l.ARPTimer ≥ ARP_TMR_INTERVAL
  · simp [harp]
  · simp [harp]

theorem run_task_tasks :
    (run_task c turn l).tasks = l.tasks.map (Task.polled (reading turn.polled)) := by
  have htasks := (LwIP_Periodic_Handle_eq c
    { l with
      tasks := (Task_Poll (reading turn.polled) l.tasks l.board).1
      board := (Task_Poll (reading turn.polled) l.tasks l.board).2 } (reading turn.lwip)).1
  exact htasks.trans (Task_Poll_fst (reading turn.polled) l.tasks l.board)

theorem run_task_ARPTimer :
    (run_task c turn l).ARPTimer =
      if reading turn.lwip - l.ARPTimer ≥ ARP_TMR_INTERVAL then reading turn.lwip
      else l.ARPTimer :=
  (LwIP_Periodic_Handle_eq c
    { l with
      tasks := (Task_Poll (reading turn.polled) l.tasks l.board).1
      board := (Task_Poll (reading turn.polled) l.tasks l.board).2 } (reading turn.lwip)).2.1

theorem run_task_old_localtime : (run_task c turn l).old_localtime = reading turn.ptpd := rfl

end Turn

/-! ## Calls -/

/-- The times at which a call is made that depends on this counter: at the turns at which its
    period has passed. -/
def calls (c : Callbacks σ) (period : UInt32) (count : MainLoop σ → UInt32) (look : Turn → Nat) :
    List Turn → MainLoop σ → List Nat
  | [], _ => []
  | turn :: turns, l =>
    if period ≤ reading (look turn) - count l then
      look turn :: calls c period count look turns (run_task c turn l)
    else calls c period count look turns (run_task c turn l)

/-- The times at which the callback of task `i` is called. -/
def taskCalls (c : Callbacks σ) (i : Nat) : List Turn → MainLoop σ → List Nat
  | [], _ => []
  | turn :: turns, l =>
    if (l.tasks[i]?).any (Task.due (reading turn.polled)) then
      turn.polled :: taskCalls c i turns (run_task c turn l)
    else taskCalls c i turns (run_task c turn l)

/-- The times that PTP is told have passed. -/
def elapsed (c : Callbacks σ) : List Turn → MainLoop σ → List UInt32
  | [], _ => []
  | turn :: turns, l =>
    (reading turn.ptpd - l.old_localtime) :: elapsed c turns (run_task c turn l)

variable {c : Callbacks σ} {turns : List Turn} {l : MainLoop σ}

/-- A counter of the loop that is set when its period has passed is a trigger. -/
theorem calls_eq {period : UInt32} {count : MainLoop σ → UInt32} {look : Turn → Nat}
    (hstep : ∀ turn l, count (run_task c turn l) =
      if reading (look turn) - count l ≥ period then reading (look turn) else count l) :
    calls c period count look turns l = firesOn period.toNat (count l) (turns.map look) := by
  induction turns generalizing l with
  | nil => rfl
  | cons turn turns ih =>
    have hle : period ≤ reading (look turn) - count l ↔
        period.toNat ≤ (reading (look turn) - count l).toNat := UInt32.le_iff_toNat_le
    unfold calls
    rw [List.map_cons, firesOn_cons, ih, hstep]
    by_cases hdue : period ≤ reading (look turn) - count l
    · rw [if_pos hdue, if_pos (hle.mp hdue), if_pos hdue]
    · rw [if_neg hdue, if_neg (fun h => hdue (hle.mpr h)), if_neg hdue]

/-- A task is a trigger. -/
theorem taskCalls_eq {i : Nat} {p : Task σ} (hp : l.tasks[i]? = some p) :
    taskCalls c i turns l = firesOn p.Period.toNat p.Count (turns.map Turn.polled) := by
  induction turns generalizing l p with
  | nil => rfl
  | cons turn turns ih =>
    have hnext : (run_task c turn l).tasks[i]? = some (p.polled (reading turn.polled)) := by
      rw [run_task_tasks, List.getElem?_map, hp]
      rfl
    have hdue : p.due (reading turn.polled) = true ↔
        p.Period.toNat ≤ (reading turn.polled - p.Count).toNat := by
      unfold Task.due
      rw [decide_eq_true_iff]
      exact UInt32.le_iff_toNat_le
    unfold taskCalls
    rw [hp, ih hnext, Option.any_some, List.map_cons, firesOn_cons]
    by_cases h : p.due (reading turn.polled) = true
    · have hpolled : p.polled (reading turn.polled) = { p with Count := reading turn.polled } :=
        if_pos h
      rw [if_pos h, if_pos (hdue.mp h), hpolled]
    · have hpolled : p.polled (reading turn.polled) = p := if_neg h
      rw [if_neg h, if_neg (fun hle => h (hdue.mpr hle)), hpolled]

/-! ## On time -/

/-- Calls that come at least a period and at most a gap more apart, up to the last turn, which
    ends at `last`. -/
structure OnTime (period gap : Nat) (last : Nat) (called : List Nat) : Prop where
  spaced : List.IsChain (fun a b => a + period ≤ b ∧ b < a + period + gap) (0 :: called)
  recent : last - called.getLastD 0 < period

/-- A trigger that is looked at from power-on. -/
theorem onTime_of_firesOn {period gap : Nat} {looks called : List Nat} (hperiod : 0 < period)
    (hgap : period + gap ≤ 2 ^ 32) (hlooks : Looks gap 0 looks)
    (hcalled : called = firesOn period 0 looks) : OnTime period gap (looks.getLastD 0) called := by
  have hfires : called = fires period 0 looks := by
    rw [hcalled]
    exact firesOn_eq hperiod hgap (le_refl 0) (by omega) hlooks
  rw [hfires]
  constructor
  · exact fires_spaced hperiod (le_refl 0) (by omega) hlooks
  · exact fires_last hperiod (le_refl 0) (by omega) hlooks

theorem elapsed_eq {t gap : Nat} (hgap : gap < 2 ^ 32) (hold : l.old_localtime = reading t)
    (hlooks : Looks gap t (turns.map Turn.ptpd)) :
    ((elapsed c turns l).map UInt32.toNat).sum = (turns.map Turn.ptpd).getLastD t - t := by
  induction turns generalizing l t with
  | nil => simp [elapsed]
  | cons turn turns ih =>
    obtain ⟨⟨hle, hnext⟩, hrest⟩ := hlooks.cons
    have hlast := hrest.le_last
    have hsub : (reading turn.ptpd - reading t).toNat = turn.ptpd - t :=
      reading_sub_toNat hle (by omega)
    unfold elapsed
    rw [List.map_cons, List.sum_cons, List.map_cons, List.getLastD_cons,
      ih (run_task_old_localtime c turn l) hrest, hold, hsub]
    omega

/-- **Nothing runs early and nothing starves**: as long as no turn of the loop takes longer than
    `gap`, which may be weeks, each task runs with its period between its calls, and so does the
    ARP timer, although `LocalTime` wraps around; and what PTP is told has passed adds up to all the
    time there was. -/
theorem run_task_on_time (c : Callbacks σ) (board : σ) {turns : List Turn} {gap : Nat}
    (hgap : 60000 + gap ≤ 2 ^ 32) (hpolled : Looks gap 0 (turns.map Turn.polled))
    (hlwip : Looks gap 0 (turns.map Turn.lwip)) (hptpd : Looks gap 0 (turns.map Turn.ptpd)) :
    (∀ i p, c.tasks[i]? = some p →
      OnTime p.Period.toNat gap ((turns.map Turn.polled).getLastD 0)
        (taskCalls c i turns (.start c board))) ∧
    OnTime ARP_TMR_INTERVAL.toNat gap ((turns.map Turn.lwip).getLastD 0)
      (calls c ARP_TMR_INTERVAL MainLoop.ARPTimer Turn.lwip turns (.start c board)) ∧
    ((elapsed c turns (.start c board)).map UInt32.toNat).sum =
      (turns.map Turn.ptpd).getLastD 0 := by
  refine ⟨?_, ?_, ?_⟩
  · intro i p hp
    have hperiods : ∀ p ∈ c.tasks, p.Count = 0 ∧ 0 < p.Period.toNat ∧ p.Period.toNat ≤ 60000 := by
      simp [Callbacks.tasks]
    obtain ⟨hcount, hpos, hle⟩ := hperiods p (List.mem_of_getElem? hp)
    have hcalls : taskCalls c i turns (.start c board) =
        firesOn p.Period.toNat p.Count (turns.map Turn.polled) := taskCalls_eq hp
    rw [hcount] at hcalls
    exact onTime_of_firesOn hpos (by omega) hpolled hcalls
  · have harp : ARP_TMR_INTERVAL.toNat = 5000 := rfl
    exact onTime_of_firesOn (by decide) (by omega) hlwip
      (calls_eq fun turn l => run_task_ARPTimer c turn l)
  · exact elapsed_eq (t := 0) (by omega) rfl hptpd

/-- The loop turns after 49 days and then once a minute, while `LocalTime` wraps around; the first
    callback counts its calls. -/
theorem run_task_on_time_wraps :
    let c : Callbacks Nat :=
      ⟨(· + 1), id, id, id, id, id, id, id, fun _ => id⟩
    let turns := (List.range 5).map fun k =>
      let t := 4294867296 + 60000 * k
      (⟨t, t, t⟩ : Turn)
    OnTime 1000 4294907296 ((turns.map Turn.polled).getLastD 0)
      (taskCalls c 0 turns (.start c 0)) := by
  intro c turns
  have hlooks : Looks 4294907296 0 (turns.map Turn.polled) := by
    unfold Looks
    decide
  exact (run_task_on_time c 0 (by decide) hlooks hlooks hlooks).1 0 _ rfl

end Ptpd
