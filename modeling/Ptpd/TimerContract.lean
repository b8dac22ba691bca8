import Ptpd.Run
import Ptpd.Lib.EachStep
import Mathlib.Tactic.Linarith

/-! # The contract of the timers (`dep/timer.c`)

    `catchAlarm` only counts; the time is charged to every running timer by the
    next `timerExpired`, whichever timer that asks about. So a timer that is
    started while time is pending is charged for time before its start, and a
    timer that is stopped with its flag set still reports its expiry. Where
    neither happens, `k` expiries of a timer of `v` ms take `k * v` ms.
-/

namespace Ptpd

open MachineInt Steps

/-! ## Operations -/

inductive TimerOp where
  | catchAlarm (time_ms : UInt32)
  | timerStart (index : Timer) (interval_ms : Int)
  | timerStop (index : Timer)
  | timerExpired (index : Timer)
deriving DecidableEq

namespace TimerOp

/-- `interval_ms` is a positive unsigned 32-bit value. -/
def Valid : TimerOp → Prop
  | .timerStart _ interval_ms => 0 < interval_ms ∧ interval_ms < 2 ^ 32
  | _ => True

instance : DecidablePred Valid := fun op => by
  cases op <;> unfold Valid <;> infer_instance

/-- The milliseconds that an operation reports. -/
def reports : TimerOp → Nat
  | .catchAlarm time_ms => time_ms.toNat
  | _ => 0

end TimerOp

/-! ## What the user of a timer has seen -/

/-- Since the timer was last started: with which interval, the time reported,
    how often it expired, and whether it was stopped. -/
structure Watch where
  interval : Int
  reported : Nat
  fired : Nat
  stopped : Bool
deriving DecidableEq

/-- The timers and what was seen of each one that was started. -/
structure Watched where
  world : World
  watch : Timer → Option Watch

/-- Change what was seen of one timer. -/
def updateWatch (watch : Timer → Option Watch) (index : Timer) (f : Watch → Watch) :
    Timer → Option Watch :=
  fun i => if i = index then (watch i).map f else watch i

/-- `timerExpired(index)` returned this value and left this world. -/
def Watched.asked (s : Watched) (index : Timer) (call : Bool × World) : Watched where
  world := call.2
  watch :=
    if call.1 then updateWatch s.watch index fun x => { x with fired := x.fired + 1 } else s.watch

/-- One operation, and what is seen of it. -/
def Watched.step (s : Watched) : TimerOp → Watched
  | .catchAlarm time_ms =>
    { world := catchAlarm time_ms s.world
      watch := fun i =>
        (s.watch i).map fun x => { x with reported := x.reported + time_ms.toNat } }
  | .timerStart index interval_ms =>
    { world := timerStart index interval_ms s.world
      watch := fun i => if i = index then some ⟨interval_ms, 0, 0, false⟩ else s.watch i }
  | .timerStop index =>
    { world := timerStop index s.world
      watch := updateWatch s.watch index fun x => { x with stopped := true } }
  | .timerExpired index => s.asked index (timerExpired index s.world)

/-- No timer was started yet. -/
def Watched.start (w : World) : Watched := ⟨w, fun _ => none⟩

/-- What the timers promise of one operation: afterwards no timer has expired
    more often than the time reported allows, and the one asked about does not
    expire when it is stopped. -/
structure Watched.Kept (s : Watched) (op : TimerOp) : Prop where
  enough : ∀ i x, (s.step op).watch i = some x → (x.fired : Int) * x.interval ≤ x.reported
  running : ∀ i x, op = .timerExpired i → s.watch i = some x →
    (timerExpired i s.world).1 = true → x.stopped = false

/-- Started with no time pending, stopped with no expiry pending. -/
def Watched.Settled (s : Watched) : TimerOp → Prop
  | .timerStart _ _ => s.world.elapsed_ms = 0
  | .timerStop index => (s.world.itimer index).expire = false
  | _ => True

instance (s : Watched) : DecidablePred s.Settled := fun op => by
  cases op <;> unfold Watched.Settled <;> infer_instance

/-! ## One timer -/

/-- A timer and what was seen of it, `pending` ms not being charged yet. While
    it runs, its expiries, what is gone of the current interval and what is
    pending do not exceed the time reported. -/
inductive IntervalTimer.Agrees (pending : Int) (t : IntervalTimer) (x : Watch) : Prop where
  | running (hstopped : x.stopped = false) (hinterval : t.interval = x.interval)
      (hrange : t.interval < 2 ^ 31) (hleft : 0 < t.left ∧ t.left ≤ t.interval)
      (hspent : (x.fired + if t.expire then 1 else 0) * t.interval + (t.interval - t.left) + pending
        ≤ x.reported)
  -- an interval from 2^31 on is negative, and never runs
  | negative (hstopped : x.stopped = false) (hinterval : t.interval ≤ 0) (hfired : x.fired = 0)
      (hexpire : t.expire = false) (hpending : pending ≤ x.reported)
  | stopped (hstopped : x.stopped = true) (hinterval : t.interval = 0)
      (hexpire : t.expire = false) (hspent : (x.fired : Int) * x.interval ≤ x.reported)
      (hpending : pending ≤ x.reported)

namespace IntervalTimer.Agrees

variable {pending : Int} {t : IntervalTimer} {x : Watch}

/-- The expiries so far did not take more than the time reported. -/
theorem fired_le (h : t.Agrees pending x) (hp : 0 ≤ pending) :
    (x.fired : Int) * x.interval ≤ x.reported := by
  cases h with
  | running hstopped hinterval hrange hleft hspent =>
    have hone : (0 : Int) ≤ (if t.expire then 1 else 0) * t.interval := by
      split
      · omega
      · omega
    rw [← hinterval]
    rw [add_mul] at hspent
    omega
  | negative hstopped hinterval hfired hexpire hpending =>
    rw [hfired]
    omega
  | stopped hstopped hinterval hexpire hspent hpending => exact hspent

/-- Nor is more time pending. -/
theorem pending_le (h : t.Agrees pending x) : pending ≤ x.reported := by
  cases h with
  | running hstopped hinterval hrange hleft hspent =>
    have hfired : (0 : Int) ≤ (x.fired + if t.expire then 1 else 0) * t.interval := by
      apply mul_nonneg
      · split <;> omega
      · omega
    omega
  | negative hstopped hinterval hfired hexpire hpending => exact hpending
  | stopped hstopped hinterval hexpire hspent hpending => exact hpending

/-- Time that is reported is pending at first. -/
theorem report (h : t.Agrees pending x) (d : Nat) :
    t.Agrees (pending + d) { x with reported := x.reported + d } := by
  cases h with
  | running hstopped hinterval hrange hleft hspent =>
    refine running hstopped hinterval hrange hleft ?_
    push_cast
    omega
  | negative hstopped hinterval hfired hexpire hpending =>
    refine negative hstopped hinterval hfired hexpire ?_
    push_cast
    omega
  | stopped hstopped hinterval hexpire hspent hpending =>
    refine stopped hstopped hinterval hexpire ?_ ?_
    · push_cast
      omega
    · push_cast
      omega

/-- Pending time is charged to the timer. If that ends the interval, one more
    expiry is due, and what is left over of the charge is dropped. -/
theorem advance (h : t.Agrees pending x) (hp : 0 < pending) (hmax : x.reported < 2 ^ 31) :
    (t.advance pending).Agrees 0 x := by
  have hle := h.pending_le
  cases h with
  | running hstopped hinterval hrange hleft hspent =>
    have hwrap : wrapS 32 (t.left - pending) = t.left - pending := wrapS_32 (by omega) (by omega)
    unfold IntervalTimer.advance
    rw [if_pos (by omega), hwrap]
    dsimp only
    split
    · refine running hstopped hinterval hrange ?_ ?_
      · exact ⟨hleft.1.trans_le hleft.2, le_refl _⟩
      · -- the charge used up the interval
        have hone : (0 : Int) ≤ (if t.expire then 1 else 0) * t.interval := by
          split <;> omega
        rw [add_mul] at hspent
        simp only [if_true]
        rw [add_mul]
        omega
    · refine running hstopped hinterval hrange ?_ ?_
      · dsimp only
        omega
      · dsimp only
        omega
  | negative hstopped hinterval hfired hexpire hpending =>
    unfold IntervalTimer.advance
    rw [if_neg (by omega)]
    exact negative hstopped hinterval hfired hexpire (by omega)
  | stopped hstopped hinterval hexpire hspent hpending =>
    unfold IntervalTimer.advance
    rw [if_neg (by omega)]
    exact stopped hstopped hinterval hexpire hspent (by omega)

/-- A flag that is set belongs to a timer that runs. -/
theorem of_expire (h : t.Agrees pending x) (hexpire : t.expire = true) : x.stopped = false := by
  cases h with
  | running hstopped _ _ _ _ => exact hstopped
  | negative hstopped _ _ _ _ => exact hstopped
  | stopped _ _ hno _ _ =>
    rw [hexpire] at hno
    exact absurd hno (by decide)

/-- Its expiry is seen, and the flag cleared. -/
theorem take (h : t.Agrees pending x) (hexpire : t.expire = true) :
    IntervalTimer.Agrees pending { t with expire := false } { x with fired := x.fired + 1 } := by
  cases h with
  | running hstopped hinterval hrange hleft hspent =>
    refine running hstopped hinterval hrange hleft ?_
    rw [hexpire] at hspent
    simp only [if_true, Bool.false_eq_true, if_false] at hspent ⊢
    push_cast
    rw [add_zero]
    exact hspent
  | negative _ _ _ hno _ =>
    rw [hexpire] at hno
    exact absurd hno (by decide)
  | stopped _ _ hno _ _ =>
    rw [hexpire] at hno
    exact absurd hno (by decide)

/-- Stopped with a clear flag, the timer is silent. -/
theorem stop (h : t.Agrees pending x) (hp : 0 ≤ pending) (hexpire : t.expire = false) :
    IntervalTimer.Agrees pending { t with interval := 0 } { x with stopped := true } :=
  .stopped rfl rfl hexpire (h.fired_le hp) h.pending_le

/-- A timer just started, with nothing pending. -/
theorem start {v : Int} (hv : 0 < v ∧ v < 2 ^ 32) :
    IntervalTimer.Agrees 0 ⟨wrapS 32 v, wrapS 32 v, false⟩ ⟨v, 0, 0, false⟩ := by
  rcases lt_or_ge v (2 ^ 31) with hlt | hge
  · have hwrap : wrapS 32 v = v := wrapS_32 (by omega) (by omega)
    rw [hwrap]
    exact running rfl rfl hlt ⟨hv.1, le_refl v⟩ (by simp)
  · have hneg : wrapS 32 v ≤ 0 := by
      rw [← wrapS_sub_pow, wrapS_32 (by omega) (by omega)]
      omega
    exact negative rfl hneg rfl rfl (le_refl 0)

end IntervalTimer.Agrees

/-! ## All timers -/

/-- Every timer that was started agrees with what was seen of it. -/
def Watched.Agrees (s : Watched) : Prop :=
  ∀ i x, s.watch i = some x → (s.world.itimer i).Agrees s.world.elapsed_ms.toNat x

/-- No watch has run for longer than a signed 32-bit count of milliseconds. -/
def Watched.Short (s : Watched) : Prop :=
  ∀ i x, s.watch i = some x → x.reported < 2 ^ 31

namespace Watched

variable {s : Watched} {i index : Timer} {x : Watch}

/-- `timerUpdate` on a pending time of `delta`. -/
def chargeTimers (delta : Int) (w : World) : World :=
  let w := { w with elapsed_ms := 0 }
  if delta ≤ 0 then w
  else { w with itimer := fun i => (w.itimer i).advance delta }

theorem timerUpdate_eq (w : World) :
    timerUpdate w = chargeTimers (wrapS 32 w.elapsed_ms.toNat) w := by
  delta timerUpdate chargeTimers
  with_reducible rfl

theorem chargeTimers_itimer (delta : Int) (w : World) (i : Timer) :
    (chargeTimers delta w).itimer i =
      if delta ≤ 0 then w.itimer i else (w.itimer i).advance delta := by
  unfold chargeTimers
  dsimp only
  split <;> rfl

theorem chargeTimers_elapsed_ms (delta : Int) (w : World) :
    (chargeTimers delta w).elapsed_ms = 0 := by
  unfold chargeTimers
  dsimp only
  split <;> rfl

/-- What is pending is charged to each timer. -/
theorem Agrees.timerUpdate (h : s.Agrees) (hshort : s.Short) (hx : s.watch i = some x) :
    ((timerUpdate s.world).itimer i).Agrees 0 x := by
  have hagrees := h i x hx
  have hle := hagrees.pending_le
  have hmax := hshort i x hx
  rw [timerUpdate_eq, wrapS_32 (by omega) (by omega), chargeTimers_itimer]
  split
  · rename_i hzero
    have hpending : (s.world.elapsed_ms.toNat : Int) = 0 := by omega
    rw [hpending] at hagrees
    exact hagrees
  · exact hagrees.advance (by omega) hmax

theorem timerUpdate_elapsed_ms (w : World) : (Ptpd.timerUpdate w).elapsed_ms = 0 := by
  rw [timerUpdate_eq]
  exact chargeTimers_elapsed_ms _ w

/-! The flag is read and cleared after the update. -/

theorem timerExpired_eq (index : Timer) (w : World) :
    Ptpd.timerExpired index w = takeExpire index (Ptpd.timerUpdate w) := by
  delta Ptpd.timerExpired
  with_reducible rfl

theorem takeExpire_fst (index : Timer) (w : World) :
    (takeExpire index w).1 = (w.itimer index).expire := by
  unfold takeExpire
  cases hexpire : (w.itimer index).expire <;> rfl

theorem takeExpire_elapsed_ms (index : Timer) (w : World) :
    (takeExpire index w).2.elapsed_ms = w.elapsed_ms := by
  unfold takeExpire
  split <;> rfl

theorem takeExpire_itimer (index : Timer) (w : World) (i : Timer) :
    (takeExpire index w).2.itimer i =
      if i = index ∧ (w.itimer i).expire = true then { w.itimer i with expire := false }
      else w.itimer i := by
  unfold takeExpire
  by_cases hi : i = index
  · subst hi
    cases hexpire : (w.itimer i).expire
    · simp
    · simp [World.setTimer]
  · have hno : ¬ (i = index ∧ (w.itimer i).expire = true) := fun h => hi h.1
    rw [if_neg hno]
    split
    · rfl
    · exact if_neg hi

/-! ## One operation -/

theorem Agrees.catchAlarm (h : s.Agrees) {d : UInt32}
    (hbound : ∀ i x, s.watch i = some x → x.reported + d.toNat < 2 ^ 31) :
    (s.step (.catchAlarm d)).Agrees := by
  intro i x' hx'
  obtain ⟨x, hx, rfl⟩ := Option.map_eq_some_iff.mp hx'
  have hagrees := h i x hx
  have hle := hagrees.pending_le
  have hmax := hbound i x hx
  -- the counter is below the time reported, so it does not wrap
  have hsum : (s.world.elapsed_ms + d).toNat = s.world.elapsed_ms.toNat + d.toNat := by
    rw [UInt32.toNat_add, Nat.mod_eq_of_lt]
    omega
  have hreport := hagrees.report d.toNat
  show (s.world.itimer i).Agrees ((s.world.elapsed_ms + d).toNat : Nat) _
  rw [hsum]
  push_cast
  exact hreport

theorem Agrees.timerStart (h : s.Agrees) {v : Int} (hv : 0 < v ∧ v < 2 ^ 32)
    (hsettled : s.world.elapsed_ms = 0) : (s.step (.timerStart index v)).Agrees := by
  intro i x hx
  show IntervalTimer.Agrees s.world.elapsed_ms.toNat
    (if i = index then ⟨wrapS 32 v, wrapS 32 v, false⟩ else s.world.itimer i) x
  have hwatch : (if i = index then some (⟨v, 0, 0, false⟩ : Watch) else s.watch i) = some x := hx
  by_cases hi : i = index
  · rw [if_pos hi] at hwatch ⊢
    obtain rfl := Option.some.inj hwatch
    rw [hsettled]
    exact IntervalTimer.Agrees.start hv
  · rw [if_neg hi] at hwatch ⊢
    exact h i x hwatch

theorem Agrees.timerStop (h : s.Agrees) (hsettled : (s.world.itimer index).expire = false) :
    (s.step (.timerStop index)).Agrees := by
  intro i x' hx'
  show IntervalTimer.Agrees s.world.elapsed_ms.toNat
    (if i = index then { s.world.itimer index with interval := 0 } else s.world.itimer i) x'
  have hwatch : (if i = index then (s.watch i).map fun x => { x with stopped := true }
    else s.watch i) = some x' := hx'
  by_cases hi : i = index
  · subst hi
    rw [if_pos rfl] at hwatch ⊢
    obtain ⟨x, hx, rfl⟩ := Option.map_eq_some_iff.mp hwatch
    exact (h i x hx).stop (by omega) hsettled
  · rw [if_neg hi] at hwatch ⊢
    exact h i x' hwatch

/-- A timer that is asked about after the update. -/
theorem agrees_asked {w : World} (hpending : w.elapsed_ms = 0)
    (h : ∀ i x, s.watch i = some x → (w.itimer i).Agrees 0 x) (index : Timer) :
    (s.asked index (takeExpire index w)).Agrees := by
  intro i x' hx'
  unfold asked at hx' ⊢
  dsimp only at hx' ⊢
  rw [takeExpire_elapsed_ms, hpending, takeExpire_itimer]
  rw [takeExpire_fst] at hx'
  cases hexpire : (w.itimer index).expire with
  | false =>
    rw [hexpire] at hx'
    rw [if_neg (by rintro ⟨rfl, htrue⟩; simp_all)]
    exact h i x' hx'
  | true =>
    rw [hexpire, if_pos rfl] at hx'
    unfold updateWatch at hx'
    by_cases hi : i = index
    · subst hi
      rw [if_pos rfl] at hx'
      obtain ⟨x, hx, rfl⟩ := Option.map_eq_some_iff.mp hx'
      rw [if_pos ⟨rfl, hexpire⟩]
      exact (h i x hx).take hexpire
    · rw [if_neg hi] at hx'
      have hno : ¬ (i = index ∧ (w.itimer i).expire = true) := fun h => hi h.1
      rw [if_neg hno]
      exact h i x' hx'

theorem Agrees.timerExpired (h : s.Agrees) (hshort : s.Short) (index : Timer) :
    (s.step (.timerExpired index)).Agrees := by
  show (s.asked index (Ptpd.timerExpired index s.world)).Agrees
  rw [timerExpired_eq]
  exact agrees_asked (timerUpdate_elapsed_ms s.world) (fun _ _ hx => h.timerUpdate hshort hx) index

theorem updateWatch_reported {f : Watch → Watch} (hf : ∀ x, (f x).reported = x.reported)
    {watch : Timer → Option Watch} {x' : Watch} (h : updateWatch watch index f i = some x') :
    ∃ x, watch i = some x ∧ x'.reported = x.reported := by
  unfold updateWatch at h
  split at h
  · obtain ⟨x, hx, rfl⟩ := Option.map_eq_some_iff.mp h
    exact ⟨x, hx, hf x⟩
  · exact ⟨x', h, rfl⟩

theorem asked_reported {call : Bool × World} {x' : Watch}
    (h : (s.asked index call).watch i = some x') :
    ∃ x, s.watch i = some x ∧ x'.reported = x.reported := by
  unfold asked at h
  dsimp only at h
  split at h
  · exact updateWatch_reported (f := fun x => { x with fired := x.fired + 1 }) (fun _ => rfl) h
  · exact ⟨x', h, rfl⟩

/-- What an operation adds to the time reported to a timer. -/
theorem step_reported {op : TimerOp} {x' : Watch} (h : (s.step op).watch i = some x') :
    x'.reported = 0 ∨ ∃ x, s.watch i = some x ∧ x'.reported = x.reported + op.reports := by
  cases op with
  | catchAlarm d =>
    obtain ⟨x, hx, rfl⟩ := Option.map_eq_some_iff.mp h
    exact Or.inr ⟨x, hx, rfl⟩
  | timerStart index v =>
    have hwatch : (if i = index then some (⟨v, 0, 0, false⟩ : Watch) else s.watch i) = some x' := h
    split at hwatch
    · obtain rfl := Option.some.inj hwatch
      exact Or.inl rfl
    · exact Or.inr ⟨x', hwatch, rfl⟩
  | timerStop index =>
    exact Or.inr (updateWatch_reported (f := fun x => { x with stopped := true }) (fun _ => rfl) h)
  | timerExpired index => exact Or.inr (asked_reported h)

/-! ## Runs -/

/-- What holds before the operations still to come. -/
structure Sound (s : Watched) (ops : List TimerOp) : Prop where
  agrees : s.Agrees
  valid : ∀ op ∈ ops, op.Valid
  total : (ops.map TimerOp.reports).sum < 2 ^ 31
  reported : ∀ i x, s.watch i = some x → x.reported + (ops.map TimerOp.reports).sum < 2 ^ 31

theorem Sound.short {ops : List TimerOp} (h : s.Sound ops) : s.Short := by
  intro i x hx
  have hle := h.reported i x hx
  omega

/-- A settled operation on sound timers leaves them in agreement. -/
theorem Sound.agrees_step {op : TimerOp} {ops : List TimerOp} (h : s.Sound (op :: ops))
    (hsettled : s.Settled op) : (s.step op).Agrees := by
  cases op with
  | catchAlarm d =>
    apply h.agrees.catchAlarm
    intro i x hx
    have hle := h.reported i x hx
    simp only [List.map_cons, List.sum_cons, TimerOp.reports] at hle
    omega
  | timerStart index v => exact h.agrees.timerStart (h.valid _ List.mem_cons_self) hsettled
  | timerStop index => exact h.agrees.timerStop hsettled
  | timerExpired index => exact h.agrees.timerExpired h.short index

theorem Sound.step {op : TimerOp} {ops : List TimerOp} (h : s.Sound (op :: ops))
    (hsettled : s.Settled op) : (s.step op).Sound ops := by
  have htotal := h.total
  simp only [List.map_cons, List.sum_cons] at htotal
  constructor
  · exact h.agrees_step hsettled
  · intro op' hop'
    exact h.valid op' (List.mem_cons_of_mem _ hop')
  · omega
  · intro i x' hx'
    rcases step_reported hx' with hzero | ⟨x, hx, hsum⟩
    · omega
    · have hle := h.reported i x hx
      simp only [List.map_cons, List.sum_cons] at hle
      omega

/-- Sound timers keep their promise. -/
theorem Sound.kept {op : TimerOp} {ops : List TimerOp} (h : s.Sound (op :: ops))
    (hsettled : s.Settled op) : s.Kept op := by
  constructor
  · intro i x hx
    exact (h.agrees_step hsettled i x hx).fired_le (by omega)
  · rintro i x - hx hexpired
    rw [timerExpired_eq, takeExpire_fst] at hexpired
    exact (h.agrees.timerUpdate h.short hx).of_expire hexpired

end Watched

/-- **The contract of the timers** in runs that start timers with no time
    pending, and stop them with no expiry pending. -/
theorem timers_keep_contract (w : World) (ops : List TimerOp) (hvalid : ∀ op ∈ ops, op.Valid)
    (htotal : (ops.map TimerOp.reports).sum < 2 ^ 31)
    (hsettled : EachStep Watched.step Watched.Settled (.start w) ops) :
    EachStep Watched.step Watched.Kept (.start w) ops := by
  have hstart : (Watched.start w).Sound ops := by
    constructor
    · intro i x hx
      exact absurd hx (by simp [Watched.start])
    · exact hvalid
    · exact htotal
    · intro i x hx
      exact absurd hx (by simp [Watched.start])
  apply EachStep.of_invariant Watched.Sound _ hstart hsettled
  intro s op ops hsound hop
  exact ⟨hsound.kept hop, hsound.step hop⟩

theorem timers_keep_contract_stopped :
    EachStep Watched.step Watched.Kept (.start (World.zero .steady))
      [.timerStart .SYNC_INTERVAL_TIMER 10, .catchAlarm 25, .timerExpired .SYNC_INTERVAL_TIMER,
        .timerStop .SYNC_INTERVAL_TIMER, .timerExpired .SYNC_INTERVAL_TIMER] :=
  timers_keep_contract (World.zero .steady) _ (by decide) (by decide) (by decide +kernel)

/-- Time reported before the start: 5 ms are pending when the timer is started
    with 3 ms, and it expires at once. -/
theorem timers_break_contract :
    ¬ ∀ (w : World) (ops : List TimerOp), (∀ op ∈ ops, op.Valid) →
      (ops.map TimerOp.reports).sum < 2 ^ 31 →
        EachStep Watched.step Watched.Kept (.start w) ops := by
  intro h
  obtain ⟨-, -, hkept, -⟩ := h (World.zero .steady)
    [.catchAlarm 5, .timerStart .SYNC_INTERVAL_TIMER 3, .timerExpired .SYNC_INTERVAL_TIMER]
    (by decide) (by decide)
  have henough := hkept.enough .SYNC_INTERVAL_TIMER ⟨3, 0, 1, false⟩ (by decide +kernel)
  exact absurd henough (by decide)

/-- An expiry that is pending when the timer is stopped is reported after it. -/
theorem stopped_timer_expires :
    ¬ EachStep Watched.step Watched.Kept (.start (World.zero .steady))
      [.timerStart .SYNC_INTERVAL_TIMER 3, .catchAlarm 5, .timerExpired .ANNOUNCE_INTERVAL_TIMER,
        .timerStop .SYNC_INTERVAL_TIMER, .timerExpired .SYNC_INTERVAL_TIMER] := by
  rintro ⟨-, -, -, -, hkept, -⟩
  have hrunning := hkept.running .SYNC_INTERVAL_TIMER ⟨3, 5, 0, true⟩ rfl (by decide +kernel)
    (by decide +kernel)
  exact absurd hrunning (by decide)

end Ptpd
