import Ptpd.Arith
import Ptpd.World

/-! # Timers (`dep/timer.c`)

    Time passes only in `catchAlarm`; the timers see it at the next
    `timerUpdate`, which empties the counter.
-/

namespace Ptpd

open MachineInt

def catchAlarm (time_ms : UInt32) (w : World) : World :=
  { w with elapsed_ms := w.elapsed_ms + time_ms }

def initTimer (w : World) : World :=
  { w with elapsed_ms := 0 }

/-- One timer after `delta` milliseconds. -/
def IntervalTimer.advance (delta : Int) (t : IntervalTimer) : IntervalTimer :=
  if t.interval > 0 then
    let left := wrapS 32 (t.left - delta)
    if left ≤ 0 then { t with left := t.interval, expire := true } else { t with left := left }
  else t

def timerUpdate (w : World) : World :=
  let delta := wrapS 32 w.elapsed_ms.toNat
  let w := { w with elapsed_ms := 0 }
  if delta ≤ 0 then w
  else { w with itimer := fun i => (w.itimer i).advance delta }

/-- `itimer[index] = t`. -/
def World.setTimer (w : World) (index : Timer) (t : IntervalTimer) : World :=
  { w with itimer := fun i => if i = index then t else w.itimer i }

def timerStop (index : Timer) (w : World) : World :=
  w.setTimer index { w.itimer index with interval := 0 }

def timerStart (index : Timer) (interval_ms : Int) (w : World) : World :=
  w.setTimer index
    { interval := wrapS 32 interval_ms, left := wrapS 32 interval_ms, expire := false }

/-- Read the expiry flag of an up-to-date timer, and clear it. -/
def takeExpire (index : Timer) (w : World) : Bool × World :=
  if !(w.itimer index).expire then (false, w)
  else (true, w.setTimer index { w.itimer index with expire := false })

/-- The value of `timerExpired(index)` and the clock after it. -/
def timerExpired (index : Timer) (w : World) : Bool × World :=
  takeExpire index (timerUpdate w)

/-- Branch on the value of a call, in the world that the call leaves. -/
def branch (f g : World → World) (call : Bool × World) : World :=
  if call.1 then f call.2 else g call.2

/-- `if (timerExpired(index)) f else g`. -/
def ifExpired (index : Timer) (f g : World → World) (w : World) : World :=
  branch f g (timerExpired index w)

end Ptpd
