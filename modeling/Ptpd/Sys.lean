import Ptpd.Arith
import Ptpd.World

/-! # System time and random numbers (`dep/sys_time.c`) -/

namespace Ptpd

/-- Read the MAC clock. -/
def getTime (w : World) : TimeInternal × World :=
  (w.platform.time.head, { w with platform.time := w.platform.time.tail })

def setTime (time : TimeInternal) (w : World) : World :=
  w.record (.setTime time)

/-- `rand() % randMax`, both unsigned 32-bit. -/
def getRand (randMax : Int) (w : World) : Int × World :=
  ((w.platform.rand.head : Int) % (randMax % 2 ^ 32),
    { w with platform.rand := w.platform.rand.tail })

/-- Clamp the adjustment and hand it to the MAC. -/
def adjFreq (adj : Int) (w : World) : World :=
  w.record (.adjFreq
    (if adj > ADJ_FREQ_MAX then ADJ_FREQ_MAX
     else if adj < -ADJ_FREQ_MAX then -ADJ_FREQ_MAX
     else adj))

/-- Contents of a `TimeInternal` local before anything is stored in it. -/
def stackTime (w : World) : TimeInternal × World :=
  (w.platform.stackTime.head, { w with platform.stackTime := w.platform.stackTime.tail })

/-- Contents of a `Timestamp` local before anything is stored in it. -/
def stackTimestamp (w : World) : Timestamp × World :=
  (w.platform.stackTimestamp.head,
    { w with platform.stackTimestamp := w.platform.stackTimestamp.tail })

/-- `Timestamp external; fromInternalTime(&internal, &external);` -/
def newTimestamp (internal : TimeInternal) (w : World) : Timestamp × World :=
  let (external, w) := stackTimestamp w
  (fromInternalTime internal external, w)

/-- `TimeInternal internal; toInternalTime(&internal, &external);` -/
def newTimeInternal (external : Timestamp) (w : World) : TimeInternal × World :=
  let (internal, w) := stackTime w
  (toInternalTime internal external, w)

end Ptpd
