import Ptpd.Datatypes
import Ptpd.Lib.MachineInt

/-! # Time arithmetic (`arith.c`)

    Every operation on the 32-bit fields wraps where the C operation would
    leave the range of `Integer32`; division truncates toward zero.
-/

namespace Ptpd

open MachineInt

/-- `pow2ms(a)`: 2^a seconds in milliseconds. A shift by 32 or more gives 0. -/
def pow2ms (a : Int) : Int :=
  if a > 0 then wrapS 32 (1000 * 2 ^ a.toNat) else 1000 / 2 ^ (-a).toNat

/-- Convert scaled nanoseconds (a signed 64-bit value) to a `TimeInternal`. -/
def scaledNanosecondsToInternalTime (scaledNanoseconds : Int) : TimeInternal :=
  let negative := scaledNanoseconds < 0
  -- the negation of the least 64-bit value is itself
  let magnitude := if negative then wrapS 64 (-scaledNanoseconds) else scaledNanoseconds
  let sign : Int := if negative then -1 else 1
  let nanoseconds := magnitude / 2 ^ 16
  { seconds := wrapS 32 (sign * nanoseconds.tdiv 1000000000)
    nanoseconds := wrapS 32 (sign * nanoseconds.tmod 1000000000) }

/-- Convert a `TimeInternal` to a `Timestamp`; a negative part leaves `external`
    as it was. -/
def fromInternalTime (internal : TimeInternal) (external : Timestamp) : Timestamp :=
  if internal.seconds < 0 ∨ internal.nanoseconds < 0 then external
  else
    { secondsField := { lsb := UInt32.ofInt internal.seconds, msb := 0 }
      nanosecondsField := UInt32.ofInt internal.nanoseconds }

/-- Convert a `Timestamp` to a `TimeInternal`; seconds from `INT_MAX` on leave
    `internal` as it was. -/
def toInternalTime (internal : TimeInternal) (external : Timestamp) : TimeInternal :=
  if external.secondsField.lsb.toNat < 2147483647 then
    { seconds := external.secondsField.lsb.toNat
      nanoseconds := wrapS 32 external.nanosecondsField.toNat }
  else internal

/-- Normalize the representation. -/
def normalizeTime (r : TimeInternal) : TimeInternal :=
  let seconds := wrapS 32 (r.seconds + r.nanoseconds.tdiv 1000000000)
  let nanoseconds := wrapS 32 (r.nanoseconds - r.nanoseconds.tdiv 1000000000 * 1000000000)
  if seconds > 0 ∧ nanoseconds < 0 then
    { seconds := wrapS 32 (seconds - 1), nanoseconds := wrapS 32 (nanoseconds + 1000000000) }
  else if seconds < 0 ∧ nanoseconds > 0 then
    { seconds := wrapS 32 (seconds + 1), nanoseconds := wrapS 32 (nanoseconds - 1000000000) }
  else
    { seconds := seconds, nanoseconds := nanoseconds }

def addTime (x y : TimeInternal) : TimeInternal :=
  normalizeTime
    { seconds := wrapS 32 (x.seconds + y.seconds)
      nanoseconds := wrapS 32 (x.nanoseconds + y.nanoseconds) }

def subTime (x y : TimeInternal) : TimeInternal :=
  normalizeTime
    { seconds := wrapS 32 (x.seconds - y.seconds)
      nanoseconds := wrapS 32 (x.nanoseconds - y.nanoseconds) }

def div2Time (r : TimeInternal) : TimeInternal :=
  let nanoseconds := wrapS 32 (r.nanoseconds + r.seconds.tmod 2 * 1000000000)
  normalizeTime { seconds := r.seconds.tdiv 2, nanoseconds := nanoseconds.tdiv 2 }

/-- Floor of the binary logarithm, `-1` for 0: five halvings of the range. -/
def floorLog2 (n : Nat) : Int :=
  if n = 0 then -1
  else
    let (n, pos) := if n ≥ 2 ^ 16 then (n / 2 ^ 16, 16) else (n, 0)
    let (n, pos) := if n ≥ 2 ^ 8 then (n / 2 ^ 8, pos + 8) else (n, pos)
    let (n, pos) := if n ≥ 2 ^ 4 then (n / 2 ^ 4, pos + 4) else (n, pos)
    let (n, pos) := if n ≥ 2 ^ 2 then (n / 2 ^ 2, pos + 2) else (n, pos)
    if n ≥ 2 ^ 1 then pos + 1 else pos

end Ptpd
