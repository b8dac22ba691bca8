import Mathlib.Data.UInt
import Mathlib.Logic.Function.Basic

/-! # The IRIG-B time code (`irig_b.c`)

    A second of the code is a frame of 100 pulses, each a bit or a position
    marker. The sender gives the pulses of its time one after the other; the
    receiver stores what it recognizes and reads a time from what it has stored.
-/

namespace Ptpd

def zero_code : UInt8 := 0

def one_code : UInt8 := 1

def p_code : UInt8 := 2

/-- `b_dc`. -/
structure BDc where
  sec : UInt8
  min : UInt8
  hour : UInt8
  day : UInt16
  daysec : UInt32
  year : UInt8
  leap : UInt8
deriving DecidableEq

/-! ## Digits -/

def DecToBcd (Dec : UInt16) : UInt16 :=
  if Dec = 0 then 0
  else if Dec > 99 then ((Dec / 100) <<< 8) ||| (((Dec % 100) / 10) <<< 4) ||| (Dec % 10)
  else ((Dec / 10) <<< 4) ||| (Dec % 10)

def BcdToDec (Bcd : UInt16) : UInt16 :=
  let ones : UInt16 := Bcd &&& 0x0f
  let tens : UInt16 := (Bcd &&& 0x00f0) >>> 4
  let hundreds : UInt16 := (Bcd &&& 0x0f00) >>> 8
  (ones + tens * 10) + hundreds * 100

/-- The macro, on a variable of eight bits: it has no hundreds. -/
def BCD_TO_DEC (bcd : UInt8) : UInt8 :=
  let ones : UInt16 := bcd.toUInt16 &&& 0x0f
  let tens : UInt16 := bcd.toUInt16 >>> 4
  let hundreds : UInt16 := (bcd.toUInt16 &&& 0x0f00) >>> 8
  ((ones + tens * 10) + hundreds * 100).toUInt8

/-- Reverse the bits. -/
def shift_fun (data : UInt8) : UInt8 :=
  if data = 0 then 0
  else
    let data : UInt8 := (data <<< 4) ||| (data >>> 4)
    let left : UInt8 := data <<< 2
    let right : UInt8 := data >>> 2
    let data : UInt8 := (left &&& 0xcc) ||| (right &&& 0x33)
    let left : UInt8 := data <<< 1
    let right : UInt8 := data >>> 1
    (left &&& 0xaa) ||| (right &&& 0x55)

def ToBcode (data : UInt8) : UInt8 :=
  if data = 0 then 0
  else
    let tmp : UInt8 := (data &&& 0x0f) >>> 1
    (data &&& 0xf0) ||| tmp

/-! ## The sender -/

/-- `ToBcode((shift_fun(DecToBcd(Dec))) >> shift)&0x01`. The shift is one of an `int`. -/
def codeBit (Dec : UInt16) (shift : UInt8) : UInt8 :=
  ToBcode ((shift_fun (DecToBcd Dec).toUInt8).toUInt32 >>> shift.toUInt32).toUInt8 &&& 0x01

/-- `(shift_fun(daysec) >> shift)&0x01`. -/
def daysecBit (daysec : UInt32) (shift : UInt8) : UInt8 :=
  ((shift_fun daysec.toUInt8).toUInt32 >>> shift.toUInt32).toUInt8 &&& 0x01

/-- The `state` at the position. -/
def irigState (b_code : BDc) (pos : UInt8) : UInt8 :=
  if pos = 0 ∨ pos = 9 ∨ pos = 19 ∨ pos = 29 ∨ pos = 39 ∨ pos = 49 ∨ pos = 59 ∨ pos = 69 ∨
      pos = 79 ∨ pos = 89 ∨ pos = 99 then p_code
  else if pos < 9 then codeBit b_code.sec.toUInt16 pos
  else if pos > 9 ∧ pos < 19 then codeBit b_code.min.toUInt16 (pos - 10)
  else if pos > 19 ∧ pos < 29 then codeBit b_code.hour.toUInt16 (pos - 20)
  else if pos > 29 ∧ pos < 39 then codeBit (b_code.day % 100) (pos - 30)
  else if pos > 39 ∧ pos < 49 then codeBit (b_code.day / 100) (pos - 40)
  else if pos > 49 ∧ pos < 59 then zero_code
  else if pos > 59 ∧ pos < 69 then zero_code
  else if pos > 69 ∧ pos < 79 then zero_code
  else if pos > 79 ∧ pos < 89 then daysecBit (b_code.daysec % 512) (pos - 80)
  else if pos > 89 ∧ pos < 99 then daysecBit (b_code.daysec / 512) (pos - 90)
  else p_code

/-- The state sent at the position, and the next position. -/
def step_irig_b_out (b_code : BDc) (pos : UInt8) : UInt8 × UInt8 :=
  let state := irigState b_code pos
  let pos := pos + 1
  (state, if pos ≥ 100 then 0 else pos)

/-- The states of so many steps. -/
def irigStates (b_code : BDc) : Nat → UInt8 → List UInt8
  | 0, _ => []
  | n + 1, pos => (step_irig_b_out b_code pos).1 :: irigStates b_code n (step_irig_b_out b_code pos).2

/-- The width of a pulse in microseconds: `irig_b_out` makes it a part of ten milliseconds. -/
def irig_b_out (state : UInt8) : UInt16 :=
  if state = zero_code then 2000 else if state = one_code then 5000 else 8000

/-! ## The receiver -/

/-- The variables of `irig_b_in`. `Bcode` is the memory from the array's first element on, as far
    as an index of eight bits goes. -/
structure IrigIn where
  BCodeStartFlag : UInt8
  BCodeStartCnt : UInt8
  BCodeRuningCnt : UInt8
  Bcode : UInt8 → UInt8
  BTime : BDc

/-- A write to `Bcode` or to `BTime`. -/
inductive IrigWrite where
  | Bcode (index : UInt8)
  | BTime
deriving DecidableEq

/-- `Bcode[BCodeRuningCnt++] = code`. -/
def IrigIn.put (d : IrigIn) (code : UInt8) : IrigIn :=
  { d with
    Bcode := Function.update d.Bcode d.BCodeRuningCnt code
    BCodeRuningCnt := d.BCodeRuningCnt + 1 }

/-- The time that is read from the array. -/
def IrigIn.readTime (d : IrigIn) : BDc :=
  let b := d.Bcode
  let w := fun i => (d.Bcode i).toUInt16
  { sec := BCD_TO_DEC ((b 8 <<< 6) ||| (b 7 <<< 5) ||| (b 6 <<< 4) ||| (b 4 <<< 3) |||
      (b 3 <<< 2) ||| (b 2 <<< 1) ||| b 1)
    min := BCD_TO_DEC ((b 17 <<< 6) ||| (b 16 <<< 5) ||| (b 15 <<< 4) ||| (b 13 <<< 3) |||
      (b 12 <<< 2) ||| (b 11 <<< 1) ||| b 10)
    hour := BCD_TO_DEC ((b 26 <<< 5) ||| (b 25 <<< 4) ||| (b 23 <<< 3) ||| (b 22 <<< 2) |||
      (b 21 <<< 1) ||| b 20)
    day := BcdToDec ((w 41 <<< 9) ||| (w 40 <<< 8) ||| (w 38 <<< 7) ||| (w 37 <<< 6) |||
      (w 36 <<< 5) ||| (w 35 <<< 4) ||| (w 33 <<< 3) ||| (w 32 <<< 2) ||| (w 31 <<< 1) ||| w 30)
    leap := (b 60 <<< 1) ||| b 61
    year := BCD_TO_DEC ((b 58 <<< 7) ||| (b 57 <<< 6) ||| (b 56 <<< 5) ||| (b 55 <<< 4) |||
      (b 53 <<< 3) ||| (b 52 <<< 2) ||| (b 51 <<< 1) ||| b 50)
    daysec := d.BTime.daysec }

/-- A bit was recognized. -/
def IrigIn.bit (d : IrigIn) (code : UInt8) : List IrigWrite × IrigIn :=
  let d := { d with BCodeStartCnt := 0 }
  if d.BCodeStartFlag = 1 then ([.Bcode d.BCodeRuningCnt], d.put code) else ([], d)

/-- A marker was recognized. -/
def IrigIn.marker (d : IrigIn) : List IrigWrite × IrigIn :=
  let d := { d with BCodeStartCnt := d.BCodeStartCnt + 1 }
  let d :=
    if d.BCodeStartCnt = 2 then
      { d with BCodeStartFlag := 1, BCodeStartCnt := 0, BCodeRuningCnt := 0 }
    else d
  let written := IrigWrite.Bcode d.BCodeRuningCnt
  let d := d.put p_code
  if d.BCodeRuningCnt ≥ 99 then
    ([written, .BTime], { d with BTime := d.readTime, BCodeRuningCnt := 0, BCodeStartFlag := 0 })
  else ([written], d)

/-- The writes of one call, and the variables after it. -/
def irig_b_in (d : IrigIn) (Dval : UInt16) : List IrigWrite × IrigIn :=
  if Dval > 1000 ∧ Dval < 3000 then d.bit zero_code
  else if Dval > 4000 ∧ Dval < 6000 then d.bit one_code
  else if Dval > 7000 ∧ Dval < 9000 then d.marker
  else ([], { d with BCodeStartCnt := 0 })

/-- Zeroed memory. -/
def IrigIn.initial : IrigIn := ⟨0, 0, 0, fun _ => 0, ⟨0, 0, 0, 0, 0, 0, 0⟩⟩

/-! ## What a pulse does -/

variable {d : IrigIn}

theorem irig_b_in_zero (d : IrigIn) : irig_b_in d (irig_b_out zero_code) = d.bit zero_code := rfl

theorem irig_b_in_one (d : IrigIn) : irig_b_in d (irig_b_out one_code) = d.bit one_code := rfl

theorem irig_b_in_marker (d : IrigIn) : irig_b_in d (irig_b_out p_code) = d.marker := rfl

theorem IrigIn.bit_started (h : d.BCodeStartFlag = 1) (code : UInt8) :
    d.bit code = ([.Bcode d.BCodeRuningCnt], { d with BCodeStartCnt := 0 }.put code) := if_pos h

theorem IrigIn.bit_waiting (h : d.BCodeStartFlag ≠ 1) (code : UInt8) :
    d.bit code = ([], { d with BCodeStartCnt := 0 }) := if_neg h

/-- A marker behind one that begins no frame begins a frame. -/
theorem IrigIn.marker_opens (h : d.BCodeStartCnt = 1) :
    d.marker = ([.Bcode 0],
      { d with BCodeStartFlag := 1, BCodeStartCnt := 0, BCodeRuningCnt := 0 }.put p_code) := by
  unfold IrigIn.marker
  simp only [h]
  rfl

/-- Any other is stored. -/
theorem IrigIn.marker_within (h : d.BCodeStartCnt = 0) (hindex : ¬ d.BCodeRuningCnt + 1 ≥ 99) :
    d.marker = ([.Bcode d.BCodeRuningCnt], { d with BCodeStartCnt := 1 }.put p_code) := by
  unfold IrigIn.marker
  simp only [h]
  exact if_neg hindex

/-- The last of a frame has the time read. -/
theorem IrigIn.marker_ends (h : d.BCodeStartCnt = 0) (hindex : d.BCodeRuningCnt + 1 ≥ 99) :
    d.marker = ([.Bcode d.BCodeRuningCnt, .BTime],
      { { d with BCodeStartCnt := 1 }.put p_code with
        BTime := ({ d with BCodeStartCnt := 1 }.put p_code).readTime
        BCodeRuningCnt := 0
        BCodeStartFlag := 0 }) := by
  unfold IrigIn.marker
  simp only [h]
  exact if_pos hindex

theorem IrigIn.marker_startCnt (h : d.BCodeStartCnt = 0) : d.marker.2.BCodeStartCnt = 1 := by
  by_cases hindex : d.BCodeRuningCnt + 1 ≥ 99
  · rw [marker_ends h hindex]
    rfl
  · rw [marker_within h hindex]
    rfl

end Ptpd
