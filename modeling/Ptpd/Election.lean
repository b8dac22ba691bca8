import Ptpd.Codec
import Ptpd.Refinement.DoState

/-! # Two clocks that hear each other

    Between clocks of different identity the data set comparison looks at the
    grandmaster alone and decides strictly, the other way round when the sides
    are exchanged. What a clock advertises of itself is what it compares, so of
    two clocks that hold each other's Announce exactly one is to be master.
-/

namespace Ptpd

open PortState Octets

/-! ## Comparing grandmasters -/

/-- The comparison is strict and turns round with its sides. -/
structure Opposed (x y : Int) : Prop where
  neg : y = -x
  strict : x = A_better_then_B ∨ x = B_better_then_A

theorem Opposed.returnBetter {x y : Int} (h : Opposed x y) (a b : Nat) :
    Opposed (compareReturnBetter a b x) (compareReturnBetter b a y) := by
  unfold compareReturnBetter
  by_cases hab : a > b
  · rw [if_pos hab, if_neg (by omega), if_pos hab]
    exact ⟨rfl, .inr rfl⟩
  · by_cases hba : b > a
    · rw [if_neg hab, if_pos hba, if_pos hba]
      exact ⟨rfl, .inl rfl⟩
    · rw [if_neg hab, if_neg hba, if_neg hba, if_neg hab]
      exact h

/-- Different grandmasters: each step of the comparison is opposed, down to the
    identities that differ. -/
theorem bmcDataSetComparison_opposed {announceA announceB : MsgAnnounce}
    (hne : announceA.grandmasterIdentity ≠ announceB.grandmasterIdentity)
    (headerA headerB headerA' headerB' : MsgHeader) (c c' : PtpClock) :
    Opposed (bmcDataSetComparison headerA announceA headerB announceB c)
      (bmcDataSetComparison headerB' announceB headerA' announceA c') := by
  have hcomp : memcmp announceA.grandmasterIdentity.toList
      announceB.grandmasterIdentity.toList ≠ 0 := fun h => hne (memcmp_toList_eq_zero.mp h)
  have hanti := memcmp_antisymm announceA.grandmasterIdentity.toList
    announceB.grandmasterIdentity.toList
  unfold bmcDataSetComparison
  rw [hanti]
  generalize memcmp announceA.grandmasterIdentity.toList
    announceB.grandmasterIdentity.toList = comp at hcomp
  have hcomp' : -comp ≠ 0 := by omega
  dsimp only
  rw [if_pos hcomp, if_pos hcomp']
  -- the identities decide if nothing before them does
  have hlast : Opposed (if comp > 0 then B_better_then_A else A_better_then_B)
      (if -comp > 0 then B_better_then_A else A_better_then_B) := by
    by_cases hpos : comp > 0
    · rw [if_pos hpos, if_neg (by omega)]
      exact ⟨rfl, .inr rfl⟩
    · rw [if_neg hpos, if_pos (by omega)]
      exact ⟨rfl, .inl rfl⟩
  exact ((((hlast.returnBetter _ _).returnBetter _ _).returnBetter _ _).returnBetter
    _ _).returnBetter _ _

/-- Only the grandmaster's attributes are compared between different grandmasters. -/
theorem bmcDataSetComparison_congr {announceA announceA' announceB : MsgAnnounce}
    (hne : announceA.grandmasterIdentity ≠ announceB.grandmasterIdentity)
    (hid : announceA'.grandmasterIdentity = announceA.grandmasterIdentity)
    (hquality : announceA'.grandmasterClockQuality = announceA.grandmasterClockQuality)
    (h1 : announceA'.grandmasterPriority1 = announceA.grandmasterPriority1)
    (h2 : announceA'.grandmasterPriority2 = announceA.grandmasterPriority2)
    (headerA headerA' headerB : MsgHeader) (c c' : PtpClock) :
    bmcDataSetComparison headerA' announceA' headerB announceB c' =
      bmcDataSetComparison headerA announceA headerB announceB c := by
  have hcomp : memcmp announceA.grandmasterIdentity.toList
      announceB.grandmasterIdentity.toList ≠ 0 := fun h => hne (memcmp_toList_eq_zero.mp h)
  unfold bmcDataSetComparison
  dsimp only
  rw [hid, hquality, h1, h2, if_pos hcomp, if_pos hcomp]

/-! ## Advertising -/

/-- The Announce by which a clock advertises itself, packed over `buf`. -/
def advertisement (w : World) (buf : Buf) : Buf := msgPackAnnounce (m1 w).toPtpClock buf

/-- What the octets `buf` say is the only foreign master that `w` knows. -/
structure World.Knows (w : World) (buf : Buf) : Prop where
  count : w.foreignMasterDS.count = 1
  header : (w.foreignMasterDS.records 0).header = msgUnpackHeader buf
  announce : (w.foreignMasterDS.records 0).announce = msgUnpackAnnounce buf

/-- `w` once it has taken the octets `buf` for its only foreign master. -/
def World.learn (w : World) (buf : Buf) : World :=
  { w with
    foreignMasterDS.count := 1
    foreignMasterDS.records := fun _ =>
      { (default : ForeignMasterRecord) with
        header := msgUnpackHeader buf
        announce := msgUnpackAnnounce buf } }

theorem World.learn_knows (w : World) (buf : Buf) : (w.learn buf).Knows buf := ⟨rfl, rfl, rfl⟩

/-- What a clock advertises of itself does not depend on whom it knows. -/
theorem advertisement_learn (w : World) (b buf : Buf) :
    advertisement (w.learn b) buf = advertisement w buf := rfl

/-- The decision over the only foreign record. -/
def World.decision (w : World) : PortState :=
  (bmcStateDecision (w.foreignMasterDS.records 0).header (w.foreignMasterDS.records 0).announce
    w).1

/-- What a clock advertises is what it compares of itself. -/
theorem advertisement_copyD0 (w : World) (buf : Buf) :
    (msgUnpackAnnounce (advertisement w buf)).grandmasterIdentity =
        (copyD0 w).msgTmpAnnounce.grandmasterIdentity ∧
      (msgUnpackAnnounce (advertisement w buf)).grandmasterClockQuality =
        (copyD0 w).msgTmpAnnounce.grandmasterClockQuality ∧
      (msgUnpackAnnounce (advertisement w buf)).grandmasterPriority1 =
        (copyD0 w).msgTmpAnnounce.grandmasterPriority1 ∧
      (msgUnpackAnnounce (advertisement w buf)).grandmasterPriority2 =
        (copyD0 w).msgTmpAnnounce.grandmasterPriority2 := by
  unfold advertisement
  rw [msgUnpackAnnounce_pack]
  exact ⟨rfl, rfl, rfl, rfl⟩

/-- The port is to be master exactly if the local clock is better. -/
theorem bmcStateDecision_master_iff {header : MsgHeader} {announce : MsgAnnounce} {w : World}
    (hcount : w.foreignMasterDS.count ≠ 0) :
    (bmcStateDecision header announce w).1 = PTP_MASTER ↔
      bmcDataSetComparison (copyD0 w).msgTmpHeader (copyD0 w).msgTmpAnnounce header announce
        (copyD0 w).toPtpClock = A_better_then_B := by
  have hdecide : bmcStateDecision header announce w = _ := if_neg fun h => hcount h.1
  rw [hdecide]
  dsimp only
  generalize bmcDataSetComparison (copyD0 w).msgTmpHeader (copyD0 w).msgTmpAnnounce header announce
    (copyD0 w).toPtpClock = comp
  by_cases hbetter : A_better_then_B = comp
  · rw [if_pos hbetter, if_pos hbetter]
    split <;> exact ⟨fun _ => hbetter.symm, fun _ => rfl⟩
  · rw [if_neg hbetter, if_neg hbetter]
    split <;> exact ⟨fun h => (nomatch h), fun h => absurd h.symm hbetter⟩

/-- Of two clocks that know each other's advertisement, exactly one is to be master. -/
theorem exactly_one_master {x y : World} {bufX bufY : Buf}
    (hid : x.defaultDS.clockIdentity ≠ y.defaultDS.clockIdentity)
    (hx : x.Knows (advertisement y bufY)) (hy : y.Knows (advertisement x bufX)) :
    Xor (x.decision = PTP_MASTER) (y.decision = PTP_MASTER) := by
  obtain ⟨hidX, hqualityX, h1X, h2X⟩ := advertisement_copyD0 x bufX
  obtain ⟨hidY, hqualityY, h1Y, h2Y⟩ := advertisement_copyD0 y bufY
  have hne : (copyD0 x).msgTmpAnnounce.grandmasterIdentity ≠
      (copyD0 y).msgTmpAnnounce.grandmasterIdentity := hid
  have hX : x.decision = PTP_MASTER ↔ _ :=
    bmcStateDecision_master_iff (by rw [hx.count]; decide)
  have hY : y.decision = PTP_MASTER ↔ _ :=
    bmcStateDecision_master_iff (by rw [hy.count]; decide)
  rw [hx.announce, hx.header] at hX
  rw [hy.announce, hy.header] at hY
  generalize msgUnpackAnnounce (advertisement y bufY) = announceY at *
  generalize msgUnpackAnnounce (advertisement x bufX) = announceX at *
  generalize msgUnpackHeader (advertisement y bufY) = headerY at *
  generalize msgUnpackHeader (advertisement x bufX) = headerX at *
  have hne' : announceX.grandmasterIdentity ≠ announceY.grandmasterIdentity := by
    rw [hidX, hidY]
    exact hne
  -- what a clock compares of itself is what it advertises
  have hmine : bmcDataSetComparison (copyD0 x).msgTmpHeader (copyD0 x).msgTmpAnnounce headerY
      announceY (copyD0 x).toPtpClock =
        bmcDataSetComparison headerX announceX headerY announceY (copyD0 x).toPtpClock :=
    bmcDataSetComparison_congr hne' hidX.symm hqualityX.symm h1X.symm h2X.symm _ _ _ _ _
  have hyours : bmcDataSetComparison (copyD0 y).msgTmpHeader (copyD0 y).msgTmpAnnounce headerX
      announceX (copyD0 y).toPtpClock =
        bmcDataSetComparison headerY announceY headerX announceX (copyD0 y).toPtpClock :=
    bmcDataSetComparison_congr hne'.symm hidY.symm hqualityY.symm h1Y.symm h2Y.symm _ _ _ _ _
  rw [hX, hY, hmine, hyours]
  obtain ⟨hneg, hstrict⟩ := bmcDataSetComparison_opposed hne' headerX headerY headerX headerY
    (copyD0 x).toPtpClock (copyD0 y).toPtpClock
  rw [hneg]
  generalize bmcDataSetComparison headerX announceX headerY announceY _ = comp at hstrict ⊢
  -- one of the two is better, and sees itself so
  rcases hstrict with rfl | rfl
  · exact .inl ⟨rfl, by decide⟩
  · exact .inr ⟨by decide, by decide⟩

/-- A board with this identity. -/
def board (id : UInt8) : World :=
  { World.zero .steady with defaultDS.clockIdentity := Vector.replicate 8 id }

/-- The same once it has heard the other. -/
def boardOf (id other : UInt8) : World :=
  (board id).learn (advertisement (board other) fun _ => 0)

theorem boardOf_knows (id other : UInt8) :
    (boardOf id other).Knows (advertisement (boardOf other id) fun _ => 0) := by
  rw [boardOf, boardOf, advertisement_learn]
  exact World.learn_knows _ _

theorem exactly_one_master_boards :
    Xor ((boardOf 1 2).decision = PTP_MASTER) ((boardOf 2 1).decision = PTP_MASTER) :=
  exactly_one_master (by decide) (boardOf_knows 1 2) (boardOf_knows 2 1)

end Ptpd
