import Mathlib.Data.Fintype.EquivFin
import Mathlib.Data.Fintype.Lattice
import Ptpd.Comparison
import Ptpd.Election

/-! # Any number of clocks that hear each other

    A clock advertises its own standing, and two clocks never have the same. The
    loop of `bmc` keeps the record of the lowest standing, so a clock compares
    itself with the worst of the others: of any number of clocks that have heard
    each other, all but one are to be masters.
-/

namespace Ptpd

open PortState Octets ThreeWay

/-! ## Standings -/

/-- What is compared of two grandmasters, in the order of the comparison. The
    smaller standing is the better one. -/
def MsgAnnounce.standing (a : MsgAnnounce) : Nat ×ₗ Nat ×ₗ Nat ×ₗ Nat ×ₗ Nat ×ₗ List Nat :=
  toLex (a.grandmasterPriority1.toNat,
    toLex (a.grandmasterClockQuality.clockClass.toNat,
      toLex (a.grandmasterClockQuality.clockAccuracy.toNat,
        toLex (a.grandmasterClockQuality.offsetScaledLogVariance.toNat,
          toLex (a.grandmasterPriority2.toNat, octetRank a.grandmasterIdentity)))))

/-- The standing of the local clock. -/
def World.standing (w : World) : Nat ×ₗ Nat ×ₗ Nat ×ₗ Nat ×ₗ Nat ×ₗ List Nat :=
  (copyD0 w).msgTmpAnnounce.standing

theorem standing_congr {a b : MsgAnnounce} (hid : a.grandmasterIdentity = b.grandmasterIdentity)
    (hquality : a.grandmasterClockQuality = b.grandmasterClockQuality)
    (h1 : a.grandmasterPriority1 = b.grandmasterPriority1)
    (h2 : a.grandmasterPriority2 = b.grandmasterPriority2) : a.standing = b.standing := by
  unfold MsgAnnounce.standing
  rw [hid, hquality, h1, h2]

theorem standing_identity {a b : MsgAnnounce} (h : a.standing = b.standing) :
    a.grandmasterIdentity = b.grandmasterIdentity := by
  unfold MsgAnnounce.standing at h
  simp only [toLex_inj, Prod.mk.injEq] at h
  obtain ⟨-, -, -, -, -, hid⟩ := h
  exact octetRank_inj.mp hid

/-- Between different grandmasters the comparison is that of their standings. -/
theorem bmcDataSetComparison_standing {a b : MsgAnnounce}
    (hne : a.grandmasterIdentity ≠ b.grandmasterIdentity) (headerA headerB : MsgHeader)
    (c : PtpClock) :
    bmcDataSetComparison headerA a headerB b c = threeWay a.standing b.standing := by
  have hcomp : memcmp a.grandmasterIdentity.toList b.grandmasterIdentity.toList ≠ 0 :=
    fun h => hne (memcmp_toList_eq_zero.mp h)
  have hlast := memcmp_threeWay a.grandmasterIdentity b.grandmasterIdentity
  unfold bmcDataSetComparison MsgAnnounce.standing
  dsimp only
  rw [if_pos hcomp]
  simp only [← compareReturnBetter_lex]
  rw [← hlast]
  generalize memcmp a.grandmasterIdentity.toList b.grandmasterIdentity.toList = comp at hcomp
  congr 5
  split_ifs <;> first | rfl | omega

/-- The standing of the record in this slot. -/
def PtpClock.standingAt (c : PtpClock) (k : Nat) : Nat ×ₗ Nat ×ₗ Nat ×ₗ Nat ×ₗ Nat ×ₗ List Nat :=
  (c.foreignMasterDS.records k).announce.standing

/-- Records that name the same grandmaster say the same of it. -/
def PtpClock.Unanimous (c : PtpClock) (n : Nat) : Prop :=
  ∀ i ≤ n, ∀ j ≤ n, (c.foreignMasterDS.records i).announce.grandmasterIdentity =
    (c.foreignMasterDS.records j).announce.grandmasterIdentity → c.standingAt i = c.standingAt j

/-- One pass of the loop: the lower standing of the two is kept. -/
theorem standingAt_bmcBest_succ {c : PtpClock} {k : Nat} (h : c.Unanimous (k + 1)) :
    c.standingAt (c.bmcBest (k + 1)) =
      max (c.standingAt (c.bmcBest k)) (c.standingAt (k + 1)) := by
  have hbest := c.bmcBest_le k
  have hequal := h (k + 1) le_rfl (c.bmcBest k) (by omega)
  have hstep : c.bmcBest (k + 1) =
      if c.compare (c.foreignMasterDS.records (k + 1)) (c.foreignMasterDS.records (c.bmcBest k)) < 0
        then k + 1 else c.bmcBest k := rfl
  rw [hstep]
  by_cases hid : (c.foreignMasterDS.records (k + 1)).announce.grandmasterIdentity =
      (c.foreignMasterDS.records (c.bmcBest k)).announce.grandmasterIdentity
  · -- one grandmaster: whichever is kept
    have hstanding := hequal hid
    rw [hstanding, max_self]
    split
    · exact hstanding
    · rfl
  · have hcompare : c.compare (c.foreignMasterDS.records (k + 1))
        (c.foreignMasterDS.records (c.bmcBest k)) = threeWay _ _ :=
      bmcDataSetComparison_standing hid _ _ c
    rw [hcompare]
    split
    · next htaken => exact (max_eq_right (threeWay_neg_iff.mp htaken).le).symm
    · next hkept => exact (max_eq_left (not_lt.mp (mt threeWay_neg_iff.mpr hkept))).symm

/-- The loop keeps the record of the lowest standing. -/
theorem standingAt_le_bmcBest {c : PtpClock} {k : Nat} (h : c.Unanimous k) :
    ∀ j ≤ k, c.standingAt j ≤ c.standingAt (c.bmcBest k) := by
  induction k with
  | zero =>
    intro j hj
    obtain rfl : j = 0 := by omega
    exact le_rfl
  | succ k ih =>
    intro j hj
    rw [standingAt_bmcBest_succ h]
    rcases Nat.lt_or_ge k j with hkj | hjk
    · obtain rfl : j = k + 1 := by omega
      exact le_max_right _ _
    · have hbefore : c.Unanimous k := fun i hi j hj => h i (by omega) j (by omega)
      exact (ih hbefore j hjk).trans (le_max_left _ _)

/-! ## The meeting -/

/-- Clocks of different identity. Each knows what every other one advertises of
    itself, in any order and as often as it may be, and knows nothing else. -/
structure Meeting {ι : Type*} (w : ι → World) (buf : ι → Buf) : Prop where
  identities : ∀ i j, (w i).defaultDS.clockIdentity = (w j).defaultDS.clockIdentity → i = j
  known : ∀ i, ∀ k < (w i).foreignMasterDS.count, ∃ j ≠ i,
    ((w i).foreignMasterDS.records k).announce = msgUnpackAnnounce (advertisement (w j) (buf j))
  complete : ∀ i, ∀ j ≠ i, ∃ k < (w i).foreignMasterDS.count,
    ((w i).foreignMasterDS.records k).announce = msgUnpackAnnounce (advertisement (w j) (buf j))

variable {ι : Type*} {w : ι → World} {buf : ι → Buf}

theorem advertisement_standing (w : World) (buf : Buf) :
    (msgUnpackAnnounce (advertisement w buf)).standing = w.standing := by
  obtain ⟨hid, hquality, h1, h2⟩ := advertisement_copyD0 w buf
  exact standing_congr hid hquality h1 h2

theorem advertisement_identity (w : World) (buf : Buf) :
    (msgUnpackAnnounce (advertisement w buf)).grandmasterIdentity = w.defaultDS.clockIdentity :=
  (advertisement_copyD0 w buf).1

theorem Meeting.standing_inj (h : Meeting w buf) {i j : ι}
    (heq : (w i).standing = (w j).standing) : i = j :=
  h.identities i j (standing_identity heq)

theorem Meeting.unanimous (h : Meeting w buf) (i : ι) {n : Nat}
    (hn : n < (w i).foreignMasterDS.count) : (w i).Unanimous n := by
  intro a ha b hb hid
  obtain ⟨j, -, hj⟩ := h.known i a (by omega)
  obtain ⟨j', -, hj'⟩ := h.known i b (by omega)
  rw [hj, hj', advertisement_identity, advertisement_identity] at hid
  obtain rfl := h.identities j j' hid
  unfold PtpClock.standingAt
  rw [hj, hj']

/-- The decision is taken over the other clock of the lowest standing. -/
theorem Meeting.selects (h : Meeting w buf) {i j : ι} (hij : j ≠ i) :
    ∃ l ≠ i, (w i).bmcRecord.announce = msgUnpackAnnounce (advertisement (w l) (buf l)) ∧
      ∀ m ≠ i, (w m).standing ≤ (w l).standing := by
  obtain ⟨k, hk, -⟩ := h.complete i j hij
  generalize hn : (w i).foreignMasterDS.count - 1 = n
  have hlt : n < (w i).foreignMasterDS.count := by omega
  have hbest := (w i).bmcBest_le n
  have hle := standingAt_le_bmcBest (h.unanimous i hlt)
  obtain ⟨l, hl, hrecord⟩ := h.known i ((w i).bmcBest n) (by omega)
  refine ⟨l, hl, ?_, fun m hm => ?_⟩
  · unfold PtpClock.bmcRecord
    rw [hn]
    exact hrecord
  · obtain ⟨k', hk', hother⟩ := h.complete i m hm
    have hle' := hle k' (by omega)
    unfold PtpClock.standingAt at hle'
    rw [hother, hrecord, advertisement_standing, advertisement_standing] at hle'
    exact hle'

/-- A clock is to be master exactly if some other clock is of a lower standing. -/
theorem Meeting.master_iff (h : Meeting w buf) {i j : ι} (hij : j ≠ i) :
    (bmc (w i)).1 = PTP_MASTER ↔ ∃ m, (w i).standing < (w m).standing := by
  obtain ⟨l, hl, hannounce, hlowest⟩ := h.selects hij
  have hcount : (w i).selected.foreignMasterDS.count ≠ 0 := by
    obtain ⟨k, hk, -⟩ := h.complete i j hij
    exact Nat.pos_iff_ne_zero.mp (Nat.zero_lt_of_lt hk)
  have hne : (copyD0 (w i).selected).msgTmpAnnounce.grandmasterIdentity ≠
      (w i).bmcRecord.announce.grandmasterIdentity := by
    rw [hannounce, advertisement_identity]
    intro hid
    exact hl (h.identities i l hid).symm
  have hstanding : (copyD0 (w i).selected).msgTmpAnnounce.standing = (w i).standing := rfl
  rw [bmc_eq, bmcStateDecision_master_iff hcount, bmcDataSetComparison_standing hne, hannounce,
    advertisement_standing, hstanding, threeWay_eq_one]
  constructor
  · intro hlt
    exact ⟨l, hlt⟩
  · rintro ⟨m, hlt⟩
    have hm : m ≠ i := by
      rintro rfl
      exact lt_irrefl _ hlt
    exact hlt.trans_le (hlowest m hm)

/-- A clock that is not to be a master is to be slave, or passive if its class forbids that. -/
theorem bmcStateDecision_not_master {header : MsgHeader} {announce : MsgAnnounce} {w : World}
    (hcount : w.foreignMasterDS.count ≠ 0)
    (h : (bmcStateDecision header announce w).1 ≠ PTP_MASTER) :
    (bmcStateDecision header announce w).1 =
      if w.defaultDS.clockQuality.clockClass < 128 then PTP_PASSIVE else PTP_SLAVE := by
  have hdecide : bmcStateDecision header announce w = _ := if_neg fun h => hcount h.1
  have hclass : (copyD0 w).defaultDS.clockQuality = w.defaultDS.clockQuality := rfl
  rw [hdecide] at h ⊢
  dsimp only at h ⊢
  rw [hclass] at h ⊢
  split
  · next hlow =>
    rw [if_pos hlow] at h
    split
    · next hbetter =>
      rw [if_pos hbetter] at h
      exact absurd rfl h
    · rfl
  · next hhigh =>
    rw [if_neg hhigh] at h
    split
    · next hbetter =>
      rw [if_pos hbetter] at h
      exact absurd rfl h
    · rfl

/-- **All but the worst lead**: of any number of clocks that know each other, each is to be a
    master except the one of the lowest standing. That one is to be slave, or passive if its
    class is below 128. -/
theorem all_but_one_lead [Finite ι] [Nontrivial ι] (h : Meeting w buf) :
    ∃ worst, (∀ i, (w i).standing ≤ (w worst).standing) ∧
      (∀ i, i ≠ worst → (bmc (w i)).1 = PTP_MASTER) ∧
      (bmc (w worst)).1 =
        if (w worst).defaultDS.clockQuality.clockClass < 128 then PTP_PASSIVE else PTP_SLAVE := by
  obtain ⟨worst, hworst⟩ := Finite.exists_max fun i => (w i).standing
  refine ⟨worst, hworst, fun i hi => ?_, ?_⟩
  · rw [h.master_iff hi.symm]
    exact ⟨worst, lt_of_le_of_ne (hworst i) fun heq => hi (h.standing_inj heq)⟩
  · obtain ⟨j, hj⟩ := exists_ne worst
    have hnot : (bmc (w worst)).1 ≠ PTP_MASTER := by
      intro hmaster
      obtain ⟨m, hlt⟩ := (h.master_iff hj).mp hmaster
      exact absurd hlt (hworst m).not_gt
    obtain ⟨k, hk, -⟩ := h.complete worst j hj
    have hcount : (w worst).selected.foreignMasterDS.count ≠ 0 :=
      Nat.pos_iff_ne_zero.mp (Nat.zero_lt_of_lt hk)
    rw [bmc_eq] at hnot ⊢
    exact bmcStateDecision_not_master hcount hnot

/-- `w` once it has taken the octets `heard k` for the foreign masters `k < n`. -/
def World.learnAll (w : World) (n : Nat) (heard : Nat → Buf) : World :=
  { w with
    foreignMasterDS.count := n
    foreignMasterDS.records := fun k =>
      { (default : ForeignMasterRecord) with
        header := msgUnpackHeader (heard k)
        announce := msgUnpackAnnounce (heard k) } }

theorem advertisement_learnAll (w : World) (n : Nat) (heard : Nat → Buf) (buf : Buf) :
    advertisement (w.learnAll n heard) buf = advertisement w buf := rfl

/-- Three boards, each of which has heard the other two. -/
def trio (i : Fin 3) : World :=
  (board (UInt8.ofNat i)).learnAll 2 fun k =>
    advertisement (board (UInt8.ofNat (i + 1 + Fin.ofNat 3 k : Fin 3))) fun _ => 0

theorem trio_known (i : Fin 3) (k : Nat) :
    ((trio i).foreignMasterDS.records k).announce = msgUnpackAnnounce
      (advertisement (trio (i + 1 + Fin.ofNat 3 k)) fun _ => 0) := by
  unfold trio
  rw [advertisement_learnAll]
  rfl

theorem trio_meeting : Meeting trio fun _ _ => 0 where
  identities := by decide
  known := by
    intro i k hk
    have hslot : ∀ i : Fin 3, ∀ k < 2, i + 1 + Fin.ofNat 3 k ≠ i := by decide
    exact ⟨i + 1 + Fin.ofNat 3 k, hslot i k hk, trio_known i k⟩
  complete := by
    intro i j hj
    have hslot : ∀ i j : Fin 3, j ≠ i → ∃ k < 2, j = i + 1 + Fin.ofNat 3 k := by decide
    obtain ⟨k, hk, rfl⟩ := hslot i j hj
    exact ⟨k, hk, trio_known i k⟩

theorem all_but_one_lead_trio :
    ∃ worst, (∀ i, (trio i).standing ≤ (trio worst).standing) ∧
      (∀ i, i ≠ worst → (bmc (trio i)).1 = PTP_MASTER) ∧
      (bmc (trio worst)).1 =
        if (trio worst).defaultDS.clockQuality.clockClass < 128 then PTP_PASSIVE else PTP_SLAVE :=
  all_but_one_lead trio_meeting

end Ptpd
