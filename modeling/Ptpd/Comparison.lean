import Ptpd.Lib.ThreeWay
import Ptpd.Selection

/-! # The data set comparison as an order

    Records whose senders are not the receiver, and that agree on a grandmaster
    they both name, are compared by rank: the attributes and the identity of the
    grandmaster, then the distance to it and the sender. The two parts of the
    algorithm are one lexicographic comparison, and the tolerance of one step
    decides nothing. `bmc` goes through the table once and keeps the record of
    the highest rank, wherever it stands.
-/

namespace Ptpd

open PortState Octets ThreeWay

/-! ## Ranks -/

/-- Octets in the order of `memcmp`. -/
def octetRank {n : Nat} (v : Vector UInt8 n) : List Nat := v.toList.map UInt8.toNat

theorem octetRank_inj {n : Nat} {v v' : Vector UInt8 n} : octetRank v = octetRank v' ↔ v = v' := by
  constructor
  · intro h
    have hinj : Function.Injective UInt8.toNat := fun a b hab => UInt8.toNat_inj.mp hab
    exact Vector.toList_inj.mp (List.map_injective_iff.mpr hinj h)
  · intro h
    exact congrArg octetRank h

theorem memcmp_pos_iff {a b : List UInt8} (hlen : a.length = b.length) :
    memcmp a b > 0 ↔ b.map UInt8.toNat < a.map UInt8.toNat := by
  induction a generalizing b with
  | nil =>
    cases b with
    | nil => simp [memcmp]
    | cons => simp at hlen
  | cons x xs ih =>
    cases b with
    | nil => simp at hlen
    | cons y ys =>
      have hlen' : xs.length = ys.length := by simpa using hlen
      by_cases hxy : x = y
      · subst hxy
        simpa [memcmp] using ih hlen'
      · have hne : y.toNat ≠ x.toNat := fun h => hxy (UInt8.toNat_inj.mp h).symm
        simp only [memcmp, hxy, if_false, List.map_cons, List.cons_lt_cons_iff, hne, false_and,
          or_false]
        omega

/-- `memcmp` of two identities, by its sign. -/
theorem memcmp_threeWay {n : Nat} (v v' : Vector UInt8 n) :
    (if memcmp v.toList v'.toList > 0 then -1
      else if memcmp v.toList v'.toList < 0 then 1 else 0) =
      threeWay (octetRank v) (octetRank v') := by
  have hlen : v.toList.length = v'.toList.length := by simp
  have hpos : memcmp v.toList v'.toList > 0 ↔ octetRank v' < octetRank v := memcmp_pos_iff hlen
  have hneg : memcmp v.toList v'.toList < 0 ↔ octetRank v < octetRank v' := by
    have hpos' : memcmp v'.toList v.toList > 0 ↔ octetRank v < octetRank v' :=
      memcmp_pos_iff hlen.symm
    rw [← hpos', memcmp_antisymm v.toList v'.toList]
    omega
  unfold threeWay
  by_cases h : memcmp v.toList v'.toList > 0
  · rw [if_pos h, if_pos (hpos.mp h)]
  · rw [if_neg h, if_neg (mt hpos.mpr h)]
    by_cases h' : memcmp v.toList v'.toList < 0
    · rw [if_pos h', if_pos (hneg.mp h')]
    · rw [if_neg h', if_neg (mt hneg.mpr h')]

/-- Algorithm part 2: the distance to the grandmaster, then the sender. -/
def ForeignMasterRecord.topology (r : ForeignMasterRecord) : Nat ×ₗ List Nat :=
  toLex (r.announce.stepsRemoved.toNat, octetRank r.header.sourcePortIdentity.clockIdentity)

/-- What the comparison looks at, in its order. The smaller rank is the better one. -/
def ForeignMasterRecord.rank (r : ForeignMasterRecord) :
    Nat ×ₗ Nat ×ₗ Nat ×ₗ Nat ×ₗ Nat ×ₗ List Nat ×ₗ Nat ×ₗ List Nat :=
  toLex (r.announce.grandmasterPriority1.toNat,
    toLex (r.announce.grandmasterClockQuality.clockClass.toNat,
      toLex (r.announce.grandmasterClockQuality.clockAccuracy.toNat,
        toLex (r.announce.grandmasterClockQuality.offsetScaledLogVariance.toNat,
          toLex (r.announce.grandmasterPriority2.toNat,
            toLex (octetRank r.announce.grandmasterIdentity, r.topology))))))

/-- The comparison of two records at this port. -/
def PtpClock.compare (c : PtpClock) (A B : ForeignMasterRecord) : Int :=
  bmcDataSetComparison A.header A.announce B.header B.announce c

/-- The record is of another clock than this one. -/
def PtpClock.Foreign (c : PtpClock) (r : ForeignMasterRecord) : Prop :=
  r.header.sourcePortIdentity.clockIdentity ≠ c.portDS.portIdentity.clockIdentity

/-- If the records name the same grandmaster they say the same of it. -/
def ForeignMasterRecord.Agrees (A B : ForeignMasterRecord) : Prop :=
  A.announce.grandmasterIdentity = B.announce.grandmasterIdentity →
    A.announce.grandmasterPriority1 = B.announce.grandmasterPriority1 ∧
    A.announce.grandmasterClockQuality = B.announce.grandmasterClockQuality ∧
    A.announce.grandmasterPriority2 = B.announce.grandmasterPriority2

instance (c : PtpClock) (r : ForeignMasterRecord) : Decidable (c.Foreign r) :=
  inferInstanceAs (Decidable (_ ≠ _))

instance (A B : ForeignMasterRecord) : Decidable (A.Agrees B) :=
  inferInstanceAs (Decidable (_ → _))

variable {c : PtpClock} {A B C : ForeignMasterRecord}

theorem compareReturnBetter_lex {α : Type*} [LinearOrder α] (a b : Nat) (x y : α) :
    compareReturnBetter a b (threeWay x y) = threeWay (toLex (a, x)) (toLex (b, y)) :=
  (threeWay_lex a b x y).symm

/-- One step apart the better record is the nearer one whichever way the senders
    compare with the receiver, because neither of them is the receiver. -/
theorem bmcCompareTopology_eq (hA : c.Foreign A) (hB : c.Foreign B) :
    bmcCompareTopology A.header A.announce B.header B.announce c =
      threeWay A.topology B.topology := by
  have hcompA : memcmp A.header.sourcePortIdentity.clockIdentity.toList
      c.portDS.portIdentity.clockIdentity.toList ≠ 0 := fun h => hA (memcmp_toList_eq_zero.mp h)
  have hcompB : memcmp B.header.sourcePortIdentity.clockIdentity.toList
      c.portDS.portIdentity.clockIdentity.toList ≠ 0 := fun h => hB (memcmp_toList_eq_zero.mp h)
  have hsender := memcmp_threeWay A.header.sourcePortIdentity.clockIdentity
    B.header.sourcePortIdentity.clockIdentity
  unfold bmcCompareTopology ForeignMasterRecord.topology
  dsimp only
  rw [threeWay_lex, ← hsender]
  generalize memcmp A.header.sourcePortIdentity.clockIdentity.toList
    c.portDS.portIdentity.clockIdentity.toList = compA at hcompA
  generalize memcmp B.header.sourcePortIdentity.clockIdentity.toList
    c.portDS.portIdentity.clockIdentity.toList = compB at hcompB
  generalize A.announce.stepsRemoved.toNat = stepsA
  generalize B.announce.stepsRemoved.toNat = stepsB
  rcases lt_trichotomy stepsA stepsB with h | rfl | h
  · rw [if_neg (by omega : ¬ stepsB < stepsA), if_pos h]
    split_ifs <;> first | rfl | omega
  · simp
  · rw [if_pos h]
    split_ifs <;> first | rfl | omega

/-- The two parts of the algorithm are one comparison of ranks. -/
theorem PtpClock.compare_eq (hA : c.Foreign A) (hB : c.Foreign B) (hAB : A.Agrees B) :
    c.compare A B = threeWay A.rank B.rank := by
  unfold compare bmcDataSetComparison ForeignMasterRecord.rank
  dsimp only
  by_cases hid : A.announce.grandmasterIdentity = B.announce.grandmasterIdentity
  · obtain ⟨h1, hquality, h2⟩ := hAB hid
    have hcomp : memcmp A.announce.grandmasterIdentity.toList
        B.announce.grandmasterIdentity.toList = 0 := memcmp_toList_eq_zero.mpr hid
    rw [if_neg (not_not.mpr hcomp), h1, hquality, h2, hid]
    simp only [threeWay_lex_eq]
    exact bmcCompareTopology_eq hA hB
  · have hcomp : memcmp A.announce.grandmasterIdentity.toList
        B.announce.grandmasterIdentity.toList ≠ 0 := fun h => hid (memcmp_toList_eq_zero.mp h)
    have hlast := memcmp_threeWay A.announce.grandmasterIdentity B.announce.grandmasterIdentity
    rw [if_pos hcomp]
    simp only [← compareReturnBetter_lex]
    rw [threeWay_lex_ne (mt octetRank_inj.mp hid), ← hlast]
    generalize memcmp A.announce.grandmasterIdentity.toList
      B.announce.grandmasterIdentity.toList = comp at hcomp
    congr 5
    split_ifs <;> first | rfl | omega

/-! ## A strict weak order -/

theorem ForeignMasterRecord.Agrees.symm (h : A.Agrees B) : B.Agrees A := by
  intro hid
  obtain ⟨h1, hquality, h2⟩ := h hid.symm
  exact ⟨h1.symm, hquality.symm, h2.symm⟩

/-- Records of one rank name one grandmaster, at one distance, through one sender. -/
theorem ForeignMasterRecord.rank_eq (h : A.rank = B.rank) :
    A.announce.grandmasterIdentity = B.announce.grandmasterIdentity ∧
      A.announce.stepsRemoved = B.announce.stepsRemoved ∧
      A.header.sourcePortIdentity.clockIdentity = B.header.sourcePortIdentity.clockIdentity := by
  unfold rank topology at h
  simp only [toLex_inj, Prod.mk.injEq] at h
  obtain ⟨-, -, -, -, -, hid, hsteps, hsender⟩ := h
  exact ⟨octetRank_inj.mp hid, UInt16.toNat_inj.mp hsteps, octetRank_inj.mp hsender⟩

/-- The comparison turns round with its sides, vanishes on records of the same
    grandmaster, distance and sender only, and is transitive. -/
theorem bmcDataSetComparison_strictWeak (c : PtpClock) (A B C : ForeignMasterRecord)
    (hA : c.Foreign A) (hB : c.Foreign B) (hC : c.Foreign C) (hAB : A.Agrees B)
    (hBC : B.Agrees C) (hAC : A.Agrees C) :
    c.compare A B = -c.compare B A ∧
      (c.compare A B = 0 →
        A.announce.grandmasterIdentity = B.announce.grandmasterIdentity ∧
          A.announce.stepsRemoved = B.announce.stepsRemoved ∧
          A.header.sourcePortIdentity.clockIdentity =
            B.header.sourcePortIdentity.clockIdentity) ∧
      (c.compare A B = A_better_then_B → c.compare B C = A_better_then_B →
        c.compare A C = A_better_then_B) := by
  rw [c.compare_eq hA hB hAB, c.compare_eq hB hA hAB.symm, c.compare_eq hB hC hBC,
    c.compare_eq hA hC hAC]
  refine ⟨threeWay_swap _ _, fun hzero => ?_, threeWay_trans⟩
  exact ForeignMasterRecord.rank_eq (threeWay_eq_zero.mp hzero)

/-- The record of the clock `source`, `steps` away from the grandmaster `grandmaster`. -/
def sampleRecord (source grandmaster : UInt8) (steps : UInt16) : ForeignMasterRecord :=
  { (default : ForeignMasterRecord) with
    header.sourcePortIdentity.clockIdentity := Vector.replicate 8 source
    announce.grandmasterIdentity := Vector.replicate 8 grandmaster
    announce.stepsRemoved := steps }

/-- Two paths to one grandmaster, one step apart, and another grandmaster. -/
theorem bmcDataSetComparison_strictWeak_paths :
    let A := sampleRecord 2 9 1
    let B := sampleRecord 1 9 2
    let C := sampleRecord 3 10 1
    PtpClock.zero.compare A B = -PtpClock.zero.compare B A ∧
      (PtpClock.zero.compare A B = 0 →
        A.announce.grandmasterIdentity = B.announce.grandmasterIdentity ∧
          A.announce.stepsRemoved = B.announce.stepsRemoved ∧
          A.header.sourcePortIdentity.clockIdentity =
            B.header.sourcePortIdentity.clockIdentity) ∧
      (PtpClock.zero.compare A B = A_better_then_B →
        PtpClock.zero.compare B C = A_better_then_B →
          PtpClock.zero.compare A C = A_better_then_B) :=
  bmcDataSetComparison_strictWeak PtpClock.zero _ _ _ (by decide) (by decide) (by decide)
    (by decide) (by decide) (by decide)

/-! ## The table in another order -/

/-- The live records are of other clocks, each of another one, and agree on the
    grandmasters that they share. -/
structure PtpClock.Comparable (c : PtpClock) : Prop where
  foreign : ∀ k < c.foreignMasterDS.count, c.Foreign (c.foreignMasterDS.records k)
  agrees : ∀ j < c.foreignMasterDS.count, ∀ k < c.foreignMasterDS.count,
    (c.foreignMasterDS.records j).Agrees (c.foreignMasterDS.records k)
  distinct : ∀ j < c.foreignMasterDS.count, ∀ k < c.foreignMasterDS.count,
    (c.foreignMasterDS.records j).header.sourcePortIdentity.clockIdentity =
      (c.foreignMasterDS.records k).header.sourcePortIdentity.clockIdentity → j = k

/-- The loop keeps the record of the highest rank among those it has tried. -/
theorem PtpClock.Comparable.rank_le_bmcBest (h : c.Comparable) {k : Nat}
    (hk : k < c.foreignMasterDS.count) :
    ∀ j ≤ k, (c.foreignMasterDS.records j).rank ≤
      (c.foreignMasterDS.records (c.bmcBest k)).rank := by
  induction k with
  | zero =>
    intro j hj
    obtain rfl : j = 0 := by omega
    exact le_rfl
  | succ k ih =>
    have hle := c.bmcBest_le k
    have hbest : c.bmcBest k < c.foreignMasterDS.count := by omega
    have hcompare : bmcDataSetComparison _ _ _ _ c = threeWay _ _ :=
      c.compare_eq (h.foreign _ hk) (h.foreign _ hbest) (h.agrees _ hk _ hbest)
    have ih' := ih (by omega)
    intro j hj
    unfold bmcBest
    dsimp only
    split
    · -- the record tried ranks higher, and is taken over
      rename_i htaken
      have hlt := threeWay_neg_iff.mp (hcompare ▸ htaken)
      rcases Nat.lt_or_ge k j with hkj | hjk
      · obtain rfl : j = k + 1 := by omega
        exact le_rfl
      · exact (ih' j hjk).trans hlt.le
    · rename_i hkept
      have hnot : ¬ _ < (c.foreignMasterDS.records (k + 1)).rank :=
        fun hlt => hkept (hcompare.symm ▸ threeWay_neg_iff.mpr hlt)
      rcases Nat.lt_or_ge k j with hkj | hjk
      · obtain rfl : j = k + 1 := by omega
        exact le_of_not_gt hnot
      · exact ih' j hjk

/-- The table with its records in another order. -/
def World.permute (σ : Equiv.Perm Nat) (w : World) : World :=
  { w with foreignMasterDS.records := fun k => w.foreignMasterDS.records (σ k) }

/-- The record that `bmc` selects. -/
def World.selectedRecord (w : World) : ForeignMasterRecord :=
  (bmc w).2.foreignMasterDS.records (bmc w).2.foreignMasterDS.best

theorem World.selectedRecord_eq (w : World) :
    w.selectedRecord = w.foreignMasterDS.records (w.bmcBest (w.foreignMasterDS.count - 1)) := by
  unfold selectedRecord
  rw [bmc_best, bmc_eq, bmcStateDecision_foreignMasterDS]
  rfl

/-- Slots that a permutation of the live slots leads to are live. -/
theorem perm_lt {σ : Equiv.Perm Nat} {n k : Nat} (hσ : ∀ k, n ≤ k → σ k = k) (hk : k < n) :
    σ k < n := by
  by_contra hge
  have hfix := hσ (σ k) (by omega)
  have heq := σ.injective hfix
  omega

theorem World.permute_comparable {w : World} {σ : Equiv.Perm Nat} (h : w.Comparable)
    (hσ : ∀ k, w.foreignMasterDS.count ≤ k → σ k = k) : (w.permute σ).Comparable where
  foreign k hk := h.foreign (σ k) (perm_lt hσ hk)
  agrees j hj k hk := h.agrees (σ j) (perm_lt hσ hj) (σ k) (perm_lt hσ hk)
  distinct j hj k hk heq :=
    σ.injective (h.distinct (σ j) (perm_lt hσ hj) (σ k) (perm_lt hσ hk) heq)

/-- Each of the two selected records ranks as high as the other one. -/
theorem World.selectedRecord_permute {w : World} {σ : Equiv.Perm Nat} (h : w.Comparable)
    (hσ : ∀ k, w.foreignMasterDS.count ≤ k → σ k = k) :
    (w.permute σ).selectedRecord = w.selectedRecord := by
  rw [World.selectedRecord_eq, World.selectedRecord_eq]
  rcases Nat.eq_zero_or_pos w.foreignMasterDS.count with hzero | hpos
  · -- an empty table: slot 0 is not moved
    have hcount : (w.permute σ).foreignMasterDS.count = 0 := hzero
    rw [hcount, hzero]
    show w.foreignMasterDS.records (σ 0) = w.foreignMasterDS.records 0
    rw [hσ 0 (by omega)]
  · generalize hn : w.foreignMasterDS.count - 1 = n
    have hlt : n < w.foreignMasterDS.count := by omega
    have hcount : (w.permute σ).foreignMasterDS.count - 1 = n := hn
    rw [hcount]
    have h' := permute_comparable h hσ
    have hbest := w.bmcBest_le n
    have hbest' := (w.permute σ).bmcBest_le n
    -- the slot in the first table of the record selected in the second
    have hslot : σ ((w.permute σ).bmcBest n) < w.foreignMasterDS.count := perm_lt hσ (by omega)
    have hle := h.rank_le_bmcBest hlt (σ ((w.permute σ).bmcBest n)) (by omega)
    have hinv : σ.symm (w.bmcBest n) < w.foreignMasterDS.count := by
      apply perm_lt _ (by omega)
      intro k hk
      rw [Equiv.symm_apply_eq, hσ k hk]
    have hle' := h'.rank_le_bmcBest hlt (σ.symm (w.bmcBest n)) (by omega)
    have hback : (w.permute σ).foreignMasterDS.records (σ.symm (w.bmcBest n)) =
        w.foreignMasterDS.records (w.bmcBest n) :=
      congrArg w.foreignMasterDS.records (σ.apply_symm_apply _)
    rw [hback] at hle'
    have hrank := le_antisymm hle hle'
    have hsame := h.distinct _ hslot _ (by omega) (ForeignMasterRecord.rank_eq hrank).2.2
    exact congrArg w.foreignMasterDS.records hsame

/-- Of the clock the comparison looks at the identity of the port alone. -/
theorem bmcDataSetComparison_port (headerA : MsgHeader) (announceA : MsgAnnounce)
    (headerB : MsgHeader) (announceB : MsgAnnounce) {c c' : PtpClock}
    (h : c'.portDS = c.portDS) :
    bmcDataSetComparison headerA announceA headerB announceB c' =
      bmcDataSetComparison headerA announceA headerB announceB c := by
  unfold bmcDataSetComparison bmcCompareTopology
  rw [h]

/-- The decision over a record does not depend on the rest of the table. -/
theorem bmcStateDecision_congr (header : MsgHeader) (announce : MsgAnnounce) {w w' : World}
    (hclock : (copyD0 w').defaultDS = (copyD0 w).defaultDS) (hport : w'.portDS = w.portDS)
    (hcount : w'.foreignMasterDS.count = w.foreignMasterDS.count)
    (hheader : (copyD0 w').msgTmpHeader = (copyD0 w).msgTmpHeader)
    (hannounce : (copyD0 w').msgTmpAnnounce = (copyD0 w).msgTmpAnnounce) :
    (bmcStateDecision header announce w').1 = (bmcStateDecision header announce w).1 := by
  have hport' : (copyD0 w').portDS = (copyD0 w).portDS := hport
  unfold bmcStateDecision
  dsimp only
  rw [hport, hcount]
  split
  · rfl
  · rw [hclock, hheader, hannounce, bmcDataSetComparison_port _ _ _ _ hport']
    split <;> split <;> rfl

/-- The same master is selected, and the same state recommended, whatever slots
    the live records are in. -/
theorem bmc_permute (w : World) (σ : Equiv.Perm Nat)
    (hσ : ∀ k, w.foreignMasterDS.count ≤ k → σ k = k) (h : w.Comparable) :
    (w.permute σ).selectedRecord.header.sourcePortIdentity =
      w.selectedRecord.header.sourcePortIdentity ∧
      (bmc (w.permute σ)).1 = (bmc w).1 := by
  have hselected := World.selectedRecord_permute h hσ
  refine ⟨congrArg (fun r : ForeignMasterRecord => r.header.sourcePortIdentity) hselected, ?_⟩
  have hbest : (bmc w).1 =
      (bmcStateDecision w.selectedRecord.header w.selectedRecord.announce w).1 := by
    rw [World.selectedRecord_eq]
    exact bmcStateDecision_congr _ _ rfl rfl rfl rfl rfl
  have hbest' : (bmc (w.permute σ)).1 =
      (bmcStateDecision (w.permute σ).selectedRecord.header
        (w.permute σ).selectedRecord.announce w).1 := by
    rw [World.selectedRecord_eq]
    exact bmcStateDecision_congr _ _ rfl rfl rfl rfl rfl
  rw [hbest', hselected, hbest]

theorem bmc_permute_twoMasters :
    (twoMasters.permute (Equiv.swap 0 1)).selectedRecord.header.sourcePortIdentity =
        twoMasters.selectedRecord.header.sourcePortIdentity ∧
      (bmc (twoMasters.permute (Equiv.swap 0 1))).1 = (bmc twoMasters).1 := by
  have hcount : twoMasters.foreignMasterDS.count = 2 := by decide +kernel
  apply bmc_permute
  · intro k hk
    rw [hcount] at hk
    exact Equiv.swap_apply_of_ne_of_ne (by omega) (by omega)
  · exact ⟨by decide +kernel, by decide +kernel, by decide +kernel⟩

end Ptpd
