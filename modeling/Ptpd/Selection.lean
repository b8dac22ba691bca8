import Ptpd.Election
import Ptpd.ForeignMaster

/-! # Which foreign master is selected (`bmc`)

    The loop of `bmc` tries each record against the best so far, with the record
    on side A, and takes it over on a negative result. But a negative result of
    `bmcDataSetComparison` says that B is the better one, so whenever two records
    are compared, the one that is kept is the one that lost.
-/

namespace Ptpd

open PortState Octets

/-- Record `j` is better than record `k`. -/
def PtpClock.Dominates (c : PtpClock) (j k : Nat) : Prop :=
  bmcDataSetComparison (c.foreignMasterDS.records j).header (c.foreignMasterDS.records j).announce
    (c.foreignMasterDS.records k).header (c.foreignMasterDS.records k).announce c = A_better_then_B

/-- The live records advertise different grandmasters. -/
def PtpClock.DistinctMasters (c : PtpClock) : Prop :=
  ∀ j < c.foreignMasterDS.count, ∀ k < c.foreignMasterDS.count,
    (c.foreignMasterDS.records j).announce.grandmasterIdentity =
      (c.foreignMasterDS.records k).announce.grandmasterIdentity → j = k

instance (c : PtpClock) (j k : Nat) : Decidable (c.Dominates j k) := by
  unfold PtpClock.Dominates
  infer_instance

instance (c : PtpClock) : Decidable c.DistinctMasters := by
  unfold PtpClock.DistinctMasters
  infer_instance

variable {c : PtpClock} {j k : Nat}

/-- Of two live records one is better, and the other one is worse. -/
theorem PtpClock.DistinctMasters.opposed (h : c.DistinctMasters) (hj : j < c.foreignMasterDS.count)
    (hk : k < c.foreignMasterDS.count) (hjk : j ≠ k) :
    Opposed
      (bmcDataSetComparison (c.foreignMasterDS.records j).header
        (c.foreignMasterDS.records j).announce (c.foreignMasterDS.records k).header
        (c.foreignMasterDS.records k).announce c)
      (bmcDataSetComparison (c.foreignMasterDS.records k).header
        (c.foreignMasterDS.records k).announce (c.foreignMasterDS.records j).header
        (c.foreignMasterDS.records j).announce c) := by
  apply bmcDataSetComparison_opposed
  intro hid
  exact hjk (h j hj k hk hid)

/-- A record does not dominate itself: its sender is as far as itself. -/
theorem PtpClock.not_dominates_self (c : PtpClock) (j : Nat) : ¬ c.Dominates j j := by
  have hself : ∀ xs : List UInt8, memcmp xs xs = 0 := by
    intro xs
    have hanti := memcmp_antisymm xs xs
    omega
  unfold Dominates bmcDataSetComparison bmcCompareTopology
  simp [hself]

/-- Once two records were compared, one of them dominates what the loop holds. -/
theorem PtpClock.DistinctMasters.bmcBest_dominated (h : c.DistinctMasters)
    (hk : k + 1 < c.foreignMasterDS.count) :
    ∃ j < c.foreignMasterDS.count, c.Dominates j (c.bmcBest (k + 1)) := by
  have hle := c.bmcBest_le k
  have hbest : c.bmcBest k < c.foreignMasterDS.count := by omega
  obtain ⟨hneg, hstrict⟩ := h.opposed hk hbest (by omega)
  unfold bmcBest
  dsimp only
  split
  · -- the record tried lost, and is taken over
    rename_i hlost
    refine ⟨c.bmcBest k, hbest, ?_⟩
    unfold Dominates
    rcases hstrict with hwin | hwin
    · rw [hwin] at hlost
      exact absurd hlost (by decide)
    · rw [hneg, hwin]
      rfl
  · -- the record tried won, and is passed over
    rename_i hwon
    refine ⟨k + 1, hk, ?_⟩
    rcases hstrict with hwin | hwin
    · exact hwin
    · rw [hwin] at hwon
      exact absurd hwon (by decide)

/-! ## The record selected -/

theorem bmcStateDecision_foreignMasterDS (header : MsgHeader) (announce : MsgAnnounce)
    (w : World) : (bmcStateDecision header announce w).2.foreignMasterDS = w.foreignMasterDS := by
  unfold bmcStateDecision
  split
  · rfl
  · dsimp only
    split
    · split <;> rfl
    · split <;> rfl

theorem bmc_best (w : World) :
    (bmc w).2.foreignMasterDS.best = w.bmcBest (w.foreignMasterDS.count - 1) := by
  rw [bmc_eq, bmcStateDecision_foreignMasterDS]
  rfl

/-- The record selected is undominated exactly if it is the only one. -/
theorem bmc_undominated_iff (w : World) (hcount : 1 ≤ w.foreignMasterDS.count)
    (hdistinct : w.DistinctMasters) :
    (∀ r < w.foreignMasterDS.count, ¬ w.Dominates r (bmc w).2.foreignMasterDS.best) ↔
      w.foreignMasterDS.count = 1 := by
  rw [bmc_best]
  constructor
  · intro hundominated
    by_contra hne
    -- two or more: the last comparison of the loop leaves a dominated record
    obtain ⟨n, hn⟩ : ∃ n, w.foreignMasterDS.count - 1 = n + 1 :=
      ⟨w.foreignMasterDS.count - 2, by omega⟩
    obtain ⟨r, hr, hdom⟩ := hdistinct.bmcBest_dominated (k := n) (by omega)
    rw [hn] at hundominated
    exact hundominated r hr hdom
  · intro hone r hr
    obtain rfl : r = 0 := by omega
    rw [hone]
    exact w.not_dominates_self 0

/-- A board that has heard one clock. -/
def oneMaster : World :=
  sampleRun .E2E [.doState, sampleAnnounce 9 200 1, .doState]

theorem bmc_undominated_oneMaster :
    (∀ r < oneMaster.foreignMasterDS.count,
      ¬ oneMaster.Dominates r (bmc oneMaster).2.foreignMasterDS.best) ↔
      oneMaster.foreignMasterDS.count = 1 := by
  apply bmc_undominated_iff oneMaster
  · decide +kernel
  · decide +kernel

/-- A board that has heard two clocks, the one of higher priority first. -/
def twoMasters : World :=
  sampleRun .E2E [.doState, sampleAnnounce 9 100 1, .doState, sampleAnnounce 8 200 1, .doState]

/-- The clock of lower priority is selected. -/
theorem bmc_selects_dominated :
    ¬ ∀ w : World, w.foreignMasterDS.WellFormed → 1 ≤ w.foreignMasterDS.count →
      w.DistinctMasters →
        ∀ r < w.foreignMasterDS.count, ¬ w.Dominates r (bmc w).2.foreignMasterDS.best := by
  intro h
  have hwf : twoMasters.foreignMasterDS.WellFormed :=
    ⟨by decide +kernel, by decide +kernel, by decide +kernel, by decide +kernel,
      by decide +kernel⟩
  have hdom := h twoMasters hwf (by decide +kernel) (by decide +kernel) 0 (by decide +kernel)
  revert hdom
  decide +kernel

end Ptpd
