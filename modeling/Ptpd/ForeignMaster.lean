import Ptpd.Invariant

/-! # The foreign master data set

    The record table is well formed and `bmc` reads only live records, in every
    run in which the table is found clean whenever it is emptied: `initData`
    resets `count` alone, and the announce receipt timeout resets `count` and
    `i` but neither `best` nor a state decision already scheduled.
-/

namespace Ptpd

open PortState Engine History

/-! ## The table -/

/-- The indices fit and no two live records are of the same port. -/
structure ForeignMasterDS.WellFormed (ds : ForeignMasterDS) : Prop where
  i_lt : ds.i < ds.capacity
  count_le : ds.count ≤ ds.capacity
  i_eq : ds.count < ds.capacity → ds.i = ds.count
  best_lt : ds.best < max 1 ds.count
  distinct : ∀ j < ds.count, ∀ k < ds.count,
    (ds.records j).foreignMasterPortIdentity = (ds.records k).foreignMasterPortIdentity → j = k

variable {ds : ForeignMasterDS}

theorem ForeignMasterDS.search_some {id : PortIdentity} {n j k : Nat}
    (h : ds.search id n j = some k) (hj : j < ds.count) :
    k < ds.count ∧ (ds.records k).foreignMasterPortIdentity = id := by
  induction n generalizing j with
  | zero => simp [search] at h
  | succ n ih =>
    unfold search at h
    split at h
    · next hsame =>
      cases h
      exact ⟨hj, (isSamePortIdentity_iff.mp hsame).symm⟩
    · exact ih h (Nat.mod_lt _ (by omega))

/-- The search goes round the table once: what it does not find is not there. -/
theorem ForeignMasterDS.search_none {id : PortIdentity} {n j : Nat}
    (h : ds.search id n j = none) (hj : j < ds.count) :
    ∀ m < n, (ds.records ((j + m) % ds.count)).foreignMasterPortIdentity ≠ id := by
  induction n generalizing j with
  | zero => simp
  | succ n ih =>
    unfold search at h
    split at h
    · cases h
    · next hsame =>
      intro m hm
      cases m with
      | zero =>
        rw [Nat.add_zero, Nat.mod_eq_of_lt hj]
        intro heq
        exact hsame (isSamePortIdentity_iff.mpr heq.symm)
      | succ m =>
        have hnext := ih h (Nat.mod_lt _ (by omega)) m (by omega)
        rwa [Nat.mod_add_mod, Nat.add_assoc, Nat.add_comm 1 m] at hnext

theorem ForeignMasterDS.WellFormed.search_none (h : ds.WellFormed) {id : PortIdentity}
    (hsearch : ds.search id ds.count ds.best = none) :
    ∀ k < ds.count, (ds.records k).foreignMasterPortIdentity ≠ id := by
  intro k hk
  have hbest : ds.best < ds.count := by have := h.best_lt; omega
  have hm : (k + ds.count - ds.best) % ds.count < ds.count := Nat.mod_lt _ (by omega)
  have hne := ForeignMasterDS.search_none hsearch hbest _ hm
  have hk' : (ds.best + (k + ds.count - ds.best) % ds.count) % ds.count = k := by
    rw [Nat.add_mod_mod, show ds.best + (k + ds.count - ds.best) = k + ds.count by omega,
      Nat.add_mod_right, Nat.mod_eq_of_lt hk]
  rwa [hk'] at hne

/-- What `addForeign` does to a well-formed table. -/
structure ForeignMasterDS.Added (ds : ForeignMasterDS) (header : MsgHeader)
    (announce : MsgAnnounce) (slot : Nat) (ds' : ForeignMasterDS) : Prop where
  wellFormed : ds'.WellFormed
  capacity : ds'.capacity = ds.capacity
  best : ds'.best = ds.best
  count_le : ds.count ≤ ds'.count
  slot_lt : slot < ds'.count
  live : ∀ k < ds'.count, k = slot ∨ k < ds.count
  written : ds'.records slot =
    { ds'.records slot with
      foreignMasterPortIdentity := header.sourcePortIdentity
      header := header
      announce := announce }
  others : ∀ k, k ≠ slot → ds'.records k = ds.records k

/-- Ports stay distinct if the record written is of a port that no other live
    record is of. Which slots are live is left to the caller: the slot may be new. -/
theorem ForeignMasterDS.distinct_setRecord {n j : Nat} {r : ForeignMasterRecord}
    (hdistinct : ∀ a < n, a ≠ j → ∀ b < n, b ≠ j →
      (ds.records a).foreignMasterPortIdentity = (ds.records b).foreignMasterPortIdentity → a = b)
    (hr : ∀ k < n, k ≠ j →
      (ds.records k).foreignMasterPortIdentity ≠ r.foreignMasterPortIdentity) :
    ∀ a < n, ∀ b < n,
      ((ds.setRecord j r).records a).foreignMasterPortIdentity =
        ((ds.setRecord j r).records b).foreignMasterPortIdentity → a = b := by
  intro a ha b hb heq
  by_contra hab
  -- by which of the two slots is the one written
  by_cases haj : a = j <;> by_cases hbj : b = j
  · exact hab (haj.trans hbj.symm)
  · simp only [ForeignMasterDS.setRecord, haj, hbj, if_true, if_false] at heq
    exact hr b hb hbj heq.symm
  · simp only [ForeignMasterDS.setRecord, haj, hbj, if_true, if_false] at heq
    exact hr a ha haj heq
  · simp only [ForeignMasterDS.setRecord, haj, hbj, if_false] at heq
    exact hab (hdistinct a ha haj b hb hbj heq)

theorem ForeignMasterDS.WellFormed.setRecord (h : ds.WellFormed) {j : Nat}
    {r : ForeignMasterRecord}
    (hr : ∀ k < ds.count, k ≠ j →
      (ds.records k).foreignMasterPortIdentity ≠ r.foreignMasterPortIdentity) :
    (ds.setRecord j r).WellFormed where
  i_lt := h.i_lt
  count_le := h.count_le
  i_eq := h.i_eq
  best_lt := h.best_lt
  distinct := by
    apply ForeignMasterDS.distinct_setRecord _ hr
    intro a ha _ b hb _
    exact h.distinct a ha b hb

/-- The sender has a record in slot `j`: it is brought up to date. -/
theorem ForeignMasterDS.WellFormed.update (h : ds.WellFormed) {header : MsgHeader}
    {announce : MsgAnnounce} {j : Nat} (hj : j < ds.count)
    (hid : (ds.records j).foreignMasterPortIdentity = header.sourcePortIdentity) :
    ds.Added header announce j (ds.setRecord j
      { ds.records j with
        foreignMasterAnnounceMessages := (ds.records j).foreignMasterAnnounceMessages + 1
        header := header
        announce := announce }) where
  wellFormed := by
    apply h.setRecord
    intro k hk hkj heq
    exact hkj (h.distinct k hk j hj heq)
  capacity := rfl
  best := rfl
  count_le := le_rfl
  slot_lt := hj
  live k hk := .inr hk
  written := by simp [ForeignMasterDS.setRecord, hid]
  others := by
    intro k hk
    simp [ForeignMasterDS.setRecord, hk]

/-- The record of a sender that had none. -/
def newRecord (header : MsgHeader) (announce : MsgAnnounce) : ForeignMasterRecord :=
  { foreignMasterPortIdentity := header.sourcePortIdentity
    foreignMasterAnnounceMessages := 0
    announce := announce
    header := header }

/-- A new sender while there is room: the free slot after the live ones. -/
theorem ForeignMasterDS.WellFormed.insert (h : ds.WellFormed) {header : MsgHeader}
    {announce : MsgAnnounce} (hroom : ds.count < ds.capacity)
    (hnew : ∀ k < ds.count, (ds.records k).foreignMasterPortIdentity ≠ header.sourcePortIdentity) :
    ds.Added header announce ds.i
      { ({ ds with count := ds.count + 1 } : ForeignMasterDS).setRecord ds.i
          (newRecord header announce) with i := (ds.i + 1) % ds.capacity } := by
  have hi : ds.i = ds.count := h.i_eq hroom
  constructor
  case wellFormed =>
    constructor
    · exact Nat.mod_lt _ (Nat.zero_lt_of_lt hroom)
    · exact hroom
    · intro hlt
      show (ds.i + 1) % ds.capacity = ds.count + 1
      rw [hi]
      exact Nat.mod_eq_of_lt hlt
    · have hbest := h.best_lt
      show ds.best < max 1 (ds.count + 1)
      omega
    · apply ForeignMasterDS.distinct_setRecord
      · intro a ha hai b hb hbi
        -- slots that are live and not the new one were live before
        have ha' : a < ds.count + 1 := ha
        have hb' : b < ds.count + 1 := hb
        exact h.distinct a (by omega) b (by omega)
      · intro k hk hki
        have hk' : k < ds.count + 1 := hk
        exact hnew k (by omega)
  case capacity => rfl
  case best => rfl
  case count_le => exact Nat.le_succ _
  case slot_lt =>
    show ds.i < ds.count + 1
    omega
  case live =>
    intro k hk
    have hk' : k < ds.count + 1 := hk
    omega
  case written => simp [ForeignMasterDS.setRecord, newRecord]
  case others =>
    intro k hk
    simp [ForeignMasterDS.setRecord, hk]

/-- A new sender while the table is full: the slot whose turn it is. -/
theorem ForeignMasterDS.WellFormed.replace (h : ds.WellFormed) {header : MsgHeader}
    {announce : MsgAnnounce} (hfull : ¬ ds.count < ds.capacity)
    (hnew : ∀ k < ds.count, (ds.records k).foreignMasterPortIdentity ≠ header.sourcePortIdentity) :
    ds.Added header announce ds.i
      { ds.setRecord ds.i (newRecord header announce) with i := (ds.i + 1) % ds.capacity } := by
  have hcount : ds.count = ds.capacity := le_antisymm h.count_le (by omega)
  have hset : (ds.setRecord ds.i (newRecord header announce)).WellFormed :=
    h.setRecord fun k hk _ => hnew k hk
  constructor
  case wellFormed =>
    constructor
    · exact Nat.mod_lt _ (Nat.zero_lt_of_lt h.i_lt)
    · exact hset.count_le
    · intro hlt
      exact absurd hlt hfull
    · exact hset.best_lt
    · exact hset.distinct
  case capacity => rfl
  case best => rfl
  case count_le => exact le_rfl
  case slot_lt => exact hcount ▸ h.i_lt
  case live =>
    intro k hk
    exact .inr hk
  case written => simp [ForeignMasterDS.setRecord, newRecord]
  case others =>
    intro k hk
    simp [ForeignMasterDS.setRecord, hk]

theorem ForeignMasterDS.WellFormed.addForeign (h : ds.WellFormed) (header : MsgHeader)
    (announce : MsgAnnounce) :
    ds.Added header announce (ds.addForeign header announce).1
      (ds.addForeign header announce).2 := by
  unfold ForeignMasterDS.addForeign
  split
  case h_1 j hsearch =>
    -- what was found is live: an empty table is not searched
    have hpos : 0 < ds.count := by
      by_contra hzero
      rw [show ds.count = 0 by omega] at hsearch
      cases hsearch
    have hbest : ds.best < ds.count := by have := h.best_lt; omega
    obtain ⟨hj, hid⟩ := ForeignMasterDS.search_some hsearch hbest
    exact h.update hj hid
  case h_2 hsearch =>
    have hnew := h.search_none hsearch
    by_cases hroom : ds.count < ds.capacity
    · simp only [hroom, if_true]
      exact h.insert hroom hnew
    · simp only [hroom, if_false]
      exact h.replace hroom hnew

/-! ## What becomes of each record -/

/-- The indices fit each other, whatever room there is for `count` records. -/
structure ForeignMasterDS.Coherent (ds : ForeignMasterDS) : Prop where
  i_lt : ds.i < ds.capacity
  i_eq : ds.count < ds.capacity → ds.i = ds.count
  best_lt : ds.best < max 1 ds.count
  distinct : ∀ j < ds.count, ∀ k < ds.count,
    (ds.records j).foreignMasterPortIdentity = (ds.records k).foreignMasterPortIdentity → j = k

/-- The Announce is stored under its sender, and no other record is lost but the
    one in slot `i` of a full table when the sender is unknown. -/
structure ForeignMasterDS.Stored (ds : ForeignMasterDS) (header : MsgHeader)
    (announce : MsgAnnounce) (ds' : ForeignMasterDS) : Prop where
  coherent : ds'.Coherent
  stored : ∃ k < ds'.count,
    (ds'.records k).foreignMasterPortIdentity = header.sourcePortIdentity ∧
    (ds'.records k).header = header ∧ (ds'.records k).announce = announce ∧
    ∀ j < ds'.count,
      (ds'.records j).foreignMasterPortIdentity = header.sourcePortIdentity → j = k
  others : ∀ k < ds'.count, (ds'.records k).foreignMasterPortIdentity ≠ header.sourcePortIdentity →
    k < ds.count ∧ ds'.records k = ds.records k
  kept : ∀ k < ds.count, (ds.records k).foreignMasterPortIdentity ≠ header.sourcePortIdentity →
    (k < ds'.count ∧ ds'.records k = ds.records k) ∨
      (¬ ds.count < ds.capacity ∧ k = ds.i ∧
        ∀ j < ds.count, (ds.records j).foreignMasterPortIdentity ≠ header.sourcePortIdentity)

/-- The same table with room for its live records. -/
def ForeignMasterDS.fit (ds : ForeignMasterDS) : ForeignMasterDS :=
  { ds with capacity := max ds.count ds.capacity }

theorem ForeignMasterDS.Coherent.fit (h : ds.Coherent) : ds.fit.WellFormed where
  i_lt := lt_of_lt_of_le h.i_lt (le_max_right _ _)
  count_le := le_max_left _ _
  i_eq := by
    intro hlt
    have hlt' : ds.count < max ds.count ds.capacity := hlt
    exact h.i_eq (by omega)
  best_lt := h.best_lt
  distinct := h.distinct

/-- The search does not look at the capacity. -/
theorem ForeignMasterDS.search_fit (id : PortIdentity) (n j : Nat) :
    ds.fit.search id n j = ds.search id n j := by
  induction n generalizing j with
  | zero => rfl
  | succ n ih =>
    unfold search
    rw [ih]
    rfl

/-- But for the turn, the capacity beyond the live records makes no difference. -/
theorem ForeignMasterDS.addForeign_fit (ds : ForeignMasterDS) (header : MsgHeader)
    (announce : MsgAnnounce) :
    (ds.fit.addForeign header announce).1 = (ds.addForeign header announce).1 ∧
      (ds.fit.addForeign header announce).2.count = (ds.addForeign header announce).2.count ∧
      (ds.fit.addForeign header announce).2.best = (ds.addForeign header announce).2.best ∧
      (ds.fit.addForeign header announce).2.records =
        (ds.addForeign header announce).2.records := by
  have hroom : ds.fit.count < ds.fit.capacity ↔ ds.count < ds.capacity := by
    show ds.count < max ds.count ds.capacity ↔ _
    omega
  have hsearch : ds.fit.search header.sourcePortIdentity ds.fit.count ds.fit.best =
      ds.search header.sourcePortIdentity ds.count ds.best := search_fit _ _ _
  unfold ForeignMasterDS.addForeign
  rw [hsearch]
  cases ds.search header.sourcePortIdentity ds.count ds.best with
  | some j => exact ⟨rfl, rfl, rfl, rfl⟩
  | none =>
    by_cases h : ds.count < ds.capacity
    · simp only [hroom, h, if_true]
      exact ⟨rfl, rfl, rfl, rfl⟩
    · simp only [hroom, h, if_false]
      exact ⟨rfl, rfl, rfl, rfl⟩

/-- The slot written is that of the sender, else the free one, else the one whose
    turn it is. -/
theorem ForeignMasterDS.Coherent.slot (h : ds.Coherent) (header : MsgHeader)
    (announce : MsgAnnounce) :
    let k := (ds.addForeign header announce).1
    let ds' := (ds.addForeign header announce).2
    (k < ds.count ∧ (ds.records k).foreignMasterPortIdentity = header.sourcePortIdentity ∧
        ds'.i = ds.i ∧ ds'.count = ds.count) ∨
      ((∀ j < ds.count, (ds.records j).foreignMasterPortIdentity ≠ header.sourcePortIdentity) ∧
        k = ds.i ∧ ds'.i = (ds.i + 1) % ds.capacity ∧
        ds'.count = if ds.count < ds.capacity then ds.count + 1 else ds.count) := by
  have hnone :
      ds.fit.search header.sourcePortIdentity ds.fit.count ds.fit.best = none →
        ∀ k < ds.fit.count,
          (ds.fit.records k).foreignMasterPortIdentity ≠ header.sourcePortIdentity := by
    intro hsearch
    exact h.fit.search_none hsearch
  have hbest := h.best_lt
  have hsome : ∀ {j}, ds.search header.sourcePortIdentity ds.count ds.best = some j →
      j < ds.count ∧ (ds.records j).foreignMasterPortIdentity = header.sourcePortIdentity := by
    intro j hsearch
    apply ForeignMasterDS.search_some hsearch
    by_contra hge
    -- an empty table is not searched
    rw [show ds.count = 0 by omega] at hsearch
    cases hsearch
  rw [search_fit] at hnone
  unfold ForeignMasterDS.addForeign
  cases hsearch : ds.search header.sourcePortIdentity ds.count ds.best with
  | some j => exact .inl ⟨(hsome hsearch).1, (hsome hsearch).2, rfl, rfl⟩
  | none =>
    refine .inr ⟨hnone hsearch, ?_⟩
    dsimp only
    split <;> exact ⟨rfl, rfl, rfl⟩

theorem ForeignMasterDS.addForeign_capacity (ds : ForeignMasterDS) (header : MsgHeader)
    (announce : MsgAnnounce) : (ds.addForeign header announce).2.capacity = ds.capacity := by
  unfold ForeignMasterDS.addForeign
  split
  · rfl
  · dsimp only
    split <;> rfl

/-- `addForeign` stores what it is given, in any coherent table. -/
theorem ForeignMasterDS.addForeign_stored (ds : ForeignMasterDS) (h : ds.Coherent)
    (header : MsgHeader) (announce : MsgAnnounce) :
    ds.Stored header announce (ds.addForeign header announce).2 := by
  have hadded := h.fit.addForeign header announce
  obtain ⟨hslot, hcount, hbest, hrecords⟩ := ds.addForeign_fit header announce
  have hcases := h.slot header announce
  have hcapacity := ds.addForeign_capacity header announce
  have hlt := hadded.slot_lt
  have hlive := hadded.live
  have hwritten := hadded.written
  have hothers := hadded.others
  have hdistinct := hadded.wellFormed.distinct
  have hbest_lt := hadded.wellFormed.best_lt
  rw [hcount, hrecords] at hdistinct
  rw [hbest, hcount] at hbest_lt
  rw [hslot, hcount] at hlt hlive
  rw [hslot, hrecords] at hwritten hothers
  generalize (ds.addForeign header announce).2 = ds' at *
  generalize (ds.addForeign header announce).1 = slot at *
  dsimp only at hcases
  have hi := h.i_lt
  have hsender : (ds'.records slot).foreignMasterPortIdentity = header.sourcePortIdentity := by
    rw [hwritten]
  refine ⟨⟨?_, ?_, hbest_lt, hdistinct⟩, ⟨slot, hlt, hsender, ?_, ?_, ?_⟩, ?_, ?_⟩
  · rw [hcapacity]
    rcases hcases with ⟨-, -, hsame, -⟩ | ⟨-, -, hnext, -⟩
    · rw [hsame]
      exact hi
    · rw [hnext]
      exact Nat.mod_lt _ (by omega)
  · rw [hcapacity]
    intro hroom
    rcases hcases with ⟨-, -, hsame, hn⟩ | ⟨-, -, hnext, hn⟩
    · rw [hsame, hn]
      exact h.i_eq (by omega)
    · -- with room for another record the turn does not start again
      split at hn
      · rename_i hbefore
        rw [hnext, hn, h.i_eq hbefore]
        exact Nat.mod_eq_of_lt (by omega)
      · omega
  · rw [hwritten]
  · rw [hwritten]
  · intro j hj hjs
    exact hdistinct j hj slot hlt (hjs.trans hsender.symm)
  · intro k hk hne
    have hks : k ≠ slot := fun heq => hne (heq ▸ hsender)
    exact ⟨(hlive k hk).resolve_left hks, hothers k hks⟩
  · intro k hk hne
    by_cases hks : k = slot
    · -- the record in the slot written is lost
      rcases hcases with ⟨-, hid, -⟩ | ⟨hunknown, hturn, -⟩
      · exact absurd (hks ▸ hid) hne
      · refine .inr ⟨fun hroom => ?_, hks.trans hturn, hunknown⟩
        have hfree := h.i_eq hroom
        omega
    · exact .inl ⟨lt_of_lt_of_le hk (hcount ▸ hadded.count_le), hothers k hks⟩

/-- A full table of two clocks. -/
def fullTable : ForeignMasterDS where
  count := 2
  capacity := 2
  i := 0
  best := 1
  records := fun k =>
    { (default : ForeignMasterRecord) with
      foreignMasterPortIdentity.portNumber := UInt16.ofNat k }

theorem addForeign_stored_full :
    fullTable.Stored { (default : MsgHeader) with sourcePortIdentity.portNumber := 7 } default
      (fullTable.addForeign { (default : MsgHeader) with sourcePortIdentity.portNumber := 7 }
        default).2 :=
  fullTable.addForeign_stored ⟨by decide, by decide, by decide, by decide⟩ _ _

/-! ## Runs -/

/-- The table is about to be emptied. -/
def LogEntry.Empties (e : LogEntry) : Prop := e.call = .initData ∨ e.call = .announceTimeout

/-- The record in this slot was written since the table was last emptied. -/
def Written (k : Nat) (log : List LogEntry) : Prop :=
  Since (fun e _ => e.call = .addForeign k) LogEntry.Empties log

/-- Whatever `bmc` reads is live and was written since the table was last emptied. -/
def LogEntry.ReadsLive (e : LogEntry) (older : List LogEntry) : Prop :=
  ∀ reads, e.call = .bmc reads → Initialised older →
    ∀ k ∈ reads, k < e.before.foreignMasterDS.count ∧ Written k older

/-- The data set is well formed from the first initialisation on, and `bmc`
    has never read a stale record. -/
structure World.ForeignMastersSound (w : World) : Prop where
  wellFormed : Initialised w.log → w.foreignMasterDS.WellFormed
  reads : Every LogEntry.ReadsLive w.log

/-- What is emptied is found clean: initial data meets indices that are 0, the
    announce receipt timeout meets `best` at 0 and no state decision that a port
    about to be master would still have to take. -/
def LogEntry.EmptiesClean (e : LogEntry) : Prop :=
  match e.call with
  | .initData => e.before.foreignMasterDS.i = 0 ∧ e.before.foreignMasterDS.best = 0
  | .announceTimeout =>
    e.before.foreignMasterDS.best = 0 ∧
      (e.before.events.STATE_DECISION_EVENT → e.before.isSlaveOnly)
  | _ => True

instance : DecidablePred LogEntry.EmptiesClean := fun ⟨call, before⟩ => by
  apply @Call.casesOn (fun call => Decidable (LogEntry.EmptiesClean ⟨call, before⟩)) call
  case initData | announceTimeout => exact inferInstanceAs (Decidable (_ ∧ _))
  all_goals intros; exact .isTrue trivial

/-- The invariant: besides the table, whoever is followed has a record, and a
    decision over an empty table can only be due where it is not taken. -/
structure TableInv (c : Core) (l : List LogEntry) : Prop where
  capacity : c.foreignMasterDS.capacity = DEFAULT_MAX_FOREIGN_RECORDS
  wellFormed : c.foreignMasterDS.WellFormed
  written : ∀ k < c.foreignMasterDS.count, Written k l
  follows : c.recommendedState = PTP_SLAVE → 0 < c.foreignMasterDS.count
  pending : c.events.STATE_DECISION_EVENT → c.foreignMasterDS.count = 0 →
    c.portState = PTP_LISTENING ∨ c.portState = PTP_INITIALIZING ∨
      c.portState = PTP_FAULTY ∧
        (c.recommendedState = PTP_INITIALIZING ∨ c.recommendedState = PTP_LISTENING)

theorem LogEntry.not_empties {x : LogEntry} (hx : x.call.kind ≠ .table) : ¬ x.Empties := by
  rintro (heq | heq) <;> simp [heq, Call.kind] at hx

theorem Written.cons {k : Nat} {l : List LogEntry} {x : LogEntry} (hx : ¬ x.Empties)
    (h : Written k l) : Written k (x :: l) :=
  .inr ⟨hx, h⟩

theorem Written.append {k : Nat} {l new : List LogEntry}
    (hnew : ∀ x ∈ new, x.call.kind ≠ .table) (h : Written k l) : Written k (new ++ l) :=
  Since.append (fun x hx => LogEntry.not_empties (hnew x hx)) h

theorem readsLive_of_not_table {x : LogEntry} {l : List LogEntry}
    (hx : x.call.kind ≠ .table) : x.ReadsLive l := by
  intro reads heq
  simp [heq, Call.kind] at hx

theorem every_readsLive_append {l : List LogEntry} (new : List LogEntry)
    (hnew : ∀ x ∈ new, x.call.kind ≠ .table) (h : Every LogEntry.ReadsLive l) :
    Every LogEntry.ReadsLive (new ++ l) := by
  apply h.append
  intro x hx rest
  exact readsLive_of_not_table (hnew x hx)

theorem readsLive_of_ne {x : LogEntry} {l : List LogEntry} (hx : ∀ reads, x.call ≠ .bmc reads) :
    x.ReadsLive l :=
  fun reads heq => absurd heq (hx reads)

theorem ne_initData_of_not_table {l : List LogEntry}
    (h : ∀ x ∈ l, x.call.kind ≠ .table) : ∀ x ∈ l, x.call ≠ .initData := by
  intro x hx heq
  simpa [heq, Call.kind] using h x hx

/-- The engine with its table. -/
structure Engine.TableSound (e : Engine) : Prop where
  consistent : e.core.Consistent
  reads : Every LogEntry.ReadsLive e.log
  table : Initialised e.log → TableInv e.core e.log

/-- Steps that the argument is not about: the table and what it is judged by
    stay, and no tabular call is made. -/
theorem Engine.TableSound.frame {c c' : Core} {l : List LogEntry} (h : TableSound ⟨c, l⟩)
    (new : List LogEntry) (hc : c'.Consistent) (hnew : ∀ x ∈ new, x.call.kind ≠ .table)
    (hds : c'.foreignMasterDS = c.foreignMasterDS) (hport : c'.portState = c.portState)
    (hrec : c'.recommendedState = c.recommendedState)
    (hpending : c'.events.STATE_DECISION_EVENT = c.events.STATE_DECISION_EVENT) :
    TableSound ⟨c', new ++ l⟩ where
  consistent := hc
  reads := every_readsLive_append _ hnew h.reads
  table hinit := by
    have ht := h.table (Initialised.of_append _ (ne_initData_of_not_table hnew) hinit)
    constructor
    · rw [hds]
      exact ht.capacity
    · rw [hds]
      exact ht.wellFormed
    · rw [hds]
      intro k hk
      exact (ht.written k hk).append hnew
    · rw [hds, hrec]
      exact ht.follows
    · rw [hds, hport, hrec, hpending]
      exact ht.pending

theorem ForeignMasterDS.WellFormed.setBest (h : ds.WellFormed) {best : Nat}
    (hbest : best < max 1 ds.count) : { ds with best := best }.WellFormed :=
  ⟨h.i_lt, h.count_le, h.i_eq, hbest, h.distinct⟩

/-- A decision is taken over a table that holds something, save in LISTENING. -/
theorem TableInv.count_pos {c : Core} {l : List LogEntry} (h : TableInv c l)
    (hstate : c.portState.decides) (hevent : c.events.STATE_DECISION_EVENT)
    (hlisten : ¬ (c.foreignMasterDS.count = 0 ∧ c.portState = PTP_LISTENING)) :
    0 < c.foreignMasterDS.count := by
  by_contra hzero
  have hcount : c.foreignMasterDS.count = 0 := by omega
  rcases h.pending hevent hcount with hport | hport | ⟨hport, -⟩
  · exact hlisten ⟨hcount, hport⟩
  · simp [hport, PortState.decides] at hstate
  · simp [hport, PortState.decides] at hstate

/-- `bmc` ran in `c`: the history records what it read, and `best` is its choice. -/
theorem TableInv.bmc {c c' : Core} {l : List LogEntry} {b : LogEntry} {best : Nat}
    {reads : List Nat} (h : TableInv c l) (hb : b.call = .bmc reads)
    (hds : c'.foreignMasterDS = { c.foreignMasterDS with best := best })
    (hbest : best < max 1 c.foreignMasterDS.count)
    (hfollows : c'.recommendedState = PTP_SLAVE → 0 < c.foreignMasterDS.count)
    (hevent : c'.events.STATE_DECISION_EVENT = false) : TableInv c' (b :: l) := by
  have hb' : ¬ b.Empties := by
    rintro (heq | heq) <;> simp [hb] at heq
  constructor
  · rw [hds]
    exact h.capacity
  · rw [hds]
    exact h.wellFormed.setBest hbest
  · rw [hds]
    intro k hk
    exact (h.written k hk).cons hb'
  · rw [hds]
    exact hfollows
  · simp [hevent]

theorem TableInv.cons {c : Core} {l : List LogEntry} {x : LogEntry} (h : TableInv c l)
    (hx : ¬ x.Empties) : TableInv c (x :: l) :=
  ⟨h.capacity, h.wellFormed, fun k hk => (h.written k hk).cons hx, h.follows, h.pending⟩

theorem TableInv.readsLive {c : Core} {l : List LogEntry} {b : LogEntry} {reads : List Nat}
    (h : Initialised l → TableInv c l) (hb : b.call = .bmc reads)
    (hds : b.before.foreignMasterDS = c.foreignMasterDS)
    (hreads : Initialised l → ∀ k ∈ reads, k < c.foreignMasterDS.count) : b.ReadsLive l := by
  intro reads' hb' hinit k hk
  obtain rfl : reads = reads' := by simpa [hb] using hb'
  rw [hds]
  exact ⟨hreads hinit k hk, (h hinit).written k (hreads hinit k hk)⟩

/-- The decision: what `bmc` reads was written, and what it selects is live. -/
theorem Engine.TableSound.decide {c c' : Core} {l l' : List LogEntry} (h : TableSound ⟨c, l⟩)
    (hdecide : Decide c l c' l') :
    Every LogEntry.ReadsLive l' ∧ (Initialised l' → Initialised l ∧ TableInv c' l') := by
  have htable : Initialised l → TableInv c l := h.table
  have hbmc : ∀ {b : LogEntry} {reads}, b.call = .bmc reads → Initialised (b :: l) →
      Initialised l := fun {b reads} hb hinit =>
    Initialised.of_append [b] (by simp [hb]) hinit
  cases hdecide with
  | none => exact ⟨h.reads, fun hinit => ⟨hinit, h.table hinit⟩⟩
  | listen b hstate hevent hcount hb hbc =>
    refine ⟨⟨TableInv.readsLive htable hb (congrArg Core.foreignMasterDS hbc) (by simp), h.reads⟩,
      fun hinit => ?_⟩
    have hinit' := hbmc hb hinit
    exact ⟨hinit', (htable hinit').bmc hb rfl (by simp) (by simp) rfl⟩
  | lead b best reads p r hstate hevent hlisten hbest hreads hmem hr hb hbc =>
    have hpos : Initialised l → 0 < c.foreignMasterDS.count := fun hinit =>
      (htable hinit).count_pos hstate hevent hlisten
    -- the slots read are below `max 1 count`, and the table is not empty
    refine ⟨⟨TableInv.readsLive htable hb (congrArg Core.foreignMasterDS hbc) ?_, h.reads⟩,
      fun hinit => ?_⟩
    · intro hinit k hk
      have hle := hreads k hk
      have hcount := hpos hinit
      omega
    · have hinit' := hbmc hb hinit
      have hcount := hpos hinit'
      exact ⟨hinit', (htable hinit').bmc hb rfl (by omega) (fun _ => hcount) rfl⟩
  | follow b x best reads hstate hevent hlisten hbest hreads hmem hb hbc hx hxc =>
    have hpos : Initialised l → 0 < c.foreignMasterDS.count := fun hinit =>
      (htable hinit).count_pos hstate hevent hlisten
    have hx' : x.call.kind ≠ .table := by simp [hx, Call.kind]
    have hlive : b.ReadsLive l := by
      refine TableInv.readsLive htable hb (congrArg Core.foreignMasterDS hbc) ?_
      intro hinit k hk
      have hle := hreads k hk
      have hcount := hpos hinit
      omega
    refine ⟨every_readsLive_append [x] (by simpa using hx') ⟨hlive, h.reads⟩,
      fun hinit => ?_⟩
    have hinit' := hbmc hb (Initialised.of_append [x] (by simp [hx]) hinit)
    have hcount := hpos hinit'
    refine ⟨hinit', .cons (.bmc (htable hinit') hb rfl ?_ (fun _ => hcount) rfl)
      (LogEntry.not_empties hx')⟩
    omega

theorem Move.not_table {c c' : Core} {l l' : List LogEntry} (h : Move c l c' l') :
    ∃ new, l' = new ++ l ∧ ∀ x ∈ new, x.call.kind ≠ .table := by
  obtain ⟨new, rfl, hnew⟩ := h.log_eq
  refine ⟨new, rfl, ?_⟩
  intro x hx
  obtain ⟨s, hs⟩ := hnew x hx
  simp [hs, Call.kind]

/-- With a decision due over an empty table that is not taken, a port can only
    stay where it is or listen. -/
theorem TableInv.move_pending {c c' : Core} {l l' : List LogEntry} (h : TableInv c l)
    (hc : c.Consistent) (hdecides : c.portState.decides = false)
    (hevent : c.events.STATE_DECISION_EVENT) (hcount : c.foreignMasterDS.count = 0)
    (hmove : Move c l c' l') : c' = c ∨ c'.portState = PTP_LISTENING := by
  have hrec : c.recommendedState = PTP_INITIALIZING ∨ c.recommendedState = PTP_LISTENING := by
    rcases h.pending hevent hcount with hport | hport | ⟨-, hrec⟩
    · simp [hport, PortState.decides] at hdecides
    · have hagrees := hc.agrees
      rw [hport] at hagrees
      exact .inl hagrees
    · exact hrec
  cases hmove with
  | stay => exact .inl rfl
  | enter s x hs =>
    refine .inr ?_
    rcases hs with ⟨hs, hto⟩ | ⟨-, hmaster⟩
    · rcases hrec with hrec | hrec
      · simp [hs, hrec] at hto
      · exact hs.trans hrec
    · simp [hmaster] at hrec
  | uncalibrate x hslave => simp [hslave] at hrec
  | calibrated x hslave => simp [hslave] at hrec
  | calibrating hslave => simp [hslave] at hrec
  | slave => exact .inl rfl
  | recalibrate x fault changed hslave => simp [hslave] at hrec
  | recalibrateTwice x y hslave => simp [hslave] at hrec

theorem TableInv.move {c c' : Core} {l l' : List LogEntry} (h : TableInv c l)
    (hdue : c.events.STATE_DECISION_EVENT → c.Consistent ∧ c.portState.decides = false)
    (hmove : Move c l c' l') : TableInv c' l' := by
  have hframe := hmove.frame
  obtain ⟨new, rfl, hnew⟩ := hmove.not_table
  constructor
  · rw [hframe.foreignMasterDS]
    exact h.capacity
  · rw [hframe.foreignMasterDS]
    exact h.wellFormed
  · rw [hframe.foreignMasterDS]
    intro k hk
    exact (h.written k hk).append hnew
  · rw [hframe.foreignMasterDS, hframe.recommendedState]
    exact h.follows
  · rw [hframe.foreignMasterDS, hframe.pending]
    intro hevent hcount
    obtain ⟨hc, hdecides⟩ := hdue hevent
    rcases h.move_pending hc hdecides hevent hcount hmove with rfl | hport
    · exact h.pending hevent hcount
    · exact .inl hport

theorem ForeignMasterDS.WellFormed.of_empty (hcapacity : 0 < ds.capacity) (hcount : ds.count = 0)
    (hi : ds.i = 0) (hbest : ds.best = 0) : ds.WellFormed where
  i_lt := by omega
  count_le := by omega
  i_eq _ := by omega
  best_lt := by omega
  distinct j hj := by omega

/-- The table once it is emptied. -/
theorem TableInv.empty {c : Core} {l : List LogEntry}
    (hcapacity : c.foreignMasterDS.capacity = DEFAULT_MAX_FOREIGN_RECORDS)
    (hcount : c.foreignMasterDS.count = 0) (hi : c.foreignMasterDS.i = 0)
    (hbest : c.foreignMasterDS.best = 0) (hrec : c.recommendedState ≠ PTP_SLAVE)
    (hpending : c.events.STATE_DECISION_EVENT →
      c.portState = PTP_LISTENING ∨ c.portState = PTP_INITIALIZING) : TableInv c l where
  capacity := hcapacity
  wellFormed := .of_empty (by rw [hcapacity]; decide) hcount hi hbest
  written k hk := by omega
  follows heq := absurd heq hrec
  pending hevent _ := (hpending hevent).imp_right .inl

theorem emptiesClean_timeout {c : Core} {x : LogEntry} (hx : x.call = .announceTimeout)
    (hxc : x.before.core = c) (h : x.EmptiesClean) :
    c.foreignMasterDS.best = 0 ∧ (c.events.STATE_DECISION_EVENT → c.slaveOnly) := by
  rw [LogEntry.EmptiesClean, hx] at h
  subst hxc
  exact h

theorem Decide.due {c c' : Core} {l l' : List LogEntry} (h : Decide c l c' l')
    (hevent : c'.events.STATE_DECISION_EVENT) : c' = c ∧ c.portState.decides = false := by
  cases h with
  | none h => exact ⟨rfl, by simpa [hevent] using h⟩
  | listen => cases hevent
  | lead => cases hevent
  | follow => cases hevent

/-- A change of port state that touches the table nowhere. -/
theorem Engine.TableSound.enter {c c' : Core} {l : List LogEntry} {s : PortState}
    (h : TableSound ⟨c, l⟩) (x : LogEntry) (hx : x.call = .toState s)
    (hc : (c'.enter s).Consistent) (hds : c'.foreignMasterDS = c.foreignMasterDS)
    (hfollows : (c'.enter s).recommendedState = PTP_SLAVE → c.recommendedState = PTP_SLAVE)
    (hpending : TableInv c l → c'.events.STATE_DECISION_EVENT → c.foreignMasterDS.count = 0 →
      s = PTP_LISTENING ∨ s = PTP_INITIALIZING ∨ s = PTP_FAULTY ∧
        ((c'.enter s).recommendedState = PTP_INITIALIZING ∨
          (c'.enter s).recommendedState = PTP_LISTENING)) :
    TableSound ⟨c'.enter s, x :: l⟩ where
  consistent := hc
  reads := every_readsLive_append [x] (by simp [hx, Call.kind]) h.reads
  table hinit := by
    have ht : TableInv c l := h.table (Initialised.of_append [x] (by simp [hx]) hinit)
    have hx' : ¬ x.Empties := LogEntry.not_empties (by simp [hx, Call.kind])
    constructor
    · simpa [hds] using ht.capacity
    · simpa [hds] using ht.wellFormed
    · simpa [hds] using fun k hk => (ht.written k hk).cons hx'
    · simpa [hds] using fun hrec => ht.follows (hfollows hrec)
    · simpa [hds] using hpending ht

theorem Engine.TableSound.step {e e' : Engine} (h : e.TableSound) (hstep : Step e e')
    (hclean : ∀ x ∈ e'.log, x.EmptiesClean) : e'.TableSound := by
  have hc := hstep.consistent h.consistent
  cases hstep with
  | note x hx =>
    exact h.frame [x] hc (by simp [hx]) rfl rfl rfl rfl
  | startup x hx => exact h.enter x hx hc rfl (by rintro ⟨⟩) fun _ _ _ => .inr (.inl rfl)
  | @toState c l s x hs hx =>
    rcases hs with rfl | rfl | rfl
    · exact h.enter x hx hc rfl (by rintro ⟨⟩) fun _ _ _ => .inr (.inl rfl)
    · -- FAULTY keeps what is recommended, and a pending decision with it
      refine h.enter x hx hc rfl id fun ht hevent hcount => .inr (.inr ⟨rfl, ?_⟩)
      have hagrees : c.portState.agrees c.recommendedState := h.consistent.agrees
      rcases ht.pending hevent hcount with hport | hport | ⟨-, hrec⟩
      · rw [hport] at hagrees
        exact .inr hagrees
      · rw [hport] at hagrees
        exact .inl hagrees
      · exact hrec
    · exact h.enter x hx hc rfl (by rintro ⟨⟩) fun _ _ _ => .inl rfl
  | clockStep x time hx => exact h.frame [x] hc (by simp [hx, Call.kind]) rfl rfl rfl rfl
  | @initialise c l x id p slaveOnly hstate hx hxc =>
    have hrec : c.recommendedState ≠ PTP_SLAVE := by
      have hagrees : c.portState.agrees c.recommendedState := h.consistent.agrees
      rw [hstate] at hagrees
      simp [show c.recommendedState = _ from hagrees]
    have hx' : x.EmptiesClean := hclean x (by simp)
    have hds : x.before.foreignMasterDS = c.foreignMasterDS := congrArg Core.foreignMasterDS hxc
    rw [LogEntry.EmptiesClean, hx, hds] at hx'
    refine ⟨hc, ⟨readsLive_of_ne (by simp [hx]), h.reads⟩, ?_⟩
    intro _
    exact .empty h.consistent.maxForeignRecords rfl hx'.1 hx'.2 hrec fun _ => .inr hstate
  | decision hdecide hmove =>
    obtain ⟨hreads, htable⟩ := h.decide hdecide
    obtain ⟨new, rfl, hnew⟩ := hmove.not_table
    refine ⟨hc, every_readsLive_append _ hnew hreads, ?_⟩
    intro hinit
    obtain ⟨-, ht⟩ := htable (Initialised.of_append _ (ne_initData_of_not_table hnew) hinit)
    refine ht.move (fun hevent => ?_) hmove
    obtain ⟨rfl, hdecides⟩ := hdecide.due hevent
    exact ⟨h.consistent, hdecides⟩
  | @timeoutMaster c l x y p hso hx hxc hy =>
    obtain ⟨hbest, hevent⟩ := emptiesClean_timeout hx hxc (hclean x (by simp))
    refine ⟨hc, ⟨readsLive_of_ne (by simp [hy]), readsLive_of_ne (by simp [hx]), h.reads⟩,
      fun hinit => ?_⟩
    have ht : TableInv c l := h.table (Initialised.of_append [y, x] (by simp [hx, hy]) hinit)
    refine .empty (by simpa using ht.capacity) (by simp) (by simp) (by simpa using hbest) ?_ ?_
    · rintro ⟨⟩
    · intro hpending
      simp [hso, show c.events.STATE_DECISION_EVENT = true by simpa using hpending] at hevent
  | @timeoutListen c l x y hso hx hxc hy =>
    obtain ⟨hbest, -⟩ := emptiesClean_timeout hx hxc (hclean x (by simp))
    refine ⟨hc, ⟨readsLive_of_ne (by simp [hy]), readsLive_of_ne (by simp [hx]), h.reads⟩,
      fun hinit => ?_⟩
    have ht : TableInv c l := h.table (Initialised.of_append [y, x] (by simp [hx, hy]) hinit)
    exact .empty (by simpa using ht.capacity) (by simp) (by simp) (by simpa using hbest)
      (by rintro ⟨⟩) fun _ => .inl rfl
  | @timeoutStay c l x hso hstate hx hxc =>
    obtain ⟨hbest, -⟩ := emptiesClean_timeout hx hxc (hclean x (by simp))
    refine ⟨hc, ⟨readsLive_of_ne (by simp [hx]), h.reads⟩, ?_⟩
    intro hinit
    have ht : TableInv c l := h.table (Initialised.of_append [x] (by simp [hx]) hinit)
    have hrec : c.recommendedState ≠ PTP_SLAVE := by
      have hagrees : c.portState.agrees c.recommendedState := h.consistent.agrees
      rw [hstate] at hagrees
      simp [show c.recommendedState = _ from hagrees]
    exact .empty ht.capacity rfl rfl hbest hrec fun _ => .inl hstate
  | @announceParent c l a x header announce hstate hsender ha hac hx hxc =>
    refine ⟨hc, every_readsLive_append [x, a] (by simp [ha, hx, Call.kind]) h.reads,
      fun hinit => ?_⟩
    have ht : TableInv c l := h.table (Initialised.of_append [x, a] (by simp [ha, hx]) hinit)
    have hx' : ¬ x.Empties := LogEntry.not_empties (by simp [hx, Call.kind])
    have ha' : ¬ a.Empties := LogEntry.not_empties (by simp [ha, Call.kind])
    -- a port that follows someone has a record, so the pending decision is in order
    have hpos : 0 < c.foreignMasterDS.count := ht.follows (h.consistent.recommends hstate)
    exact ⟨ht.capacity, ht.wellFormed, fun k hk => ((ht.written k hk).cons ha').cons hx',
      ht.follows, fun _ hcount => absurd hcount hpos.ne'⟩
  | @announceForeign c l a x header announce hstate hsender ha hac hx =>
    refine ⟨hc, every_readsLive_append [x, a] (by simp [ha, hx, Call.kind]) h.reads,
      fun hinit => ?_⟩
    have ht : TableInv c l := h.table (Initialised.of_append [x, a] (by simp [ha, hx]) hinit)
    have hx' : ¬ x.Empties := LogEntry.not_empties (by simp [hx, Call.kind])
    have ha' : ¬ a.Empties := LogEntry.not_empties (by simp [ha, Call.kind])
    have hadd := ht.wellFormed.addForeign header announce
    have hpos : 0 < (c.foreignMasterDS.addForeign header announce).2.count :=
      Nat.zero_lt_of_lt hadd.slot_lt
    refine ⟨hadd.capacity.trans ht.capacity, hadd.wellFormed, fun k hk => ?_, fun _ => hpos,
      fun _ hcount => absurd hcount hpos.ne'⟩
    rcases hadd.live k hk with rfl | hk
    · exact .inl hx
    · exact ((ht.written k hk).cons ha').cons hx'
  | measurement hmeasure =>
    obtain ⟨new, rfl, hnew⟩ := hmeasure.log_eq
    obtain ⟨hframe, hport⟩ := hmeasure.frame
    exact h.frame new hc (fun x hx => by rcases hnew x hx with hk | hk <;> simp [hk])
      hframe.foreignMasterDS hport hframe.recommendedState hframe.pending
  | delayResp r x time egress stale hmem hr htype hsender hstate hsamples hx =>
    exact h.frame [x] hc (by simp [hx, Call.kind]) rfl rfl rfl rfl
  | peer hpeer =>
    obtain ⟨new, rfl, hnew⟩ := hpeer.log_eq
    obtain ⟨hframe, hport⟩ := hpeer.frame
    exact h.frame new hc (fun x hx => by rcases hnew x hx with hk | hk <;> simp [hk])
      hframe.foreignMasterDS hport hframe.recommendedState hframe.pending

theorem Engine.Initial.tableSound {e : Engine} (h : Engine.Initial e) : e.TableSound := by
  obtain ⟨x, hlog, hx⟩ := h.log
  refine ⟨h.consistent, ?_, ?_⟩
  · rw [hlog]
    exact ⟨readsLive_of_ne (by simp [hx]), trivial⟩
  · rw [hlog]
    rintro ⟨e, he, hinit⟩
    simp only [List.mem_singleton] at he
    simp [he, hx] at hinit

/-- In every run that empties only clean tables the data set is sound. -/
theorem foreignMasters_sound {w : World} (hw : Reachable w)
    (hclean : ∀ x ∈ w.log, x.EmptiesClean) : w.ForeignMastersSound := by
  have hsound : w.engine.TableSound := hw.invariant (fun _ => Engine.Initial.tableSound)
    (fun _ _ hstep => hstep.forall_log) (fun _ _ hstep hclean h => h.step hstep hclean) hclean
  exact ⟨fun hinit => (hsound.table hinit).wellFormed, hsound.reads⟩

/-- A restart after one Announce: the next free slot is not the first. -/
theorem foreignMasters_unsound : ¬ ∀ w, Reachable w → w.ForeignMastersSound := by
  intro h
  have hreach : Reachable (sampleRun .E2E [.doState, sampleAnnounce 9 200 1, .doState,
      .ptpdStartup (.sample .E2E), .doState]) := reachable_sampleRun .E2E (by decide)
  have hwf := (h _ hreach).wellFormed (by unfold Initialised; decide +kernel)
  have hi := hwf.i_eq (by decide +kernel)
  revert hi
  decide +kernel

/-- One Announce and no restart. -/
theorem foreignMasters_sound_announce :
    World.ForeignMastersSound
      (sampleRun .E2E [.doState, sampleAnnounce 9 200 1, .doState, .doState]) :=
  foreignMasters_sound (reachable_sampleRun .E2E (by decide)) (by decide +kernel)

end Ptpd
