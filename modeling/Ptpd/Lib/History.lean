import Mathlib.Logic.Relation

/-! # Histories

    A history is the list of what a system has recorded, newest entry first.
    `Every` states a property of each entry and the history before it, `Since`
    that something was recorded after the last entry of some other kind. The
    last section is the invariant rule for systems whose history only grows:
    an assumption about the whole history may be used at every step.
-/

namespace History

variable {α : Type*}

/-! ## Every entry -/

/-- `P` holds of every entry together with the history before it. -/
def Every (P : α → List α → Prop) : List α → Prop
  | [] => True
  | e :: older => P e older ∧ Every P older

variable {P Q : α → List α → Prop} {stop : α → Prop}

@[simp] theorem every_nil : Every P [] := trivial

@[simp] theorem every_cons {e : α} {older : List α} :
    Every P (e :: older) ↔ P e older ∧ Every P older := Iff.rfl

theorem every_append {newer older : List α} (h : Every P (newer ++ older)) : Every P older := by
  induction newer with
  | nil => exact h
  | cons e newer ih => exact ih h.2

theorem every_iff {log : List α} :
    Every P log ↔ ∀ newer e older, log = newer ++ e :: older → P e older := by
  constructor
  · rintro h newer e older rfl
    exact (every_append h).1
  · intro h
    induction log with
    | nil => trivial
    | cons e older ih =>
      exact ⟨h [] e older rfl, ih fun newer e' older' heq => h (e :: newer) e' older' (by simp [heq])⟩

/-- Entries that satisfy `P` whatever came before them. -/
theorem Every.append {newer older : List α} (h : Every P older)
    (hnew : ∀ x ∈ newer, ∀ rest, P x rest) : Every P (newer ++ older) := by
  induction newer with
  | nil => exact h
  | cons x newer ih =>
    simp only [List.mem_cons, forall_eq_or_imp] at hnew
    exact ⟨hnew.1 _, ih hnew.2⟩

theorem Every.imp (hPQ : ∀ e older, P e older → Q e older) {log : List α} (h : Every P log) :
    Every Q log := by
  induction log with
  | nil => trivial
  | cons e older ih => exact ⟨hPQ e older h.1, ih h.2⟩

/-- With each entry also the property of those before it. -/
theorem Every.before {log : List α} (h : Every P log) :
    Every (fun e older => P e older ∧ Every P older) log := by
  induction log with
  | nil => trivial
  | cons e older ih => exact ⟨h, ih h.2⟩

/-- Each `p` stands right behind a `q` of its own, so there are no more of them. -/
theorem Every.countP_le {p q : α → Bool} (hpq : ∀ x, q x → p x = false) {log : List α}
    (h : Every (fun x older => p x → ∃ y rest, older = y :: rest ∧ q y) log) :
    log.countP p ≤ log.countP q := by
  -- a `q` on top is not yet used
  have hspare : ∀ log : List α,
      Every (fun x older => p x → ∃ y rest, older = y :: rest ∧ q y) log →
      log.countP p + (if log.head?.any q then 1 else 0) ≤ log.countP q := by
    intro log h
    induction log with
    | nil => simp
    | cons x older ih =>
      have hrest := ih h.2
      by_cases hq : q x
      · simp only [List.countP_cons, hpq x hq, hq, List.head?_cons, Option.any_some, if_true,
          Bool.false_eq_true, if_false]
        omega
      · by_cases hp : p x
        · obtain ⟨y, rest, rfl, hy⟩ := h.1 hp
          simp only [List.head?_cons, Option.any_some, hy, if_true] at hrest
          simp only [List.countP_cons, hp, hq, List.head?_cons, Option.any_some, if_true,
            Bool.false_eq_true, if_false] at hrest ⊢
          omega
        · simp only [List.countP_cons, hp, hq, List.head?_cons, Option.any_some,
            Bool.false_eq_true, if_false]
          omega
  exact Nat.le_trans (Nat.le_add_right _ _) (hspare log h)

instance Every.decidable [∀ e older, Decidable (P e older)] :
    (log : List α) → Decidable (Every P log)
  | [] => isTrue trivial
  | e :: older =>
    have : Decidable (Every P older) := Every.decidable older
    inferInstanceAs (Decidable (P e older ∧ Every P older))

/-! ## Since the last entry of a kind -/

/-- Some entry satisfies `P` with what came before it, and no entry after it is a `stop`. -/
def Since (P : α → List α → Prop) (stop : α → Prop) : List α → Prop
  | [] => False
  | e :: older => P e older ∨ (¬ stop e ∧ Since P stop older)

@[simp] theorem since_nil : ¬ Since P stop [] := id

@[simp] theorem since_cons {e : α} {older : List α} :
    Since P stop (e :: older) ↔ P e older ∨ (¬ stop e ∧ Since P stop older) := Iff.rfl

theorem since_iff {log : List α} :
    Since P stop log ↔
      ∃ newer e older, log = newer ++ e :: older ∧ P e older ∧ ∀ x ∈ newer, ¬ stop x := by
  constructor
  · intro h
    induction log with
    | nil => exact h.elim
    | cons e older ih =>
      rcases h with hP | ⟨hstop, hrest⟩
      · exact ⟨[], e, older, rfl, hP, by simp⟩
      · obtain ⟨newer, e', older', rfl, hP, hno⟩ := ih hrest
        exact ⟨e :: newer, e', older', rfl, hP, by simpa using ⟨hstop, hno⟩⟩
  · rintro ⟨newer, e, older, rfl, hP, hno⟩
    induction newer with
    | nil => exact Or.inl hP
    | cons x newer ih =>
      simp only [List.mem_cons, forall_eq_or_imp] at hno
      exact Or.inr ⟨hno.1, ih hno.2⟩

theorem Since.imp (hPQ : ∀ e older, P e older → Q e older) {log : List α}
    (h : Since P stop log) : Since Q stop log := by
  obtain ⟨newer, e, older, rfl, hP, hno⟩ := since_iff.mp h
  exact since_iff.mpr ⟨newer, e, older, rfl, hPQ e older hP, hno⟩

/-- Fewer entries stop. -/
theorem Since.imp_stop {stop' : α → Prop} (hstop : ∀ x, stop' x → stop x) {log : List α}
    (h : Since P stop log) : Since P stop' log := by
  obtain ⟨newer, e, older, rfl, hP, hno⟩ := since_iff.mp h
  exact since_iff.mpr ⟨newer, e, older, rfl, hP, fun x hx hx' => hno x hx (hstop x hx')⟩

/-- Entries that do not stop leave what has happened since as it is. -/
theorem Since.append {newer log : List α} (hno : ∀ x ∈ newer, ¬ stop x) (h : Since P stop log) :
    Since P stop (newer ++ log) := by
  induction newer with
  | nil => exact h
  | cons x newer ih =>
    simp only [List.mem_cons, forall_eq_or_imp] at hno
    exact Or.inr ⟨hno.1, ih hno.2⟩

/-- Entries that do not satisfy `P` did not make it hold. -/
theorem Since.of_append {newer log : List α} (hno : ∀ x ∈ newer, ∀ older, ¬ P x older)
    (h : Since P stop (newer ++ log)) : Since P stop log := by
  induction newer with
  | nil => exact h
  | cons x newer ih =>
    simp only [List.mem_cons, forall_eq_or_imp] at hno
    rcases h with hP | ⟨-, hrest⟩
    · exact absurd hP (hno.1 _)
    · exact ih hno.2 hrest

/-- Where both entries stop, they are the same entry. -/
theorem Since.and (hP : ∀ e older, P e older → stop e) (hQ : ∀ e older, Q e older → stop e)
    {log : List α} (h : Since P stop log) (h' : Since Q stop log) :
    Since (fun e older => P e older ∧ Q e older) stop log := by
  induction log with
  | nil => exact h
  | cons e older ih =>
    rcases h with hPe | ⟨hno, hrest⟩
    · rcases h' with hQe | ⟨hno', -⟩
      · exact .inl ⟨hPe, hQe⟩
      · exact absurd (hP e older hPe) hno'
    · rcases h' with hQe | ⟨-, hrest'⟩
      · exact absurd (hQ e older hQe) hno
      · exact .inr ⟨hno, ih hrest hrest'⟩

/-- What holds of every entry holds of the one in question. -/
theorem Since.and_every {log : List α} (h : Since P stop log) (hQ : Every Q log) :
    Since (fun e older => P e older ∧ Q e older) stop log := by
  induction log with
  | nil => exact h
  | cons e older ih =>
    rcases h with hPe | ⟨hno, hrest⟩
    · exact .inl ⟨hPe, hQ.1⟩
    · exact .inr ⟨hno, ih hrest hQ.2⟩

instance Since.decidable [∀ e older, Decidable (P e older)] [DecidablePred stop] :
    (log : List α) → Decidable (Since P stop log)
  | [] => isFalse id
  | e :: older =>
    have : Decidable (Since P stop older) := Since.decidable older
    inferInstanceAs (Decidable (P e older ∨ (¬ stop e ∧ Since P stop older)))

/-! ## Runs under an assumption about the history -/

/-- Invariant rule. `assumption` speaks about a history that only grows, so it
    holds before every step of a run at whose end it holds. -/
theorem invariant_of_run {σ : Type*} {step : σ → σ → Prop} {assumption Inv : σ → Prop}
    (hmono : ∀ s s', step s s' → assumption s' → assumption s)
    (hstep : ∀ s s', step s s' → assumption s' → Inv s → Inv s')
    {s s' : σ} (hrun : Relation.ReflTransGen step s s') (ha : assumption s') (hs : Inv s) :
    Inv s' := by
  induction hrun with
  | refl => exact hs
  | tail _ hlast ih => exact hstep _ _ hlast ha (ih (hmono _ _ hlast ha))

end History
