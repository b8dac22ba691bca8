import Ptpd.Draining
import Ptpd.Lib.Fifo

/-! # The packet queue as a bounded queue (`dep/net.c`)

    Over any run of its operations the ring of pointers answers as a queue of
    `PBUF_QUEUE_SIZE` packets does.
-/

namespace Ptpd

open Fifo

/-- One call. -/
def queueStep (pQ : BufQueue) : Op Pbuf → Answer Pbuf × BufQueue
  | .put pbuf => let (success, pQ) := netQPut pQ pbuf; (.stored success, pQ)
  | .get => let (pbuf, pQ) := netQGet pQ; (.got pbuf, pQ)
  | .check => (.waits (netQCheck pQ), pQ)
  | .empty => let (freed, pQ) := netQEmpty pQ; (.emptied freed, pQ)

/-- The ring is well formed and holds these packets. -/
structure Represents (q : BufQueue) (held : List Pbuf) : Prop where
  wellFormed : q.WellFormed
  held : q.held = held

variable {q : BufQueue} {held : List Pbuf}

theorem Represents.length (h : Represents q held) : held.length = q.count := by
  rw [← h.held]
  exact Ring.length_contents _ _ _ _

theorem netQInit_represents (q : BufQueue) : Represents (netQInit q) [] :=
  ⟨netQInit_wellFormed q, rfl⟩

theorem netQGet_fst (q : BufQueue) : (netQGet q).1 = q.held.head? := by
  unfold netQGet
  split
  · next hcount => rw [BufQueue.held_eq_nil.mpr hcount]; rfl
  · next hcount =>
    obtain ⟨count, hcount⟩ : ∃ count, q.count = count + 1 := ⟨q.count - 1, by omega⟩
    unfold BufQueue.held
    rw [hcount]
    rfl

theorem netQGet_snd_held (q : BufQueue) : (netQGet q).2.held = q.held.tail := by
  have hheld := netQGet_held q
  rw [netQGet_fst] at hheld
  cases hq : q.held with
  | nil =>
    rw [hq] at hheld
    exact hheld.symm
  | cons p ps =>
    rw [hq] at hheld
    exact (List.cons.inj hheld).2.symm

theorem netQCheck_eq (q : BufQueue) : netQCheck q = !q.held.isEmpty := by
  unfold netQCheck
  by_cases h : q.count = 0
  · simp [h, BufQueue.held_eq_nil.mpr h]
  · have hheld : q.held ≠ [] := fun heq => h (BufQueue.held_eq_nil.mp heq)
    simp [h, hheld]

/-- One call is one step of the bounded queue. -/
theorem queueStep_refines (h : Represents q held) (op : Op Pbuf) :
    (queueStep q op).1 = (Fifo.step PBUF_QUEUE_SIZE held op).1 ∧
      Represents (queueStep q op).2 (Fifo.step PBUF_QUEUE_SIZE held op).2 := by
  cases op with
  | put p =>
    by_cases hroom : q.count < PBUF_QUEUE_SIZE
    · rw [step_put_room (by rw [h.length]; exact hroom)]
      refine ⟨?_, netQPut_wellFormed h.wellFormed p, ?_⟩
      · simp only [queueStep, netQPut_stored hroom]
      · rw [← h.held]
        exact netQPut_held h.wellFormed hroom p
    · rw [step_put_full (by rw [h.length]; exact hroom)]
      simp only [queueStep, netQPut_full hroom]
      exact ⟨trivial, h⟩
  | get =>
    refine ⟨?_, netQGet_wellFormed h.wellFormed, ?_⟩
    · rw [← h.held]
      exact congrArg Answer.got (netQGet_fst q)
    · rw [← h.held]
      exact netQGet_snd_held q
  | check =>
    refine ⟨?_, h⟩
    rw [← h.held]
    exact congrArg Answer.waits (netQCheck_eq q)
  | empty =>
    have hempty : (netQEmpty q).2.held = [] := BufQueue.held_eq_nil.mpr (netQEmpty_count q)
    have hall : q.held = (netQEmpty q).1 := by
      have hsplit := netQEmpty_held q
      rw [hempty, List.append_nil] at hsplit
      exact hsplit
    refine ⟨?_, netQEmptyLoop_wellFormed _ h.wellFormed, hempty⟩
    rw [← h.held]
    exact congrArg Answer.emptied hall.symm

/-! ## Runs -/

/-- What holds after a run with these answers. -/
structure QueueInv (ops : List (Op Pbuf)) (answers : List (Answer Pbuf)) (q : BufQueue) : Prop where
  fifo : answers = (Transducer.run (Fifo.step PBUF_QUEUE_SIZE) [] ops).1
  count_le : q.count ≤ PBUF_QUEUE_SIZE
  put_eq : q.put = (q.get + q.count) % PBUF_QUEUE_SIZE
  /-- Packets leave in the order in which they came, and the others wait. -/
  order : accepted ops answers = removed answers ++ q.held
  full_iff : ∀ p, (netQPut q p).1 = false ↔ q.held.length = PBUF_QUEUE_SIZE
  full_unchanged : ∀ p, (netQPut q p).1 = false → (netQPut q p).2 = q

/-- **The packet queue refines a bounded queue.** -/
theorem queue_refines_fifo (q : BufQueue) (ops : List (Op Pbuf)) :
    QueueInv ops (Transducer.run queueStep (netQInit q) ops).1
      (Transducer.run queueStep (netQInit q) ops).2 := by
  obtain ⟨hanswers, hlast⟩ := Transducer.run_simulates (R := Represents)
    (fun _ _ op h => queueStep_refines h op) (netQInit_represents q) ops
  have horder := run_order PBUF_QUEUE_SIZE ([] : List Pbuf) ops
  rw [← hanswers, ← hlast.held] at horder
  generalize (Transducer.run queueStep (netQInit q) ops).2 = q' at hlast horder ⊢
  have hlength : q'.held.length = q'.count := Ring.length_contents _ _ _ _
  have hcount := hlast.wellFormed.count_le
  refine ⟨hanswers, hcount, hlast.wellFormed.put_eq, horder, fun p => ?_, fun p hp => ?_⟩
  · rw [hlength]
    by_cases hroom : q'.count < PBUF_QUEUE_SIZE
    · rw [netQPut_stored hroom]
      constructor
      · intro h
        exact absurd h Bool.noConfusion
      · intro h
        exact absurd h (by omega)
    · rw [netQPut_full hroom]
      constructor
      · intro _
        omega
      · intro _
        exact rfl
  · by_cases hroom : q'.count < PBUF_QUEUE_SIZE
    · rw [netQPut_stored hroom] at hp
      exact absurd hp Bool.noConfusion
    · rw [netQPut_full hroom]

end Ptpd
