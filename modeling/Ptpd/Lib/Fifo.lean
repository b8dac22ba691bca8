import Ptpd.Lib.Transducer

/-! # Bounded queues

    The queue as it is meant: a list, oldest element first, that takes elements
    at its end while it has room and gives them from its front. Over any run
    what was put in is, in that order, what was taken out and then what is left.
-/

namespace Fifo

open Transducer

variable {α : Type u}

inductive Op (α : Type u) where
  | put (x : α)
  | get
  | check
  | empty

inductive Answer (α : Type u) where
  | stored (success : Bool)
  | got (x : Option α)
  | waits (any : Bool)
  | emptied (xs : List α)

def step (capacity : Nat) (held : List α) : Op α → Answer α × List α
  | .put x =>
    if held.length < capacity then (.stored true, held ++ [x]) else (.stored false, held)
  | .get => (.got held.head?, held.tail)
  | .check => (.waits !held.isEmpty, held)
  | .empty => (.emptied held, [])

theorem step_put_room {capacity : Nat} {held : List α} (h : held.length < capacity) (x : α) :
    step capacity held (.put x) = (.stored true, held ++ [x]) := if_pos h

theorem step_put_full {capacity : Nat} {held : List α} (h : ¬ held.length < capacity) (x : α) :
    step capacity held (.put x) = (.stored false, held) := if_neg h

/-- The elements that were put in. -/
def accepted : List (Op α) → List (Answer α) → List α
  | .put x :: ops, .stored true :: answers => x :: accepted ops answers
  | _ :: ops, _ :: answers => accepted ops answers
  | _, _ => []

def Answer.taken : Answer α → List α
  | .got x => x.toList
  | .emptied xs => xs
  | _ => []

/-- The elements that were taken out. -/
def removed (answers : List (Answer α)) : List α := answers.flatMap Answer.taken

@[simp] theorem removed_cons (answer : Answer α) (answers : List (Answer α)) :
    removed (answer :: answers) = answer.taken ++ removed answers := rfl

/-- **Order is kept**, and nothing is lost or doubled. -/
theorem run_order (capacity : Nat) (held : List α) (ops : List (Op α)) :
    held ++ accepted ops (run (step capacity) held ops).1 =
      removed (run (step capacity) held ops).1 ++ (run (step capacity) held ops).2 := by
  induction ops generalizing held with
  | nil => simp [run, accepted, removed]
  | cons op ops ih =>
    cases op with
    | put x =>
      rw [run_cons]
      by_cases hroom : held.length < capacity
      · rw [step_put_room hroom]
        have hrest := ih (held ++ [x])
        rw [List.append_assoc] at hrest
        exact hrest
      · rw [step_put_full hroom]
        exact ih held
    | get =>
      have hsplit : held.head?.toList ++ held.tail = held := by cases held <;> rfl
      calc held ++ accepted ops (run (step capacity) held.tail ops).1
          = held.head?.toList ++ (held.tail ++ accepted ops (run (step capacity) held.tail ops).1) := by
            rw [← List.append_assoc, hsplit]
        _ = held.head?.toList ++ (removed (run (step capacity) held.tail ops).1 ++
              (run (step capacity) held.tail ops).2) := by rw [ih held.tail]
        _ = _ := (List.append_assoc _ _ _).symm
    | check => exact ih held
    | empty =>
      calc held ++ accepted ops (run (step capacity) [] ops).1
          = held ++ (removed (run (step capacity) [] ops).1 ++ (run (step capacity) [] ops).2) :=
            congrArg _ (ih [])
        _ = _ := (List.append_assoc _ _ _).symm

end Fifo
