/-!
First-in first-out queues. A representation implements one when each of its
operations does to the items what the operation of a list does; then whole
histories of pushes and pops keep the order.
-/

namespace Fifo

variable {Queue Item : Type}

inductive Operation (Item : Type) where
  | push (item : Item)
  | pop

structure Implements (push : Queue → Item → Queue) (pop : Queue → Option (Item × Queue))
    (items : Queue → List Item) : Prop where
  pushed : ∀ queue item, items (push queue item) = items queue ++ [item]
  exhausted : ∀ queue, pop queue = none → items queue = []
  popped : ∀ queue item after, pop queue = some (item, after) → items queue = item :: items after

/-- What the successful pops of a history return, in order, and the queue it leaves. -/
def run (push : Queue → Item → Queue) (pop : Queue → Option (Item × Queue)) :
    Queue → List (Operation Item) → List Item × Queue
  | queue, [] => ([], queue)
  | queue, .push item :: rest => run push pop (push queue item) rest
  | queue, .pop :: rest =>
      match pop queue with
      | none => run push pop queue rest
      | some (item, after) =>
          let (items, finish) := run push pop after rest
          (item :: items, finish)

def pushes : List (Operation Item) → List Item
  | [] => []
  | .push item :: rest => item :: pushes rest
  | .pop :: rest => pushes rest

variable {push : Queue → Item → Queue} {pop : Queue → Option (Item × Queue)}
variable {items : Queue → List Item}

theorem Implements.pop_none_iff (implements : Implements push pop items) (queue : Queue) :
    pop queue = none ↔ items queue = [] := by
  constructor
  · exact implements.exhausted queue
  · intro nothing
    cases taken : pop queue with
    | none => rfl
    | some result =>
        have first := implements.popped queue result.1 result.2 taken
        rw [nothing] at first
        contradiction

/-- Nothing is lost, added or reordered: what has been popped, followed by what
is left, is what was there, followed by what was pushed. -/
theorem Implements.run_items (implements : Implements push pop items)
    (operations : List (Operation Item)) (queue : Queue) :
    (run push pop queue operations).1 ++ items (run push pop queue operations).2 =
      items queue ++ pushes operations := by
  induction operations generalizing queue with
  | nil => simp [run, pushes]
  | cons operation rest ih =>
      cases operation with
      | push item =>
          rw [run, ih, implements.pushed, pushes, List.append_assoc]
          rfl
      | pop =>
          rw [run, pushes]
          split
          · exact ih queue
          · rename_i item after taken
            rw [implements.popped queue item after taken, List.cons_append, List.cons_append, ih]

end Fifo
