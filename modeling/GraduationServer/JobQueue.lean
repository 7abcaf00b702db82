import GraduationServer.ContentsProcess
import GraduationServer.Library.Fifo

/-!
The two buffers of a `ThreadJobQueue` and the pointers that exchange their
roles. By roles they are the queue that `ContentsProcess` uses, and that is a
queue of its items, first in and first out.
-/

namespace GraduationServer

namespace ThreadJobQueue

variable {α : Type}

inductive Index where
  | WRITE_QUEUE
  | READ_QUEUE
  deriving DecidableEq

/-- The members of the class; the pointers never meet. -/
structure Buffers (α : Type) where
  queue_ : Index → List α
  writeQueue_ : Index
  readQueue_ : Index
  apart : writeQueue_ ≠ readQueue_

namespace Buffers

def constructed : Buffers α :=
  { queue_ := fun _ => []
    writeQueue_ := .WRITE_QUEUE
    readQueue_ := .READ_QUEUE
    apart := by decide }

def push (buffers : Buffers α) (item : α) : Buffers α :=
  { buffers with queue_ := fun index =>
      if index = buffers.writeQueue_ then buffers.queue_ index ++ [item] else buffers.queue_ index }

def swap (buffers : Buffers α) : Buffers α :=
  if buffers.writeQueue_ = .WRITE_QUEUE then
    { buffers with writeQueue_ := .READ_QUEUE, readQueue_ := .WRITE_QUEUE, apart := by decide }
  else { buffers with writeQueue_ := .WRITE_QUEUE, readQueue_ := .READ_QUEUE, apart := by decide }

def isEmpty (buffers : Buffers α) : Bool := (buffers.queue_ buffers.readQueue_).isEmpty

def size (buffers : Buffers α) : Nat :=
  (buffers.queue_ .WRITE_QUEUE).length + (buffers.queue_ .READ_QUEUE).length

def roles (buffers : Buffers α) : ThreadJobQueue α :=
  { writeQueue_ := buffers.queue_ buffers.writeQueue_
    readQueue_ := buffers.queue_ buffers.readQueue_ }

@[simp] theorem roles_constructed : (constructed : Buffers α).roles = ThreadJobQueue.empty := rfl

@[simp] theorem roles_push (buffers : Buffers α) (item : α) :
    (buffers.push item).roles = buffers.roles.push item := by
  simp [roles, push, ThreadJobQueue.push, Ne.symm buffers.apart]

@[simp] theorem roles_swap (buffers : Buffers α) : buffers.swap.roles = buffers.roles.swap := by
  obtain ⟨queue_, writeQueue_, readQueue_, apart⟩ := buffers
  cases writeQueue_ <;> cases readQueue_
  · contradiction
  · rfl
  · rfl
  · contradiction

@[simp] theorem roles_size (buffers : Buffers α) : buffers.roles.size = buffers.size := by
  obtain ⟨queue_, writeQueue_, readQueue_, apart⟩ := buffers
  cases writeQueue_ <;> cases readQueue_
  · contradiction
  · rfl
  · exact Nat.add_comm _ _
  · contradiction

/-- The buffers that `pop` takes from, once it has seen that there is an item. -/
def readable (buffers : Buffers α) : Buffers α :=
  if buffers.isEmpty then buffers.swap else buffers

theorem roles_readable (buffers : Buffers α) : buffers.readable.roles =
    if buffers.roles.readQueue_ = [] then buffers.roles.swap else buffers.roles := by
  by_cases empty : buffers.queue_ buffers.readQueue_ = []
  · have role : buffers.roles.readQueue_ = [] := empty
    rw [if_pos role, ← roles_swap]
    simp [readable, isEmpty, empty]
  · have role : buffers.roles.readQueue_ ≠ [] := empty
    rw [if_neg role]
    simp [readable, isEmpty, empty]

theorem readable_ne_nil {buffers : Buffers α} (some_item : buffers.size ≠ 0) :
    buffers.readable.queue_ buffers.readable.readQueue_ ≠ [] := by
  by_cases empty : buffers.queue_ buffers.readQueue_ = []
  · have swapped : buffers.readable = buffers.swap := by simp [readable, isEmpty, empty]
    have role := congrArg ThreadJobQueue.readQueue_ (roles_swap buffers)
    rw [← roles_size, ThreadJobQueue.size] at some_item
    rw [swapped]
    intro nothing
    simp only [roles, ThreadJobQueue.swap, nothing, empty] at role some_item
    simp [← role] at some_item
  · have same : buffers.readable = buffers := by simp [readable, isEmpty, empty]
    rwa [same]

def drop (buffers : Buffers α) : Buffers α :=
  { buffers with queue_ := fun index =>
      if index = buffers.readQueue_ then (buffers.queue_ index).tail else buffers.queue_ index }

/-- `front` is never taken of an empty buffer. -/
def pop (buffers : Buffers α) : Option (α × Buffers α) :=
  if nothing : buffers.size = 0 then none
  else
    let item := (buffers.readable.queue_ buffers.readable.readQueue_).head (readable_ne_nil nothing)
    some (item, buffers.readable.drop)

theorem roles_pop (buffers : Buffers α) :
    buffers.pop.map (fun result => (result.1, result.2.roles)) = buffers.roles.pop := by
  by_cases nothing : buffers.size = 0
  · simp [pop, ThreadJobQueue.pop, nothing]
  · obtain ⟨item, rest, front⟩ := List.exists_cons_of_ne_nil (readable_ne_nil nothing)
    have role : buffers.readable.roles.readQueue_ = item :: rest := front
    have taken : buffers.roles.pop =
        some (item, { buffers.readable.roles with readQueue_ := rest }) := by
      simp only [ThreadJobQueue.pop, roles_size, nothing, if_false, ← roles_readable]
      rw [role]
    have left : buffers.readable.drop.roles = { buffers.readable.roles with readQueue_ := rest } := by
      simp [drop, roles, front, buffers.readable.apart]
    rw [taken, pop, dif_neg nothing, Option.map_some, left]
    simp only [front, List.head_cons]

end Buffers

theorem implements_fifo : Fifo.Implements push pop (items (α := α)) := by
  constructor
  · exact items_push
  · exact fun _ => pop_none
  · exact fun _ _ _ => pop_some

theorem Buffers.implements_fifo :
    Fifo.Implements Buffers.push Buffers.pop (fun buffers : Buffers α => buffers.roles.items) := by
  constructor
  · intro buffers item
    rw [Buffers.roles_push, items_push]
  · intro buffers exhausted
    apply pop_none
    rw [← Buffers.roles_pop, exhausted]
    rfl
  · intro buffers item after popped
    apply pop_some
    rw [← Buffers.roles_pop, popped]
    rfl

/-- Whatever is pushed and popped: the pops return the pushed values from the
first on, one fails exactly when all are returned, and `size` counts the others. -/
theorem pop_in_order (operations : List (Fifo.Operation α)) :
    let result := Fifo.run Buffers.push Buffers.pop Buffers.constructed operations
    result.1 ++ result.2.roles.items = Fifo.pushes operations ∧
      (result.2.pop = none ↔ result.1 = Fifo.pushes operations) ∧
      result.1.length + result.2.size = (Fifo.pushes operations).length := by
  have conserved := Buffers.implements_fifo.run_items operations (Buffers.constructed (α := α))
  simp only [Buffers.roles_constructed, items_empty, List.nil_append] at conserved
  refine ⟨conserved, ?_, ?_⟩
  · rw [Buffers.implements_fifo.pop_none_iff, ← conserved]
    simp
  · rw [← conserved, List.length_append, ← Buffers.roles_size]
    simp [items, size, Nat.add_comm]

end ThreadJobQueue

end GraduationServer
