/-!
A recursive mutex: the thread that holds it can lock it again, and gives it up
with as many calls of `unlock`.
-/

inductive RecursiveMutex (Thread : Type) where
  | free
  | held (owner : Thread) (again : Nat)
  deriving DecidableEq

namespace RecursiveMutex

variable {Thread : Type} [DecidableEq Thread]

def holdCount (thread : Thread) : RecursiveMutex Thread → Nat
  | free => 0
  | held owner again => if owner = thread then again + 1 else 0

/-- `none` while another thread holds it. -/
def lock (thread : Thread) : RecursiveMutex Thread → Option (RecursiveMutex Thread)
  | free => some (held thread 0)
  | held owner again => if owner = thread then some (held owner (again + 1)) else none

/-- `none` where the thread does not hold it. -/
def unlock (thread : Thread) : RecursiveMutex Thread → Option (RecursiveMutex Thread)
  | free => none
  | held owner 0 => if owner = thread then some free else none
  | held owner (again + 1) => if owner = thread then some (held owner again) else none

theorem lock_holdCount {thread : Thread} {mutex next : RecursiveMutex Thread}
    (locked : mutex.lock thread = some next) (other : Thread) :
    next.holdCount other = mutex.holdCount other + if other = thread then 1 else 0 := by
  cases mutex with
  | free =>
      cases locked
      by_cases same : other = thread
      · simp [holdCount, same]
      · simp [holdCount, same, Ne.symm same]
  | held owner again =>
      simp only [lock, Option.ite_none_right_eq_some, Option.some.injEq] at locked
      obtain ⟨rfl, rfl⟩ := locked
      by_cases same : other = owner
      · simp [holdCount, same]
      · simp [holdCount, same, Ne.symm same]

theorem unlock_holdCount {thread : Thread} {mutex next : RecursiveMutex Thread}
    (unlocked : mutex.unlock thread = some next) (other : Thread) :
    mutex.holdCount other = next.holdCount other + if other = thread then 1 else 0 := by
  cases mutex with
  | free => cases unlocked
  | held owner again =>
      have owned : owner = thread := by
        cases again <;> simp only [unlock, Option.ite_none_right_eq_some] at unlocked <;>
          exact unlocked.1
      subst owned
      by_cases same : other = owner
      · subst same
        cases again with
        | zero =>
            simp only [unlock, if_true, Option.some.injEq] at unlocked
            simp [holdCount, ← unlocked]
        | succ again =>
            simp only [unlock, if_true, Option.some.injEq] at unlocked
            simp [holdCount, ← unlocked]
      · cases again with
        | zero =>
            simp only [unlock, if_true, Option.some.injEq] at unlocked
            simp [holdCount, ← unlocked, same, Ne.symm same]
        | succ again =>
            simp only [unlock, if_true, Option.some.injEq] at unlocked
            simp [holdCount, ← unlocked, same, Ne.symm same]

theorem unlock_of_held {thread : Thread} {mutex : RecursiveMutex Thread}
    (held : 0 < mutex.holdCount thread) : ∃ next, mutex.unlock thread = some next := by
  cases mutex with
  | free => exact absurd held (Nat.lt_irrefl 0)
  | held owner again =>
      by_cases owned : owner = thread
      · cases again with
        | zero => exact ⟨free, if_pos owned⟩
        | succ again => exact ⟨.held owner again, if_pos owned⟩
      · simp [holdCount, owned] at held

end RecursiveMutex
