import GraduationServer.DeadlockSearch
import GraduationServer.Library.InFlight
import GraduationServer.Library.LastUser
import GraduationServer.Library.Runs

/-!
The objects of class `Thread`, the `ThreadManager` that knows them by the ids of
their threads, and the locks that they are made with. The destructor of the last
user of a lock deletes it; it compares `numberOfThreadUsing_` and acts in two
steps, and the destructors of several threads may run at once.
-/

namespace GraduationServer

/-- How far the destructor has come: not begun, behind `join`, behind
`THREADMANAGER.remove`, or behind the comparison, with either outcome. -/
inductive Lifetime where
  | living
  | joined
  | removed
  | decreasing
  | deleting
  deriving DecidableEq

structure ThreadObject where
  number : Nat
  id_ : ThreadId
  lock_ : Option LockPtr
  lifetime : Lifetime
  deriving DecidableEq

/-- `locks` are the locks that live, with `numberOfThreadUsing_`. `given` records
those that threads were made with since the lock was made. -/
structure ThreadHeap where
  locks : StdMap.Map LockPtr Nat
  threads : List ThreadObject
  threadPool_ : StdMap.Map ThreadId Nat
  created : Nat
  given : List LockPtr

namespace ThreadHeap

inductive Event where
  | newLock (lock : LockPtr)
  | newThread (id_ : ThreadId) (lock_ : Option LockPtr)
  | destruct (index : Nat)

def initial : ThreadHeap :=
  { locks := StdMap.empty
    threads := []
    threadPool_ := StdMap.empty
    created := 0
    given := [] }

def newLock (heap : ThreadHeap) (lock : LockPtr) : Exec ThreadHeap :=
  if heap.locks lock = none then
    .ok { heap with
      locks := StdMap.assign heap.locks lock 0
      given := heap.given.filter fun other => other ≠ lock }
  else .error .notEnabled

def setLock (heap : ThreadHeap) : Option LockPtr → Exec ThreadHeap
  | none => .ok heap
  | some lock =>
      match heap.locks lock with
      | none => .error .freedObject
      | some count =>
          .ok { heap with
            locks := StdMap.assign heap.locks lock (count + 1)
            given := lock :: heap.given }

def put (heap : ThreadHeap) (id_ : ThreadId) (lock_ : Option LockPtr) : ThreadHeap :=
  { heap with
    threads := { number := heap.created, id_, lock_, lifetime := .living } :: heap.threads
    threadPool_ := StdMap.insert heap.threadPool_ id_ heap.created
    created := heap.created + 1 }

/-- The system does not use the id of a thread that has not been joined. -/
def newThread (heap : ThreadHeap) (id_ : ThreadId) (lock_ : Option LockPtr) : Exec ThreadHeap :=
  if ∃ thread ∈ heap.threads, thread.lifetime = .living ∧ thread.id_ = id_ then .error .notEnabled
  else do return (← heap.setLock lock_).put id_ lock_

def advance (heap : ThreadHeap) (thread : ThreadObject) (others : List ThreadObject) :
    Exec ThreadHeap :=
  match thread.lifetime with
  | .living => .ok { heap with threads := { thread with lifetime := .joined } :: others }
  | .joined =>
      .ok { heap with
        threads := { thread with lifetime := .removed } :: others
        threadPool_ := StdMap.erase heap.threadPool_ thread.id_ }
  | .removed =>
      match thread.lock_ with
      | none => .ok { heap with threads := others }
      | some lock =>
          match heap.locks lock with
          | none => .error .freedObject
          | some count =>
              let lifetime : Lifetime := if 1 < count then .decreasing else .deleting
              .ok { heap with threads := { thread with lifetime } :: others }
  | .decreasing =>
      match thread.lock_ with
      | none => .error .nullPointer
      | some lock =>
          match heap.locks lock with
          | none => .error .freedObject
          | some count =>
              .ok { heap with
                locks := StdMap.assign heap.locks lock (count - 1)
                threads := others }
  | .deleting =>
      match thread.lock_ with
      | none => .error .nullPointer
      | some lock =>
          match heap.locks lock with
          | none => .error .freedObject
          | some _ =>
              .ok { heap with
                locks := StdMap.erase heap.locks lock
                threads := others }

def step (heap : ThreadHeap) : Event → Exec ThreadHeap
  | .newLock lock => heap.newLock lock
  | .newThread id_ lock_ => heap.newThread id_ lock_
  | .destruct index =>
      match InFlight.take heap.threads index with
      | none => .error .notEnabled
      | some (thread, others) => heap.advance thread others

def stage : Lifetime → LastUser.Stage
  | .decreasing => .decreasing
  | .deleting => .deleting
  | _ => .using

def users (threads : List ThreadObject) (lock : LockPtr) : Multiset LastUser.Stage :=
  ↑((threads.filter fun thread => thread.lock_ = some lock).map fun thread =>
    stage thread.lifetime)

def view (heap : ThreadHeap) (lock : LockPtr) : LastUser.Resource :=
  { count := heap.locks lock
    users := users heap.threads lock
    given := decide (lock ∈ heap.given) }

def Managed (heap : ThreadHeap) : Prop := ∀ lock, (heap.view lock).Managed

/-- No thread is made with a lock that is being deleted, and no two threads
leave the same lock to each other. -/
def InTurn (heap : ThreadHeap) : Event → Prop
  | .newLock _ => True
  | .newThread _ lock_ =>
      ∀ lock, lock_ = some lock → ∀ thread ∈ heap.threads, thread.lock_ = some lock →
        thread.lifetime ≠ .deleting
  | .destruct index =>
      ∀ thread others lock count, InFlight.take heap.threads index = some (thread, others) →
        thread.lifetime = .removed → thread.lock_ = some lock → heap.locks lock = some count →
        1 < count → ∃ other ∈ others, other.lock_ = some lock ∧ other.lifetime ≠ .decreasing

theorem initial_managed : initial.Managed := by
  intro lock
  constructor
  · intro
    rfl
  · intro count held
    cases held
  · intro deleting
    simp [view, users, initial] at deleting
  · intro stage member
    simp [view, users, initial] at member
  · intro given
    simp [view, initial] at given

@[simp] theorem stage_eq_decreasing {lifetime : Lifetime} :
    stage lifetime = .decreasing ↔ lifetime = .decreasing := by
  cases lifetime <;> simp [stage]

@[simp] theorem stage_eq_deleting {lifetime : Lifetime} :
    stage lifetime = .deleting ↔ lifetime = .deleting := by
  cases lifetime <;> simp [stage]

theorem users_own {thread : ThreadObject} {lock : LockPtr} (threads : List ThreadObject)
    (own : thread.lock_ = some lock) :
    users (thread :: threads) lock = stage thread.lifetime ::ₘ users threads lock := by
  simp [users, own]

theorem users_other {thread : ThreadObject} {lock : LockPtr} (threads : List ThreadObject)
    (other : thread.lock_ ≠ some lock) : users (thread :: threads) lock = users threads lock := by
  simp [users, other]

theorem users_perm {threads others : List ThreadObject} (same : threads.Perm others)
    (lock : LockPtr) : users threads lock = users others lock :=
  Multiset.coe_eq_coe.mpr ((same.filter _).map _)

theorem mem_users {threads : List ThreadObject} {lock : LockPtr} {user : LastUser.Stage} :
    user ∈ users threads lock ↔
      ∃ thread ∈ threads, thread.lock_ = some lock ∧ stage thread.lifetime = user := by
  simp [users, and_assoc]

section

variable {heap next : ThreadHeap} {thread : ThreadObject} {others : List ThreadObject}
variable {lock : LockPtr} {count index : Nat}

theorem Managed.congr (managed : heap.Managed) (same : ∀ lock, next.view lock = heap.view lock) :
    next.Managed := fun lock => same lock ▸ managed lock

theorem Managed.one (managed : heap.Managed) (lock : LockPtr)
    (same : ∀ other, other ≠ lock → next.view other = heap.view other) :
    next.Managed ↔ (next.view lock).Managed := by
  constructor
  · exact fun after => after lock
  · intro own other
    by_cases here : other = lock
    · exact here ▸ own
    · exact same other here ▸ managed other

theorem newLock_managed (managed : heap.Managed) (taken : heap.newLock lock = .ok next) :
    next.Managed := by
  rw [newLock] at taken
  split at taken
  · rename_i free
    cases taken
    have others (other : LockPtr) (different : other ≠ lock) :
        view { heap with
          locks := StdMap.assign heap.locks lock 0
          given := heap.given.filter fun other => other ≠ lock } other = heap.view other := by
      simp [view, different]
    have own : view { heap with
        locks := StdMap.assign heap.locks lock 0
        given := heap.given.filter fun other => other ≠ lock } lock = (heap.view lock).make := by
      simp [view, LastUser.Resource.make]
    rw [managed.one lock others, own]
    exact LastUser.Resource.make_managed (managed lock) free
  · cases taken

theorem put_view_other {id_ : ThreadId} {lock_ : Option LockPtr} (other : lock_ ≠ some lock) :
    (heap.put id_ lock_).view lock = heap.view lock :=
  let thread : ThreadObject := { number := heap.created, id_, lock_, lifetime := .living }
  have same : users (thread :: heap.threads) lock = users heap.threads lock :=
    users_other heap.threads other
  congrArg (fun users => { heap.view lock with users }) same

theorem newThread_exactly {id_ : ThreadId} {lock_ : Option LockPtr} (managed : heap.Managed)
    (taken : heap.newThread id_ lock_ = .ok next) :
    next.Managed ↔ heap.InTurn (.newThread id_ lock_) := by
  rw [newThread] at taken
  split at taken
  · cases taken
  · obtain ⟨after, set, taken⟩ := Exec.bind_ok taken
    cases taken
    cases lock_ with
    | none =>
        cases set
        refine iff_of_true ?_ ?_
        · exact managed.congr fun lock => put_view_other (by simp)
        · intro lock impossible
          cases impossible
    | some lock =>
        simp only [setLock] at set
        split at set
        · cases set
        · rename_i count lives
          cases set
          have others (other : LockPtr) (different : other ≠ lock) :
              (put { heap with
                locks := StdMap.assign heap.locks lock (count + 1)
                given := lock :: heap.given } id_ (some lock)).view other = heap.view other := by
            rw [put_view_other (by simpa using Ne.symm different)]
            simp [view, different]
          have own : (put { heap with
              locks := StdMap.assign heap.locks lock (count + 1)
              given := lock :: heap.given } id_ (some lock)).view lock =
              (heap.view lock).enter count := by
            simp [view, put, LastUser.Resource.enter, users_own, stage]
          rw [managed.one lock others, own,
            LastUser.Resource.enter_managed (managed lock) lives]
          simp only [view, mem_users, InTurn, Option.some.injEq]
          constructor
          · rintro nobody other rfl thread member own deleting
            exact nobody ⟨thread, member, own, by simp [deleting]⟩
          · rintro nobody ⟨thread, member, own, deleting⟩
            exact nobody lock rfl thread member own (stage_eq_deleting.mp deleting)

theorem view_take (taken : InFlight.take heap.threads index = some (thread, others))
    (lock : LockPtr) : heap.view lock = view { heap with threads := thread :: others } lock := by
  simp only [view, users_perm (InFlight.take_perm taken)]

theorem view_lifetime {lifetime : Lifetime} {threadPool_ : StdMap.Map ThreadId Nat}
    (taken : InFlight.take heap.threads index = some (thread, others))
    (same : stage lifetime = stage thread.lifetime) (lock : LockPtr) :
    view { heap with threads := { thread with lifetime } :: others, threadPool_ } lock =
      heap.view lock := by
  rw [view_take taken]
  by_cases own : thread.lock_ = some lock
  · simp [view, users_own _ own, @users_own { thread with lifetime } lock others own, same]
  · simp [view, users_other _ own, @users_other { thread with lifetime } lock others own]

theorem view_other {locks : StdMap.Map LockPtr Nat} {left : List ThreadObject}
    (taken : InFlight.take heap.threads index = some (thread, others))
    (elsewhere : thread.lock_ ≠ some lock) (same : locks lock = heap.locks lock)
    (kept : users left lock = users others lock) :
    view { heap with locks, threads := left } lock = heap.view lock := by
  rw [view_take taken]
  simp only [view, same, kept, users_other others elsewhere]

theorem compare_exactly {lifetime : Lifetime} (managed : heap.Managed)
    (taken : InFlight.take heap.threads index = some (thread, others))
    (removed : thread.lifetime = .removed) (own : thread.lock_ = some lock)
    (lives : heap.locks lock = some count)
    (outcome : lifetime = if 1 < count then .decreasing else .deleting) :
    Managed { heap with threads := { thread with lifetime } :: others } ↔
      heap.InTurn (.destruct index) := by
  have user : heap.view lock = view { heap with threads := thread :: others } lock :=
    view_take taken lock
  have entered : LastUser.Stage.using ∈ (heap.view lock).users := by
    rw [user]
    simp [view, users_own others own, removed, stage]
  have rest : (heap.view lock).users.erase .using = users others lock := by
    rw [user]
    simp [view, users_own others own, removed, stage]
  have verdict : stage lifetime = LastUser.Resource.verdict count := by
    subst outcome
    by_cases more : 1 < count
    · simp [LastUser.Resource.verdict, more, stage]
    · simp [LastUser.Resource.verdict, more, stage]
  have after : view { heap with threads := { thread with lifetime } :: others } lock =
      (heap.view lock).compare count := by
    simp only [LastUser.Resource.compare, rest, ← verdict]
    simp [view, @users_own { thread with lifetime } lock others own]
  have elsewhere (other : LockPtr) (different : other ≠ lock) :
      view { heap with threads := { thread with lifetime } :: others } other = heap.view other := by
    have foreign : thread.lock_ ≠ some other := by simpa [own] using Ne.symm different
    exact view_other taken foreign rfl (users_other others foreign)
  rw [managed.one lock elsewhere, after,
    LastUser.Resource.compare_managed (managed lock) lives entered, rest]
  constructor
  · intro stays found left other number again _ same held more
    rw [taken, Option.some.injEq, Prod.mk.injEq] at again
    obtain ⟨rfl, rfl⟩ := again
    obtain rfl : lock = other := Option.some.inj (own.symm.trans same)
    obtain rfl : count = number := Option.some.inj (lives.symm.trans held)
    obtain ⟨user, member, notDecreasing⟩ := stays more
    obtain ⟨keeper, here, keeps, rfl⟩ := mem_users.mp member
    exact ⟨keeper, here, keeps, fun leaves => notDecreasing (stage_eq_decreasing.mpr leaves)⟩
  · intro inTurn more
    obtain ⟨keeper, here, keeps, stays⟩ :=
      inTurn thread others lock count taken removed own lives more
    exact ⟨_, mem_users.mpr ⟨keeper, here, keeps, rfl⟩,
      fun leaves => stays (stage_eq_decreasing.mp leaves)⟩

theorem decrease_managed (managed : heap.Managed)
    (taken : InFlight.take heap.threads index = some (thread, others))
    (decreasing : thread.lifetime = .decreasing) (own : thread.lock_ = some lock)
    (lives : heap.locks lock = some count) :
    Managed { heap with
      locks := StdMap.assign heap.locks lock (count - 1), threads := others } := by
  have user := view_take taken lock
  have leaving : LastUser.Stage.decreasing ∈ (heap.view lock).users := by
    rw [user]
    simp [view, users_own others own, decreasing, stage]
  have after : view { heap with
      locks := StdMap.assign heap.locks lock (count - 1), threads := others } lock =
      (heap.view lock).decrease count := by
    rw [user]
    simp [view, LastUser.Resource.decrease, users_own others own, decreasing, stage]
  have elsewhere (other : LockPtr) (different : other ≠ lock) : view { heap with
      locks := StdMap.assign heap.locks lock (count - 1), threads := others } other =
      heap.view other :=
    view_other taken (by simpa [own] using Ne.symm different) (StdMap.assign_other different) rfl
  rw [managed.one lock elsewhere, after]
  exact LastUser.Resource.decrease_managed (managed lock) lives leaving

theorem delete_managed (managed : heap.Managed)
    (taken : InFlight.take heap.threads index = some (thread, others))
    (deleting : thread.lifetime = .deleting) (own : thread.lock_ = some lock) :
    Managed { heap with locks := StdMap.erase heap.locks lock, threads := others } := by
  have user := view_take taken lock
  have leaving : LastUser.Stage.deleting ∈ (heap.view lock).users := by
    rw [user]
    simp [view, users_own others own, deleting, stage]
  have after : view { heap with
      locks := StdMap.erase heap.locks lock, threads := others } lock =
      (heap.view lock).delete := by
    rw [user]
    simp [view, LastUser.Resource.delete, users_own others own, deleting, stage]
  have elsewhere (other : LockPtr) (different : other ≠ lock) : view { heap with
      locks := StdMap.erase heap.locks lock, threads := others } other = heap.view other :=
    view_other taken (by simpa [own] using Ne.symm different) (StdMap.erase_other different) rfl
  rw [managed.one lock elsewhere, after]
  exact LastUser.Resource.delete_managed (managed lock) leaving

theorem inTurn_destruct (taken : InFlight.take heap.threads index = some (thread, others))
    (nothing : thread.lifetime ≠ .removed ∨ thread.lock_ = none) :
    heap.InTurn (.destruct index) := by
  intro found left lock count again removed own
  rw [taken, Option.some.injEq, Prod.mk.injEq] at again
  obtain ⟨rfl, rfl⟩ := again
  rcases nothing with other | none_own
  · exact absurd removed other
  · rw [none_own] at own
    cases own

theorem advance_exactly (managed : heap.Managed)
    (taken : InFlight.take heap.threads index = some (thread, others))
    (done : heap.advance thread others = .ok next) :
    next.Managed ↔ heap.InTurn (.destruct index) := by
  cases phase : thread.lifetime with
  | living =>
      simp only [advance, phase, Except.ok.injEq] at done
      subst done
      refine iff_of_true ?_ (inTurn_destruct taken (Or.inl (by simp [phase])))
      exact managed.congr (view_lifetime taken (by simp [phase, stage]))
  | joined =>
      simp only [advance, phase, Except.ok.injEq] at done
      subst done
      refine iff_of_true ?_ (inTurn_destruct taken (Or.inl (by simp [phase])))
      exact managed.congr (view_lifetime taken (by simp [phase, stage]))
  | removed =>
      cases own : thread.lock_ with
      | none =>
          simp only [advance, phase, own, Except.ok.injEq] at done
          subst done
          refine iff_of_true ?_ (inTurn_destruct taken (Or.inr own))
          exact managed.congr fun lock => view_other taken (by simp [own]) rfl rfl
      | some lock =>
          simp only [advance, phase, own] at done
          split at done
          · cases done
          · rename_i count lives
            cases done
            simpa only [own] using compare_exactly managed taken phase own lives rfl
  | decreasing =>
      refine iff_of_true ?_ (inTurn_destruct taken (Or.inl (by simp [phase])))
      cases own : thread.lock_ with
      | none => simp [advance, phase, own] at done
      | some lock =>
          simp only [advance, phase, own] at done
          split at done
          · cases done
          · rename_i count lives
            cases done
            exact decrease_managed managed taken phase own lives
  | deleting =>
      refine iff_of_true ?_ (inTurn_destruct taken (Or.inl (by simp [phase])))
      cases own : thread.lock_ with
      | none => simp [advance, phase, own] at done
      | some lock =>
          simp only [advance, phase, own] at done
          split at done
          · cases done
          · cases done
            exact delete_managed managed taken phase own

theorem step_exactly {event : Event} (managed : heap.Managed)
    (taken : heap.step event = .ok next) : next.Managed ↔ heap.InTurn event := by
  cases event with
  | newLock lock => exact iff_of_true (newLock_managed managed taken) trivial
  | newThread id_ lock_ => exact newThread_exactly managed taken
  | destruct index =>
      simp only [step] at taken
      split at taken
      · cases taken
      · rename_i thread others found
        exact advance_exactly managed found taken

end

/-- In all states of a run the locks are deleted by their last users and by
nobody else, exactly when no thread is made with a lock that is being deleted and
no two threads leave one lock to each other. -/
theorem managed_iff (events : List Event) :
    Runs.Always step Managed initial events ↔ Runs.Throughout step InTurn initial events := by
  refine Runs.always_iff_throughout (fun _ _ _ _ _ _ => trivial) ?_ (fun _ _ => trivial) trivial
    initial_managed
  intro heap event next _ _ managed taken
  exact step_exactly managed taken

end ThreadHeap

end GraduationServer
