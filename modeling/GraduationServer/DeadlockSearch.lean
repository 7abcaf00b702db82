import GraduationServer.Fault
import GraduationServer.Library.FunctionalSearch
import GraduationServer.Library.StdMap
import GraduationServer.LockScope

/-!
`LockManager::searchLockCycle`: from the calling thread to the lock that it was
made for, from there to the thread that took the lock last, and so on. Threads
that were made without a lock end the chain, and so do ids that the
`ThreadManager` does not know.
-/

namespace GraduationServer

/-- `threadId_` is the thread that took the lock last; no unlock takes it back. -/
structure Lock where
  lockId_ : Nat
  threadId_ : ThreadId

structure Thread where
  lock_ : Option LockPtr

structure ThreadManager where
  threadPool_ : StdMap.Map ThreadId Thread
  finite : {id | (threadPool_ id).isSome}.Finite

namespace ThreadManager

def init : ThreadManager :=
  { threadPool_ := StdMap.empty
    finite := by simp [StdMap.empty] }

def put (manager : ThreadManager) (id : ThreadId) (thread : Thread) : ThreadManager :=
  { threadPool_ := StdMap.insert manager.threadPool_ id thread
    finite := by
      apply (manager.finite.insert id).subset
      intro other there
      by_cases same : other = id
      · exact Or.inl same
      · exact Or.inr (by simpa [same] using there) }

def at_ (manager : ThreadManager) (id : ThreadId) : Option Thread := manager.threadPool_ id

end ThreadManager

namespace LockManager

section

variable (locks : LockPtr → Lock) (manager : ThreadManager)

/-- The loop of `searchLockCycle`. Of its `trace` only the first lock is read,
which is `newLock`. -/
def searchLoop (newLock : LockPtr) : Nat → Thread → Exec (Option LockPtr)
  | 0, _ => .error .endlessLoop
  | turns + 1, thread =>
      match thread.lock_ with
      | none => .ok none
      | some threadLock =>
          if (locks threadLock).lockId_ = (locks newLock).lockId_ then .ok (some threadLock)
          else
            match manager.at_ (locks threadLock).threadId_ with
            | none => .ok none
            | some thread => searchLoop newLock turns thread

def searchLockCycle (current : ThreadId) (turns : Nat) (newLock : LockPtr) :
    Exec (Option LockPtr) :=
  match manager.at_ current with
  | none => .ok none
  | some thread => searchLoop locks manager newLock turns thread

def checkDeadLock (current : ThreadId) (turns : Nat) (newLock : LockPtr) :
    Exec (Option LockPtr) := do
  match ← searchLockCycle locks manager current turns newLock with
  | some deadLock => return some deadLock
  | none => return none

def Made (id : ThreadId) (lock : LockPtr) : Prop :=
  ∃ thread, manager.at_ id = some thread ∧ thread.lock_ = some lock

/-- The locks that one comes to from a thread, going from each lock to its holder. -/
inductive OnChain : ThreadId → LockPtr → Prop
  | own {id : ThreadId} {lock : LockPtr} : Made manager id lock → OnChain id lock
  | behind {id : ThreadId} {lock found : LockPtr} : Made manager id lock →
      OnChain (locks lock).threadId_ found → OnChain id found

def Requested (current : ThreadId) (newLock : LockPtr) : Prop :=
  ∃ lock, OnChain locks manager current lock ∧ (locks lock).lockId_ = (locks newLock).lockId_

/-- The search ends, and finds a lock just where the chain has the requested one. -/
def Exact (current : ThreadId) (newLock : LockPtr) : Prop :=
  ∃ turns deadLock, searchLockCycle locks manager current turns newLock = .ok deadLock ∧
    (deadLock.isSome ↔ Requested locks manager current newLock)

def holder (id : ThreadId) : Option ThreadId := do
  let thread ← manager.at_ id
  let lock ← thread.lock_
  return (locks lock).threadId_

def matching (newLock : LockPtr) (id : ThreadId) : Option LockPtr := do
  let thread ← manager.at_ id
  let lock ← thread.lock_
  if (locks lock).lockId_ = (locks newLock).lockId_ then some lock else none

end

variable {locks : LockPtr → Lock} {manager : ThreadManager} {current id : ThreadId}
variable {newLock lock : LockPtr} {turns : Nat} {result : Option LockPtr}

theorem checkDeadLock_eq (current : ThreadId) (turns : Nat) (newLock : LockPtr) :
    checkDeadLock locks manager current turns newLock =
      searchLockCycle locks manager current turns newLock := by
  rw [checkDeadLock]
  cases searchLockCycle locks manager current turns newLock with
  | error reason => rfl
  | ok deadLock => cases deadLock <;> rfl

theorem holder_made (made : Made manager id lock) :
    holder locks manager id = some (locks lock).threadId_ := by
  obtain ⟨thread, found, own⟩ := made
  simp [holder, found, own]

theorem matching_made (made : Made manager id lock) :
    matching locks manager newLock id =
      if (locks lock).lockId_ = (locks newLock).lockId_ then some lock else none := by
  obtain ⟨thread, found, own⟩ := made
  simp [matching, found, own]

theorem made_or_stops (locks : LockPtr → Lock) (newLock : LockPtr) (id : ThreadId) :
    (∃ lock, Made manager id lock) ∨
      holder locks manager id = none ∧ matching locks manager newLock id = none := by
  cases found : manager.at_ id with
  | none => exact Or.inr (by simp [holder, matching, found])
  | some thread =>
      cases own : thread.lock_ with
      | none => exact Or.inr (by simp [holder, matching, found, own])
      | some lock => exact Or.inl ⟨lock, thread, found, own⟩

theorem searchLoop_search {thread : Thread} (found : manager.at_ id = some thread)
    (ends : searchLoop locks manager newLock turns thread = .ok result) :
    FunctionalSearch.search (holder locks manager) (matching locks manager newLock) (turns + 1) id =
      some result := by
  induction turns generalizing id thread with
  | zero => simp [searchLoop] at ends
  | succ turns ih =>
      rw [searchLoop] at ends
      rw [FunctionalSearch.search]
      cases own : thread.lock_ with
      | none =>
          simp only [own, Except.ok.injEq] at ends
          subst ends
          simp [matching, holder, found, own]
      | some lock =>
          have made : Made manager id lock := ⟨thread, found, own⟩
          rw [matching_made made, holder_made made]
          simp only [own] at ends
          by_cases same : (locks lock).lockId_ = (locks newLock).lockId_
          · simpa [same] using ends
          · simp only [same, if_false] at ends ⊢
            cases following : manager.at_ (locks lock).threadId_ with
            | some other =>
                simp only [following] at ends
                exact ih following ends
            | none =>
                simp only [following, Except.ok.injEq] at ends
                subst ends
                simp [FunctionalSearch.search, matching, holder, following]

theorem search_searchLockCycle
    (ends : FunctionalSearch.search (holder locks manager) (matching locks manager newLock) turns
      id = some result) : searchLockCycle locks manager id turns newLock = .ok result := by
  induction turns generalizing id with
  | zero => simp [FunctionalSearch.search] at ends
  | succ turns ih =>
      rw [FunctionalSearch.search] at ends
      cases found : manager.at_ id with
      | none => simpa [searchLockCycle, matching, holder, found] using ends
      | some thread =>
          cases own : thread.lock_ with
          | none =>
              simpa [searchLockCycle, searchLoop, matching, holder, found, own] using ends
          | some lock =>
              have made : Made manager id lock := ⟨thread, found, own⟩
              rw [matching_made made, holder_made made] at ends
              by_cases same : (locks lock).lockId_ = (locks newLock).lockId_
              · simpa [searchLockCycle, searchLoop, found, own, same] using ends
              · simp only [same, if_false] at ends
                have rest := ih ends
                simp only [searchLockCycle, searchLoop, found, own, same, if_false] at rest ⊢
                exact rest

theorem searchLockCycle_search
    (ends : searchLockCycle locks manager id turns newLock = .ok result) :
    FunctionalSearch.search (holder locks manager) (matching locks manager newLock) (turns + 1) id =
      some result := by
  rw [searchLockCycle] at ends
  cases found : manager.at_ id with
  | some thread =>
      simp only [found] at ends
      exact searchLoop_search found ends
  | none =>
      simp only [found, Except.ok.injEq] at ends
      subst ends
      simp [FunctionalSearch.search, matching, holder, found]

theorem requested_iff_found : Requested locks manager current newLock ↔
    FunctionalSearch.Found (holder locks manager) (matching locks manager newLock) current := by
  constructor
  · rintro ⟨lock, chain, same⟩
    induction chain with
    | own made => exact ⟨_, Relation.ReflTransGen.refl, by simp [matching_made made, same]⟩
    | behind made _ ih =>
        obtain ⟨place, reached, there⟩ := ih same
        exact ⟨place, Relation.ReflTransGen.head (holder_made made) reached, there⟩
  · rintro ⟨place, reached, there⟩
    induction reached using Relation.ReflTransGen.head_induction_on with
    | refl =>
        rcases made_or_stops locks newLock place with ⟨lock, made⟩ | ⟨-, nothing⟩
        · rw [matching_made made] at there
          exact ⟨lock, OnChain.own made, by simpa using there⟩
        · simp [nothing] at there
    | @head first middle leads _ ih =>
        obtain ⟨found, chain, same⟩ := ih
        rcases made_or_stops locks newLock first with ⟨lock, made⟩ | ⟨nowhere, -⟩
        · obtain rfl := Option.some.inj ((holder_made made).symm.trans leads)
          exact ⟨found, OnChain.behind made chain, same⟩
        · simp [FunctionalSearch.Leads, nowhere] at leads

theorem holder_finite (locks : LockPtr → Lock) (manager : ThreadManager) :
    {id | (holder locks manager id).isSome}.Finite := by
  apply manager.finite.subset
  intro id leads
  by_contra unknown
  have nothing : manager.at_ id = none := by simpa [ThreadManager.at_] using unknown
  simp [holder, nothing] at leads

/-- The search is exact just where the requested lock is on the chain or the
chain does not run into a circle of threads. -/
theorem searchLockCycle_iff (locks : LockPtr → Lock) (manager : ThreadManager) (current : ThreadId)
    (newLock : LockPtr) :
    Exact locks manager current newLock ↔ Requested locks manager current newLock ∨
      ¬ FunctionalSearch.Circles (holder locks manager) current := by
  rw [requested_iff_found, ← FunctionalSearch.search_ends_iff (holder_finite locks manager)]
  constructor
  · rintro ⟨turns, deadLock, ends, -⟩
    exact ⟨turns + 1, deadLock, searchLockCycle_search ends⟩
  · rintro ⟨turns, deadLock, ends⟩
    refine ⟨turns, deadLock, search_searchLockCycle ends, ?_⟩
    rw [requested_iff_found]
    exact FunctionalSearch.search_exact ends

/-- A thread that asks for the lock that it was made for is told that this very
lock is dead, whoever has it. -/
theorem checkDeadLock_own (made : Made manager current newLock) (turns : Nat) :
    checkDeadLock locks manager current (turns + 1) newLock = .ok (some newLock) := by
  obtain ⟨thread, found, own⟩ := made
  rw [checkDeadLock_eq]
  simp [searchLockCycle, searchLoop, found, own]

theorem own_scope_disturbed {scopes next : Locks} (made : Made manager current newLock)
    {before named : Nat} {outer : List Scope}
    (waits : scopes.scopes current = { object := .constructing newLock, before, named } :: outer)
    {deadLock : Option LockPtr}
    (searched : checkDeadLock locks manager current (turns + 1) newLock = .ok deadLock)
    (acquired : scopes.acquire current deadLock = .ok next) :
    ∃ scope rest, next.scopes current = scope :: rest ∧ ¬ Locks.Settled next scope := by
  rw [checkDeadLock_own made, Except.ok.injEq] at searched
  subst searched
  obtain ⟨lock_, before', named', outer', locked, same, rfl, -, -, -⟩ := Locks.acquire_ok acquired
  rw [waits, List.cons.injEq, Scope.mk.injEq, LockSafeScope.constructing.injEq] at same
  obtain ⟨⟨rfl, -, -⟩, -⟩ := same
  refine ⟨_, _, Function.update_self .., ?_⟩
  intro settled
  simp [Locks.Settled, Locks.note, LockSafeScope.lock] at settled

/-- Thread 1 has taken the lock that it was made for, and asks for another one. -/
theorem searchLockCycle_endless :
    ¬ ∀ locks manager current newLock, Exact locks manager current newLock := by
  intro every
  let locks (lock : LockPtr) : Lock := { lockId_ := lock, threadId_ := 1 }
  let manager := ThreadManager.init.put 1 { lock_ := some 0 }
  have endless (turns : Nat) :
      searchLoop locks manager 1 turns { lock_ := some 0 } = .error .endlessLoop := by
    induction turns with
    | zero => rfl
    | succ turns ih =>
        rw [← ih]
        conv_lhs => rw [searchLoop]
        rfl
  obtain ⟨turns, deadLock, ends, -⟩ := every locks manager 1 1
  have never : searchLockCycle locks manager 1 turns 1 = .error .endlessLoop := endless turns
  rw [never] at ends
  cases ends

end LockManager

end GraduationServer
