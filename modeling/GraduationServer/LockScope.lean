import GraduationServer.Library.RecursiveMutex
import GraduationServer.Library.Runs
import Mathlib.Logic.Function.Basic

/-!
`LockSafeScope` in any number of threads. The constructor leaves by one of four
ways, and the destructor looks at `lock_` and at `_shutdown` only, so it cannot
know by which one, nor what `std::lock` took beside the scope's own mutex.
-/

namespace GraduationServer

abbrev ThreadId := Nat

abbrev LockPtr := Nat

/-- How a constructor has left, or where it waits for the mutex. The member is
what its memory held where the constructor leaves before it is set. -/
inductive LockSafeScope where
  | null (lock_ : Option LockPtr)
  | shutdown (lock : LockPtr) (lock_ : Option LockPtr)
  | constructing (lock : LockPtr)
  | locked (lock : LockPtr)
  deriving DecidableEq

namespace LockSafeScope

def lock_ : LockSafeScope → Option LockPtr
  | null lock_ => lock_
  | shutdown _ lock_ => lock_
  | constructing lock => some lock
  | locked lock => some lock

def lock : LockSafeScope → Option LockPtr
  | null _ => none
  | shutdown lock _ => some lock
  | constructing lock => some lock
  | locked lock => some lock

def waits : LockSafeScope → Bool
  | constructing _ => true
  | _ => false

def skips : LockSafeScope → Bool
  | shutdown _ _ => true
  | _ => false

end LockSafeScope

/-- A scope with two notes that the code does not have: what its thread held of
the mutex before, and how often `checkDeadLock` has named the lock since, for
this scope or for one that the thread constructed inside it. -/
structure Scope where
  object : LockSafeScope
  before : Nat
  named : Nat
  deriving DecidableEq

inductive LockStop where
  | notEnabled
  | blocked
  | notOwner
  deriving DecidableEq

structure Locks where
  _shutdown : Bool
  mutex : LockPtr → RecursiveMutex ThreadId
  scopes : ThreadId → List Scope

namespace Locks

def start (mutex : LockPtr → RecursiveMutex ThreadId) : Locks :=
  { _shutdown := false, mutex, scopes := fun _ => [] }

def holdCount (locks : Locks) (thread : ThreadId) (lock : LockPtr) : Nat :=
  (locks.mutex lock).holdCount thread

def setScopes (locks : Locks) (thread : ThreadId) (scopes : List Scope) : Locks :=
  { locks with scopes := Function.update locks.scopes thread scopes }

def lock (locks : Locks) (thread : ThreadId) (lock : LockPtr) : Except LockStop Locks :=
  match (locks.mutex lock).lock thread with
  | none => .error .blocked
  | some mutex => .ok { locks with mutex := Function.update locks.mutex lock mutex }

def unlock (locks : Locks) (thread : ThreadId) (lock : LockPtr) : Except LockStop Locks :=
  match (locks.mutex lock).unlock thread with
  | none => .error .notOwner
  | some mutex => .ok { locks with mutex := Function.update locks.mutex lock mutex }

def check (locks : Locks) (lock unset : Option LockPtr) : LockSafeScope :=
  match lock with
  | none => .null unset
  | some lock => if locks._shutdown then .shutdown lock unset else .constructing lock

def note (deadLock : Option LockPtr) (scope : Scope) : Scope :=
  match deadLock with
  | none => scope
  | some deadLock =>
      if scope.object.lock = some deadLock then { scope with named := scope.named + 1 } else scope

def acquire (locks : Locks) (thread : ThreadId) (deadLock : Option LockPtr) :
    Except LockStop Locks :=
  match locks.scopes thread with
  | { object := .constructing lock_, before, named } :: outer => do
      let locks ← locks.lock thread lock_
      let locks ←
        match deadLock with
        | none => .ok locks
        | some deadLock => locks.lock thread deadLock
      return locks.setScopes thread
        (({ object := .locked lock_, before, named } :: outer).map (note deadLock))
  | _ => .error .notEnabled

def release (locks : Locks) (thread : ThreadId) (scope : LockSafeScope) : Except LockStop Locks :=
  match scope.lock_ with
  | none => .ok locks
  | some lock_ => if locks._shutdown then .ok locks else locks.unlock thread lock_

def busy : List Scope → Bool
  | [] => false
  | scope :: _ => scope.object.waits

inductive Event where
  | shutdown
  | construct (thread : ThreadId) (lock unset : Option LockPtr)
  | acquire (thread : ThreadId) (deadLock : Option LockPtr)
  | destroy (thread : ThreadId)

def heldBefore (locks : Locks) (thread : ThreadId) : Option LockPtr → Nat
  | none => 0
  | some lock => locks.holdCount thread lock

def step (locks : Locks) : Event → Except LockStop Locks
  | .shutdown => .ok { locks with _shutdown := true }
  | .construct thread lock unset =>
      if busy (locks.scopes thread) then .error .notEnabled
      else
        .ok (locks.setScopes thread ({
          object := locks.check lock unset
          before := locks.heldBefore thread lock
          named := 0 } :: locks.scopes thread))
  | .acquire thread deadLock => locks.acquire thread deadLock
  | .destroy thread =>
      match locks.scopes thread with
      | [] => .error .notEnabled
      | scope :: outer =>
          if scope.object.waits then .error .notEnabled
          else (locks.setScopes thread outer).release thread scope.object

/-- A scope that is destroyed gives back what it has taken. One of no lock has
no mutex to give back. -/
def Balances (locks : Locks) : Event → Prop
  | .destroy thread =>
      match locks.scopes thread with
      | [] => True
      | scope :: _ => scope.object.waits = true ∨ ∃ next,
          locks.step (.destroy thread) = .ok next ∧
          match scope.object.lock with
          | none => next.mutex = locks.mutex
          | some lock => next.holdCount thread lock = scope.before
  | _ => True

/-- The scope was constructed under shutdown, or shutdown has not come and
`checkDeadLock` has not named its lock. -/
def Settled (locks : Locks) (scope : Scope) : Prop :=
  match scope.object with
  | .null lock_ => lock_ = none ∨ locks._shutdown = true
  | .shutdown _ _ => True
  | .constructing _ => True
  | .locked _ => locks._shutdown = false ∧ scope.named = 0

def Undisturbed (locks : Locks) : Event → Prop
  | .destroy thread =>
      match locks.scopes thread with
      | [] => True
      | scope :: _ => Settled locks scope
  | _ => True

/-! What a thread holds of a mutex is what it held before a scope on it, with what
`checkDeadLock` has named and what the scope and those inside it have taken. -/

def own (scope : Scope) (lock : LockPtr) : Nat :=
  if scope.object = .locked lock then 1 else 0

def Counted : (LockPtr → Nat) → List Scope → Prop
  | _, [] => True
  | held, scope :: outer => ∃ without : LockPtr → Nat,
      (∀ lock, held lock = without lock + own scope lock) ∧
      (∀ lock, scope.object.lock = some lock → without lock = scope.before + scope.named) ∧
      Counted without outer

def Placed : List Scope → Prop
  | [] => True
  | scope :: outer =>
      (∀ other ∈ outer, other.object.waits = false) ∧
      (scope.object.waits = true → ∀ other ∈ outer, other.object.skips = false)

structure Sound (shutdown : Bool) (held : LockPtr → Nat) (scopes : List Scope) : Prop where
  counted : Counted held scopes
  skipped : ∀ scope ∈ scopes, scope.object.skips = true → shutdown = true ∧ scope.named = 0
  placed : Placed scopes

def Invariant (locks : Locks) : Prop :=
  ∀ thread, Sound locks._shutdown (locks.holdCount thread) (locks.scopes thread)

theorem start_invariant (mutex : LockPtr → RecursiveMutex ThreadId) : Invariant (start mutex) := by
  intro thread
  constructor
  · trivial
  · intro scope member
    exact absurd member List.not_mem_nil
  · trivial

theorem invariant_of_stack (locks : Locks) {next : Locks} {thread : ThreadId} {scopes : List Scope}
    (shutdown : next._shutdown = locks._shutdown)
    (stacked : next.scopes = Function.update locks.scopes thread scopes)
    (own : Sound locks._shutdown (next.holdCount thread) scopes)
    (others : ∀ other, other ≠ thread →
      Sound locks._shutdown (next.holdCount other) (locks.scopes other)) : Invariant next := by
  intro other
  rw [shutdown, stacked]
  by_cases same : other = thread
  · subst same
    rw [Function.update_self]
    exact own
  · rw [Function.update_of_ne same]
    exact others other same

theorem lock_ok {locks next : Locks} {thread : ThreadId} {lock : LockPtr}
    (taken : locks.lock thread lock = .ok next) :
    next._shutdown = locks._shutdown ∧ next.scopes = locks.scopes ∧
    ∀ other pointer, next.holdCount other pointer =
      locks.holdCount other pointer + if other = thread ∧ pointer = lock then 1 else 0 := by
  rw [Locks.lock] at taken
  cases locked : (locks.mutex lock).lock thread with
  | none => simp [locked] at taken
  | some mutex =>
      simp only [locked, Except.ok.injEq] at taken
      subst taken
      refine ⟨rfl, rfl, ?_⟩
      intro other pointer
      by_cases same : pointer = lock
      · subst same
        simp only [holdCount, Function.update_self, and_true]
        exact RecursiveMutex.lock_holdCount locked other
      · simp [holdCount, same]

theorem unlock_ok {locks next : Locks} {thread : ThreadId} {lock : LockPtr}
    (taken : locks.unlock thread lock = .ok next) :
    next._shutdown = locks._shutdown ∧ next.scopes = locks.scopes ∧
    ∀ other pointer, locks.holdCount other pointer =
      next.holdCount other pointer + if other = thread ∧ pointer = lock then 1 else 0 := by
  rw [Locks.unlock] at taken
  cases unlocked : (locks.mutex lock).unlock thread with
  | none => simp [unlocked] at taken
  | some mutex =>
      simp only [unlocked, Except.ok.injEq] at taken
      subst taken
      refine ⟨rfl, rfl, ?_⟩
      intro other pointer
      by_cases same : pointer = lock
      · subst same
        simp only [holdCount, Function.update_self, and_true]
        exact RecursiveMutex.unlock_holdCount unlocked other
      · simp [holdCount, same]

theorem unlock_of_held {locks : Locks} {thread : ThreadId} {lock : LockPtr}
    (held : 0 < locks.holdCount thread lock) : ∃ next, locks.unlock thread lock = .ok next := by
  obtain ⟨mutex, unlocked⟩ := RecursiveMutex.unlock_of_held held
  exact ⟨_, by rw [Locks.unlock, unlocked]⟩

@[simp] theorem note_object (deadLock : Option LockPtr) (scope : Scope) :
    (note deadLock scope).object = scope.object := by
  cases deadLock with
  | none => rfl
  | some named =>
      simp only [note]
      split <;> rfl

theorem counted_note {held : LockPtr → Nat} {scopes : List Scope} (counted : Counted held scopes)
    (deadLock : Option LockPtr) :
    Counted (fun lock => held lock + if deadLock = some lock then 1 else 0)
      (scopes.map (note deadLock)) := by
  induction scopes generalizing held with
  | nil => trivial
  | cons scope outer ih =>
      obtain ⟨without, sum, alone, rest⟩ := counted
      refine ⟨fun lock => without lock + if deadLock = some lock then 1 else 0, ?_, ?_, ih rest⟩
      · intro lock
        have same : own (note deadLock scope) lock = own scope lock := by
          simp only [own, note_object]
        have before := sum lock
        simp only [same]
        omega
      · intro lock given
        rw [note_object] at given
        have before := alone lock given
        cases deadLock with
        | none => simpa [note] using before
        | some named =>
            by_cases same : lock = named
            · subst same
              simp only [note, given, if_true, before]
              omega
            · simp [note, given, same, Ne.symm same, before]

theorem Sound.push {shutdown : Bool} {held : LockPtr → Nat} {scopes : List Scope}
    (sound : Sound shutdown held scopes) (ready : busy scopes = false) {scope : Scope}
    (nothing : ∀ lock, own scope lock = 0)
    (before : ∀ lock, scope.object.lock = some lock → scope.before = held lock)
    (fresh : scope.named = 0) (skips : scope.object.skips = true → shutdown = true)
    (waits : scope.object.waits = true → shutdown = false) :
    Sound shutdown held (scope :: scopes) := by
  constructor
  · refine ⟨held, ?_, ?_, sound.counted⟩
    · intro lock
      rw [nothing lock, Nat.add_zero]
    · intro lock given
      rw [before lock given, fresh, Nat.add_zero]
  · intro other member skipped
    rcases List.mem_cons.mp member with rfl | member
    · exact ⟨skips skipped, fresh⟩
    · exact sound.skipped other member skipped
  · constructor
    · intro other member
      cases scopes with
      | nil => exact absurd member List.not_mem_nil
      | cons first rest =>
          rcases List.mem_cons.mp member with rfl | member
          · exact ready
          · exact sound.placed.1 other member
    · intro waiting other member
      by_contra skipped
      rw [Bool.not_eq_false] at skipped
      have down := (sound.skipped other member skipped).1
      rw [waits waiting] at down
      cases down

theorem Sound.locked {shutdown : Bool} {held : LockPtr → Nat} {lock_ : LockPtr}
    {before named : Nat} {outer : List Scope}
    (sound : Sound shutdown held ({ object := .constructing lock_, before, named } :: outer)) :
    Sound shutdown (fun lock => held lock + if lock = lock_ then 1 else 0)
      ({ object := .locked lock_, before, named } :: outer) := by
  obtain ⟨without, sum, alone, rest⟩ := sound.counted
  constructor
  · refine ⟨without, ?_, alone, rest⟩
    intro lock
    have same := sum lock
    simp only [own, reduceCtorEq, if_false, Nat.add_zero] at same
    by_cases taken : lock = lock_
    · simp [own, taken, sum]
    · simp [own, taken, Ne.symm taken, same]
  · intro other member skipped
    rcases List.mem_cons.mp member with rfl | member
    · cases skipped
    · exact sound.skipped other (List.mem_cons_of_mem _ member) skipped
  · refine ⟨sound.placed.1, ?_⟩
    intro waiting
    cases waiting

theorem Sound.noted {shutdown : Bool} {held : LockPtr → Nat} {scopes : List Scope}
    (sound : Sound shutdown held scopes) (none_skips : ∀ scope ∈ scopes, scope.object.skips = false)
    (deadLock : Option LockPtr) :
    Sound shutdown (fun lock => held lock + if deadLock = some lock then 1 else 0)
      (scopes.map (note deadLock)) := by
  constructor
  · exact counted_note sound.counted deadLock
  · intro scope member skipped
    obtain ⟨other, inside, rfl⟩ := List.mem_map.mp member
    rw [note_object, none_skips other inside] at skipped
    cases skipped
  · cases scopes with
    | nil => trivial
    | cons scope outer =>
        constructor
        · intro other member
          obtain ⟨unnoted, inside, rfl⟩ := List.mem_map.mp member
          rw [note_object]
          exact sound.placed.1 unnoted inside
        · intro waiting other member
          obtain ⟨unnoted, inside, rfl⟩ := List.mem_map.mp member
          rw [note_object]
          exact none_skips unnoted (List.mem_cons_of_mem _ inside)

theorem Sound.pop {shutdown : Bool} {held without : LockPtr → Nat} {scope : Scope}
    {outer : List Scope} (sound : Sound shutdown held (scope :: outer))
    (sum : ∀ lock, held lock = without lock + own scope lock) : Sound shutdown without outer := by
  constructor
  · obtain ⟨left, same, _, rest⟩ := sound.counted
    have equal : without = left := by
      funext lock
      have first := sum lock
      have second := same lock
      omega
    exact equal ▸ rest
  · exact fun other member => sound.skipped other (List.mem_cons_of_mem _ member)
  · cases outer with
    | nil => trivial
    | cons next rest =>
        have ready := sound.placed.1 next List.mem_cons_self
        refine ⟨fun other member => sound.placed.1 other (List.mem_cons_of_mem _ member), ?_⟩
        intro waiting
        rw [ready] at waiting
        cases waiting

theorem step_construct {locks next : Locks} {thread : ThreadId} {lock unset : Option LockPtr}
    (invariant : Invariant locks)
    (taken : locks.step (.construct thread lock unset) = .ok next) : Invariant next := by
  rw [step] at taken
  split at taken
  · cases taken
  · rename_i ready
    rw [Except.ok.injEq] at taken
    subst taken
    refine invariant_of_stack locks ?_ rfl ?_ fun other _ => invariant other
    · rfl
    apply (invariant thread).push (by simpa using ready)
    · intro pointer
      cases lock with
      | none => rfl
      | some given =>
          simp only [own, check]
          split <;> rfl
    · intro pointer same
      cases lock with
      | none => cases same
      | some given =>
          have equal : given = pointer := by
            simp only [check] at same
            split at same <;> exact Option.some.inj same
          rw [equal]
          rfl
    · rfl
    · intro skips
      cases lock with
      | none => cases skips
      | some given =>
          simp only [check] at skips
          split at skips
          · assumption
          · cases skips
    · intro waits
      cases lock with
      | none => cases waits
      | some given =>
          simp only [check] at waits
          split at waits
          · cases waits
          · rename_i running
            simpa using running

theorem acquire_ok {locks next : Locks} {thread : ThreadId} {deadLock : Option LockPtr}
    (taken : locks.acquire thread deadLock = .ok next) :
    ∃ (lock_ : LockPtr) (before named : Nat) (outer : List Scope) (locked : Locks),
      locks.scopes thread = { object := .constructing lock_, before, named } :: outer ∧
      next = locked.setScopes thread
        (({ object := .locked lock_, before, named } :: outer).map (note deadLock)) ∧
      locked._shutdown = locks._shutdown ∧ locked.scopes = locks.scopes ∧
      ∀ other pointer, locked.holdCount other pointer =
        locks.holdCount other pointer + (if other = thread ∧ pointer = lock_ then 1 else 0) +
          if other = thread ∧ deadLock = some pointer then 1 else 0 := by
  rw [acquire] at taken
  split at taken
  · rename_i lock_ before named outer stack
    cases first : locks.lock thread lock_ with
    | error reason => simp [first, bind, Except.bind] at taken
    | ok middle =>
        obtain ⟨shutdown, scopes, counts⟩ := lock_ok first
        cases deadLock with
        | none =>
            simp only [first, bind, Except.bind, pure, Except.pure, Except.ok.injEq] at taken
            exact ⟨lock_, before, named, outer, middle, stack, taken.symm, shutdown, scopes,
              fun other pointer => by simp [counts]⟩
        | some named_lock =>
            simp only [first, bind, Except.bind] at taken
            cases second : middle.lock thread named_lock with
            | error reason => simp [second] at taken
            | ok locked =>
                obtain ⟨down, same, more⟩ := lock_ok second
                simp only [second, pure, Except.pure, Except.ok.injEq] at taken
                refine ⟨lock_, before, named, outer, locked, stack, taken.symm,
                  down.trans shutdown, same.trans scopes, ?_⟩
                intro other pointer
                rw [more, counts]
                by_cases same : pointer = named_lock
                · simp [same]
                · simp [same, Ne.symm same]
  · cases taken

theorem step_acquire {locks next : Locks} {thread : ThreadId} {deadLock : Option LockPtr}
    (invariant : Invariant locks)
    (taken : locks.step (.acquire thread deadLock) = .ok next) : Invariant next := by
  obtain ⟨lock_, before, named, outer, locked, stack, rfl, shutdown, scopes, counts⟩ :=
    acquire_ok taken
  have sound := invariant thread
  rw [stack] at sound
  apply invariant_of_stack locks
  · exact shutdown
  · rw [setScopes, scopes]
  · have around := sound.placed.2 rfl
    have complete := sound.locked.noted (by
      intro scope member
      rcases List.mem_cons.mp member with rfl | member
      · rfl
      · exact around scope member) deadLock
    have held : locked.holdCount thread = fun lock =>
        locks.holdCount thread lock + (if lock = lock_ then 1 else 0) +
          if deadLock = some lock then 1 else 0 := by
      funext pointer
      simp only [counts, true_and]
    change Sound locks._shutdown (locked.holdCount thread) _
    rw [held]
    exact complete
  · intro other apart
    have held : locked.holdCount other = locks.holdCount other := by
      funext pointer
      simp [counts, apart]
    change Sound locks._shutdown (locked.holdCount other) _
    rw [held]
    exact invariant other

theorem release_ok {locks next : Locks} {thread : ThreadId} {scope : LockSafeScope}
    (taken : locks.release thread scope = .ok next) :
    (scope.lock_ = none ∨ locks._shutdown = true) ∧ next = locks ∨
    ∃ lock_, scope.lock_ = some lock_ ∧ locks._shutdown = false ∧
      locks.unlock thread lock_ = .ok next := by
  rw [release] at taken
  split at taken
  · rename_i empty
    cases taken
    exact Or.inl ⟨Or.inl empty, rfl⟩
  · rename_i lock_ pointer
    by_cases down : locks._shutdown = true
    · rw [if_pos down] at taken
      cases taken
      exact Or.inl ⟨Or.inr down, rfl⟩
    · rw [if_neg down] at taken
      exact Or.inr ⟨lock_, pointer, by simpa using down, taken⟩

theorem released_locked {locks : Locks} {scope : Scope} {lock_ : LockPtr}
    (pointer : scope.object.lock_ = some lock_) (running : locks._shutdown = false)
    (undisturbed : Settled locks scope)
    (skipped : scope.object.skips = true → locks._shutdown = true ∧ scope.named = 0)
    (ready : scope.object.waits = false) : scope.object = .locked lock_ := by
  rw [Settled] at undisturbed
  cases kind : scope.object with
  | null left =>
      rw [kind] at pointer undisturbed
      rcases undisturbed with empty | down
      · rw [LockSafeScope.lock_, empty] at pointer
        cases pointer
      · rw [running] at down
        cases down
  | shutdown lock left =>
      rw [kind] at skipped
      have down := (skipped rfl).1
      rw [running] at down
      cases down
  | constructing lock =>
      rw [kind] at ready
      cases ready
  | locked lock =>
      rw [kind] at pointer
      rw [Option.some.inj pointer]

theorem step_destroy {locks next : Locks} {thread : ThreadId} (invariant : Invariant locks)
    (undisturbed : locks.Undisturbed (.destroy thread))
    (taken : locks.step (.destroy thread) = .ok next) : Invariant next := by
  rw [step] at taken
  rw [Undisturbed] at undisturbed
  have sound := invariant thread
  cases stack : locks.scopes thread with
  | nil => simp [stack] at taken
  | cons scope outer =>
      simp only [stack] at taken undisturbed
      rw [stack] at sound
      split at taken
      · cases taken
      · rename_i ready
        rcases release_ok taken with ⟨kept, rfl⟩ | ⟨lock_, pointer, running, unlocked⟩
        · refine invariant_of_stack locks ?_ rfl ?_ fun other _ => invariant other
          · rfl
          apply sound.pop
          intro lock
          have released : scope.object ≠ .locked lock := by
            intro held
            rw [Settled, held] at undisturbed
            rw [held] at kept
            rcases kept with empty | down
            · cases empty
            · have running := undisturbed.1
              rw [show locks._shutdown = true from down] at running
              cases running
          rw [own, if_neg released]
          rfl
        · obtain ⟨shutdown, scopes, counts⟩ := unlock_ok unlocked
          have held : scope.object = .locked lock_ := by
            have skipped := sound.skipped scope List.mem_cons_self
            exact released_locked pointer running undisturbed skipped (by simpa using ready)
          apply invariant_of_stack locks
          · exact shutdown
          · exact scopes
          · apply sound.pop
            intro lock
            have given := counts thread lock
            simp only [true_and] at given
            have taken_back : own scope lock = if lock = lock_ then 1 else 0 := by
              simp only [own, held, LockSafeScope.locked.injEq, eq_comm]
            rw [taken_back]
            exact given
          · intro other apart
            have kept : next.holdCount other = locks.holdCount other := by
              funext lock
              have given := counts other lock
              simp only [apart, false_and, if_false, Nat.add_zero] at given
              exact given.symm
            rw [kept]
            exact invariant other

theorem step_invariant {locks next : Locks} {event : Event} (invariant : Invariant locks)
    (undisturbed : locks.Undisturbed event) (taken : locks.step event = .ok next) :
    Invariant next := by
  cases event with
  | shutdown =>
      cases taken
      intro thread
      have sound := invariant thread
      refine ⟨sound.counted, ?_, sound.placed⟩
      intro scope member skips
      exact ⟨rfl, (sound.skipped scope member skips).2⟩
  | construct thread lock unset => exact step_construct invariant taken
  | acquire thread deadLock => exact step_acquire invariant taken
  | destroy thread => exact step_destroy invariant undisturbed taken

theorem step_destroy_eq {locks : Locks} {thread : ThreadId} {scope : Scope} {outer : List Scope}
    (stack : locks.scopes thread = scope :: outer) (ready : scope.object.waits = false) :
    locks.step (.destroy thread) = (locks.setScopes thread outer).release thread scope.object := by
  simp [step, stack, ready]

theorem release_null_iff {locks : Locks} {thread : ThreadId} {left : Option LockPtr} :
    (∃ next, locks.release thread (.null left) = .ok next ∧ next.mutex = locks.mutex) ↔
      left = none ∨ locks._shutdown = true := by
  constructor
  · rintro ⟨next, taken, same⟩
    rcases release_ok taken with ⟨kept, rfl⟩ | ⟨lock_, pointer, running, unlocked⟩
    · exact kept
    · obtain ⟨_, _, counts⟩ := unlock_ok unlocked
      have less := counts thread lock_
      simp [holdCount, same] at less
  · rintro (rfl | down)
    · exact ⟨locks, rfl, rfl⟩
    · refine ⟨locks, ?_, rfl⟩
      cases left with
      | none => rfl
      | some lock_ => exact if_pos down

theorem release_locked_iff {locks : Locks} {thread : ThreadId} {lock : LockPtr}
    {before named : Nat} (held : locks.holdCount thread lock = before + named + 1) :
    (∃ next, locks.release thread (.locked lock) = .ok next ∧
      next.holdCount thread lock = before) ↔ locks._shutdown = false ∧ named = 0 := by
  constructor
  · rintro ⟨next, taken, balanced⟩
    rcases release_ok taken with ⟨kept, rfl⟩ | ⟨lock_, pointer, running, unlocked⟩
    · omega
    · obtain rfl : lock = lock_ := Option.some.inj pointer
      obtain ⟨_, _, counts⟩ := unlock_ok unlocked
      have less := counts thread lock
      simp only [and_self, if_true] at less
      exact ⟨running, by omega⟩
  · rintro ⟨running, none_named⟩
    obtain ⟨next, unlocked⟩ := unlock_of_held (by omega : 0 < locks.holdCount thread lock)
    obtain ⟨_, _, counts⟩ := unlock_ok unlocked
    have less := counts thread lock
    simp only [and_self, if_true] at less
    refine ⟨next, ?_, by omega⟩
    rw [← unlocked]
    exact if_neg (by simp [running])

theorem balances_iff_undisturbed {locks : Locks} (invariant : Invariant locks) (event : Event) :
    locks.Balances event ↔ locks.Undisturbed event := by
  cases event with
  | shutdown => exact Iff.rfl
  | construct thread lock unset => exact Iff.rfl
  | acquire thread deadLock => exact Iff.rfl
  | destroy thread =>
      have sound := invariant thread
      rw [Balances, Undisturbed]
      cases stack : locks.scopes thread with
      | nil => exact Iff.rfl
      | cons scope outer =>
          rw [stack] at sound
          obtain ⟨without, sum, alone, _⟩ := sound.counted
          have skipped := sound.skipped scope List.mem_cons_self
          obtain ⟨object, before, named⟩ := scope
          cases object with
          | null left =>
              have released := @release_null_iff (locks.setScopes thread outer) thread left
              rw [step_destroy_eq stack rfl]
              exact ⟨fun balanced => released.mp (balanced.resolve_left Bool.false_ne_true),
                fun settled => Or.inr (released.mpr settled)⟩
          | shutdown lock left =>
              obtain ⟨down, none_named⟩ := skipped rfl
              have held : locks.holdCount thread lock = before := by
                have given := sum lock
                rw [alone lock rfl, none_named] at given
                simpa [own] using given
              rw [step_destroy_eq stack rfl]
              refine ⟨fun _ => trivial, fun _ => Or.inr ⟨locks.setScopes thread outer, ?_, held⟩⟩
              cases left with
              | none => rfl
              | some lock_ => exact if_pos down
          | constructing lock => exact ⟨fun _ => trivial, fun _ => Or.inl rfl⟩
          | locked lock =>
              have held : locks.holdCount thread lock = before + named + 1 := by
                have given := sum lock
                rw [alone lock rfl] at given
                simpa [own] using given
              have released := @release_locked_iff (locks.setScopes thread outer) thread lock
                before named held
              rw [step_destroy_eq stack rfl]
              exact ⟨fun balanced => released.mp (balanced.resolve_left Bool.false_ne_true),
                fun settled => Or.inr (released.mpr settled)⟩

/-- The scopes of a run are balanced exactly when each one that is destroyed was
constructed under shutdown, or else shutdown has not come and `checkDeadLock` has
not named its lock. -/
theorem balances_iff (mutex : LockPtr → RecursiveMutex ThreadId) (events : List Event) :
    Runs.Offered step Balances (start mutex) events ↔
      Runs.Offered step Undisturbed (start mutex) events := by
  apply Runs.Offered.congr _ _ (start_invariant mutex)
  · intro locks event next invariant balances taken
    exact step_invariant invariant ((balances_iff_undisturbed invariant event).mp balances) taken
  · intro locks event invariant
    exact balances_iff_undisturbed invariant event

/-- Shutdown between a constructor and its destructor: the mutex stays locked. -/
theorem balances_shutdown : ¬ ∀ (mutex : LockPtr → RecursiveMutex ThreadId) (events : List Event),
    Runs.Offered step Balances (start mutex) events := by
  intro every
  let before : List Event := [.construct 0 (some 8) none, .acquire 0 none, .shutdown]
  let view (locks : Locks) : Bool × List Scope × Nat :=
    (locks._shutdown, locks.scopes 0, locks.holdCount 0 8)
  have computed : (Runs.run step (start fun _ => .free) before).toOption.map view =
      some (true, [{ object := .locked 8, before := 0, named := 0 }], 1) := by decide
  obtain ⟨finish, reached, seen⟩ := Runs.run_view computed
  simp only [view, Prod.mk.injEq] at seen
  obtain ⟨down, stack, held⟩ := seen
  have balanced := (every (fun _ => .free) (before ++ [.destroy 0])).last reached
  rw [Balances, stack, step_destroy_eq stack rfl] at balanced
  have running : finish._shutdown = false :=
    ((@release_locked_iff (finish.setScopes 0 []) 0 8 0 0 held).mp
      (balanced.resolve_left Bool.false_ne_true)).1
  rw [down] at running
  cases running

end Locks

end GraduationServer
