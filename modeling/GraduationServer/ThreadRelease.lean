import GraduationServer.ThreadLifetime

/-!
What the `ThreadManager` knows of the threads that live, and what its `release`
leaves. A thread is taken out of `threadPool_` after it has been joined, when
its id may already be in use again.
-/

namespace GraduationServer

def ThreadObject.listed (thread : ThreadObject) : Prop :=
  thread.lifetime = .living ∨ thread.lifetime = .joined

namespace ThreadHeap

def Registered (heap : ThreadHeap) : Prop :=
  ∀ id_ number, heap.threadPool_ id_ = some number ↔
    ∃ thread ∈ heap.threads, thread.listed ∧ thread.id_ = id_ ∧
      thread.number = number

structure Numbered (heap : ThreadHeap) : Prop where
  distinct : (heap.threads.map ThreadObject.number).Nodup
  below : ∀ thread ∈ heap.threads, thread.number < heap.created

/-- No thread begins with the id of one that is joined and still listed. -/
def NewId (heap : ThreadHeap) : Event → Prop
  | .newThread id_ _ => ∀ thread ∈ heap.threads, thread.lifetime = .joined → thread.id_ ≠ id_
  | _ => True

theorem initial_numbered : initial.Numbered := ⟨List.nodup_nil, by simp [initial]⟩

theorem initial_registered : initial.Registered := by
  intro id_ number
  simp [initial, StdMap.empty]

theorem setLock_same {heap next : ThreadHeap} {lock_ : Option LockPtr}
    (set : heap.setLock lock_ = .ok next) :
    ∃ locks given, next = { heap with locks, given } := by
  cases lock_ with
  | none =>
      cases set
      exact ⟨heap.locks, heap.given, rfl⟩
  | some lock =>
      simp only [setLock] at set
      split at set
      · cases set
      · cases set
        exact ⟨_, _, rfl⟩

theorem newThread_cases {heap next : ThreadHeap} {id_ : ThreadId} {lock_ : Option LockPtr}
    (taken : heap.newThread id_ lock_ = .ok next) :
    (∀ thread ∈ heap.threads, thread.lifetime = .living → thread.id_ ≠ id_) ∧
      ∃ locks given, next = put { heap with locks, given } id_ lock_ := by
  rw [newThread] at taken
  split at taken
  · cases taken
  · rename_i unused
    obtain ⟨after, set, taken⟩ := Exec.bind_ok taken
    cases taken
    obtain ⟨locks, given, rfl⟩ := setLock_same set
    exact ⟨fun thread member living same => unused ⟨thread, member, living, same⟩, locks, given, rfl⟩

inductive Advanced (heap : ThreadHeap) (thread : ThreadObject) (others : List ThreadObject) :
    ThreadHeap → Prop
  | joins : thread.lifetime = .living → Advanced heap thread others
      { heap with threads := { thread with lifetime := .joined } :: others }
  | removes : thread.lifetime = .joined → Advanced heap thread others
      { heap with
        threads := { thread with lifetime := .removed } :: others
        threadPool_ := StdMap.erase heap.threadPool_ thread.id_ }
  | decides {lifetime : Lifetime} : thread.lifetime = .removed →
      lifetime = .decreasing ∨ lifetime = .deleting → Advanced heap thread others
      { heap with threads := { thread with lifetime } :: others }
  | leaves {locks : StdMap.Map LockPtr Nat} : ¬ thread.listed →
      Advanced heap thread others { heap with threads := others, locks }

theorem advance_cases {heap next : ThreadHeap} {thread : ThreadObject} {others : List ThreadObject}
    (done : heap.advance thread others = .ok next) : Advanced heap thread others next := by
  cases phase : thread.lifetime with
  | living =>
      simp only [advance, phase, Except.ok.injEq] at done
      exact done ▸ .joins phase
  | joined =>
      simp only [advance, phase, Except.ok.injEq] at done
      exact done ▸ .removes phase
  | removed =>
      have unlisted : ¬ thread.listed := by simp [ThreadObject.listed, phase]
      simp only [advance, phase] at done
      split at done
      · cases done
        exact .leaves unlisted
      · split at done
        · cases done
        · cases done
          refine .decides phase ?_
          split
          · exact Or.inl rfl
          · exact Or.inr rfl
  | decreasing =>
      have unlisted : ¬ thread.listed := by simp [ThreadObject.listed, phase]
      simp only [advance, phase] at done
      split at done
      · cases done
      · split at done
        · cases done
        · cases done
          exact .leaves unlisted
  | deleting =>
      have unlisted : ¬ thread.listed := by simp [ThreadObject.listed, phase]
      simp only [advance, phase] at done
      split at done
      · cases done
      · split at done
        · cases done
        · cases done
          exact .leaves unlisted

section

variable {heap next : ThreadHeap} {thread : ThreadObject} {others : List ThreadObject}
variable {index : Nat}

theorem Numbered.taken (numbered : heap.Numbered)
    (taken : InFlight.take heap.threads index = some (thread, others)) :
    Numbered { heap with threads := thread :: others } := by
  have same := InFlight.take_perm taken
  exact ⟨(same.map _).nodup_iff.mp numbered.distinct,
    fun other member => numbered.below other (same.mem_iff.mpr member)⟩

theorem Registered.taken (registered : heap.Registered)
    (taken : InFlight.take heap.threads index = some (thread, others)) :
    Registered { heap with threads := thread :: others } := by
  intro id_ number
  simp only [registered id_ number, (InFlight.take_perm taken).mem_iff]

theorem advanced_numbered (numbered : Numbered { heap with threads := thread :: others })
    (advanced : Advanced heap thread others next) : next.Numbered := by
  obtain ⟨distinct, below⟩ := numbered
  have others_distinct : (others.map ThreadObject.number).Nodup := (List.nodup_cons.mp distinct).2
  have others_below : ∀ other ∈ others, other.number < heap.created :=
    fun other member => below other (List.mem_cons_of_mem _ member)
  have own : thread.number < heap.created := below thread List.mem_cons_self
  cases advanced with
  | leaves => exact ⟨others_distinct, others_below⟩
  | joins => exact ⟨distinct, List.forall_mem_cons.mpr ⟨own, others_below⟩⟩
  | removes => exact ⟨distinct, List.forall_mem_cons.mpr ⟨own, others_below⟩⟩
  | decides => exact ⟨distinct, List.forall_mem_cons.mpr ⟨own, others_below⟩⟩

theorem advanced_registered (numbered : Numbered { heap with threads := thread :: others })
    (registered : Registered { heap with threads := thread :: others })
    (advanced : Advanced heap thread others next) : next.Registered := by
  have found (id_ : ThreadId) (number : Nat) : heap.threadPool_ id_ = some number ↔
      (thread.listed ∧ thread.id_ = id_ ∧ thread.number = number) ∨
        ∃ other ∈ others, other.listed ∧ other.id_ = id_ ∧ other.number = number := by
    simpa using registered id_ number
  cases advanced with
  | joins living =>
      intro id_ number
      simp [found, ThreadObject.listed, living]
  | decides removed outcome =>
      intro id_ number
      rcases outcome with rfl | rfl <;> simp [found, ThreadObject.listed, removed]
  | leaves unlisted =>
      intro id_ number
      simp [found, unlisted]
  | removes joined =>
      intro id_ number
      have listed : thread.listed := Or.inr joined
      by_cases same : id_ = thread.id_
      · subst same
        simp only [StdMap.erase_same, reduceCtorEq, false_iff]
        rintro ⟨other, member, shown, own, -⟩
        -- a second thread under the id would have the same number
        rcases List.mem_cons.mp member with rfl | later
        · simp [ThreadObject.listed] at shown
        · have first := (found thread.id_ thread.number).mpr (Or.inl ⟨listed, rfl, rfl⟩)
          have second := (found thread.id_ other.number).mpr
            (Or.inr ⟨other, later, shown, own, rfl⟩)
          have number_same : thread.number = other.number :=
            Option.some.inj (first.symm.trans second)
          exact (List.nodup_cons.mp numbered.distinct).1
            (number_same ▸ List.mem_map_of_mem later)
      · simp [StdMap.erase_other same, found, ThreadObject.listed, Ne.symm same]

theorem put_numbered {id_ : ThreadId} {lock_ : Option LockPtr} {locks : StdMap.Map LockPtr Nat}
    {given : List LockPtr} (numbered : heap.Numbered) :
    (put { heap with locks, given } id_ lock_).Numbered := by
  constructor
  · refine List.nodup_cons.mpr ⟨?_, numbered.distinct⟩
    intro old
    obtain ⟨thread, member, same⟩ := List.mem_map.mp old
    have less := numbered.below thread member
    simp only at same
    omega
  · refine List.forall_mem_cons.mpr ⟨Nat.lt_succ_self _, ?_⟩
    intro thread member
    exact Nat.lt_succ_of_lt (numbered.below thread member)

theorem put_registered {id_ : ThreadId} {lock_ : Option LockPtr}
    {locks : StdMap.Map LockPtr Nat} {given : List LockPtr} (numbered : heap.Numbered)
    (registered : heap.Registered)
    (unused : ∀ thread ∈ heap.threads, thread.lifetime = .living → thread.id_ ≠ id_) :
    (put { heap with locks, given } id_ lock_).Registered ↔
      heap.NewId (.newThread id_ lock_) := by
  constructor
  · intro after thread member joined same
    have new := (after id_ heap.created).mpr
      ⟨_, List.mem_cons_self, Or.inl rfl, rfl, rfl⟩
    have old := (registered id_ thread.number).mpr ⟨thread, member, Or.inr joined, same, rfl⟩
    have kept : heap.created = thread.number :=
      Option.some.inj (new.symm.trans (StdMap.insert_present id_ heap.created old))
    have less := numbered.below thread member
    omega
  · intro fresh other number
    have nobody : heap.threadPool_ id_ = none := by
      rw [Option.eq_none_iff_forall_ne_some]
      intro number found
      obtain ⟨thread, member, listed, same, -⟩ := (registered id_ number).mp found
      rcases listed with living | joined
      · exact unused thread member living same
      · exact fresh thread member joined same
    by_cases here : other = id_
    · subst here
      have old (thread : ThreadObject) (member : thread ∈ heap.threads)
          (listed : thread.listed) : thread.id_ ≠ other := by
        intro same
        have found := (registered other thread.number).mpr ⟨thread, member, listed, same, rfl⟩
        rw [nobody] at found
        contradiction
      simp only [put, StdMap.insert_new _ nobody, List.mem_cons, exists_eq_or_imp,
        Option.some.injEq]
      constructor
      · intro same
        exact Or.inl ⟨Or.inl rfl, trivial, same⟩
      · rintro (⟨-, -, same⟩ | ⟨thread, member, listed, same, -⟩)
        · exact same
        · exact absurd same (old thread member listed)
    · simp [put, StdMap.insert_other here, registered other number, Ne.symm here]

theorem step_numbered {event : Event} (numbered : heap.Numbered)
    (taken : heap.step event = .ok next) : next.Numbered := by
  cases event with
  | newLock lock =>
      simp only [step, newLock] at taken
      split at taken
      · cases taken
        exact ⟨numbered.distinct, numbered.below⟩
      · cases taken
  | newThread id_ lock_ =>
      obtain ⟨-, locks, given, rfl⟩ := newThread_cases taken
      exact put_numbered numbered
  | destruct index =>
      simp only [step] at taken
      split at taken
      · cases taken
      · rename_i thread others found
        exact advanced_numbered (numbered.taken found) (advance_cases taken)

theorem step_registered {event : Event} (numbered : heap.Numbered) (registered : heap.Registered)
    (taken : heap.step event = .ok next) : next.Registered ↔ heap.NewId event := by
  cases event with
  | newLock lock =>
      simp only [step, newLock] at taken
      split at taken
      · cases taken
        exact iff_of_true registered trivial
      · cases taken
  | newThread id_ lock_ =>
      obtain ⟨unused, locks, given, rfl⟩ := newThread_cases taken
      exact put_registered numbered registered unused
  | destruct index =>
      simp only [step] at taken
      split at taken
      · cases taken
      · rename_i thread others found
        exact iff_of_true (advanced_registered (numbered.taken found) (registered.taken found)
          (advance_cases taken)) trivial

end

/-- In all states of a run the `ThreadManager` finds exactly the threads that
have not been destroyed, exactly when no thread begins with the id of one that
has been joined and is still listed. -/
theorem registered_iff_newId (events : List Event) :
    Runs.Always step Registered initial events ↔ Runs.Throughout step NewId initial events := by
  refine Runs.always_iff_throughout (fun _ _ _ _ => step_numbered) ?_ (fun _ _ => trivial)
    initial_numbered initial_registered
  intro heap event next _ numbered registered taken
  exact step_registered numbered registered taken

def destructor (index : Nat) (lock_ : Option LockPtr) : List Event :=
  .destruct index :: List.replicate (if lock_ = none then 2 else 3) (.destruct 0)

def safeDelete (heap : ThreadHeap) (number : Nat) : Exec ThreadHeap :=
  match heap.threads.find? fun thread => thread.number = number with
  | none => .error .freedObject
  | some thread =>
      Runs.run step heap (destructor (heap.threads.idxOf thread) thread.lock_)

def release (heap : ThreadHeap) (tempVec : List Nat) : Exec ThreadHeap :=
  tempVec.foldlM safeDelete heap

structure Snapshot (heap : ThreadHeap) (tempVec : List Nat) : Prop where
  once : tempVec.Nodup
  every : ∀ number, number ∈ tempVec ↔ ∃ id_, heap.threadPool_ id_ = some number

structure Leaves (heap next : ThreadHeap) : Prop where
  managed : next.Managed
  numbered : next.Numbered
  registered : next.Registered
  given : next.given = heap.given
  ungiven : ∀ lock, lock ∉ heap.given → next.locks lock = heap.locks lock

section

variable {heap middle next : ThreadHeap} {thread : ThreadObject} {others : List ThreadObject}
variable {lock : LockPtr} {index : Nat}

theorem given_of_mem (managed : heap.Managed) (member : thread ∈ heap.threads)
    (own : thread.lock_ = some lock) : lock ∈ heap.given := by
  have user : stage thread.lifetime ∈ (heap.view lock).users :=
    mem_users.mpr ⟨thread, member, own, rfl⟩
  simpa [view] using (managed lock).entered _ user

theorem advance_locks (done : heap.advance thread others = .ok next) :
    next.given = heap.given ∧
      ∀ lock, thread.lock_ ≠ some lock → next.locks lock = heap.locks lock := by
  cases phase : thread.lifetime with
  | living =>
      simp only [advance, phase, Except.ok.injEq] at done
      subst done
      exact ⟨rfl, fun _ _ => rfl⟩
  | joined =>
      simp only [advance, phase, Except.ok.injEq] at done
      subst done
      exact ⟨rfl, fun _ _ => rfl⟩
  | removed =>
      simp only [advance, phase] at done
      split at done
      · cases done
        exact ⟨rfl, fun _ _ => rfl⟩
      · split at done
        · cases done
        · cases done
          exact ⟨rfl, fun _ _ => rfl⟩
  | decreasing =>
      simp only [advance, phase] at done
      split at done
      · cases done
      · rename_i own
        split at done
        · cases done
        · cases done
          refine ⟨rfl, ?_⟩
          intro other elsewhere
          apply StdMap.assign_other
          rintro rfl
          exact elsewhere own
  | deleting =>
      simp only [advance, phase] at done
      split at done
      · cases done
      · rename_i own
        split at done
        · cases done
        · cases done
          refine ⟨rfl, ?_⟩
          intro other elsewhere
          apply StdMap.erase_other
          rintro rfl
          exact elsewhere own

theorem Leaves.step (leaves : heap.Leaves middle)
    (found : InFlight.take middle.threads index = some (thread, others))
    (done : middle.advance thread others = .ok next) (inTurn : middle.InTurn (.destruct index)) :
    heap.Leaves next := by
  obtain ⟨given, locks⟩ := advance_locks done
  have advanced := advance_cases done
  constructor
  · exact (advance_exactly leaves.managed found done).mpr inTurn
  · exact advanced_numbered (leaves.numbered.taken found) advanced
  · exact advanced_registered (leaves.numbered.taken found) (leaves.registered.taken found) advanced
  · exact given.trans leaves.given
  · intro lock ungiven
    refine (locks lock ?_).trans (leaves.ungiven lock ungiven)
    intro own
    have member : thread ∈ middle.threads := InFlight.take_mem found
    exact ungiven (leaves.given ▸ given_of_mem leaves.managed member own)

theorem inTurn_alone (managed : heap.Managed)
    (found : InFlight.take heap.threads index = some (thread, others))
    (living : ∀ other ∈ others, other.lifetime = .living) : heap.InTurn (.destruct index) := by
  intro again left lock count taken removed own lives more
  rw [found, Option.some.injEq, Prod.mk.injEq] at taken
  obtain ⟨rfl, rfl⟩ := taken
  have counted := (managed lock).counted count lives
  rw [view_take found] at counted
  simp only [view, users_own others own, Multiset.card_cons] at counted
  have more_users : 0 < (users others lock).card := by omega
  obtain ⟨user, member⟩ := Multiset.card_pos_iff_exists_mem.mp more_users
  obtain ⟨other, here, keeps, -⟩ := mem_users.mp member
  refine ⟨other, here, keeps, ?_⟩
  simp [living other here]

theorem Leaves.alone (leaves : heap.Leaves middle)
    (living : ∀ other ∈ others, other.lifetime = .living)
    (found : InFlight.take middle.threads index = some (thread, others))
    (done : middle.advance thread others = .ok next) : heap.Leaves next :=
  leaves.step found done (inTurn_alone leaves.managed found living)

theorem take_head (heap : ThreadHeap) (thread : ThreadObject) (others : List ThreadObject) :
    InFlight.take { heap with threads := thread :: others }.threads 0 = some (thread, others) :=
  rfl

theorem destructor_run (managed : heap.Managed) (numbered : heap.Numbered)
    (registered : heap.Registered) (living : ∀ other ∈ heap.threads, other.lifetime = .living)
    (found : InFlight.take heap.threads index = some (thread, others)) :
    ∃ next, Runs.run ThreadHeap.step heap (destructor index thread.lock_) = .ok next ∧
      next.threads = others ∧ heap.Leaves next := by
  have itself : heap.Leaves heap := ⟨managed, numbered, registered, rfl, fun _ _ => rfl⟩
  have left : ∀ other ∈ others, other.lifetime = .living :=
    fun other member => living other (InFlight.mem_of_take found member)
  have begins : thread.lifetime = .living := living thread (InFlight.take_mem found)
  let joined : ThreadHeap :=
    { heap with threads := { thread with lifetime := .joined } :: others }
  have joins : heap.advance thread others = .ok joined := by simp [advance, begins, joined]
  have first := itself.alone left found joins
  let removed : ThreadHeap :=
    { heap with
      threads := { thread with lifetime := .removed } :: others
      threadPool_ := StdMap.erase heap.threadPool_ thread.id_ }
  have removes : joined.advance { thread with lifetime := .joined } others = .ok removed := rfl
  have second := first.alone left (take_head heap _ others) removes
  have one : heap.step (.destruct index) = .ok joined := by simp [ThreadHeap.step, found, joins]
  have two : joined.step (.destruct 0) = .ok removed := removes
  cases own : thread.lock_ with
  | none =>
      let final : ThreadHeap := { removed with threads := others }
      have leaves : removed.advance { thread with lifetime := .removed } others = .ok final := by
        simp [advance, own, final]
      have three : removed.step (.destruct 0) = .ok final := leaves
      refine ⟨final, ?_, rfl, second.alone left (take_head removed _ others) leaves⟩
      simp [destructor, Runs.run_cons, one, two, three, Except.bind, List.replicate]
  | some lock =>
      obtain ⟨count, lives⟩ : ∃ count, removed.locks lock = some count := by
        rw [← Option.ne_none_iff_exists']
        intro gone
        have nobody := (second.managed lock).unused gone
        simp [view, removed, @users_own { thread with lifetime := .removed } lock others own]
          at nobody
      let lifetime : Lifetime := if 1 < count then .decreasing else .deleting
      let decided : ThreadHeap := { removed with threads := { thread with lifetime } :: others }
      have decides : removed.advance { thread with lifetime := .removed } others = .ok decided := by
        simp [advance, own, lives, decided, lifetime]
      have third := second.alone left (take_head removed _ others) decides
      have three : removed.step (.destruct 0) = .ok decided := decides
      obtain ⟨final, leaves, rest⟩ : ∃ final,
          decided.advance { thread with lifetime } others = .ok final ∧ final.threads = others := by
        by_cases more : 1 < count
        · simp [advance, own, decided, lives, lifetime, more]
        · simp [advance, own, decided, lives, lifetime, more]
      have four : decided.step (.destruct 0) = .ok final := leaves
      refine ⟨final, ?_, rest, third.alone left (take_head decided _ others) leaves⟩
      simp [destructor, Runs.run_cons, one, two, three, four, Except.bind, List.replicate]

theorem safeDelete_ok (managed : heap.Managed) (numbered : heap.Numbered)
    (registered : heap.Registered) (living : ∀ other ∈ heap.threads, other.lifetime = .living)
    (member : thread ∈ heap.threads) :
    ∃ next, heap.safeDelete thread.number = .ok next ∧
      heap.threads.Perm (thread :: next.threads) ∧ heap.Leaves next := by
  have single := List.inj_on_of_nodup_map numbered.distinct
  have found : heap.threads.find? (fun other => other.number = thread.number) = some thread := by
    obtain ⟨other, found⟩ := Option.isSome_iff_exists.mp
      (List.find?_isSome.mpr ⟨thread, member, decide_eq_true rfl⟩ :
        (heap.threads.find? fun other => other.number = thread.number).isSome)
    have same : other.number = thread.number := by simpa using List.find?_some found
    rw [found, single (List.mem_of_find?_eq_some found) member same]
  have taken : InFlight.take heap.threads (heap.threads.idxOf thread) =
      some (thread, heap.threads.eraseIdx (heap.threads.idxOf thread)) := by
    simp [InFlight.take, List.getElem?_idxOf member]
  obtain ⟨next, ran, rest, leaves⟩ := destructor_run managed numbered registered living taken
  refine ⟨next, ?_, ?_, leaves⟩
  · rw [safeDelete, found]
    exact ran
  · rw [rest]
    exact InFlight.take_perm taken

theorem release_all {tempVec : List Nat} (managed : heap.Managed) (numbered : heap.Numbered)
    (registered : heap.Registered) (living : ∀ other ∈ heap.threads, other.lifetime = .living)
    (once : tempVec.Nodup)
    (every : ∀ number, number ∈ tempVec ↔ ∃ thread ∈ heap.threads, thread.number = number) :
    ∃ final, heap.release tempVec = .ok final ∧ final.threads = [] ∧
      (∀ id_, final.threadPool_ id_ = none) ∧
      ∀ lock, final.locks lock = if lock ∈ heap.given then none else heap.locks lock := by
  induction tempVec generalizing heap with
  | nil =>
      have empty : heap.threads = [] := by
        rw [List.eq_nil_iff_forall_not_mem]
        intro thread member
        have listed := (every thread.number).mpr ⟨thread, member, rfl⟩
        cases listed
      refine ⟨heap, rfl, empty, ?_, ?_⟩
      · intro id_
        rw [Option.eq_none_iff_forall_ne_some]
        intro number listed
        obtain ⟨thread, member, -⟩ := (registered id_ number).mp listed
        simp [empty] at member
      · intro lock
        split
        · rename_i given
          rw [Option.eq_none_iff_forall_ne_some]
          intro count lives
          obtain ⟨user, member, -⟩ := (managed lock).kept (decide_eq_true given) count lives
          simp [view, users, empty] at member
        · rfl
  | cons number tempVec ih =>
      obtain ⟨thread, member, rfl⟩ := (every number).mp List.mem_cons_self
      obtain ⟨next, deleted, same, leaves⟩ :=
        safeDelete_ok managed numbered registered living member
      have others : ∀ other, other ∈ next.threads → other ∈ heap.threads :=
        fun other member => same.mem_iff.mpr (List.mem_cons_of_mem _ member)
      have gone : thread.number ∉ next.threads.map ThreadObject.number :=
        (List.nodup_cons.mp ((same.map _).nodup_iff.mp numbered.distinct)).1
      have remaining (other : Nat) : other ∈ tempVec ↔
          ∃ thread ∈ next.threads, thread.number = other := by
        have before := every other
        simp only [List.mem_cons, same.mem_iff, exists_eq_or_imp] at before
        constructor
        · intro later
          rcases before.mp (Or.inr later) with rfl | found
          · exact absurd later (List.nodup_cons.mp once).1
          · exact found
        · intro found
          rcases before.mpr (Or.inr found) with rfl | later
          · exact absurd (List.mem_map.mpr found) gone
          · exact later
      obtain ⟨final, released, empty, unlisted, locks⟩ :=
        ih leaves.managed leaves.numbered leaves.registered
          (fun other member => living other (others other member)) (List.nodup_cons.mp once).2
          remaining
      refine ⟨final, ?_, empty, unlisted, ?_⟩
      · rw [release, List.foldlM_cons, deleted]
        exact released
      · intro lock
        rw [locks lock, leaves.given]
        split
        · rfl
        · rename_i ungiven
          exact leaves.ungiven lock ungiven

end

/-- Where a run has kept the locks managed and the ids apart, and no destructor
has begun, `release` leaves no thread, nothing in `threadPool_` and, of the
locks, those that no thread was made with. -/
theorem release_run {events : List Event} {heap : ThreadHeap} {tempVec : List Nat}
    (ran : Runs.run step initial events = .ok heap)
    (inTurn : Runs.Throughout step InTurn initial events)
    (newIds : Runs.Throughout step NewId initial events)
    (living : ∀ thread ∈ heap.threads, thread.lifetime = .living)
    (snapshot : heap.Snapshot tempVec) :
    ∃ final, heap.release tempVec = .ok final ∧ final.threads = [] ∧
      (∀ id_, final.threadPool_ id_ = none) ∧
      ∀ lock, final.locks lock = if lock ∈ heap.given then none else heap.locks lock := by
  have managed : heap.Managed :=
    (Runs.always_of_throughout (fun _ _ _ managed condition taken =>
      (step_exactly managed taken).mpr condition) (fun _ managed => managed) initial_managed
      inTurn).finish ran
  have always : Runs.Always step (fun heap => heap.Numbered ∧ heap.Registered) initial events := by
    refine Runs.always_of_throughout ?_ (fun _ known => known)
      ⟨initial_numbered, initial_registered⟩ newIds
    rintro heap event next ⟨numbered, registered⟩ condition taken
    exact ⟨step_numbered numbered taken, (step_registered numbered registered taken).mpr condition⟩
  obtain ⟨numbered, registered⟩ := always.finish ran
  apply release_all managed numbered registered living snapshot.once
  intro number
  rw [snapshot.every]
  constructor
  · rintro ⟨id_, found⟩
    obtain ⟨thread, member, -, -, same⟩ := (registered id_ number).mp found
    exact ⟨thread, member, same⟩
  · rintro ⟨thread, member, same⟩
    exact ⟨thread.id_, (registered thread.id_ number).mpr
      ⟨thread, member, Or.inl (living thread member), rfl, same⟩⟩

theorem release_run_shared : ∃ heap final,
    Runs.run step initial [.newLock 0, .newThread 1 (some 0), .newThread 2 (some 0)] = .ok heap ∧
      heap.release [1, 0] = .ok final ∧ final.threads = [] ∧
      (∀ id_, final.threadPool_ id_ = none) ∧
      ∀ lock, final.locks lock = if lock ∈ heap.given then none else heap.locks lock := by
  obtain ⟨heap, ran⟩ : ∃ heap, Runs.run step initial
      [.newLock 0, .newThread 1 (some 0), .newThread 2 (some 0)] = .ok heap := ⟨_, rfl⟩
  have reached := ran
  cases reached
  refine ⟨_, (release_run ran ?_ ?_ ?_ ?_).elim fun final ends => ⟨final, ran, ends⟩⟩
  · intro next made
    cases made
    refine ⟨trivial, ?_⟩
    intro next started
    cases started
    refine ⟨by simp [InTurn, initial], ?_⟩
    intro next started
    cases started
    exact ⟨by simp [InTurn, put, initial], trivial⟩
  · intro next made
    cases made
    refine ⟨trivial, ?_⟩
    intro next started
    cases started
    refine ⟨by simp [NewId, initial], ?_⟩
    intro next started
    cases started
    exact ⟨by simp [NewId, put, initial], trivial⟩
  · simp [put, initial]
  · refine ⟨by decide, ?_⟩
    intro number
    simp only [put, initial]
    constructor
    · intro member
      simp only [List.mem_cons, List.not_mem_nil, or_false] at member
      rcases member with rfl | rfl
      · exact ⟨2, rfl⟩
      · exact ⟨1, rfl⟩
    · rintro ⟨id_, found⟩
      by_cases first : id_ = 1
      · subst first
        cases found
        decide
      · by_cases second : id_ = 2
        · subst second
          cases found
          decide
        · simp [StdMap.insert, StdMap.empty, first, second] at found

end ThreadHeap

end GraduationServer
