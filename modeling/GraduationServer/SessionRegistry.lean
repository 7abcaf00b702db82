import GraduationServer.Library.Runs
import GraduationServer.SessionManager

/-!
The `SessionManager` over its whole life, with the destructor of `Session` that
calls `closeSession` again. Ids are the numbers from 1 on, and `session(id)`
rests on that: it gives up at the first id that is not below the seed, which is
right until the seed wraps to zero.
-/

namespace GraduationServer

namespace SessionManager

def ids (manager : SessionManager) : List oid_t := manager.sessionList_.map Session.id_

def clear (manager : SessionManager) : SessionManager :=
  { manager with sessionList_ := [], distinct := List.nodup_nil }

theorem clear_empty {manager : SessionManager} (empty : manager.sessionList_ = []) :
    manager.clear = manager := by
  cases manager
  cases empty
  rfl

theorem addSession_cases (manager : SessionManager) (session : SessionPtr) (addrInfo_ : Nat) :
    manager.addSession session addrInfo_ = (false, manager) ∨
      ∃ after object, manager.addSession session addrInfo_ = (true, after) ∧
        object.address = session ∧ object.id_ = manager.sessionSeed_ ∧
        after.sessionList_ = manager.sessionList_ ++ [object] ∧
        after.sessionCount_ = manager.sessionCount_ + 1 ∧
        after.sessionSeed_ = manager.sessionSeed_ + 1 := by
  rw [addSession]
  split
  · exact Or.inl rfl
  · split
    · exact Or.inl rfl
    · exact Or.inr ⟨_, _, rfl, rfl, rfl, rfl, rfl, rfl⟩

theorem closeSession_perm {manager : SessionManager} {object : Session}
    (lives : object ∈ manager.sessionList_) :
    manager.sessionList_.Perm (object :: (manager.closeSession object.address).sessionList_) := by
  have registered : manager.registered object.address = true :=
    registered_iff.mpr ⟨object, lives, rfl⟩
  have others (other : Session) (member : other ∈ manager.sessionList_) :
      other ≠ object ↔ other.address ≠ object.address :=
    ⟨fun different same => different (same_address member lives same),
      fun different same => different (by rw [same])⟩
  have kept : (manager.closeSession object.address).sessionList_ =
      manager.sessionList_.erase object := by
    have once : manager.sessionList_.Nodup := List.Nodup.of_map _ manager.distinct
    rw [closeSession, if_pos registered, once.erase_eq_filter]
    apply List.filter_congr
    intro other member
    by_cases same : other = object
    · simp [same]
    · simp [same, (others other member).mp same]
  rw [kept]
  exact List.perm_cons_erase lives

theorem closeSession_sublist (manager : SessionManager) (session : SessionPtr) :
    (manager.closeSession session).sessionList_.Sublist manager.sessionList_ := by
  rw [closeSession]
  split
  · exact List.filter_sublist
  · exact List.Sublist.refl _

end SessionManager

/-- `given` are the ids of all sessions added so far and `destroyed` those of
the sessions whose destructor has run, both in order. -/
structure Registry where
  manager : SessionManager
  given : List oid_t
  destroyed : List oid_t

namespace Registry

inductive Event where
  | addSession (session : SessionPtr) (addrInfo_ : Nat)
  | closeSession (session : SessionPtr)
  | forceCloseSession (session : SessionPtr)
  | release

def initial (maxConnection : Int) : Registry :=
  { manager := SessionManager.init maxConnection, given := [], destroyed := [] }

def addSession (registry : Registry) (session : SessionPtr) (addrInfo_ : Nat) : Exec Registry :=
  let (added, manager) := registry.manager.addSession session addrInfo_
  if added then
    if session = 0 then .error .nullPointer
    else .ok { registry with manager, given := registry.given ++ [registry.manager.sessionSeed_] }
  else .ok registry

/-- `SAFE_DELETE` runs `~Session`, which calls `closeSession` for the session
once more before the object is gone. `depth` bounds the nesting. -/
def closeSession : Nat → Registry → SessionPtr → Exec (Bool × Registry)
  | 0, _, _ => .error .endlessLoop
  | depth + 1, registry, session =>
      if session = 0 then .ok (false, registry)
      else
        match registry.manager.sessionList_.find? fun object => object.address = session with
        | none => .ok (false, registry)
        | some delSession => do
            let removed := { registry with manager := registry.manager.closeSession session }
            let (_, after) ← closeSession depth removed session
            return (true, { after with destroyed := after.destroyed ++ [delSession.id_] })

def onClose (registry : Registry) (session : SessionPtr) : Exec Registry := do
  let (_, after) ← closeSession 2 registry session
  return after

/-- The linger option is set on the socket only. -/
def forceCloseSession (registry : Registry) (session : SessionPtr) : Exec Registry :=
  if session = 0 then .ok registry else registry.onClose session

def closeAll : List SessionPtr → Registry → Exec Registry
  | [], registry => .ok registry
  | session :: rest, registry => do
      let _ ← registry.manager.deref session
      let after ← registry.onClose session
      closeAll rest after

def release (registry : Registry) : Exec Registry := do
  let removeSessionVec := registry.manager.sessionList_.map Session.address
  let closed ← closeAll removeSessionVec registry
  return { closed with manager := closed.manager.clear }

def step (registry : Registry) : Event → Exec Registry
  | .addSession session addrInfo_ => registry.addSession session addrInfo_
  | .closeSession session => registry.onClose session
  | .forceCloseSession session => registry.forceCloseSession session
  | .release => registry.release

/-! What one operation does. -/

def closed (registry : Registry) (object : Session) : Registry :=
  { registry with
    manager := registry.manager.closeSession object.address
    destroyed := registry.destroyed ++ [object.id_] }

/-- The second call of `closeSession` does not find the session, so two levels
are enough, and the destructor runs once. -/
theorem closeSession_eq (depth : Nat) (registry : Registry) (session : SessionPtr)
    (notNull : session ≠ 0) :
    closeSession (depth + 2) registry session = .ok
      (match registry.manager.sessionList_.find? fun object => object.address = session with
      | none => (false, registry)
      | some object => (true, registry.closed object)) := by
  rw [closeSession, if_neg notNull]
  cases found : registry.manager.sessionList_.find? fun object => object.address = session with
  | none => rfl
  | some object =>
      have here : object.address = session := by simpa using List.find?_some found
      have gone : ((registry.manager.closeSession session).sessionList_.find? fun other =>
          other.address = session) = none := by
        rw [List.find?_eq_none]
        intro other member same
        have present : (registry.manager.closeSession session).registered session = true :=
          SessionManager.registered_iff.mpr ⟨other, member, by simpa using same⟩
        exact (SessionManager.registered_closeSession.mp present).2 rfl
      simp only [closeSession, if_neg notNull, gone, closed, here]
      rfl

theorem onClose_cases (registry : Registry) (session : SessionPtr) :
    registry.onClose session = .ok registry ∨
      ∃ object ∈ registry.manager.sessionList_, object.address = session ∧
        registry.onClose session = .ok (registry.closed object) := by
  by_cases null : session = 0
  · left
    rw [onClose, closeSession, if_pos null]
    rfl
  · rw [onClose, closeSession_eq 0 registry session null]
    split
    · exact Or.inl rfl
    · rename_i object found
      exact Or.inr ⟨object, List.mem_of_find?_eq_some found, by simpa using List.find?_some found,
        rfl⟩

theorem onClose_lives {registry : Registry} {object : Session}
    (lives : object ∈ registry.manager.sessionList_) (notNull : object.address ≠ 0) :
    registry.onClose object.address = .ok (registry.closed object) := by
  rw [onClose, closeSession_eq 0 registry _ notNull, SessionManager.find_lives lives]
  rfl

/-! The ids are the numbers from 1 on, modulo 2^64. -/

structure Numbered (registry : Registry) : Prop where
  seed : registry.manager.sessionSeed_ = UInt64.ofNat (registry.given.length + 1)
  consecutive : registry.given = (List.range' 1 registry.given.length).map UInt64.ofNat
  registered : registry.manager.ids.Sublist registry.given
  counted : registry.manager.sessionCount_ = registry.manager.sessionList_.length
  accounted : registry.given.Perm (registry.destroyed ++ registry.manager.ids)
  notNull : ∀ object ∈ registry.manager.sessionList_, object.address ≠ 0

theorem initial_numbered (maxConnection : Int) : Numbered (initial maxConnection) := by
  constructor
  · rfl
  · rfl
  · exact List.Sublist.refl _
  · rfl
  · exact List.Perm.refl _
  · intro object member
    simp [initial, SessionManager.init] at member

theorem closed_numbered {registry : Registry} {object : Session} (numbered : Numbered registry)
    (lives : object ∈ registry.manager.sessionList_) : Numbered (registry.closed object) := by
  have perm := SessionManager.closeSession_perm lives
  have kept := registry.manager.closeSession_sublist object.address
  have registered : registry.manager.registered object.address = true :=
    SessionManager.registered_iff.mpr ⟨object, lives, rfl⟩
  constructor
  · show (registry.manager.closeSession object.address).sessionSeed_ = _
    rw [(registry.manager.retains_closeSession object.address).1]
    exact numbered.seed
  · exact numbered.consecutive
  · exact (kept.map Session.id_).trans numbered.registered
  · have length := perm.length_eq
    have counted := numbered.counted
    simp only [List.length_cons] at length
    simp only [closed, SessionManager.closeSession, if_pos registered] at length ⊢
    omega
  · have moved : registry.manager.ids.Perm
        (object.id_ :: (registry.manager.closeSession object.address).ids) := perm.map Session.id_
    refine numbered.accounted.trans ?_
    simp only [closed, List.append_assoc, List.singleton_append]
    exact moved.append_left _
  · intro other member
    exact numbered.notNull other (kept.subset member)

theorem onClose_numbered {registry after : Registry} {session : SessionPtr}
    (numbered : Numbered registry) (done : registry.onClose session = .ok after) :
    Numbered after := by
  rcases registry.onClose_cases session with same | ⟨object, lives, -, ended⟩
  · rw [done, Except.ok.injEq] at same
    rwa [same]
  · rw [done, Except.ok.injEq] at ended
    rw [ended]
    exact closed_numbered numbered lives

theorem addSession_numbered {registry after : Registry} {session : SessionPtr} {addrInfo_ : Nat}
    (numbered : Numbered registry) (done : registry.addSession session addrInfo_ = .ok after) :
    Numbered after := by
  rcases registry.manager.addSession_cases session addrInfo_ with
    refused | ⟨manager, object, added, address, id, list, count, seed⟩
  · simp only [addSession, refused, Bool.false_eq_true, if_false, Except.ok.injEq] at done
    rwa [← done]
  · simp only [addSession, added, if_true] at done
    split at done
    · simp at done
    · rename_i notNull
      cases done
      have next : manager.ids = registry.manager.ids ++ [registry.manager.sessionSeed_] := by
        simp [SessionManager.ids, list, id]
      constructor
      · simp [seed, numbered.seed]
      · rw [List.length_append, List.length_singleton, List.range'_1_concat, List.map_append,
          ← numbered.consecutive, List.map_singleton, numbered.seed, Nat.add_comm]
      · show manager.ids.Sublist _
        rw [next]
        exact numbered.registered.append_right _
      · simp [count, list, numbered.counted]
      · show List.Perm _ (registry.destroyed ++ manager.ids)
        rw [next, ← List.append_assoc]
        exact numbered.accounted.append_right _
      · intro other member
        simp only [list, List.mem_append, List.mem_singleton] at member
        rcases member with earlier | rfl
        · exact numbered.notNull other earlier
        · rwa [address]

theorem closeAll_numbered {registry : Registry} (numbered : Numbered registry) :
    ∃ after, closeAll (registry.manager.sessionList_.map Session.address) registry = .ok after ∧
      Numbered after ∧ after.manager.sessionList_ = [] ∧ after.given = registry.given := by
  generalize sessions : registry.manager.sessionList_ = list
  induction list generalizing registry with
  | nil => exact ⟨registry, rfl, numbered, sessions, rfl⟩
  | cons object rest ih =>
      have lives : object ∈ registry.manager.sessionList_ := by simp [sessions]
      have notNull := numbered.notNull object lives
      have used : ∃ other, registry.manager.deref object.address = .ok other := by
        simp [SessionManager.deref, notNull, sessions]
      obtain ⟨other, used⟩ := used
      have left : (registry.closed object).manager.sessionList_ = rest := by
        have perm := SessionManager.closeSession_perm lives
        have distinct := registry.manager.distinct
        rw [sessions] at perm distinct
        simp only [List.map_cons, List.nodup_cons, List.mem_map, not_exists, not_and] at distinct
        have registered : registry.manager.registered object.address = true :=
          SessionManager.registered_iff.mpr ⟨object, lives, rfl⟩
        simp only [closed, SessionManager.closeSession, if_pos registered, sessions]
        rw [List.filter_cons_of_neg (by simp), List.filter_eq_self]
        intro later member
        simpa using distinct.1 later member
      obtain ⟨after, closing, finished, empty, given⟩ := ih (closed_numbered numbered lives) left
      refine ⟨after, ?_, finished, empty, given⟩
      rw [List.map_cons, closeAll, used, onClose_lives lives notNull]
      exact closing

theorem release_numbered {registry : Registry} (numbered : Numbered registry) :
    ∃ after, registry.release = .ok after ∧ Numbered after ∧
      after.manager.sessionList_ = [] ∧ after.given = registry.given := by
  obtain ⟨closed, closing, finished, empty, given⟩ := closeAll_numbered numbered
  have same : closed.manager.clear = closed.manager := SessionManager.clear_empty empty
  refine ⟨closed, ?_, finished, empty, given⟩
  rw [release, closing]
  simp only [bind, Except.bind, same]
  rfl

theorem step_numbered {registry after : Registry} {event : Event} (numbered : Numbered registry)
    (taken : registry.step event = .ok after) : Numbered after := by
  cases event with
  | addSession session addrInfo_ => exact addSession_numbered numbered taken
  | closeSession session => exact onClose_numbered numbered taken
  | forceCloseSession session =>
      by_cases null : session = 0
      · simp only [step, forceCloseSession, null, if_true, Except.ok.injEq] at taken
        rwa [← taken]
      · simp only [step, forceCloseSession, null, if_false] at taken
        exact onClose_numbered numbered taken
  | release =>
      obtain ⟨released, done, finished, -⟩ := release_numbered numbered
      rw [step, done, Except.ok.injEq] at taken
      rwa [← taken]

/-! Before the seed wraps. -/

structure Consistent (registry : Registry) : Prop where
  once : (registry.manager.sessionList_.map Session.address).Nodup
  counted : registry.manager.sessionCount_ = registry.manager.sessionList_.length
  increasing : registry.manager.ids.Pairwise (· < ·)
  below : ∀ id ∈ registry.manager.ids, id < registry.manager.sessionSeed_
  fresh : registry.given.Nodup

def Lookup (manager : SessionManager) : Prop :=
  ∀ id object, manager.session id = some object ↔ object ∈ manager.sessionList_ ∧ object.id_ = id

/-- After `release` nothing is registered, and each session ever added has been
destroyed once. -/
def Releases (registry : Registry) : Prop :=
  ∃ after, registry.release = .ok after ∧ after.manager.sessionList_ = [] ∧
    after.manager.sessionCount_ = 0 ∧ after.given = registry.given ∧
    after.destroyed.Perm after.given

theorem given_increasing {registry : Registry} (numbered : Numbered registry)
    (few : registry.given.length + 1 < UInt64.size) : registry.given.Pairwise (· < ·) := by
  rw [numbered.consecutive, List.pairwise_map]
  refine List.Pairwise.imp_of_mem ?_ List.pairwise_lt_range'
  intro first second firstHere secondHere less
  rw [List.mem_range'_1] at firstHere secondHere
  have bounded : second < UInt64.size := by omega
  rw [UInt64.lt_iff_toNat_lt, UInt64.toNat_ofNat_of_lt' (by omega),
    UInt64.toNat_ofNat_of_lt' bounded]
  exact less

theorem given_below {registry : Registry} (numbered : Numbered registry)
    (few : registry.given.length + 1 < UInt64.size) :
    ∀ id ∈ registry.given, id < registry.manager.sessionSeed_ := by
  intro id member
  rw [numbered.consecutive] at member
  obtain ⟨number, range, rfl⟩ := List.mem_map.mp member
  rw [List.mem_range'_1] at range
  rw [numbered.seed, UInt64.lt_iff_toNat_lt, UInt64.toNat_ofNat_of_lt' (by omega),
    UInt64.toNat_ofNat_of_lt' few]
  omega

theorem consistent_of_numbered {registry : Registry} (numbered : Numbered registry)
    (few : registry.given.length + 1 < UInt64.size) : Consistent registry := by
  have increasing := given_increasing numbered few
  constructor
  · exact registry.manager.distinct
  · exact numbered.counted
  · exact increasing.sublist numbered.registered
  · exact fun id member => given_below numbered few id (numbered.registered.subset member)
  · refine increasing.imp ?_
    intro first second less same
    exact UInt64.lt_irrefl first (same ▸ less)

theorem lookup_of_consistent {registry : Registry} (consistent : Consistent registry) :
    Lookup registry.manager := by
  intro id object
  constructor
  · exact SessionManager.session_some
  · rintro ⟨member, rfl⟩
    have increasing := consistent.increasing
    have below := consistent.below
    unfold SessionManager.ids at increasing below
    unfold SessionManager.session
    generalize registry.manager.sessionList_ = list at member increasing below
    induction list with
    | nil => simp at member
    | cons first rest ih =>
        rw [List.map_cons, List.pairwise_cons] at increasing
        have early : ¬ registry.manager.sessionSeed_ ≤ first.id_ :=
          UInt64.not_le.mpr (below first.id_ (by simp))
        rw [SessionManager.findSession, if_neg early]
        rcases List.mem_cons.mp member with rfl | later
        · simp
        · have less := increasing.1 object.id_ (List.mem_map_of_mem later)
          rw [if_neg (UInt64.ne_of_lt less)]
          exact ih later increasing.2 fun id here => below id (List.mem_cons_of_mem _ here)

theorem releases_of_numbered {registry : Registry} (numbered : Numbered registry) :
    Releases registry := by
  obtain ⟨after, done, finished, empty, given⟩ := release_numbered numbered
  refine ⟨after, done, empty, ?_, given, ?_⟩
  · rw [finished.counted, empty]
    rfl
  · have accounted := finished.accounted
    rw [SessionManager.ids, empty, List.map_nil, List.append_nil] at accounted
    exact accounted.symm

/-- As long as fewer than 2^64 - 1 sessions have been added, the registry is
consistent in every state of every run, and `session(id)` and `release` do what
they are for. -/
theorem registry_consistent (maxConnection : Int) (events : List Event) (registry : Registry)
    (reached : Runs.run step (initial maxConnection) events = .ok registry)
    (few : registry.given.length < UInt64.size - 1) :
    Consistent registry ∧ Lookup registry.manager ∧ Releases registry := by
  have numbered : Numbered registry :=
    Runs.run_invariant (fun _ _ _ => step_numbered) (initial_numbered maxConnection) reached
  have consistent := consistent_of_numbered numbered (by omega)
  exact ⟨consistent, lookup_of_consistent consistent, releases_of_numbered numbered⟩

theorem registry_consistent_closed :
    ∃ registry, Runs.run step (initial SESSION_CAPACITY)
        [.addSession 16 1, .addSession 32 2, .closeSession 16] = .ok registry ∧
      Consistent registry ∧ Lookup registry.manager ∧ Releases registry := by
  have computed : (Runs.run step (initial SESSION_CAPACITY)
      [.addSession 16 1, .addSession 32 2, .closeSession 16]).toOption.map
        Registry.given = some [1, 2] := by decide
  obtain ⟨registry, reached, given⟩ := Runs.run_view computed
  exact ⟨registry, reached, registry_consistent SESSION_CAPACITY _ registry reached
    (by rw [given]; decide)⟩

/-! The addition that wraps the seed. -/

def rounds : Nat → List Event
  | 0 => [.addSession 16 0]
  | count + 1 => .addSession 16 0 :: .closeSession 16 :: rounds count

theorem addSession_empty {registry : Registry} (empty : registry.manager.sessionList_ = [])
    (idle : registry.manager.sessionCount_ = 0) (room : 0 ≤ registry.manager.maxConnection_) :
    ∃ after object, registry.addSession 16 0 = .ok after ∧
      after.given = registry.given ++ [registry.manager.sessionSeed_] ∧
      after.manager.sessionList_ = [object] ∧ object.address = 16 ∧
      after.manager.sessionCount_ = 1 ∧
      after.manager.maxConnection_ = registry.manager.maxConnection_ ∧
      after.manager.sessionSeed_ = registry.manager.sessionSeed_ + 1 := by
  have free : registry.manager.registered 16 = false := by simp [SessionManager.registered, empty]
  have quiet : ¬ registry.manager.maxConnection_ < 0 := by omega
  simp [addSession, SessionManager.addSession, free, quiet, empty, idle]

theorem rounds_run (count : Nat) (registry : Registry)
    (empty : registry.manager.sessionList_ = []) (idle : registry.manager.sessionCount_ = 0)
    (room : 0 ≤ registry.manager.maxConnection_) :
    ∃ finish object, Runs.run step registry (rounds count) = .ok finish ∧
      finish.given.length = registry.given.length + (count + 1) ∧
      finish.manager.sessionList_ = [object] ∧
      finish.manager.sessionSeed_ = registry.manager.sessionSeed_ + UInt64.ofNat (count + 1) := by
  induction count generalizing registry with
  | zero =>
      obtain ⟨after, object, adding, given, list, -, -, -, seed⟩ := addSession_empty empty idle room
      refine ⟨after, object, ?_, by simp [given], list, by simp [seed]⟩
      rw [rounds, Runs.run_cons, step, adding]
      rfl
  | succ count ih =>
      obtain ⟨after, object, adding, given, list, address, one, most, seed⟩ :=
        addSession_empty empty idle room
      have lives : object ∈ after.manager.sessionList_ := by simp [list]
      have closing : after.onClose 16 = .ok (after.closed object) := by
        rw [← address]
        exact onClose_lives lives (by simp [address])
      have registered : after.manager.registered object.address = true :=
        SessionManager.registered_iff.mpr ⟨object, lives, rfl⟩
      obtain ⟨finish, last, ran, length, only, wrapped⟩ := ih (after.closed object)
        (by simp [closed, SessionManager.closeSession, if_pos registered, list])
        (by simp [closed, SessionManager.closeSession, if_pos registered, one])
        (by simp [closed, SessionManager.closeSession, if_pos registered, most, room])
      refine ⟨finish, last, ?_, ?_, only, ?_⟩
      · rw [rounds, Runs.run_cons, step, adding]
        show Runs.run step after (.closeSession 16 :: rounds count) = _
        rw [Runs.run_cons, step, closing]
        exact ran
      · rw [length]
        simp only [closed, given, List.length_append, List.length_singleton]
        omega
      · rw [wrapped]
        simp only [closed, SessionManager.closeSession, if_pos registered, seed]
        rw [UInt64.add_assoc, ← UInt64.ofNat_one, ← UInt64.ofNat_add, Nat.add_comm 1]

theorem registry_wrapped :
    ¬ ∀ events registry, Runs.run step (initial SESSION_CAPACITY) events = .ok registry →
      registry.given.length < UInt64.size → Consistent registry := by
  intro every
  obtain ⟨finish, object, ran, length, list, seed⟩ :=
    rounds_run (UInt64.size - 2) (initial SESSION_CAPACITY) rfl rfl (by decide)
  have few : finish.given.length < UInt64.size := by
    rw [length]
    decide
  have consistent := every (rounds (UInt64.size - 2)) finish ran few
  have below := consistent.below object.id_ (by simp [SessionManager.ids, list])
  have wrapped : finish.manager.sessionSeed_ = 0 := by
    rw [seed]
    decide
  rw [wrapped, UInt64.lt_iff_toNat_lt] at below
  exact Nat.not_lt_zero _ below

end Registry

end GraduationServer
