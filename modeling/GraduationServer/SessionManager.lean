import GraduationServer.Fault
import Mathlib.Data.List.Nodup

/-!
`Session` and `SessionManager`. The session objects that live are those in
`sessionList_`: `addSession` is called for a new object, and `closeSession`
deletes it. A pointer is the address of an object, zero for `NULL`.
-/

namespace GraduationServer

abbrev oid_t := UInt64

abbrev SessionPtr := Nat

inductive SessionType where
  | SESSION_TYPE_TERMINAL
  | SESSION_TYPE_CLIENT
  deriving DecidableEq

/-- `addrInfo_` stands for the peer that the session was accepted from. -/
structure Session where
  address : SessionPtr
  id_ : oid_t
  type_ : SessionType
  addrInfo_ : Nat
  deriving DecidableEq

def SESSION_CAPACITY : Int := 5000

def Session.setType (object : Session) (session : SessionPtr) (type : SessionType) : Session :=
  if object.address = session then { object with type_ := type } else object

@[simp] theorem Session.setType_address (object : Session) (session : SessionPtr)
    (type : SessionType) : (object.setType session type).address = object.address := by
  rw [setType]
  split <;> rfl

/-- The objects that live are at different addresses. -/
structure SessionManager where
  sessionList_ : List Session
  sessionCount_ : Int
  maxConnection_ : Int
  sessionSeed_ : oid_t
  distinct : (sessionList_.map Session.address).Nodup

namespace SessionManager

def init (maxConnection : Int) : SessionManager :=
  { sessionList_ := []
    sessionCount_ := 0
    maxConnection_ := maxConnection
    sessionSeed_ := 1
    distinct := List.nodup_nil }

def registered (manager : SessionManager) (session : SessionPtr) : Bool :=
  manager.sessionList_.any fun object => object.address = session

theorem registered_iff {manager : SessionManager} {session : SessionPtr} :
    manager.registered session = true ↔
      ∃ object ∈ manager.sessionList_, object.address = session := by
  simp [registered]

theorem distinct_append {manager : SessionManager} {object : Session}
    (fresh : ¬ manager.registered object.address = true) :
    ((manager.sessionList_ ++ [object]).map Session.address).Nodup := by
  rw [List.map_append]
  refine List.nodup_append.mpr ⟨manager.distinct, by simp, ?_⟩
  intro address earlier other new same
  subst same
  obtain ⟨present, member, rfl⟩ := List.mem_map.mp earlier
  exact fresh (registered_iff.mpr ⟨present, member, by simpa using new⟩)

def addSession (manager : SessionManager) (session : SessionPtr) (addrInfo_ : Nat) :
    Bool × SessionManager :=
  if fresh : manager.registered session then (false, manager)
  else if manager.maxConnection_ < manager.sessionCount_ then (false, manager)
  else
    let object : Session := {
      address := session
      id_ := manager.sessionSeed_
      type_ := .SESSION_TYPE_CLIENT
      addrInfo_ := addrInfo_ }
    (true, { manager with
      sessionList_ := manager.sessionList_ ++ [object]
      sessionCount_ := manager.sessionCount_ + 1
      sessionSeed_ := manager.sessionSeed_ + 1
      distinct := distinct_append fresh })

def closeSession (manager : SessionManager) (session : SessionPtr) : SessionManager :=
  if manager.registered session then
    { manager with
      sessionList_ := manager.sessionList_.filter fun object => object.address ≠ session
      sessionCount_ := manager.sessionCount_ - 1
      distinct := manager.distinct.sublist (List.filter_sublist.map Session.address) }
  else manager

/-- The loop of `session(id)`, which gives up at the first id that is not below the seed. -/
def findSession (seed id : oid_t) : List Session → Option Session
  | [] => none
  | object :: rest =>
      if seed ≤ object.id_ then none
      else if object.id_ = id then some object
      else findSession seed id rest

def session (manager : SessionManager) (id : oid_t) : Option Session :=
  findSession manager.sessionSeed_ id manager.sessionList_

def deref (manager : SessionManager) (session : SessionPtr) : Exec Session :=
  if session = 0 then .error .nullPointer
  else
    match manager.sessionList_.find? fun object => object.address = session with
    | none => .error .freedObject
    | some object => .ok object

def clientOf (manager : SessionManager) (session : SessionPtr) : Nat :=
  match manager.sessionList_.find? fun object => object.address = session with
  | none => 0
  | some object => object.addrInfo_

def setType (manager : SessionManager) (session : SessionPtr) (type : SessionType) :
    SessionManager :=
  { manager with
    sessionList_ := manager.sessionList_.map fun object => object.setType session type
    distinct := by simpa [Function.comp_def] using manager.distinct }

/-- `addSession` of a new object, which `new` has put where no other object is.
An object that is refused is deleted. -/
def accept (manager : SessionManager) (session : SessionPtr) (addrInfo_ : Nat) :
    Exec SessionManager :=
  if session = 0 ∨ manager.registered session then .error .notEnabled
  else .ok (manager.addSession session addrInfo_).2

theorem same_address {manager : SessionManager} {first second : Session}
    (firstLives : first ∈ manager.sessionList_) (secondLives : second ∈ manager.sessionList_)
    (same : first.address = second.address) : first = second :=
  List.inj_on_of_nodup_map manager.distinct firstLives secondLives same

theorem registered_closeSession {manager : SessionManager} {closed other : SessionPtr} :
    (manager.closeSession closed).registered other = true ↔
      manager.registered other = true ∧ other ≠ closed := by
  simp only [closeSession]
  split
  · simp only [registered_iff, List.mem_filter, decide_eq_true_eq]
    constructor
    · rintro ⟨object, ⟨member, kept⟩, rfl⟩
      exact ⟨⟨object, member, rfl⟩, by simpa using kept⟩
    · rintro ⟨⟨object, member, rfl⟩, kept⟩
      exact ⟨object, ⟨member, by simpa using kept⟩, rfl⟩
  · rename_i absent
    constructor
    · intro present
      refine ⟨present, ?_⟩
      rintro rfl
      exact absent present
    · exact And.left

theorem closeSession_gone (manager : SessionManager) (session : SessionPtr) :
    (manager.closeSession session).registered session = false := by
  rw [Bool.eq_false_iff]
  intro still
  exact (registered_closeSession.mp still).2 rfl

@[simp] theorem registered_setType {manager : SessionManager} {session other : SessionPtr}
    {type : SessionType} :
    (manager.setType session type).registered other = manager.registered other := by
  simp [registered, setType, Function.comp_def]

theorem accept_ok {manager after : SessionManager} {session : SessionPtr} {addrInfo_ : Nat}
    (accepted : manager.accept session addrInfo_ = .ok after) :
    session ≠ 0 ∧ manager.registered session = false ∧
      (after = manager ∨
        after.sessionSeed_ = manager.sessionSeed_ + 1 ∧
        after.sessionList_ = manager.sessionList_ ++ [{
          address := session
          id_ := manager.sessionSeed_
          type_ := .SESSION_TYPE_CLIENT
          addrInfo_ := addrInfo_ }]) := by
  rw [accept] at accepted
  split at accepted
  · simp at accepted
  · rename_i fresh
    cases accepted
    simp only [not_or, Bool.not_eq_true] at fresh
    refine ⟨fresh.1, fresh.2, ?_⟩
    simp only [addSession, fresh.2, Bool.false_eq_true, dite_false]
    split
    · exact Or.inl rfl
    · exact Or.inr ⟨rfl, rfl⟩

theorem registered_accept {manager after : SessionManager} {session other : SessionPtr}
    {addrInfo_ : Nat} (accepted : manager.accept session addrInfo_ = .ok after)
    (present : manager.registered other = true) : after.registered other = true := by
  obtain ⟨-, -, rfl | ⟨-, added⟩⟩ := accept_ok accepted
  · exact present
  · obtain ⟨object, member, address⟩ := registered_iff.mp present
    rw [registered_iff, added]
    exact ⟨object, List.mem_append_left _ member, address⟩

theorem deref_ok {manager : SessionManager} {session : SessionPtr} {object : Session}
    (found : manager.deref session = .ok object) :
    object ∈ manager.sessionList_ ∧ object.address = session ∧ session ≠ 0 := by
  simp only [deref] at found
  split at found
  · simp at found
  · rename_i notNull
    split at found
    · simp at found
    · rename_i object' first
      simp only [Except.ok.injEq] at found
      subst found
      exact ⟨List.mem_of_find?_eq_some first, by simpa using List.find?_some first, notNull⟩

theorem deref_error {manager : SessionManager} {session : SessionPtr} {reason : Fault}
    (unused : manager.deref session = .error reason) :
    session = 0 ∧ reason = .nullPointer ∨
      session ≠ 0 ∧ manager.registered session = false ∧ reason = .freedObject := by
  rw [deref] at unused
  split at unused
  · rename_i null
    exact Or.inl ⟨null, (Except.error.inj unused).symm⟩
  · rename_i notNull
    split at unused
    · rename_i absent
      refine Or.inr ⟨notNull, ?_, (Except.error.inj unused).symm⟩
      rw [Bool.eq_false_iff]
      intro present
      obtain ⟨object, lives, address⟩ := registered_iff.mp present
      exact List.find?_eq_none.mp absent object lives (by simpa using address)
    · cases unused

theorem find_lives {manager : SessionManager} {object : Session}
    (lives : object ∈ manager.sessionList_) :
    (manager.sessionList_.find? fun other => other.address = object.address) = some object := by
  cases found : manager.sessionList_.find? fun other => other.address = object.address with
  | none => exact absurd (List.find?_eq_none.mp found object lives) (by simp)
  | some other =>
      have address : other.address = object.address := by simpa using List.find?_some found
      rw [same_address (List.mem_of_find?_eq_some found) lives address]

theorem deref_lives {manager : SessionManager} {object : Session}
    (lives : object ∈ manager.sessionList_) (notNull : object.address ≠ 0) :
    manager.deref object.address = .ok object := by
  rw [deref, if_neg notNull, find_lives lives]

def Allocated (manager : SessionManager) : Prop :=
  ∀ object ∈ manager.sessionList_, object.address ≠ 0

theorem init_allocated (maxConnection : Int) : (init maxConnection).Allocated := by
  intro object lives
  simp [init] at lives

theorem accept_allocated {manager after : SessionManager} {session : SessionPtr} {addrInfo_ : Nat}
    (allocated : manager.Allocated) (accepted : manager.accept session addrInfo_ = .ok after) :
    after.Allocated := by
  obtain ⟨notNull, -, rfl | ⟨-, added⟩⟩ := accept_ok accepted
  · exact allocated
  · intro object lives
    rw [added, List.mem_append, List.mem_singleton] at lives
    rcases lives with earlier | rfl
    · exact allocated object earlier
    · exact notNull

theorem closeSession_allocated {manager : SessionManager} (allocated : manager.Allocated)
    (session : SessionPtr) : (manager.closeSession session).Allocated := by
  rw [closeSession]
  split
  · exact fun object lives => allocated object (List.mem_of_mem_filter lives)
  · exact allocated

theorem Allocated.notNull {manager : SessionManager} {session : SessionPtr}
    (allocated : manager.Allocated) (present : manager.registered session = true) :
    session ≠ 0 := by
  obtain ⟨object, lives, rfl⟩ := registered_iff.mp present
  exact allocated object lives

theorem deref_registered {manager : SessionManager} {session : SessionPtr}
    (allocated : manager.Allocated) (present : manager.registered session = true) :
    ∃ object, manager.deref session = .ok object := by
  obtain ⟨object, lives, rfl⟩ := registered_iff.mp present
  exact ⟨object, deref_lives lives (allocated object lives)⟩

theorem clientOf_lives {manager : SessionManager} {object : Session}
    (lives : object ∈ manager.sessionList_) :
    manager.clientOf object.address = object.addrInfo_ := by
  rw [clientOf, find_lives lives]

theorem clientOf_deref {manager : SessionManager} {session : SessionPtr} {object : Session}
    (found : manager.deref session = .ok object) : manager.clientOf session = object.addrInfo_ := by
  obtain ⟨lives, rfl, -⟩ := deref_ok found
  exact clientOf_lives lives

theorem session_some {manager : SessionManager} {id : oid_t} {object : Session}
    (found : manager.session id = some object) :
    object ∈ manager.sessionList_ ∧ object.id_ = id := by
  change findSession manager.sessionSeed_ id manager.sessionList_ = some object at found
  generalize manager.sessionList_ = sessionList_ at found ⊢
  induction sessionList_ with
  | nil => simp [findSession] at found
  | cons first rest ih =>
      rw [findSession] at found
      split at found
      · simp at found
      · split at found
        · rename_i same
          simp only [Option.some.injEq] at found
          subst found
          exact ⟨List.mem_cons_self, same⟩
        · obtain ⟨member, same⟩ := ih found
          exact ⟨List.mem_cons_of_mem _ member, same⟩

def Retains (manager after : SessionManager) : Prop :=
  after.sessionSeed_ = manager.sessionSeed_ ∧ ∀ object ∈ after.sessionList_,
    ∃ earlier ∈ manager.sessionList_,
      earlier.id_ = object.id_ ∧ earlier.addrInfo_ = object.addrInfo_

theorem Retains.refl (manager : SessionManager) : manager.Retains manager :=
  ⟨rfl, fun object member => ⟨object, member, rfl, rfl⟩⟩

theorem retains_closeSession (manager : SessionManager) (session : SessionPtr) :
    manager.Retains (manager.closeSession session) := by
  rw [closeSession]
  split
  · exact ⟨rfl, fun object member => ⟨object, List.mem_of_mem_filter member, rfl, rfl⟩⟩
  · exact Retains.refl manager

theorem retains_setType (manager : SessionManager) (session : SessionPtr) (type : SessionType) :
    manager.Retains (manager.setType session type) := by
  refine ⟨rfl, ?_⟩
  intro object member
  obtain ⟨earlier, lives, rfl⟩ := List.mem_map.mp member
  refine ⟨earlier, lives, ?_⟩
  rw [Session.setType]
  split <;> exact ⟨rfl, rfl⟩

end SessionManager

end GraduationServer
