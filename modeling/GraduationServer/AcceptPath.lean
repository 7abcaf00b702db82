import GraduationServer.ConnectionLimit

/-!
`IOCPServer::onAccept`. The destructor of `Session` calls `closeSession`, which
closes the socket and deletes the session, but only if it is registered. So a
session that was never added is deleted without its socket being closed, and
one that was added is deleted twice.
-/

namespace GraduationServer

/-- `socket_` is the socket of the object at an address, `destroyed` are the
objects whose destructor has run, `closed` the sockets that were closed and
`posted` the objects that a receive was posted for. -/
structure IOCPServer where
  manager : SessionManager
  socket_ : SessionPtr → Nat
  destroyed : List SessionPtr
  closed : List Nat
  posted : List SessionPtr

namespace IOCPServer

def closeSession : Nat → IOCPServer → SessionPtr → Exec (Bool × IOCPServer)
  | 0, _, _ => .error .endlessLoop
  | depth + 1, server, session =>
      if session = 0 then .ok (false, server)
      else
        match server.manager.sessionList_.find? fun object => object.address = session with
        | none => .ok (false, server)
        | some _ => do
            let removed := { server with
              closed := server.closed ++ [server.socket_ session]
              manager := server.manager.closeSession session }
            let (_, after) ← closeSession depth removed session
            return (true, { after with destroyed := after.destroyed ++ [session] })

def safeDelete (server : IOCPServer) (session : SessionPtr) : Exec IOCPServer := do
  let (_, after) ← closeSession 2 server session
  return { after with destroyed := after.destroyed ++ [session] }

/-- `session` is where `new` has put the object. -/
def onAccept (server : IOCPServer) (session : SessionPtr) (accepter addrInfo : Nat)
    (setSocketOpt handle : Bool) : Exec IOCPServer :=
  let server := { server with
    socket_ := fun object => if object = session then accepter else server.socket_ object }
  if setSocketOpt = false then server.safeDelete session
  else
    let (added, manager) := server.manager.addSession session addrInfo
    let server := { server with manager }
    if added = false then server.safeDelete session
    else if handle = false then server.safeDelete session
    else .ok { server with posted := server.posted ++ [session] }

/-- The session is registered and receives, or the lists are as before and the
object and the socket are gone, once each. -/
def AllOrNothing (before after : IOCPServer) (session : SessionPtr) (accepter : Nat) : Prop :=
  after.manager.registered session = true ∧
      after.posted.count session = before.posted.count session + 1 ∨
    after.manager.sessionList_ = before.manager.sessionList_ ∧
      after.manager.sessionCount_ = before.manager.sessionCount_ ∧
      after.destroyed.count session = before.destroyed.count session + 1 ∧
      after.closed.count accepter = before.closed.count accepter + 1

def managerOf (result : Exec (Bool × IOCPServer)) : Exec (Bool × SessionManager) :=
  result.map fun result => (result.1, result.2.manager)

theorem closeSession_registry (depth : Nat) (server : IOCPServer) (registry : Registry)
    (session : SessionPtr) (same : registry.manager = server.manager) :
    managerOf (closeSession depth server session) =
      (Registry.closeSession depth registry session).map fun result =>
        (result.1, result.2.manager) := by
  induction depth generalizing server registry with
  | zero => rfl
  | succ depth ih =>
      rw [closeSession, Registry.closeSession, same]
      by_cases null : session = 0
      · simp [null, managerOf, Except.map, same]
      · simp only [if_neg null]
        cases server.manager.sessionList_.find? fun object => object.address = session with
        | none => simp [managerOf, Except.map, same]
        | some object =>
            let removed : IOCPServer := { server with
              closed := server.closed ++ [server.socket_ session]
              manager := server.manager.closeSession session }
            let unlisted : Registry :=
              { registry with manager := server.manager.closeSession session }
            have again := ih removed unlisted rfl
            show managerOf ((closeSession depth removed session).bind _) =
              ((Registry.closeSession depth unlisted session).bind _).map _
            cases ours : closeSession depth removed session with
            | error reason =>
                cases theirs : Registry.closeSession depth unlisted session with
                | error other =>
                    rw [ours, theirs] at again
                    exact again
                | ok result => simp [ours, theirs, managerOf, Except.map] at again
            | ok result =>
                cases theirs : Registry.closeSession depth unlisted session with
                | error other => simp [ours, theirs, managerOf, Except.map] at again
                | ok other =>
                    simp only [ours, theirs, managerOf, Except.map, Except.ok.injEq,
                      Prod.mk.injEq] at again
                    simp [managerOf, Except.bind, Except.map, pure, Except.pure, again.2]

theorem closeSession_absent (depth : Nat) (server : IOCPServer) {session : SessionPtr}
    (absent : server.manager.registered session = false) :
    closeSession (depth + 1) server session = .ok (false, server) := by
  rw [closeSession]
  split
  · rfl
  · split
    · rfl
    · rename_i object found
      have here : object.address = session := by simpa using List.find?_some found
      have present : server.manager.registered session = true :=
        SessionManager.registered_iff.mpr ⟨object, List.mem_of_find?_eq_some found, here⟩
      rw [absent] at present
      cases present

theorem closeSession_present (server : IOCPServer) {session : SessionPtr} (notNull : session ≠ 0)
    (present : server.manager.registered session = true) :
    closeSession 2 server session = .ok (true, { server with
      closed := server.closed ++ [server.socket_ session]
      manager := server.manager.closeSession session
      destroyed := server.destroyed ++ [session] }) := by
  obtain ⟨object, lives, rfl⟩ := SessionManager.registered_iff.mp present
  let removed : IOCPServer := { server with
    closed := server.closed ++ [server.socket_ object.address]
    manager := server.manager.closeSession object.address }
  have again := closeSession_absent 0 removed (server.manager.closeSession_gone object.address)
  rw [closeSession, if_neg notNull, SessionManager.find_lives lives]
  show (closeSession 1 removed object.address).bind _ = _
  rw [again]
  rfl

theorem safeDelete_absent (server : IOCPServer) {session : SessionPtr}
    (absent : server.manager.registered session = false) :
    server.safeDelete session =
      .ok { server with destroyed := server.destroyed ++ [session] } := by
  rw [safeDelete, closeSession_absent 1 server absent]
  rfl

theorem safeDelete_present (server : IOCPServer) {session : SessionPtr} (notNull : session ≠ 0)
    (present : server.manager.registered session = true) :
    server.safeDelete session = .ok { server with
      closed := server.closed ++ [server.socket_ session]
      manager := server.manager.closeSession session
      destroyed := server.destroyed ++ [session] ++ [session] } := by
  rw [safeDelete, closeSession_present server notNull present]
  rfl

theorem not_allOrNothing {before after : IOCPServer} {session : SessionPtr} {accepter : Nat}
    (absent : after.manager.registered session = false)
    (left : after.closed.count accepter = before.closed.count accepter ∨
      after.destroyed.count session = before.destroyed.count session + 2) :
    ¬ AllOrNothing before after session accepter := by
  rintro (⟨present, -⟩ | ⟨-, -, destroyed, closed⟩)
  · rw [absent] at present
    cases present
  · omega

/-- Accept is all or nothing exactly when nothing fails. -/
theorem onAccept_iff (server : IOCPServer) (session : SessionPtr) (accepter addrInfo : Nat)
    (setSocketOpt handle : Bool) (notNull : session ≠ 0)
    (fresh : server.manager.registered session = false) :
    ∃ after, server.onAccept session accepter addrInfo setSocketOpt handle = .ok after ∧
      (AllOrNothing server after session accepter ↔
        setSocketOpt = true ∧ server.manager.sessionCount_ ≤ server.manager.maxConnection_ ∧
          handle = true) := by
  let opened : IOCPServer := { server with
    socket_ := fun object => if object = session then accepter else server.socket_ object }
  have dropped : ∃ after, opened.safeDelete session = .ok after ∧
      ¬ AllOrNothing server after session accepter :=
    ⟨_, safeDelete_absent opened fresh, not_allOrNothing fresh (Or.inl rfl)⟩
  cases setSocketOpt with
  | false =>
      obtain ⟨after, deleted, leaks⟩ := dropped
      exact ⟨after, deleted, iff_of_false leaks (by simp)⟩
  | true =>
      have decided := server.manager.addSession_added session addrInfo
      rw [fresh] at decided
      rcases server.manager.addSession_cases session addrInfo with
        refused | ⟨manager, object, added, address, -, list, count, -⟩
      · obtain ⟨after, deleted, leaks⟩ := dropped
        simp only [refused, Bool.false_eq_true, true_and, false_iff] at decided
        refine ⟨after, ?_, iff_of_false leaks fun all => decided all.2.1⟩
        simp only [onAccept, refused, Bool.true_eq_false, if_false, if_true]
        exact deleted
      · have room : server.manager.sessionCount_ ≤ server.manager.maxConnection_ := by
          simpa [added] using decided
        have present : manager.registered session = true :=
          SessionManager.registered_iff.mpr ⟨object, by simp [list], address⟩
        cases handle with
        | false =>
            let after : IOCPServer := { opened with
              closed := opened.closed ++ [opened.socket_ session]
              manager := manager.closeSession session
              destroyed := opened.destroyed ++ [session] ++ [session] }
            have twice : after.destroyed.count session = server.destroyed.count session + 2 := by
              simp [after, opened]
            refine ⟨after, ?_, iff_of_false ?_ (by simp)⟩
            · simp only [onAccept, added, Bool.true_eq_false, if_false, if_true]
              exact safeDelete_present { opened with manager } notNull present
            · exact not_allOrNothing (manager.closeSession_gone session) (Or.inr twice)
        | true =>
            refine ⟨{ opened with manager, posted := server.posted ++ [session] }, ?_, ?_⟩
            · simp only [onAccept, added, Bool.true_eq_false, if_false]
              rfl
            · refine iff_of_true (Or.inl ⟨present, ?_⟩) ⟨rfl, room, rfl⟩
              simp

def started : IOCPServer :=
  { manager := SessionManager.init SESSION_CAPACITY
    socket_ := fun _ => 0
    destroyed := []
    closed := []
    posted := [] }

theorem onAccept_iff_started :
    ∃ after, started.onAccept 16 7 1 true true = .ok after ∧
      (AllOrNothing started after 16 7 ↔
        true = true ∧ started.manager.sessionCount_ ≤ started.manager.maxConnection_ ∧
          true = true) :=
  onAccept_iff started 16 7 1 true true (by decide) (by decide)

/-- Socket 7 is accepted and its options cannot be set: it stays open. -/
theorem onAccept_leaks :
    ¬ ∀ (server : IOCPServer) (session : SessionPtr) (accepter addrInfo : Nat)
      (setSocketOpt handle : Bool), session ≠ 0 → server.manager.registered session = false →
        ∃ after, server.onAccept session accepter addrInfo setSocketOpt handle = .ok after ∧
          AllOrNothing server after session accepter := by
  intro every
  obtain ⟨after, done, all⟩ := every started 16 7 1 false true (by decide) (by decide)
  have computed : (started.onAccept 16 7 1 false true).toOption.map
      (fun after => (after.manager.registered 16, after.closed)) = some (false, []) := by decide
  rw [done] at computed
  obtain ⟨absent, open_⟩ := Prod.mk.inj (Option.some.inj computed)
  rcases all with ⟨present, -⟩ | ⟨-, -, -, closed⟩
  · rw [absent] at present
    cases present
  · rw [open_] at closed
    cases closed

end IOCPServer

end GraduationServer
