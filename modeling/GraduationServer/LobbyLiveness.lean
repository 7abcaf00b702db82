import GraduationServer.ChattingUsers
import GraduationServer.Library.Runs

/-!
Whether the sessions that the lobby and the users hold are still there. Nothing
removes a session from `session_storage`, from a seat or from `userPool_` when
it is closed; `Deletesession` has no caller.
-/

namespace GraduationServer

namespace ChattingServer

structure Host where
  manager : SessionManager
  process : Process

namespace Host

inductive Event where
  | accept (session : SessionPtr) (addrInfo_ : Nat)
  | disconnected (session : SessionPtr)
  | run (package : Package)

def initial (maxConnection : Int) (num : Int32) : Host :=
  { manager := SessionManager.init maxConnection
    process := { lobby := LobbyManager.Init num, userPool_ := StdMap.empty } }

def step (codePage : CodePage) (inGameServer : Terminal) (host : Host) : Event → Exec Host
  | .accept session addrInfo_ => do
      return { host with manager := ← host.manager.accept session addrInfo_ }
  | .disconnected session =>
      if host.manager.registered session then
        .ok { host with manager := host.manager.closeSession session }
      else .error .notEnabled
  | .run package => do
      let table := registSubPacketFunc codePage inGameServer
      let outcome ← ContentsProcess.run table host.process host.manager package
      return { manager := outcome.manager, process := outcome.process }

structure Live (host : Host) : Prop where
  held : ∀ session, Holds host.process session → host.manager.registered session = true
  told : ∀ packet, broadcast host.manager packet host.process.lobby.session_storage ≠
    .error .freedObject

def SparesHeld (codePage : CodePage) (inGameServer : Terminal) (host : Host) : Event → Prop
  | .accept _ _ => True
  | .disconnected session => ¬ Holds host.process session
  | .run package =>
      ContentsProcess.closes (registSubPacketFunc codePage inGameServer) host.process host.manager
        package = true → ¬ Holds host.process package.session_

theorem deref_registered {manager : SessionManager} {session : SessionPtr}
    (registered : manager.registered session = true) :
    manager.deref session ≠ .error .freedObject := by
  intro freed
  rcases SessionManager.deref_error freed with ⟨-, null⟩ | ⟨-, gone, -⟩
  · cases null
  · rw [registered] at gone
    cases gone

theorem broadcast_live {manager : SessionManager} {packet : Packet}
    {storage : List (oid_t × SessionPtr)}
    (live : ∀ entry ∈ storage, manager.registered entry.2 = true) :
    broadcast manager packet storage ≠ .error .freedObject := by
  induction storage with
  | nil => simp [broadcast]
  | cons entry rest ih =>
      obtain ⟨key, session⟩ := entry
      have others := ih fun other member => live other (List.mem_cons_of_mem _ member)
      intro freed
      rcases Exec.bind_error freed with unused | ⟨_, -, freed⟩
      · exact deref_registered (live (key, session) List.mem_cons_self) unused
      · rcases Exec.bind_error freed with freed | ⟨_, -, freed⟩
        · exact others freed
        · simp [pure, Except.pure] at freed

theorem live_iff_held {host : Host} : host.Live ↔
    ∀ session, Holds host.process session → host.manager.registered session = true := by
  refine ⟨Live.held, fun held => ⟨held, fun packet => broadcast_live ?_⟩⟩
  rintro ⟨key, session⟩ member
  exact held session (Holds.stored member)

theorem initial_live (maxConnection : Int) (num : Int32) : (initial maxConnection num).Live := by
  rw [live_iff_held]
  intro session holds
  cases holds with
  | stored member => simp [initial, LobbyManager.Init] at member
  | seated found notNull sits =>
      simp only [initial, LobbyManager.Init] at found
      split at found
      · cases found
        rcases sits with free | free <;> exact absurd free notNull
      · simp at found
  | named found => simp [initial, StdMap.empty] at found

theorem table_sub {codePage : CodePage} {inGameServer : Terminal} {type : PacketType}
    {func : SubFunc Process}
    (found : registSubPacketFunc codePage inGameServer type = some (.sub func)) :
    func = subFunc codePage inGameServer := by
  have member := ContentsProcess.registSubPacketFunc_sub found
  simp only [List.mem_cons, Prod.mk.injEq, List.not_mem_nil, or_false] at member
  rcases member with ⟨-, same⟩ | ⟨-, same⟩ | ⟨-, same⟩ | ⟨-, same⟩ | ⟨-, same⟩ | ⟨-, same⟩ |
    ⟨-, same⟩ | ⟨-, same⟩ <;> exact same

theorem run_holds {codePage : CodePage} {inGameServer : Terminal} {process : Process}
    {manager : SessionManager} {package : Package} {outcome : Outcome Process}
    (ran : ContentsProcess.run (registSubPacketFunc codePage inGameServer) process manager package =
      .ok outcome) {session : SessionPtr} (holds : Holds outcome.process session) :
    Holds process session ∨ session = package.session_ ∧ manager.registered session = true ∧
      ContentsProcess.closes (registSubPacketFunc codePage inGameServer) process manager package =
        false := by
  rcases ContentsProcess.run_process ran with same | ⟨stays, func, found, handled⟩
  · exact Or.inl (same ▸ holds)
  · rw [table_sub found] at handled
    rcases handle_holds handled holds with earlier | ⟨rfl, object, used⟩
    · exact Or.inl earlier
    · obtain ⟨lives, address, -⟩ := SessionManager.deref_ok used
      exact Or.inr ⟨rfl, SessionManager.registered_iff.mpr ⟨object, lives, address⟩, stays⟩

theorem run_exactly {codePage : CodePage} {inGameServer : Terminal} {host : Host}
    {package : Package} {outcome : Outcome Process} (live : host.Live)
    (ran : ContentsProcess.run (registSubPacketFunc codePage inGameServer) host.process host.manager
      package = .ok outcome) :
    Live { manager := outcome.manager, process := outcome.process } ↔
      host.SparesHeld codePage inGameServer (.run package) := by
  rw [live_iff_held]
  constructor
  · intro after closes holds
    have same : outcome.process = host.process := by
      rcases ContentsProcess.run_process ran with same | ⟨stays, -⟩
      · exact same
      · rw [stays] at closes
        contradiction
    have registered := after package.session_ (same ▸ holds)
    exact ((ContentsProcess.registered_run ran _).mp registered).2 closes rfl
  · intro spares session holds
    rw [ContentsProcess.registered_run ran]
    rcases run_holds ran holds with earlier | ⟨rfl, registered, stays⟩
    · refine ⟨live.held session earlier, fun closes => ?_⟩
      rintro rfl
      exact spares closes earlier
    · refine ⟨registered, fun closes => ?_⟩
      rw [stays] at closes
      contradiction

theorem step_exactly {codePage : CodePage} {inGameServer : Terminal} {host next : Host}
    {event : Event} (live : host.Live)
    (taken : host.step codePage inGameServer event = .ok next) :
    next.Live ↔ host.SparesHeld codePage inGameServer event := by
  cases event with
  | accept session addrInfo_ =>
      obtain ⟨manager, accepted, taken⟩ := Exec.bind_ok taken
      cases taken
      refine ⟨fun _ => trivial, fun _ => live_iff_held.mpr fun other holds => ?_⟩
      exact SessionManager.registered_accept accepted (live.held other holds)
  | disconnected session =>
      simp only [step] at taken
      split at taken
      · cases taken
        rw [live_iff_held]
        constructor
        · intro after holds
          exact (SessionManager.registered_closeSession.mp (after session holds)).2 rfl
        · intro spares other holds
          refine SessionManager.registered_closeSession.mpr ⟨live.held other holds, ?_⟩
          rintro rfl
          exact spares holds
      · simp at taken
  | run package =>
      obtain ⟨outcome, ran, taken⟩ := Exec.bind_ok taken
      cases taken
      exact run_exactly live ran

/-- In all states of a run the lobby and the users hold only sessions that are
registered, exactly when no step closes a session that they hold. -/
theorem live_iff (codePage : CodePage) (inGameServer : Terminal) (maxConnection : Int)
    (num : Int32) (events : List Event) :
    Runs.Always (step codePage inGameServer) Live (initial maxConnection num) events ↔
      Runs.Throughout (step codePage inGameServer) (SparesHeld codePage inGameServer)
        (initial maxConnection num) events := by
  refine Runs.always_iff_throughout (fun _ _ _ _ _ _ => trivial) ?_ (fun _ _ => trivial) trivial
    (initial_live maxConnection num)
  intro host event next _ _ live taken
  exact step_exactly live taken

def ascii : CodePage :=
  { MultiByteToWideChar := fun src _ => src.map UInt8.toUInt16 ++ [0]
    WideCharToMultiByte := fun src _ => src.map UInt16.toUInt8 ++ [0] }

/-- A client asks for the rooms and closes its connection. -/
theorem live_after_disconnect :
    ¬ ∀ events : List Event, Runs.Always (step ascii { ip_ := [], port_ := 0 }) Live
      (initial SESSION_CAPACITY 2) events := by
  intro every
  let events : List Event := [.accept 16 1,
    .run { session_ := 16, packet_ := .PK_C_REQ_LOBBY_INFO 0 0 }, .disconnected 16]
  let view (host : Host) :=
    (host.process.lobby.session_storage, host.manager.registered 16)
  have computed : (Runs.run (step ascii { ip_ := [], port_ := 0 }) (initial SESSION_CAPACITY 2)
      events).toOption.map view = some ([(1, 16)], false) := by decide
  obtain ⟨finish, reached, seen⟩ := Runs.run_view computed
  obtain ⟨stored, gone⟩ := Prod.mk.inj seen
  have live := ((every events).finish reached).held 16
    (Holds.stored (by rw [stored]; exact List.mem_cons_self))
  rw [gone] at live
  contradiction

end Host

end ChattingServer

end GraduationServer
