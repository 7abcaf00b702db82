import GraduationServer.InGameProcess
import GraduationServer.Library.Runs

/-!
Rooms of the InGameServer do not disturb each other. A client's packet concerns
the room under its room number only: it is served for that room's members, and
answered to them. The recipients are found by their ids, so this rests on what
the bindings point at.
-/

namespace GraduationServer

namespace InGameServer

def toClients (sent : List (Receiver × Packet)) : List SessionPtr :=
  sent.filterMap fun
    | (.session session, _) => some session
    | (.terminal _, _) => none

@[simp] theorem toClients_terminal (name : ServerName) (packet : Packet)
    (sent : List (Receiver × Packet)) :
    toClients ((.terminal name, packet) :: sent) = toClients sent := rfl

/-! What a member's packet can do. -/

structure Played (rooms : Rooms) (manager : SessionManager) (session : SessionPtr)
    (room_num : UInt64) (room : Room) (after : Rooms) (sent : List (Receiver × Packet)) :
    Prop where
  found : rooms.roomArr (toInt room_num) = some room
  asked : ∃ object ∈ manager.sessionList_, object.address = session ∧ room.Member object.id_
  told : ∀ receiver ∈ toClients sent, receiver = session ∨
    receiver ≠ 0 ∧ ∃ id, room.Member id ∧ receiver = rooms.Find_sessions id
  others : ∀ key, key ≠ toInt room_num → after.roomArr key = rooms.roomArr key
  bindings : after.simpleSessionManager = rooms.simpleSessionManager ∨
    after = rooms.destroy (toInt room_num) room

def Confined (rooms : Rooms) (manager : SessionManager) (session : SessionPtr)
    (room_num : UInt64) (after : Rooms) (sent : List (Receiver × Packet)) : Prop :=
  after = rooms ∧ sent = [] ∨ ∃ room, Played rooms manager session room_num room after sent

section

variable {rooms after : Rooms} {manager : SessionManager} {session : SessionPtr}
variable {room_num : UInt64} {room : Room} {sent : List (Receiver × Packet)}

theorem answers_told (answers : ∀ answer ∈ sent, Answer rooms session room answer) :
    ∀ receiver ∈ toClients sent, receiver = session ∨
      receiver ≠ 0 ∧ ∃ id, room.Member id ∧ receiver = rooms.Find_sessions id := by
  intro receiver here
  obtain ⟨⟨target, packet⟩, listed, same⟩ := List.mem_filterMap.mp here
  cases target with
  | session other =>
      cases same
      exact answers _ listed
  | terminal other => cases same

theorem confined_of_served (served : Served rooms manager session room_num after sent) :
    Confined rooms manager session room_num after sent := by
  cases served with
  | ignored => exact Or.inl ⟨rfl, rfl⟩
  | answered found used member answers =>
      obtain ⟨lives, address, -⟩ := SessionManager.deref_ok used
      exact Or.inr ⟨_, found, ⟨_, lives, address, member⟩, answers_told answers, fun _ _ => rfl,
        Or.inl rfl⟩
  | counted found used member answers =>
      obtain ⟨lives, address, -⟩ := SessionManager.deref_ok used
      exact Or.inr ⟨_, found, ⟨_, lives, address, member⟩, answers_told answers,
        fun key different => StdMap.assign_other different, Or.inl rfl⟩
  | ended found used member answers =>
      obtain ⟨lives, address, -⟩ := SessionManager.deref_ok used
      refine Or.inr ⟨_, found, ⟨_, lives, address, member⟩, ?_,
        fun key different => StdMap.erase_other different, Or.inr rfl⟩
      rw [toClients_terminal]
      exact answers_told answers

theorem request_confined {terminal : Terminal} {packet : Packet}
    (asks : askedRoom packet = some room_num)
    (done : request rooms terminal manager session packet = .ok (after, sent)) :
    Confined rooms manager session room_num after sent := by
  obtain ⟨other, asked, served⟩ := request_served done
  rw [asks, Option.some.injEq] at asked
  rw [asked]
  exact confined_of_served served

end

/-! The InGameServer over a whole run. -/

structure Game where
  manager : SessionManager
  rooms : Rooms

namespace Game

inductive Event where
  | accept (session : SessionPtr) (addrInfo_ : Nat)
  | disconnected (session : SessionPtr)
  | I_USER_INFO (room_Num User1_ID User2_ID : UInt64)
  | request (session : SessionPtr) (packet : Packet)

def initial (maxConnection : Int) : Game :=
  { manager := SessionManager.init maxConnection, rooms := Rooms.initial }

def step (chattingServer : Terminal) (game : Game) : Event → Exec Game
  | .accept session addrInfo_ => do
      return { game with manager := ← game.manager.accept session addrInfo_ }
  | .disconnected session =>
      if game.manager.registered session then
        .ok { game with manager := game.manager.closeSession session }
      else .error .notEnabled
  | .I_USER_INFO room_Num User1_ID User2_ID => do
      let (rooms, _) ← InGameServer.I_USER_INFO game.rooms game.manager room_Num User1_ID User2_ID
      return { game with rooms }
  | .request session packet => do
      let (rooms, _) ← InGameServer.request game.rooms chattingServer game.manager session packet
      return { game with rooms }

def Stays (game : Game) : Event → Prop
  | .disconnected session => ∀ id, game.rooms.simpleSessionManager id ≠ some session
  | _ => True

def Bound (game : Game) : Prop :=
  ∀ id session, game.rooms.simpleSessionManager id = some session → session ≠ 0 →
    ∃ object ∈ game.manager.sessionList_, object.address = session ∧ object.id_ = id

theorem sessionPtr_bears {manager : SessionManager} {id : oid_t}
    (notNull : sessionPtr manager id ≠ 0) :
    ∃ object ∈ manager.sessionList_, object.address = sessionPtr manager id ∧ object.id_ = id := by
  rw [sessionPtr] at notNull ⊢
  split
  · rename_i absent
    simp [absent] at notNull
  · rename_i object found
    obtain ⟨lives, bears⟩ := SessionManager.session_some found
    exact ⟨object, lives, rfl, bears⟩

theorem rooms_bound {game : Game} (bound : game.Bound) {rooms : Rooms}
    (binds : BindsFound game.manager game.rooms rooms) : Bound { game with rooms } := by
  intro id session held notNull
  rcases binds id session held with earlier | found
  · exact bound id session earlier notNull
  · subst found
    exact sessionPtr_bears notNull

theorem request_binds {rooms after : Rooms} {terminal : Terminal} {manager : SessionManager}
    {session : SessionPtr} {packet : Packet} {sent : List (Receiver × Packet)}
    (done : request rooms terminal manager session packet = .ok (after, sent)) :
    BindsFound manager rooms after := by
  cases request_ok done with
  | kept _ same _ =>
      intro id session held
      exact Or.inl (same ▸ held)
  | ended _ ends _ =>
      rw [ends]
      exact destroy_binds manager rooms _ _

theorem step_bound {chattingServer : Terminal} {game next : Game} {event : Event}
    (bound : game.Bound) (stays : game.Stays event)
    (taken : game.step chattingServer event = .ok next) : next.Bound := by
  cases event with
  | accept session addrInfo_ =>
      obtain ⟨manager, accepted, taken⟩ := Exec.bind_ok taken
      cases taken
      intro id other held notNull
      obtain ⟨object, lives, address, bears⟩ := bound id other held notNull
      refine ⟨object, ?_, address, bears⟩
      rcases SessionManager.accept_ok accepted with ⟨-, -, rfl | ⟨-, added⟩⟩
      · exact lives
      · rw [added]
        exact List.mem_append_left _ lives
  | disconnected session =>
      simp only [step] at taken
      split at taken
      · rename_i registered
        cases taken
        intro id other held notNull
        obtain ⟨object, lives, address, bears⟩ := bound id other held notNull
        refine ⟨object, ?_, address, bears⟩
        have another : object.address ≠ session := by
          rintro rfl
          exact stays id (address ▸ held)
        simp only [SessionManager.closeSession, if_pos registered, List.mem_filter]
        exact ⟨lives, by simpa using another⟩
      · simp at taken
  | I_USER_INFO room_Num User1_ID User2_ID =>
      obtain ⟨⟨rooms, sent⟩, handled, taken⟩ := Exec.bind_ok taken
      cases taken
      cases I_USER_INFO_ok handled with
      | started _ binds => exact rooms_bound bound binds
      | failed _ binds => exact rooms_bound bound binds
  | request session packet =>
      obtain ⟨⟨rooms, sent⟩, served, taken⟩ := Exec.bind_ok taken
      cases taken
      exact rooms_bound bound (request_binds served)

theorem bound_run {chattingServer : Terminal} {events : List Event} {start finish : Game}
    (bound : start.Bound) (stays : Runs.Throughout (step chattingServer) Stays start events)
    (reached : Runs.run (step chattingServer) start events = .ok finish) : finish.Bound := by
  have always : Runs.Always (step chattingServer) Bound start events :=
    Runs.always_of_throughout (fun _ _ _ => step_bound) (fun _ kept => kept) bound stays
  exact always.finish reached

def Plays (game : Game) (room : Room) (session : SessionPtr) : Prop :=
  ∃ object ∈ game.manager.sessionList_, object.address = session ∧ room.Member object.id_

structure Isolated (game : Game) (session : SessionPtr) (room_num : UInt64) (after : Rooms)
    (sent : List (Receiver × Packet)) : Prop where
  asked : toClients sent ≠ [] →
    ∃ room, game.rooms.roomArr (toInt room_num) = some room ∧ game.Plays room session
  told : ∀ receiver ∈ toClients sent,
    ∃ room, game.rooms.roomArr (toInt room_num) = some room ∧ game.Plays room receiver
  others : ∀ key, key ≠ toInt room_num → after.roomArr key = game.rooms.roomArr key
  bindings : ∀ id, after.simpleSessionManager id ≠ game.rooms.simpleSessionManager id →
    ∃ room, game.rooms.roomArr (toInt room_num) = some room ∧ room.Member id

theorem Find_sessions_bound {game : Game} (bound : game.Bound) {id : oid_t}
    (notNull : game.rooms.Find_sessions id ≠ 0) :
    ∃ object ∈ game.manager.sessionList_,
      object.address = game.rooms.Find_sessions id ∧ object.id_ = id := by
  rw [Rooms.Find_sessions] at notNull ⊢
  cases held : game.rooms.simpleSessionManager id with
  | none => simp [held] at notNull
  | some session =>
      rw [held, Option.getD_some] at notNull
      exact bound id session held notNull

theorem plays_bound {game : Game} (bound : game.Bound) {room : Room} {id : oid_t}
    (member : room.Member id) (notNull : game.rooms.Find_sessions id ≠ 0) :
    game.Plays room (game.rooms.Find_sessions id) := by
  obtain ⟨object, lives, address, bears⟩ := Find_sessions_bound bound notNull
  exact ⟨object, lives, address, bears ▸ member⟩

theorem destroy_bindings {rooms : Rooms} {key : Int32} {room : Room} {id : oid_t}
    (changed : (rooms.destroy key room).simpleSessionManager id ≠ rooms.simpleSessionManager id) :
    room.Member id := by
  by_contra neither
  simp only [Room.Member, not_or] at neither
  apply changed
  simp [Rooms.destroy, Rooms.Delete_Sessions, neither]

theorem isolated_of_confined {game : Game} (bound : game.Bound) {session : SessionPtr}
    {room_num : UInt64} {after : Rooms} {sent : List (Receiver × Packet)}
    (confined : Confined game.rooms game.manager session room_num after sent) :
    game.Isolated session room_num after sent := by
  rcases confined with ⟨rfl, rfl⟩ | ⟨room, played⟩
  · constructor
    · intro something
      exact absurd rfl something
    · intro receiver here
      simp [toClients] at here
    · exact fun _ _ => rfl
    · intro id changed
      exact absurd rfl changed
  · constructor
    · exact fun _ => ⟨room, played.found, played.asked⟩
    · intro receiver here
      refine ⟨room, played.found, ?_⟩
      rcases played.told receiver here with rfl | ⟨notNull, id, member, rfl⟩
      · exact played.asked
      · exact plays_bound bound member notNull
    · exact played.others
    · intro id changed
      rcases played.bindings with same | rfl
      · exact absurd (congrFun same id) changed
      · exact ⟨room, played.found, destroy_bindings changed⟩

/-- Whatever rooms have come and gone, a client's packet touches and reaches
nothing but the room under its number and that room's members, as long as no
bound session has been disconnected. -/
theorem room_isolation (maxConnection : Int) (chattingServer : Terminal) (events : List Event)
    (game : Game)
    (reached : Runs.run (step chattingServer) (initial maxConnection) events = .ok game)
    (stays : Runs.Throughout (step chattingServer) Stays (initial maxConnection) events)
    (session : SessionPtr) (packet : Packet) (room_num : UInt64)
    (asks : askedRoom packet = some room_num) (after : Rooms) (sent : List (Receiver × Packet))
    (served : request game.rooms chattingServer game.manager session packet = .ok (after, sent)) :
    game.Isolated session room_num after sent := by
  have start : (initial maxConnection).Bound := by
    intro id session held
    simp [initial, Rooms.initial, StdMap.empty] at held
  exact isolated_of_confined (bound_run start stays reached) (request_confined asks served)

theorem room_isolation_two_rooms :
    ∃ game after sent,
      Runs.run (step { ip_ := [], port_ := 0 }) (initial SESSION_CAPACITY)
        [.accept 16 1, .accept 32 2, .accept 48 3, .accept 64 4, .I_USER_INFO 0 1 2,
          .I_USER_INFO 1 3 4, .request 48 (.PK_C_REQ_BOSS_EXPLOSION 1)] = .ok game ∧
      request game.rooms { ip_ := [], port_ := 0 } game.manager 16
        (.PK_C_REQ_MAKE_BOSS 0) = .ok (after, sent) ∧
      toClients sent = [16, 32] ∧ game.Isolated 16 0 after sent := by
  let chattingServer : Terminal := { ip_ := [], port_ := 0 }
  let events : List Event := [.accept 16 1, .accept 32 2, .accept 48 3, .accept 64 4,
    .I_USER_INFO 0 1 2, .I_USER_INFO 1 3 4, .request 48 (.PK_C_REQ_BOSS_EXPLOSION 1)]
  let answer (game : Game) : Option (List SessionPtr) :=
    (request game.rooms chattingServer game.manager 16 (.PK_C_REQ_MAKE_BOSS 0)).toOption.map
      fun result => toClients result.2
  have computed : (Runs.run (step chattingServer) (initial SESSION_CAPACITY) events).toOption.map
      answer = some (some [16, 32]) := by decide
  obtain ⟨game, reached, view⟩ := Runs.run_view computed
  have remain : ∀ event ∈ events, ∀ session, event ≠ .disconnected session := by
    simp [events]
  have stays : Runs.Throughout (step chattingServer) Stays (initial SESSION_CAPACITY) events := by
    refine Runs.Throughout.mono ?_ (Runs.throughout_of_events remain)
    intro state event stay
    cases event with
    | disconnected session => exact absurd rfl (stay session)
    | _ => trivial
  obtain ⟨⟨after, sent⟩, asked, answered⟩ := Option.map_eq_some_iff.mp view
  cases served : request game.rooms chattingServer game.manager 16 (.PK_C_REQ_MAKE_BOSS 0) with
  | error reason => simp [served, Except.toOption] at asked
  | ok result =>
      rw [served] at asked
      cases asked
      exact ⟨game, after, sent, reached, served, answered,
        room_isolation SESSION_CAPACITY chattingServer events game reached stays 16
          (.PK_C_REQ_MAKE_BOSS 0) 0 rfl after sent served⟩

end Game

end InGameServer

end GraduationServer
