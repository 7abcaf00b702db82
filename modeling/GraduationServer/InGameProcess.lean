import GraduationServer.ContentsProcess

/-!
`RoomManager`, `SimpleUserManager` and the handlers of `InGameProcess`. A room
is kept under the `int` value of its number; the two maps are shared by all
handlers.
-/

namespace GraduationServer

namespace InGameServer

structure Room where
  User1_ID : UInt64
  User2_ID : UInt64
  total_exploded_enemy : UInt64
  deriving DecidableEq

structure Rooms where
  roomArr : StdMap.Map Int32 Room
  simpleSessionManager : StdMap.Map oid_t SessionPtr

namespace Rooms

def initial : Rooms := { roomArr := StdMap.empty, simpleSessionManager := StdMap.empty }

def Insert_User_Info (rooms : Rooms) (key : Int32) (room : Room) : Rooms :=
  { rooms with roomArr := StdMap.insert rooms.roomArr key room }

def Insert_Sessions (rooms : Rooms) (id : oid_t) (session_ : SessionPtr) : Rooms :=
  { rooms with simpleSessionManager := StdMap.insert rooms.simpleSessionManager id session_ }

def Delete_Sessions (rooms : Rooms) (key : oid_t) : Rooms :=
  { rooms with simpleSessionManager := StdMap.erase rooms.simpleSessionManager key }

def Find_sessions (rooms : Rooms) (key : oid_t) : SessionPtr :=
  (rooms.simpleSessionManager key).getD 0

def destroy (rooms : Rooms) (key : Int32) (room : Room) : Rooms :=
  ({ rooms with roomArr := StdMap.erase rooms.roomArr key }.Delete_Sessions
    room.User1_ID).Delete_Sessions room.User2_ID

end Rooms

def sessionPtr (manager : SessionManager) (id : oid_t) : SessionPtr :=
  match manager.session id with
  | none => 0
  | some object => object.address

def sendTo (manager : SessionManager) (session : SessionPtr) (packet : Packet) :
    Exec (List (Receiver × Packet)) := do
  let _ ← manager.deref session
  return [(.session session, packet)]

/-- The `do` loop of `I_USER_INFO`, with the tries that are left. -/
def bindUsers (manager : SessionManager) (User1_ID User2_ID : UInt64) :
    Nat → Rooms → Rooms × Option (SessionPtr × SessionPtr)
  | 0, rooms => (rooms, none)
  | tries + 1, rooms =>
      let rooms := rooms.Insert_Sessions User1_ID (sessionPtr manager User1_ID)
      let rooms := rooms.Insert_Sessions User2_ID (sessionPtr manager User2_ID)
      let temp1 := rooms.Find_sessions User1_ID
      let temp2 := rooms.Find_sessions User2_ID
      if temp1 = 0 ∨ temp2 = 0 then bindUsers manager User1_ID User2_ID tries rooms
      else (rooms, some (temp1, temp2))

def I_USER_INFO (rooms : Rooms) (manager : SessionManager) (room_Num User1_ID User2_ID : UInt64) :
    Exec (Rooms × List (Receiver × Packet)) :=
  let tempRoom : Room := { User1_ID, User2_ID, total_exploded_enemy := 0 }
  let rooms := rooms.Insert_User_Info (toInt room_Num) tempRoom
  match bindUsers manager User1_ID User2_ID 3 rooms with
  | (rooms, none) =>
      .ok (rooms.destroy (toInt room_Num) tempRoom,
        [(.terminal .ChattingServer, .PK_I_INITIALIZE_ROOMMEMBER room_Num 0)])
  | (rooms, some (temp1, temp2)) => do
      let first ← sendTo manager temp1 (.PK_S_REQ_ON_GAME room_Num)
      let second ← sendTo manager temp2 (.PK_S_REQ_ON_GAME room_Num)
      return (rooms, first ++ second)

def C_REQ_PLAYER_MOVE (rooms : Rooms) (manager : SessionManager) (session : SessionPtr)
    (Room_num : UInt64) (x y : RawFloat) : Exec (Rooms × List (Receiver × Packet)) :=
  match rooms.roomArr (toInt Room_num) with
  | none => .ok (rooms, [])
  | some tempRoom => do
      let object ← manager.deref session
      let retpacket := Packet.PK_S_ANS_PLAYER_MOVE Room_num x y
      if tempRoom.User1_ID = object.id_ then
        let temp := rooms.Find_sessions tempRoom.User2_ID
        if temp = 0 then return (rooms, []) else return (rooms, ← sendTo manager temp retpacket)
      else if tempRoom.User2_ID = object.id_ then
        let temp := rooms.Find_sessions tempRoom.User1_ID
        if temp = 0 then return (rooms, []) else return (rooms, ← sendTo manager temp retpacket)
      else return (rooms, [])

def C_REQ_FIRE_BULLET (rooms : Rooms) (manager : SessionManager) (session : SessionPtr)
    (room_num : UInt64) (x y : RawFloat) : Exec (Rooms × List (Receiver × Packet)) :=
  match rooms.roomArr (toInt room_num) with
  | none => .ok (rooms, [])
  | some tempRoom => do
      let object ← manager.deref session
      let retpacket := Packet.PK_S_ANS_FIRE_BULLET room_num x y
      if tempRoom.User1_ID = object.id_ then
        return (rooms, ← sendTo manager (rooms.Find_sessions tempRoom.User2_ID) retpacket)
      else if tempRoom.User2_ID = object.id_ then
        return (rooms, ← sendTo manager (rooms.Find_sessions tempRoom.User1_ID) retpacket)
      else return (rooms, [])

def C_REQ_MAKE_ENEMY (rooms : Rooms) (manager : SessionManager) (session : SessionPtr)
    (room_num : UInt64) (x : RawFloat) : Exec (Rooms × List (Receiver × Packet)) :=
  match rooms.roomArr (toInt room_num) with
  | none => .ok (rooms, [])
  | some tempRoom =>
      if 1 ≤ tempRoom.total_exploded_enemy then .ok (rooms, [])
      else do
        let object ← manager.deref session
        if object.id_ = tempRoom.User1_ID then
          let temp := rooms.Find_sessions tempRoom.User2_ID
          if temp = 0 then return (rooms, [])
          else
            let second ← sendTo manager temp (.PK_S_ANS_MAKE_ENEMY x)
            let first ← sendTo manager session (.PK_S_ANS_MAKE_ENEMY x)
            return (rooms, second ++ first)
        else return (rooms, [])

def C_REQ_ENEMY_EXPLOSION (rooms : Rooms) (manager : SessionManager) (session : SessionPtr)
    (room_num enemycount : UInt64) : Exec (Rooms × List (Receiver × Packet)) :=
  match rooms.roomArr (toInt room_num) with
  | none => .ok (rooms, [])
  | some tempRoom => do
      let object ← manager.deref session
      if object.id_ = tempRoom.User1_ID ∧ tempRoom.total_exploded_enemy < 5 then
        let total_exploded_enemy := tempRoom.total_exploded_enemy + enemycount
        let roomArr := StdMap.assign rooms.roomArr (toInt room_num)
          { tempRoom with total_exploded_enemy }
        return ({ rooms with roomArr },
          ← sendTo manager session (.PK_S_ANS_ENEMY_EXPLOSION room_num total_exploded_enemy))
      else return (rooms, [])

def C_REQ_MAKE_BOSS (rooms : Rooms) (manager : SessionManager) (session : SessionPtr)
    (room_num : UInt64) : Exec (Rooms × List (Receiver × Packet)) :=
  match rooms.roomArr (toInt room_num) with
  | none => .ok (rooms, [])
  | some tempRoom => do
      let object ← manager.deref session
      if object.id_ = tempRoom.User1_ID then
        let first ← sendTo manager session (.PK_S_ANS_MAKE_BOSS room_num)
        let second ← sendTo manager (rooms.Find_sessions tempRoom.User2_ID)
          (.PK_S_ANS_MAKE_BOSS room_num)
        return (rooms, first ++ second)
      else return (rooms, [])

def C_REQ_BOSS_EXPLOSION (rooms : Rooms) (terminal : Terminal) (manager : SessionManager)
    (session : SessionPtr) (room_num : UInt64) : Exec (Rooms × List (Receiver × Packet)) :=
  match rooms.roomArr (toInt room_num) with
  | none => .ok (rooms, [])
  | some tempRoom => do
      let object ← manager.deref session
      if object.id_ = tempRoom.User1_ID then
        let retpacket := Packet.PK_S_ANS_BOSS_EXPLOSION room_num terminal.ip_ terminal.port_
        let first ← sendTo manager session retpacket
        let second ← sendTo manager (rooms.Find_sessions tempRoom.User2_ID) retpacket
        return (rooms.destroy (toInt room_num) tempRoom,
          (.terminal .ChattingServer, .PK_I_INITIALIZE_ROOMMEMBER room_num 0) :: first ++ second)
      else return (rooms, [])

def request (rooms : Rooms) (terminal : Terminal) (manager : SessionManager)
    (session : SessionPtr) : Packet → Exec (Rooms × List (Receiver × Packet))
  | .PK_C_REQ_PLAYER_MOVE Room_num x y => C_REQ_PLAYER_MOVE rooms manager session Room_num x y
  | .PK_C_REQ_FIRE_BULLET room_num x y => C_REQ_FIRE_BULLET rooms manager session room_num x y
  | .PK_C_REQ_MAKE_ENEMY room_num x => C_REQ_MAKE_ENEMY rooms manager session room_num x
  | .PK_C_REQ_ENEMY_EXPLOSION room_num enemycount =>
      C_REQ_ENEMY_EXPLOSION rooms manager session room_num enemycount
  | .PK_C_REQ_MAKE_BOSS room_num => C_REQ_MAKE_BOSS rooms manager session room_num
  | .PK_C_REQ_BOSS_EXPLOSION room_num =>
      C_REQ_BOSS_EXPLOSION rooms terminal manager session room_num
  | _ => .error .notEnabled

/-! What the six handlers can do, said once for all of them. -/

def Room.Member (room : Room) (id : oid_t) : Prop := id = room.User1_ID ∨ id = room.User2_ID

def askedRoom : Packet → Option UInt64
  | .PK_C_REQ_PLAYER_MOVE Room_num _ _ => some Room_num
  | .PK_C_REQ_FIRE_BULLET room_num _ _ => some room_num
  | .PK_C_REQ_MAKE_ENEMY room_num _ => some room_num
  | .PK_C_REQ_ENEMY_EXPLOSION room_num _ => some room_num
  | .PK_C_REQ_MAKE_BOSS room_num => some room_num
  | .PK_C_REQ_BOSS_EXPLOSION room_num => some room_num
  | _ => none

/-- An answer goes to the client that asked, or to a bound member of its room. -/
def Answer (rooms : Rooms) (session : SessionPtr) (room : Room) : Receiver × Packet → Prop
  | (.session receiver, _) => receiver = session ∨
      receiver ≠ 0 ∧ ∃ id, room.Member id ∧ receiver = rooms.Find_sessions id
  | (.terminal _, _) => False

/-- A client's packet is dropped, or answered on behalf of a member of the room
that it names; the room's count may change, and the room may end. -/
inductive Served (rooms : Rooms) (manager : SessionManager) (session : SessionPtr)
    (room_num : UInt64) : Rooms → List (Receiver × Packet) → Prop
  | ignored : Served rooms manager session room_num rooms []
  | answered {room : Room} {object : Session} {sent : List (Receiver × Packet)} :
      rooms.roomArr (toInt room_num) = some room → manager.deref session = .ok object →
      room.Member object.id_ → (∀ answer ∈ sent, Answer rooms session room answer) →
      Served rooms manager session room_num rooms sent
  | counted {room : Room} {object : Session} {total_exploded_enemy : UInt64}
      {sent : List (Receiver × Packet)} :
      rooms.roomArr (toInt room_num) = some room → manager.deref session = .ok object →
      room.Member object.id_ → (∀ answer ∈ sent, Answer rooms session room answer) →
      Served rooms manager session room_num
        { rooms with
          roomArr := StdMap.assign rooms.roomArr (toInt room_num)
            { room with total_exploded_enemy } } sent
  | ended {room : Room} {object : Session} {sent : List (Receiver × Packet)} :
      rooms.roomArr (toInt room_num) = some room → manager.deref session = .ok object →
      room.Member object.id_ → (∀ answer ∈ sent, Answer rooms session room answer) →
      Served rooms manager session room_num (rooms.destroy (toInt room_num) room)
        ((.terminal .ChattingServer, .PK_I_INITIALIZE_ROOMMEMBER room_num 0) :: sent)

section

variable {rooms after : Rooms} {manager : SessionManager} {session : SessionPtr}
variable {room_num : UInt64} {room : Room} {sent : List (Receiver × Packet)}

theorem sendTo_bound {packet : Packet} {id : oid_t} (member : room.Member id)
    (done : sendTo manager (rooms.Find_sessions id) packet = .ok sent) :
    ∀ answer ∈ sent, Answer rooms session room answer := by
  obtain ⟨object, used, done⟩ := Exec.bind_ok done
  cases done
  intro answer here
  rw [List.mem_singleton] at here
  subst here
  exact Or.inr ⟨(SessionManager.deref_ok used).2.2, id, member, rfl⟩

theorem sendTo_asker {packet : Packet} (done : sendTo manager session packet = .ok sent) :
    ∀ answer ∈ sent, Answer rooms session room answer := by
  obtain ⟨object, used, done⟩ := Exec.bind_ok done
  cases done
  intro answer here
  rw [List.mem_singleton] at here
  subst here
  exact Or.inl rfl

theorem C_REQ_PLAYER_MOVE_served {x y : RawFloat}
    (done : C_REQ_PLAYER_MOVE rooms manager session room_num x y = .ok (after, sent)) :
    Served rooms manager session room_num after sent := by
  rw [C_REQ_PLAYER_MOVE] at done
  split at done
  · cases done
    exact Served.ignored
  · rename_i tempRoom found
    obtain ⟨object, used, done⟩ := Exec.bind_ok done
    dsimp only at done
    split_ifs at done with first null second null
    · cases done
      exact Served.ignored
    · obtain ⟨told, telling, done⟩ := Exec.bind_ok done
      cases done
      exact Served.answered found used (Or.inl first.symm) (sendTo_bound (Or.inr rfl) telling)
    · cases done
      exact Served.ignored
    · obtain ⟨told, telling, done⟩ := Exec.bind_ok done
      cases done
      exact Served.answered found used (Or.inr second.symm) (sendTo_bound (Or.inl rfl) telling)
    · cases done
      exact Served.ignored

theorem C_REQ_FIRE_BULLET_served {x y : RawFloat}
    (done : C_REQ_FIRE_BULLET rooms manager session room_num x y = .ok (after, sent)) :
    Served rooms manager session room_num after sent := by
  rw [C_REQ_FIRE_BULLET] at done
  split at done
  · cases done
    exact Served.ignored
  · rename_i tempRoom found
    obtain ⟨object, used, done⟩ := Exec.bind_ok done
    dsimp only at done
    split_ifs at done with first second
    · obtain ⟨told, telling, done⟩ := Exec.bind_ok done
      cases done
      exact Served.answered found used (Or.inl first.symm) (sendTo_bound (Or.inr rfl) telling)
    · obtain ⟨told, telling, done⟩ := Exec.bind_ok done
      cases done
      exact Served.answered found used (Or.inr second.symm) (sendTo_bound (Or.inl rfl) telling)
    · cases done
      exact Served.ignored

theorem C_REQ_MAKE_ENEMY_served {x : RawFloat}
    (done : C_REQ_MAKE_ENEMY rooms manager session room_num x = .ok (after, sent)) :
    Served rooms manager session room_num after sent := by
  rw [C_REQ_MAKE_ENEMY] at done
  split at done
  · cases done
    exact Served.ignored
  · rename_i tempRoom found
    split at done
    · cases done
      exact Served.ignored
    · obtain ⟨object, used, done⟩ := Exec.bind_ok done
      dsimp only at done
      split_ifs at done with first null
      · cases done
        exact Served.ignored
      · obtain ⟨toSecond, tellingSecond, done⟩ := Exec.bind_ok done
        obtain ⟨toFirst, tellingFirst, done⟩ := Exec.bind_ok done
        cases done
        apply Served.answered found used (Or.inl first)
        exact List.forall_mem_append.mpr
          ⟨sendTo_bound (Or.inr rfl) tellingSecond, sendTo_asker tellingFirst⟩
      · cases done
        exact Served.ignored

theorem C_REQ_ENEMY_EXPLOSION_served {enemycount : UInt64}
    (done : C_REQ_ENEMY_EXPLOSION rooms manager session room_num enemycount = .ok (after, sent)) :
    Served rooms manager session room_num after sent := by
  rw [C_REQ_ENEMY_EXPLOSION] at done
  split at done
  · cases done
    exact Served.ignored
  · rename_i tempRoom found
    obtain ⟨object, used, done⟩ := Exec.bind_ok done
    dsimp only at done
    split_ifs at done with few
    · obtain ⟨told, telling, done⟩ := Exec.bind_ok done
      cases done
      exact Served.counted found used (Or.inl few.1) (sendTo_asker telling)
    · cases done
      exact Served.ignored

theorem C_REQ_MAKE_BOSS_served
    (done : C_REQ_MAKE_BOSS rooms manager session room_num = .ok (after, sent)) :
    Served rooms manager session room_num after sent := by
  rw [C_REQ_MAKE_BOSS] at done
  split at done
  · cases done
    exact Served.ignored
  · rename_i tempRoom found
    obtain ⟨object, used, done⟩ := Exec.bind_ok done
    split_ifs at done with first
    · obtain ⟨toFirst, tellingFirst, done⟩ := Exec.bind_ok done
      obtain ⟨toSecond, tellingSecond, done⟩ := Exec.bind_ok done
      cases done
      apply Served.answered found used (Or.inl first)
      exact List.forall_mem_append.mpr
        ⟨sendTo_asker tellingFirst, sendTo_bound (Or.inr rfl) tellingSecond⟩
    · cases done
      exact Served.ignored

theorem C_REQ_BOSS_EXPLOSION_served {terminal : Terminal}
    (done : C_REQ_BOSS_EXPLOSION rooms terminal manager session room_num = .ok (after, sent)) :
    Served rooms manager session room_num after sent := by
  rw [C_REQ_BOSS_EXPLOSION] at done
  split at done
  · cases done
    exact Served.ignored
  · rename_i tempRoom found
    obtain ⟨object, used, done⟩ := Exec.bind_ok done
    dsimp only at done
    split_ifs at done with first
    · obtain ⟨toFirst, tellingFirst, done⟩ := Exec.bind_ok done
      obtain ⟨toSecond, tellingSecond, done⟩ := Exec.bind_ok done
      cases done
      apply Served.ended found used (Or.inl first)
      exact List.forall_mem_append.mpr
        ⟨sendTo_asker tellingFirst, sendTo_bound (Or.inr rfl) tellingSecond⟩
    · cases done
      exact Served.ignored

theorem request_served {terminal : Terminal} {packet : Packet}
    (done : request rooms terminal manager session packet = .ok (after, sent)) :
    ∃ room_num, askedRoom packet = some room_num ∧
      Served rooms manager session room_num after sent := by
  cases packet with
  | PK_C_REQ_PLAYER_MOVE Room_num => exact ⟨Room_num, rfl, C_REQ_PLAYER_MOVE_served done⟩
  | PK_C_REQ_FIRE_BULLET room_num => exact ⟨room_num, rfl, C_REQ_FIRE_BULLET_served done⟩
  | PK_C_REQ_MAKE_ENEMY room_num => exact ⟨room_num, rfl, C_REQ_MAKE_ENEMY_served done⟩
  | PK_C_REQ_ENEMY_EXPLOSION room_num => exact ⟨room_num, rfl, C_REQ_ENEMY_EXPLOSION_served done⟩
  | PK_C_REQ_MAKE_BOSS room_num => exact ⟨room_num, rfl, C_REQ_MAKE_BOSS_served done⟩
  | PK_C_REQ_BOSS_EXPLOSION room_num => exact ⟨room_num, rfl, C_REQ_BOSS_EXPLOSION_served done⟩
  | _ => cases done

theorem answers_quiet (name : ServerName)
    (answers : ∀ answer ∈ sent, Answer rooms session room answer) : toTerminal name sent = [] := by
  rw [toTerminal, List.filterMap_eq_nil_iff]
  rintro ⟨receiver, packet⟩ here
  cases receiver with
  | session other => rfl
  | terminal other => exact (answers _ here).elim

end

theorem sendTo_quiet {manager : SessionManager} {session : SessionPtr} {packet : Packet}
    {sent : List (Receiver × Packet)} (name : ServerName)
    (done : sendTo manager session packet = .ok sent) : toTerminal name sent = [] := by
  obtain ⟨_, -, done⟩ := Exec.bind_ok done
  cases done
  rfl

inductive Requested (rooms after : Rooms) (sent : List (Receiver × Packet)) : Prop
  | kept : (∀ key, (after.roomArr key).isSome = (rooms.roomArr key).isSome) →
      after.simpleSessionManager = rooms.simpleSessionManager →
      toTerminal .ChattingServer sent = [] → Requested rooms after sent
  | ended {room_num : UInt64} {room : Room} : rooms.roomArr (toInt room_num) = some room →
      after = rooms.destroy (toInt room_num) room →
      toTerminal .ChattingServer sent = [.PK_I_INITIALIZE_ROOMMEMBER room_num 0] →
      Requested rooms after sent

theorem request_ok {rooms after : Rooms} {terminal : Terminal} {manager : SessionManager}
    {session : SessionPtr} {packet : Packet} {sent : List (Receiver × Packet)}
    (done : request rooms terminal manager session packet = .ok (after, sent)) :
    Requested rooms after sent := by
  obtain ⟨room_num, -, served⟩ := request_served done
  cases served with
  | ignored => exact Requested.kept (fun _ => rfl) rfl rfl
  | answered _ _ _ answers => exact Requested.kept (fun _ => rfl) rfl (answers_quiet _ answers)
  | counted found _ _ answers =>
      refine Requested.kept ?_ rfl (answers_quiet _ answers)
      intro key
      by_cases same : key = toInt room_num
      · simp [same, found]
      · simp [same]
  | ended found _ _ answers =>
      refine Requested.ended found rfl ?_
      have quiet := answers_quiet .ChattingServer answers
      simp only [toTerminal, if_true, List.filterMap_cons] at quiet ⊢
      rw [quiet]

def BindsFound (manager : SessionManager) (rooms after : Rooms) : Prop :=
  ∀ id session, after.simpleSessionManager id = some session →
    rooms.simpleSessionManager id = some session ∨ session = sessionPtr manager id

theorem BindsFound.trans {manager : SessionManager} {rooms middle after : Rooms}
    (first : BindsFound manager rooms middle) (second : BindsFound manager middle after) :
    BindsFound manager rooms after := by
  intro id session bound
  rcases second id session bound with earlier | found
  · exact first id session earlier
  · exact Or.inr found

theorem Insert_Sessions_binds (manager : SessionManager) (rooms : Rooms) (id : oid_t) :
    BindsFound manager rooms (rooms.Insert_Sessions id (sessionPtr manager id)) := by
  intro other session bound
  rcases StdMap.insert_some bound with earlier | ⟨rfl, found⟩
  · exact Or.inl earlier
  · exact Or.inr found

theorem destroy_binds (manager : SessionManager) (rooms : Rooms) (key : Int32) (room : Room) :
    BindsFound manager rooms (rooms.destroy key room) := by
  intro id session bound
  exact Or.inl (StdMap.erase_some (StdMap.erase_some bound))

theorem bindUsers_ok {manager : SessionManager} {User1_ID User2_ID : UInt64} {tries : Nat}
    {rooms after : Rooms} {result : Option (SessionPtr × SessionPtr)}
    (done : bindUsers manager User1_ID User2_ID tries rooms = (after, result)) :
    after.roomArr = rooms.roomArr ∧ BindsFound manager rooms after ∧
      ∀ temp1 temp2, result = some (temp1, temp2) →
        temp1 = after.Find_sessions User1_ID ∧ temp2 = after.Find_sessions User2_ID := by
  induction tries generalizing rooms with
  | zero =>
      cases done
      refine ⟨rfl, fun _ _ bound => Or.inl bound, ?_⟩
      intro temp1 temp2 found
      simp at found
  | succ tries ih =>
      have binds := (Insert_Sessions_binds manager rooms User1_ID).trans
        (Insert_Sessions_binds manager _ User2_ID)
      simp only [bindUsers] at done
      split at done
      · obtain ⟨sameRooms, later, found⟩ := ih done
        exact ⟨sameRooms, binds.trans later, found⟩
      · cases done
        refine ⟨rfl, binds, ?_⟩
        intro temp1 temp2 found
        cases found
        exact ⟨rfl, rfl⟩

/-- `I_USER_INFO` keeps the room with both members bound, or takes it back and
resets it in the lobby. -/
inductive Handled (rooms : Rooms) (manager : SessionManager)
    (room_Num User1_ID User2_ID : UInt64) (after : Rooms) (sent : List (Receiver × Packet)) : Prop
  | started {first second : Session} :
      after.roomArr = StdMap.insert rooms.roomArr (toInt room_Num)
        { User1_ID, User2_ID, total_exploded_enemy := 0 } →
      BindsFound manager rooms after →
      manager.deref (after.Find_sessions User1_ID) = .ok first →
      manager.deref (after.Find_sessions User2_ID) = .ok second →
      toTerminal .ChattingServer sent = [] →
      Handled rooms manager room_Num User1_ID User2_ID after sent
  | failed : after.roomArr = StdMap.erase rooms.roomArr (toInt room_Num) →
      BindsFound manager rooms after →
      toTerminal .ChattingServer sent = [.PK_I_INITIALIZE_ROOMMEMBER room_Num 0] →
      Handled rooms manager room_Num User1_ID User2_ID after sent

theorem I_USER_INFO_ok {rooms after : Rooms} {manager : SessionManager}
    {room_Num User1_ID User2_ID : UInt64} {sent : List (Receiver × Packet)}
    (done : I_USER_INFO rooms manager room_Num User1_ID User2_ID = .ok (after, sent)) :
    Handled rooms manager room_Num User1_ID User2_ID after sent := by
  simp only [I_USER_INFO] at done
  split at done
  · rename_i bound binding
    cases done
    obtain ⟨sameRooms, binds, -⟩ := bindUsers_ok binding
    refine Handled.failed ?_ (BindsFound.trans binds (destroy_binds manager _ _ _)) rfl
    simp only [Rooms.destroy, Rooms.Delete_Sessions, sameRooms, Rooms.Insert_User_Info,
      StdMap.erase_insert]
  · rename_i bound temp1 temp2 binding
    obtain ⟨sameRooms, binds, found⟩ := bindUsers_ok binding
    obtain ⟨rfl, rfl⟩ := found temp1 temp2 rfl
    obtain ⟨told, telling, done⟩ := Exec.bind_ok done
    obtain ⟨others, tellingOthers, done⟩ := Exec.bind_ok done
    cases done
    have quiet := sendTo_quiet .ChattingServer telling
    have quietOthers := sendTo_quiet .ChattingServer tellingOthers
    obtain ⟨first, usedFirst, -⟩ := Exec.bind_ok telling
    obtain ⟨second, usedSecond, -⟩ := Exec.bind_ok tellingOthers
    refine Handled.started sameRooms binds usedFirst usedSecond ?_
    rw [toTerminal_append, quiet, quietOthers]
    rfl

end InGameServer

end GraduationServer
