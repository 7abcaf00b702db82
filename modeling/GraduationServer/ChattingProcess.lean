import GraduationServer.ContentsProcess

/-!
`LobbyValue` and the lobby handlers of `ChattingProcess`: clients enter rooms
of two, and a room that is full is handed over to the InGameServer.
-/

namespace GraduationServer

namespace ChattingServer

structure Room where
  Current_member_in_room : Int32
  user1 : SessionPtr
  user2 : SessionPtr
  deriving DecidableEq

/-- `session_storage` is in the order of its keys. -/
structure LobbyManager where
  total_room_num : Int32
  session_storage : List (oid_t × SessionPtr)
  room_array : StdMap.Map Int32 Room

namespace LobbyManager

def Init (num : Int32) : LobbyManager :=
  { total_room_num := num
    session_storage := []
    room_array := fun key =>
      if 0 ≤ key ∧ key < num then some { Current_member_in_room := 0, user1 := 0, user2 := 0 }
      else none }

def insertSession (key : oid_t) (session : SessionPtr) :
    List (oid_t × SessionPtr) → List (oid_t × SessionPtr)
  | [] => [(key, session)]
  | (other, present) :: rest =>
      if key < other then (key, session) :: (other, present) :: rest
      else if key = other then (other, present) :: rest
      else (other, present) :: insertSession key session rest

def at_ (lobby : LobbyManager) (key : Int32) : Exec Room :=
  match lobby.room_array key with
  | none => .error .nullPointer
  | some room => .ok room

def put (lobby : LobbyManager) (key : Int32) (room : Room) : LobbyManager :=
  { lobby with room_array := StdMap.assign lobby.room_array key room }

end LobbyManager

def I_CHTTING_NOTIFY_ID (clientId_ oidAccountId_ : UInt64) : List (Receiver × Packet) :=
  [(.terminal .DBAgent, .PK_I_DB_REQ_LOAD_DATA clientId_ oidAccountId_)]

def I_DB_ANS_PARSE_DATA (clientId_ : UInt64) (name_ : Str) (result_ : UInt8) :
    List (Receiver × Packet) :=
  [(.terminal .LoginServer, .PK_I_LOGIN_NOTIFY_ID_LOADED clientId_ name_ result_)]

def C_REQ_LOBBY_INFO (lobby : LobbyManager) (manager : SessionManager) (session : SessionPtr) :
    Exec (LobbyManager × List (Receiver × Packet)) := do
  let object ← manager.deref session
  let session_storage :=
    LobbyManager.insertSession object.id_ session lobby.session_storage
  let rooms := (List.range lobby.total_room_num.toNatClampNeg).filterMap fun number =>
    lobby.room_array (Int32.ofNat number)
  let answers := rooms.zipIdx.map fun (room, roomnum_) =>
    (Receiver.session session, Packet.PK_S_ANS_LOBBY_INFO
      room.Current_member_in_room.toInt64.toUInt64 (UInt64.ofNat roomnum_))
  return ({ lobby with session_storage }, answers)

def addMember (room : Room) (session : SessionPtr) (member_count : UInt64) : Room :=
  let room := { room with Current_member_in_room := toInt (member_count + 1) }
  if room.user1 = 0 then { room with user1 := session } else { room with user2 := session }

def broadcast (manager : SessionManager) (packet : Packet) :
    List (oid_t × SessionPtr) → Exec (List (Receiver × Packet))
  | [] => .ok []
  | (_, session) :: rest => do
      let _ ← manager.deref session
      let sent ← broadcast manager packet rest
      return (.session session, packet) :: sent

/-- The loop that tells both members where the InGameServer is. The comparison
with `NULL` stands inside the call, so it looks for the sessions 1 and 0. -/
def notifyUsers (manager : SessionManager) (packet : Packet) :
    Nat → Room → Exec (Room × List (Receiver × Packet))
  | 0, _ => .error .endlessLoop
  | fuel + 1, room =>
      match manager.session (if room.user1 ≠ 0 then 1 else 0) with
      | some _ => do
          let user1 ← manager.deref room.user1
          match manager.session user1.id_ with
          | none => .error .nullPointer
          | some again =>
              let (left, sent) ← notifyUsers manager packet fuel { room with user1 := 0 }
              return (left, (.session room.user1, packet) :: (.session again.address, packet) :: sent)
      | none => do
          let _ ← manager.deref room.user2
          return ({ room with user2 := 0 }, [(.session room.user2, packet)])

def handOver (lobby : LobbyManager) (terminal : Terminal) (manager : SessionManager) (room : Room)
    (Room_num : UInt64) : Exec (LobbyManager × List (Receiver × Packet)) := do
  let user1 ← manager.deref room.user1
  let user2 ← manager.deref room.user2
  let notification := Packet.PK_S_NOTIFY_SERVER_IP terminal.ip_ terminal.port_
  let (room, notified) ← notifyUsers manager notification 2 room
  let lobby := lobby.put (toInt Room_num) { room with user1 := 0 }
  let session_storage := lobby.session_storage.filter fun entry =>
    entry.1 ≠ user1.id_ ∧ entry.1 ≠ user2.id_
  return ({ lobby with session_storage },
    notified ++ [(.terminal .InGameServer, .PK_I_USER_INFO Room_num user1.id_ user2.id_)])

def C_REQ_ENTER_ROOM (lobby : LobbyManager) (terminal : Terminal) (manager : SessionManager)
    (session : SessionPtr) (member_count Room_num : UInt64) :
    Exec (LobbyManager × List (Receiver × Packet)) := do
  let room ← lobby.at_ (toInt Room_num)
  if 2 ≤ room.Current_member_in_room then return (lobby, [])
  else
    let room := addMember room session member_count
    let retpacket := Packet.PK_S_ANS_ENTER_ROOM
      room.Current_member_in_room.toInt64.toUInt64 Room_num
    let _ ← manager.deref session
    let told ← broadcast manager retpacket lobby.session_storage
    let lobby := lobby.put (toInt Room_num) room
    if room.Current_member_in_room = 2 then
      let (lobby, sent) ← handOver lobby terminal manager room Room_num
      return (lobby, told ++ sent)
    else return (lobby, told)

def I_INITIALIZE_ROOMMEMBER (lobby : LobbyManager) (room_num member_count : UInt64) :
    Exec LobbyManager := do
  let room ← lobby.at_ (toInt room_num)
  return lobby.put (toInt room_num) { room with Current_member_in_room := toInt member_count }

/-! What entering a room can do. -/

theorem at_ok {lobby : LobbyManager} {key : Int32} {room : Room}
    (found : lobby.at_ key = .ok room) : lobby.room_array key = some room := by
  rw [LobbyManager.at_] at found
  split at found
  · simp at found
  · rename_i same
    rw [same, Except.ok.inj found]

theorem broadcast_toTerminal {manager : SessionManager} {packet : Packet}
    {storage : List (oid_t × SessionPtr)} {sent : List (Receiver × Packet)} (name : ServerName)
    (done : broadcast manager packet storage = .ok sent) : toTerminal name sent = [] := by
  induction storage generalizing sent with
  | nil =>
      cases done
      rfl
  | cons entry rest ih =>
      obtain ⟨_, -, done⟩ := Exec.bind_ok done
      obtain ⟨others, told, done⟩ := Exec.bind_ok done
      cases done
      simpa [toTerminal] using ih told

/-- Two turns are enough: the second starts with `user1` cleared, and ends or
uses the null pointer. -/
theorem notifyUsers_ok {manager : SessionManager} {packet : Packet} {room left : Room}
    {sent : List (Receiver × Packet)} (name : ServerName)
    (done : notifyUsers manager packet 2 room = .ok (left, sent)) :
    left.Current_member_in_room = room.Current_member_in_room ∧ left.user2 = 0 ∧
      toTerminal name sent = [] := by
  rw [notifyUsers] at done
  split at done
  · obtain ⟨user1, -, done⟩ := Exec.bind_ok done
    split at done
    · simp at done
    · obtain ⟨⟨last, rest⟩, again, done⟩ := Exec.bind_ok done
      cases done
      rw [notifyUsers] at again
      split at again
      · obtain ⟨_, null, -⟩ := Exec.bind_ok again
        simp [SessionManager.deref] at null
      · obtain ⟨_, -, again⟩ := Exec.bind_ok again
        cases again
        exact ⟨rfl, rfl, by simp [toTerminal]⟩
  · obtain ⟨_, -, done⟩ := Exec.bind_ok done
    cases done
    exact ⟨rfl, rfl, by simp [toTerminal]⟩

/-- What a session's `C_REQ_ENTER_ROOM` does when nothing faults: the room is
full, or has one more member, or is handed over and emptied. -/
inductive Entered (lobby : LobbyManager) (manager : SessionManager) (session : SessionPtr)
    (member_count Room_num : UInt64) (after : LobbyManager) (sent : List (Receiver × Packet)) :
    Prop
  | refused {room : Room} : lobby.room_array (toInt Room_num) = some room →
      2 ≤ room.Current_member_in_room → after = lobby → sent = [] →
      Entered lobby manager session member_count Room_num after sent
  | waiting {room : Room} {sender : Session} :
      lobby.room_array (toInt Room_num) = some room →
      ¬ 2 ≤ room.Current_member_in_room → manager.deref session = .ok sender →
      (addMember room session member_count).Current_member_in_room ≠ 2 →
      after.room_array = StdMap.assign lobby.room_array (toInt Room_num)
        (addMember room session member_count) →
      (∀ name, toTerminal name sent = []) →
      Entered lobby manager session member_count Room_num after sent
  | started {room : Room} {user1 user2 : Session} :
      lobby.room_array (toInt Room_num) = some room →
      ¬ 2 ≤ room.Current_member_in_room →
      (addMember room session member_count).Current_member_in_room = 2 →
      manager.deref (addMember room session member_count).user1 = .ok user1 →
      manager.deref (addMember room session member_count).user2 = .ok user2 →
      after.room_array = StdMap.assign lobby.room_array (toInt Room_num)
        { Current_member_in_room := 2, user1 := 0, user2 := 0 } →
      toTerminal .InGameServer sent = [.PK_I_USER_INFO Room_num user1.id_ user2.id_] →
      Entered lobby manager session member_count Room_num after sent

theorem C_REQ_ENTER_ROOM_ok {lobby after : LobbyManager} {terminal : Terminal}
    {manager : SessionManager} {session : SessionPtr} {member_count Room_num : UInt64}
    {sent : List (Receiver × Packet)}
    (done : C_REQ_ENTER_ROOM lobby terminal manager session member_count Room_num =
      .ok (after, sent)) :
    Entered lobby manager session member_count Room_num after sent := by
  obtain ⟨room, found, done⟩ := Exec.bind_ok done
  replace found := at_ok found
  by_cases full : 2 ≤ room.Current_member_in_room
  · simp only [full, if_true] at done
    cases done
    exact Entered.refused found full rfl rfl
  · simp only [full, if_false] at done
    obtain ⟨sender, used, done⟩ := Exec.bind_ok done
    obtain ⟨told, broadcasted, done⟩ := Exec.bind_ok done
    by_cases started : (addMember room session member_count).Current_member_in_room = 2
    · simp only [started, if_true] at done
      obtain ⟨⟨lobby', handed⟩, handing, done⟩ := Exec.bind_ok done
      cases done
      obtain ⟨user1, first, handing⟩ := Exec.bind_ok handing
      obtain ⟨user2, second, handing⟩ := Exec.bind_ok handing
      obtain ⟨⟨left, notified⟩, notifying, handing⟩ := Exec.bind_ok handing
      cases handing
      obtain ⟨count, cleared, nothing⟩ := notifyUsers_ok .InGameServer notifying
      have emptied : ({ left with user1 := 0 } : Room) =
          { Current_member_in_room := 2, user1 := 0, user2 := 0 } := by
        rw [cleared, count, started]
      refine Entered.started found full started first second ?_ ?_
      · simp only [LobbyManager.put, emptied, StdMap.assign_assign]
      · rw [toTerminal_append, toTerminal_append, broadcast_toTerminal _ broadcasted, nothing]
        simp [toTerminal]
    · simp only [started, if_false] at done
      cases done
      exact Entered.waiting found full used started rfl
        fun name => broadcast_toTerminal name broadcasted

end ChattingServer

end GraduationServer
