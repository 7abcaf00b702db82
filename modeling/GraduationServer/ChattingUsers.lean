import GraduationServer.ChattingProcess

/-!
The users of the chat and the whole table of `ChattingProcess`. The names are
converted by the code page of the system, which is a parameter.
-/

namespace GraduationServer

/-- What the two functions leave in a destination of 64 characters, of which
they are told so many. The source ends where its terminator stands. -/
structure CodePage where
  MultiByteToWideChar : Str → Nat → List UInt16
  WideCharToMultiByte : WStr → Nat → List UInt8

def terminated {Char : Type} [DecidableEq Char] (terminator : Char) (buffer : List Char) :
    Exec (List Char) :=
  if terminator ∈ buffer then .ok (buffer.takeWhile (· ≠ terminator)) else .error .outOfBounds

def StrConvA2W (codePage : CodePage) (src : Str) : Exec WStr :=
  terminated 0 (codePage.MultiByteToWideChar src (64 - 1))

def StrConvW2A (codePage : CodePage) (src : WStr) : Exec Str :=
  terminated 0 (codePage.WideCharToMultiByte src 64)

namespace ChattingServer

structure User where
  session_ : SessionPtr
  name_ : WStr
  deriving DecidableEq

/-- `userPool_` of the `UserManager`. Its `at` asks `lower_bound`, which on an
`unordered_map` finds the key itself or nothing. -/
structure Process where
  lobby : LobbyManager
  userPool_ : StdMap.Map oid_t User

def C_REQ_REGIST_CHATTING_NAME (codePage : CodePage) (userPool_ : StdMap.Map oid_t User)
    (manager : SessionManager) (session : SessionPtr) (name_ : Str) :
    Exec (StdMap.Map oid_t User) := do
  let object ← manager.deref session
  let userName ← StrConvA2W codePage (Stream.cString name_)
  return StdMap.insert userPool_ object.id_ { session_ := session, name_ := userName }

def C_REQ_CHATTING (codePage : CodePage) (process : Process) (manager : SessionManager)
    (session : SessionPtr) (text_ : Str) : Exec (List (Receiver × Packet)) := do
  let object ← manager.deref session
  match process.userPool_ object.id_ with
  | none => .error .nullPointer
  | some user =>
      let name ← StrConvW2A codePage user.name_
      broadcast manager (.PK_S_ANS_CHATTING name text_) process.lobby.session_storage

def C_REQ_EXIT (userPool_ : StdMap.Map oid_t User) (manager : SessionManager)
    (session : SessionPtr) : Exec (StdMap.Map oid_t User × List (Receiver × Packet)) := do
  let object ← manager.deref session
  return (StdMap.erase userPool_ object.id_, [(.session session, .PK_S_ANS_EXIT)])

def refuses (process : Process) (manager : SessionManager) (session : SessionPtr) :
    Packet → Exec Bool
  | .PK_C_REQ_REGIST_CHATTING_NAME _ => do
      let object ← manager.deref session
      return (process.userPool_ object.id_).isSome
  | .PK_C_REQ_CHATTING _ => do
      let object ← manager.deref session
      return (process.userPool_ object.id_).isNone
  | .PK_C_REQ_EXIT => do
      let object ← manager.deref session
      return (process.userPool_ object.id_).isNone
  | _ => .ok false

def handle (codePage : CodePage) (inGameServer : Terminal) (process : Process)
    (manager : SessionManager) (session : SessionPtr) :
    Packet → Exec (Process × List (Receiver × Packet))
  | .PK_I_CHTTING_NOTIFY_ID clientId_ oidAccountId_ =>
      .ok (process, I_CHTTING_NOTIFY_ID clientId_ oidAccountId_)
  | .PK_I_DB_ANS_PARSE_DATA clientId_ name_ result_ =>
      .ok (process, I_DB_ANS_PARSE_DATA clientId_ name_ result_)
  | .PK_C_REQ_REGIST_CHATTING_NAME name_ => do
      let userPool_ ←
        C_REQ_REGIST_CHATTING_NAME codePage process.userPool_ manager session name_
      return ({ process with userPool_ }, [])
  | .PK_C_REQ_CHATTING text_ => do
      return (process, ← C_REQ_CHATTING codePage process manager session text_)
  | .PK_C_REQ_EXIT => do
      let (userPool_, sent) ← C_REQ_EXIT process.userPool_ manager session
      return ({ process with userPool_ }, sent)
  | .PK_C_REQ_LOBBY_INFO _ _ => do
      let (lobby, sent) ← C_REQ_LOBBY_INFO process.lobby manager session
      return ({ process with lobby }, sent)
  | .PK_C_REQ_ENTER_ROOM member_count Room_num => do
      let (lobby, sent) ←
        C_REQ_ENTER_ROOM process.lobby inGameServer manager session member_count Room_num
      return ({ process with lobby }, sent)
  | .PK_I_INITIALIZE_ROOMMEMBER room_num member_count => do
      let lobby ← I_INITIALIZE_ROOMMEMBER process.lobby room_num member_count
      return ({ process with lobby }, [])
  | _ => .error .notEnabled

def subFunc (codePage : CodePage) (inGameServer : Terminal) : SubFunc Process :=
  { refuses := refuses, handle := handle codePage inGameServer }

/-- The handler for `E_C_REQ_EXIT` stays the default one, which is in the table
already. -/
def registSubPacketFunc (codePage : CodePage) (inGameServer : Terminal) : RunFuncTable Process :=
  let func := subFunc codePage inGameServer
  ContentsProcess.registSubPacketFunc [
    (.E_I_CHTTING_NOTIFY_ID, func),
    (.E_I_DB_ANS_PARSE_DATA, func),
    (.E_C_REQ_REGIST_CHATTING_NAME, func),
    (.E_C_REQ_CHATTING, func),
    (.E_C_REQ_EXIT, func),
    (.E_C_REQ_LOBBY_INFO, func),
    (.E_C_REQ_ENTER_ROOM, func),
    (.E_I_INITIALIZE_ROOMMEMBER, func)]

/-! Which sessions the lobby and the users hold. -/

inductive Holds (process : Process) (session : SessionPtr) : Prop
  | stored {key : oid_t} : (key, session) ∈ process.lobby.session_storage → Holds process session
  | seated {key : Int32} {room : Room} : process.lobby.room_array key = some room →
      session ≠ 0 → session = room.user1 ∨ session = room.user2 → Holds process session
  | named {key : oid_t} {user : User} : process.userPool_ key = some user →
      user.session_ = session → Holds process session

theorem mem_insertSession {key : oid_t} {session : SessionPtr}
    {storage : List (oid_t × SessionPtr)} {entry : oid_t × SessionPtr}
    (member : entry ∈ LobbyManager.insertSession key session storage) :
    entry ∈ storage ∨ entry = (key, session) := by
  induction storage with
  | nil => exact Or.inr (by simpa [LobbyManager.insertSession] using member)
  | cons first rest ih =>
      obtain ⟨other, present⟩ := first
      rw [LobbyManager.insertSession] at member
      split_ifs at member
      · exact (List.mem_cons.mp member).symm
      · exact Or.inl member
      · rcases List.mem_cons.mp member with rfl | later
        · exact Or.inl List.mem_cons_self
        · exact (ih later).imp_left (List.mem_cons_of_mem _)

theorem C_REQ_ENTER_ROOM_storage {lobby after : LobbyManager} {terminal : Terminal}
    {manager : SessionManager} {session : SessionPtr} {member_count Room_num : UInt64}
    {sent : List (Receiver × Packet)}
    (done : C_REQ_ENTER_ROOM lobby terminal manager session member_count Room_num =
      .ok (after, sent)) : after.session_storage.Sublist lobby.session_storage := by
  obtain ⟨room, -, done⟩ := Exec.bind_ok done
  split at done
  · cases done
    exact List.Sublist.refl _
  · obtain ⟨_, -, done⟩ := Exec.bind_ok done
    obtain ⟨told, -, done⟩ := Exec.bind_ok done
    dsimp only at done
    split at done
    · obtain ⟨⟨handed, others⟩, handing, done⟩ := Exec.bind_ok done
      cases done
      obtain ⟨user1, -, handing⟩ := Exec.bind_ok handing
      obtain ⟨user2, -, handing⟩ := Exec.bind_ok handing
      obtain ⟨⟨left, notified⟩, -, handing⟩ := Exec.bind_ok handing
      cases handing
      exact List.filter_sublist
    · cases done
      exact List.Sublist.refl _

theorem addMember_seats {room : Room} {session other : SessionPtr} {member_count : UInt64}
    (sits : other = (addMember room session member_count).user1 ∨
      other = (addMember room session member_count).user2) :
    (other = room.user1 ∨ other = room.user2) ∨ other = session := by
  rw [addMember] at sits
  dsimp only at sits
  split at sits
  · rcases sits with new | second
    · exact Or.inr new
    · exact Or.inl (Or.inr second)
  · rcases sits with first | new
    · exact Or.inl (Or.inl first)
    · exact Or.inr new

section

variable {codePage : CodePage} {inGameServer : Terminal} {process after : Process}
variable {manager : SessionManager} {session other : SessionPtr} {sent : List (Receiver × Packet)}

theorem regist_holds {name_ : Str} {userPool_ : StdMap.Map oid_t User}
    (done : C_REQ_REGIST_CHATTING_NAME codePage process.userPool_ manager session name_ =
      .ok userPool_) (holds : Holds { process with userPool_ } other) :
    Holds process other ∨ other = session ∧ ∃ object, manager.deref session = .ok object := by
  obtain ⟨object, used, done⟩ := Exec.bind_ok done
  obtain ⟨userName, -, done⟩ := Exec.bind_ok done
  cases done
  cases holds with
  | stored member => exact Or.inl (Holds.stored member)
  | seated found notNull sits => exact Or.inl (Holds.seated found notNull sits)
  | named found same =>
      rcases StdMap.insert_some found with earlier | ⟨-, rfl⟩
      · exact Or.inl (Holds.named earlier same)
      · exact Or.inr ⟨same.symm, object, used⟩

theorem exit_holds {userPool_ : StdMap.Map oid_t User}
    (done : C_REQ_EXIT process.userPool_ manager session = .ok (userPool_, sent))
    (holds : Holds { process with userPool_ } other) : Holds process other := by
  obtain ⟨object, -, done⟩ := Exec.bind_ok done
  cases done
  cases holds with
  | stored member => exact Holds.stored member
  | seated found notNull sits => exact Holds.seated found notNull sits
  | named found same => exact Holds.named (StdMap.erase_some found) same

theorem lobbyInfo_holds {lobby : LobbyManager}
    (done : C_REQ_LOBBY_INFO process.lobby manager session = .ok (lobby, sent))
    (holds : Holds { process with lobby } other) :
    Holds process other ∨ other = session ∧ ∃ object, manager.deref session = .ok object := by
  obtain ⟨object, used, done⟩ := Exec.bind_ok done
  cases done
  cases holds with
  | stored member =>
      rcases mem_insertSession member with earlier | new
      · exact Or.inl (Holds.stored earlier)
      · cases new
        exact Or.inr ⟨rfl, object, used⟩
  | seated found notNull sits => exact Or.inl (Holds.seated found notNull sits)
  | named found same => exact Or.inl (Holds.named found same)

theorem enterRoom_holds {lobby : LobbyManager} {member_count Room_num : UInt64}
    (done : C_REQ_ENTER_ROOM process.lobby inGameServer manager session member_count Room_num =
      .ok (lobby, sent)) (holds : Holds { process with lobby } other) :
    Holds process other ∨ other = session ∧ ∃ object, manager.deref session = .ok object := by
  cases holds with
  | stored member =>
      exact Or.inl (Holds.stored ((C_REQ_ENTER_ROOM_storage done).subset member))
  | named found same => exact Or.inl (Holds.named found same)
  | seated found notNull sits =>
      cases C_REQ_ENTER_ROOM_ok done with
      | refused _ _ same _ =>
          rw [same] at found
          exact Or.inl (Holds.seated found notNull sits)
      | waiting there _ used _ assigned _ =>
          rw [assigned] at found
          rcases StdMap.assign_some found with earlier | ⟨rfl, rfl⟩
          · exact Or.inl (Holds.seated earlier notNull sits)
          · rcases addMember_seats sits with before | rfl
            · exact Or.inl (Holds.seated there notNull before)
            · exact Or.inr ⟨rfl, _, used⟩
      | started _ _ _ _ _ assigned _ =>
          rw [assigned] at found
          rcases StdMap.assign_some found with earlier | ⟨rfl, rfl⟩
          · exact Or.inl (Holds.seated earlier notNull sits)
          · rcases sits with free | free <;> exact absurd free notNull

theorem initializeRoom_holds {lobby : LobbyManager} {room_num member_count : UInt64}
    (done : I_INITIALIZE_ROOMMEMBER process.lobby room_num member_count = .ok lobby)
    (holds : Holds { process with lobby } other) : Holds process other := by
  obtain ⟨room, found, done⟩ := Exec.bind_ok done
  cases done
  cases holds with
  | stored member => exact Holds.stored member
  | named found same => exact Holds.named found same
  | seated held notNull sits =>
      rcases StdMap.assign_some held with earlier | ⟨rfl, rfl⟩
      · exact Holds.seated earlier notNull sits
      · exact Holds.seated (at_ok found) notNull sits

theorem handle_holds {packet : Packet}
    (handled : handle codePage inGameServer process manager session packet = .ok (after, sent))
    (holds : Holds after other) :
    Holds process other ∨ other = session ∧ ∃ object, manager.deref session = .ok object := by
  cases packet with
  | PK_I_CHTTING_NOTIFY_ID =>
      cases handled
      exact Or.inl holds
  | PK_I_DB_ANS_PARSE_DATA =>
      cases handled
      exact Or.inl holds
  | PK_C_REQ_REGIST_CHATTING_NAME =>
      obtain ⟨userPool_, done, handled⟩ := Exec.bind_ok handled
      cases handled
      exact regist_holds done holds
  | PK_C_REQ_CHATTING =>
      obtain ⟨told, -, handled⟩ := Exec.bind_ok handled
      cases handled
      exact Or.inl holds
  | PK_C_REQ_EXIT =>
      obtain ⟨⟨userPool_, answer⟩, done, handled⟩ := Exec.bind_ok handled
      cases handled
      exact Or.inl (exit_holds done holds)
  | PK_C_REQ_LOBBY_INFO =>
      obtain ⟨⟨lobby, answers⟩, done, handled⟩ := Exec.bind_ok handled
      cases handled
      exact lobbyInfo_holds done holds
  | PK_C_REQ_ENTER_ROOM =>
      obtain ⟨⟨lobby, told⟩, done, handled⟩ := Exec.bind_ok handled
      cases handled
      exact enterRoom_holds done holds
  | PK_I_INITIALIZE_ROOMMEMBER =>
      obtain ⟨lobby, done, handled⟩ := Exec.bind_ok handled
      cases handled
      exact Or.inl (initializeRoom_holds done holds)
  | _ => cases handled

end

end ChattingServer

end GraduationServer
