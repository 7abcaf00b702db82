import GraduationServer.InGameProcess
import GraduationServer.Library.InFlight
import GraduationServer.LobbyOccupancy

/-!
The ChattingServer and the InGameServer with the packets between them. A room
of the lobby that has started has exactly one game: announced, held by the
InGameServer, or ended and on its way back.
-/

namespace GraduationServer

open InGameServer (Rooms)
open ChattingServer (Chat)

/-- A `PK_I_USER_INFO` in flight, with the clients whose sessions were `user1`
and `user2` of the room. -/
structure Handover where
  packet : Packet
  user1 : Nat
  user2 : Nat

/-- `bound` records, for each member of each game that has started, the client
that entered the lobby's room and the client bound to the game. `chatIds` and
`gameIds` record the ids that the two servers have given, with the clients. -/
structure GameSystem where
  chat : Chat
  userInfos : List Handover
  game : SessionManager
  rooms : Rooms
  initializations : List Packet
  bound : List (Nat × Nat)
  chatIds : List (oid_t × Nat)
  gameIds : List (oid_t × Nat)

namespace GameSystem

inductive Event where
  | chat (event : Chat.Event)
  | accept (session : SessionPtr) (addrInfo_ : Nat)
  | disconnected (session : SessionPtr)
  | request (session : SessionPtr) (packet : Packet)
  | I_USER_INFO (index : Nat)
  | I_INITIALIZE_ROOMMEMBER (index : Nat)

def initial (maxConnection : Int) (rooms : Int32) : GameSystem :=
  { chat := Chat.initial maxConnection rooms
    userInfos := []
    game := SessionManager.init maxConnection
    rooms := Rooms.initial
    initializations := []
    bound := []
    chatIds := []
    gameIds := [] }

def numbered (manager : SessionManager) : List (oid_t × Nat) :=
  manager.sessionList_.map fun object => (object.id_, object.addrInfo_)

def seated (chat : Chat) : Chat.Event → Nat × Nat
  | .C_REQ_ENTER_ROOM session member_count Room_num =>
      match chat.lobby.room_array (toInt Room_num) with
      | none => (0, 0)
      | some room =>
          let room := ChattingServer.addMember room session member_count
          (chat.manager.clientOf room.user1, chat.manager.clientOf room.user2)
  | _ => (0, 0)

/-- The ChattingServer serves its clients; only the InGameServer resets rooms. -/
def serveChat (inGameServer : Terminal) (system : GameSystem) (event : Chat.Event) :
    Exec GameSystem := do
  let (chat, sent) ← system.chat.serve inGameServer event
  let (user1, user2) := seated system.chat event
  let handovers := (toTerminal .InGameServer sent).map fun packet => { packet, user1, user2 }
  return { system with
    chat
    userInfos := system.userInfos ++ handovers
    chatIds := system.chatIds ++ numbered chat.manager }

def step (inGameServer chattingServer : Terminal) (system : GameSystem) :
    Event → Exec GameSystem
  | .chat (.I_INITIALIZE_ROOMMEMBER _ _) => .error .notEnabled
  | .chat event => system.serveChat inGameServer event
  | .accept session addrInfo_ => do
      let game ← system.game.accept session addrInfo_
      return { system with game, gameIds := system.gameIds ++ numbered game }
  | .disconnected session =>
      if system.game.registered session then
        .ok { system with game := system.game.closeSession session }
      else .error .notEnabled
  | .request session packet => do
      let (rooms, sent) ← InGameServer.request system.rooms chattingServer system.game session packet
      return { system with
        rooms
        initializations := system.initializations ++ toTerminal .ChattingServer sent }
  | .I_USER_INFO index =>
      match InFlight.take system.userInfos index with
      | some ({ packet := .PK_I_USER_INFO room_Num User1_ID User2_ID, user1, user2 }, userInfos) => do
          let (rooms, sent) ←
            InGameServer.I_USER_INFO system.rooms system.game room_Num User1_ID User2_ID
          let members := [
            (user1, system.game.clientOf (rooms.Find_sessions User1_ID)),
            (user2, system.game.clientOf (rooms.Find_sessions User2_ID))]
          return { system with
            rooms
            userInfos
            initializations := system.initializations ++ toTerminal .ChattingServer sent
            bound := system.bound ++ if toTerminal .ChattingServer sent = [] then members else [] }
      | _ => .error .notEnabled
  | .I_INITIALIZE_ROOMMEMBER index =>
      match InFlight.take system.initializations index with
      | some (.PK_I_INITIALIZE_ROOMMEMBER room_num member_count, initializations) => do
          let (chat, _) ←
            system.chat.serve inGameServer (.I_INITIALIZE_ROOMMEMBER room_num member_count)
          return { system with chat, initializations }
      | _ => .error .notEnabled

/-! One game for each started room. -/

def isUserInfo (key : Int32) : Packet → Bool
  | .PK_I_USER_INFO room_Num _ _ => toInt room_Num = key
  | _ => false

def isInitialize (key : Int32) : Packet → Bool
  | .PK_I_INITIALIZE_ROOMMEMBER room_num _ => toInt room_num = key
  | _ => false

@[simp] theorem isUserInfo_userInfo (key : Int32) (room_Num User1_ID User2_ID : UInt64) :
    isUserInfo key (.PK_I_USER_INFO room_Num User1_ID User2_ID) = decide (toInt room_Num = key) :=
  rfl

@[simp] theorem isInitialize_initialize (key : Int32) (room_num member_count : UInt64) :
    isInitialize key (.PK_I_INITIALIZE_ROOMMEMBER room_num member_count) =
      decide (toInt room_num = key) :=
  rfl

def games (system : GameSystem) (key : Int32) : Nat :=
  system.userInfos.countP (fun handover => isUserInfo key handover.packet) +
    (if (system.rooms.roomArr key).isSome then 1 else 0) +
    system.initializations.countP (isInitialize key)

structure Agreement (rooms : Int32) (system : GameSystem) : Prop where
  configured : ∀ key, 0 ≤ key → key < rooms →
    ∃ room, system.chat.lobby.room_array key = some room
  conserved : ∀ key room, system.chat.lobby.room_array key = some room →
    system.games key = if room.Current_member_in_room = 2 then 1 else 0
  announced : ∀ handover ∈ system.userInfos, ∃ room_Num User1_ID User2_ID room,
    handover.packet = .PK_I_USER_INFO room_Num User1_ID User2_ID ∧
      system.chat.lobby.room_array (toInt room_Num) = some room
  resets : ∀ packet ∈ system.initializations,
    ∃ room_num, packet = .PK_I_INITIALIZE_ROOMMEMBER room_num 0

theorem initial_agreement (maxConnection : Int) (rooms : Int32) :
    Agreement rooms (initial maxConnection rooms) := by
  refine ⟨?_, ?_, ?_, ?_⟩
  · intro key lower upper
    exact ⟨{ Current_member_in_room := 0, user1 := 0, user2 := 0 },
      by simp [initial, Chat.initial, ChattingServer.LobbyManager.Init, lower, upper]⟩
  · intro key room found
    simp only [initial, Chat.initial, ChattingServer.LobbyManager.Init] at found
    split at found
    · cases found
      rfl
    · simp at found
  · intro handover member
    simp [initial] at member
  · intro packet member
    simp [initial] at member

theorem Agreement.no_game {rooms : Int32} {system : GameSystem}
    (agreement : Agreement rooms system) {key : Int32}
    {room : ChattingServer.Room} (found : system.chat.lobby.room_array key = some room)
    (open_ : ¬ 2 ≤ room.Current_member_in_room) : system.games key = 0 := by
  rw [agreement.conserved key room found, if_neg]
  intro full
  rw [full] at open_
  exact open_ (by decide)

theorem Agreement.frame {rooms : Int32} {system after : GameSystem}
    (agreement : Agreement rooms system)
    (lobby : after.chat.lobby.room_array = system.chat.lobby.room_array)
    (games : ∀ key room, system.chat.lobby.room_array key = some room →
      after.games key = system.games key)
    (announced : ∀ handover ∈ after.userInfos, handover ∈ system.userInfos)
    (resets : ∀ packet ∈ after.initializations, packet ∈ system.initializations ∨
      ∃ room_num, packet = .PK_I_INITIALIZE_ROOMMEMBER room_num 0) : Agreement rooms after := by
  refine ⟨?_, ?_, ?_, ?_⟩
  · rw [lobby]
    exact agreement.configured
  · intro key room found
    rw [lobby] at found
    rw [games key room found]
    exact agreement.conserved key room found
  · intro handover member
    rw [lobby]
    exact agreement.announced handover (announced handover member)
  · intro packet member
    exact (resets packet member).elim (agreement.resets packet) id

theorem Agreement.assign {rooms : Int32} {system after : GameSystem} {key : Int32}
    {room : ChattingServer.Room} (agreement : Agreement rooms system)
    (lobby : after.chat.lobby.room_array = StdMap.assign system.chat.lobby.room_array key room)
    (conserved : after.games key = if room.Current_member_in_room = 2 then 1 else 0)
    (others : ∀ other, other ≠ key → after.games other = system.games other)
    (announced : ∀ handover ∈ after.userInfos, handover ∈ system.userInfos ∨
      ∃ room_Num User1_ID User2_ID,
        handover.packet = .PK_I_USER_INFO room_Num User1_ID User2_ID ∧ toInt room_Num = key)
    (resets : ∀ packet ∈ after.initializations, packet ∈ system.initializations) :
    Agreement rooms after := by
  refine ⟨?_, ?_, ?_, fun packet member => agreement.resets packet (resets packet member)⟩
  · intro other lower upper
    rw [lobby]
    obtain ⟨found, held⟩ := agreement.configured other lower upper
    exact StdMap.assign_keeps key room held
  · intro other found held
    rw [lobby] at held
    by_cases same : other = key
    · subst same
      rw [StdMap.assign_same] at held
      cases held
      exact conserved
    · rw [StdMap.assign_other same] at held
      rw [others other same]
      exact agreement.conserved other found held
  · intro handover member
    rw [lobby]
    rcases announced handover member with earlier | ⟨room_Num, User1_ID, User2_ID, packet, rfl⟩
    · obtain ⟨room_Num, User1_ID, User2_ID, present, packet, held⟩ :=
        agreement.announced handover earlier
      obtain ⟨kept, assigned⟩ := StdMap.assign_keeps key room held
      exact ⟨room_Num, User1_ID, User2_ID, kept, packet, assigned⟩
    · exact ⟨room_Num, User1_ID, User2_ID, room, packet, StdMap.assign_same _ _ _⟩

theorem enter_agreement {rooms : Int32} {inGameServer : Terminal} {system after : GameSystem}
    {session : SessionPtr} {member_count Room_num : UInt64}
    (agreement : Agreement rooms system)
    (taken : system.serveChat inGameServer (.C_REQ_ENTER_ROOM session member_count Room_num) =
      .ok after) : Agreement rooms after := by
  obtain ⟨⟨chat, sent⟩, served, taken⟩ := Exec.bind_ok taken
  cases taken
  obtain ⟨⟨lobby, told⟩, entered, served⟩ := Exec.bind_ok served
  cases served
  cases ChattingServer.C_REQ_ENTER_ROOM_ok entered with
  | refused found full same quiet =>
      subst same quiet
      refine agreement.frame rfl ?_ ?_ (fun _ member => Or.inl member)
      · intro key room _
        simp [games, toTerminal]
      · simp [toTerminal]
  | waiting found admitted used waits assigned quiet =>
      refine agreement.assign assigned ?_ ?_ ?_ (fun _ member => member)
      · rw [if_neg waits]
        simpa [games, quiet] using agreement.no_game found admitted
      · intro other _
        simp [games, quiet]
      · intro handover member
        simp only [quiet, List.map_nil, List.append_nil] at member
        exact Or.inl member
  | started found admitted full first second assigned announced =>
      refine agreement.assign assigned ?_ ?_ ?_ (fun _ member => member)
      · have before := agreement.no_game found admitted
        simp only [games, announced, List.map_cons, List.map_nil, List.countP_append,
          List.countP_singleton, isUserInfo_userInfo, decide_true, if_true] at before ⊢
        omega
      · intro other different
        simp [games, announced, Ne.symm different]
      · intro handover member
        simp only [announced, List.map_cons, List.map_nil, List.mem_append, List.mem_singleton]
          at member
        rcases member with earlier | rfl
        · exact Or.inl earlier
        · exact Or.inr ⟨Room_num, _, _, rfl, rfl⟩

theorem serveChat_agreement {rooms : Int32} {inGameServer : Terminal}
    {system after : GameSystem} {event : Chat.Event} (agreement : Agreement rooms system)
    (notReset : ∀ room_num member_count, event ≠ .I_INITIALIZE_ROOMMEMBER room_num member_count)
    (taken : system.serveChat inGameServer event = .ok after) : Agreement rooms after := by
  by_cases enters : ∃ session member_count Room_num,
      event = .C_REQ_ENTER_ROOM session member_count Room_num
  · obtain ⟨session, member_count, Room_num, rfl⟩ := enters
    exact enter_agreement agreement taken
  · simp only [not_exists] at enters
    obtain ⟨⟨chat, sent⟩, served, taken⟩ := Exec.bind_ok taken
    cases taken
    obtain ⟨sameRooms, quiet⟩ := Chat.serve_quiet served enters notReset
    refine agreement.frame sameRooms ?_ ?_ (fun _ member => Or.inl member)
    · intro key room _
      simp [games, quiet]
    · simp [quiet]

theorem request_agreement {rooms : Int32} {system : GameSystem} {after : Rooms}
    {chattingServer : Terminal} {session : SessionPtr} {packet : Packet} {sent : List (Receiver × Packet)}
    (agreement : Agreement rooms system)
    (done : InGameServer.request system.rooms chattingServer system.game session packet =
      .ok (after, sent)) :
    Agreement rooms { system with
      rooms := after
      initializations := system.initializations ++ toTerminal .ChattingServer sent } := by
  cases InGameServer.request_ok done with
  | kept keys _ quiet =>
      refine agreement.frame rfl ?_ (fun _ member => member) ?_
      · intro key room _
        simp [games, keys, quiet]
      · intro reset member
        rw [quiet, List.append_nil] at member
        exact Or.inl member
  | @ended room_num room held ended announced =>
      subst ended
      refine agreement.frame rfl ?_ (fun _ member => member) ?_
      · intro key room _
        by_cases same : key = toInt room_num
        · subst same
          simp [games, announced, Rooms.destroy, Rooms.Delete_Sessions, held]
          omega
        · simp [games, announced, Rooms.destroy, Rooms.Delete_Sessions, same, Ne.symm same]
      · intro reset member
        simp only [announced, List.mem_append, List.mem_singleton] at member
        exact member.imp id fun same => ⟨room_num, same⟩

theorem Agreement.announced_game {rooms : Int32} {system : GameSystem}
    (agreement : Agreement rooms system) {index : Nat} {rest : List Handover}
    {room_Num User1_ID User2_ID : UInt64} {user1 user2 : Nat}
    (taken : InFlight.take system.userInfos index =
      some ({ packet := .PK_I_USER_INFO room_Num User1_ID User2_ID, user1, user2 }, rest)) :
    rest.countP (fun handover => isUserInfo (toInt room_Num) handover.packet) = 0 ∧
      system.rooms.roomArr (toInt room_Num) = none ∧
      system.initializations.countP (isInitialize (toInt room_Num)) = 0 := by
  obtain ⟨number, _, _, room, same, found⟩ := agreement.announced _ (InFlight.take_mem taken)
  cases same
  have conserved := agreement.conserved _ room found
  have counted := InFlight.countP_take
    (fun handover => isUserInfo (toInt room_Num) handover.packet) taken
  rw [if_pos (by simp)] at counted
  simp only [games] at conserved
  have most : (if room.Current_member_in_room = 2 then 1 else 0) ≤ 1 := by split <;> omega
  refine ⟨by omega, ?_, by omega⟩
  cases held : system.rooms.roomArr (toInt room_Num) with
  | none => rfl
  | some present =>
      simp only [held, Option.isSome_some, if_true] at conserved
      omega

theorem userInfo_agreement {rooms : Int32} {inGameServer chattingServer : Terminal}
    {system after : GameSystem} {index : Nat} (agreement : Agreement rooms system)
    (taken : system.step inGameServer chattingServer (.I_USER_INFO index) = .ok after) :
    Agreement rooms after := by
  rw [step] at taken
  split at taken
  · rename_i room_Num User1_ID User2_ID user1 user2 rest first
    obtain ⟨⟨started, sent⟩, handled, taken⟩ := Exec.bind_ok taken
    cases taken
    obtain ⟨noneAnnounced, absent, noneReset⟩ := agreement.announced_game first
    have earlier : ∀ handover ∈ rest, handover ∈ system.userInfos :=
      fun handover member => InFlight.mem_of_take first member
    have counted := fun key => InFlight.countP_take
      (fun handover => isUserInfo key handover.packet) first
    cases InGameServer.I_USER_INFO_ok handled with
    | started roomArr _ _ _ quiet =>
        refine agreement.frame rfl ?_ earlier ?_
        · intro key room _
          by_cases same : key = toInt room_Num
          · subst same
            simp [games, quiet, roomArr, counted, StdMap.insert_new _ absent, absent]
          · simp [games, quiet, roomArr, counted, same, Ne.symm same]
        · intro packet member
          rw [quiet, List.append_nil] at member
          exact Or.inl member
    | failed roomArr _ announced =>
        refine agreement.frame rfl ?_ earlier ?_
        · intro key room _
          by_cases same : key = toInt room_Num
          · subst same
            simp [games, announced, roomArr, counted, absent]
            omega
          · simp [games, announced, roomArr, counted, same, Ne.symm same]
        · intro packet member
          simp only [announced, List.mem_append, List.mem_singleton] at member
          exact member.imp id fun same => ⟨room_Num, same⟩
  · simp at taken

theorem initialized_agreement {rooms : Int32} {inGameServer chattingServer : Terminal}
    {system after : GameSystem} {index : Nat} (agreement : Agreement rooms system)
    (taken : system.step inGameServer chattingServer (.I_INITIALIZE_ROOMMEMBER index) =
      .ok after) : Agreement rooms after := by
  rw [step] at taken
  split at taken
  · rename_i room_num member_count rest first
    obtain ⟨⟨chat, _⟩, served, taken⟩ := Exec.bind_ok taken
    cases taken
    obtain ⟨lobby, reset, served⟩ := Exec.bind_ok served
    cases served
    obtain ⟨room, found, reset⟩ := Exec.bind_ok reset
    cases reset
    replace found := ChattingServer.at_ok found
    obtain ⟨number, same⟩ := agreement.resets _ (InFlight.take_mem first)
    cases same
    have counted := fun key => InFlight.countP_take (isInitialize key) first
    have conserved := agreement.conserved _ room found
    have most : (if room.Current_member_in_room = 2 then 1 else 0) ≤ 1 := by split <;> omega
    have zero : toInt 0 ≠ 2 := by decide
    refine agreement.assign rfl ?_ ?_ (fun _ member => Or.inl member)
      (fun _ member => InFlight.mem_of_take first member)
    · rw [if_neg zero]
      simp only [games, counted, isInitialize_initialize, decide_true, if_true] at conserved ⊢
      omega
    · intro other different
      simp [games, counted, Ne.symm different]
  · simp at taken

theorem step_agreement {rooms : Int32} {inGameServer chattingServer : Terminal}
    {system after : GameSystem} {event : Event} (agreement : Agreement rooms system)
    (taken : system.step inGameServer chattingServer event = .ok after) :
    Agreement rooms after := by
  cases event with
  | chat event =>
      cases event with
      | I_INITIALIZE_ROOMMEMBER room_num member_count => cases taken
      | _ => exact serveChat_agreement agreement (by simp) taken
  | accept session addrInfo_ =>
      obtain ⟨game, -, taken⟩ := Exec.bind_ok taken
      cases taken
      exact agreement.frame rfl (fun _ _ _ => rfl) (fun _ member => member)
        (fun _ member => Or.inl member)
  | disconnected session =>
      rw [step] at taken
      split at taken
      · cases taken
        exact agreement.frame rfl (fun _ _ _ => rfl) (fun _ member => member)
          (fun _ member => Or.inl member)
      · simp at taken
  | request session packet =>
      obtain ⟨⟨after, sent⟩, done, taken⟩ := Exec.bind_ok taken
      cases taken
      exact request_agreement agreement done
  | I_USER_INFO index => exact userInfo_agreement agreement taken
  | I_INITIALIZE_ROOMMEMBER index => exact initialized_agreement agreement taken

/-- Every configured room has a game exactly when it has started, and never
two; a room that is announced is not held. -/
def OneGame (rooms : Int32) (system : GameSystem) : Prop :=
  (∀ key, 0 ≤ key → key < rooms →
    ∃ room, system.chat.lobby.room_array key = some room ∧ system.games key ≤ 1 ∧
      (system.games key = 1 ↔ room.Current_member_in_room = 2)) ∧
  ∀ handover ∈ system.userInfos, ∀ room_Num User1_ID User2_ID,
    handover.packet = .PK_I_USER_INFO room_Num User1_ID User2_ID →
      system.rooms.roomArr (toInt room_Num) = none

theorem Agreement.oneGame {rooms : Int32} {system : GameSystem}
    (agreement : Agreement rooms system) : OneGame rooms system := by
  refine ⟨?_, ?_⟩
  · intro key lower upper
    obtain ⟨room, found⟩ := agreement.configured key lower upper
    refine ⟨room, found, ?_⟩
    rw [agreement.conserved key room found]
    split
    · simp_all
    · simp_all
  · rintro ⟨packet, user1, user2⟩ member room_Num User1_ID User2_ID rfl
    obtain ⟨index, here⟩ := List.mem_iff_getElem?.mp member
    have taken : InFlight.take system.userInfos index = some
        ({ packet := .PK_I_USER_INFO room_Num User1_ID User2_ID, user1, user2 },
          system.userInfos.eraseIdx index) := by
      simp [InFlight.take, here]
    exact (agreement.announced_game taken).2.1

/-- In every state of every run, a configured room has as many games as its
lobby count says, and no announced room is held by the InGameServer. -/
theorem always_oneGame (inGameServer chattingServer : Terminal) (maxConnection : Int)
    (rooms : Int32) (events : List Event) :
    Runs.Always (fun system event => system.step inGameServer chattingServer event) (OneGame rooms)
      (initial maxConnection rooms) events := by
  refine Runs.always_of_invariant (fun _ _ _ => step_agreement) (fun _ => Agreement.oneGame) events ?_
  exact initial_agreement maxConnection rooms

end GameSystem

end GraduationServer
