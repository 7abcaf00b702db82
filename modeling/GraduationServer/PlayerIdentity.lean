import GraduationServer.RoomLifecycle

/-!
Whether the players of a game are the clients that filled the room. Each server
numbers its sessions in the order in which it accepts them, and the handover
carries the ChattingServer's ids.
-/

namespace GraduationServer

open InGameServer (Rooms)
open ChattingServer (Chat)

namespace GameSystem

/-- The client bound to each member of each game is the one that entered the room. -/
def SamePlayers (system : GameSystem) : Prop :=
  ∀ member ∈ system.bound, member.1 = member.2

instance (system : GameSystem) : Decidable system.SamePlayers :=
  inferInstanceAs (Decidable (∀ member ∈ system.bound, _))

/-- The two servers have given the id to the same client. -/
def NumberedAlike (system : GameSystem) (id : oid_t) : Prop :=
  ∀ chat ∈ system.chatIds, ∀ game ∈ system.gameIds, chat.1 = id → game.1 = id → chat.2 = game.2

/-- A binding of the id from an earlier game does not point at another session. -/
def BindingCurrent (system : GameSystem) (id : oid_t) : Prop :=
  ∀ session ∈ system.rooms.simpleSessionManager id,
    ∀ object ∈ system.game.sessionList_, object.address = session → object.id_ = id

def handed (system : GameSystem) : Event → List oid_t
  | .I_USER_INFO index =>
      match InFlight.take system.userInfos index with
      | some ({ packet := .PK_I_USER_INFO _ User1_ID User2_ID, .. }, _) => [User1_ID, User2_ID]
      | _ => []
  | _ => []

def Identifies (system : GameSystem) (event : Event) : Prop :=
  ∀ id ∈ system.handed event, system.NumberedAlike id ∧ system.BindingCurrent id

instance (system : GameSystem) (id : oid_t) : Decidable (system.NumberedAlike id) :=
  inferInstanceAs (Decidable (∀ chat ∈ system.chatIds, ∀ game ∈ system.gameIds, _ → _ → _))

instance (system : GameSystem) (id : oid_t) : Decidable (system.BindingCurrent id) :=
  inferInstanceAs (Decidable (∀ session ∈ system.rooms.simpleSessionManager id, _))

instance (system : GameSystem) (event : Event) : Decidable (system.Identifies event) :=
  List.decidableBAll _ (system.handed event)

structure Numbered (system : GameSystem) : Prop where
  chat : ∀ object ∈ system.chat.manager.sessionList_,
    (object.id_, object.addrInfo_) ∈ system.chatIds
  game : ∀ object ∈ system.game.sessionList_, (object.id_, object.addrInfo_) ∈ system.gameIds
  handed : ∀ handover ∈ system.userInfos, ∀ room_Num User1_ID User2_ID,
    handover.packet = .PK_I_USER_INFO room_Num User1_ID User2_ID →
      (User1_ID, handover.user1) ∈ system.chatIds ∧ (User2_ID, handover.user2) ∈ system.chatIds
  players : system.SamePlayers

theorem mem_numbered {manager : SessionManager} {object : Session}
    (member : object ∈ manager.sessionList_) :
    (object.id_, object.addrInfo_) ∈ numbered manager :=
  List.mem_map.mpr ⟨object, member, rfl⟩

theorem initial_numbered (maxConnection : Int) (rooms : Int32) :
    (initial maxConnection rooms).Numbered := by
  refine ⟨?_, ?_, ?_, ?_⟩
  all_goals
    intro object member
    simp [initial, Chat.initial, SessionManager.init] at member

theorem handed_seated {inGameServer : Terminal} {chat after : Chat} {event : Chat.Event}
    {sent : List (Receiver × Packet)} (served : chat.serve inGameServer event = .ok (after, sent))
    (notReset : ∀ room_num member_count, event ≠ .I_INITIALIZE_ROOMMEMBER room_num member_count)
    {room_Num User1_ID User2_ID : UInt64}
    (announced : .PK_I_USER_INFO room_Num User1_ID User2_ID ∈ toTerminal .InGameServer sent) :
    (User1_ID, (seated chat event).1) ∈ numbered after.manager ∧
      (User2_ID, (seated chat event).2) ∈ numbered after.manager := by
  by_cases enters : ∃ session member_count Room_num,
      event = .C_REQ_ENTER_ROOM session member_count Room_num
  · obtain ⟨session, member_count, Room_num, rfl⟩ := enters
    obtain ⟨⟨lobby, told⟩, entered, served⟩ := Exec.bind_ok served
    cases served
    cases ChattingServer.C_REQ_ENTER_ROOM_ok entered with
    | refused _ _ _ quiet => simp [quiet, toTerminal] at announced
    | waiting _ _ _ _ _ quiet => simp [quiet] at announced
    | started found _ _ first second _ handed =>
        rw [handed, List.mem_singleton] at announced
        cases announced
        simp only [seated, found, SessionManager.clientOf_deref first,
          SessionManager.clientOf_deref second]
        exact ⟨mem_numbered (SessionManager.deref_ok first).1,
          mem_numbered (SessionManager.deref_ok second).1⟩
  · simp only [not_exists] at enters
    obtain ⟨-, quiet⟩ := Chat.serve_quiet served enters notReset
    simp [quiet] at announced

theorem serveChat_numbered {inGameServer : Terminal} {system after : GameSystem}
    {event : Chat.Event} (identified : system.Numbered)
    (notReset : ∀ room_num member_count, event ≠ .I_INITIALIZE_ROOMMEMBER room_num member_count)
    (taken : system.serveChat inGameServer event = .ok after) : after.Numbered := by
  obtain ⟨⟨chat, sent⟩, served, taken⟩ := Exec.bind_ok taken
  cases taken
  refine ⟨?_, identified.game, ?_, identified.players⟩
  · intro object member
    exact List.mem_append_right _ (mem_numbered member)
  · intro handover member room_Num User1_ID User2_ID same
    rcases List.mem_append.mp member with earlier | new
    · obtain ⟨first, second⟩ := identified.handed handover earlier _ _ _ same
      exact ⟨List.mem_append_left _ first, List.mem_append_left _ second⟩
    · obtain ⟨packet, announced, rfl⟩ := List.mem_map.mp new
      cases same
      obtain ⟨first, second⟩ := handed_seated served notReset announced
      exact ⟨List.mem_append_right _ first, List.mem_append_right _ second⟩

theorem accept_numbered {system : GameSystem} (identified : system.Numbered)
    (game : SessionManager) :
    Numbered { system with game, gameIds := system.gameIds ++ numbered game } := by
  refine ⟨identified.chat, ?_, identified.handed, identified.players⟩
  intro object member
  exact List.mem_append_right _ (mem_numbered member)

theorem closed_numbered {system : GameSystem} {session : SessionPtr}
    (identified : system.Numbered) :
    Numbered { system with game := system.game.closeSession session } := by
  have kept : (system.game.closeSession session).sessionList_.Sublist
      system.game.sessionList_ := by
    rw [SessionManager.closeSession]
    split
    · exact List.filter_sublist
    · exact List.Sublist.refl _
  refine ⟨identified.chat, ?_, identified.handed, identified.players⟩
  intro object member
  exact identified.game object (kept.subset member)

theorem BindingCurrent.found_id {system : GameSystem} {rooms : Rooms} {id : oid_t}
    {object : Session} (current : system.BindingCurrent id)
    (binds : InGameServer.BindsFound system.game system.rooms rooms)
    (used : system.game.deref (rooms.Find_sessions id) = .ok object) : object.id_ = id := by
  obtain ⟨lives, address, notNull⟩ := SessionManager.deref_ok used
  rw [Rooms.Find_sessions] at address notNull
  cases bound : rooms.simpleSessionManager id with
  | none => simp [bound] at notNull
  | some session =>
      simp only [bound, Option.getD_some] at address notNull
      rcases binds id session bound with earlier | looked
      · exact current session earlier object lives address
      · rw [InGameServer.sessionPtr] at looked
        split at looked
        · exact absurd looked notNull
        · rename_i other found
          obtain ⟨otherLives, same⟩ := SessionManager.session_some found
          rw [SessionManager.same_address lives otherLives (address.trans looked), same]

theorem userInfo_numbered {inGameServer chattingServer : Terminal} {system after : GameSystem}
    {index : Nat} (identified : system.Numbered)
    (identifies : system.Identifies (.I_USER_INFO index))
    (taken : system.step inGameServer chattingServer (.I_USER_INFO index) = .ok after) :
    after.Numbered := by
  rw [step] at taken
  split at taken
  · rename_i room_Num User1_ID User2_ID user1 user2 rest first
    have ids : system.handed (.I_USER_INFO index) = [User1_ID, User2_ID] := by
      simp [handed, first]
    obtain ⟨alike1, current1⟩ := identifies User1_ID (by simp [ids])
    obtain ⟨alike2, current2⟩ := identifies User2_ID (by simp [ids])
    obtain ⟨⟨rooms, sent⟩, handled, taken⟩ := Exec.bind_ok taken
    cases taken
    refine ⟨identified.chat, identified.game, ?_, ?_⟩
    · intro handover member
      exact identified.handed handover (InFlight.mem_of_take first member)
    · obtain ⟨handed1, handed2⟩ := identified.handed _ (InFlight.take_mem first) _ _ _ rfl
      intro member bound
      rcases List.mem_append.mp bound with earlier | new
      · exact identified.players member earlier
      · cases InGameServer.I_USER_INFO_ok handled with
        | failed _ _ announced => simp [announced] at new
        | started _ binds used1 used2 quiet =>
            simp only [quiet, if_true, SessionManager.clientOf_deref used1,
              SessionManager.clientOf_deref used2] at new
            have number1 := identified.game _ (SessionManager.deref_ok used1).1
            have number2 := identified.game _ (SessionManager.deref_ok used2).1
            rcases List.mem_pair.mp new with rfl | rfl
            · exact alike1 _ handed1 _ number1 rfl (current1.found_id binds used1)
            · exact alike2 _ handed2 _ number2 rfl (current2.found_id binds used2)
  · simp at taken

theorem initialized_numbered {inGameServer chattingServer : Terminal} {system after : GameSystem}
    {index : Nat} (identified : system.Numbered)
    (taken : system.step inGameServer chattingServer (.I_INITIALIZE_ROOMMEMBER index) =
      .ok after) : after.Numbered := by
  rw [step] at taken
  split at taken
  · obtain ⟨⟨chat, _⟩, served, taken⟩ := Exec.bind_ok taken
    cases taken
    obtain ⟨lobby, -, served⟩ := Exec.bind_ok served
    cases served
    exact ⟨identified.chat, identified.game, identified.handed, identified.players⟩
  · simp at taken

theorem step_numbered {inGameServer chattingServer : Terminal} {system after : GameSystem}
    {event : Event} (identified : system.Numbered) (identifies : system.Identifies event)
    (taken : system.step inGameServer chattingServer event = .ok after) : after.Numbered := by
  cases event with
  | chat event =>
      cases event with
      | I_INITIALIZE_ROOMMEMBER room_num member_count => cases taken
      | _ => exact serveChat_numbered identified (by simp) taken
  | accept session addrInfo_ =>
      obtain ⟨game, -, taken⟩ := Exec.bind_ok taken
      cases taken
      exact accept_numbered identified game
  | disconnected session =>
      rw [step] at taken
      split at taken
      · cases taken
        exact closed_numbered identified
      · simp at taken
  | request session packet =>
      obtain ⟨⟨rooms, sent⟩, -, taken⟩ := Exec.bind_ok taken
      cases taken
      exact ⟨identified.chat, identified.game, identified.handed, identified.players⟩
  | I_USER_INFO index => exact userInfo_numbered identified identifies taken
  | I_INITIALIZE_ROOMMEMBER index => exact initialized_numbered identified taken

/-- The players of every game are the clients of its room in a run that hands
over only ids that both servers have given to the same client. -/
theorem always_samePlayers (inGameServer chattingServer : Terminal) (maxConnection : Int)
    (rooms : Int32) (events : List Event)
    (identifies : Runs.Throughout (fun system event => system.step inGameServer chattingServer event)
      Identifies (initial maxConnection rooms) events) :
    Runs.Always (fun system event => system.step inGameServer chattingServer event) SamePlayers
      (initial maxConnection rooms) events :=
  Runs.always_of_throughout (fun _ _ _ => step_numbered) (fun _ => Numbered.players)
    (initial_numbered maxConnection rooms) identifies

def twoPlayers (first second : Nat) : List Event :=
  [.chat (.accept 16 1), .chat (.accept 32 2), .chat (.C_REQ_ENTER_ROOM 16 0 0),
    .chat (.C_REQ_ENTER_ROOM 32 1 0), .accept 16 first, .accept 32 second, .I_USER_INFO 0]

theorem always_samePlayers_twoPlayers :
    Runs.Always (fun system event => system.step { ip_ := [], port_ := 9300 }
      { ip_ := [], port_ := 9200 } event) SamePlayers (initial SESSION_CAPACITY 1)
      (twoPlayers 1 2) :=
  always_samePlayers { ip_ := [], port_ := 9300 } { ip_ := [], port_ := 9200 } SESSION_CAPACITY 1
    (twoPlayers 1 2) (by decide)

/-- The clients connect to the InGameServer in the other order. -/
theorem samePlayers_other_order :
    ¬ ∀ events : List Event, Runs.Always (fun system event =>
      system.step { ip_ := [], port_ := 9300 } { ip_ := [], port_ := 9200 } event) SamePlayers
      (initial SESSION_CAPACITY 1) events := by
  intro always
  have run := always (twoPlayers 2 1)
  revert run
  decide

end GameSystem

end GraduationServer
