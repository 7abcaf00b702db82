import GraduationServer.ConnectProcess
import GraduationServer.LobbyOccupancy
import GraduationServer.SessionRegistry

/-!
What becomes of a room that is filled. The notification loop asks for the
session with the id `user1 != NULL`, that is for session 1, and its answer
decides what `user1` is told. `Terminal::sendPacket` drops what it gets while
the terminal is not ready, and the room is not given back then.
-/

namespace GraduationServer

namespace ChattingServer

def notifies (session : SessionPtr) : Receiver × Packet → Bool
  | (.session receiver, .PK_S_NOTIFY_SERVER_IP _ _) => receiver = session
  | _ => false

def notifications (session : SessionPtr) (sent : List (Receiver × Packet)) : Nat :=
  sent.countP (notifies session)

theorem notifications_append (session : SessionPtr) (first second : List (Receiver × Packet)) :
    notifications session (first ++ second) =
      notifications session first + notifications session second :=
  List.countP_append

theorem notifications_broadcast {manager : SessionManager} {member_count Room_num : UInt64}
    {storage : List (oid_t × SessionPtr)} {sent : List (Receiver × Packet)} (session : SessionPtr)
    (done : broadcast manager (.PK_S_ANS_ENTER_ROOM member_count Room_num) storage = .ok sent) :
    notifications session sent = 0 := by
  induction storage generalizing sent with
  | nil =>
      cases done
      rfl
  | cons entry rest ih =>
      obtain ⟨_, -, done⟩ := Exec.bind_ok done
      obtain ⟨others, told, done⟩ := Exec.bind_ok done
      cases done
      simpa [notifications, notifies] using ih told

/-! The notification loop. -/

theorem deref_ends (manager : SessionManager) (session : SessionPtr) :
    manager.deref session ≠ .error .endlessLoop := by
  intro endless
  rcases SessionManager.deref_error endless with ⟨-, other⟩ | ⟨-, -, other⟩
  · cases other
  · cases other

theorem notifyUsers_cleared (manager : SessionManager) (packet : Packet) (room : Room)
    (cleared : room.user1 = 0) :
    notifyUsers manager packet 1 room ≠ .error .endlessLoop := by
  intro endless
  rw [notifyUsers] at endless
  split at endless
  · rcases Exec.bind_error endless with stopped | ⟨_, used, -⟩
    · exact deref_ends _ _ stopped
    · simp [cleared, SessionManager.deref] at used
  · rcases Exec.bind_error endless with stopped | ⟨_, -, stopped⟩
    · exact deref_ends _ _ stopped
    · cases stopped

theorem notifyUsers_ends (manager : SessionManager) (packet : Packet) (room : Room) :
    notifyUsers manager packet 2 room ≠ .error .endlessLoop := by
  intro endless
  rw [notifyUsers] at endless
  split at endless
  · rcases Exec.bind_error endless with stopped | ⟨user1, -, stopped⟩
    · exact deref_ends _ _ stopped
    · split at stopped
      · cases stopped
      · rcases Exec.bind_error stopped with again | ⟨_, -, again⟩
        · exact notifyUsers_cleared _ _ _ rfl again
        · cases again
  · rcases Exec.bind_error endless with stopped | ⟨_, -, stopped⟩
    · exact deref_ends _ _ stopped
    · cases stopped

theorem session_itself {manager : SessionManager} {object found : Session}
    (distinct : manager.ids.Nodup) (lives : object ∈ manager.sessionList_)
    (looked : manager.session object.id_ = some found) : found = object := by
  obtain ⟨member, same⟩ := SessionManager.session_some looked
  exact List.inj_on_of_nodup_map distinct member lives same

theorem notifyUsers_counts {manager : SessionManager} {ip_ : Str} {port_ : UInt32}
    {room left : Room} {sent : List (Receiver × Packet)} (distinct : manager.ids.Nodup)
    (occupied : room.user1 ≠ 0) (different : room.user1 ≠ room.user2)
    (done : notifyUsers manager (.PK_S_NOTIFY_SERVER_IP ip_ port_) 2 room = .ok (left, sent)) :
    notifications room.user2 sent = 1 ∧
      notifications room.user1 sent = if (manager.session 1).isSome then 2 else 0 := by
  rw [notifyUsers, if_pos occupied] at done
  split at done
  · rename_i present looked
    obtain ⟨user1, used, done⟩ := Exec.bind_ok done
    split at done
    · cases done
    · rename_i again found
      obtain ⟨⟨last, rest⟩, ending, done⟩ := Exec.bind_ok done
      cases done
      obtain ⟨lives, address, -⟩ := SessionManager.deref_ok used
      obtain rfl := session_itself distinct lives found
      rw [notifyUsers] at ending
      split at ending
      · simp [SessionManager.deref, bind, Except.bind] at ending
      · obtain ⟨_, -, ending⟩ := Exec.bind_ok ending
        cases ending
        simp [notifications, notifies, looked, address, different, different.symm]
  · rename_i absent
    obtain ⟨_, -, done⟩ := Exec.bind_ok done
    cases done
    simp [notifications, notifies, absent, different.symm]

structure Fills (lobby : LobbyManager) (session : SessionPtr) (member_count Room_num : UInt64)
    (room : Room) : Prop where
  found : lobby.room_array (toInt Room_num) = some room
  admitted : ¬ 2 ≤ room.Current_member_in_room
  full : (addMember room session member_count).Current_member_in_room = 2

section

variable {lobby after : LobbyManager} {terminal : Terminal} {manager : SessionManager}
variable {session : SessionPtr} {member_count Room_num : UInt64} {room : Room}
variable {sent : List (Receiver × Packet)}

theorem fills_ok (fills : Fills lobby session member_count Room_num room)
    (done : C_REQ_ENTER_ROOM lobby terminal manager session member_count Room_num =
      .ok (after, sent)) :
    ∃ told notified left user1 user2,
      broadcast manager (.PK_S_ANS_ENTER_ROOM 2 Room_num) lobby.session_storage = .ok told ∧
      notifyUsers manager (.PK_S_NOTIFY_SERVER_IP terminal.ip_ terminal.port_) 2
        (addMember room session member_count) = .ok (left, notified) ∧
      manager.deref (addMember room session member_count).user1 = .ok user1 ∧
      manager.deref (addMember room session member_count).user2 = .ok user2 ∧
      after.room_array = StdMap.assign lobby.room_array (toInt Room_num)
        { Current_member_in_room := 2, user1 := 0, user2 := 0 } ∧
      after.session_storage = (lobby.session_storage.filter fun entry =>
        entry.1 ≠ user1.id_ ∧ entry.1 ≠ user2.id_) ∧
      sent = told ++ (notified ++
        [(.terminal .InGameServer, .PK_I_USER_INFO Room_num user1.id_ user2.id_)]) := by
  obtain ⟨other, found, done⟩ := Exec.bind_ok done
  obtain rfl := Option.some.inj (fills.found.symm.trans (at_ok found))
  simp only [fills.admitted, if_false] at done
  obtain ⟨_, -, done⟩ := Exec.bind_ok done
  obtain ⟨told, broadcasted, done⟩ := Exec.bind_ok done
  simp only [fills.full, if_true] at done broadcasted
  obtain ⟨⟨handed, last⟩, handing, done⟩ := Exec.bind_ok done
  cases done
  obtain ⟨user1, first, handing⟩ := Exec.bind_ok handing
  obtain ⟨user2, second, handing⟩ := Exec.bind_ok handing
  obtain ⟨⟨left, notified⟩, notifying, handing⟩ := Exec.bind_ok handing
  cases handing
  obtain ⟨count, cleared, -⟩ := notifyUsers_ok .InGameServer notifying
  have emptied : ({ left with user1 := 0 } : Room) =
      { Current_member_in_room := 2, user1 := 0, user2 := 0 } := by
    rw [cleared, count, fills.full]
  refine ⟨told, notified, left, user1, user2, broadcasted, notifying, first, second, ?_, rfl, rfl⟩
  simp only [LobbyManager.put, emptied, StdMap.assign_assign]

/-- Both members have been told once, and both seats are free. -/
def NotifiedOnce (lobby : LobbyManager) (terminal : Terminal) (manager : SessionManager)
    (session : SessionPtr) (member_count Room_num : UInt64) (room : Room) : Prop :=
  ∃ after sent, C_REQ_ENTER_ROOM lobby terminal manager session member_count Room_num =
      .ok (after, sent) ∧
    notifications (addMember room session member_count).user1 sent = 1 ∧
    notifications (addMember room session member_count).user2 sent = 1 ∧
    ∃ left, after.room_array (toInt Room_num) = some left ∧ left.user1 = 0 ∧ left.user2 = 0

theorem fills_counts (fills : Fills lobby session member_count Room_num room)
    (distinct : manager.ids.Nodup)
    (different : (addMember room session member_count).user1 ≠
      (addMember room session member_count).user2)
    (done : C_REQ_ENTER_ROOM lobby terminal manager session member_count Room_num =
      .ok (after, sent)) :
    notifications (addMember room session member_count).user2 sent = 1 ∧
      notifications (addMember room session member_count).user1 sent =
        if (manager.session 1).isSome then 2 else 0 := by
  obtain ⟨told, notified, left, user1, user2, broadcasted, notifying, first, -, -, -, rfl⟩ :=
    fills_ok fills done
  have occupied := (SessionManager.deref_ok first).2.2
  obtain ⟨toSecond, toFirst⟩ := notifyUsers_counts distinct occupied different notifying
  have handed (member : SessionPtr) : notifications member [(.terminal .InGameServer,
      .PK_I_USER_INFO Room_num user1.id_ user2.id_)] = 0 := rfl
  simp only [notifications_append, notifications_broadcast _ broadcasted, handed, Nat.zero_add,
    Nat.add_zero]
  exact ⟨toSecond, toFirst⟩

end

theorem notified_never (lobby : LobbyManager) (terminal : Terminal) (manager : SessionManager)
    (session : SessionPtr) (member_count Room_num : UInt64) (room : Room)
    (fills : Fills lobby session member_count Room_num room) (distinct : manager.ids.Nodup)
    (different : (addMember room session member_count).user1 ≠
      (addMember room session member_count).user2) :
    ¬ NotifiedOnce lobby terminal manager session member_count Room_num room := by
  rintro ⟨after, sent, done, first, -, -⟩
  have counted := (fills_counts fills distinct different done).2
  rw [first] at counted
  split at counted
  · cases counted
  · cases counted

def waitingRoom (user1 : SessionPtr) : Room :=
  { Current_member_in_room := 1, user1, user2 := 0 }

def oneWaits (user1 : SessionPtr) : LobbyManager := (LobbyManager.Init 1).put 0 (waitingRoom user1)

def threeClients : SessionManager :=
  ((((SessionManager.init SESSION_CAPACITY).addSession 16 1).2.addSession 32 2).2.addSession 48 3).2

/-- Session 1 is gone, so sessions 2 and 3 are not looked at: `user1` is not told. -/
theorem notified_never_closed :
    ¬ NotifiedOnce (oneWaits 32) { ip_ := [], port_ := 9300 } (threeClients.closeSession 16) 48 1 0
      (waitingRoom 32) :=
  notified_never (oneWaits 32) { ip_ := [], port_ := 9300 } (threeClients.closeSession 16) 48 1 0
    (waitingRoom 32) ⟨by decide, by decide, by decide⟩ (by decide) (by decide)

/-- Session 1 is there: `user1` is told twice. -/
theorem notified_twice :
    ¬ ∀ lobby terminal (manager : SessionManager) session member_count Room_num room,
      Fills lobby session member_count Room_num room → manager.ids.Nodup →
        manager.registered (addMember room session member_count).user1 = true →
        manager.registered (addMember room session member_count).user2 = true →
        (addMember room session member_count).user1 ≠ (addMember room session member_count).user2 →
          NotifiedOnce lobby terminal manager session member_count Room_num room := by
  intro every
  let inGameServer : Terminal := { ip_ := [], port_ := 9300 }
  have once := every (oneWaits 16) inGameServer threeClients 32 1 0 (waitingRoom 16)
    ⟨by decide, by decide, by decide⟩ (by decide) (by decide) (by decide) (by decide)
  obtain ⟨after, sent, done, first, -, -⟩ := once
  have computed : ((C_REQ_ENTER_ROOM (oneWaits 16) inGameServer threeClients 32 1 0).toOption.map
      fun result => notifications 16 result.2) = some 2 := by decide
  rw [done] at computed
  have twice : notifications 16 sent = 2 := Option.some.inj computed
  have one : notifications 16 sent = 1 := first
  omega

/-! A terminal that is not ready. -/

def transmitted (status_ : TERMINAL_STATUS) (sent : List (Receiver × Packet)) : List Packet :=
  if status_ = .TERMINAL_READY then toTerminal .InGameServer sent else []

/-- Unless the InGameServer gets the room with these members, the room can be
entered and the members stay in `session_storage`. -/
def NotConsumed (status_ : TERMINAL_STATUS) (lobby after : LobbyManager) (Room_num : UInt64)
    (members : Room) (sent : List (Receiver × Packet)) : Prop :=
  transmitted status_ sent = [] →
    (∃ left, after.room_array (toInt Room_num) = some left ∧ left.Current_member_in_room < 2) ∧
    ∀ entry ∈ lobby.session_storage, entry.2 = members.user1 ∨ entry.2 = members.user2 →
      entry ∈ after.session_storage

theorem notConsumed_iff (lobby after : LobbyManager) (terminal : Terminal)
    (status_ : TERMINAL_STATUS) (manager : SessionManager) (session : SessionPtr)
    (member_count Room_num : UInt64) (room : Room) (sent : List (Receiver × Packet))
    (fills : Fills lobby session member_count Room_num room)
    (done : C_REQ_ENTER_ROOM lobby terminal manager session member_count Room_num =
      .ok (after, sent)) :
    NotConsumed status_ lobby after Room_num (addMember room session member_count) sent ↔
      status_ = .TERMINAL_READY := by
  obtain ⟨told, notified, left, user1, user2, broadcasted, notifying, -, -, assigned, -, rfl⟩ :=
    fills_ok fills done
  constructor
  · intro kept
    by_contra stopped
    obtain ⟨⟨other, found, few⟩, -⟩ := kept (by rw [transmitted, if_neg stopped])
    rw [assigned, StdMap.assign_same] at found
    cases found
    exact absurd few (by decide)
  · intro ready nothing
    obtain ⟨-, -, quiet⟩ := notifyUsers_ok .InGameServer notifying
    rw [transmitted, if_pos ready, toTerminal_append, toTerminal_append, quiet,
      broadcast_toTerminal _ broadcasted] at nothing
    simp [toTerminal] at nothing

theorem notConsumed_iff_stopped :
    ∃ after sent, C_REQ_ENTER_ROOM (oneWaits 16) { ip_ := [], port_ := 9300 } threeClients 32 1 0 =
        .ok (after, sent) ∧
      ¬ NotConsumed .TERMINAL_STOP (oneWaits 16) after 0
        (addMember (waitingRoom 16) 32 1) sent := by
  cases done : C_REQ_ENTER_ROOM (oneWaits 16) { ip_ := [], port_ := 9300 } threeClients 32 1 0 with
  | error reason =>
      have computed : (C_REQ_ENTER_ROOM (oneWaits 16) { ip_ := [], port_ := 9300 } threeClients 32
        1 0).toOption.isSome = true := by decide
      simp [done, Except.toOption] at computed
  | ok result =>
      refine ⟨result.1, result.2, rfl, ?_⟩
      rw [notConsumed_iff (oneWaits 16) result.1 { ip_ := [], port_ := 9300 } .TERMINAL_STOP
        threeClients 32 1 0 (waitingRoom 16) result.2 ⟨by decide, by decide, by decide⟩ done]
      decide

/-- Two clients have looked at the lobby and enter its room while the
InGameServer is away. -/
theorem consumed_stopped :
    ¬ ∀ (inGameServer : Terminal) (events : List Chat.Event) chat,
      Runs.run (Chat.step inGameServer) (Chat.initial SESSION_CAPACITY 1) events = .ok chat →
        ∀ status_ session member_count Room_num room after sent,
          Fills chat.lobby session member_count Room_num room →
          C_REQ_ENTER_ROOM chat.lobby inGameServer chat.manager session member_count Room_num =
            .ok (after, sent) →
          NotConsumed status_ chat.lobby after Room_num
            (addMember room session member_count) sent := by
  intro every
  let inGameServer : Terminal := { ip_ := [], port_ := 9300 }
  let events : List Chat.Event := [.accept 16 1, .accept 32 2, .C_REQ_LOBBY_INFO 16,
    .C_REQ_LOBBY_INFO 32, .C_REQ_ENTER_ROOM 16 0 0]
  let entered (chat : Chat) :=
    (C_REQ_ENTER_ROOM chat.lobby inGameServer chat.manager 32 1 0).toOption.map
      fun result => result.1.room_array 0
  have computed : (Runs.run (Chat.step inGameServer) (Chat.initial SESSION_CAPACITY 1)
      events).toOption.map (fun chat => (chat.lobby.room_array 0, entered chat)) =
        some (some (waitingRoom 16),
          some (some { Current_member_in_room := 2, user1 := 0, user2 := 0 })) := by decide
  obtain ⟨chat, reached, view⟩ := Runs.run_view computed
  obtain ⟨found, view⟩ := Prod.mk.inj view
  obtain ⟨⟨after, sent⟩, served, left⟩ := Option.map_eq_some_iff.mp view
  cases done : C_REQ_ENTER_ROOM chat.lobby inGameServer chat.manager 32 1 0 with
  | error reason => simp [done, Except.toOption] at served
  | ok result =>
      rw [done] at served
      cases served
      have kept := every inGameServer events chat reached .TERMINAL_STOP 32 1 0 (waitingRoom 16)
        after sent ⟨found, by decide, by decide⟩ done
      obtain ⟨⟨other, same, few⟩, -⟩ := kept rfl
      obtain rfl := Option.some.inj (left.symm.trans same)
      exact absurd few (by decide)

/-! How long the room stays consumed. -/

def Full (key : Int32) (chat : Chat) : Prop :=
  ∃ room, chat.lobby.room_array key = some room ∧ 2 ≤ room.Current_member_in_room

def NoReset (key : Int32) : Chat.Event → Prop
  | .I_INITIALIZE_ROOMMEMBER room_num _ => toInt room_num ≠ key
  | _ => True

theorem step_full {terminal : Terminal} {key : Int32} {chat next : Chat} {event : Chat.Event}
    (full : Full key chat) (spared : NoReset key event)
    (taken : chat.step terminal event = .ok next) : Full key next := by
  obtain ⟨room, found, two⟩ := full
  obtain ⟨⟨_, sent⟩, served, taken⟩ := Exec.bind_ok taken
  cases taken
  have quiet (notEnter : ∀ session member_count Room_num,
        event ≠ .C_REQ_ENTER_ROOM session member_count Room_num)
      (notReset : ∀ room_num member_count,
        event ≠ .I_INITIALIZE_ROOMMEMBER room_num member_count) : Full key next := by
    obtain ⟨same, -⟩ := Chat.serve_quiet served notEnter notReset
    exact ⟨room, by rw [same, found], two⟩
  cases event with
  | C_REQ_ENTER_ROOM session member_count Room_num =>
      obtain ⟨⟨lobby, told⟩, entered, served⟩ := Exec.bind_ok served
      cases served
      have others {changed : Room} {asked : Room}
          (there : chat.lobby.room_array (toInt Room_num) = some asked)
          (admitted : ¬ 2 ≤ asked.Current_member_in_room)
          (assigned : lobby.room_array =
            StdMap.assign chat.lobby.room_array (toInt Room_num) changed) :
          Full key { chat with lobby } := by
        have other : key ≠ toInt Room_num := by
          rintro rfl
          rw [found] at there
          cases there
          exact admitted two
        refine ⟨room, ?_, two⟩
        show lobby.room_array key = some room
        rw [assigned, StdMap.assign_other other, found]
      cases C_REQ_ENTER_ROOM_ok entered with
      | refused _ _ same _ => exact ⟨room, by rw [same]; exact found, two⟩
      | waiting there admitted _ _ assigned _ => exact others there admitted assigned
      | started there admitted _ _ _ assigned _ => exact others there admitted assigned
  | I_INITIALIZE_ROOMMEMBER room_num member_count =>
      obtain ⟨lobby, reset, served⟩ := Exec.bind_ok served
      cases served
      obtain ⟨other, -, reset⟩ := Exec.bind_ok reset
      cases reset
      refine ⟨room, ?_, two⟩
      show StdMap.assign chat.lobby.room_array (toInt room_num) _ key = some room
      rw [StdMap.assign_other (Ne.symm spared), found]
  | accept | disconnected | C_REQ_LOBBY_INFO =>
      apply quiet <;> intros <;> nofun

/-- A room that has been filled lets nobody in until it is reset, and the reset
can only come from an InGameServer that knows of the game. -/
theorem full_until_reset {terminal : Terminal} {chat next : Chat} {session : SessionPtr}
    {member_count Room_num : UInt64} {room : Room} {events : List Chat.Event}
    (fills : Fills chat.lobby session member_count Room_num room)
    (taken : chat.step terminal (.C_REQ_ENTER_ROOM session member_count Room_num) = .ok next)
    (spared : ∀ event ∈ events, NoReset (toInt Room_num) event) :
    Runs.Always (Chat.step terminal) (Full (toInt Room_num)) next events := by
  have filled : Full (toInt Room_num) next := by
    obtain ⟨⟨_, _⟩, served, taken⟩ := Exec.bind_ok taken
    cases taken
    obtain ⟨⟨lobby, sent⟩, entered, served⟩ := Exec.bind_ok served
    cases served
    obtain ⟨_, _, _, _, _, -, -, -, -, assigned, -, -⟩ := fills_ok fills entered
    refine ⟨{ Current_member_in_room := 2, user1 := 0, user2 := 0 }, ?_, by decide⟩
    show lobby.room_array _ = _
    rw [assigned, StdMap.assign_same]
  exact Runs.always_of_throughout (fun _ _ _ full condition taken => step_full full condition taken)
    (fun _ full => full) filled (Runs.throughout_of_events spared)

end ChattingServer

end GraduationServer
