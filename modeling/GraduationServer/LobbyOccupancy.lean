import GraduationServer.ChattingProcess
import GraduationServer.Library.Runs

/-!
The ChattingServer as the lobby sees it, and the occupancy of its rooms. The
count that a room keeps follows the count that the client sends, so it is right
as long as every client counts the room as it is.
-/

namespace GraduationServer

namespace ChattingServer

structure Chat where
  manager : SessionManager
  lobby : LobbyManager

namespace Chat

inductive Event where
  | accept (session : SessionPtr) (addrInfo_ : Nat)
  | disconnected (session : SessionPtr)
  | C_REQ_LOBBY_INFO (session : SessionPtr)
  | C_REQ_ENTER_ROOM (session : SessionPtr) (member_count Room_num : UInt64)
  | I_INITIALIZE_ROOMMEMBER (room_num member_count : UInt64)

def initial (maxConnection : Int) (rooms : Int32) : Chat :=
  { manager := SessionManager.init maxConnection, lobby := LobbyManager.Init rooms }

def serve (terminal : Terminal) (chat : Chat) : Event → Exec (Chat × List (Receiver × Packet))
  | .accept session addrInfo_ => do
      let manager ← chat.manager.accept session addrInfo_
      return ({ chat with manager }, [])
  | .disconnected session =>
      if chat.manager.registered session then
        .ok ({ chat with manager := chat.manager.closeSession session }, [])
      else .error .notEnabled
  | .C_REQ_LOBBY_INFO session => do
      let (lobby, sent) ← ChattingServer.C_REQ_LOBBY_INFO chat.lobby chat.manager session
      return ({ chat with lobby }, sent)
  | .C_REQ_ENTER_ROOM session member_count Room_num => do
      let (lobby, sent) ← ChattingServer.C_REQ_ENTER_ROOM chat.lobby terminal chat.manager session
        member_count Room_num
      return ({ chat with lobby }, sent)
  | .I_INITIALIZE_ROOMMEMBER room_num member_count => do
      let lobby ← ChattingServer.I_INITIALIZE_ROOMMEMBER chat.lobby room_num member_count
      return ({ chat with lobby }, [])

def step (terminal : Terminal) (chat : Chat) (event : Event) : Exec Chat := do
  let (after, _) ← chat.serve terminal event
  return after

theorem serve_quiet {terminal : Terminal} {chat after : Chat} {event : Event}
    {sent : List (Receiver × Packet)} (done : chat.serve terminal event = .ok (after, sent))
    (notEnter : ∀ session member_count Room_num,
      event ≠ .C_REQ_ENTER_ROOM session member_count Room_num)
    (notReset : ∀ room_num member_count, event ≠ .I_INITIALIZE_ROOMMEMBER room_num member_count) :
    after.lobby.room_array = chat.lobby.room_array ∧ ∀ name, toTerminal name sent = [] := by
  cases event with
  | accept session addrInfo_ =>
      obtain ⟨manager, -, done⟩ := Exec.bind_ok done
      cases done
      exact ⟨rfl, fun _ => rfl⟩
  | disconnected session =>
      rw [serve] at done
      split at done
      · cases done
        exact ⟨rfl, fun _ => rfl⟩
      · simp at done
  | C_REQ_LOBBY_INFO session =>
      obtain ⟨⟨lobby, told⟩, telling, done⟩ := Exec.bind_ok done
      cases done
      obtain ⟨_, -, telling⟩ := Exec.bind_ok telling
      cases telling
      refine ⟨rfl, ?_⟩
      intro name
      simp [toTerminal, List.filterMap_map]
  | C_REQ_ENTER_ROOM session member_count Room_num =>
      exact absurd rfl (notEnter session member_count Room_num)
  | I_INITIALIZE_ROOMMEMBER room_num member_count =>
      exact absurd rfl (notReset room_num member_count)

/-- The room is waiting with as many members as seats are taken, or has started
and its seats are free. -/
def RoomCoherent (room : Room) : Prop :=
  (room.Current_member_in_room < 2 ∧ room.Current_member_in_room =
    (if room.user1 = 0 then 0 else 1) + (if room.user2 = 0 then 0 else 1)) ∨
  (room.Current_member_in_room = 2 ∧ room.user1 = 0 ∧ room.user2 = 0)

def Coherent (chat : Chat) : Prop :=
  ∀ key room, chat.lobby.room_array key = some room → RoomCoherent room

def Overwrites (chat : Chat) : Event → Prop
  | .C_REQ_ENTER_ROOM _ _ Room_num => ∃ room,
      chat.lobby.room_array (toInt Room_num) = some room ∧
        ¬ 2 ≤ room.Current_member_in_room ∧ room.user1 ≠ 0 ∧ room.user2 ≠ 0
  | _ => False

/-- A client that is admitted counts the room as it is, and a room is reset with
free seats. -/
def CountsMembers (chat : Chat) : Event → Prop
  | .C_REQ_ENTER_ROOM _ member_count Room_num => ∀ room,
      chat.lobby.room_array (toInt Room_num) = some room → ¬ 2 ≤ room.Current_member_in_room →
        toInt (member_count + 1) = room.Current_member_in_room + 1
  | .I_INITIALIZE_ROOMMEMBER room_num _ => ∀ room,
      chat.lobby.room_array (toInt room_num) = some room → room.user1 = 0 ∧ room.user2 = 0
  | _ => True

def Resets : Event → Prop
  | .I_INITIALIZE_ROOMMEMBER _ member_count => member_count = 0
  | _ => True

instance (chat : Chat) : (event : Event) → Decidable (chat.CountsMembers event)
  | .C_REQ_ENTER_ROOM _ member_count Room_num =>
      inferInstanceAs (Decidable (∀ room ∈ chat.lobby.room_array (toInt Room_num),
        ¬ 2 ≤ room.Current_member_in_room →
          toInt (member_count + 1) = room.Current_member_in_room + 1))
  | .I_INITIALIZE_ROOMMEMBER room_num _ =>
      inferInstanceAs (Decidable (∀ room ∈ chat.lobby.room_array (toInt room_num),
        room.user1 = 0 ∧ room.user2 = 0))
  | .accept _ _ => inferInstanceAs (Decidable True)
  | .disconnected _ => inferInstanceAs (Decidable True)
  | .C_REQ_LOBBY_INFO _ => inferInstanceAs (Decidable True)

instance : DecidablePred Resets
  | .I_INITIALIZE_ROOMMEMBER _ member_count => inferInstanceAs (Decidable (member_count = 0))
  | .accept _ _ => inferInstanceAs (Decidable True)
  | .disconnected _ => inferInstanceAs (Decidable True)
  | .C_REQ_LOBBY_INFO _ => inferInstanceAs (Decidable True)
  | .C_REQ_ENTER_ROOM _ _ _ => inferInstanceAs (Decidable True)

theorem initial_coherent (maxConnection : Int) (rooms : Int32) :
    (initial maxConnection rooms).Coherent := by
  intro key room found
  simp only [initial, LobbyManager.Init] at found
  split at found
  · cases found
    exact Or.inl ⟨by decide, by decide⟩
  · simp at found

theorem coherent_assign {chat after : Chat} {key : Int32} {room : Room}
    (coherent : chat.Coherent)
    (assigned : after.lobby.room_array = StdMap.assign chat.lobby.room_array key room) :
    after.Coherent ↔ RoomCoherent room := by
  constructor
  · intro kept
    exact kept key room (by rw [assigned, StdMap.assign_same])
  · intro fits other found held
    rw [assigned] at held
    by_cases same : other = key
    · subst same
      rw [StdMap.assign_same] at held
      cases held
      exact fits
    · rw [StdMap.assign_other same] at held
      exact coherent other found held

theorem coherent_seats {room : Room} (coherent : RoomCoherent room)
    (admitted : ¬ 2 ≤ room.Current_member_in_room) :
    (room.user1 = 0 ∧ room.user2 = 0 ∧ room.Current_member_in_room = 0) ∨
    (room.user1 = 0 ∧ room.user2 ≠ 0 ∧ room.Current_member_in_room = 1) ∨
    (room.user1 ≠ 0 ∧ room.user2 = 0 ∧ room.Current_member_in_room = 1) := by
  rcases coherent with ⟨few, count⟩ | ⟨full, -⟩
  · by_cases first : room.user1 = 0
    · by_cases second : room.user2 = 0
      · exact Or.inl ⟨first, second, by rw [count, if_pos first, if_pos second]; decide⟩
      · exact Or.inr (Or.inl ⟨first, second, by rw [count, if_pos first, if_neg second]; decide⟩)
    · by_cases second : room.user2 = 0
      · exact Or.inr (Or.inr ⟨first, second, by rw [count, if_neg first, if_pos second]; decide⟩)
      · rw [count, if_neg first, if_neg second] at few
        exact absurd few (by decide)
  · rw [full] at admitted
    exact absurd (by decide) admitted

theorem addMember_count (room : Room) (session : SessionPtr) (member_count : UInt64) :
    (addMember room session member_count).Current_member_in_room = toInt (member_count + 1) := by
  simp only [addMember]
  split <;> rfl

theorem addMember_coherent_iff {room : Room} {session : SessionPtr} {member_count : UInt64}
    (coherent : RoomCoherent room) (admitted : ¬ 2 ≤ room.Current_member_in_room)
    (notNull : session ≠ 0)
    (waits : (addMember room session member_count).Current_member_in_room ≠ 2) :
    RoomCoherent (addMember room session member_count) ↔
      toInt (member_count + 1) = room.Current_member_in_room + 1 := by
  rw [addMember_count] at waits
  have two : (1 : Int32) + 1 = 2 := by decide
  rcases coherent_seats coherent admitted with ⟨first, second, count⟩ | ⟨first, second, count⟩ |
    ⟨first, second, count⟩
  · rw [count]
    constructor
    · rintro (⟨-, counted⟩ | ⟨full, -⟩)
      · rw [addMember_count] at counted
        simpa [addMember, first, second, notNull] using counted
      · exact absurd full (by rwa [addMember_count])
    · intro counted
      refine Or.inl ⟨?_, ?_⟩
      · rw [addMember_count, counted]
        decide
      · rw [addMember_count, counted]
        simp [addMember, first, second, notNull]
  · rw [count, two, iff_false_right waits]
    rintro (⟨-, counted⟩ | ⟨full, -⟩)
    · rw [addMember_count] at counted
      simp only [addMember, first, if_true, notNull, if_false, second, two] at counted
      exact waits counted
    · exact absurd full (by rwa [addMember_count])
  · rw [count, two, iff_false_right waits]
    rintro (⟨-, counted⟩ | ⟨full, -⟩)
    · rw [addMember_count] at counted
      simp only [addMember, first, notNull, if_false, two] at counted
      exact waits counted
    · exact absurd full (by rwa [addMember_count])

theorem started_counts {room : Room} {session : SessionPtr} {member_count : UInt64}
    (coherent : RoomCoherent room) (admitted : ¬ 2 ≤ room.Current_member_in_room)
    (full : (addMember room session member_count).Current_member_in_room = 2)
    (second : (addMember room session member_count).user2 ≠ 0) :
    toInt (member_count + 1) = room.Current_member_in_room + 1 := by
  rw [addMember_count] at full
  rcases coherent_seats coherent admitted with ⟨first, free, count⟩ | ⟨-, -, count⟩ | ⟨-, -, count⟩
  · simp [addMember, first, free] at second
  · rw [full, count]
    decide
  · rw [full, count]
    decide

theorem countsMembers_enter {chat : Chat} {session : SessionPtr} {member_count Room_num : UInt64}
    {room : Room} (found : chat.lobby.room_array (toInt Room_num) = some room)
    (admitted : ¬ 2 ≤ room.Current_member_in_room) :
    chat.CountsMembers (.C_REQ_ENTER_ROOM session member_count Room_num) ↔
      toInt (member_count + 1) = room.Current_member_in_room + 1 := by
  constructor
  · intro counts
    exact counts room found admitted
  · intro counted other held _
    rw [found] at held
    cases held
    exact counted

theorem enter_coherent {terminal : Terminal} {chat after : Chat} {session : SessionPtr}
    {member_count Room_num : UInt64} (coherent : chat.Coherent)
    (taken : chat.step terminal (.C_REQ_ENTER_ROOM session member_count Room_num) = .ok after) :
    after.Coherent ↔ chat.CountsMembers (.C_REQ_ENTER_ROOM session member_count Room_num) := by
  obtain ⟨⟨_, _⟩, served, taken⟩ := Exec.bind_ok taken
  cases taken
  obtain ⟨⟨lobby, sent⟩, entered, served⟩ := Exec.bind_ok served
  cases served
  cases C_REQ_ENTER_ROOM_ok entered with
  | refused found full same _ =>
      subst same
      refine iff_of_true coherent ?_
      intro room held admitted
      rw [found] at held
      cases held
      contradiction
  | waiting found admitted used waits assigned _ =>
      obtain ⟨-, -, notNull⟩ := SessionManager.deref_ok used
      rw [coherent_assign coherent assigned,
        addMember_coherent_iff (coherent _ _ found) admitted notNull waits,
        countsMembers_enter found admitted]
  | started found admitted full first second assigned _ =>
      obtain ⟨-, -, taken⟩ := SessionManager.deref_ok second
      have counts := started_counts (coherent _ _ found) admitted full taken
      refine iff_of_true ?_ ?_
      · exact (coherent_assign coherent assigned).mpr (Or.inr ⟨rfl, rfl, rfl⟩)
      · exact (countsMembers_enter found admitted).mpr counts

theorem initialize_coherent {terminal : Terminal} {chat after : Chat} {room_num : UInt64}
    (coherent : chat.Coherent)
    (taken : chat.step terminal (.I_INITIALIZE_ROOMMEMBER room_num 0) = .ok after) :
    after.Coherent ↔ chat.CountsMembers (.I_INITIALIZE_ROOMMEMBER room_num 0) := by
  obtain ⟨⟨_, _⟩, served, taken⟩ := Exec.bind_ok taken
  cases taken
  obtain ⟨lobby, reset, served⟩ := Exec.bind_ok served
  cases served
  obtain ⟨room, found, reset⟩ := Exec.bind_ok reset
  cases reset
  replace found := at_ok found
  have zero : toInt 0 = 0 := by decide
  rw [coherent_assign coherent rfl]
  simp only [RoomCoherent, zero, CountsMembers, found, Option.some.injEq, forall_eq']
  constructor
  · rintro (⟨-, counted⟩ | ⟨full, -⟩)
    · by_cases first : room.user1 = 0
      · by_cases second : room.user2 = 0
        · exact ⟨first, second⟩
        · rw [if_pos first, if_neg second] at counted
          exact absurd counted (by decide)
      · by_cases second : room.user2 = 0
        · rw [if_neg first, if_pos second] at counted
          exact absurd counted (by decide)
        · rw [if_neg first, if_neg second] at counted
          exact absurd counted (by decide)
    · exact absurd full (by decide)
  · rintro ⟨first, second⟩
    refine Or.inl ⟨by decide, ?_⟩
    rw [if_pos first, if_pos second]
    decide

theorem step_coherent {terminal : Terminal} {chat after : Chat} {event : Event}
    (resets : Resets event) (coherent : chat.Coherent)
    (taken : chat.step terminal event = .ok after) :
    after.Coherent ↔ chat.CountsMembers event := by
  by_cases enters : ∃ session member_count Room_num,
      event = .C_REQ_ENTER_ROOM session member_count Room_num
  · obtain ⟨session, member_count, Room_num, rfl⟩ := enters
    exact enter_coherent coherent taken
  · by_cases initializes : ∃ room_num member_count,
        event = .I_INITIALIZE_ROOMMEMBER room_num member_count
    · obtain ⟨room_num, member_count, rfl⟩ := initializes
      obtain rfl : member_count = 0 := resets
      exact initialize_coherent coherent taken
    · obtain ⟨⟨_, _⟩, served, taken⟩ := Exec.bind_ok taken
      cases taken
      simp only [not_exists] at enters initializes
      obtain ⟨sameRooms, -⟩ := serve_quiet served enters initializes
      refine iff_of_true ?_ ?_
      · intro key room found
        rw [sameRooms] at found
        exact coherent key room found
      · cases event with
        | C_REQ_ENTER_ROOM session member_count Room_num => exact absurd rfl (enters _ _ _)
        | I_INITIALIZE_ROOMMEMBER room_num member_count => exact absurd rfl (initializes _ _)
        | _ => trivial

theorem coherent_no_overwrite (chat : Chat) (event : Event) (coherent : chat.Coherent) :
    ¬ chat.Overwrites event := by
  intro overwrites
  cases event with
  | C_REQ_ENTER_ROOM session member_count Room_num =>
      obtain ⟨room, found, admitted, first, second⟩ := overwrites
      rcases coherent_seats (coherent _ _ found) admitted with ⟨free, -⟩ | ⟨free, -⟩ | ⟨-, free, -⟩
      · exact first free
      · exact first free
      · exact second free
  | _ => exact overwrites

/-- The rooms stay coherent and no seat is overwritten in a run exactly when
every admitted client counts the room as it is and every reset finds it empty. -/
theorem coherent_iff (terminal : Terminal) (maxConnection : Int) (rooms : Int32)
    (events : List Event) (resets : ∀ event ∈ events, Resets event) :
    (Runs.Always (step terminal) Coherent (initial maxConnection rooms) events ∧
      Runs.Throughout (step terminal) (fun chat event => ¬ chat.Overwrites event)
        (initial maxConnection rooms) events) ↔
    Runs.Throughout (step terminal) CountsMembers (initial maxConnection rooms) events := by
  have exactly : Runs.Always (step terminal) Coherent (initial maxConnection rooms) events ↔
      Runs.Throughout (step terminal) CountsMembers (initial maxConnection rooms) events := by
    refine Runs.always_iff_throughout (fun _ _ _ _ _ _ => trivial) ?_ resets trivial
      (initial_coherent maxConnection rooms)
    intro chat event after allowed _ coherent taken
    exact step_coherent allowed coherent taken
  rw [← exactly]
  exact ⟨And.left, fun always => ⟨always, always.throughout coherent_no_overwrite⟩⟩

/-- Two clients fill a room, a third one is refused, and the room is reset and entered again. -/
def fills : List Event :=
  [.accept 16 1, .accept 32 2, .accept 48 3, .C_REQ_LOBBY_INFO 16, .C_REQ_LOBBY_INFO 32,
    .C_REQ_ENTER_ROOM 16 0 0, .C_REQ_ENTER_ROOM 32 1 0, .C_REQ_ENTER_ROOM 48 2 0,
    .I_INITIALIZE_ROOMMEMBER 0 0, .C_REQ_ENTER_ROOM 48 0 0]

theorem coherent_iff_reset :
    (Runs.Always (step { ip_ := [], port_ := 9300 }) Coherent (initial SESSION_CAPACITY 2) fills ∧
      Runs.Throughout (step { ip_ := [], port_ := 9300 }) (fun chat event => ¬ chat.Overwrites event)
        (initial SESSION_CAPACITY 2) fills) ∧
      (Runs.run (step { ip_ := [], port_ := 9300 }) (initial SESSION_CAPACITY 2)
        fills).toOption.map (fun chat => chat.lobby.room_array 0) =
          some (some { Current_member_in_room := 1, user1 := 48, user2 := 0 }) :=
  ⟨(coherent_iff { ip_ := [], port_ := 9300 } SESSION_CAPACITY 2 fills (by decide)).mpr (by decide),
    by decide⟩

/-- Two clients enter a room, and both have seen it empty. -/
theorem coherent_stale_count :
    ¬ ∀ events : List Event, (∀ event ∈ events, Resets event) →
      Runs.Always (step { ip_ := [], port_ := 9300 }) Coherent (initial SESSION_CAPACITY 2)
        events := by
  intro always
  let events : List Event := [.accept 16 1, .accept 32 2, .C_REQ_ENTER_ROOM 16 0 0,
    .C_REQ_ENTER_ROOM 32 0 0]
  have coherent := always events (by
    intro event member
    simp only [events, List.mem_cons, List.not_mem_nil, or_false] at member
    rcases member with rfl | rfl | rfl | rfl <;> trivial)
  have computed : (Runs.run (step { ip_ := [], port_ := 9300 }) (initial SESSION_CAPACITY 2)
      events).toOption.map (fun chat => chat.lobby.room_array 0) =
        some (some { Current_member_in_room := 1, user1 := 16, user2 := 32 }) := by decide
  obtain ⟨finish, reached, room⟩ := Runs.run_view computed
  rcases coherent.finish reached 0 _ room with ⟨-, count⟩ | ⟨full, -⟩
  · exact absurd count (by decide)
  · exact absurd full (by decide)

end Chat

end ChattingServer

end GraduationServer
