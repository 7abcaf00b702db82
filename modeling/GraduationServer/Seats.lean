import GraduationServer.ChattingProcess
import GraduationServer.Library.Runs

/-!
Who sits where in the lobby's rooms, when every client counts the room as it
is. `C_REQ_ENTER_ROOM` looks at the one room of the packet and never at who is
there already, so a session can take a second seat.
-/

namespace GraduationServer

namespace ChattingServer

/-- `userInfos` are the packets that have gone to the InGameServer. -/
structure Seats where
  manager : SessionManager
  lobby : LobbyManager
  userInfos : List Packet

namespace Seats

inductive Event where
  | C_REQ_ENTER_ROOM (session : SessionPtr) (Room_num : UInt64)
  | I_INITIALIZE_ROOMMEMBER (room_num member_count : UInt64)

def initial (manager : SessionManager) (num : Int32) : Seats :=
  { manager, lobby := LobbyManager.Init num, userInfos := [] }

def memberCount (room : Room) : UInt64 := room.Current_member_in_room.toInt64.toUInt64

def step (inGameServer : Terminal) (seats : Seats) : Event → Exec Seats
  | .C_REQ_ENTER_ROOM session Room_num => do
      let room ← seats.lobby.at_ (toInt Room_num)
      let (lobby, sent) ← ChattingServer.C_REQ_ENTER_ROOM seats.lobby inGameServer seats.manager
        session (memberCount room) Room_num
      return { seats with
        lobby
        userInfos := seats.userInfos ++ toTerminal .InGameServer sent }
  | .I_INITIALIZE_ROOMMEMBER room_num member_count => do
      let lobby ← ChattingServer.I_INITIALIZE_ROOMMEMBER seats.lobby room_num member_count
      return { seats with lobby }

inductive Seat where
  | user1
  | user2
  deriving DecidableEq

def seat (room : Room) : Seat → SessionPtr
  | .user1 => room.user1
  | .user2 => room.user2

def Sits (lobby : LobbyManager) (session : SessionPtr) (key : Int32) (place : Seat) : Prop :=
  ∃ room, lobby.room_array key = some room ∧ seat room place = session

def SitsElsewhere (lobby : LobbyManager) (session : SessionPtr) (key : Int32) : Prop :=
  ∃ other place, other ≠ key ∧ Sits lobby session other place

def OneSeat (lobby : LobbyManager) : Prop :=
  ∀ session, session ≠ 0 → ∀ key place other otherPlace, Sits lobby session key place →
    Sits lobby session other otherPlace → key = other ∧ place = otherPlace

def NamesTwo : Packet → Prop
  | .PK_I_USER_INFO _ User1_ID User2_ID => User1_ID ≠ User2_ID
  | _ => True

structure Fair (seats : Seats) : Prop where
  seated : OneSeat seats.lobby
  handed : ∀ packet ∈ seats.userInfos, NamesTwo packet

def otherSeat (room : Room) : SessionPtr := if room.user1 = 0 then room.user2 else room.user1

/-- A session that is admitted to a room finds another session there, or nobody;
and while it has to wait there, it waits in no other room. -/
def EntersOnce (seats : Seats) : Event → Prop
  | .C_REQ_ENTER_ROOM session Room_num => ∀ room,
      seats.lobby.room_array (toInt Room_num) = some room → room.Current_member_in_room < 2 →
        if room.Current_member_in_room = 1 then
          ∀ entering waiting, seats.manager.deref session = .ok entering →
            seats.manager.deref (otherSeat room) = .ok waiting → entering.id_ ≠ waiting.id_
        else session ≠ otherSeat room ∧ ¬ SitsElsewhere seats.lobby session (toInt Room_num)
  | .I_INITIALIZE_ROOMMEMBER _ _ => True

theorem memberCount_next (room : Room) :
    toInt (memberCount room + 1) = room.Current_member_in_room + 1 := by
  apply Int32.toBitVec_inj.mp
  have narrowed : ∀ value : BitVec 32, BitVec.setWidth 32 (BitVec.signExtend 64 value) = value := by
    intro value
    apply BitVec.eq_of_getLsbD_eq
    intro position inside
    simp [BitVec.getLsbD_signExtend, inside]
    omega
  simpa [toInt, memberCount] using narrowed room.Current_member_in_room.toBitVec

theorem counts_two (room : Room) (session : SessionPtr) :
    (addMember room session (memberCount room)).Current_member_in_room = 2 ↔
      room.Current_member_in_room = 1 := by
  have counted : (addMember room session (memberCount room)).Current_member_in_room =
      room.Current_member_in_room + 1 := by
    rw [← memberCount_next, addMember]
    dsimp only
    split <;> rfl
  rw [counted]
  constructor
  · intro two
    rw [← Int32.add_sub_cancel room.Current_member_in_room 1, two]
    rfl
  · intro one
    rw [one]
    rfl

theorem initial_oneSeat (num : Int32) : OneSeat (LobbyManager.Init num) := by
  rintro session somebody key place - - ⟨room, found, rfl⟩ -
  simp only [LobbyManager.Init] at found
  split at found
  · cases found
    cases place <;> exact absurd rfl somebody
  · simp at found

theorem sits_assign {lobby after : LobbyManager} {key other : Int32} {room : Room}
    (assigned : after.room_array = StdMap.assign lobby.room_array key room) (session : SessionPtr)
    (place : Seat) : Sits after session other place ↔
      if other = key then seat room place = session else Sits lobby session other place := by
  rw [Sits, assigned]
  by_cases same : other = key
  · simp [same]
  · simp [same, Sits]

theorem oneSeat_same {lobby after : LobbyManager} {key : Int32} {room changed : Room}
    (found : lobby.room_array key = some room)
    (assigned : after.room_array = StdMap.assign lobby.room_array key changed)
    (same : ∀ place, seat changed place = seat room place) :
    OneSeat after ↔ OneSeat lobby := by
  have alike (session : SessionPtr) (other : Int32) (place : Seat) :
      Sits after session other place ↔ Sits lobby session other place := by
    rw [sits_assign assigned]
    split
    · rename_i here
      subst here
      simp [Sits, found, same]
    · rfl
  simp only [OneSeat, alike]

theorem oneSeat_cleared {lobby after : LobbyManager} {key : Int32} {count : Int32}
    (fair : OneSeat lobby) (assigned : after.room_array = StdMap.assign lobby.room_array key
      { Current_member_in_room := count, user1 := 0, user2 := 0 }) : OneSeat after := by
  have still {session : SessionPtr} (somebody : session ≠ 0) {other : Int32} {place : Seat}
      (sits : Sits after session other place) : Sits lobby session other place := by
    rw [sits_assign assigned] at sits
    split at sits
    · cases place <;> exact absurd sits.symm somebody
    · exact sits
  intro session somebody key place other otherPlace first second
  exact fair session somebody key place other otherPlace (still somebody first)
    (still somebody second)

theorem seat_addMember (room : Room) (session : SessionPtr) (member_count : UInt64) :
    ∃ taken kept, taken ≠ kept ∧ seat (addMember room session member_count) taken = session ∧
      seat (addMember room session member_count) kept = otherSeat room ∧
      seat room kept = otherSeat room := by
  by_cases free : room.user1 = 0
  · exact ⟨.user1, .user2, by simp [seat, addMember, otherSeat, free]⟩
  · exact ⟨.user2, .user1, by simp [seat, addMember, otherSeat, free]⟩

theorem oneSeat_addMember {lobby after : LobbyManager} {key : Int32} {room : Room}
    {session : SessionPtr} {member_count : UInt64} (fair : OneSeat lobby) (somebody : session ≠ 0)
    (found : lobby.room_array key = some room)
    (assigned : after.room_array = StdMap.assign lobby.room_array key
      (addMember room session member_count)) :
    OneSeat after ↔ session ≠ otherSeat room ∧ ¬ SitsElsewhere lobby session key := by
  obtain ⟨taken, kept, different, enters, keeps, kept_before⟩ :=
    seat_addMember room session member_count
  have two_seats (place : Seat) : place = taken ∨ place = kept := by
    cases place <;> cases taken <;> cases kept <;> simp_all
  constructor
  · intro once
    have here : Sits after session key taken := by simp [sits_assign assigned, enters]
    constructor
    · intro same
      have again : Sits after session key kept := by
        rw [sits_assign assigned, if_pos rfl, keeps, same]
      exact different (once session somebody _ _ _ _ here again).2
    · rintro ⟨other, place, elsewhere, sits⟩
      have there : Sits after session other place := by simpa [sits_assign assigned, elsewhere]
      exact elsewhere (once session somebody _ _ _ _ there here).1
  · rintro ⟨alone, nowhere⟩ person present
    -- where a person sits afterwards: on the seat that is taken, or where it sat before
    have where_ {other : Int32} {place : Seat} (sits : Sits after person other place) :
        person = session ∧ other = key ∧ place = taken ∨
          person ≠ session ∧ Sits lobby person other place := by
      rw [sits_assign assigned] at sits
      by_cases here : other = key
      · subst here
        rw [if_pos rfl] at sits
        rcases two_seats place with rfl | rfl
        · exact Or.inl ⟨sits.symm.trans enters, rfl, rfl⟩
        · refine Or.inr ⟨?_, room, found, kept_before.trans (keeps.symm.trans sits)⟩
          rintro rfl
          exact alone (sits.symm.trans keeps)
      · rw [if_neg here] at sits
        refine Or.inr ⟨?_, sits⟩
        rintro rfl
        exact nowhere ⟨other, place, here, sits⟩
    intro first firstPlace second secondPlace sitsFirst sitsSecond
    rcases where_ sitsFirst with ⟨entered, rfl, rfl⟩ | ⟨stranger, before⟩
    · rcases where_ sitsSecond with ⟨-, rfl, rfl⟩ | ⟨stranger, -⟩
      · exact ⟨rfl, rfl⟩
      · exact absurd entered stranger
    · rcases where_ sitsSecond with ⟨entered, -, -⟩ | ⟨-, after_⟩
      · exact absurd entered stranger
      · exact fair person present _ _ _ _ before after_

theorem deref_addMember {manager : SessionManager} {room : Room} {session : SessionPtr}
    {member_count : UInt64} {user1 user2 : Session}
    (first : manager.deref (addMember room session member_count).user1 = .ok user1)
    (second : manager.deref (addMember room session member_count).user2 = .ok user2) :
    (∀ entering waiting, manager.deref session = .ok entering →
      manager.deref (otherSeat room) = .ok waiting → entering.id_ ≠ waiting.id_) ↔
      user1.id_ ≠ user2.id_ := by
  by_cases free : room.user1 = 0
  · simp only [addMember, free, if_true] at first second
    simp only [otherSeat, free, if_true, first, second, Except.ok.injEq]
    exact ⟨fun every => every user1 user2 rfl rfl, by rintro different _ _ rfl rfl; exact different⟩
  · simp only [addMember, free, if_false] at first second
    simp only [otherSeat, free, if_false, first, second, Except.ok.injEq]
    exact ⟨fun every same => every user2 user1 rfl rfl same.symm,
      by rintro different _ _ rfl rfl same; exact different same.symm⟩

theorem step_exactly {inGameServer : Terminal} {seats next : Seats} {event : Event}
    (fair : seats.Fair) (taken : seats.step inGameServer event = .ok next) :
    next.Fair ↔ seats.EntersOnce event := by
  cases event with
  | I_INITIALIZE_ROOMMEMBER room_num member_count =>
      obtain ⟨lobby, reset, taken⟩ := Exec.bind_ok taken
      obtain ⟨room, found, reset⟩ := Exec.bind_ok reset
      cases reset
      cases taken
      refine ⟨fun _ => trivial, fun _ => ⟨?_, fair.handed⟩⟩
      refine (oneSeat_same (at_ok found) rfl ?_).mpr fair.seated
      intro place
      cases place <;> rfl
  | C_REQ_ENTER_ROOM session Room_num =>
      obtain ⟨room, at_room, taken⟩ := Exec.bind_ok taken
      obtain ⟨⟨lobby, sent⟩, entered, taken⟩ := Exec.bind_ok taken
      cases taken
      have found := at_ok at_room
      cases C_REQ_ENTER_ROOM_ok entered with
      | refused there full same quiet =>
          rw [found, Option.some.injEq] at there
          subst there same quiet
          refine ⟨fun _ => ?_, fun _ => ?_⟩
          · intro other here admitted
            rw [found, Option.some.injEq] at here
            subst here
            exact absurd admitted (Int32.not_lt.mpr full)
          · exact ⟨fair.seated, by simpa [toTerminal] using fair.handed⟩
      | waiting there admitted used waits assigned quiet =>
          rw [found, Option.some.injEq] at there
          subst there
          rw [Ne, counts_two] at waits
          have somebody := (SessionManager.deref_ok used).2.2
          have seated := oneSeat_addMember fair.seated somebody found assigned
          constructor
          · intro after other here _
            rw [found, Option.some.injEq] at here
            subst here
            rw [if_neg waits]
            exact seated.mp after.seated
          · intro once
            have alone := once _ found (Int32.not_le.mp admitted)
            rw [if_neg waits] at alone
            exact ⟨seated.mpr alone, by simpa [quiet] using fair.handed⟩
      | started there admitted starts first second assigned handed =>
          rw [found, Option.some.injEq] at there
          subst there
          rw [counts_two] at starts
          have different := deref_addMember first second
          constructor
          · intro after other here _
            rw [found, Option.some.injEq] at here
            subst here
            rw [if_pos starts, different]
            exact after.handed (.PK_I_USER_INFO Room_num _ _) (by simp [handed])
          · intro once
            have alone := once _ found (Int32.not_le.mp admitted)
            rw [if_pos starts, different] at alone
            refine ⟨oneSeat_cleared fair.seated assigned, ?_⟩
            intro packet member
            rcases List.mem_append.mp member with earlier | new
            · exact fair.handed packet earlier
            · rw [handed, List.mem_singleton] at new
              subst new
              exact alone

/-- No session has two seats and every game is for two users, in all states of
a run, exactly when every session that is admitted meets nobody but another
session, and waits in one room at a time. -/
theorem fair_iff (inGameServer : Terminal) (manager : SessionManager) (num : Int32)
    (events : List Event) :
    Runs.Always (step inGameServer) Fair (initial manager num) events ↔
      Runs.Throughout (step inGameServer) EntersOnce (initial manager num) events := by
  have start : (initial manager num).Fair := by
    refine ⟨initial_oneSeat num, ?_⟩
    intro packet member
    simp [initial] at member
  refine Runs.always_iff_throughout (fun _ _ _ _ _ _ => trivial) ?_ (fun _ _ => trivial) trivial
    start
  intro seats event next _ _ fair taken
  exact step_exactly fair taken

def oneClient : SessionManager := ((SessionManager.init SESSION_CAPACITY).addSession 16 1).2

/-- A client enters room 0 and then room 1. Had it entered room 0 again, the
game would have been for users 1 and 1. -/
theorem fair_two_rooms :
    ¬ ∀ events : List Event,
      Runs.Always (step { ip_ := [], port_ := 0 }) Fair (initial oneClient 2) events := by
  intro every
  let events : List Event := [.C_REQ_ENTER_ROOM 16 0, .C_REQ_ENTER_ROOM 16 1]
  let seated (seats : Seats) := (seats.lobby.room_array 0, seats.lobby.room_array 1)
  have computed : (Runs.run (step { ip_ := [], port_ := 0 }) (initial oneClient 2)
      events).toOption.map seated = some
        (some { Current_member_in_room := 1, user1 := 16, user2 := 0 },
          some { Current_member_in_room := 1, user1 := 16, user2 := 0 }) := by decide
  obtain ⟨finish, reached, view⟩ := Runs.run_view computed
  obtain ⟨first, second⟩ := Prod.mk.inj view
  have once := ((every events).finish reached).seated 16 (by decide) 0 .user1 1 .user1
    ⟨_, first, rfl⟩ ⟨_, second, rfl⟩
  exact absurd once.1 (by decide)

end Seats

end ChattingServer

end GraduationServer
