import GraduationServer.RoomHandOver

/-!
Which packets the lobby survives. A room is looked up under the low 32 bits of
its number, and a client that counts to two starts a game whether or not the
other seat is taken.
-/

namespace GraduationServer

namespace ChattingServer

namespace LobbyPackets

inductive Event where
  | C_REQ_ENTER_ROOM (manager : SessionManager) (session : SessionPtr)
      (member_count Room_num : UInt64)
  | I_INITIALIZE_ROOMMEMBER (room_num member_count : UInt64)

def Event.room_num : Event → UInt64
  | .C_REQ_ENTER_ROOM _ _ _ Room_num => Room_num
  | .I_INITIALIZE_ROOMMEMBER room_num _ => room_num

def step (inGameServer : Terminal) (lobby : LobbyManager) : Event → Exec LobbyManager
  | .C_REQ_ENTER_ROOM manager session member_count Room_num => do
      let (lobby, _) ← ChattingServer.C_REQ_ENTER_ROOM lobby inGameServer manager session
        member_count Room_num
      return lobby
  | .I_INITIALIZE_ROOMMEMBER room_num member_count =>
      ChattingServer.I_INITIALIZE_ROOMMEMBER lobby room_num member_count

def Registered (manager : SessionManager) (session : SessionPtr) : Prop :=
  ∃ object, manager.deref session = .ok object

def AllRegistered (lobby : LobbyManager) : Event → Prop
  | .C_REQ_ENTER_ROOM manager session _ _ =>
      Registered manager session ∧
        (∀ entry ∈ lobby.session_storage, Registered manager entry.2) ∧
        ∀ key room, lobby.room_array key = some room →
          (room.user1 ≠ 0 → Registered manager room.user1) ∧
          (room.user2 ≠ 0 → Registered manager room.user2)
  | .I_INITIALIZE_ROOMMEMBER _ _ => True

def Numbered (num : Int32) (lobby : LobbyManager) : Prop :=
  ∀ key, (lobby.room_array key).isSome = true ↔ 0 ≤ key ∧ key < num

def Inside (num : Int32) (Room_num : UInt64) : Prop := (Room_num.toNat : Int) < num.toInt

structure Safe (inGameServer : Terminal) (num : Int32) (lobby : LobbyManager) (event : Event) :
    Prop where
  notNull : step inGameServer lobby event ≠ .error .nullPointer
  keys : ∀ next, step inGameServer lobby event = .ok next → Numbered num next
  outside : ∀ next, step inGameServer lobby event = .ok next → ¬ Inside num event.room_num →
    next.room_array = lobby.room_array

/-- The lookups of the notification loop: of session 1, and if there is one, of
`user1` by its id and then of session 0. -/
def Lookups (manager : SessionManager) (user1 : SessionPtr) : Prop :=
  ∀ first, manager.session 1 = some first → manager.session 0 = none ∧
    ∃ object again, manager.deref user1 = .ok object ∧ manager.session object.id_ = some again

/-- The packet names a room. If a client is admitted there, the whole number is
the room's, or the packet leaves the room as it is; and the client counts to two
only when somebody waits there and the loop finds what it looks for. -/
def Harmless (num : Int32) (lobby : LobbyManager) : Event → Prop
  | .C_REQ_ENTER_ROOM manager session member_count Room_num =>
      ∃ room, lobby.room_array (toInt Room_num) = some room ∧
        (¬ 2 ≤ room.Current_member_in_room →
          if toInt (member_count + 1) = 2 then
            Inside num Room_num ∧ (room.user1 ≠ 0 ∨ room.user2 ≠ 0) ∧
              Lookups manager (if room.user1 = 0 then session else room.user1)
          else
            Inside num Room_num ∨ room.user1 ≠ 0 ∧ room.user2 = session ∧
              room.Current_member_in_room = toInt (member_count + 1))
  | .I_INITIALIZE_ROOMMEMBER room_num member_count =>
      ∃ room, lobby.room_array (toInt room_num) = some room ∧
        (Inside num room_num ∨ room.Current_member_in_room = toInt member_count)

theorem init_numbered (num : Int32) : Numbered num (LobbyManager.Init num) := by
  intro key
  simp [LobbyManager.Init]

theorem assign_numbered {num key : Int32} {lobby after : LobbyManager} {room changed : Room}
    (numbered : Numbered num lobby) (found : lobby.room_array key = some room)
    (assigned : after.room_array = StdMap.assign lobby.room_array key changed) :
    Numbered num after := by
  intro other
  rw [← numbered other, assigned]
  by_cases same : other = key
  · simp [same, found]
  · simp [same]

theorem assign_outside {key : Int32} {lobby after : LobbyManager} {room changed : Room}
    (found : lobby.room_array key = some room)
    (assigned : after.room_array = StdMap.assign lobby.room_array key changed) :
    after.room_array = lobby.room_array ↔ changed = room := by
  rw [assigned]
  constructor
  · intro same
    have here := congrFun same key
    rw [StdMap.assign_same, found] at here
    exact Option.some.inj here
  · rintro rfl
    funext other
    by_cases same : other = key
    · rw [same, StdMap.assign_same, found]
    · rw [StdMap.assign_other same]

theorem safe_assign {inGameServer : Terminal} {num : Int32} {lobby after : LobbyManager}
    {room changed : Room} (event : Event) (numbered : Numbered num lobby)
    (found : lobby.room_array (toInt event.room_num) = some room)
    (taken : step inGameServer lobby event = .ok after)
    (assigned : after.room_array =
      StdMap.assign lobby.room_array (toInt event.room_num) changed) :
    Safe inGameServer num lobby event ↔ Inside num event.room_num ∨ changed = room := by
  constructor
  · intro safe
    by_cases inside : Inside num event.room_num
    · exact Or.inl inside
    · exact Or.inr ((assign_outside found assigned).mp (safe.outside after taken inside))
  · intro fits
    constructor
    · simp [taken]
    · rintro next taken'
      cases taken.symm.trans taken'
      exact assign_numbered numbered found assigned
    · rintro next taken' beyond
      cases taken.symm.trans taken'
      rcases fits with inside | same
      · exact absurd inside beyond
      · exact (assign_outside found assigned).mpr same

/-! What `C_REQ_ENTER_ROOM` does, with all sessions registered. -/

section

variable {lobby : LobbyManager} {inGameServer : Terminal} {manager : SessionManager}
variable {session : SessionPtr} {member_count Room_num : UInt64} {room : Room}

theorem broadcast_registered (packet : Packet) {storage : List (oid_t × SessionPtr)}
    (registered : ∀ entry ∈ storage, Registered manager entry.2) :
    ∃ sent, broadcast manager packet storage = .ok sent := by
  induction storage with
  | nil => exact ⟨[], rfl⟩
  | cons entry rest ih =>
      obtain ⟨object, used⟩ := registered entry List.mem_cons_self
      obtain ⟨others, told⟩ := ih fun other member =>
        registered other (List.mem_cons_of_mem _ member)
      refine ⟨(.session entry.2, packet) :: others, ?_⟩
      simp [broadcast, used, told, bind, Except.bind, pure, Except.pure]

theorem notifyUsers_last (packet : Packet) (last : Room) (cleared : last.user1 = 0)
    (second : Registered manager last.user2) :
    notifyUsers manager packet 1 last =
      if (manager.session 0).isSome then .error .nullPointer
      else .ok ({ last with user2 := 0 }, [(.session last.user2, packet)]) := by
  obtain ⟨user2, used⟩ := second
  rw [notifyUsers, if_neg (not_not.mpr cleared)]
  cases manager.session 0 with
  | none => simp [used, bind, Except.bind, pure, Except.pure]
  | some object => simp [cleared, SessionManager.deref, bind, Except.bind]

theorem notifyUsers_lookups (packet : Packet) (first : Registered manager room.user1)
    (second : Registered manager room.user2) :
    (Lookups manager room.user1 →
      ∃ result, notifyUsers manager packet 2 room = .ok result) ∧
    (¬ Lookups manager room.user1 →
      notifyUsers manager packet 2 room = .error .nullPointer) := by
  obtain ⟨user1, used⟩ := first
  have occupied := (SessionManager.deref_ok used).2.2
  have last := notifyUsers_last packet { room with user1 := 0 } rfl second
  rw [notifyUsers, if_pos occupied]
  cases looked : manager.session 1 with
  | none =>
      obtain ⟨user2, usedSecond⟩ := second
      have quiet : Lookups manager room.user1 := by
        intro object present
        rw [looked] at present
        cases present
      refine ⟨fun _ => ⟨({ room with user2 := 0 }, [(.session room.user2, packet)]), ?_⟩,
        fun lost => absurd quiet lost⟩
      simp only [usedSecond, bind, Except.bind, pure, Except.pure]
  | some object =>
      simp only [used, bind, Except.bind]
      cases again : manager.session user1.id_ with
      | none =>
          refine ⟨?_, fun _ => rfl⟩
          intro looks
          obtain ⟨-, other, found, same, there⟩ := looks object looked
          rw [used] at same
          cases same
          rw [again] at there
          cases there
      | some found =>
          simp only [last]
          cases zero : manager.session 0 with
          | none =>
              have looks : Lookups manager room.user1 := by
                intro _ _
                exact ⟨zero, user1, found, used, again⟩
              exact ⟨fun _ => ⟨_, rfl⟩, fun lost => absurd looks lost⟩
          | some other =>
              refine ⟨?_, fun _ => rfl⟩
              intro looks
              have absent := (looks object looked).1
              rw [zero] at absent
              cases absent

theorem enter_absent (absent : lobby.room_array (toInt Room_num) = none) :
    ChattingServer.C_REQ_ENTER_ROOM lobby inGameServer manager session member_count Room_num =
      .error .nullPointer := by
  rw [C_REQ_ENTER_ROOM, LobbyManager.at_, absent]
  rfl

theorem enter_full (inGameServer : Terminal) (manager : SessionManager) (session : SessionPtr)
    (member_count : UInt64) (found : lobby.room_array (toInt Room_num) = some room)
    (full : 2 ≤ room.Current_member_in_room) :
    ChattingServer.C_REQ_ENTER_ROOM lobby inGameServer manager session member_count Room_num =
      .ok (lobby, []) := by
  simp only [C_REQ_ENTER_ROOM, LobbyManager.at_, found, bind, Except.bind, full, if_true]
  rfl

theorem enter_waits (inGameServer : Terminal)
    (found : lobby.room_array (toInt Room_num) = some room)
    (admitted : ¬ 2 ≤ room.Current_member_in_room) (waits : toInt (member_count + 1) ≠ 2)
    (sender : Registered manager session)
    (stored : ∀ entry ∈ lobby.session_storage, Registered manager entry.2) :
    ∃ sent, ChattingServer.C_REQ_ENTER_ROOM lobby inGameServer manager session member_count
      Room_num = .ok (lobby.put (toInt Room_num) (addMember room session member_count), sent) := by
  obtain ⟨object, used⟩ := sender
  obtain ⟨told, telling⟩ := broadcast_registered (.PK_S_ANS_ENTER_ROOM
    (addMember room session member_count).Current_member_in_room.toInt64.toUInt64 Room_num) stored
  refine ⟨told, ?_⟩
  rw [← Chat.addMember_count room session member_count] at waits
  simp only [C_REQ_ENTER_ROOM, LobbyManager.at_, found, bind, Except.bind, admitted, if_false,
    used, telling, waits]
  rfl

theorem enter_starts (inGameServer : Terminal)
    (found : lobby.room_array (toInt Room_num) = some room)
    (admitted : ¬ 2 ≤ room.Current_member_in_room) (fills : toInt (member_count + 1) = 2)
    (sender : Registered manager session)
    (stored : ∀ entry ∈ lobby.session_storage, Registered manager entry.2) :
    ∃ told, ChattingServer.C_REQ_ENTER_ROOM lobby inGameServer manager session member_count
        Room_num =
      (handOver (lobby.put (toInt Room_num) (addMember room session member_count)) inGameServer
        manager (addMember room session member_count) Room_num).bind fun result =>
          .ok (result.1, told ++ result.2) := by
  obtain ⟨object, used⟩ := sender
  obtain ⟨told, telling⟩ := broadcast_registered (.PK_S_ANS_ENTER_ROOM
    (addMember room session member_count).Current_member_in_room.toInt64.toUInt64 Room_num) stored
  refine ⟨told, ?_⟩
  rw [← Chat.addMember_count room session member_count] at fills
  rw [fills] at telling
  simp only [C_REQ_ENTER_ROOM, LobbyManager.at_, found, bind, Except.bind, admitted, if_false,
    used, telling, fills, if_true]
  rfl

theorem handOver_lookups (lobby : LobbyManager) (inGameServer : Terminal) (Room_num : UInt64)
    (first : Registered manager room.user1)
    (second : Registered manager room.user2) :
    (Lookups manager room.user1 → ∃ after sent,
      handOver lobby inGameServer manager room Room_num = .ok (after, sent)) ∧
    (¬ Lookups manager room.user1 →
      handOver lobby inGameServer manager room Room_num = .error .nullPointer) := by
  obtain ⟨finds, fails⟩ := notifyUsers_lookups
    (.PK_S_NOTIFY_SERVER_IP inGameServer.ip_ inGameServer.port_) first second
  obtain ⟨user1, usedFirst⟩ := first
  obtain ⟨user2, usedSecond⟩ := second
  constructor
  · intro looks
    obtain ⟨result, notified⟩ := finds looks
    simp only [handOver, usedFirst, usedSecond, notified, bind, Except.bind, pure, Except.pure]
    exact ⟨_, _, rfl⟩
  · intro lost
    simp only [handOver, usedFirst, usedSecond, fails lost, bind, Except.bind]

theorem handOver_alone (lobby : LobbyManager) (inGameServer : Terminal) (Room_num : UInt64)
    (alone : room.user2 = 0) (first : room.user1 = 0 ∨
    Registered manager room.user1) :
    handOver lobby inGameServer manager room Room_num = .error .nullPointer := by
  rcases first with null | ⟨user1, used⟩
  · simp [handOver, null, SessionManager.deref, bind, Except.bind]
  · simp only [handOver, used, bind, Except.bind]
    simp [alone, SessionManager.deref]

end

theorem addMember_eq (room : Room) (session : SessionPtr) (member_count : UInt64) :
    addMember room session member_count =
      { Current_member_in_room := toInt (member_count + 1)
        user1 := if room.user1 = 0 then session else room.user1
        user2 := if room.user1 = 0 then room.user2 else session } := by
  by_cases free : room.user1 = 0
  · simp [addMember, free]
  · simp [addMember, free]

theorem addMember_same {room : Room} {session : SessionPtr} {member_count : UInt64}
    (notNull : session ≠ 0) : addMember room session member_count = room ↔
      room.user1 ≠ 0 ∧ room.user2 = session ∧
        room.Current_member_in_room = toInt (member_count + 1) := by
  rw [addMember_eq]
  obtain ⟨count, user1, user2⟩ := room
  by_cases free : user1 = 0
  · simp [free, notNull]
  · simp only [free, if_false, Room.mk.injEq, ne_eq, not_false_eq_true, true_and]
    constructor
    · rintro ⟨counted, sits⟩
      exact ⟨sits.symm, counted.symm⟩
    · rintro ⟨sits, counted⟩
      exact ⟨counted.symm, sits.symm⟩

section

variable {inGameServer : Terminal} {num : Int32} {lobby : LobbyManager}
variable {manager : SessionManager} {session : SessionPtr} {member_count Room_num : UInt64}
variable {room : Room}

theorem step_enter {result : LobbyManager × List (Receiver × Packet)}
    (done : ChattingServer.C_REQ_ENTER_ROOM lobby inGameServer manager session member_count
      Room_num = .ok result) :
    step inGameServer lobby (.C_REQ_ENTER_ROOM manager session member_count Room_num) =
      .ok result.1 := by
  rw [step, done]
  rfl

theorem step_enter_fault {reason : Fault}
    (done : ChattingServer.C_REQ_ENTER_ROOM lobby inGameServer manager session member_count
      Room_num = .error reason) :
    step inGameServer lobby (.C_REQ_ENTER_ROOM manager session member_count Room_num) =
      .error reason := by
  rw [step, done]
  rfl

theorem not_safe_of_null {event : Event}
    (stopped : step inGameServer lobby event = .error .nullPointer) :
    ¬ Safe inGameServer num lobby event :=
  fun safe => safe.notNull stopped

theorem enter_fills_safe (numbered : Numbered num lobby)
    (registered : AllRegistered lobby
      (.C_REQ_ENTER_ROOM manager session member_count Room_num))
    (found : lobby.room_array (toInt Room_num) = some room)
    (admitted : ¬ 2 ≤ room.Current_member_in_room) (fills : toInt (member_count + 1) = 2) :
    Safe inGameServer num lobby (.C_REQ_ENTER_ROOM manager session member_count Room_num) ↔
      Inside num Room_num ∧ (room.user1 ≠ 0 ∨ room.user2 ≠ 0) ∧
        Lookups manager (if room.user1 = 0 then session else room.user1) := by
  obtain ⟨sender, stored, seated⟩ := registered
  obtain ⟨told, starting⟩ := enter_starts inGameServer found admitted fills sender stored
  generalize lobby.put (toInt Room_num) (addMember room session member_count) = entered at starting
  have first : (addMember room session member_count).user1 =
      if room.user1 = 0 then session else room.user1 := by rw [addMember_eq]
  have second : (addMember room session member_count).user2 =
      if room.user1 = 0 then room.user2 else session := by rw [addMember_eq]
  have usable : Registered manager (addMember room session member_count).user1 := by
    rw [first]
    split
    · exact sender
    · exact (seated _ _ found).1 ‹_›
  by_cases occupied : room.user1 ≠ 0 ∨ room.user2 ≠ 0
  · have usableSecond : Registered manager (addMember room session member_count).user2 := by
      rw [second]
      split
      · rename_i free
        exact (seated _ _ found).2 (occupied.resolve_left (not_not.mpr free))
      · exact sender
    obtain ⟨finds, fails⟩ := handOver_lookups entered inGameServer Room_num usable usableSecond
    rw [first] at finds fails
    by_cases looks : Lookups manager (if room.user1 = 0 then session else room.user1)
    · obtain ⟨after, sent, handed⟩ := finds looks
      rw [handed] at starting
      have full : Fills lobby session member_count Room_num room :=
        ⟨found, admitted, by rw [Chat.addMember_count, fills]⟩
      obtain ⟨_, _, _, _, _, -, -, -, -, assigned, -, -⟩ := fills_ok full starting
      have other : ({ Current_member_in_room := 2, user1 := 0, user2 := 0 } : Room) ≠ room := by
        rintro rfl
        exact admitted (by decide)
      rw [safe_assign (.C_REQ_ENTER_ROOM manager session member_count Room_num) numbered found
        (step_enter starting) assigned]
      simp only [other, or_false, occupied, looks, and_true]
      rfl
    · rw [fails looks] at starting
      exact iff_of_false (not_safe_of_null (step_enter_fault starting)) fun holds => looks holds.2.2
  · have alone : (addMember room session member_count).user2 = 0 := by
      rw [second]
      simp only [not_or, not_not] at occupied
      rw [if_pos occupied.1]
      exact occupied.2
    rw [handOver_alone entered inGameServer Room_num alone (Or.inr usable)] at starting
    exact iff_of_false (not_safe_of_null (step_enter_fault starting)) fun holds => occupied holds.2.1

theorem enter_safe (numbered : Numbered num lobby)
    (registered : AllRegistered lobby
      (.C_REQ_ENTER_ROOM manager session member_count Room_num)) :
    Safe inGameServer num lobby (.C_REQ_ENTER_ROOM manager session member_count Room_num) ↔
      Harmless num lobby (.C_REQ_ENTER_ROOM manager session member_count Room_num) := by
  cases found : lobby.room_array (toInt Room_num) with
  | none =>
      refine iff_of_false (not_safe_of_null (step_enter_fault (enter_absent found))) ?_
      rintro ⟨room, there, -⟩
      rw [found] at there
      cases there
  | some room =>
      have here (condition : Room → Prop) : (∃ other,
          lobby.room_array (toInt Room_num) = some other ∧ condition other) ↔ condition room := by
        simp [found]
      rw [Harmless, here]
      by_cases full : 2 ≤ room.Current_member_in_room
      · refine iff_of_true ?_ fun admitted => absurd full admitted
        have taken := step_enter (enter_full inGameServer manager session member_count found full)
        constructor
        · simp [taken]
        · intro next taken'
          cases taken.symm.trans taken'
          exact numbered
        · intro next taken' _
          cases taken.symm.trans taken'
          rfl
      · simp only [full, not_false_eq_true, true_implies]
        split
        · rename_i fills
          exact enter_fills_safe numbered registered found full fills
        · rename_i waits
          obtain ⟨sender, stored, -⟩ := registered
          obtain ⟨object, used⟩ := sender
          have notNull := (SessionManager.deref_ok used).2.2
          obtain ⟨sent, entered⟩ := enter_waits inGameServer found full waits ⟨object, used⟩ stored
          rw [safe_assign (.C_REQ_ENTER_ROOM manager session member_count Room_num) numbered found
            (step_enter entered) rfl, addMember_same notNull]
          rfl

end

theorem initialize_safe {inGameServer : Terminal} {num : Int32} {lobby : LobbyManager}
    {room_num member_count : UInt64} (numbered : Numbered num lobby) :
    Safe inGameServer num lobby (.I_INITIALIZE_ROOMMEMBER room_num member_count) ↔
      Harmless num lobby (.I_INITIALIZE_ROOMMEMBER room_num member_count) := by
  cases found : lobby.room_array (toInt room_num) with
  | none =>
      have stopped : step inGameServer lobby (.I_INITIALIZE_ROOMMEMBER room_num member_count) =
          .error .nullPointer := by
        simp only [step, ChattingServer.I_INITIALIZE_ROOMMEMBER, LobbyManager.at_, found, bind,
          Except.bind]
      refine iff_of_false (not_safe_of_null stopped) ?_
      rintro ⟨room, there, -⟩
      rw [found] at there
      cases there
  | some room =>
      have taken : step inGameServer lobby (.I_INITIALIZE_ROOMMEMBER room_num member_count) =
          .ok (lobby.put (toInt room_num)
            { room with Current_member_in_room := toInt member_count }) := by
        simp only [step, ChattingServer.I_INITIALIZE_ROOMMEMBER, LobbyManager.at_, found, bind,
          Except.bind, pure, Except.pure]
      rw [safe_assign (.I_INITIALIZE_ROOMMEMBER room_num member_count) numbered found taken rfl]
      obtain ⟨count, user1, user2⟩ := room
      simp only [Event.room_num, Harmless, found, Option.some.injEq, exists_eq_left',
        Room.mk.injEq, and_true]
      exact or_congr_right eq_comm

theorem step_numbered {inGameServer : Terminal} {num : Int32} {lobby next : LobbyManager}
    {event : Event} (numbered : Numbered num lobby)
    (taken : step inGameServer lobby event = .ok next) : Numbered num next := by
  cases event with
  | C_REQ_ENTER_ROOM manager session member_count Room_num =>
      obtain ⟨⟨lobby', sent⟩, entered, taken⟩ := Exec.bind_ok taken
      cases taken
      cases C_REQ_ENTER_ROOM_ok entered with
      | refused _ _ same _ => rwa [same]
      | waiting found _ _ _ assigned _ => exact assign_numbered numbered found assigned
      | started found _ _ _ _ assigned _ => exact assign_numbered numbered found assigned
  | I_INITIALIZE_ROOMMEMBER room_num member_count =>
      obtain ⟨room, found, taken⟩ := Exec.bind_ok taken
      cases taken
      exact assign_numbered numbered (at_ok found) rfl

/-- In all states that the packets lead to from `Init`, the next packet is safe
exactly when it is harmless. -/
theorem lobby_safe_iff (inGameServer : Terminal) (num : Int32) (events : List Event) :
    Runs.Offered (step inGameServer)
        (fun lobby event => AllRegistered lobby event → Safe inGameServer num lobby event)
        (LobbyManager.Init num) events ↔
      Runs.Offered (step inGameServer)
        (fun lobby event => AllRegistered lobby event → Harmless num lobby event)
        (LobbyManager.Init num) events := by
  refine Runs.Offered.congr (fun _ _ _ numbered _ => step_numbered numbered) ?_ (init_numbered num)
  intro lobby event numbered
  apply forall_congr'
  intro registered
  cases event with
  | C_REQ_ENTER_ROOM manager session member_count Room_num => exact enter_safe numbered registered
  | I_INITIALIZE_ROOMMEMBER room_num member_count => exact initialize_safe numbered

theorem init_registered (num : Int32) {manager : SessionManager} {session : SessionPtr}
    (member_count Room_num : UInt64) (sender : Registered manager session) :
    AllRegistered (LobbyManager.Init num)
      (.C_REQ_ENTER_ROOM manager session member_count Room_num) := by
  refine ⟨sender, by simp [LobbyManager.Init], ?_⟩
  intro key room found
  simp only [LobbyManager.Init] at found
  split at found
  · cases found
    exact ⟨fun somebody => absurd rfl somebody, fun somebody => absurd rfl somebody⟩
  · cases found

/-- A client enters the only room, which is empty, and says that one is there:
the game starts without a second user. -/
theorem safe_counted_alone :
    ¬ ∀ (inGameServer : Terminal) (num : Int32) (events : List Event),
      Runs.Offered (step inGameServer)
        (fun lobby event => AllRegistered lobby event → Safe inGameServer num lobby event)
        (LobbyManager.Init num) events := by
  intro every
  let inGameServer : Terminal := { ip_ := [], port_ := 9300 }
  let event : Event := .C_REQ_ENTER_ROOM threeClients 16 1 0
  have sender : Registered threeClients 16 := by
    refine SessionManager.deref_registered ?_ (by decide)
    unfold SessionManager.Allocated
    decide
  have stopped : Runs.stop (step inGameServer) event (LobbyManager.Init 1) =
      some .nullPointer := by decide
  have safe := (every inGameServer 1 [event]).1 (init_registered 1 1 0 sender)
  exact safe.notNull (Runs.stop_some stopped)

end LobbyPackets

end ChattingServer

end GraduationServer
