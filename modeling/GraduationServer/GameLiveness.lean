import GraduationServer.RequestFaults
import GraduationServer.RoomIsolation
import GraduationServer.UserInfoRetry

/-!
Whether the sessions that the game handlers send to are still there. An id is
unbound with any room that has it as a member, and stays bound when its session
is closed.
-/

namespace GraduationServer

namespace InGameServer

def lookedUp (rooms : Rooms) (manager : SessionManager) (id : oid_t) : SessionPtr :=
  (rooms.simpleSessionManager id).getD (sessionPtr manager id)

def bindBoth (rooms : Rooms) (manager : SessionManager) (User1_ID User2_ID : UInt64) : Rooms :=
  (rooms.Insert_Sessions User1_ID (sessionPtr manager User1_ID)).Insert_Sessions User2_ID
    (sessionPtr manager User2_ID)

theorem bindBoth_keeps {rooms : Rooms} {manager : SessionManager} {User1_ID User2_ID : UInt64}
    {id : oid_t} {session : SessionPtr} (held : rooms.simpleSessionManager id = some session) :
    (bindBoth rooms manager User1_ID User2_ID).simpleSessionManager id = some session :=
  StdMap.insert_present User2_ID _ (StdMap.insert_present User1_ID _ held)

section

variable (rooms : Rooms) (manager : SessionManager) (room_Num User1_ID User2_ID : UInt64)

theorem bindBoth_User1 : (bindBoth rooms manager User1_ID User2_ID).simpleSessionManager User1_ID =
    some (lookedUp rooms manager User1_ID) :=
  StdMap.insert_present User2_ID _ (StdMap.insert_same _ _ _)

theorem bindBoth_User2 : (bindBoth rooms manager User1_ID User2_ID).simpleSessionManager User2_ID =
    some (lookedUp rooms manager User2_ID) := by
  by_cases same : User2_ID = User1_ID
  · subst same
    exact bindBoth_User1 rooms manager User2_ID User2_ID
  · have first : (rooms.Insert_Sessions User1_ID
        (sessionPtr manager User1_ID)).simpleSessionManager User2_ID =
        rooms.simpleSessionManager User2_ID := StdMap.insert_other same
    rw [lookedUp, ← first]
    exact StdMap.insert_same _ _ _

theorem bindBoth_found : (bindBoth rooms manager User1_ID User2_ID).Find_sessions User1_ID =
      lookedUp rooms manager User1_ID ∧
    (bindBoth rooms manager User1_ID User2_ID).Find_sessions User2_ID =
      lookedUp rooms manager User2_ID := by
  constructor
  · rw [Rooms.Find_sessions, bindBoth_User1, Option.getD_some]
  · rw [Rooms.Find_sessions, bindBoth_User2, Option.getD_some]

theorem bindUsers_once (tries : Nat) :
    bindUsers manager User1_ID User2_ID (tries + 1) rooms =
      (bindBoth rooms manager User1_ID User2_ID,
        if lookedUp rooms manager User1_ID = 0 ∨ lookedUp rooms manager User2_ID = 0 then none
        else some (lookedUp rooms manager User1_ID, lookedUp rooms manager User2_ID)) := by
  have bound : BothBound (bindBoth rooms manager User1_ID User2_ID) User1_ID User2_ID := by
    rw [BothBound, bindBoth_User1, bindBoth_User2]
    simp
  obtain ⟨found1, found2⟩ := bindBoth_found rooms manager User1_ID User2_ID
  rw [bindUsers]
  change (if (bindBoth rooms manager User1_ID User2_ID).Find_sessions User1_ID = 0 ∨
      (bindBoth rooms manager User1_ID User2_ID).Find_sessions User2_ID = 0 then
        bindUsers manager User1_ID User2_ID tries (bindBoth rooms manager User1_ID User2_ID)
      else (bindBoth rooms manager User1_ID User2_ID,
        some ((bindBoth rooms manager User1_ID User2_ID).Find_sessions User1_ID,
          (bindBoth rooms manager User1_ID User2_ID).Find_sessions User2_ID))) = _
  have stuck := @bindUsersDuring_stuck (fun _ => manager) User1_ID User2_ID _ bound
  simp only [bindUsersDuring_const, found1, found2] at stuck ⊢
  by_cases null : lookedUp rooms manager User1_ID = 0 ∨ lookedUp rooms manager User2_ID = 0
  · rw [if_pos null, if_pos null, stuck null tries 0]
  · rw [if_neg null, if_neg null]

theorem I_USER_INFO_failed
    (null : lookedUp rooms manager User1_ID = 0 ∨ lookedUp rooms manager User2_ID = 0) :
    let tempRoom : Room := { User1_ID, User2_ID, total_exploded_enemy := 0 }
    I_USER_INFO rooms manager room_Num User1_ID User2_ID =
      .ok ((bindBoth (rooms.Insert_User_Info (toInt room_Num) tempRoom) manager User1_ID
          User2_ID).destroy (toInt room_Num) tempRoom,
        [(.terminal .ChattingServer, .PK_I_INITIALIZE_ROOMMEMBER room_Num 0)]) := by
  intro tempRoom
  rw [I_USER_INFO, bindUsers_once _ _ _ _ 2]
  change lookedUp (rooms.Insert_User_Info (toInt room_Num) tempRoom) manager User1_ID = 0 ∨
    lookedUp (rooms.Insert_User_Info (toInt room_Num) tempRoom) manager User2_ID = 0 at null
  rw [if_pos null]

theorem I_USER_INFO_found
    (notNull : ¬ (lookedUp rooms manager User1_ID = 0 ∨ lookedUp rooms manager User2_ID = 0)) :
    let tempRoom : Room := { User1_ID, User2_ID, total_exploded_enemy := 0 }
    I_USER_INFO rooms manager room_Num User1_ID User2_ID = do
      let first ← sendTo manager (lookedUp rooms manager User1_ID) (.PK_S_REQ_ON_GAME room_Num)
      let second ← sendTo manager (lookedUp rooms manager User2_ID) (.PK_S_REQ_ON_GAME room_Num)
      return (bindBoth (rooms.Insert_User_Info (toInt room_Num) tempRoom) manager User1_ID
        User2_ID, first ++ second) := by
  intro tempRoom
  rw [I_USER_INFO, bindUsers_once _ _ _ _ 2]
  change ¬ (lookedUp (rooms.Insert_User_Info (toInt room_Num) tempRoom) manager User1_ID = 0 ∨
    lookedUp (rooms.Insert_User_Info (toInt room_Num) tempRoom) manager User2_ID = 0) at notNull
  rw [if_neg notNull]
  rfl

end

def Rooms.AllBound (rooms : Rooms) : Prop :=
  ∀ key room, rooms.roomArr key = some room → ∀ id, room.Member id → rooms.Find_sessions id ≠ 0

def Rooms.Apart (rooms : Rooms) (key : Int32) (room : Room) : Prop :=
  ∀ other elsewhere, other ≠ key → rooms.roomArr other = some elsewhere →
    ∀ id, room.Member id → ¬ elsewhere.Member id

theorem destroy_unbinds {room : Room} {id : oid_t} (member : room.Member id) (rooms : Rooms)
    (key : Int32) : (rooms.destroy key room).Find_sessions id = 0 := by
  rcases member with rfl | rfl
  · by_cases same : room.User1_ID = room.User2_ID
    · simp [Rooms.destroy, Rooms.Delete_Sessions, Rooms.Find_sessions, same]
    · simp [Rooms.destroy, Rooms.Delete_Sessions, Rooms.Find_sessions, same]
  · simp [Rooms.destroy, Rooms.Delete_Sessions, Rooms.Find_sessions]

theorem destroy_spares {room : Room} {id : oid_t} (stranger : ¬ room.Member id) (rooms : Rooms)
    (key : Int32) : (rooms.destroy key room).Find_sessions id = rooms.Find_sessions id := by
  obtain ⟨first, second⟩ := not_or.mp stranger
  simp [Rooms.destroy, Rooms.Delete_Sessions, Rooms.Find_sessions, first, second]

theorem destroy_allBound {rooms : Rooms} {key : Int32} {room : Room}
    (others : ∀ other elsewhere, other ≠ key → rooms.roomArr other = some elsewhere →
      ∀ id, elsewhere.Member id → rooms.Find_sessions id ≠ 0) :
    (rooms.destroy key room).AllBound ↔ rooms.Apart key room := by
  constructor
  · intro bound other elsewhere different found id member shared
    have still : (rooms.destroy key room).roomArr other = some elsewhere := by
      rw [← found]
      exact StdMap.erase_other different
    exact bound other elsewhere still id shared (destroy_unbinds member rooms key)
  · intro apart other elsewhere still id member
    have different : other ≠ key := by
      rintro rfl
      exact absurd still (by simp [Rooms.destroy, Rooms.Delete_Sessions])
    have found : rooms.roomArr other = some elsewhere := StdMap.erase_some still
    have stranger : ¬ room.Member id :=
      fun shared => apart other elsewhere different found id shared member
    rw [destroy_spares stranger]
    exact others other elsewhere different found id member

def Ends (packet : Packet) (room : Room) (id : oid_t) : Prop :=
  match packet with
  | .PK_C_REQ_BOSS_EXPLOSION _ => id = room.User1_ID
  | _ => False

def SameMembers (rooms after : Rooms) : Prop :=
  ∀ key later, after.roomArr key = some later → ∃ room, rooms.roomArr key = some room ∧
    room.User1_ID = later.User1_ID ∧ room.User2_ID = later.User2_ID

theorem SameMembers.refl (rooms : Rooms) : SameMembers rooms rooms :=
  fun _ later found => ⟨later, found, rfl, rfl⟩

section

variable {rooms after : Rooms} {manager : SessionManager} {session : SessionPtr}
variable {sent : List (Receiver × Packet)}

theorem C_REQ_PLAYER_MOVE_rooms {Room_num : UInt64} {x y : RawFloat}
    (done : C_REQ_PLAYER_MOVE rooms manager session Room_num x y = .ok (after, sent)) :
    after = rooms := by
  rw [C_REQ_PLAYER_MOVE] at done
  split at done
  · cases done
    rfl
  · obtain ⟨object, used, done⟩ := Exec.bind_ok done
    dsimp only at done
    split_ifs at done
    · cases done
      rfl
    · obtain ⟨told, -, done⟩ := Exec.bind_ok done
      cases done
      rfl
    · cases done
      rfl
    · obtain ⟨told, -, done⟩ := Exec.bind_ok done
      cases done
      rfl
    · cases done
      rfl

theorem C_REQ_FIRE_BULLET_rooms {room_num : UInt64} {x y : RawFloat}
    (done : C_REQ_FIRE_BULLET rooms manager session room_num x y = .ok (after, sent)) :
    after = rooms := by
  rw [C_REQ_FIRE_BULLET] at done
  split at done
  · cases done
    rfl
  · obtain ⟨object, used, done⟩ := Exec.bind_ok done
    dsimp only at done
    split_ifs at done
    · obtain ⟨told, -, done⟩ := Exec.bind_ok done
      cases done
      rfl
    · obtain ⟨told, -, done⟩ := Exec.bind_ok done
      cases done
      rfl
    · cases done
      rfl

theorem C_REQ_MAKE_ENEMY_rooms {room_num : UInt64} {x : RawFloat}
    (done : C_REQ_MAKE_ENEMY rooms manager session room_num x = .ok (after, sent)) :
    after = rooms := by
  rw [C_REQ_MAKE_ENEMY] at done
  split at done
  · cases done
    rfl
  · split at done
    · cases done
      rfl
    · obtain ⟨object, used, done⟩ := Exec.bind_ok done
      dsimp only at done
      split_ifs at done
      · cases done
        rfl
      · obtain ⟨second, -, done⟩ := Exec.bind_ok done
        obtain ⟨first, -, done⟩ := Exec.bind_ok done
        cases done
        rfl
      · cases done
        rfl

theorem C_REQ_MAKE_BOSS_rooms {room_num : UInt64}
    (done : C_REQ_MAKE_BOSS rooms manager session room_num = .ok (after, sent)) :
    after = rooms := by
  rw [C_REQ_MAKE_BOSS] at done
  split at done
  · cases done
    rfl
  · obtain ⟨object, used, done⟩ := Exec.bind_ok done
    split_ifs at done
    · obtain ⟨first, -, done⟩ := Exec.bind_ok done
      obtain ⟨second, -, done⟩ := Exec.bind_ok done
      cases done
      rfl
    · cases done
      rfl

theorem C_REQ_ENEMY_EXPLOSION_rooms {room_num enemycount : UInt64}
    (done : C_REQ_ENEMY_EXPLOSION rooms manager session room_num enemycount = .ok (after, sent)) :
    after.simpleSessionManager = rooms.simpleSessionManager ∧ SameMembers rooms after := by
  rw [C_REQ_ENEMY_EXPLOSION] at done
  split at done
  · cases done
    exact ⟨rfl, SameMembers.refl rooms⟩
  · rename_i room found
    obtain ⟨object, used, done⟩ := Exec.bind_ok done
    split_ifs at done
    · obtain ⟨told, -, done⟩ := Exec.bind_ok done
      cases done
      refine ⟨rfl, ?_⟩
      intro key later here
      rcases StdMap.assign_some here with earlier | ⟨rfl, rfl⟩
      · exact ⟨later, earlier, rfl, rfl⟩
      · exact ⟨room, found, rfl, rfl⟩
    · cases done
      exact ⟨rfl, SameMembers.refl rooms⟩

theorem C_REQ_BOSS_EXPLOSION_rooms {terminal : Terminal} {room_num : UInt64}
    (done : C_REQ_BOSS_EXPLOSION rooms terminal manager session room_num = .ok (after, sent)) :
    (∃ object room, manager.deref session = .ok object ∧
      rooms.roomArr (toInt room_num) = some room ∧ object.id_ = room.User1_ID ∧
      after = rooms.destroy (toInt room_num) room) ∨
    (∀ object room, manager.deref session = .ok object →
      rooms.roomArr (toInt room_num) = some room → object.id_ ≠ room.User1_ID) ∧ after = rooms := by
  rw [C_REQ_BOSS_EXPLOSION] at done
  split at done
  · rename_i absent
    cases done
    refine Or.inr ⟨?_, rfl⟩
    intro object room _ found
    rw [absent] at found
    cases found
  · rename_i room found
    obtain ⟨object, used, done⟩ := Exec.bind_ok done
    split_ifs at done with first
    · obtain ⟨told, -, done⟩ := Exec.bind_ok done
      obtain ⟨others, -, done⟩ := Exec.bind_ok done
      cases done
      exact Or.inl ⟨object, room, used, found, first, rfl⟩
    · cases done
      refine Or.inr ⟨?_, rfl⟩
      intro other elsewhere usedToo foundToo
      rw [used, Except.ok.injEq] at usedToo
      rw [found, Option.some.injEq] at foundToo
      exact usedToo ▸ foundToo ▸ first

theorem request_rooms {terminal : Terminal} {packet : Packet}
    (done : request rooms terminal manager session packet = .ok (after, sent)) :
    (∃ object room_num room, manager.deref session = .ok object ∧
      askedRoom packet = some room_num ∧ rooms.roomArr (toInt room_num) = some room ∧
      Ends packet room object.id_ ∧ after = rooms.destroy (toInt room_num) room) ∨
    (∀ object room_num room, manager.deref session = .ok object →
      askedRoom packet = some room_num → rooms.roomArr (toInt room_num) = some room →
      ¬ Ends packet room object.id_) ∧
    after.simpleSessionManager = rooms.simpleSessionManager ∧ SameMembers rooms after := by
  cases packet with
  | PK_C_REQ_PLAYER_MOVE Room_num x y =>
      rw [C_REQ_PLAYER_MOVE_rooms done]
      exact Or.inr ⟨fun _ _ _ _ _ _ ends => ends, rfl, SameMembers.refl rooms⟩
  | PK_C_REQ_FIRE_BULLET room_num x y =>
      rw [C_REQ_FIRE_BULLET_rooms done]
      exact Or.inr ⟨fun _ _ _ _ _ _ ends => ends, rfl, SameMembers.refl rooms⟩
  | PK_C_REQ_MAKE_ENEMY room_num x =>
      rw [C_REQ_MAKE_ENEMY_rooms done]
      exact Or.inr ⟨fun _ _ _ _ _ _ ends => ends, rfl, SameMembers.refl rooms⟩
  | PK_C_REQ_ENEMY_EXPLOSION room_num enemycount =>
      exact Or.inr ⟨fun _ _ _ _ _ _ ends => ends, C_REQ_ENEMY_EXPLOSION_rooms done⟩
  | PK_C_REQ_MAKE_BOSS room_num =>
      rw [C_REQ_MAKE_BOSS_rooms done]
      exact Or.inr ⟨fun _ _ _ _ _ _ ends => ends, rfl, SameMembers.refl rooms⟩
  | PK_C_REQ_BOSS_EXPLOSION room_num =>
      rcases C_REQ_BOSS_EXPLOSION_rooms done with
        ⟨object, room, used, found, first, rfl⟩ | ⟨notFirst, rfl⟩
      · exact Or.inl ⟨object, room_num, room, used, rfl, found, first, rfl⟩
      · refine Or.inr ⟨?_, rfl, SameMembers.refl after⟩
        intro object other room used asks found
        cases asks
        exact notFirst object room used found
  | _ => cases done

theorem Find_sessions_kept {id : oid_t}
    (keeps : ∀ session, rooms.simpleSessionManager id = some session →
      after.simpleSessionManager id = some session)
    (notNull : rooms.Find_sessions id ≠ 0) : after.Find_sessions id ≠ 0 := by
  rw [Rooms.Find_sessions] at notNull ⊢
  cases held : rooms.simpleSessionManager id with
  | none => simp [held] at notNull
  | some session =>
      rw [keeps session held]
      rwa [held] at notNull

theorem sameMembers_allBound (same : after.simpleSessionManager = rooms.simpleSessionManager)
    (members : SameMembers rooms after) (bound : rooms.AllBound) : after.AllBound := by
  intro key later found id member
  obtain ⟨room, earlier, first, second⟩ := members key later found
  rw [Rooms.Find_sessions, same]
  rw [Room.Member, ← first, ← second] at member
  exact bound key room earlier id member

end

namespace Game

/-- Every member of every room is bound to its own session, which lives. -/
structure Live (game : Game) : Prop where
  allocated : game.manager.Allocated
  bound : game.Bound
  members : game.rooms.AllBound

def Connected (game : Game) : Event → Prop
  | .request session _ => game.manager.registered session = true
  | _ => True

/-- Whatever is handled next, every member that it is sent to is registered. -/
def Addressed (chattingServer : Terminal) (game : Game) : Prop :=
  ∀ event reason, game.Connected event → game.step chattingServer event = .error reason →
    reason = .notEnabled

/-- No session goes while an id is bound to it, and no room goes, at a failed
`I_USER_INFO` or at its end, that shares a member with another one. -/
def Keeps (game : Game) : Event → Prop
  | .accept _ _ => True
  | .disconnected session => ∀ id, game.rooms.simpleSessionManager id ≠ some session
  | .I_USER_INFO room_Num User1_ID User2_ID =>
      lookedUp game.rooms game.manager User1_ID = 0 ∨
        lookedUp game.rooms game.manager User2_ID = 0 →
      game.rooms.Apart (toInt room_Num) { User1_ID, User2_ID, total_exploded_enemy := 0 }
  | .request session packet => ∀ object room_num room, game.manager.deref session = .ok object →
      askedRoom packet = some room_num → game.rooms.roomArr (toInt room_num) = some room →
      Ends packet room object.id_ → game.rooms.Apart (toInt room_num) room

section

variable {chattingServer : Terminal} {game next : Game} {event : Event}

theorem found_lives (bound : game.Bound) {id : oid_t}
    (notNull : game.rooms.Find_sessions id ≠ 0) :
    ∃ object, game.manager.deref (game.rooms.Find_sessions id) = .ok object ∧ object.id_ = id := by
  obtain ⟨object, lives, address, bears⟩ := Find_sessions_bound bound notNull
  rw [← address] at notNull ⊢
  exact ⟨object, SessionManager.deref_lives lives notNull, bears⟩

theorem lookedUp_lives (bound : game.Bound) {id : oid_t}
    (notNull : lookedUp game.rooms game.manager id ≠ 0) :
    ∃ object, game.manager.deref (lookedUp game.rooms game.manager id) = .ok object := by
  rw [lookedUp] at notNull ⊢
  cases held : game.rooms.simpleSessionManager id with
  | none =>
      simp only [held, Option.getD_none] at notNull ⊢
      obtain ⟨object, lives, address, -⟩ := sessionPtr_bears notNull
      rw [← address] at notNull ⊢
      exact ⟨object, SessionManager.deref_lives lives notNull⟩
  | some session =>
      simp only [held, Option.getD_some] at notNull ⊢
      obtain ⟨object, lives, rfl, -⟩ := bound id session held notNull
      exact ⟨object, SessionManager.deref_lives lives notNull⟩

theorem untested_member {packet : Packet} {room : Room} {id peer : oid_t}
    (answers : untested packet room id = some peer) : room.Member peer := by
  cases packet with
  | PK_C_REQ_FIRE_BULLET room_num x y =>
      simp only [untested] at answers
      split_ifs at answers
      · exact Or.inr (Option.some.inj answers).symm
      · exact Or.inl (Option.some.inj answers).symm
  | PK_C_REQ_MAKE_BOSS room_num =>
      simp only [untested] at answers
      split_ifs at answers
      exact Or.inr (Option.some.inj answers).symm
  | PK_C_REQ_BOSS_EXPLOSION room_num =>
      simp only [untested] at answers
      split_ifs at answers
      exact Or.inr (Option.some.inj answers).symm
  | _ => cases answers

theorem live_addressed (live : game.Live) : game.Addressed chattingServer := by
  intro event reason connected stopped
  cases event with
  | accept session addrInfo_ =>
      rcases Exec.bind_error stopped with refused | ⟨_, -, done⟩
      · rw [SessionManager.accept] at refused
        split at refused <;> cases refused
        rfl
      · cases done
  | disconnected session =>
      rw [step] at stopped
      split at stopped <;> cases stopped
      rfl
  | I_USER_INFO room_Num User1_ID User2_ID =>
      rcases Exec.bind_error stopped with failing | ⟨_, -, done⟩
      · by_cases null : lookedUp game.rooms game.manager User1_ID = 0 ∨
          lookedUp game.rooms game.manager User2_ID = 0
        · rw [I_USER_INFO_failed _ _ _ _ _ null] at failing
          cases failing
        · obtain ⟨notNull1, notNull2⟩ := not_or.mp null
          obtain ⟨first, used1⟩ := lookedUp_lives live.bound notNull1
          obtain ⟨second, used2⟩ := lookedUp_lives live.bound notNull2
          rw [I_USER_INFO_found _ _ _ _ _ null, sendTo_used used1, sendTo_used used2] at failing
          cases failing
      · cases done
  | request session packet =>
      obtain ⟨object, used⟩ := SessionManager.deref_registered live.allocated connected
      rcases Exec.bind_error stopped with failing | ⟨_, -, done⟩
      · rcases request_fault used failing with refused | ⟨room_num, room, -, found, fault⟩
        · exact refused
        · cases fault with
          | null answers null =>
              exact absurd null (live.members _ room found _ (untested_member answers))
          | freed _ notNull gone =>
              obtain ⟨peer, usedPeer, -⟩ := found_lives live.bound notNull
              obtain ⟨lives, address, -⟩ := SessionManager.deref_ok usedPeer
              have present := SessionManager.registered_iff.mpr ⟨peer, lives, address⟩
              rw [gone] at present
              cases present
      · cases done

theorem disconnected_live {session : SessionPtr} (live : game.Live)
    (registered : game.manager.registered session = true) :
    Live { game with manager := game.manager.closeSession session } ↔
      game.Keeps (.disconnected session) := by
  constructor
  · intro after id held
    have notNull := live.allocated.notNull registered
    obtain ⟨object, stays, same, -⟩ := after.bound id session held notNull
    have present := SessionManager.registered_iff.mpr ⟨object, stays, same⟩
    exact (SessionManager.registered_closeSession.mp present).2 rfl
  · intro stays
    refine ⟨SessionManager.closeSession_allocated live.allocated session, ?_, live.members⟩
    have taken : game.step { ip_ := [], port_ := 0 } (.disconnected session) =
        .ok { game with manager := game.manager.closeSession session } := if_pos registered
    have spared : game.Stays (.disconnected session) := stays
    exact step_bound live.bound spared taken

theorem destroyed_live {rooms : Rooms} {key : Int32} {room : Room}
    (live : game.Live) (binds : BindsFound game.manager game.rooms (rooms.destroy key room))
    (others : ∀ other, other ≠ key → rooms.roomArr other = game.rooms.roomArr other)
    (keeps : ∀ id session, game.rooms.simpleSessionManager id = some session →
      rooms.simpleSessionManager id = some session) :
    Live { game with rooms := rooms.destroy key room } ↔ game.rooms.Apart key room := by
  have bound : ∀ other elsewhere, other ≠ key → rooms.roomArr other = some elsewhere →
      ∀ id, elsewhere.Member id → rooms.Find_sessions id ≠ 0 := by
    intro other elsewhere different found id member
    rw [others other different] at found
    exact Find_sessions_kept (keeps id) (live.members other elsewhere found id member)
  have apart : rooms.Apart key room ↔ game.rooms.Apart key room := by
    constructor
    · intro apart other elsewhere different found
      exact apart other elsewhere different ((others other different).trans found)
    · intro apart other elsewhere different found
      exact apart other elsewhere different ((others other different).symm.trans found)
  rw [← apart, ← destroy_allBound bound]
  constructor
  · exact Live.members
  · intro members
    exact ⟨live.allocated, rooms_bound live.bound binds, members⟩

theorem I_USER_INFO_live {room_Num User1_ID User2_ID : UInt64} {after : Rooms}
    {sent : List (Receiver × Packet)} (live : game.Live)
    (done : InGameServer.I_USER_INFO game.rooms game.manager room_Num User1_ID User2_ID =
      .ok (after, sent)) :
    Live { game with rooms := after } ↔ game.Keeps (.I_USER_INFO room_Num User1_ID User2_ID) := by
  let tempRoom : Room := { User1_ID, User2_ID, total_exploded_enemy := 0 }
  have binds : BindsFound game.manager game.rooms after := by
    cases I_USER_INFO_ok done with
    | started _ binds => exact binds
    | failed _ binds => exact binds
  have keeps : ∀ id session, game.rooms.simpleSessionManager id = some session →
      (bindBoth (game.rooms.Insert_User_Info (toInt room_Num) tempRoom) game.manager User1_ID
        User2_ID).simpleSessionManager id = some session :=
    fun id session held => bindBoth_keeps held
  by_cases null : lookedUp game.rooms game.manager User1_ID = 0 ∨
      lookedUp game.rooms game.manager User2_ID = 0
  · rw [I_USER_INFO_failed _ _ _ _ _ null, Except.ok.injEq, Prod.mk.injEq] at done
    obtain ⟨rfl, -⟩ := done
    simp only [Keeps, null, forall_const]
    exact destroyed_live live binds (fun other different => StdMap.insert_other different) keeps
  · refine iff_of_true ?_ fun isNull => absurd isNull null
    rw [I_USER_INFO_found _ _ _ _ _ null] at done
    obtain ⟨first, -, done⟩ := Exec.bind_ok done
    obtain ⟨second, -, done⟩ := Exec.bind_ok done
    cases done
    refine ⟨live.allocated, rooms_bound live.bound binds, ?_⟩
    intro key room found id member
    obtain ⟨found1, found2⟩ := bindBoth_found
      (game.rooms.Insert_User_Info (toInt room_Num) tempRoom) game.manager User1_ID User2_ID
    obtain ⟨notNull1, notNull2⟩ := not_or.mp null
    rcases StdMap.insert_some found with earlier | ⟨rfl, rfl⟩
    · exact Find_sessions_kept (keeps id) (live.members key room earlier id member)
    · rcases member with rfl | rfl
      · rw [found1]
        exact notNull1
      · rw [found2]
        exact notNull2

theorem request_live {session : SessionPtr} {packet : Packet} {after : Rooms}
    {sent : List (Receiver × Packet)} (live : game.Live)
    (done : InGameServer.request game.rooms chattingServer game.manager session packet =
      .ok (after, sent)) :
    Live { game with rooms := after } ↔ game.Keeps (.request session packet) := by
  have binds := request_binds done
  rcases request_rooms done with
    ⟨object, room_num, room, used, asks, found, ends, rfl⟩ | ⟨stays, same, members⟩
  · rw [destroyed_live live binds (fun _ _ => rfl) fun _ _ held => held]
    constructor
    · intro apart other number elsewhere usedToo asksToo foundToo _
      rw [asks, Option.some.injEq] at asksToo
      subst asksToo
      rw [found, Option.some.injEq] at foundToo
      exact foundToo ▸ apart
    · intro keeps
      exact keeps object room_num room used asks found ends
  · refine iff_of_true ?_ ?_
    · exact ⟨live.allocated, rooms_bound live.bound binds,
        sameMembers_allBound same members live.members⟩
    · intro object room_num room used asks found ends
      exact absurd ends (stays object room_num room used asks found)

theorem step_live (live : game.Live) (taken : game.step chattingServer event = .ok next) :
    next.Live ↔ game.Keeps event := by
  cases event with
  | accept session addrInfo_ =>
      refine iff_of_true ?_ trivial
      have stays : game.Stays (.accept session addrInfo_) := trivial
      have bound := step_bound live.bound stays taken
      obtain ⟨manager, accepted, taken⟩ := Exec.bind_ok taken
      cases taken
      exact ⟨SessionManager.accept_allocated live.allocated accepted, bound, live.members⟩
  | disconnected session =>
      simp only [step] at taken
      split at taken
      · rename_i registered
        cases taken
        exact disconnected_live live registered
      · cases taken
  | I_USER_INFO room_Num User1_ID User2_ID =>
      obtain ⟨⟨rooms, sent⟩, handled, taken⟩ := Exec.bind_ok taken
      cases taken
      exact I_USER_INFO_live live handled
  | request session packet =>
      obtain ⟨⟨rooms, sent⟩, served, taken⟩ := Exec.bind_ok taken
      cases taken
      exact request_live live served

theorem disconnected_addressed {session : SessionPtr} (live : game.Live)
    (registered : game.manager.registered session = true)
    (addressed : Addressed chattingServer
      { game with manager := game.manager.closeSession session }) :
    game.Keeps (.disconnected session) := by
  intro id held
  have notNull := live.allocated.notNull registered
  have gone : (game.manager.closeSession session).registered session ≠ true :=
    Bool.eq_false_iff.mp (game.manager.closeSession_gone session)
  have looked : lookedUp game.rooms (game.manager.closeSession session) id = session := by
    rw [lookedUp, held, Option.getD_some]
  have found := I_USER_INFO_found game.rooms (game.manager.closeSession session) 0 id id (by
    rw [looked]
    exact not_or.mpr ⟨notNull, notNull⟩)
  cases handled : InGameServer.I_USER_INFO game.rooms (game.manager.closeSession session) 0 id
      id with
  | error reason =>
      have refused := addressed (.I_USER_INFO 0 id id) reason trivial (by
        rw [step, handled]
        rfl)
      rw [handled, looked] at found
      rcases Exec.bind_error found.symm with sending | ⟨_, -, rest⟩
      · rcases sendTo_fault sending with ⟨-, rfl⟩ | ⟨-, -, rfl⟩ <;> cases refused
      · rcases Exec.bind_error rest with sending | ⟨_, -, done⟩
        · rcases sendTo_fault sending with ⟨-, rfl⟩ | ⟨-, -, rfl⟩ <;> cases refused
        · cases done
  | ok result =>
      rw [handled, looked] at found
      obtain ⟨first, sending, -⟩ := Exec.bind_ok found.symm
      obtain ⟨object, used, -⟩ := Exec.bind_ok sending
      obtain ⟨stays, same, -⟩ := SessionManager.deref_ok used
      exact absurd (SessionManager.registered_iff.mpr ⟨object, stays, same⟩) gone

theorem toInt_surjective (key : Int32) : ∃ room_num, toInt room_num = key := by
  refine ⟨key.toUInt32.toUInt64, ?_⟩
  simp [toInt]

theorem unbound_not_addressed (game : Game) {key : Int32} {room : Room} {id : oid_t}
    (allocated : game.manager.Allocated) (found : game.rooms.roomArr key = some room)
    (lives : ∀ other, room.Member other → ∃ object ∈ game.manager.sessionList_, object.id_ = other)
    (member : room.Member id) (null : game.rooms.Find_sessions id = 0) :
    ¬ game.Addressed chattingServer := by
  obtain ⟨room_num, rfl⟩ := toInt_surjective key
  let fire : Packet := .PK_C_REQ_FIRE_BULLET room_num 0 0
  have fires : ∃ object ∈ game.manager.sessionList_, untested fire room object.id_ = some id := by
    rcases member with rfl | rfl
    · obtain ⟨object, present, bears⟩ := lives room.User2_ID (Or.inr rfl)
      refine ⟨object, present, ?_⟩
      by_cases same : room.User1_ID = room.User2_ID
      · simp [fire, untested, bears, same]
      · simp [fire, untested, bears, same]
    · obtain ⟨object, present, bears⟩ := lives room.User1_ID (Or.inl rfl)
      exact ⟨object, present, by simp [fire, untested, bears]⟩
  obtain ⟨object, present, answers⟩ := fires
  intro addressed
  have used := SessionManager.deref_lives present (allocated object present)
  have connected : game.manager.registered object.address = true :=
    SessionManager.registered_iff.mpr ⟨object, present, rfl⟩
  have refused := addressed (.request object.address fire) .nullPointer connected (by
    rw [step, request_null used rfl found answers null]
    rfl)
  cases refused

theorem destroyed_addressed {rooms : Rooms} {key : Int32} {room : Room} (live : game.Live)
    (others : ∀ other, other ≠ key → rooms.roomArr other = game.rooms.roomArr other)
    (addressed : Addressed chattingServer { game with rooms := rooms.destroy key room }) :
    game.rooms.Apart key room := by
  intro other elsewhere different found id member shared
  have still : (rooms.destroy key room).roomArr other = some elsewhere := by
    rw [← found, ← others other different]
    exact StdMap.erase_other different
  refine unbound_not_addressed { game with rooms := rooms.destroy key room } live.allocated still
    ?_ shared (destroy_unbinds member rooms key) addressed
  intro peer seated
  obtain ⟨object, used, bears⟩ :=
    found_lives live.bound (live.members other elsewhere found peer seated)
  exact ⟨object, (SessionManager.deref_ok used).1, bears⟩

theorem addressed_keeps (live : game.Live) (taken : game.step chattingServer event = .ok next)
    (addressed : next.Addressed chattingServer) : game.Keeps event := by
  cases event with
  | accept session addrInfo_ => trivial
  | disconnected session =>
      simp only [step] at taken
      split at taken
      · rename_i registered
        cases taken
        exact disconnected_addressed live registered addressed
      · cases taken
  | I_USER_INFO room_Num User1_ID User2_ID =>
      intro null
      obtain ⟨⟨rooms, sent⟩, handled, taken⟩ := Exec.bind_ok taken
      cases taken
      rw [I_USER_INFO_failed _ _ _ _ _ null, Except.ok.injEq, Prod.mk.injEq] at handled
      obtain ⟨rfl, -⟩ := handled
      exact destroyed_addressed live (fun other different => StdMap.insert_other different)
        addressed
  | request session packet =>
      intro object room_num room used asks found ends
      obtain ⟨⟨rooms, sent⟩, served, taken⟩ := Exec.bind_ok taken
      cases taken
      rcases request_rooms served with
        ⟨other, number, elsewhere, usedToo, asksToo, foundToo, -, rfl⟩ | ⟨stays, -⟩
      · rw [asks, Option.some.injEq] at asksToo
        subst asksToo
        rw [found, Option.some.injEq] at foundToo
        subst foundToo
        exact destroyed_addressed live (fun _ _ => rfl) addressed
      · exact absurd ends (stays object room_num room used asks found)

theorem initial_live (maxConnection : Int) : (initial maxConnection).Live := by
  refine ⟨SessionManager.init_allocated maxConnection, ?_, ?_⟩
  · intro id session held
    simp [initial, Rooms.initial, StdMap.empty] at held
  · intro key room found
    simp [initial, Rooms.initial, StdMap.empty] at found

end

/-- In all states of a run every member is found at a registered session,
exactly when no step lets a bound session go, or a room that shares a member
with another one. -/
theorem addressed_iff (maxConnection : Int) (chattingServer : Terminal) (events : List Event) :
    Runs.Always (step chattingServer) (Addressed chattingServer) (initial maxConnection) events ↔
      Runs.Throughout (step chattingServer) Keeps (initial maxConnection) events := by
  have start := initial_live maxConnection
  have same : Runs.Always (step chattingServer) (Addressed chattingServer) (initial maxConnection)
      events ↔ Runs.Always (step chattingServer) Live (initial maxConnection) events := by
    constructor
    · apply Runs.Always.strengthen ?_ start
      intro game event next live taken addressed
      exact (step_live live taken).mpr (addressed_keeps live taken addressed)
    · exact Runs.Always.mono fun game => live_addressed
  rw [same]
  refine Runs.always_iff_throughout (fun _ _ _ _ _ _ => trivial) ?_ (fun _ _ => trivial) trivial
    start
  intro game event next _ _ live taken
  exact step_live live taken

/-- One of two members goes during the game, and the other one moves. -/
theorem addressed_after_disconnect :
    ¬ ∀ events : List Event, Runs.Always (step { ip_ := [], port_ := 0 })
      (Addressed { ip_ := [], port_ := 0 }) (initial SESSION_CAPACITY) events := by
  intro every
  let chattingServer : Terminal := { ip_ := [], port_ := 0 }
  let events : List Event := [.accept 16 1, .accept 32 2, .I_USER_INFO 0 1 2, .disconnected 16]
  let move : Event := .request 32 (.PK_C_REQ_PLAYER_MOVE 0 0 0)
  let view (game : Game) : Bool × Option Fault :=
    (game.manager.registered 32, Runs.stop (step chattingServer) move game)
  have computed : (Runs.run (step chattingServer) (initial SESSION_CAPACITY) events).toOption.map
      view = some (true, some .freedObject) := by decide
  obtain ⟨game, reached, seen⟩ := Runs.run_view computed
  obtain ⟨connected, stopped⟩ := Prod.mk.inj seen
  have refused := (every events).finish reached move .freedObject connected
    (Runs.stop_some stopped)
  cases refused

end Game

end InGameServer

end GraduationServer
