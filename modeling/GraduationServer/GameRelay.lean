import GraduationServer.GameLiveness

/-!
The games as their players see them. What the InGameServer sends follows from
what it was told before: a `PK_I_USER_INFO` that finds both players begins a game
in its room, and the first player ends it with its `PK_C_REQ_BOSS_EXPLOSION`.
-/

namespace GraduationServer

namespace InGameServer

/-- What the server was told, and what it sent for it: two players of a room with
the sessions that are registered under them, null without one, or the packet of
a session with its id. -/
inductive Exchange where
  | game (room_Num User1_ID User2_ID : UInt64) (session1 session2 : SessionPtr)
      (sent : List (Receiver × Packet))
  | request (session : SessionPtr) (id_ : Option oid_t) (packet : Packet)
      (sent : List (Receiver × Packet))

def Exchange.sent : Exchange → List (Receiver × Packet)
  | .game _ _ _ _ _ sent => sent
  | .request _ _ _ sent => sent

def leads (id_ : Option oid_t) : Option (UInt64 × UInt64) → Bool
  | some (User1_ID, _) => id_ = some User1_ID
  | none => false

def addressed (held session : SessionPtr) : SessionPtr := if held = 0 then session else held

mutual

/-- The players of a room; the latest exchange comes first. -/
def playing (key : Int32) : List Exchange → Option (UInt64 × UInt64)
  | [] => none
  | .game room_Num User1_ID User2_ID session1 session2 _ :: earlier =>
      if key = toInt room_Num then
        if addressed (player User1_ID earlier) session1 = 0 ∨
            addressed (player User2_ID earlier) session2 = 0 then none
        else some ((playing key earlier).getD (User1_ID, User2_ID))
      else playing key earlier
  | .request _ id_ (.PK_C_REQ_BOSS_EXPLOSION room_num) _ :: earlier =>
      if key = toInt room_num ∧ leads id_ (playing key earlier) = true then none
      else playing key earlier
  | .request _ _ _ _ :: earlier => playing key earlier

/-- The session that a player is addressed at, null for none. -/
def player (id : oid_t) : List Exchange → SessionPtr
  | [] => 0
  | .game _ User1_ID User2_ID session1 session2 _ :: earlier =>
      if id = User1_ID ∨ id = User2_ID then
        if addressed (player User1_ID earlier) session1 = 0 ∨
            addressed (player User2_ID earlier) session2 = 0 then 0
        else addressed (player id earlier) (if id = User1_ID then session1 else session2)
      else player id earlier
  | .request _ id_ (.PK_C_REQ_BOSS_EXPLOSION room_num) _ :: earlier =>
      match playing (toInt room_num) earlier with
      | some (User1_ID, User2_ID) =>
          if id_ = some User1_ID ∧ (id = User1_ID ∨ id = User2_ID) then 0 else player id earlier
      | none => player id earlier
  | .request _ _ _ _ :: earlier => player id earlier

end

def exploded (key : Int32) : List Exchange → UInt64
  | [] => 0
  | .game room_Num _ _ _ _ _ :: earlier =>
      if key = toInt room_Num ∧ playing key earlier = none then 0 else exploded key earlier
  | .request _ id_ (.PK_C_REQ_ENEMY_EXPLOSION room_num enemycount) _ :: earlier =>
      if key = toInt room_num ∧ leads id_ (playing key earlier) = true ∧
          exploded key earlier < 5 then exploded key earlier + enemycount
      else exploded key earlier
  | .request _ _ _ _ :: earlier => exploded key earlier

def partner (key : Int32) (id_ : Option oid_t) (earlier : List Exchange) : SessionPtr :=
  match playing key earlier with
  | some (User1_ID, User2_ID) =>
      if id_ = some User1_ID then player User2_ID earlier
      else if id_ = some User2_ID then player User1_ID earlier
      else 0
  | none => 0

def toSession (session : SessionPtr) (packet : Packet) : List (Receiver × Packet) :=
  if session = 0 then [] else [(.session session, packet)]

def relayedRequest (chattingServer : Terminal) (earlier : List Exchange) (session : SessionPtr)
    (id_ : Option oid_t) : Packet → List (Receiver × Packet)
  | .PK_C_REQ_PLAYER_MOVE Room_num x y =>
      toSession (partner (toInt Room_num) id_ earlier) (.PK_S_ANS_PLAYER_MOVE Room_num x y)
  | .PK_C_REQ_FIRE_BULLET room_num x y =>
      toSession (partner (toInt room_num) id_ earlier) (.PK_S_ANS_FIRE_BULLET room_num x y)
  | .PK_C_REQ_MAKE_ENEMY room_num x =>
      let other := partner (toInt room_num) id_ earlier
      if leads id_ (playing (toInt room_num) earlier) = true ∧
          exploded (toInt room_num) earlier < 1 ∧ other ≠ 0 then
        [(.session other, .PK_S_ANS_MAKE_ENEMY x), (.session session, .PK_S_ANS_MAKE_ENEMY x)]
      else []
  | .PK_C_REQ_ENEMY_EXPLOSION room_num enemycount =>
      let total := exploded (toInt room_num) earlier
      if leads id_ (playing (toInt room_num) earlier) = true ∧ total < 5 then
        [(.session session, .PK_S_ANS_ENEMY_EXPLOSION room_num (total + enemycount))]
      else []
  | .PK_C_REQ_MAKE_BOSS room_num =>
      if leads id_ (playing (toInt room_num) earlier) = true then
        [(.session session, .PK_S_ANS_MAKE_BOSS room_num),
          (.session (partner (toInt room_num) id_ earlier), .PK_S_ANS_MAKE_BOSS room_num)]
      else []
  | .PK_C_REQ_BOSS_EXPLOSION room_num =>
      let answer := Packet.PK_S_ANS_BOSS_EXPLOSION room_num chattingServer.ip_ chattingServer.port_
      if leads id_ (playing (toInt room_num) earlier) = true then
        [(.terminal .ChattingServer, .PK_I_INITIALIZE_ROOMMEMBER room_num 0),
          (.session session, answer),
          (.session (partner (toInt room_num) id_ earlier), answer)]
      else []
  | _ => []

def relayed (chattingServer : Terminal) (earlier : List Exchange) :
    Exchange → List (Receiver × Packet)
  | .game room_Num User1_ID User2_ID session1 session2 _ =>
      let temp1 := addressed (player User1_ID earlier) session1
      let temp2 := addressed (player User2_ID earlier) session2
      if temp1 = 0 ∨ temp2 = 0 then
        [(.terminal .ChattingServer, .PK_I_INITIALIZE_ROOMMEMBER room_Num 0)]
      else
        [(.session temp1, .PK_S_REQ_ON_GAME room_Num),
          (.session temp2, .PK_S_REQ_ON_GAME room_Num)]
  | .request session id_ packet _ => relayedRequest chattingServer earlier session id_ packet

def Relayed (chattingServer : Terminal) : List Exchange → Prop
  | [] => True
  | exchange :: earlier =>
      exchange.sent = relayed chattingServer earlier exchange ∧ Relayed chattingServer earlier

/-- The sessions whose objects the handler of a packet uses. A move looks first
whether the other player has one; a bullet does not. -/
def usesRequest (earlier : List Exchange) (session : SessionPtr) (id_ : Option oid_t) :
    Packet → List SessionPtr
  | .PK_C_REQ_PLAYER_MOVE Room_num _ _ =>
      let other := partner (toInt Room_num) id_ earlier
      if playing (toInt Room_num) earlier = none then []
      else session :: if other = 0 then [] else [other]
  | .PK_C_REQ_FIRE_BULLET room_num _ _ =>
      match playing (toInt room_num) earlier with
      | none => []
      | some (User1_ID, User2_ID) =>
          session :: if id_ = some User1_ID ∨ id_ = some User2_ID then
            [partner (toInt room_num) id_ earlier]
          else []
  | .PK_C_REQ_MAKE_ENEMY room_num _ =>
      let other := partner (toInt room_num) id_ earlier
      if playing (toInt room_num) earlier = none ∨ 1 ≤ exploded (toInt room_num) earlier then []
      else session :: if leads id_ (playing (toInt room_num) earlier) = true ∧ other ≠ 0 then
        [other]
      else []
  | .PK_C_REQ_ENEMY_EXPLOSION room_num _ =>
      if playing (toInt room_num) earlier = none then [] else [session]
  | .PK_C_REQ_MAKE_BOSS room_num | .PK_C_REQ_BOSS_EXPLOSION room_num =>
      if playing (toInt room_num) earlier = none then []
      else session :: if leads id_ (playing (toInt room_num) earlier) = true then
        [partner (toInt room_num) id_ earlier]
      else []
  | _ => []

/-! The server with the exchanges it has had. -/

structure GameLog where
  game : Game
  exchanges : List Exchange

namespace GameLog

def initial (maxConnection : Int) : GameLog :=
  { game := Game.initial maxConnection, exchanges := [] }

def idOf (manager : SessionManager) (session : SessionPtr) : Option oid_t :=
  (manager.deref session).toOption.map Session.id_

def step (chattingServer : Terminal) (log : GameLog) : Game.Event → Exec GameLog
  | .I_USER_INFO room_Num User1_ID User2_ID => do
      let manager := log.game.manager
      let (rooms, sent) ←
        InGameServer.I_USER_INFO log.game.rooms manager room_Num User1_ID User2_ID
      return { game := { log.game with rooms }
               exchanges := .game room_Num User1_ID User2_ID (sessionPtr manager User1_ID)
                 (sessionPtr manager User2_ID) sent :: log.exchanges }
  | .request session packet => do
      let (rooms, sent) ←
        InGameServer.request log.game.rooms chattingServer log.game.manager session packet
      return { game := { log.game with rooms }
               exchanges := .request session (idOf log.game.manager session) packet sent ::
                 log.exchanges }
  | event => do
      return { log with game := ← log.game.step chattingServer event }

theorem step_game (chattingServer : Terminal) (log : GameLog) (event : Game.Event) :
    (log.step chattingServer event).map game = log.game.step chattingServer event := by
  cases event with
  | I_USER_INFO room_Num User1_ID User2_ID =>
      simp only [step, Game.step]
      cases InGameServer.I_USER_INFO log.game.rooms log.game.manager room_Num User1_ID User2_ID <;>
        rfl
  | request session packet =>
      simp only [step, Game.step]
      cases InGameServer.request log.game.rooms chattingServer log.game.manager session packet <;>
        rfl
  | accept session addrInfo_ =>
      simp only [step]
      cases log.game.step chattingServer (.accept session addrInfo_) <;> rfl
  | disconnected session =>
      simp only [step]
      cases log.game.step chattingServer (.disconnected session) <;> rfl

end GameLog

structure Rooms.Follow (rooms : Rooms) (exchanges : List Exchange) : Prop where
  roomArr : ∀ key, rooms.roomArr key = (playing key exchanges).map fun users =>
    { User1_ID := users.1, User2_ID := users.2, total_exploded_enemy := exploded key exchanges }
  sessions : ∀ id, rooms.simpleSessionManager id =
    if player id exchanges = 0 then none else some (player id exchanges)

section

variable {rooms after : Rooms} {exchanges : List Exchange} {manager : SessionManager}
variable {sent : List (Receiver × Packet)}

theorem Rooms.Follow.Find_sessions (follow : rooms.Follow exchanges) (id : oid_t) :
    rooms.Find_sessions id = player id exchanges := by
  rw [Rooms.Find_sessions, follow.sessions]
  split_ifs with null
  · exact null.symm
  · rfl

theorem Rooms.Follow.lookedUp (follow : rooms.Follow exchanges) (manager : SessionManager)
    (id : oid_t) :
    InGameServer.lookedUp rooms manager id =
      addressed (player id exchanges) (sessionPtr manager id) := by
  rw [InGameServer.lookedUp, follow.sessions, addressed]
  split_ifs <;> rfl

theorem bindBoth_sessions (rooms : Rooms) (manager : SessionManager)
    (User1_ID User2_ID id : UInt64) :
    (bindBoth rooms manager User1_ID User2_ID).simpleSessionManager id =
      if id = User1_ID ∨ id = User2_ID then some (lookedUp rooms manager id)
      else rooms.simpleSessionManager id := by
  by_cases first : id = User1_ID
  · subst first
    rw [if_pos (Or.inl rfl), bindBoth_User1]
  · by_cases second : id = User2_ID
    · subst second
      rw [if_pos (Or.inr rfl), bindBoth_User2]
    · rw [if_neg (not_or.mpr ⟨first, second⟩)]
      exact (StdMap.insert_other second).trans (StdMap.insert_other first)

theorem destroy_sessions (rooms : Rooms) (key : Int32) (room : Room) (id : oid_t) :
    (rooms.destroy key room).simpleSessionManager id =
      if id = room.User1_ID ∨ id = room.User2_ID then none
      else rooms.simpleSessionManager id := by
  by_cases first : id = room.User1_ID <;> by_cases second : id = room.User2_ID <;>
    simp [Rooms.destroy, Rooms.Delete_Sessions, StdMap.erase, first, second]

theorem I_USER_INFO_follow (follow : rooms.Follow exchanges) {room_Num User1_ID User2_ID : UInt64}
    (chattingServer : Terminal)
    (done : I_USER_INFO rooms manager room_Num User1_ID User2_ID = .ok (after, sent)) :
    let exchange := Exchange.game room_Num User1_ID User2_ID (sessionPtr manager User1_ID)
      (sessionPtr manager User2_ID) sent
    after.Follow (exchange :: exchanges) ∧ sent = relayed chattingServer exchanges exchange := by
  intro exchange
  have first := follow.lookedUp manager User1_ID
  have second := follow.lookedUp manager User2_ID
  by_cases null : lookedUp rooms manager User1_ID = 0 ∨ lookedUp rooms manager User2_ID = 0
  · rw [I_USER_INFO_failed rooms manager room_Num User1_ID User2_ID null] at done
    cases done
    rw [first, second] at null
    refine ⟨⟨?_, ?_⟩, ?_⟩
    · intro key
      by_cases same : key = toInt room_Num
      · subst same
        simp [exchange, playing, null, Rooms.destroy, Rooms.Delete_Sessions]
      · simp only [exchange, playing, exploded, same, false_and, if_false]
        rw [← follow.roomArr key]
        exact (StdMap.erase_other same).trans (StdMap.insert_other same)
    · intro id
      rw [destroy_sessions, bindBoth_sessions]
      by_cases member : id = User1_ID ∨ id = User2_ID
      · simp only [exchange, player, if_pos null, if_pos member, if_true]
      · simp only [exchange, player, if_neg member]
        exact follow.sessions id
    · exact (if_pos null).symm
  · rw [I_USER_INFO_found rooms manager room_Num User1_ID User2_ID null] at done
    obtain ⟨told1, telling1, done⟩ := Exec.bind_ok done
    obtain ⟨told2, telling2, done⟩ := Exec.bind_ok done
    obtain ⟨object1, -, telling1⟩ := Exec.bind_ok telling1
    obtain ⟨object2, -, telling2⟩ := Exec.bind_ok telling2
    cases telling1
    cases telling2
    cases done
    rw [first, second] at null ⊢
    refine ⟨⟨?_, ?_⟩, ?_⟩
    · intro key
      by_cases same : key = toInt room_Num
      · subst same
        have inserted := StdMap.insert_same rooms.roomArr (toInt room_Num)
          { User1_ID, User2_ID, total_exploded_enemy := 0 }
        simp only [exchange, playing, exploded, if_neg null, true_and]
        refine inserted.trans ?_
        rw [follow.roomArr]
        cases playing (toInt room_Num) exchanges <;> rfl
      · simp only [exchange, playing, exploded, same, false_and, if_false]
        rw [← follow.roomArr key]
        exact StdMap.insert_other same
    · intro id
      rw [bindBoth_sessions]
      by_cases member : id = User1_ID ∨ id = User2_ID
      · have own : (if id = User1_ID then sessionPtr manager User1_ID
            else sessionPtr manager User2_ID) = sessionPtr manager id := by
          split_ifs with same
          · rw [same]
          · rw [member.resolve_left same]
        have held : addressed (player id exchanges) (sessionPtr manager id) ≠ 0 := by
          rcases member with rfl | rfl
          · exact (not_or.mp null).1
          · exact (not_or.mp null).2
        simp only [exchange, player, if_neg null, if_pos member, own, if_neg held]
        rw [← follow.lookedUp]
        rfl
      · simp only [exchange, player, if_neg member]
        exact follow.sessions id
    · exact (if_neg null).symm

/-! The packets of the sessions. -/

variable {session : SessionPtr}

theorem sendTo_sent {packet : Packet} (done : sendTo manager session packet = .ok sent) :
    sent = [(.session session, packet)] ∧ session ≠ 0 := by
  obtain ⟨object, used, done⟩ := Exec.bind_ok done
  cases done
  exact ⟨rfl, (SessionManager.deref_ok used).2.2⟩

theorem sendTo_toSession {packet : Packet} (done : sendTo manager session packet = .ok sent) :
    sent = toSession session packet := by
  obtain ⟨told, notNull⟩ := sendTo_sent done
  rw [told, toSession, if_neg notNull]

theorem idOf_some {object : Session} (used : manager.deref session = .ok object) :
    GameLog.idOf manager session = some object.id_ := by
  rw [GameLog.idOf, used]
  rfl

variable {key : Int32} {User1_ID User2_ID : UInt64} {id_ : Option oid_t}

theorem partner_some {users : UInt64 × UInt64} {id : oid_t}
    (plays : playing key exchanges = some users) (asker : id_ = some id) :
    partner key id_ exchanges =
      if users.1 = id then player users.2 exchanges
      else if users.2 = id then player users.1 exchanges
      else 0 := by
  rw [partner, plays, asker]
  simp only [Option.some.injEq, @eq_comm _ id]

theorem partner_none (none : playing key exchanges = none) : partner key id_ exchanges = 0 := by
  rw [partner, none]

theorem leads_some {users : UInt64 × UInt64} {id : oid_t} (asker : id_ = some id) :
    leads id_ (some users) = true ↔ id = users.1 := by
  simp [leads, asker]

theorem C_REQ_PLAYER_MOVE_relayed (follow : rooms.Follow exchanges) {Room_num : UInt64}
    {x y : RawFloat}
    (done : C_REQ_PLAYER_MOVE rooms manager session Room_num x y = .ok (after, sent)) :
    after = rooms ∧ sent = toSession (partner (toInt Room_num) (GameLog.idOf manager session)
      exchanges) (.PK_S_ANS_PLAYER_MOVE Room_num x y) := by
  rw [C_REQ_PLAYER_MOVE, follow.roomArr] at done
  cases plays : playing (toInt Room_num) exchanges with
  | none =>
      rw [plays] at done
      cases done
      rw [partner_none plays]
      exact ⟨rfl, rfl⟩
  | some users =>
      rw [plays] at done
      obtain ⟨object, used, done⟩ := Exec.bind_ok done
      rw [partner_some plays (idOf_some used)]
      simp only [follow.Find_sessions] at done
      split_ifs at done ⊢ with first null second null
      · cases done
        rw [null]
        exact ⟨rfl, rfl⟩
      · obtain ⟨told, telling, done⟩ := Exec.bind_ok done
        cases done
        exact ⟨rfl, sendTo_toSession telling⟩
      · cases done
        rw [null]
        exact ⟨rfl, rfl⟩
      · obtain ⟨told, telling, done⟩ := Exec.bind_ok done
        cases done
        exact ⟨rfl, sendTo_toSession telling⟩
      · cases done
        exact ⟨rfl, rfl⟩

theorem C_REQ_FIRE_BULLET_relayed (follow : rooms.Follow exchanges) {room_num : UInt64}
    {x y : RawFloat}
    (done : C_REQ_FIRE_BULLET rooms manager session room_num x y = .ok (after, sent)) :
    after = rooms ∧ sent = toSession (partner (toInt room_num) (GameLog.idOf manager session)
      exchanges) (.PK_S_ANS_FIRE_BULLET room_num x y) := by
  rw [C_REQ_FIRE_BULLET, follow.roomArr] at done
  cases plays : playing (toInt room_num) exchanges with
  | none =>
      rw [plays] at done
      cases done
      rw [partner_none plays]
      exact ⟨rfl, rfl⟩
  | some users =>
      rw [plays] at done
      obtain ⟨object, used, done⟩ := Exec.bind_ok done
      rw [partner_some plays (idOf_some used)]
      simp only [follow.Find_sessions] at done
      split_ifs at done ⊢ with first second
      · obtain ⟨told, telling, done⟩ := Exec.bind_ok done
        cases done
        exact ⟨rfl, sendTo_toSession telling⟩
      · obtain ⟨told, telling, done⟩ := Exec.bind_ok done
        cases done
        exact ⟨rfl, sendTo_toSession telling⟩
      · cases done
        exact ⟨rfl, rfl⟩

theorem C_REQ_MAKE_ENEMY_relayed (follow : rooms.Follow exchanges) (chattingServer : Terminal)
    {room_num : UInt64} {x : RawFloat}
    (done : C_REQ_MAKE_ENEMY rooms manager session room_num x = .ok (after, sent)) :
    after = rooms ∧ sent = relayedRequest chattingServer exchanges session
      (GameLog.idOf manager session) (.PK_C_REQ_MAKE_ENEMY room_num x) := by
  rw [C_REQ_MAKE_ENEMY, follow.roomArr] at done
  simp only [relayedRequest]
  cases plays : playing (toInt room_num) exchanges with
  | none =>
      rw [plays] at done
      cases done
      exact ⟨rfl, rfl⟩
  | some users =>
      rw [plays] at done
      simp only [Option.map_some] at done
      split at done
      · rename_i many
        cases done
        have stopped : ¬ exploded (toInt room_num) exchanges < 1 := UInt64.not_lt.mpr many
        exact ⟨rfl, (if_neg fun all => stopped all.2.1).symm⟩
      · rename_i few
        obtain ⟨object, used, done⟩ := Exec.bind_ok done
        have asker := idOf_some used
        simp only [follow.Find_sessions] at done
        split_ifs at done with first null
        · cases done
          have other : partner (toInt room_num) (GameLog.idOf manager session) exchanges = 0 := by
            rw [partner_some plays asker, if_pos first.symm, null]
          exact ⟨rfl, (if_neg fun all => all.2.2 other).symm⟩
        · obtain ⟨toSecond, tellingSecond, done⟩ := Exec.bind_ok done
          obtain ⟨toFirst, tellingFirst, done⟩ := Exec.bind_ok done
          cases done
          have other : partner (toInt room_num) (GameLog.idOf manager session) exchanges =
              player users.2 exchanges := by
            rw [partner_some plays asker, if_pos first.symm]
          have answered : leads (GameLog.idOf manager session) (some users) = true ∧
              exploded (toInt room_num) exchanges < 1 ∧ player users.2 exchanges ≠ 0 :=
            ⟨(leads_some asker).mpr first, UInt64.not_le.mp few, null⟩
          rw [other, if_pos answered, (sendTo_sent tellingSecond).1, (sendTo_sent tellingFirst).1]
          exact ⟨rfl, rfl⟩
        · cases done
          exact ⟨rfl, (if_neg fun all => first ((leads_some asker).mp all.1)).symm⟩

theorem C_REQ_MAKE_BOSS_relayed (follow : rooms.Follow exchanges) (chattingServer : Terminal)
    {room_num : UInt64}
    (done : C_REQ_MAKE_BOSS rooms manager session room_num = .ok (after, sent)) :
    after = rooms ∧ sent = relayedRequest chattingServer exchanges session
      (GameLog.idOf manager session) (.PK_C_REQ_MAKE_BOSS room_num) := by
  rw [C_REQ_MAKE_BOSS, follow.roomArr] at done
  simp only [relayedRequest]
  cases plays : playing (toInt room_num) exchanges with
  | none =>
      rw [plays] at done
      cases done
      exact ⟨rfl, rfl⟩
  | some users =>
      rw [plays] at done
      obtain ⟨object, used, done⟩ := Exec.bind_ok done
      have asker := idOf_some used
      simp only [follow.Find_sessions] at done
      split_ifs at done with first
      · obtain ⟨toFirst, tellingFirst, done⟩ := Exec.bind_ok done
        obtain ⟨toSecond, tellingSecond, done⟩ := Exec.bind_ok done
        cases done
        rw [if_pos ((leads_some asker).mpr first), partner_some plays asker, if_pos first.symm,
          (sendTo_sent tellingFirst).1, (sendTo_sent tellingSecond).1]
        exact ⟨rfl, rfl⟩
      · cases done
        exact ⟨rfl, (if_neg fun lead => first ((leads_some asker).mp lead)).symm⟩

theorem C_REQ_ENEMY_EXPLOSION_follow (follow : rooms.Follow exchanges) (chattingServer : Terminal)
    {room_num enemycount : UInt64}
    (done : C_REQ_ENEMY_EXPLOSION rooms manager session room_num enemycount = .ok (after, sent)) :
    let packet := Packet.PK_C_REQ_ENEMY_EXPLOSION room_num enemycount
    let id_ := GameLog.idOf manager session
    after.Follow (.request session id_ packet sent :: exchanges) ∧
      sent = relayedRequest chattingServer exchanges session id_ packet := by
  intro packet id_
  have same (others : ¬ (leads id_ (playing (toInt room_num) exchanges) = true ∧
      exploded (toInt room_num) exchanges < 5)) :
      rooms.Follow (.request session id_ packet sent :: exchanges) := by
    refine ⟨?_, follow.sessions⟩
    intro key
    have kept : exploded key (.request session id_ packet sent :: exchanges) =
        exploded key exchanges := by
      simp only [packet, exploded]
      rw [if_neg]
      rintro ⟨rfl, lead⟩
      exact others lead
    rw [kept]
    exact follow.roomArr key
  rw [C_REQ_ENEMY_EXPLOSION, follow.roomArr] at done
  simp only [packet, relayedRequest]
  cases plays : playing (toInt room_num) exchanges with
  | none =>
      rw [plays] at done same
      cases done
      have others : ¬ (leads id_ none = true ∧ exploded (toInt room_num) exchanges < 5) := by
        simp [leads]
      exact ⟨same others, (if_neg others).symm⟩
  | some users =>
      rw [plays] at done same
      obtain ⟨object, used, done⟩ := Exec.bind_ok done
      have asker := idOf_some used
      dsimp only at done
      split_ifs at done with few
      · obtain ⟨told, telling, done⟩ := Exec.bind_ok done
        cases done
        have counts : leads id_ (some users) = true ∧ exploded (toInt room_num) exchanges < 5 :=
          ⟨(leads_some asker).mpr few.1, few.2⟩
        rw [if_pos counts, (sendTo_sent telling).1]
        refine ⟨⟨?_, follow.sessions⟩, rfl⟩
        intro key
        by_cases here : key = toInt room_num
        · subst here
          simp only [playing, exploded, plays, true_and, if_pos counts]
          exact StdMap.assign_same _ _ _
        · simp only [playing, exploded, here, false_and, if_false]
          exact (StdMap.assign_other here).trans (follow.roomArr key)
      · cases done
        have others : ¬ (leads id_ (some users) = true ∧
            exploded (toInt room_num) exchanges < 5) :=
          fun counts => few ⟨(leads_some asker).mp counts.1, counts.2⟩
        exact ⟨same others, (if_neg others).symm⟩

theorem C_REQ_BOSS_EXPLOSION_follow (follow : rooms.Follow exchanges) (chattingServer : Terminal)
    {room_num : UInt64}
    (done : C_REQ_BOSS_EXPLOSION rooms chattingServer manager session room_num =
      .ok (after, sent)) :
    let packet := Packet.PK_C_REQ_BOSS_EXPLOSION room_num
    let id_ := GameLog.idOf manager session
    after.Follow (.request session id_ packet sent :: exchanges) ∧
      sent = relayedRequest chattingServer exchanges session id_ packet := by
  intro packet id_
  have same (others : ¬ leads id_ (playing (toInt room_num) exchanges) = true) :
      rooms.Follow (.request session id_ packet sent :: exchanges) := by
    constructor
    · intro key
      have kept : playing key (.request session id_ packet sent :: exchanges) =
          playing key exchanges := by
        simp only [packet, playing]
        rw [if_neg]
        rintro ⟨rfl, lead⟩
        exact others lead
      rw [kept]
      exact follow.roomArr key
    · intro id
      have kept : player id (.request session id_ packet sent :: exchanges) =
          player id exchanges := by
        simp only [packet, player]
        cases plays : playing (toInt room_num) exchanges with
        | none => rfl
        | some users =>
            rw [plays] at others
            dsimp only
            rw [if_neg]
            rintro ⟨lead, -⟩
            exact others (by simp [leads, lead])
      rw [kept]
      exact follow.sessions id
  rw [C_REQ_BOSS_EXPLOSION, follow.roomArr] at done
  simp only [packet, relayedRequest]
  cases plays : playing (toInt room_num) exchanges with
  | none =>
      rw [plays] at done same
      cases done
      exact ⟨same (by simp [leads]), rfl⟩
  | some users =>
      rw [plays] at done same
      obtain ⟨object, used, done⟩ := Exec.bind_ok done
      have asker := idOf_some used
      simp only [follow.Find_sessions] at done
      split_ifs at done with first
      · obtain ⟨toFirst, tellingFirst, done⟩ := Exec.bind_ok done
        obtain ⟨toSecond, tellingSecond, done⟩ := Exec.bind_ok done
        cases done
        have lead : leads id_ (some users) = true := (leads_some asker).mpr first
        rw [if_pos lead, partner_some plays asker, if_pos first.symm,
          (sendTo_sent tellingFirst).1, (sendTo_sent tellingSecond).1]
        refine ⟨⟨?_, ?_⟩, rfl⟩
        · intro key
          by_cases here : key = toInt room_num
          · subst here
            simp only [playing, plays, true_and, if_pos lead]
            exact StdMap.erase_same _ _
          · simp only [playing, exploded, here, false_and, if_false]
            exact (StdMap.erase_other here).trans (follow.roomArr key)
        · intro id
          have ends : id_ = some users.1 := asker.trans (congrArg some first)
          rw [destroy_sessions]
          simp only [player, plays, ends, true_and]
          by_cases member : id = users.1 ∨ id = users.2
          · simp only [if_pos member, if_true]
          · simp only [if_neg member]
            exact follow.sessions id
      · cases done
        have others : ¬ leads id_ (some users) = true :=
          fun lead => first ((leads_some asker).mp lead)
        exact ⟨same others, (if_neg others).symm⟩

/-! Which handlers come to their end. -/

theorem sendTo_ends {packet : Packet} :
    Exec.Ends (sendTo manager session packet) ↔ Exec.Ends (manager.deref session) :=
  Exec.ends_return

theorem sendTo_return {α : Type} {other : SessionPtr} {packet : Packet}
    {result : List (Receiver × Packet) → α} :
    Exec.Ends (do return result (← sendTo manager other packet)) ↔
      ∀ needed ∈ [other], Exec.Ends (manager.deref needed) := by
  rw [Exec.ends_return, sendTo_ends, List.forall_mem_singleton]

theorem asker_ends {α : Type} {rest : Session → Exec α} {others : List SessionPtr}
    (ends : ∀ object, manager.deref session = .ok object →
      (Exec.Ends (rest object) ↔ ∀ needed ∈ others, Exec.Ends (manager.deref needed))) :
    Exec.Ends (manager.deref session >>= rest) ↔
      ∀ needed ∈ session :: others, Exec.Ends (manager.deref needed) := by
  rw [Exec.ends_bind, List.forall_mem_cons]
  constructor
  · rintro ⟨object, used, rested⟩
    exact ⟨⟨object, used⟩, (ends object used).mp rested⟩
  · rintro ⟨⟨object, used⟩, live⟩
    exact ⟨object, used, (ends object used).mpr live⟩

theorem C_REQ_PLAYER_MOVE_ends (follow : rooms.Follow exchanges) (Room_num : UInt64)
    (x y : RawFloat) :
    Exec.Ends (C_REQ_PLAYER_MOVE rooms manager session Room_num x y) ↔
      ∀ needed ∈ usesRequest exchanges session (GameLog.idOf manager session)
        (.PK_C_REQ_PLAYER_MOVE Room_num x y), Exec.Ends (manager.deref needed) := by
  rw [C_REQ_PLAYER_MOVE, follow.roomArr, usesRequest]
  cases plays : playing (toInt Room_num) exchanges with
  | none => simp
  | some users =>
      simp only [reduceCtorEq, if_false, Option.map_some]
      refine asker_ends fun object used => ?_
      rw [partner_some plays (idOf_some used), follow.Find_sessions, follow.Find_sessions]
      by_cases first : users.1 = object.id_
      · simp only [if_pos first]
        split_ifs with null
        · simp
        · exact sendTo_return
      · simp only [if_neg first]
        by_cases second : users.2 = object.id_
        · simp only [if_pos second]
          split_ifs with null
          · simp
          · exact sendTo_return
        · simp [if_neg second]

theorem C_REQ_FIRE_BULLET_ends (follow : rooms.Follow exchanges) (room_num : UInt64)
    (x y : RawFloat) :
    Exec.Ends (C_REQ_FIRE_BULLET rooms manager session room_num x y) ↔
      ∀ needed ∈ usesRequest exchanges session (GameLog.idOf manager session)
        (.PK_C_REQ_FIRE_BULLET room_num x y), Exec.Ends (manager.deref needed) := by
  rw [C_REQ_FIRE_BULLET, follow.roomArr, usesRequest]
  cases plays : playing (toInt room_num) exchanges with
  | none => simp
  | some users =>
      simp only [Option.map_some]
      refine asker_ends fun object used => ?_
      rw [partner_some plays (idOf_some used), follow.Find_sessions, follow.Find_sessions]
      simp only [idOf_some used, Option.some.injEq, @eq_comm _ object.id_]
      by_cases first : users.1 = object.id_
      · simp only [first, true_or, if_true]
        exact sendTo_return
      · by_cases second : users.2 = object.id_
        · simp only [first, second, or_true, if_true, if_false]
          exact sendTo_return
        · simp [first, second]

theorem C_REQ_MAKE_ENEMY_ends (follow : rooms.Follow exchanges) (room_num : UInt64)
    (x : RawFloat) :
    Exec.Ends (C_REQ_MAKE_ENEMY rooms manager session room_num x) ↔
      ∀ needed ∈ usesRequest exchanges session (GameLog.idOf manager session)
        (.PK_C_REQ_MAKE_ENEMY room_num x), Exec.Ends (manager.deref needed) := by
  rw [C_REQ_MAKE_ENEMY, follow.roomArr, usesRequest]
  cases plays : playing (toInt room_num) exchanges with
  | none => simp
  | some users =>
      simp only [reduceCtorEq, false_or, Option.map_some]
      by_cases many : 1 ≤ exploded (toInt room_num) exchanges
      · simp [many]
      · simp only [if_neg many]
        refine asker_ends fun object used => ?_
        rw [partner_some plays (idOf_some used), follow.Find_sessions]
        by_cases first : object.id_ = users.1
        · simp only [leads_some (idOf_some used), first, true_and, if_true]
          by_cases null : player users.2 exchanges = 0
          · simp [null]
          · simp only [null, ne_eq, not_false_eq_true, if_true, if_false]
            simp only [sendTo_used used]
            exact sendTo_return
        · simp [leads_some (idOf_some used), first]

theorem C_REQ_ENEMY_EXPLOSION_ends (follow : rooms.Follow exchanges)
    (room_num enemycount : UInt64) :
    Exec.Ends (C_REQ_ENEMY_EXPLOSION rooms manager session room_num enemycount) ↔
      ∀ needed ∈ usesRequest exchanges session (GameLog.idOf manager session)
        (.PK_C_REQ_ENEMY_EXPLOSION room_num enemycount), Exec.Ends (manager.deref needed) := by
  rw [C_REQ_ENEMY_EXPLOSION, follow.roomArr, usesRequest]
  cases plays : playing (toInt room_num) exchanges with
  | none => simp
  | some users =>
      simp only [reduceCtorEq, if_false, Option.map_some]
      refine asker_ends fun object used => ?_
      simp only [sendTo_used used]
      split_ifs <;> simp

theorem C_REQ_MAKE_BOSS_ends (follow : rooms.Follow exchanges) (room_num : UInt64) :
    Exec.Ends (C_REQ_MAKE_BOSS rooms manager session room_num) ↔
      ∀ needed ∈ usesRequest exchanges session (GameLog.idOf manager session)
        (.PK_C_REQ_MAKE_BOSS room_num), Exec.Ends (manager.deref needed) := by
  rw [C_REQ_MAKE_BOSS, follow.roomArr, usesRequest]
  cases plays : playing (toInt room_num) exchanges with
  | none => simp
  | some users =>
      simp only [reduceCtorEq, if_false, Option.map_some]
      refine asker_ends fun object used => ?_
      rw [partner_some plays (idOf_some used), follow.Find_sessions]
      by_cases first : object.id_ = users.1
      · simp only [leads_some (idOf_some used), first, if_true, sendTo_used used, Exec.ok_bind]
        exact sendTo_return
      · simp [leads_some (idOf_some used), first]

theorem C_REQ_BOSS_EXPLOSION_ends (follow : rooms.Follow exchanges) (chattingServer : Terminal)
    (room_num : UInt64) :
    Exec.Ends (C_REQ_BOSS_EXPLOSION rooms chattingServer manager session room_num) ↔
      ∀ needed ∈ usesRequest exchanges session (GameLog.idOf manager session)
        (.PK_C_REQ_BOSS_EXPLOSION room_num), Exec.Ends (manager.deref needed) := by
  rw [C_REQ_BOSS_EXPLOSION, follow.roomArr, usesRequest]
  cases plays : playing (toInt room_num) exchanges with
  | none => simp
  | some users =>
      simp only [reduceCtorEq, if_false, Option.map_some]
      refine asker_ends fun object used => ?_
      rw [partner_some plays (idOf_some used), follow.Find_sessions]
      by_cases first : object.id_ = users.1
      · simp only [leads_some (idOf_some used), first, if_true, sendTo_used used, Exec.ok_bind]
        exact sendTo_return
      · simp [leads_some (idOf_some used), first]

theorem request_ends (follow : rooms.Follow exchanges) (chattingServer : Terminal)
    {packet : Packet} (asks : (askedRoom packet).isSome) :
    Exec.Ends (request rooms chattingServer manager session packet) ↔
      ∀ needed ∈ usesRequest exchanges session (GameLog.idOf manager session) packet,
        Exec.Ends (manager.deref needed) := by
  cases packet with
  | PK_C_REQ_PLAYER_MOVE Room_num x y => exact C_REQ_PLAYER_MOVE_ends follow Room_num x y
  | PK_C_REQ_FIRE_BULLET room_num x y => exact C_REQ_FIRE_BULLET_ends follow room_num x y
  | PK_C_REQ_MAKE_ENEMY room_num x => exact C_REQ_MAKE_ENEMY_ends follow room_num x
  | PK_C_REQ_ENEMY_EXPLOSION room_num enemycount =>
      exact C_REQ_ENEMY_EXPLOSION_ends follow room_num enemycount
  | PK_C_REQ_MAKE_BOSS room_num => exact C_REQ_MAKE_BOSS_ends follow room_num
  | PK_C_REQ_BOSS_EXPLOSION room_num =>
      exact C_REQ_BOSS_EXPLOSION_ends follow chattingServer room_num
  | _ => cases asks

theorem I_USER_INFO_ends (follow : rooms.Follow exchanges) (room_Num User1_ID User2_ID : UInt64) :
    let temp1 := addressed (player User1_ID exchanges) (sessionPtr manager User1_ID)
    let temp2 := addressed (player User2_ID exchanges) (sessionPtr manager User2_ID)
    Exec.Ends (I_USER_INFO rooms manager room_Num User1_ID User2_ID) ↔
      ∀ needed ∈ if temp1 = 0 ∨ temp2 = 0 then [] else [temp1, temp2],
        Exec.Ends (manager.deref needed) := by
  intro temp1 temp2
  have first : lookedUp rooms manager User1_ID = temp1 := follow.lookedUp manager User1_ID
  have second : lookedUp rooms manager User2_ID = temp2 := follow.lookedUp manager User2_ID
  rw [← first, ← second]
  by_cases null : lookedUp rooms manager User1_ID = 0 ∨ lookedUp rooms manager User2_ID = 0
  · rw [if_pos null, I_USER_INFO_failed rooms manager room_Num User1_ID User2_ID null]
    simp
  · rw [if_neg null, I_USER_INFO_found rooms manager room_Num User1_ID User2_ID null,
      Exec.ends_bind, List.forall_mem_cons]
    constructor
    · rintro ⟨told, telling, ends⟩
      exact ⟨sendTo_ends.mp ⟨told, telling⟩, sendTo_return.mp ends⟩
    · rintro ⟨live, others⟩
      obtain ⟨told, telling⟩ := sendTo_ends.mpr live
      exact ⟨told, telling, sendTo_return.mpr others⟩

theorem request_follow (follow : rooms.Follow exchanges) (chattingServer : Terminal)
    {packet : Packet}
    (done : request rooms chattingServer manager session packet = .ok (after, sent)) :
    let id_ := GameLog.idOf manager session
    after.Follow (.request session id_ packet sent :: exchanges) ∧
      sent = relayedRequest chattingServer exchanges session id_ packet := by
  intro id_
  cases packet with
  | PK_C_REQ_PLAYER_MOVE Room_num x y =>
      obtain ⟨rfl, told⟩ := C_REQ_PLAYER_MOVE_relayed follow done
      exact ⟨⟨follow.roomArr, follow.sessions⟩, told⟩
  | PK_C_REQ_FIRE_BULLET room_num x y =>
      obtain ⟨rfl, told⟩ := C_REQ_FIRE_BULLET_relayed follow done
      exact ⟨⟨follow.roomArr, follow.sessions⟩, told⟩
  | PK_C_REQ_MAKE_ENEMY room_num x =>
      obtain ⟨rfl, told⟩ := C_REQ_MAKE_ENEMY_relayed follow chattingServer done
      exact ⟨⟨follow.roomArr, follow.sessions⟩, told⟩
  | PK_C_REQ_ENEMY_EXPLOSION room_num enemycount =>
      exact C_REQ_ENEMY_EXPLOSION_follow follow chattingServer done
  | PK_C_REQ_MAKE_BOSS room_num =>
      obtain ⟨rfl, told⟩ := C_REQ_MAKE_BOSS_relayed follow chattingServer done
      exact ⟨⟨follow.roomArr, follow.sessions⟩, told⟩
  | PK_C_REQ_BOSS_EXPLOSION room_num => exact C_REQ_BOSS_EXPLOSION_follow follow chattingServer done
  | _ => cases done

end

namespace GameLog

structure Follows (chattingServer : Terminal) (log : GameLog) : Prop where
  rooms : log.game.rooms.Follow log.exchanges
  sent : Relayed chattingServer log.exchanges

variable {chattingServer : Terminal} {log next : GameLog}

theorem initial_follows (chattingServer : Terminal) (maxConnection : Int) :
    (initial maxConnection).Follows chattingServer :=
  ⟨⟨fun _ => rfl, fun _ => rfl⟩, trivial⟩

theorem step_follows {event : Game.Event} (follows : log.Follows chattingServer)
    (taken : log.step chattingServer event = .ok next) : next.Follows chattingServer := by
  cases event with
  | accept session addrInfo_ =>
      obtain ⟨game, accepted, taken⟩ := Exec.bind_ok taken
      obtain ⟨manager, -, accepted⟩ := Exec.bind_ok accepted
      cases accepted
      cases taken
      exact ⟨follows.rooms, follows.sent⟩
  | disconnected session =>
      obtain ⟨game, closed, taken⟩ := Exec.bind_ok taken
      simp only [Game.step] at closed
      split at closed
      · cases closed
        cases taken
        exact ⟨follows.rooms, follows.sent⟩
      · cases closed
  | I_USER_INFO room_Num User1_ID User2_ID =>
      obtain ⟨⟨rooms, sent⟩, handled, taken⟩ := Exec.bind_ok taken
      cases taken
      obtain ⟨kept, told⟩ := I_USER_INFO_follow follows.rooms chattingServer handled
      exact ⟨kept, told, follows.sent⟩
  | request session packet =>
      obtain ⟨⟨rooms, sent⟩, handled, taken⟩ := Exec.bind_ok taken
      cases taken
      obtain ⟨kept, told⟩ := request_follow follows.rooms chattingServer handled
      exact ⟨kept, told, follows.sent⟩

def Asks : Game.Event → Prop
  | .I_USER_INFO _ _ _ => True
  | .request _ packet => (askedRoom packet).isSome
  | _ => False

def uses (log : GameLog) : Game.Event → List SessionPtr
  | .I_USER_INFO _ User1_ID User2_ID =>
      let temp1 := addressed (player User1_ID log.exchanges) (sessionPtr log.game.manager User1_ID)
      let temp2 := addressed (player User2_ID log.exchanges) (sessionPtr log.game.manager User2_ID)
      if temp1 = 0 ∨ temp2 = 0 then [] else [temp1, temp2]
  | .request session packet =>
      usesRequest log.exchanges session (idOf log.game.manager session) packet
  | _ => []

/-- A handler comes to its end exactly when these sessions are still connected. -/
def Replies (chattingServer : Terminal) (log : GameLog) : Prop :=
  ∀ event, Asks event → (Exec.Ends (log.step chattingServer event) ↔
    ∀ session ∈ log.uses event, Exec.Ends (log.game.manager.deref session))

theorem Follows.replies (follows : log.Follows chattingServer) : log.Replies chattingServer := by
  intro event asks
  cases event with
  | accept session addrInfo_ => exact asks.elim
  | disconnected session => exact asks.elim
  | I_USER_INFO room_Num User1_ID User2_ID =>
      exact Exec.ends_return.trans (I_USER_INFO_ends follows.rooms room_Num User1_ID User2_ID)
  | request session packet =>
      exact Exec.ends_return.trans (request_ends follows.rooms chattingServer asks)

end GameLog

end InGameServer

end GraduationServer
