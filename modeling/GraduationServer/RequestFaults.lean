import GraduationServer.InGameProcess

/-!
How a game packet of a connected client can fail: only in a `sendPacket` to the
other member of the room, which three of the handlers make without a test of
the pointer that they found.
-/

namespace GraduationServer

namespace InGameServer

/-- The member that the handler of the packet answers without testing its
pointer for null, for a client with the given id. -/
def untested (packet : Packet) (room : Room) (id : oid_t) : Option oid_t :=
  match packet with
  | .PK_C_REQ_FIRE_BULLET .. =>
      if room.User1_ID = id then some room.User2_ID
      else if room.User2_ID = id then some room.User1_ID
      else none
  | .PK_C_REQ_MAKE_BOSS _ | .PK_C_REQ_BOSS_EXPLOSION _ =>
      if id = room.User1_ID then some room.User2_ID else none
  | _ => none

inductive SendFault (rooms : Rooms) (manager : SessionManager) (packet : Packet) (room : Room)
    (id : oid_t) : Fault → Prop
  | null {peer : oid_t} : untested packet room id = some peer → rooms.Find_sessions peer = 0 →
      SendFault rooms manager packet room id .nullPointer
  | freed {peer : oid_t} : room.Member peer → rooms.Find_sessions peer ≠ 0 →
      manager.registered (rooms.Find_sessions peer) = false →
      SendFault rooms manager packet room id .freedObject

section

variable {rooms : Rooms} {terminal : Terminal} {manager : SessionManager} {session : SessionPtr}
variable {object : Session} {packet : Packet} {reason : Fault}

theorem sendTo_fault {target : SessionPtr} {answer : Packet}
    (stopped : sendTo manager target answer = .error reason) :
    target = 0 ∧ reason = .nullPointer ∨
      target ≠ 0 ∧ manager.registered target = false ∧ reason = .freedObject := by
  rcases Exec.bind_error stopped with unused | ⟨_, -, done⟩
  · exact SessionManager.deref_error unused
  · cases done

theorem sendTo_null (manager : SessionManager) (answer : Packet) :
    sendTo manager 0 answer = .error .nullPointer := rfl

theorem sendTo_used (used : manager.deref session = .ok object) (answer : Packet) :
    sendTo manager session answer = .ok [(.session session, answer)] := by
  rw [sendTo, used]
  rfl

theorem untested_fault {room : Room} {id peer : oid_t} {answer : Packet}
    (answers : untested packet room id = some peer) (member : room.Member peer)
    (stopped : sendTo manager (rooms.Find_sessions peer) answer = .error reason) :
    SendFault rooms manager packet room id reason := by
  rcases sendTo_fault stopped with ⟨null, rfl⟩ | ⟨notNull, gone, rfl⟩
  · exact SendFault.null answers null
  · exact SendFault.freed member notNull gone

theorem tested_fault {room : Room} {id peer : oid_t} {answer : Packet} (member : room.Member peer)
    (notNull : rooms.Find_sessions peer ≠ 0)
    (stopped : sendTo manager (rooms.Find_sessions peer) answer = .error reason) :
    SendFault rooms manager packet room id reason := by
  rcases sendTo_fault stopped with ⟨null, _⟩ | ⟨_, gone, rfl⟩
  · exact absurd null notNull
  · exact SendFault.freed member notNull gone

theorem request_fault (used : manager.deref session = .ok object)
    (stopped : request rooms terminal manager session packet = .error reason) :
    reason = .notEnabled ∨ ∃ room_num room, askedRoom packet = some room_num ∧
      rooms.roomArr (toInt room_num) = some room ∧
      SendFault rooms manager packet room object.id_ reason := by
  cases packet with
  | PK_C_REQ_PLAYER_MOVE Room_num x y =>
      simp only [request, C_REQ_PLAYER_MOVE] at stopped
      split at stopped
      · cases stopped
      · rename_i room found
        refine Or.inr ⟨Room_num, room, rfl, found, ?_⟩
        simp only [used, bind, Except.bind] at stopped
        split_ifs at stopped with first null second null
        · cases stopped
        · rcases Exec.bind_error stopped with sending | ⟨_, -, done⟩
          · exact tested_fault (Or.inr rfl) null sending
          · cases done
        · cases stopped
        · rcases Exec.bind_error stopped with sending | ⟨_, -, done⟩
          · exact tested_fault (Or.inl rfl) null sending
          · cases done
        · cases stopped
  | PK_C_REQ_FIRE_BULLET room_num x y =>
      simp only [request, C_REQ_FIRE_BULLET] at stopped
      split at stopped
      · cases stopped
      · rename_i room found
        refine Or.inr ⟨room_num, room, rfl, found, ?_⟩
        simp only [used, bind, Except.bind] at stopped
        split_ifs at stopped with first second
        · rcases Exec.bind_error stopped with sending | ⟨_, -, done⟩
          · exact untested_fault (by simp only [untested, first, if_true]) (Or.inr rfl) sending
          · cases done
        · rcases Exec.bind_error stopped with sending | ⟨_, -, done⟩
          · exact untested_fault (by simp only [untested, first, second, if_true, if_false])
              (Or.inl rfl) sending
          · cases done
        · cases stopped
  | PK_C_REQ_MAKE_ENEMY room_num x =>
      simp only [request, C_REQ_MAKE_ENEMY] at stopped
      split at stopped
      · cases stopped
      · rename_i room found
        refine Or.inr ⟨room_num, room, rfl, found, ?_⟩
        split at stopped
        · cases stopped
        · simp only [used, bind, Except.bind] at stopped
          split_ifs at stopped with first null
          · cases stopped
          · rcases Exec.bind_error stopped with sending | ⟨_, -, rest⟩
            · exact tested_fault (Or.inr rfl) null sending
            · rw [sendTo_used used] at rest
              cases rest
          · cases stopped
  | PK_C_REQ_ENEMY_EXPLOSION room_num enemycount =>
      simp only [request, C_REQ_ENEMY_EXPLOSION] at stopped
      split at stopped
      · cases stopped
      · simp only [used, bind, Except.bind, sendTo_used used] at stopped
        split_ifs at stopped <;> cases stopped
  | PK_C_REQ_MAKE_BOSS room_num =>
      simp only [request, C_REQ_MAKE_BOSS] at stopped
      split at stopped
      · cases stopped
      · rename_i room found
        refine Or.inr ⟨room_num, room, rfl, found, ?_⟩
        simp only [used, bind, Except.bind, sendTo_used used] at stopped
        split_ifs at stopped with first
        · rcases Exec.bind_error stopped with sending | ⟨_, -, done⟩
          · exact untested_fault (by simp only [untested, first, if_true]) (Or.inr rfl) sending
          · cases done
        · cases stopped
  | PK_C_REQ_BOSS_EXPLOSION room_num =>
      simp only [request, C_REQ_BOSS_EXPLOSION] at stopped
      split at stopped
      · cases stopped
      · rename_i room found
        refine Or.inr ⟨room_num, room, rfl, found, ?_⟩
        simp only [used, bind, Except.bind, sendTo_used used] at stopped
        split_ifs at stopped with first
        · rcases Exec.bind_error stopped with sending | ⟨_, -, done⟩
          · exact untested_fault (by simp only [untested, first, if_true]) (Or.inr rfl) sending
          · cases done
        · cases stopped
  | _ => exact Or.inl (Except.error.inj stopped).symm

theorem request_null {room_num : UInt64} {room : Room} {peer : oid_t}
    (used : manager.deref session = .ok object) (asks : askedRoom packet = some room_num)
    (found : rooms.roomArr (toInt room_num) = some room)
    (answers : untested packet room object.id_ = some peer)
    (null : rooms.Find_sessions peer = 0) :
    request rooms terminal manager session packet = .error .nullPointer := by
  cases packet with
  | PK_C_REQ_FIRE_BULLET room_num x y =>
      cases asks
      simp only [request, C_REQ_FIRE_BULLET, found, used, bind, Except.bind]
      simp only [untested] at answers
      split_ifs at answers ⊢ with first second
      · cases answers
        simp only [null, sendTo_null]
      · cases answers
        simp only [null, sendTo_null]
  | PK_C_REQ_MAKE_BOSS room_num =>
      cases asks
      simp only [request, C_REQ_MAKE_BOSS, found, used, bind, Except.bind, sendTo_used used]
      simp only [untested] at answers
      split_ifs at answers ⊢ with first
      cases answers
      simp only [null, sendTo_null]
  | PK_C_REQ_BOSS_EXPLOSION room_num =>
      cases asks
      simp only [request, C_REQ_BOSS_EXPLOSION, found, used, bind, Except.bind, sendTo_used used]
      simp only [untested] at answers
      split_ifs at answers ⊢ with first
      cases answers
      simp only [null, sendTo_null]
  | _ => cases answers

end

end InGameServer

end GraduationServer
