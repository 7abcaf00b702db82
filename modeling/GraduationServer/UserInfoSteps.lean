import GraduationServer.RoomHeap

/-!
`I_USER_INFO` in single operations on the maps, with game packets served in
between. A room is in `roomArr` before its members are bound, may be bound to
null, and may be deleted by a game packet while the thread still reads it.
-/

namespace GraduationServer

namespace InGameServer

/-- The next operation of a thread in `I_USER_INFO`, with the pointers that it
has found. `tries` are the turns of the loop after this one. -/
inductive Point where
  | Insert_User_Info (User1_ID User2_ID : UInt64)
  | lookup1 (tries : Nat)
  | Insert_Sessions1 (tries : Nat) (found : SessionPtr)
  | lookup2 (tries : Nat)
  | Insert_Sessions2 (tries : Nat) (found : SessionPtr)
  | Find_sessions1 (tries : Nat)
  | Find_sessions2 (tries : Nat) (temp1 : SessionPtr)
  | send1 (temp1 temp2 : SessionPtr)
  | send2 (temp2 : SessionPtr)
  | initializeRoom
  | eraseRoom
  | Delete_Sessions1
  | Delete_Sessions2
  | returned
  deriving DecidableEq

def Point.again : Nat → Point
  | 0 => .initializeRoom
  | tries + 1 => .lookup1 tries

/-- `tempRoom` is the address of the object, which the first operation sets. -/
structure Job where
  room_Num : UInt64
  tempRoom : Nat
  point : Point

namespace RoomHeap

def read (heap : RoomHeap) (address : Nat) : Exec Room :=
  match heap.objects address with
  | none => .error .freedObject
  | some room => .ok room

def Insert_Sessions (heap : RoomHeap) (id : oid_t) (session_ : SessionPtr) : RoomHeap :=
  { heap with simpleSessionManager := StdMap.insert heap.simpleSessionManager id session_ }

def Delete_Sessions (heap : RoomHeap) (key : oid_t) : RoomHeap :=
  { heap with simpleSessionManager := StdMap.erase heap.simpleSessionManager key }

def Find_sessions (heap : RoomHeap) (key : oid_t) : SessionPtr :=
  (heap.simpleSessionManager key).getD 0

theorem read_held {heap : RoomHeap} {address : Nat} {room : Room}
    (held : heap.objects address = some room) : heap.read address = .ok room := by
  rw [read, held]

end RoomHeap

namespace Job

/-- Every operation reads the ids again from the object that `tempRoom` points at. -/
def advance (manager : SessionManager) (heap : RoomHeap) (job : Job) :
    Exec (RoomHeap × List (Receiver × Packet) × Job) :=
  match job.point with
  | .Insert_User_Info User1_ID User2_ID =>
      let tempRoom := heap.created
      let heap := { heap with
        objects := StdMap.assign heap.objects tempRoom
          { User1_ID, User2_ID, total_exploded_enemy := 0 }
        created := heap.created + 1
        roomArr := StdMap.insert heap.roomArr (toInt job.room_Num) tempRoom }
      .ok (heap, [], { job with tempRoom, point := .again 3 })
  | .lookup1 tries => do
      let room ← heap.read job.tempRoom
      let found := sessionPtr manager room.User1_ID
      return (heap, [], { job with point := .Insert_Sessions1 tries found })
  | .Insert_Sessions1 tries found => do
      let room ← heap.read job.tempRoom
      return (heap.Insert_Sessions room.User1_ID found, [], { job with point := .lookup2 tries })
  | .lookup2 tries => do
      let room ← heap.read job.tempRoom
      let found := sessionPtr manager room.User2_ID
      return (heap, [], { job with point := .Insert_Sessions2 tries found })
  | .Insert_Sessions2 tries found => do
      let room ← heap.read job.tempRoom
      return (heap.Insert_Sessions room.User2_ID found, [],
        { job with point := .Find_sessions1 tries })
  | .Find_sessions1 tries => do
      let room ← heap.read job.tempRoom
      let temp1 := heap.Find_sessions room.User1_ID
      return (heap, [], { job with point := .Find_sessions2 tries temp1 })
  | .Find_sessions2 tries temp1 => do
      let room ← heap.read job.tempRoom
      let temp2 := heap.Find_sessions room.User2_ID
      let point := if temp1 = 0 ∨ temp2 = 0 then .again tries else .send1 temp1 temp2
      return (heap, [], { job with point })
  | .send1 temp1 temp2 => do
      let sent ← sendTo manager temp1 (.PK_S_REQ_ON_GAME job.room_Num)
      return (heap, sent, { job with point := .send2 temp2 })
  | .send2 temp2 => do
      let sent ← sendTo manager temp2 (.PK_S_REQ_ON_GAME job.room_Num)
      return (heap, sent, { job with point := .returned })
  | .initializeRoom =>
      .ok (heap, [(.terminal .ChattingServer, .PK_I_INITIALIZE_ROOMMEMBER job.room_Num 0)],
        { job with point := .eraseRoom })
  | .eraseRoom =>
      .ok ({ heap with roomArr := StdMap.erase heap.roomArr (toInt job.room_Num) }, [],
        { job with point := .Delete_Sessions1 })
  | .Delete_Sessions1 => do
      let room ← heap.read job.tempRoom
      return (heap.Delete_Sessions room.User1_ID, [], { job with point := .Delete_Sessions2 })
  | .Delete_Sessions2 => do
      let room ← heap.read job.tempRoom
      let heap := heap.Delete_Sessions room.User2_ID
      return ({ heap with objects := StdMap.erase heap.objects job.tempRoom }, [],
        { job with point := .returned })
  | .returned => .error .notEnabled

def finish (manager : SessionManager) : Nat → RoomHeap → Job →
    Exec (RoomHeap × List (Receiver × Packet))
  | 0, _, _ => .error .endlessLoop
  | fuel + 1, heap, job =>
      if job.point = .returned then .ok (heap, [])
      else do
        let (heap, sent, job) ← job.advance manager heap
        let (heap, later) ← finish manager fuel heap job
        return (heap, sent ++ later)

section

variable {manager : SessionManager} {heap after : RoomHeap} {job next : Job}

theorem finish_step (running : job.point ≠ .returned)
    (advanced : job.advance manager heap = .ok (after, [], next)) (fuel : Nat) :
    finish manager (fuel + 1) heap job = finish manager fuel after next := by
  rw [finish, if_neg running, advanced]
  simp only [bind, Except.bind]
  cases finish manager fuel after next <;> rfl

theorem finish_send2 (room_Num : UInt64) (tempRoom fuel : Nat) (temp2 : SessionPtr) :
    finish manager (fuel + 2) heap { room_Num, tempRoom, point := .send2 temp2 } = do
        let second ← sendTo manager temp2 (.PK_S_REQ_ON_GAME room_Num)
        return (heap, second) := by
  rw [finish, if_neg (by simp)]
  simp only [advance]
  cases sendTo manager temp2 (.PK_S_REQ_ON_GAME room_Num) with
  | error reason => rfl
  | ok second => simp [bind, Except.bind, pure, Except.pure, finish]

theorem finish_send1 (room_Num : UInt64) (tempRoom fuel : Nat) (temp1 temp2 : SessionPtr) :
    finish manager (fuel + 3) heap { room_Num, tempRoom, point := .send1 temp1 temp2 } = do
        let first ← sendTo manager temp1 (.PK_S_REQ_ON_GAME room_Num)
        let second ← sendTo manager temp2 (.PK_S_REQ_ON_GAME room_Num)
        return (heap, first ++ second) := by
  rw [finish, if_neg (by simp)]
  simp only [advance]
  cases sendTo manager temp1 (.PK_S_REQ_ON_GAME room_Num) with
  | error reason => rfl
  | ok first =>
      simp only [bind, Except.bind, pure, Except.pure, finish_send2]
      cases sendTo manager temp2 (.PK_S_REQ_ON_GAME room_Num) <;> rfl

theorem finish_failed {room : Room} (room_Num : UInt64) {tempRoom : Nat}
    (held : heap.objects tempRoom = some room) (fuel : Nat) :
    finish manager (fuel + 5) heap { room_Num, tempRoom, point := .initializeRoom } =
      (RoomHeap.delete { heap with roomArr := StdMap.erase heap.roomArr (toInt room_Num) }
        tempRoom).map fun heap =>
          (heap, [(.terminal .ChattingServer, .PK_I_INITIALIZE_ROOMMEMBER room_Num 0)]) := by
  simp [finish, advance, RoomHeap.read, RoomHeap.delete, RoomHeap.Delete_Sessions, held, bind,
    Except.bind, pure, Except.pure, Except.map]

end

theorem finish_turn (manager : SessionManager) (room_Num : UInt64) {room : Room}
    (tries fuel : Nat) (heap : RoomHeap) {tempRoom : Nat}
    (held : heap.objects tempRoom = some room) :
    let bound := (heap.Insert_Sessions room.User1_ID
      (sessionPtr manager room.User1_ID)).Insert_Sessions room.User2_ID
        (sessionPtr manager room.User2_ID)
    let temp1 := bound.Find_sessions room.User1_ID
    let temp2 := bound.Find_sessions room.User2_ID
    finish manager (fuel + 6) heap { room_Num, tempRoom, point := .lookup1 tries } =
      finish manager fuel bound
        { room_Num, tempRoom
          point := if temp1 = 0 ∨ temp2 = 0 then .again tries else .send1 temp1 temp2 } := by
  intro bound temp1 temp2
  have first := RoomHeap.read_held held
  have second : (heap.Insert_Sessions room.User1_ID (sessionPtr manager room.User1_ID)).read
      tempRoom = .ok room := RoomHeap.read_held held
  have third : bound.read tempRoom = .ok room := RoomHeap.read_held held
  rw [finish_step (by simp) (by simp only [advance, first]; rfl),
    finish_step (by simp) (by simp only [advance, first]; rfl),
    finish_step (by simp) (by simp only [advance, second]; rfl),
    finish_step (by simp) (by simp only [advance, second]; rfl),
    finish_step (by simp) (by simp only [advance]; exact congrArg (Except.bind · _) third),
    finish_step (by simp) (by simp only [advance]; exact congrArg (Except.bind · _) third)]

theorem finish_loop (manager : SessionManager) (room_Num : UInt64) {room : Room}
    (tries fuel : Nat) (heap : RoomHeap) {tempRoom : Nat}
    (held : heap.objects tempRoom = some room) :
    finish manager (6 * tries + (fuel + 5)) heap { room_Num, tempRoom, point := .again tries } =
      match bindUsers manager room.User1_ID room.User2_ID tries
        { roomArr := StdMap.empty, simpleSessionManager := heap.simpleSessionManager } with
      | (bound, none) =>
          (RoomHeap.delete { heap with
            roomArr := StdMap.erase heap.roomArr (toInt room_Num)
            simpleSessionManager := bound.simpleSessionManager } tempRoom).map fun heap =>
              (heap, [(.terminal .ChattingServer, .PK_I_INITIALIZE_ROOMMEMBER room_Num 0)])
      | (bound, some (temp1, temp2)) => do
          let first ← sendTo manager temp1 (.PK_S_REQ_ON_GAME room_Num)
          let second ← sendTo manager temp2 (.PK_S_REQ_ON_GAME room_Num)
          return ({ heap with simpleSessionManager := bound.simpleSessionManager },
            first ++ second) := by
  induction tries generalizing fuel heap with
  | zero => exact finish_failed room_Num held _
  | succ tries ih =>
      have turn : 6 * (tries + 1) + (fuel + 5) = (6 * tries + (fuel + 5)) + 6 := by omega
      let bound := (heap.Insert_Sessions room.User1_ID
        (sessionPtr manager room.User1_ID)).Insert_Sessions room.User2_ID
          (sessionPtr manager room.User2_ID)
      let temp1 := bound.Find_sessions room.User1_ID
      let temp2 := bound.Find_sessions room.User2_ID
      have tried : bindUsers manager room.User1_ID room.User2_ID (tries + 1)
          { roomArr := StdMap.empty, simpleSessionManager := heap.simpleSessionManager } =
          if temp1 = 0 ∨ temp2 = 0 then
            bindUsers manager room.User1_ID room.User2_ID tries
              { roomArr := StdMap.empty, simpleSessionManager := bound.simpleSessionManager }
          else ({ roomArr := StdMap.empty, simpleSessionManager := bound.simpleSessionManager },
            some (temp1, temp2)) := rfl
      rw [turn, Point.again, finish_turn manager room_Num tries _ heap held, tried]
      by_cases null : temp1 = 0 ∨ temp2 = 0
      · rw [if_pos null, if_pos null]
        exact ih fuel bound held
      · rw [if_neg null, if_neg null]
        have enough : 6 * tries + (fuel + 5) = (6 * tries + fuel + 2) + 3 := by omega
        rw [enough]
        exact finish_send1 room_Num tempRoom _ temp1 temp2

theorem finish_alone (heap : RoomHeap) (manager : SessionManager)
    (room_Num User1_ID User2_ID : UInt64) (unset : Nat) :
    finish manager 24 heap
        { room_Num, tempRoom := unset, point := .Insert_User_Info User1_ID User2_ID } =
      heap.I_USER_INFO manager room_Num User1_ID User2_ID := by
  rw [finish_step (by simp) rfl, finish_loop manager room_Num 3 0 _ (StdMap.assign_same _ _ _),
    RoomHeap.I_USER_INFO]
  generalize bindUsers manager User1_ID User2_ID 3 _ = bound
  obtain ⟨bound, found⟩ := bound
  cases found with
  | none =>
      simp only [bind, Except.bind, pure, Except.pure]
      generalize RoomHeap.delete _ _ = deleted
      cases deleted <;> rfl
  | some found => rfl

def SendsNotNull (job : Job) : Prop :=
  match job.point with
  | .send1 temp1 temp2 => temp1 ≠ 0 ∧ temp2 ≠ 0
  | .send2 temp2 => temp2 ≠ 0
  | _ => True

theorem again_notNull (room_Num : UInt64) (tempRoom tries : Nat) :
    SendsNotNull { room_Num, tempRoom, point := .again tries } := by
  cases tries <;> trivial

/-- Where the object is: not under another number than that of the thread, and under
none once the thread has erased it. -/
def Owned (heap : RoomHeap) (job : Job) : Prop :=
  match job.point with
  | .Insert_User_Info _ _ | .returned => True
  | .Delete_Sessions1 | .Delete_Sessions2 =>
      job.tempRoom < heap.created ∧ ∀ key, heap.roomArr key ≠ some job.tempRoom
  | _ => job.tempRoom < heap.created ∧
      ∀ key, heap.roomArr key = some job.tempRoom → key = toInt job.room_Num

/-- A pointer that is new under a number is a new object. -/
structure Keeps (heap after : RoomHeap) : Prop where
  created : heap.created ≤ after.created
  pointers : ∀ key address, after.roomArr key = some address →
    heap.roomArr key = some address ∨ heap.created ≤ address

inductive Advanced (heap : RoomHeap) (job : Job) : RoomHeap → Job → Prop
  | inserts (User1_ID User2_ID : UInt64) : job.point = .Insert_User_Info User1_ID User2_ID →
      Advanced heap job { heap with
          objects := StdMap.assign heap.objects heap.created
            { User1_ID, User2_ID, total_exploded_enemy := 0 }
          created := heap.created + 1
          roomArr := StdMap.insert heap.roomArr (toInt job.room_Num) heap.created }
        { job with tempRoom := heap.created, point := .again 3 }
  | binds (simpleSessionManager : StdMap.Map oid_t SessionPtr) (point : Point) :
      (∀ heap : RoomHeap, job.Owned heap → Owned heap { job with point }) →
      (job.SendsNotNull → SendsNotNull { job with point }) →
      Advanced heap job { heap with simpleSessionManager } { job with point }
  | erases : job.point = .eraseRoom →
      Advanced heap job { heap with roomArr := StdMap.erase heap.roomArr (toInt job.room_Num) }
        { job with point := .Delete_Sessions1 }
  | frees (simpleSessionManager : StdMap.Map oid_t SessionPtr) : job.point = .Delete_Sessions2 →
      Advanced heap job { heap with
          objects := StdMap.erase heap.objects job.tempRoom
          simpleSessionManager }
        { job with point := .returned }

section

variable {manager : SessionManager} {heap after : RoomHeap} {job next : Job}
variable {sent : List (Receiver × Packet)}

theorem again_owned {room_Num : UInt64} {tempRoom tries : Nat} :
    Owned heap { room_Num, tempRoom, point := .again tries } ↔ tempRoom < heap.created ∧
      ∀ key, heap.roomArr key = some tempRoom → key = toInt room_Num := by
  cases tries <;> exact Iff.rfl

theorem advance_cases (done : job.advance manager heap = .ok (after, sent, next)) :
    Advanced heap job after next := by
  obtain ⟨room_Num, tempRoom, point⟩ := job
  cases point with
  | Insert_User_Info User1_ID User2_ID =>
      cases done
      exact .inserts User1_ID User2_ID rfl
  | lookup1 tries =>
      obtain ⟨room, -, done⟩ := Exec.bind_ok done
      cases done
      exact .binds _ _ (fun _ owned => owned) fun _ => trivial
  | Insert_Sessions1 tries found =>
      obtain ⟨room, -, done⟩ := Exec.bind_ok done
      cases done
      exact .binds _ _ (fun _ owned => owned) fun _ => trivial
  | lookup2 tries =>
      obtain ⟨room, -, done⟩ := Exec.bind_ok done
      cases done
      exact .binds _ _ (fun _ owned => owned) fun _ => trivial
  | Insert_Sessions2 tries found =>
      obtain ⟨room, -, done⟩ := Exec.bind_ok done
      cases done
      exact .binds _ _ (fun _ owned => owned) fun _ => trivial
  | Find_sessions1 tries =>
      obtain ⟨room, -, done⟩ := Exec.bind_ok done
      cases done
      exact .binds _ _ (fun _ owned => owned) fun _ => trivial
  | Find_sessions2 tries temp1 =>
      obtain ⟨room, -, done⟩ := Exec.bind_ok done
      cases done
      refine .binds _ _ ?_ ?_
      · intro heap owned
        split
        · exact again_owned.mpr owned
        · exact owned
      · intro _
        split
        · exact again_notNull _ _ _
        · rename_i found
          exact not_or.mp found
  | send1 temp1 temp2 =>
      obtain ⟨told, -, done⟩ := Exec.bind_ok done
      cases done
      exact .binds _ _ (fun _ owned => owned) fun notNull => notNull.2
  | send2 temp2 =>
      obtain ⟨told, -, done⟩ := Exec.bind_ok done
      cases done
      exact .binds _ _ (fun _ _ => trivial) fun _ => trivial
  | initializeRoom =>
      cases done
      exact .binds _ _ (fun _ owned => owned) fun _ => trivial
  | eraseRoom =>
      cases done
      exact .erases rfl
  | Delete_Sessions1 =>
      obtain ⟨room, -, done⟩ := Exec.bind_ok done
      cases done
      exact .binds _ _ (fun _ owned => owned) fun _ => trivial
  | Delete_Sessions2 =>
      obtain ⟨room, -, done⟩ := Exec.bind_ok done
      cases done
      exact .frees _ rfl
  | returned => cases done

theorem Owned.keeps (owned : job.Owned heap) (keeps : Keeps heap after) : job.Owned after := by
  obtain ⟨room_Num, tempRoom, point⟩ := job
  have same : ∀ key, tempRoom < heap.created → after.roomArr key = some tempRoom →
      heap.roomArr key = some tempRoom := by
    intro key below pointer
    rcases keeps.pointers key tempRoom pointer with old | new
    · exact old
    · omega
  cases point with
  | Insert_User_Info User1_ID User2_ID => trivial
  | returned => trivial
  | Delete_Sessions1 =>
      obtain ⟨below, nowhere⟩ := owned
      exact ⟨below.trans_le keeps.created, fun key at_ => nowhere key (same key below at_)⟩
  | Delete_Sessions2 =>
      obtain ⟨below, nowhere⟩ := owned
      exact ⟨below.trans_le keeps.created, fun key at_ => nowhere key (same key below at_)⟩
  | _ =>
      obtain ⟨below, only⟩ := owned
      exact ⟨below.trans_le keeps.created, fun key at_ => only key (same key below at_)⟩

theorem Advanced.keeps (advanced : Advanced heap job after next) : Keeps heap after := by
  cases advanced with
  | inserts User1_ID User2_ID started =>
      refine ⟨Nat.le_succ _, ?_⟩
      intro key address pointer
      rcases StdMap.insert_some pointer with old | ⟨-, rfl⟩
      · exact Or.inl old
      · exact Or.inr (Nat.le_refl _)
  | binds => exact ⟨Nat.le_refl _, fun _ _ pointer => Or.inl pointer⟩
  | erases => exact ⟨Nat.le_refl _, fun _ _ pointer => Or.inl (StdMap.erase_some pointer)⟩
  | frees => exact ⟨Nat.le_refl _, fun _ _ pointer => Or.inl pointer⟩

theorem Advanced.sends (advanced : Advanced heap job after next) (notNull : job.SendsNotNull) :
    next.SendsNotNull := by
  cases advanced with
  | inserts => exact again_notNull _ _ _
  | binds simpleSessionManager point owned sends => exact sends notNull
  | erases => trivial
  | frees => trivial

theorem Advanced.owned (advanced : Advanced heap job after next) (sound : heap.Sound)
    (owned : job.Owned heap) : next.Owned after := by
  cases advanced with
  | inserts User1_ID User2_ID started =>
      refine again_owned.mpr ⟨Nat.lt_succ_self _, ?_⟩
      intro key pointer
      rcases StdMap.insert_some pointer with old | ⟨rfl, -⟩
      · exact absurd rfl (sound.old old)
      · rfl
  | binds simpleSessionManager point still =>
      exact (still heap owned).keeps ⟨Nat.le_refl _, fun _ _ pointer => Or.inl pointer⟩
  | erases erasing =>
      simp only [Owned, erasing] at owned
      refine ⟨owned.1, ?_⟩
      intro key pointer
      have number := owned.2 key (StdMap.erase_some pointer)
      simp [number] at pointer
  | frees => trivial

theorem Advanced.sound (advanced : Advanced heap job after next) (owned : job.Owned heap)
    (sound : heap.Sound) : after.Sound := by
  cases advanced with
  | inserts User1_ID User2_ID started =>
      have made : RoomHeap.Made heap job.room_Num User1_ID User2_ID _ :=
        .started heap.simpleSessionManager
      exact made.sound sound
  | binds => exact ⟨sound.lives, sound.apart, sound.made⟩
  | erases =>
      constructor
      · exact fun key address pointer => sound.lives key address (StdMap.erase_some pointer)
      · intro key other address pointer same
        exact sound.apart key other address (StdMap.erase_some pointer) (StdMap.erase_some same)
      · exact sound.made
  | frees simpleSessionManager freeing =>
      simp only [Owned, freeing] at owned
      constructor
      · intro key address pointer
        obtain ⟨room, lives⟩ := sound.lives key address pointer
        have elsewhere : address ≠ job.tempRoom := by
          rintro rfl
          exact owned.2 key pointer
        exact ⟨room, (StdMap.erase_other elsewhere).trans lives⟩
      · exact sound.apart
      · exact fun address room lives => sound.made address room (StdMap.erase_some lives)

theorem left_keeps (left : RoomHeap.Left heap after) : Keeps heap after := by
  cases left with
  | same => exact ⟨Nat.le_refl _, fun _ _ pointer => Or.inl pointer⟩
  | counted => exact ⟨Nat.le_refl _, fun _ _ pointer => Or.inl pointer⟩
  | ended => exact ⟨Nat.le_refl _, fun _ _ pointer => Or.inl (StdMap.erase_some pointer)⟩

theorem sendTo_notNull {target : SessionPtr} {answer : Packet} (notNull : target ≠ 0) :
    sendTo manager target answer ≠ .error .nullPointer := by
  intro stopped
  rcases sendTo_fault stopped with ⟨null, -⟩ | ⟨-, -, freed⟩
  · exact notNull null
  · cases freed

theorem read_notNull {address : Nat} : heap.read address ≠ .error .nullPointer := by
  intro stopped
  rw [RoomHeap.read] at stopped
  split at stopped <;> cases stopped

theorem advance_sends (notNull : job.SendsNotNull) :
    job.advance manager heap ≠ .error .nullPointer := by
  obtain ⟨room_Num, tempRoom, point⟩ := job
  intro stopped
  cases point with
  | Insert_User_Info => cases stopped
  | initializeRoom => cases stopped
  | eraseRoom => cases stopped
  | returned => cases stopped
  | send1 temp1 temp2 =>
      rcases Exec.bind_error stopped with sending | ⟨_, -, done⟩
      · exact sendTo_notNull notNull.1 sending
      · cases done
  | send2 temp2 =>
      rcases Exec.bind_error stopped with sending | ⟨_, -, done⟩
      · exact sendTo_notNull notNull sending
      · cases done
  | _ =>
      rcases Exec.bind_error stopped with reading | ⟨_, -, done⟩
      · exact read_notNull reading
      · cases done

end

end Job

/-! The InGameServer with any number of threads in `I_USER_INFO`. -/

structure ThreadedGame where
  manager : SessionManager
  heap : RoomHeap
  jobs : StdMap.Map Nat Job

namespace ThreadedGame

inductive Event where
  | accept (session : SessionPtr) (addrInfo_ : Nat)
  | disconnected (session : SessionPtr)
  | I_USER_INFO (thread : Nat) (room_Num User1_ID User2_ID : UInt64)
  | advance (thread : Nat)
  | request (session : SessionPtr) (packet : Packet)

def initial (maxConnection : Int) : ThreadedGame :=
  { manager := SessionManager.init maxConnection
    heap := RoomHeap.initial
    jobs := StdMap.empty }

def step (chattingServer : Terminal) (game : ThreadedGame) : Event → Exec ThreadedGame
  | .accept session addrInfo_ => do
      return { game with manager := ← game.manager.accept session addrInfo_ }
  | .disconnected session =>
      if game.manager.registered session then
        .ok { game with manager := game.manager.closeSession session }
      else .error .notEnabled
  | .I_USER_INFO thread room_Num User1_ID User2_ID =>
      match game.jobs thread with
      | some _ => .error .notEnabled
      | none =>
          let job : Job :=
            { room_Num, tempRoom := 0, point := .Insert_User_Info User1_ID User2_ID }
          .ok { game with jobs := StdMap.assign game.jobs thread job }
  | .advance thread =>
      match game.jobs thread with
      | none => .error .notEnabled
      | some job => do
          let (heap, _, job) ← job.advance game.manager game.heap
          let jobs := if job.point = .returned then StdMap.erase game.jobs thread
            else StdMap.assign game.jobs thread job
          return { game with heap, jobs }
  | .request session packet =>
      if game.manager.registered session then do
        let (heap, _) ← game.heap.request chattingServer game.manager session packet
        return { game with heap }
      else .error .notEnabled

def CallsNotNull (chattingServer : Terminal) (game : ThreadedGame) (event : Event) : Prop :=
  game.step chattingServer event ≠ .error .nullPointer

/-- A packet whose handler does not test the pointer to the other member comes
while that member is bound, and not to null. -/
def PeerBound (game : ThreadedGame) : Event → Prop
  | .request session packet => ∀ object ∈ game.manager.sessionList_, object.address = session →
      ∀ room_num room peer, askedRoom packet = some room_num →
        game.heap.view.roomArr (toInt room_num) = some room →
        untested packet room object.id_ = some peer →
        ∃ bound, game.heap.simpleSessionManager peer = some bound ∧ bound ≠ 0
  | _ => True

structure Invariant (game : ThreadedGame) : Prop where
  allocated : game.manager.Allocated
  sound : game.heap.Sound
  sends : ∀ thread job, game.jobs thread = some job → job.SendsNotNull
  owned : ∀ thread job, game.jobs thread = some job → job.Owned game.heap

theorem initial_invariant (maxConnection : Int) : (initial maxConnection).Invariant := by
  refine ⟨SessionManager.init_allocated maxConnection, RoomHeap.initial_sound, ?_, ?_⟩
  · intro thread job working
    cases working
  · intro thread job working
    cases working

section

variable {chattingServer : Terminal} {game next : ThreadedGame} {event : Event}

theorem step_invariant (invariant : game.Invariant)
    (taken : game.step chattingServer event = .ok next) : next.Invariant := by
  obtain ⟨allocated, sound, sends, owned⟩ := invariant
  cases event with
  | accept session addrInfo_ =>
      obtain ⟨manager, accepted, taken⟩ := Exec.bind_ok taken
      cases taken
      exact ⟨SessionManager.accept_allocated allocated accepted, sound, sends, owned⟩
  | disconnected session =>
      simp only [step] at taken
      split at taken
      · cases taken
        exact ⟨SessionManager.closeSession_allocated allocated session, sound, sends, owned⟩
      · cases taken
  | I_USER_INFO thread room_Num User1_ID User2_ID =>
      simp only [step] at taken
      split at taken
      · cases taken
      · cases taken
        refine ⟨allocated, sound, ?_, ?_⟩
        · intro other job working
          rcases StdMap.assign_some working with earlier | ⟨-, rfl⟩
          · exact sends other job earlier
          · trivial
        · intro other job working
          rcases StdMap.assign_some working with earlier | ⟨-, rfl⟩
          · exact owned other job earlier
          · trivial
  | advance thread =>
      simp only [step] at taken
      split at taken
      · cases taken
      · rename_i job working
        obtain ⟨⟨heap, sent, later⟩, done, taken⟩ := Exec.bind_ok taken
        cases taken
        have advanced := Job.advance_cases done
        have others : ∀ other job, game.jobs other = some job → job.Owned heap :=
          fun other job still => (owned other job still).keeps advanced.keeps
        refine ⟨allocated, advanced.sound (owned thread job working) sound, ?_, ?_⟩
        · intro other job still
          dsimp only at still
          split at still
          · exact sends other job (StdMap.erase_some still)
          · rcases StdMap.assign_some still with earlier | ⟨-, rfl⟩
            · exact sends other job earlier
            · exact advanced.sends (sends thread _ working)
        · intro other job still
          dsimp only at still
          split at still
          · exact others other job (StdMap.erase_some still)
          · rcases StdMap.assign_some still with earlier | ⟨-, rfl⟩
            · exact others other job earlier
            · exact advanced.owned sound (owned thread _ working)
  | request session packet =>
      simp only [step] at taken
      split at taken
      · obtain ⟨⟨heap, sent⟩, served, taken⟩ := Exec.bind_ok taken
        cases taken
        have left := RoomHeap.request_left served
        exact ⟨allocated, left.sound sound, sends,
          fun other job still => (owned other job still).keeps (Job.left_keeps left)⟩
      · cases taken

theorem Find_sessions_notNull {rooms : Rooms} {id : oid_t} : rooms.Find_sessions id ≠ 0 ↔
    ∃ bound, rooms.simpleSessionManager id = some bound ∧ bound ≠ 0 := by
  rw [Rooms.Find_sessions]
  cases rooms.simpleSessionManager id <;> simp

theorem request_error (chattingServer : Terminal) (sound : game.heap.Sound)
    (session : SessionPtr) (packet : Packet) (reason : Fault) :
    game.heap.request chattingServer game.manager session packet = .error reason ↔
      InGameServer.request game.heap.view chattingServer game.manager session packet =
        .error reason := by
  rw [← RoomHeap.request_refines sound]
  cases game.heap.request chattingServer game.manager session packet with
  | error other => simp [Except.map]
  | ok result => simp [Except.map]

theorem request_notNull (allocated : game.manager.Allocated) (sound : game.heap.Sound)
    (session : SessionPtr) (packet : Packet) :
    game.CallsNotNull chattingServer (.request session packet) ↔
      game.PeerBound (.request session packet) := by
  rw [CallsNotNull, step]
  constructor
  · intro called object lives address room_num room peer asks found answers
    by_contra unbound
    have null : game.heap.view.Find_sessions peer = 0 :=
      not_not.mp (mt Find_sessions_notNull.mp unbound)
    subst address
    have used := SessionManager.deref_lives lives (allocated object lives)
    have registered := SessionManager.registered_iff.mpr ⟨object, lives, rfl⟩
    have stopped := (request_error chattingServer sound object.address packet _).mpr
      (request_null used asks found answers null)
    rw [if_pos registered] at called
    apply called
    rw [stopped]
    rfl
  · intro bound stopped
    split at stopped
    · rename_i registered
      obtain ⟨object, used⟩ := SessionManager.deref_registered allocated registered
      obtain ⟨lives, address, -⟩ := SessionManager.deref_ok used
      rcases Exec.bind_error stopped with failing | ⟨_, -, done⟩
      · have failed := (request_error chattingServer sound session packet _).mp failing
        rcases request_fault used failed with refused | ⟨room_num, room, asks, found, fault⟩
        · cases refused
        · cases fault with
          | null answers null =>
              have notNull := bound object lives address room_num room _ asks found answers
              exact Find_sessions_notNull.mpr notNull null
      · cases done
    · cases stopped

theorem step_notNull (invariant : game.Invariant) :
    game.CallsNotNull chattingServer event ↔ game.PeerBound event := by
  cases event with
  | request session packet =>
      exact request_notNull invariant.allocated invariant.sound session packet
  | accept session addrInfo_ =>
      refine iff_of_true ?_ trivial
      intro stopped
      rcases Exec.bind_error stopped with refused | ⟨_, -, done⟩
      · rw [SessionManager.accept] at refused
        split at refused <;> cases refused
      · cases done
  | disconnected session =>
      refine iff_of_true ?_ trivial
      intro stopped
      rw [step] at stopped
      split at stopped <;> cases stopped
  | I_USER_INFO thread room_Num User1_ID User2_ID =>
      refine iff_of_true ?_ trivial
      intro stopped
      rw [step] at stopped
      split at stopped <;> cases stopped
  | advance thread =>
      refine iff_of_true ?_ trivial
      intro stopped
      rw [step] at stopped
      split at stopped
      · cases stopped
      · rename_i job working
        rcases Exec.bind_error stopped with failing | ⟨_, -, done⟩
        · exact Job.advance_sends (invariant.sends thread job working) failing
        · cases done

end

/-- In every interleaving the handlers call `sendPacket` on no null pointer
exactly when every packet finds the member bound whose pointer is not tested. -/
theorem calls_notNull_iff (maxConnection : Int) (chattingServer : Terminal)
    (events : List Event) :
    Runs.Offered (step chattingServer) (CallsNotNull chattingServer) (initial maxConnection)
        events ↔
      Runs.Offered (step chattingServer) PeerBound (initial maxConnection) events :=
  Runs.Offered.congr (fun _ _ _ invariant _ => step_invariant invariant) (fun _ _ => step_notNull)
    (initial_invariant maxConnection)

/-- The first member fires when the room is there and nobody is bound yet. -/
theorem fires_at_null :
    ¬ ∀ events : List Event, Runs.Offered (step { ip_ := [], port_ := 0 })
      (CallsNotNull { ip_ := [], port_ := 0 }) (initial SESSION_CAPACITY) events := by
  intro every
  let chattingServer : Terminal := { ip_ := [], port_ := 0 }
  let events : List Event := [.accept 16 1, .accept 32 2, .I_USER_INFO 0 0 1 2, .advance 0]
  let fire : Event := .request 16 (.PK_C_REQ_FIRE_BULLET 0 0 0)
  have computed : (Runs.run (step chattingServer) (initial SESSION_CAPACITY) events).toOption.map
      (Runs.stop (step chattingServer) fire) = some (some .nullPointer) := by decide
  obtain ⟨game, reached, stopped⟩ := Runs.run_view computed
  have called : game.CallsNotNull chattingServer fire :=
    (every (events ++ [fire])).last reached
  exact called (Runs.stop_some stopped)

/-- The boss falls while the thread that has bound the players still reads their room. -/
example : (Runs.run (step { ip_ := [], port_ := 0 }) (initial SESSION_CAPACITY)
    [.accept 16 1, .accept 32 2, .I_USER_INFO 0 0 1 2, .advance 0, .advance 0, .advance 0,
      .advance 0, .advance 0, .request 16 (.PK_C_REQ_BOSS_EXPLOSION 0)]).toOption.map
    (Runs.stop (step { ip_ := [], port_ := 0 }) (.advance 0)) = some (some .freedObject) := by
  decide

end ThreadedGame

end InGameServer

end GraduationServer
