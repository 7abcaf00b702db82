import GraduationServer.GameLiveness

/-!
The `Room` objects behind `roomArr`, which holds pointers to them. `I_USER_INFO`
makes one, `erase` takes a pointer out without deleting, and `insert` does
nothing where the number is in use: then nothing points at the new object.
-/

namespace GraduationServer

namespace InGameServer

structure RoomHeap where
  objects : StdMap.Map Nat Room
  created : Nat
  roomArr : StdMap.Map Int32 Nat
  simpleSessionManager : StdMap.Map oid_t SessionPtr

namespace RoomHeap

def initial : RoomHeap :=
  { objects := StdMap.empty
    created := 0
    roomArr := StdMap.empty
    simpleSessionManager := StdMap.empty }

def find (heap : RoomHeap) (key : Int32) : Exec (Option (Nat × Room)) :=
  match heap.roomArr key with
  | none => .ok none
  | some address =>
      match heap.objects address with
      | none => .error .freedObject
      | some room => .ok (some (address, room))

def delete (heap : RoomHeap) (address : Nat) : Exec RoomHeap :=
  match heap.objects address with
  | none => .error .freedObject
  | some room =>
      .ok { heap with
        objects := StdMap.erase heap.objects address
        simpleSessionManager :=
          StdMap.erase (StdMap.erase heap.simpleSessionManager room.User1_ID) room.User2_ID }

def I_USER_INFO (heap : RoomHeap) (manager : SessionManager)
    (room_Num User1_ID User2_ID : UInt64) : Exec (RoomHeap × List (Receiver × Packet)) :=
  let tempRoom := heap.created
  let heap := { heap with
    objects := StdMap.assign heap.objects tempRoom
      { User1_ID, User2_ID, total_exploded_enemy := 0 }
    created := heap.created + 1
    roomArr := StdMap.insert heap.roomArr (toInt room_Num) tempRoom }
  let (bound, found) := bindUsers manager User1_ID User2_ID 3
    { roomArr := StdMap.empty, simpleSessionManager := heap.simpleSessionManager }
  let heap := { heap with simpleSessionManager := bound.simpleSessionManager }
  match found with
  | none => do
      let heap := { heap with roomArr := StdMap.erase heap.roomArr (toInt room_Num) }
      return (← heap.delete tempRoom,
        [(.terminal .ChattingServer, .PK_I_INITIALIZE_ROOMMEMBER room_Num 0)])
  | some (temp1, temp2) => do
      let first ← sendTo manager temp1 (.PK_S_REQ_ON_GAME room_Num)
      let second ← sendTo manager temp2 (.PK_S_REQ_ON_GAME room_Num)
      return (heap, first ++ second)

/-- What a handler leaves of the one object that it has found: its fields, or
nothing, when it has erased the number and deletes the object. -/
def store (heap : RoomHeap) (key : Int32) (address : Nat) : Option Room → Exec RoomHeap
  | some room => .ok { heap with objects := StdMap.assign heap.objects address room }
  | none => { heap with roomArr := StdMap.erase heap.roomArr key }.delete address

/-- The six handlers of a client's packets work on the object that `find` gives. -/
def request (heap : RoomHeap) (terminal : Terminal) (manager : SessionManager)
    (session : SessionPtr) (packet : Packet) : Exec (RoomHeap × List (Receiver × Packet)) :=
  match askedRoom packet with
  | none => .error .notEnabled
  | some room_num => do
      match ← heap.find (toInt room_num) with
      | none => return (heap, [])
      | some (address, room) =>
          let rooms : Rooms :=
            { roomArr := StdMap.assign StdMap.empty (toInt room_num) room
              simpleSessionManager := heap.simpleSessionManager }
          let (after, sent) ← InGameServer.request rooms terminal manager session packet
          return (← heap.store (toInt room_num) address (after.roomArr (toInt room_num)), sent)

def view (heap : RoomHeap) : Rooms :=
  { roomArr := fun key => (heap.roomArr key).bind heap.objects
    simpleSessionManager := heap.simpleSessionManager }

/-- A number has an object of its own. -/
structure Sound (heap : RoomHeap) : Prop where
  lives : ∀ key address, heap.roomArr key = some address →
    ∃ room, heap.objects address = some room
  apart : ∀ key other address, heap.roomArr key = some address →
    heap.roomArr other = some address → key = other
  made : ∀ address room, heap.objects address = some room → address < heap.created

def Listed (heap : RoomHeap) : Prop :=
  ∀ address room, heap.objects address = some room → ∃ key, heap.roomArr key = some address

end RoomHeap

def Rooms.restore (rooms : Rooms) (key : Int32) (after : Rooms) : Rooms :=
  match after.roomArr key with
  | some room => { rooms with roomArr := StdMap.assign rooms.roomArr key room }
  | none =>
      { roomArr := StdMap.erase rooms.roomArr key
        simpleSessionManager := after.simpleSessionManager }

section

variable {rooms : Rooms} {room : Room} {manager : SessionManager} {session : SessionPtr}

theorem assign_self {map : StdMap.Map Int32 Room} {key : Int32} (held : map key = some room) :
    StdMap.assign map key room = map := by
  funext other
  by_cases same : other = key
  · rw [same, StdMap.assign_same, held]
  · exact StdMap.assign_other same

theorem restore_kept {key : Int32} (held : rooms.roomArr key = some room) :
    rooms.restore key { rooms with roomArr := StdMap.assign StdMap.empty key room } = rooms := by
  simp only [Rooms.restore, StdMap.assign_same, assign_self held]

theorem answered_alone {key : Int32} (held : rooms.roomArr key = some room)
    (told : Exec (List (Receiver × Packet)))
    (order : List (Receiver × Packet) → List (Receiver × Packet)) :
    (told.bind fun sent => .ok (rooms, order sent)) =
      (told.bind fun sent =>
          .ok ({ rooms with roomArr := StdMap.assign StdMap.empty key room }, order sent)).map
        fun (after, sent) => (rooms.restore key after, sent) := by
  cases told with
  | error reason => rfl
  | ok sent => simp only [Except.bind, Except.map, restore_kept held]

theorem restore_assign {key : Int32} (counted : Room) :
    rooms.restore key
        { rooms with
          roomArr := StdMap.assign (StdMap.assign StdMap.empty key room) key counted } =
      { rooms with roomArr := StdMap.assign rooms.roomArr key counted } := by
  simp only [Rooms.restore, StdMap.assign_same]

theorem restore_destroy {key : Int32} :
    rooms.restore key
        (Rooms.destroy { rooms with roomArr := StdMap.assign StdMap.empty key room } key room) =
      rooms.destroy key room := by
  simp only [Rooms.restore, Rooms.destroy, Rooms.Delete_Sessions, StdMap.erase_same]

theorem request_alone {terminal : Terminal} {packet : Packet} {room_num : UInt64}
    (asks : askedRoom packet = some room_num) (held : rooms.roomArr (toInt room_num) = some room) :
    request rooms terminal manager session packet =
      (request { rooms with roomArr := StdMap.assign StdMap.empty (toInt room_num) room }
        terminal manager session packet).map
        fun (after, sent) => (rooms.restore (toInt room_num) after, sent) := by
  have same : Rooms.Find_sessions
      { rooms with roomArr := StdMap.assign StdMap.empty (toInt room_num) room } =
        rooms.Find_sessions := rfl
  have ignored : (Except.ok (rooms, []) : Exec (Rooms × List (Receiver × Packet))) =
      (Except.ok
        ({ rooms with roomArr := StdMap.assign StdMap.empty (toInt room_num) room }, [])).map
        fun (after, sent) => (rooms.restore (toInt room_num) after, sent) :=
    answered_alone held (.ok []) id
  cases packet with
  | PK_C_REQ_PLAYER_MOVE Room_num x y =>
      cases asks
      simp only [request, C_REQ_PLAYER_MOVE, held, StdMap.assign_same]
      rw [same]
      cases manager.deref session with
      | error reason => rfl
      | ok object =>
          dsimp only [bind, Except.bind]
          split_ifs
          · exact ignored
          · exact answered_alone held _ _
          · exact ignored
          · exact answered_alone held _ _
          · exact ignored
  | PK_C_REQ_FIRE_BULLET room_num x y =>
      cases asks
      simp only [request, C_REQ_FIRE_BULLET, held, StdMap.assign_same]
      rw [same]
      cases manager.deref session with
      | error reason => rfl
      | ok object =>
          dsimp only [bind, Except.bind]
          split_ifs
          · exact answered_alone held _ _
          · exact answered_alone held _ _
          · exact ignored
  | PK_C_REQ_MAKE_ENEMY room_num x =>
      cases asks
      simp only [request, C_REQ_MAKE_ENEMY, held, StdMap.assign_same]
      rw [same]
      by_cases counted : 1 ≤ room.total_exploded_enemy
      · simp only [if_pos counted]
        exact ignored
      · simp only [if_neg counted]
        cases manager.deref session with
        | error reason => rfl
        | ok object =>
            dsimp only [bind, Except.bind]
            split_ifs
            · exact ignored
            · cases sendTo manager (rooms.Find_sessions room.User2_ID) _ with
              | error reason => rfl
              | ok second => exact answered_alone held _ _
            · exact ignored
  | PK_C_REQ_ENEMY_EXPLOSION room_num enemycount =>
      cases asks
      simp only [request, C_REQ_ENEMY_EXPLOSION, held, StdMap.assign_same]
      cases manager.deref session with
      | error reason => rfl
      | ok object =>
          dsimp only [bind, Except.bind]
          split_ifs
          · cases sendTo manager session _ with
            | error reason => rfl
            | ok sent => simp only [Except.map, pure, Except.pure, restore_assign]
          · exact ignored
  | PK_C_REQ_MAKE_BOSS room_num =>
      cases asks
      simp only [request, C_REQ_MAKE_BOSS, held, StdMap.assign_same]
      rw [same]
      cases manager.deref session with
      | error reason => rfl
      | ok object =>
          dsimp only [bind, Except.bind]
          split_ifs
          · cases sendTo manager session _ with
            | error reason => rfl
            | ok first => exact answered_alone held _ _
          · exact ignored
  | PK_C_REQ_BOSS_EXPLOSION room_num =>
      cases asks
      simp only [request, C_REQ_BOSS_EXPLOSION, held, StdMap.assign_same]
      rw [same]
      cases manager.deref session with
      | error reason => rfl
      | ok object =>
          dsimp only [bind, Except.bind]
          split_ifs
          · cases sendTo manager session _ with
            | error reason => rfl
            | ok first =>
                cases sendTo manager (rooms.Find_sessions room.User2_ID) _ with
                | error reason => rfl
                | ok second => simp only [Except.map, pure, Except.pure, restore_destroy]
          · exact ignored
  | _ => cases asks

theorem request_absent {terminal : Terminal} {packet : Packet} {room_num : UInt64}
    (asks : askedRoom packet = some room_num) (absent : rooms.roomArr (toInt room_num) = none) :
    request rooms terminal manager session packet = .ok (rooms, []) := by
  cases packet with
  | PK_C_REQ_PLAYER_MOVE =>
      cases asks
      rw [request, C_REQ_PLAYER_MOVE, absent]
  | PK_C_REQ_FIRE_BULLET =>
      cases asks
      rw [request, C_REQ_FIRE_BULLET, absent]
  | PK_C_REQ_MAKE_ENEMY =>
      cases asks
      rw [request, C_REQ_MAKE_ENEMY, absent]
  | PK_C_REQ_ENEMY_EXPLOSION =>
      cases asks
      rw [request, C_REQ_ENEMY_EXPLOSION, absent]
  | PK_C_REQ_MAKE_BOSS =>
      cases asks
      rw [request, C_REQ_MAKE_BOSS, absent]
  | PK_C_REQ_BOSS_EXPLOSION =>
      cases asks
      rw [request, C_REQ_BOSS_EXPLOSION, absent]
  | _ => cases asks

theorem request_unasked {terminal : Terminal} {packet : Packet} (asks : askedRoom packet = none) :
    request rooms terminal manager session packet = .error .notEnabled := by
  cases packet with
  | PK_C_REQ_PLAYER_MOVE => cases asks
  | PK_C_REQ_FIRE_BULLET => cases asks
  | PK_C_REQ_MAKE_ENEMY => cases asks
  | PK_C_REQ_ENEMY_EXPLOSION => cases asks
  | PK_C_REQ_MAKE_BOSS => cases asks
  | PK_C_REQ_BOSS_EXPLOSION => cases asks
  | _ => rfl

end

namespace RoomHeap

section

variable {heap next : RoomHeap} {manager : SessionManager} {session : SessionPtr}
variable {sent : List (Receiver × Packet)} {key : Int32} {address : Nat} {room : Room}

theorem initial_sound : initial.Sound := by
  constructor
  · intro key address held
    cases held
  · intro key other address held
    cases held
  · intro address room held
    cases held

theorem initial_listed : initial.Listed := by
  intro address room held
  cases held

theorem Sound.fresh (sound : heap.Sound) : heap.objects heap.created = none := by
  cases held : heap.objects heap.created with
  | none => rfl
  | some room =>
      have below := sound.made heap.created room held
      omega

theorem Sound.old (sound : heap.Sound) (held : heap.roomArr key = some address) :
    address ≠ heap.created := by
  obtain ⟨room, lives⟩ := sound.lives key address held
  have below := sound.made address room lives
  omega

theorem view_eq {rooms : Rooms} (objects : heap.view.roomArr = rooms.roomArr)
    (bindings : heap.simpleSessionManager = rooms.simpleSessionManager) : heap.view = rooms := by
  obtain ⟨roomArr, simpleSessionManager⟩ := rooms
  cases objects
  cases bindings
  rfl

theorem view_found (held : heap.roomArr key = some address)
    (lives : heap.objects address = some room) : heap.view.roomArr key = some room := by
  simp only [view, held, Option.bind_some, lives]

theorem view_assign (sound : heap.Sound) (held : heap.roomArr key = some address) :
    (view { heap with objects := StdMap.assign heap.objects address room }).roomArr =
      StdMap.assign heap.view.roomArr key room := by
  funext other
  by_cases same : other = key
  · subst same
    simp only [view, held, Option.bind_some, StdMap.assign_same]
  · rw [StdMap.assign_other same]
    cases found : heap.roomArr other with
    | none => simp only [view, found, Option.bind_none]
    | some place =>
        have elsewhere : place ≠ address := by
          rintro rfl
          exact same (sound.apart other key place found held)
        simp only [view, found, Option.bind_some, StdMap.assign_other elsewhere]

theorem view_erase (sound : heap.Sound) (held : heap.roomArr key = some address) :
    (view { heap with
        objects := StdMap.erase heap.objects address
        roomArr := StdMap.erase heap.roomArr key }).roomArr =
      StdMap.erase heap.view.roomArr key := by
  funext other
  by_cases same : other = key
  · subst same
    simp only [view, StdMap.erase_same, Option.bind_none]
  · rw [StdMap.erase_other same]
    cases found : heap.roomArr other with
    | none => simp only [view, StdMap.erase_other same, found, Option.bind_none]
    | some place =>
        have elsewhere : place ≠ address := by
          rintro rfl
          exact same (sound.apart other key place found held)
        simp only [view, StdMap.erase_other same, found, Option.bind_some,
          StdMap.erase_other elsewhere]

theorem view_insert (sound : heap.Sound) :
    (view { heap with
        objects := StdMap.assign heap.objects heap.created room
        roomArr := StdMap.insert heap.roomArr key heap.created }).roomArr =
      StdMap.insert heap.view.roomArr key room := by
  funext other
  cases found : heap.roomArr other with
  | some place =>
      obtain ⟨present, lives⟩ := sound.lives other place found
      rw [StdMap.insert_present key room (view_found found lives)]
      simp only [view, StdMap.insert_present key _ found, Option.bind_some,
        StdMap.assign_other (sound.old found), lives]
  | none =>
      have absent : heap.view.roomArr other = none := by
        simp only [view, found, Option.bind_none]
      by_cases same : other = key
      · subst same
        rw [StdMap.insert_new room absent]
        simp only [view, StdMap.insert_new _ found, Option.bind_some, StdMap.assign_same]
      · rw [StdMap.insert_other same, absent]
        simp only [view, StdMap.insert_other same, found, Option.bind_none]

theorem delete_created (sound : heap.Sound) :
    StdMap.erase (StdMap.assign heap.objects heap.created room) heap.created = heap.objects := by
  funext other
  by_cases same : other = heap.created
  · rw [same, StdMap.erase_same, sound.fresh]
  · rw [StdMap.erase_other same, StdMap.assign_other same]

theorem Sound.assign (sound : heap.Sound) (held : heap.roomArr key = some address) :
    Sound { heap with objects := StdMap.assign heap.objects address room } := by
  constructor
  · intro other place found
    obtain ⟨present, lives⟩ := sound.lives other place found
    exact StdMap.assign_keeps address room lives
  · exact sound.apart
  · intro place present found
    rcases StdMap.assign_some found with lives | ⟨rfl, -⟩
    · exact sound.made place present lives
    · obtain ⟨old, lives⟩ := sound.lives key place held
      exact sound.made place old lives

theorem Sound.erase (sound : heap.Sound) (held : heap.roomArr key = some address)
    (simpleSessionManager : StdMap.Map oid_t SessionPtr) :
    Sound { heap with
      objects := StdMap.erase heap.objects address
      roomArr := StdMap.erase heap.roomArr key
      simpleSessionManager } := by
  constructor
  · intro other place found
    have before := StdMap.erase_some found
    have different : other ≠ key := by
      rintro rfl
      simp at found
    have elsewhere : place ≠ address := by
      rintro rfl
      exact different (sound.apart other key place before held)
    obtain ⟨present, lives⟩ := sound.lives other place before
    exact ⟨present, by simp only [StdMap.erase_other elsewhere, lives]⟩
  · intro first second place found other
    exact sound.apart first second place (StdMap.erase_some found) (StdMap.erase_some other)
  · intro place present found
    exact sound.made place present (StdMap.erase_some found)

theorem store_some (sound : heap.Sound) (held : heap.roomArr key = some address) {left : Room}
    (after : Rooms) (kept : after.roomArr key = some left) :
    ∃ next, heap.store key address (after.roomArr key) = .ok next ∧ next.Sound ∧
      next.view = heap.view.restore key after := by
  refine ⟨{ heap with objects := StdMap.assign heap.objects address left }, ?_,
    sound.assign held, ?_⟩
  · rw [kept, store]
  · simp only [Rooms.restore, kept, ← view_assign sound held]
    rfl

theorem store_none (sound : heap.Sound) (held : heap.roomArr key = some address)
    (lives : heap.objects address = some room) :
    ∃ next, heap.store key address none = .ok next ∧ next.Sound ∧
      next.view = heap.view.destroy key room := by
  refine ⟨_, by rw [store, delete, lives], sound.erase held _, ?_⟩
  rw [Rooms.destroy, ← view_erase sound held]
  rfl

theorem store_refines (sound : heap.Sound) (held : heap.roomArr key = some address)
    (lives : heap.objects address = some room) {terminal : Terminal} {packet : Packet}
    {after : Rooms}
    (done : InGameServer.request
      { roomArr := StdMap.assign StdMap.empty key room
        simpleSessionManager := heap.simpleSessionManager }
      terminal manager session packet = .ok (after, sent)) :
    ∃ next, heap.store key address (after.roomArr key) = .ok next ∧ next.Sound ∧
      next.view = heap.view.restore key after := by
  cases request_ok done with
  | kept same _ _ =>
      have present := same key
      simp only [StdMap.assign_same, Option.isSome_some, Option.isSome_iff_exists] at present
      obtain ⟨left, kept⟩ := present
      exact store_some sound held after kept
  | ended found ends _ =>
      rcases StdMap.assign_some found with impossible | ⟨number, object⟩
      · cases impossible
      · rw [number, object] at ends
        subst ends
        have gone : (Rooms.destroy { heap.view with
            roomArr := StdMap.assign StdMap.empty key room } key room).roomArr key = none :=
          StdMap.erase_same _ _
        obtain ⟨next, stored, kept, same⟩ := store_none sound held lives
        exact ⟨next, by rw [← stored, ← gone]; rfl, kept, same.trans restore_destroy.symm⟩

theorem request_refines (sound : heap.Sound) (terminal : Terminal) (packet : Packet) :
    (heap.request terminal manager session packet).map (fun (next, sent) => (next.view, sent)) =
      InGameServer.request heap.view terminal manager session packet := by
  rw [request]
  cases asks : askedRoom packet with
  | none => rw [request_unasked asks]; rfl
  | some room_num =>
      cases held : heap.roomArr (toInt room_num) with
      | none =>
          have absent : heap.view.roomArr (toInt room_num) = none := by simp [view, held]
          rw [request_absent asks absent]
          simp only [find, held]
          rfl
      | some address =>
          obtain ⟨room, lives⟩ := sound.lives _ address held
          rw [request_alone asks (view_found held lives)]
          have bindings : heap.view.simpleSessionManager = heap.simpleSessionManager := rfl
          simp only [find, held, lives, bind, Except.bind]
          rw [bindings]
          cases done : InGameServer.request
              { roomArr := StdMap.assign StdMap.empty (toInt room_num) room
                simpleSessionManager := heap.simpleSessionManager }
              terminal manager session packet with
          | error reason => rfl
          | ok result =>
              obtain ⟨after, sent⟩ := result
              obtain ⟨next, stored, -, same⟩ := store_refines sound held lives done
              simp only [stored, Except.map, pure, Except.pure, same]

inductive Left (heap : RoomHeap) : RoomHeap → Prop
  | same : Left heap heap
  | counted {key : Int32} {address : Nat} (room : Room) : heap.roomArr key = some address →
      Left heap { heap with objects := StdMap.assign heap.objects address room }
  | ended {key : Int32} {address : Nat}
      (simpleSessionManager : StdMap.Map oid_t SessionPtr) : heap.roomArr key = some address →
      Left heap { heap with
        objects := StdMap.erase heap.objects address
        roomArr := StdMap.erase heap.roomArr key
        simpleSessionManager }

theorem store_left (held : heap.roomArr key = some address) {left : Option Room}
    (stored : heap.store key address left = .ok next) : Left heap next := by
  cases left with
  | some room =>
      cases stored
      exact .counted room held
  | none =>
      simp only [store, delete] at stored
      split at stored
      · cases stored
      · cases stored
        exact .ended _ held

theorem request_left {terminal : Terminal} {packet : Packet}
    (done : heap.request terminal manager session packet = .ok (next, sent)) : Left heap next := by
  rw [request] at done
  split at done
  · cases done
  · obtain ⟨found, finding, done⟩ := Exec.bind_ok done
    rw [find] at finding
    split at finding
    · cases finding
      cases done
      exact .same
    · rename_i address held
      split at finding
      · cases finding
      · cases finding
        obtain ⟨⟨after, told⟩, -, done⟩ := Exec.bind_ok done
        obtain ⟨left, stored, done⟩ := Exec.bind_ok done
        cases done
        exact store_left held stored

theorem Left.sound (left : Left heap next) (sound : heap.Sound) : next.Sound := by
  cases left with
  | same => exact sound
  | counted room held => exact sound.assign held
  | ended simpleSessionManager held => exact sound.erase held simpleSessionManager

theorem Left.listed (left : Left heap next) (listed : heap.Listed) : next.Listed := by
  intro place present found
  cases left with
  | same => exact listed place present found
  | @counted key address room held =>
      rcases StdMap.assign_some found with lives | ⟨rfl, -⟩
      · exact listed place present lives
      · exact ⟨key, held⟩
  | @ended key address simpleSessionManager held =>
      obtain ⟨other, listing⟩ := listed place present (StdMap.erase_some found)
      have different : other ≠ key := by
        rintro rfl
        cases listing.symm.trans held
        simp at found
      exact ⟨other, (StdMap.erase_other different).trans listing⟩

/-- What `I_USER_INFO` leaves: no object where it fails, and otherwise one that
the number points at if it was free. -/
inductive Made (heap : RoomHeap) (room_Num User1_ID User2_ID : UInt64) : RoomHeap → Prop
  | failed (simpleSessionManager : StdMap.Map oid_t SessionPtr) :
      Made heap room_Num User1_ID User2_ID
        { heap with
          created := heap.created + 1
          roomArr := StdMap.erase heap.roomArr (toInt room_Num)
          simpleSessionManager }
  | started (simpleSessionManager : StdMap.Map oid_t SessionPtr) :
      Made heap room_Num User1_ID User2_ID
        { objects := StdMap.assign heap.objects heap.created
            { User1_ID, User2_ID, total_exploded_enemy := 0 }
          created := heap.created + 1
          roomArr := StdMap.insert heap.roomArr (toInt room_Num) heap.created
          simpleSessionManager }

section

variable {room_Num User1_ID User2_ID : UInt64}

theorem I_USER_INFO_failed (sound : heap.Sound)
    (null : lookedUp heap.view manager User1_ID = 0 ∨ lookedUp heap.view manager User2_ID = 0) :
    heap.I_USER_INFO manager room_Num User1_ID User2_ID =
      .ok ({ heap with
        created := heap.created + 1
        roomArr := StdMap.erase heap.roomArr (toInt room_Num)
        simpleSessionManager := StdMap.erase (StdMap.erase
          (bindBoth heap.view manager User1_ID User2_ID).simpleSessionManager User1_ID)
            User2_ID },
        [(.terminal .ChattingServer, .PK_I_INITIALIZE_ROOMMEMBER room_Num 0)]) := by
  have once := bindUsers_once (.mk StdMap.empty heap.simpleSessionManager) manager
    User1_ID User2_ID 2
  have missing : lookedUp (.mk StdMap.empty heap.simpleSessionManager) manager User1_ID = 0 ∨
      lookedUp (.mk StdMap.empty heap.simpleSessionManager) manager User2_ID = 0 := null
  rw [if_pos missing] at once
  simp only [I_USER_INFO, once, delete, StdMap.assign_same, delete_created sound,
    StdMap.erase_insert]
  rfl

theorem I_USER_INFO_found
    (notNull :
      ¬ (lookedUp heap.view manager User1_ID = 0 ∨ lookedUp heap.view manager User2_ID = 0)) :
    heap.I_USER_INFO manager room_Num User1_ID User2_ID = do
      let first ← sendTo manager (lookedUp heap.view manager User1_ID) (.PK_S_REQ_ON_GAME room_Num)
      let second ← sendTo manager (lookedUp heap.view manager User2_ID)
        (.PK_S_REQ_ON_GAME room_Num)
      return ({ heap with
        objects := StdMap.assign heap.objects heap.created
          { User1_ID, User2_ID, total_exploded_enemy := 0 }
        created := heap.created + 1
        roomArr := StdMap.insert heap.roomArr (toInt room_Num) heap.created
        simpleSessionManager :=
          (bindBoth heap.view manager User1_ID User2_ID).simpleSessionManager },
        first ++ second) := by
  have once := bindUsers_once (.mk StdMap.empty heap.simpleSessionManager) manager
    User1_ID User2_ID 2
  have present : ¬ (lookedUp (.mk StdMap.empty heap.simpleSessionManager) manager User1_ID = 0 ∨
      lookedUp (.mk StdMap.empty heap.simpleSessionManager) manager User2_ID = 0) := notNull
  rw [if_neg present] at once
  simp only [I_USER_INFO, once]
  rfl

theorem I_USER_INFO_refines (sound : heap.Sound) (room_Num User1_ID User2_ID : UInt64) :
    (heap.I_USER_INFO manager room_Num User1_ID User2_ID).map
        (fun (next, sent) => (next.view, sent)) =
      InGameServer.I_USER_INFO heap.view manager room_Num User1_ID User2_ID := by
  by_cases null : lookedUp heap.view manager User1_ID = 0 ∨ lookedUp heap.view manager User2_ID = 0
  · rw [I_USER_INFO_failed sound null, InGameServer.I_USER_INFO_failed _ _ _ _ _ null]
    have rooms : StdMap.erase heap.view.roomArr (toInt room_Num) =
        fun key => (StdMap.erase heap.roomArr (toInt room_Num) key).bind heap.objects := by
      funext key
      by_cases same : key = toInt room_Num
      · simp [same]
      · simp [same, view]
    rw [← StdMap.erase_insert _ _ { User1_ID, User2_ID, total_exploded_enemy := 0 }] at rooms
    exact congrArg (fun next => Except.ok (next, _)) (view_eq rooms.symm rfl)
  · rw [I_USER_INFO_found null, InGameServer.I_USER_INFO_found _ _ _ _ _ null]
    have rooms := @view_insert heap (toInt room_Num)
      { User1_ID, User2_ID, total_exploded_enemy := 0 } sound
    cases sendTo manager (lookedUp heap.view manager User1_ID) (.PK_S_REQ_ON_GAME room_Num) with
    | error reason => rfl
    | ok first =>
        cases sendTo manager (lookedUp heap.view manager User2_ID)
            (.PK_S_REQ_ON_GAME room_Num) with
        | error reason => rfl
        | ok second => exact congrArg (fun next => Except.ok (next, _)) (view_eq rooms rfl)

theorem I_USER_INFO_made (sound : heap.Sound)
    (done : heap.I_USER_INFO manager room_Num User1_ID User2_ID = .ok (next, sent)) :
    Made heap room_Num User1_ID User2_ID next := by
  by_cases null : lookedUp heap.view manager User1_ID = 0 ∨ lookedUp heap.view manager User2_ID = 0
  · rw [I_USER_INFO_failed sound null] at done
    cases done
    exact .failed _
  · rw [I_USER_INFO_found null] at done
    obtain ⟨first, -, done⟩ := Exec.bind_ok done
    obtain ⟨second, -, done⟩ := Exec.bind_ok done
    cases done
    exact .started _

theorem Made.sound (sound : heap.Sound) (made : Made heap room_Num User1_ID User2_ID next) :
    next.Sound := by
  cases made with
  | failed simpleSessionManager =>
      constructor
      · exact fun key address held => sound.lives key address (StdMap.erase_some held)
      · intro key other address held same
        exact sound.apart key other address (StdMap.erase_some held) (StdMap.erase_some same)
      · exact fun address room lives => Nat.lt_succ_of_lt (sound.made address room lives)
  | started simpleSessionManager =>
      constructor
      · intro key address held
        rcases StdMap.insert_some held with old | ⟨-, rfl⟩
        · obtain ⟨room, lives⟩ := sound.lives key address old
          exact StdMap.assign_keeps _ _ lives
        · exact ⟨_, StdMap.assign_same _ _ _⟩
      · intro key other address held same
        rcases StdMap.insert_some held with old | ⟨rfl, rfl⟩
        · rcases StdMap.insert_some same with earlier | ⟨-, rfl⟩
          · exact sound.apart key other address old earlier
          · exact absurd rfl (sound.old old)
        · rcases StdMap.insert_some same with earlier | ⟨rfl, -⟩
          · exact absurd rfl (sound.old earlier)
          · rfl
      · intro address room lives
        rcases StdMap.assign_some lives with old | ⟨rfl, -⟩
        · exact Nat.lt_succ_of_lt (sound.made address room old)
        · exact Nat.lt_succ_self _

theorem Made.listed (made : Made heap room_Num User1_ID User2_ID next) (sound : heap.Sound)
    (listed : heap.Listed) : next.Listed ↔ heap.roomArr (toInt room_Num) = none := by
  cases made with
  | failed simpleSessionManager =>
      constructor
      · intro after
        cases held : heap.roomArr (toInt room_Num) with
        | none => rfl
        | some address =>
            obtain ⟨room, lives⟩ := sound.lives _ address held
            obtain ⟨other, listing⟩ := after address room lives
            have same := sound.apart _ other address held (StdMap.erase_some listing)
            subst same
            simp at listing
      · intro unused address room lives
        obtain ⟨key, listing⟩ := listed address room lives
        have different : key ≠ toInt room_Num := by
          rintro rfl
          cases unused.symm.trans listing
        exact ⟨key, (StdMap.erase_other different).trans listing⟩
  | started simpleSessionManager =>
      constructor
      · intro after
        cases held : heap.roomArr (toInt room_Num) with
        | none => rfl
        | some address =>
            obtain ⟨key, listing⟩ := after heap.created _ (StdMap.assign_same _ _ _)
            rcases StdMap.insert_some listing with old | ⟨rfl, -⟩
            · exact absurd rfl (sound.old old)
            · cases listing.symm.trans (StdMap.insert_present _ _ held)
              exact absurd rfl (sound.old held)
      · intro unused address room lives
        rcases StdMap.assign_some lives with old | ⟨rfl, -⟩
        · obtain ⟨key, listing⟩ := listed address room old
          exact ⟨key, StdMap.insert_present _ _ listing⟩
        · exact ⟨toInt room_Num, StdMap.insert_new _ unused⟩

end

end

end RoomHeap

structure HeapGame where
  manager : SessionManager
  heap : RoomHeap

namespace HeapGame

def initial (maxConnection : Int) : HeapGame :=
  { manager := SessionManager.init maxConnection, heap := RoomHeap.initial }

def step (chattingServer : Terminal) (game : HeapGame) : Game.Event → Exec HeapGame
  | .accept session addrInfo_ => do
      return { game with manager := ← game.manager.accept session addrInfo_ }
  | .disconnected session =>
      if game.manager.registered session then
        .ok { game with manager := game.manager.closeSession session }
      else .error .notEnabled
  | .I_USER_INFO room_Num User1_ID User2_ID => do
      let (heap, _) ← game.heap.I_USER_INFO game.manager room_Num User1_ID User2_ID
      return { game with heap }
  | .request session packet => do
      let (heap, _) ← game.heap.request chattingServer game.manager session packet
      return { game with heap }

def view (game : HeapGame) : Game := { manager := game.manager, rooms := game.heap.view }

/-- No `I_USER_INFO` comes for a number that is in use. -/
def FreeNumber (game : HeapGame) : Game.Event → Prop
  | .I_USER_INFO room_Num _ _ => game.heap.roomArr (toInt room_Num) = none
  | _ => True

section

variable {chattingServer : Terminal} {game next : HeapGame} {event : Game.Event}

theorem step_sound (sound : game.heap.Sound)
    (taken : game.step chattingServer event = .ok next) : next.heap.Sound := by
  cases event with
  | accept session addrInfo_ =>
      obtain ⟨manager, -, taken⟩ := Exec.bind_ok taken
      cases taken
      exact sound
  | disconnected session =>
      rw [step] at taken
      split at taken
      · cases taken
        exact sound
      · cases taken
  | I_USER_INFO room_Num User1_ID User2_ID =>
      obtain ⟨⟨heap, sent⟩, handled, taken⟩ := Exec.bind_ok taken
      cases taken
      exact (RoomHeap.I_USER_INFO_made sound handled).sound sound
  | request session packet =>
      obtain ⟨⟨heap, sent⟩, served, taken⟩ := Exec.bind_ok taken
      cases taken
      exact (RoomHeap.request_left served).sound sound

theorem step_refines (sound : game.heap.Sound) :
    (game.step chattingServer event).map view = game.view.step chattingServer event := by
  cases event with
  | accept session addrInfo_ =>
      change ((game.manager.accept session addrInfo_).bind _).map view =
        (game.manager.accept session addrInfo_).bind _
      cases game.manager.accept session addrInfo_ with
      | error reason => rfl
      | ok manager => rfl
  | disconnected session =>
      rw [step, Game.step]
      split
      · rename_i registered
        rw [if_pos (show game.view.manager.registered session = true from registered)]
        rfl
      · rename_i unknown
        rw [if_neg (show ¬ game.view.manager.registered session = true from unknown)]
        rfl
  | I_USER_INFO room_Num User1_ID User2_ID =>
      rw [step, Game.step]
      change _ = (InGameServer.I_USER_INFO game.heap.view game.manager _ _ _).bind _
      rw [← RoomHeap.I_USER_INFO_refines sound]
      cases game.heap.I_USER_INFO game.manager room_Num User1_ID User2_ID with
      | error reason => rfl
      | ok result => rfl
  | request session packet =>
      rw [step, Game.step]
      change _ = (InGameServer.request game.heap.view chattingServer game.manager _ _).bind _
      rw [← RoomHeap.request_refines sound]
      cases game.heap.request chattingServer game.manager session packet with
      | error reason => rfl
      | ok result => rfl

theorem step_listed (sound : game.heap.Sound) (listed : game.heap.Listed)
    (taken : game.step chattingServer event = .ok next) :
    next.heap.Listed ↔ game.FreeNumber event := by
  cases event with
  | accept session addrInfo_ =>
      obtain ⟨manager, -, taken⟩ := Exec.bind_ok taken
      cases taken
      exact iff_of_true listed trivial
  | disconnected session =>
      rw [step] at taken
      split at taken
      · cases taken
        exact iff_of_true listed trivial
      · cases taken
  | I_USER_INFO room_Num User1_ID User2_ID =>
      obtain ⟨⟨heap, sent⟩, handled, taken⟩ := Exec.bind_ok taken
      cases taken
      exact (RoomHeap.I_USER_INFO_made sound handled).listed sound listed
  | request session packet =>
      obtain ⟨⟨heap, sent⟩, served, taken⟩ := Exec.bind_ok taken
      cases taken
      exact iff_of_true ((RoomHeap.request_left served).listed listed) trivial

end

/-- The rooms as values are what the objects come to: a run with objects ends as
the run with values does, and never uses or deletes an object that is gone. -/
theorem rooms_refine (chattingServer : Terminal) (maxConnection : Int)
    (events : List Game.Event) :
    (Runs.run (step chattingServer) (initial maxConnection) events).map view =
      Runs.run (Game.step chattingServer) (Game.initial maxConnection) events :=
  Runs.run_refines (fun _ _ _ => step_sound) (fun _ _ => step_refines) RoomHeap.initial_sound events

/-- Every object that lives is under a number in all states of a run, exactly
when no room is announced under a number that is in use. -/
theorem none_lost_iff (chattingServer : Terminal) (maxConnection : Int)
    (events : List Game.Event) :
    Runs.Always (step chattingServer) (fun game => game.heap.Listed) (initial maxConnection)
        events ↔
      Runs.Throughout (step chattingServer) FreeNumber (initial maxConnection) events := by
  refine Runs.always_iff_throughout (fun _ _ _ _ => step_sound) ?_ (fun _ _ => trivial)
    RoomHeap.initial_sound RoomHeap.initial_listed
  intro game event next _ sound listed taken
  exact step_listed sound listed taken

end HeapGame

end InGameServer

end GraduationServer
