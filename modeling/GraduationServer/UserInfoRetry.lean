import GraduationServer.InGameProcess

/-!
The three tries of `I_USER_INFO` while players register. The first try binds
both ids, with a null pointer for an id that is not registered, and `insert`
does not replace what a later try finds.
-/

namespace GraduationServer

namespace InGameServer

/-- The loop of `I_USER_INFO`; `managers` gives the `SessionManager` at each
lookup, and `lookup` is the next one. -/
def bindUsersDuring (managers : Nat → SessionManager) (User1_ID User2_ID : UInt64) :
    Nat → Nat → Rooms → Rooms × Option (SessionPtr × SessionPtr)
  | 0, _, rooms => (rooms, none)
  | tries + 1, lookup, rooms =>
      let rooms := rooms.Insert_Sessions User1_ID (sessionPtr (managers lookup) User1_ID)
      let rooms := rooms.Insert_Sessions User2_ID (sessionPtr (managers (lookup + 1)) User2_ID)
      let temp1 := rooms.Find_sessions User1_ID
      let temp2 := rooms.Find_sessions User2_ID
      if temp1 = 0 ∨ temp2 = 0 then
        bindUsersDuring managers User1_ID User2_ID tries (lookup + 2) rooms
      else (rooms, some (temp1, temp2))

def I_USER_INFO_during (rooms : Rooms) (managers : Nat → SessionManager)
    (room_Num User1_ID User2_ID : UInt64) : Exec (Rooms × List (Receiver × Packet)) :=
  let tempRoom : Room := { User1_ID, User2_ID, total_exploded_enemy := 0 }
  let rooms := rooms.Insert_User_Info (toInt room_Num) tempRoom
  match bindUsersDuring managers User1_ID User2_ID 3 0 rooms with
  | (rooms, none) =>
      .ok (rooms.destroy (toInt room_Num) tempRoom,
        [(.terminal .ChattingServer, .PK_I_INITIALIZE_ROOMMEMBER room_Num 0)])
  | (rooms, some (temp1, temp2)) => do
      let first ← sendTo (managers 6) temp1 (.PK_S_REQ_ON_GAME room_Num)
      let second ← sendTo (managers 6) temp2 (.PK_S_REQ_ON_GAME room_Num)
      return (rooms, first ++ second)

theorem bindUsersDuring_const (manager : SessionManager) (User1_ID User2_ID : UInt64)
    (tries lookup : Nat) (rooms : Rooms) :
    bindUsersDuring (fun _ => manager) User1_ID User2_ID tries lookup rooms =
      bindUsers manager User1_ID User2_ID tries rooms := by
  induction tries generalizing lookup rooms with
  | zero => rfl
  | succ tries ih => simp only [bindUsersDuring, bindUsers, ih]

/-- Where nobody registers in between, this is the handler of one `SessionManager`. -/
theorem I_USER_INFO_during_const (rooms : Rooms) (manager : SessionManager)
    (room_Num User1_ID User2_ID : UInt64) :
    I_USER_INFO_during rooms (fun _ => manager) room_Num User1_ID User2_ID =
      I_USER_INFO rooms manager room_Num User1_ID User2_ID := by
  rcases binding : bindUsers manager User1_ID User2_ID 3 (rooms.Insert_User_Info (toInt room_Num)
    { User1_ID, User2_ID, total_exploded_enemy := 0 }) with ⟨bound, none | ⟨temp1, temp2⟩⟩
  · simp only [I_USER_INFO_during, I_USER_INFO, bindUsersDuring_const, binding]
  · simp only [I_USER_INFO_during, I_USER_INFO, bindUsersDuring_const, binding]

/-- A player that is found stays registered, and no session is at address zero. -/
structure Permanent (managers : Nat → SessionManager) : Prop where
  stays : ∀ id object earlier later, earlier ≤ later →
    (managers earlier).session id = some object → (managers later).session id = some object
  allocated : ∀ lookup, ∀ object ∈ (managers lookup).sessionList_, object.address ≠ 0

def BothRegistered (managers : Nat → SessionManager) (User1_ID User2_ID : UInt64) (attempt : Nat) :
    Prop :=
  (managers (2 * attempt)).session User1_ID ≠ none ∧
    (managers (2 * attempt + 1)).session User2_ID ≠ none

def Started (managers : Nat → SessionManager) (room_Num User1_ID User2_ID : UInt64)
    (result : Exec (Rooms × List (Receiver × Packet))) : Prop :=
  ∃ after first second, (managers 6).session User1_ID = some first ∧
    (managers 6).session User2_ID = some second ∧ after.roomArr (toInt room_Num) ≠ none ∧
    result = .ok (after, [(.session first.address, .PK_S_REQ_ON_GAME room_Num),
      (.session second.address, .PK_S_REQ_ON_GAME room_Num)])

def TakenBack (room_Num User1_ID User2_ID : UInt64)
    (result : Exec (Rooms × List (Receiver × Packet))) : Prop :=
  ∃ after, after.roomArr (toInt room_Num) = none ∧ after.simpleSessionManager User1_ID = none ∧
    after.simpleSessionManager User2_ID = none ∧
    result = .ok (after, [(.terminal .ChattingServer, .PK_I_INITIALIZE_ROOMMEMBER room_Num 0)])

/-- The game starts if one of the three tries finds both players, and is taken
back otherwise. -/
def RetryEffective (managers : Nat → SessionManager) (room_Num User1_ID User2_ID : UInt64)
    (result : Exec (Rooms × List (Receiver × Packet))) : Prop :=
  ((∃ attempt < 3, BothRegistered managers User1_ID User2_ID attempt) →
    Started managers room_Num User1_ID User2_ID result) ∧
  ((¬ ∃ attempt < 3, BothRegistered managers User1_ID User2_ID attempt) →
    TakenBack room_Num User1_ID User2_ID result)

section

variable {managers : Nat → SessionManager} {User1_ID User2_ID : UInt64}

theorem sessionPtr_null (permanent : Permanent managers) (lookup : Nat) (id : oid_t) :
    sessionPtr (managers lookup) id = 0 ↔ (managers lookup).session id = none := by
  rw [sessionPtr]
  cases found : (managers lookup).session id with
  | none => simp
  | some object =>
      have allocated :=
        permanent.allocated lookup object (SessionManager.session_some found).1
      simp [allocated]

theorem bothRegistered_later (permanent : Permanent managers) {earlier later : Nat}
    (order : earlier ≤ later) (both : BothRegistered managers User1_ID User2_ID earlier) :
    BothRegistered managers User1_ID User2_ID later := by
  obtain ⟨first, foundFirst⟩ := Option.ne_none_iff_exists'.mp both.1
  obtain ⟨second, foundSecond⟩ := Option.ne_none_iff_exists'.mp both.2
  constructor
  · rw [permanent.stays _ _ _ (2 * later) (by omega) foundFirst]
    exact Option.some_ne_none first
  · rw [permanent.stays _ _ _ (2 * later + 1) (by omega) foundSecond]
    exact Option.some_ne_none second

theorem bothRegistered_some (permanent : Permanent managers) :
    (∃ attempt < 3, BothRegistered managers User1_ID User2_ID attempt) ↔
      BothRegistered managers User1_ID User2_ID 2 := by
  constructor
  · rintro ⟨attempt, below, both⟩
    exact bothRegistered_later permanent (by omega) both
  · intro both
    exact ⟨2, by omega, both⟩

def BothBound (rooms : Rooms) (User1_ID User2_ID : UInt64) : Prop :=
  rooms.simpleSessionManager User1_ID ≠ none ∧ rooms.simpleSessionManager User2_ID ≠ none

theorem Insert_Sessions_bound {rooms : Rooms} {id : oid_t} (session_ : SessionPtr)
    (bound : rooms.simpleSessionManager id ≠ none) : rooms.Insert_Sessions id session_ = rooms := by
  obtain ⟨held, here⟩ := Option.ne_none_iff_exists'.mp bound
  have same : StdMap.insert rooms.simpleSessionManager id session_ =
      rooms.simpleSessionManager := by
    funext other
    by_cases other_id : other = id
    · simp [StdMap.insert, other_id, here]
    · exact StdMap.insert_other other_id
  rw [Rooms.Insert_Sessions, same]

theorem bindUsersDuring_stuck {rooms : Rooms} (bound : BothBound rooms User1_ID User2_ID)
    (null : rooms.Find_sessions User1_ID = 0 ∨ rooms.Find_sessions User2_ID = 0)
    (tries lookup : Nat) :
    bindUsersDuring managers User1_ID User2_ID tries lookup rooms = (rooms, none) := by
  induction tries generalizing lookup with
  | zero => rfl
  | succ tries ih =>
      simp only [bindUsersDuring, Insert_Sessions_bound _ bound.1, Insert_Sessions_bound _ bound.2,
        null, if_true, ih]

theorem first_try {rooms : Rooms} (unbound1 : rooms.simpleSessionManager User1_ID = none)
    (unbound2 : rooms.simpleSessionManager User2_ID = none) (session1 session2 : SessionPtr) :
    let bound := (rooms.Insert_Sessions User1_ID session1).Insert_Sessions User2_ID session2
    BothBound bound User1_ID User2_ID ∧ bound.roomArr = rooms.roomArr ∧
      bound.Find_sessions User1_ID = session1 ∧
      bound.Find_sessions User2_ID = if User2_ID = User1_ID then session1 else session2 := by
  intro bound
  have first : (rooms.Insert_Sessions User1_ID session1).simpleSessionManager User1_ID =
      some session1 := StdMap.insert_new session1 unbound1
  have entry1 : bound.simpleSessionManager User1_ID = some session1 :=
    StdMap.insert_present User2_ID session2 first
  have entry2 : bound.simpleSessionManager User2_ID =
      some (if User2_ID = User1_ID then session1 else session2) := by
    split
    · rename_i same
      exact same ▸ entry1
    · rename_i different
      apply StdMap.insert_new session2
      exact (StdMap.insert_other different).trans unbound2
  refine ⟨⟨?_, ?_⟩, rfl, ?_, ?_⟩
  · rw [entry1]
    exact Option.some_ne_none session1
  · rw [entry2]
    exact Option.some_ne_none _
  · rw [Rooms.Find_sessions, entry1, Option.getD_some]
  · rw [Rooms.Find_sessions, entry2, Option.getD_some]

theorem bindUsersDuring_first (managers : Nat → SessionManager) {rooms : Rooms}
    (unbound1 : rooms.simpleSessionManager User1_ID = none)
    (unbound2 : rooms.simpleSessionManager User2_ID = none) :
    ∃ tried, tried.roomArr = rooms.roomArr ∧
      tried.Find_sessions User1_ID = sessionPtr (managers 0) User1_ID ∧
      (tried.Find_sessions User2_ID = if User2_ID = User1_ID then sessionPtr (managers 0) User1_ID
        else sessionPtr (managers 1) User2_ID) ∧
      bindUsersDuring managers User1_ID User2_ID 3 0 rooms =
        (tried, if tried.Find_sessions User1_ID = 0 ∨ tried.Find_sessions User2_ID = 0 then none
          else some (tried.Find_sessions User1_ID, tried.Find_sessions User2_ID)) := by
  obtain ⟨bound, sameRooms, found1, found2⟩ := first_try unbound1 unbound2
    (sessionPtr (managers 0) User1_ID) (sessionPtr (managers 1) User2_ID)
  refine ⟨_, sameRooms, found1, found2, ?_⟩
  rw [bindUsersDuring]
  generalize (rooms.Insert_Sessions User1_ID (sessionPtr (managers 0) User1_ID)).Insert_Sessions
    User2_ID (sessionPtr (managers 1) User2_ID) = tried at bound ⊢
  by_cases null : tried.Find_sessions User1_ID = 0 ∨ tried.Find_sessions User2_ID = 0
  · simp only [null, if_true]
    exact bindUsersDuring_stuck bound null 2 2
  · simp only [null, if_false]

theorem I_USER_INFO_during_outcome (rooms : Rooms) (permanent : Permanent managers)
    (unbound1 : rooms.simpleSessionManager User1_ID = none)
    (unbound2 : rooms.simpleSessionManager User2_ID = none) (room_Num : UInt64) :
    (BothRegistered managers User1_ID User2_ID 0 → Started managers room_Num User1_ID User2_ID
      (I_USER_INFO_during rooms managers room_Num User1_ID User2_ID)) ∧
    (¬ BothRegistered managers User1_ID User2_ID 0 → TakenBack room_Num User1_ID User2_ID
      (I_USER_INFO_during rooms managers room_Num User1_ID User2_ID)) := by
  obtain ⟨tried, sameRooms, found1, found2, binding⟩ := @bindUsersDuring_first User1_ID User2_ID
    managers (rooms.Insert_User_Info (toInt room_Num)
      { User1_ID, User2_ID, total_exploded_enemy := 0 }) unbound1 unbound2
  simp only [I_USER_INFO_during, binding]
  constructor
  · rintro ⟨registered1, registered2⟩
    obtain ⟨first, first0⟩ := Option.ne_none_iff_exists'.mp registered1
    obtain ⟨second, second1⟩ := Option.ne_none_iff_exists'.mp registered2
    have first6 := permanent.stays _ _ _ 6 (by omega) first0
    have second6 := permanent.stays _ _ _ 6 (by omega) second1
    have firstPtr : sessionPtr (managers 0) User1_ID = first.address := by
      simp only [sessionPtr, first0]
    have secondPtr : (if User2_ID = User1_ID then sessionPtr (managers 0) User1_ID
        else sessionPtr (managers 1) User2_ID) = second.address := by
      split
      · rename_i same
        rw [same, first6, Option.some.injEq] at second6
        rw [firstPtr, second6]
      · simp only [sessionPtr, second1]
    rw [firstPtr] at found1
    rw [secondPtr] at found2
    have firstLives := (SessionManager.session_some first6).1
    have secondLives := (SessionManager.session_some second6).1
    have firstNotNull := permanent.allocated 6 first firstLives
    have secondNotNull := permanent.allocated 6 second secondLives
    have present : tried.roomArr (toInt room_Num) ≠ none := by
      rw [sameRooms]
      simp only [Rooms.Insert_User_Info, StdMap.insert]
      cases rooms.roomArr (toInt room_Num) <;> simp
    refine ⟨tried, first, second, first6, second6, present, ?_⟩
    simp only [found1, found2, firstNotNull, secondNotNull, or_self, if_false, sendTo,
      SessionManager.deref_lives firstLives firstNotNull,
      SessionManager.deref_lives secondLives secondNotNull]
    rfl
  · intro missing
    have null : tried.Find_sessions User1_ID = 0 ∨ tried.Find_sessions User2_ID = 0 := by
      by_contra neither
      obtain ⟨notNull1, notNull2⟩ := not_or.mp neither
      rw [found1, sessionPtr_null permanent] at notNull1
      refine missing ⟨notNull1, ?_⟩
      by_cases same : User2_ID = User1_ID
      · obtain ⟨first, first0⟩ := Option.ne_none_iff_exists'.mp notNull1
        rw [same, permanent.stays _ _ _ (2 * 0 + 1) (by omega) first0]
        exact Option.some_ne_none first
      · rw [found2, if_neg same, sessionPtr_null permanent] at notNull2
        exact notNull2
    simp only [null, if_true]
    refine ⟨_, ?_, ?_, ?_, rfl⟩
    · simp [Rooms.destroy, Rooms.Delete_Sessions]
    · by_cases same : User1_ID = User2_ID
      · simp [Rooms.destroy, Rooms.Delete_Sessions, same]
      · simp [Rooms.destroy, Rooms.Delete_Sessions, same]
    · simp [Rooms.destroy, Rooms.Delete_Sessions]

theorem not_both (room_Num : UInt64) {result : Exec (Rooms × List (Receiver × Packet))}
    (started : Started managers room_Num User1_ID User2_ID result) :
    ¬ TakenBack room_Num User1_ID User2_ID result := by
  obtain ⟨after, first, second, _, _, _, ended⟩ := started
  rintro ⟨other, _, _, _, same⟩
  rw [ended] at same
  cases same

end

/-- The tries after the first one never change the outcome, so the three of
them do what they are for exactly where the first is enough or even the last
misses a player. -/
theorem retry_effective_iff (rooms : Rooms) (managers : Nat → SessionManager)
    (room_Num User1_ID User2_ID : UInt64) (permanent : Permanent managers)
    (unbound1 : rooms.simpleSessionManager User1_ID = none)
    (unbound2 : rooms.simpleSessionManager User2_ID = none) :
    RetryEffective managers room_Num User1_ID User2_ID
      (I_USER_INFO_during rooms managers room_Num User1_ID User2_ID) ↔
      BothRegistered managers User1_ID User2_ID 0 ∨ ¬ BothRegistered managers User1_ID User2_ID 2 := by
  obtain ⟨starts, fails⟩ := I_USER_INFO_during_outcome rooms permanent unbound1 unbound2 room_Num
  rw [RetryEffective, bothRegistered_some permanent]
  by_cases early : BothRegistered managers User1_ID User2_ID 0
  · have late := bothRegistered_later permanent (Nat.zero_le 2) early
    simp [early, late, starts early]
  · by_cases late : BothRegistered managers User1_ID User2_ID 2
    · simp only [early, late, forall_const, not_true_eq_false, or_self, iff_false]
      rintro ⟨started, _⟩
      exact not_both room_Num started (fails early)
    · simp [early, late, fails early]

def onePlayer : SessionManager := ((SessionManager.init SESSION_CAPACITY).addSession 16 1).2

def twoPlayers : SessionManager := (onePlayer.addSession 32 2).2

/-- The second player registers between the first try and the second. -/
def arriving (lookup : Nat) : SessionManager := if lookup < 2 then onePlayer else twoPlayers

theorem arriving_permanent : Permanent arriving := by
  have grows (id : oid_t) (object : Session) (found : onePlayer.session id = some object) :
      twoPlayers.session id = some object := by
    have one : onePlayer.session id =
        if (1 : oid_t) = id then some ⟨16, 1, .SESSION_TYPE_CLIENT, 1⟩ else none := rfl
    have two : twoPlayers.session id =
        if (1 : oid_t) = id then some ⟨16, 1, .SESSION_TYPE_CLIENT, 1⟩
        else if (2 : oid_t) = id then some ⟨32, 2, .SESSION_TYPE_CLIENT, 2⟩ else none := rfl
    rw [one] at found
    split at found
    · rename_i same
      rw [two, if_pos same, found]
    · cases found
  constructor
  · intro id object earlier later order found
    simp only [arriving] at found ⊢
    by_cases first : later < 2
    · simpa only [first, if_true, show earlier < 2 by omega] using found
    · simp only [first, if_false]
      split at found
      · exact grows id object found
      · exact found
  · intro lookup object lives
    rw [arriving] at lives
    split at lives
    · exact (by decide : ∀ object ∈ onePlayer.sessionList_, object.address ≠ 0) object lives
    · exact (by decide : ∀ object ∈ twoPlayers.sessionList_, object.address ≠ 0) object lives

theorem retry_effective_iff_arriving :
    RetryEffective arriving 7 1 2 (I_USER_INFO_during Rooms.initial arriving 7 1 2) ↔
      BothRegistered arriving 1 2 0 ∨ ¬ BothRegistered arriving 1 2 2 :=
  retry_effective_iff Rooms.initial arriving 7 1 2 arriving_permanent rfl rfl

/-- Both players are there at the second try, and the room is taken back. -/
theorem retry_ineffective :
    BothRegistered arriving 1 2 1 ∧
    ¬ RetryEffective arriving 7 1 2 (I_USER_INFO_during Rooms.initial arriving 7 1 2) := by
  have second : BothRegistered arriving 1 2 1 := ⟨by decide, by decide⟩
  have first : ¬ BothRegistered arriving 1 2 0 := by
    rintro ⟨_, found⟩
    exact found (by decide)
  refine ⟨second, ?_⟩
  rintro ⟨started, _⟩
  exact not_both 7 (started ⟨1, by decide, second⟩)
    ((I_USER_INFO_during_outcome Rooms.initial arriving_permanent rfl rfl 7).2 first)

end InGameServer

end GraduationServer
