import GraduationServer.InGameProcess
import GraduationServer.Library.Runs

/-!
`total_exploded_enemy` of a room. The guard of `C_REQ_ENEMY_EXPLOSION` looks at
the old total only, and the client says how much is added, so the sum may wrap.
The total then falls, and `C_REQ_MAKE_ENEMY` may answer once more.
-/

namespace GraduationServer

namespace InGameServer

namespace Kills

inductive Event where
  | C_REQ_MAKE_ENEMY (manager : SessionManager) (session : SessionPtr) (room_num : UInt64)
      (x : RawFloat)
  | C_REQ_ENEMY_EXPLOSION (manager : SessionManager) (session : SessionPtr)
      (room_num enemycount : UInt64)

def serve (rooms : Rooms) : Event → Exec (Rooms × List (Receiver × Packet))
  | .C_REQ_MAKE_ENEMY manager session room_num x =>
      InGameServer.C_REQ_MAKE_ENEMY rooms manager session room_num x
  | .C_REQ_ENEMY_EXPLOSION manager session room_num enemycount =>
      InGameServer.C_REQ_ENEMY_EXPLOSION rooms manager session room_num enemycount

def step (rooms : Rooms) (event : Event) : Exec Rooms := do
  let (rooms, _) ← serve rooms event
  return rooms

def total (key : Int32) (rooms : Rooms) : UInt64 :=
  match rooms.roomArr key with
  | none => 0
  | some room => room.total_exploded_enemy

def Silent (key : Int32) (rooms : Rooms) : Event → Prop
  | .C_REQ_MAKE_ENEMY manager session room_num x =>
      toInt room_num = key → ∀ after sent,
        serve rooms (.C_REQ_MAKE_ENEMY manager session room_num x) = .ok (after, sent) →
          ∀ receiver y, (receiver, Packet.PK_S_ANS_MAKE_ENEMY y) ∉ sent
  | .C_REQ_ENEMY_EXPLOSION _ _ _ _ => True

/-- Between any two states of the run the total does not fall, and behind a
state with a total of at least one no enemy appears. -/
def Monotone (key : Int32) (rooms : Rooms) (events : List Event) : Prop :=
  ∀ earlier between later first second, events = earlier ++ (between ++ later) →
    Runs.run step rooms earlier = .ok first → Runs.run step first between = .ok second →
      total key first ≤ total key second ∧
        (1 ≤ total key first → ∀ event rest, later = event :: rest → Silent key second event)

def added (key : Int32) (rooms : Rooms) : Event → UInt64
  | .C_REQ_MAKE_ENEMY _ _ _ _ => 0
  | .C_REQ_ENEMY_EXPLOSION manager session room_num enemycount =>
      match rooms.roomArr key, manager.deref session with
      | some room, .ok object =>
          if toInt room_num = key ∧ object.id_ = room.User1_ID ∧ room.total_exploded_enemy < 5
          then enemycount else 0
      | _, _ => 0

def Fits (key : Int32) (rooms : Rooms) (event : Event) : Prop :=
  (total key rooms).toNat + (added key rooms event).toNat < UInt64.size

theorem make_total {rooms after : Rooms} {manager : SessionManager} {session : SessionPtr}
    {room_num : UInt64} {x : RawFloat} {sent : List (Receiver × Packet)}
    (done : C_REQ_MAKE_ENEMY rooms manager session room_num x = .ok (after, sent)) :
    after = rooms := by
  rw [C_REQ_MAKE_ENEMY] at done
  split at done
  · cases done
    rfl
  · split at done
    · cases done
      rfl
    · obtain ⟨object, -, done⟩ := Exec.bind_ok done
      dsimp only at done
      split_ifs at done
      · cases done
        rfl
      · obtain ⟨second, -, done⟩ := Exec.bind_ok done
        obtain ⟨first, -, done⟩ := Exec.bind_ok done
        cases done
        rfl
      · cases done
        rfl

section

variable {rooms : Rooms} {manager : SessionManager} {session : SessionPtr}
variable {room_num enemycount : UInt64} {room : Room} {object : Session}

theorem added_counted (found : rooms.roomArr (toInt room_num) = some room)
    (used : manager.deref session = .ok object)
    (counted : object.id_ = room.User1_ID ∧ room.total_exploded_enemy < 5) :
    added (toInt room_num) rooms (.C_REQ_ENEMY_EXPLOSION manager session room_num enemycount) =
      enemycount := by
  simp [added, found, used, counted]

theorem added_ignored (found : rooms.roomArr (toInt room_num) = some room)
    (used : manager.deref session = .ok object)
    (ignored : ¬ (object.id_ = room.User1_ID ∧ room.total_exploded_enemy < 5)) :
    added (toInt room_num) rooms (.C_REQ_ENEMY_EXPLOSION manager session room_num enemycount) =
      0 := by
  simp only [added, found, used, true_and, if_neg ignored]

theorem added_absent (absent : rooms.roomArr (toInt room_num) = none) :
    added (toInt room_num) rooms (.C_REQ_ENEMY_EXPLOSION manager session room_num enemycount) =
      0 := by
  simp only [added, absent]

theorem added_other {key : Int32} (other : toInt room_num ≠ key) :
    added key rooms (.C_REQ_ENEMY_EXPLOSION manager session room_num enemycount) = 0 := by
  rw [added]
  split
  · rw [if_neg fun counted => other counted.1]
  · rfl

end

theorem explosion_total {rooms after : Rooms} {manager : SessionManager} {session : SessionPtr}
    {room_num enemycount : UInt64} {sent : List (Receiver × Packet)} (key : Int32)
    (done : C_REQ_ENEMY_EXPLOSION rooms manager session room_num enemycount = .ok (after, sent)) :
    total key after = total key rooms +
      added key rooms (.C_REQ_ENEMY_EXPLOSION manager session room_num enemycount) := by
  by_cases same : toInt room_num = key
  · subst same
    rw [C_REQ_ENEMY_EXPLOSION] at done
    split at done
    · rename_i absent
      cases done
      rw [added_absent absent, UInt64.add_zero]
    · rename_i room found
      obtain ⟨object, used, done⟩ := Exec.bind_ok done
      dsimp only at done
      split at done
      · rename_i counted
        obtain ⟨told, -, done⟩ := Exec.bind_ok done
        cases done
        rw [added_counted found used counted]
        simp [total, found]
      · rename_i ignored
        cases done
        rw [added_ignored found used ignored, UInt64.add_zero]
  · rw [added_other same, UInt64.add_zero]
    have others : after.roomArr key = rooms.roomArr key := by
      cases C_REQ_ENEMY_EXPLOSION_served done with
      | ignored | answered => rfl
      | counted => exact StdMap.assign_other fun equal => same equal.symm
      | ended => exact StdMap.erase_other fun equal => same equal.symm
    rw [total, total, others]

theorem step_total {rooms next : Rooms} {event : Event} (key : Int32)
    (taken : step rooms event = .ok next) :
    total key next = total key rooms + added key rooms event := by
  obtain ⟨⟨after, sent⟩, served, taken⟩ := Exec.bind_ok taken
  cases taken
  cases event with
  | C_REQ_MAKE_ENEMY manager session room_num x =>
      rw [make_total served, added, UInt64.add_zero]
  | C_REQ_ENEMY_EXPLOSION manager session room_num enemycount => exact explosion_total key served

theorem le_add_iff (old more : UInt64) :
    old ≤ old + more ↔ old.toNat + more.toNat < UInt64.size := by
  have bounded := old.toNat_lt
  have small := more.toNat_lt
  rw [UInt64.le_iff_toNat_le, UInt64.toNat_add]
  simp only [UInt64.size] at bounded small ⊢
  omega

theorem step_fits {rooms next : Rooms} {event : Event} {key : Int32}
    (taken : step rooms event = .ok next) :
    total key rooms ≤ total key next ↔ Fits key rooms event := by
  rw [step_total key taken]
  exact le_add_iff _ _

theorem silent_of_counted {rooms : Rooms} {key : Int32} (counted : 1 ≤ total key rooms)
    (event : Event) : Silent key rooms event := by
  cases event with
  | C_REQ_ENEMY_EXPLOSION => trivial
  | C_REQ_MAKE_ENEMY manager session room_num x =>
      rintro rfl after sent served receiver y
      have gone : sent = [] := by
        rw [serve, InGameServer.C_REQ_MAKE_ENEMY] at served
        cases found : rooms.roomArr (toInt room_num) with
        | none =>
            rw [found] at served
            cases served
            rfl
        | some room =>
            rw [total, found] at counted
            rw [found] at served
            simp only [if_pos counted] at served
            cases served
            rfl
      simp [gone]

/-- The law holds for a room in a run exactly when no counted explosion takes
the room's total to 2^64. -/
theorem monotone_iff (key : Int32) (rooms : Rooms) (events : List Event) :
    Monotone key rooms events ↔ Runs.Throughout step (Fits key) rooms events := by
  constructor
  · intro law
    apply Runs.throughout_of_reached
    intro earlier event later state next same reached taken
    have grows := (law earlier [event] later state next (by simp [same]) reached
      (Runs.run_singleton taken)).1
    exact (step_fits taken).mp grows
  · intro fits earlier between later first second same reached continued
    rw [same] at fits
    have behind := fits.later reached
    have grows : total key first ≤ total key second := by
      apply Runs.Throughout.related _ _ _ behind continued
      · exact fun _ => UInt64.le_refl _
      · exact fun _ _ _ => UInt64.le_trans
      · exact fun _ _ _ fit taken => (step_fits taken).mpr fit
    refine ⟨grows, ?_⟩
    intro atLeast event rest _
    exact silent_of_counted (UInt64.le_trans atLeast grows) event

def twoPlayers : SessionManager :=
  (((SessionManager.init SESSION_CAPACITY).addSession 16 1).2.addSession 32 2).2

def startedGame : Rooms :=
  ((Rooms.initial.Insert_User_Info 0
    { User1_ID := 1, User2_ID := 2, total_exploded_enemy := 0 }).Insert_Sessions 1
      16).Insert_Sessions 2 32

/-- The second count takes the total from one back to zero. -/
theorem monotone_wraps : ¬ ∀ key rooms events, Monotone key rooms events := by
  intro every
  let first : Event := .C_REQ_ENEMY_EXPLOSION twoPlayers 16 0 1
  let second : Event := .C_REQ_ENEMY_EXPLOSION twoPlayers 16 0 18446744073709551615
  let totals (rooms : Rooms) : UInt64 × Option UInt64 :=
    (total 0 rooms, (Runs.run step rooms [second]).toOption.map (total 0))
  have computed : (Runs.run step startedGame [first]).toOption.map totals = some (1, some 0) := by
    decide
  obtain ⟨middle, reached, view⟩ := Runs.run_view computed
  simp only [totals, Prod.mk.injEq] at view
  obtain ⟨counted, view⟩ := view
  obtain ⟨finish, continued, wrapped⟩ := Runs.run_view view
  have grows := (every 0 startedGame [first, second] [first] [second] [] middle finish rfl reached
    continued).1
  rw [counted, wrapped] at grows
  exact absurd grows (by decide)

end Kills

end InGameServer

end GraduationServer
