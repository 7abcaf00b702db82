import GraduationServer.SessionRegistry

/-!
The limit that `SessionManager::init` sets. `addSession` refuses a new session
when `sessionCount_` is above the limit, and `sessionCount_` is the number of
sessions, so the one that goes beyond the limit is still added.
-/

namespace GraduationServer

namespace SessionManager

theorem addSession_added (manager : SessionManager) (session : SessionPtr) (addrInfo_ : Nat) :
    (manager.addSession session addrInfo_).1 = true ↔
      manager.registered session = false ∧ manager.sessionCount_ ≤ manager.maxConnection_ := by
  by_cases present : manager.registered session = true
  · simp [addSession, present]
  · by_cases busy : manager.maxConnection_ < manager.sessionCount_
    · simp [addSession, present, busy]
    · simp only [Bool.not_eq_true] at present
      simp [addSession, present, busy, Int.not_lt.mp busy]

@[simp] theorem addSession_maxConnection (manager : SessionManager) (session : SessionPtr)
    (addrInfo_ : Nat) :
    (manager.addSession session addrInfo_).2.maxConnection_ = manager.maxConnection_ := by
  rw [addSession]
  split
  · rfl
  · split <;> rfl

@[simp] theorem closeSession_maxConnection {manager : SessionManager} {session : SessionPtr} :
    (manager.closeSession session).maxConnection_ = manager.maxConnection_ := by
  rw [closeSession]
  split <;> rfl

end SessionManager

namespace Registry

def sessions (registry : Registry) : Int := registry.manager.sessionList_.length

def Within (maxConnection : Int) (registry : Registry) : Prop :=
  registry.sessions ≤ maxConnection

def RefusedWhenFull (maxConnection : Int) (registry : Registry) : Event → Prop
  | .addSession session addrInfo_ =>
      registry.manager.registered session = false →
        (registry.manager.addSession session addrInfo_).1 = false →
          registry.sessions = maxConnection
  | _ => True

def Limited (maxConnection : Int) (events : List Event) : Prop :=
  Runs.Always step (Within maxConnection) (initial maxConnection) events ∧
    Runs.Offered step (RefusedWhenFull maxConnection) (initial maxConnection) events

instance (maxConnection : Int) : DecidablePred (Within maxConnection) :=
  fun registry => inferInstanceAs (Decidable (registry.sessions ≤ maxConnection))

def NotFull (maxConnection : Int) (registry : Registry) : Event → Prop
  | .addSession session _ =>
      registry.manager.registered session = false → registry.sessions ≠ maxConnection
  | _ => True

instance (maxConnection : Int) (registry : Registry) (event : Event) :
    Decidable (NotFull maxConnection registry event) :=
  match event with
  | .addSession session _ => inferInstanceAs (Decidable
      (registry.manager.registered session = false → registry.sessions ≠ maxConnection))
  | .closeSession _ | .forceCloseSession _ | .release => .isTrue trivial

structure Managed (maxConnection : Int) (registry : Registry) : Prop where
  numbered : Numbered registry
  limit : registry.manager.maxConnection_ = maxConnection

theorem initial_managed (maxConnection : Int) : Managed maxConnection (initial maxConnection) :=
  { numbered := initial_numbered maxConnection, limit := rfl }

/-! What one step does to the limit and to the number of sessions. -/

theorem onClose_limit {registry after : Registry} {session : SessionPtr}
    (done : registry.onClose session = .ok after) :
    after.manager.maxConnection_ = registry.manager.maxConnection_ ∧
      after.sessions ≤ registry.sessions := by
  rcases registry.onClose_cases session with same | ⟨object, -, -, ended⟩
  · rw [done, Except.ok.injEq] at same
    rw [same]
    exact ⟨rfl, Int.le_refl _⟩
  · rw [done, Except.ok.injEq] at ended
    have fewer := (registry.manager.closeSession_sublist object.address).length_le
    rw [ended]
    refine ⟨SessionManager.closeSession_maxConnection, ?_⟩
    simp only [sessions, closed]
    omega

theorem forceCloseSession_limit {registry after : Registry} {session : SessionPtr}
    (done : registry.forceCloseSession session = .ok after) :
    after.manager.maxConnection_ = registry.manager.maxConnection_ ∧
      after.sessions ≤ registry.sessions := by
  rw [forceCloseSession] at done
  split at done
  · cases done
    exact ⟨rfl, Int.le_refl _⟩
  · exact onClose_limit done

theorem closeAll_limit {list : List SessionPtr} {registry after : Registry}
    (done : closeAll list registry = .ok after) :
    after.manager.maxConnection_ = registry.manager.maxConnection_ := by
  induction list generalizing registry with
  | nil =>
      simp only [closeAll, Except.ok.injEq] at done
      rw [done]
  | cons session rest ih =>
      rw [closeAll] at done
      obtain ⟨object, -, done⟩ := Exec.bind_ok done
      obtain ⟨next, closing, done⟩ := Exec.bind_ok done
      rw [ih done]
      exact (onClose_limit closing).1

theorem release_limit {registry after : Registry} (numbered : Numbered registry)
    (done : registry.release = .ok after) :
    after.manager.maxConnection_ = registry.manager.maxConnection_ ∧
      after.sessions ≤ registry.sessions := by
  obtain ⟨released, finished, -, empty, -⟩ := release_numbered numbered
  have same : released = after := by
    rw [done, Except.ok.injEq] at finished
    exact finished.symm
  constructor
  · rw [release] at done
    obtain ⟨closed, closing, done⟩ := Exec.bind_ok done
    cases done
    show closed.manager.maxConnection_ = _
    exact closeAll_limit closing
  · rw [← same]
    simp only [sessions, empty, List.length_nil]
    omega

theorem addSession_limit {maxConnection : Int} {registry after : Registry} {session : SessionPtr}
    {addrInfo_ : Nat} (managed : Managed maxConnection registry)
    (done : registry.addSession session addrInfo_ = .ok after) :
    after.manager.maxConnection_ = registry.manager.maxConnection_ ∧
      (after = registry ∧
          (registry.manager.registered session = true ∨ maxConnection < registry.sessions) ∨
        registry.manager.registered session = false ∧ registry.sessions ≤ maxConnection ∧
          after.sessions = registry.sessions + 1) := by
  have decided := registry.manager.addSession_added session addrInfo_
  have kept := registry.manager.addSession_maxConnection session addrInfo_
  rw [managed.limit, managed.numbered.counted] at decided
  rcases registry.manager.addSession_cases session addrInfo_ with
    refused | ⟨manager, object, added, -, -, list, -, -⟩
  · rw [addSession, refused] at done
    simp only [Bool.false_eq_true, if_false, Except.ok.injEq] at done
    refine ⟨by rw [done], Or.inl ⟨done.symm, ?_⟩⟩
    simp only [refused, Bool.false_eq_true, false_iff, not_and, Int.not_le] at decided
    cases present : registry.manager.registered session with
    | true => exact Or.inl rfl
    | false => exact Or.inr (decided present)
  · rw [added] at decided kept
    simp only [true_iff] at decided
    simp only [addSession, added, if_true] at done
    split at done
    · simp at done
    · cases done
      refine ⟨kept, Or.inr ⟨decided.1, decided.2, ?_⟩⟩
      simp [sessions, list]

theorem step_managed {maxConnection : Int} {registry after : Registry} {event : Event}
    (managed : Managed maxConnection registry) (taken : registry.step event = .ok after) :
    Managed maxConnection after := by
  refine ⟨step_numbered managed.numbered taken, ?_⟩
  rw [← managed.limit]
  cases event with
  | addSession session addrInfo_ => exact (addSession_limit managed taken).1
  | closeSession session => exact (onClose_limit taken).1
  | forceCloseSession session => exact (forceCloseSession_limit taken).1
  | release => exact (release_limit managed.numbered taken).1

theorem step_within {maxConnection : Int} {registry after : Registry} {event : Event}
    (managed : Managed maxConnection registry) (within : Within maxConnection registry)
    (taken : registry.step event = .ok after) :
    Within maxConnection after ↔ NotFull maxConnection registry event := by
  unfold Within at within ⊢
  cases event with
  | addSession session addrInfo_ =>
      simp only [NotFull]
      rcases (addSession_limit managed taken).2 with ⟨rfl, refused⟩ | ⟨fresh, -, more⟩
      · have present : after.manager.registered session = true := by
          rcases refused with present | beyond
          · exact present
          · omega
        simp [present, within]
      · simp only [fresh, true_implies, more]
        omega
  | closeSession session =>
      have fewer := (onClose_limit taken).2
      simp only [NotFull, iff_true]
      omega
  | forceCloseSession session =>
      have fewer := (forceCloseSession_limit taken).2
      simp only [NotFull, iff_true]
      omega
  | release =>
      have fewer := (release_limit managed.numbered taken).2
      simp only [NotFull, iff_true]
      omega

theorem addSession_refused {maxConnection : Int} {registry : Registry} {session : SessionPtr}
    {addrInfo_ : Nat} (managed : Managed maxConnection registry)
    (fresh : registry.manager.registered session = false) :
    (registry.manager.addSession session addrInfo_).1 = false ↔
      maxConnection < registry.sessions := by
  rw [← Bool.not_eq_true, SessionManager.addSession_added, managed.limit,
    managed.numbered.counted]
  simp [fresh, sessions]

theorem refusedWhenFull_within {maxConnection : Int} {registry : Registry} {event : Event}
    (managed : Managed maxConnection registry) (within : Within maxConnection registry) :
    RefusedWhenFull maxConnection registry event := by
  cases event with
  | addSession session addrInfo_ =>
      intro fresh refused
      have beyond := (addSession_refused managed fresh).mp refused
      unfold Within at within
      omega
  | closeSession | forceCloseSession | release => trivial

theorem always_within_iff (maxConnection : Int) (room : 0 ≤ maxConnection) (events : List Event) :
    Runs.Always step (Within maxConnection) (initial maxConnection) events ↔
      Runs.Throughout step (NotFull maxConnection) (initial maxConnection) events := by
  have kept (registry : Registry) (event : Event) (after : Registry) (_ : True)
      (managed : Managed maxConnection registry) (taken : registry.step event = .ok after) :
      Managed maxConnection after := step_managed managed taken
  have exactly (registry : Registry) (event : Event) (after : Registry) (_ : True)
      (managed : Managed maxConnection registry) (within : Within maxConnection registry)
      (taken : registry.step event = .ok after) :
      Within maxConnection after ↔ NotFull maxConnection registry event :=
    step_within managed within taken
  exact Runs.always_iff_throughout kept exactly (fun _ _ => trivial)
    (initial_managed maxConnection) room

/-- The limit holds in a run exactly when no new session comes while it is
reached: the comparison in `addSession` is off by one. -/
theorem limited_iff (maxConnection : Int) (room : 0 ≤ maxConnection) (events : List Event) :
    Limited maxConnection events ↔
      Runs.Throughout step (NotFull maxConnection) (initial maxConnection) events := by
  constructor
  · rintro ⟨within, -⟩
    exact (always_within_iff maxConnection room events).mp within
  · intro notFull
    have within := (always_within_iff maxConnection room events).mpr notFull
    refine ⟨within, ?_⟩
    have both : Runs.Always step
        (fun registry => Managed maxConnection registry ∧ Within maxConnection registry)
        (initial maxConnection) events := by
      refine Runs.Always.strengthen ?_ ⟨initial_managed maxConnection, room⟩ within
      intro registry event after holds taken later
      exact ⟨step_managed holds.1 taken, later⟩
    exact both.offered fun registry event holds => refusedWhenFull_within holds.1 holds.2

theorem limited_iff_two :
    Limited 2 [.addSession 16 1, .addSession 32 2, .closeSession 16, .addSession 48 3] := by
  refine (limited_iff 2 (by decide) _).mpr ?_
  decide

theorem limited_exceeded : ¬ ∀ maxConnection : Int, 0 ≤ maxConnection → ∀ events,
    Limited maxConnection events := by
  intro every
  have within := (every 1 (by decide) [.addSession 16 1, .addSession 32 2]).1
  revert within
  decide

/-- What the code keeps to is one session more than the limit, and it refuses
a new session exactly then. -/
theorem always_beyond (maxConnection : Int) (room : 0 ≤ maxConnection) (events : List Event) :
    Runs.Always step
      (fun registry => registry.sessions ≤ maxConnection + 1 ∧
        ∀ session addrInfo_, registry.manager.registered session = false →
          ((registry.manager.addSession session addrInfo_).1 = false ↔
            registry.sessions = maxConnection + 1))
      (initial maxConnection) events := by
  have preserved (registry : Registry) (event : Event) (after : Registry)
      (holds : Managed maxConnection registry ∧ Within (maxConnection + 1) registry)
      (taken : registry.step event = .ok after) :
      Managed maxConnection after ∧ Within (maxConnection + 1) after := by
    obtain ⟨managed, within⟩ := holds
    refine ⟨step_managed managed taken, ?_⟩
    unfold Within at within ⊢
    cases event with
    | addSession session addrInfo_ =>
        rcases (addSession_limit managed taken).2 with ⟨rfl, -⟩ | ⟨-, below, more⟩
        · exact within
        · omega
    | closeSession session => exact Int.le_trans (onClose_limit taken).2 within
    | forceCloseSession session => exact Int.le_trans (forceCloseSession_limit taken).2 within
    | release => exact Int.le_trans (release_limit managed.numbered taken).2 within
  have enough (registry : Registry)
      (holds : Managed maxConnection registry ∧ Within (maxConnection + 1) registry) :
      registry.sessions ≤ maxConnection + 1 ∧
        ∀ session addrInfo_, registry.manager.registered session = false →
          ((registry.manager.addSession session addrInfo_).1 = false ↔
            registry.sessions = maxConnection + 1) := by
    obtain ⟨managed, within⟩ := holds
    refine ⟨within, ?_⟩
    intro session addrInfo_ fresh
    rw [addSession_refused managed fresh]
    unfold Within at within
    omega
  refine Runs.always_of_invariant preserved enough events ⟨initial_managed maxConnection, ?_⟩
  show (0 : Int) ≤ maxConnection + 1
  omega

end Registry

end GraduationServer
