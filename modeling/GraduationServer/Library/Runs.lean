/-!
Runs of a system whose steps are chosen by an event and may stop with an
error. A condition on steps is judged in the state before the step, and only
for the steps that a run really takes.
-/

namespace Runs

variable {State Event Error : Type}

def run (step : State → Event → Except Error State) (start : State) (events : List Event) :
    Except Error State :=
  events.foldlM step start

section

variable {step : State → Event → Except Error State}

@[simp] theorem run_nil (start : State) : run step start [] = .ok start := rfl

theorem run_cons (start : State) (event : Event) (events : List Event) :
    run step start (event :: events) = (step start event).bind fun next => run step next events :=
  rfl

theorem run_cons_ok {start finish : State} {event : Event} {events : List Event}
    (reached : run step start (event :: events) = .ok finish) :
    ∃ next, step start event = .ok next ∧ run step next events = .ok finish := by
  rw [run_cons] at reached
  cases taken : step start event with
  | error reason => simp [taken, Except.bind] at reached
  | ok next => exact ⟨next, rfl, by simpa [taken, Except.bind] using reached⟩

theorem run_singleton {start finish : State} {event : Event}
    (taken : step start event = .ok finish) : run step start [event] = .ok finish := by
  rw [run_cons, taken]
  rfl

theorem run_append {start middle finish : State} {earlier later : List Event}
    (reached : run step start earlier = .ok middle) (continued : run step middle later = .ok finish) :
    run step start (earlier ++ later) = .ok finish := by
  induction earlier generalizing start with
  | nil =>
      simp only [run_nil, Except.ok.injEq] at reached
      exact reached ▸ continued
  | cons event rest ih =>
      obtain ⟨next, taken, onwards⟩ := run_cons_ok reached
      rw [List.cons_append, run_cons, taken]
      exact ih onwards

theorem run_concat_ok {start finish : State} {events : List Event} {event : Event}
    (reached : run step start (events ++ [event]) = .ok finish) :
    ∃ last, run step start events = .ok last ∧ step last event = .ok finish := by
  induction events generalizing start with
  | nil =>
      obtain ⟨next, taken, ended⟩ := run_cons_ok reached
      simp only [run_nil, Except.ok.injEq] at ended
      exact ⟨start, rfl, ended ▸ taken⟩
  | cons first rest ih =>
      obtain ⟨next, taken, onwards⟩ := run_cons_ok reached
      obtain ⟨last, before, final⟩ := ih onwards
      exact ⟨last, by rw [run_cons, taken]; exact before, final⟩

theorem run_invariant {Invariant : State → Prop}
    (preserved : ∀ state event next, Invariant state → step state event = .ok next →
      Invariant next)
    {start finish : State} {events : List Event} (initial : Invariant start)
    (reached : run step start events = .ok finish) : Invariant finish := by
  induction events generalizing start with
  | nil =>
      simp only [run_nil, Except.ok.injEq] at reached
      exact reached ▸ initial
  | cons event rest ih =>
      obtain ⟨next, taken, continued⟩ := run_cons_ok reached
      exact ih (preserved start event next initial taken) continued

/-- Where each step does what the step of the view does, a run does, too. -/
theorem run_refines {Abstract : Type} {abstractStep : Abstract → Event → Except Error Abstract}
    {view : State → Abstract} {Invariant : State → Prop}
    (preserved : ∀ state event next, Invariant state → step state event = .ok next →
      Invariant next)
    (steps : ∀ state event, Invariant state →
      (step state event).map view = abstractStep (view state) event)
    {start : State} (initial : Invariant start) (events : List Event) :
    (run step start events).map view = run abstractStep (view start) events := by
  induction events generalizing start with
  | nil => rfl
  | cons event rest ih =>
      rw [run_cons, run_cons, ← steps start event initial]
      cases taken : step start event with
      | error reason => rfl
      | ok next => exact ih (preserved start event next initial taken)

end

/-- A run of which some view can be computed ends. -/
theorem run_view {View : Type} {view : State → View} {result : View}
    {step : State → Event → Except Error State} {start : State} {events : List Event}
    (computed : (run step start events).toOption.map view = some result) :
    ∃ finish, run step start events = .ok finish ∧ view finish = result := by
  cases reached : run step start events with
  | error reason => simp [reached, Except.toOption] at computed
  | ok finish => exact ⟨finish, rfl, by simpa [reached, Except.toOption] using computed⟩

/-- The error that the step stops with. -/
def stop (step : State → Event → Except Error State) (event : Event) (state : State) :
    Option Error :=
  match step state event with
  | .error reason => some reason
  | .ok _ => none

theorem stop_some {step : State → Event → Except Error State} {event : Event} {state : State}
    {reason : Error} (stopped : stop step event state = some reason) :
    step state event = .error reason := by
  rw [stop] at stopped
  split at stopped
  · rename_i other failed
    rw [failed, Option.some.inj stopped]
  · cases stopped

/-- The condition holds before every step that the run takes. -/
def Throughout (step : State → Event → Except Error State) (Condition : State → Event → Prop) :
    State → List Event → Prop
  | _, [] => True
  | state, event :: rest =>
      ∀ next, step state event = .ok next →
        Condition state event ∧ Throughout step Condition next rest

/-- The condition holds of every event in the state that it is tried in, also
of one whose step then fails. -/
def Offered (step : State → Event → Except Error State) (Condition : State → Event → Prop) :
    State → List Event → Prop
  | _, [] => True
  | state, event :: rest =>
      Condition state event ∧
        ∀ next, step state event = .ok next → Offered step Condition next rest

/-- The property holds in every state that the run passes through. -/
def Always (step : State → Event → Except Error State) (Property : State → Prop) :
    State → List Event → Prop
  | state, [] => Property state
  | state, event :: rest =>
      Property state ∧ ∀ next, step state event = .ok next → Always step Property next rest

section

variable {step : State → Event → Except Error State}
variable {Condition : State → Event → Prop} {Invariant Property : State → Prop}

instance decidableNext (result : Except Error State) [∀ next, Decidable (Property next)] :
    Decidable (∀ next, result = .ok next → Property next) :=
  match result with
  | .error _ => .isTrue (by simp)
  | .ok next => decidable_of_iff (Property next) (by simp)

instance Offered.decidable [∀ state event, Decidable (Condition state event)] :
    ∀ state events, Decidable (Offered step Condition state events)
  | _, [] => .isTrue trivial
  | state, event :: rest =>
      have (next : State) : Decidable (Offered step Condition next rest) :=
        Offered.decidable next rest
      inferInstanceAs (Decidable (_ ∧ ∀ next, step state event = .ok next → _))

instance Throughout.decidable [∀ state event, Decidable (Condition state event)] :
    ∀ state events, Decidable (Throughout step Condition state events)
  | _, [] => .isTrue trivial
  | state, event :: rest =>
      have (next : State) : Decidable (Throughout step Condition next rest) :=
        Throughout.decidable next rest
      inferInstanceAs (Decidable (∀ next, step state event = .ok next → _ ∧ _))

instance Always.decidable [∀ state, Decidable (Property state)] :
    ∀ state events, Decidable (Always step Property state events)
  | state, [] => inferInstanceAs (Decidable (Property state))
  | state, event :: rest =>
      have (next : State) : Decidable (Always step Property next rest) :=
        Always.decidable next rest
      inferInstanceAs (Decidable (_ ∧ ∀ next, step state event = .ok next → _))

theorem Always.start {start : State} {events : List Event}
    (always : Always step Property start events) : Property start := by
  cases events with
  | nil => exact always
  | cons event rest => exact always.1

theorem Always.mono (enough : ∀ state, Invariant state → Property state) {start : State}
    {events : List Event} (always : Always step Invariant start events) :
    Always step Property start events := by
  induction events generalizing start with
  | nil => exact enough start always
  | cons event rest ih =>
      refine ⟨enough start always.1, ?_⟩
      intro next taken
      exact ih (always.2 next taken)

/-- A property that each step keeps as long as a weaker one holds behind it. -/
theorem Always.strengthen
    (kept : ∀ state event next, Invariant state → step state event = .ok next →
      Property next → Invariant next)
    {start : State} {events : List Event} (initial : Invariant start)
    (always : Always step Property start events) : Always step Invariant start events := by
  induction events generalizing start with
  | nil => exact initial
  | cons event rest ih =>
      refine ⟨initial, ?_⟩
      intro next taken
      have later := always.2 next taken
      exact ih (kept start event next initial taken later.start) later

theorem Always.throughout (enough : ∀ state event, Property state → Condition state event)
    {start : State} {events : List Event} (always : Always step Property start events) :
    Throughout step Condition start events := by
  induction events generalizing start with
  | nil => trivial
  | cons event rest ih =>
      intro next taken
      exact ⟨enough start event always.1, ih (always.2 next taken)⟩

theorem Always.offered (enough : ∀ state event, Property state → Condition state event)
    {start : State} {events : List Event} (always : Always step Property start events) :
    Offered step Condition start events := by
  induction events generalizing start with
  | nil => trivial
  | cons event rest ih =>
      refine ⟨enough start event always.1, ?_⟩
      intro next taken
      exact ih (always.2 next taken)

theorem always_of_throughout
    (preserved : ∀ state event next, Invariant state → Condition state event →
      step state event = .ok next → Invariant next)
    (enough : ∀ state, Invariant state → Property state)
    {start : State} {events : List Event} (initial : Invariant start)
    (held : Throughout step Condition start events) : Always step Property start events := by
  induction events generalizing start with
  | nil => exact enough start initial
  | cons event rest ih =>
      refine ⟨enough start initial, ?_⟩
      intro next taken
      obtain ⟨condition, later⟩ := held next taken
      exact ih (preserved start event next initial condition taken) later

/-- Conditions that agree wherever the invariant holds, which each step that
meets them keeps. -/
theorem Offered.congr {Other : State → Event → Prop}
    (preserved : ∀ state event next, Invariant state → Condition state event →
      step state event = .ok next → Invariant next)
    (same : ∀ state event, Invariant state → (Condition state event ↔ Other state event))
    {start : State} {events : List Event} (initial : Invariant start) :
    Offered step Condition start events ↔ Offered step Other start events := by
  induction events generalizing start with
  | nil => exact Iff.rfl
  | cons event rest ih =>
      have one := same start event initial
      constructor
      · rintro ⟨condition, later⟩
        refine ⟨one.mp condition, ?_⟩
        intro next taken
        exact (ih (preserved start event next initial condition taken)).mp (later next taken)
      · rintro ⟨other, later⟩
        have condition := one.mpr other
        refine ⟨condition, ?_⟩
        intro next taken
        exact (ih (preserved start event next initial condition taken)).mpr (later next taken)

theorem Offered.last {start finish : State} {events : List Event} {event : Event}
    (offered : Offered step Condition start (events ++ [event]))
    (reached : run step start events = .ok finish) : Condition finish event := by
  induction events generalizing start with
  | nil =>
      simp only [run_nil, Except.ok.injEq] at reached
      exact reached ▸ offered.1
  | cons earlier rest ih =>
      obtain ⟨next, taken, continued⟩ := run_cons_ok reached
      exact ih (offered.2 next taken) continued

theorem throughout_of_events {Allowed : Event → Prop} {start : State} {events : List Event}
    (allowed : ∀ event ∈ events, Allowed event) :
    Throughout step (fun _ event => Allowed event) start events := by
  induction events generalizing start with
  | nil => trivial
  | cons event rest ih =>
      intro next _
      exact ⟨allowed event List.mem_cons_self,
        ih fun later member => allowed later (List.mem_cons_of_mem _ member)⟩

theorem Throughout.mono {Other : State → Event → Prop}
    (weaker : ∀ state event, Condition state event → Other state event) {start : State}
    {events : List Event} (held : Throughout step Condition start events) :
    Throughout step Other start events := by
  induction events generalizing start with
  | nil => trivial
  | cons event rest ih =>
      intro next taken
      obtain ⟨condition, later⟩ := held next taken
      exact ⟨weaker start event condition, ih later⟩

theorem Throughout.later {start middle : State} {earlier later : List Event}
    (held : Throughout step Condition start (earlier ++ later))
    (reached : run step start earlier = .ok middle) : Throughout step Condition middle later := by
  induction earlier generalizing start with
  | nil =>
      simp only [run_nil, Except.ok.injEq] at reached
      exact reached ▸ held
  | cons event rest ih =>
      obtain ⟨next, taken, continued⟩ := run_cons_ok reached
      exact ih (held next taken).2 continued

/-- Where every step relates its two states, a run relates its ends. -/
theorem Throughout.related {Related : State → State → Prop} (refl : ∀ state, Related state state)
    (trans : ∀ first second third, Related first second → Related second third →
      Related first third)
    (steps : ∀ state event next, Condition state event → step state event = .ok next →
      Related state next)
    {start finish : State} {events later : List Event}
    (held : Throughout step Condition start (events ++ later))
    (reached : run step start events = .ok finish) : Related start finish := by
  induction events generalizing start with
  | nil =>
      simp only [run_nil, Except.ok.injEq] at reached
      exact reached ▸ refl start
  | cons event rest ih =>
      obtain ⟨next, taken, continued⟩ := run_cons_ok reached
      obtain ⟨condition, others⟩ := held next taken
      exact trans start next finish (steps start event next condition taken) (ih others continued)

theorem throughout_of_reached {start : State} {events : List Event}
    (each : ∀ earlier event later state next, events = earlier ++ event :: later →
      run step start earlier = .ok state → step state event = .ok next → Condition state event) :
    Throughout step Condition start events := by
  induction events generalizing start with
  | nil => trivial
  | cons first rest ih =>
      intro next taken
      refine ⟨each [] first rest start next rfl rfl taken, ?_⟩
      apply ih
      intro earlier event later state after same reached
      apply each (first :: earlier) event later state after (by rw [same, List.cons_append])
      rw [run_cons, taken]
      exact reached

theorem Throughout.and {Other : State → Event → Prop} {start : State} {events : List Event}
    (held : Throughout step Condition start events) (other : Throughout step Other start events) :
    Throughout step (fun state event => Condition state event ∧ Other state event) start
      events := by
  induction events generalizing start with
  | nil => trivial
  | cons event rest ih =>
      intro next taken
      exact ⟨⟨(held next taken).1, (other next taken).1⟩,
        ih (held next taken).2 (other next taken).2⟩

theorem always_of_invariant
    (preserved : ∀ state event next, Invariant state → step state event = .ok next →
      Invariant next)
    (enough : ∀ state, Invariant state → Property state)
    {start : State} (events : List Event) (initial : Invariant start) :
    Always step Property start events :=
  have nothing : Throughout step (fun _ _ => True) start events :=
    throughout_of_events fun _ _ => trivial
  always_of_throughout (fun state event next invariant _ => preserved state event next invariant)
    enough initial nothing

/-- Where each step keeps the property exactly under its condition, a run has
the property in all its states exactly when all its steps meet the condition. -/
theorem always_iff_throughout {Allowed : Event → Prop}
    (invariant : ∀ state event next, Allowed event → Invariant state →
      step state event = .ok next → Invariant next)
    (exactly : ∀ state event next, Allowed event → Invariant state → Property state →
      step state event = .ok next → (Property next ↔ Condition state event))
    {start : State} {events : List Event} (allowed : ∀ event ∈ events, Allowed event)
    (initial : Invariant start) (holds : Property start) :
    Always step Property start events ↔ Throughout step Condition start events := by
  induction events generalizing start with
  | nil => exact ⟨fun _ => trivial, fun _ => holds⟩
  | cons event rest ih =>
      have first : Allowed event := allowed event List.mem_cons_self
      have others : ∀ later ∈ rest, Allowed later :=
        fun later member => allowed later (List.mem_cons_of_mem _ member)
      constructor
      · rintro ⟨_, always⟩ next taken
        have later := always next taken
        have condition := (exactly start event next first initial holds taken).mp later.start
        have kept := invariant start event next first initial taken
        exact ⟨condition, (ih others kept later.start).mp later⟩
      · intro held
        refine ⟨holds, ?_⟩
        intro next taken
        obtain ⟨condition, later⟩ := held next taken
        have kept := (exactly start event next first initial holds taken).mpr condition
        exact (ih others (invariant start event next first initial taken) kept).mpr later

theorem Always.finish {start finish : State} {events : List Event}
    (always : Always step Property start events)
    (reached : run step start events = .ok finish) : Property finish := by
  induction events generalizing start with
  | nil =>
      simp only [run_nil, Except.ok.injEq] at reached
      exact reached ▸ always
  | cons event rest ih =>
      obtain ⟨next, taken, continued⟩ := run_cons_ok reached
      exact ih (always.2 next taken) continued

end

end Runs
