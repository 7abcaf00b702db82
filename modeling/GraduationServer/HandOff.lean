import GraduationServer.ContentsProcess
import GraduationServer.Library.InFlight
import GraduationServer.Library.Runs

/-!
How the packages of one session get from its `packageStorage` to the server's
queue, when several threads serve its read completions. `onRecv` posts the next
receive before its thread has emptied `packageStorage`, and the thread looks
with `IsEmpty` and takes with `PopPackage` in two separate steps.
-/

namespace GraduationServer

inductive Phase where
  /-- In `onRecv`, with packages to put before the receive is posted again. -/
  | onRecv (packages : List Package)
  | isEmpty
  | popPackage
  | putPackage (package : Package)
  deriving DecidableEq

/-- `stored` records the packages that `onRecv` has put. -/
structure HandOff where
  posted : Bool
  packageStorage : List Package
  packageQueue_ : ThreadJobQueue Package
  serving : List Phase
  stored : List Package

namespace HandOff

inductive Event where
  | completion (packages : List Package)
  | advance (index : Nat)

def initial : HandOff :=
  { posted := true
    packageStorage := []
    packageQueue_ := ThreadJobQueue.empty
    serving := []
    stored := [] }

/-- A thread that is free takes the completion of the posted receive, whose
bytes complete these packages. -/
def completion (threads : Nat) (session : HandOff) (packages : List Package) : Exec HandOff :=
  if session.posted ∧ session.serving.length < threads then
    .ok { session with posted := false, serving := session.serving ++ [.onRecv packages] }
  else .error .notEnabled

def advance (session : HandOff) (others : List Phase) : Phase → Exec HandOff
  | .onRecv (package :: packages) =>
      .ok { session with
        packageStorage := session.packageStorage ++ [package]
        serving := others ++ [.onRecv packages]
        stored := session.stored ++ [package] }
  | .onRecv [] => .ok { session with posted := true, serving := others ++ [.isEmpty] }
  | .isEmpty =>
      if session.packageStorage = [] then .ok { session with serving := others }
      else .ok { session with serving := others ++ [.popPackage] }
  | .popPackage =>
      match session.packageStorage with
      | [] => .error .outOfBounds
      | package :: packageStorage =>
          .ok { session with packageStorage, serving := others ++ [.putPackage package] }
  | .putPackage package =>
      .ok { session with
        packageQueue_ := session.packageQueue_.push package
        serving := others ++ [.isEmpty] }

def step (threads : Nat) (session : HandOff) : Event → Exec HandOff
  | .completion packages => session.completion threads packages
  | .advance index =>
      match InFlight.take session.serving index with
      | none => .error .notEnabled
      | some (phase, others) => session.advance others phase

def carried (serving : List Phase) : List Package :=
  serving.filterMap fun
    | .putPackage package => some package
    | _ => none

@[simp] theorem carried_append (first second : List Phase) :
    carried (first ++ second) = carried first ++ carried second := by
  simp [carried]

/-- A thread that is about to pop finds a package, every package stored is in
exactly one place, and none is left behind when the last thread is done. -/
structure Safe (session : HandOff) : Prop where
  popFinds : .popPackage ∈ session.serving → session.packageStorage ≠ []
  handedOver : session.stored.Perm
    (session.packageQueue_.items ++ carried session.serving ++ session.packageStorage)
  noneLeft : session.serving = [] → session.packageStorage = []

/-- The last package is not popped while another thread, which has found the
storage not empty, is about to pop as well. -/
def LeavesOne (session : HandOff) : Event → Prop
  | .advance index => ∀ others, InFlight.take session.serving index = some (.popPackage, others) →
      .popPackage ∈ others → 2 ≤ session.packageStorage.length
  | .completion _ => True

theorem initial_safe : initial.Safe := by
  constructor
  · intro popping
    simp [initial] at popping
  · exact List.Perm.refl _
  · exact fun _ => rfl

section

variable {session next : HandOff} {others : List Phase} {phase : Phase} {index : Nat}

theorem carried_take (taken : InFlight.take session.serving index = some (phase, others)) :
    (carried session.serving).Perm (carried [phase] ++ carried others) := by
  rw [← carried_append]
  exact (InFlight.take_perm taken).filterMap _

theorem others_popping (taken : InFlight.take session.serving index = some (phase, others))
    (popping : .popPackage ∈ others) : .popPackage ∈ session.serving :=
  InFlight.mem_of_take taken popping

theorem onRecv_safe {package : Package} {packages : List Package} (safe : session.Safe)
    (taken : InFlight.take session.serving index = some (.onRecv (package :: packages), others))
    (done : session.advance others (.onRecv (package :: packages)) = .ok next) : next.Safe := by
  cases done
  constructor
  · simp
  · have placed := safe.handedOver.trans
      (((carried_take taken).append_left _).append_right _)
    simpa [carried] using placed.append_right [package]
  · simp

theorem recvStandBy_safe (safe : session.Safe)
    (taken : InFlight.take session.serving index = some (.onRecv [], others))
    (done : session.advance others (.onRecv []) = .ok next) : next.Safe := by
  cases done
  constructor
  · intro popping
    exact safe.popFinds (others_popping taken (by simpa using popping))
  · have placed := safe.handedOver.trans
      (((carried_take taken).append_left _).append_right _)
    simpa [carried] using placed
  · simp

theorem isEmpty_safe (safe : session.Safe)
    (taken : InFlight.take session.serving index = some (.isEmpty, others))
    (done : session.advance others .isEmpty = .ok next) : next.Safe := by
  have placed := safe.handedOver.trans (((carried_take taken).append_left _).append_right _)
  rw [advance] at done
  split at done
  · rename_i empty
    cases done
    constructor
    · exact fun popping => safe.popFinds (others_popping taken popping)
    · simpa [carried] using placed
    · exact fun _ => empty
  · rename_i something
    cases done
    constructor
    · exact fun _ => something
    · simpa [carried] using placed
    · simp

theorem putPackage_safe {package : Package} (safe : session.Safe)
    (taken : InFlight.take session.serving index = some (.putPackage package, others))
    (done : session.advance others (.putPackage package) = .ok next) : next.Safe := by
  have placed := safe.handedOver.trans (((carried_take taken).append_left _).append_right _)
  cases done
  constructor
  · intro popping
    exact safe.popFinds (others_popping taken (by simpa using popping))
  · simpa [carried] using placed
  · simp

theorem popPackage_exactly (safe : session.Safe)
    (taken : InFlight.take session.serving index = some (.popPackage, others))
    (done : session.advance others .popPackage = .ok next) :
    next.Safe ↔ (.popPackage ∈ others → 2 ≤ session.packageStorage.length) := by
  have placed := safe.handedOver.trans (((carried_take taken).append_left _).append_right _)
  cases stored : session.packageStorage with
  | nil => simp [advance, stored] at done
  | cons package packageStorage =>
      simp only [advance, stored, Except.ok.injEq] at done
      subst done
      rw [stored] at placed
      have popsLater : .popPackage ∈ others ++ [.putPackage package] ↔ .popPackage ∈ others := by
        simp
      constructor
      · intro after popping
        have left := after.popFinds (popsLater.mpr popping)
        have some_left := List.length_pos_iff.mpr left
        rw [List.length_cons]
        simp only at some_left
        omega
      · intro two
        constructor
        · intro popping
          have enough := two (popsLater.mp popping)
          rw [List.length_cons] at enough
          exact List.length_pos_iff.mp (by simp only; omega)
        · simpa [carried] using placed
        · simp

theorem step_exactly {threads : Nat} {event : Event} (safe : session.Safe)
    (taken : session.step threads event = .ok next) : next.Safe ↔ session.LeavesOne event := by
  cases event with
  | completion packages =>
      refine ⟨fun _ => trivial, fun _ => ?_⟩
      simp only [step, completion] at taken
      split at taken
      · cases taken
        constructor
        · intro popping
          exact safe.popFinds (by simpa using popping)
        · simpa [carried] using safe.handedOver
        · simp
      · simp at taken
  | advance index =>
      simp only [step] at taken
      split at taken
      · simp at taken
      · rename_i phase others holding
        have quiet (different : phase ≠ .popPackage) : session.LeavesOne (.advance index) := by
          intro same again
          rw [holding, Option.some.injEq, Prod.mk.injEq] at again
          exact absurd again.1 different
        cases phase with
        | onRecv packages =>
            refine ⟨fun _ => quiet (by simp), fun _ => ?_⟩
            cases packages with
            | nil => exact recvStandBy_safe safe holding taken
            | cons package packages => exact onRecv_safe safe holding taken
        | isEmpty => exact ⟨fun _ => quiet (by simp), fun _ => isEmpty_safe safe holding taken⟩
        | putPackage package =>
            exact ⟨fun _ => quiet (by simp), fun _ => putPackage_safe safe holding taken⟩
        | popPackage =>
            rw [popPackage_exactly safe holding taken]
            constructor
            · intro enough same again
              rw [holding, Option.some.injEq, Prod.mk.injEq] at again
              rw [← again.2]
              exact enough
            · exact fun leaves => leaves others holding

end

theorem safe_no_fault {threads : Nat} {session : HandOff} {event : Event} (safe : session.Safe) :
    session.step threads event ≠ .error .outOfBounds := by
  intro stopped
  cases event with
  | completion packages =>
      simp only [step, completion] at stopped
      split at stopped <;> simp at stopped
  | advance index =>
      simp only [step] at stopped
      split at stopped
      · simp at stopped
      · rename_i phase others holding
        rw [advance.eq_def] at stopped
        split at stopped
        · simp at stopped
        · simp at stopped
        · split at stopped <;> simp at stopped
        · split at stopped
          · rename_i nothing
            exact safe.popFinds (InFlight.take_mem holding) nothing
          · simp at stopped
        · simp at stopped

theorem run_no_fault {threads : Nat} {session : HandOff} {events : List Event}
    (always : Runs.Always (step threads) Safe session events) :
    Runs.run (step threads) session events ≠ .error .outOfBounds := by
  induction events generalizing session with
  | nil => simp
  | cons event events ih =>
      rw [Runs.run_cons]
      cases taken : session.step threads event with
      | ok next => exact ih (always.2 next taken)
      | error reason =>
          intro stopped
          cases stopped
          exact safe_no_fault always.1 taken

/-- In all states of a run every thread that is about to pop finds a package,
exactly when no thread pops the last one while another is about to pop. The
other parts of `Safe` hold in any case. -/
theorem safe_iff (threads : Nat) (events : List Event) :
    Runs.Always (step threads) Safe initial events ↔
      Runs.Throughout (step threads) LeavesOne initial events := by
  refine Runs.always_iff_throughout (fun _ _ _ _ _ _ => trivial) ?_ (fun _ _ => trivial) trivial
    initial_safe
  intro session event next _ _ safe taken
  exact step_exactly safe taken

/-- Two threads find the storage not empty, and there is one package. -/
def twoFind : List Event :=
  let package : Package := { session_ := 16, packet_ := .PK_C_NOTIFY_HEARTBEAT }
  [.completion [package], .advance 0, .advance 0, .completion [], .advance 1, .advance 0,
    .advance 0, .advance 0]

theorem safe_two_threads :
    ¬ Runs.Always (step 2) Safe initial twoFind ∧
      Runs.run (step 2) initial (twoFind ++ [.advance 0]) = .error .outOfBounds := by
  refine ⟨?_, rfl⟩
  intro always
  let view (session : HandOff) :=
    (decide (.popPackage ∈ session.serving), session.packageStorage)
  have computed : (Runs.run (step 2) initial twoFind).toOption.map view = some (true, []) := by
    decide
  obtain ⟨finish, reached, seen⟩ := Runs.run_view computed
  obtain ⟨popping, nothing⟩ := Prod.mk.inj seen
  exact (always.finish reached).popFinds (of_decide_eq_true popping) nothing

/-! A single thread. -/

theorem serving_le {threads : Nat} {session next : HandOff} {event : Event}
    (few : session.serving.length ≤ threads) (taken : session.step threads event = .ok next) :
    next.serving.length ≤ threads := by
  cases event with
  | completion packages =>
      simp only [step, completion] at taken
      split at taken
      · rename_i free
        cases taken
        rw [List.length_append, List.length_singleton]
        exact free.2
      · simp at taken
  | advance index =>
      simp only [step] at taken
      split at taken
      · simp at taken
      · rename_i phase others holding
        have count := (InFlight.take_perm holding).length_eq
        rw [List.length_cons] at count
        have room : others.length + 1 ≤ threads := by omega
        rw [advance.eq_def] at taken
        split at taken
        · cases taken
          simpa using room
        · cases taken
          simpa using room
        · split at taken
          · cases taken
            exact Nat.le_of_succ_le room
          · cases taken
            simpa using room
        · split at taken
          · simp at taken
          · cases taken
            simpa using room
        · cases taken
          simpa using room

theorem one_thread_safe (events : List Event) : Runs.Always (step 1) Safe initial events := by
  have preserved : ∀ (session : HandOff) (event : Event) (next : HandOff),
      session.Safe ∧ session.serving.length ≤ 1 →
      session.step 1 event = .ok next → next.Safe ∧ next.serving.length ≤ 1 := by
    rintro session event next ⟨safe, few⟩ taken
    refine ⟨(step_exactly safe taken).mpr ?_, serving_le few taken⟩
    cases event with
    | completion packages => trivial
    | advance index =>
        intro others holding popping
        have count := (InFlight.take_perm holding).length_eq
        have some_other := List.length_pos_of_mem popping
        rw [List.length_cons] at count
        omega
  exact Runs.always_of_invariant preserved (fun _ kept => kept.1) events
    ⟨initial_safe, Nat.zero_le _⟩

/-! The order of the packages. -/

def receiving (serving : List Phase) : List Package :=
  serving.flatMap fun
    | .onRecv packages => packages
    | _ => []

def inOnRecv : Phase → Bool
  | .onRecv _ => true
  | _ => false

@[simp] theorem receiving_append (first second : List Phase) :
    receiving (first ++ second) = receiving first ++ receiving second := by
  simp [receiving]

@[simp] theorem carried_onRecv (packages : List Package) : carried [.onRecv packages] = [] := rfl

@[simp] theorem carried_isEmpty : carried [.isEmpty] = [] := rfl

@[simp] theorem carried_popPackage : carried [.popPackage] = [] := rfl

@[simp] theorem carried_putPackage (package : Package) :
    carried [.putPackage package] = [package] := rfl

@[simp] theorem receiving_onRecv (packages : List Package) :
    receiving [.onRecv packages] = packages := by
  simp [receiving]

@[simp] theorem receiving_isEmpty : receiving [.isEmpty] = [] := rfl

@[simp] theorem receiving_popPackage : receiving [.popPackage] = [] := rfl

@[simp] theorem receiving_putPackage (package : Package) :
    receiving [.putPackage package] = [] := rfl

def packages (session : HandOff) : List Package :=
  session.packageQueue_.items ++ carried session.serving ++ session.packageStorage ++
    receiving session.serving

/-- The threads put packages on the queue in the order in which they popped them. -/
def PutsFirst (session : HandOff) : Event → Prop
  | .advance index =>
      carried session.serving[index]?.toList ≠ [] → carried (session.serving.take index) = []
  | .completion _ => True

instance (session : HandOff) : (event : Event) → Decidable (session.PutsFirst event)
  | .advance _ => inferInstanceAs (Decidable (_ ≠ _ → _))
  | .completion _ => inferInstanceAs (Decidable True)

/-- While a thread is in `onRecv` no receive is posted. -/
def Single (session : HandOff) : Prop :=
  session.serving.countP inOnRecv = if session.posted then 0 else 1

theorem initial_single : initial.Single := rfl

theorem receiving_none {serving : List Phase} (nobody : serving.countP inOnRecv = 0) :
    receiving serving = [] := by
  rw [receiving, List.flatMap_eq_nil_iff]
  intro phase member
  have outside := List.countP_eq_zero.mp nobody phase member
  cases phase with
  | onRecv packages => exact absurd rfl outside
  | isEmpty => rfl
  | popPackage => rfl
  | putPackage package => rfl

theorem completion_order {threads : Nat} {session next : HandOff} {packages : List Package}
    (single : session.Single) (done : session.completion threads packages = .ok next) :
    next.Single ∧ next.packages = session.packages ++ packages ∧
      next.packageQueue_ = session.packageQueue_ := by
  rw [completion] at done
  split at done
  · rename_i free
    cases done
    rw [Single, if_pos free.1] at single
    refine ⟨?_, ?_, rfl⟩
    · simp [Single, inOnRecv, List.countP_append, single]
    · simp [HandOff.packages]
  · cases done

theorem advance_order {session next : HandOff} {index : Nat} {phase : Phase}
    {others : List Phase} (single : session.Single) (first : session.PutsFirst (.advance index))
    (taken : InFlight.take session.serving index = some (phase, others))
    (done : session.advance others phase = .ok next) :
    next.Single ∧ next.packages = session.packages ∧
      next.packageQueue_.items = session.packageQueue_.items ++ carried [phase] := by
  obtain ⟨serving, left⟩ := InFlight.take_split taken
  have count := InFlight.countP_take inOnRecv taken
  rw [single] at count
  have inFront (carries : carried [phase] ≠ []) : carried (session.serving.take index) = [] := by
    apply first
    rw [InFlight.take_getElem? taken]
    exact carries
  generalize session.serving.take index = before at serving left inFront
  generalize session.serving.drop (index + 1) = behind at serving left
  have carries : carried session.serving = carried before ++ carried [phase] ++ carried behind := by
    rw [serving, ← List.singleton_append, carried_append, carried_append, List.append_assoc]
  have receives : receiving session.serving =
      receiving before ++ receiving [phase] ++ receiving behind := by
    rw [serving, ← List.singleton_append, receiving_append, receiving_append, List.append_assoc]
  cases phase with
  | onRecv packages =>
      -- the one thread in `onRecv`, so that no other has packages to store
      have alone : session.posted = false ∧ others.countP inOnRecv = 0 := by
        cases posted : session.posted <;> simp [posted, inOnRecv] at count ⊢
        exact count
      have quiet := receiving_none alone.2
      rw [left, receiving_append, List.append_eq_nil_iff] at quiet
      cases packages with
      | nil =>
          cases done
          refine ⟨?_, ?_, by simp⟩
          · simp [Single, inOnRecv, List.countP_append, alone.2]
          · simp [HandOff.packages, carries, receives, left]
      | cons package packages =>
          cases done
          refine ⟨?_, ?_, by simp⟩
          · simp [Single, inOnRecv, List.countP_append, alone]
          · simp [HandOff.packages, carries, receives, left, quiet]
  | isEmpty =>
      rw [advance] at done
      split at done
      · cases done
        refine ⟨?_, ?_, by simp⟩
        · simpa [Single, inOnRecv] using count.symm
        · simp [HandOff.packages, carries, receives, left]
      · cases done
        refine ⟨?_, ?_, by simp⟩
        · simpa [Single, inOnRecv, List.countP_append] using count.symm
        · simp [HandOff.packages, carries, receives, left]
  | popPackage =>
      rw [advance] at done
      split at done
      · cases done
      · rename_i package packageStorage stored
        cases done
        refine ⟨?_, ?_, by simp⟩
        · simpa [Single, inOnRecv, List.countP_append] using count.symm
        · simp [HandOff.packages, carries, receives, left, stored]
  | putPackage package =>
      cases done
      refine ⟨?_, ?_, ?_⟩
      · simpa [Single, inOnRecv, List.countP_append] using count.symm
      · simp [HandOff.packages, carries, receives, left, inFront (by simp)]
      · simp

end HandOff

end GraduationServer
