import GraduationServer.ContentsProcess
import GraduationServer.Library.InFlight
import GraduationServer.Library.Runs

/-!
Several content threads on one `packageQueue_`. A thread pops a package and
later runs it; in between it holds the package, and another thread may pop and
run the next one. Packages of one session then take effect out of order.
-/

namespace GraduationServer

/-- A package with its place in the order of all packages put on the queue. -/
structure Job where
  number : Nat
  package : Package
  deriving DecidableEq

/-- `hands` are the packages that threads have popped and not run to the end.
`put` and `effects` record the packages put on the queue and those whose
handlers have run. -/
structure Workers (Process : Type) where
  manager : SessionManager
  process : Process
  packageQueue_ : ThreadJobQueue Job
  hands : List Job
  sent : List (Receiver × Packet)
  put : List Job
  effects : List Job

namespace Workers

variable {Process : Type}

inductive Event where
  | accept (session : SessionPtr) (addrInfo_ : Nat)
  | disconnected (session : SessionPtr)
  | putPackage (package : Package)
  | pop
  | run (index : Nat)

def initial (maxConnection : Int) (process : Process) : Workers Process :=
  { manager := SessionManager.init maxConnection
    process := process
    packageQueue_ := ThreadJobQueue.empty
    hands := []
    sent := []
    put := []
    effects := [] }

def putPackage (workers : Workers Process) (package : Package) : Workers Process :=
  let job : Job := { number := workers.put.length, package }
  { workers with
    packageQueue_ := workers.packageQueue_.push job
    put := workers.put ++ [job] }

def pop (processCount : Nat) (workers : Workers Process) : Exec (Workers Process) :=
  if workers.hands.length < processCount then
    match workers.packageQueue_.pop with
    | none => .ok workers
    | some (job, packageQueue_) =>
        .ok { workers with packageQueue_, hands := workers.hands ++ [job] }
  else .error .notEnabled

def run (table : RunFuncTable Process) (workers : Workers Process) (index : Nat) :
    Exec (Workers Process) :=
  match InFlight.take workers.hands index with
  | none => .error .notEnabled
  | some (job, hands) => do
      let outcome ← ContentsProcess.run table workers.process workers.manager job.package
      return { workers with
        manager := outcome.manager
        process := outcome.process
        hands
        sent := workers.sent ++ outcome.sent
        effects := workers.effects ++ [job] }

def step (table : RunFuncTable Process) (processCount : Nat) (workers : Workers Process) :
    Event → Exec (Workers Process)
  | .accept session addrInfo_ => do
      return { workers with manager := ← workers.manager.accept session addrInfo_ }
  | .disconnected session =>
      if workers.manager.registered session then
        .ok { workers with manager := workers.manager.closeSession session }
      else .error .notEnabled
  | .putPackage package => .ok (workers.putPackage package)
  | .pop => workers.pop processCount
  | .run index => workers.run table index

def ofSession (session : SessionPtr) (jobs : List Job) : List Job :=
  jobs.filter fun job => job.package.session_ = session

/-- Of each session, the packages that have taken effect are the first ones
put on the queue, in that order. -/
def InOrder (workers : Workers Process) : Prop :=
  ∀ session, ofSession session workers.effects <+: ofSession session workers.put

/-- A package is run while no thread holds an earlier one of the same session. -/
def RunsFirst (workers : Workers Process) : Event → Prop
  | .run index => ∀ job rest, InFlight.take workers.hands index = some (job, rest) →
      ∀ other ∈ rest, other.package.session_ = job.package.session_ → job.number < other.number
  | _ => True

/-! Every package put is in the queue, in a hand, or has been run. -/

structure Accounted (workers : Workers Process) : Prop where
  numbered : workers.put.map Job.number = List.range workers.put.length
  shared : ∃ popped, workers.put = popped ++ workers.packageQueue_.items ∧
    popped.Perm (workers.effects ++ workers.hands)

theorem initial_accounted (maxConnection : Int) (process : Process) :
    (initial maxConnection process).Accounted :=
  ⟨rfl, [], rfl, List.Perm.refl _⟩

theorem pop_cases {processCount : Nat} {workers next : Workers Process}
    (popped : workers.pop processCount = .ok next) :
    next = workers ∨ ∃ job packageQueue_, workers.hands.length < processCount ∧
      workers.packageQueue_.items = job :: packageQueue_.items ∧
      next = { workers with packageQueue_, hands := workers.hands ++ [job] } := by
  rw [pop] at popped
  split at popped
  · rename_i idle
    split at popped
    · cases popped
      exact Or.inl rfl
    · rename_i job packageQueue_ taken
      cases popped
      exact Or.inr ⟨job, packageQueue_, idle, ThreadJobQueue.pop_some taken, rfl⟩
  · simp at popped

theorem run_cases {table : RunFuncTable Process} {workers next : Workers Process} {index : Nat}
    (ran : workers.run table index = .ok next) :
    ∃ job hands, InFlight.take workers.hands index = some (job, hands) ∧ next.hands = hands ∧
      next.packageQueue_ = workers.packageQueue_ ∧ next.put = workers.put ∧
      next.effects = workers.effects ++ [job] := by
  rw [run] at ran
  split at ran
  · simp at ran
  · rename_i job hands taken
    obtain ⟨outcome, -, ran⟩ := Exec.bind_ok ran
    cases ran
    exact ⟨job, hands, taken, rfl, rfl, rfl, rfl⟩

theorem step_accounted {table : RunFuncTable Process} {processCount : Nat}
    {workers next : Workers Process} {event : Event} (accounted : workers.Accounted)
    (taken : workers.step table processCount event = .ok next) : next.Accounted := by
  obtain ⟨numbered, popped, parts, shared⟩ := accounted
  cases event with
  | accept session addrInfo_ =>
      obtain ⟨manager, -, taken⟩ := Exec.bind_ok taken
      cases taken
      exact ⟨numbered, popped, parts, shared⟩
  | disconnected session =>
      simp only [step] at taken
      split at taken
      · cases taken
        exact ⟨numbered, popped, parts, shared⟩
      · simp at taken
  | putPackage package =>
      cases taken
      refine ⟨?_, popped, ?_, shared⟩
      · simp [putPackage, numbered, List.range_succ]
      · simp [putPackage, parts]
  | pop =>
      rcases pop_cases taken with rfl | ⟨job, packageQueue_, -, items, rfl⟩
      · exact ⟨numbered, popped, parts, shared⟩
      · refine ⟨numbered, popped ++ [job], ?_, ?_⟩
        · simp [parts, items]
        · rw [← List.append_assoc]
          exact shared.append_right _
  | run index =>
      obtain ⟨job, hands, holding, left, queue, put, effects⟩ := run_cases taken
      refine ⟨by rw [put, numbered], popped, by rw [put, queue, parts], ?_⟩
      rw [effects, left, List.append_assoc]
      exact shared.trans ((InFlight.take_perm holding).append_left _)

theorem prefix_concat_iff {jobs done : List Job} {job : Job}
    (sorted : jobs.Pairwise fun first second => first.number < second.number)
    (start : done <+: jobs) (member : job ∈ jobs) (waits : job ∉ done) :
    done ++ [job] <+: jobs ↔ ∀ other ∈ jobs, other ∉ done → other ≠ job →
      job.number < other.number := by
  obtain ⟨rest, rfl⟩ := start
  rw [List.prefix_append_right_inj]
  have sortedRest := (List.pairwise_append.mp sorted).2.1
  have inRest : job ∈ rest := (List.mem_append.mp member).resolve_left waits
  cases rest with
  | nil => simp at inRest
  | cons first rest =>
      rw [List.pairwise_cons] at sortedRest
      have sortedAll := (List.pairwise_append.mp sorted).2.2
      constructor
      · rintro ⟨tail, same⟩ other here new different
        cases same
        rcases List.mem_append.mp here with old | later
        · exact absurd old new
        · exact sortedRest.1 other ((List.mem_cons.mp later).resolve_left different)
      · intro least
        by_cases same : first = job
        · exact same ▸ ⟨rest, rfl⟩
        · have later : job ∈ rest := (List.mem_cons.mp inRest).resolve_left (Ne.symm same)
          have new : first ∉ done := by
            intro old
            exact Nat.lt_irrefl _ (sortedAll first old first List.mem_cons_self)
          have less := least first (by simp) new same
          exact absurd (sortedRest.1 job later) (Nat.lt_asymm less)

theorem put_sorted {workers : Workers Process} (accounted : workers.Accounted) :
    workers.put.Pairwise fun first second => first.number < second.number := by
  have sorted := List.pairwise_lt_range (n := workers.put.length)
  rw [← accounted.numbered, List.pairwise_map] at sorted
  exact sorted

theorem mem_ofSession {session : SessionPtr} {jobs : List Job} {job : Job} :
    job ∈ ofSession session jobs ↔ job ∈ jobs ∧ job.package.session_ = session := by
  simp [ofSession]

theorem shared_out {workers : Workers Process} (accounted : workers.Accounted) {index : Nat}
    {job : Job} {hands : List Job}
    (holding : InFlight.take workers.hands index = some (job, hands)) :
    workers.put.Perm (workers.effects ++ job :: hands ++ workers.packageQueue_.items) := by
  obtain ⟨popped, parts, shared⟩ := accounted.shared
  rw [parts]
  exact (shared.trans ((InFlight.take_perm holding).append_left _)).append_right _

theorem put_distinct {workers : Workers Process} (accounted : workers.Accounted) :
    workers.put.Nodup := by
  refine (put_sorted accounted).imp ?_
  rintro first second less rfl
  exact Nat.lt_irrefl _ less

theorem waiting_cases {workers : Workers Process} (accounted : workers.Accounted) {index : Nat}
    {job : Job} {hands : List Job} (holding : InFlight.take workers.hands index = some (job, hands))
    {other : Job} : other ∈ workers.put ∧ other ∉ workers.effects ∧ other ≠ job ↔
      other ∈ hands ∨ other ∈ workers.packageQueue_.items := by
  have moved := shared_out accounted holding
  have once := moved.nodup_iff.mp (put_distinct accounted)
  rw [List.append_assoc, List.cons_append, List.nodup_append', List.nodup_cons,
    List.mem_append] at once
  obtain ⟨-, ⟨single, -⟩, separate⟩ := once
  rw [moved.mem_iff, List.mem_append, List.mem_append, List.mem_cons]
  constructor
  · rintro ⟨(done | rfl | held) | queued, waits, different⟩
    · exact absurd done waits
    · exact absurd rfl different
    · exact Or.inl held
    · exact Or.inr queued
  · intro later
    refine ⟨later.imp_left fun held => Or.inr (Or.inr held), ?_, ?_⟩
    · intro done
      exact separate done (List.mem_cons_of_mem _ (List.mem_append.mpr later))
    · rintro rfl
      exact single later

theorem held_waits {workers : Workers Process} (accounted : workers.Accounted) {index : Nat}
    {job : Job} {hands : List Job}
    (holding : InFlight.take workers.hands index = some (job, hands)) :
    job ∈ workers.put ∧ job ∉ workers.effects := by
  have moved := shared_out accounted holding
  have once := moved.nodup_iff.mp (put_distinct accounted)
  rw [List.append_assoc, List.cons_append, List.nodup_append'] at once
  exact ⟨moved.mem_iff.mpr (by simp), fun done => once.2.2 done List.mem_cons_self⟩

theorem queued_later {workers : Workers Process} (accounted : workers.Accounted) {index : Nat}
    {job other : Job} {hands : List Job}
    (holding : InFlight.take workers.hands index = some (job, hands))
    (queued : other ∈ workers.packageQueue_.items) : job.number < other.number := by
  have sorted := put_sorted accounted
  obtain ⟨popped, parts, shared⟩ := accounted.shared
  rw [parts, List.pairwise_append] at sorted
  have held : job ∈ popped := by
    rw [shared.mem_iff]
    exact List.mem_append_right _ (InFlight.take_mem holding)
  exact sorted.2.2 job held other queued

theorem run_exactly {table : RunFuncTable Process} {workers next : Workers Process} {index : Nat}
    (accounted : workers.Accounted) (ordered : workers.InOrder)
    (ran : workers.run table index = .ok next) :
    next.InOrder ↔ workers.RunsFirst (.run index) := by
  obtain ⟨job, hands, holding, -, -, put, effects⟩ := run_cases ran
  have waiting (other : Job) : other ∈ workers.put ∧ other ∉ workers.effects ∧ other ≠ job ↔
      other ∈ hands ∨ other ∈ workers.packageQueue_.items := waiting_cases accounted holding
  obtain ⟨put_before, new⟩ := held_waits accounted holding
  have member : job ∈ ofSession job.package.session_ workers.put :=
    mem_ofSession.mpr ⟨put_before, rfl⟩
  have waits : job ∉ ofSession job.package.session_ workers.effects :=
    fun done => new (mem_ofSession.mp done).1
  have sorted : (ofSession job.package.session_ workers.put).Pairwise
      fun first second => first.number < second.number := (put_sorted accounted).filter _
  have here := prefix_concat_iff sorted (ordered job.package.session_) member waits
  have others : ∀ session, session ≠ job.package.session_ →
      ofSession session next.effects = ofSession session workers.effects := by
    intro session different
    simp [ofSession, effects, Ne.symm different]
  have mine : ofSession job.package.session_ next.effects =
      ofSession job.package.session_ workers.effects ++ [job] := by
    simp [ofSession, effects]
  constructor
  · intro after same rest again other held alike
    rw [holding, Option.some.injEq, Prod.mk.injEq] at again
    obtain ⟨rfl, rfl⟩ := again
    have started := after job.package.session_
    rw [mine, put, here] at started
    obtain ⟨known, new, different⟩ := (waiting other).mpr (Or.inl held)
    refine started other (mem_ofSession.mpr ⟨known, alike⟩) ?_ different
    exact fun done => new (mem_ofSession.mp done).1
  · intro first session
    by_cases same : session = job.package.session_
    · rw [same, mine, put, here]
      intro other known new different
      obtain ⟨known, alike⟩ := mem_ofSession.mp known
      have unfinished : other ∉ workers.effects :=
        fun done => new (mem_ofSession.mpr ⟨done, alike⟩)
      rcases (waiting other).mp ⟨known, unfinished, different⟩ with held | queued
      · exact first job hands holding other held alike
      · exact queued_later accounted holding queued
    · rw [others session same, put]
      exact ordered session

theorem step_exactly {table : RunFuncTable Process} {processCount : Nat}
    {workers next : Workers Process} {event : Event} (accounted : workers.Accounted)
    (ordered : workers.InOrder) (taken : workers.step table processCount event = .ok next) :
    next.InOrder ↔ workers.RunsFirst event := by
  cases event with
  | run index => exact run_exactly accounted ordered taken
  | accept session addrInfo_ =>
      obtain ⟨manager, -, taken⟩ := Exec.bind_ok taken
      cases taken
      exact ⟨fun _ => trivial, fun _ => ordered⟩
  | disconnected session =>
      simp only [step] at taken
      split at taken
      · cases taken
        exact ⟨fun _ => trivial, fun _ => ordered⟩
      · simp at taken
  | putPackage package =>
      cases taken
      refine ⟨fun _ => trivial, fun _ session => ?_⟩
      have more :
          ofSession session workers.put <+: ofSession session (workers.putPackage package).put := by
        rw [putPackage, ofSession, ofSession, List.filter_append]
        exact List.prefix_append _ _
      exact (ordered session).trans more
  | pop =>
      refine ⟨fun _ => trivial, fun _ => ?_⟩
      rcases pop_cases taken with rfl | ⟨job, packageQueue_, -, -, rfl⟩
      · exact ordered
      · exact ordered

/-- The packages of each session take effect in the order in which they were
put, in all states of a run, exactly when each is run while no thread holds an
earlier one of its session. -/
theorem in_order_iff (table : RunFuncTable Process) (processCount : Nat) (maxConnection : Int)
    (process : Process) (events : List Event) :
    Runs.Always (step table processCount) InOrder (initial maxConnection process) events ↔
      Runs.Throughout (step table processCount) RunsFirst (initial maxConnection process)
        events := by
  refine Runs.always_iff_throughout ?_ ?_ (fun _ _ => trivial)
    (initial_accounted maxConnection process) (fun _ => List.prefix_refl _)
  · intro workers event next _ accounted taken
    exact step_accounted accounted taken
  · intro workers event next _ accounted ordered taken
    exact step_exactly accounted ordered taken

/-- Two threads pop the two packages of a session, and the second is first to
run its handler. -/
theorem in_order_two_threads :
    ¬ ∀ events : List Event,
      Runs.Always (step ContentsProcess.registDefaultPacketFunc 2) InOrder
        (initial SESSION_CAPACITY ()) events := by
  intro every
  let heartBeat : Package := { session_ := 16, packet_ := .PK_C_NOTIFY_HEARTBEAT }
  let events : List Event := [.accept 16 1, .putPackage heartBeat, .putPackage heartBeat, .pop,
    .pop, .run 1, .run 0]
  let numbers (workers : Workers Unit) :=
    ((ofSession 16 workers.effects).map Job.number, (ofSession 16 workers.put).map Job.number)
  have computed : (Runs.run (step ContentsProcess.registDefaultPacketFunc 2)
      (initial SESSION_CAPACITY ()) events).toOption.map numbers = some ([1, 0], [0, 1]) := by
    decide
  obtain ⟨finish, reached, view⟩ := Runs.run_view computed
  obtain ⟨ran, put⟩ := Prod.mk.inj view
  have started := ((every events).finish reached 16).map Job.number
  rw [ran, put] at started
  exact absurd started (by decide)

/-! A single thread. -/

theorem hands_le {table : RunFuncTable Process} {processCount : Nat}
    {workers next : Workers Process} {event : Event} (few : workers.hands.length ≤ processCount)
    (taken : workers.step table processCount event = .ok next) :
    next.hands.length ≤ processCount := by
  cases event with
  | accept session addrInfo_ =>
      obtain ⟨manager, -, taken⟩ := Exec.bind_ok taken
      cases taken
      exact few
  | disconnected session =>
      simp only [step] at taken
      split at taken
      · cases taken
        exact few
      · simp at taken
  | putPackage package =>
      cases taken
      exact few
  | pop =>
      rcases pop_cases taken with rfl | ⟨job, packageQueue_, idle, -, rfl⟩
      · exact few
      · rw [List.length_append, List.length_singleton]
        exact idle
  | run index =>
      obtain ⟨job, hands, holding, left, -⟩ := run_cases taken
      have count := (InFlight.take_perm holding).length_eq
      rw [List.length_cons] at count
      rw [left]
      omega

structure SingleThread (workers : Workers Process) : Prop where
  accounted : workers.Accounted
  ordered : workers.InOrder
  few : workers.hands.length ≤ 1

theorem step_singleThread {table : RunFuncTable Process} {workers next : Workers Process}
    {event : Event} (single : workers.SingleThread) (taken : workers.step table 1 event = .ok next) :
    next.SingleThread := by
  refine ⟨step_accounted single.accounted taken, ?_, hands_le single.few taken⟩
  refine (step_exactly single.accounted single.ordered taken).mpr ?_
  cases event with
  | run index =>
      intro job rest holding other held
      have count := (InFlight.take_perm holding).length_eq
      have some_other := List.length_pos_of_mem held
      have few := single.few
      rw [List.length_cons] at count
      omega
  | _ => trivial

theorem one_thread_in_order (table : RunFuncTable Process) (maxConnection : Int)
    (process : Process) (events : List Event) :
    Runs.Always (step table 1) InOrder (initial maxConnection process) events := by
  refine Runs.always_of_invariant (fun _ _ _ => step_singleThread)
    (fun _ single => single.ordered) events ?_
  exact ⟨initial_accounted maxConnection process, fun _ => List.prefix_refl _, Nat.zero_le _⟩

end Workers

end GraduationServer
