import GraduationServer.LobbyLiveness

/-!
The users of the chat over whole runs. The chat server has a `C_REQ_EXIT` of its
own, but the default one was in the table before it and is the one that runs.
-/

namespace GraduationServer

namespace ChattingServer

section

variable {codePage : CodePage} {inGameServer : Terminal} {process : Process}
variable {manager : SessionManager} {package : Package} {outcome : Outcome Process}

theorem exit_table :
    registSubPacketFunc codePage inGameServer .E_C_REQ_EXIT = some .C_REQ_EXIT :=
  rfl

theorem run_exit (exits : package.packet_ = .PK_C_REQ_EXIT)
    (ran : ContentsProcess.run (registSubPacketFunc codePage inGameServer) process manager package =
      .ok outcome) :
    (∃ object, manager.deref package.session_ = .ok object) ∧
      outcome = { manager := manager.closeSession package.session_, process, sent := [] } := by
  simp only [ContentsProcess.run, exits, Packet.type, exit_table] at ran
  obtain ⟨object, used, ran⟩ := Exec.bind_ok ran
  cases ran
  exact ⟨⟨object, used⟩, rfl⟩

inductive UsersAfter (codePage : CodePage) (process : Process) (manager : SessionManager)
    (package : Package) (after : StdMap.Map oid_t User) : Prop
  | added {name_ : Str} {object : Session} {userName : WStr} :
      package.packet_ = .PK_C_REQ_REGIST_CHATTING_NAME name_ →
      manager.deref package.session_ = .ok object →
      process.userPool_ object.id_ = none →
      StrConvA2W codePage (Stream.cString name_) = .ok userName →
      after = StdMap.insert process.userPool_ object.id_
        { session_ := package.session_, name_ := userName } →
      UsersAfter codePage process manager package after
  | same : after = process.userPool_ →
      (∀ name_, package.packet_ = .PK_C_REQ_REGIST_CHATTING_NAME name_ →
        ∃ object, manager.deref package.session_ = .ok object ∧
          (process.userPool_ object.id_).isSome = true) →
      UsersAfter codePage process manager package after

theorem regist_users {name_ : Str}
    (asks : package.packet_ = .PK_C_REQ_REGIST_CHATTING_NAME name_)
    (ran : ContentsProcess.run (registSubPacketFunc codePage inGameServer) process manager package =
      .ok outcome) :
    UsersAfter codePage process manager package outcome.process.userPool_ := by
  obtain ⟨session, packet_⟩ := package
  obtain rfl : packet_ = .PK_C_REQ_REGIST_CHATTING_NAME name_ := asks
  have found : registSubPacketFunc codePage inGameServer .E_C_REQ_REGIST_CHATTING_NAME =
      some (.sub (subFunc codePage inGameServer)) := rfl
  simp only [ContentsProcess.run, Packet.type, found] at ran
  obtain ⟨refused, decided, ran⟩ := Exec.bind_ok ran
  obtain ⟨object, used, decided⟩ := Exec.bind_ok decided
  cases decided
  split at ran
  · rename_i present
    cases ran
    exact .same rfl fun _ _ => ⟨object, used, present⟩
  · rename_i absent
    obtain ⟨⟨after, sent⟩, handled, ran⟩ := Exec.bind_ok ran
    cases ran
    obtain ⟨userPool_, done, handled⟩ := Exec.bind_ok handled
    cases handled
    obtain ⟨object', used', done⟩ := Exec.bind_ok done
    rw [used] at used'
    cases used'
    obtain ⟨userName, converted, done⟩ := Exec.bind_ok done
    cases done
    exact .added rfl used (by simpa using absent) converted rfl

theorem handle_users {session : SessionPtr} {packet : Packet} {after : Process}
    {sent : List (Receiver × Packet)}
    (notRegist : ∀ name_, packet ≠ .PK_C_REQ_REGIST_CHATTING_NAME name_)
    (notExit : packet ≠ .PK_C_REQ_EXIT)
    (handled : handle codePage inGameServer process manager session packet = .ok (after, sent)) :
    after.userPool_ = process.userPool_ := by
  cases packet with
  | PK_I_CHTTING_NOTIFY_ID =>
      cases handled
      rfl
  | PK_I_DB_ANS_PARSE_DATA =>
      cases handled
      rfl
  | PK_C_REQ_REGIST_CHATTING_NAME name_ => exact absurd rfl (notRegist name_)
  | PK_C_REQ_EXIT => exact absurd rfl notExit
  | PK_C_REQ_CHATTING =>
      obtain ⟨told, -, handled⟩ := Exec.bind_ok handled
      cases handled
      rfl
  | PK_C_REQ_LOBBY_INFO =>
      obtain ⟨⟨lobby, answers⟩, -, handled⟩ := Exec.bind_ok handled
      cases handled
      rfl
  | PK_C_REQ_ENTER_ROOM =>
      obtain ⟨⟨lobby, told⟩, -, handled⟩ := Exec.bind_ok handled
      cases handled
      rfl
  | PK_I_INITIALIZE_ROOMMEMBER =>
      obtain ⟨lobby, -, handled⟩ := Exec.bind_ok handled
      cases handled
      rfl
  | _ => cases handled

theorem run_users
    (ran : ContentsProcess.run (registSubPacketFunc codePage inGameServer) process manager package =
      .ok outcome) :
    UsersAfter codePage process manager package outcome.process.userPool_ := by
  by_cases exits : package.packet_ = .PK_C_REQ_EXIT
  · obtain ⟨-, rfl⟩ := run_exit exits ran
    exact .same rfl fun name_ asks => by simp [exits] at asks
  by_cases regists : ∃ name_, package.packet_ = .PK_C_REQ_REGIST_CHATTING_NAME name_
  · obtain ⟨name_, asks⟩ := regists
    exact regist_users asks ran
  · refine .same ?_ fun name_ asks => absurd ⟨name_, asks⟩ regists
    rcases ContentsProcess.run_process ran with unchanged | ⟨-, func, found, handled⟩
    · rw [unchanged]
    · rw [Host.table_sub found] at handled
      exact handle_users (fun name_ asks => regists ⟨name_, asks⟩) exits handled

theorem Host.step_process {host next : Host} {event : Host.Event}
    (notRun : ∀ package, event ≠ .run package)
    (taken : host.step codePage inGameServer event = .ok next) : next.process = host.process := by
  cases event with
  | run package => exact absurd rfl (notRun package)
  | accept session addrInfo_ =>
      obtain ⟨manager, -, taken⟩ := Exec.bind_ok taken
      cases taken
      rfl
  | disconnected session =>
      rw [step] at taken
      split at taken
      · cases taken
        rfl
      · cases taken

end

structure Exchange where
  id_ : Option oid_t
  package : Package
  sent : List (Receiver × Packet)

/-- The latest exchange comes first. The session with the id has registered a
name and has not asked to leave since. -/
def stays (id_ : oid_t) : List Exchange → Bool
  | [] => false
  | exchange :: earlier =>
      if exchange.id_ = some id_ then
        match exchange.package.packet_ with
        | .PK_C_REQ_REGIST_CHATTING_NAME _ => true
        | .PK_C_REQ_EXIT => false
        | _ => stays id_ earlier
      else stays id_ earlier

def answersExit (exchange : Exchange) : Prop :=
  exchange.sent.count (.session exchange.package.session_, .PK_S_ANS_EXIT) = 1

def Answered : List Exchange → Prop
  | [] => True
  | exchange :: earlier =>
      (exchange.package.packet_ = .PK_C_REQ_EXIT →
        ∀ id_, exchange.id_ = some id_ → stays id_ earlier = true → answersExit exchange) ∧
      Answered earlier

structure ChatLog where
  host : Host
  exchanges : List Exchange

namespace ChatLog

def initial (maxConnection : Int) (num : Int32) : ChatLog :=
  { host := Host.initial maxConnection num, exchanges := [] }

def exchangeOf (log : ChatLog) (package : Package) (outcome : Outcome Process) : Exchange :=
  { id_ := (log.host.manager.deref package.session_).toOption.map Session.id_
    package := package
    sent := outcome.sent }

def step (codePage : CodePage) (inGameServer : Terminal) (log : ChatLog) :
    Host.Event → Exec ChatLog
  | .run package => do
      let table := registSubPacketFunc codePage inGameServer
      let outcome ← ContentsProcess.run table log.host.process log.host.manager package
      return { host := { manager := outcome.manager, process := outcome.process }
               exchanges := log.exchangeOf package outcome :: log.exchanges }
  | event => do
      return { log with host := ← log.host.step codePage inGameServer event }

/-- Whoever has registered is a user until it leaves, and leaving is answered. -/
structure CleanedUp (log : ChatLog) : Prop where
  users : ∀ id_, (log.host.process.userPool_ id_).isSome = stays id_ log.exchanges
  answered : Answered log.exchanges

def NoUserExits (log : ChatLog) : Host.Event → Prop
  | .run package =>
      package.packet_ = .PK_C_REQ_EXIT → ∀ object,
        log.host.manager.deref package.session_ = .ok object →
          log.host.process.userPool_ object.id_ = none
  | _ => True

theorem step_host (codePage : CodePage) (inGameServer : Terminal) (log : ChatLog)
    (event : Host.Event) :
    (log.step codePage inGameServer event).map host =
      log.host.step codePage inGameServer event := by
  cases event with
  | run package =>
      simp only [step, Host.step]
      cases ContentsProcess.run (registSubPacketFunc codePage inGameServer) log.host.process
        log.host.manager package <;> rfl
  | accept session addrInfo_ =>
      simp only [step]
      cases log.host.step codePage inGameServer (.accept session addrInfo_) <;> rfl
  | disconnected session =>
      simp only [step]
      cases log.host.step codePage inGameServer (.disconnected session) <;> rfl

theorem initial_cleanedUp (maxConnection : Int) (num : Int32) :
    (initial maxConnection num).CleanedUp :=
  { users := fun _ => rfl, answered := trivial }

section

variable {codePage : CodePage} {inGameServer : Terminal} {log : ChatLog} {package : Package}
variable {outcome : Outcome Process}

theorem exchangeOf_id {object : Session}
    (used : log.host.manager.deref package.session_ = .ok object) :
    (log.exchangeOf package outcome).id_ = some object.id_ := by
  simp [exchangeOf, used, Except.toOption]

theorem stays_regist {name_ : Str} {object : Session} {id_ : oid_t}
    (asks : package.packet_ = .PK_C_REQ_REGIST_CHATTING_NAME name_)
    (used : log.host.manager.deref package.session_ = .ok object) :
    stays id_ (log.exchangeOf package outcome :: log.exchanges) =
      (decide (object.id_ = id_) || stays id_ log.exchanges) := by
  simp only [stays, exchangeOf_id used, Option.some.injEq]
  split_ifs with own
  · simp [exchangeOf, asks, own]
  · simp [own]

theorem stays_exit {object : Session} {id_ : oid_t} (exits : package.packet_ = .PK_C_REQ_EXIT)
    (used : log.host.manager.deref package.session_ = .ok object) :
    stays id_ (log.exchangeOf package outcome :: log.exchanges) =
      (decide (object.id_ ≠ id_) && stays id_ log.exchanges) := by
  simp only [stays, exchangeOf_id used, Option.some.injEq]
  split_ifs with own
  · simp [exchangeOf, exits, own]
  · simp [own]

theorem stays_other {id_ : oid_t} (notExit : package.packet_ ≠ .PK_C_REQ_EXIT)
    (notRegist : ∀ name_, package.packet_ ≠ .PK_C_REQ_REGIST_CHATTING_NAME name_) :
    stays id_ (log.exchangeOf package outcome :: log.exchanges) = stays id_ log.exchanges := by
  simp only [stays]
  split_ifs with own
  · split
    · rename_i name_ asks
      exact absurd asks (notRegist name_)
    · rename_i exits
      exact absurd exits notExit
    · rfl
  · rfl

theorem run_cleanedUp (cleanedUp : log.CleanedUp) (notExit : package.packet_ ≠ .PK_C_REQ_EXIT)
    (ran : ContentsProcess.run (registSubPacketFunc codePage inGameServer) log.host.process
      log.host.manager package = .ok outcome) :
    CleanedUp { host := { manager := outcome.manager, process := outcome.process }
                exchanges := log.exchangeOf package outcome :: log.exchanges } := by
  refine ⟨fun id_ => ?_, fun exits => absurd exits notExit, cleanedUp.answered⟩
  have before := cleanedUp.users id_
  cases run_users ran with
  | added asks used absent converted after =>
      rename_i name_ object userName
      rw [stays_regist asks used, ← before, after]
      by_cases own : object.id_ = id_
      · subst own
        simp [StdMap.insert_new _ absent]
      · simp [StdMap.insert_other (Ne.symm own), own]
  | same unchanged others =>
      rw [unchanged, before]
      by_cases regists : ∃ name_, package.packet_ = .PK_C_REQ_REGIST_CHATTING_NAME name_
      · obtain ⟨name_, asks⟩ := regists
        obtain ⟨object, used, present⟩ := others name_ asks
        rw [stays_regist asks used]
        by_cases own : object.id_ = id_
        · subst own
          simp [← before, present]
        · simp [own]
      · exact (stays_other notExit fun name_ asks => regists ⟨name_, asks⟩).symm

theorem exit_cleanedUp (cleanedUp : log.CleanedUp) (exits : package.packet_ = .PK_C_REQ_EXIT)
    (ran : ContentsProcess.run (registSubPacketFunc codePage inGameServer) log.host.process
      log.host.manager package = .ok outcome) :
    CleanedUp { host := { manager := outcome.manager, process := outcome.process }
                exchanges := log.exchangeOf package outcome :: log.exchanges } ↔
      log.NoUserExits (.run package) := by
  obtain ⟨⟨object, used⟩, rfl⟩ := run_exit exits ran
  constructor
  · intro after _ other used'
    rw [used] at used'
    cases used'
    have left := after.users object.id_
    rw [stays_exit exits used] at left
    simpa using left
  · intro noUser
    have absent := noUser exits object used
    have never : stays object.id_ log.exchanges = false := by
      rw [← cleanedUp.users, absent]
      rfl
    refine ⟨fun id_ => ?_, fun _ id_ own stayed => ?_, cleanedUp.answered⟩
    · rw [stays_exit exits used]
      by_cases own : object.id_ = id_
      · subst own
        simp [absent]
      · simpa [own] using cleanedUp.users id_
    · rw [exchangeOf_id used] at own
      cases own
      rw [never] at stayed
      contradiction

theorem CleanedUp.kept {host : Host} (cleanedUp : log.CleanedUp)
    (same : host.process = log.host.process) : CleanedUp { log with host } :=
  ⟨fun id_ => by rw [same]; exact cleanedUp.users id_, cleanedUp.answered⟩

theorem step_cleanedUp {next : ChatLog} {event : Host.Event} (cleanedUp : log.CleanedUp)
    (taken : log.step codePage inGameServer event = .ok next) :
    next.CleanedUp ↔ log.NoUserExits event := by
  cases event with
  | run package =>
      obtain ⟨outcome, ran, taken⟩ := Exec.bind_ok taken
      cases taken
      by_cases exits : package.packet_ = .PK_C_REQ_EXIT
      · exact exit_cleanedUp cleanedUp exits ran
      · exact ⟨fun _ asks => absurd asks exits, fun _ => run_cleanedUp cleanedUp exits ran⟩
  | accept session addrInfo_ =>
      obtain ⟨host, accepted, taken⟩ := Exec.bind_ok taken
      cases taken
      exact ⟨fun _ => trivial, fun _ => cleanedUp.kept (Host.step_process (by simp) accepted)⟩
  | disconnected session =>
      obtain ⟨host, closed, taken⟩ := Exec.bind_ok taken
      cases taken
      exact ⟨fun _ => trivial, fun _ => cleanedUp.kept (Host.step_process (by simp) closed)⟩

end

/-- The users are right and every leave is answered in all states of a run
exactly when no user asks to leave. -/
theorem exit_cleans_iff (codePage : CodePage) (inGameServer : Terminal) (maxConnection : Int)
    (num : Int32) (events : List Host.Event) :
    Runs.Always (step codePage inGameServer) CleanedUp (initial maxConnection num) events ↔
      Runs.Throughout (step codePage inGameServer) NoUserExits (initial maxConnection num)
        events := by
  refine Runs.always_iff_throughout (fun _ _ _ _ _ _ => trivial) ?_ (fun _ _ => trivial) trivial
    (initial_cleanedUp maxConnection num)
  intro log event next _ _ cleanedUp taken
  exact step_cleanedUp cleanedUp taken

/-- A client registers the name `a` and asks to leave: the default handler closes
its session, its user stays and nothing is sent. -/
theorem user_not_cleaned :
    ¬ ∀ events : List Host.Event, Runs.Always (step Host.ascii { ip_ := [], port_ := 0 }) CleanedUp
      (initial SESSION_CAPACITY 2) events := by
  intro every
  let events : List Host.Event := [.accept 16 1,
    .run { session_ := 16, packet_ := .PK_C_REQ_REGIST_CHATTING_NAME [97] },
    .run { session_ := 16, packet_ := .PK_C_REQ_EXIT }]
  let view (log : ChatLog) := ((log.host.process.userPool_ 1).isSome, stays 1 log.exchanges)
  have computed : (Runs.run (step Host.ascii { ip_ := [], port_ := 0 })
      (initial SESSION_CAPACITY 2) events).toOption.map view = some (true, false) := by decide
  obtain ⟨finish, reached, seen⟩ := Runs.run_view computed
  obtain ⟨present, left⟩ := Prod.mk.inj seen
  have same := ((every events).finish reached).users 1
  rw [present, left] at same
  contradiction

end ChatLog

end ChattingServer

end GraduationServer
