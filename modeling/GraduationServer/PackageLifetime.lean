import GraduationServer.ContentsProcess
import GraduationServer.IOCPSession
import GraduationServer.Library.Runs

/-!
A server as its threads see it: sessions are accepted, their reads and writes
complete, they are disconnected, and packages are run one at a time. The
packages wait in `packageQueue_` with a plain pointer to their session.
-/

namespace GraduationServer

structure Server (Process : Type) where
  manager : SessionManager
  objects : SessionPtr → IOCPSession
  packageQueue_ : ThreadJobQueue Package
  process : Process

namespace Server

variable {Process : Type}

inductive Event where
  | accept (session : SessionPtr) (addrInfo_ : Nat)
  | received (session : SessionPtr) (chunk : List UInt8) (unset : Nat → Nat → Int32)
  | sent (session : SessionPtr) (transferSize : Nat)
  | disconnected (session : SessionPtr)
  | execute

def initial (maxConnection : Int) (process : Process) : Server Process :=
  { manager := SessionManager.init maxConnection
    objects := fun _ => IOCPSession.accepted
    packageQueue_ := ThreadJobQueue.empty
    process := process }

def store (server : Server Process) (session : SessionPtr) (object : IOCPSession) :
    Server Process :=
  { server with objects := fun other => if other = session then object else server.objects other }

def onAccept (server : Server Process) (session : SessionPtr) (addrInfo_ : Nat) :
    Exec (Server Process) := do
  let manager ← server.manager.accept session addrInfo_
  return store { server with manager } session IOCPSession.accepted

def putPackage (server : Server Process) (package : Package) : Server Process :=
  { server with packageQueue_ := server.packageQueue_.push package }

/-- The branch of `workerThread` for a read: `onRecv`, and then every package of
`packageStorage` goes to the queue. -/
def onRead (server : Server Process) (session : SessionPtr) (chunk : List UInt8)
    (unset : Nat → Nat → Int32) : Exec (Server Process) :=
  if server.manager.registered session ∧ (server.objects session).Deliverable chunk then do
    let object ← (server.objects session).receive unset chunk
    let emptied := server.store session { object with packageStorage := [] }
    return object.packageStorage.foldl
      (fun server packet => server.putPackage { session_ := session, packet_ := packet }) emptied
  else .error .notEnabled

def onWritten (server : Server Process) (session : SessionPtr) (transferSize : Nat) :
    Exec (Server Process) :=
  if server.manager.registered session then do
    let object ← (server.objects session).complete transferSize
    return server.store session object
  else .error .notEnabled

def deliver (server : Server Process) : List (Receiver × Packet) → Exec (Server Process)
  | [] => .ok server
  | (.terminal _, _) :: rest => server.deliver rest
  | (.session session, packet) :: rest => do
      let _ ← server.manager.deref session
      let object ← (server.objects session).sendPacket packet
      (server.store session object).deliver rest

def execute (table : RunFuncTable Process) (server : Server Process) : Exec (Server Process) :=
  match server.packageQueue_.pop with
  | none => .ok server
  | some (package, packageQueue_) => do
      let outcome ← ContentsProcess.run table server.process server.manager package
      let served := { server with
        manager := outcome.manager
        packageQueue_ := packageQueue_
        process := outcome.process }
      served.deliver outcome.sent

def step (table : RunFuncTable Process) (server : Server Process) : Event → Exec (Server Process)
  | .accept session addrInfo_ => server.onAccept session addrInfo_
  | .received session chunk unset => server.onRead session chunk unset
  | .sent session transferSize => server.onWritten session transferSize
  | .disconnected session =>
      if server.manager.registered session then
        .ok { server with manager := server.manager.closeSession session }
      else .error .notEnabled
  | .execute => server.execute table

def QueueAlive (server : Server Process) : Prop :=
  ∀ package ∈ server.packageQueue_.items, server.manager.registered package.session_ = true

instance (server : Server Process) : Decidable server.QueueAlive :=
  inferInstanceAs (Decidable (∀ package ∈ server.packageQueue_.items, _))

/-- The event closes no session that another package in the queue refers to. -/
def ClosesNoneQueued (table : RunFuncTable Process) (server : Server Process) : Event → Prop
  | .disconnected session => ∀ package ∈ server.packageQueue_.items, package.session_ ≠ session
  | .execute =>
      ∀ package ∈ server.packageQueue_.items.head?,
        ContentsProcess.closes table server.process server.manager package = true →
          ∀ other ∈ server.packageQueue_.items.tail, other.session_ ≠ package.session_
  | _ => True

theorem deliver_frame {server after : Server Process} {sent : List (Receiver × Packet)}
    (delivered : server.deliver sent = .ok after) :
    after.manager = server.manager ∧ after.packageQueue_ = server.packageQueue_ := by
  induction sent generalizing server with
  | nil =>
      cases delivered
      exact ⟨rfl, rfl⟩
  | cons first rest ih =>
      obtain ⟨receiver, packet⟩ := first
      cases receiver with
      | terminal name => exact ih delivered
      | session session =>
          obtain ⟨_, -, delivered⟩ := Exec.bind_ok delivered
          obtain ⟨object, -, delivered⟩ := Exec.bind_ok delivered
          have kept := ih delivered
          exact kept

theorem putPackages_frame (server : Server Process) (session : SessionPtr)
    (packets : List Packet) :
    let after := packets.foldl
      (fun server packet => server.putPackage { session_ := session, packet_ := packet }) server
    after.manager = server.manager ∧ ∀ package ∈ after.packageQueue_.items,
      package ∈ server.packageQueue_.items ∨ package.session_ = session := by
  induction packets generalizing server with
  | nil => exact ⟨rfl, fun _ member => Or.inl member⟩
  | cons packet packets ih =>
      obtain ⟨manager, queued⟩ := ih (server.putPackage { session_ := session, packet_ := packet })
      refine ⟨manager, ?_⟩
      intro package member
      rcases queued package member with earlier | same
      · simp only [putPackage, ThreadJobQueue.items_push, List.mem_append, List.mem_singleton]
          at earlier
        rcases earlier with earlier | rfl
        · exact Or.inl earlier
        · exact Or.inr rfl
      · exact Or.inr same

theorem onAccept_alive {server after : Server Process} {session : SessionPtr} {addrInfo_ : Nat}
    (alive : server.QueueAlive) (taken : server.onAccept session addrInfo_ = .ok after) :
    after.QueueAlive := by
  obtain ⟨manager, accepted, taken⟩ := Exec.bind_ok taken
  cases taken
  intro package member
  exact SessionManager.registered_accept accepted (alive package member)

theorem onRead_alive {server after : Server Process} {session : SessionPtr}
    {chunk : List UInt8} {unset : Nat → Nat → Int32}
    (alive : server.QueueAlive) (taken : server.onRead session chunk unset = .ok after) :
    after.QueueAlive := by
  rw [onRead] at taken
  split at taken
  · rename_i enabled
    obtain ⟨object, -, taken⟩ := Exec.bind_ok taken
    cases taken
    obtain ⟨manager, queued⟩ := putPackages_frame
      (server.store session { object with packageStorage := [] }) session object.packageStorage
    intro package member
    rw [manager]
    rcases queued package member with earlier | rfl
    · exact alive package earlier
    · exact enabled.1
  · simp at taken

theorem onWritten_alive {server after : Server Process} {session : SessionPtr}
    {transferSize : Nat} (alive : server.QueueAlive)
    (taken : server.onWritten session transferSize = .ok after) : after.QueueAlive := by
  rw [onWritten] at taken
  split at taken
  · obtain ⟨object, -, taken⟩ := Exec.bind_ok taken
    cases taken
    exact alive
  · simp at taken

theorem disconnected_alive {server : Server Process} {session : SessionPtr}
    (alive : server.QueueAlive) :
    QueueAlive { server with manager := server.manager.closeSession session } ↔
      ∀ package ∈ server.packageQueue_.items, package.session_ ≠ session := by
  constructor
  · intro kept package member
    exact (SessionManager.registered_closeSession.mp (kept package member)).2
  · intro unqueued package member
    exact SessionManager.registered_closeSession.mpr ⟨alive package member, unqueued package member⟩

theorem execute_alive {table : RunFuncTable Process} {server after : Server Process}
    (alive : server.QueueAlive) (taken : server.execute table = .ok after) :
    after.QueueAlive ↔ server.ClosesNoneQueued table .execute := by
  rw [execute] at taken
  split at taken
  · rename_i popped
    cases taken
    have nothing := ThreadJobQueue.pop_none popped
    simp [QueueAlive, ClosesNoneQueued, nothing]
  · rename_i package packageQueue_ popped
    obtain ⟨outcome, ran, delivered⟩ := Exec.bind_ok taken
    obtain ⟨manager, queue⟩ := deliver_frame delivered
    have waiting := ThreadJobQueue.pop_some popped
    have registered := ContentsProcess.registered_run ran
    simp only [QueueAlive, ClosesNoneQueued, waiting, manager, queue, registered, List.head?_cons,
      List.tail_cons, Option.mem_some, forall_eq']
    constructor
    · intro kept closed other member
      exact (kept other member).2 closed
    · intro unqueued other member
      refine ⟨alive other ?_, fun closed => unqueued closed other member⟩
      rw [waiting]
      exact List.mem_cons_of_mem _ member

theorem step_alive {table : RunFuncTable Process} {server after : Server Process} {event : Event}
    (alive : server.QueueAlive) (taken : server.step table event = .ok after) :
    after.QueueAlive ↔ server.ClosesNoneQueued table event := by
  cases event with
  | accept session addrInfo_ => exact iff_of_true (onAccept_alive alive taken) trivial
  | received session chunk unset => exact iff_of_true (onRead_alive alive taken) trivial
  | sent session transferSize => exact iff_of_true (onWritten_alive alive taken) trivial
  | disconnected session =>
      rw [step] at taken
      split at taken
      · cases taken
        exact disconnected_alive alive
      · simp at taken
  | execute => exact execute_alive alive taken

/-- No queued package outlives its session in a run exactly when the run closes
no session while another package of it is queued. -/
theorem queueAlive_iff (table : RunFuncTable Process) (maxConnection : Int) (process : Process)
    (events : List Event) :
    Runs.Always (step table) QueueAlive (initial maxConnection process) events ↔
      Runs.Throughout (step table) (ClosesNoneQueued table) (initial maxConnection process)
        events := by
  have start : (initial maxConnection process).QueueAlive := by
    intro package member
    simp [initial] at member
  refine Runs.always_iff_throughout (fun _ _ _ _ _ _ => trivial) ?_ (fun _ _ => trivial) trivial
    start
  intro server event after _ _ alive taken
  exact step_alive alive taken

/-- Two frames in one chunk, and then the client leaves. -/
theorem queueAlive_disconnected :
    ¬ ∀ events : List Event, Runs.Always (step ContentsProcess.registDefaultPacketFunc) QueueAlive
      (initial SESSION_CAPACITY ()) events := by
  intro always
  have run := always [.accept 1 7,
    .received 1 (Packet.frames [.PK_C_NOTIFY_HEARTBEAT, .PK_C_NOTIFY_HEARTBEAT]) fun _ _ => 0,
    .disconnected 1]
  revert run
  decide

end Server

end GraduationServer
