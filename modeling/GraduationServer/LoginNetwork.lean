import GraduationServer.LoginCompletion

/-!
The logins over terminals that are not always there. `Terminal::sendPacket` drops
a packet unless its `status_` is `TERMINAL_READY`, and a connection that is lost
takes with it what is on the way. No login is lost in any other place.
-/

namespace GraduationServer

open DBAgent (Query Row)

/-- `ready` tells which terminals of a server are `TERMINAL_READY`. `lost` records
the tasks whose packets were dropped by a terminal or lost with its connection. -/
structure LoginNetwork where
  system : LoginSystem
  ready : ServerName → ServerName → Bool
  lost : List Task

namespace LoginNetwork

inductive Event where
  | login (event : LoginSystem.Event)
  | connectTo (server receiver : ServerName)
  | disconnected (index : Nat)

def initial (maxConnection : Int) : LoginNetwork :=
  { system := LoginSystem.initial maxConnection, ready := fun _ _ => false, lost := [] }

def server : Stage → ServerName
  | .package _ _ => .LoginServer
  | .packet receiver _ => receiver
  | .query _ => .DBAgent

def passes (ready : ServerName → Bool) : Stage → Bool
  | .packet receiver _ => ready receiver
  | _ => true

def pending (request : Option Nat) (stages : List Stage) : List Task :=
  stages.map fun stage => { stage, request }

def advance (terminal : Terminal) (network : LoginNetwork) (index : Nat)
    (action : LoginSystem.Action) : Exec LoginNetwork :=
  match InFlight.take network.system.tasks index with
  | none => .error .notEnabled
  | some (task, rest) => do
      let (manager, stages, sent) ←
        LoginSystem.work terminal network.system.manager task.stage action
      let passes := passes (network.ready (server task.stage))
      return { network with
        system := network.system.follow manager rest task.request (stages.filter passes) sent
        lost := network.lost ++ pending task.request (stages.filter fun stage => !passes stage) }

/-- A terminal stays `TERMINAL_READY` once it has been. The packet that waits at
an index may be lost with its connection. -/
def step (terminal : Terminal) (network : LoginNetwork) : Event → Exec LoginNetwork
  | .login (.advance index action) => network.advance terminal index action
  | .login event => do return { network with system := ← network.system.step terminal event }
  | .connectTo server receiver =>
      .ok { network with ready := fun sender other =>
        if sender = server ∧ other = receiver then true else network.ready sender other }
  | .disconnected index =>
      match InFlight.take network.system.tasks index with
      | some ({ stage := .packet receiver packet, request }, rest) =>
          .ok { network with
            system := { network.system with tasks := rest }
            lost := network.lost ++ [{ stage := .packet receiver packet, request }] }
      | _ => .error .notEnabled

section

variable (accountOf : Str → Str → Option Int32) (characterOf : UInt64 → Option Str)

/-- A login whose client is still there and whose account, if it has one, has a
character is one task, or has one reply, or was lost once by a terminal. -/
def Accounted (network : LoginNetwork) : Prop :=
  ∀ number request, network.system.asked[number]? = some request →
    network.system.Connected request.connection →
    ¬ LoginSystem.LacksCharacter accountOf characterOf request →
    network.system.uses number +
      network.lost.countP (fun task => task.request = some number) = 1

/-- Clients send no packets of the servers, the stored procedures are functions,
ids are new, and a login is executed for the session that sent it. -/
def Proper (network : LoginNetwork) : Event → Prop
  | .login event => LoginSystem.FromServers event ∧
      network.system.Stored accountOf characterOf event ∧ network.system.NewId event ∧
      network.system.Owned event
  | _ => True

instance (network : LoginNetwork) :
    (event : Event) → Decidable (network.Proper accountOf characterOf event)
  | .login _ => inferInstanceAs (Decidable (_ ∧ _))
  | .connectTo _ _ => inferInstanceAs (Decidable True)
  | .disconnected _ => inferInstanceAs (Decidable True)

end

/-! A lost packet is like a task that never runs. -/

def everything (network : LoginNetwork) : LoginSystem :=
  { network.system with tasks := network.system.tasks ++ network.lost }

structure Same (first second : LoginSystem) : Prop where
  manager : first.manager = second.manager
  accepted : first.accepted = second.accepted
  asked : first.asked = second.asked
  replies : first.replies = second.replies
  tasks : first.tasks.Perm second.tasks

section

variable {accountOf : Str → Str → Option Int32} {characterOf : UInt64 → Option Str}
variable {terminal : Terminal} {first second : LoginSystem} {network next : LoginNetwork}

theorem Same.refl (system : LoginSystem) : Same system system :=
  ⟨rfl, rfl, rfl, rfl, List.Perm.refl _⟩

theorem Same.uses (same : Same first second) (number : Nat) :
    second.uses number = first.uses number := by
  rw [LoginSystem.uses, LoginSystem.uses, same.replies, same.tasks.countP_eq]

theorem Same.traced (same : Same first second)
    (traced : LoginSystem.Traced accountOf characterOf first) :
    LoginSystem.Traced accountOf characterOf second := by
  constructor
  · have identified := traced.identified
    exact ⟨by rw [← same.manager, ← same.accepted]; exact identified.seed,
      by rw [← same.manager]; exact identified.ids⟩
  · intro task member
    rw [LoginSystem.TaskTraced, ← same.asked]
    exact traced.tasks task (same.tasks.mem_iff.mpr member)
  · intro reply member
    simp only [LoginSystem.Answers, ← same.asked]
    exact traced.replies reply (same.replies ▸ member)
  · intro number
    rw [same.uses, ← same.asked]
    exact traced.once number

theorem Same.placed (same : Same first second)
    (placed : LoginSystem.Placed accountOf characterOf first) :
    LoginSystem.Placed accountOf characterOf second := by
  constructor
  · rw [← same.manager, ← same.accepted]
    exact placed.sessions
  · rw [← same.asked, ← same.accepted]
    exact placed.askers
  · exact fun task member => placed.idle task (same.tasks.mem_iff.mpr member)
  · rw [← same.asked]
    exact fun task member => placed.headed task (same.tasks.mem_iff.mpr member)

theorem Same.accounted (same : Same first second)
    (accounted : LoginSystem.Accounted accountOf characterOf first) :
    LoginSystem.Accounted accountOf characterOf second := by
  intro number request found connected character
  rw [LoginSystem.Connected, ← same.manager] at connected
  rw [same.uses]
  exact accounted number request (same.asked ▸ found) connected character

theorem receive_login {system : LoginSystem} {session : SessionPtr} {object : Session}
    (used : system.manager.deref session = .ok object) (id_ password_ : Str) :
    system.receive session (.PK_C_REQ_ID_PW id_ password_) = .ok { system with
      tasks := system.tasks ++ [{
        stage := .package { session_ := session, packet_ := .PK_C_REQ_ID_PW id_ password_ }
          (some object.addrInfo_)
        request := some system.asked.length }]
      asked := system.asked ++ [{ connection := object.addrInfo_, id_, password_ }] } := by
  rw [LoginSystem.receive, used]
  rfl

theorem receive_other {system : LoginSystem} {session : SessionPtr} {object : Session}
    {packet : Packet} (used : system.manager.deref session = .ok object)
    (other : ∀ id_ password_, packet = .PK_C_REQ_ID_PW id_ password_ → False) :
    system.receive session packet = .ok { system with
      tasks := system.tasks ++ [{
        stage := .package { session_ := session, packet_ := packet } (some object.addrInfo_)
        request := none }] } := by
  rw [LoginSystem.receive, used, Exec.ok_bind]
  split
  · exact absurd rfl (other _ _)
  · rfl

theorem step_padded {system after : LoginSystem} {event : LoginSystem.Event} (lost : List Task)
    (other : ∀ index action, event ≠ .advance index action)
    (taken : system.step terminal event = .ok after) :
    ∃ padded, LoginSystem.step terminal { system with tasks := system.tasks ++ lost } event =
      .ok padded ∧ Same padded { after with tasks := after.tasks ++ lost } := by
  have behind (new : Task) :
      (system.tasks ++ lost ++ [new]).Perm (system.tasks ++ [new] ++ lost) := by
    rw [List.append_assoc, List.append_assoc]
    exact List.perm_append_comm.append_left _
  cases event with
  | accept session =>
      obtain ⟨manager, admitted, taken⟩ := Exec.bind_ok taken
      cases taken
      refine ⟨_, ?_, Same.refl _⟩
      simp only [LoginSystem.step, admitted]
      rfl
  | disconnected session =>
      rw [LoginSystem.step] at taken
      split at taken
      · rename_i present
        cases taken
        exact ⟨_, if_pos present, Same.refl _⟩
      · cases taken
  | receive session packet =>
      obtain ⟨object, used, taken⟩ := Exec.bind_ok taken
      have again : ({ system with tasks := system.tasks ++ lost } : LoginSystem).manager.deref
          session = .ok object := used
      split at taken
      · cases taken
        refine ⟨_, receive_login again _ _, rfl, rfl, rfl, rfl, ?_⟩
        exact behind _
      · rename_i notLogin
        cases taken
        refine ⟨_, receive_other again notLogin, rfl, rfl, rfl, rfl, ?_⟩
        exact behind _
  | advance index action => exact absurd rfl (other index action)

theorem pending_perm (rest lost : List Task) (request : Option Nat) (stages : List Stage)
    (passes : Stage → Bool) :
    (rest ++ lost ++ pending request stages).Perm
      (rest ++ pending request (stages.filter passes) ++
        (lost ++ pending request (stages.filter fun stage => !passes stage))) := by
  have parts : (pending request (stages.filter passes) ++
      pending request (stages.filter fun stage => !passes stage)).Perm
        (pending request stages) := by
    rw [pending, pending, ← List.map_append]
    exact (List.filter_append_perm passes stages).map _
  have swapped : (lost ++ pending request (stages.filter passes)).Perm
      (pending request (stages.filter passes) ++ lost) := List.perm_append_comm
  refine (parts.symm.append_left (rest ++ lost)).trans ?_
  rw [← List.append_assoc, List.append_assoc rest lost]
  refine ((swapped.append_left rest).append_right _).trans ?_
  simp

theorem advance_everything {index : Nat} {action : LoginSystem.Action}
    (taken : network.advance terminal index action = .ok next) :
    ∃ task rest after,
      InFlight.take network.system.tasks index = some (task, rest) ∧
      network.everything.step terminal (.advance index action) = .ok after ∧
      Same after next.everything := by
  rw [advance] at taken
  split at taken
  · cases taken
  · rename_i task rest here
    obtain ⟨⟨manager, stages, sent⟩, worked, taken⟩ := Exec.bind_ok taken
    cases taken
    have padded := InFlight.take_append here network.lost
    have followed : network.everything.step terminal (.advance index action) =
        .ok (network.everything.follow manager (rest ++ network.lost) task.request stages sent) := by
      simp only [LoginSystem.step, everything, padded, worked]
      rfl
    refine ⟨task, rest, _, here, followed, rfl, rfl, rfl, rfl, ?_⟩
    exact pending_perm rest network.lost task.request stages _

/-- A step of the network is one of the servers, or none, up to the order in
which the tasks are listed. -/
theorem step_everything {event : Event} (taken : network.step terminal event = .ok next)
    (proper : network.Proper accountOf characterOf event) :
    Same network.everything next.everything ∨
      ∃ inner after, LoginSystem.FromServers inner ∧
        network.everything.Stored accountOf characterOf inner ∧
        network.everything.NewId inner ∧ network.everything.Owned inner ∧
        network.everything.step terminal inner = .ok after ∧ Same after next.everything := by
  cases event with
  | connectTo server receiver =>
      cases taken
      exact Or.inl (Same.refl _)
  | disconnected index =>
      rw [step] at taken
      split at taken
      · rename_i receiver packet request rest here
        cases taken
        refine Or.inl ⟨rfl, rfl, rfl, rfl, ?_⟩
        have moved := (InFlight.take_perm here).append_right network.lost
        rw [← List.singleton_append, List.append_assoc] at moved
        exact moved.trans (List.perm_append_comm.trans (by simp [everything]))
      · cases taken
  | login inner =>
      refine Or.inr ⟨inner, ?_⟩
      obtain ⟨fromServers, stored, newId, owned⟩ := proper
      have served (other : ∀ index action, inner ≠ .advance index action)
          (stored : network.everything.Stored accountOf characterOf inner)
          (owned : network.everything.Owned inner)
          (taken : (do return { network with system := ← network.system.step terminal inner } :
            Exec LoginNetwork) = .ok next) :
          ∃ after, LoginSystem.FromServers inner ∧
            network.everything.Stored accountOf characterOf inner ∧
            network.everything.NewId inner ∧ network.everything.Owned inner ∧
            network.everything.step terminal inner = .ok after ∧ Same after next.everything := by
        obtain ⟨system, stepped, taken⟩ := Exec.bind_ok taken
        cases taken
        obtain ⟨after, padded, same⟩ := step_padded network.lost other stepped
        exact ⟨after, fromServers, stored, newId, owned, padded, same⟩
      cases inner with
      | advance index action =>
          obtain ⟨⟨stage, request⟩, rest, after, here, worked, same⟩ := advance_everything taken
          have padded := InFlight.take_append here network.lost
          have queries : network.everything.answered (.advance index action) =
              network.system.answered (.advance index action) := by
            cases action <;> cases stage <;> simp [LoginSystem.answered, everything, here, padded]
          have packages : network.everything.executed (.advance index action) =
              network.system.executed (.advance index action) := by
            cases action <;> cases stage <;> simp [LoginSystem.executed, everything, here, padded]
          refine ⟨after, fromServers, ?_, newId, ?_, worked, same⟩
          · rw [LoginSystem.Stored, queries]
            exact stored
          · rw [LoginSystem.Owned, packages]
            exact owned
      | accept session => exact served (by simp) stored owned taken
      | disconnected session => exact served (by simp) stored owned taken
      | receive session packet => exact served (by simp) stored owned taken

end

/-- What each step keeps: the lost packets count as tasks of the servers. -/
structure Keeps (accountOf : Str → Str → Option Int32) (characterOf : UInt64 → Option Str)
    (network : LoginNetwork) : Prop where
  traced : LoginSystem.Traced accountOf characterOf network.everything
  placed : LoginSystem.Placed accountOf characterOf network.everything
  accounted : LoginSystem.Accounted accountOf characterOf network.everything

theorem initial_keeps (accountOf : Str → Str → Option Int32)
    (characterOf : UInt64 → Option Str) (maxConnection : Int) :
    Keeps accountOf characterOf (initial maxConnection) :=
  ⟨LoginSystem.initial_traced maxConnection, LoginSystem.initial_placed maxConnection,
    LoginSystem.initial_accounted maxConnection⟩

theorem step_keeps {accountOf : Str → Str → Option Int32} {characterOf : UInt64 → Option Str}
    {terminal : Terminal} {network next : LoginNetwork} {event : Event}
    (keeps : Keeps accountOf characterOf network)
    (proper : network.Proper accountOf characterOf event)
    (taken : network.step terminal event = .ok next) : Keeps accountOf characterOf next := by
  obtain ⟨traced, placed, accounted⟩ := keeps
  rcases step_everything taken proper with
    same | ⟨inner, after, fromServers, stored, newId, owned, worked, same⟩
  · exact ⟨same.traced traced, same.placed placed, same.accounted accounted⟩
  · have stepped := LoginSystem.step_ok worked
    exact ⟨same.traced (LoginSystem.step_traced traced fromServers newId owned stored stepped),
      same.placed (LoginSystem.step_placed traced placed owned stored worked),
      same.accounted (LoginSystem.step_accounted traced placed accounted worked)⟩

theorem Keeps.all {accountOf : Str → Str → Option Int32} {characterOf : UInt64 → Option Str}
    {network : LoginNetwork} (keeps : Keeps accountOf characterOf network) :
    network.Accounted accountOf characterOf := by
  intro number request found connected character
  have once := keeps.accounted number request found connected character
  rw [← once]
  simp only [LoginSystem.uses, everything, List.countP_append]
  omega

/-- In a run in which logins are executed for the sessions that sent them, no
login is lost as long as its client stays and its account has a character, but
where a terminal loses a packet of it. -/
theorem always_accounted (accountOf : Str → Str → Option Int32)
    (characterOf : UInt64 → Option Str) (terminal : Terminal) (maxConnection : Int)
    (events : List Event)
    (proper : Runs.Throughout (step terminal) (Proper accountOf characterOf)
      (initial maxConnection) events) :
    Runs.Always (step terminal) (Accounted accountOf characterOf) (initial maxConnection)
      events :=
  Runs.always_of_throughout (fun _ _ _ => step_keeps) (fun _ => Keeps.all)
    (initial_keeps accountOf characterOf maxConnection) proper

/-- A login whose account is told to a terminal that is not ready yet, and one that
goes through all servers after it. -/
def twoLogins : List Event :=
  let record : List Row := [{ oidAccount := some 7, name := none }]
  let character : List Row := [{ oidAccount := none, name := some [110] }]
  let ask : List LoginSystem.Event := [.receive 16 (.PK_C_REQ_ID_PW [97] [98]),
    .advance 0 .execute, .advance 0 .handle, .advance 0 (.respond record 0),
    .advance 0 (.deliver 32), .advance 0 .execute]
  let load : List LoginSystem.Event := [.advance 0 .handle, .advance 0 .handle,
    .advance 0 (.respond character 0), .advance 0 .handle, .advance 0 (.deliver 32),
    .advance 0 .execute]
  [.connectTo .LoginServer .DBAgent, .connectTo .DBAgent .LoginServer,
    .connectTo .ChattingServer .DBAgent, .connectTo .DBAgent .ChattingServer,
    .connectTo .ChattingServer .LoginServer, .login (.accept 16), .login (.accept 32)] ++
    ask.map .login ++ [.connectTo .LoginServer .ChattingServer] ++ (ask ++ load).map .login

theorem always_accounted_login :
    let steps := step { ip_ := [], port_ := 9200 }
    Runs.Always steps (Accounted LoginSystem.accounts LoginSystem.characters)
        (initial SESSION_CAPACITY) twoLogins ∧
      (Runs.run steps (initial SESSION_CAPACITY) twoLogins).toOption.map
        (fun network => (network.system.replies.length, network.lost.length)) = some (1, 1) :=
  ⟨always_accounted _ _ _ _ _ (by decide), by decide⟩

end LoginNetwork

end GraduationServer
