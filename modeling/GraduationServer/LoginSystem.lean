import GraduationServer.ChattingProcess
import GraduationServer.Library.InFlight
import GraduationServer.Library.Runs
import GraduationServer.LoginProcess

/-!
The LoginServer between its clients, the DBAgent and the ChattingServer.
Packages, packets and queries wait in any order; each is worked on once and
followed by at most one more or by one reply.
-/

namespace GraduationServer

open DBAgent (Query Row)

/-- A package keeps the connection of the client that sent it, if a client did. -/
inductive Stage where
  | package (package : Package) (sender : Option Nat)
  | packet (receiver : ServerName) (packet : Packet)
  | query (query : Query)

/-- What waits, with the number of the login request that it follows from. -/
structure Task where
  stage : Stage
  request : Option Nat

structure Request where
  connection : Nat
  id_ : Str
  password_ : Str
  deriving DecidableEq

structure Reply where
  connection : Nat
  packet : Packet
  request : Option Nat
  after : Nat
  deriving DecidableEq

/-- The connections are the sessions that the LoginServer has added, in order.
`asked` and `replies` are all requests and all replies so far, `granted` the
numbers of the requests that the DBAgent has answered with success. -/
structure LoginSystem where
  manager : SessionManager
  accepted : Nat
  tasks : List Task
  asked : List Request
  granted : List Nat
  replies : List Reply

namespace LoginSystem

inductive Action where
  | deliver (session : SessionPtr)
  | execute
  | handle
  | respond (record : List Row) (unset : UInt64)

inductive Event where
  | accept (session : SessionPtr)
  | disconnected (session : SessionPtr)
  | receive (session : SessionPtr) (packet : Packet)
  | advance (index : Nat) (action : Action)

def initial (maxConnection : Int) : LoginSystem :=
  { manager := SessionManager.init maxConnection
    accepted := 0
    tasks := []
    asked := []
    granted := []
    replies := [] }

def relay : Packet → List (Receiver × Packet)
  | .PK_I_CHTTING_NOTIFY_ID clientId_ oidAccountId_ =>
      ChattingServer.I_CHTTING_NOTIFY_ID clientId_ oidAccountId_
  | .PK_I_DB_ANS_PARSE_DATA clientId_ name_ result_ =>
      ChattingServer.I_DB_ANS_PARSE_DATA clientId_ name_ result_
  | _ => []

def outgoing (sent : List (Receiver × Packet)) : List Stage :=
  sent.filterMap fun (receiver, packet) =>
    match receiver with
    | .terminal name => some (.packet name packet)
    | .session _ => none

def answers (manager : SessionManager) (sent : List (Receiver × Packet)) : List (Nat × Packet) :=
  sent.filterMap fun (receiver, packet) =>
    match receiver with
    | .terminal _ => none
    | .session session => some (manager.clientOf session, packet)

def work (terminal : Terminal) (manager : SessionManager) :
    Stage → Action → Exec (SessionManager × List Stage × List (Nat × Packet))
  | .packet .LoginServer packet, .deliver session =>
      if manager.registered session then
        .ok (manager, [.package { session_ := session, packet_ := packet } none], [])
      else .error .notEnabled
  | .package package _, .execute => do
      let outcome ←
        ContentsProcess.run LoginServer.registSubPacketFunc terminal manager package
      return (outcome.manager, outgoing outcome.sent, answers manager outcome.sent)
  | .packet .DBAgent packet, .handle =>
      .ok (manager, (DBAgent.handle packet).toList.map .query, [])
  | .packet .ChattingServer packet, .handle => .ok (manager, outgoing (relay packet), [])
  | .query query, .respond record unset =>
      .ok (manager, outgoing [query.respond record unset], [])
  | _, _ => .error .notEnabled

def grants : Stage → Bool
  | .packet .LoginServer (.PK_I_DB_ANS_ID_PW _ _ result_) => result_ ≠ 0
  | _ => false

def follow (system : LoginSystem) (manager : SessionManager) (rest : List Task)
    (request : Option Nat) (stages : List Stage) (sent : List (Nat × Packet)) : LoginSystem :=
  { system with
    manager
    tasks := rest ++ stages.map fun stage => { stage, request }
    granted := system.granted ++ if stages.any grants then request.toList else []
    replies := system.replies ++ sent.map fun (connection, packet) =>
      { connection, packet, request, after := system.asked.length } }

def receive (system : LoginSystem) (session : SessionPtr) (packet : Packet) :
    Exec LoginSystem := do
  let object ← system.manager.deref session
  let stage := Stage.package { session_ := session, packet_ := packet } (some object.addrInfo_)
  match packet with
  | .PK_C_REQ_ID_PW id_ password_ =>
      let request : Request := { connection := object.addrInfo_, id_, password_ }
      return { system with
        tasks := system.tasks ++ [{ stage, request := some system.asked.length }]
        asked := system.asked ++ [request] }
  | _ => return { system with tasks := system.tasks ++ [{ stage, request := none }] }

def step (terminal : Terminal) (system : LoginSystem) : Event → Exec LoginSystem
  | .accept session => do
      let manager ← system.manager.accept session (system.accepted + 1)
      let accepted :=
        if manager.registered session then system.accepted + 1 else system.accepted
      return { system with manager, accepted }
  | .disconnected session =>
      if system.manager.registered session then
        .ok { system with manager := system.manager.closeSession session }
      else .error .notEnabled
  | .receive session packet => system.receive session packet
  | .advance index action =>
      match InFlight.take system.tasks index with
      | none => .error .notEnabled
      | some (task, rest) => do
          let (manager, stages, sent) ← work terminal system.manager task.stage action
          return system.follow manager rest task.request stages sent

/-- A login that goes through all servers, from the client of the session 16. -/
def login (account character : List Row) : List Event :=
  [.accept 16, .accept 32, .receive 16 (.PK_C_REQ_ID_PW [97] [98]), .advance 0 .execute,
    .advance 0 .handle, .advance 0 (.respond account 0), .advance 0 (.deliver 32),
    .advance 0 .execute, .advance 0 .handle, .advance 0 .handle,
    .advance 0 (.respond character 0), .advance 0 .handle, .advance 0 (.deliver 32),
    .advance 0 .execute]

/-! What one piece of work can do. -/

inductive Worked (terminal : Terminal) (manager : SessionManager) :
    Stage → Action → List Stage → List (Nat × Packet) → Prop
  | nothing (stage : Stage) (action : Action) : Worked terminal manager stage action [] []
  | delivered (session : SessionPtr) (packet : Packet) :
      Worked terminal manager (.packet .LoginServer packet) (.deliver session)
        [.package { session_ := session, packet_ := packet } none] []
  | asked {session : SessionPtr} {id_ password_ : Str} {sender : Option Nat} {object : Session} :
      manager.deref session = .ok object →
      Worked terminal manager
        (.package { session_ := session, packet_ := .PK_C_REQ_ID_PW id_ password_ } sender)
        .execute [.packet .DBAgent (.PK_I_DB_REQ_ID_PW object.id_ id_ password_)] []
  | failed {session : SessionPtr} {clientId_ oidAccountId_ : UInt64} {sender : Option Nat}
      {client : Session} : manager.session clientId_ = some client →
      Worked terminal manager
        (.package { session_ := session,
                    packet_ := .PK_I_DB_ANS_ID_PW clientId_ oidAccountId_ 0 } sender)
        .execute [] [(client.addrInfo_, .PK_S_ANS_ID_PW_FAIL)]
  | notified {session : SessionPtr} {clientId_ oidAccountId_ : UInt64} {result_ : UInt8}
      {sender : Option Nat} {client : Session} : result_ ≠ 0 →
      manager.session clientId_ = some client →
      Worked terminal manager
        (.package { session_ := session,
                    packet_ := .PK_I_DB_ANS_ID_PW clientId_ oidAccountId_ result_ } sender)
        .execute [.packet .ChattingServer (.PK_I_CHTTING_NOTIFY_ID clientId_ oidAccountId_)] []
  | loaded {session : SessionPtr} {clientId_ : UInt64} {name_ : Str} {result_ : UInt8}
      {sender : Option Nat} {client : Session} : result_ ≠ 0 →
      manager.session clientId_ = some client →
      Worked terminal manager
        (.package { session_ := session,
                    packet_ := .PK_I_LOGIN_NOTIFY_ID_LOADED clientId_ name_ result_ } sender)
        .execute []
        [(client.addrInfo_, .PK_S_ANS_ID_PW_SUCCESS terminal.ip_ terminal.port_ name_)]
  | queriedAccount (clientId_ : UInt64) (id_ password_ : Str) :
      Worked terminal manager (.packet .DBAgent (.PK_I_DB_REQ_ID_PW clientId_ id_ password_))
        .handle [.query (.QI_DB_REQ_ID_PW clientId_ id_ password_)] []
  | queriedCharacter (clientId_ oidAccountId_ : UInt64) :
      Worked terminal manager (.packet .DBAgent (.PK_I_DB_REQ_LOAD_DATA clientId_ oidAccountId_))
        .handle [.query (.QI_DB_REQ_LOAD_DATA clientId_ oidAccountId_)] []
  | relayedAccount (clientId_ oidAccountId_ : UInt64) :
      Worked terminal manager
        (.packet .ChattingServer (.PK_I_CHTTING_NOTIFY_ID clientId_ oidAccountId_))
        .handle [.packet .DBAgent (.PK_I_DB_REQ_LOAD_DATA clientId_ oidAccountId_)] []
  | relayedCharacter (clientId_ : UInt64) (name_ : Str) (result_ : UInt8) :
      Worked terminal manager
        (.packet .ChattingServer (.PK_I_DB_ANS_PARSE_DATA clientId_ name_ result_))
        .handle [.packet .LoginServer (.PK_I_LOGIN_NOTIFY_ID_LOADED clientId_ name_ result_)] []
  | responded (query : Query) (record : List Row) (unset : UInt64) :
      Worked terminal manager (.query query) (.respond record unset)
        (outgoing [query.respond record unset]) []

theorem work_ok {terminal : Terminal} {manager after : SessionManager} {stage : Stage}
    {action : Action} {stages : List Stage} {sent : List (Nat × Packet)}
    (worked : work terminal manager stage action = .ok (after, stages, sent)) :
    manager.Retains after ∧ Worked terminal manager stage action stages sent := by
  rw [work.eq_def] at worked
  split at worked
  · rename_i packet session
    split at worked
    · cases worked
      exact ⟨SessionManager.Retains.refl manager, Worked.delivered session packet⟩
    · simp at worked
  · rename_i package sender
    obtain ⟨outcome, ran, worked⟩ := Exec.bind_ok worked
    cases worked
    obtain ⟨retains, told⟩ := LoginServer.run_sent ran
    refine ⟨retains, ?_⟩
    obtain ⟨session_, packet_⟩ := package
    generalize outcome.sent = told' at told
    cases told with
    | nothing => exact Worked.nothing _ _
    | asked packet used =>
        cases packet
        exact Worked.asked used
    | failed packet found =>
        cases packet
        rw [answers, outgoing]
        simp only [List.filterMap_cons, List.filterMap_nil,
          SessionManager.clientOf_lives (SessionManager.session_some found).1]
        exact Worked.failed found
    | notified packet accepted found =>
        cases packet
        exact Worked.notified accepted found
    | loaded packet loaded found =>
        cases packet
        rw [answers, outgoing]
        simp only [List.filterMap_cons, List.filterMap_nil,
          SessionManager.clientOf_lives (SessionManager.session_some found).1]
        exact Worked.loaded loaded found
  · cases worked
    refine ⟨SessionManager.Retains.refl manager, ?_⟩
    rw [DBAgent.handle.eq_def]
    split
    · exact Worked.queriedAccount _ _ _
    · exact Worked.queriedCharacter _ _
    · exact Worked.nothing _ _
  · cases worked
    refine ⟨SessionManager.Retains.refl manager, ?_⟩
    rw [relay.eq_def]
    split
    · exact Worked.relayedAccount _ _
    · exact Worked.relayedCharacter _ _ _
    · exact Worked.nothing _ _
  · rename_i query record unset
    cases worked
    exact ⟨SessionManager.Retains.refl manager, Worked.responded query record unset⟩
  · simp at worked

def executed (system : LoginSystem) : Event → Option (Package × Option Nat)
  | .advance index .execute =>
      match InFlight.take system.tasks index with
      | some ({ stage := .package package sender, .. }, _) => some (package, sender)
      | _ => none
  | _ => none

def isLogin : Packet → Bool
  | .PK_C_REQ_ID_PW _ _ => true
  | _ => false

inductive Stepped (terminal : Terminal) (system : LoginSystem) : Event → LoginSystem → Prop
  | accepted {session : SessionPtr} {manager : SessionManager} :
      system.manager.accept session (system.accepted + 1) = .ok manager →
      Stepped terminal system (.accept session) { system with
        manager
        accepted :=
          if manager.registered session then system.accepted + 1 else system.accepted }
  | disconnected (session : SessionPtr) :
      Stepped terminal system (.disconnected session)
        { system with manager := system.manager.closeSession session }
  | asked {session : SessionPtr} {object : Session} {id_ password_ : Str} :
      Stepped terminal system (.receive session (.PK_C_REQ_ID_PW id_ password_)) { system with
        tasks := system.tasks ++ [{
          stage := .package { session_ := session, packet_ := .PK_C_REQ_ID_PW id_ password_ }
            (some object.addrInfo_)
          request := some system.asked.length }]
        asked := system.asked ++ [{ connection := object.addrInfo_, id_, password_ }] }
  | received {session : SessionPtr} {object : Session} {packet : Packet} :
      isLogin packet = false →
      Stepped terminal system (.receive session packet) { system with
        tasks := system.tasks ++ [{
          stage := .package { session_ := session, packet_ := packet } (some object.addrInfo_)
          request := none }] }
  | advanced {index : Nat} {action : Action} {stage : Stage} {request : Option Nat}
      {rest : List Task} {manager : SessionManager} {stages : List Stage}
      {sent : List (Nat × Packet)} :
      InFlight.take system.tasks index = some ({ stage, request }, rest) →
      system.manager.Retains manager →
      Worked terminal system.manager stage action stages sent →
      Stepped terminal system (.advance index action)
        (system.follow manager rest request stages sent)

theorem step_ok {terminal : Terminal} {system after : LoginSystem} {event : Event}
    (taken : system.step terminal event = .ok after) : Stepped terminal system event after := by
  cases event with
  | accept session =>
      obtain ⟨manager, accepted, taken⟩ := Exec.bind_ok taken
      cases taken
      exact Stepped.accepted accepted
  | disconnected session =>
      rw [step] at taken
      split at taken
      · cases taken
        exact Stepped.disconnected session
      · simp at taken
  | receive session packet =>
      obtain ⟨object, -, taken⟩ := Exec.bind_ok taken
      split at taken
      · cases taken
        exact Stepped.asked
      · rename_i other
        cases taken
        refine Stepped.received ?_
        rw [isLogin.eq_def]
        split
        · exact absurd rfl (other _ _)
        · rfl
  | advance index action =>
      rw [step] at taken
      split at taken
      · simp at taken
      · rename_i task rest here
        obtain ⟨⟨manager, stages, sent⟩, worked, taken⟩ := Exec.bind_ok taken
        cases taken
        exact Stepped.advanced here (work_ok worked).1 (work_ok worked).2

theorem executed_package {system : LoginSystem} {index : Nat} {package : Package}
    {sender : Option Nat} {request : Option Nat} {rest : List Task}
    (taken : InFlight.take system.tasks index =
      some ({ stage := .package package sender, request }, rest)) :
    system.executed (.advance index .execute) = some (package, sender) := by
  simp [executed, taken]

/-! The conditions under which an id and a session pointer mean one connection. -/

/-- The seed does not wrap. -/
def NewId (system : LoginSystem) : Event → Prop
  | .accept _ => system.manager.sessionSeed_.toNat + 1 < UInt64.size
  | _ => True

/-- A login is executed while the session at its address is the one that sent it. -/
def Owned (system : LoginSystem) (event : Event) : Prop :=
  ∀ entry ∈ system.executed event, isLogin entry.1.packet_ = true →
    entry.2 = some (system.manager.clientOf entry.1.session_)

instance (system : LoginSystem) : ∀ event, Decidable (system.NewId event)
  | .accept _ =>
      inferInstanceAs (Decidable (system.manager.sessionSeed_.toNat + 1 < UInt64.size))
  | .disconnected _ => .isTrue trivial
  | .receive _ _ => .isTrue trivial
  | .advance _ _ => .isTrue trivial

instance (system : LoginSystem) (event : Event) : Decidable (system.Owned event) :=
  inferInstanceAs (Decidable (∀ entry ∈ system.executed event, _ → _))

structure Identified (system : LoginSystem) : Prop where
  seed : system.manager.sessionSeed_.toNat = system.accepted + 1
  ids : ∀ object ∈ system.manager.sessionList_, object.id_.toNat = object.addrInfo_

theorem initial_identified (maxConnection : Int) : (initial maxConnection).Identified := by
  refine ⟨rfl, ?_⟩
  intro object member
  simp [initial, SessionManager.init] at member

theorem Identified.retains {system after : LoginSystem} (identified : system.Identified)
    (accepted : after.accepted = system.accepted)
    (retains : system.manager.Retains after.manager) : after.Identified := by
  refine ⟨?_, ?_⟩
  · rw [retains.1, accepted]
    exact identified.seed
  · intro object member
    obtain ⟨earlier, lives, id, peer⟩ := retains.2 object member
    rw [← id, ← peer]
    exact identified.ids earlier lives

theorem Identified.accept {system : LoginSystem} {session : SessionPtr} {manager : SessionManager}
    (identified : system.Identified)
    (newId : system.manager.sessionSeed_.toNat + 1 < UInt64.size)
    (accepted : system.manager.accept session (system.accepted + 1) = .ok manager) :
    Identified { system with
      manager
      accepted :=
        if manager.registered session then system.accepted + 1 else system.accepted } := by
  have seed := identified.seed
  obtain ⟨-, fresh, rfl | ⟨next, added⟩⟩ := SessionManager.accept_ok accepted
  · simp only [fresh, Bool.false_eq_true, if_false]
    exact identified
  · have present : manager.registered session = true := by
      rw [SessionManager.registered_iff, added]
      exact ⟨_, List.mem_append_right _ List.mem_cons_self, rfl⟩
    simp only [present, if_true]
    refine ⟨?_, ?_⟩
    · have wraps : (system.manager.sessionSeed_ + 1).toNat =
          system.manager.sessionSeed_.toNat + 1 := by
        rw [UInt64.toNat_add]
        exact Nat.mod_eq_of_lt newId
      rw [next, wraps, seed]
    · intro object member
      rw [added] at member
      rcases List.mem_append.mp member with earlier | new
      · exact identified.ids object earlier
      · rw [List.mem_singleton.mp new]
        exact seed

theorem step_identified {terminal : Terminal} {system after : LoginSystem} {event : Event}
    (identified : system.Identified) (newId : system.NewId event)
    (stepped : Stepped terminal system event after) : after.Identified := by
  cases stepped with
  | accepted accepted => exact identified.accept newId accepted
  | disconnected session =>
      exact identified.retains rfl (system.manager.retains_closeSession session)
  | asked => exact identified.retains rfl (SessionManager.Retains.refl _)
  | received _ => exact identified.retains rfl (SessionManager.Retains.refl _)
  | advanced _ retains _ => exact identified.retains rfl retains

theorem Identified.session {system : LoginSystem} {clientId_ : UInt64} {client : Session}
    (identified : system.Identified) (found : system.manager.session clientId_ = some client) :
    client.addrInfo_ = clientId_.toNat := by
  obtain ⟨lives, rfl⟩ := SessionManager.session_some found
  exact (identified.ids client lives).symm

theorem Identified.deref {system : LoginSystem} {session : SessionPtr} {object : Session}
    (identified : system.Identified) (used : system.manager.deref session = .ok object) :
    system.manager.clientOf session = object.id_.toNat := by
  rw [SessionManager.clientOf_deref used]
  exact (identified.ids object (SessionManager.deref_ok used).1).symm

/-! A request keeps its number. -/

def asker (system : LoginSystem) (number : Nat) : Option Nat :=
  system.asked[number]?.map Request.connection

def Grows (system after : LoginSystem) : Prop :=
  system.asked <+: after.asked ∧ system.granted ⊆ after.granted

theorem step_grows {terminal : Terminal} {system after : LoginSystem} {event : Event}
    (stepped : Stepped terminal system event after) : system.Grows after := by
  cases stepped with
  | asked => exact ⟨List.prefix_append _ _, List.Subset.refl _⟩
  | advanced _ _ _ => exact ⟨List.prefix_refl _, List.subset_append_left _ _⟩
  | _ => exact ⟨List.prefix_refl _, List.Subset.refl _⟩

theorem Grows.asked {system after : LoginSystem} (grows : system.Grows after) {number : Nat}
    {request : Request} (found : system.asked[number]? = some request) :
    after.asked[number]? = some request := by
  obtain ⟨more, same⟩ := grows.1
  rw [← same]
  exact List.getElem?_append_left (List.getElem?_eq_some_iff.mp found).1 |>.trans found

end LoginSystem

end GraduationServer
