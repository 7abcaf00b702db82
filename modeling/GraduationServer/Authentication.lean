import GraduationServer.LoginSystem

/-!
Whether only clients with right credentials are let in. Nothing tells a packet
of the servers from the same packet of a client.
-/

namespace GraduationServer

open DBAgent (Query)

namespace LoginSystem

def Authenticated (system : LoginSystem) (connection : Nat) : Prop :=
  ∃ number ∈ system.granted, system.asker number = some connection

instance (system : LoginSystem) (connection : Nat) : Decidable (system.Authenticated connection) :=
  inferInstanceAs (Decidable (∃ number ∈ system.granted, _ = _))

def isSuccess : Packet → Bool
  | .PK_S_ANS_ID_PW_SUCCESS _ _ _ => true
  | _ => false

/-- Every success has gone to a connection that is authenticated. -/
def Authentic (system : LoginSystem) : Prop :=
  ∀ reply ∈ system.replies, isSuccess reply.packet = true → system.Authenticated reply.connection

instance (system : LoginSystem) : Decidable system.Authentic :=
  inferInstanceAs (Decidable (∀ reply ∈ system.replies, _ = _ → _))

def passes : Packet → Option UInt64
  | .PK_I_DB_ANS_ID_PW clientId_ _ result_ => if result_ = 0 then none else some clientId_
  | .PK_I_LOGIN_NOTIFY_ID_LOADED clientId_ _ result_ =>
      if result_ = 0 then none else some clientId_
  | _ => none

/-- A client's packet lets no client pass that is not authenticated. -/
def Genuine (system : LoginSystem) (event : Event) : Prop :=
  ∀ entry ∈ system.executed event, entry.2 ≠ none →
    ∀ client ∈ (passes entry.1.packet_).bind system.manager.session,
      system.Authenticated client.addrInfo_

instance (system : LoginSystem) (event : Event) : Decidable (system.Genuine event) :=
  inferInstanceAs (Decidable (∀ entry ∈ system.executed event, _ → ∀ client ∈ _, _))

def AsksFor (system : LoginSystem) (request : Option Nat) (connection : Nat) : Prop :=
  ∃ number, request = some number ∧ system.asker number = some connection

/-- What holds of a server's packet: it carries on a request of the client it
names, which is authenticated from the DBAgent's answer on. -/
def PacketAuthentic (system : LoginSystem) (request : Option Nat) : Packet → Prop
  | .PK_C_REQ_ID_PW _ _ => False
  | .PK_I_DB_REQ_ID_PW clientId_ _ _ => system.AsksFor request clientId_.toNat
  | .PK_I_DB_ANS_ID_PW clientId_ _ result_ =>
      result_ ≠ 0 → system.Authenticated clientId_.toNat
  | .PK_I_CHTTING_NOTIFY_ID clientId_ _ => system.Authenticated clientId_.toNat
  | .PK_I_DB_REQ_LOAD_DATA clientId_ _ => system.Authenticated clientId_.toNat
  | .PK_I_DB_ANS_PARSE_DATA clientId_ _ _ => system.Authenticated clientId_.toNat
  | .PK_I_LOGIN_NOTIFY_ID_LOADED clientId_ _ _ => system.Authenticated clientId_.toNat
  | _ => True

def StageAuthentic (system : LoginSystem) (request : Option Nat) : Stage → Prop
  | .package package none => system.PacketAuthentic request package.packet_
  | .package package (some connection) =>
      isLogin package.packet_ = true → system.AsksFor request connection
  | .packet _ packet => system.PacketAuthentic request packet
  | .query (.QI_DB_REQ_ID_PW clientId_ _ _) => system.AsksFor request clientId_.toNat
  | .query (.QI_DB_REQ_LOAD_DATA clientId_ _) => system.Authenticated clientId_.toNat

structure Screened (system : LoginSystem) : Prop where
  identified : system.Identified
  tasks : ∀ task ∈ system.tasks, system.StageAuthentic task.request task.stage
  authentic : system.Authentic

theorem Grows.asker {system after : LoginSystem} (grows : system.Grows after) {number : Nat}
    {connection : Nat} (sent : system.asker number = some connection) :
    after.asker number = some connection := by
  obtain ⟨request, found, same⟩ := Option.map_eq_some_iff.mp sent
  rw [LoginSystem.asker, grows.asked found, Option.map_some, same]

theorem Grows.asksFor {system after : LoginSystem} (grows : system.Grows after)
    {request : Option Nat} {connection : Nat} (asks : system.AsksFor request connection) :
    after.AsksFor request connection := by
  obtain ⟨number, same, sent⟩ := asks
  exact ⟨number, same, grows.asker sent⟩

theorem Grows.authenticated {system after : LoginSystem} (grows : system.Grows after)
    {connection : Nat} (known : system.Authenticated connection) :
    after.Authenticated connection := by
  obtain ⟨number, granted, sent⟩ := known
  exact ⟨number, grows.2 granted, grows.asker sent⟩

theorem Grows.packetAuthentic {system after : LoginSystem} (grows : system.Grows after)
    {request : Option Nat} {packet : Packet} (held : system.PacketAuthentic request packet) :
    after.PacketAuthentic request packet := by
  cases packet with
  | PK_C_REQ_ID_PW id_ password_ => exact held
  | PK_I_DB_REQ_ID_PW clientId_ id_ password_ => exact grows.asksFor held
  | PK_I_DB_ANS_ID_PW clientId_ oidAccountId_ result_ =>
      exact fun granted => grows.authenticated (held granted)
  | PK_I_CHTTING_NOTIFY_ID clientId_ oidAccountId_ => exact grows.authenticated held
  | PK_I_DB_REQ_LOAD_DATA clientId_ oidAccountId_ => exact grows.authenticated held
  | PK_I_DB_ANS_PARSE_DATA clientId_ name_ result_ => exact grows.authenticated held
  | PK_I_LOGIN_NOTIFY_ID_LOADED clientId_ name_ result_ => exact grows.authenticated held
  | _ => trivial

theorem Grows.stageAuthentic {system after : LoginSystem} (grows : system.Grows after)
    {request : Option Nat} {stage : Stage} (held : system.StageAuthentic request stage) :
    after.StageAuthentic request stage := by
  cases stage with
  | package package sender =>
      cases sender with
      | none => exact grows.packetAuthentic held
      | some connection => exact fun login => grows.asksFor (held login)
  | packet receiver packet => exact grows.packetAuthentic held
  | query query =>
      cases query with
      | QI_DB_REQ_ID_PW clientId_ id_ password_ => exact grows.asksFor held
      | QI_DB_REQ_LOAD_DATA clientId_ oidAccountId_ => exact grows.authenticated held

theorem initial_screened (maxConnection : Int) : (initial maxConnection).Screened := by
  refine ⟨initial_identified maxConnection, ?_, ?_⟩
  · intro task member
    simp [initial] at member
  · intro reply member
    simp [initial] at member

theorem passes_authenticated {system : LoginSystem} {event : Event} {package : Package}
    {sender : Option Nat} {request : Option Nat} {clientId_ : UInt64} {client : Session}
    (identified : system.Identified) (genuine : system.Genuine event)
    (executes : system.executed event = some (package, sender))
    (held : system.StageAuthentic request (.package package sender))
    (passing : passes package.packet_ = some clientId_)
    (found : system.manager.session clientId_ = some client) :
    system.Authenticated clientId_.toNat := by
  cases sender with
  | some connection =>
      rw [← identified.session found]
      exact genuine _ executes (by simp) _ (by simp [passing, found])
  | none =>
      obtain ⟨session_, packet_⟩ := package
      cases packet_ with
      | PK_I_DB_ANS_ID_PW named oidAccountId_ result_ =>
          simp only [passes, Option.ite_none_left_eq_some, Option.some.injEq] at passing
          obtain ⟨granted, rfl⟩ := passing
          exact held granted
      | PK_I_LOGIN_NOTIFY_ID_LOADED named name_ result_ =>
          simp only [passes, Option.ite_none_left_eq_some, Option.some.injEq] at passing
          obtain ⟨-, rfl⟩ := passing
          exact held
      | _ => simp [passes] at passing

theorem worked_authentic {terminal : Terminal} {system after : LoginSystem} {index : Nat}
    {action : Action} {stage : Stage} {request : Option Nat} {rest : List Task}
    {stages : List Stage} {sent : List (Nat × Packet)} (identified : system.Identified)
    (owned : system.Owned (.advance index action))
    (genuine : system.Genuine (.advance index action)) (grows : system.Grows after)
    (granted : ∀ number, request = some number → stages.any grants = true →
      number ∈ after.granted)
    (taken : InFlight.take system.tasks index = some ({ stage, request }, rest))
    (held : system.StageAuthentic request stage)
    (worked : Worked terminal system.manager stage action stages sent) :
    ∀ next ∈ stages, after.StageAuthentic request next := by
  intro next member
  cases worked with
  | nothing | failed _ | loaded _ _ => simp at member
  | delivered session packet =>
      obtain rfl := List.mem_singleton.mp member
      exact grows.packetAuthentic held
  | @asked session id_ password_ sender object used =>
      obtain rfl := List.mem_singleton.mp member
      have sends := owned _ (executed_package taken) rfl
      rw [identified.deref used] at sends
      cases sends
      exact grows.asksFor (held rfl)
  | notified accepted found =>
      obtain rfl := List.mem_singleton.mp member
      exact grows.authenticated (passes_authenticated identified genuine (executed_package taken) held
        (if_neg accepted) found)
  | queriedAccount clientId_ id_ password_ =>
      obtain rfl := List.mem_singleton.mp member
      exact grows.asksFor held
  | queriedCharacter clientId_ oidAccountId_ =>
      obtain rfl := List.mem_singleton.mp member
      exact grows.authenticated held
  | relayedAccount clientId_ oidAccountId_ =>
      obtain rfl := List.mem_singleton.mp member
      exact grows.authenticated held
  | relayedCharacter clientId_ name_ result_ =>
      obtain rfl := List.mem_singleton.mp member
      exact grows.authenticated held
  | responded query record unset =>
      cases query with
      | QI_DB_REQ_LOAD_DATA clientId_ oidAccountId_ =>
          obtain rfl := List.mem_singleton.mp member
          exact grows.authenticated held
      | QI_DB_REQ_ID_PW clientId_ id_ password_ =>
          obtain ⟨number, rfl, sent⟩ := held
          simp only [Query.respond] at member granted
          split at member
          · obtain rfl := List.mem_singleton.mp member
            exact fun _ => ⟨number, granted number rfl rfl, grows.asker sent⟩
          · obtain rfl := List.mem_singleton.mp member
            exact fun accepted => absurd rfl accepted

theorem step_screened {terminal : Terminal} {system after : LoginSystem} {event : Event}
    (screened : system.Screened) (newId : system.NewId event) (owned : system.Owned event)
    (genuine : system.Genuine event) (stepped : Stepped terminal system event after) :
    after.Screened := by
  have grows := step_grows stepped
  refine ⟨step_identified screened.identified newId stepped, ?_, ?_⟩
  · intro task member
    have earlier : task ∈ system.tasks → after.StageAuthentic task.request task.stage :=
      fun waiting => grows.stageAuthentic (screened.tasks task waiting)
    cases stepped with
    | accepted _ => exact earlier member
    | disconnected session => exact earlier member
    | @asked session object id_ password_ =>
        rcases List.mem_append.mp member with waiting | new
        · exact earlier waiting
        · obtain rfl := List.mem_singleton.mp new
          exact fun _ => ⟨system.asked.length, rfl, by simp [asker]⟩
    | received other =>
        rcases List.mem_append.mp member with waiting | new
        · exact earlier waiting
        · obtain rfl := List.mem_singleton.mp new
          exact fun login => by simp [other] at login
    | @advanced index action stage request rest manager stages sent taken retains worked =>
        rcases List.mem_append.mp member with waiting | new
        · exact earlier (InFlight.mem_of_take taken waiting)
        · obtain ⟨next, follows, rfl⟩ := List.mem_map.mp new
          refine worked_authentic screened.identified owned genuine grows ?_ taken
            (screened.tasks _ (InFlight.take_mem taken)) worked next follows
          intro number same granted
          simp [follow, granted, same]
  · intro reply member
    have earlier : reply ∈ system.replies → isSuccess reply.packet = true →
        after.Authenticated reply.connection :=
      fun replied success => grows.authenticated (screened.authentic reply replied success)
    cases stepped with
    | advanced taken retains worked =>
        rcases List.mem_append.mp member with replied | new
        · exact earlier replied
        · obtain ⟨⟨connection, packet⟩, told, rfl⟩ := List.mem_map.mp new
          intro success
          have held := screened.tasks _ (InFlight.take_mem taken)
          cases worked with
          | failed _ =>
              obtain ⟨rfl, rfl⟩ := Prod.mk.inj (List.mem_singleton.mp told)
              simp [isSuccess] at success
          | loaded accepted found =>
              obtain ⟨rfl, rfl⟩ := Prod.mk.inj (List.mem_singleton.mp told)
              rw [screened.identified.session found]
              exact grows.authenticated (passes_authenticated screened.identified genuine
                (executed_package taken) held (if_neg accepted) found)
          | _ => simp at told
    | _ => exact earlier member

/-- A login succeeds only for a client that sent right credentials, in a run in
which no client passes for a server, logins are executed for the sessions that
sent them, and ids do not run out. -/
theorem always_authentic (terminal : Terminal) (maxConnection : Int) (events : List Event)
    (screens : Runs.Throughout (step terminal)
      (fun system event => system.NewId event ∧ system.Owned event ∧ system.Genuine event)
      (initial maxConnection) events) :
    Runs.Always (step terminal) Authentic (initial maxConnection) events := by
  refine Runs.always_of_throughout ?_ (fun _ => Screened.authentic) (initial_screened maxConnection)
    screens
  rintro system event after screened ⟨newId, owned, genuine⟩ taken
  exact step_screened screened newId owned genuine (step_ok taken)

theorem always_authentic_login :
    Runs.Always (step { ip_ := [], port_ := 9200 }) Authentic (initial SESSION_CAPACITY)
      (login [{ oidAccount := some 7, name := none }] [{ oidAccount := none, name := some [110] }]) :=
  always_authentic { ip_ := [], port_ := 9200 } SESSION_CAPACITY
    (login [{ oidAccount := some 7, name := none }] [{ oidAccount := none, name := some [110] }])
    (by decide)

/-- A client sends the packet that lets it in. -/
theorem authentic_forged :
    ¬ ∀ events : List Event, Runs.Always (step { ip_ := [], port_ := 9200 }) Authentic
      (initial SESSION_CAPACITY) events := by
  intro always
  have run := always [.accept 16, .receive 16 (.PK_I_LOGIN_NOTIFY_ID_LOADED 1 [110] 1),
    .advance 0 .execute]
  revert run
  decide

end LoginSystem

end GraduationServer
