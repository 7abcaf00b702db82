import GraduationServer.ContentsProcess

/-!
The handlers that a login passes through: `LoginProcess`, `DBAgentProcess` with
its two queries, and the ChattingServer's between them.
-/

namespace GraduationServer

namespace LoginServer

def C_REQ_ID_PW (manager : SessionManager) (session : SessionPtr) (id_ password_ : Str) :
    Exec (List (Receiver × Packet)) := do
  let object ← manager.deref session
  return [(.terminal .DBAgent, .PK_I_DB_REQ_ID_PW object.id_ id_ password_)]

def I_DB_ANS_ID_PW (manager : SessionManager) (clientId_ oidAccountId_ : UInt64)
    (result_ : UInt8) : List (Receiver × Packet) :=
  match manager.session clientId_ with
  | none => []
  | some clientSession =>
      if result_ = 0 then [(.session clientSession.address, .PK_S_ANS_ID_PW_FAIL)]
      else [(.terminal .ChattingServer, .PK_I_CHTTING_NOTIFY_ID clientId_ oidAccountId_)]

/-- The session of the packet is used only to log its address. -/
def I_LOGIN_NOTIFY_ID_LOADED (terminal : Terminal) (manager : SessionManager)
    (session : SessionPtr) (clientId_ : UInt64) (name_ : Str) (result_ : UInt8) :
    Exec (List (Receiver × Packet)) :=
  if result_ = 0 then .ok []
  else
    match manager.session clientId_ with
    | none => .ok []
    | some clientSession => do
        let _ ← manager.deref session
        return [(.session clientSession.address,
          .PK_S_ANS_ID_PW_SUCCESS terminal.ip_ terminal.port_ name_)]

def handle (terminal : Terminal) (manager : SessionManager) (session : SessionPtr) :
    Packet → Exec (List (Receiver × Packet))
  | .PK_C_REQ_ID_PW id_ password_ => C_REQ_ID_PW manager session id_ password_
  | .PK_I_DB_ANS_ID_PW clientId_ oidAccountId_ result_ =>
      .ok (I_DB_ANS_ID_PW manager clientId_ oidAccountId_ result_)
  | .PK_I_LOGIN_NOTIFY_ID_LOADED clientId_ name_ result_ =>
      I_LOGIN_NOTIFY_ID_LOADED terminal manager session clientId_ name_ result_
  | _ => .error .notEnabled

def subFunc : SubFunc Terminal :=
  { refuses := fun _ _ _ _ => .ok false
    handle := fun terminal manager session packet => do
      let sent ← handle terminal manager session packet
      return (terminal, sent) }

def registSubPacketFunc : RunFuncTable Terminal :=
  ContentsProcess.registSubPacketFunc [
    (.E_C_REQ_ID_PW, subFunc),
    (.E_I_DB_ANS_ID_PW, subFunc),
    (.E_I_LOGIN_NOTIFY_ID_LOADED, subFunc)]

inductive Sent (terminal : Terminal) (manager : SessionManager) (package : Package) :
    List (Receiver × Packet) → Prop
  | nothing : Sent terminal manager package []
  | asked {id_ password_ : Str} {object : Session} :
      package.packet_ = .PK_C_REQ_ID_PW id_ password_ →
      manager.deref package.session_ = .ok object →
      Sent terminal manager package
        [(.terminal .DBAgent, .PK_I_DB_REQ_ID_PW object.id_ id_ password_)]
  | failed {clientId_ oidAccountId_ : UInt64} {client : Session} :
      package.packet_ = .PK_I_DB_ANS_ID_PW clientId_ oidAccountId_ 0 →
      manager.session clientId_ = some client →
      Sent terminal manager package [(.session client.address, .PK_S_ANS_ID_PW_FAIL)]
  | notified {clientId_ oidAccountId_ : UInt64} {result_ : UInt8} {client : Session} :
      package.packet_ = .PK_I_DB_ANS_ID_PW clientId_ oidAccountId_ result_ → result_ ≠ 0 →
      manager.session clientId_ = some client →
      Sent terminal manager package
        [(.terminal .ChattingServer, .PK_I_CHTTING_NOTIFY_ID clientId_ oidAccountId_)]
  | loaded {clientId_ : UInt64} {name_ : Str} {result_ : UInt8} {client : Session} :
      package.packet_ = .PK_I_LOGIN_NOTIFY_ID_LOADED clientId_ name_ result_ → result_ ≠ 0 →
      manager.session clientId_ = some client →
      Sent terminal manager package
        [(.session client.address, .PK_S_ANS_ID_PW_SUCCESS terminal.ip_ terminal.port_ name_)]

theorem handle_sent {terminal : Terminal} {manager : SessionManager} {package : Package}
    {sent : List (Receiver × Packet)}
    (handled : handle terminal manager package.session_ package.packet_ = .ok sent) :
    Sent terminal manager package sent := by
  rw [handle.eq_def] at handled
  split at handled
  · rename_i id_ password_ packet
    obtain ⟨object, used, handled⟩ := Exec.bind_ok handled
    cases handled
    exact Sent.asked packet used
  · rename_i clientId_ oidAccountId_ result_ packet
    cases handled
    rw [I_DB_ANS_ID_PW]
    split
    · exact Sent.nothing
    · rename_i client found
      split
      · rename_i rejected
        exact Sent.failed (packet.trans (by rw [rejected])) found
      · rename_i accepted
        exact Sent.notified packet accepted found
  · rename_i clientId_ name_ result_ packet
    rw [I_LOGIN_NOTIFY_ID_LOADED] at handled
    split at handled
    · cases handled
      exact Sent.nothing
    · rename_i loaded
      split at handled
      · cases handled
        exact Sent.nothing
      · rename_i client found
        obtain ⟨_, -, handled⟩ := Exec.bind_ok handled
        cases handled
        exact Sent.loaded packet loaded found
  · simp at handled

theorem run_sent {terminal : Terminal} {manager : SessionManager} {package : Package}
    {outcome : Outcome Terminal}
    (ran : ContentsProcess.run registSubPacketFunc terminal manager package = .ok outcome) :
    manager.Retains outcome.manager ∧ Sent terminal manager package outcome.sent := by
  obtain ⟨retains, quiet | ⟨func, found, handled⟩⟩ := ContentsProcess.run_ok ran
  · rw [quiet]
    exact ⟨retains, Sent.nothing⟩
  · refine ⟨retains, ?_⟩
    have registered := ContentsProcess.registSubPacketFunc_sub found
    obtain rfl : func = subFunc := by
      simp only [List.mem_cons, Prod.mk.injEq, List.not_mem_nil, or_false] at registered
      rcases registered with ⟨-, same⟩ | ⟨-, same⟩ | ⟨-, same⟩ <;> exact same
    obtain ⟨sent, handled, same⟩ := Exec.bind_ok handled
    cases same
    exact handle_sent handled

end LoginServer

namespace DBAgent

inductive Query where
  | QI_DB_REQ_ID_PW (clientId_ : oid_t) (id_ password_ : Str)
  | QI_DB_REQ_LOAD_DATA (clientId_ : oid_t) (oidAccountId_ : UInt64)

/-- The fields that the queries read; one that cannot be read is absent. -/
structure Row where
  oidAccount : Option Int32
  name : Option Str
  deriving DecidableEq

def handle : Packet → Option Query
  | .PK_I_DB_REQ_ID_PW clientId_ id_ password_ => some (.QI_DB_REQ_ID_PW clientId_ id_ password_)
  | .PK_I_DB_REQ_LOAD_DATA clientId_ oidAccountId_ =>
      some (.QI_DB_REQ_LOAD_DATA clientId_ oidAccountId_)
  | _ => none

/-- The destructor of a query, which sends what the record says. `unset` is the
oid of an answer that does not set it. -/
def Query.respond (record : List Row) (unset : UInt64) : Query → Receiver × Packet
  | .QI_DB_REQ_ID_PW clientId_ _ _ =>
      match record with
      | { oidAccount := some oidAccount, .. } :: _ =>
          (.terminal .LoginServer,
            .PK_I_DB_ANS_ID_PW clientId_ oidAccount.toInt64.toUInt64 1)
      | _ => (.terminal .LoginServer, .PK_I_DB_ANS_ID_PW clientId_ unset 0)
  | .QI_DB_REQ_LOAD_DATA clientId_ _ =>
      let (name_, result_) := record.foldl (fun read row =>
        match row.name with
        | some name => (name, 1)
        | none => read) ([], 0)
      (.terminal .ChattingServer, .PK_I_DB_ANS_PARSE_DATA clientId_ name_ result_)

end DBAgent

end GraduationServer
