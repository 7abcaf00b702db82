import GraduationServer.LoginSystem

/-!
Whether each reply goes to the session that asked and says what the database
says about its credentials. The handlers carry only the id of the client.
-/

namespace GraduationServer

open DBAgent (Query Row)

namespace LoginSystem

section

variable (accountOf : Str → Str → Option Int32) (characterOf : UInt64 → Option Str)

def select : Query → List Row
  | .QI_DB_REQ_ID_PW _ id_ password_ =>
      (accountOf id_ password_).toList.map fun oid => { oidAccount := some oid, name := none }
  | .QI_DB_REQ_LOAD_DATA _ oidAccountId_ =>
      (characterOf oidAccountId_).toList.map fun name => { oidAccount := none, name := some name }

def answered (system : LoginSystem) : Event → Option (Query × List Row)
  | .advance index (.respond record _) =>
      match InFlight.take system.tasks index with
      | some ({ stage := .query query, .. }, _) => some (query, record)
      | _ => none
  | _ => none

/-- A query is answered with the record of its stored procedure. -/
def Stored (system : LoginSystem) (event : Event) : Prop :=
  ∀ entry ∈ system.answered event, entry.2 = select accountOf characterOf entry.1

instance (system : LoginSystem) (event : Event) :
    Decidable (system.Stored accountOf characterOf event) :=
  inferInstanceAs (Decidable (∀ entry ∈ system.answered event, _ = _))

def isServers : Packet → Bool
  | .PK_I_DB_ANS_ID_PW _ _ _ => true
  | .PK_I_LOGIN_NOTIFY_ID_LOADED _ _ _ => true
  | _ => false

def FromServers : Event → Prop
  | .receive _ packet => isServers packet = false
  | _ => True

instance : (event : Event) → Decidable (FromServers event)
  | .receive _ packet => inferInstanceAs (Decidable (isServers packet = false))
  | .accept _ => .isTrue trivial
  | .disconnected _ => .isTrue trivial
  | .advance _ _ => .isTrue trivial

def HasAccount (request : Request) (oidAccountId_ : UInt64) : Prop :=
  ∃ oid, accountOf request.id_ request.password_ = some oid ∧
    oidAccountId_ = oid.toInt64.toUInt64

def HasCharacter (request : Request) (name_ : Str) : Prop :=
  ∃ oidAccountId_, HasAccount accountOf request oidAccountId_ ∧
    characterOf oidAccountId_ = some name_

/-- A failure is for credentials that have no account, a success carries the
name of the character of the account. -/
def Justified (request : Request) : Packet → Prop
  | .PK_S_ANS_ID_PW_FAIL => accountOf request.id_ request.password_ = none
  | .PK_S_ANS_ID_PW_SUCCESS _ _ name_ => HasCharacter accountOf characterOf request name_
  | _ => False

/-- The reply goes to the session that sent the request of the number before. -/
def Answers (system : LoginSystem) (reply : Reply) (number : Nat) : Prop :=
  number < reply.after ∧ ∃ request, system.asked[number]? = some request ∧
    request.connection = reply.connection ∧ Justified accountOf characterOf request reply.packet

/-- The replies are matched one to one with earlier requests of their sessions. -/
def Matched (system : LoginSystem) : Prop :=
  ∃ numbers : List Nat, numbers.Nodup ∧
    List.Forall₂ (system.Answers accountOf characterOf) system.replies numbers

def PacketTraced (request : Request) : Packet → Prop
  | .PK_I_DB_REQ_ID_PW clientId_ id_ password_ =>
      clientId_.toNat = request.connection ∧ id_ = request.id_ ∧ password_ = request.password_
  | .PK_I_DB_ANS_ID_PW clientId_ oidAccountId_ result_ =>
      clientId_.toNat = request.connection ∧
        if result_ = 0 then accountOf request.id_ request.password_ = none
        else HasAccount accountOf request oidAccountId_
  | .PK_I_CHTTING_NOTIFY_ID clientId_ oidAccountId_ =>
      clientId_.toNat = request.connection ∧ HasAccount accountOf request oidAccountId_
  | .PK_I_DB_REQ_LOAD_DATA clientId_ oidAccountId_ =>
      clientId_.toNat = request.connection ∧ HasAccount accountOf request oidAccountId_
  | .PK_I_DB_ANS_PARSE_DATA clientId_ name_ result_ =>
      clientId_.toNat = request.connection ∧
        (result_ ≠ 0 → HasCharacter accountOf characterOf request name_)
  | .PK_I_LOGIN_NOTIFY_ID_LOADED clientId_ name_ result_ =>
      clientId_.toNat = request.connection ∧
        (result_ ≠ 0 → HasCharacter accountOf characterOf request name_)
  | _ => False

def StageTraced (request : Request) : Stage → Prop
  | .package package (some connection) =>
      package.packet_ = .PK_C_REQ_ID_PW request.id_ request.password_ ∧
        connection = request.connection
  | .package package none => PacketTraced accountOf characterOf request package.packet_
  | .packet _ packet => PacketTraced accountOf characterOf request packet
  | .query (.QI_DB_REQ_ID_PW clientId_ id_ password_) =>
      clientId_.toNat = request.connection ∧ id_ = request.id_ ∧ password_ = request.password_
  | .query (.QI_DB_REQ_LOAD_DATA clientId_ oidAccountId_) =>
      clientId_.toNat = request.connection ∧ HasAccount accountOf request oidAccountId_

def Idle : Stage → Prop
  | .package package (some _) =>
      isLogin package.packet_ = false ∧ isServers package.packet_ = false
  | _ => False

def TaskTraced (system : LoginSystem) (task : Task) : Prop :=
  Idle task.stage ∨ ∃ number request, task.request = some number ∧
    system.asked[number]? = some request ∧ StageTraced accountOf characterOf request task.stage

end

def uses (system : LoginSystem) (number : Nat) : Nat :=
  system.tasks.countP (fun task => task.request = some number) +
    system.replies.countP (fun reply => reply.request = some number)

structure Traced (accountOf : Str → Str → Option Int32) (characterOf : UInt64 → Option Str)
    (system : LoginSystem) : Prop where
  identified : system.Identified
  tasks : ∀ task ∈ system.tasks, system.TaskTraced accountOf characterOf task
  replies : ∀ reply ∈ system.replies, ∃ number, reply.request = some number ∧
    system.Answers accountOf characterOf reply number
  once : ∀ number, system.uses number ≤ if number < system.asked.length then 1 else 0

section

variable {accountOf : Str → Str → Option Int32} {characterOf : UInt64 → Option Str}

theorem Grows.taskTraced {system after : LoginSystem} (grows : system.Grows after) {task : Task}
    (traced : system.TaskTraced accountOf characterOf task) :
    after.TaskTraced accountOf characterOf task := by
  rcases traced with idle | ⟨number, request, same, found, held⟩
  · exact Or.inl idle
  · exact Or.inr ⟨number, request, same, grows.asked found, held⟩

theorem Grows.answers {system after : LoginSystem} (grows : system.Grows after) {reply : Reply}
    {number : Nat} (answers : system.Answers accountOf characterOf reply number) :
    after.Answers accountOf characterOf reply number := by
  obtain ⟨earlier, request, found, held⟩ := answers
  exact ⟨earlier, request, grows.asked found, held⟩

theorem initial_traced (maxConnection : Int) :
    Traced accountOf characterOf (initial maxConnection) := by
  refine ⟨initial_identified maxConnection, ?_, ?_, ?_⟩
  · intro task member
    simp [initial] at member
  · intro reply member
    simp [initial] at member
  · intro number
    simp [uses, initial]

theorem idle_worked {terminal : Terminal} {manager : SessionManager} {stage : Stage}
    {action : Action} {stages : List Stage} {sent : List (Nat × Packet)} (idle : Idle stage)
    (worked : Worked terminal manager stage action stages sent) : stages = [] ∧ sent = [] := by
  cases worked with
  | nothing stage action => exact ⟨rfl, rfl⟩
  | @asked session id_ password_ sender object used =>
      cases sender with
      | none => exact absurd idle id
      | some connection => simp [Idle, isLogin] at idle
  | @failed session clientId_ oidAccountId_ sender client found =>
      cases sender with
      | none => exact absurd idle id
      | some connection => simp [Idle, isServers] at idle
  | @notified session clientId_ oidAccountId_ result_ sender client accepted found =>
      cases sender with
      | none => exact absurd idle id
      | some connection => simp [Idle, isServers] at idle
  | @loaded session clientId_ name_ result_ sender client accepted found =>
      cases sender with
      | none => exact absurd idle id
      | some connection => simp [Idle, isServers] at idle
  | _ => exact absurd idle id

theorem responded_traced {request : Request} {query : Query} {unset : UInt64}
    (held : StageTraced accountOf characterOf request (.query query)) :
    ∀ next ∈ outgoing [query.respond (select accountOf characterOf query) unset],
      StageTraced accountOf characterOf request next := by
  intro next member
  cases query with
  | QI_DB_REQ_ID_PW clientId_ id_ password_ =>
      obtain ⟨client, rfl, rfl⟩ := held
      cases account : accountOf request.id_ request.password_ with
      | none =>
          simp only [select, account, Option.toList_none, List.map_nil, Query.respond, outgoing,
            List.filterMap_cons, List.filterMap_nil, List.mem_singleton] at member
          subst member
          exact ⟨client, account⟩
      | some oid =>
          simp only [select, account, Option.toList_some, List.map_cons, List.map_nil,
            Query.respond, outgoing, List.filterMap_cons, List.filterMap_nil,
            List.mem_singleton] at member
          subst member
          exact ⟨client, oid, account, rfl⟩
  | QI_DB_REQ_LOAD_DATA clientId_ oidAccountId_ =>
      obtain ⟨client, account⟩ := held
      cases character : characterOf oidAccountId_ with
      | none =>
          simp only [select, character, Option.toList_none, List.map_nil, Query.respond, outgoing,
            List.foldl_nil, List.filterMap_cons, List.filterMap_nil, List.mem_singleton] at member
          subst member
          exact ⟨client, fun loaded => absurd rfl loaded⟩
      | some name =>
          simp only [select, character, Option.toList_some, List.map_cons, List.map_nil,
            Query.respond, outgoing, List.foldl_cons, List.foldl_nil, List.filterMap_cons,
            List.filterMap_nil, List.mem_singleton] at member
          subst member
          exact ⟨client, fun _ => ⟨oidAccountId_, account, character⟩⟩

theorem worked_traced {terminal : Terminal} {system : LoginSystem} {index : Nat}
    {action : Action} {stage : Stage} {number : Nat} {rest : List Task} {request : Request}
    {stages : List Stage} {sent : List (Nat × Packet)} (identified : system.Identified)
    (owned : system.Owned (.advance index action))
    (stored : system.Stored accountOf characterOf (.advance index action))
    (taken : InFlight.take system.tasks index =
      some ({ stage := stage, request := some number }, rest))
    (held : StageTraced accountOf characterOf request stage)
    (worked : Worked terminal system.manager stage action stages sent) :
    (∀ next ∈ stages, StageTraced accountOf characterOf request next) ∧
      ∀ told ∈ sent, request.connection = told.1 ∧
        Justified accountOf characterOf request told.2 := by
  have followed {next : Stage} (traced : StageTraced accountOf characterOf request next) :
      (∀ other ∈ [next], StageTraced accountOf characterOf request other) ∧
        ∀ told ∈ ([] : List (Nat × Packet)), request.connection = told.1 ∧
          Justified accountOf characterOf request told.2 := by
    simpa using traced
  have replied {connection : Nat} {packet : Packet} (same : request.connection = connection)
      (justified : Justified accountOf characterOf request packet) :
      (∀ other ∈ ([] : List Stage), StageTraced accountOf characterOf request other) ∧
        ∀ told ∈ [(connection, packet)], request.connection = told.1 ∧
          Justified accountOf characterOf request told.2 := by
    simpa using ⟨same, justified⟩
  cases worked with
  | nothing stage action => simp
  | delivered session packet => exact followed held
  | @asked session id_ password_ sender object used =>
      cases sender with
      | none => exact absurd held id
      | some connection =>
          obtain ⟨packet, rfl⟩ := held
          cases packet
          have sends := owned _ (executed_package taken) rfl
          rw [identified.deref used] at sends
          exact followed ⟨(Option.some.inj sends).symm, rfl, rfl⟩
  | @failed session clientId_ oidAccountId_ sender client found =>
      cases sender with
      | some connection => simp [StageTraced] at held
      | none =>
          obtain ⟨client, rejected⟩ := held
          exact replied (client.symm.trans (identified.session found).symm) rejected
  | @notified session clientId_ oidAccountId_ result_ sender client accepted found =>
      cases sender with
      | some connection => simp [StageTraced] at held
      | none =>
          obtain ⟨client, account⟩ := held
          rw [if_neg accepted] at account
          exact followed ⟨client, account⟩
  | @loaded session clientId_ name_ result_ sender client accepted found =>
      cases sender with
      | some connection => simp [StageTraced] at held
      | none =>
          obtain ⟨client, character⟩ := held
          exact replied (client.symm.trans (identified.session found).symm) (character accepted)
  | queriedAccount clientId_ id_ password_ => exact followed held
  | queriedCharacter clientId_ oidAccountId_ => exact followed held
  | relayedAccount clientId_ oidAccountId_ => exact followed held
  | relayedCharacter clientId_ name_ result_ => exact followed held
  | responded query record unset =>
      have same : record = select accountOf characterOf query :=
        stored (query, record) (by simp [answered, taken])
      subst same
      exact ⟨responded_traced held, by simp⟩

/-! Each request has one task or one reply at a time. -/

theorem worked_few {terminal : Terminal} {manager : SessionManager} {stage : Stage}
    {action : Action} {stages : List Stage} {sent : List (Nat × Packet)}
    (worked : Worked terminal manager stage action stages sent) :
    stages.length + sent.length ≤ 1 := by
  cases worked with
  | responded query record unset => exact List.length_filterMap_le _ _
  | _ => simp

theorem follow_uses {system : LoginSystem} {index : Nat} {stage : Stage} {request : Option Nat}
    {rest : List Task} {stages : List Stage} {sent : List (Nat × Packet)}
    (manager : SessionManager)
    (taken : InFlight.take system.tasks index = some ({ stage, request }, rest))
    (few : stages.length + sent.length ≤ 1) (number : Nat) :
    (system.follow manager rest request stages sent).uses number ≤ system.uses number := by
  have counted := InFlight.countP_take
    (fun task : Task => decide (task.request = some number)) taken
  simp only [uses, follow, List.countP_append, List.countP_map, Function.comp_def, counted]
  by_cases same : request = some number
  · simp only [same, decide_true, List.countP_true, if_true]
    omega
  · simp only [same, decide_false, List.countP_false, Function.const_apply, Bool.false_eq_true,
      if_false]
    omega

theorem step_once {terminal : Terminal} {system after : LoginSystem} {event : Event}
    (once : ∀ number, system.uses number ≤ if number < system.asked.length then 1 else 0)
    (stepped : Stepped terminal system event after) :
    ∀ number, after.uses number ≤ if number < after.asked.length then 1 else 0 := by
  intro number
  have before := once number
  cases stepped with
  | accepted _ => exact before
  | disconnected session => exact before
  | asked =>
      simp only [uses, List.countP_append, List.countP_singleton, List.length_append,
        List.length_singleton, Option.some.injEq, decide_eq_true_eq] at before ⊢
      by_cases new : system.asked.length = number
      · rw [if_pos new, if_pos (by omega)]
        rw [if_neg (by omega)] at before
        omega
      · rw [if_neg new]
        split at before <;> split <;> omega
  | received _ =>
      simpa [uses, List.countP_append, List.countP_singleton] using before
  | advanced taken retains worked =>
      exact (follow_uses _ taken (worked_few worked) number).trans before

theorem step_traced {terminal : Terminal} {system after : LoginSystem} {event : Event}
    (traced : Traced accountOf characterOf system) (fromServers : FromServers event)
    (newId : system.NewId event) (owned : system.Owned event)
    (stored : system.Stored accountOf characterOf event)
    (stepped : Stepped terminal system event after) : Traced accountOf characterOf after := by
  have grows := step_grows stepped
  refine ⟨step_identified traced.identified newId stepped, ?_, ?_, step_once traced.once stepped⟩
  · intro task member
    have earlier : task ∈ system.tasks → after.TaskTraced accountOf characterOf task :=
      fun waiting => grows.taskTraced (traced.tasks task waiting)
    cases stepped with
    | accepted _ => exact earlier member
    | disconnected session => exact earlier member
    | @asked session object id_ password_ =>
        rcases List.mem_append.mp member with waiting | new
        · exact earlier waiting
        · obtain rfl := List.mem_singleton.mp new
          exact Or.inr ⟨system.asked.length, _, rfl, List.getElem?_concat_length, rfl, rfl⟩
    | received other =>
        rcases List.mem_append.mp member with waiting | new
        · exact earlier waiting
        · obtain rfl := List.mem_singleton.mp new
          exact Or.inl ⟨other, fromServers⟩
    | @advanced index action stage request rest manager stages sent taken retains worked =>
        rcases List.mem_append.mp member with waiting | new
        · exact earlier (InFlight.mem_of_take taken waiting)
        · obtain ⟨next, follows, rfl⟩ := List.mem_map.mp new
          rcases traced.tasks _ (InFlight.take_mem taken) with idle | ⟨number, sender, rfl, found, held⟩
          · rw [(idle_worked idle worked).1] at follows
            simp at follows
          · obtain ⟨later, -⟩ := worked_traced traced.identified owned stored taken held worked
            exact Or.inr ⟨number, sender, rfl, found, later next follows⟩
  · intro reply member
    have earlier : reply ∈ system.replies → ∃ number, reply.request = some number ∧
        after.Answers accountOf characterOf reply number := by
      intro replied
      obtain ⟨number, same, answers⟩ := traced.replies reply replied
      exact ⟨number, same, grows.answers answers⟩
    cases stepped with
    | @advanced index action stage request rest manager stages sent taken retains worked =>
        rcases List.mem_append.mp member with replied | new
        · exact earlier replied
        · obtain ⟨told, follows, rfl⟩ := List.mem_map.mp new
          rcases traced.tasks _ (InFlight.take_mem taken) with idle | ⟨number, sender, rfl, found, held⟩
          · rw [(idle_worked idle worked).2] at follows
            simp at follows
          · obtain ⟨-, answered⟩ := worked_traced traced.identified owned stored taken held worked
            obtain ⟨same, justified⟩ := answered told follows
            have before := (List.getElem?_eq_some_iff.mp found).1
            exact ⟨number, rfl, before, sender, found, same, justified⟩
    | _ => exact earlier member

theorem Traced.matched {system : LoginSystem} (traced : Traced accountOf characterOf system) :
    Matched accountOf characterOf system := by
  refine ⟨system.replies.filterMap Reply.request, ?_, ?_⟩
  · refine List.nodup_iff_count_le_one.mpr ?_
    intro number
    have most : system.uses number ≤ 1 := by
      have once := traced.once number
      split at once <;> omega
    rw [List.count_filterMap]
    refine le_trans ?_ (le_trans (Nat.le_add_left _ _) most)
    refine List.countP_mono_left ?_
    intro reply _ same
    simpa using same
  · have answered := traced.replies
    generalize system.replies = replies at answered ⊢
    induction replies with
    | nil => exact List.Forall₂.nil
    | cons reply rest ih =>
        obtain ⟨number, same, answers⟩ := answered reply List.mem_cons_self
        rw [List.filterMap_cons_some same]
        exact List.Forall₂.cons answers
          (ih fun other member => answered other (List.mem_cons_of_mem _ member))

end

/-- Each reply is matched with an earlier login of its session in a run in which
logins are executed for the sessions that sent them and ids do not run out. -/
theorem always_matched (accountOf : Str → Str → Option Int32)
    (characterOf : UInt64 → Option Str) (terminal : Terminal) (maxConnection : Int)
    (events : List Event) (fromServers : ∀ event ∈ events, FromServers event)
    (stored : Runs.Throughout (step terminal) (Stored accountOf characterOf)
      (initial maxConnection) events)
    (owned : Runs.Throughout (step terminal)
      (fun system event => system.NewId event ∧ system.Owned event) (initial maxConnection)
      events) :
    Runs.Always (step terminal) (Matched accountOf characterOf) (initial maxConnection) events := by
  refine Runs.always_of_throughout ?_ (fun _ => Traced.matched) (initial_traced maxConnection)
    ((Runs.throughout_of_events fromServers).and (stored.and owned))
  rintro system event after traced ⟨fromServers, stored, newId, owned⟩ taken
  exact step_traced traced fromServers newId owned stored (step_ok taken)

def accounts (id_ _password_ : Str) : Option Int32 := if id_ = [97] then some 7 else none

def characters (oidAccountId_ : UInt64) : Option Str :=
  if oidAccountId_ = 7 then some [110] else none

theorem always_matched_login :
    Runs.Always (step { ip_ := [], port_ := 9200 }) (Matched accounts characters)
      (initial SESSION_CAPACITY)
      (login [{ oidAccount := some 7, name := none }] [{ oidAccount := none, name := some [110] }]) :=
  always_matched accounts characters { ip_ := [], port_ := 9200 } SESSION_CAPACITY
    (login [{ oidAccount := some 7, name := none }] [{ oidAccount := none, name := some [110] }])
    (by simp [login, FromServers, isServers]) (by decide) (by decide)

/-- The client leaves before its login is executed, and the next one is put at
the same address. -/
theorem matched_next_session :
    ¬ ∀ events : List Event, (∀ event ∈ events, FromServers event) →
      Runs.Throughout (step { ip_ := [], port_ := 9200 }) (Stored accounts characters)
        (initial SESSION_CAPACITY) events →
      Runs.Always (step { ip_ := [], port_ := 9200 }) (Matched accounts characters)
        (initial SESSION_CAPACITY) events := by
  intro always
  let events : List Event := [.accept 16, .accept 32, .receive 16 (.PK_C_REQ_ID_PW [98] [98]),
    .disconnected 16, .accept 16, .advance 0 .execute, .advance 0 .handle,
    .advance 0 (.respond [] 0), .advance 0 (.deliver 32), .advance 0 .execute]
  have matched := always events (by simp [events, FromServers, isServers]) (by decide)
  have computed : (Runs.run (step { ip_ := [], port_ := 9200 }) (initial SESSION_CAPACITY)
      events).toOption.map (fun system => (system.asked, system.replies)) =
        some ([{ connection := 1, id_ := [98], password_ := [98] }],
          [{ connection := 3, packet := .PK_S_ANS_ID_PW_FAIL, request := some 0, after := 1 }]) := by
    decide
  obtain ⟨finish, reached, view⟩ := Runs.run_view computed
  obtain ⟨asked, replies⟩ := Prod.mk.inj view
  obtain ⟨numbers, -, answers⟩ := matched.finish reached
  rw [replies] at answers
  cases answers with
  | @cons _ number _ _ answer _ =>
      obtain ⟨earlier, request, found, same, -⟩ := answer
      obtain rfl : number = 0 := by simpa using earlier
      rw [asked] at found
      cases found
      exact absurd same (by decide)

end LoginSystem

end GraduationServer
