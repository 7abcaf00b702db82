import GraduationServer.LoginReplies

/-!
That no login is lost between the servers. A login has one task or one reply as
long as its client stays, unless the account has no character: the LoginServer
says nothing then.
-/

namespace GraduationServer

open DBAgent (Query Row)

namespace SessionManager

theorem findSession_lives {seed id : oid_t} {sessions : List Session}
    (below : ∀ object ∈ sessions, object.id_.toNat < seed.toNat)
    (lives : ∃ object ∈ sessions, object.id_ = id) :
    ∃ client, findSession seed id sessions = some client := by
  induction sessions with
  | nil =>
      obtain ⟨object, member, -⟩ := lives
      cases member
  | cons first rest ih =>
      have early : ¬ seed ≤ first.id_ := by
        have under := below first List.mem_cons_self
        rw [UInt64.le_iff_toNat_le]
        omega
      rw [findSession, if_neg early]
      by_cases same : first.id_ = id
      · exact ⟨first, by rw [if_pos same]⟩
      · rw [if_neg same]
        apply ih
        · intro object member
          exact below object (List.mem_cons_of_mem _ member)
        · obtain ⟨object, member, own⟩ := lives
          rcases List.mem_cons.mp member with here | later
          · exact absurd (here ▸ own) same
          · exact ⟨object, later, own⟩

end SessionManager

namespace LoginSystem

def Connected (system : LoginSystem) (connection : Nat) : Prop :=
  ∃ object ∈ system.manager.sessionList_, object.addrInfo_ = connection

section

variable (accountOf : Str → Str → Option Int32) (characterOf : UInt64 → Option Str)

def LacksCharacter (request : Request) : Prop :=
  ∃ oidAccountId_, HasAccount accountOf request oidAccountId_ ∧ characterOf oidAccountId_ = none

/-- A login whose client is still there and whose account, if it has one, has a
character is one task or has one reply. -/
def Accounted (system : LoginSystem) : Prop :=
  ∀ number request, system.asked[number]? = some request →
    system.Connected request.connection → ¬ LacksCharacter accountOf characterOf request →
    system.uses number = 1

def Headed (request : Request) : Stage → Prop
  | .package _ (some _) => True
  | .package package none => Answer package.packet_
  | .packet .LoginServer packet => Answer packet
  | .packet .DBAgent (.PK_I_DB_REQ_ID_PW _ _ _) => True
  | .packet .DBAgent (.PK_I_DB_REQ_LOAD_DATA _ _) => True
  | .packet .ChattingServer (.PK_I_CHTTING_NOTIFY_ID _ _) => True
  | .packet .ChattingServer (.PK_I_DB_ANS_PARSE_DATA _ _ result_) =>
      result_ = 0 → LacksCharacter accountOf characterOf request
  | .packet _ _ => False
  | .query _ => True
where
  Answer : Packet → Prop
    | .PK_I_DB_ANS_ID_PW _ _ _ => True
    | .PK_I_LOGIN_NOTIFY_ID_LOADED _ _ result_ =>
        result_ = 0 → LacksCharacter accountOf characterOf request
    | _ => False

end

structure Placed (accountOf : Str → Str → Option Int32) (characterOf : UInt64 → Option Str)
    (system : LoginSystem) : Prop where
  sessions : ∀ object ∈ system.manager.sessionList_, object.addrInfo_ ≤ system.accepted
  askers : ∀ request ∈ system.asked, request.connection ≤ system.accepted
  idle : ∀ task ∈ system.tasks, Idle task.stage → task.request = none
  headed : ∀ task ∈ system.tasks, ∀ number request, task.request = some number →
    system.asked[number]? = some request → Headed accountOf characterOf request task.stage

section

variable {accountOf : Str → Str → Option Int32} {characterOf : UInt64 → Option Str}
variable {terminal : Terminal} {system after : LoginSystem} {request : Request} {stage : Stage}

theorem initial_placed (maxConnection : Int) :
    Placed accountOf characterOf (initial maxConnection) := by
  constructor
  · intro object member
    simp [initial, SessionManager.init] at member
  · intro request member
    simp [initial] at member
  · intro task member
    simp [initial] at member
  · intro task member
    simp [initial] at member

theorem initial_accounted (maxConnection : Int) :
    Accounted accountOf characterOf (initial maxConnection) := by
  intro number request found
  simp [initial] at found

theorem traced_busy (traced : StageTraced accountOf characterOf request stage) : ¬ Idle stage := by
  intro idle
  cases stage with
  | package package sender =>
      cases sender with
      | none => exact idle
      | some connection => simp [Idle, traced.1, isLogin] at idle
  | packet receiver packet => exact idle
  | query query => exact idle

theorem session_connected (identified : system.Identified)
    (placed : Placed accountOf characterOf system) {clientId_ : UInt64}
    (connected : system.Connected clientId_.toNat) :
    ∃ client, system.manager.session clientId_ = some client := by
  apply SessionManager.findSession_lives
  · intro object lives
    have own := identified.ids object lives
    have most := placed.sessions object lives
    have seed := identified.seed
    omega
  · obtain ⟨object, lives, number⟩ := connected
    refine ⟨object, lives, ?_⟩
    apply UInt64.toNat_inj.mp
    rw [identified.ids object lives, number]

theorem run_handle {manager : SessionManager} {package : Package} {outcome : Outcome Terminal}
    (known : LoginServer.registSubPacketFunc package.packet_.type = some (.sub LoginServer.subFunc))
    (ran : ContentsProcess.run LoginServer.registSubPacketFunc terminal manager package =
      .ok outcome) :
    LoginServer.handle terminal manager package.session_ package.packet_ = .ok outcome.sent := by
  cases ContentsProcess.run_ran ran with
  | closed asked _ => rcases asked with other | other <;> cases known.symm.trans other
  | heartBeat other _ => cases known.symm.trans other
  | terminal other _ => cases known.symm.trans other
  | refused other decided =>
      cases known.symm.trans other
      cases decided
  | handled other _ handled =>
      cases known.symm.trans other
      obtain ⟨sent, handled, same⟩ := Exec.bind_ok handled
      cases same
      exact handled

theorem respond_account (clientId_ : UInt64) (id_ password_ : Str) (record : List Row)
    (unset : UInt64) : ∃ oid result_,
      Query.respond record unset (.QI_DB_REQ_ID_PW clientId_ id_ password_) =
        (.terminal .LoginServer, .PK_I_DB_ANS_ID_PW clientId_ oid result_) := by
  cases record with
  | nil => exact ⟨_, _, rfl⟩
  | cons row rest =>
      obtain ⟨oidAccount, name⟩ := row
      cases oidAccount with
      | none => exact ⟨_, _, rfl⟩
      | some oidAccount => exact ⟨_, _, rfl⟩

theorem work_goes_on (identified : system.Identified)
    (placed : Placed accountOf characterOf system)
    (traced : StageTraced accountOf characterOf request stage)
    (headed : Headed accountOf characterOf request stage)
    (connected : system.Connected request.connection)
    (character : ¬ LacksCharacter accountOf characterOf request) {action : Action}
    {manager : SessionManager} {stages : List Stage} {sent : List (Nat × Packet)}
    (worked : work terminal system.manager stage action = .ok (manager, stages, sent)) :
    stages.length + sent.length = 1 := by
  rw [work.eq_def] at worked
  split at worked
  · split at worked
    · cases worked
      rfl
    · cases worked
  · rename_i package sender
    obtain ⟨outcome, ran, worked⟩ := Exec.bind_ok worked
    cases worked
    cases sender with
    | some connection =>
        have handled := run_handle (by rw [traced.1]; rfl) ran
        rw [traced.1, LoginServer.handle, LoginServer.C_REQ_ID_PW] at handled
        obtain ⟨object, -, handled⟩ := Exec.bind_ok handled
        cases outcome
        cases handled
        rfl
    | none =>
        obtain ⟨session_, packet_⟩ := package
        cases packet_ with
        | PK_I_DB_ANS_ID_PW clientId_ oidAccountId_ result_ =>
            have handled := run_handle rfl ran
            obtain ⟨client, found⟩ := session_connected identified placed (traced.1 ▸ connected)
            simp only [LoginServer.handle, LoginServer.I_DB_ANS_ID_PW, found] at handled
            cases outcome
            by_cases rejected : result_ = 0
            · rw [if_pos rejected] at handled
              cases handled
              rfl
            · rw [if_neg rejected] at handled
              cases handled
              rfl
        | PK_I_LOGIN_NOTIFY_ID_LOADED clientId_ name_ result_ =>
            have handled := run_handle rfl ran
            obtain ⟨client, found⟩ := session_connected identified placed (traced.1 ▸ connected)
            have loaded : result_ ≠ 0 := fun none => character (headed none)
            rw [LoginServer.handle, LoginServer.I_LOGIN_NOTIFY_ID_LOADED, if_neg loaded, found]
              at handled
            obtain ⟨_, -, handled⟩ := Exec.bind_ok handled
            cases outcome
            cases handled
            rfl
        | _ => exact absurd headed id
  · rename_i packet
    cases worked
    cases packet with
    | PK_I_DB_REQ_ID_PW => rfl
    | PK_I_DB_REQ_LOAD_DATA => rfl
    | _ => exact absurd headed id
  · rename_i packet
    cases worked
    cases packet with
    | PK_I_CHTTING_NOTIFY_ID => rfl
    | PK_I_DB_ANS_PARSE_DATA => rfl
    | _ => exact absurd headed id
  · rename_i query record unset
    cases worked
    cases query with
    | QI_DB_REQ_ID_PW clientId_ id_ password_ =>
        obtain ⟨oid, result_, same⟩ := respond_account clientId_ id_ password_ record unset
        rw [same]
        rfl
    | QI_DB_REQ_LOAD_DATA clientId_ oidAccountId_ => rfl
  · cases worked

theorem responded_headed {query : Query} {unset : UInt64}
    (traced : StageTraced accountOf characterOf request (.query query)) :
    ∀ next ∈ outgoing [query.respond (select accountOf characterOf query) unset],
      Headed accountOf characterOf request next := by
  intro next member
  cases query with
  | QI_DB_REQ_ID_PW clientId_ id_ password_ =>
      obtain ⟨oid, result_, same⟩ := respond_account clientId_ id_ password_
        (select accountOf characterOf (.QI_DB_REQ_ID_PW clientId_ id_ password_)) unset
      rw [same] at member
      cases List.mem_singleton.mp member
      trivial
  | QI_DB_REQ_LOAD_DATA clientId_ oidAccountId_ =>
      obtain ⟨-, account⟩ := traced
      cases character : characterOf oidAccountId_ with
      | none =>
          simp only [select, character, Option.toList_none, List.map_nil, Query.respond, outgoing,
            List.foldl_nil, List.filterMap_cons, List.filterMap_nil, List.mem_singleton] at member
          subst member
          exact fun _ => ⟨oidAccountId_, account, character⟩
      | some name =>
          simp only [select, character, Option.toList_some, List.map_cons, List.map_nil,
            Query.respond, outgoing, List.foldl_cons, List.foldl_nil, List.filterMap_cons,
            List.filterMap_nil, List.mem_singleton] at member
          subst member
          intro impossible
          exact absurd impossible (by decide)

theorem worked_headed {index : Nat} {action : Action} {number : Option Nat} {rest : List Task}
    {stages : List Stage} {sent : List (Nat × Packet)}
    (stored : system.Stored accountOf characterOf (.advance index action))
    (taken : InFlight.take system.tasks index = some ({ stage, request := number }, rest))
    (traced : StageTraced accountOf characterOf request stage)
    (headed : Headed accountOf characterOf request stage)
    (worked : Worked terminal system.manager stage action stages sent) :
    ∀ next ∈ stages, Headed accountOf characterOf request next := by
  have followed {next : Stage} (goes : Headed accountOf characterOf request next) :
      ∀ other ∈ [next], Headed accountOf characterOf request other := by
    intro other member
    exact List.mem_singleton.mp member ▸ goes
  cases worked with
  | nothing => simp
  | failed => simp
  | loaded => simp
  | delivered session packet => exact followed headed
  | asked => exact followed trivial
  | notified => exact followed trivial
  | queriedAccount => exact followed trivial
  | queriedCharacter => exact followed trivial
  | relayedAccount => exact followed trivial
  | relayedCharacter clientId_ name_ result_ => exact followed headed
  | responded query record unset =>
      have same : record = select accountOf characterOf query :=
        stored (query, record) (by simp [answered, taken])
      subst same
      exact responded_headed traced

theorem receive_ok {session : SessionPtr} {packet : Packet}
    (taken : system.step terminal (.receive session packet) = .ok after) :
    ∃ object ∈ system.manager.sessionList_, after.asked = system.asked ∨
      ∃ id_ password_, after.asked =
        system.asked ++ [{ connection := object.addrInfo_, id_, password_ }] := by
  obtain ⟨object, used, taken⟩ := Exec.bind_ok taken
  refine ⟨object, (SessionManager.deref_ok used).1, ?_⟩
  split at taken
  · cases taken
    exact Or.inr ⟨_, _, rfl⟩
  · cases taken
    exact Or.inl rfl

theorem advance_ok {index : Nat} {action : Action}
    (taken : system.step terminal (.advance index action) = .ok after) :
    ∃ stage number rest manager stages sent,
      InFlight.take system.tasks index = some ({ stage, request := number }, rest) ∧
        work terminal system.manager stage action = .ok (manager, stages, sent) ∧
        after = system.follow manager rest number stages sent := by
  rw [step] at taken
  split at taken
  · cases taken
  · rename_i task rest here
    obtain ⟨⟨manager, stages, sent⟩, worked, taken⟩ := Exec.bind_ok taken
    cases taken
    exact ⟨task.stage, task.request, rest, manager, stages, sent, here, worked, rfl⟩

theorem Placed.retains (placed : Placed accountOf characterOf system)
    {manager : SessionManager} (retains : system.manager.Retains manager) :
    ∀ object ∈ manager.sessionList_, object.addrInfo_ ≤ system.accepted := by
  intro object lives
  obtain ⟨earlier, lived, -, peer⟩ := retains.2 object lives
  exact peer ▸ placed.sessions earlier lived

theorem Connected.retained {manager : SessionManager} {connection : Nat}
    (retains : system.manager.Retains manager)
    (connected : ∃ object ∈ manager.sessionList_, object.addrInfo_ = connection) :
    system.Connected connection := by
  obtain ⟨object, lives, own⟩ := connected
  obtain ⟨earlier, lived, -, peer⟩ := retains.2 object lives
  exact ⟨earlier, lived, peer.trans own⟩

theorem accept_numbers {session : SessionPtr} {manager : SessionManager}
    (accepted : system.manager.accept session (system.accepted + 1) = .ok manager) :
    let count := if manager.registered session then system.accepted + 1 else system.accepted
    system.accepted ≤ count ∧ ∀ object ∈ manager.sessionList_,
      object ∈ system.manager.sessionList_ ∨
        object.addrInfo_ = system.accepted + 1 ∧ count = system.accepted + 1 := by
  obtain ⟨-, fresh, rfl | ⟨-, added⟩⟩ := SessionManager.accept_ok accepted
  · exact ⟨by simp [fresh], fun object lives => Or.inl lives⟩
  · have present : manager.registered session = true := by
      rw [SessionManager.registered_iff, added]
      exact ⟨_, List.mem_append_right _ List.mem_cons_self, rfl⟩
    refine ⟨by simp [present], ?_⟩
    intro object lives
    rw [added] at lives
    rcases List.mem_append.mp lives with lived | new
    · exact Or.inl lived
    · exact Or.inr ⟨List.mem_singleton.mp new ▸ rfl, by simp [present]⟩

theorem follow_uses_same {index : Nat} {number : Option Nat} {rest : List Task}
    {stages : List Stage} {sent : List (Nat × Packet)} (manager : SessionManager)
    (taken : InFlight.take system.tasks index = some ({ stage, request := number }, rest))
    (own : Nat) (onward : number = some own → stages.length + sent.length = 1) :
    (system.follow manager rest number stages sent).uses own = system.uses own := by
  have counted := InFlight.countP_take (fun task : Task => decide (task.request = some own)) taken
  simp only [uses, follow, List.countP_append, List.countP_map, Function.comp_def, counted]
  by_cases same : number = some own
  · have one := onward same
    simp only [same, decide_true, List.countP_true, if_true]
    omega
  · simp only [same, decide_false, List.countP_false, Function.const_apply, Bool.false_eq_true,
      if_false]
    omega

theorem step_askers {event : Event} (placed : Placed accountOf characterOf system)
    (taken : system.step terminal event = .ok after) :
    ∀ request ∈ after.asked, request.connection ≤ after.accepted := by
  intro request member
  cases event with
  | accept session =>
      obtain ⟨manager, accepted, taken⟩ := Exec.bind_ok taken
      cases taken
      exact (placed.askers request member).trans (accept_numbers accepted).1
  | disconnected session =>
      rw [step] at taken
      split at taken
      · cases taken
        exact placed.askers request member
      · cases taken
  | receive session packet =>
      obtain ⟨object, lives, same | ⟨id_, password_, same⟩⟩ := receive_ok taken
      · obtain ⟨_, -, taken⟩ := Exec.bind_ok taken
        rw [same] at member
        split at taken
        · cases taken
          exact placed.askers request member
        · cases taken
          exact placed.askers request member
      · obtain ⟨_, -, taken⟩ := Exec.bind_ok taken
        rw [same] at member
        have most : request.connection ≤ system.accepted := by
          rcases List.mem_append.mp member with earlier | new
          · exact placed.askers request earlier
          · exact List.mem_singleton.mp new ▸ placed.sessions object lives
        split at taken
        · cases taken
          exact most
        · cases taken
          exact most
  | advance index action =>
      obtain ⟨stage, number, rest, manager, stages, sent, -, -, rfl⟩ := advance_ok taken
      exact placed.askers request member

theorem step_placed {event : Event} (traced : Traced accountOf characterOf system)
    (placed : Placed accountOf characterOf system)
    (owned : system.Owned event) (stored : system.Stored accountOf characterOf event)
    (taken : system.step terminal event = .ok after) : Placed accountOf characterOf after := by
  have stepped := step_ok taken
  have grows := step_grows stepped
  -- a task that stays was headed for the same request before
  have stays (task : Task) (member : task ∈ system.tasks) (number : Nat) (request : Request)
      (own : task.request = some number) (found : after.asked[number]? = some request) :
      Headed accountOf characterOf request task.stage := by
    rcases traced.tasks task member with idle | ⟨other, earlier, same, asked, -⟩
    · rw [placed.idle task member idle] at own
      cases own
    · cases own.symm.trans same
      cases (grows.asked asked).symm.trans found
      exact placed.headed task member number request own asked
  constructor
  · intro object lives
    cases stepped with
    | accepted accepted =>
        rcases (accept_numbers accepted).2 object lives with lived | ⟨new, count⟩
        · exact (placed.sessions object lived).trans (accept_numbers accepted).1
        · exact (new.trans count.symm).le
    | disconnected session =>
        exact placed.retains (SessionManager.retains_closeSession _ session) object lives
    | asked => exact placed.sessions object lives
    | received => exact placed.sessions object lives
    | advanced _ retains _ => exact placed.retains retains object lives
  · exact step_askers placed taken
  · intro task member idle
    cases stepped with
    | accepted _ => exact placed.idle task member idle
    | disconnected session => exact placed.idle task member idle
    | asked =>
        rcases List.mem_append.mp member with waiting | new
        · exact placed.idle task waiting idle
        · cases List.mem_singleton.mp new
          simp [Idle, isLogin] at idle
    | received _ =>
        rcases List.mem_append.mp member with waiting | new
        · exact placed.idle task waiting idle
        · cases List.mem_singleton.mp new
          rfl
    | advanced here _ worked =>
        rcases List.mem_append.mp member with waiting | new
        · exact placed.idle task (InFlight.mem_of_take here waiting) idle
        · obtain ⟨next, follows, rfl⟩ := List.mem_map.mp new
          rcases traced.tasks _ (InFlight.take_mem here) with
            earlier | ⟨number, sender, rfl, -, held⟩
          · rw [(idle_worked earlier worked).1] at follows
            cases follows
          · have later := (worked_traced traced.identified owned stored here held worked).1
            exact absurd idle (traced_busy (later next follows))
  · intro task member number request own found
    cases stepped with
    | accepted _ => exact stays task member number request own found
    | disconnected session => exact stays task member number request own found
    | asked =>
        rcases List.mem_append.mp member with waiting | new
        · exact stays task waiting number request own found
        · cases List.mem_singleton.mp new
          trivial
    | received _ =>
        rcases List.mem_append.mp member with waiting | new
        · exact stays task waiting number request own found
        · cases List.mem_singleton.mp new
          cases own
    | advanced here _ worked =>
        rcases List.mem_append.mp member with waiting | new
        · exact stays task (InFlight.mem_of_take here waiting) number request own found
        · obtain ⟨next, follows, rfl⟩ := List.mem_map.mp new
          have before := InFlight.take_mem here
          have headed := stays _ before number request own found
          rcases traced.tasks _ before with idle | ⟨other, sender, same, asked, held⟩
          · cases (placed.idle _ before idle).symm.trans own
          · cases own.symm.trans same
            cases (grows.asked asked).symm.trans found
            exact worked_headed stored here held headed worked next follows

theorem advance_uses {index number : Nat} {action : Action}
    (traced : Traced accountOf characterOf system) (placed : Placed accountOf characterOf system)
    (taken : system.step terminal (.advance index action) = .ok after)
    (found : system.asked[number]? = some request)
    (connected : system.Connected request.connection)
    (character : ¬ LacksCharacter accountOf characterOf request) :
    after.uses number = system.uses number := by
  obtain ⟨stage, own, rest, manager, stages, sent, here, worked, rfl⟩ := advance_ok taken
  apply follow_uses_same _ here
  rintro rfl
  have member := InFlight.take_mem here
  rcases traced.tasks _ member with idle | ⟨other, sender, same, asked, held⟩
  · cases placed.idle _ member idle
  · cases same
    cases asked.symm.trans found
    have headed := placed.headed _ member number request rfl found
    exact work_goes_on traced.identified placed held headed connected character worked

theorem step_accounted {event : Event} (traced : Traced accountOf characterOf system)
    (placed : Placed accountOf characterOf system)
    (accounted : Accounted accountOf characterOf system)
    (taken : system.step terminal event = .ok after) : Accounted accountOf characterOf after := by
  intro number request found connected character
  have stepped := step_ok taken
  cases event with
  | accept session =>
      cases stepped with
      | accepted accepted =>
          refine accounted number request found ?_ character
          obtain ⟨object, lives, own⟩ := connected
          rcases (accept_numbers accepted).2 object lives with lived | ⟨new, -⟩
          · exact ⟨object, lived, own⟩
          · have most := placed.askers request (List.mem_of_getElem? found)
            omega
  | disconnected session =>
      cases stepped
      have retains := SessionManager.retains_closeSession system.manager session
      exact accounted number request found (Connected.retained retains connected) character
  | receive session packet =>
      cases stepped with
      | asked =>
          have once := traced.once number
          simp only [uses, List.countP_append, List.countP_singleton, Option.some.injEq,
            decide_eq_true_eq] at once ⊢
          by_cases new : system.asked.length = number
          · rw [if_neg (by omega)] at once
            rw [if_pos new]
            omega
          · rw [if_neg new]
            refine accounted number request ?_ connected character
            rw [List.getElem?_append] at found
            split at found
            · exact found
            · rw [List.getElem?_eq_none (by simp; omega)] at found
              cases found
      | received other =>
          have before := accounted number request found connected character
          simpa [uses, List.countP_append, List.countP_singleton] using before
  | advance index action =>
      obtain ⟨_, _, _, manager, _, _, _, worked, rfl⟩ := advance_ok taken
      have connected := Connected.retained (work_ok worked).1 connected
      exact (advance_uses traced placed taken found connected character).trans
        (accounted number request found connected character)

end

end LoginSystem

end GraduationServer
