import GraduationServer.ChatExit
import GraduationServer.ChatNames

/-!
The chat as its clients see it. Who hears a line, and under which name, follows
from what was asked before: a session hears all that is said from its first
`PK_C_REQ_LOBBY_INFO` on until a room is handed over with it.
-/

namespace GraduationServer

namespace ChattingServer

def handed (sent : List (Receiver × Packet)) : List oid_t :=
  (toTerminal .InGameServer sent).flatMap fun
    | .PK_I_USER_INFO _ User1_ID User2_ID => [User1_ID, User2_ID]
    | _ => []

def asksLobby : Packet → Bool
  | .PK_C_REQ_LOBBY_INFO _ _ => true
  | _ => false

/-- The session that is told the chat under an id; the latest exchange comes first. -/
def listener (id_ : oid_t) : List Exchange → Option SessionPtr
  | [] => none
  | exchange :: earlier =>
      if id_ ∈ handed exchange.sent then none
      else
        match listener id_ earlier with
        | some session => some session
        | none =>
            if exchange.id_ = some id_ ∧ asksLobby exchange.package.packet_ then
              some exchange.package.session_
            else none

def speaker (codePage : CodePage) (id_ : oid_t) : List Exchange → Option WStr
  | [] => none
  | exchange :: earlier =>
      match speaker codePage id_ earlier with
      | some name => some name
      | none =>
          match exchange.id_, exchange.package.packet_ with
          | some other, .PK_C_REQ_REGIST_CHATTING_NAME name_ =>
              if other = id_ then (StrConvA2W codePage (Stream.cString name_)).toOption else none
          | _, _ => none

def isLine : Packet → Bool
  | .PK_S_ANS_CHATTING _ _ => true
  | _ => false

/-- A line of a speaker goes once to each listener, in the order of their ids;
who has no name says nothing, and nothing else that is sent is a line. -/
def Told (codePage : CodePage) (earlier : List Exchange) (exchange : Exchange) : Prop :=
  match exchange.package.packet_ with
  | .PK_C_REQ_CHATTING text_ =>
      match exchange.id_.bind fun id_ => speaker codePage id_ earlier with
      | none => exchange.sent = []
      | some userName => ∃ (name : Str) (listeners : List (oid_t × SessionPtr)),
          StrConvW2A codePage userName = .ok name ∧
          (listeners.map Prod.fst).Pairwise (· < ·) ∧
          (∀ id_ session, (id_, session) ∈ listeners ↔ listener id_ earlier = some session) ∧
          exchange.sent = listeners.map fun entry =>
            (.session entry.2, .PK_S_ANS_CHATTING name text_)
  | _ => ∀ entry ∈ exchange.sent, isLine entry.2 = false

def Heard (codePage : CodePage) : List Exchange → Prop
  | [] => True
  | exchange :: earlier => Told codePage earlier exchange ∧ Heard codePage earlier

section

variable {key : oid_t} {session : SessionPtr} {storage : List (oid_t × SessionPtr)}

theorem insertSession_keys {other : oid_t}
    (member : other ∈ (LobbyManager.insertSession key session storage).map Prod.fst) :
    other = key ∨ other ∈ storage.map Prod.fst := by
  obtain ⟨entry, inside, rfl⟩ := List.mem_map.mp member
  rcases mem_insertSession inside with old | rfl
  · exact Or.inr (List.mem_map_of_mem old)
  · exact Or.inl rfl

theorem insertSession_sorted (sorted : (storage.map Prod.fst).Pairwise (· < ·)) :
    ((LobbyManager.insertSession key session storage).map Prod.fst).Pairwise (· < ·) := by
  induction storage with
  | nil => simp [LobbyManager.insertSession]
  | cons first rest ih =>
      obtain ⟨other, present⟩ := first
      rw [List.map_cons, List.pairwise_cons] at sorted
      obtain ⟨least, later⟩ := sorted
      rw [LobbyManager.insertSession]
      split_ifs with less same
      · rw [List.map_cons, List.map_cons, List.pairwise_cons, List.pairwise_cons]
        refine ⟨?_, least, later⟩
        intro another member
        rcases List.mem_cons.mp member with rfl | behind
        · exact less
        · exact UInt64.lt_trans less (least another behind)
      · rw [List.map_cons, List.pairwise_cons]
        exact ⟨least, later⟩
      · rw [List.map_cons, List.pairwise_cons]
        refine ⟨?_, ih later⟩
        intro another member
        rcases insertSession_keys member with rfl | behind
        · exact UInt64.lt_of_le_of_ne (UInt64.not_lt.mp less) (Ne.symm same)
        · exact least another behind

theorem mem_insertSession_iff (sorted : (storage.map Prod.fst).Pairwise (· < ·)) {id_ : oid_t}
    {held : SessionPtr} :
    (id_, held) ∈ LobbyManager.insertSession key session storage ↔
      (id_, held) ∈ storage ∨
        id_ = key ∧ held = session ∧ ∀ present, (key, present) ∉ storage := by
  induction storage with
  | nil => simp [LobbyManager.insertSession]
  | cons first rest ih =>
      obtain ⟨other, present⟩ := first
      rw [List.map_cons, List.pairwise_cons] at sorted
      obtain ⟨least, later⟩ := sorted
      rw [LobbyManager.insertSession]
      split_ifs with less same
      · have absent : ∀ another, (key, another) ∉ (other, present) :: rest := by
          intro another member
          rcases List.mem_cons.mp member with same | behind
          · cases same
            exact UInt64.lt_irrefl _ less
          · exact UInt64.lt_asymm less (least key (List.mem_map_of_mem behind))
        rw [List.mem_cons, Prod.mk.injEq, or_comm]
        exact or_congr_right ⟨fun own => ⟨own.1, own.2, absent⟩, fun own => ⟨own.1, own.2.1⟩⟩
      · subst same
        rw [iff_self_or]
        rintro ⟨-, -, absent⟩
        exact absurd List.mem_cons_self (absent present)
      · have elsewhere : (∀ another, (key, another) ∉ (other, present) :: rest) ↔
            ∀ another, (key, another) ∉ rest := by
          simp [same]
        rw [List.mem_cons, List.mem_cons, ih later, elsewhere, or_assoc]

end

/-! What running a package does to `session_storage`, and what it sends. -/

section

variable {manager : SessionManager} {package : Package} {packet : Packet}

theorem broadcast_eq {storage : List (oid_t × SessionPtr)} {sent : List (Receiver × Packet)}
    (done : broadcast manager packet storage = .ok sent) :
    sent = storage.map fun entry => (.session entry.2, packet) := by
  induction storage generalizing sent with
  | nil =>
      cases done
      rfl
  | cons first rest ih =>
      obtain ⟨_, -, done⟩ := Exec.bind_ok done
      obtain ⟨others, later, done⟩ := Exec.bind_ok done
      cases done
      rw [List.map_cons, ih later]

theorem notifyUsers_packet {fuel : Nat} {room left : Room} {sent : List (Receiver × Packet)}
    (done : notifyUsers manager packet fuel room = .ok (left, sent)) :
    ∀ entry ∈ sent, entry.2 = packet := by
  induction fuel generalizing room sent with
  | zero => cases done
  | succ fuel ih =>
      rw [notifyUsers] at done
      split at done
      · obtain ⟨user1, -, done⟩ := Exec.bind_ok done
        split at done
        · cases done
        · obtain ⟨⟨last, rest⟩, again, done⟩ := Exec.bind_ok done
          cases done
          intro entry member
          rcases List.mem_cons.mp member with rfl | member
          · rfl
          · rcases List.mem_cons.mp member with rfl | later
            · rfl
            · exact ih again entry later
      · obtain ⟨_, -, done⟩ := Exec.bind_ok done
        cases done
        intro entry member
        rw [List.mem_singleton.mp member]

theorem handed_append (first second : List (Receiver × Packet)) :
    handed (first ++ second) = handed first ++ handed second := by
  simp [handed]

theorem handed_broadcast {storage : List (oid_t × SessionPtr)} {sent : List (Receiver × Packet)}
    (done : broadcast manager packet storage = .ok sent) : handed sent = [] := by
  rw [handed, broadcast_toTerminal _ done]
  rfl

structure Leaves (storage after : List (oid_t × SessionPtr)) (sent : List (Receiver × Packet)) :
    Prop where
  left : after = storage.filter fun entry => entry.1 ∉ handed sent
  silent : ∀ entry ∈ sent, isLine entry.2 = false

theorem Leaves.same {storage : List (oid_t × SessionPtr)} {sent : List (Receiver × Packet)}
    (stay : handed sent = []) (silent : ∀ entry ∈ sent, isLine entry.2 = false) :
    Leaves storage storage sent :=
  ⟨by simp [stay], silent⟩

theorem enterRoom_leaves {lobby after : LobbyManager} {terminal : Terminal}
    {session : SessionPtr} {member_count Room_num : UInt64} {sent : List (Receiver × Packet)}
    (done : C_REQ_ENTER_ROOM lobby terminal manager session member_count Room_num =
      .ok (after, sent)) : Leaves lobby.session_storage after.session_storage sent := by
  obtain ⟨room, -, done⟩ := Exec.bind_ok done
  split at done
  · cases done
    exact Leaves.same rfl (by simp)
  · obtain ⟨_, -, done⟩ := Exec.bind_ok done
    obtain ⟨told, telling, done⟩ := Exec.bind_ok done
    have quiet : ∀ entry ∈ told, isLine entry.2 = false := by
      intro entry member
      rw [broadcast_sent telling entry member]
      rfl
    dsimp only at done
    split at done
    · obtain ⟨⟨handedOver, others⟩, handing, done⟩ := Exec.bind_ok done
      cases done
      obtain ⟨user1, -, handing⟩ := Exec.bind_ok handing
      obtain ⟨user2, -, handing⟩ := Exec.bind_ok handing
      obtain ⟨⟨left, notified⟩, notifying, handing⟩ := Exec.bind_ok handing
      cases handing
      have noted := (notifyUsers_ok .InGameServer notifying).2.2
      constructor
      · have ids : handed (told ++ (notified ++
            [(.terminal .InGameServer, .PK_I_USER_INFO Room_num user1.id_ user2.id_)])) =
            [user1.id_, user2.id_] := by
          rw [handed_append, handed_broadcast telling, handed_append, handed, noted]
          rfl
        rw [ids]
        simp [LobbyManager.put]
      · intro entry member
        rcases List.mem_append.mp member with told_here | member
        · exact quiet entry told_here
        · rcases List.mem_append.mp member with noted_here | last
          · rw [notifyUsers_packet notifying entry noted_here]
            rfl
          · rw [List.mem_singleton.mp last]
            rfl
    · cases done
      exact Leaves.same (handed_broadcast telling) quiet

variable {codePage : CodePage} {inGameServer : Terminal} {process : Process}
variable {outcome : Outcome Process}

/-- What running a package means to the chat: a listener more, a line, nothing
because the session has no name, or neither of these. -/
inductive RoomAfter (codePage : CodePage) (process : Process) (manager : SessionManager)
    (package : Package) (outcome : Outcome Process) : Prop
  | entered {object : Session} : asksLobby package.packet_ = true →
      manager.deref package.session_ = .ok object →
      outcome.process.lobby.session_storage =
        LobbyManager.insertSession object.id_ package.session_ process.lobby.session_storage →
      handed outcome.sent = [] → (∀ entry ∈ outcome.sent, isLine entry.2 = false) →
      RoomAfter codePage process manager package outcome
  | said {text_ name : Str} {object : Session} {user : User} :
      package.packet_ = .PK_C_REQ_CHATTING text_ →
      manager.deref package.session_ = .ok object →
      process.userPool_ object.id_ = some user → StrConvW2A codePage user.name_ = .ok name →
      outcome.process.lobby.session_storage = process.lobby.session_storage →
      outcome.sent = process.lobby.session_storage.map (fun entry =>
        (.session entry.2, .PK_S_ANS_CHATTING name text_)) →
      RoomAfter codePage process manager package outcome
  | unnamed {text_ : Str} {object : Session} : package.packet_ = .PK_C_REQ_CHATTING text_ →
      manager.deref package.session_ = .ok object → process.userPool_ object.id_ = none →
      outcome.process.lobby.session_storage = process.lobby.session_storage → outcome.sent = [] →
      RoomAfter codePage process manager package outcome
  | other : asksLobby package.packet_ = false →
      (∀ text_, package.packet_ ≠ .PK_C_REQ_CHATTING text_) →
      Leaves process.lobby.session_storage outcome.process.lobby.session_storage outcome.sent →
      RoomAfter codePage process manager package outcome

theorem lobbyInfo_room (asks : asksLobby package.packet_ = true)
    (ran : ContentsProcess.run (registSubPacketFunc codePage inGameServer) process manager package =
      .ok outcome) : RoomAfter codePage process manager package outcome := by
  obtain ⟨session, packet_⟩ := package
  cases packet_ with
  | PK_C_REQ_LOBBY_INFO member_count Room_num =>
      have found : registSubPacketFunc codePage inGameServer .E_C_REQ_LOBBY_INFO =
          some (.sub (subFunc codePage inGameServer)) := rfl
      simp only [ContentsProcess.run, Packet.type, found] at ran
      obtain ⟨refused, decided, ran⟩ := Exec.bind_ok ran
      cases decided
      obtain ⟨⟨after, sent⟩, handled, ran⟩ := Exec.bind_ok ran
      cases ran
      obtain ⟨⟨lobby, answers⟩, done, handled⟩ := Exec.bind_ok handled
      cases handled
      obtain ⟨object, used, done⟩ := Exec.bind_ok done
      cases done
      refine .entered rfl used rfl ?_ ?_
      · simp [handed, toTerminal]
      · intro entry member
        obtain ⟨room, -, rfl⟩ := List.mem_map.mp member
        rfl
  | _ => cases asks

theorem chatting_room {text_ : Str} (talks : package.packet_ = .PK_C_REQ_CHATTING text_)
    (ran : ContentsProcess.run (registSubPacketFunc codePage inGameServer) process manager package =
      .ok outcome) : RoomAfter codePage process manager package outcome := by
  obtain ⟨session, packet_⟩ := package
  obtain rfl : packet_ = .PK_C_REQ_CHATTING text_ := talks
  have found : registSubPacketFunc codePage inGameServer .E_C_REQ_CHATTING =
      some (.sub (subFunc codePage inGameServer)) := rfl
  simp only [ContentsProcess.run, Packet.type, found] at ran
  obtain ⟨refused, decided, ran⟩ := Exec.bind_ok ran
  obtain ⟨object, used, decided⟩ := Exec.bind_ok decided
  cases decided
  split at ran
  · rename_i absent
    cases ran
    exact .unnamed rfl used (by simpa using absent) rfl rfl
  · obtain ⟨⟨after, sent⟩, handled, ran⟩ := Exec.bind_ok ran
    cases ran
    obtain ⟨told, done, handled⟩ := Exec.bind_ok handled
    cases handled
    obtain ⟨object', used', done⟩ := Exec.bind_ok done
    obtain rfl : object = object' := Except.ok.inj (used.symm.trans used')
    split at done
    · cases done
    · rename_i user known
      obtain ⟨name, named, done⟩ := Exec.bind_ok done
      exact .said rfl used known named rfl (broadcast_eq done)

theorem broadcast_ends {storage : List (oid_t × SessionPtr)} :
    Exec.Ends (broadcast manager packet storage) ↔
      ∀ entry ∈ storage, Exec.Ends (manager.deref entry.2) := by
  induction storage with
  | nil => simp [broadcast]
  | cons first rest ih =>
      rw [List.forall_mem_cons, ← ih, broadcast, Exec.ends_bind]
      constructor
      · rintro ⟨present, used, others⟩
        exact ⟨⟨present, used⟩, Exec.ends_return.mp others⟩
      · rintro ⟨⟨present, used⟩, others⟩
        exact ⟨present, used, Exec.ends_return.mpr others⟩

theorem chatting_ends {text_ : Str} (talks : package.packet_ = .PK_C_REQ_CHATTING text_) :
    Exec.Ends (ContentsProcess.run (registSubPacketFunc codePage inGameServer) process manager
        package) ↔
      ∃ object, manager.deref package.session_ = .ok object ∧
        ∀ user, process.userPool_ object.id_ = some user →
          Exec.Ends (StrConvW2A codePage user.name_) ∧
          ∀ entry ∈ process.lobby.session_storage, Exec.Ends (manager.deref entry.2) := by
  obtain ⟨session, packet_⟩ := package
  obtain rfl : packet_ = .PK_C_REQ_CHATTING text_ := talks
  have found : registSubPacketFunc codePage inGameServer .E_C_REQ_CHATTING =
      some (.sub (subFunc codePage inGameServer)) := rfl
  simp only [ContentsProcess.run, Packet.type, found]
  rw [Exec.ends_bind]
  constructor
  · rintro ⟨refused, decided, ends⟩
    obtain ⟨object, used, decided⟩ := Exec.bind_ok decided
    cases decided
    refine ⟨object, used, ?_⟩
    intro user known
    simp only [known, Option.isNone_some, Bool.false_eq_true, if_false] at ends
    obtain ⟨⟨after, sent⟩, handled, -⟩ := Exec.ends_bind.mp ends
    obtain ⟨told, done, -⟩ := Exec.bind_ok handled
    obtain ⟨object', used', done⟩ := Exec.bind_ok done
    obtain rfl : object = object' := Except.ok.inj (used.symm.trans used')
    simp only [known] at done
    obtain ⟨name, named, done⟩ := Exec.bind_ok done
    exact ⟨⟨name, named⟩, broadcast_ends.mp ⟨told, done⟩⟩
  · rintro ⟨object, used, possible⟩
    have decided : (subFunc codePage inGameServer).refuses process manager session
        (.PK_C_REQ_CHATTING text_) = .ok (process.userPool_ object.id_).isNone := by
      simp only [subFunc, refuses, used]
      rfl
    refine ⟨_, decided, ?_⟩
    cases known : process.userPool_ object.id_ with
    | none => exact Exec.ends_ok _
    | some user =>
        obtain ⟨⟨name, named⟩, live⟩ := possible user known
        obtain ⟨told, done⟩ : Exec.Ends (broadcast manager (.PK_S_ANS_CHATTING name text_)
            process.lobby.session_storage) := broadcast_ends.mpr live
        have sends : C_REQ_CHATTING codePage process manager session text_ = .ok told := by
          simp only [C_REQ_CHATTING, used, Exec.ok_bind, known, named, done]
        obtain ⟨after, handled⟩ : Exec.Ends ((subFunc codePage inGameServer).handle process
            manager session (.PK_C_REQ_CHATTING text_)) := Exec.ends_return.mpr ⟨told, sends⟩
        simp only [Option.isNone_some, Bool.false_eq_true, if_false]
        rw [Exec.ends_bind]
        exact ⟨after, handled, Exec.ends_ok _⟩

theorem handle_leaves {session : SessionPtr} {after : Process} {sent : List (Receiver × Packet)}
    (notLobby : asksLobby packet = false) (notLine : ∀ text_, packet ≠ .PK_C_REQ_CHATTING text_)
    (handled : handle codePage inGameServer process manager session packet = .ok (after, sent)) :
    Leaves process.lobby.session_storage after.lobby.session_storage sent := by
  cases packet with
  | PK_I_CHTTING_NOTIFY_ID =>
      cases handled
      exact Leaves.same rfl (by simp [I_CHTTING_NOTIFY_ID, isLine])
  | PK_I_DB_ANS_PARSE_DATA =>
      cases handled
      exact Leaves.same rfl (by simp [I_DB_ANS_PARSE_DATA, isLine])
  | PK_C_REQ_REGIST_CHATTING_NAME name_ =>
      obtain ⟨userPool_, -, handled⟩ := Exec.bind_ok handled
      cases handled
      exact Leaves.same rfl (by simp)
  | PK_C_REQ_EXIT =>
      obtain ⟨⟨userPool_, answers⟩, done, handled⟩ := Exec.bind_ok handled
      cases handled
      obtain ⟨object, -, done⟩ := Exec.bind_ok done
      cases done
      exact Leaves.same (by simp [handed, toTerminal]) (by simp [isLine])
  | PK_C_REQ_CHATTING text_ => exact absurd rfl (notLine text_)
  | PK_C_REQ_LOBBY_INFO => cases notLobby
  | PK_C_REQ_ENTER_ROOM =>
      obtain ⟨⟨lobby, told⟩, done, handled⟩ := Exec.bind_ok handled
      cases handled
      exact enterRoom_leaves done
  | PK_I_INITIALIZE_ROOMMEMBER =>
      obtain ⟨lobby, done, handled⟩ := Exec.bind_ok handled
      cases handled
      obtain ⟨room, -, done⟩ := Exec.bind_ok done
      cases done
      exact Leaves.same rfl (by simp)
  | _ => cases handled

theorem run_room
    (ran : ContentsProcess.run (registSubPacketFunc codePage inGameServer) process manager package =
      .ok outcome) : RoomAfter codePage process manager package outcome := by
  by_cases asks : asksLobby package.packet_ = true
  · exact lobbyInfo_room asks ran
  by_cases talks : ∃ text_, package.packet_ = .PK_C_REQ_CHATTING text_
  · obtain ⟨text_, talks⟩ := talks
    exact chatting_room talks ran
  · have notLine : ∀ text_, package.packet_ ≠ .PK_C_REQ_CHATTING text_ := not_exists.mp talks
    refine .other (Bool.eq_false_iff.mpr asks) notLine ?_
    cases ContentsProcess.run_ran ran with
    | closed => exact Leaves.same rfl (by simp)
    | heartBeat => exact Leaves.same rfl (by simp)
    | terminal => exact Leaves.same rfl (by simp)
    | refused => exact Leaves.same rfl (by simp)
    | handled found _ handled =>
        rw [Host.table_sub found] at handled
        exact handle_leaves (Bool.eq_false_iff.mpr asks) notLine handled

end

namespace ChatLog

structure Follows (codePage : CodePage) (log : ChatLog) : Prop where
  sorted : (log.host.process.lobby.session_storage.map Prod.fst).Pairwise (· < ·)
  listeners : ∀ id_ session, (id_, session) ∈ log.host.process.lobby.session_storage ↔
    listener id_ log.exchanges = some session
  names : ∀ id_, (log.host.process.userPool_ id_).map User.name_ =
    speaker codePage id_ log.exchanges
  heard : Heard codePage log.exchanges

section

variable {codePage : CodePage} {inGameServer : Terminal} {log next : ChatLog} {package : Package}
variable {outcome : Outcome Process}

theorem initial_follows (maxConnection : Int) (num : Int32) :
    (initial maxConnection num).Follows codePage := by
  constructor
  · exact List.Pairwise.nil
  · intro id_ session
    simp [initial, Host.initial, LobbyManager.Init, listener]
  · exact fun _ => rfl
  · trivial

theorem speaker_other {exchange : Exchange} {earlier : List Exchange}
    (notRegist : ∀ name_, exchange.package.packet_ ≠ .PK_C_REQ_REGIST_CHATTING_NAME name_)
    (id_ : oid_t) : speaker codePage id_ (exchange :: earlier) = speaker codePage id_ earlier := by
  rw [speaker]
  split
  · rename_i known
    rw [known]
  · rename_i unknown
    rw [unknown]
    split
    · rename_i asks
      exact absurd asks (notRegist _)
    · rfl

theorem run_names (follows : log.Follows codePage)
    (ran : ContentsProcess.run (registSubPacketFunc codePage inGameServer) log.host.process
      log.host.manager package = .ok outcome) (id_ : oid_t) :
    (outcome.process.userPool_ id_).map User.name_ =
      speaker codePage id_ (log.exchangeOf package outcome :: log.exchanges) := by
  have before := follows.names id_
  cases run_users ran with
  | @added name_ object userName asks used absent converted after =>
      rw [after, speaker, ← before]
      have own : (log.exchangeOf package outcome).id_ = some object.id_ := exchangeOf_id used
      have packet : (log.exchangeOf package outcome).package.packet_ =
          .PK_C_REQ_REGIST_CHATTING_NAME name_ := asks
      rw [own, packet]
      by_cases same : id_ = object.id_
      · subst same
        simp [StdMap.insert_new _ absent, absent, converted, Except.toOption]
      · cases known : log.host.process.userPool_ id_ with
        | none => simp [StdMap.insert_other same, known, Ne.symm same]
        | some user => simp [StdMap.insert_other same, known]
  | same unchanged present =>
      rw [unchanged, before]
      by_cases regists : ∃ name_, package.packet_ = .PK_C_REQ_REGIST_CHATTING_NAME name_
      · obtain ⟨name_, asks⟩ := regists
        obtain ⟨object, used, known⟩ := present name_ asks
        obtain ⟨user, held⟩ := Option.isSome_iff_exists.mp known
        have own : (log.exchangeOf package outcome).id_ = some object.id_ := exchangeOf_id used
        have packet : (log.exchangeOf package outcome).package.packet_ =
            .PK_C_REQ_REGIST_CHATTING_NAME name_ := asks
        rw [speaker, own, packet]
        by_cases same : object.id_ = id_
        · subst same
          rw [← before, held]
          rfl
        · cases speaker codePage id_ log.exchanges <;> simp [same]
      · exact (speaker_other (fun name_ asks => regists ⟨name_, asks⟩) id_).symm

theorem listener_same {exchange : Exchange} {earlier : List Exchange}
    (notLobby : asksLobby exchange.package.packet_ = false) (id_ : oid_t) :
    listener id_ (exchange :: earlier) =
      if id_ ∈ handed exchange.sent then none else listener id_ earlier := by
  rw [listener]
  split
  · rfl
  · cases listener id_ earlier <;> simp [notLobby]

theorem told_silent {exchange : Exchange} {earlier : List Exchange}
    (notLine : ∀ text_, exchange.package.packet_ ≠ .PK_C_REQ_CHATTING text_)
    (silent : ∀ entry ∈ exchange.sent, isLine entry.2 = false) :
    Told codePage earlier exchange := by
  rw [Told]
  split
  · rename_i talks
    exact absurd talks (notLine _)
  · exact silent

theorem told_talks {exchange : Exchange} {earlier : List Exchange} {text_ : Str}
    (talks : exchange.package.packet_ = .PK_C_REQ_CHATTING text_) :
    Told codePage earlier exchange ↔
      match exchange.id_.bind fun id_ => speaker codePage id_ earlier with
      | none => exchange.sent = []
      | some userName => ∃ (name : Str) (listeners : List (oid_t × SessionPtr)),
          StrConvW2A codePage userName = .ok name ∧
          (listeners.map Prod.fst).Pairwise (· < ·) ∧
          (∀ id_ session, (id_, session) ∈ listeners ↔ listener id_ earlier = some session) ∧
          exchange.sent = listeners.map fun entry =>
            (.session entry.2, .PK_S_ANS_CHATTING name text_) := by
  rw [Told, talks]

theorem run_follows (follows : log.Follows codePage)
    (ran : ContentsProcess.run (registSubPacketFunc codePage inGameServer) log.host.process
      log.host.manager package = .ok outcome) :
    Follows codePage { host := { manager := outcome.manager, process := outcome.process }
                       exchanges := log.exchangeOf package outcome :: log.exchanges } := by
  have names := run_names follows ran
  obtain ⟨sorted, listeners, known, heard⟩ := follows
  cases run_room ran with
  | @entered object asks used after stay silent =>
      have own : (log.exchangeOf package outcome).id_ = some object.id_ := exchangeOf_id used
      refine ⟨after ▸ insertSession_sorted sorted, ?_, names, told_silent ?_ silent, heard⟩
      · intro id_ session
        have nobody : handed (log.exchangeOf package outcome).sent = [] := stay
        have asked : asksLobby (log.exchangeOf package outcome).package.packet_ = true := asks
        have sender : (log.exchangeOf package outcome).package.session_ = package.session_ := rfl
        rw [after, mem_insertSession_iff sorted, listeners, listener, nobody, own, asked, sender,
          if_neg List.not_mem_nil]
        simp only [listeners]
        by_cases same : id_ = object.id_
        · subst same
          cases listener object.id_ log.exchanges <;> simp [eq_comm]
        · cases listener id_ log.exchanges <;> simp [same, Ne.symm same]
      · intro text_ talks
        rw [show package.packet_ = .PK_C_REQ_CHATTING text_ from talks] at asks
        cases asks
  | @said text_ name object user talks used registered named after told =>
      have own : (log.exchangeOf package outcome).id_ = some object.id_ := exchangeOf_id used
      have notLobby : asksLobby (log.exchangeOf package outcome).package.packet_ = false := by
        rw [show (log.exchangeOf package outcome).package.packet_ = _ from talks]
        rfl
      have nobody : handed (log.exchangeOf package outcome).sent = [] := by
        rw [show (log.exchangeOf package outcome).sent = _ from told]
        simp [handed, toTerminal]
      refine ⟨after ▸ sorted, ?_, names, (told_talks talks).mpr ?_, heard⟩
      · intro id_ session
        rw [listener_same notLobby, nobody, if_neg List.not_mem_nil, ← listeners, after]
      · have speaks : speaker codePage object.id_ log.exchanges = some user.name_ := by
          rw [← known, registered]
          rfl
        rw [own, Option.bind_some, speaks]
        exact ⟨name, log.host.process.lobby.session_storage, named, sorted, listeners, told⟩
  | @unnamed text_ object talks used absent after nothing =>
      have own : (log.exchangeOf package outcome).id_ = some object.id_ := exchangeOf_id used
      have notLobby : asksLobby (log.exchangeOf package outcome).package.packet_ = false := by
        rw [show (log.exchangeOf package outcome).package.packet_ = _ from talks]
        rfl
      have nobody : handed (log.exchangeOf package outcome).sent = [] := by
        rw [show (log.exchangeOf package outcome).sent = _ from nothing]
        rfl
      refine ⟨after ▸ sorted, ?_, names, (told_talks talks).mpr ?_, heard⟩
      · intro id_ session
        rw [listener_same notLobby, nobody, if_neg List.not_mem_nil, ← listeners, after]
      · have silent : speaker codePage object.id_ log.exchanges = none := by
          rw [← known, absent]
          rfl
        rw [own, Option.bind_some, silent]
        exact nothing
  | other notLobby notLine leaves =>
      obtain ⟨left, silent⟩ := leaves
      refine ⟨?_, ?_, names, told_silent notLine silent, heard⟩
      · rw [left]
        exact sorted.sublist (List.filter_sublist.map _)
      · intro id_ session
        have sent : (log.exchangeOf package outcome).sent = outcome.sent := rfl
        rw [left, List.mem_filter, listeners, listener_same notLobby, sent]
        by_cases gone : id_ ∈ handed outcome.sent
        · simp [gone]
        · simp [gone]

theorem step_follows {event : Host.Event} (follows : log.Follows codePage)
    (taken : log.step codePage inGameServer event = .ok next) : next.Follows codePage := by
  cases event with
  | run package =>
      obtain ⟨outcome, ran, taken⟩ := Exec.bind_ok taken
      cases taken
      exact run_follows follows ran
  | accept session addrInfo_ =>
      obtain ⟨host, stepped, taken⟩ := Exec.bind_ok taken
      cases taken
      have same := Host.step_process (by simp) stepped
      exact ⟨same ▸ follows.sorted, same ▸ follows.listeners, same ▸ follows.names, follows.heard⟩
  | disconnected session =>
      obtain ⟨host, stepped, taken⟩ := Exec.bind_ok taken
      cases taken
      have same := Host.step_process (by simp) stepped
      exact ⟨same ▸ follows.sorted, same ▸ follows.listeners, same ▸ follows.names, follows.heard⟩

end

/-- A line of a connected session is handled to the end just when the session has
no name, or its name can be narrowed and everyone who listens is still connected.
A package of more than 200 bytes does not come out of `onRecv`. -/
def Sends (codePage : CodePage) (inGameServer : Terminal) (log : ChatLog) : Prop :=
  ∀ package text_, package.packet_ = .PK_C_REQ_CHATTING text_ →
    package.packet_.encoding.length ≤ 200 →
    (Exec.Ends (log.step codePage inGameServer (.run package)) ↔
      ∃ object, log.host.manager.deref package.session_ = .ok object ∧
        ∀ userName, speaker codePage object.id_ log.exchanges = some userName →
          Exec.Ends (StrConvW2A codePage userName) ∧
          ∀ id_ session, listener id_ log.exchanges = some session →
            Exec.Ends (log.host.manager.deref session))

theorem Follows.sends {codePage : CodePage} {log : ChatLog} (follows : log.Follows codePage)
    (inGameServer : Terminal) : log.Sends codePage inGameServer := by
  intro package text_ talks _
  rw [step, Exec.ends_return, chatting_ends talks]
  refine exists_congr fun object => and_congr_right fun _ => ?_
  rw [← follows.names object.id_]
  constructor
  · intro possible userName named
    obtain ⟨user, known, rfl⟩ := Option.map_eq_some_iff.mp named
    obtain ⟨narrowed, live⟩ := possible user known
    refine ⟨narrowed, ?_⟩
    intro id_ session listens
    exact live (id_, session) ((follows.listeners id_ session).mpr listens)
  · intro possible user known
    obtain ⟨narrowed, live⟩ := possible user.name_ (by rw [known]; rfl)
    refine ⟨narrowed, ?_⟩
    rintro ⟨id_, session⟩ member
    exact live id_ session ((follows.listeners id_ session).mp member)

/-- In every run, each line of a session with a name goes once to every session
that listens, and every listener is told the lines in the order of the handlers. -/
theorem heard_run (codePage : CodePage) (inGameServer : Terminal) (maxConnection : Int)
    (num : Int32) (events : List Host.Event) :
    Runs.Always (step codePage inGameServer)
      (fun log => Heard codePage log.exchanges ∧ log.Sends codePage inGameServer)
      (initial maxConnection num) events :=
  Runs.always_of_invariant (fun _ _ _ => step_follows)
    (fun _ follows => ⟨follows.heard, follows.sends inGameServer⟩) events
    (initial_follows maxConnection num)

end ChatLog

end ChattingServer

end GraduationServer
