import GraduationServer.ChatExit
import GraduationServer.PacketCodec

/-!
The way of a name through the chat: it is widened when it is registered and
narrowed again for every message. `StrConvA2W` tells the conversion of one
character less than the destination has.
-/

namespace GraduationServer

structure AsciiStr where
  chars : Str
  ascii : ∀ char ∈ chars, 0 < char.toNat ∧ char.toNat < 128

namespace AsciiStr

def widened (name : AsciiStr) : WStr := name.chars.map UInt8.toUInt16

theorem zero_not_mem (name : AsciiStr) : (0 : UInt8) ∉ name.chars := by
  intro member
  exact absurd (name.ascii 0 member).1 (by decide)

theorem zero_not_mem_widened (name : AsciiStr) : (0 : UInt16) ∉ name.widened := by
  intro member
  obtain ⟨char, there, zero⟩ := List.mem_map.mp member
  have positive := (name.ascii char there).1
  have same : char.toNat = 0 := by simpa using congrArg UInt16.toNat zero
  omega

end AsciiStr

/-- What is promised of the two functions: an ASCII string that fits with its
terminator is copied character by character. Of one that does not fit nothing
is known. -/
structure CodePage.Documented (codePage : CodePage) : Prop where
  widens : ∀ (name : AsciiStr) (destLen : Nat), name.chars.length + 1 ≤ destLen →
    ∃ left, codePage.MultiByteToWideChar name.chars destLen = name.widened ++ 0 :: left
  narrows : ∀ (name : AsciiStr) (destLen : Nat), name.chars.length + 1 ≤ destLen →
    ∃ left, codePage.WideCharToMultiByte name.widened destLen = name.chars ++ 0 :: left

theorem terminated_append {Char : Type} [DecidableEq Char] {terminator : Char}
    {text : List Char} (inside : terminator ∉ text) (left : List Char) :
    terminated terminator (text ++ terminator :: left) = .ok text := by
  have kept : ∀ char ∈ text, decide (char ≠ terminator) = true := by
    intro char member
    simp only [decide_eq_true_eq]
    rintro rfl
    exact inside member
  have taken : (text ++ terminator :: left).takeWhile (· ≠ terminator) = text := by
    rw [List.takeWhile_append_of_pos kept]
    simp
  rw [terminated, if_pos (by simp), taken]

theorem StrConvA2W_ok {codePage : CodePage} (documented : codePage.Documented) {name : AsciiStr}
    (short : name.chars.length ≤ 62) : StrConvA2W codePage name.chars = .ok name.widened := by
  obtain ⟨left, wide⟩ := documented.widens name 63 (by omega)
  rw [StrConvA2W, wide, terminated_append name.zero_not_mem_widened]

theorem StrConvW2A_ok {codePage : CodePage} (documented : codePage.Documented) {name : AsciiStr}
    (short : name.chars.length ≤ 63) : StrConvW2A codePage name.widened = .ok name.chars := by
  obtain ⟨left, narrow⟩ := documented.narrows name 64 (by omega)
  rw [StrConvW2A, narrow, terminated_append name.zero_not_mem]

namespace ChattingServer

theorem broadcast_sent {manager : SessionManager} {packet : Packet}
    {storage : List (oid_t × SessionPtr)} {sent : List (Receiver × Packet)}
    (done : broadcast manager packet storage = .ok sent) : ∀ entry ∈ sent, entry.2 = packet := by
  induction storage generalizing sent with
  | nil =>
      cases done
      simp
  | cons first rest ih =>
      obtain ⟨key, session⟩ := first
      obtain ⟨_, -, done⟩ := Exec.bind_ok done
      obtain ⟨others, later, done⟩ := Exec.bind_ok done
      cases done
      intro entry member
      rcases List.mem_cons.mp member with rfl | inside
      · rfl
      · exact ih later entry inside

section

variable {codePage : CodePage} {inGameServer : Terminal} {process : Process}
variable {manager : SessionManager} {package : Package} {outcome : Outcome Process}

theorem run_chatting {text_ name : Str} {object : Session} {user : User}
    (talks : package.packet_ = .PK_C_REQ_CHATTING text_)
    (used : manager.deref package.session_ = .ok object)
    (known : process.userPool_ object.id_ = some user)
    (named : StrConvW2A codePage user.name_ = .ok name)
    (ran : ContentsProcess.run (registSubPacketFunc codePage inGameServer) process manager package =
      .ok outcome) : ∀ entry ∈ outcome.sent, entry.2 = .PK_S_ANS_CHATTING name text_ := by
  obtain ⟨session, packet_⟩ := package
  obtain rfl : packet_ = .PK_C_REQ_CHATTING text_ := talks
  have found : registSubPacketFunc codePage inGameServer .E_C_REQ_CHATTING =
      some (.sub (subFunc codePage inGameServer)) := rfl
  rcases (ContentsProcess.run_ok ran).2 with nothing | ⟨func, there, handled⟩
  · simp [nothing]
  · simp only [Packet.type, found] at there
    cases there
    obtain ⟨sent, told, handled⟩ := Exec.bind_ok handled
    cases handled
    obtain ⟨object', used', told⟩ := Exec.bind_ok told
    rw [used] at used'
    cases used'
    simp only [known] at told
    obtain ⟨name', named', told⟩ := Exec.bind_ok told
    rw [named] at named'
    cases named'
    exact broadcast_sent told

end

namespace Host

section

variable {codePage : CodePage} {inGameServer : Terminal}

theorem step_user {host next : Host} {event : Event} {id_ : oid_t} {user : User}
    (known : host.process.userPool_ id_ = some user)
    (taken : host.step codePage inGameServer event = .ok next) :
    next.process.userPool_ id_ = some user := by
  cases event with
  | accept session addrInfo_ =>
      rw [step_process (by simp) taken]
      exact known
  | disconnected session =>
      rw [step_process (by simp) taken]
      exact known
  | run package =>
      obtain ⟨outcome, ran, taken⟩ := Exec.bind_ok taken
      cases taken
      cases run_users ran with
      | added _ _ _ _ after =>
          rw [after]
          exact StdMap.insert_present _ _ known
      | same unchanged _ => exact unchanged ▸ known

theorem run_user {host finish : Host} {events : List Event} {id_ : oid_t} {user : User}
    (known : host.process.userPool_ id_ = some user)
    (reached : Runs.run (step codePage inGameServer) host events = .ok finish) :
    finish.process.userPool_ id_ = some user :=
  Runs.run_invariant (fun _ _ _ held taken => step_user held taken) known reached

theorem step_regist {host next : Host} {session : SessionPtr} {name_ : Str} {object : Session}
    (used : host.manager.deref session = .ok object)
    (absent : host.process.userPool_ object.id_ = none)
    (taken : host.step codePage inGameServer
      (.run { session_ := session, packet_ := .PK_C_REQ_REGIST_CHATTING_NAME name_ }) = .ok next) :
    ∃ userName, StrConvA2W codePage (Stream.cString name_) = .ok userName ∧
      next.process.userPool_ object.id_ = some { session_ := session, name_ := userName } := by
  obtain ⟨outcome, ran, taken⟩ := Exec.bind_ok taken
  cases taken
  cases run_users ran with
  | added asks used' free converted after =>
      rename_i name_' object' userName
      cases asks
      rw [used] at used'
      cases used'
      exact ⟨userName, converted, by rw [after]; exact StdMap.insert_new _ absent⟩
  | same _ others =>
      obtain ⟨object', used', present⟩ := others name_ rfl
      rw [used] at used'
      cases used'
      rw [absent] at present
      cases present

theorem step_registers {host : Host} {session : SessionPtr} {name_ : Str} {userName : WStr}
    {object : Session} (used : host.manager.deref session = .ok object)
    (absent : host.process.userPool_ object.id_ = none)
    (converted : StrConvA2W codePage (Stream.cString name_) = .ok userName) :
    host.step codePage inGameServer
      (.run { session_ := session, packet_ := .PK_C_REQ_REGIST_CHATTING_NAME name_ }) =
        .ok { host with process := { host.process with
          userPool_ := StdMap.insert host.process.userPool_ object.id_
            { session_ := session, name_ := userName } } } := by
  have found : registSubPacketFunc codePage inGameServer .E_C_REQ_REGIST_CHATTING_NAME =
      some (.sub (subFunc codePage inGameServer)) := rfl
  have fresh : refuses host.process host.manager session (.PK_C_REQ_REGIST_CHATTING_NAME name_) =
      .ok false := by
    change (host.manager.deref session).bind _ = _
    rw [used]
    change Except.ok (host.process.userPool_ object.id_).isSome = _
    rw [absent]
    rfl
  have handled : handle codePage inGameServer host.process host.manager session
      (.PK_C_REQ_REGIST_CHATTING_NAME name_) = .ok ({ host.process with
        userPool_ := StdMap.insert host.process.userPool_ object.id_
          { session_ := session, name_ := userName } }, []) := by
    change (C_REQ_REGIST_CHATTING_NAME codePage host.process.userPool_ host.manager session
      name_).bind _ = _
    rw [C_REQ_REGIST_CHATTING_NAME, used, converted]
    rfl
  simp only [step, ContentsProcess.run, Packet.type, found, subFunc, fresh, handled]
  rfl

end

/-- In every run in which the name is accepted from a session, all that this
session says later is sent under this name and with its own text. -/
def RoundTrip (codePage : CodePage) (inGameServer : Terminal) (name_ : Str) : Prop :=
  ∀ (maxConnection : Int) (num : Int32) (earlier later : List Event)
    (host registered speaking : Host) (session : SessionPtr) (object : Session),
    Runs.run (step codePage inGameServer) (initial maxConnection num) earlier = .ok host →
    host.manager.deref session = .ok object →
    host.process.userPool_ object.id_ = none →
    host.step codePage inGameServer
      (.run { session_ := session, packet_ := .PK_C_REQ_REGIST_CHATTING_NAME name_ }) =
        .ok registered →
    Runs.run (step codePage inGameServer) registered later = .ok speaking →
    ∀ (package : Package) (text_ : Str) (speaker : Session) (outcome : Outcome Process),
      package.packet_ = .PK_C_REQ_CHATTING text_ →
      speaking.manager.deref package.session_ = .ok speaker → speaker.id_ = object.id_ →
      ContentsProcess.run (registSubPacketFunc codePage inGameServer) speaking.process
        speaking.manager package = .ok outcome →
      ∀ entry ∈ outcome.sent, entry.2 = .PK_S_ANS_CHATTING name_ text_

theorem roundTrip_short {codePage : CodePage} (documented : codePage.Documented)
    (inGameServer : Terminal) {name : AsciiStr} (short : name.chars.length ≤ 62) :
    RoundTrip codePage inGameServer name.chars := by
  intro maxConnection num earlier later host registered speaking session object _ used absent
    regist reached package text_ speaker outcome talks speaks sameId ran
  obtain ⟨userName, converted, known⟩ := step_regist used absent regist
  have whole : Stream.cString name.chars = name.chars :=
    (Packet.cString_eq_self_iff name.chars).mpr name.zero_not_mem
  rw [whole, StrConvA2W_ok documented short] at converted
  cases converted
  have still := run_user known reached
  rw [← sameId] at still
  exact run_chatting talks speaks still (StrConvW2A_ok documented (by omega)) ran

def emptying : CodePage :=
  { MultiByteToWideChar := fun src destLen =>
      if src.length + 1 ≤ destLen then src.map UInt8.toUInt16 ++ [0] else [0]
    WideCharToMultiByte := fun src destLen =>
      if src.length + 1 ≤ destLen then src.map UInt16.toUInt8 ++ [0] else [0] }

theorem emptying_documented : emptying.Documented where
  widens name destLen room := ⟨[], if_pos room⟩
  narrows name destLen room := by
    have back : name.widened.map UInt16.toUInt8 = name.chars := by
      simp [AsciiStr.widened, Function.comp_def]
    refine ⟨[], ?_⟩
    have enough : name.widened.length + 1 ≤ destLen := by simpa [AsciiStr.widened] using room
    simp only [emptying, enough, if_true, back]

theorem emptying_long {name : AsciiStr} (long : 63 ≤ name.chars.length) :
    StrConvA2W emptying (Stream.cString name.chars) = .ok [] := by
  have whole : Stream.cString name.chars = name.chars :=
    (Packet.cString_eq_self_iff name.chars).mpr name.zero_not_mem
  have tooLong : ¬ name.chars.length + 1 ≤ 64 - 1 := by omega
  rw [whole, StrConvA2W]
  simp only [emptying, tooLong, if_false]
  decide

theorem not_roundTrip_long (inGameServer : Terminal) (name : AsciiStr)
    (long : 63 ≤ name.chars.length) : ¬ RoundTrip emptying inGameServer name.chars := by
  intro roundTrip
  let earlier : List Event :=
    [.accept 16 1, .run { session_ := 16, packet_ := .PK_C_REQ_LOBBY_INFO 0 0 }]
  let chatting : Package := { session_ := 16, packet_ := .PK_C_REQ_CHATTING [] }
  let table := registSubPacketFunc emptying inGameServer
  obtain ⟨host, object, reached, used, absent, outcome, ran, sent⟩ : ∃ host object,
      Runs.run (step emptying inGameServer) (initial SESSION_CAPACITY 0) earlier = .ok host ∧
        host.manager.deref 16 = .ok object ∧ host.process.userPool_ object.id_ = none ∧
        ∃ outcome, ContentsProcess.run table { host.process with
            userPool_ := StdMap.insert host.process.userPool_ object.id_
              { session_ := 16, name_ := [] } } host.manager chatting = .ok outcome ∧
          (.session 16, .PK_S_ANS_CHATTING [] []) ∈ outcome.sent :=
    ⟨_, _, rfl, rfl, rfl, _, rfl, List.mem_cons_self⟩
  have same := roundTrip SESSION_CAPACITY 0 earlier [] host _ _ 16 object reached used absent
    (step_registers used absent (emptying_long long)) rfl chatting [] object outcome rfl used rfl
    ran _ sent
  simp only [Packet.PK_S_ANS_CHATTING.injEq, and_true] at same
  rw [← same] at long
  contradiction

/-- The names that come back whatever the conversions do when they fail. -/
theorem name_roundTrip_iff (inGameServer : Terminal) (name : AsciiStr) :
    (∀ codePage : CodePage, codePage.Documented → RoundTrip codePage inGameServer name.chars) ↔
      name.chars.length ≤ 62 := by
  constructor
  · intro every
    by_contra long
    exact not_roundTrip_long inGameServer name (by omega) (every emptying emptying_documented)
  · intro short codePage documented
    exact roundTrip_short documented inGameServer short

/-- A name of 63 characters fits into the 64 of the destination, and is lost. -/
theorem name_lost :
    ¬ ∀ codePage : CodePage, codePage.Documented → ∀ name : AsciiStr,
      RoundTrip codePage { ip_ := [], port_ := 0 } name.chars := by
  intro every
  have ascii : ∀ char ∈ List.replicate 63 (97 : UInt8), 0 < char.toNat ∧ char.toNat < 128 := by
    intro char member
    rw [List.eq_of_mem_replicate member]
    decide
  let name : AsciiStr := { chars := List.replicate 63 97, ascii := ascii }
  have long : 63 ≤ name.chars.length := Nat.le_of_eq List.length_replicate.symm
  exact not_roundTrip_long { ip_ := [], port_ := 0 } name long
    (every emptying emptying_documented name)

end Host

end ChattingServer

end GraduationServer
