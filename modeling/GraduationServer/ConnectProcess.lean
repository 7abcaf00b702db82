import GraduationServer.ContentsProcess
import GraduationServer.TerminalSession

/-!
A terminal with its thread, `Terminal::connectProcess`. The constructor leaves
`status_` unset, and a lost connection is closed through the `SessionManager`,
which knows the sessions of clients only.
-/

namespace GraduationServer

inductive TERMINAL_STATUS where
  | TERMINAL_STOP
  | TERMINAL_READY
  deriving DecidableEq

inductive Connection where
  | none
  | established
  | lost
  deriving DecidableEq

/-- Where the thread is: at the head of the loop that connects, in `connectTo`,
behind that loop, at the head of the loop that receives, in `onRecv`, at
`session_.onClose()`, or at its end. -/
inductive Point where
  | connecting (tryCount : Nat)
  | connectTo (tryCount : Nat)
  | connected
  | receiving
  | onRecv
  | onClose
  | returned
  deriving DecidableEq

inductive ConnectResult where
  | socketFail
  | connectFail
  | success
  deriving DecidableEq

/-- `session_` is the address of the session inside the terminal, `socket_` its
socket, if valid. `sockets` are the numbers of those created and not closed.
`connection` is what is known of the peer, and `handed` records the bytes given
to `::send`, with what was known then. -/
structure ConnectProcess where
  manager : SessionManager
  packageQueue_ : ThreadJobQueue Package
  _shutdown : Bool
  status_ : TERMINAL_STATUS
  session_ : SessionPtr
  socket_ : Option Nat
  point : Point
  sockets : List Nat
  created : Nat
  connection : Connection
  handed : List (Connection × List UInt8)

namespace ConnectProcess

inductive Event where
  | proceed
  | connectTo (result : ConnectResult)
  | onRecv (packet : Option Packet)
  | sendPacket (packet : Packet)
  -- another terminal of the process has given up
  | shutdown
  | accept (session : SessionPtr) (addrInfo_ : Nat)
  | disconnected (session : SessionPtr)

def initial (maxConnection : Int) (session_ : SessionPtr) (unset : TERMINAL_STATUS) :
    ConnectProcess :=
  { manager := SessionManager.init maxConnection
    packageQueue_ := ThreadJobQueue.empty
    _shutdown := false
    status_ := unset
    session_ := session_
    socket_ := none
    point := .connecting 0
    sockets := []
    created := 0
    connection := .none
    handed := [] }

def sendPacket (terminal : ConnectProcess) (packet : Packet) : Exec ConnectProcess :=
  if terminal.status_ = .TERMINAL_READY then do
    let bytes ← TerminalSession.sendPacket packet
    return { terminal with handed := terminal.handed ++ [(terminal.connection, bytes)] }
  else .ok terminal

def newSocket (terminal : ConnectProcess) : ConnectProcess :=
  { terminal with
    socket_ := some terminal.created
    sockets := terminal.sockets ++ [terminal.created]
    created := terminal.created + 1 }

/-- The number of a failed try is compared before it is counted. -/
def tryFailed (terminal : ConnectProcess) (tryCount : Nat) : ConnectProcess :=
  if 100 < tryCount then { terminal with _shutdown := true, point := .returned }
  else { terminal with point := .connecting (tryCount + 1) }

def connectTo (terminal : ConnectProcess) (tryCount : Nat) : ConnectResult → ConnectProcess
  | .socketFail => tryFailed { terminal with socket_ := none } tryCount
  | .connectFail => terminal.newSocket.tryFailed tryCount
  | .success =>
      { terminal.newSocket with
        point := .connected
        connection := .established }

/-- `SessionManager::closeSession` closes the socket of a session that it finds. -/
def onClose (terminal : ConnectProcess) : ConnectProcess :=
  if terminal.manager.registered terminal.session_ then
    { terminal with
      manager := terminal.manager.closeSession terminal.session_
      sockets := terminal.sockets.filter fun socket => some socket ≠ terminal.socket_ }
  else terminal

def proceed (terminal : ConnectProcess) : Exec ConnectProcess :=
  match terminal.point with
  | .connecting tryCount =>
      .ok { terminal with
        point := if terminal._shutdown then .connected else .connectTo tryCount }
  | .connected =>
      { terminal with status_ := .TERMINAL_READY, point := .receiving }.sendPacket
        .PK_I_NOTIFY_TERMINAL
  | .receiving =>
      .ok { terminal with point := if terminal._shutdown then .returned else .onRecv }
  | .onClose => .ok { terminal.onClose with point := .connecting 0 }
  | _ => .error .notEnabled

def onRecv (terminal : ConnectProcess) : Option Packet → ConnectProcess
  | some packet =>
      let package : Package := { session_ := terminal.session_, packet_ := packet }
      { terminal with
        packageQueue_ := terminal.packageQueue_.push package
        point := .receiving }
  | none => { terminal with point := .onClose, connection := .lost }

/-- No session is created where the terminal is. -/
def step (terminal : ConnectProcess) : Event → Exec ConnectProcess
  | .proceed => terminal.proceed
  | .connectTo result =>
      match terminal.point with
      | .connectTo tryCount => .ok (terminal.connectTo tryCount result)
      | _ => .error .notEnabled
  | .onRecv packet =>
      if terminal.point = .onRecv then .ok (terminal.onRecv packet) else .error .notEnabled
  | .sendPacket packet => terminal.sendPacket packet
  | .shutdown => .ok { terminal with _shutdown := true }
  | .accept session addrInfo_ =>
      if session = terminal.session_ then .error .notEnabled
      else do return { terminal with manager := ← terminal.manager.accept session addrInfo_ }
  | .disconnected session =>
      if terminal.manager.registered session then
        .ok { terminal with manager := terminal.manager.closeSession session }
      else .error .notEnabled

/-- The terminal is ready only on a connection that is not known to be lost,
nothing has been given to a connection known to be dead, and there was never
more than one socket. -/
structure Tracks (terminal : ConnectProcess) : Prop where
  ready : terminal.status_ = .TERMINAL_READY → terminal.connection = .established
  handed : ∀ entry ∈ terminal.handed, entry.1 = .established
  closed : terminal.sockets.length ≤ 1

def StaysConnected (terminal : ConnectProcess) : Event → Prop
  | .proceed => terminal.point = .connected → terminal.connection = .established
  | .connectTo result => result = .socketFail ∨ terminal.sockets = []
  | .onRecv packet => packet ≠ none
  | _ => True

structure Running (terminal : ConnectProcess) : Prop where
  unknown : terminal.manager.registered terminal.session_ = false
  ready : terminal.point = .receiving ∨ terminal.point = .onRecv →
    terminal.status_ = .TERMINAL_READY

theorem initial_running (maxConnection : Int) (session_ : SessionPtr) (unset : TERMINAL_STATUS) :
    (initial maxConnection session_ unset).Running := by
  refine ⟨rfl, ?_⟩
  rintro (here | here) <;> simp [initial] at here

theorem sendPacket_cases {terminal next : ConnectProcess} {packet : Packet}
    (sent : terminal.sendPacket packet = .ok next) :
    terminal.status_ ≠ .TERMINAL_READY ∧ next = terminal ∨
      terminal.status_ = .TERMINAL_READY ∧ ∃ bytes,
        next = { terminal with handed := terminal.handed ++ [(terminal.connection, bytes)] } := by
  rw [sendPacket] at sent
  split at sent
  · rename_i ready
    obtain ⟨bytes, -, sent⟩ := Exec.bind_ok sent
    cases sent
    exact Or.inr ⟨ready, bytes, rfl⟩
  · rename_i notReady
    cases sent
    exact Or.inl ⟨notReady, rfl⟩

theorem onClose_nothing {terminal : ConnectProcess} (running : terminal.Running) :
    terminal.onClose = terminal := by
  rw [onClose, running.unknown]
  rfl

theorem tryFailed_eq (terminal : ConnectProcess) (tryCount : Nat) :
    ∃ _shutdown point, terminal.tryFailed tryCount = { terminal with _shutdown, point } ∧
      point ≠ .receiving ∧ point ≠ .onRecv := by
  rw [tryFailed]
  split
  · exact ⟨true, .returned, rfl, by simp⟩
  · exact ⟨terminal._shutdown, .connecting (tryCount + 1), rfl, by simp⟩

theorem registered_accept_other {manager after : SessionManager} {session other : SessionPtr}
    {addrInfo_ : Nat} (accepted : manager.accept session addrInfo_ = .ok after)
    (different : session ≠ other) : after.registered other = manager.registered other := by
  obtain ⟨-, -, rfl | ⟨-, added⟩⟩ := SessionManager.accept_ok accepted
  · rfl
  · simp [SessionManager.registered, added, different]

theorem connectTo_running {terminal : ConnectProcess} {tryCount : Nat} {result : ConnectResult}
    (running : terminal.Running) : (terminal.connectTo tryCount result).Running := by
  cases result with
  | socketFail =>
      obtain ⟨_shutdown, point, same, notReceiving, notOnRecv⟩ :=
        tryFailed_eq { terminal with socket_ := none } tryCount
      rw [connectTo, same]
      exact ⟨running.unknown, fun here => absurd here (by simp [notReceiving, notOnRecv])⟩
  | connectFail =>
      obtain ⟨_shutdown, point, same, notReceiving, notOnRecv⟩ :=
        tryFailed_eq terminal.newSocket tryCount
      rw [connectTo, same]
      exact ⟨running.unknown, fun here => absurd here (by simp [notReceiving, notOnRecv])⟩
  | success => exact ⟨running.unknown, fun here => absurd here (by simp [connectTo])⟩

theorem connectTo_tracks {terminal : ConnectProcess} {tryCount : Nat} {result : ConnectResult}
    (tracks : terminal.Tracks) : (terminal.connectTo tryCount result).Tracks ↔
      result = .socketFail ∨ terminal.sockets = [] := by
  have one_more : (terminal.sockets ++ [terminal.created]).length ≤ 1 ↔ terminal.sockets = [] := by
    simp
  cases result with
  | socketFail =>
      obtain ⟨_shutdown, point, same, -⟩ := tryFailed_eq { terminal with socket_ := none } tryCount
      rw [connectTo, same]
      exact ⟨fun _ => Or.inl rfl, fun _ => ⟨tracks.ready, tracks.handed, tracks.closed⟩⟩
  | connectFail =>
      obtain ⟨_shutdown, point, same, -⟩ := tryFailed_eq terminal.newSocket tryCount
      rw [connectTo, same]
      constructor
      · exact fun after => Or.inr (one_more.mp after.closed)
      · rintro (impossible | first)
        · cases impossible
        · exact ⟨tracks.ready, tracks.handed, one_more.mpr first⟩
  | success =>
      constructor
      · exact fun after => Or.inr (one_more.mp after.closed)
      · rintro (impossible | first)
        · cases impossible
        · exact ⟨fun _ => rfl, tracks.handed, one_more.mpr first⟩

theorem sendPacket_tracks {terminal next : ConnectProcess} {packet : Packet}
    (tracks : terminal.Tracks) (sent : terminal.sendPacket packet = .ok next) : next.Tracks := by
  rcases sendPacket_cases sent with ⟨-, rfl⟩ | ⟨ready, bytes, rfl⟩
  · exact tracks
  · refine ⟨tracks.ready, ?_, tracks.closed⟩
    intro entry member
    rcases List.mem_append.mp member with earlier | new
    · exact tracks.handed entry earlier
    · rw [List.mem_singleton] at new
      subst new
      exact tracks.ready ready

theorem proceed_running {terminal next : ConnectProcess} (running : terminal.Running)
    (taken : terminal.proceed = .ok next) : next.Running := by
  rw [proceed] at taken
  split at taken
  · cases taken
    refine ⟨running.unknown, ?_⟩
    dsimp only
    split <;> simp
  · rcases sendPacket_cases taken with ⟨notReady, -⟩ | ⟨-, bytes, rfl⟩
    · exact absurd rfl notReady
    · exact ⟨running.unknown, fun _ => rfl⟩
  · rename_i here
    cases taken
    exact ⟨running.unknown, fun _ => running.ready (Or.inl here)⟩
  · cases taken
    rw [onClose_nothing running]
    exact ⟨running.unknown, fun here => absurd here (by simp)⟩
  · simp at taken

theorem proceed_tracks {terminal next : ConnectProcess} (running : terminal.Running)
    (tracks : terminal.Tracks) (taken : terminal.proceed = .ok next) :
    next.Tracks ↔ (terminal.point = .connected → terminal.connection = .established) := by
  rw [proceed] at taken
  split at taken
  · rename_i here
    cases taken
    simp only [here, reduceCtorEq, false_implies, iff_true]
    exact ⟨tracks.ready, tracks.handed, tracks.closed⟩
  · rename_i here
    rcases sendPacket_cases taken with ⟨notReady, -⟩ | ⟨-, bytes, rfl⟩
    · exact absurd rfl notReady
    · constructor
      · exact fun after _ => after.ready rfl
      · intro connected
        have established := connected here
        have ready : Tracks { terminal with
            status_ := .TERMINAL_READY
            point := .receiving } := ⟨fun _ => established, tracks.handed, tracks.closed⟩
        exact sendPacket_tracks ready taken
  · rename_i here
    cases taken
    simp only [here, reduceCtorEq, false_implies, iff_true]
    exact ⟨tracks.ready, tracks.handed, tracks.closed⟩
  · rename_i here
    cases taken
    rw [onClose_nothing running]
    simp only [here, reduceCtorEq, false_implies, iff_true]
    exact ⟨tracks.ready, tracks.handed, tracks.closed⟩
  · simp at taken

theorem step_running {terminal next : ConnectProcess} {event : Event} (running : terminal.Running)
    (taken : terminal.step event = .ok next) : next.Running := by
  cases event with
  | proceed => exact proceed_running running taken
  | connectTo result =>
      simp only [step] at taken
      split at taken
      · cases taken
        exact connectTo_running running
      · simp at taken
  | onRecv packet =>
      simp only [step] at taken
      split at taken
      · rename_i here
        cases taken
        cases packet with
        | none => exact ⟨running.unknown, fun here => absurd here (by simp [onRecv])⟩
        | some packet => exact ⟨running.unknown, fun _ => running.ready (Or.inr here)⟩
      · simp at taken
  | sendPacket packet =>
      rcases sendPacket_cases taken with ⟨-, rfl⟩ | ⟨-, bytes, rfl⟩
      · exact running
      · exact ⟨running.unknown, running.ready⟩
  | shutdown =>
      cases taken
      exact ⟨running.unknown, running.ready⟩
  | accept session addrInfo_ =>
      simp only [step] at taken
      split at taken
      · simp at taken
      · rename_i different
        obtain ⟨manager, accepted, taken⟩ := Exec.bind_ok taken
        cases taken
        exact ⟨(registered_accept_other accepted different).trans running.unknown, running.ready⟩
  | disconnected session =>
      simp only [step] at taken
      split at taken
      · cases taken
        refine ⟨?_, running.ready⟩
        rw [← Bool.not_eq_true, SessionManager.registered_closeSession, running.unknown]
        simp
      · simp at taken

theorem step_exactly {terminal next : ConnectProcess} {event : Event} (running : terminal.Running)
    (tracks : terminal.Tracks) (taken : terminal.step event = .ok next) :
    next.Tracks ↔ terminal.StaysConnected event := by
  cases event with
  | proceed => exact proceed_tracks running tracks taken
  | connectTo result =>
      simp only [step] at taken
      split at taken
      · cases taken
        exact connectTo_tracks tracks
      · simp at taken
  | onRecv packet =>
      simp only [step] at taken
      split at taken
      · rename_i here
        cases taken
        cases packet with
        | none =>
            -- the thread only receives when ready, and nothing resets the status
            have ready := running.ready (Or.inr here)
            refine ⟨fun after => absurd (after.ready ready) (by simp [onRecv]), ?_⟩
            intro never
            exact absurd rfl never
        | some packet =>
            exact ⟨fun _ => by simp [StaysConnected],
              fun _ => ⟨tracks.ready, tracks.handed, tracks.closed⟩⟩
      · simp at taken
  | sendPacket packet => exact ⟨fun _ => trivial, fun _ => sendPacket_tracks tracks taken⟩
  | shutdown =>
      cases taken
      exact ⟨fun _ => trivial, fun _ => ⟨tracks.ready, tracks.handed, tracks.closed⟩⟩
  | accept session addrInfo_ =>
      simp only [step] at taken
      split at taken
      · simp at taken
      · obtain ⟨manager, -, taken⟩ := Exec.bind_ok taken
        cases taken
        exact ⟨fun _ => trivial, fun _ => ⟨tracks.ready, tracks.handed, tracks.closed⟩⟩
  | disconnected session =>
      simp only [step] at taken
      split at taken
      · cases taken
        exact ⟨fun _ => trivial, fun _ => ⟨tracks.ready, tracks.handed, tracks.closed⟩⟩
      · simp at taken

/-- In all states of a run the status tells whether there is a connection,
exactly when it is not ready by accident at first, every loop that connects
ends with a connection, none is lost, and only one socket is ever created. -/
theorem tracks_iff (maxConnection : Int) (session_ : SessionPtr) (unset : TERMINAL_STATUS)
    (events : List Event) :
    Runs.Always step Tracks (initial maxConnection session_ unset) events ↔
      unset ≠ .TERMINAL_READY ∧
        Runs.Throughout step StaysConnected (initial maxConnection session_ unset) events := by
  have exactly (stopped : unset ≠ .TERMINAL_READY) :
      Runs.Always step Tracks (initial maxConnection session_ unset) events ↔
        Runs.Throughout step StaysConnected (initial maxConnection session_ unset) events := by
    refine Runs.always_iff_throughout ?_ ?_ (fun _ _ => trivial)
      (initial_running maxConnection session_ unset) ?_
    · intro terminal event next _ running taken
      exact step_running running taken
    · intro terminal event next _ running tracks taken
      exact step_exactly running tracks taken
    · refine ⟨fun ready => absurd ready stopped, ?_, Nat.zero_le _⟩
      intro entry member
      simp [initial] at member
  constructor
  · intro always
    have stopped : unset ≠ .TERMINAL_READY := by
      intro ready
      exact absurd (always.start.ready ready) (by simp [initial])
    exact ⟨stopped, (exactly stopped).mp always⟩
  · rintro ⟨stopped, held⟩
    exact (exactly stopped).mpr held

/-- A peer restarts: the terminal stays ready, hands a packet to the dead
connection, and opens a second socket beside the first. -/
theorem tracks_peer_restart :
    ¬ ∀ events : List Event,
      Runs.Always step Tracks (initial SESSION_CAPACITY 16 .TERMINAL_STOP) events := by
  intro every
  let events : List Event := [.proceed, .connectTo .success, .proceed, .proceed, .onRecv none,
    .sendPacket (.PK_I_LOGIN_NOTIFY_ID_LOADED 1 [] 1), .proceed, .proceed, .connectTo .success]
  let view (terminal : ConnectProcess) :=
    (terminal.handed.map fun entry => entry.1, terminal.sockets)
  have computed : (Runs.run step (initial SESSION_CAPACITY 16 .TERMINAL_STOP) events).toOption.map
      view = some ([.established, .lost], [0, 1]) := by decide
  obtain ⟨finish, reached, seen⟩ := Runs.run_view computed
  obtain ⟨-, sockets⟩ := Prod.mk.inj seen
  have one := ((every events).finish reached).closed
  rw [sockets] at one
  exact absurd one (by decide)

end ConnectProcess

end GraduationServer
