import GraduationServer.ConnectProcess
import Mathlib.Data.List.Induction

/-!
The terminals of a server, each with its thread. They share `_shutdown` with all
threads of the process, so a terminal that gives up ends the others too.
-/

namespace GraduationServer

structure TerminalManager where
  manager : SessionManager
  packageQueue_ : ThreadJobQueue Package
  _shutdown : Bool
  terminalPool_ : List ConnectProcess

namespace TerminalManager

inductive Event where
  | proceed (index : Nat)
  | connectTo (index : Nat) (result : ConnectResult)
  | onRecv (index : Nat) (packet : Option Packet)
  | sendPacket (index : Nat) (packet : Packet)
  | shutdownServer
  | accept (session : SessionPtr) (addrInfo_ : Nat)
  | disconnected (session : SessionPtr)

def initial (maxConnection : Int) (terminals : List (SessionPtr × TERMINAL_STATUS)) :
    TerminalManager :=
  { manager := SessionManager.init maxConnection
    packageQueue_ := ThreadJobQueue.empty
    _shutdown := false
    terminalPool_ := terminals.map fun (session_, unset) =>
      ConnectProcess.initial maxConnection session_ unset }

def shared (terminals : TerminalManager) (terminal : ConnectProcess) : ConnectProcess :=
  { terminal with
    manager := terminals.manager
    packageQueue_ := terminals.packageQueue_
    _shutdown := terminals._shutdown }

def put (terminals : TerminalManager) (index : Nat) (terminal : ConnectProcess) :
    TerminalManager :=
  { manager := terminal.manager
    packageQueue_ := terminal.packageQueue_
    _shutdown := terminal._shutdown
    terminalPool_ := terminals.terminalPool_.set index terminal }

def run (terminals : TerminalManager) (index : Nat) (event : ConnectProcess.Event) :
    Exec TerminalManager :=
  match terminals.terminalPool_[index]? with
  | none => .error .notEnabled
  | some terminal => do return terminals.put index (← (terminals.shared terminal).step event)

/-- `shutdownServer` writes a line to the log and leaves `_shutdown` as it is. No session
is created where a terminal is. -/
def step (terminals : TerminalManager) : Event → Exec TerminalManager
  | .proceed index => terminals.run index .proceed
  | .connectTo index result => terminals.run index (.connectTo result)
  | .onRecv index packet => terminals.run index (.onRecv packet)
  | .sendPacket index packet => terminals.run index (.sendPacket packet)
  | .shutdownServer => .ok terminals
  | .accept session addrInfo_ =>
      if ∃ terminal ∈ terminals.terminalPool_, terminal.session_ = session then
        .error .notEnabled
      else do return { terminals with manager := ← terminals.manager.accept session addrInfo_ }
  | .disconnected session =>
      if terminals.manager.registered session then
        .ok { terminals with manager := terminals.manager.closeSession session }
      else .error .notEnabled

def tried (index : Nat) (count : Nat) : Event → Nat
  | .connectTo other result =>
      if other ≠ index then count else if result = .success then 0 else count + 1
  | _ => count

/-- The tries of a terminal that have failed since it was last connected. -/
def failedTries (index : Nat) (events : List Event) : Nat := events.foldl (tried index) 0

/-- What the point of a thread tells about the tries that have failed. Behind
the loop that connects, there is a connection or the process is shut down. -/
def Counts (_shutdown : Bool) (failed : Nat) : Point → Prop
  | .connecting tryCount => tryCount = failed ∧ failed < 102
  | .connectTo tryCount => tryCount = failed ∧ failed < 102
  | .connected => failed < 102 ∧ (failed = 0 ∨ _shutdown = true)
  | .receiving => failed < 102 ∧ (failed = 0 ∨ _shutdown = true)
  | .onRecv => failed = 0
  | .onClose => failed = 0
  | .returned => failed ≤ 102 ∧ _shutdown = true

theorem Counts.shutdown {_shutdown after : Bool} {failed : Nat} {point : Point}
    (counts : Counts _shutdown failed point) (stays : _shutdown = true → after = true) :
    Counts after failed point := by
  cases point with
  | connecting tryCount => exact counts
  | connectTo tryCount => exact counts
  | connected => exact ⟨counts.1, counts.2.imp id stays⟩
  | receiving => exact ⟨counts.1, counts.2.imp id stays⟩
  | onRecv => exact counts
  | onClose => exact counts
  | returned => exact ⟨counts.1, stays counts.2⟩

def triedOne (count : Nat) : ConnectProcess.Event → Nat
  | .connectTo result => if result = .success then 0 else count + 1
  | _ => count

section

variable {terminal next : ConnectProcess} {failed : Nat}

theorem tryFailed_counts (terminal : ConnectProcess) (below : failed < 102) :
    Counts (terminal.tryFailed failed)._shutdown (failed + 1) (terminal.tryFailed failed).point ∧
      ((terminal.tryFailed failed)._shutdown = true ↔
        terminal._shutdown = true ∨ failed + 1 = 102) := by
  rw [ConnectProcess.tryFailed]
  split
  · refine ⟨⟨by omega, rfl⟩, ?_⟩
    simp only [true_iff]
    omega
  · refine ⟨⟨rfl, by omega⟩, ?_⟩
    constructor
    · exact Or.inl
    · rintro (already | last)
      · exact already
      · omega

theorem sendPacket_counts {packet : Packet} (sent : terminal.sendPacket packet = .ok next) :
    next.point = terminal.point ∧ next._shutdown = terminal._shutdown := by
  rcases ConnectProcess.sendPacket_cases sent with ⟨-, rfl⟩ | ⟨-, bytes, rfl⟩
  · exact ⟨rfl, rfl⟩
  · exact ⟨rfl, rfl⟩

theorem onClose_counts (terminal : ConnectProcess) :
    terminal.onClose._shutdown = terminal._shutdown := by
  rw [ConnectProcess.onClose]
  split <;> rfl

theorem connectTo_counts {tryCount : Nat} {result : ConnectResult}
    (counts : Counts terminal._shutdown failed (.connectTo tryCount)) :
    Counts (terminal.connectTo tryCount result)._shutdown (triedOne failed (.connectTo result))
        (terminal.connectTo tryCount result).point ∧
      ((terminal.connectTo tryCount result)._shutdown = true ↔
        terminal._shutdown = true ∨ triedOne failed (.connectTo result) = 102) := by
  obtain ⟨rfl, below⟩ := counts
  cases result with
  | socketFail => exact tryFailed_counts { terminal with socket_ := none } below
  | connectFail => exact tryFailed_counts terminal.newSocket below
  | success =>
      refine ⟨⟨by simp [triedOne], Or.inl rfl⟩, ?_⟩
      simp [ConnectProcess.connectTo, ConnectProcess.newSocket, triedOne]

theorem proceed_counts (counts : Counts terminal._shutdown failed terminal.point)
    (taken : terminal.proceed = .ok next) :
    Counts next._shutdown failed next.point ∧ next._shutdown = terminal._shutdown := by
  rw [ConnectProcess.proceed] at taken
  split at taken
  · rename_i tryCount here
    rw [here] at counts
    obtain ⟨rfl, below⟩ := counts
    cases taken
    refine ⟨?_, rfl⟩
    dsimp only
    split
    · rename_i down
      exact ⟨below, Or.inr down⟩
    · exact ⟨rfl, below⟩
  · rename_i here
    rw [here] at counts
    obtain ⟨point, same⟩ := sendPacket_counts taken
    rw [point, same]
    exact ⟨counts, rfl⟩
  · rename_i here
    rw [here] at counts
    obtain ⟨below, connected⟩ := counts
    cases taken
    refine ⟨?_, rfl⟩
    dsimp only
    split
    · rename_i down
      exact ⟨by omega, down⟩
    · rename_i running
      rcases connected with none_failed | down
      · exact none_failed
      · exact absurd down running
  · rename_i here
    rw [here] at counts
    obtain rfl : failed = 0 := counts
    cases taken
    exact ⟨⟨rfl, by omega⟩, onClose_counts terminal⟩
  · cases taken

theorem counts_shutdown {_shutdown : Bool} {point : Point} (counts : Counts _shutdown 102 point) :
    _shutdown = true := by
  cases point with
  | connecting tryCount => exact absurd counts.2 (by omega)
  | connectTo tryCount => exact absurd counts.2 (by omega)
  | connected => exact absurd counts.1 (by omega)
  | receiving => exact absurd counts.1 (by omega)
  | onRecv => cases counts
  | onClose => cases counts
  | returned => exact counts.2

theorem step_counts {event : ConnectProcess.Event}
    (counts : Counts terminal._shutdown failed terminal.point) (taken : terminal.step event = .ok next)
    (inside : event ≠ .shutdown) :
    Counts next._shutdown (triedOne failed event) next.point ∧
      (next._shutdown = true ↔ terminal._shutdown = true ∨ triedOne failed event = 102) := by
  have same (kept : next._shutdown = terminal._shutdown) (still : triedOne failed event = failed) :
      next._shutdown = true ↔ terminal._shutdown = true ∨ triedOne failed event = 102 := by
    rw [kept, still, iff_self_or]
    intro often
    exact counts_shutdown (often ▸ counts)
  cases event with
  | proceed =>
      obtain ⟨after, kept⟩ := proceed_counts counts taken
      exact ⟨after, same kept rfl⟩
  | connectTo result =>
      simp only [ConnectProcess.step] at taken
      split at taken
      · rename_i tryCount here
        rw [here] at counts
        cases taken
        exact connectTo_counts counts
      · cases taken
  | onRecv packet =>
      simp only [ConnectProcess.step] at taken
      split at taken
      · rename_i here
        rw [here] at counts
        obtain rfl : failed = 0 := counts
        cases taken
        cases packet with
        | none => exact ⟨rfl, same rfl rfl⟩
        | some packet => exact ⟨⟨by simp [triedOne], Or.inl rfl⟩, same rfl rfl⟩
      · cases taken
  | sendPacket packet =>
      obtain ⟨point, kept⟩ := sendPacket_counts taken
      refine ⟨?_, same kept rfl⟩
      rw [point, kept]
      exact counts
  | shutdown => exact absurd rfl inside
  | accept session addrInfo_ =>
      simp only [ConnectProcess.step] at taken
      split at taken
      · cases taken
      · obtain ⟨manager, -, taken⟩ := Exec.bind_ok taken
        cases taken
        exact ⟨counts, same rfl rfl⟩
  | disconnected session =>
      simp only [ConnectProcess.step] at taken
      split at taken
      · cases taken
        exact ⟨counts, same rfl rfl⟩
      · cases taken

end

theorem tried_last {terminal next : ConnectProcess} {event : ConnectProcess.Event}
    (counts : Counts terminal._shutdown 102 terminal.point)
    (taken : terminal.step event = .ok next) : triedOne 102 event = 102 := by
  cases event with
  | connectTo result =>
      simp only [ConnectProcess.step] at taken
      split at taken
      · rename_i tryCount here
        rw [here] at counts
        exact absurd counts.2 (by omega)
      · cases taken
  | proceed => rfl
  | onRecv packet => rfl
  | sendPacket packet => rfl
  | shutdown => rfl
  | accept session addrInfo_ => rfl
  | disconnected session => rfl

structure Counted (events : List Event) (terminals : TerminalManager) : Prop where
  points : ∀ index terminal, terminals.terminalPool_[index]? = some terminal →
    Counts terminals._shutdown (failedTries index events) terminal.point
  shutdown : terminals._shutdown = true ↔
    ∃ index < terminals.terminalPool_.length, failedTries index events = 102

theorem initial_counted (maxConnection : Int) (terminals : List (SessionPtr × TERMINAL_STATUS)) :
    (initial maxConnection terminals).Counted [] := by
  constructor
  · intro index terminal found
    obtain ⟨⟨session_, unset⟩, -, rfl⟩ := List.mem_map.mp (List.mem_of_getElem? found)
    exact ⟨rfl, by simp [failedTries]⟩
  · simp [initial, failedTries]

@[simp] theorem failedTries_concat (index : Nat) (events : List Event) (event : Event) :
    failedTries index (events ++ [event]) = tried index (failedTries index events) event := by
  simp [failedTries]

theorem run_counted {terminals next : TerminalManager} {events : List Event} {event : Event}
    {index : Nat} {own : ConnectProcess.Event} (counted : terminals.Counted events)
    (taken : terminals.run index own = .ok next) (inside : own ≠ .shutdown)
    (tries : ∀ other count, tried other count event =
      if other = index then triedOne count own else count) : next.Counted (events ++ [event]) := by
  rw [run] at taken
  split at taken
  · cases taken
  · rename_i terminal found
    obtain ⟨after, stepped, taken⟩ := Exec.bind_ok taken
    cases taken
    have before : Counts (terminals.shared terminal)._shutdown (failedTries index events)
        (terminals.shared terminal).point := counted.points index terminal found
    obtain ⟨counts, shutdown⟩ := step_counts before stepped inside
    have inRange : index < terminals.terminalPool_.length := (List.getElem?_eq_some_iff.mp found).1
    have stays : terminals._shutdown = true → after._shutdown = true :=
      fun down => shutdown.mpr (Or.inl down)
    constructor
    · intro other member held
      rw [failedTries_concat, tries]
      by_cases same : other = index
      · subst same
        simp only [put, List.getElem?_set_self inRange, Option.some.injEq] at held
        subst held
        rw [if_pos rfl]
        exact counts
      · simp only [put, List.getElem?_set_ne (Ne.symm same)] at held
        rw [if_neg same]
        exact (counted.points other member held).shutdown stays
    · show after._shutdown = true ↔ _
      rw [shutdown]
      simp only [put, List.length_set, failedTries_concat, tries]
      constructor
      · rintro (down | last)
        · obtain ⟨other, within, often⟩ := counted.shutdown.mp down
          refine ⟨other, within, ?_⟩
          split
          · rename_i same
            subst same
            rw [often] at before ⊢
            exact tried_last before stepped
          · exact often
        · exact ⟨index, inRange, by rw [if_pos rfl]; exact last⟩
      · rintro ⟨other, within, often⟩
        split at often
        · rename_i same
          subst same
          exact Or.inr often
        · exact Or.inl (counted.shutdown.mpr ⟨other, within, often⟩)

theorem Counted.quiet {terminals next : TerminalManager} {events : List Event} {event : Event}
    (counted : terminals.Counted events) (tries : ∀ index count, tried index count event = count)
    (flag : next._shutdown = terminals._shutdown)
    (pool : next.terminalPool_ = terminals.terminalPool_) : next.Counted (events ++ [event]) := by
  constructor
  · intro index terminal found
    rw [failedTries_concat, tries, flag]
    rw [pool] at found
    exact counted.points index terminal found
  · simp only [failedTries_concat, tries, flag, pool]
    exact counted.shutdown

theorem step_counted {terminals next : TerminalManager} {events : List Event} {event : Event}
    (counted : terminals.Counted events) (taken : terminals.step event = .ok next) :
    next.Counted (events ++ [event]) := by
  cases event with
  | proceed index =>
      refine run_counted counted taken (by simp) ?_
      intro other count
      simp [tried, triedOne]
  | connectTo index result =>
      refine run_counted counted taken (by simp) ?_
      intro other count
      by_cases same : other = index
      · simp [tried, triedOne, same]
      · simp [tried, same, Ne.symm same]
  | onRecv index packet =>
      refine run_counted counted taken (by simp) ?_
      intro other count
      simp [tried, triedOne]
  | sendPacket index packet =>
      refine run_counted counted taken (by simp) ?_
      intro other count
      simp [tried, triedOne]
  | shutdownServer =>
      cases taken
      exact counted.quiet (fun _ _ => rfl) rfl rfl
  | accept session addrInfo_ =>
      simp only [step] at taken
      split at taken
      · cases taken
      · obtain ⟨manager, -, taken⟩ := Exec.bind_ok taken
        cases taken
        exact counted.quiet (fun _ _ => rfl) rfl rfl
  | disconnected session =>
      simp only [step] at taken
      split at taken
      · cases taken
        exact counted.quiet (fun _ _ => rfl) rfl rfl
      · cases taken

theorem run_all_counted {maxConnection : Int} {servers : List (SessionPtr × TERMINAL_STATUS)}
    {events : List Event} {terminals : TerminalManager}
    (ran : Runs.run step (initial maxConnection servers) events = .ok terminals) :
    terminals.Counted events := by
  induction events using List.reverseRecOn generalizing terminals with
  | nil =>
      cases ran
      exact initial_counted maxConnection servers
  | append_singleton events event ih =>
      obtain ⟨last, before, taken⟩ := Runs.run_concat_ok ran
      exact step_counted (ih before) taken

theorem run_length {terminals next : TerminalManager} {index : Nat} {own : ConnectProcess.Event}
    (taken : terminals.run index own = .ok next) :
    next.terminalPool_.length = terminals.terminalPool_.length := by
  rw [run] at taken
  split at taken
  · cases taken
  · obtain ⟨after, -, taken⟩ := Exec.bind_ok taken
    cases taken
    exact List.length_set

theorem step_length {terminals next : TerminalManager} {event : Event}
    (taken : terminals.step event = .ok next) :
    next.terminalPool_.length = terminals.terminalPool_.length := by
  cases event with
  | proceed index => exact run_length taken
  | connectTo index result => exact run_length taken
  | onRecv index packet => exact run_length taken
  | sendPacket index packet => exact run_length taken
  | shutdownServer =>
      cases taken
      rfl
  | accept session addrInfo_ =>
      simp only [step] at taken
      split at taken
      · cases taken
      · obtain ⟨manager, -, taken⟩ := Exec.bind_ok taken
        cases taken
        rfl
  | disconnected session =>
      simp only [step] at taken
      split at taken
      · cases taken
        rfl
      · cases taken

/-- The process is shut down exactly when one of its terminals has failed 102 times in a
row to connect. -/
theorem shutdown_iff {maxConnection : Int} {servers : List (SessionPtr × TERMINAL_STATUS)}
    {events : List Event} {terminals : TerminalManager}
    (ran : Runs.run step (initial maxConnection servers) events = .ok terminals) :
    terminals._shutdown = true ↔ ∃ index < servers.length, failedTries index events = 102 := by
  have kept : ∀ state event next, state.terminalPool_.length = servers.length →
      step state event = .ok next → next.terminalPool_.length = servers.length :=
    fun _ _ _ length taken => (step_length taken).trans length
  have length := Runs.run_invariant kept (by simp [initial]) ran
  rw [← length]
  exact (run_all_counted ran).shutdown

/-- Two terminals: the second connects, and the first gives up. -/
def givesUp : List Event :=
  [.proceed 1, .connectTo 1 .success, .proceed 1, .shutdownServer] ++
    (List.replicate 102 [.proceed 0, .connectTo 0 .connectFail]).flatten

set_option maxRecDepth 20000 in
theorem shutdown_iff_two : ∃ terminals,
    Runs.run step (initial 1 [(16, .TERMINAL_STOP), (32, .TERMINAL_STOP)]) givesUp =
        .ok terminals ∧
      (terminals._shutdown = true ↔ ∃ index < 2, failedTries index givesUp = 102) := by
  obtain ⟨terminals, ran⟩ : ∃ terminals,
      Runs.run step (initial 1 [(16, .TERMINAL_STOP), (32, .TERMINAL_STOP)]) givesUp =
          .ok terminals := ⟨_, rfl⟩
  exact ⟨terminals, ran, shutdown_iff ran⟩

end TerminalManager

end GraduationServer
