import GraduationServer.Library.StdMap
import GraduationServer.Packet
import GraduationServer.SessionManager

/-!
`ThreadJobQueue`, `Package` and `ContentsProcess`: how a server finds and runs
the handler of a package. A handler that a server registers itself either
closes the session of the package at once, or works and sends packets.
-/

namespace GraduationServer

structure ThreadJobQueue (α : Type) where
  writeQueue_ : List α
  readQueue_ : List α

namespace ThreadJobQueue

variable {α : Type}

def empty : ThreadJobQueue α := { writeQueue_ := [], readQueue_ := [] }

def push (queue : ThreadJobQueue α) (item : α) : ThreadJobQueue α :=
  { queue with writeQueue_ := queue.writeQueue_ ++ [item] }

def swap (queue : ThreadJobQueue α) : ThreadJobQueue α :=
  { writeQueue_ := queue.readQueue_, readQueue_ := queue.writeQueue_ }

def size (queue : ThreadJobQueue α) : Nat := queue.writeQueue_.length + queue.readQueue_.length

def pop (queue : ThreadJobQueue α) : Option (α × ThreadJobQueue α) :=
  if queue.size = 0 then none
  else
    let queue := if queue.readQueue_ = [] then queue.swap else queue
    match queue.readQueue_ with
    | [] => none
    | item :: rest => some (item, { queue with readQueue_ := rest })

def items (queue : ThreadJobQueue α) : List α := queue.readQueue_ ++ queue.writeQueue_

end ThreadJobQueue

structure Package where
  session_ : SessionPtr
  packet_ : Packet
  deriving DecidableEq

inductive ServerName where
  | LoginServer
  | ChattingServer
  | DBAgent
  | InGameServer
  deriving DecidableEq

structure Terminal where
  ip_ : Str
  port_ : UInt32

inductive Receiver where
  | session (session : SessionPtr)
  | terminal (name : ServerName)
  deriving DecidableEq

def toInt (value : UInt64) : Int32 := value.toUInt32.toInt32

def toTerminal (name : ServerName) (sent : List (Receiver × Packet)) : List Packet :=
  sent.filterMap fun (receiver, packet) => if receiver = .terminal name then some packet else none

@[simp] theorem toTerminal_append (name : ServerName) (first second : List (Receiver × Packet)) :
    toTerminal name (first ++ second) = toTerminal name first ++ toTerminal name second := by
  simp [toTerminal]

structure SubFunc (Process : Type) where
  refuses : Process → SessionManager → SessionPtr → Packet → Exec Bool
  handle : Process → SessionManager → SessionPtr → Packet →
    Exec (Process × List (Receiver × Packet))

inductive RunFunc (Process : Type) where
  | Packet_HeartBeat
  | Packet_Notify_Terminal
  | C_REQ_EXIT
  | sub (func : SubFunc Process)

abbrev RunFuncTable (Process : Type) := StdMap.Map PacketType (RunFunc Process)

structure Outcome (Process : Type) where
  manager : SessionManager
  process : Process
  sent : List (Receiver × Packet)

namespace ContentsProcess

variable {Process : Type}

def registDefaultPacketFunc : RunFuncTable Process :=
  StdMap.insert (StdMap.insert (StdMap.insert StdMap.empty
    .E_C_NOTIFY_HEARTBEAT .Packet_HeartBeat)
    .E_I_NOTIFY_TERMINAL .Packet_Notify_Terminal)
    .E_C_REQ_EXIT .C_REQ_EXIT

def registSubPacketFunc (funcs : List (PacketType × SubFunc Process)) : RunFuncTable Process :=
  funcs.foldl (fun table entry => StdMap.insert table entry.1 (.sub entry.2)) registDefaultPacketFunc

/-- `run`. The heart beat only stores the time of day. -/
def run (table : RunFuncTable Process) (process : Process) (manager : SessionManager)
    (package : Package) : Exec (Outcome Process) := do
  let session := package.session_
  let unchanged : Outcome Process := { manager, process, sent := [] }
  let closed := { unchanged with manager := manager.closeSession session }
  match table package.packet_.type with
  | none =>
      let _ ← manager.deref session
      return closed
  | some .Packet_HeartBeat =>
      let _ ← manager.deref session
      return unchanged
  | some .Packet_Notify_Terminal =>
      let _ ← manager.deref session
      return { unchanged with manager := manager.setType session .SESSION_TYPE_TERMINAL }
  | some .C_REQ_EXIT =>
      let _ ← manager.deref session
      return closed
  | some (.sub func) =>
      if ← func.refuses process manager session package.packet_ then return closed
      else
        let (process, sent) ← func.handle process manager session package.packet_
        return { unchanged with process, sent }

def closes (table : RunFuncTable Process) (process : Process) (manager : SessionManager)
    (package : Package) : Bool :=
  match table package.packet_.type with
  | none => true
  | some .C_REQ_EXIT => true
  | some (.sub func) =>
      match func.refuses process manager package.session_ package.packet_ with
      | .ok refused => refused
      | .error _ => false
  | some _ => false

end ContentsProcess

namespace ThreadJobQueue

variable {α : Type}

@[simp] theorem items_empty : (empty : ThreadJobQueue α).items = [] := rfl

@[simp] theorem items_push (queue : ThreadJobQueue α) (item : α) :
    (queue.push item).items = queue.items ++ [item] := by
  simp [items, push]

theorem pop_none {queue : ThreadJobQueue α} (popped : queue.pop = none) : queue.items = [] := by
  by_cases nothing : queue.size = 0
  · simp only [size, Nat.add_eq_zero_iff, List.length_eq_zero_iff] at nothing
    simp [items, nothing]
  · cases read : queue.readQueue_ with
    | cons item rest => simp [pop, nothing, read] at popped
    | nil =>
        cases written : queue.writeQueue_ with
        | nil => simp [items, read, written]
        | cons item rest => simp [pop, nothing, read, swap, written] at popped

theorem pop_some {queue after : ThreadJobQueue α} {item : α}
    (popped : queue.pop = some (item, after)) : queue.items = item :: after.items := by
  by_cases nothing : queue.size = 0
  · simp [pop, nothing] at popped
  · cases read : queue.readQueue_ with
    | cons first rest =>
        simp only [pop, nothing, if_false, read, List.cons_ne_nil, Option.some.injEq,
          Prod.mk.injEq] at popped
        obtain ⟨rfl, rfl⟩ := popped
        simp [items, read]
    | nil =>
        cases written : queue.writeQueue_ with
        | nil => simp [pop, nothing, read, swap, written] at popped
        | cons first rest =>
            simp only [pop, nothing, if_false, read, if_true, swap, written, Option.some.injEq,
              Prod.mk.injEq] at popped
            obtain ⟨rfl, rfl⟩ := popped
            simp [items, read, written]

end ThreadJobQueue

namespace ContentsProcess

variable {Process : Type}

inductive Ran (table : RunFuncTable Process) (process : Process) (manager : SessionManager)
    (package : Package) : Outcome Process → Prop
  | closed {object : Session} :
      table package.packet_.type = none ∨ table package.packet_.type = some .C_REQ_EXIT →
      manager.deref package.session_ = .ok object →
      Ran table process manager package
        { manager := manager.closeSession package.session_, process, sent := [] }
  | heartBeat {object : Session} : table package.packet_.type = some .Packet_HeartBeat →
      manager.deref package.session_ = .ok object →
      Ran table process manager package { manager, process, sent := [] }
  | terminal {object : Session} : table package.packet_.type = some .Packet_Notify_Terminal →
      manager.deref package.session_ = .ok object →
      Ran table process manager package
        { manager := manager.setType package.session_ .SESSION_TYPE_TERMINAL, process, sent := [] }
  | refused {func : SubFunc Process} : table package.packet_.type = some (.sub func) →
      func.refuses process manager package.session_ package.packet_ = .ok true →
      Ran table process manager package
        { manager := manager.closeSession package.session_, process, sent := [] }
  | handled {func : SubFunc Process} {after : Process} {sent : List (Receiver × Packet)} :
      table package.packet_.type = some (.sub func) →
      func.refuses process manager package.session_ package.packet_ = .ok false →
      func.handle process manager package.session_ package.packet_ = .ok (after, sent) →
      Ran table process manager package { manager, process := after, sent }

theorem run_ran {table : RunFuncTable Process} {process : Process} {manager : SessionManager}
    {package : Package} {outcome : Outcome Process}
    (ran : run table process manager package = .ok outcome) :
    Ran table process manager package outcome := by
  simp only [run] at ran
  split at ran
  · rename_i unknown
    obtain ⟨object, used, ran⟩ := Exec.bind_ok ran
    cases ran
    exact .closed (Or.inl unknown) used
  · rename_i found
    obtain ⟨object, used, ran⟩ := Exec.bind_ok ran
    cases ran
    exact .heartBeat found used
  · rename_i found
    obtain ⟨object, used, ran⟩ := Exec.bind_ok ran
    cases ran
    exact .terminal found used
  · rename_i found
    obtain ⟨object, used, ran⟩ := Exec.bind_ok ran
    cases ran
    exact .closed (Or.inr found) used
  · rename_i func found
    obtain ⟨refused, decided, ran⟩ := Exec.bind_ok ran
    cases refused with
    | true =>
        cases ran
        exact .refused found decided
    | false =>
        obtain ⟨⟨after, sent⟩, handled, ran⟩ := Exec.bind_ok ran
        cases ran
        exact .handled found decided handled

theorem registered_run {table : RunFuncTable Process} {process : Process}
    {manager : SessionManager} {package : Package} {outcome : Outcome Process}
    (ran : run table process manager package = .ok outcome) (other : SessionPtr) :
    outcome.manager.registered other = true ↔
      manager.registered other = true ∧
        (closes table process manager package = true → other ≠ package.session_) := by
  have closing : (manager.closeSession package.session_).registered other = true ↔
      manager.registered other = true ∧ (true = true → other ≠ package.session_) := by
    simpa using SessionManager.registered_closeSession
  cases run_ran ran with
  | closed asked _ => rcases asked with found | found <;> simpa only [closes, found] using closing
  | heartBeat found _ => simp [closes, found]
  | terminal found _ => simp [closes, found]
  | refused found decided => simpa only [closes, found, decided] using closing
  | handled found decided _ => simp [closes, found, decided]

theorem foldl_insert_sub {funcs : List (PacketType × SubFunc Process)}
    {table : RunFuncTable Process} {type : PacketType} {func : RunFunc Process}
    (found : funcs.foldl (fun table entry => StdMap.insert table entry.1 (.sub entry.2)) table
      type = some func) :
    table type = some func ∨ ∃ entry ∈ funcs, entry.1 = type ∧ func = .sub entry.2 := by
  induction funcs generalizing table with
  | nil => exact Or.inl found
  | cons entry rest ih =>
      rcases ih found with earlier | ⟨later, member, same⟩
      · rcases StdMap.insert_some earlier with present | ⟨type, value⟩
        · exact Or.inl present
        · exact Or.inr ⟨entry, List.mem_cons_self, type.symm, value⟩
      · exact Or.inr ⟨later, List.mem_cons_of_mem _ member, same⟩

theorem registSubPacketFunc_sub {funcs : List (PacketType × SubFunc Process)} {type : PacketType}
    {func : SubFunc Process} (found : registSubPacketFunc funcs type = some (.sub func)) :
    (type, func) ∈ funcs := by
  rcases foldl_insert_sub found with default | ⟨entry, member, rfl, same⟩
  · rw [registDefaultPacketFunc] at default
    rcases StdMap.insert_some default with default | ⟨-, other⟩
    · rcases StdMap.insert_some default with default | ⟨-, other⟩
      · rcases StdMap.insert_some default with absent | ⟨-, other⟩
        · cases absent
        · cases other
      · cases other
    · cases other
  · cases same
    exact member

theorem run_ok {table : RunFuncTable Process} {process : Process} {manager : SessionManager}
    {package : Package} {outcome : Outcome Process}
    (ran : run table process manager package = .ok outcome) :
    manager.Retains outcome.manager ∧
      (outcome.sent = [] ∨ ∃ func, table package.packet_.type = some (.sub func) ∧
        func.handle process manager package.session_ package.packet_ =
          .ok (outcome.process, outcome.sent)) := by
  cases run_ran ran with
  | closed => exact ⟨manager.retains_closeSession _, Or.inl rfl⟩
  | heartBeat => exact ⟨SessionManager.Retains.refl manager, Or.inl rfl⟩
  | terminal => exact ⟨manager.retains_setType _ _, Or.inl rfl⟩
  | refused => exact ⟨manager.retains_closeSession _, Or.inl rfl⟩
  | handled found _ done =>
      exact ⟨SessionManager.Retains.refl manager, Or.inr ⟨_, found, done⟩⟩

theorem run_process {table : RunFuncTable Process} {process : Process} {manager : SessionManager}
    {package : Package} {outcome : Outcome Process}
    (ran : run table process manager package = .ok outcome) :
    outcome.process = process ∨ closes table process manager package = false ∧
      ∃ func, table package.packet_.type = some (.sub func) ∧
        func.handle process manager package.session_ package.packet_ =
          .ok (outcome.process, outcome.sent) := by
  cases run_ran ran with
  | closed => exact Or.inl rfl
  | heartBeat => exact Or.inl rfl
  | terminal => exact Or.inl rfl
  | refused => exact Or.inl rfl
  | handled found decided done =>
      exact Or.inr ⟨by simp only [closes, found, decided], _, found, done⟩

end ContentsProcess

end GraduationServer
