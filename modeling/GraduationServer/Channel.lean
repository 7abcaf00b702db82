import GraduationServer.HandOff
import GraduationServer.TerminalSession
import GraduationServer.WorkerOrder

/-!
The way of a packet from `TerminalSession::sendPacket` on one server to its
handler on another: `::send`, the stream between them, the read completions of
the session and the threads that serve them, the server's queue and a content
thread.
-/

namespace GraduationServer

open Packet

/-- `wire` holds what each call of `::send` was given and has not arrived, and
`session` is the address of the receiving session. `sent` records the packets
that were sent, and the queue in `handOff` those put on the server's queue. -/
structure Channel (Process : Type) where
  sent : List Packet
  wire : List (List UInt8)
  session : SessionPtr
  receiver : IOCPSession
  handOff : HandOff
  workers : Workers Process

namespace Channel

variable {Process : Type}

inductive Event where
  | sendPacket (packet : Packet)
  | arrive (chunk : List UInt8) (later : List (List UInt8))
  | advance (index : Nat)
  | work (event : Workers.Event)

def initial (manager : SessionManager) (process : Process) (session : SessionPtr) :
    Channel Process :=
  { sent := []
    wire := []
    session
    receiver := IOCPSession.accepted
    handOff := HandOff.initial
    workers := { Workers.initial 0 process with manager } }

def arrive (unset : Nat → Nat → Int32) (ioThreads : Nat) (channel : Channel Process)
    (chunk : List UInt8) (later : List (List UInt8)) : Exec (Channel Process) :=
  if channel.workers.manager.registered channel.session ∧ channel.receiver.Deliverable chunk ∧
      chunk ++ later.flatten = channel.wire.flatten then do
    let receiver ← channel.receiver.receive unset chunk
    let packages := receiver.packageStorage.map fun packet =>
      { session_ := channel.session, packet_ := packet : Package }
    return { channel with
      wire := later
      receiver := { receiver with packageStorage := [] }
      handOff := ← channel.handOff.completion ioThreads packages }
  else .error .notEnabled

/-- A step of a thread that serves a completion. All but the last of its steps,
`putPackage`, use the session. -/
def advance (channel : Channel Process) (index : Nat) : Exec (Channel Process) :=
  match InFlight.take channel.handOff.serving index with
  | none => .error .notEnabled
  | some (phase, others) =>
      if HandOff.carried [phase] = [] ∧ ¬ channel.workers.manager.registered channel.session then
        .error .freedObject
      else do
        return { channel with
          handOff := ← channel.handOff.advance others phase
          workers := (HandOff.carried [phase]).foldl Workers.putPackage channel.workers }

def step (unset : Nat → Nat → Int32) (table : RunFuncTable Process)
    (ioThreads processCount : Nat) (channel : Channel Process) : Event → Exec (Channel Process)
  | .sendPacket packet => do
      let bytes ← TerminalSession.sendPacket packet
      return { channel with
        sent := channel.sent ++ [packet]
        wire := channel.wire ++ [bytes] }
  | .arrive chunk later => channel.arrive unset ioThreads chunk later
  | .advance index => channel.advance index
  | .work event => do
      return { channel with workers := ← channel.workers.step table processCount event }

/-- Packets are short enough for the receiver and hold no NUL in a string, no
completion ends inside a frame, the threads put packages in the order in which
they popped them, and nobody else uses the session's address. -/
def Orderly (channel : Channel Process) : Event → Prop
  | .sendPacket packet => IOCPSession.Sendable packet ∧ packet.NulFree
  | .arrive _ later => later <:+ channel.wire
  | .advance index => channel.handOff.PutsFirst (.advance index)
  | .work (.accept session _) => session = channel.session → channel.sent = []
  | .work (.putPackage package) => package.session_ ≠ channel.session
  | .work _ => True

instance (channel : Channel Process) : (event : Event) → Decidable (channel.Orderly event)
  | .sendPacket packet =>
      inferInstanceAs (Decidable (IOCPSession.Sendable packet ∧ packet.NulFree))
  | .arrive _ later => inferInstanceAs (Decidable (later <:+ channel.wire))
  | .advance index => inferInstanceAs (Decidable (channel.handOff.PutsFirst (.advance index)))
  | .work (.accept session _) =>
      inferInstanceAs (Decidable (session = channel.session → channel.sent = []))
  | .work (.putPackage package) =>
      inferInstanceAs (Decidable (package.session_ ≠ channel.session))
  | .work (.disconnected _) => inferInstanceAs (Decidable True)
  | .work .pop => inferInstanceAs (Decidable True)
  | .work (.run _) => inferInstanceAs (Decidable True)

def received (packages : List Package) : List Packet :=
  packages.map Package.packet_

def packetsOf (session : SessionPtr) (jobs : List Job) : List Packet :=
  received ((Workers.ofSession session jobs).map Job.package)

/-- What was sent has taken effect, is in the hand of a content thread, waits in
the queue, is in the hand of a thread that has popped it, waits in the session's
storage or for it, or is under way: in this order, and nothing else. -/
def Delivers (channel : Channel Process) : Prop :=
  ∃ onTheWay : List Packet, channel.wire = onTheWay.map frame ∧
    channel.sent = packetsOf channel.session channel.workers.effects ++
      packetsOf channel.session channel.workers.hands ++
      packetsOf channel.session channel.workers.packageQueue_.items ++
      received (HandOff.carried channel.handOff.serving) ++
      received channel.handOff.packageStorage ++
      received (HandOff.receiving channel.handOff.serving) ++ onTheWay

structure InTurn (workers : Workers Process) : Prop where
  few : workers.hands.length ≤ 1
  turn : workers.put = workers.effects ++ workers.hands ++ workers.packageQueue_.items

structure Standing (channel : Channel Process) : Prop where
  receiver : IOCPSession.Standing channel.receiver
  emptied : channel.receiver.packageStorage = []
  single : channel.handOff.Single
  own : ∀ package ∈ channel.handOff.packages, package.session_ = channel.session
  inTurn : InTurn channel.workers
  queued : packetsOf channel.session channel.workers.put =
    received channel.handOff.packageQueue_.items
  onTheWay : ∃ packets : List Packet, channel.wire = packets.map frame ∧
    (∀ packet ∈ packets, IOCPSession.Sendable packet ∧ packet.NulFree) ∧
    channel.sent = received channel.handOff.packages ++ packets

theorem step_inTurn {table : RunFuncTable Process} {workers next : Workers Process}
    {event : Workers.Event} (inTurn : InTurn workers)
    (taken : workers.step table 1 event = .ok next) : InTurn next := by
  obtain ⟨few, turn⟩ := inTurn
  refine ⟨Workers.hands_le few taken, ?_⟩
  cases event with
  | accept session addrInfo_ =>
      obtain ⟨manager, -, taken⟩ := Exec.bind_ok taken
      cases taken
      exact turn
  | disconnected session =>
      simp only [Workers.step] at taken
      split at taken
      · cases taken
        exact turn
      · cases taken
  | putPackage package =>
      cases taken
      simp [Workers.putPackage, turn]
  | pop =>
      rcases Workers.pop_cases taken with rfl | ⟨job, packageQueue_, idle, items, rfl⟩
      · exact turn
      · simp [turn, items]
  | run index =>
      obtain ⟨job, hands, holding, left, queue, put, effects⟩ := Workers.run_cases taken
      have same := InFlight.take_perm holding
      have count := same.length_eq
      rw [List.length_cons] at count
      have nobody : hands = [] := List.eq_nil_of_length_eq_zero (by omega)
      subst nobody
      rw [List.perm_singleton] at same
      simp [put, turn, same, effects, left, queue]

theorem putPackage_inTurn {workers : Workers Process} (package : Package)
    (inTurn : InTurn workers) : InTurn (workers.putPackage package) := by
  refine ⟨inTurn.few, ?_⟩
  simp [Workers.putPackage, inTurn.turn]

@[simp] theorem received_append (first second : List Package) :
    received (first ++ second) = received first ++ received second := by
  simp [received]

theorem packetsOf_append (session : SessionPtr) (first second : List Job) :
    packetsOf session (first ++ second) = packetsOf session first ++ packetsOf session second := by
  simp [packetsOf, Workers.ofSession]

theorem packetsOf_putPackage {workers : Workers Process} {session : SessionPtr}
    {package : Package} (own : package.session_ = session) :
    packetsOf session (workers.putPackage package).put =
      packetsOf session workers.put ++ received [package] := by
  rw [Workers.putPackage, packetsOf_append]
  simp [packetsOf, Workers.ofSession, own]

theorem standing_delivers {channel : Channel Process} (standing : channel.Standing) :
    channel.Delivers := by
  obtain ⟨onTheWay, wire, -, sent⟩ := standing.onTheWay
  refine ⟨onTheWay, wire, ?_⟩
  have passed := standing.queued
  rw [standing.inTurn.turn, packetsOf_append, packetsOf_append] at passed
  rw [sent, HandOff.packages, received_append, received_append, received_append, ← passed]

theorem work_packets {table : RunFuncTable Process} {processCount : Nat}
    {workers next : Workers Process} {event : Workers.Event} {session : SessionPtr}
    (foreign : ∀ package, event = .putPackage package → package.session_ ≠ session)
    (taken : workers.step table processCount event = .ok next) :
    packetsOf session next.put = packetsOf session workers.put := by
  cases event with
  | accept other addrInfo_ =>
      obtain ⟨manager, -, taken⟩ := Exec.bind_ok taken
      cases taken
      rfl
  | disconnected other =>
      simp only [Workers.step] at taken
      split at taken
      · cases taken
        rfl
      · cases taken
  | putPackage package =>
      cases taken
      have other := foreign package rfl
      simp [packetsOf, Workers.ofSession, Workers.putPackage, other]
  | pop =>
      rcases Workers.pop_cases taken with rfl | ⟨job, packageQueue_, -, -, rfl⟩
      · rfl
      · rfl
  | run index =>
      obtain ⟨job, hands, -, -, -, put, -⟩ := Workers.run_cases taken
      rw [put]

theorem arrive_standing {unset : Nat → Nat → Int32} {ioThreads : Nat}
    {channel next : Channel Process} {chunk : List UInt8} {later : List (List UInt8)}
    (standing : channel.Standing) (taken : channel.arrive unset ioThreads chunk later = .ok next)
    (whole : later <:+ channel.wire) : next.Standing := by
  obtain ⟨receiver, emptied, single, own, inTurn, queued, packets, wire, sendable, sent⟩ := standing
  rw [arrive] at taken
  split at taken
  · rename_i possible
    obtain ⟨-, ⟨nonempty, fits⟩, stream⟩ := possible
    -- the completion holds the frames of the first packets under way
    obtain ⟨earlier, parts⟩ := whole
    rw [wire] at parts stream
    obtain ⟨arrived, onTheWay, rfl, first, rest⟩ := List.map_eq_append_iff.mp parts.symm
    have content : chunk = frames arrived := by
      rw [List.map_append, List.flatten_append, ← rest, List.append_cancel_right_eq] at stream
      rw [stream, frames, List.flatMap_def]
    rw [receiver.posted] at fits
    have some_packet : arrived ≠ [] := by
      rintro rfl
      exact nonempty content
    obtain ⟨after, received, -, storage, again⟩ := IOCPSession.receive_whole unset receiver
      (fun packet member => (sendable packet (List.mem_append_left _ member)).1) some_packet
      (Or.inl (by simp) : IOCPSession.Incomplete []) (by simpa [content] using fits)
    rw [List.append_nil, ← content] at received
    have uncut : arrived.map cut = arrived := (IOCPSession.map_cut_eq_self_iff arrived).mpr
      fun packet member => (sendable packet (List.mem_append_left _ member)).2
    rw [emptied, List.nil_append, uncut] at storage
    obtain ⟨same, one, taken⟩ := Exec.bind_ok taken
    obtain rfl : after = same := Except.ok.inj (received.symm.trans one)
    obtain ⟨handOff, completed, taken⟩ := Exec.bind_ok taken
    cases taken
    obtain ⟨alone, behind, queue⟩ := HandOff.completion_order single completed
    refine ⟨?_, rfl, alone, ?_, inTurn, ?_, onTheWay, rest.symm, ?_, ?_⟩
    · exact ⟨(again rfl).buffer, (again rfl).cleared, (again rfl).posted⟩
    · intro package member
      simp only [behind, List.mem_append, List.mem_map] at member
      obtain old | ⟨packet, -, rfl⟩ := member
      · exact own package old
      · rfl
    · rw [queue]
      exact queued
    · exact fun packet member => sendable packet (List.mem_append_right _ member)
    · have new : Channel.received (after.packageStorage.map fun packet =>
          { session_ := channel.session, packet_ := packet }) = arrived := by
        simp [Channel.received, storage, Function.comp_def]
      show channel.sent = Channel.received handOff.packages ++ onTheWay
      rw [behind, received_append, new, sent, List.append_assoc]
  · cases taken

theorem advance_standing {channel next : Channel Process} {index : Nat}
    (standing : channel.Standing) (orderly : channel.handOff.PutsFirst (.advance index))
    (taken : channel.advance index = .ok next) : next.Standing := by
  obtain ⟨receiver, emptied, single, own, inTurn, queued, packets, wire, sendable, sent⟩ := standing
  rw [advance] at taken
  split at taken
  · cases taken
  · rename_i phase others holding
    split at taken
    · cases taken
    · obtain ⟨handOff, moved, taken⟩ := Exec.bind_ok taken
      cases taken
      obtain ⟨alone, same, queue⟩ := HandOff.advance_order single orderly holding moved
      rw [← same] at own sent
      cases phase with
      | putPackage package =>
          have mine : package.session_ = channel.session := by
            refine own package ?_
            simp [HandOff.packages, queue]
          refine ⟨receiver, emptied, alone, own, putPackage_inTurn package inTurn, ?_, packets,
            wire, sendable, sent⟩
          rw [queue, received_append, ← queued]
          exact packetsOf_putPackage mine
      | onRecv packages =>
          refine ⟨receiver, emptied, alone, own, inTurn, ?_, packets, wire, sendable, sent⟩
          rw [queue, HandOff.carried_onRecv, List.append_nil]
          exact queued
      | isEmpty =>
          refine ⟨receiver, emptied, alone, own, inTurn, ?_, packets, wire, sendable, sent⟩
          rw [queue, HandOff.carried_isEmpty, List.append_nil]
          exact queued
      | popPackage =>
          refine ⟨receiver, emptied, alone, own, inTurn, ?_, packets, wire, sendable, sent⟩
          rw [queue, HandOff.carried_popPackage, List.append_nil]
          exact queued

theorem step_standing {unset : Nat → Nat → Int32} {table : RunFuncTable Process}
    {ioThreads : Nat} {channel next : Channel Process} {event : Event}
    (standing : channel.Standing) (orderly : channel.Orderly event)
    (taken : channel.step unset table ioThreads 1 event = .ok next) : next.Standing := by
  cases event with
  | arrive chunk later => exact arrive_standing standing taken orderly
  | advance index => exact advance_standing standing orderly taken
  | sendPacket packet =>
      obtain ⟨receiver, emptied, single, own, inTurn, queued, packets, wire, sendable, sent⟩ :=
        standing
      obtain ⟨fits, nulFree⟩ := orderly
      obtain ⟨bytes, framed, taken⟩ := Exec.bind_ok taken
      cases taken
      have short := fits.short
      have room : 8 + packet.encoding.length ≤ SOCKET_BUF_SIZE := by
        simp only [SOCKET_BUF_SIZE]
        omega
      obtain rfl : packet.frame = bytes :=
        Except.ok.inj ((IOCPSession.terminal_sends room).symm.trans framed)
      refine ⟨receiver, emptied, single, own, inTurn, queued, packets ++ [packet], by simp [wire],
        ?_, by simp [sent]⟩
      intro other member
      rcases List.mem_append.mp member with old | new
      · exact sendable other old
      · obtain rfl := List.mem_singleton.mp new
        exact ⟨fits, nulFree⟩
  | work event =>
      obtain ⟨receiver, emptied, single, own, inTurn, queued, packets, wire, sendable, sent⟩ :=
        standing
      obtain ⟨workers, worked, taken⟩ := Exec.bind_ok taken
      cases taken
      refine ⟨receiver, emptied, single, own, step_inTurn inTurn worked, ?_, packets, wire,
        sendable, sent⟩
      rw [← queued]
      refine work_packets ?_ worked
      rintro package rfl
      exact orderly

theorem initial_standing (manager : SessionManager) (process : Process) (session : SessionPtr) :
    (initial manager process session).Standing := by
  refine ⟨IOCPSession.accepted_standing, rfl, HandOff.initial_single, ?_, ⟨Nat.zero_le _, rfl⟩,
    rfl, [], rfl, by simp, rfl⟩
  have nothing : (initial manager process session).handOff.packages = [] := rfl
  simp [nothing]

/-- With one content thread, completions of whole frames and packages put in the
order in which they were popped, the packets of a terminal take effect on the
peer once each and in the order of the calls, however the calls, the completions
and the threads are interleaved. -/
theorem delivers_run (unset : Nat → Nat → Int32) (table : RunFuncTable Process) (ioThreads : Nat)
    (manager : SessionManager) (process : Process) (session : SessionPtr) (events : List Event)
    (orderly : Runs.Throughout (step unset table ioThreads 1) Orderly
      (initial manager process session) events) :
    Runs.Always (step unset table ioThreads 1) Delivers (initial manager process session) events :=
  Runs.always_of_throughout (fun _ _ _ => step_standing) (fun _ => standing_delivers)
    (initial_standing manager process session) orderly

/-- Two threads serve two completions and hold a package each. -/
def twoHold : List Event :=
  [.work (.accept 16 1), .sendPacket .PK_I_NOTIFY_TERMINAL, .sendPacket .PK_I_NOTIFY_TERMINAL,
    .arrive (frames [.PK_I_NOTIFY_TERMINAL]) [frame .PK_I_NOTIFY_TERMINAL],
    .advance 0, .advance 0, .advance 0, .arrive (frames [.PK_I_NOTIFY_TERMINAL]) [],
    .advance 0, .advance 0, .advance 1, .advance 1, .advance 1, .advance 0, .advance 0,
    .work .pop, .work (.run 0)]

theorem delivers_run_notify :
    let steps := step (fun _ _ => 0) ContentsProcess.registDefaultPacketFunc 2 1
    let start := initial (SessionManager.init SESSION_CAPACITY) () 16
    Runs.Always steps Delivers start twoHold ∧
      (Runs.run steps start twoHold).toOption.map (fun channel => channel.workers.effects.length) =
        some 1 :=
  ⟨delivers_run _ _ _ _ _ _ _ (by decide +kernel), by decide +kernel⟩

end Channel

end GraduationServer
