import GraduationServer.TerminalSession
import Mathlib.Algebra.BigOperators.Group.List.Basic

/-!
`TerminalSession::onRecv` and the receive loop of `Terminal::connectProcess`.
A call reads into an array of its own: it takes one packet from it and drops
what else came with the last `::recv`.
-/

namespace GraduationServer

open Packet

namespace TerminalSession

/-- `::recv` gives at most `size` bytes of the segment that is at hand and
blocks when there is none. An empty segment is the end of the connection. -/
def recv : Nat → List (List UInt8) → Option (List UInt8 × List (List UInt8))
  | 0, chunks => some ([], chunks)
  | _, [] => none
  | _, [] :: later => some ([], [] :: later)
  | size, chunk :: later =>
      if chunk.length ≤ size then some (chunk, later)
      else some (chunk.take size, chunk.drop size :: later)

/-- The loop that waits for `packetLen` bytes; `none` when it blocks. A call
with no room left gives zero bytes, so the loop then runs for ever. -/
def fill (packetLen : Int32) :
    Nat → List UInt8 → List (List UInt8) → Exec (Option (List UInt8 × List (List UInt8)))
  | 0, _, _ => .error .endlessLoop
  | turns + 1, received, chunks =>
      if (received.length : Int) < packetLen.toInt then
        match recv (SOCKET_BUF_SIZE - received.length) chunks with
        | none => .ok none
        | some (bytes, later) => fill packetLen turns (received ++ bytes) later
      else .ok (some (received, chunks))

def rowData (memory received : List UInt8) : List UInt8 := received ++ memory.drop received.length

def packetLen (memory received : List UInt8) : Int32 :=
  Int32.ofNat (LittleEndian.decode (ZeroFilled.read (rowData memory received) 0 4))

/-- The analyzer gets the memory behind the header, and `packetLen` for its
size, so it copies four bytes more than the frame has. -/
def analyze (unset : Nat → Int32) (rowData : List UInt8) (packetLen : Int32) :
    Exec (Option Packet) :=
  if (PacketFactory.getPacket
        (LittleEndian.decode (ZeroFilled.read (rowData.drop 4) 0 8))).isSome ∧
      8 < toSize packetLen ∧ SOCKET_BUF_SIZE < 4 + toSize packetLen then .error .outOfBounds
  else PacketAnalyzer.analyzer unset (rowData.drop 4) (toSize packetLen)

inductive Received where
  | waiting
  | nullptr
  | package (packet : Packet) (later : List (List UInt8))

def onRecv (unset : Nat → Int32) (memory : List UInt8) (chunks : List (List UInt8)) :
    Exec Received :=
  match recv SOCKET_BUF_SIZE chunks with
  | none => .ok .waiting
  | some ([], _) => .ok .nullptr
  | some (first, later) => do
      let packetLen := packetLen memory first
      match ← fill packetLen (SOCKET_BUF_SIZE + 1) first later with
      | none => return .waiting
      | some (received, later) =>
          match ← analyze unset (rowData memory received) packetLen with
          | none => return .nullptr
          | some packet => return .package packet later

/-- The packages that the loop of `connectProcess` puts on the server's queue,
until it blocks or closes the session. Every turn has memory of its own. -/
def packages (unset : Nat → Nat → Int32) (memory : Nat → List UInt8) :
    Nat → List (List UInt8) → Exec (List Packet)
  | 0, _ => .error .endlessLoop
  | turns + 1, chunks => do
      match ← onRecv (unset turns) (memory turns) chunks with
      | .waiting => return []
      | .nullptr => return []
      | .package packet later => return packet :: (← packages unset memory turns later)

/-! One call: what it takes from the segments, and what it gives for a frame
that ends where a segment ends. -/

theorem recv_taken {size : Nat} {chunks later : List (List UInt8)} {bytes : List UInt8}
    (taken : recv size chunks = some (bytes, later)) :
    bytes ++ later.flatten = chunks.flatten ∧
    (bytes ≠ [] → ∃ chunk rest, chunks = chunk :: rest ∧ bytes = chunk.take size) ∧
    ((∀ chunk ∈ chunks, chunk ≠ []) → bytes.length < size → chunks = bytes :: later) := by
  unfold recv at taken
  split at taken
  · simp only [Option.some.injEq, Prod.mk.injEq] at taken
    obtain ⟨rfl, rfl⟩ := taken
    exact ⟨rfl, fun some_bytes => absurd rfl some_bytes,
      fun _ positive => absurd positive (Nat.not_lt_zero _)⟩
  · contradiction
  · simp only [Option.some.injEq, Prod.mk.injEq] at taken
    obtain ⟨rfl, rfl⟩ := taken
    exact ⟨rfl, fun some_bytes => absurd rfl some_bytes,
      fun nonempty _ => absurd rfl (nonempty [] List.mem_cons_self)⟩
  · split at taken
    · rename_i fits
      simp only [Option.some.injEq, Prod.mk.injEq] at taken
      obtain ⟨rfl, rfl⟩ := taken
      exact ⟨rfl, fun _ => ⟨_, _, rfl, (List.take_of_length_le fits).symm⟩, fun _ _ => rfl⟩
    · simp only [Option.some.injEq, Prod.mk.injEq] at taken
      obtain ⟨rfl, rfl⟩ := taken
      refine ⟨?_, fun _ => ⟨_, _, rfl, rfl⟩, ?_⟩
      · rw [List.flatten_cons, List.flatten_cons, ← List.append_assoc, List.take_append_drop]
      · intro _ short
        rw [List.length_take] at short
        omega

theorem recv_segment {size : Nat} {chunk : List UInt8} (nonempty : chunk ≠ [])
    (fits : chunk.length ≤ size) (later : List (List UInt8)) :
    recv size (chunk :: later) = some (chunk, later) := by
  obtain ⟨byte, rest, rfl⟩ := List.exists_cons_of_ne_nil nonempty
  obtain ⟨less, rfl⟩ : ∃ less, size = less + 1 := ⟨size - 1, by simp at fits; omega⟩
  rw [recv, if_pos fits]
  all_goals simp

theorem fill_taken {packetLen : Int32} {turns : Nat} {received total : List UInt8}
    {chunks later : List (List UInt8)}
    (taken : fill packetLen turns received chunks = .ok (some (total, later))) :
    packetLen.toInt ≤ total.length ∧
    ∃ more, total = received ++ more ∧ more ++ later.flatten = chunks.flatten ∧
      ((∀ chunk ∈ chunks, chunk ≠ []) → total.length < SOCKET_BUF_SIZE →
        ∃ group, chunks = group ++ later ∧ group.flatten = more) := by
  induction turns generalizing received chunks with
  | zero => simp [fill] at taken
  | succ turns ih =>
      by_cases short : (received.length : Int) < packetLen.toInt
      · rw [fill, if_pos short] at taken
        cases got : recv (SOCKET_BUF_SIZE - received.length) chunks with
        | none => simp [got] at taken
        | some result =>
            obtain ⟨bytes, rest⟩ := result
            simp only [got] at taken
            obtain ⟨enough, more, rfl, flat, whole⟩ := ih taken
            obtain ⟨first, -, exactly⟩ := recv_taken got
            refine ⟨enough, bytes ++ more, by rw [List.append_assoc], ?_, ?_⟩
            · rw [List.append_assoc, flat, first]
            · intro nonempty room
              have one := exactly nonempty (by
                simp only [List.length_append] at room
                omega)
              obtain ⟨group, rfl, rfl⟩ := whole
                (fun chunk member => nonempty chunk (one ▸ List.mem_cons_of_mem _ member)) room
              exact ⟨bytes :: group, one, rfl⟩
      · rw [fill, if_neg short] at taken
        simp only [Except.ok.injEq, Option.some.injEq, Prod.mk.injEq] at taken
        obtain ⟨rfl, rfl⟩ := taken
        exact ⟨by omega, [], (List.append_nil _).symm, rfl, fun _ _ => ⟨[], rfl, rfl⟩⟩

theorem fill_group {packetLen : Int32} {turns : Nat} {received : List UInt8}
    {group : List (List UInt8)} (nonempty : ∀ chunk ∈ group, chunk ≠ [])
    (announced : packetLen.toInt = (received ++ group.flatten).length)
    (fits : (received ++ group.flatten).length ≤ SOCKET_BUF_SIZE) (enough : group.length < turns)
    (later : List (List UInt8)) :
    fill packetLen turns received (group ++ later) =
      .ok (some (received ++ group.flatten, later)) := by
  induction group generalizing turns received with
  | nil =>
      obtain ⟨turns, rfl⟩ : ∃ less, turns = less + 1 := ⟨turns - 1, by simp at enough; omega⟩
      have full : ¬ (received.length : Int) < packetLen.toInt := by
        rw [announced]
        simp
      rw [fill, if_neg full]
      simp
  | cons chunk group ih =>
      obtain ⟨turns, rfl⟩ : ∃ less, turns = less + 1 := ⟨turns - 1, by simp at enough; omega⟩
      have some_bytes : 0 < chunk.length :=
        List.length_pos_iff.mpr (nonempty chunk List.mem_cons_self)
      rw [List.flatten_cons, ← List.append_assoc] at announced fits ⊢
      have length : ((received ++ chunk) ++ group.flatten).length =
          received.length + chunk.length + group.flatten.length := by
        rw [List.length_append, List.length_append]
      have short : (received.length : Int) < packetLen.toInt := by omega
      rw [List.cons_append, fill, if_pos short,
        recv_segment (nonempty chunk List.mem_cons_self) (by omega)]
      exact ih (fun other member => nonempty other (List.mem_cons_of_mem _ member)) announced fits
        (by simpa using enough)

structure Consumed (unset : Nat → Int32) (memory : List UInt8) (packet : Packet)
    (chunks later : List (List UInt8)) (first more : List UInt8) : Prop where
  segment : ∃ chunk rest, chunks = chunk :: rest ∧ first = chunk.take SOCKET_BUF_SIZE
  taken : (first ++ more) ++ later.flatten = chunks.flatten
  enough : (packetLen memory first).toInt ≤ (first ++ more).length
  analyzed : analyze unset (rowData memory (first ++ more)) (packetLen memory first) =
    .ok (some packet)
  whole : (∀ chunk ∈ chunks, chunk ≠ []) → (first ++ more).length < SOCKET_BUF_SIZE →
    ∃ group, chunks = first :: (group ++ later) ∧ group.flatten = more

theorem onRecv_consumed {unset : Nat → Int32} {memory : List UInt8} {packet : Packet}
    {chunks later : List (List UInt8)}
    (taken : onRecv unset memory chunks = .ok (.package packet later)) :
    ∃ first more, Consumed unset memory packet chunks later first more := by
  unfold onRecv at taken
  split at taken
  · simp at taken
  · simp at taken
  · rename_i first rest some_bytes got
    obtain ⟨filled, fillEq, afterFill⟩ := Exec.bind_ok taken
    cases filled with
    | none => simp [pure, Except.pure] at afterFill
    | some result =>
        obtain ⟨total, left⟩ := result
        obtain ⟨analyzed, analyzeEq, result⟩ := Exec.bind_ok afterFill
        cases analyzed with
        | none => simp [pure, Except.pure] at result
        | some other =>
            simp only [pure, Except.pure, Except.ok.injEq, Received.package.injEq] at result
            obtain ⟨rfl, rfl⟩ := result
            obtain ⟨enough, more, rfl, flat, whole⟩ := fill_taken fillEq
            obtain ⟨start, segment, exactly⟩ := recv_taken got
            refine ⟨first, more, segment fun empty => some_bytes empty, ?_, enough, analyzeEq, ?_⟩
            · rw [List.append_assoc, flat, start]
            · intro nonempty room
              have one := exactly nonempty (by
                simp only [List.length_append] at room
                omega)
              obtain ⟨group, rfl, rfl⟩ := whole
                (fun chunk member => nonempty chunk (one ▸ List.mem_cons_of_mem _ member)) room
              exact ⟨group, one, rfl⟩

theorem toInt_ofNat_frame {packet : Packet} (fits : packet.frame.length ≤ SOCKET_BUF_SIZE) :
    (Int32.ofNat packet.frame.length).toInt = packet.frame.length := by
  rw [SOCKET_BUF_SIZE] at fits
  exact Int32.toInt_ofNat_of_lt (by omega)

theorem packetLen_frame (memory : List UInt8) {packet : Packet} {first more : List UInt8}
    (fits : packet.frame.length ≤ SOCKET_BUF_SIZE) (header : 4 ≤ first.length)
    (start : ∃ rest, first ++ more = packet.frame ++ rest) :
    packetLen memory first = Int32.ofNat packet.frame.length := by
  obtain ⟨rest, start⟩ := start
  have bytes : ZeroFilled.read (rowData memory first) 0 4 =
      LittleEndian.encode 4 packet.frame.length := by
    rw [ZeroFilled.read_inside (by simp [rowData]; omega), List.drop_zero, rowData,
      List.take_append_of_le_length header, ← List.take_append_of_le_length header,
      start, IOCPSession.frame_take_header, frame_length]
  rw [SOCKET_BUF_SIZE] at fits
  rw [packetLen, bytes, LittleEndian.decode_encode_of_lt (by omega)]

theorem rowData_frame (memory : List UInt8) (packet : Packet) :
    (rowData memory packet.frame).drop 4 =
      packet.encoding ++ memory.drop packet.frame.length := by
  rw [rowData, frame, List.append_assoc, List.drop_append_of_le_length (by simp),
    List.drop_of_length_le (by simp), List.nil_append]

theorem analyze_frame (unset : Nat → Int32) (memory : List UInt8) {packet : Packet}
    (known : packet.Known) (fits : packet.frame.length + 4 ≤ SOCKET_BUF_SIZE) :
    analyze unset (rowData memory packet.frame) (Int32.ofNat packet.frame.length) =
      .ok (some packet.cut) := by
  have length := packet.encoding_length
  have frameLength := frame_length packet
  have size : toSize (Int32.ofNat packet.frame.length) = packet.encoding.length + 4 := by
    rw [SOCKET_BUF_SIZE] at fits
    rw [Stream.toSize_ofNat (by omega), frame_length, Nat.add_comm]
  have inside : ¬ SOCKET_BUF_SIZE < 4 + (packet.encoding.length + 4) := by omega
  simp only [analyze, size, inside, and_false, if_false, rowData_frame]
  exact analyzer_longer unset known (by omega) _

theorem analyze_over (unset : Nat → Int32) (memory : List UInt8) {packet : Packet}
    (known : packet.Known) (fits : packet.frame.length ≤ SOCKET_BUF_SIZE)
    (beyond : SOCKET_BUF_SIZE < packet.frame.length + 4) :
    analyze unset (rowData memory packet.frame) (Int32.ofNat packet.frame.length) =
      .error .outOfBounds := by
  have size : toSize (Int32.ofNat packet.frame.length) = packet.frame.length := by
    rw [SOCKET_BUF_SIZE] at fits
    exact Stream.toSize_ofNat (by omega)
  have long : 8 < packet.frame.length := by
    rw [SOCKET_BUF_SIZE] at beyond
    omega
  rw [analyze, rowData_frame, encoding_type, size]
  exact if_pos ⟨known, long, by omega⟩

theorem onRecv_group (unset : Nat → Int32) (memory : List UInt8) {packet : Packet}
    {group : List (List UInt8)} (known : packet.Known)
    (fits : packet.frame.length + 4 ≤ SOCKET_BUF_SIZE) (nonempty : ∀ chunk ∈ group, chunk ≠ [])
    (header : ∀ chunk ∈ group.head?, 4 ≤ chunk.length) (whole : group.flatten = packet.frame)
    (later : List (List UInt8)) :
    onRecv unset memory (group ++ later) = .ok (.package packet.cut later) := by
  have frameLength := frame_length packet
  cases group with
  | nil =>
      have none_left := congrArg List.length whole
      rw [frame_length, List.flatten_nil, List.length_nil] at none_left
      omega
  | cons first group =>
      rw [List.flatten_cons] at whole
      have some_bytes : first ≠ [] := nonempty first List.mem_cons_self
      have total := congrArg List.length whole
      rw [List.length_append] at total
      have announced : packetLen memory first = Int32.ofNat packet.frame.length :=
        packetLen_frame memory (by omega) (header first rfl) ⟨[], by rw [whole, List.append_nil]⟩
      have pieces : group.length ≤ group.flatten.length := by
        rw [List.length_flatten]
        have each := List.length_le_sum_of_one_le (group.map List.length) (by
          intro size member
          obtain ⟨chunk, inGroup, rfl⟩ := List.mem_map.mp member
          exact List.length_pos_iff.mpr (nonempty chunk (List.mem_cons_of_mem _ inGroup)))
        rwa [List.length_map] at each
      have filled := fill_group (fun chunk member => nonempty chunk (List.mem_cons_of_mem _ member))
        (by rw [whole]; exact toInt_ofNat_frame (by omega)) (by rw [whole]; omega)
        (by omega : group.length < SOCKET_BUF_SIZE + 1) later
      rw [List.cons_append, onRecv, recv_segment some_bytes (by omega)]
      simp only [announced, filled, whole, analyze_frame unset memory known fits, bind, Except.bind,
        pure, Except.pure]

end TerminalSession

end GraduationServer
