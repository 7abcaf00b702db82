import GraduationServer.ExtractionLoop
import GraduationServer.SessionRegistry

/-!
The branch of `onRecv` for a packet of an unknown type, with the effects of the
call in their order. The effects go on behind the call through the null pointer
and behind the deletion of the session, to show what comes after them.
-/

namespace GraduationServer

open Packet

namespace IOCPSession

inductive Effect where
  | PutPackage (packet : Packet)
  | typeOfNull
  | Set_totalBytes_ (live : Bool)
  | recvStandBy (live : Bool)
  deriving DecidableEq

def analyzeFrame (unset : Nat → Int32) (source : List UInt8) (packet_len : Nat) :
    Exec (Option Packet) :=
  if packet_len < 4 then .error .badLength
  else if PACKET_DATA_SIZE < packet_len - 4 then .error .outOfBounds
  else PacketAnalyzer.analyzer unset (source.take (packet_len - 4)) (packet_len - 4)

def extractEffects (unset : Nat → Nat → Int32) (offset : Nat) (this : SessionPtr)
    (registry : Registry) : Nat → List UInt8 → Exec (Registry × List Effect)
  | 0, _ => .error .endlessLoop
  | fuel + 1, main_buffer_ =>
      if main_buffer_.length < 8 then .ok (registry, [])
      else
        let packet_len := LittleEndian.decode (main_buffer_.take 4)
        if main_buffer_.length < packet_len then .ok (registry, [])
        else do
          match ← analyzeFrame (unset fuel) (main_buffer_.drop offset) packet_len with
          | none =>
              let closed ← registry.forceCloseSession this
              return (closed, [.typeOfNull, .Set_totalBytes_ (closed.manager.registered this)])
          | some packet =>
              let (after, effects) ←
                extractEffects unset offset this registry fuel (main_buffer_.drop packet_len)
              return (after, .PutPackage packet ::
                .Set_totalBytes_ (registry.manager.registered this) :: effects)

/-- `onRecv` up to its loop: the offset of the data and what is in
`main_buffer_`, or nothing where it posts a receive for more. -/
def beforeLoop (session : IOCPSession) (transferSize : Nat) : Exec (Option (Nat × List UInt8)) :=
  let (offset, data) := session.ioRead.setupTotalBytes
  let (more, session) := { session with ioRead := data }.isRecving transferSize
  if more then .ok none
  else
    let count := session.ioRead.currentBytes_
    if SOCKET_BUF_SIZE < count then .error .outOfBounds
    else if 0 < count ∧ session.main_buffer_ ≠ [] then .error .outOfBounds
    else
      .ok (some (offset, session.main_buffer_ ++ ZeroFilled.read session.ioRead.buffer_ 0 count))

/-- `onRecv` of the session at the address `this`. -/
def onRecvEffects (unset : Nat → Nat → Int32) (this : SessionPtr) (registry : Registry)
    (session : IOCPSession) (transferSize : Nat) : Exec (Registry × List Effect) := do
  match ← session.beforeLoop transferSize with
  | none => return (registry, [])
  | some (offset, main_buffer_) =>
      let (after, effects) ←
        extractEffects unset offset this registry (main_buffer_.length + 1) main_buffer_
      return (after, .Set_totalBytes_ (registry.manager.registered this) :: effects ++
        [.recvStandBy (after.manager.registered this)])

def receiveEffects (unset : Nat → Nat → Int32) (this : SessionPtr) (registry : Registry)
    (session : IOCPSession) (chunk : List UInt8) : Exec (Registry × List Effect) :=
  if SOCKET_BUF_SIZE < session.socket.posted.buf + chunk.length then .error .outOfBounds
  else
    onRecvEffects unset this registry { session with ioRead := session.filled chunk } chunk.length

def enqueued (effects : List Effect) : List Packet :=
  effects.filterMap fun
    | .PutPackage packet => some packet
    | _ => none

/-- The call ends with the packets enqueued and the session destroyed once, and
uses neither a null packet nor the session after that. -/
def HandledCleanly (registry : Registry) (packets : List Packet)
    (result : Exec (Registry × List Effect)) : Prop :=
  ∃ after effects, result = .ok (after, effects) ∧ enqueued effects = packets ∧
    .typeOfNull ∉ effects ∧ (∃ id, after.destroyed = registry.destroyed ++ [id]) ∧
    .Set_totalBytes_ false ∉ effects ∧ .recvStandBy false ∉ effects

structure UnknownFrame (frame : List UInt8) : Prop where
  header : LittleEndian.decode (frame.take 4) = frame.length
  typed : 12 ≤ frame.length
  short : frame.length ≤ 4 + PACKET_DATA_SIZE
  unknown : PacketFactory.getPacket (LittleEndian.decode ((frame.drop 4).take 8)) = none

theorem takePacket_eq (unset : Nat → Int32) (source : List UInt8) (packet_len : Nat) :
    takePacket unset source packet_len =
      (analyzeFrame unset source packet_len).bind fun
        | none => .error .nullPointer
        | some packet => .ok packet := by
  by_cases negative : packet_len < 4
  · simp [takePacket, analyzeFrame, negative, Except.bind]
  · by_cases long : 200 < packet_len - 4
    · simp [takePacket, analyzeFrame, PACKET_DATA_SIZE, negative, long, Except.bind]
    · simp only [takePacket, analyzeFrame, PACKET_DATA_SIZE, negative, long, if_false]
      rfl

theorem takePacket_ok_iff {unset : Nat → Int32} {source : List UInt8} {packet_len : Nat}
    {packet : Packet} : takePacket unset source packet_len = .ok packet ↔
      analyzeFrame unset source packet_len = .ok (some packet) := by
  rw [takePacket_eq]
  rcases analyzeFrame unset source packet_len with reason | _ | other <;> simp [Except.bind]

theorem takePacket_null_iff {unset : Nat → Int32} {source : List UInt8} {packet_len : Nat} :
    takePacket unset source packet_len = .error .nullPointer ↔
      analyzeFrame unset source packet_len = .ok none := by
  rw [takePacket_eq]
  cases analyzed : analyzeFrame unset source packet_len with
  | error reason =>
      simp only [Except.bind, Except.error.injEq, reduceCtorEq, iff_false]
      rintro rfl
      rw [analyzeFrame] at analyzed
      split at analyzed
      · cases analyzed
      · split at analyzed
        · cases analyzed
        · rcases analyzer_fault analyzed with reason | reason <;> cases reason
  | ok result => cases result <;> simp [Except.bind]

theorem extractEffects_registry {unset : Nat → Nat → Int32} {offset fuel : Nat}
    {this : SessionPtr} {registry after : Registry} {main_buffer_ : List UInt8}
    {effects : List Effect}
    (ends : extractEffects unset offset this registry fuel main_buffer_ = .ok (after, effects))
    (clean : .typeOfNull ∉ effects) : after = registry := by
  induction fuel generalizing main_buffer_ effects with
  | zero => cases ends
  | succ fuel ih =>
      rw [extractEffects] at ends
      split at ends
      · cases ends
        rfl
      · simp only at ends
        split at ends
        · cases ends
          rfl
        · obtain ⟨result, _, rest⟩ := Exec.bind_ok ends
          cases result with
          | none =>
              obtain ⟨closed, _, done⟩ := Exec.bind_ok rest
              cases done
              exact absurd List.mem_cons_self clean
          | some packet =>
              obtain ⟨⟨later, others⟩, went, done⟩ := Exec.bind_ok rest
              cases done
              apply ih went
              intro null
              exact clean (List.mem_cons_of_mem _ (List.mem_cons_of_mem _ null))

theorem receiveEffects_registry {unset : Nat → Nat → Int32} {this : SessionPtr}
    {registry after : Registry} {session : IOCPSession} {chunk : List UInt8}
    {effects : List Effect}
    (ends : receiveEffects unset this registry session chunk = .ok (after, effects))
    (clean : .typeOfNull ∉ effects) : after = registry := by
  rw [receiveEffects] at ends
  split at ends
  · cases ends
  · obtain ⟨result, _, rest⟩ := Exec.bind_ok ends
    cases result with
    | none =>
        cases rest
        rfl
    | some held =>
        obtain ⟨⟨later, others⟩, went, done⟩ := Exec.bind_ok rest
        cases done
        apply extractEffects_registry went
        intro null
        exact clean (List.mem_cons_of_mem _ (List.mem_append_left _ null))

theorem not_handledCleanly (unset : Nat → Nat → Int32) (this : SessionPtr) (registry : Registry)
    (session : IOCPSession) (chunk : List UInt8) (packets : List Packet) :
    ¬ HandledCleanly registry packets (receiveEffects unset this registry session chunk) := by
  rintro ⟨after, effects, ends, _, clean, ⟨id, destroyed⟩, _, _⟩
  rw [receiveEffects_registry ends clean] at destroyed
  simpa using congrArg List.length destroyed

theorem onClose_ends (registry : Registry) (session : SessionPtr) :
    ∃ closed, registry.forceCloseSession session = .ok closed := by
  rw [Registry.forceCloseSession]
  split
  · exact ⟨registry, rfl⟩
  · rcases registry.onClose_cases session with same | ⟨object, _, _, closed⟩
    · exact ⟨registry, same⟩
    · exact ⟨_, closed⟩

theorem extract_effects {unset : Nat → Nat → Int32} {offset fuel : Nat} (this : SessionPtr)
    (registry : Registry) {main_buffer_ rest : List UInt8} {packageStorage after : List Packet}
    (ends : extract unset offset fuel main_buffer_ packageStorage = .ok (rest, after)) :
    ∃ effects, extractEffects unset offset this registry fuel main_buffer_ =
      .ok (registry, effects) ∧ after = packageStorage ++ enqueued effects ∧
      .typeOfNull ∉ effects := by
  induction fuel generalizing main_buffer_ packageStorage with
  | zero => cases ends
  | succ fuel ih =>
      rw [extract] at ends
      rw [extractEffects]
      by_cases short : main_buffer_.length < 8
      · simp only [short, if_true, Except.ok.injEq, Prod.mk.injEq] at ends ⊢
        exact ⟨[], ⟨trivial, rfl⟩, by simp [enqueued, ends.2], List.not_mem_nil⟩
      · by_cases more : main_buffer_.length < LittleEndian.decode (main_buffer_.take 4)
        · simp only [short, more, if_true, if_false, Except.ok.injEq, Prod.mk.injEq] at ends ⊢
          exact ⟨[], ⟨trivial, rfl⟩, by simp [enqueued, ends.2], List.not_mem_nil⟩
        · simp only [short, more, if_false] at ends ⊢
          obtain ⟨packet, taken, later⟩ := Exec.bind_ok ends
          obtain ⟨effects, went, stored, clean⟩ := ih later
          rw [takePacket_ok_iff.mp taken]
          refine ⟨_, by simp only [bind, Except.bind, went]; rfl, ?_, ?_⟩
          · simp [enqueued, stored]
          · simp [clean]

theorem extract_null {unset : Nat → Nat → Int32} {offset fuel : Nat} (this : SessionPtr)
    (registry : Registry) {main_buffer_ : List UInt8} {packageStorage : List Packet}
    (stopped : extract unset offset fuel main_buffer_ packageStorage = .error .nullPointer) :
    ∃ after effects, extractEffects unset offset this registry fuel main_buffer_ =
      .ok (after, effects) ∧ .typeOfNull ∈ effects := by
  induction fuel generalizing main_buffer_ packageStorage with
  | zero => cases stopped
  | succ fuel ih =>
      rw [extract] at stopped
      rw [extractEffects]
      by_cases short : main_buffer_.length < 8
      · simp [short] at stopped
      · by_cases more : main_buffer_.length < LittleEndian.decode (main_buffer_.take 4)
        · simp [short, more] at stopped
        · simp only [short, more, if_false] at stopped ⊢
          rcases Exec.bind_error stopped with null | ⟨packet, taken, later⟩
          · obtain ⟨closed, done⟩ := onClose_ends registry this
            rw [takePacket_null_iff.mp null]
            exact ⟨_, _, by simp only [bind, Except.bind, done]; rfl, by simp⟩
          · obtain ⟨after, effects, went, null⟩ := ih later
            rw [takePacket_ok_iff.mp taken]
            exact ⟨_, _, by simp only [bind, Except.bind, went]; rfl, by simp [null]⟩

theorem extractEffects_unknown (unset : Nat → Nat → Int32) (this : SessionPtr)
    {registry closed : Registry} (closes : registry.forceCloseSession this = .ok closed)
    {packets : List Packet} (sendable : ∀ packet ∈ packets, Sendable packet)
    {frame : List UInt8} (unknown : UnknownFrame frame) (rest : List UInt8) (fuel : Nat)
    (enough : (frames packets ++ (frame ++ rest)).length < fuel) :
    extractEffects unset 4 this registry fuel (frames packets ++ (frame ++ rest)) =
      .ok (closed, packets.flatMap (fun packet =>
        [.PutPackage packet.cut, .Set_totalBytes_ (registry.manager.registered this)]) ++
        [.typeOfNull, .Set_totalBytes_ (closed.manager.registered this)]) := by
  induction packets generalizing fuel with
  | nil =>
      obtain ⟨fuel, rfl⟩ : ∃ less, fuel = less + 1 := ⟨fuel - 1, by omega⟩
      have typed := unknown.typed
      have short := unknown.short
      have header : LittleEndian.decode ((frame ++ rest).take 4) = frame.length := by
        rw [List.take_append_of_le_length (by omega)]
        exact unknown.header
      have source : ((frame ++ rest).drop 4).take (frame.length - 4) = frame.drop 4 := by
        rw [List.drop_append_of_le_length (by omega), List.take_append_of_le_length (by simp)]
        exact List.take_of_length_le (by simp)
      have type : ZeroFilled.read (frame.drop 4) 0 8 = (frame.drop 4).take 8 := by
        rw [ZeroFilled.read_inside (by rw [List.length_drop]; omega), List.drop_zero]
      have analyzed : analyzeFrame (unset fuel) ((frame ++ rest).drop 4) frame.length =
          .ok none := by
        simp only [PACKET_DATA_SIZE] at short
        have counted : ¬ frame.length < 4 := by omega
        have room : ¬ PACKET_DATA_SIZE < frame.length - 4 := by
          simp only [PACKET_DATA_SIZE]
          omega
        simp only [analyzeFrame, counted, room, if_false, source, PacketAnalyzer.analyzer, type,
          unknown.unknown]
      have large : ¬ (frame ++ rest).length < 8 := by
        rw [List.length_append]
        omega
      have whole : ¬ (frame ++ rest).length < frame.length := by
        rw [List.length_append]
        omega
      simp only [frames_nil, List.nil_append, extractEffects, large, if_false, header, whole,
        analyzed, bind, Except.bind, closes]
      rfl
  | cons packet packets ih =>
      obtain ⟨fuel, rfl⟩ : ∃ less, fuel = less + 1 := ⟨fuel - 1, by omega⟩
      have first : Sendable packet := sendable packet List.mem_cons_self
      rw [frames_cons, List.append_assoc] at enough ⊢
      generalize others : frames packets ++ (frame ++ rest) = later at enough ⊢ ih
      have header := decode_header first later
      have length : (packet.frame ++ later).length = 4 + packet.encoding.length + later.length := by
        rw [List.length_append, frame_length]
      have typed := packet.encoding_length
      have large : ¬ (packet.frame ++ later).length < 8 := by omega
      have whole : ¬ (packet.frame ++ later).length < 4 + packet.encoding.length := by omega
      have remaining : (packet.frame ++ later).drop (4 + packet.encoding.length) = later := by
        rw [← frame_length, List.drop_left]
      have analyzed := takePacket_ok_iff.mp (takePacket_frame (unset fuel) first later)
      have went := ih (fun other member => sendable other (List.mem_cons_of_mem _ member))
        fuel (by omega)
      simp only [extractEffects, large, if_false, header, whole, analyzed, bind, Except.bind,
        remaining, went]
      rfl

theorem onRecv_beforeLoop (unset : Nat → Nat → Int32) (session : IOCPSession)
    (transferSize : Nat) : ∃ waiting : IOCPSession,
      waiting.packageStorage = session.packageStorage ∧
      onRecv unset session transferSize = (session.beforeLoop transferSize).bind fun
        | none => .ok waiting
        | some (offset, main_buffer_) =>
            (extract unset offset (main_buffer_.length + 1) main_buffer_
              session.packageStorage).bind fun result =>
                .ok (recvStandBy { waiting with
                  main_buffer_ := result.1
                  packageStorage := result.2 }) := by
  simp only [onRecv, beforeLoop]
  generalize session.ioRead.setupTotalBytes = setup
  have stored : ({ session with ioRead := setup.2 }.isRecving transferSize).2.packageStorage =
      session.packageStorage := by
    rw [isRecving]
    simp only
    split <;> rfl
  generalize { session with ioRead := setup.2 }.isRecving transferSize = received at stored
  refine ⟨received.2, stored, ?_⟩
  simp only [stored]
  split
  · rfl
  · split
    · rfl
    · split <;> rfl

theorem receive_effects {unset : Nat → Nat → Int32} (this : SessionPtr) (registry : Registry)
    {session next : IOCPSession} {chunk : List UInt8}
    (taken : receive unset session chunk = .ok next) :
    ∃ effects, receiveEffects unset this registry session chunk = .ok (registry, effects) ∧
      next.packageStorage = session.packageStorage ++ enqueued effects ∧
      .typeOfNull ∉ effects := by
  obtain ⟨waiting, stored, split⟩ :=
    onRecv_beforeLoop unset { session with ioRead := session.filled chunk } chunk.length
  by_cases fits : SOCKET_BUF_SIZE < session.socket.posted.buf + chunk.length
  · simp [receive, fits] at taken
  · simp only [receive, fits, if_false] at taken
    simp only [receiveEffects, fits, if_false, onRecvEffects]
    obtain ⟨result, before, rest⟩ := Exec.bind_ok (split.symm.trans taken)
    rw [before]
    cases result with
    | none =>
        cases rest
        exact ⟨[], rfl, by simp [stored, enqueued], List.not_mem_nil⟩
    | some held =>
        obtain ⟨⟨left, after⟩, ends, done⟩ := Exec.bind_ok rest
        obtain ⟨effects, went, added, clean⟩ := extract_effects this registry ends
        cases done
        refine ⟨_, by simp only [bind, Except.bind, went]; rfl, ?_, ?_⟩
        · simp [recvStandBy, recv, added, enqueued]
        · simp [clean]

theorem beforeLoop_standing {session : IOCPSession} (standing : Standing session)
    {chunk later : List UInt8} {length : Nat} (small : length < 256) (typed : 4 ≤ length)
    (start : chunk = LittleEndian.encode 4 length ++ later) (longer : length ≤ chunk.length)
    (fits : chunk.length ≤ SOCKET_BUF_SIZE) :
    beforeLoop { session with ioRead := session.filled chunk } chunk.length =
      .ok (some (4, chunk)) := by
  have filling : session.filled chunk = { IoData.clear with buffer_ := chunk } := by
    rw [filled, standing.cleared, standing.posted]
    simp [IoData.clear]
  have nonempty : chunk ≠ [] := List.ne_nil_of_length_pos (by omega)
  have announced : toSize (IoData.packetLen { IoData.clear with buffer_ := chunk }) = length :=
    packetLen_of_start small nonempty (by rw [List.append_nil, start])
  have count : (0 + chunk.length) % sizeRange = chunk.length := by
    simp only [sizeRange, SOCKET_BUF_SIZE] at fits ⊢
    omega
  have total : (0 + length) % sizeRange = length := by
    simp only [sizeRange]
    omega
  have setup : IoData.setupTotalBytes { IoData.clear with buffer_ := chunk } =
      (4, { totalBytes_ := length, currentBytes_ := 0, buffer_ := chunk }) := by
    simp only [setupTotalBytes_eq, announced]
    simp only [IoData.clear, total, if_true]
  rw [beforeLoop, filling, setup]
  simp only [isRecving, IoData.needMoreIO, count, Nat.not_lt.mpr longer, decide_false,
    Bool.false_eq_true, if_false, Nat.not_lt.mpr fits, standing.buffer, ne_eq, not_true_eq_false,
    and_false, ZeroFilled.read_all, List.nil_append]

theorem unknown_start {frame : List UInt8} (unknown : UnknownFrame frame) :
    frame = LittleEndian.encode 4 frame.length ++ frame.drop 4 := by
  have typed := unknown.typed
  have four : (frame.take 4).length = 4 := List.length_take_of_le (by omega)
  have header := LittleEndian.encode_decode (frame.take 4)
  rw [four, unknown.header] at header
  rw [header, List.take_append_drop]

theorem chunk_start {packets : List Packet} (sendable : ∀ packet ∈ packets, Sendable packet)
    {frame : List UInt8} (unknown : UnknownFrame frame) (rest : List UInt8) :
    ∃ length later, length < 256 ∧ 4 ≤ length ∧
      frames packets ++ (frame ++ rest) = LittleEndian.encode 4 length ++ later ∧
      length ≤ (frames packets ++ (frame ++ rest)).length := by
  cases packets with
  | nil =>
      have typed := unknown.typed
      have short := unknown.short
      simp only [PACKET_DATA_SIZE] at short
      refine ⟨frame.length, frame.drop 4 ++ rest, by omega, by omega, ?_, by simp⟩
      rw [frames_nil, List.nil_append, ← List.append_assoc, ← unknown_start unknown]
  | cons packet others =>
      obtain ⟨small, start⟩ := frame_header (sendable packet List.mem_cons_self)
        (frames others ++ (frame ++ rest))
      refine ⟨4 + packet.encoding.length, packet.encoding ++ (frames others ++ (frame ++ rest)),
        small, by omega, ?_, ?_⟩
      · rw [frames_cons, List.append_assoc, start]
      · simp only [frames_cons, List.length_append, frame_length]
        omega

theorem receiveEffects_unknown (unset : Nat → Nat → Int32) {registry : Registry} {object : Session}
    (lives : object ∈ registry.manager.sessionList_) (notNull : object.address ≠ 0)
    {session : IOCPSession} (standing : Standing session) {packets : List Packet}
    (sendable : ∀ packet ∈ packets, Sendable packet) {frame : List UInt8}
    (unknown : UnknownFrame frame) {rest : List UInt8}
    (fits : (frames packets ++ (frame ++ rest)).length ≤ SOCKET_BUF_SIZE) :
    receiveEffects unset object.address registry session (frames packets ++ (frame ++ rest)) =
      .ok (registry.closed object, .Set_totalBytes_ true ::
        (packets.flatMap (fun packet => [.PutPackage packet.cut, .Set_totalBytes_ true]) ++
          [.typeOfNull, .Set_totalBytes_ false]) ++ [.recvStandBy false]) := by
  obtain ⟨length, later, small, typed, start, longer⟩ := chunk_start sendable unknown rest
  have before := beforeLoop_standing standing small typed start longer fits
  have closes : registry.forceCloseSession object.address = .ok (registry.closed object) := by
    rw [Registry.forceCloseSession, if_neg notNull, Registry.onClose_lives lives notNull]
  have turns := extractEffects_unknown unset object.address closes sendable unknown rest
    _ (Nat.lt_succ_self _)
  have live : registry.manager.registered object.address = true :=
    SessionManager.registered_iff.mpr ⟨object, lives, rfl⟩
  have dead : (registry.closed object).manager.registered object.address = false :=
    registry.manager.closeSession_gone object.address
  have placed : ¬ SOCKET_BUF_SIZE <
      session.socket.posted.buf + (frames packets ++ (frame ++ rest)).length := by
    rw [standing.posted]
    simpa using fits
  rw [receiveEffects, if_neg placed, onRecvEffects, before]
  simp only [bind, Except.bind, turns, live, dead]
  rfl

/-- A frame of an unknown type is never handled cleanly: in a standing session
its packet is used as a null pointer, and the session after it is destroyed. -/
theorem unknown_type_never_clean (unset : Nat → Nat → Int32) (registry : Registry) :
    (∀ this session chunk packets, ¬ HandledCleanly registry packets
      (receiveEffects unset this registry session chunk)) ∧
    ∀ object ∈ registry.manager.sessionList_, object.address ≠ 0 →
      ∀ session, Standing session → ∀ packets, (∀ packet ∈ packets, Sendable packet) →
      ∀ frame rest, UnknownFrame frame →
      (frames packets ++ (frame ++ rest)).length ≤ SOCKET_BUF_SIZE →
      receiveEffects unset object.address registry session (frames packets ++ (frame ++ rest)) =
        .ok (registry.closed object, .Set_totalBytes_ true ::
          (packets.flatMap (fun packet => [.PutPackage packet.cut, .Set_totalBytes_ true]) ++
            [.typeOfNull, .Set_totalBytes_ false]) ++ [.recvStandBy false]) := by
  constructor
  · intro this session chunk packets
    exact not_handledCleanly unset this registry session chunk packets
  · intro object lives notNull session standing packets sendable frame rest unknown fits
    exact receiveEffects_unknown unset lives notNull standing sendable unknown fits

def oneClient : Registry :=
  { manager := ((SessionManager.init SESSION_CAPACITY).addSession 1 7).2
    given := [1]
    destroyed := [] }

def firstClient : Session :=
  { address := 1, id_ := 1, type_ := .SESSION_TYPE_CLIENT, addrInfo_ := 7 }

theorem firstClient_lives : firstClient ∈ oneClient.manager.sessionList_ := by decide

/-- The frame of an `E_S_NOTIFY_SERVER_IP`, which the factory does not build. -/
def notifyServerIp : List UInt8 := LittleEndian.encode 4 12 ++ LittleEndian.encode 8 148

theorem notifyServerIp_unknown : UnknownFrame notifyServerIp :=
  ⟨by decide, by decide, by decide, by decide⟩

theorem unknown_type_never_clean_exit :
    receiveEffects (fun _ _ => 0) firstClient.address oneClient accepted
      (frames [PK_C_REQ_EXIT] ++ (notifyServerIp ++ [])) =
      .ok (oneClient.closed firstClient, .Set_totalBytes_ true ::
        ([PK_C_REQ_EXIT].flatMap (fun packet => [.PutPackage packet.cut, .Set_totalBytes_ true]) ++
          [.typeOfNull, .Set_totalBytes_ false]) ++ [.recvStandBy false]) :=
  (unknown_type_never_clean (fun _ _ => 0) oneClient).2 firstClient firstClient_lives (by decide)
    accepted accepted_standing [PK_C_REQ_EXIT] exit_sendable notifyServerIp []
    notifyServerIp_unknown (by decide)

theorem unknown_type_not_clean :
    ¬ HandledCleanly oneClient [PK_C_REQ_EXIT]
      (receiveEffects (fun _ _ => 0) firstClient.address oneClient accepted
        (frames [PK_C_REQ_EXIT] ++ (notifyServerIp ++ []))) :=
  not_handledCleanly _ _ _ _ _ _

end IOCPSession

end GraduationServer
