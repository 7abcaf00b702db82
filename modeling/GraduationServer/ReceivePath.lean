import GraduationServer.IOCPSession
import GraduationServer.Library.Runs

/-!
The receive path of a session. Frames are put together again exactly when
every read completion holds whole frames. A first chunk that is shorter than
its frame leaves the session waiting for a total that grows with every
completion, and the rest of a frame that stays in `main_buffer_` is never
completed there.
-/

namespace GraduationServer

open Packet

namespace IOCPSession

/-- A packet that a peer may send: the factory builds its type, and it is at
most 200 bytes long. -/
structure Sendable (packet : Packet) : Prop where
  known : packet.Known
  short : packet.encoding.length ≤ 200

instance (packet : Packet) : Decidable (Sendable packet) :=
  decidable_of_iff (packet.Known ∧ packet.encoding.length ≤ 200)
    ⟨fun ⟨known, short⟩ => ⟨known, short⟩, fun ⟨known, short⟩ => ⟨known, short⟩⟩

def Incomplete (rest : List UInt8) : Prop :=
  rest.length < 8 ∨ rest.length < LittleEndian.decode (rest.take 4)

theorem extract_incomplete (unset : Nat → Nat → Int32) (offset fuel : Nat)
    {rest : List UInt8} (packageStorage : List Packet) (incomplete : Incomplete rest) :
    extract unset offset (fuel + 1) rest packageStorage = .ok (rest, packageStorage) := by
  rw [extract]
  rcases incomplete with short | short
  · simp [short]
  · split
    · rfl
    · simp [short]

theorem frame_take_header (packet : Packet) (rest : List UInt8) :
    (packet.frame ++ rest).take 4 = LittleEndian.encode 4 (4 + packet.encoding.length) := by
  rw [frame, List.append_assoc, List.take_append_of_le_length (by simp)]
  exact List.take_of_length_le (by simp)

theorem decode_header {packet : Packet} (sendable : Sendable packet) (rest : List UInt8) :
    LittleEndian.decode ((packet.frame ++ rest).take 4) = 4 + packet.encoding.length := by
  have short := sendable.short
  rw [frame_take_header, LittleEndian.decode_encode_of_lt (by omega)]

theorem takePacket_frame (unset : Nat → Int32) {packet : Packet} (sendable : Sendable packet)
    (rest : List UInt8) :
    takePacket unset ((packet.frame ++ rest).drop 4) (4 + packet.encoding.length) =
      .ok packet.cut := by
  have short := sendable.short
  have body : (packet.frame ++ rest).drop 4 = packet.encoding ++ rest := by
    rw [frame, List.append_assoc, List.drop_append_of_le_length (by simp)]
    simp
  have analyzed := analyzer_encoding unset sendable.known
    (by simp only [SOCKET_BUF_SIZE]; omega) []
  rw [List.append_nil] at analyzed
  have notShorter : ¬ 4 + packet.encoding.length < 4 := by omega
  have notLonger : ¬ 200 < packet.encoding.length := by omega
  simp [takePacket, body, notShorter, notLonger, analyzed, bind, Except.bind]

theorem extract_frames (unset : Nat → Nat → Int32) {packets : List Packet} {rest : List UInt8}
    (sendable : ∀ packet ∈ packets, Sendable packet) (incomplete : Incomplete rest)
    (packageStorage : List Packet) {fuel : Nat} (enough : (frames packets ++ rest).length < fuel) :
    extract unset 4 fuel (frames packets ++ rest) packageStorage =
      .ok (rest, packageStorage ++ packets.map cut) := by
  induction packets generalizing fuel packageStorage with
  | nil =>
      obtain ⟨fuel, rfl⟩ : ∃ less, fuel = less + 1 := ⟨fuel - 1, by omega⟩
      simpa using extract_incomplete unset 4 fuel packageStorage incomplete
  | cons packet packets ih =>
      obtain ⟨fuel, rfl⟩ : ∃ less, fuel = less + 1 := ⟨fuel - 1, by omega⟩
      have first : Sendable packet := sendable packet (List.mem_cons_self)
      rw [frames_cons, List.append_assoc] at enough ⊢
      have header := decode_header first (frames packets ++ rest)
      have length : (packet.frame ++ (frames packets ++ rest)).length =
          4 + packet.encoding.length + (frames packets ++ rest).length := by
        rw [List.length_append, frame_length]
      have type := packet.encoding_length
      have large : ¬ (packet.frame ++ (frames packets ++ rest)).length < 8 := by omega
      have whole : ¬ (packet.frame ++ (frames packets ++ rest)).length <
          4 + packet.encoding.length := by omega
      have remaining : (packet.frame ++ (frames packets ++ rest)).drop
          (4 + packet.encoding.length) = frames packets ++ rest := by
        rw [← frame_length, List.drop_left]
      rw [extract, if_neg large]
      simp only [header, if_neg whole, takePacket_frame _ first, remaining, bind, Except.bind]
      rw [ih (fun later member => sendable later (List.mem_cons_of_mem _ member)) _ (by omega)]
      simp

/-- A session that waits for the next frame: nothing is left over, and a
receive into the whole buffer is posted. -/
structure Standing (session : IOCPSession) : Prop where
  buffer : session.main_buffer_ = []
  cleared : session.ioRead = IoData.clear
  posted : session.socket.posted = { buf := 0, len := SOCKET_BUF_SIZE }

theorem accepted_standing : Standing accepted := ⟨rfl, rfl, rfl⟩

theorem packetLen_of_start {data : IoData} {length : Nat} {more later : List UInt8}
    (small : length < 256) (started : data.buffer_ ≠ [])
    (start : data.buffer_ ++ more = LittleEndian.encode 4 length ++ later) :
    toSize data.packetLen = length := by
  have bytes : LittleEndian.encode 4 length = [UInt8.ofNat length, 0, 0, 0] := by
    have quotient : length / 256 = 0 := Nat.div_eq_of_lt small
    simp [LittleEndian.encode, quotient]
  have header : ZeroFilled.read data.buffer_ 0 4 = LittleEndian.encode 4 length := by
    rw [bytes] at start ⊢
    rcases known : data.buffer_ with _ | ⟨first, _ | ⟨second, _ | ⟨third, _ | ⟨fourth, rest⟩⟩⟩⟩
    · exact absurd known started
    all_goals
      simp only [known, List.cons_append, List.nil_append, List.cons.injEq] at start
      simp [ZeroFilled.read, start]
  rw [IoData.packetLen, header, LittleEndian.decode_encode_of_lt (by omega)]
  exact Stream.toSize_ofNat (by omega)

theorem frame_header {packet : Packet} (sendable : Sendable packet) (rest : List UInt8) :
    4 + packet.encoding.length < 256 ∧ packet.frame ++ rest =
      LittleEndian.encode 4 (4 + packet.encoding.length) ++ (packet.encoding ++ rest) := by
  have short := sendable.short
  exact ⟨by omega, by rw [frame, List.append_assoc]⟩

def filled (session : IOCPSession) (chunk : List UInt8) : IoData :=
  { session.ioRead with
    buffer_ := ZeroFilled.write session.ioRead.buffer_ session.socket.posted.buf chunk }

theorem setupTotalBytes_eq (data : IoData) :
    data.setupTotalBytes = (if data.totalBytes_ = 0 then 4 else 0,
      { data with totalBytes_ := (data.totalBytes_ + toSize data.packetLen) % sizeRange }) := by
  rw [IoData.setupTotalBytes]
  split <;> rfl

theorem receive_more (unset : Nat → Nat → Int32) {session : IOCPSession} {chunk : List UInt8}
    {total current : Nat} (fits : session.socket.posted.buf + chunk.length ≤ SOCKET_BUF_SIZE)
    (totalBytes : (session.ioRead.totalBytes_ + toSize (session.filled chunk).packetLen) %
      sizeRange = total)
    (currentBytes : (session.ioRead.currentBytes_ + chunk.length) % sizeRange = current)
    (more : current < total) :
    receive unset session chunk = .ok { session with
      ioRead := {
        totalBytes_ := (total + toSize (session.filled chunk).packetLen) % sizeRange
        currentBytes_ := current
        buffer_ := (session.filled chunk).buffer_ }
      socket := { session.socket with
        posted := { buf := current, len := (total + sizeRange - current) % sizeRange % 2 ^ 32 } } } := by
  simp only [filled, IoData.packetLen] at totalBytes ⊢
  simp [receive, Nat.not_lt.mpr fits, onRecv, setupTotalBytes_eq, IoData.packetLen, totalBytes,
    isRecving, IoData.needMoreIO, IoData.wsabuf, recv, currentBytes, more]

theorem receive_enough (unset : Nat → Nat → Int32) {session : IOCPSession} {chunk : List UInt8}
    {total current : Nat} (fits : session.socket.posted.buf + chunk.length ≤ SOCKET_BUF_SIZE)
    (totalBytes : (session.ioRead.totalBytes_ + toSize (session.filled chunk).packetLen) %
      sizeRange = total)
    (currentBytes : (session.ioRead.currentBytes_ + chunk.length) % sizeRange = current)
    (enough : total ≤ current) (near : current ≤ SOCKET_BUF_SIZE)
    (free : current = 0 ∨ session.main_buffer_ = []) :
    receive unset session chunk =
      (extract unset (if session.ioRead.totalBytes_ = 0 then 4 else 0)
        ((session.main_buffer_ ++ ZeroFilled.read (session.filled chunk).buffer_ 0 current).length +
          1) (session.main_buffer_ ++ ZeroFilled.read (session.filled chunk).buffer_ 0 current)
        session.packageStorage).bind fun result =>
          .ok (recvStandBy { session with
            main_buffer_ := result.1
            packageStorage := result.2 }) := by
  have unoccupied : ¬ (0 < current ∧ session.main_buffer_ ≠ []) := by
    rintro ⟨some_bytes, occupied⟩
    rcases free with empty | empty
    · omega
    · exact occupied empty
  simp only [filled, IoData.packetLen] at totalBytes ⊢
  simp only [receive, Nat.not_lt.mpr fits, if_false, onRecv, setupTotalBytes_eq, IoData.packetLen,
    totalBytes, isRecving, IoData.needMoreIO, currentBytes, Nat.not_lt.mpr enough, decide_false,
    Bool.false_eq_true, Nat.not_lt.mpr near, unoccupied]
  rfl

theorem receive_standing (unset : Nat → Nat → Int32) {session : IOCPSession}
    (standing : Standing session) {chunk : List UInt8} {length : Nat}
    (announced : toSize (IoData.packetLen { IoData.clear with buffer_ := chunk }) = length)
    (longer : length ≤ chunk.length) (fits : chunk.length ≤ SOCKET_BUF_SIZE) :
    receive unset session chunk =
      (extract unset 4 (chunk.length + 1) chunk session.packageStorage).bind fun result =>
        .ok (recvStandBy { session with
          main_buffer_ := result.1
          packageStorage := result.2 }) := by
  have filling : session.filled chunk = { IoData.clear with buffer_ := chunk } := by
    rw [filled, standing.cleared, standing.posted]
    simp [IoData.clear]
  have count : (session.ioRead.currentBytes_ + chunk.length) % sizeRange = chunk.length := by
    simp only [standing.cleared, IoData.clear, sizeRange, SOCKET_BUF_SIZE] at fits ⊢
    omega
  have total : (session.ioRead.totalBytes_ + toSize (session.filled chunk).packetLen) % sizeRange =
      length := by
    rw [filling, announced, standing.cleared]
    simp only [IoData.clear, sizeRange, SOCKET_BUF_SIZE] at fits ⊢
    omega
  rw [receive_enough unset (by simpa [standing.posted] using fits) total count longer fits
    (Or.inr standing.buffer)]
  simp only [filling, ZeroFilled.read_all, standing.buffer, List.nil_append, standing.cleared,
    IoData.clear, if_true]

theorem receive_whole (unset : Nat → Nat → Int32) {session : IOCPSession}
    (standing : Standing session) {packets : List Packet} {rest : List UInt8}
    (sendable : ∀ packet ∈ packets, Sendable packet) (some_packet : packets ≠ [])
    (incomplete : Incomplete rest) (fits : (frames packets ++ rest).length ≤ SOCKET_BUF_SIZE) :
    ∃ next, receive unset session (frames packets ++ rest) = .ok next ∧
      next.main_buffer_ = rest ∧
      next.packageStorage = session.packageStorage ++ packets.map cut ∧
      (rest = [] → Standing next) := by
  obtain ⟨packet, others, rfl⟩ := List.exists_cons_of_ne_nil some_packet
  have first : Sendable packet := sendable packet List.mem_cons_self
  obtain ⟨small, header⟩ := frame_header first (frames others ++ rest)
  have extracted := extract_frames unset sendable incomplete session.packageStorage
    (Nat.lt_succ_self _)
  have start : frames (packet :: others) ++ rest = packet.frame ++ (frames others ++ rest) := by
    rw [frames_cons, List.append_assoc]
  have longer : 4 + packet.encoding.length ≤ (frames (packet :: others) ++ rest).length := by
    rw [start, List.length_append, frame_length]
    omega
  generalize frames (packet :: others) ++ rest = chunk at fits extracted start longer
  have nonempty : chunk ≠ [] := List.ne_nil_of_length_pos (by omega)
  have announced : toSize (IoData.packetLen { IoData.clear with buffer_ := chunk }) =
      4 + packet.encoding.length :=
    packetLen_of_start small nonempty (by rw [List.append_nil, start, header])
  rw [receive_standing unset standing announced longer fits, extracted]
  exact ⟨_, rfl, rfl, rfl, fun nothing_left => ⟨nothing_left, rfl, rfl⟩⟩

/-- A session that holds the start of a frame of the given length and waits
for more than will come: every completion raises the total by twice the length. -/
structure Waiting (length : Nat) (session : IOCPSession) : Prop where
  buffer : session.main_buffer_ = []
  some_length : 0 < length
  small : length < 256
  stored : session.ioRead.buffer_.length = session.ioRead.currentBytes_
  started : 0 < session.ioRead.currentBytes_
  inside : session.ioRead.currentBytes_ ≤ SOCKET_BUF_SIZE
  behind : session.socket.posted.buf = session.ioRead.currentBytes_
  awaited : session.ioRead.currentBytes_ + session.socket.posted.len + length =
    session.ioRead.totalBytes_
  bounded : session.ioRead.totalBytes_ ≤ 512 * session.ioRead.currentBytes_

theorem receive_waiting (unset : Nat → Nat → Int32) {session : IOCPSession} {length : Nat}
    {chunk more later : List UInt8} (buffer : session.main_buffer_ = [])
    (some_length : 0 < length) (small : length < 256)
    (stored : session.ioRead.buffer_.length = session.ioRead.currentBytes_)
    (behind : session.socket.posted.buf = session.ioRead.currentBytes_)
    (header : session.ioRead.buffer_ ++ (chunk ++ more) = LittleEndian.encode 4 length ++ later)
    (nonempty : chunk ≠ [])
    (inside : session.ioRead.currentBytes_ + chunk.length ≤ SOCKET_BUF_SIZE)
    (short : session.ioRead.currentBytes_ + chunk.length < session.ioRead.totalBytes_ + length)
    (bounded : session.ioRead.totalBytes_ + 2 * length ≤
      512 * (session.ioRead.currentBytes_ + chunk.length)) :
    ∃ next, receive unset session chunk = .ok next ∧ Waiting length next ∧
      next.ioRead.buffer_ = session.ioRead.buffer_ ++ chunk ∧
      next.packageStorage = session.packageStorage := by
  have some_bytes : 0 < chunk.length := List.length_pos_iff.mpr nonempty
  have filling : (session.filled chunk).buffer_ = session.ioRead.buffer_ ++ chunk := by
    rw [filled, behind, ← stored, ZeroFilled.write_end]
  have packetLen : toSize (session.filled chunk).packetLen = length := by
    apply packetLen_of_start small
    · rw [filling]
      exact List.append_ne_nil_of_right_ne_nil _ nonempty
    · rw [filling, List.append_assoc, header]
  simp only [SOCKET_BUF_SIZE] at inside
  have total : (session.ioRead.totalBytes_ + toSize (session.filled chunk).packetLen) % sizeRange =
      session.ioRead.totalBytes_ + length := by
    simp only [packetLen, sizeRange]
    omega
  have current : (session.ioRead.currentBytes_ + chunk.length) % sizeRange =
      session.ioRead.currentBytes_ + chunk.length := by
    simp only [sizeRange]
    omega
  have taken := receive_more unset (by simpa only [behind, SOCKET_BUF_SIZE] using inside)
    total current short
  refine ⟨_, taken, ?_, filling, rfl⟩
  constructor
  · exact buffer
  · exact some_length
  · exact small
  · simp only [filling, List.length_append, stored]
  · show 0 < session.ioRead.currentBytes_ + chunk.length
    omega
  · exact inside
  · rfl
  · simp only [packetLen, sizeRange]
    omega
  · simp only [packetLen, sizeRange]
    omega

theorem waiting_run (unset : Nat → Nat → Int32) {length : Nat} {later : List UInt8}
    {chunks : List (List UInt8)} {session finish : IOCPSession} (waiting : Waiting length session)
    (header : session.ioRead.buffer_ ++ chunks.flatten = LittleEndian.encode 4 length ++ later)
    (offered : Runs.Offered (receive unset) Deliverable session chunks)
    (reached : Runs.run (receive unset) session chunks = .ok finish) :
    finish.packageStorage = session.packageStorage := by
  induction chunks generalizing session with
  | nil =>
      simp only [Runs.run_nil, Except.ok.injEq] at reached
      rw [reached]
  | cons chunk chunks ih =>
      obtain ⟨next, taken, continued⟩ := Runs.run_cons_ok reached
      obtain ⟨⟨nonempty, fits⟩, offered⟩ := offered
      have some_bytes : 0 < chunk.length := List.length_pos_iff.mpr nonempty
      have awaited := waiting.awaited
      have bounded := waiting.bounded
      have small := waiting.small
      have some_length := waiting.some_length
      have inside : session.ioRead.currentBytes_ + chunk.length ≤ SOCKET_BUF_SIZE := by
        by_contra outside
        simp [receive, waiting.behind, Nat.lt_of_not_le outside] at taken
      obtain ⟨after, same, waiting, buffer, storage⟩ := receive_waiting unset waiting.buffer
        some_length small waiting.stored waiting.behind header nonempty inside
        (by omega) (by omega)
      rw [taken, Except.ok.injEq] at same
      subst same
      rw [ih waiting (by rwa [buffer, List.append_assoc]) (offered next taken) continued, storage]

theorem receive_fault (unset : Nat → Nat → Int32) {session : IOCPSession} {chunk : List UInt8}
    {total current : Nat} (fits : session.socket.posted.buf + chunk.length ≤ SOCKET_BUF_SIZE)
    (totalBytes : (session.ioRead.totalBytes_ + toSize (session.filled chunk).packetLen) %
      sizeRange = total)
    (currentBytes : (session.ioRead.currentBytes_ + chunk.length) % sizeRange = current)
    (enough : total ≤ current)
    (outside : SOCKET_BUF_SIZE < current ∨ 0 < current ∧ session.main_buffer_ ≠ []) :
    receive unset session chunk = .error .outOfBounds := by
  simp only [filled, IoData.packetLen] at totalBytes
  simp only [receive, Nat.not_lt.mpr fits, if_false, onRecv, setupTotalBytes_eq, IoData.packetLen,
    totalBytes, isRecving, IoData.needMoreIO, currentBytes, Nat.not_lt.mpr enough, decide_false,
    Bool.false_eq_true]
  split
  · rfl
  · rename_i near
    rw [if_pos (outside.resolve_left near)]

theorem receive_leftover (unset : Nat → Nat → Int32) {session next : IOCPSession}
    {chunk : List UInt8} (occupied : session.main_buffer_ ≠ [])
    (incomplete : Incomplete session.main_buffer_)
    (taken : receive unset session chunk = .ok next) :
    next.main_buffer_ = session.main_buffer_ ∧ next.packageStorage = session.packageStorage := by
  have fits : session.socket.posted.buf + chunk.length ≤ SOCKET_BUF_SIZE := by
    by_contra outside
    simp [receive, Nat.lt_of_not_le outside] at taken
  generalize totalBytes : (session.ioRead.totalBytes_ +
    toSize (session.filled chunk).packetLen) % sizeRange = total
  generalize currentBytes : (session.ioRead.currentBytes_ + chunk.length) % sizeRange = current
  by_cases more : current < total
  · rw [receive_more unset fits totalBytes currentBytes more, Except.ok.injEq] at taken
    subst taken
    exact ⟨rfl, rfl⟩
  · have enough : total ≤ current := Nat.le_of_not_lt more
    by_cases outside : SOCKET_BUF_SIZE < current ∨ 0 < current ∧ session.main_buffer_ ≠ []
    · simp [receive_fault unset fits totalBytes currentBytes enough outside] at taken
    · have nothing : current = 0 := by
        by_contra some_bytes
        exact outside (Or.inr ⟨Nat.pos_of_ne_zero some_bytes, occupied⟩)
      rw [receive_enough unset fits totalBytes currentBytes enough (by omega) (Or.inl nothing),
        nothing] at taken
      simp only [ZeroFilled.read, List.take_zero, List.append_nil,
        extract_incomplete _ _ _ _ incomplete, Except.bind, Except.ok.injEq] at taken
      subst taken
      exact ⟨rfl, rfl⟩

theorem leftover_run (unset : Nat → Nat → Int32) {rest : List UInt8} (occupied : rest ≠ [])
    (incomplete : Incomplete rest) {chunks : List (List UInt8)} {session finish : IOCPSession}
    (buffer : session.main_buffer_ = rest)
    (reached : Runs.run (receive unset) session chunks = .ok finish) :
    finish.packageStorage = session.packageStorage := by
  let Stuck (later : IOCPSession) : Prop :=
    later.main_buffer_ = rest ∧ later.packageStorage = session.packageStorage
  have stuck : Stuck finish := by
    refine Runs.run_invariant ?_ ⟨buffer, rfl⟩ reached
    rintro state chunk next ⟨held, storage⟩ taken
    subst held
    obtain ⟨sameBuffer, sameStorage⟩ := receive_leftover unset occupied incomplete taken
    exact ⟨sameBuffer, sameStorage.trans storage⟩
  exact stuck.2

/-! Where a chunk ends in a row of frames. -/

theorem frames_ne_nil {packets : List Packet} (some_packet : packets ≠ []) : frames packets ≠ [] := by
  obtain ⟨packet, others, rfl⟩ := List.exists_cons_of_ne_nil some_packet
  apply List.ne_nil_of_length_pos
  rw [frames_cons, List.length_append, frame_length]
  omega

theorem frames_split {packets : List Packet} {chunk more : List UInt8}
    (start : chunk ++ more = frames packets) :
    ∃ whole others rest, packets = whole ++ others ∧ chunk = frames whole ++ rest ∧
      rest ++ more = frames others ∧
      (rest = [] ∨ ∃ packet tail, others = packet :: tail ∧ rest.length < packet.frame.length) := by
  induction packets generalizing chunk with
  | nil =>
      obtain ⟨rfl, rfl⟩ := List.append_eq_nil_iff.mp start
      exact ⟨[], [], [], rfl, rfl, rfl, Or.inl rfl⟩
  | cons packet packets ih =>
      by_cases short : chunk.length < packet.frame.length
      · exact ⟨[], packet :: packets, chunk, rfl, rfl, start, Or.inr ⟨packet, packets, rfl, short⟩⟩
      · rw [frames_cons] at start
        obtain ⟨behind, rfl⟩ : packet.frame <+: chunk :=
          List.prefix_of_prefix_length_le ⟨_, rfl⟩ ⟨more, start⟩ (Nat.le_of_not_lt short)
        rw [List.append_assoc, List.append_cancel_left_eq] at start
        obtain ⟨whole, others, rest, split, ending, continued, last⟩ := ih start
        refine ⟨packet :: whole, others, rest, ?_, ?_, continued, last⟩
        · rw [split, List.cons_append]
        · rw [ending, frames_cons, List.append_assoc]

theorem incomplete_of_start {packet : Packet} (sendable : Sendable packet)
    {rest more tail : List UInt8} (start : rest ++ more = packet.frame ++ tail)
    (short : rest.length < packet.frame.length) : Incomplete rest := by
  by_cases few : rest.length < 8
  · exact Or.inl few
  · have header := decode_header sendable tail
    rw [← start, List.take_append_of_le_length (by omega)] at header
    right
    rw [header, ← frame_length]
    exact short

/-! Whole runs of completions. -/

theorem standing_offered {session : IOCPSession} (standing : Standing session)
    {unset : Nat → Nat → Int32} {chunk : List UInt8} {chunks : List (List UInt8)}
    (offered : Runs.Offered (receive unset) Deliverable session (chunk :: chunks)) :
    chunk ≠ [] ∧ chunk.length ≤ SOCKET_BUF_SIZE ∧
      ∀ next, receive unset session chunk = .ok next →
        Runs.Offered (receive unset) Deliverable next chunks := by
  obtain ⟨⟨nonempty, fits⟩, later⟩ := offered
  rw [standing.posted] at fits
  exact ⟨nonempty, fits, later⟩

theorem whole_run (unset : Nat → Nat → Int32) {groups : List (List Packet)}
    {session : IOCPSession} (standing : Standing session)
    (sendable : ∀ packet ∈ groups.flatten, Sendable packet)
    (offered : Runs.Offered (receive unset) Deliverable session (groups.map frames)) :
    ∃ finish, Runs.run (receive unset) session (groups.map frames) = .ok finish ∧
      finish.packageStorage = session.packageStorage ++ groups.flatten.map cut := by
  induction groups generalizing session with
  | nil => exact ⟨session, rfl, by simp⟩
  | cons group groups ih =>
      simp only [List.flatten_cons, List.mem_append] at sendable
      obtain ⟨nonempty, fits, later⟩ := standing_offered standing offered
      have some_packet : group ≠ [] := by
        rintro rfl
        exact nonempty rfl
      obtain ⟨next, taken, -, storage, again⟩ := receive_whole unset standing
        (fun packet member => sendable packet (Or.inl member)) some_packet
        (Or.inl (by simp) : Incomplete []) (by simpa using fits)
      rw [List.append_nil] at taken
      obtain ⟨finish, reached, finished⟩ := ih (again rfl)
        (fun packet member => sendable packet (Or.inr member)) (later next taken)
      refine ⟨finish, ?_, ?_⟩
      · rw [List.map_cons, Runs.run_cons, taken]
        exact reached
      · rw [finished, storage]
        simp

theorem short_run (unset : Nat → Nat → Int32) {chunks : List (List UInt8)} {packet : Packet}
    {chunk tail : List UInt8} {session finish : IOCPSession} (standing : Standing session)
    (sendable : Sendable packet) (stream : chunk ++ chunks.flatten = packet.frame ++ tail)
    (short : chunk.length < packet.frame.length)
    (offered : Runs.Offered (receive unset) Deliverable session (chunk :: chunks))
    (reached : Runs.run (receive unset) session (chunk :: chunks) = .ok finish) :
    finish.packageStorage = session.packageStorage := by
  obtain ⟨next, taken, continued⟩ := Runs.run_cons_ok reached
  obtain ⟨nonempty, fits, later⟩ := standing_offered standing offered
  obtain ⟨small, header⟩ := frame_header sendable tail
  have some_bytes : 0 < chunk.length := List.length_pos_iff.mpr nonempty
  rw [header] at stream
  rw [frame_length] at short
  obtain ⟨after, same, waiting, buffer, storage⟩ := receive_waiting unset standing.buffer
    (by omega) small (by rw [standing.cleared]; rfl) (by rw [standing.posted, standing.cleared]; rfl)
    (by rw [standing.cleared]; exact stream) nonempty
    (by rw [standing.cleared]; simp only [IoData.clear]; omega)
    (by rw [standing.cleared]; simp only [IoData.clear]; omega)
    (by rw [standing.cleared]; simp only [IoData.clear]; omega)
  rw [taken, Except.ok.injEq] at same
  subst same
  rw [waiting_run unset waiting ?_ (later next taken) continued, storage]
  · exact packet.encoding ++ tail
  · rw [buffer, standing.cleared]
    exact stream

theorem whole_of_run (unset : Nat → Nat → Int32) {chunks : List (List UInt8)}
    {packets : List Packet} {session finish : IOCPSession} (standing : Standing session)
    (sendable : ∀ packet ∈ packets, Sendable packet) (stream : chunks.flatten = frames packets)
    (offered : Runs.Offered (receive unset) Deliverable session chunks)
    (reached : Runs.run (receive unset) session chunks = .ok finish)
    (all : finish.packageStorage.length = session.packageStorage.length + packets.length) :
    ∃ groups : List (List Packet), groups.flatten = packets ∧ chunks = groups.map frames := by
  induction chunks generalizing session packets with
  | nil =>
      have none_left : packets = [] := by
        by_contra some_packet
        exact frames_ne_nil some_packet stream.symm
      exact ⟨[], none_left.symm, rfl⟩
  | cons chunk chunks ih =>
      obtain ⟨next, taken, continued⟩ := Runs.run_cons_ok reached
      obtain ⟨nonempty, fits, later⟩ := standing_offered standing offered
      obtain ⟨whole, others, rest, rfl, rfl, remaining, last⟩ := frames_split stream
      have wholeSendable : ∀ packet ∈ whole, Sendable packet :=
        fun packet member => sendable packet (List.mem_append_left _ member)
      have othersSendable : ∀ packet ∈ others, Sendable packet :=
        fun packet member => sendable packet (List.mem_append_right _ member)
      have incomplete : Incomplete rest := by
        rcases last with rfl | ⟨packet, tail, rfl, short⟩
        · exact Or.inl (by simp)
        · rw [frames_cons] at remaining
          exact incomplete_of_start (othersSendable packet List.mem_cons_self) remaining short
      by_cases none_whole : whole = []
      · subst none_whole
        rcases last with rfl | ⟨packet, tail, rfl, short⟩
        · exact absurd rfl nonempty
        · have stuck := short_run unset standing (othersSendable packet List.mem_cons_self)
            remaining short offered reached
          rw [stuck] at all
          simp only [List.length_append, List.length_cons] at all
          omega
      · obtain ⟨after, same, buffer, storage, again⟩ := receive_whole unset standing wholeSendable
          none_whole incomplete fits
        rw [taken, Except.ok.injEq] at same
        subst same
        have counted := congrArg List.length storage
        simp only [List.length_append, List.length_map] at counted all
        by_cases nothing : rest = []
        · obtain ⟨groups, rfl, rfl⟩ := ih (again nothing) othersSendable
            (by rw [← remaining, nothing, List.nil_append]) (later next taken) continued (by omega)
          refine ⟨whole :: groups, by simp, ?_⟩
          rw [nothing, List.append_nil, List.map_cons]
        · have stuck := congrArg List.length (leftover_run unset nothing incomplete buffer continued)
          obtain ⟨packet, tail, rfl, -⟩ := last.resolve_left nothing
          simp only [List.length_cons] at all
          omega

theorem map_cut_eq_self_iff (packets : List Packet) :
    packets.map cut = packets ↔ ∀ packet ∈ packets, packet.NulFree := by
  induction packets with
  | nil => simp
  | cons packet packets ih => simp [cut_eq_self_iff, ih]

/-- Segmentation: the packets of a row of frames come out of the completions
exactly when no completion ends inside a frame and no string holds a NUL. -/
theorem receive_reassembles_iff (unset : Nat → Nat → Int32) (packets : List Packet)
    (chunks : List (List UInt8)) (sendable : ∀ packet ∈ packets, Sendable packet)
    (stream : chunks.flatten = frames packets)
    (offered : Runs.Offered (receive unset) Deliverable accepted chunks) :
    (∃ finish, Runs.run (receive unset) accepted chunks = .ok finish ∧
      finish.packageStorage = packets) ↔
    (∃ groups : List (List Packet), groups.flatten = packets ∧ chunks = groups.map frames) ∧
      ∀ packet ∈ packets, packet.NulFree := by
  have reassembled : ∀ groups : List (List Packet), groups.flatten = packets →
      chunks = groups.map frames →
      ∃ finish, Runs.run (receive unset) accepted chunks = .ok finish ∧
        finish.packageStorage = packets.map cut := by
    rintro groups rfl rfl
    exact whole_run unset accepted_standing sendable offered
  constructor
  · rintro ⟨finish, reached, exact_packets⟩
    obtain ⟨groups, grouped, whole⟩ := whole_of_run unset accepted_standing sendable stream offered
      reached (by rw [exact_packets]; simp [accepted, recvStandBy, recv])
    refine ⟨⟨groups, grouped, whole⟩, ?_⟩
    obtain ⟨same, again, cut_packets⟩ := reassembled groups grouped whole
    rw [reached, Except.ok.injEq] at again
    subst again
    rw [exact_packets] at cut_packets
    intro packet member
    exact (map_cut_eq_self_iff packets).mp cut_packets.symm packet member
  · rintro ⟨⟨groups, grouped, whole⟩, nulFree⟩
    obtain ⟨finish, reached, cut_packets⟩ := reassembled groups grouped whole
    exact ⟨finish, reached, cut_packets.trans ((map_cut_eq_self_iff packets).mpr nulFree)⟩

theorem exit_sendable : ∀ packet ∈ [PK_C_REQ_EXIT], Sendable packet := by
  rintro packet member
  obtain rfl := List.mem_singleton.mp member
  exact ⟨rfl, by decide⟩

/-- What is said and an exit come in one completion, and another exit in the next. -/
theorem receive_reassembles_exit :
    let said : Packet := .PK_C_REQ_CHATTING [104, 105]
    ∃ finish, Runs.run (receive fun _ _ => 0) accepted
        [frames [said, PK_C_REQ_EXIT], frames [PK_C_REQ_EXIT]] = .ok finish ∧
      finish.packageStorage = [said, PK_C_REQ_EXIT, PK_C_REQ_EXIT] :=
  (receive_reassembles_iff (fun _ _ => 0) _ _ (by decide) (by decide) (by decide)).mpr
    ⟨⟨[[_, _], [_]], rfl, rfl⟩, by decide⟩

/-- One frame of twelve bytes that comes as five and then seven bytes. -/
theorem receive_split_exit :
    ¬ ∀ (packets : List Packet) (chunks : List (List UInt8)),
      (∀ packet ∈ packets, Sendable packet) → chunks.flatten = frames packets →
      Runs.Offered (receive fun _ _ => 0) Deliverable accepted chunks →
      ∃ finish, Runs.run (receive fun _ _ => 0) accepted chunks = .ok finish ∧
        finish.packageStorage = packets := by
  intro independent
  obtain ⟨finish, reached, exact_packets⟩ := independent [PK_C_REQ_EXIT]
    [[12, 0, 0, 0, 128], [0, 0, 0, 0, 0, 0, 0]] exit_sendable (by decide) (by decide)
  have computed : (Runs.run (receive fun _ _ => 0) accepted
      [[12, 0, 0, 0, 128], [0, 0, 0, 0, 0, 0, 0]]).toOption.map
      (fun session => session.packageStorage) = some [] := by decide
  obtain ⟨session, same, nothing⟩ := Runs.run_view computed
  rw [reached] at same
  cases same
  rw [nothing] at exact_packets
  cases exact_packets

end IOCPSession

end GraduationServer
