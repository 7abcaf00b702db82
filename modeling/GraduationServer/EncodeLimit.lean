import GraduationServer.SendPath

/-!
Encoding next to the size of the buffers. `Stream` takes every value that fits
and skips the others, and `setData` refuses only a stream that is full.
-/

namespace GraduationServer

open Packet

def Field.roomAfter (room : Nat) : Field → Nat
  | .byte _ => room - 1
  | .uint32 _ => if 4 ≤ room then room - 4 else room
  | .uint64 _ => if 8 ≤ room then room - 8 else room
  | .str value => (if 4 ≤ room then room - 4 else room) - value.length

def Packet.roomLeft (packet : Packet) : Nat :=
  packet.fields.foldl Field.roomAfter (SOCKET_BUF_SIZE - 8)

namespace Stream

theorem write_room {stream : Stream} {room : Nat} (whole : stream.size + room = SOCKET_BUF_SIZE)
    (value : List UInt8) (small : value.length ≤ 8) :
    (stream.write value).size + (if value.length ≤ room then room - value.length else room) =
      SOCKET_BUF_SIZE := by
  by_cases fits : value.length ≤ room
  · rw [write_fits (by omega)]
    simp only [size, List.length_append, fits, if_true] at whole ⊢
    omega
  · have exact_sum : (stream.size + value.length) % sizeRange = stream.size + value.length := by
      simp only [SOCKET_BUF_SIZE, sizeRange] at whole ⊢
      omega
    have refused : ¬ stream.checkWriteBound value.length = true := by
      simp only [checkWriteBound, exact_sum, Bool.not_eq_true', decide_eq_false_iff_not, not_not]
      omega
    simp only [write, refused, fits, if_false]
    exact whole

theorem text_room {value : Str} {stream : Stream} {room : Nat}
    (whole : stream.size + room = SOCKET_BUF_SIZE) :
    (value.foldl putByte stream).size + (room - value.length) = SOCKET_BUF_SIZE := by
  induction value generalizing stream room with
  | nil => exact whole
  | cons byte rest ih =>
      have written := write_room whole [byte] (by simp)
      have later := ih written
      simp only [List.foldl_cons, putByte, List.length_cons, List.length_nil] at later ⊢
      split at later <;> omega

theorem field_room {stream : Stream} {room : Nat} (whole : stream.size + room = SOCKET_BUF_SIZE)
    (field : Field) :
    (stream.putAll field.pieces).size + field.roomAfter room = SOCKET_BUF_SIZE := by
  cases field with
  | byte value =>
      have written := write_room whole [value] (by simp)
      simp only [Field.pieces, putAll, List.foldl_cons, List.foldl_nil, Field.roomAfter]
      simp only [List.length_cons, List.length_nil] at written
      split at written <;> omega
  | uint32 value =>
      have written := write_room whole (LittleEndian.encode 4 value.toNat) (by simp)
      simpa [Field.pieces, putAll, Field.roomAfter] using written
  | uint64 value =>
      have written := write_room whole (LittleEndian.encode 8 value.toNat) (by simp)
      simpa [Field.pieces, putAll, Field.roomAfter] using written
  | str value =>
      have written := write_room whole (LittleEndian.encode 4 value.length) (by simp)
      rw [LittleEndian.encode_length] at written
      rw [Field.pieces, ← putStr_eq, putStr]
      exact text_room written

theorem fields_room {stream : Stream} {room : Nat} (whole : stream.size + room = SOCKET_BUF_SIZE)
    (fields : List Field) :
    (stream.putAll (fields.flatMap Field.pieces)).size + fields.foldl Field.roomAfter room =
      SOCKET_BUF_SIZE := by
  induction fields generalizing stream room with
  | nil => exact whole
  | cons field rest ih =>
      rw [List.flatMap_cons, putAll_append, List.foldl_cons]
      exact ih (field_room whole field)

end Stream

theorem Packet.encode_room (packet : Packet) :
    (packet.encode Stream.initial).size + packet.roomLeft = SOCKET_BUF_SIZE := by
  have start : Stream.initial.size + SOCKET_BUF_SIZE = SOCKET_BUF_SIZE := rfl
  have type := Stream.write_room start (LittleEndian.encode 8 packet.type.code) (by simp)
  rw [LittleEndian.encode_length, if_pos (by decide)] at type
  rw [encode_eq_putAll]
  exact Stream.fields_room type packet.fields

namespace IOCPSession

/-- The call ends, and either no send is started or the write buffer holds the
length and the whole encoding. -/
def AllOrNothing (session : IOCPSession) (packet : Packet) : Prop :=
  ∃ next, session.sendPacket packet = .ok next ∧
    (next.socket = session.socket ∨ next.ioWrite.buffer_ = packet.frame)

theorem sendPacket_refused {packet : Packet} (full : packet.roomLeft = 0) (session : IOCPSession) :
    session.sendPacket packet = .ok { session with ioWrite := IoData.clear } := by
  have room := packet.encode_room
  have tooBig : SOCKET_BUF_SIZE ≤ (packet.encode Stream.initial).size := by omega
  simp [sendPacket, IoData.setData, tooBig, bind, Except.bind, pure, Except.pure]

theorem sendPacket_overruns (session : IOCPSession) (packet : Packet)
    (some_room : packet.roomLeft ≠ 0) (short : packet.roomLeft < 4) :
    session.sendPacket packet = .error .outOfBounds := by
  have room := packet.encode_room
  have notTooBig : ¬ SOCKET_BUF_SIZE ≤ (packet.encode Stream.initial).size := by omega
  have beyond : SOCKET_BUF_SIZE < 4 + (packet.encode Stream.initial).size := by omega
  simp [sendPacket, IoData.setData, notTooBig, beyond, bind, Except.bind]

theorem roomLeft_of_fits (packet : Packet) (fits : packet.encoding.length ≤ SOCKET_BUF_SIZE) :
    packet.encoding.length + packet.roomLeft = SOCKET_BUF_SIZE := by
  have room := packet.encode_room
  rw [encode_fits fits] at room
  exact room

theorem whole_iff {packet : Packet} (room : 4 ≤ packet.roomLeft) :
    packet.sentFrame = packet.frame ↔ 4 + packet.encoding.length ≤ SOCKET_BUF_SIZE := by
  have size := packet.encode_room
  constructor
  · intro same
    have length := congrArg List.length same
    rw [sentFrame_length, frame_length] at length
    omega
  · intro fits
    exact sentFrame_eq_frame (by omega)

/-- A call transmits nothing or the whole packet exactly where the frame fits
the buffer or what was written of the packet fills the stream to its end. -/
theorem sendPacket_allOrNothing_iff (session : IOCPSession) (packet : Packet) :
    session.AllOrNothing packet ↔
      4 + packet.encoding.length ≤ SOCKET_BUF_SIZE ∨ packet.roomLeft = 0 := by
  by_cases full : packet.roomLeft = 0
  · simp only [full, or_true, iff_true]
    exact ⟨_, sendPacket_refused full session, Or.inl rfl⟩
  · by_cases short : packet.roomLeft < 4
    · have overlong : ¬ 4 + packet.encoding.length ≤ SOCKET_BUF_SIZE := by
        intro fits
        have room := roomLeft_of_fits packet (by omega)
        omega
      simp [AllOrNothing, sendPacket_overruns session packet full short, full, overlong]
    · have room := packet.encode_room
      have sent := @sendPacket_eq session packet (by omega)
      have started (bytes : List UInt8) :
          session.socket.pending ++ [bytes] ≠ session.socket.pending := by simp
      simp only [full, or_false, ← whole_iff (Nat.le_of_not_lt short)]
      constructor
      · rintro ⟨next, taken, nothing | whole⟩
        · rw [sent, Except.ok.injEq] at taken
          have pending := congrArg Socket.pending nothing
          rw [← taken] at pending
          exact absurd pending (started _)
        · rw [sent, Except.ok.injEq] at taken
          rw [← taken] at whole
          exact whole
      · intro whole
        exact ⟨_, sent, Or.inr whole⟩

/-- A chat text whose encoding leaves two bytes of the stream. -/
theorem sendPacket_overruns_chatting :
    accepted.sendPacket (.PK_C_REQ_CHATTING (List.replicate 10226 65)) = .error .outOfBounds ∧
    ¬ accepted.AllOrNothing (.PK_C_REQ_CHATTING (List.replicate 10226 65)) := by
  have room : (Packet.PK_C_REQ_CHATTING (List.replicate 10226 65)).roomLeft = 2 := by
    simp only [Packet.roomLeft, Packet.fields, List.foldl_cons, List.foldl_nil, Field.roomAfter,
      List.length_replicate, SOCKET_BUF_SIZE]
    rfl
  have stopped := sendPacket_overruns accepted (.PK_C_REQ_CHATTING (List.replicate 10226 65))
    (by omega) (by omega)
  refine ⟨stopped, ?_⟩
  rintro ⟨next, taken, _⟩
  rw [stopped] at taken
  cases taken

end IOCPSession

end GraduationServer
