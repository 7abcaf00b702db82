import GraduationServer.ReceivePath
import GraduationServer.SendPath

/-!
`TerminalSession::sendPacket`, and what the two ends of a connection allow.
Both senders let a packet grow to the size of a socket buffer, while the
receiver copies it to an array of 200 bytes.
-/

namespace GraduationServer

open Packet

/-- The bytes that are given to `::send`. The second `memcpy_s` copies
`packetLen[0]` bytes, four more than the stream has. -/
def TerminalSession.sendPacket (packet : Packet) : Exec (List UInt8) :=
  let stream := packet.encode Stream.initial
  let packetLen := 4 + stream.size
  if SOCKET_BUF_SIZE < 4 + packetLen then .error .outOfBounds
  else
    let buffer := LittleEndian.encode 4 packetLen ++ ZeroFilled.read stream.stream_ 0 packetLen
    .ok (buffer.take (4 + stream.size))

namespace IOCPSession

inductive Transmits (packet : Packet) (bytes : List UInt8) : Prop
  | session {before sent finish : IOCPSession} {counts : List Nat} :
      before.socket.pending = [] → before.sendPacket packet = .ok sent →
      Runs.run complete sent counts = .ok finish → finish.socket.pending = [] →
      finish.socket.wire = before.socket.wire ++ bytes → bytes ≠ [] → Transmits packet bytes
  | terminal : TerminalSession.sendPacket packet = .ok bytes → Transmits packet bytes

theorem possible_of_complete {session next : IOCPSession} {transferSize : Nat}
    (taken : session.complete transferSize = .ok next) :
    session.Possible (.completion transferSize) := by
  cases pending : session.socket.pending with
  | nil => simp [complete, pending] at taken
  | cons bytes later =>
      by_cases possible : 0 < transferSize ∧ transferSize ≤ bytes.length
      · simpa [Possible, pending] using possible
      · simp [complete, pending, possible] at taken

theorem terminal_fits {packet : Packet} {bytes : List UInt8}
    (sent : TerminalSession.sendPacket packet = .ok bytes) :
    bytes = packet.sentFrame ∧ bytes.length ≤ SOCKET_BUF_SIZE := by
  by_cases room : SOCKET_BUF_SIZE < 4 + (4 + (packet.encode Stream.initial).size)
  · simp [TerminalSession.sendPacket, room] at sent
  · simp only [TerminalSession.sendPacket, room, if_false, Except.ok.injEq] at sent
    have copied : bytes = packet.sentFrame := by
      rw [← sent, sentFrame, List.take_append, LittleEndian.encode_length, Nat.add_sub_cancel_left,
        List.take_of_length_le (by simp)]
      simp [ZeroFilled.read, Stream.size, List.take_take]
    refine ⟨copied, ?_⟩
    rw [copied, sentFrame_length]
    omega

theorem session_fits {packet : Packet} {bytes : List UInt8} {before sent finish : IOCPSession}
    {counts : List Nat} (idle : before.socket.pending = [])
    (called : before.sendPacket packet = .ok sent)
    (reached : Runs.run complete sent counts = .ok finish) (done : finish.socket.pending = [])
    (wire : finish.socket.wire = before.socket.wire ++ bytes) (some_bytes : bytes ≠ []) :
    bytes = packet.sentFrame ∧ bytes.length ≤ SOCKET_BUF_SIZE := by
  have preserved : ∀ (due : List UInt8) (state : IOCPSession) (count : Nat) (next : IOCPSession),
      Sending due state → state.complete count = .ok next → Sending due next := by
    intro due state count next sending taken
    obtain ⟨same, again, kept⟩ := complete_sending sending (possible_of_complete taken)
    rw [taken, Except.ok.injEq] at again
    exact again ▸ kept
  have sent_all : ∀ due, Sending due sent → finish.socket.wire = due := by
    intro due sending
    cases Runs.run_invariant (preserved due) sending reached with
    | idle _ all => exact all
    | busy _ _ pending => simp [done] at pending
  by_cases rejected : SOCKET_BUF_SIZE ≤ (packet.encode Stream.initial).size
  · simp only [sendPacket, IoData.setData, rejected, if_true, bind, Except.bind,
      Bool.false_eq_true, if_false, pure, Except.pure, Except.ok.injEq] at called
    have nothing := sent_all before.socket.wire (Sending.idle (by rw [← called]; exact idle)
      (by rw [← called]))
    rw [nothing, List.self_eq_append_right] at wire
    exact absurd wire some_bytes
  · by_cases room : 4 + (packet.encode Stream.initial).size ≤ SOCKET_BUF_SIZE
    · obtain ⟨same, again, sending⟩ := sendPacket_sending (Sending.idle idle rfl) idle room
      rw [called, Except.ok.injEq] at again
      subst again
      have all := sent_all _ sending
      rw [wire, List.append_cancel_left_eq] at all
      exact ⟨all, by rw [all, sentFrame_length]; exact room⟩
    · simp [sendPacket, IoData.setData, rejected, Nat.lt_of_not_le room, bind, Except.bind]
        at called

theorem transmits_eq {packet : Packet} {bytes : List UInt8} (transmits : Transmits packet bytes) :
    bytes = packet.sentFrame ∧ bytes.length ≤ SOCKET_BUF_SIZE := by
  cases transmits with
  | session idle called reached done wire some_bytes =>
      exact session_fits idle called reached done wire some_bytes
  | terminal sent => exact terminal_fits sent

theorem sentFrame_take_header {packet : Packet} (fits : packet.sentFrame.length ≤ SOCKET_BUF_SIZE) :
    LittleEndian.decode (packet.sentFrame.take 4) = packet.sentFrame.length := by
  rw [sentFrame_length, SOCKET_BUF_SIZE] at fits
  rw [sentFrame_length, sentFrame, List.take_append_of_le_length (by simp),
    List.take_of_length_le (by simp), LittleEndian.decode_encode_of_lt (by omega)]

theorem receive_too_long (unset : Nat → Nat → Int32) {packet : Packet} {bytes : List UInt8}
    (transmits : Transmits packet bytes) (long : 200 < packet.encoding.length) :
    receive unset accepted bytes = .error .outOfBounds := by
  obtain ⟨rfl, fits⟩ := transmits_eq transmits
  have size := packet.encode_size
  have length := sentFrame_length packet
  have header := sentFrame_take_header fits
  simp only [SOCKET_BUF_SIZE] at size
  generalize packet.sentFrame = bytes at fits length header
  have announced : toSize (IoData.packetLen { IoData.clear with buffer_ := bytes }) =
      bytes.length := by
    simp only [SOCKET_BUF_SIZE] at fits
    rw [IoData.packetLen, ZeroFilled.read_inside (by simp only; omega), List.drop_zero, header,
      Stream.toSize_ofNat (by omega)]
  rw [receive_standing unset accepted_standing announced le_rfl fits, extract,
    if_neg (by omega : ¬ bytes.length < 8)]
  have notShort : ¬ bytes.length < 4 := by omega
  have tooLong : 200 < bytes.length - 4 := by omega
  simp [header, takePacket, notShort, tooLong, bind, Except.bind]

/-- The ends agree exactly on packets of at most 200 bytes without a NUL in a string. -/
theorem receive_transmitted_iff (unset : Nat → Nat → Int32) (packet : Packet)
    (known : packet.Known) (bytes : List UInt8) (transmits : Transmits packet bytes) :
    (∃ finish, receive unset accepted bytes = .ok finish ∧ finish.packageStorage = [packet]) ↔
      packet.encoding.length ≤ 200 ∧ packet.NulFree := by
  by_cases short : packet.encoding.length ≤ 200
  · have sendable : ∀ other ∈ [packet], Sendable other := by
      intro other member
      obtain rfl := List.mem_singleton.mp member
      exact ⟨known, short⟩
    obtain ⟨copied, fits⟩ := transmits_eq transmits
    have whole : bytes = frames [packet] ++ [] := by
      rw [copied, sentFrame_eq_frame (by rw [SOCKET_BUF_SIZE]; omega)]
      simp
    rw [whole] at fits ⊢
    obtain ⟨finish, received, -, storage, -⟩ := receive_whole unset accepted_standing sendable
      (List.cons_ne_nil _ _) (Or.inl (by simp) : Incomplete []) fits
    have cut_packet : finish.packageStorage = [packet.cut] := storage
    constructor
    · rintro ⟨same, again, exact_packet⟩
      rw [received, Except.ok.injEq] at again
      subst again
      rw [cut_packet, List.cons.injEq] at exact_packet
      exact ⟨short, (cut_eq_self_iff packet).mp exact_packet.1⟩
    · rintro ⟨-, nulFree⟩
      exact ⟨finish, received, by rw [cut_packet, (cut_eq_self_iff packet).mpr nulFree]⟩
  · constructor
    · rintro ⟨finish, received, -⟩
      rw [receive_too_long unset transmits (by omega)] at received
      contradiction
    · rintro ⟨fits, -⟩
      exact absurd fits short

theorem terminal_sends {packet : Packet} (fits : 8 + packet.encoding.length ≤ SOCKET_BUF_SIZE) :
    TerminalSession.sendPacket packet = .ok packet.frame := by
  have size : (packet.encode Stream.initial).size = packet.encoding.length := by
    rw [encode_fits (by omega)]
    rfl
  have room : ¬ SOCKET_BUF_SIZE < 4 + (4 + (packet.encode Stream.initial).size) := by omega
  cases sent : TerminalSession.sendPacket packet with
  | error reason => simp [TerminalSession.sendPacket, room] at sent
  | ok bytes =>
      obtain ⟨rfl, -⟩ := terminal_fits sent
      rw [sentFrame_eq_frame (by omega)]

theorem terminal_transmits {packet : Packet} (fits : 8 + packet.encoding.length ≤ SOCKET_BUF_SIZE) :
    Transmits packet packet.frame := Transmits.terminal (terminal_sends fits)

theorem receive_transmitted_exit :
    (∃ finish, receive (fun _ _ => 0) accepted (frame PK_C_REQ_EXIT) = .ok finish ∧
      finish.packageStorage = [PK_C_REQ_EXIT]) ↔
      (encoding PK_C_REQ_EXIT).length ≤ 200 ∧ NulFree PK_C_REQ_EXIT :=
  receive_transmitted_iff (fun _ _ => 0) PK_C_REQ_EXIT rfl (frame PK_C_REQ_EXIT)
    (terminal_transmits (by decide))

/-- A chat line of 189 bytes, with its 12 bytes of type and length. -/
theorem receive_long_chat :
    ¬ ∀ (packet : Packet) (bytes : List UInt8), packet.Known → packet.NulFree →
      Transmits packet bytes → ∃ finish, receive (fun _ _ => 0) accepted bytes = .ok finish ∧
        finish.packageStorage = [packet] := by
  intro agree
  have counted : (List.replicate 189 (97 : UInt8)).length = 189 := List.length_replicate
  have noNul : (0 : UInt8) ∉ List.replicate 189 (97 : UInt8) := by
    rw [List.mem_replicate]
    rintro ⟨-, same⟩
    exact absurd same (by decide)
  generalize List.replicate 189 (97 : UInt8) = text at counted noNul
  have length : (encoding (.PK_C_REQ_CHATTING text)).length = 201 := by
    simp [encoding, payload, fields, Field.bytes, Field.pieces, Stream.encodeStr, counted]
  have transmits : Transmits (.PK_C_REQ_CHATTING text) (frame (.PK_C_REQ_CHATTING text)) :=
    terminal_transmits (by rw [length]; decide)
  obtain ⟨finish, received, -⟩ := agree (.PK_C_REQ_CHATTING text) _ rfl
    (by simpa [NulFree, fields] using noNul) transmits
  rw [receive_too_long _ transmits (by omega)] at received
  contradiction

end IOCPSession

end GraduationServer
