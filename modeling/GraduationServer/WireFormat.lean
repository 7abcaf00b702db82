import GraduationServer.TerminalSession

/-!
Both senders put the same bytes on the wire. `TerminalSession::sendPacket`
gives the whole frame to one `::send`; `IOCPSession::sendPacket` starts with as
many bytes as the encoding has, and `onSend` sends what is left after each
completion.
-/

namespace GraduationServer

open Packet

namespace IOCPSession

def Reports (session : IOCPSession) (transferSize : Nat) : Prop :=
  session.Possible (.completion transferSize)

instance (session : IOCPSession) (transferSize : Nat) :
    Decidable (session.Reports transferSize) :=
  inferInstanceAs (Decidable (session.Possible _))

theorem complete_counts {session next : IOCPSession} {transferSize : Nat}
    (taken : session.complete transferSize = .ok next) :
    next.socket.wire.length = session.socket.wire.length + transferSize := by
  obtain ⟨positive, short⟩ := possible_of_complete taken
  cases pending : session.socket.pending with
  | nil => simp [complete, pending] at taken
  | cons bytes later =>
      rw [pending, List.headD_cons] at short
      have sent : next.socket.wire = session.socket.wire ++ bytes.take transferSize := by
        simp only [complete, pending, positive, short, and_self, if_true, onSend, send] at taken
        split at taken
        · split at taken
          · simp at taken
          · cases taken
            rfl
        · cases taken
          rfl
      rw [sent, List.length_append, List.length_take, Nat.min_eq_left short]

theorem completions_sending {counts : List Nat} {session : IOCPSession} {due : List UInt8}
    (sending : Sending due session) (reports : Runs.Offered complete Reports session counts) :
    ∃ finish, Runs.run complete session counts = .ok finish ∧ Sending due finish ∧
      finish.socket.wire.length = session.socket.wire.length + counts.sum := by
  induction counts generalizing session with
  | nil => exact ⟨session, rfl, sending, rfl⟩
  | cons transferSize counts ih =>
      obtain ⟨first, later⟩ := reports
      obtain ⟨next, taken, kept⟩ := complete_sending sending first
      obtain ⟨finish, reached, finished, length⟩ := ih kept (later next taken)
      refine ⟨finish, ?_, finished, ?_⟩
      · rw [Runs.run_cons, taken]
        exact reached
      · rw [length, complete_counts taken, List.sum_cons, Nat.add_assoc]

theorem Sending.wire_start {due : List UInt8} {session : IOCPSession}
    (sending : Sending due session) : session.socket.wire <+: due := by
  cases sending with
  | idle _ wire => exact wire ▸ List.prefix_refl _
  | busy bytes rest _ _ _ _ _ wire => exact ⟨bytes ++ rest, wire⟩

theorem Sending.idle_iff {due : List UInt8} {session : IOCPSession}
    (sending : Sending due session) :
    session.socket.pending = [] ↔ session.socket.wire.length = due.length := by
  cases sending with
  | idle pending wire => simp [pending, wire]
  | busy bytes rest pending nonempty _ _ _ wire =>
      have some_bytes := List.length_pos_iff.mpr nonempty
      have length := congrArg List.length wire
      simp only [List.length_append] at length
      constructor
      · intro nothing
        simp [nothing] at pending
      · intro all
        omega

/-- After `sendPacket` of a packet that fits, every possible sequence of
completions carries the frame that `::send` is given on a terminal, byte by
byte, and `onSend` is done exactly when all of it is on the wire. -/
theorem one_wire_format (packet : Packet) (session : IOCPSession)
    (fits : packet.encoding.length + 8 ≤ SOCKET_BUF_SIZE) (idle : session.socket.pending = []) :
    TerminalSession.sendPacket packet = .ok packet.frame ∧
      ∃ sent, session.sendPacket packet = .ok sent ∧
        sent.socket.pending = [packet.frame.take packet.encoding.length] ∧
        ∀ counts, Runs.Offered complete Reports sent counts →
          ∃ finish, Runs.run complete sent counts = .ok finish ∧
            counts.sum ≤ packet.frame.length ∧
            finish.socket.wire = session.socket.wire ++ packet.frame.take counts.sum ∧
            (finish.socket.pending = [] ↔ counts.sum = packet.frame.length) := by
  have size : (packet.encode Stream.initial).size = packet.encoding.length := by
    rw [encode_fits (by omega)]
    rfl
  have same : packet.sentFrame = packet.frame := sentFrame_eq_frame (by omega)
  have room : 4 + (packet.encode Stream.initial).size ≤ SOCKET_BUF_SIZE := by omega
  refine ⟨terminal_sends (by omega), _, sendPacket_eq room, ?_, ?_⟩
  · simp [idle, same, size]
  · intro counts reports
    obtain ⟨next, called, sending⟩ := sendPacket_sending (Sending.idle idle rfl) idle room
    rw [sendPacket_eq room, Except.ok.injEq] at called
    rw [same] at sending
    rw [called] at reports ⊢
    obtain ⟨finish, reached, finished, length⟩ := completions_sending sending reports
    have untouched : next.socket.wire = session.socket.wire := by rw [← called]
    rw [untouched] at length
    have start := finished.wire_start
    have short := start.length_le
    rw [length, List.length_append] at short
    refine ⟨finish, reached, by omega, ?_, ?_⟩
    · rw [List.prefix_iff_eq_take.mp start, length, List.take_append,
        List.take_of_length_le (by omega), Nat.add_sub_cancel_left]
    · rw [finished.idle_iff, length, List.length_append, Nat.add_left_cancel_iff]

theorem one_wire_format_exit :
    TerminalSession.sendPacket PK_C_REQ_EXIT = .ok (frame PK_C_REQ_EXIT) ∧
      ∃ sent, accepted.sendPacket PK_C_REQ_EXIT = .ok sent ∧
        sent.socket.pending = [(frame PK_C_REQ_EXIT).take (encoding PK_C_REQ_EXIT).length] ∧
        ∀ counts, Runs.Offered complete Reports sent counts →
          ∃ finish, Runs.run complete sent counts = .ok finish ∧
            counts.sum ≤ (frame PK_C_REQ_EXIT).length ∧
            finish.socket.wire = accepted.socket.wire ++ (frame PK_C_REQ_EXIT).take counts.sum ∧
            (finish.socket.pending = [] ↔ counts.sum = (frame PK_C_REQ_EXIT).length) :=
  one_wire_format PK_C_REQ_EXIT accepted (by decide) rfl

end IOCPSession

end GraduationServer
