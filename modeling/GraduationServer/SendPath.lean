import GraduationServer.IOCPSession
import GraduationServer.Library.Runs

/-!
The send path of a session. `sendPacket` fills the one write buffer and starts
with the first `stream.size()` bytes of the frame; the completions send the
rest from the same buffer. As long as each call waits for the frame before it,
the wire carries the frames in call order.
-/

namespace GraduationServer

open Packet

namespace IOCPSession

inductive SendEvent where
  | call (packet : Packet)
  | completion (transferSize : Nat)

def sendStep (session : IOCPSession) : SendEvent → Exec IOCPSession
  | .call packet => session.sendPacket packet
  | .completion transferSize => session.complete transferSize

def called (events : List SendEvent) : List Packet :=
  events.filterMap fun
    | .call packet => some packet
    | .completion _ => none

def Possible (session : IOCPSession) : SendEvent → Prop
  | .call packet => 4 + (packet.encode Stream.initial).size ≤ SOCKET_BUF_SIZE
  | .completion transferSize =>
      0 < transferSize ∧ transferSize ≤ (session.socket.pending.headD []).length

def Alone (session : IOCPSession) : SendEvent → Prop
  | .call _ => session.socket.pending = []
  | .completion _ => True

instance (session : IOCPSession) : ∀ event, Decidable (session.Possible event)
  | .call _ => Nat.decLe _ _
  | .completion _ => inferInstanceAs (Decidable (_ ∧ _))

instance (session : IOCPSession) : ∀ event, Decidable (session.Alone event)
  | .call _ => inferInstanceAs (Decidable (session.socket.pending = []))
  | .completion _ => .isTrue trivial

/-- The bytes due are on the wire, or at most one send is pending and the wire
with what the write buffer still holds makes them up. -/
inductive Sending (due : List UInt8) (session : IOCPSession) : Prop
  | idle : session.socket.pending = [] → session.socket.wire = due → Sending due session
  | busy (bytes rest : List UInt8) : session.socket.pending = [bytes] → bytes ≠ [] →
      session.ioWrite.buffer_.length = session.ioWrite.totalBytes_ →
      session.ioWrite.totalBytes_ ≤ SOCKET_BUF_SIZE →
      session.ioWrite.buffer_.drop session.ioWrite.currentBytes_ = bytes ++ rest →
      session.socket.wire ++ (bytes ++ rest) = due → Sending due session

theorem sentFrame_length (packet : Packet) :
    packet.sentFrame.length = 4 + (packet.encode Stream.initial).size := by
  simp [sentFrame, Stream.size]

theorem sendPacket_eq {session : IOCPSession} {packet : Packet}
    (fits : 4 + (packet.encode Stream.initial).size ≤ SOCKET_BUF_SIZE) :
    session.sendPacket packet = .ok { session with
      ioWrite := {
        totalBytes_ := 4 + (packet.encode Stream.initial).size
        currentBytes_ := 0
        buffer_ := packet.sentFrame }
      socket := { session.socket with
        pending := session.socket.pending ++
          [packet.sentFrame.take (packet.encode Stream.initial).size] } } := by
  have notTooBig : ¬ SOCKET_BUF_SIZE ≤ (packet.encode Stream.initial).size := by omega
  have inside : ¬ SOCKET_BUF_SIZE < 4 + (packet.encode Stream.initial).size := by omega
  have room : ¬ SOCKET_BUF_SIZE < (packet.encode Stream.initial).size := by omega
  have bytes : ZeroFilled.read packet.sentFrame 0 (packet.encode Stream.initial).size =
      (packet.sentFrame.drop 0).take (packet.encode Stream.initial).size := by
    apply ZeroFilled.read_inside
    rw [sentFrame_length]
    omega
  simp only [sentFrame, List.drop_zero] at bytes ⊢
  simp [sendPacket, IoData.setData, notTooBig, inside, send, room, bytes, bind, Except.bind]

theorem sendPacket_sending {session : IOCPSession} {packet : Packet} {due : List UInt8}
    (sending : Sending due session) (alone : session.socket.pending = [])
    (fits : 4 + (packet.encode Stream.initial).size ≤ SOCKET_BUF_SIZE) :
    ∃ next, session.sendPacket packet = .ok next ∧ Sending (due ++ packet.sentFrame) next := by
  have wire : session.socket.wire = due := by
    cases sending with
    | idle _ wire => exact wire
    | busy bytes rest pending => simp [alone] at pending
  have length := sentFrame_length packet
  have something : 0 < (packet.encode Stream.initial).size := by
    have size := packet.encode_size
    rw [encoding_length, SOCKET_BUF_SIZE] at size
    omega
  refine ⟨_, sendPacket_eq fits, ?_⟩
  apply Sending.busy (packet.sentFrame.take (packet.encode Stream.initial).size)
    (packet.sentFrame.drop (packet.encode Stream.initial).size)
  · simp [alone]
  · apply List.ne_nil_of_length_pos
    rw [List.length_take]
    omega
  · exact length
  · exact fits
  · simp
  · simp [wire]

theorem complete_sending {session : IOCPSession} {transferSize : Nat} {due : List UInt8}
    (sending : Sending due session)
    (possible : session.Possible (.completion transferSize)) :
    ∃ next, session.complete transferSize = .ok next ∧ Sending due next := by
  obtain ⟨positive, short⟩ := possible
  cases sending with
  | idle pending wire =>
      simp only [pending, List.headD_nil, List.length_nil] at short
      omega
  | busy bytes rest pending nonempty stored bounded held wire =>
      simp only [pending, List.headD_cons] at short
      have length := congrArg List.length held
      simp only [List.length_drop, List.length_append, SOCKET_BUF_SIZE] at length bounded
      generalize currentEq : session.ioWrite.currentBytes_ + transferSize = current
      have exact_sum : (session.ioWrite.currentBytes_ + transferSize) % sizeRange = current := by
        rw [← currentEq, Nat.mod_eq_of_lt (by simp only [sizeRange]; omega)]
      have left : session.ioWrite.buffer_.drop current = bytes.drop transferSize ++ rest := by
        rw [← currentEq, ← List.drop_drop, held, List.drop_append_of_le_length short]
      have sent : session.socket.wire ++ bytes.take transferSize ++
          (bytes.drop transferSize ++ rest) = due := by
        simp only [← wire, List.append_assoc, List.append_cancel_left_eq]
        rw [← List.append_assoc, List.take_append_drop]
      by_cases more : current < session.ioWrite.totalBytes_
      · have len : (session.ioWrite.totalBytes_ + sizeRange - current) % sizeRange % 2 ^ 32 =
            session.ioWrite.totalBytes_ - current := by
          simp only [sizeRange]
          omega
        have inside : ¬ SOCKET_BUF_SIZE < current + (session.ioWrite.totalBytes_ - current) := by
          simp only [SOCKET_BUF_SIZE]
          omega
        have tail : ZeroFilled.read session.ioWrite.buffer_ current
            (session.ioWrite.totalBytes_ - current) = session.ioWrite.buffer_.drop current := by
          rw [ZeroFilled.read_inside (by omega), List.take_of_length_le]
          rw [List.length_drop]
          omega
        have taken : session.complete transferSize = .ok { session with
            ioWrite := { session.ioWrite with currentBytes_ := current }
            socket := { session.socket with
              pending := [session.ioWrite.buffer_.drop current]
              wire := session.socket.wire ++ bytes.take transferSize } } := by
          simp only [complete, pending, positive, short, and_self, if_true, onSend,
            IoData.needMoreIO, exact_sum, more, decide_true, IoData.wsabuf, len, send, inside,
            if_false, tail, List.nil_append]
        refine ⟨_, taken, ?_⟩
        refine Sending.busy _ [] rfl ?_ stored bounded (by simp) (by simpa [left] using sent)
        apply List.ne_nil_of_length_pos
        rw [List.length_drop]
        omega
      · have finished : session.ioWrite.buffer_.drop current = [] :=
          List.drop_of_length_le (by omega)
        have taken : session.complete transferSize = .ok { session with
            ioWrite := { session.ioWrite with currentBytes_ := current }
            socket := { session.socket with
              pending := []
              wire := session.socket.wire ++ bytes.take transferSize } } := by
          simp only [complete, pending, positive, short, and_self, if_true, onSend,
            IoData.needMoreIO, exact_sum, more, decide_false, Bool.false_eq_true, if_false]
        refine ⟨_, taken, ?_⟩
        refine Sending.idle rfl ?_
        rw [finished] at left
        simpa [← left] using sent

theorem sending_run {events : List SendEvent} {session : IOCPSession} {due : List UInt8}
    (sending : Sending due session)
    (possible : Runs.Offered sendStep Possible session events)
    (alone : Runs.Throughout sendStep Alone session events) :
    ∃ finish, Runs.run sendStep session events = .ok finish ∧
      Sending (due ++ (called events).flatMap sentFrame) finish := by
  induction events generalizing session due with
  | nil => exact ⟨session, rfl, by simpa [called] using sending⟩
  | cons event events ih =>
      obtain ⟨first, possible⟩ := possible
      cases event with
      | call packet =>
          have taken : ∃ next, session.sendPacket packet = .ok next := ⟨_, sendPacket_eq first⟩
          obtain ⟨next, taken⟩ := taken
          obtain ⟨idle, alone⟩ := alone next taken
          obtain ⟨same, again, sending⟩ := sendPacket_sending sending idle first
          rw [taken, Except.ok.injEq] at again
          subst again
          obtain ⟨finish, reached, finished⟩ := ih sending (possible next taken) alone
          refine ⟨finish, ?_, ?_⟩
          · rw [Runs.run_cons, sendStep, taken]
            exact reached
          · simpa [called] using finished
      | completion transferSize =>
          obtain ⟨next, taken, sending⟩ := complete_sending sending first
          obtain ⟨-, alone⟩ := alone next taken
          obtain ⟨finish, reached, finished⟩ := ih sending (possible next taken) alone
          refine ⟨finish, ?_, ?_⟩
          · rw [Runs.run_cons, sendStep, taken]
            exact reached
          · simpa [called] using finished

/-- With no call made while a send is pending, the wire always carries a start
of the frames in call order, and all of them when no send is pending. -/
theorem sendPacket_in_order (session : IOCPSession) (events : List SendEvent)
    (idle : session.socket.pending = [])
    (possible : Runs.Offered sendStep Possible session events)
    (alone : Runs.Throughout sendStep Alone session events) :
    ∃ finish, Runs.run sendStep session events = .ok finish ∧
      finish.socket.wire <+: session.socket.wire ++ (called events).flatMap sentFrame ∧
      (finish.socket.pending = [] →
        finish.socket.wire = session.socket.wire ++ (called events).flatMap sentFrame) := by
  obtain ⟨finish, reached, sending⟩ := sending_run (Sending.idle idle rfl) possible alone
  refine ⟨finish, reached, ?_⟩
  cases sending with
  | idle _ wire => exact ⟨wire ▸ List.prefix_refl _, fun _ => wire⟩
  | busy bytes rest pending _ _ _ _ wire =>
      refine ⟨⟨bytes ++ rest, wire⟩, ?_⟩
      intro none_pending
      simp [none_pending] at pending

theorem sendPacket_in_order_exit :
    ∃ finish, Runs.run sendStep accepted
        [.call PK_C_REQ_EXIT, .completion 3, .completion 9, .call PK_S_ANS_EXIT] = .ok finish ∧
      finish.socket.wire <+: [PK_C_REQ_EXIT, PK_S_ANS_EXIT].flatMap sentFrame ∧
      (finish.socket.pending = [] →
        finish.socket.wire = [PK_C_REQ_EXIT, PK_S_ANS_EXIT].flatMap sentFrame) :=
  sendPacket_in_order accepted
    [.call PK_C_REQ_EXIT, .completion 3, .completion 9, .call PK_S_ANS_EXIT] rfl
    (by decide) (by decide)

/-- Two calls in a row: the second takes the write buffer before the first
frame's last four bytes are sent. -/
theorem sendPacket_twice_exit :
    ¬ ∀ events : List SendEvent, Runs.Offered sendStep Possible accepted events →
      ∃ finish, Runs.run sendStep accepted events = .ok finish ∧
        (finish.socket.pending = [] →
          finish.socket.wire = (called events).flatMap sentFrame) := by
  intro ordered
  let events : List SendEvent := [.call PK_C_REQ_EXIT, .call PK_C_REQ_EXIT, .completion 8,
    .completion 8, .completion 4]
  obtain ⟨finish, reached, wire⟩ := ordered events (by decide)
  have computed : (Runs.run sendStep accepted events).toOption.map
      (fun session => (session.socket.pending, session.socket.wire.length)) = some ([], 20) := by
    decide
  obtain ⟨session, same, view⟩ := Runs.run_view computed
  rw [reached] at same
  cases same
  obtain ⟨settled, length⟩ := Prod.mk.inj view
  have expected : ((called events).flatMap sentFrame).length = 24 := by decide
  rw [← wire settled, length] at expected
  contradiction

end IOCPSession

end GraduationServer
