import GraduationServer.ReceivePath

/-!
The receives that `isRecving` posts. `totalBytes_` is a sum of the length field
of the frame over the completions so far, and what it asks for is bounded only
where that sum is.
-/

namespace GraduationServer

namespace IOCPSession

structure Completion where
  unset : Nat → Nat → Int32
  chunk : List UInt8

def completeRead (session : IOCPSession) (completion : Completion) : Exec IOCPSession :=
  if session.Deliverable completion.chunk then
    session.receive completion.unset completion.chunk
  else .error .notEnabled

/-- The posted buffer begins where the next byte is due and ends in `buffer_`. -/
structure PostedInside (session : IOCPSession) : Prop where
  next : session.socket.posted.buf = session.ioRead.currentBytes_
  inside : session.socket.posted.buf + session.socket.posted.len ≤ SOCKET_BUF_SIZE

/-- The sum of lengths that a completion leads to is reached, or its low 32
bits lie between the bytes received and the size of the buffer. -/
def TotalBounded (session : IOCPSession) (completion : Completion) : Prop :=
  let currentBytes_ := session.ioRead.currentBytes_ + completion.chunk.length
  let totalBytes_ := (session.ioRead.totalBytes_ +
    toSize (session.filled completion.chunk).packetLen) % sizeRange
  currentBytes_ < totalBytes_ →
    currentBytes_ ≤ totalBytes_ % 2 ^ 32 ∧ totalBytes_ % 2 ^ 32 ≤ SOCKET_BUF_SIZE

theorem needMoreIO_order {data : IoData} {transferSize : Nat}
    (more : (data.needMoreIO transferSize).1 = true) :
    (data.needMoreIO transferSize).2.currentBytes_ ≤
      (data.needMoreIO transferSize).2.totalBytes_ := by
  simp only [IoData.needMoreIO, decide_eq_true_eq] at more ⊢
  exact Nat.le_of_lt more

theorem recvStandBy_posted (session : IOCPSession) : session.recvStandBy.PostedInside :=
  ⟨rfl, by simp [recvStandBy, recv]⟩

theorem receive_stands {unset : Nat → Nat → Int32} {session next : IOCPSession}
    {chunk : List UInt8} {total current : Nat}
    (fits : session.socket.posted.buf + chunk.length ≤ SOCKET_BUF_SIZE)
    (totalBytes : (session.ioRead.totalBytes_ + toSize (session.filled chunk).packetLen) %
      sizeRange = total)
    (currentBytes : (session.ioRead.currentBytes_ + chunk.length) % sizeRange = current)
    (enough : total ≤ current) (taken : receive unset session chunk = .ok next) :
    ∃ before, next = recvStandBy before := by
  by_cases outside : SOCKET_BUF_SIZE < current ∨ 0 < current ∧ session.main_buffer_ ≠ []
  · rw [receive_fault unset fits totalBytes currentBytes enough outside] at taken
    cases taken
  · obtain ⟨near, free⟩ := not_or.mp outside
    have unoccupied : current = 0 ∨ session.main_buffer_ = [] := by
      rcases Nat.eq_zero_or_pos current with zero | positive
      · exact Or.inl zero
      · exact Or.inr (by_contra fun occupied => free ⟨positive, occupied⟩)
    rw [receive_enough unset fits totalBytes currentBytes enough (Nat.le_of_not_lt near)
      unoccupied] at taken
    obtain ⟨result, _, stood⟩ := Exec.bind_ok taken
    exact ⟨_, (Except.ok.inj stood).symm⟩

theorem completeRead_posted {session next : IOCPSession} {completion : Completion}
    (posted : session.PostedInside) (taken : session.completeRead completion = .ok next) :
    next.PostedInside ↔ session.TotalBounded completion := by
  by_cases deliverable : session.Deliverable completion.chunk
  · rw [completeRead, if_pos deliverable] at taken
    obtain ⟨_, short⟩ := deliverable
    have fits : session.socket.posted.buf + completion.chunk.length ≤ SOCKET_BUF_SIZE := by
      have inside := posted.inside
      omega
    have near : session.ioRead.currentBytes_ + completion.chunk.length ≤ SOCKET_BUF_SIZE :=
      posted.next ▸ fits
    have current : (session.ioRead.currentBytes_ + completion.chunk.length) % sizeRange =
        session.ioRead.currentBytes_ + completion.chunk.length := by
      simp only [SOCKET_BUF_SIZE] at near
      simp only [sizeRange]
      omega
    simp only [TotalBounded]
    generalize total : (session.ioRead.totalBytes_ +
      toSize (session.filled completion.chunk).packetLen) % sizeRange = totalBytes_
    by_cases more : session.ioRead.currentBytes_ + completion.chunk.length < totalBytes_
    · rw [receive_more completion.unset fits total current more, Except.ok.injEq] at taken
      subst taken
      have bound : totalBytes_ < sizeRange := by
        rw [← total]
        exact Nat.mod_lt _ (by decide)
      simp only [more, forall_const, sizeRange, SOCKET_BUF_SIZE] at near bound ⊢
      constructor
      · intro posted
        have inside := posted.inside
        simp only [SOCKET_BUF_SIZE] at inside
        omega
      · intro bounded
        refine ⟨rfl, ?_⟩
        simp only [SOCKET_BUF_SIZE]
        omega
    · obtain ⟨before, rfl⟩ := receive_stands fits total current (Nat.le_of_not_lt more) taken
      simp [recvStandBy_posted before, more]
  · rw [completeRead, if_neg deliverable] at taken
    cases taken

/-- Every posted receive lies in the buffer in exactly the runs in which each
completion leaves a bounded total; the bytes received never exceed the total
that a receive is posted for. -/
theorem posted_inside_iff (session : IOCPSession) (completions : List Completion) :
    (Runs.Always completeRead PostedInside session.recvStandBy completions ↔
      Runs.Throughout completeRead TotalBounded session.recvStandBy completions) ∧
    ∀ (data : IoData) (transferSize : Nat), (data.needMoreIO transferSize).1 = true →
      (data.needMoreIO transferSize).2.currentBytes_ ≤
        (data.needMoreIO transferSize).2.totalBytes_ := by
  constructor
  · refine Runs.always_iff_throughout (fun _ _ _ _ _ _ => trivial) ?_ (fun _ _ => trivial) trivial
      (recvStandBy_posted session)
    intro before completion next _ _ posted taken
    exact completeRead_posted posted taken
  · intro data transferSize more
    exact needMoreIO_order more

/-- The first four bytes announce 20000 bytes. -/
theorem posted_outside :
    ¬ Runs.Always completeRead PostedInside accepted.recvStandBy
      [{ unset := fun _ _ => 0, chunk := [32, 78, 0, 0] }] := by
  intro always
  have deliverable : accepted.recvStandBy.Deliverable [32, 78, 0, 0] := ⟨by decide, by decide⟩
  have taken := @receive_more (fun _ _ => 0) accepted.recvStandBy [32, 78, 0, 0] 20000 4
    (by decide) rfl rfl (by decide)
  have posted := always.2 _ ((if_pos deliverable).trans taken)
  exact absurd posted.inside (by decide)

end IOCPSession

end GraduationServer
