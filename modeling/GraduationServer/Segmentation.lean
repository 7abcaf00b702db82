import GraduationServer.Misaligned

/-!
Which segmentations the terminal's receive loop survives. Every call starts
with an empty array, so a frame is found again only where a segment begins:
the packets come out exactly when no segment reaches past the end of a frame.
-/

namespace GraduationServer

open Packet

namespace TerminalSession

/-- A stream of frames as the network may cut it. A segment in which a frame
begins at the first byte has the frame's length whole. -/
structure Segmented (packets : List Packet) (chunks : List (List UInt8)) : Prop where
  known : ∀ packet ∈ packets, packet.Known
  fits : ∀ packet ∈ packets, packet.frame.length ≤ SOCKET_BUF_SIZE
  stream : chunks.flatten = frames packets
  nonempty : ∀ chunk ∈ chunks, chunk ≠ []
  begins : ∀ before chunk after done later, chunks = before ++ chunk :: after →
    packets = done ++ later → before.flatten = frames done → 4 ≤ chunk.length

/-- The loop puts exactly the packets on the queue, whatever its memory held. -/
def Delivers (chunks : List (List UInt8)) (packets : List Packet) : Prop :=
  ∀ unset memory turns, chunks.flatten.length < turns →
    packages unset memory turns chunks = .ok packets

def FrameAligned (packets : List Packet) (chunks : List (List UInt8)) : Prop :=
  ∃ groups : List (List (List UInt8)), chunks = groups.flatten ∧
    groups.map List.flatten = packets.map frame

/-- The packets that fit the array together with the four bytes that the
analyzer copies from behind them, and that a `char` buffer does not cut. -/
def Copied (packet : Packet) : Prop :=
  packet.frame.length + 4 ≤ SOCKET_BUF_SIZE ∧ packet.NulFree

namespace Segmented

theorem tail {packet : Packet} {packets : List Packet} {group later : List (List UInt8)}
    (segmented : Segmented (packet :: packets) (group ++ later))
    (whole : group.flatten = packet.frame) : Segmented packets later := by
  constructor
  · exact fun other member => segmented.known other (List.mem_cons_of_mem _ member)
  · exact fun other member => segmented.fits other (List.mem_cons_of_mem _ member)
  · have stream := segmented.stream
    rwa [List.flatten_append, whole, frames_cons, List.append_cancel_left_eq] at stream
  · exact fun chunk member => segmented.nonempty chunk (List.mem_append_right _ member)
  · intro before chunk after done rest cut listed start
    apply segmented.begins (group ++ before) chunk after (packet :: done) rest
    · rw [cut, List.append_assoc]
    · rw [listed, List.cons_append]
    · rw [List.flatten_append, whole, start, frames_cons]

theorem head {packets : List Packet} {chunk : List UInt8} {later : List (List UInt8)}
    (segmented : Segmented packets (chunk :: later)) : 4 ≤ chunk.length :=
  segmented.begins [] chunk later [] packets rfl rfl rfl

end Segmented

theorem frames_length_le (packets : List Packet) : packets.length ≤ (frames packets).length := by
  induction packets with
  | nil => exact Nat.le_refl _
  | cons packet packets ih =>
      rw [frames_cons, List.length_append, frame_length, List.length_cons]
      omega

theorem packages_aligned (unset : Nat → Nat → Int32) (memory : Nat → List UInt8)
    {packets : List Packet} {groups : List (List (List UInt8))} {turns : Nat}
    (segmented : Segmented packets groups.flatten)
    (aligned : groups.map List.flatten = packets.map frame)
    (copied : ∀ packet ∈ packets, Copied packet) (enough : packets.length < turns) :
    packages unset memory turns groups.flatten = .ok packets := by
  induction packets generalizing groups turns with
  | nil =>
      obtain ⟨turns, rfl⟩ : ∃ less, turns = less + 1 := ⟨turns - 1, by simp at enough; omega⟩
      rw [List.map_nil, List.map_eq_nil_iff] at aligned
      subst aligned
      rfl
  | cons packet packets ih =>
      obtain ⟨turns, rfl⟩ : ∃ less, turns = less + 1 := ⟨turns - 1, by simp at enough; omega⟩
      rw [List.map_cons, List.map_eq_cons_iff] at aligned
      obtain ⟨group, groups, rfl, whole, aligned⟩ := aligned
      rw [List.flatten_cons] at segmented ⊢
      obtain ⟨fits, nulFree⟩ := copied packet List.mem_cons_self
      have header : ∀ chunk ∈ group.head?, 4 ≤ chunk.length := by
        intro chunk member
        obtain ⟨others, rfl⟩ := List.head?_eq_some_iff.mp member
        exact segmented.head
      have call := onRecv_group (unset turns) (memory turns)
        (segmented.known packet List.mem_cons_self) fits
        (fun chunk member => segmented.nonempty chunk (List.mem_append_left _ member)) header whole
        groups.flatten
      rw [(cut_eq_self_iff packet).mpr nulFree] at call
      have rest := ih (segmented.tail whole) aligned
        (fun other member => copied other (List.mem_cons_of_mem _ member))
        (by simpa using enough)
      simp only [packages, call, rest, bind, Except.bind, pure, Except.pure]

theorem packages_cons {unset : Nat → Nat → Int32} {memory : Nat → List UInt8} {turns : Nat}
    {packet : Packet} {packets : List Packet} {chunks : List (List UInt8)}
    (given : packages unset memory turns chunks = .ok (packet :: packets)) :
    ∃ less later first more, turns = less + 1 ∧
      Consumed (unset less) (memory less) packet chunks later first more ∧
      packages unset memory less later = .ok packets := by
  cases turns with
  | zero => simp [packages] at given
  | succ less =>
      obtain ⟨result, call, rest⟩ := Exec.bind_ok given
      cases result with
      | waiting => simp [pure, Except.pure] at rest
      | nullptr => simp [pure, Except.pure] at rest
      | package other later =>
          obtain ⟨others, continued, same⟩ := Exec.bind_ok rest
          simp only [pure, Except.pure, Except.ok.injEq, List.cons.injEq] at same
          obtain ⟨rfl, rfl⟩ := same
          obtain ⟨first, more, consumed⟩ := onRecv_consumed call
          exact ⟨less, later, first, more, rfl, consumed, continued⟩

theorem lost {packets : List Packet} {missed : List UInt8} {chunks : List (List UInt8)}
    {turns : Nat} (fits : ∀ packet ∈ packets, packet.frame.length ≤ SOCKET_BUF_SIZE)
    (some_missed : missed ≠ []) (stream : missed ++ chunks.flatten = frames packets) :
    packages (fun _ _ => 0) (fun _ => []) turns chunks ≠ .ok packets := by
  induction packets generalizing missed chunks turns with
  | nil =>
      rw [frames_nil, List.append_eq_nil_iff] at stream
      exact absurd stream.1 some_missed
  | cons packet packets ih =>
      intro given
      obtain ⟨less, later, first, more, rfl, consumed, continued⟩ := packages_cons given
      have inFrame (behind : List UInt8) :
          missed ++ (first ++ more) ++ behind ≠ packet.frame := fun inside =>
        misaligned some_missed inside (fits packet List.mem_cons_self) consumed.analyzed
      rw [frames_cons, ← consumed.taken, ← List.append_assoc] at stream
      rcases List.append_eq_append_iff.mp stream with ⟨behind, inside, -⟩ | ⟨past, beyond, remaining⟩
      · exact inFrame behind inside.symm
      · by_cases exactly : past = []
        · exact inFrame [] (by rw [beyond, exactly, List.append_nil, List.append_nil])
        · exact ih (fun other member => fits other (List.mem_cons_of_mem _ member)) exactly
            remaining.symm continued

theorem consumed_frame {memory : List UInt8} {packet : Packet} {packets : List Packet}
    {chunks later : List (List UInt8)} {first more : List UInt8}
    (segmented : Segmented (packet :: packets) chunks)
    (consumed : Consumed (fun _ => 0) memory packet chunks later first more) :
    packetLen memory first = Int32.ofNat packet.frame.length ∧
      ∃ past, first ++ more = packet.frame ++ past ∧ past ++ later.flatten = frames packets := by
  have fits := segmented.fits packet List.mem_cons_self
  have stream := segmented.stream
  rw [← consumed.taken, frames_cons] at stream
  have header : 4 ≤ first.length := by
    obtain ⟨chunk, rest, rfl, rfl⟩ := consumed.segment
    have whole := segmented.head
    rw [List.length_take, SOCKET_BUF_SIZE]
    omega
  have announced : packetLen memory first = Int32.ofNat packet.frame.length :=
    packetLen_frame memory fits header ⟨frames packets, by rw [← stream, List.append_assoc]⟩
  refine ⟨announced, ?_⟩
  have enough := consumed.enough
  rw [announced, toInt_ofNat_frame fits] at enough
  rcases List.append_eq_append_iff.mp stream with ⟨behind, inside, rest⟩ | ⟨past, beyond, rest⟩
  · have nothing : behind = [] := by
      have length := congrArg List.length inside
      rw [List.length_append] at length
      exact List.eq_nil_of_length_eq_zero (by omega)
    rw [nothing, List.append_nil] at inside
    rw [nothing, List.nil_append] at rest
    exact ⟨[], by rw [inside, List.append_nil], by rw [List.nil_append, rest]⟩
  · exact ⟨past, beyond, rest.symm⟩

theorem aligned_of_packages {packets : List Packet} {chunks : List (List UInt8)} {turns : Nat}
    (segmented : Segmented packets chunks)
    (given : packages (fun _ _ => 0) (fun _ => []) turns chunks = .ok packets) :
    FrameAligned packets chunks ∧ ∀ packet ∈ packets, Copied packet := by
  induction packets generalizing chunks turns with
  | nil =>
      have stream := segmented.stream
      rw [frames_nil, List.flatten_eq_nil_iff] at stream
      have none_left : chunks = [] := by
        rw [List.eq_nil_iff_forall_not_mem]
        exact fun chunk member => segmented.nonempty chunk member (stream chunk member)
      exact ⟨⟨[], none_left, rfl⟩, by simp⟩
  | cons packet packets ih =>
      obtain ⟨less, later, first, more, rfl, consumed, continued⟩ := packages_cons given
      obtain ⟨announced, past, block, remaining⟩ := consumed_frame segmented consumed
      have nothing_past : past = [] := by
        by_contra beyond
        exact lost (fun other member => segmented.fits other (List.mem_cons_of_mem _ member)) beyond
          remaining continued
      rw [nothing_past, List.append_nil] at block
      have analyzed := consumed.analyzed
      rw [announced, block] at analyzed
      have fits : packet.frame.length + 4 ≤ SOCKET_BUF_SIZE := by
        by_contra beyond
        rw [analyze_over _ _ (segmented.known packet List.mem_cons_self)
          (segmented.fits packet List.mem_cons_self) (Nat.lt_of_not_le beyond)] at analyzed
        contradiction
      have nulFree : packet.NulFree := by
        rw [analyze_frame _ _ (segmented.known packet List.mem_cons_self) fits, Except.ok.injEq,
          Option.some.injEq] at analyzed
        exact (cut_eq_self_iff packet).mp analyzed
      obtain ⟨group, cut, whole⟩ := consumed.whole segmented.nonempty (by rw [block]; omega)
      rw [← List.cons_append] at cut
      have taken : (first :: group).flatten = packet.frame := by
        rw [List.flatten_cons, whole, block]
      rw [cut] at segmented
      obtain ⟨⟨groups, rfl, aligned⟩, copied⟩ := ih (segmented.tail taken) continued
      constructor
      · refine ⟨(first :: group) :: groups, cut, ?_⟩
        rw [List.map_cons, List.map_cons, taken, aligned]
      · intro other member
        rcases List.mem_cons.mp member with rfl | member
        · exact ⟨fits, nulFree⟩
        · exact copied other member

/-- The receive loop delivers the packets of a stream exactly when the
segments are aligned with its frames and every packet survives the copies. -/
theorem delivers_iff {packets : List Packet} {chunks : List (List UInt8)}
    (segmented : Segmented packets chunks) :
    Delivers chunks packets ↔
      FrameAligned packets chunks ∧ ∀ packet ∈ packets, Copied packet := by
  constructor
  · intro delivers
    exact aligned_of_packages segmented (delivers _ _ _ (Nat.lt_succ_self _))
  · rintro ⟨⟨groups, rfl, aligned⟩, copied⟩ unset memory turns enough
    apply packages_aligned unset memory segmented aligned copied
    have each := frames_length_le packets
    rw [segmented.stream] at enough
    omega

/-- A frame in two segments, and then one in a segment of its own. -/
theorem delivers_three_segments :
    Delivers [(frame PK_C_REQ_EXIT).take 5, (frame PK_C_REQ_EXIT).drop 5, frame PK_S_ANS_EXIT]
      [PK_C_REQ_EXIT, PK_S_ANS_EXIT] := by
  apply (delivers_iff ?_).mpr
  · refine ⟨⟨[[(frame PK_C_REQ_EXIT).take 5, (frame PK_C_REQ_EXIT).drop 5], [frame PK_S_ANS_EXIT]],
      rfl, by decide⟩, ?_⟩
    intro packet member
    simp only [List.mem_cons, List.not_mem_nil, or_false] at member
    rcases member with rfl | rfl
    · exact ⟨by decide, by simp [NulFree, fields]⟩
    · exact ⟨by decide, by simp [NulFree, fields]⟩
  · have long : ∀ chunk ∈ [(frame PK_C_REQ_EXIT).take 5, (frame PK_C_REQ_EXIT).drop 5,
        frame PK_S_ANS_EXIT], 4 ≤ chunk.length := by decide
    refine ⟨by decide, by decide, by decide, by decide, ?_⟩
    intro before chunk after _ _ cut _ _
    exact long chunk (by rw [cut]; simp)

/-- Two frames that arrive together: the second one is dropped with the array. -/
theorem delivers_merged :
    ¬ ∀ packets chunks, Segmented packets chunks → Delivers chunks packets := by
  intro every
  have segmented : Segmented [PK_C_REQ_EXIT, PK_S_ANS_EXIT]
      [frame PK_C_REQ_EXIT ++ frame PK_S_ANS_EXIT] := by
    refine ⟨by decide, by decide, by decide, by decide, ?_⟩
    intro before chunk after _ _ cut _ _
    have long : ∀ chunk ∈ [frame PK_C_REQ_EXIT ++ frame PK_S_ANS_EXIT], 4 ≤ chunk.length := by
      decide
    exact long chunk (by rw [cut]; simp)
  have dropped : packages (fun _ _ => 0) (fun _ => []) 25
      [frame PK_C_REQ_EXIT ++ frame PK_S_ANS_EXIT] = .ok [PK_C_REQ_EXIT] := rfl
  have delivered := every _ _ segmented (fun _ _ => 0) (fun _ => []) 25 (by decide)
  rw [dropped] at delivered
  contradiction

end TerminalSession

end GraduationServer
