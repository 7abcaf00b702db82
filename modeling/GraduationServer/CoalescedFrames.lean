import GraduationServer.ReceiverAgreement

/-!
One completion that holds several frames and the start of another. The loop of
`onRecv` takes the frames one by one, as long as `decode` throws on none.
-/

namespace GraduationServer

def typeOf (frame : List UInt8) : Nat := LittleEndian.decode ((frame.drop 4).take 8)

namespace IOCPSession

/-- Frames of known classes, and behind them a part of another such frame. -/
structure Coalesced (frames : List (List UInt8)) (rest : List UInt8) : Prop where
  known : ∀ frame ∈ frames, KnownFrame frame
  some_frame : frames ≠ []
  started : ∃ next, KnownFrame next ∧ rest <+: next ∧ rest.length < next.length
  fits : (frames.flatten ++ rest).length ≤ SOCKET_BUF_SIZE

/-- The packet is what the analyzer makes of the bytes behind the length, with
anything in the lengths of strings before they are read. -/
def DecodedFrom (frame : List UInt8) (packet : Packet) : Prop :=
  ∃ unset, PacketAnalyzer.analyzer unset (frame.drop 4) (frame.length - 4) = .ok (some packet)

/-- The session has taken the frames and keeps the rest, and waits as at its start. -/
structure SplitInto (session next : IOCPSession) (frames : List (List UInt8))
    (rest : List UInt8) : Prop where
  packets : ∃ packets, List.Forall₂ DecodedFrom frames packets ∧
    next.packageStorage = session.packageStorage ++ packets
  left : next.main_buffer_ = rest
  cleared : next.ioRead = IoData.clear
  posted : next.socket = { session.socket with posted := { buf := 0, len := SOCKET_BUF_SIZE } }

def Splits (session : IOCPSession) (frames : List (List UInt8)) (rest : List UInt8) : Prop :=
  ∀ unset, ∃ next, receive unset session (frames.flatten ++ rest) = .ok next ∧
    SplitInto session next frames rest

theorem incomplete_of_known {rest next : List UInt8} (known : KnownFrame next)
    (start : rest <+: next) (short : rest.length < next.length) : Incomplete rest := by
  by_cases unread : rest.length < 8
  · exact Or.inl unread
  · obtain ⟨more, rfl⟩ := start
    have header := known.header
    rw [List.take_append_of_le_length (by omega)] at header
    exact Or.inr (by omega)

theorem analyzer_frame_iff {frame : List UInt8} (known : KnownFrame frame) (unset : Nat → Int32) :
    (∃ packet, PacketAnalyzer.analyzer unset (frame.drop 4) (frame.length - 4) =
      .ok (some packet)) ↔ ¬ DecodeThrows unset (typeOf frame) (frame.drop 12) := by
  obtain ⟨fresh, built⟩ := Option.isSome_iff_exists.mp known.known
  have length := known.length_eq
  have short := known.short
  have row := known.row []
  rw [List.append_nil, List.append_nil] at row
  have size : frame.length - 4 = 8 + (frame.drop 12).length := by omega
  have small : (frame.drop 12).length ≤ SOCKET_BUF_SIZE := by
    rw [SOCKET_BUF_SIZE]
    omega
  rw [row, size, analyzer_returns_iff unset built]
  simp only [small, true_and, typeOf]

theorem extract_frame (unset : Nat → Nat → Int32) {frame : List UInt8} (known : KnownFrame frame)
    (rest : List UInt8) (packageStorage : List Packet) (fuel : Nat) :
    extract unset 4 (fuel + 1) (frame ++ rest) packageStorage =
      (PacketAnalyzer.analyzer (unset fuel) (frame.drop 4) (frame.length - 4)).bind fun
        | none => .error .nullPointer
        | some packet => extract unset 4 fuel rest (packageStorage ++ [packet]) := by
  have typed := known.typed
  have short := known.short
  have length : (frame ++ rest).length = frame.length + rest.length := List.length_append
  have large : ¬ (frame ++ rest).length < 8 := by omega
  have whole : ¬ (frame ++ rest).length < frame.length := by omega
  have counted : ¬ frame.length < 4 := by omega
  have room : ¬ 200 < frame.length - 4 := by omega
  have header : LittleEndian.decode ((frame ++ rest).take 4) = frame.length := by
    rw [List.take_append_of_le_length (by omega), known.header]
  have row : ((frame ++ rest).drop 4).take (frame.length - 4) = frame.drop 4 := by
    rw [List.drop_append_of_le_length (by omega), List.take_append_of_le_length (by simp),
      List.take_of_length_le (by simp)]
  rw [extract, if_neg large]
  simp only [header, whole, if_false, takePacket, counted, room, row, List.drop_left]
  cases PacketAnalyzer.analyzer (unset fuel) (frame.drop 4) (frame.length - 4) with
  | error reason => rfl
  | ok result => cases result <;> rfl

theorem extract_split (unset : Nat → Nat → Int32) {frames : List (List UInt8)}
    {rest : List UInt8} (known : ∀ frame ∈ frames, KnownFrame frame) (incomplete : Incomplete rest)
    (returns : ∀ frame ∈ frames, ∀ lengths, ¬ DecodeThrows lengths (typeOf frame) (frame.drop 12))
    (packageStorage : List Packet) {fuel : Nat}
    (enough : (frames.flatten ++ rest).length < fuel) :
    ∃ packets, List.Forall₂ DecodedFrom frames packets ∧
      extract unset 4 fuel (frames.flatten ++ rest) packageStorage =
        .ok (rest, packageStorage ++ packets) := by
  induction frames generalizing fuel packageStorage with
  | nil =>
      obtain ⟨fuel, rfl⟩ : ∃ less, fuel = less + 1 := ⟨fuel - 1, by omega⟩
      exact ⟨[], .nil, by simpa using extract_incomplete unset 4 fuel packageStorage incomplete⟩
  | cons frame frames ih =>
      obtain ⟨fuel, rfl⟩ : ∃ less, fuel = less + 1 := ⟨fuel - 1, by omega⟩
      have first := known frame List.mem_cons_self
      have typed := first.typed
      rw [List.flatten_cons, List.append_assoc] at enough ⊢
      rw [List.length_append] at enough
      obtain ⟨packet, analyzed⟩ :=
        (analyzer_frame_iff first (unset fuel)).mpr (returns frame List.mem_cons_self (unset fuel))
      obtain ⟨packets, decoded, others⟩ := ih
        (fun later member => known later (List.mem_cons_of_mem _ member))
        (fun later member => returns later (List.mem_cons_of_mem _ member))
        (packageStorage ++ [packet]) (by omega : (frames.flatten ++ rest).length < fuel)
      refine ⟨packet :: packets, .cons ⟨unset fuel, analyzed⟩ decoded, ?_⟩
      rw [extract_frame unset first, analyzed]
      simp only [Except.bind, others, List.append_assoc, List.singleton_append]

theorem extract_returns {lengths : Nat → Int32} {frames : List (List UInt8)} {rest : List UInt8}
    {packageStorage : List Packet} {fuel : Nat} {result : List UInt8 × List Packet}
    (known : ∀ frame ∈ frames, KnownFrame frame)
    (done : extract (fun _ => lengths) 4 fuel (frames.flatten ++ rest) packageStorage =
      .ok result) :
    ∀ frame ∈ frames, ¬ DecodeThrows lengths (typeOf frame) (frame.drop 12) := by
  induction frames generalizing fuel packageStorage with
  | nil => simp
  | cons frame frames ih =>
      have first := known frame List.mem_cons_self
      cases fuel with
      | zero => cases done
      | succ fuel =>
          rw [List.flatten_cons, List.append_assoc, extract_frame _ first] at done
          obtain ⟨built, analyzed, done⟩ := Exec.bind_ok done
          cases built with
          | none => cases done
          | some packet =>
              intro later member
              rcases List.mem_cons.mp member with rfl | inside
              · exact (analyzer_frame_iff first lengths).mp ⟨packet, analyzed⟩
              · exact ih (fun other there => known other (List.mem_cons_of_mem _ there)) done later
                  inside

theorem receive_coalesced (unset : Nat → Nat → Int32) {session : IOCPSession}
    (standing : Standing session) {frames : List (List UInt8)} {rest : List UInt8}
    (coalesced : Coalesced frames rest) :
    receive unset session (frames.flatten ++ rest) =
      (extract unset 4 ((frames.flatten ++ rest).length + 1) (frames.flatten ++ rest)
        session.packageStorage).bind fun result =>
          .ok (recvStandBy { session with
            main_buffer_ := result.1
            packageStorage := result.2 }) := by
  obtain ⟨frame, others, rfl⟩ := List.exists_cons_of_ne_nil coalesced.some_frame
  have first := coalesced.known frame List.mem_cons_self
  have typed := first.typed
  have start : (frame :: others).flatten ++ rest = frame ++ (others.flatten ++ rest) := by
    rw [List.flatten_cons, List.append_assoc]
  have longer : frame.length ≤ ((frame :: others).flatten ++ rest).length := by
    rw [start, List.length_append]
    omega
  have announced : toSize (IoData.packetLen { IoData.clear with
      buffer_ := (frame :: others).flatten ++ rest }) = frame.length := by
    rw [IoData.packetLen, ZeroFilled.read_inside (by simp only; omega), List.drop_zero]
    simp only [start]
    rw [List.take_append_of_le_length (by omega), first.header, first.toSize]
  exact receive_standing unset standing announced longer coalesced.fits

/-- The completion is split exactly where no frame leads a string back into its
payload by a negative length. -/
theorem splits_iff {session : IOCPSession} (standing : Standing session)
    {frames : List (List UInt8)} {rest : List UInt8} (coalesced : Coalesced frames rest) :
    Splits session frames rest ↔
      ∀ frame ∈ frames, ∀ lengths, ¬ DecodeThrows lengths (typeOf frame) (frame.drop 12) := by
  obtain ⟨next, following, start, short⟩ := coalesced.started
  constructor
  · intro splits frame member lengths
    obtain ⟨after, received, -⟩ := splits fun _ => lengths
    rw [receive_coalesced _ standing coalesced] at received
    obtain ⟨result, done, -⟩ := Exec.bind_ok received
    exact extract_returns coalesced.known done frame member
  · intro returns unset
    obtain ⟨packets, decoded, extracted⟩ := extract_split unset coalesced.known
      (incomplete_of_known following start short) returns session.packageStorage
      (Nat.lt_succ_self _)
    refine ⟨_, by rw [receive_coalesced unset standing coalesced, extracted]; rfl, ?_⟩
    exact { packets := ⟨packets, decoded, rfl⟩, left := rfl, cleared := rfl, posted := rfl }

def saysAndLeaves : List (List UInt8) :=
  [[18, 0, 0, 0, 142, 0, 0, 0, 0, 0, 0, 0, 2, 0, 0, 0, 104, 105],
    [12, 0, 0, 0, 128, 0, 0, 0, 0, 0, 0, 0]]

theorem saysAndLeaves_coalesced : Coalesced saysAndLeaves [18, 0, 0, 0, 142] := by
  have chatting : KnownFrame [18, 0, 0, 0, 142, 0, 0, 0, 0, 0, 0, 0, 2, 0, 0, 0, 104, 105] :=
    { header := by decide, typed := by decide, short := by decide, known := by decide }
  have exits : KnownFrame [12, 0, 0, 0, 128, 0, 0, 0, 0, 0, 0, 0] :=
    { header := by decide, typed := by decide, short := by decide, known := by decide }
  exact
    { known := by simp [saysAndLeaves, chatting, exits]
      some_frame := by simp [saysAndLeaves]
      started := ⟨_, chatting, by decide, by decide⟩
      fits := by decide }

theorem splits_iff_exit : Splits accepted saysAndLeaves [18, 0, 0, 0, 142] := by
  refine (splits_iff accepted_standing saysAndLeaves_coalesced).mpr ?_
  rintro frame member lengths ⟨fresh, built, throws⟩
  simp only [saysAndLeaves, List.mem_cons, List.not_mem_nil, or_false] at member
  rcases member with rfl | rfl
  · obtain rfl : Packet.PK_C_REQ_CHATTING [] = fresh := Option.some.inj built
    have positive : ¬ lengthAt (lengths 0) [2, 0, 0, 0, 104, 105] < 0 := by
      rw [show lengthAt (lengths 0) [2, 0, 0, 0, 104, 105] = 2 from rfl]
      decide
    exact throws.elim (fun negative => positive negative.1) id
  · obtain rfl : Packet.PK_C_REQ_EXIT = fresh := Option.some.inj built
    exact throws

/-- Something is said in a string of -4 characters, which end before the length. -/
theorem chatting_not_split :
    ¬ ∀ session frames rest, Standing session → Coalesced frames rest →
      Splits session frames rest := by
  intro every
  have chatting : KnownFrame [16, 0, 0, 0, 142, 0, 0, 0, 0, 0, 0, 0, 252, 255, 255, 255] :=
    { header := by decide, typed := by decide, short := by decide, known := by decide }
  have alone : Coalesced [[16, 0, 0, 0, 142, 0, 0, 0, 0, 0, 0, 0, 252, 255, 255, 255]] [] :=
    { known := by simpa using chatting
      some_frame := by simp
      started := ⟨_, chatting, by decide, by decide⟩
      fits := by decide }
  obtain ⟨next, received, -⟩ := every accepted _ _ accepted_standing alone fun _ _ => 0
  have thrown : (receive (fun _ _ => 0) accepted
      [16, 0, 0, 0, 142, 0, 0, 0, 0, 0, 0, 0, 252, 255, 255, 255]).toOption.map
        packageStorage = none := by decide
  have same : (receive (fun _ _ => 0) accepted
      [16, 0, 0, 0, 142, 0, 0, 0, 0, 0, 0, 0, 252, 255, 255, 255]) = .ok next := received
  rw [same] at thrown
  cases thrown

end IOCPSession

end GraduationServer
