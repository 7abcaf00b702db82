import GraduationServer.CompletePayload
import GraduationServer.InvalidPacket
import GraduationServer.TerminalReceive

/-!
One frame in the two receivers. `IOCPSession::onRecv` gives the analyzer the
bytes of the frame, and `TerminalSession::onRecv` four bytes more, so a read
that reaches the end of the payload can go another way in each.
-/

namespace GraduationServer

open GraduationServer.Stream (cursor)

inductive Kind where
  | byte | uint32 | uint64 | str
  deriving DecidableEq

def Field.kind : Field → Kind
  | .byte _ => .byte
  | .uint32 _ => .uint32
  | .uint64 _ => .uint64
  | .str _ => .str

def Packet.members (packet : Packet) : PacketType × List Kind :=
  (packet.type, packet.fields.map Field.kind)

/-- The classes are those of the factory, and the members of a new object hold anything. -/
def Constructs (getPacket : Nat → Option Packet) : Prop :=
  ∀ packetType, (getPacket packetType).map Packet.members =
    (PacketFactory.getPacket packetType).map Packet.members

def IOCPSession.analyzeWith (getPacket : Nat → Option Packet) (unset : Nat → Int32)
    (frame : List UInt8) : Exec (Option Packet) :=
  let packet_len := LittleEndian.decode (frame.take 4)
  PacketAnalyzer.analyzerWith getPacket unset ((frame.drop 4).take (packet_len - 4))
    (packet_len - 4)

def TerminalSession.analyzeWith (getPacket : Nat → Option Packet) (unset : Nat → Int32)
    (memory frame : List UInt8) : Exec (Option Packet) :=
  PacketAnalyzer.analyzerWith getPacket unset ((rowData memory frame).drop 4)
    (toSize (packetLen memory frame))

/-- A complete frame of a class that the factory builds, with any payload. -/
structure KnownFrame (frame : List UInt8) : Prop where
  header : LittleEndian.decode (frame.take 4) = frame.length
  typed : 12 ≤ frame.length
  short : frame.length ≤ 204
  known : (PacketFactory.getPacket (LittleEndian.decode ((frame.drop 4).take 8))).isSome

/-- Both receivers build a packet of one class with one content, whatever is in
the memory behind the frame and in the lengths of strings before they are read.
That the members assigned are the same shows in objects that start with anything. -/
structure Agree (frame : List UInt8) : Prop where
  packets : ∃ values, ∀ unset unset' memory, ∃ finish packet other,
    IOCPSession.receive unset IOCPSession.accepted frame = .ok finish ∧
    finish.packageStorage = [packet] ∧
    TerminalSession.onRecv unset' memory [frame] = .ok (.package other []) ∧
    packet.type = other.type ∧ packet.fields = values ∧ other.fields = values
  assigned : ∀ getPacket, Constructs getPacket → ∃ values, ∀ unset unset' memory, ∃ packet other,
    IOCPSession.analyzeWith getPacket unset frame = .ok (some packet) ∧
    TerminalSession.analyzeWith getPacket unset' memory frame = .ok (some other) ∧
    packet.type = other.type ∧ packet.fields = values ∧ other.fields = values

namespace Field

/-- The read goes the same way with up to four more bytes behind the rest of
`whole` bytes: it has room in both, or is too short for it in both. -/
def Settled (whole : Nat) (rest : List UInt8) : Field → Prop
  | .byte _ => 1 ≤ rest.length
  | .uint32 _ => 4 ≤ rest.length
  | .uint64 _ => 8 ≤ rest.length ∨ rest.length < 4
  | .str _ =>
      4 ≤ rest.length ∧
      if lengthAt 0 rest < 0 then whole < rest.length - 4 + (lengthAt 0 rest).toInt.natAbs
      else toSize (lengthAt 0 rest) ≤ rest.length - 4 ∨ rest.length < toSize (lengthAt 0 rest)

def AllSettled (whole : Nat) : List Field → List UInt8 → Prop
  | [], _ => True
  | field :: later, rest =>
      field.Settled whole rest ∧ AllSettled whole later (field.behind 0 rest)

def Marked : Field → Prop
  | .byte value => value = 0
  | .uint32 value => value = 0
  | .uint64 value => value = 0
  | .str value => value = [0]

end Field

namespace Stream

theorem get_settled {α : Type} {done rest : List UInt8}
    (small : (done ++ rest).length + 4 ≤ SOCKET_BUF_SIZE) {width : Nat} (narrow : width ≤ 8)
    (settled : width ≤ rest.length ∨ rest.length + 4 < width) (ofNat : Nat → α) (retVal : α) :
    ∃ value taken, taken ++ behind width rest = done ++ rest ∧
      ∀ extra : List UInt8, extra.length ≤ 4 →
        (cursor done (rest ++ extra)).get width ofNat retVal =
          (value, cursor taken (behind width rest ++ extra)) := by
  have fits (extra : List UInt8) (few : extra.length ≤ 4) :
      (done ++ (rest ++ extra)).length ≤ SOCKET_BUF_SIZE := by
    simp only [List.length_append] at small ⊢
    omega
  by_cases room : width ≤ rest.length
  · refine ⟨ofNat (LittleEndian.decode (rest.take width)), done ++ rest.take width, ?_, ?_⟩
    · simp only [behind, room, if_true, List.append_assoc, List.take_append_drop]
    · intro extra few
      have inside : width ≤ (rest ++ extra).length := by
        rw [List.length_append]
        omega
      rw [get_room (fits extra few) inside, List.take_append_of_le_length room,
        List.drop_append_of_le_length room, behind, if_pos room]
  · refine ⟨retVal, done, ?_, ?_⟩
    · simp only [behind, room, if_false]
    · intro extra few
      have short : (rest ++ extra).length < width := by
        rw [List.length_append]
        omega
      rw [get_short (fits extra few) narrow short, behind, if_neg room]

theorem strBody_settled {done rest : List UInt8}
    (small : (done ++ rest).length + 4 ≤ SOCKET_BUF_SIZE) {size : Int32} (positive : ¬ size < 0)
    (settled : toSize size ≤ rest.length ∨ rest.length + 4 < toSize size) (retVal : Str) :
    ∃ value taken, taken ++ behind (toSize size) rest = done ++ rest ∧
      ∀ extra : List UInt8, extra.length ≤ 4 →
        (cursor done (rest ++ extra)).strBody size retVal =
          .ok (value, cursor taken (behind (toSize size) rest ++ extra)) := by
  have fits (extra : List UInt8) (few : extra.length ≤ 4) :
      (done ++ (rest ++ extra)).length ≤ SOCKET_BUF_SIZE := by
    simp only [List.length_append] at small ⊢
    omega
  by_cases room : toSize size ≤ rest.length
  · refine ⟨cString (rest.take (toSize size)), done ++ rest.take (toSize size), ?_, ?_⟩
    · simp only [behind, room, if_true, List.append_assoc, List.take_append_drop]
    · intro extra few
      have inside : toSize size ≤ (rest ++ extra).length := by
        rw [List.length_append]
        omega
      rw [strBody_room (fits extra few) positive inside, List.take_append_of_le_length room,
        List.drop_append_of_le_length room, behind, if_pos room]
  · refine ⟨retVal, done, ?_, ?_⟩
    · simp only [behind, room, if_false]
    · intro extra few
      have short : (rest ++ extra).length < toSize size := by
        rw [List.length_append]
        omega
      rw [strBody_short (fits extra few) positive short, behind, if_neg room]

end Stream

namespace Field

theorem read_str_eq (unset : Int32) (stream : Stream) (retVal : Str) :
    read unset stream (.str retVal) =
      ((stream.get 4 Int32.ofNat unset).2.strBody (stream.get 4 Int32.ofNat unset).1 retVal).bind
        fun result => .ok (.str result.1, result.2) := rfl

theorem lengthAt_read {rest : List UInt8} (counted : 4 ≤ rest.length) (unset : Int32) :
    lengthAt unset rest = Int32.ofNat (LittleEndian.decode (rest.take 4)) := by
  rw [lengthAt, if_pos counted]

theorem read_settled {done rest : List UInt8}
    (small : (done ++ rest).length + 4 ≤ SOCKET_BUF_SIZE) {field : Field}
    (settled : field.Settled (done ++ rest).length rest) :
    ∃ value taken, taken ++ field.behind 0 rest = done ++ rest ∧
      ∀ extra : List UInt8, extra.length ≤ 4 → ∀ unset,
        field.read unset (cursor done (rest ++ extra)) =
          .ok (value, cursor taken (field.behind 0 rest ++ extra)) := by
  cases field with
  | byte retVal =>
      obtain ⟨value, taken, split, got⟩ := Stream.get_settled small (by decide : 1 ≤ 8)
        (Or.inl settled) UInt8.ofNat retVal
      refine ⟨.byte value, taken, split, fun extra few unset => ?_⟩
      simp only [read, Stream.getByte, got extra few]
      rfl
  | uint32 retVal =>
      obtain ⟨value, taken, split, got⟩ := Stream.get_settled small (by decide : 4 ≤ 8)
        (Or.inl settled) UInt32.ofNat retVal
      refine ⟨.uint32 value, taken, split, fun extra few unset => ?_⟩
      simp only [read, Stream.getUInt32, got extra few]
      rfl
  | uint64 retVal =>
      have far : 8 ≤ rest.length ∨ rest.length + 4 < 8 := settled.imp_right (by omega)
      obtain ⟨value, taken, split, got⟩ := Stream.get_settled small (by decide : 8 ≤ 8)
        far UInt64.ofNat retVal
      refine ⟨.uint64 value, taken, split, fun extra few unset => ?_⟩
      simp only [read, Stream.getUInt64, got extra few]
      rfl
  | str retVal =>
      obtain ⟨counted, body⟩ := settled
      have first : GraduationServer.behind 4 rest = rest.drop 4 := if_pos counted
      have length (extra : List UInt8) (few : extra.length ≤ 4) (unset : Int32) :
          (cursor done (rest ++ extra)).get 4 Int32.ofNat unset =
            (lengthAt 0 rest, cursor (done ++ rest.take 4) (rest.drop 4 ++ extra)) := by
        have inside : 4 ≤ (rest ++ extra).length := by
          rw [List.length_append]
          omega
        have fits : (done ++ (rest ++ extra)).length ≤ SOCKET_BUF_SIZE := by
          simp only [List.length_append] at small ⊢
          omega
        rw [Stream.get_room fits inside, List.take_append_of_le_length counted,
          List.drop_append_of_le_length counted, lengthAt_read counted]
      have whole : (done ++ rest.take 4) ++ rest.drop 4 = done ++ rest := by
        rw [List.append_assoc, List.take_append_drop]
      have still : ((done ++ rest.take 4) ++ rest.drop 4).length + 4 ≤ SOCKET_BUF_SIZE := by
        rw [whole]
        exact small
      by_cases negative : lengthAt 0 rest < 0
      · rw [if_pos negative] at body
        have far : ¬ (lengthAt 0 rest).toInt.natAbs ≤ (done ++ rest.take 4).length := by
          simp only [List.length_append, List.length_take] at body ⊢
          omega
        refine ⟨.str retVal, done ++ rest.take 4, ?_, fun extra few unset => ?_⟩
        · simp only [behind, negative, if_true, first, whole]
        · have fits : ((done ++ rest.take 4) ++ (rest.drop 4 ++ extra)).length ≤
              SOCKET_BUF_SIZE := by
            rw [← List.append_assoc, List.length_append]
            omega
          rw [read_str_eq, length extra few unset, Stream.strBody_skips fits negative far]
          simp only [Except.bind, behind, negative, if_true, first]
      · rw [if_neg negative] at body
        have apart : toSize (lengthAt 0 rest) ≤ (rest.drop 4).length ∨
            (rest.drop 4).length + 4 < toSize (lengthAt 0 rest) := by
          rw [List.length_drop]
          omega
        obtain ⟨value, taken, split, got⟩ := Stream.strBody_settled still negative apart retVal
        refine ⟨.str value, taken, ?_, fun extra few unset => ?_⟩
        · simp only [behind, negative, if_false, first, split, whole]
        · rw [read_str_eq, length extra few unset, got extra few]
          simp only [Except.bind, behind, negative, if_false, first]

theorem readAll_settled {done rest : List UInt8}
    (small : (done ++ rest).length + 4 ≤ SOCKET_BUF_SIZE) {fields : List Field}
    (settled : AllSettled (done ++ rest).length fields rest) :
    ∃ values, ∀ extra : List UInt8, extra.length ≤ 4 → ∀ unset, ∃ finish,
      readAll unset fields (cursor done (rest ++ extra)) = .ok (values, finish) := by
  induction fields generalizing done rest with
  | nil => exact ⟨[], fun extra _ _ => ⟨cursor done (rest ++ extra), rfl⟩⟩
  | cons field later ih =>
      obtain ⟨first, others⟩ := settled
      obtain ⟨value, taken, split, got⟩ := read_settled small first
      rw [← split] at small others
      obtain ⟨values, read⟩ := ih small others
      refine ⟨value :: values, fun extra few unset => ?_⟩
      obtain ⟨finish, rest⟩ := read extra few (field.laterLengths unset)
      exact ⟨finish, by simp only [readAll, got extra few, rest, bind, Except.bind, pure, Except.pure]⟩

def ones : List UInt8 := [1, 1, 1, 1]

theorem decode_ones {rest : List UInt8} {width : Nat} (short : rest.length < width)
    (reached : width ≤ rest.length + 4) :
    0 < LittleEndian.decode ((rest ++ ones).take width) ∧
    LittleEndian.decode ((rest ++ ones).take width) < 256 ^ width := by
  have length : ((rest ++ ones).take width).length = width := by
    rw [List.length_take_of_le]
    simpa [ones] using reached
  constructor
  · have member : (1 : UInt8) ∈ (rest ++ ones).take width := by
      rw [List.take_append, List.mem_append]
      obtain ⟨more, enough⟩ : ∃ more, width - rest.length = more + 1 :=
        ⟨width - rest.length - 1, by omega⟩
      exact Or.inr (by simp [enough, ones])
    exact LittleEndian.decode_pos member (by decide)
  · have bound := LittleEndian.decode_lt ((rest ++ ones).take width)
    rwa [length] at bound

theorem not_mem_cString (buffer : List UInt8) : (0 : UInt8) ∉ Stream.cString buffer := by
  intro member
  simpa using List.mem_takeWhile_imp member

theorem get_apart {α : Type} {done rest : List UInt8}
    (small : (done ++ rest).length + 4 ≤ SOCKET_BUF_SIZE) {width : Nat} (narrow : width ≤ 8)
    {ofNat : Nat → α} {toNat : α → Nat} {retVal : α}
    (digits : ∀ number, toNat (ofNat number) = number % 256 ^ width) (zero : toNat retVal = 0)
    (same : ((cursor done rest).get width ofNat retVal).1 =
      ((cursor done (rest ++ ones)).get width ofNat retVal).1) :
    width ≤ rest.length ∨ rest.length + 4 < width := by
  by_contra unsettled
  obtain ⟨short, reached⟩ : rest.length < width ∧ width ≤ rest.length + 4 := by omega
  obtain ⟨positive, bound⟩ := decode_ones short reached
  have length : (rest ++ ones).length = rest.length + 4 := by simp [ones]
  have fits : (done ++ (rest ++ ones)).length ≤ SOCKET_BUF_SIZE := by
    simp only [List.length_append] at small length ⊢
    omega
  rw [Stream.get_short (by omega) narrow short, Stream.get_room fits (by omega)] at same
  have nothing := congrArg toNat same
  rw [zero, digits, Nat.mod_eq_of_lt bound] at nothing
  omega

theorem value_of_ok {shown value : Field} {after next : Stream}
    (taken : (.ok (shown, after) : Exec (Field × Stream)) = .ok (value, next)) : shown = value :=
  congrArg Prod.fst (Except.ok.inj taken)

theorem read_str_room {done rest : List UInt8} (small : (done ++ rest).length ≤ SOCKET_BUF_SIZE)
    (counted : 4 ≤ rest.length) (unset : Int32) (retVal : Str) :
    read unset (cursor done rest) (.str retVal) =
      ((cursor (done ++ rest.take 4) (rest.drop 4)).strBody (lengthAt 0 rest) retVal).bind
        fun result => .ok (.str result.1, result.2) := by
  rw [read_str_eq, Stream.get_room small counted, lengthAt_read counted]

theorem counted_of_constant {done rest : List UInt8}
    (small : (done ++ rest).length ≤ SOCKET_BUF_SIZE) {value : Field}
    (constant : ∀ unset, ∃ next, read unset (cursor done rest) (.str [0]) = .ok (value, next)) :
    4 ≤ rest.length := by
  by_contra missing
  have short : rest.length < 4 := Nat.lt_of_not_le missing
  -- the length is what its memory held, which may be nothing or more than there is
  obtain ⟨_, nothing⟩ := constant 0
  obtain ⟨_, tooLong⟩ := constant (Int32.ofNat (2 ^ 31 - 1))
  have most : toSize (Int32.ofNat (2 ^ 31 - 1)) = 2 ^ 31 - 1 := by decide
  rw [read_str_eq, Stream.get_short small (by decide) short,
    Stream.strBody_room small (by decide : ¬ (0 : Int32) < 0) (Nat.zero_le _)] at nothing
  rw [read_str_eq, Stream.get_short small (by decide) short,
    Stream.strBody_short small (by decide : ¬ Int32.ofNat (2 ^ 31 - 1) < 0)
      (by rw [most]; omega)] at tooLong
  have empty : Field.str [] = value := value_of_ok nothing
  have kept : Field.str [0] = value := value_of_ok tooLong
  rw [← empty] at kept
  cases kept

theorem text_settled {done rest : List UInt8}
    (small : (done ++ rest).length + 4 ≤ SOCKET_BUF_SIZE) {value : Field}
    (constant : ∀ extra : List UInt8, extra = [] ∨ extra.length = 4 → ∀ unset, ∃ next,
      read unset (cursor done (rest ++ extra)) (.str [0]) = .ok (value, next)) :
    (Field.str [0]).Settled (done ++ rest).length rest := by
  have alone (unset : Int32) :
      ∃ next, read unset (cursor done rest) (.str [0]) = .ok (value, next) := by
    have first := constant [] (Or.inl rfl) unset
    rwa [List.append_nil] at first
  have counted := counted_of_constant (by omega) alone
  obtain ⟨_, here⟩ := alone 0
  rw [read_str_room (by omega) counted] at here
  have whole : (done ++ rest.take 4) ++ rest.drop 4 = done ++ rest := by
    rw [List.append_assoc, List.take_append_drop]
  have fits : ((done ++ rest.take 4) ++ rest.drop 4).length ≤ SOCKET_BUF_SIZE := by
    rw [whole]
    omega
  refine ⟨counted, ?_⟩
  by_cases negative : lengthAt 0 rest < 0
  · rw [if_pos negative]
    by_contra near
    have back : (lengthAt 0 rest).toInt.natAbs ≤ (done ++ rest.take 4).length := by
      simp only [List.length_append, List.length_take] at near ⊢
      omega
    rw [Stream.strBody_throws fits negative back] at here
    cases here
  · rw [if_neg negative]
    by_contra between
    have short : (rest.drop 4).length < toSize (lengthAt 0 rest) := by
      rw [List.length_drop]
      omega
    rw [Stream.strBody_short fits negative short] at here
    have kept : Field.str [0] = value := value_of_ok here
    obtain ⟨_, there⟩ := constant ones (Or.inr rfl) 0
    have more : (rest ++ ones).length = rest.length + 4 := by simp [ones]
    have sameLength : lengthAt 0 (rest ++ ones) = lengthAt 0 rest := by
      rw [lengthAt_read counted, lengthAt_read (by omega), List.take_append_of_le_length counted]
    have larger : (done ++ (rest ++ ones)).length ≤ SOCKET_BUF_SIZE := by
      simp only [List.length_append] at small more ⊢
      omega
    have behindLength : (done ++ (rest ++ ones).take 4) ++ (rest ++ ones).drop 4 =
        done ++ (rest ++ ones) := by
      rw [List.append_assoc, List.take_append_drop]
    rw [read_str_room larger (by omega), sameLength, Stream.strBody_room
      (by rw [behindLength]; exact larger) negative
      (by rw [List.length_drop]; omega)] at there
    have taken : [0] = Stream.cString _ := str.inj (kept.trans (value_of_ok there).symm)
    apply not_mem_cString
    rw [← taken]
    exact List.mem_cons_self

theorem scalar_settled {done rest : List UInt8}
    (small : (done ++ rest).length + 4 ≤ SOCKET_BUF_SIZE) {field value : Field}
    {finish next : Stream} (marked : field.Marked) (scalar : ∀ text, field ≠ .str text)
    (here : field.read 0 (cursor done rest) = .ok (value, finish))
    (there : field.read 0 (cursor done (rest ++ ones)) = .ok (value, next)) :
    field.Settled (done ++ rest).length rest := by
  cases field with
  | byte retVal =>
      obtain rfl : retVal = 0 := marked
      have first : Field.byte ((cursor done rest).get 1 UInt8.ofNat 0).1 = value :=
        value_of_ok here
      have second : Field.byte ((cursor done (rest ++ ones)).get 1 UInt8.ofNat 0).1 = value :=
        value_of_ok there
      have apart := get_apart small (by decide) (fun _ => UInt8.toNat_ofNat') UInt8.toNat_zero
        (byte.inj (first.trans second.symm))
      exact apart.resolve_right (by omega)
  | uint32 retVal =>
      obtain rfl : retVal = 0 := marked
      have first : Field.uint32 ((cursor done rest).get 4 UInt32.ofNat 0).1 = value :=
        value_of_ok here
      have second : Field.uint32 ((cursor done (rest ++ ones)).get 4 UInt32.ofNat 0).1 = value :=
        value_of_ok there
      have apart := get_apart small (by decide) (fun _ => UInt32.toNat_ofNat') UInt32.toNat_zero
        (uint32.inj (first.trans second.symm))
      exact apart.resolve_right (by omega)
  | uint64 retVal =>
      obtain rfl : retVal = 0 := marked
      have first : Field.uint64 ((cursor done rest).get 8 UInt64.ofNat 0).1 = value :=
        value_of_ok here
      have second : Field.uint64 ((cursor done (rest ++ ones)).get 8 UInt64.ofNat 0).1 = value :=
        value_of_ok there
      have apart := get_apart small (by decide) (fun _ => UInt64.toNat_ofNat') UInt64.toNat_zero
        (uint64.inj (first.trans second.symm))
      exact apart.imp_right (by omega)
  | str text => exact absurd rfl (scalar text)

theorem settled_of_constant {done rest : List UInt8}
    (small : (done ++ rest).length + 4 ≤ SOCKET_BUF_SIZE) {field value : Field}
    (marked : field.Marked)
    (constant : ∀ extra : List UInt8, extra = [] ∨ extra.length = 4 → ∀ unset, ∃ next,
      field.read unset (cursor done (rest ++ extra)) = .ok (value, next)) :
    field.Settled (done ++ rest).length rest := by
  obtain ⟨_, here⟩ := constant [] (Or.inl rfl) 0
  obtain ⟨_, there⟩ := constant ones (Or.inr rfl) 0
  rw [List.append_nil] at here
  by_cases scalar : ∀ text, field ≠ .str text
  · exact scalar_settled small marked scalar here there
  · obtain ⟨text, rfl⟩ := by simpa only [not_forall, not_not] using scalar
    obtain rfl : text = [0] := marked
    exact text_settled small constant

def Constant (done rest : List UInt8) (fields values : List Field) : Prop :=
  ∀ extra : List UInt8, extra = [] ∨ extra.length = 4 → ∀ unset, ∃ finish,
    readAll unset fields (cursor done (rest ++ extra)) = .ok (values, finish)

theorem readAll_cons {unset : Nat → Int32} {field : Field} {later values : List Field}
    {stream finish : Stream}
    (read : readAll unset (field :: later) stream = .ok (values, finish)) :
    ∃ value next others, field.read (unset 0) stream = .ok (value, next) ∧
      readAll (field.laterLengths unset) later next = .ok (others, finish) ∧
      values = value :: others := by
  obtain ⟨⟨value, next⟩, first, rest⟩ := Exec.bind_ok read
  obtain ⟨⟨others, final⟩, second, result⟩ := Exec.bind_ok rest
  simp only [pure, Except.pure, Except.ok.injEq, Prod.mk.injEq] at result
  obtain ⟨rfl, rfl⟩ := result
  exact ⟨value, next, others, first, second, rfl⟩

theorem exists_laterLengths (field : Field) (unset : Nat → Int32) :
    ∃ before, field.laterLengths before = unset := by
  cases field with
  | str value => exact ⟨fun string => unset (string - 1), rfl⟩
  | byte value => exact ⟨unset, rfl⟩
  | uint32 value => exact ⟨unset, rfl⟩
  | uint64 value => exact ⟨unset, rfl⟩

theorem allSettled_of_constant {done rest : List UInt8}
    (small : (done ++ rest).length + 4 ≤ SOCKET_BUF_SIZE) {fields values : List Field}
    (marked : ∀ field ∈ fields, field.Marked) (constant : Constant done rest fields values) :
    AllSettled (done ++ rest).length fields rest := by
  induction fields generalizing done rest values with
  | nil => trivial
  | cons field later ih =>
      obtain ⟨_, start⟩ := constant [] (Or.inl rfl) fun _ => 0
      obtain ⟨value, _, others, _, _, rfl⟩ := readAll_cons start
      have settled : field.Settled (done ++ rest).length rest := by
        apply settled_of_constant small (marked field List.mem_cons_self)
        intro extra either unset
        obtain ⟨_, read⟩ := constant extra either fun _ => unset
        obtain ⟨_, next, _, first, _, same⟩ := readAll_cons read
        rw [List.cons.injEq] at same
        exact ⟨next, same.1 ▸ first⟩
      obtain ⟨_, taken, split, got⟩ := read_settled small settled
      refine ⟨settled, ?_⟩
      rw [← split] at small ⊢
      apply ih small fun other member => marked other (List.mem_cons_of_mem _ member)
      intro extra either unset
      have few : extra.length ≤ 4 := by
        rcases either with rfl | four
        · exact Nat.zero_le 4
        · exact Nat.le_of_eq four
      obtain ⟨before, rfl⟩ := field.exists_laterLengths unset
      obtain ⟨finish, read⟩ := constant extra either before
      obtain ⟨_, _, _, first, second, same⟩ := readAll_cons read
      rw [got extra few, Except.ok.injEq, Prod.mk.injEq] at first
      rw [List.cons.injEq] at same
      rw [← first.2, ← same.2] at second
      exact ⟨finish, second⟩

theorem allSettled_of_untouched {fields : List Field} (marked : ∀ field ∈ fields, field.Marked)
    (untouched : ∀ extra : List UInt8, extra.length = 4 → ∀ unset, ∃ finish,
      readAll unset fields (cursor [] extra) = .ok (fields, finish)) :
    AllSettled 0 fields [] := by
  induction fields with
  | nil => trivial
  | cons field later ih =>
      have first := marked field List.mem_cons_self
      have settled : field.Settled 0 [] := by
        by_cases scalar : ∀ text, field ≠ .str text
        · have here : field.read 0 (cursor [] []) = .ok (field, cursor [] []) := by
            cases field with
            | str text => exact absurd rfl (scalar text)
            | _ => rfl
          obtain ⟨_, read⟩ := untouched ones rfl fun _ => 0
          obtain ⟨_, _, _, there, _, same⟩ := readAll_cons read
          rw [List.cons.injEq] at same
          rw [← same.1] at there
          exact scalar_settled (by decide) first scalar here there
        · obtain ⟨text, rfl⟩ := by simpa only [not_forall, not_not] using scalar
          obtain rfl : text = [0] := first
          obtain ⟨_, read⟩ := untouched [0, 0, 0, 0] rfl fun _ => 0
          obtain ⟨_, _, _, there, _, same⟩ := readAll_cons read
          rw [List.cons.injEq] at same
          rw [← same.1] at there
          have taken : Field.str [] = .str [0] := value_of_ok there
          cases taken
      have small : (([] : List UInt8) ++ []).length + 4 ≤ SOCKET_BUF_SIZE := by decide
      obtain ⟨_, taken, split, got⟩ := read_settled small settled
      rw [behind_nil, List.append_nil, List.append_nil] at split
      subst split
      refine ⟨settled, ?_⟩
      rw [behind_nil]
      apply ih fun other member => marked other (List.mem_cons_of_mem _ member)
      intro extra four unset
      obtain ⟨before, rfl⟩ := field.exists_laterLengths unset
      obtain ⟨finish, read⟩ := untouched extra four before
      obtain ⟨_, _, _, there, second, same⟩ := readAll_cons read
      have both := got extra (Nat.le_of_eq four) (before 0)
      rw [behind_nil, List.nil_append, there, Except.ok.injEq, Prod.mk.injEq] at both
      rw [List.cons.injEq] at same
      rw [both.2, ← same.2] at second
      exact ⟨finish, second⟩

theorem untouched_of_allSettled {fields : List Field} (settled : AllSettled 0 fields [])
    (unset : Nat → Int32) :
    readAll unset fields (cursor [] []) = .ok (fields, cursor [] []) := by
  induction fields generalizing unset with
  | nil => rfl
  | cons field later ih =>
      obtain ⟨first, others⟩ := settled
      rw [behind_nil] at others
      cases field with
      | byte value => exact absurd first (Nat.not_succ_le_zero _)
      | uint32 value => exact absurd first (Nat.not_succ_le_zero _)
      | uint64 value =>
          have kept : (Field.uint64 value).read (unset 0) (cursor [] []) =
              .ok (.uint64 value, cursor [] []) := rfl
          have rest : readAll ((Field.uint64 value).laterLengths unset) later (cursor [] []) =
              .ok (later, cursor [] []) := ih others _
          simp only [readAll, kept, rest, bind, Except.bind, pure, Except.pure]
      | str value => exact absurd first.1 (Nat.not_succ_le_zero _)

end Field

/-! What each receiver hands to the analyzer. -/

theorem KnownFrame.split {frame : List UInt8} (known : KnownFrame frame) :
    frame = LittleEndian.encode 4 frame.length ++
      (LittleEndian.encode 8 (LittleEndian.decode ((frame.drop 4).take 8)) ++ frame.drop 12) := by
  have typed := known.typed
  have header : LittleEndian.encode 4 frame.length = frame.take 4 := by
    have bytes := LittleEndian.encode_decode (frame.take 4)
    rwa [List.length_take_of_le (by omega), known.header] at bytes
  have type : LittleEndian.encode 8 (LittleEndian.decode ((frame.drop 4).take 8)) =
      (frame.drop 4).take 8 := by
    have bytes := LittleEndian.encode_decode ((frame.drop 4).take 8)
    rwa [List.length_take_of_le (by rw [List.length_drop]; omega)] at bytes
  have payload : frame.drop 12 = (frame.drop 4).drop 8 := by rw [List.drop_drop]
  rw [header, type, payload, List.take_append_drop, List.take_append_drop]

theorem KnownFrame.length_eq {frame : List UInt8} (known : KnownFrame frame) :
    frame.length = 12 + (frame.drop 12).length := by
  have typed := known.typed
  rw [List.length_drop]
  omega

theorem KnownFrame.type_lt (frame : List UInt8) :
    LittleEndian.decode ((frame.drop 4).take 8) < 256 ^ 8 := by
  have bound := LittleEndian.decode_lt ((frame.drop 4).take 8)
  apply Nat.lt_of_lt_of_le bound
  apply Nat.pow_le_pow_right (by decide)
  rw [List.length_take]
  omega

theorem KnownFrame.row {frame : List UInt8} (known : KnownFrame frame) (memory : List UInt8) :
    (frame ++ memory).drop 4 =
      LittleEndian.encode 8 (LittleEndian.decode ((frame.drop 4).take 8)) ++
        (frame.drop 12 ++ memory) := by
  have typed := known.typed
  have front := congrArg (fun bytes => (bytes ++ memory).drop 4) known.split
  simp only [List.append_assoc] at front
  rw [List.drop_left' (LittleEndian.encode_length 4 frame.length)] at front
  exact front

theorem KnownFrame.packetLen {frame : List UInt8} (known : KnownFrame frame)
    (memory : List UInt8) :
    TerminalSession.packetLen memory frame = Int32.ofNat frame.length := by
  have typed := known.typed
  rw [TerminalSession.packetLen, TerminalSession.rowData, ZeroFilled.read_inside
    (by rw [List.length_append]; omega), List.drop_zero,
    List.take_append_of_le_length (by omega), known.header]

theorem KnownFrame.toSize {frame : List UInt8} (known : KnownFrame frame) :
    toSize (Int32.ofNat frame.length) = frame.length := by
  have short := known.short
  exact Stream.toSize_ofNat (by omega)

theorem IOCPSession.analyzeWith_frame {getPacket : Nat → Option Packet} (unset : Nat → Int32)
    {frame : List UInt8} (known : KnownFrame frame) {fresh : Packet}
    (built : getPacket (LittleEndian.decode ((frame.drop 4).take 8)) = some fresh) :
    analyzeWith getPacket unset frame =
      if frame.drop 12 = [] then .ok (some fresh)
      else (fresh.decode unset (cursor [] (frame.drop 12))).map fun result => some result.1 := by
  have length := known.length_eq
  have short := known.short
  have row := known.row []
  rw [List.append_nil, List.append_nil] at row
  have whole : (frame.drop 4).take (frame.length - 4) = frame.drop 4 := by
    apply List.take_of_length_le
    rw [List.length_drop]
  have size : frame.length - 4 = 8 + (frame.drop 12).length := by omega
  have small : ¬ SOCKET_BUF_SIZE < (frame.drop 12).length := by
    rw [SOCKET_BUF_SIZE]
    omega
  rw [analyzeWith]
  simp only [known.header, whole]
  rw [row, size, analyzerWith_built unset (KnownFrame.type_lt frame) built, ZeroFilled.read_all]
  simp only [List.length_eq_zero_iff, small, if_false]

theorem TerminalSession.analyzeWith_frame {getPacket : Nat → Option Packet} (unset : Nat → Int32)
    (memory : List UInt8) {frame : List UInt8} (known : KnownFrame frame) {fresh : Packet}
    (built : getPacket (LittleEndian.decode ((frame.drop 4).take 8)) = some fresh) :
    analyzeWith getPacket unset memory frame =
      (fresh.decode unset (cursor [] (frame.drop 12 ++
        ZeroFilled.read (memory.drop frame.length) 0 4))).map fun result => some result.1 := by
  have length := known.length_eq
  have short := known.short
  have row := known.row (memory.drop frame.length)
  have size : frame.length = 8 + ((frame.drop 12).length + 4) := by omega
  have some_bytes : ¬ (frame.drop 12).length + 4 = 0 := by omega
  have small : ¬ SOCKET_BUF_SIZE < (frame.drop 12).length + 4 := by
    rw [SOCKET_BUF_SIZE]
    omega
  have decoded := analyzerWith_built unset (KnownFrame.type_lt frame) built
    (frame.drop 12 ++ memory.drop frame.length) ((frame.drop 12).length + 4)
  rw [← size, ZeroFilled.read_longer, if_neg some_bytes, if_neg small] at decoded
  rw [analyzeWith, known.packetLen, known.toSize, rowData, row, decoded]

theorem IOCPSession.receive_frame (unset : Nat → Nat → Int32) {frame : List UInt8}
    (known : KnownFrame frame) :
    receive unset accepted frame =
      (analyzeWith PacketFactory.getPacket (unset frame.length) frame).bind fun
        | none => .error .nullPointer
        | some packet => .ok (recvStandBy { accepted with packageStorage := [packet] }) := by
  have typed := known.typed
  have short := known.short
  have announced : toSize (IoData.packetLen { IoData.clear with buffer_ := frame }) =
      frame.length := by
    rw [IoData.packetLen, ZeroFilled.read_inside (by simp only; omega), List.drop_zero,
      known.header, known.toSize]
  have counted : ¬ frame.length < 4 := by omega
  have room : ¬ 200 < frame.length - 4 := by omega
  have large : ¬ frame.length < 8 := by omega
  rw [receive_standing unset accepted_standing announced le_rfl (by rw [SOCKET_BUF_SIZE]; omega),
    extract, if_neg large]
  simp only [known.header, Nat.lt_irrefl, if_false, takePacket, counted, room, List.drop_length,
    analyzeWith, ← PacketAnalyzer.analyzer_eq]
  cases PacketAnalyzer.analyzer (unset frame.length) ((frame.drop 4).take (frame.length - 4))
      (frame.length - 4) with
  | error reason => rfl
  | ok result =>
      cases result with
      | none => rfl
      | some packet =>
          obtain ⟨fuel, enough⟩ : ∃ fuel, frame.length = fuel + 1 :=
            ⟨frame.length - 1, by omega⟩
          have last := extract_incomplete unset 4 fuel [packet]
            (Or.inl (by decide : ([] : List UInt8).length < 8))
          rw [← enough] at last
          exact congrArg (fun ended => ended.bind fun result : List UInt8 × List Packet =>
            .ok (recvStandBy { accepted with
              main_buffer_ := result.1
              packageStorage := result.2 })) last

theorem TerminalSession.onRecv_frame (unset : Nat → Int32) (memory : List UInt8)
    {frame : List UInt8} (known : KnownFrame frame) :
    onRecv unset memory [frame] =
      (analyzeWith PacketFactory.getPacket unset memory frame).map fun
        | none => .nullptr
        | some packet => .package packet [] := by
  have typed := known.typed
  have short := known.short
  have inside : ¬ SOCKET_BUF_SIZE < 4 + frame.length := by
    rw [SOCKET_BUF_SIZE]
    omega
  have whole : (Int32.ofNat frame.length).toInt = frame.length :=
    Int32.toInt_ofNat_of_lt (by omega)
  have filled : fill (Int32.ofNat frame.length) (SOCKET_BUF_SIZE + 1) frame [] =
      .ok (some (frame, [])) := by
    rw [fill, if_neg (by omega)]
  have some_bytes : frame ≠ [] := List.ne_nil_of_length_pos (by omega)
  rw [onRecv, recv_segment some_bytes (by rw [SOCKET_BUF_SIZE]; omega)]
  simp only [known.packetLen, filled, analyze, known.toSize, inside, and_false, if_false,
    analyzeWith, ← PacketAnalyzer.analyzer_eq, bind, Except.bind, pure, Except.pure]
  cases PacketAnalyzer.analyzer unset ((rowData memory frame).drop 4) frame.length with
  | error reason => rfl
  | ok result => cases result <;> rfl

def SettledFrame (frame : List UInt8) : Prop :=
  ∃ fresh, PacketFactory.getPacket (LittleEndian.decode ((frame.drop 4).take 8)) = some fresh ∧
    Field.AllSettled (frame.drop 12).length fresh.fields (frame.drop 12)

theorem Field.allSettled_congr {whole : Nat} {fields others : List Field}
    (same : fields.map kind = others.map kind) (rest : List UInt8) :
    AllSettled whole fields rest ↔ AllSettled whole others rest := by
  induction fields generalizing others rest with
  | nil =>
      obtain rfl : others = [] := List.map_eq_nil_iff.mp same.symm
      exact Iff.rfl
  | cons field later ih =>
      obtain ⟨other, more, rfl, first, second⟩ := List.map_eq_cons_iff.mp same.symm
      have one : field.Settled whole rest ↔ other.Settled whole rest := by
        cases field <;> cases other <;> cases first <;> exact Iff.rfl
      have left : field.behind 0 rest = other.behind 0 rest := by
        cases field <;> cases other <;> cases first <;> rfl
      simp only [AllSettled, one, left, ih second.symm]

theorem constructs_fields {getPacket : Nat → Option Packet} (constructs : Constructs getPacket)
    {packetType : Nat} {fresh : Packet}
    (built : PacketFactory.getPacket packetType = some fresh) :
    ∃ object, getPacket packetType = some object ∧
      object.fields.map Field.kind = fresh.fields.map Field.kind := by
  have same := constructs packetType
  rw [built, Option.map_some, Option.map_eq_some_iff] at same
  obtain ⟨object, constructed, members⟩ := same
  exact ⟨object, constructed, congrArg Prod.snd members⟩

theorem assigned_of_settled {frame : List UInt8} (known : KnownFrame frame)
    {getPacket : Nat → Option Packet} {object : Packet}
    (built : getPacket (LittleEndian.decode ((frame.drop 4).take 8)) = some object)
    (settled : Field.AllSettled (frame.drop 12).length object.fields (frame.drop 12)) :
    ∃ values, ∀ unset unset' memory, ∃ packet other,
      IOCPSession.analyzeWith getPacket unset frame = .ok (some packet) ∧
      TerminalSession.analyzeWith getPacket unset' memory frame = .ok (some other) ∧
      packet.type = other.type ∧ packet.fields = values ∧ other.fields = values := by
  have length := known.length_eq
  have short := known.short
  have small : (([] : List UInt8) ++ frame.drop 12).length + 4 ≤ SOCKET_BUF_SIZE := by
    rw [List.nil_append, SOCKET_BUF_SIZE]
    omega
  obtain ⟨values, read⟩ := Field.readAll_settled small settled
  refine ⟨values, fun unset unset' memory => ?_⟩
  have more : (ZeroFilled.read (memory.drop frame.length) 0 4).length ≤ 4 := by
    simp [ZeroFilled.read]
  obtain ⟨_, there⟩ := read _ more unset'
  obtain ⟨other, decodedThere, otherType, otherFields⟩ := decode_ok_iff.mp there
  obtain ⟨_, here⟩ := read [] (Nat.zero_le 4) unset
  rw [List.append_nil] at here
  by_cases empty : frame.drop 12 = []
  · rw [empty, List.length_nil] at settled
    rw [empty, Field.untouched_of_allSettled settled unset, Except.ok.injEq, Prod.mk.injEq] at here
    refine ⟨object, other, ?_, ?_, otherType.symm, here.1, otherFields⟩
    · rw [IOCPSession.analyzeWith_frame unset known built, if_pos empty]
    · rw [TerminalSession.analyzeWith_frame unset' memory known built, decodedThere]
      rfl
  · obtain ⟨packet, decodedHere, packetType, packetFields⟩ := decode_ok_iff.mp here
    refine ⟨packet, other, ?_, ?_, packetType.trans otherType.symm, packetFields, otherFields⟩
    · rw [IOCPSession.analyzeWith_frame unset known built, if_neg empty, decodedHere]
      rfl
    · rw [TerminalSession.analyzeWith_frame unset' memory known built, decodedThere]
      rfl

theorem agree_of_settled {frame : List UInt8} (known : KnownFrame frame)
    (settled : SettledFrame frame) : Agree frame := by
  obtain ⟨fresh, built, reads⟩ := settled
  constructor
  · obtain ⟨values, agreed⟩ := assigned_of_settled known built reads
    refine ⟨values, fun unset unset' memory => ?_⟩
    obtain ⟨packet, other, here, there, same⟩ := agreed (unset frame.length) unset' memory
    refine ⟨IOCPSession.recvStandBy { IOCPSession.accepted with packageStorage := [packet] },
      packet, other, ?_, rfl, ?_, same⟩
    · rw [IOCPSession.receive_frame unset known, here]
      rfl
    · rw [TerminalSession.onRecv_frame unset' memory known, there]
      rfl
  · intro getPacket constructs
    obtain ⟨object, constructed, kinds⟩ := constructs_fields constructs built
    exact assigned_of_settled known constructed ((Field.allSettled_congr kinds _).mpr reads)

def markedPacket (packetType : Nat) : Option Packet :=
  (PacketFactory.getPacket packetType).map (Packet.mapStr fun _ => [0])

theorem markedPacket_constructs : Constructs markedPacket := by
  intro packetType
  have kept (packet : Packet) : (packet.mapStr fun _ => [0]).members = packet.members := by
    cases packet <;> rfl
  simp only [markedPacket, Option.map_map, Function.comp_def, kept]

theorem markedPacket_marked {packetType : Nat} {object : Packet}
    (built : markedPacket packetType = some object) : ∀ field ∈ object.fields, field.Marked := by
  obtain ⟨fresh, factory, rfl⟩ := Option.map_eq_some_iff.mp built
  unfold PacketFactory.getPacket at factory
  split at factory <;> cases factory <;>
    simp [Packet.mapStr, Packet.fields, Field.Marked]

theorem readAll_of_decode {unset : Nat → Int32} {object packet : Packet} {stream : Stream}
    (decoded : (object.decode unset stream).map (fun result => some result.1) =
      .ok (some packet)) :
    ∃ finish, Field.readAll unset object.fields stream = .ok (packet.fields, finish) := by
  cases ended : object.decode unset stream with
  | error reason =>
      rw [ended] at decoded
      cases decoded
  | ok result =>
      rw [ended] at decoded
      have same : result.1 = packet := Option.some.inj (Except.ok.inj decoded)
      refine ⟨result.2, ?_⟩
      rw [← decode_fields, ended, ← same]
      rfl

theorem settled_of_agree {frame : List UInt8} (known : KnownFrame frame) (agree : Agree frame) :
    SettledFrame frame := by
  have length := known.length_eq
  have short := known.short
  obtain ⟨fresh, factory⟩ := Option.isSome_iff_exists.mp known.known
  obtain ⟨object, built, kinds⟩ := constructs_fields markedPacket_constructs factory
  have marked := markedPacket_marked built
  obtain ⟨values, agreed⟩ := agree.assigned markedPacket markedPacket_constructs
  refine ⟨fresh, factory, (Field.allSettled_congr kinds _).mp ?_⟩
  -- any four bytes can be in the memory behind the frame
  have there (extra : List UInt8) (four : extra.length = 4) (unset : Nat → Int32) :
      ∃ finish, Field.readAll unset object.fields (cursor [] (frame.drop 12 ++ extra)) =
        .ok (values, finish) := by
    obtain ⟨_, other, _, second, _, _, fields⟩ := agreed (fun _ => 0) unset (frame ++ extra)
    rw [TerminalSession.analyzeWith_frame unset _ known built, List.drop_left, ← four,
      ZeroFilled.read_all] at second
    rw [← fields]
    exact readAll_of_decode second
  by_cases empty : frame.drop 12 = []
  · obtain ⟨packet, _, first, _, _, fields, _⟩ := agreed (fun _ => 0) (fun _ => 0) []
    rw [IOCPSession.analyzeWith_frame _ known built, if_pos empty, Except.ok.injEq,
      Option.some.injEq] at first
    rw [← first] at fields
    subst fields
    rw [empty] at there ⊢
    exact Field.allSettled_of_untouched marked there
  · have small : (([] : List UInt8) ++ frame.drop 12).length + 4 ≤ SOCKET_BUF_SIZE := by
      rw [List.nil_append, SOCKET_BUF_SIZE]
      omega
    apply @Field.allSettled_of_constant [] (frame.drop 12) small object.fields values marked
    rintro extra (rfl | four) unset
    · obtain ⟨packet, _, first, _, _, fields, _⟩ := agreed unset (fun _ => 0) []
      rw [IOCPSession.analyzeWith_frame _ known built, if_neg empty] at first
      rw [List.append_nil, ← fields]
      exact readAll_of_decode first
    · exact there extra four unset

theorem agree_iff {frame : List UInt8} (known : KnownFrame frame) :
    Agree frame ↔ SettledFrame frame :=
  ⟨settled_of_agree known, agree_of_settled known⟩

def sceneFrame : List UInt8 :=
  [20, 0, 0, 0, 163, 0, 0, 0, 0, 0, 0, 0, 7, 0, 0, 0, 0, 0, 0, 0]

theorem agree_iff_scene : Agree sceneFrame :=
  (agree_iff ⟨by decide, by decide, by decide, by decide⟩).mpr
    ⟨.PK_S_REQ_CHANGE_SCENE 0, rfl, Or.inl (by decide), trivial⟩

/-- A change of scene whose room is cut to four bytes: one receiver leaves it as
it was, and the other takes four bytes from behind the frame. -/
theorem not_agree : ¬ ∀ frame, KnownFrame frame → Agree frame := by
  intro every
  have cut : KnownFrame [16, 0, 0, 0, 163, 0, 0, 0, 0, 0, 0, 0, 7, 0, 0, 0] :=
    ⟨by decide, by decide, by decide, by decide⟩
  obtain ⟨values, agreed⟩ := (every _ cut).packets
  obtain ⟨finish, packet, other, first, stored, second, _, here, there⟩ :=
    agreed (fun _ _ => 0) (fun _ => 0) (List.replicate 16 0 ++ [1, 0, 0, 0])
  have kept : packet = .PK_S_REQ_CHANGE_SCENE 0 := by
    have left : (IOCPSession.receive (fun _ _ => 0) IOCPSession.accepted
        [16, 0, 0, 0, 163, 0, 0, 0, 0, 0, 0, 0, 7, 0, 0, 0]).toOption.map
          IOCPSession.packageStorage = some [.PK_S_REQ_CHANGE_SCENE 0] := by decide
    rw [first] at left
    have same := Option.some.inj left
    rw [stored] at same
    exact (List.cons.inj same).1
  have taken : other = .PK_S_REQ_CHANGE_SCENE (2 ^ 32 + 7) := by
    have read : TerminalSession.onRecv (fun _ => 0) (List.replicate 16 0 ++ [1, 0, 0, 0])
        [[16, 0, 0, 0, 163, 0, 0, 0, 0, 0, 0, 0, 7, 0, 0, 0]] =
          .ok (.package (.PK_S_REQ_CHANGE_SCENE (2 ^ 32 + 7)) []) := rfl
    rw [second, Except.ok.injEq] at read
    cases read
    rfl
  rw [kept, ← there, taken] at here
  simp only [Packet.fields, List.cons.injEq, Field.uint64.injEq, and_true] at here
  exact absurd here (by decide)

end GraduationServer
