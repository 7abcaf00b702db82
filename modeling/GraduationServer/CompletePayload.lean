import GraduationServer.FieldReads

/-!
What `analyzer` accepts: `decode` inspects no bound check, so a packet comes
back for every payload of a known type on which no string read throws.
-/

namespace GraduationServer

open GraduationServer.Stream (cursor)

def behind (width : Nat) (rest : List UInt8) : List UInt8 :=
  if width ≤ rest.length then rest.drop width else rest

def lengthAt (unset : Int32) (rest : List UInt8) : Int32 :=
  if 4 ≤ rest.length then Int32.ofNat (LittleEndian.decode (rest.take 4)) else unset

namespace Field

def behind (unset : Int32) (rest : List UInt8) : Field → List UInt8
  | .byte _ => GraduationServer.behind 1 rest
  | .uint32 _ => GraduationServer.behind 4 rest
  | .uint64 _ => GraduationServer.behind 8 rest
  | .str _ =>
      let body := GraduationServer.behind 4 rest
      if lengthAt unset rest < 0 then body
      else GraduationServer.behind (toSize (lengthAt unset rest)) body

/-- A negative length passes the check where it leads back to a byte that was
taken before, out of `whole` bytes. -/
def Throws (unset : Int32) (whole : Nat) (rest : List UInt8) : Field → Prop
  | .str _ => lengthAt unset rest < 0 ∧
      whole ≥ (GraduationServer.behind 4 rest).length + (lengthAt unset rest).toInt.natAbs
  | _ => False

def AnyThrows : (Nat → Int32) → Nat → List Field → List UInt8 → Prop
  | _, _, [], _ => False
  | unset, whole, field :: later, rest =>
      field.Throws (unset 0) whole rest ∨
        AnyThrows (field.laterLengths unset) whole later (field.behind (unset 0) rest)

end Field

def CompleteFor (packetType : Nat) (w : List UInt8) : Prop :=
  ∃ packet : Packet, packet.type.code = packetType ∧ packet.payload <+: w

def DecodeThrows (unset : Nat → Int32) (packetType : Nat) (w : List UInt8) : Prop :=
  ∃ fresh, PacketFactory.getPacket packetType = some fresh ∧
    Field.AnyThrows unset w.length fresh.fields w

namespace Stream

theorem get_room {α : Type} {done rest : List UInt8}
    (small : (done ++ rest).length ≤ SOCKET_BUF_SIZE) {width : Nat} (room : width ≤ rest.length)
    (ofNat : Nat → α) (retVal : α) :
    (cursor done rest).get width ofNat retVal =
      (ofNat (LittleEndian.decode (rest.take width)),
        cursor (done ++ rest.take width) (rest.drop width)) := by
  have split : rest.take width ++ rest.drop width = rest := List.take_append_drop width rest
  have length : (rest.take width).length = width := List.length_take_of_le room
  have whole : (done ++ (rest.take width ++ rest.drop width)).length ≤ SOCKET_BUF_SIZE := by
    rw [split]
    exact small
  have check := cursor_check whole
  have value := cursor_read whole
  rw [length, split] at check value
  simp only [get, check, if_true, value]

theorem get_short {α : Type} {done rest : List UInt8}
    (small : (done ++ rest).length ≤ SOCKET_BUF_SIZE) {width : Nat} (narrow : width ≤ 8)
    (short : rest.length < width) (ofNat : Nat → α) (retVal : α) :
    (cursor done rest).get width ofNat retVal = (retVal, cursor done rest) := by
  have exact_sum : (done.length + width) % sizeRange = done.length + width := by
    simp only [List.length_append, SOCKET_BUF_SIZE] at small
    simp only [sizeRange]
    omega
  have check : ¬ (cursor done rest).checkReadBound width = true := by
    simp only [checkReadBound, cursor, size, exact_sum, List.length_append]
    simp
    omega
  simp only [get, check]
  rfl

theorem get_behind {α : Type} {done rest : List UInt8}
    (small : (done ++ rest).length ≤ SOCKET_BUF_SIZE) {width : Nat} (narrow : width ≤ 8)
    (ofNat : Nat → α) (retVal : α) :
    ∃ taken, (cursor done rest).get width ofNat retVal =
      (if width ≤ rest.length then ofNat (LittleEndian.decode (rest.take width)) else retVal,
        cursor taken (behind width rest)) ∧ taken ++ behind width rest = done ++ rest := by
  by_cases room : width ≤ rest.length
  · refine ⟨done ++ rest.take width, ?_, ?_⟩
    · simp only [get_room small room, room, if_true, behind]
    · simp only [behind, room, if_true, List.append_assoc, List.take_append_drop]
  · refine ⟨done, ?_, ?_⟩
    · simp only [get_short small narrow (Nat.lt_of_not_le room), room, if_false, behind]
    · simp only [behind, room, if_false]

def strBody (stream : Stream) (size : Int32) (retVal : Str) : Exec (Str × Stream) :=
  if stream.checkReadBound (toSize size) then
    if size < 0 then .error .badLength
    else .ok (cString (stream.read (toSize size)).1, (stream.read (toSize size)).2)
  else .ok (retVal, stream)

theorem getStr_eq (stream : Stream) (unset : Int32) (retVal : Str) :
    stream.getStr unset retVal =
      (stream.get 4 Int32.ofNat unset).2.strBody (stream.get 4 Int32.ofNat unset).1 retVal := rfl

theorem negative_check {done rest : List UInt8} (small : (done ++ rest).length ≤ SOCKET_BUF_SIZE)
    {size : Int32} (negative : size < 0) :
    (cursor done rest).checkReadBound (toSize size) = true ↔
      size.toInt.natAbs ≤ done.length := by
  have least : -2 ^ 31 ≤ size.toInt := Int32.le_toInt size
  have below : size.toInt < 0 := by
    rw [Int32.lt_iff_toInt_lt] at negative
    exact negative
  simp only [List.length_append, SOCKET_BUF_SIZE] at small
  simp only [checkReadBound, cursor, Stream.size, List.length_append, toSize, sizeRange]
  simp only [Bool.not_eq_true', decide_eq_false_iff_not]
  omega

theorem strBody_throws {done rest : List UInt8} (small : (done ++ rest).length ≤ SOCKET_BUF_SIZE)
    {size : Int32} (negative : size < 0) (back : size.toInt.natAbs ≤ done.length) (retVal : Str) :
    (cursor done rest).strBody size retVal = .error .badLength := by
  simp only [strBody, (negative_check small negative).mpr back, if_true, negative]

theorem strBody_skips {done rest : List UInt8} (small : (done ++ rest).length ≤ SOCKET_BUF_SIZE)
    {size : Int32} (negative : size < 0) (far : ¬ size.toInt.natAbs ≤ done.length) (retVal : Str) :
    (cursor done rest).strBody size retVal = .ok (retVal, cursor done rest) := by
  have refused := mt (negative_check small negative).mp far
  simp only [strBody, refused]
  rfl

theorem strBody_room {done rest : List UInt8} (small : (done ++ rest).length ≤ SOCKET_BUF_SIZE)
    {size : Int32} (positive : ¬ size < 0) (room : toSize size ≤ rest.length) (retVal : Str) :
    (cursor done rest).strBody size retVal =
      .ok (cString (rest.take (toSize size)),
        cursor (done ++ rest.take (toSize size)) (rest.drop (toSize size))) := by
  have split : rest.take (toSize size) ++ rest.drop (toSize size) = rest :=
    List.take_append_drop _ rest
  have length : (rest.take (toSize size)).length = toSize size := List.length_take_of_le room
  have whole : (done ++ (rest.take (toSize size) ++ rest.drop (toSize size))).length ≤
      SOCKET_BUF_SIZE := by
    rw [split]
    exact small
  have check := cursor_check whole
  have value := cursor_read whole
  rw [length, split] at check value
  simp only [strBody, check, if_true, positive, if_false, value]

theorem strBody_short {done rest : List UInt8} (small : (done ++ rest).length ≤ SOCKET_BUF_SIZE)
    {size : Int32} (positive : ¬ size < 0) (short : rest.length < toSize size) (retVal : Str) :
    (cursor done rest).strBody size retVal = .ok (retVal, cursor done rest) := by
  have most : size.toInt < 2 ^ 31 := Int32.toInt_lt size
  have nonneg : 0 ≤ size.toInt := by
    rw [Int32.lt_iff_toInt_lt] at positive
    simpa using positive
  have refused : ¬ (cursor done rest).checkReadBound (toSize size) = true := by
    simp only [List.length_append, SOCKET_BUF_SIZE] at small
    simp only [toSize, sizeRange] at short
    simp only [checkReadBound, cursor, Stream.size, List.length_append, toSize, sizeRange]
    simp only [Bool.not_eq_true', decide_eq_false_iff_not, not_not]
    omega
  simp only [strBody, refused]
  rfl

theorem strBody_takes {done rest : List UInt8} (small : (done ++ rest).length ≤ SOCKET_BUF_SIZE)
    {size : Int32} (positive : ¬ size < 0) (retVal : Str) :
    ∃ value taken, (cursor done rest).strBody size retVal =
      .ok (value, cursor taken (behind (toSize size) rest)) ∧
      taken ++ behind (toSize size) rest = done ++ rest := by
  by_cases room : toSize size ≤ rest.length
  · refine ⟨cString (rest.take (toSize size)), done ++ rest.take (toSize size), ?_, ?_⟩
    · simp only [strBody_room small positive room, behind, room, if_true]
    · simp only [behind, room, if_true, List.append_assoc, List.take_append_drop]
  · refine ⟨retVal, done, ?_, ?_⟩
    · simp only [strBody_short small positive (Nat.lt_of_not_le room), behind, room, if_false]
    · simp only [behind, room, if_false]

end Stream

namespace Field

theorem read_throws_or_behind {done rest : List UInt8}
    (small : (done ++ rest).length ≤ SOCKET_BUF_SIZE) (unset : Int32) (field : Field) :
    (field.Throws unset (done ++ rest).length rest ∧
      ∃ reason, field.read unset (cursor done rest) = .error reason) ∨
    (¬ field.Throws unset (done ++ rest).length rest ∧ ∃ value taken,
      field.read unset (cursor done rest) = .ok (value, cursor taken (field.behind unset rest)) ∧
      taken ++ field.behind unset rest = done ++ rest) := by
  cases field with
  | byte retVal =>
      obtain ⟨taken, got, split⟩ := Stream.get_behind small (by decide : 1 ≤ 8) UInt8.ofNat retVal
      exact Or.inr ⟨id, _, taken, by simp only [read, Stream.getByte, got, behind]; rfl, split⟩
  | uint32 retVal =>
      obtain ⟨taken, got, split⟩ := Stream.get_behind small (by decide : 4 ≤ 8) UInt32.ofNat retVal
      exact Or.inr ⟨id, _, taken, by simp only [read, Stream.getUInt32, got, behind]; rfl, split⟩
  | uint64 retVal =>
      obtain ⟨taken, got, split⟩ := Stream.get_behind small (by decide : 8 ≤ 8) UInt64.ofNat retVal
      exact Or.inr ⟨id, _, taken, by simp only [read, Stream.getUInt64, got, behind]; rfl, split⟩
  | str retVal =>
      obtain ⟨taken, got, split⟩ := Stream.get_behind small (by decide : 4 ≤ 8) Int32.ofNat unset
      have text : read unset (cursor done rest) (.str retVal) =
          ((cursor taken (GraduationServer.behind 4 rest)).strBody (lengthAt unset rest) retVal).bind
            fun result => .ok (.str result.1, result.2) := by
        simp only [read, Stream.getStr_eq, got]
        rfl
      have still : (taken ++ GraduationServer.behind 4 rest).length ≤ SOCKET_BUF_SIZE := by
        rw [split]
        exact small
      have reached : (GraduationServer.behind 4 rest).length + taken.length =
          (done ++ rest).length := by
        rw [← split, List.length_append]
        omega
      by_cases negative : lengthAt unset rest < 0
      · by_cases back : (lengthAt unset rest).toInt.natAbs ≤ taken.length
        · refine Or.inl ⟨⟨negative, by omega⟩, .badLength, ?_⟩
          rw [text, Stream.strBody_throws still negative back]
          rfl
        · refine Or.inr ⟨?_, .str retVal, taken, ?_, ?_⟩
          · rintro ⟨_, within⟩
            omega
          · rw [text, Stream.strBody_skips still negative back]
            simp only [Except.bind, behind, negative, if_true]
          · simpa only [behind, negative, if_true] using split
      · obtain ⟨value, further, body, whole⟩ := Stream.strBody_takes still negative retVal
        refine Or.inr ⟨fun throws => negative throws.1, .str value, further, ?_, ?_⟩
        · rw [text, body]
          simp only [Except.bind, behind, negative, if_false]
        · simp only [behind, negative, if_false, whole, split]

theorem readAll_throws_iff (done : List UInt8) {rest : List UInt8}
    (small : (done ++ rest).length ≤ SOCKET_BUF_SIZE) (unset : Nat → Int32) (fields : List Field) :
    (∃ reason, readAll unset fields (cursor done rest) = .error reason) ↔
      AnyThrows unset (done ++ rest).length fields rest := by
  induction fields generalizing unset done rest with
  | nil => simp [readAll, AnyThrows, pure, Except.pure]
  | cons field later ih =>
      rcases read_throws_or_behind small (unset 0) field with
        ⟨throws, reason, stopped⟩ | ⟨returns, value, taken, got, split⟩
      · simp only [AnyThrows, throws, true_or, iff_true]
        exact ⟨reason, by simp only [readAll, stopped, bind, Except.bind]⟩
      · have still : (taken ++ field.behind (unset 0) rest).length ≤ SOCKET_BUF_SIZE := by
          rw [split]
          exact small
        have others := ih taken still (field.laterLengths unset)
        rw [split] at others
        rw [AnyThrows, ← others]
        simp only [returns, false_or]
        cases more : readAll (field.laterLengths unset) later
            (cursor taken (field.behind (unset 0) rest)) with
        | error reason => simp [readAll, got, more, bind, Except.bind]
        | ok result => simp [readAll, got, more, bind, Except.bind, pure, Except.pure]

theorem behind_nil (unset : Int32) (field : Field) : field.behind unset [] = [] := by
  cases field <;> simp [behind, GraduationServer.behind]

theorem nothing_throws (unset : Nat → Int32) (fields : List Field) :
    ¬ AnyThrows unset 0 fields [] := by
  induction fields generalizing unset with
  | nil => exact id
  | cons field later ih =>
      have returns : ¬ field.Throws (unset 0) 0 [] := by
        cases field with
        | str retVal =>
            rintro ⟨negative, within⟩
            have below : (lengthAt (unset 0) []).toInt < 0 := by
              rw [Int32.lt_iff_toInt_lt] at negative
              exact negative
            omega
        | byte retVal => exact id
        | uint32 retVal => exact id
        | uint64 retVal => exact id
      rw [AnyThrows, behind_nil]
      exact not_or.mpr ⟨returns, ih _⟩

end Field

theorem decode_throws_iff {w : List UInt8} (small : w.length ≤ SOCKET_BUF_SIZE)
    (unset : Nat → Int32) (fresh : Packet) :
    (∃ reason, fresh.decode unset (cursor [] w) = .error reason) ↔
      Field.AnyThrows unset w.length fresh.fields w := by
  have fields := decode_fields unset fresh (cursor [] w)
  have exactly := Field.readAll_throws_iff [] small unset fresh.fields
  rw [List.nil_append, ← fields] at exactly
  rw [← exactly]
  cases fresh.decode unset (cursor [] w) with
  | error reason => simp [Functor.map, Except.map]
  | ok result => simp [Functor.map, Except.map]

theorem getPacket_type {packetType : Nat} {fresh : Packet}
    (built : PacketFactory.getPacket packetType = some fresh) : fresh.type.code = packetType := by
  unfold PacketFactory.getPacket at built
  split at built <;> cases built <;> rfl

theorem getPacket_code {packetType : Nat} {fresh : Packet}
    (built : PacketFactory.getPacket packetType = some fresh) : packetType < 256 ^ 8 :=
  getPacket_type built ▸ Packet.code_lt fresh.type

def PacketAnalyzer.analyzerWith (getPacket : Nat → Option Packet) (unset : Nat → Int32)
    (rowPacket : List UInt8) (size : Nat) : Exec (Option Packet) :=
  let type := LittleEndian.decode (ZeroFilled.read rowPacket 0 8)
  match getPacket type with
  | none => .ok none
  | some packet =>
      if 8 < size then do
        let stream ← Stream.set (ZeroFilled.read rowPacket 8 (size - 8))
        let (packet, _) ← packet.decode unset stream
        return some packet
      else .ok (some packet)

theorem PacketAnalyzer.analyzer_eq (unset : Nat → Int32) (rowPacket : List UInt8) (size : Nat) :
    analyzer unset rowPacket size =
      analyzerWith PacketFactory.getPacket unset rowPacket size := rfl

theorem analyzerWith_built {getPacket : Nat → Option Packet} (unset : Nat → Int32)
    {packetType : Nat} (bound : packetType < 256 ^ 8) {fresh : Packet}
    (built : getPacket packetType = some fresh) (memory : List UInt8) (length : Nat) :
    PacketAnalyzer.analyzerWith getPacket unset (LittleEndian.encode 8 packetType ++ memory)
        (8 + length) =
      if length = 0 then .ok (some fresh)
      else if SOCKET_BUF_SIZE < length then .error .outOfBounds
      else (fresh.decode unset (cursor [] (ZeroFilled.read memory 0 length))).map
        fun result => some result.1 := by
  have start := ZeroFilled.read_start (LittleEndian.encode 8 packetType) memory
  rw [LittleEndian.encode_length] at start
  have body := ZeroFilled.read_behind (LittleEndian.encode 8 packetType) memory length
  rw [LittleEndian.encode_length] at body
  have counted : (ZeroFilled.read memory 0 length).length = length := by simp [ZeroFilled.read]
  simp only [PacketAnalyzer.analyzerWith, start, LittleEndian.decode_encode_of_lt bound, built,
    Nat.add_sub_cancel_left, body]
  by_cases empty : length = 0
  · simp [empty]
  · have positive : 8 < 8 + length := by omega
    simp only [positive, if_true, empty, if_false, Stream.set, counted]
    split
    · rfl
    · simp only [Stream.initial, cursor, List.nil_append, List.length_nil, bind, Except.bind]
      cases fresh.decode unset { stream_ := ZeroFilled.read memory 0 length, readPt_ := 0 } <;> rfl

theorem analyzer_row (unset : Nat → Int32) {packetType : Nat} {fresh : Packet}
    (built : PacketFactory.getPacket packetType = some fresh) (w : List UInt8) :
    PacketAnalyzer.analyzer unset (LittleEndian.encode 8 packetType ++ w) (8 + w.length) =
      if w = [] then .ok (some fresh)
      else if SOCKET_BUF_SIZE < w.length then .error .outOfBounds
      else (fresh.decode unset (cursor [] w)).map fun result => some result.1 := by
  rw [PacketAnalyzer.analyzer_eq, analyzerWith_built unset (getPacket_code built) built w w.length,
    ZeroFilled.read_all]
  simp only [List.length_eq_zero_iff]

theorem analyzer_returns_iff (unset : Nat → Int32) {packetType : Nat} {fresh : Packet}
    (built : PacketFactory.getPacket packetType = some fresh) (w : List UInt8) :
    (∃ packet, PacketAnalyzer.analyzer unset (LittleEndian.encode 8 packetType ++ w)
      (8 + w.length) = .ok (some packet)) ↔
      w.length ≤ SOCKET_BUF_SIZE ∧ ¬ DecodeThrows unset packetType w := by
  have throws : DecodeThrows unset packetType w ↔ Field.AnyThrows unset w.length fresh.fields w := by
    simp [DecodeThrows, built]
  rw [analyzer_row unset built, throws]
  by_cases empty : w = []
  · subst empty
    simp [Field.nothing_throws]
  · by_cases long : SOCKET_BUF_SIZE < w.length
    · simp [empty, long]
    · have small := Nat.le_of_not_lt long
      rw [← decode_throws_iff small]
      simp only [empty, if_false, long, small, true_and]
      cases fresh.decode unset (cursor [] w) with
      | error reason => simp [Except.map]
      | ok result => simp [Except.map]

/-- A payload that a packet comes back for is complete exactly where it is not
too short for the class, does not fit the stream, or holds a length that
`decode` throws on. -/
theorem accepted_only_complete_iff (unset : Nat → Int32) (packetType : Nat)
    (built : (PacketFactory.getPacket packetType).isSome) (w : List UInt8) :
    ((∃ packet, PacketAnalyzer.analyzer unset (LittleEndian.encode 8 packetType ++ w)
      (8 + w.length) = .ok (some packet)) → CompleteFor packetType w) ↔
      CompleteFor packetType w ∨ SOCKET_BUF_SIZE < w.length ∨ DecodeThrows unset packetType w := by
  obtain ⟨fresh, isFresh⟩ := Option.isSome_iff_exists.mp built
  rw [analyzer_returns_iff unset isFresh]
  constructor
  · intro only
    by_cases complete : CompleteFor packetType w
    · exact Or.inl complete
    · have refused := mt only complete
      by_cases long : SOCKET_BUF_SIZE < w.length
      · exact Or.inr (Or.inl long)
      · exact Or.inr (Or.inr (by_contra fun returns => refused ⟨Nat.le_of_not_lt long, returns⟩))
  · rintro (complete | long | throws) ⟨small, returns⟩
    · exact complete
    · omega
    · exact absurd throws returns

theorem accepted_only_complete_iff_login :
    ((∃ packet, PacketAnalyzer.analyzer (fun _ => 0) (LittleEndian.encode 8 132 ++ [1, 0, 0, 0])
      (8 + [1, 0, 0, 0].length) = .ok (some packet)) → CompleteFor 132 [1, 0, 0, 0]) ↔
      CompleteFor 132 [1, 0, 0, 0] ∨ SOCKET_BUF_SIZE < [1, 0, 0, 0].length ∨
        DecodeThrows (fun _ => 0) 132 [1, 0, 0, 0] :=
  accepted_only_complete_iff (fun _ => 0) 132 rfl [1, 0, 0, 0]

theorem login_payload {packet : Packet} (login : packet.type.code = 132) :
    8 ≤ packet.payload.length := by
  cases packet <;> simp only [Packet.type, PacketType.code] at login <;> try omega
  simp [Packet.payload, Packet.fields, Field.bytes, Field.pieces, Stream.encodeStr]
  omega

/-- A login whose id has its length and nothing else, and one with no payload at all. -/
theorem incomplete_accepted :
    PacketAnalyzer.analyzer (fun _ => 0) (LittleEndian.encode 8 132 ++ [1, 0, 0, 0]) 12 =
      .ok (some (.PK_C_REQ_ID_PW [] [])) ∧ ¬ CompleteFor 132 [1, 0, 0, 0] ∧
    PacketAnalyzer.analyzer (fun _ => 0) (LittleEndian.encode 8 132) 8 =
      .ok (some (.PK_C_REQ_ID_PW [] [])) ∧ ¬ CompleteFor 132 [] := by
  refine ⟨rfl, ?_, rfl, ?_⟩
  · rintro ⟨packet, login, start⟩
    have long := login_payload login
    have short := start.length_le
    simp only [List.length_cons, List.length_nil] at short
    omega
  · rintro ⟨packet, login, start⟩
    have long := login_payload login
    have short := start.length_le
    simp only [List.length_nil] at short
    omega

end GraduationServer
