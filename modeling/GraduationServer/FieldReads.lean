import GraduationServer.Library.NonZero
import GraduationServer.PacketCodec

/-!
What the reads of a packet's fields do on any stream, well formed or not: each
takes a piece of the bytes that are left, and keeps the default of its field
where the stream is too short for it.
-/

namespace GraduationServer

namespace Stream

structure Placed (stream : Stream) : Prop where
  inside : stream.readPt_ ≤ stream.size
  small : stream.size ≤ SOCKET_BUF_SIZE

def remaining (stream : Stream) : List UInt8 := stream.stream_.drop stream.readPt_

structure Takes (stream next : Stream) (bytes : List UInt8) : Prop where
  left : stream.remaining = bytes ++ next.remaining
  placed : Placed next

theorem Takes.refl {stream : Stream} (placed : Placed stream) : Takes stream stream [] :=
  ⟨rfl, placed⟩

theorem Takes.trans {stream middle next : Stream} {first second : List UInt8}
    (before : Takes stream middle first) (after : Takes middle next second) :
    Takes stream next (first ++ second) :=
  ⟨by rw [before.left, after.left, List.append_assoc], after.placed⟩

theorem read_takes {stream : Stream} (placed : Placed stream) {len : Nat}
    (room : stream.checkReadBound len = true) (positive : len < 2 ^ 63) :
    Takes stream (stream.read len).2 (stream.read len).1 ∧ (stream.read len).1.length = len := by
  have inside := placed.inside
  have small := placed.small
  simp only [size, SOCKET_BUF_SIZE] at inside small
  have exact_sum : (stream.readPt_ + len) % sizeRange = stream.readPt_ + len := by
    simp only [sizeRange]
    omega
  have fits : stream.readPt_ + len ≤ stream.stream_.length := by
    simpa [checkReadBound, exact_sum, size] using room
  have bytes : ZeroFilled.read stream.stream_ stream.readPt_ len =
      (stream.stream_.drop stream.readPt_).take len := ZeroFilled.read_inside fits
  simp only [read, exact_sum, bytes]
  constructor
  · constructor
    · rw [remaining, remaining, ← List.drop_drop, List.take_append_drop]
    · exact ⟨fits, by simpa only [size, SOCKET_BUF_SIZE] using small⟩
  · rw [List.length_take, List.length_drop]
    omega

theorem get_takes {α : Type} {stream : Stream} (placed : Placed stream) {width : Nat}
    (narrow : width ≤ 8) (ofNat : Nat → α) (retVal : α) :
    stream.get width ofNat retVal = (retVal, stream) ∨
    ∃ bytes next, stream.get width ofNat retVal = (ofNat (LittleEndian.decode bytes), next) ∧
      bytes.length = width ∧ Takes stream next bytes := by
  by_cases room : stream.checkReadBound width = true
  · obtain ⟨takes, length⟩ := read_takes placed room (by omega)
    exact Or.inr ⟨_, _, by simp [get, room], length, takes⟩
  · exact Or.inl (by simp [get, room])

/-- The bytes of a length that is negative or too large never pass the check
and the buffer's constructor both. -/
theorem getStr_body {stream : Stream} (placed : Placed stream) {length : Int32} {retVal value : Str}
    {next : Stream}
    (taken : (if stream.checkReadBound (toSize length) then
        if length < 0 then .error .badLength
        else .ok (cString (stream.read (toSize length)).1, (stream.read (toSize length)).2)
      else .ok (retVal, stream) : Exec (Str × Stream)) = .ok (value, next)) :
    (value = retVal ∧ next = stream) ∨
    ∃ body, value = cString body ∧ toSize length = body.length ∧ Takes stream next body := by
  by_cases room : stream.checkReadBound (toSize length) = true
  · by_cases negative : length < 0
    · simp [room, negative] at taken
    · simp only [room, if_true, negative, if_false, Except.ok.injEq, Prod.mk.injEq] at taken
      have nonneg : 0 ≤ length.toInt := by
        rw [Int32.lt_iff_toInt_lt] at negative
        simpa using negative
      have bound : length.toInt < 2 ^ 31 := Int32.toInt_lt length
      have positive : toSize length < 2 ^ 63 := by
        simp only [toSize, sizeRange]
        omega
      obtain ⟨takes, size⟩ := read_takes placed room positive
      obtain ⟨rfl, rfl⟩ := taken
      exact Or.inr ⟨_, rfl, size.symm, takes⟩
  · simp only [room, Bool.false_eq_true, if_false, Except.ok.injEq, Prod.mk.injEq] at taken
    exact Or.inl ⟨taken.1.symm, taken.2.symm⟩

end Stream

namespace Field

def read (unset : Int32) (stream : Stream) : Field → Exec (Field × Stream)
  | .byte value => do
      let (value, stream) := stream.getByte value
      return (.byte value, stream)
  | .uint32 value => do
      let (value, stream) := stream.getUInt32 value
      return (.uint32 value, stream)
  | .uint64 value => do
      let (value, stream) := stream.getUInt64 value
      return (.uint64 value, stream)
  | .str value => do
      let (value, stream) ← stream.getStr unset value
      return (.str value, stream)

def laterLengths (unset : Nat → Int32) : Field → Nat → Int32
  | .str _ => fun string => unset (string + 1)
  | _ => unset

def readAll (unset : Nat → Int32) : List Field → Stream → Exec (List Field × Stream)
  | [], stream => return ([], stream)
  | field :: later, stream => do
      let (value, stream) ← field.read (unset 0) stream
      let (values, stream) ← readAll (field.laterLengths unset) later stream
      return (value :: values, stream)

/-- What the read of a field with the given default leaves in it, and the
bytes it takes. A string whose length is missing is read with the length
`unset`, and one whose length is too large stays as it was. -/
inductive Taken (unset : Int32) : Field → Field → List UInt8 → Prop
  | kept (field : Field) : Taken unset field field []
  | byte {retVal : UInt8} {bytes : List UInt8} : bytes.length = 1 →
      Taken unset (.byte retVal) (.byte (UInt8.ofNat (LittleEndian.decode bytes))) bytes
  | uint32 {retVal : UInt32} {bytes : List UInt8} : bytes.length = 4 →
      Taken unset (.uint32 retVal) (.uint32 (UInt32.ofNat (LittleEndian.decode bytes))) bytes
  | uint64 {retVal : UInt64} {bytes : List UInt8} : bytes.length = 8 →
      Taken unset (.uint64 retVal) (.uint64 (UInt64.ofNat (LittleEndian.decode bytes))) bytes
  | str {retVal : Str} {header body : List UInt8} : header.length = 4 →
      toSize (Int32.ofNat (LittleEndian.decode header)) = body.length →
      Taken unset (.str retVal) (.str (Stream.cString body)) (header ++ body)
  | skipped {retVal : Str} {header : List UInt8} : header.length = 4 →
      Taken unset (.str retVal) (.str retVal) header
  | unsetLength {retVal : Str} {body : List UInt8} : toSize unset = body.length →
      Taken unset (.str retVal) (.str (Stream.cString body)) body

theorem scalar_read {α : Type} {make : α → Field} {width : Nat} {ofNat : Nat → α} {retVal : α}
    {value : Field} {stream next : Stream} (placed : Stream.Placed stream) (narrow : width ≤ 8)
    (taken : (.ok (make (stream.get width ofNat retVal).1, (stream.get width ofNat retVal).2) :
      Exec (Field × Stream)) = .ok (value, next)) :
    ∃ bytes, (value = make retVal ∧ bytes = [] ∨
      bytes.length = width ∧ value = make (ofNat (LittleEndian.decode bytes))) ∧
      Stream.Takes stream next bytes := by
  rcases Stream.get_takes placed narrow ofNat retVal with kept | ⟨bytes, after, got, length, takes⟩
  · rw [kept, Except.ok.injEq, Prod.mk.injEq] at taken
    obtain ⟨rfl, rfl⟩ := taken
    exact ⟨[], Or.inl ⟨rfl, rfl⟩, Stream.Takes.refl placed⟩
  · rw [got, Except.ok.injEq, Prod.mk.injEq] at taken
    obtain ⟨rfl, rfl⟩ := taken
    exact ⟨bytes, Or.inr ⟨length, rfl⟩, takes⟩

theorem read_taken {unset : Int32} {field value : Field} {stream next : Stream}
    (placed : Stream.Placed stream) (taken : field.read unset stream = .ok (value, next)) :
    ∃ bytes, Taken unset field value bytes ∧ Stream.Takes stream next bytes := by
  cases field with
  | byte retVal =>
      obtain ⟨bytes, ⟨rfl, rfl⟩ | ⟨length, rfl⟩, takes⟩ := scalar_read placed (by decide) taken
      · exact ⟨[], Taken.kept _, takes⟩
      · exact ⟨bytes, Taken.byte length, takes⟩
  | uint32 retVal =>
      obtain ⟨bytes, ⟨rfl, rfl⟩ | ⟨length, rfl⟩, takes⟩ := scalar_read placed (by decide) taken
      · exact ⟨[], Taken.kept _, takes⟩
      · exact ⟨bytes, Taken.uint32 length, takes⟩
  | uint64 retVal =>
      obtain ⟨bytes, ⟨rfl, rfl⟩ | ⟨length, rfl⟩, takes⟩ := scalar_read placed (by decide) taken
      · exact ⟨[], Taken.kept _, takes⟩
      · exact ⟨bytes, Taken.uint64 length, takes⟩
  | str retVal =>
      obtain ⟨⟨text, after⟩, got, result⟩ := Exec.bind_ok taken
      simp only [pure, Except.pure, Except.ok.injEq, Prod.mk.injEq] at result
      obtain ⟨rfl, rfl⟩ := result
      rcases Stream.get_takes placed (by decide : 4 ≤ 8) Int32.ofNat unset with
        missing | ⟨header, behind, length, four, takes⟩
      · simp only [Stream.getStr, missing] at got
        rcases Stream.getStr_body placed got with ⟨rfl, rfl⟩ | ⟨body, rfl, counted, takes⟩
        · exact ⟨[], Taken.kept _, Stream.Takes.refl placed⟩
        · exact ⟨body, Taken.unsetLength counted, takes⟩
      · simp only [Stream.getStr, length] at got
        rcases Stream.getStr_body takes.placed got with ⟨rfl, rfl⟩ | ⟨body, rfl, counted, more⟩
        · exact ⟨header, Taken.skipped four, takes⟩
        · exact ⟨header ++ body, Taken.str four counted, takes.trans more⟩

inductive TakenAll : (Nat → Int32) → List Field → List Field → List UInt8 → Prop
  | nil (unset : Nat → Int32) : TakenAll unset [] [] []
  | cons {unset : Nat → Int32} {field value : Field} {fields values : List Field}
      {first later : List UInt8} :
      Taken (unset 0) field value first →
      TakenAll (field.laterLengths unset) fields values later →
      TakenAll unset (field :: fields) (value :: values) (first ++ later)

theorem readAll_taken {unset : Nat → Int32} {fields values : List Field} {stream next : Stream}
    (placed : Stream.Placed stream) (taken : readAll unset fields stream = .ok (values, next)) :
    ∃ bytes, TakenAll unset fields values bytes ∧ Stream.Takes stream next bytes := by
  induction fields generalizing unset values stream with
  | nil =>
      simp only [readAll, pure, Except.pure, Except.ok.injEq, Prod.mk.injEq] at taken
      obtain ⟨rfl, rfl⟩ := taken
      exact ⟨[], TakenAll.nil unset, Stream.Takes.refl placed⟩
  | cons field later ih =>
      obtain ⟨⟨value, middle⟩, first, rest⟩ := Exec.bind_ok taken
      obtain ⟨⟨others, finish⟩, second, result⟩ := Exec.bind_ok rest
      simp only [pure, Except.pure, Except.ok.injEq, Prod.mk.injEq] at result
      obtain ⟨rfl, rfl⟩ := result
      obtain ⟨bytes, takenFirst, takes⟩ := read_taken placed first
      obtain ⟨more, takenLater, continued⟩ := ih takes.placed second
      exact ⟨bytes ++ more, TakenAll.cons takenFirst takenLater, takes.trans continued⟩

end Field

theorem decode_fields (unset : Nat → Int32) (packet : Packet) (stream : Stream) :
    Prod.map Packet.fields id <$> packet.decode unset stream =
      Field.readAll unset packet.fields stream := by
  have nothing (other : Packet) : Prod.map Packet.fields id <$>
      (Except.ok (other, stream) : Exec (Packet × Stream)) = pure (other.fields, stream) := rfl
  cases packet <;>
    simp only [Packet.decode, nothing, Packet.fields, Field.readAll, Field.read,
      Field.laterLengths, bind_assoc, pure_bind, map_bind, map_pure, Prod.map_apply, id_eq,
      Nat.zero_add]

theorem decode_type (unset : Nat → Int32) (packet : Packet) (stream : Stream) :
    Prod.map Packet.type id <$> packet.decode unset stream =
      (fun result => (packet.type, result.2)) <$> packet.decode unset stream := by
  have nothing (other : Packet) (change : Packet × Stream → PacketType × Stream) :
      change <$> (Except.ok (other, stream) : Exec (Packet × Stream)) =
        pure (change (other, stream)) := rfl
  cases packet <;>
    simp only [Packet.decode, nothing, Packet.type, map_bind, map_pure, Prod.map_apply, id_eq]

theorem decode_ok_iff {unset : Nat → Int32} {packet : Packet} {stream next : Stream}
    {values : List Field} :
    Field.readAll unset packet.fields stream = .ok (values, next) ↔
      ∃ result, packet.decode unset stream = .ok (result, next) ∧
        result.type = packet.type ∧ result.fields = values := by
  have fields := decode_fields unset packet stream
  have type := decode_type unset packet stream
  rw [← fields]
  cases decoded : packet.decode unset stream with
  | error reason => simp [Functor.map, Except.map]
  | ok result =>
      obtain ⟨other, finish⟩ := result
      rw [decoded] at type
      have same : other.type = packet.type :=
        congrArg Prod.fst (Except.ok.inj type)
      simp only [Functor.map, Except.map, Prod.map_apply, id_eq, Except.ok.injEq, Prod.mk.injEq]
      constructor
      · rintro ⟨rfl, rfl⟩
        exact ⟨other, ⟨rfl, rfl⟩, same, rfl⟩
      · rintro ⟨_, ⟨rfl, rfl⟩, _, rfl⟩
        exact ⟨rfl, rfl⟩

theorem decode_taken {unset : Nat → Int32} {packet result : Packet} {stream next : Stream}
    (placed : Stream.Placed stream) (decoded : packet.decode unset stream = .ok (result, next)) :
    ∃ bytes, Field.TakenAll unset packet.fields result.fields bytes ∧
      Stream.Takes stream next bytes := by
  apply Field.readAll_taken placed
  rw [← decode_fields, decoded]
  rfl

/-! A negative length is all that stops a read. -/

theorem Field.read_fault {unset : Int32} {field : Field} {stream : Stream} {reason : Fault}
    (stopped : field.read unset stream = .error reason) : reason = .badLength := by
  cases field with
  | byte retVal => cases stopped
  | uint32 retVal => cases stopped
  | uint64 retVal => cases stopped
  | str retVal =>
      rcases Exec.bind_error stopped with text | ⟨_, _, rest⟩
      · simp only [Stream.getStr] at text
        split at text
        · split at text
          · exact (Except.error.inj text).symm
          · cases text
        · cases text
      · cases rest

theorem Field.readAll_fault {unset : Nat → Int32} {fields : List Field} {stream : Stream}
    {reason : Fault} (stopped : Field.readAll unset fields stream = .error reason) :
    reason = .badLength := by
  induction fields generalizing unset stream with
  | nil => cases stopped
  | cons field later ih =>
      rcases Exec.bind_error stopped with first | ⟨_, _, rest⟩
      · exact Field.read_fault first
      · rcases Exec.bind_error rest with second | ⟨_, _, result⟩
        · exact ih second
        · cases result

theorem decode_fault {unset : Nat → Int32} {packet : Packet} {stream : Stream} {reason : Fault}
    (stopped : packet.decode unset stream = .error reason) : reason = .badLength := by
  have reading : Field.readAll unset packet.fields stream = .error reason := by
    rw [← decode_fields, stopped]
    rfl
  exact Field.readAll_fault reading

theorem analyzer_fault {unset : Nat → Int32} {rowPacket : List UInt8} {size : Nat} {reason : Fault}
    (stopped : PacketAnalyzer.analyzer unset rowPacket size = .error reason) :
    reason = .badLength ∨ reason = .outOfBounds := by
  rw [PacketAnalyzer.analyzer] at stopped
  split at stopped
  · cases stopped
  · split at stopped
    · rcases Exec.bind_error stopped with full | ⟨stream, _, rest⟩
      · rw [Stream.set] at full
        split at full
        · exact Or.inr (Except.error.inj full).symm
        · cases full
      · rcases Exec.bind_error rest with decoded | ⟨_, _, result⟩
        · exact Or.inl (decode_fault decoded)
        · cases result
    · cases stopped

end GraduationServer
