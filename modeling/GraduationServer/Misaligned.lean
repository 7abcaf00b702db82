import GraduationServer.FieldReads
import GraduationServer.TerminalReceive
import Mathlib.Algebra.Order.BigOperators.Group.List

/-!
A packet never comes out of the middle of its own frame. The argument counts
the bytes that are not zero: a packet read behind the start of its frame has
only those that follow the start, and the type that was read there is one of
those in front of them.
-/

namespace GraduationServer

open Packet

namespace Field

/-- How many bytes that are not zero a field at least takes when it is read. -/
def weight : Field → Nat
  | .byte value => NonZero.count [value]
  | .uint32 value => NonZero.count (LittleEndian.encode 4 value.toNat)
  | .uint64 value => NonZero.count (LittleEndian.encode 8 value.toNat)
  | .str value => if value = [] then 0 else 1 + value.length

/-- What the length of a string has over the one byte that its weight counts. -/
def excess : Field → Nat
  | .str value => NonZero.count (LittleEndian.encode 4 value.length) - 1
  | _ => 0

theorem count_bytes_le (field : Field) : NonZero.count field.bytes ≤ field.weight + field.excess := by
  cases field with
  | byte value => simp [bytes, pieces, weight, excess]
  | uint32 value => simp [bytes, pieces, weight, excess]
  | uint64 value => simp [bytes, pieces, weight, excess]
  | str value =>
      have body := NonZero.count_le_length value
      rw [bytes, pieces, Stream.strPieces_flatten, Stream.encodeStr, NonZero.count_append, weight,
        excess]
      by_cases empty : value = []
      · subst empty
        decide
      · rw [if_neg empty]
        omega

theorem toSize_zero : toSize 0 = 0 := by decide

theorem Taken.str_shape {field : Field} {text : Str} {bytes : List UInt8} (blank : field.weight = 0)
    (taken : Taken 0 field (.str text) bytes) :
    text = [] ∨ ∃ header body, bytes = header ++ body ∧ header.length = 4 ∧
      LittleEndian.decode header ≠ 0 ∧ text = Stream.cString body := by
  have blank_str {retVal : Str} (zero : (Field.str retVal).weight = 0) : retVal = [] := by
    by_contra other
    rw [weight, if_neg other] at zero
    omega
  cases taken with
  | kept => exact Or.inl (blank_str blank)
  | skipped four => exact Or.inl (blank_str blank)
  | unsetLength size =>
      rw [toSize_zero] at size
      rw [List.eq_nil_of_length_eq_zero size.symm]
      exact Or.inl rfl
  | @str retVal header body four size =>
      by_cases zero : LittleEndian.decode header = 0
      · have none_left : toSize (Int32.ofNat 0) = 0 := by decide
        rw [zero, none_left] at size
        rw [List.eq_nil_of_length_eq_zero size.symm]
        exact Or.inl rfl
      · exact Or.inr ⟨header, body, rfl, four, zero, rfl⟩

theorem Taken.length_le {field : Field} {text : Str} {bytes : List UInt8} (blank : field.weight = 0)
    (taken : Taken 0 field (.str text) bytes) (some_text : text ≠ []) :
    4 + text.length ≤ bytes.length := by
  obtain empty | ⟨header, body, rfl, four, -, rfl⟩ := taken.str_shape blank
  · exact absurd empty some_text
  · have cut := (List.takeWhile_sublist (· ≠ 0) (l := body)).length_le
    rw [List.length_append, four, Stream.cString]
    omega

theorem Taken.weight_le {field value : Field} {bytes : List UInt8} (blank : field.weight = 0)
    (taken : Taken 0 field value bytes) : value.weight ≤ NonZero.count bytes := by
  cases value with
  | byte value =>
      cases taken with
      | kept => omega
      | byte length =>
          obtain ⟨byte, rfl⟩ := List.length_eq_one_iff.mp length
          simp [weight, LittleEndian.decode]
  | uint32 value =>
      cases taken with
      | kept => omega
      | uint32 length =>
          have bound := LittleEndian.decode_lt bytes
          rw [length] at bound
          rw [weight, UInt32.toNat_ofNat_of_lt' (by simpa using bound), ← length,
            LittleEndian.encode_decode]
  | uint64 value =>
      cases taken with
      | kept => omega
      | uint64 length =>
          have bound := LittleEndian.decode_lt bytes
          rw [length] at bound
          rw [weight, UInt64.toNat_ofNat_of_lt' (by simpa using bound), ← length,
            LittleEndian.encode_decode]
  | str text =>
      rw [weight]
      split
      · exact Nat.zero_le _
      · rename_i some_text
        obtain empty | ⟨header, body, rfl, four, nonzero, rfl⟩ := taken.str_shape blank
        · exact absurd empty some_text
        · have first := NonZero.count_pos_of_decode nonzero
          have cut := NonZero.takeWhile_length_le body
          rw [NonZero.count_append, Stream.cString]
          omega

theorem laterLengths_zero {unset : Nat → Int32} (zero : ∀ string, unset string = 0)
    (field : Field) : ∀ string, field.laterLengths unset string = 0 := by
  intro string
  cases field <;> exact zero _

theorem TakenAll.weight_le {unset : Nat → Int32} {fields values : List Field} {bytes : List UInt8}
    (zero : ∀ string, unset string = 0) (blank : ∀ field ∈ fields, field.weight = 0)
    (taken : TakenAll unset fields values bytes) :
    (values.map weight).sum ≤ NonZero.count bytes := by
  induction taken with
  | nil => exact Nat.zero_le _
  | cons first _ ih =>
      rw [zero 0] at first
      have one := first.weight_le (blank _ List.mem_cons_self)
      have others := ih (laterLengths_zero zero _)
        (fun field member => blank field (List.mem_cons_of_mem _ member))
      rw [List.map_cons, List.sum_cons, NonZero.count_append]
      omega

theorem TakenAll.length_le {unset : Nat → Int32} {fields values : List Field} {bytes : List UInt8}
    (zero : ∀ string, unset string = 0) (blank : ∀ field ∈ fields, field.weight = 0)
    (taken : TakenAll unset fields values bytes) {text : Str} (member : .str text ∈ values)
    (some_text : text ≠ []) : 4 + text.length ≤ bytes.length := by
  induction taken with
  | nil => simp at member
  | cons first _ ih =>
      rw [zero 0] at first
      rw [List.length_append]
      rcases List.mem_cons.mp member with rfl | member
      · have one := first.length_le (blank _ List.mem_cons_self) some_text
        omega
      · have others := ih (laterLengths_zero zero _)
          (fun field member => blank field (List.mem_cons_of_mem _ member)) member
        omega

/-! Only a length from 256 on has two bytes that are not zero. -/

theorem encode_length_bytes {length : Nat} (short : length < 256 * 256) :
    LittleEndian.encode 4 length = [UInt8.ofNat length, UInt8.ofNat (length / 256), 0, 0] := by
  have third : length / 256 / 256 = 0 := by omega
  simp [LittleEndian.encode, third]

theorem excess_str {text : Str} (short : text.length < 256 * 256) : (Field.str text).excess ≤ 1 ∧
    ((Field.str text).excess = 1 →
      256 ≤ text.length ∧ UInt8.ofNat text.length ≠ 0 ∧ UInt8.ofNat (text.length / 256) ≠ 0) := by
  have counted : (Field.str text).excess =
      NonZero.count [UInt8.ofNat text.length, UInt8.ofNat (text.length / 256)] - 1 := by
    rw [excess, encode_length_bytes short]
    simp [NonZero.count, List.countP_cons]
  by_cases low : UInt8.ofNat text.length = 0
  · simp only [counted, low, NonZero.count, List.countP_cons, List.countP_nil]
    split <;> simp
  · by_cases high : UInt8.ofNat (text.length / 256) = 0
    · simp [counted, low, high, NonZero.count]
    · refine ⟨by simp [counted, low, high, NonZero.count], fun _ => ⟨?_, low, high⟩⟩
      by_contra small
      have none_there : text.length / 256 = 0 := by omega
      rw [none_there] at high
      exact high rfl

def isStr : Field → Bool
  | .str _ => true
  | _ => false

theorem sum_excess_le {fields : List Field}
    (short : ∀ text, .str text ∈ fields → text.length < 256 * 256) :
    (fields.map excess).sum ≤ fields.countP isStr := by
  induction fields with
  | nil => exact Nat.le_refl _
  | cons field later ih =>
      have others := ih fun text member => short text (List.mem_cons_of_mem _ member)
      rw [List.map_cons, List.sum_cons, List.countP_cons]
      cases field with
      | str text =>
          have one := (excess_str (short text List.mem_cons_self)).1
          simp only [isStr, if_true]
          omega
      | _ =>
          simp only [excess, isStr, Bool.false_eq_true, if_false]
          omega

end Field

namespace Packet

theorem fresh_blank {type : Nat} {fresh : Packet}
    (built : PacketFactory.getPacket type = some fresh) : ∀ field ∈ fresh.fields, field.weight = 0 := by
  unfold PacketFactory.getPacket at built
  split at built <;> first | contradiction | (rw [← Option.some.inj built]; decide)

theorem built_type {type : Nat} {fresh : Packet}
    (built : PacketFactory.getPacket type = some fresh) : type % 256 ≠ 0 := by
  unfold PacketFactory.getPacket at built
  split at built <;> first | contradiction | decide

/-- No packet has more than two strings, and eight bytes at most stand in front
of the first of two. -/
theorem strings_shape (packet : Packet) : packet.fields.countP Field.isStr ≤ 1 ∨
    ∃ before text later, packet.fields = before ++ .str text :: later ∧
      (before.flatMap Field.bytes).length ≤ 8 ∧ before.countP Field.isStr = 0 ∧
      later.countP Field.isStr = 1 := by
  cases packet with
  | PK_C_REQ_ID_PW id_ password_ => exact Or.inr ⟨[], id_, [.str password_], rfl, by simp, rfl, rfl⟩
  | PK_S_ANS_ID_PW_SUCCESS ip_ port_ name_ =>
      exact Or.inr ⟨[], ip_, [.uint32 port_, .str name_], rfl, by simp, rfl, rfl⟩
  | PK_I_DB_REQ_ID_PW clientId_ id_ password_ =>
      exact Or.inr ⟨[.uint64 clientId_], id_, [.str password_], rfl,
        by simp [Field.bytes, Field.pieces], rfl, rfl⟩
  | PK_S_ANS_CHATTING name_ text_ => exact Or.inr ⟨[], name_, [.str text_], rfl, by simp, rfl, rfl⟩
  | _ => exact Or.inl (by simp [fields, List.countP_cons, Field.isStr])

theorem frame_eq (packet : Packet) : packet.frame =
    LittleEndian.encode 4 (4 + packet.encoding.length) ++
      (UInt8.ofNat packet.type.code :: (List.replicate 7 0 ++ packet.payload)) := by
  have small : packet.type.code / 256 = 0 := by cases packet.type <;> rfl
  rw [frame, encoding]
  simp [LittleEndian.encode, small, List.replicate]

theorem frame_getD (packet : Packet) {position : Nat} (behind : 4 < position)
    (nonzero : packet.frame.getD position 0 ≠ 0) :
    12 ≤ position ∧ packet.payload.getD (position - 12) 0 ≠ 0 := by
  obtain ⟨after, rfl⟩ : ∃ after, position = 5 + after := ⟨position - 5, by omega⟩
  have past : packet.frame.getD (5 + after) 0 =
      (List.replicate 7 0 ++ packet.payload).getD after 0 := by
    rw [frame_eq, List.getD_eq_getElem?_getD, List.getD_eq_getElem?_getD,
      List.getElem?_append_right (by simp; omega), LittleEndian.encode_length,
      (by omega : 5 + after - 4 = after + 1), List.getElem?_cons_succ]
  rw [past, List.getD_eq_getElem?_getD] at nonzero
  by_cases zeros : after < 7
  · rw [List.getElem?_append_left (by simpa using zeros), List.getElem?_replicate,
      if_pos zeros] at nonzero
    exact absurd rfl nonzero
  · rw [List.getElem?_append_right (by simpa using zeros), List.length_replicate] at nonzero
    refine ⟨by omega, ?_⟩
    rwa [List.getD_eq_getElem?_getD, (by omega : 5 + after - 12 = after - 7)]

theorem block_getD {packet : Packet} {missed block behind : List UInt8}
    (inside : missed ++ block ++ behind = packet.frame) {position : Nat}
    (past : 4 < missed.length + position) (nonzero : block.getD position 0 ≠ 0) :
    12 ≤ missed.length + position ∧
      packet.payload.getD (missed.length + position - 12) 0 ≠ 0 := by
  have held : position < block.length := by
    by_contra outside
    exact nonzero (by simp [Nat.le_of_not_lt outside])
  apply frame_getD packet past
  rw [← inside, List.append_assoc, List.getD_eq_getElem?_getD,
    List.getElem?_append_right (by omega), Nat.add_sub_cancel_left,
    List.getElem?_append_left held]
  rwa [List.getD_eq_getElem?_getD] at nonzero

theorem block_drop_count {packet : Packet} {missed block behind : List UInt8}
    (inside : missed ++ block ++ behind = packet.frame) :
    NonZero.count (block.drop 12) ≤ NonZero.count (packet.payload.drop missed.length) := by
  have payload : packet.payload = packet.frame.drop 12 := by
    rw [frame, encoding, ← List.append_assoc, List.drop_left' (by simp)]
  have later : packet.payload.drop missed.length = (block ++ behind).drop 12 := by
    rw [payload, ← inside, List.drop_drop, List.append_assoc, Nat.add_comm 12, ← List.drop_drop,
      List.drop_left]
  rw [later, List.drop_append, NonZero.count_append]
  omega

end Packet

namespace TerminalSession

theorem read_four (bytes : List UInt8) : ZeroFilled.read bytes 0 4 =
    [bytes.getD 0 0, bytes.getD 1 0, bytes.getD 2 0, bytes.getD 3 0] := by
  rcases bytes with _ | ⟨first, _ | ⟨second, _ | ⟨third, _ | ⟨fourth, rest⟩⟩⟩⟩ <;> rfl

theorem toSize_eq {value : Nat} (bound : value < 256 ^ 4)
    (small : toSize (Int32.ofNat value) < 2 ^ 31) : toSize (Int32.ofNat value) = value := by
  by_cases positive : value < 2 ^ 31
  · exact Stream.toSize_ofNat positive
  · have negative : (Int32.ofNat value).toInt = (value : Int) - 2 ^ 32 := by
      rw [Int32.toInt_ofNat', Int.bmod, Int32.size]
      split <;> omega
    simp only [toSize, negative, sizeRange] at small
    omega

theorem packetLen_second {first : List UInt8} (large : 256 ≤ toSize (packetLen [] first))
    (small : toSize (packetLen [] first) < 256 * 256) : first.getD 1 0 ≠ 0 := by
  have row : rowData [] first = first := by simp [rowData]
  simp only [packetLen, row, read_four] at large small
  have bound := LittleEndian.decode_lt
    [first.getD 0 0, first.getD 1 0, first.getD 2 0, first.getD 3 0]
  rw [toSize_eq bound (by omega)] at large small
  intro zero
  have low : (first.getD 0 0).toNat < 256 := UInt8.toNat_lt _
  simp only [LittleEndian.decode, zero, UInt8.toNat_zero] at large small
  omega

/-- What a packet tells about the bytes it was read from, in zero memory. -/
structure ReadFrom (packet : Packet) (block : List UInt8) (size : Nat) : Prop where
  typed : block.getD 4 0 ≠ 0
  weighed : (packet.fields.map Field.weight).sum ≤ NonZero.count (block.drop 12)
  short : ∀ text, .str text ∈ packet.fields → text ≠ [] →
    12 + text.length ≤ size ∧ size + 4 ≤ SOCKET_BUF_SIZE

theorem decode_low (bytes : List UInt8) :
    LittleEndian.decode (ZeroFilled.read bytes 0 8) % 256 = (bytes.getD 0 0).toNat := by
  cases bytes with
  | nil => decide
  | cons byte rest =>
      have low : byte.toNat < 256 := byte.toNat_lt
      have start : ZeroFilled.read (byte :: rest) 0 8 =
          byte :: (rest ++ List.replicate 8 0).take 7 := rfl
      rw [start, LittleEndian.decode, List.getD_cons_zero]
      omega

theorem set_stream {data : List UInt8} {stream : Stream} (set : Stream.set data = .ok stream) :
    Stream.Placed stream ∧ stream.remaining = data := by
  by_cases long : SOCKET_BUF_SIZE < data.length
  · simp [Stream.set, long] at set
  · simp only [Stream.set, long, if_false, Except.ok.injEq] at set
    subst set
    exact ⟨⟨Nat.zero_le _, Nat.le_of_not_lt long⟩, rfl⟩

theorem blank_readFrom {packet : Packet} {block : List UInt8} {size : Nat}
    (typed : block.getD 4 0 ≠ 0) (blank : ∀ field ∈ packet.fields, field.weight = 0) :
    ReadFrom packet block size := by
  have nothing : (packet.fields.map Field.weight).sum = 0 := by
    rw [List.sum_eq_zero_iff]
    intro weight member
    obtain ⟨field, inPacket, rfl⟩ := List.mem_map.mp member
    exact blank field inPacket
  refine ⟨typed, by omega, ?_⟩
  intro text member some_text
  have zero := blank _ member
  rw [Field.weight, if_neg some_text] at zero
  omega

theorem decode_readFrom {fresh packet : Packet} {block : List UInt8} {size : Nat}
    {stream finish : Stream} (typed : block.getD 4 0 ≠ 0)
    (blank : ∀ field ∈ fresh.fields, field.weight = 0) (long : 8 < size)
    (inside : 4 + size ≤ SOCKET_BUF_SIZE)
    (set : Stream.set (ZeroFilled.read (block.drop 4) 8 (size - 8)) = .ok stream)
    (decoded : fresh.decode (fun _ => 0) stream = .ok (packet, finish)) :
    ReadFrom packet block size := by
  obtain ⟨placed, remaining⟩ := set_stream set
  obtain ⟨bytes, taken, takes⟩ := decode_taken placed decoded
  have left : bytes ++ finish.remaining = ZeroFilled.read (block.drop 4) 8 (size - 8) := by
    rw [← takes.left, remaining]
  constructor
  · exact typed
  · have weight := taken.weight_le (fun _ => rfl) blank
    have counted := congrArg NonZero.count left
    have real := NonZero.count_read_le (block.drop 4) 8 (size - 8)
    simp only [List.drop_drop, Nat.reduceAdd] at real
    rw [NonZero.count_append] at counted
    omega
  · intro text member some_text
    have length := taken.length_le (fun _ => rfl) blank member some_text
    have total := congrArg List.length left
    simp only [ZeroFilled.read, List.length_append, List.length_take, List.length_replicate]
      at total
    omega

theorem analyze_readFrom {block : List UInt8} {packetLen : Int32} {packet : Packet}
    (analyzed : analyze (fun _ => 0) block packetLen = .ok (some packet)) :
    ReadFrom packet block (toSize packetLen) := by
  unfold analyze at analyzed
  split at analyzed
  · contradiction
  · rename_i inside
    unfold PacketAnalyzer.analyzer at analyzed
    cases built : PacketFactory.getPacket
        (LittleEndian.decode (ZeroFilled.read (block.drop 4) 0 8)) with
    | none => simp [built] at analyzed
    | some fresh =>
        have blank := fresh_blank built
        have typed : block.getD 4 0 ≠ 0 := by
          intro zero
          have low := decode_low (block.drop 4)
          rw [List.getD_eq_getElem?_getD, List.getElem?_drop, ← List.getD_eq_getElem?_getD,
            Nat.add_zero, zero] at low
          exact built_type built low
        simp only [built] at analyzed
        by_cases long : 8 < toSize packetLen
        · have room : 4 + toSize packetLen ≤ SOCKET_BUF_SIZE := by
            by_contra outside
            exact inside ⟨by rw [built]; rfl, long, Nat.lt_of_not_le outside⟩
          rw [if_pos long] at analyzed
          obtain ⟨stream, set, rest⟩ := Exec.bind_ok analyzed
          obtain ⟨⟨other, finish⟩, decoded, result⟩ := Exec.bind_ok rest
          simp only [pure, Except.pure, Except.ok.injEq, Option.some.injEq] at result
          subst result
          exact decode_readFrom typed blank long room set decoded
        · rw [if_neg long, Except.ok.injEq, Option.some.injEq] at analyzed
          subst analyzed
          exact blank_readFrom typed blank

theorem payload_count_le (packet : Packet) : NonZero.count packet.payload ≤
    (packet.fields.map Field.weight).sum + (packet.fields.map Field.excess).sum := by
  rw [payload]
  induction packet.fields with
  | nil => exact Nat.le_refl _
  | cons field later ih =>
      have one := Field.count_bytes_le field
      rw [List.flatMap_cons, NonZero.count_append, List.map_cons, List.map_cons, List.sum_cons,
        List.sum_cons]
      omega

theorem text_length_le {packet : Packet} {text : Str} (member : .str text ∈ packet.fields) :
    text.length ≤ packet.payload.length := by
  have part : (Field.str text).bytes.Sublist packet.payload := by
    rw [payload, List.flatMap_def]
    exact List.sublist_flatten_of_mem (List.mem_map_of_mem member)
  have shorter := part.length_le
  rw [Field.bytes, Field.pieces, Stream.strPieces_flatten, Stream.encodeStr,
    List.length_append] at shorter
  omega

theorem exists_long {packet : Packet} (short : packet.payload.length < 256 * 256)
    (some_excess : 0 < (packet.fields.map Field.excess).sum) :
    ∃ text, .str text ∈ packet.fields ∧ 256 ≤ text.length := by
  by_contra none_long
  have nothing : (packet.fields.map Field.excess).sum = 0 := by
    rw [List.sum_eq_zero_iff]
    intro excess member
    obtain ⟨field, inPacket, rfl⟩ := List.mem_map.mp member
    cases field with
    | str text =>
        have one := Field.excess_str (Nat.lt_of_le_of_lt (text_length_le inPacket) short)
        by_contra other
        exact none_long ⟨text, inPacket, (one.2 (by omega)).1⟩
    | _ => rfl
  omega

theorem two_long {packet : Packet} (short : packet.payload.length < 256 * 256)
    (long : 2 ≤ (packet.fields.map Field.excess).sum) :
    (packet.fields.map Field.excess).sum = 2 ∧ ∃ position ≤ 8,
      packet.payload.getD position 0 ≠ 0 ∧ packet.payload.getD (position + 1) 0 ≠ 0 := by
  have shorter (text : Str) (member : .str text ∈ packet.fields) : text.length < 256 * 256 :=
    Nat.lt_of_le_of_lt (text_length_le member) short
  have most := Field.sum_excess_le shorter
  rcases packet.strings_shape with few | ⟨before, text, later, shape, room, none_before, one_later⟩
  · omega
  · have one := Field.excess_str (shorter text (by simp [shape]))
    have first : (before.map Field.excess).sum ≤ 0 := by
      rw [← none_before]
      exact Field.sum_excess_le fun other member => shorter other (by simp [shape, member])
    have second : (later.map Field.excess).sum ≤ 1 := by
      rw [← one_later]
      exact Field.sum_excess_le fun other member => shorter other (by simp [shape, member])
    simp only [shape, List.map_append, List.map_cons, List.sum_append, List.sum_cons] at long ⊢
    obtain ⟨-, low, high⟩ := one.2 (by omega)
    refine ⟨by omega, (before.flatMap Field.bytes).length, room, ?_⟩
    have start : packet.payload = before.flatMap Field.bytes ++
        (UInt8.ofNat text.length :: UInt8.ofNat (text.length / 256) ::
          ([0, 0] ++ (text ++ later.flatMap Field.bytes))) := by
      rw [payload, shape, List.flatMap_append, List.flatMap_cons, Field.bytes, Field.pieces,
        Stream.strPieces_flatten, Stream.encodeStr,
        Field.encode_length_bytes (shorter text (by simp [shape]))]
      simp
    generalize before.flatMap Field.bytes = front at start
    constructor
    · simpa [start, List.getD_eq_getElem?_getD] using low
    · simpa [start, List.getD_eq_getElem?_getD] using high

/-- No call gives a packet for a block from behind the start of the packet's
own frame. -/
theorem misaligned {packet : Packet} {missed first more behind : List UInt8} (some_missed : missed ≠ [])
    (inside : missed ++ (first ++ more) ++ behind = packet.frame)
    (fits : packet.frame.length ≤ SOCKET_BUF_SIZE) :
    analyze (fun _ => 0) (rowData [] (first ++ more)) (packetLen [] first) ≠ .ok (some packet) := by
  intro analyzed
  have row : rowData [] (first ++ more) = first ++ more := by simp [rowData]
  rw [row] at analyzed
  have readFrom := analyze_readFrom analyzed
  have started : 0 < missed.length := List.length_pos_iff.mpr some_missed
  have short : packet.payload.length < 256 * 256 := by
    rw [frame_length, encoding_length, SOCKET_BUF_SIZE] at fits
    omega
  -- the bytes in front of the payload's part in the block are what the lengths have in excess
  obtain ⟨typeAt, typed⟩ := block_getD inside (by omega) readFrom.typed
  have spent : NonZero.count (packet.payload.take missed.length) ≤
      (packet.fields.map Field.excess).sum := by
    have total := payload_count_le packet
    have parts := NonZero.count_take_add_drop missed.length packet.payload
    have rest := block_drop_count inside
    have weighed := readFrom.weighed
    omega
  have held {position : Nat} (front : position < missed.length)
      (nonzero : packet.payload.getD position 0 ≠ 0) :
      (packet.payload.take missed.length).getD position 0 ≠ 0 := by
    rwa [List.getD_eq_getElem?_getD, List.getElem?_take_of_lt front, ← List.getD_eq_getElem?_getD]
  have typeHeld := held (by omega) typed
  have one : 1 ≤ NonZero.count (packet.payload.take missed.length) :=
    NonZero.length_le_count [_] (List.nodup_singleton _) (by simpa using typeHeld)
  -- so a length has two bytes, and the header that was read has two as well
  obtain ⟨text, member, long⟩ := exists_long short (by omega)
  obtain ⟨large, small⟩ := readFrom.short text member (List.ne_nil_of_length_pos (by omega))
  rw [SOCKET_BUF_SIZE] at small
  have second : (first ++ more).getD 1 0 ≠ 0 := by
    have nonzero : first.getD 1 0 ≠ 0 := packetLen_second (by omega) (by omega)
    have present : 1 < first.length := by
      by_contra outside
      exact nonzero (by simp [Nat.le_of_not_lt outside])
    rwa [List.getD_eq_getElem?_getD, List.getElem?_append_left present,
      ← List.getD_eq_getElem?_getD]
  obtain ⟨secondAt, header⟩ := block_getD inside (by omega) second
  have headerHeld := held (by omega) header
  have two : 2 ≤ NonZero.count (packet.payload.take missed.length) :=
    NonZero.two_le_count (by omega) typeHeld headerHeld
  -- with two such lengths, the bytes of the first one are in front too
  obtain ⟨exact_two, position, early, low, high⟩ := two_long short (by omega)
  have lowHeld := held (by omega) low
  have highHeld := held (by omega) high
  have three : 3 ≤ NonZero.count (packet.payload.take missed.length) := by
    by_cases apart : missed.length + 1 - 12 ≠ position ∧ missed.length + 1 - 12 ≠ position + 1
    · exact NonZero.three_le_count (by omega) apart lowHeld highHeld headerHeld
    · exact NonZero.three_le_count (by omega) (by omega) lowHeld highHeld typeHeld
  omega

end TerminalSession

end GraduationServer
