import GraduationServer.Packet
import Mathlib.Data.List.TakeWhile

/-!
The wire format of the packets as a table of fields, and the round trip of the
codec: what `encode` writes is the type followed by the table's fields, and
`decode` of the class that the factory builds for the type reads them back.
A string comes back cut at its first NUL.
-/

namespace GraduationServer

inductive Field where
  | byte (value : UInt8)
  | uint32 (value : UInt32)
  | uint64 (value : UInt64)
  | str (value : Str)

def Field.pieces : Field → List (List UInt8)
  | .byte value => [[value]]
  | .uint32 value => [LittleEndian.encode 4 value.toNat]
  | .uint64 value => [LittleEndian.encode 8 value.toNat]
  | .str value => Stream.strPieces value

def Field.nulFree : Field → Bool
  | .str value => 0 ∉ value
  | _ => true

def Field.bytes (field : Field) : List UInt8 := field.pieces.flatten

namespace Packet

def fields : Packet → List Field
  | .PK_C_REQ_EXIT => []
  | .PK_S_ANS_EXIT => []
  | .PK_I_NOTIFY_TERMINAL => []
  | .PK_C_NOTIFY_HEARTBEAT => []
  | .PK_C_REQ_ID_PW id_ password_ => [.str id_, .str password_]
  | .PK_S_ANS_ID_PW_FAIL => []
  | .PK_S_ANS_ID_PW_SUCCESS ip_ port_ name_ => [.str ip_, .uint32 port_, .str name_]
  | .PK_I_DB_REQ_ID_PW clientId_ id_ password_ => [.uint64 clientId_, .str id_, .str password_]
  | .PK_I_DB_ANS_ID_PW clientId_ oidAccountId_ result_ =>
      [.uint64 clientId_, .uint64 oidAccountId_, .byte result_]
  | .PK_I_CHTTING_NOTIFY_ID clientId_ oidAccountId_ => [.uint64 clientId_, .uint64 oidAccountId_]
  | .PK_I_DB_REQ_LOAD_DATA clientId_ oidAccountId_ => [.uint64 clientId_, .uint64 oidAccountId_]
  | .PK_I_DB_ANS_PARSE_DATA clientId_ name_ result_ =>
      [.uint64 clientId_, .str name_, .byte result_]
  | .PK_I_LOGIN_NOTIFY_ID_LOADED clientId_ name_ result_ =>
      [.uint64 clientId_, .str name_, .byte result_]
  | .PK_C_REQ_REGIST_CHATTING_NAME name_ => [.str name_]
  | .PK_C_REQ_CHATTING text_ => [.str text_]
  | .PK_S_ANS_CHATTING name_ text_ => [.str name_, .str text_]
  | .PK_C_REQ_LOBBY_INFO member_count Room_num => [.uint64 member_count, .uint64 Room_num]
  | .PK_S_ANS_LOBBY_INFO member_count Room_num => [.uint64 member_count, .uint64 Room_num]
  | .PK_C_REQ_ENTER_ROOM member_count Room_num => [.uint64 member_count, .uint64 Room_num]
  | .PK_S_ANS_ENTER_ROOM member_count Room_num => [.uint64 member_count, .uint64 Room_num]
  | .PK_S_NOTIFY_SERVER_IP ip_ port_ => [.str ip_, .uint32 port_]
  | .PK_C_REQ_PLAYER_MOVE Room_num x y => [.uint64 Room_num, .uint32 x, .uint32 y]
  | .PK_I_USER_INFO room_Num User1_ID User2_ID =>
      [.uint64 room_Num, .uint64 User1_ID, .uint64 User2_ID]
  | .PK_S_ANS_PLAYER_MOVE room_num x y => [.uint64 room_num, .uint32 x, .uint32 y]
  | .PK_C_REQ_FIRE_BULLET room_num x y => [.uint64 room_num, .uint32 x, .uint32 y]
  | .PK_S_ANS_FIRE_BULLET room_num x y => [.uint64 room_num, .uint32 x, .uint32 y]
  | .PK_C_REQ_MAKE_ENEMY room_num x => [.uint64 room_num, .uint32 x]
  | .PK_S_ANS_MAKE_ENEMY x => [.uint32 x]
  | .PK_C_REQ_ENEMY_EXPLOSION room_num enemycount => [.uint64 room_num, .uint64 enemycount]
  | .PK_S_ANS_ENEMY_EXPLOSION room_num enemycount => [.uint64 room_num, .uint64 enemycount]
  | .PK_C_REQ_MAKE_BOSS room_num => [.uint64 room_num]
  | .PK_S_ANS_MAKE_BOSS room_num => [.uint64 room_num]
  | .PK_C_REQ_BOSS_EXPLOSION room_num => [.uint64 room_num]
  | .PK_S_ANS_BOSS_EXPLOSION room_num ip_ port_ => [.uint64 room_num, .str ip_, .uint32 port_]
  | .PK_I_INITIALIZE_ROOMMEMBER room_num member_count => [.uint64 room_num, .uint64 member_count]
  | .PK_S_REQ_CHANGE_SCENE room_num => [.uint64 room_num]
  | .PK_S_REQ_ON_GAME room_num => [.uint64 room_num]

def mapStr (change : Str → Str) : Packet → Packet
  | .PK_C_REQ_ID_PW id_ password_ => .PK_C_REQ_ID_PW (change id_) (change password_)
  | .PK_S_ANS_ID_PW_SUCCESS ip_ port_ name_ =>
      .PK_S_ANS_ID_PW_SUCCESS (change ip_) port_ (change name_)
  | .PK_I_DB_REQ_ID_PW clientId_ id_ password_ =>
      .PK_I_DB_REQ_ID_PW clientId_ (change id_) (change password_)
  | .PK_I_DB_ANS_PARSE_DATA clientId_ name_ result_ =>
      .PK_I_DB_ANS_PARSE_DATA clientId_ (change name_) result_
  | .PK_I_LOGIN_NOTIFY_ID_LOADED clientId_ name_ result_ =>
      .PK_I_LOGIN_NOTIFY_ID_LOADED clientId_ (change name_) result_
  | .PK_C_REQ_REGIST_CHATTING_NAME name_ => .PK_C_REQ_REGIST_CHATTING_NAME (change name_)
  | .PK_C_REQ_CHATTING text_ => .PK_C_REQ_CHATTING (change text_)
  | .PK_S_ANS_CHATTING name_ text_ => .PK_S_ANS_CHATTING (change name_) (change text_)
  | .PK_S_NOTIFY_SERVER_IP ip_ port_ => .PK_S_NOTIFY_SERVER_IP (change ip_) port_
  | .PK_S_ANS_BOSS_EXPLOSION room_num ip_ port_ =>
      .PK_S_ANS_BOSS_EXPLOSION room_num (change ip_) port_
  | packet => packet

/-- What survives the trip through a `char` buffer: each string up to its first NUL. -/
def cut (packet : Packet) : Packet := packet.mapStr Stream.cString

def NulFree (packet : Packet) : Prop := ∀ value, Field.str value ∈ packet.fields → 0 ∉ value

instance (packet : Packet) : Decidable packet.NulFree :=
  decidable_of_iff (packet.fields.all Field.nulFree) <| by
    rw [List.all_eq_true]
    constructor
    · intro every value member
      exact of_decide_eq_true (every (.str value) member)
    · intro nulFree field member
      cases field with
      | str value => exact decide_eq_true (nulFree value member)
      | byte value => rfl
      | uint32 value => rfl
      | uint64 value => rfl

def payload (packet : Packet) : List UInt8 := packet.fields.flatMap Field.bytes

def encoding (packet : Packet) : List UInt8 :=
  LittleEndian.encode 8 packet.type.code ++ packet.payload

def Known (packet : Packet) : Prop := (PacketFactory.getPacket packet.type.code).isSome

instance (packet : Packet) : Decidable packet.Known :=
  inferInstanceAs (Decidable (_ = true))

theorem encode_eq_putAll (packet : Packet) (stream : Stream) :
    packet.encode stream =
      stream.putAll (LittleEndian.encode 8 packet.type.code :: packet.fields.flatMap Field.pieces) := by
  have first (pieces : List (List UInt8)) :
      stream.putAll (LittleEndian.encode 8 packet.type.code :: pieces) =
        (stream.write (LittleEndian.encode 8 packet.type.code)).putAll pieces := rfl
  rw [first]
  unfold encode
  generalize stream.write (LittleEndian.encode 8 packet.type.code) = written
  cases packet <;>
    simp only [fields, List.flatMap_cons, List.flatMap_nil, Field.pieces, Stream.putAll_append,
      Stream.putStr_eq, Stream.putByte_eq, Stream.putUInt32_eq, Stream.putUInt64_eq,
      Stream.putAll_nil]

theorem pieces_flatten (packet : Packet) :
    (packet.fields.flatMap Field.pieces).flatten = packet.payload := by
  rw [payload]
  induction packet.fields with
  | nil => rfl
  | cons field rest ih => simp [ih, Field.bytes]

theorem pieces_small (packet : Packet) :
    ∀ piece ∈ LittleEndian.encode 8 packet.type.code :: packet.fields.flatMap Field.pieces,
      piece.length ≤ 8 := by
  intro piece member
  rcases List.mem_cons.mp member with rfl | member
  · simp
  · obtain ⟨field, -, member⟩ := List.mem_flatMap.mp member
    cases field with
    | byte value => simp_all [Field.pieces]
    | uint32 value => simp_all [Field.pieces]
    | uint64 value => simp_all [Field.pieces]
    | str value =>
        simp only [Field.pieces, Stream.strPieces, List.mem_cons, List.mem_map] at member
        rcases member with rfl | ⟨byte, -, rfl⟩ <;> simp

theorem encoding_eq_flatten (packet : Packet) :
    (LittleEndian.encode 8 packet.type.code :: packet.fields.flatMap Field.pieces).flatten =
      packet.encoding := by
  rw [List.flatten_cons, pieces_flatten, encoding]

theorem encode_size (packet : Packet) :
    min packet.encoding.length (SOCKET_BUF_SIZE - 7) ≤ (packet.encode Stream.initial).size := by
  have written := Stream.putAll_size (by decide : Stream.initial.size ≤ SOCKET_BUF_SIZE)
    (pieces_small packet)
  rw [encoding_eq_flatten, ← encode_eq_putAll] at written
  simpa [Stream.initial, Stream.size] using written

theorem encode_fits {packet : Packet} (fits : packet.encoding.length ≤ SOCKET_BUF_SIZE) :
    packet.encode Stream.initial = { Stream.initial with stream_ := packet.encoding } := by
  rw [encode_eq_putAll, Stream.putAll_fits]
  · rw [encoding_eq_flatten]
    rfl
  · rw [encoding_eq_flatten]
    simpa [Stream.size, Stream.initial] using fits

theorem code_lt (type : PacketType) : type.code < 256 ^ 8 := by
  cases type <;> decide

theorem decode_payload (unset : Nat → Int32) {packet fresh : Packet}
    (known : PacketFactory.getPacket packet.type.code = some fresh) (done rest : List UInt8)
    (fits : (done ++ (packet.payload ++ rest)).length ≤ SOCKET_BUF_SIZE) :
    fresh.decode unset (Stream.cursor done (packet.payload ++ rest)) =
      .ok (packet.cut, Stream.cursor (done ++ packet.payload) rest) := by
  cases packet <;>
    simp only [type, PacketType.code, PacketFactory.getPacket, Option.some.injEq,
      reduceCtorEq] at known <;>
    subst known <;>
    simp only [payload, fields, List.flatMap_cons, List.flatMap_nil, Field.bytes, Field.pieces,
      Stream.strPieces_flatten, List.flatten_cons, List.flatten_nil, List.append_nil,
      List.append_assoc, List.nil_append] at fits ⊢ <;>
    simp (disch := simpa only [List.append_assoc] using fits) only [decode, cut, mapStr,
      Stream.getStr_cursor, Stream.getUInt64_cursor, Stream.getUInt32_cursor,
      Stream.getByte_cursor, List.append_assoc, pure, Except.pure, bind, Except.bind]

theorem cString_eq_self_iff (value : Str) : Stream.cString value = value ↔ 0 ∉ value := by
  rw [Stream.cString, List.takeWhile_eq_self_iff]
  constructor
  · intro nonzero member
    simpa using nonzero 0 member
  · intro absent byte member
    simp only [ne_eq, decide_eq_true_eq]
    rintro rfl
    exact absent member

theorem cut_eq_self_iff (packet : Packet) : packet.cut = packet ↔ packet.NulFree := by
  cases packet <;>
    simp [cut, mapStr, NulFree, fields, cString_eq_self_iff]

theorem fresh_of_payload_nil {packet fresh : Packet}
    (known : PacketFactory.getPacket packet.type.code = some fresh)
    (empty : packet.payload = []) : fresh = packet.cut := by
  have length := congrArg List.length empty
  cases packet <;>
    simp only [type, PacketType.code, PacketFactory.getPacket, Option.some.injEq,
      reduceCtorEq] at known <;>
    subst known <;>
    simp [payload, fields, Field.bytes, Field.pieces, Stream.encodeStr, cut, mapStr] at length ⊢

theorem encoding_length (packet : Packet) :
    packet.encoding.length = 8 + packet.payload.length := by
  simp [encoding]

theorem encoding_type (packet : Packet) (rest : List UInt8) :
    LittleEndian.decode (ZeroFilled.read (packet.encoding ++ rest) 0 8) = packet.type.code := by
  have start := ZeroFilled.read_start (LittleEndian.encode 8 packet.type.code)
    (packet.payload ++ rest)
  rw [LittleEndian.encode_length] at start
  rw [encoding, List.append_assoc, start, LittleEndian.decode_encode_of_lt (code_lt _)]

theorem analyzer_longer (unset : Nat → Int32) {packet : Packet} (known : packet.Known)
    {extra : Nat} (fits : packet.payload.length + extra ≤ SOCKET_BUF_SIZE) (rest : List UInt8) :
    PacketAnalyzer.analyzer unset (packet.encoding ++ rest) (packet.encoding.length + extra) =
      .ok (some packet.cut) := by
  obtain ⟨fresh, built⟩ := Option.isSome_iff_exists.mp known
  have body : ZeroFilled.read (packet.encoding ++ rest) 8 (packet.payload.length + extra) =
      packet.payload ++ ZeroFilled.read rest 0 extra := by
    have type := ZeroFilled.read_behind (LittleEndian.encode 8 packet.type.code)
      (packet.payload ++ rest) (packet.payload.length + extra)
    rw [LittleEndian.encode_length, ZeroFilled.read_longer] at type
    rw [encoding, List.append_assoc, type]
  have copied : (packet.payload ++ ZeroFilled.read rest 0 extra).length ≤ SOCKET_BUF_SIZE := by
    simpa [ZeroFilled.read] using fits
  have decoded := decode_payload unset built [] (ZeroFilled.read rest 0 extra) (by simpa using copied)
  rw [encoding_length, Nat.add_assoc]
  simp only [PacketAnalyzer.analyzer, encoding_type, built, Nat.add_sub_cancel_left, body]
  split
  · have room : ¬ SOCKET_BUF_SIZE < (packet.payload ++ ZeroFilled.read rest 0 extra).length :=
      Nat.not_lt.mpr copied
    simp only [Stream.cursor, List.nil_append, List.length_nil] at decoded
    simp only [Stream.set, Stream.initial, if_neg room, decoded, bind, Except.bind, pure,
      Except.pure]
  · have empty : packet.payload = [] := List.eq_nil_of_length_eq_zero (by omega)
    rw [fresh_of_payload_nil built empty]

theorem analyzer_encoding (unset : Nat → Int32) {packet : Packet} (known : packet.Known)
    (fits : packet.encoding.length ≤ SOCKET_BUF_SIZE) (rest : List UInt8) :
    PacketAnalyzer.analyzer unset (packet.encoding ++ rest) packet.encoding.length =
      .ok (some packet.cut) := by
  have length := packet.encoding_length
  exact analyzer_longer unset known (by omega : packet.payload.length + 0 ≤ SOCKET_BUF_SIZE) rest

end Packet

open Packet in
/-- The codec round trip over the whole format: `encode` writes the type and
the fields, `analyzer` gives the packet back, and `decode` of the class built
for the type stops at the end of what was written. -/
theorem analyzer_encode (unset : Nat → Int32) (packet : Packet) (known : packet.Known)
    (nulFree : packet.NulFree) (fits : packet.encoding.length ≤ SOCKET_BUF_SIZE) :
    (packet.encode Stream.initial).stream_ = packet.encoding ∧
    PacketAnalyzer.analyzer unset (packet.encode Stream.initial).stream_
      (packet.encode Stream.initial).size = .ok (some packet) ∧
    ∃ fresh stream finish, PacketFactory.getPacket packet.type.code = some fresh ∧
      Stream.set ((packet.encode Stream.initial).stream_.drop 8) = .ok stream ∧
      fresh.decode unset stream = .ok (packet, finish) ∧ finish.readPt_ = stream.size := by
  have same : packet.cut = packet := (cut_eq_self_iff packet).mpr nulFree
  have body : packet.encoding.drop 8 = packet.payload := by simp [encoding]
  have analyzed := analyzer_encoding unset known fits []
  obtain ⟨fresh, built⟩ := Option.isSome_iff_exists.mp known
  have short : packet.payload.length ≤ SOCKET_BUF_SIZE := by
    have length := packet.encoding_length
    omega
  have decoded := decode_payload unset built [] [] (by simpa using short)
  simp only [List.append_nil, List.nil_append, same] at analyzed decoded
  rw [encode_fits fits]
  refine ⟨rfl, analyzed, fresh, Stream.cursor [] packet.payload, _, built, ?_, decoded, ?_⟩
  · simp [body, Stream.set, Stream.initial, Stream.cursor, Nat.not_lt.mpr short]
  · simp [Stream.cursor, Stream.size]

theorem analyzer_encode_login :
    PacketAnalyzer.analyzer (fun _ => 0)
      ((Packet.PK_C_REQ_ID_PW [105, 100] [112, 119]).encode Stream.initial).stream_
      ((Packet.PK_C_REQ_ID_PW [105, 100] [112, 119]).encode Stream.initial).size =
        .ok (some (.PK_C_REQ_ID_PW [105, 100] [112, 119])) :=
  (analyzer_encode (fun _ => 0) (.PK_C_REQ_ID_PW [105, 100] [112, 119]) rfl
    (by simp [Packet.NulFree, Packet.fields]) (by decide)).2.1

end GraduationServer
