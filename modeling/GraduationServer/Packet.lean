import GraduationServer.Stream

/-!
`PacketHeader.h`, `PacketClass.h`, `PacketFactory.h` and `PacketAnalyzer.cpp`.
A `float` is written and read as its four raw bytes.
-/

namespace GraduationServer

inductive PacketType where
  | E_C_REQ_EXIT
  | E_S_ANS_EXIT
  | E_I_NOTIFY_TERMINAL
  | E_C_NOTIFY_HEARTBEAT
  | E_C_REQ_ID_PW
  | E_S_ANS_ID_PW_FAIL
  | E_S_ANS_ID_PW_SUCCESS
  | E_I_DB_REQ_ID_PW
  | E_I_DB_ANS_ID_PW
  | E_I_CHTTING_NOTIFY_ID
  | E_I_DB_REQ_LOAD_DATA
  | E_I_DB_ANS_PARSE_DATA
  | E_I_LOGIN_NOTIFY_ID_LOADED
  | E_C_REQ_REGIST_CHATTING_NAME
  | E_C_REQ_CHATTING
  | E_S_ANS_CHATTING
  | E_C_REQ_LOBBY_INFO
  | E_S_ANS_LOBBY_INFO
  | E_C_REQ_ENTER_ROOM
  | E_S_ANS_ENTER_ROOM
  | E_S_NOTIFY_SERVER_IP
  | E_C_REQ_PLAYER_MOVE
  | E_I_USER_INFO
  | E_S_ANS_PLAYER_MOVE
  | E_C_REQ_FIRE_BULLET
  | E_S_ANS_FIRE_BULLET
  | E_C_REQ_MAKE_ENEMY
  | E_S_ANS_MAKE_ENEMY
  | E_C_REQ_ENEMY_EXPLOSION
  | E_S_ANS_ENEMY_EXPLOSION
  | E_C_REQ_MAKE_BOSS
  | E_S_ANS_MAKE_BOSS
  | E_C_REQ_BOSS_EXPLOSION
  | E_S_ANS_BOSS_EXPLOSION
  | E_I_INITIALIZE_ROOMMEMBER
  | E_S_REQ_CHANGE_SCENE
  | E_S_REQ_ON_GAME
  deriving DecidableEq, Repr

def PacketType.code : PacketType → Nat
  | .E_C_REQ_EXIT => 128
  | .E_S_ANS_EXIT => 129
  | .E_I_NOTIFY_TERMINAL => 130
  | .E_C_NOTIFY_HEARTBEAT => 131
  | .E_C_REQ_ID_PW => 132
  | .E_S_ANS_ID_PW_FAIL => 133
  | .E_S_ANS_ID_PW_SUCCESS => 134
  | .E_I_DB_REQ_ID_PW => 135
  | .E_I_DB_ANS_ID_PW => 136
  | .E_I_CHTTING_NOTIFY_ID => 137
  | .E_I_DB_REQ_LOAD_DATA => 138
  | .E_I_DB_ANS_PARSE_DATA => 139
  | .E_I_LOGIN_NOTIFY_ID_LOADED => 140
  | .E_C_REQ_REGIST_CHATTING_NAME => 141
  | .E_C_REQ_CHATTING => 142
  | .E_S_ANS_CHATTING => 143
  | .E_C_REQ_LOBBY_INFO => 144
  | .E_S_ANS_LOBBY_INFO => 145
  | .E_C_REQ_ENTER_ROOM => 146
  | .E_S_ANS_ENTER_ROOM => 147
  | .E_S_NOTIFY_SERVER_IP => 148
  | .E_C_REQ_PLAYER_MOVE => 149
  | .E_I_USER_INFO => 150
  | .E_S_ANS_PLAYER_MOVE => 151
  | .E_C_REQ_FIRE_BULLET => 152
  | .E_S_ANS_FIRE_BULLET => 153
  | .E_C_REQ_MAKE_ENEMY => 154
  | .E_S_ANS_MAKE_ENEMY => 155
  | .E_C_REQ_ENEMY_EXPLOSION => 156
  | .E_S_ANS_ENEMY_EXPLOSION => 157
  | .E_C_REQ_MAKE_BOSS => 158
  | .E_S_ANS_MAKE_BOSS => 159
  | .E_C_REQ_BOSS_EXPLOSION => 160
  | .E_S_ANS_BOSS_EXPLOSION => 161
  | .E_I_INITIALIZE_ROOMMEMBER => 162
  | .E_S_REQ_CHANGE_SCENE => 163
  | .E_S_REQ_ON_GAME => 164

inductive Packet where
  | PK_C_REQ_EXIT
  | PK_S_ANS_EXIT
  | PK_I_NOTIFY_TERMINAL
  | PK_C_NOTIFY_HEARTBEAT
  | PK_C_REQ_ID_PW (id_ password_ : Str)
  | PK_S_ANS_ID_PW_FAIL
  | PK_S_ANS_ID_PW_SUCCESS (ip_ : Str) (port_ : UInt32) (name_ : Str)
  | PK_I_DB_REQ_ID_PW (clientId_ : UInt64) (id_ password_ : Str)
  | PK_I_DB_ANS_ID_PW (clientId_ oidAccountId_ : UInt64) (result_ : UInt8)
  | PK_I_CHTTING_NOTIFY_ID (clientId_ oidAccountId_ : UInt64)
  | PK_I_DB_REQ_LOAD_DATA (clientId_ oidAccountId_ : UInt64)
  | PK_I_DB_ANS_PARSE_DATA (clientId_ : UInt64) (name_ : Str) (result_ : UInt8)
  | PK_I_LOGIN_NOTIFY_ID_LOADED (clientId_ : UInt64) (name_ : Str) (result_ : UInt8)
  | PK_C_REQ_REGIST_CHATTING_NAME (name_ : Str)
  | PK_C_REQ_CHATTING (text_ : Str)
  | PK_S_ANS_CHATTING (name_ text_ : Str)
  | PK_C_REQ_LOBBY_INFO (member_count Room_num : UInt64)
  | PK_S_ANS_LOBBY_INFO (member_count Room_num : UInt64)
  | PK_C_REQ_ENTER_ROOM (member_count Room_num : UInt64)
  | PK_S_ANS_ENTER_ROOM (member_count Room_num : UInt64)
  | PK_S_NOTIFY_SERVER_IP (ip_ : Str) (port_ : UInt32)
  | PK_C_REQ_PLAYER_MOVE (Room_num : UInt64) (x y : RawFloat)
  | PK_I_USER_INFO (room_Num User1_ID User2_ID : UInt64)
  | PK_S_ANS_PLAYER_MOVE (room_num : UInt64) (x y : RawFloat)
  | PK_C_REQ_FIRE_BULLET (room_num : UInt64) (x y : RawFloat)
  | PK_S_ANS_FIRE_BULLET (room_num : UInt64) (x y : RawFloat)
  | PK_C_REQ_MAKE_ENEMY (room_num : UInt64) (x : RawFloat)
  | PK_S_ANS_MAKE_ENEMY (x : RawFloat)
  | PK_C_REQ_ENEMY_EXPLOSION (room_num enemycount : UInt64)
  | PK_S_ANS_ENEMY_EXPLOSION (room_num enemycount : UInt64)
  | PK_C_REQ_MAKE_BOSS (room_num : UInt64)
  | PK_S_ANS_MAKE_BOSS (room_num : UInt64)
  | PK_C_REQ_BOSS_EXPLOSION (room_num : UInt64)
  | PK_S_ANS_BOSS_EXPLOSION (room_num : UInt64) (ip_ : Str) (port_ : UInt32)
  | PK_I_INITIALIZE_ROOMMEMBER (room_num member_count : UInt64)
  | PK_S_REQ_CHANGE_SCENE (room_num : UInt64)
  | PK_S_REQ_ON_GAME (room_num : UInt64)
  deriving DecidableEq, Repr

namespace Packet

def type : Packet → PacketType
  | .PK_C_REQ_EXIT => .E_C_REQ_EXIT
  | .PK_S_ANS_EXIT => .E_S_ANS_EXIT
  | .PK_I_NOTIFY_TERMINAL => .E_I_NOTIFY_TERMINAL
  | .PK_C_NOTIFY_HEARTBEAT => .E_C_NOTIFY_HEARTBEAT
  | .PK_C_REQ_ID_PW .. => .E_C_REQ_ID_PW
  | .PK_S_ANS_ID_PW_FAIL => .E_S_ANS_ID_PW_FAIL
  | .PK_S_ANS_ID_PW_SUCCESS .. => .E_S_ANS_ID_PW_SUCCESS
  | .PK_I_DB_REQ_ID_PW .. => .E_I_DB_REQ_ID_PW
  | .PK_I_DB_ANS_ID_PW .. => .E_I_DB_ANS_ID_PW
  | .PK_I_CHTTING_NOTIFY_ID .. => .E_I_CHTTING_NOTIFY_ID
  | .PK_I_DB_REQ_LOAD_DATA .. => .E_I_DB_REQ_LOAD_DATA
  | .PK_I_DB_ANS_PARSE_DATA .. => .E_I_DB_ANS_PARSE_DATA
  | .PK_I_LOGIN_NOTIFY_ID_LOADED .. => .E_I_LOGIN_NOTIFY_ID_LOADED
  | .PK_C_REQ_REGIST_CHATTING_NAME .. => .E_C_REQ_REGIST_CHATTING_NAME
  | .PK_C_REQ_CHATTING .. => .E_C_REQ_CHATTING
  | .PK_S_ANS_CHATTING .. => .E_S_ANS_CHATTING
  | .PK_C_REQ_LOBBY_INFO .. => .E_C_REQ_LOBBY_INFO
  | .PK_S_ANS_LOBBY_INFO .. => .E_S_ANS_LOBBY_INFO
  | .PK_C_REQ_ENTER_ROOM .. => .E_C_REQ_ENTER_ROOM
  | .PK_S_ANS_ENTER_ROOM .. => .E_S_ANS_ENTER_ROOM
  | .PK_S_NOTIFY_SERVER_IP .. => .E_S_NOTIFY_SERVER_IP
  | .PK_C_REQ_PLAYER_MOVE .. => .E_C_REQ_PLAYER_MOVE
  | .PK_I_USER_INFO .. => .E_I_USER_INFO
  | .PK_S_ANS_PLAYER_MOVE .. => .E_S_ANS_PLAYER_MOVE
  | .PK_C_REQ_FIRE_BULLET .. => .E_C_REQ_FIRE_BULLET
  | .PK_S_ANS_FIRE_BULLET .. => .E_S_ANS_FIRE_BULLET
  | .PK_C_REQ_MAKE_ENEMY .. => .E_C_REQ_MAKE_ENEMY
  | .PK_S_ANS_MAKE_ENEMY .. => .E_S_ANS_MAKE_ENEMY
  | .PK_C_REQ_ENEMY_EXPLOSION .. => .E_C_REQ_ENEMY_EXPLOSION
  | .PK_S_ANS_ENEMY_EXPLOSION .. => .E_S_ANS_ENEMY_EXPLOSION
  | .PK_C_REQ_MAKE_BOSS .. => .E_C_REQ_MAKE_BOSS
  | .PK_S_ANS_MAKE_BOSS .. => .E_S_ANS_MAKE_BOSS
  | .PK_C_REQ_BOSS_EXPLOSION .. => .E_C_REQ_BOSS_EXPLOSION
  | .PK_S_ANS_BOSS_EXPLOSION .. => .E_S_ANS_BOSS_EXPLOSION
  | .PK_I_INITIALIZE_ROOMMEMBER .. => .E_I_INITIALIZE_ROOMMEMBER
  | .PK_S_REQ_CHANGE_SCENE .. => .E_S_REQ_CHANGE_SCENE
  | .PK_S_REQ_ON_GAME .. => .E_S_REQ_ON_GAME

def encode (packet : Packet) (stream : Stream) : Stream :=
  let stream := stream.write (LittleEndian.encode 8 packet.type.code)
  match packet with
  | .PK_C_REQ_EXIT => stream
  | .PK_S_ANS_EXIT => stream
  | .PK_I_NOTIFY_TERMINAL => stream
  | .PK_C_NOTIFY_HEARTBEAT => stream
  | .PK_C_REQ_ID_PW id_ password_ => (stream.putStr id_).putStr password_
  | .PK_S_ANS_ID_PW_FAIL => stream
  | .PK_S_ANS_ID_PW_SUCCESS ip_ port_ name_ => ((stream.putStr ip_).putUInt32 port_).putStr name_
  | .PK_I_DB_REQ_ID_PW clientId_ id_ password_ =>
      ((stream.putUInt64 clientId_).putStr id_).putStr password_
  | .PK_I_DB_ANS_ID_PW clientId_ oidAccountId_ result_ =>
      ((stream.putUInt64 clientId_).putUInt64 oidAccountId_).putByte result_
  | .PK_I_CHTTING_NOTIFY_ID clientId_ oidAccountId_ =>
      (stream.putUInt64 clientId_).putUInt64 oidAccountId_
  | .PK_I_DB_REQ_LOAD_DATA clientId_ oidAccountId_ =>
      (stream.putUInt64 clientId_).putUInt64 oidAccountId_
  | .PK_I_DB_ANS_PARSE_DATA clientId_ name_ result_ =>
      ((stream.putUInt64 clientId_).putStr name_).putByte result_
  | .PK_I_LOGIN_NOTIFY_ID_LOADED clientId_ name_ result_ =>
      ((stream.putUInt64 clientId_).putStr name_).putByte result_
  | .PK_C_REQ_REGIST_CHATTING_NAME name_ => stream.putStr name_
  | .PK_C_REQ_CHATTING text_ => stream.putStr text_
  | .PK_S_ANS_CHATTING name_ text_ => (stream.putStr name_).putStr text_
  | .PK_C_REQ_LOBBY_INFO member_count Room_num => (stream.putUInt64 member_count).putUInt64 Room_num
  | .PK_S_ANS_LOBBY_INFO member_count Room_num => (stream.putUInt64 member_count).putUInt64 Room_num
  | .PK_C_REQ_ENTER_ROOM member_count Room_num => (stream.putUInt64 member_count).putUInt64 Room_num
  | .PK_S_ANS_ENTER_ROOM member_count Room_num => (stream.putUInt64 member_count).putUInt64 Room_num
  | .PK_S_NOTIFY_SERVER_IP ip_ port_ => (stream.putStr ip_).putUInt32 port_
  | .PK_C_REQ_PLAYER_MOVE Room_num x y => ((stream.putUInt64 Room_num).putUInt32 x).putUInt32 y
  | .PK_I_USER_INFO room_Num User1_ID User2_ID =>
      ((stream.putUInt64 room_Num).putUInt64 User1_ID).putUInt64 User2_ID
  | .PK_S_ANS_PLAYER_MOVE room_num x y => ((stream.putUInt64 room_num).putUInt32 x).putUInt32 y
  | .PK_C_REQ_FIRE_BULLET room_num x y => ((stream.putUInt64 room_num).putUInt32 x).putUInt32 y
  | .PK_S_ANS_FIRE_BULLET room_num x y => ((stream.putUInt64 room_num).putUInt32 x).putUInt32 y
  | .PK_C_REQ_MAKE_ENEMY room_num x => (stream.putUInt64 room_num).putUInt32 x
  | .PK_S_ANS_MAKE_ENEMY x => stream.putUInt32 x
  | .PK_C_REQ_ENEMY_EXPLOSION room_num enemycount =>
      (stream.putUInt64 room_num).putUInt64 enemycount
  | .PK_S_ANS_ENEMY_EXPLOSION room_num enemycount =>
      (stream.putUInt64 room_num).putUInt64 enemycount
  | .PK_C_REQ_MAKE_BOSS room_num => stream.putUInt64 room_num
  | .PK_S_ANS_MAKE_BOSS room_num => stream.putUInt64 room_num
  | .PK_C_REQ_BOSS_EXPLOSION room_num => stream.putUInt64 room_num
  | .PK_S_ANS_BOSS_EXPLOSION room_num ip_ port_ =>
      ((stream.putUInt64 room_num).putStr ip_).putUInt32 port_
  | .PK_I_INITIALIZE_ROOMMEMBER room_num member_count =>
      (stream.putUInt64 room_num).putUInt64 member_count
  | .PK_S_REQ_CHANGE_SCENE room_num => stream.putUInt64 room_num
  | .PK_S_REQ_ON_GAME room_num => stream.putUInt64 room_num

/-- `unset` gives what the uninitialised length of each string read holds. -/
def decode (unset : Nat → Int32) (packet : Packet) (stream : Stream) : Exec (Packet × Stream) :=
  match packet with
  | .PK_C_REQ_EXIT => .ok (packet, stream)
  | .PK_S_ANS_EXIT => .ok (packet, stream)
  | .PK_I_NOTIFY_TERMINAL => .ok (packet, stream)
  | .PK_C_NOTIFY_HEARTBEAT => .ok (packet, stream)
  | .PK_C_REQ_ID_PW id_ password_ => do
      let (id_, stream) ← stream.getStr (unset 0) id_
      let (password_, stream) ← stream.getStr (unset 1) password_
      return (.PK_C_REQ_ID_PW id_ password_, stream)
  | .PK_S_ANS_ID_PW_FAIL => .ok (packet, stream)
  | .PK_S_ANS_ID_PW_SUCCESS ip_ port_ name_ => do
      let (ip_, stream) ← stream.getStr (unset 0) ip_
      let (port_, stream) := stream.getUInt32 port_
      let (name_, stream) ← stream.getStr (unset 1) name_
      return (.PK_S_ANS_ID_PW_SUCCESS ip_ port_ name_, stream)
  | .PK_I_DB_REQ_ID_PW clientId_ id_ password_ => do
      let (clientId_, stream) := stream.getUInt64 clientId_
      let (id_, stream) ← stream.getStr (unset 0) id_
      let (password_, stream) ← stream.getStr (unset 1) password_
      return (.PK_I_DB_REQ_ID_PW clientId_ id_ password_, stream)
  | .PK_I_DB_ANS_ID_PW clientId_ oidAccountId_ result_ => do
      let (clientId_, stream) := stream.getUInt64 clientId_
      let (oidAccountId_, stream) := stream.getUInt64 oidAccountId_
      let (result_, stream) := stream.getByte result_
      return (.PK_I_DB_ANS_ID_PW clientId_ oidAccountId_ result_, stream)
  | .PK_I_CHTTING_NOTIFY_ID clientId_ oidAccountId_ => do
      let (clientId_, stream) := stream.getUInt64 clientId_
      let (oidAccountId_, stream) := stream.getUInt64 oidAccountId_
      return (.PK_I_CHTTING_NOTIFY_ID clientId_ oidAccountId_, stream)
  | .PK_I_DB_REQ_LOAD_DATA clientId_ oidAccountId_ => do
      let (clientId_, stream) := stream.getUInt64 clientId_
      let (oidAccountId_, stream) := stream.getUInt64 oidAccountId_
      return (.PK_I_DB_REQ_LOAD_DATA clientId_ oidAccountId_, stream)
  | .PK_I_DB_ANS_PARSE_DATA clientId_ name_ result_ => do
      let (clientId_, stream) := stream.getUInt64 clientId_
      let (name_, stream) ← stream.getStr (unset 0) name_
      let (result_, stream) := stream.getByte result_
      return (.PK_I_DB_ANS_PARSE_DATA clientId_ name_ result_, stream)
  | .PK_I_LOGIN_NOTIFY_ID_LOADED clientId_ name_ result_ => do
      let (clientId_, stream) := stream.getUInt64 clientId_
      let (name_, stream) ← stream.getStr (unset 0) name_
      let (result_, stream) := stream.getByte result_
      return (.PK_I_LOGIN_NOTIFY_ID_LOADED clientId_ name_ result_, stream)
  | .PK_C_REQ_REGIST_CHATTING_NAME name_ => do
      let (name_, stream) ← stream.getStr (unset 0) name_
      return (.PK_C_REQ_REGIST_CHATTING_NAME name_, stream)
  | .PK_C_REQ_CHATTING text_ => do
      let (text_, stream) ← stream.getStr (unset 0) text_
      return (.PK_C_REQ_CHATTING text_, stream)
  | .PK_S_ANS_CHATTING name_ text_ => do
      let (name_, stream) ← stream.getStr (unset 0) name_
      let (text_, stream) ← stream.getStr (unset 1) text_
      return (.PK_S_ANS_CHATTING name_ text_, stream)
  | .PK_C_REQ_LOBBY_INFO member_count Room_num => do
      let (member_count, stream) := stream.getUInt64 member_count
      let (Room_num, stream) := stream.getUInt64 Room_num
      return (.PK_C_REQ_LOBBY_INFO member_count Room_num, stream)
  | .PK_S_ANS_LOBBY_INFO member_count Room_num => do
      let (member_count, stream) := stream.getUInt64 member_count
      let (Room_num, stream) := stream.getUInt64 Room_num
      return (.PK_S_ANS_LOBBY_INFO member_count Room_num, stream)
  | .PK_C_REQ_ENTER_ROOM member_count Room_num => do
      let (member_count, stream) := stream.getUInt64 member_count
      let (Room_num, stream) := stream.getUInt64 Room_num
      return (.PK_C_REQ_ENTER_ROOM member_count Room_num, stream)
  | .PK_S_ANS_ENTER_ROOM member_count Room_num => do
      let (member_count, stream) := stream.getUInt64 member_count
      let (Room_num, stream) := stream.getUInt64 Room_num
      return (.PK_S_ANS_ENTER_ROOM member_count Room_num, stream)
  | .PK_S_NOTIFY_SERVER_IP ip_ port_ => do
      let (ip_, stream) ← stream.getStr (unset 0) ip_
      let (port_, stream) := stream.getUInt32 port_
      return (.PK_S_NOTIFY_SERVER_IP ip_ port_, stream)
  | .PK_C_REQ_PLAYER_MOVE Room_num x y => do
      let (Room_num, stream) := stream.getUInt64 Room_num
      let (x, stream) := stream.getUInt32 x
      let (y, stream) := stream.getUInt32 y
      return (.PK_C_REQ_PLAYER_MOVE Room_num x y, stream)
  | .PK_I_USER_INFO room_Num User1_ID User2_ID => do
      let (room_Num, stream) := stream.getUInt64 room_Num
      let (User1_ID, stream) := stream.getUInt64 User1_ID
      let (User2_ID, stream) := stream.getUInt64 User2_ID
      return (.PK_I_USER_INFO room_Num User1_ID User2_ID, stream)
  | .PK_S_ANS_PLAYER_MOVE room_num x y => do
      let (room_num, stream) := stream.getUInt64 room_num
      let (x, stream) := stream.getUInt32 x
      let (y, stream) := stream.getUInt32 y
      return (.PK_S_ANS_PLAYER_MOVE room_num x y, stream)
  | .PK_C_REQ_FIRE_BULLET room_num x y => do
      let (room_num, stream) := stream.getUInt64 room_num
      let (x, stream) := stream.getUInt32 x
      let (y, stream) := stream.getUInt32 y
      return (.PK_C_REQ_FIRE_BULLET room_num x y, stream)
  | .PK_S_ANS_FIRE_BULLET room_num x y => do
      let (room_num, stream) := stream.getUInt64 room_num
      let (x, stream) := stream.getUInt32 x
      let (y, stream) := stream.getUInt32 y
      return (.PK_S_ANS_FIRE_BULLET room_num x y, stream)
  | .PK_C_REQ_MAKE_ENEMY room_num x => do
      let (room_num, stream) := stream.getUInt64 room_num
      let (x, stream) := stream.getUInt32 x
      return (.PK_C_REQ_MAKE_ENEMY room_num x, stream)
  | .PK_S_ANS_MAKE_ENEMY x => do
      let (x, stream) := stream.getUInt32 x
      return (.PK_S_ANS_MAKE_ENEMY x, stream)
  | .PK_C_REQ_ENEMY_EXPLOSION room_num enemycount => do
      let (room_num, stream) := stream.getUInt64 room_num
      let (enemycount, stream) := stream.getUInt64 enemycount
      return (.PK_C_REQ_ENEMY_EXPLOSION room_num enemycount, stream)
  | .PK_S_ANS_ENEMY_EXPLOSION room_num enemycount => do
      let (room_num, stream) := stream.getUInt64 room_num
      let (enemycount, stream) := stream.getUInt64 enemycount
      return (.PK_S_ANS_ENEMY_EXPLOSION room_num enemycount, stream)
  | .PK_C_REQ_MAKE_BOSS room_num => do
      let (room_num, stream) := stream.getUInt64 room_num
      return (.PK_C_REQ_MAKE_BOSS room_num, stream)
  | .PK_S_ANS_MAKE_BOSS room_num => do
      let (room_num, stream) := stream.getUInt64 room_num
      return (.PK_S_ANS_MAKE_BOSS room_num, stream)
  | .PK_C_REQ_BOSS_EXPLOSION room_num => do
      let (room_num, stream) := stream.getUInt64 room_num
      return (.PK_C_REQ_BOSS_EXPLOSION room_num, stream)
  | .PK_S_ANS_BOSS_EXPLOSION room_num ip_ port_ => do
      let (room_num, stream) := stream.getUInt64 room_num
      let (ip_, stream) ← stream.getStr (unset 0) ip_
      let (port_, stream) := stream.getUInt32 port_
      return (.PK_S_ANS_BOSS_EXPLOSION room_num ip_ port_, stream)
  | .PK_I_INITIALIZE_ROOMMEMBER room_num member_count => do
      let (room_num, stream) := stream.getUInt64 room_num
      let (member_count, stream) := stream.getUInt64 member_count
      return (.PK_I_INITIALIZE_ROOMMEMBER room_num member_count, stream)
  | .PK_S_REQ_CHANGE_SCENE room_num => do
      let (room_num, stream) := stream.getUInt64 room_num
      return (.PK_S_REQ_CHANGE_SCENE room_num, stream)
  | .PK_S_REQ_ON_GAME room_num => do
      let (room_num, stream) := stream.getUInt64 room_num
      return (.PK_S_REQ_ON_GAME room_num, stream)

end Packet

def PacketFactory.getPacket (packetType : Nat) : Option Packet :=
  match packetType with
  | 128 => some .PK_C_REQ_EXIT
  | 129 => some .PK_S_ANS_EXIT
  | 130 => some .PK_I_NOTIFY_TERMINAL
  | 131 => some .PK_C_NOTIFY_HEARTBEAT
  | 132 => some (.PK_C_REQ_ID_PW [] [])
  | 133 => some .PK_S_ANS_ID_PW_FAIL
  | 134 => some (.PK_S_ANS_ID_PW_SUCCESS [] 0 [])
  | 135 => some (.PK_I_DB_REQ_ID_PW 0 [] [])
  | 136 => some (.PK_I_DB_ANS_ID_PW 0 0 0)
  | 137 => some (.PK_I_CHTTING_NOTIFY_ID 0 0)
  | 138 => some (.PK_I_DB_REQ_LOAD_DATA 0 0)
  | 139 => some (.PK_I_DB_ANS_PARSE_DATA 0 [] 0)
  | 140 => some (.PK_I_LOGIN_NOTIFY_ID_LOADED 0 [] 0)
  | 141 => some (.PK_C_REQ_REGIST_CHATTING_NAME [])
  | 142 => some (.PK_C_REQ_CHATTING [])
  | 143 => some (.PK_S_ANS_CHATTING [] [])
  | 144 => some (.PK_C_REQ_LOBBY_INFO 0 0)
  | 145 => some (.PK_S_ANS_LOBBY_INFO 0 0)
  | 146 => some (.PK_C_REQ_ENTER_ROOM 0 0)
  | 147 => some (.PK_S_ANS_ENTER_ROOM 0 0)
  | 149 => some (.PK_C_REQ_PLAYER_MOVE 0 0 0)
  | 150 => some (.PK_I_USER_INFO 0 0 0)
  | 151 => some (.PK_S_ANS_PLAYER_MOVE 0 0 0)
  | 152 => some (.PK_C_REQ_FIRE_BULLET 0 0 0)
  | 153 => some (.PK_S_ANS_FIRE_BULLET 0 0 0)
  | 154 => some (.PK_C_REQ_MAKE_ENEMY 0 0)
  | 155 => some (.PK_S_ANS_MAKE_ENEMY 0)
  | 156 => some (.PK_C_REQ_ENEMY_EXPLOSION 0 0)
  | 157 => some (.PK_S_ANS_ENEMY_EXPLOSION 0 0)
  | 158 => some (.PK_C_REQ_MAKE_BOSS 0)
  | 159 => some (.PK_S_ANS_MAKE_BOSS 0)
  | 160 => some (.PK_C_REQ_BOSS_EXPLOSION 0)
  | 161 => some (.PK_S_ANS_BOSS_EXPLOSION 0 [] 0)
  | 162 => some (.PK_I_INITIALIZE_ROOMMEMBER 0 0)
  | 163 => some (.PK_S_REQ_CHANGE_SCENE 0)
  | 164 => some (.PK_S_REQ_ON_GAME 0)
  | _ => none

/-- `rowPacket` is the memory from the packet's type on, zero behind the list. -/
def PacketAnalyzer.analyzer (unset : Nat → Int32) (rowPacket : List UInt8) (size : Nat) :
    Exec (Option Packet) :=
  let type := LittleEndian.decode (ZeroFilled.read rowPacket 0 8)
  match PacketFactory.getPacket type with
  | none => .ok none
  | some packet =>
      if 8 < size then do
        let stream ← Stream.set (ZeroFilled.read rowPacket 8 (size - 8))
        let (packet, _) ← packet.decode unset stream
        return some packet
      else .ok (some packet)

end GraduationServer
