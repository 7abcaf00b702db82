import GraduationServer.PacketCodec

/-!
`IoData` and `IOCPSession`. A session is modelled together with what the
operating system holds for its socket: the buffer of the posted receive, the
bytes of the sends that are not complete yet, and the bytes already sent.
`main_buffer_` is the list of its first `main_buffer_offset` bytes.
-/

namespace GraduationServer

/-- `buf` is an offset into the `buffer_` it points to. -/
structure WSABUF where
  buf : Nat
  len : Nat
  deriving DecidableEq

structure IoData where
  totalBytes_ : Nat
  currentBytes_ : Nat
  buffer_ : List UInt8

namespace IoData

def clear : IoData := { totalBytes_ := 0, currentBytes_ := 0, buffer_ := [] }

def needMoreIO (data : IoData) (transferSize : Nat) : Bool × IoData :=
  let currentBytes_ := (data.currentBytes_ + transferSize) % sizeRange
  (decide (currentBytes_ < data.totalBytes_), { data with currentBytes_ := currentBytes_ })

def packetLen (data : IoData) : Int32 :=
  Int32.ofNat (LittleEndian.decode (ZeroFilled.read data.buffer_ 0 4))

def setupTotalBytes (data : IoData) : Nat × IoData :=
  let totalBytes_ := (data.totalBytes_ + toSize data.packetLen) % sizeRange
  if data.totalBytes_ = 0 then (4, { data with totalBytes_ := totalBytes_ })
  else (0, { data with totalBytes_ := totalBytes_ })

def wsabuf (data : IoData) : WSABUF :=
  { buf := data.currentBytes_
    len := (data.totalBytes_ + sizeRange - data.currentBytes_) % sizeRange % 2 ^ 32 }

/-- The second `memcpy_s` is given the size of the whole array for what is
left of it behind the header. -/
def setData (stream : Stream) : Exec (Bool × IoData) :=
  if SOCKET_BUF_SIZE ≤ stream.size then .ok (false, clear)
  else if SOCKET_BUF_SIZE < 4 + stream.size then .error .outOfBounds
  else
    .ok (true, {
      totalBytes_ := 4 + stream.size
      currentBytes_ := 0
      buffer_ := LittleEndian.encode 4 (4 + stream.size) ++ stream.stream_ })

end IoData

structure Socket where
  posted : WSABUF
  pending : List (List UInt8)
  wire : List UInt8

structure IOCPSession where
  ioRead : IoData
  ioWrite : IoData
  main_buffer_ : List UInt8
  packageStorage : List Packet
  socket : Socket

namespace IOCPSession

def recv (session : IOCPSession) (wsaBuf : WSABUF) : IOCPSession :=
  { session with socket := { session.socket with posted := wsaBuf } }

def isRecving (session : IOCPSession) (transferSize : Nat) : Bool × IOCPSession :=
  let (more, data) := session.ioRead.needMoreIO transferSize
  if more then
    let (_, again) := data.setupTotalBytes
    (true, { session with ioRead := again }.recv data.wsabuf)
  else (false, { session with ioRead := data })

def recvStandBy (session : IOCPSession) : IOCPSession :=
  { session with ioRead := IoData.clear }.recv { buf := 0, len := SOCKET_BUF_SIZE }

/-- A session whose constructor and first `recvStandBy` have run. -/
def accepted : IOCPSession :=
  recvStandBy {
    ioRead := IoData.clear
    ioWrite := IoData.clear
    main_buffer_ := []
    packageStorage := []
    socket := { posted := { buf := 0, len := 0 }, pending := [], wire := [] } }

/-- The type of an unknown packet is logged through its null pointer. -/
def takePacket (unset : Nat → Int32) (source : List UInt8) (packet_len : Nat) : Exec Packet := do
  if packet_len < 4 then .error .badLength
  else if 200 < packet_len - 4 then .error .outOfBounds
  else
    match ← PacketAnalyzer.analyzer unset (source.take (packet_len - 4)) (packet_len - 4) with
    | none => .error .nullPointer
    | some packet => .ok packet

/-- The loop of `onRecv`. Every turn takes at least the four bytes of a length,
so the length of `main_buffer_` bounds the turns. -/
def extract (unset : Nat → Nat → Int32) (offset : Nat) :
    Nat → List UInt8 → List Packet → Exec (List UInt8 × List Packet)
  | 0, _, _ => .error .endlessLoop
  | fuel + 1, main_buffer_, packageStorage =>
      if main_buffer_.length < 8 then .ok (main_buffer_, packageStorage)
      else
        let packet_len := LittleEndian.decode (main_buffer_.take 4)
        if main_buffer_.length < packet_len then .ok (main_buffer_, packageStorage)
        else do
          let packet ← takePacket (unset fuel) (main_buffer_.drop offset) packet_len
          extract unset offset fuel (main_buffer_.drop packet_len) (packageStorage ++ [packet])

/-- The copy into `main_buffer_` goes to `&main_buffer_ + main_buffer_offset`,
that many whole arrays behind its start. -/
def onRecv (unset : Nat → Nat → Int32) (session : IOCPSession) (transferSize : Nat) :
    Exec IOCPSession :=
  let (offset, data) := session.ioRead.setupTotalBytes
  let (more, session) := { session with ioRead := data }.isRecving transferSize
  if more then .ok session
  else
    let count := session.ioRead.currentBytes_
    if SOCKET_BUF_SIZE < count then .error .outOfBounds
    else if 0 < count ∧ session.main_buffer_ ≠ [] then .error .outOfBounds
    else do
      let main_buffer_ := session.main_buffer_ ++ ZeroFilled.read session.ioRead.buffer_ 0 count
      let (main_buffer_, packageStorage) ←
        extract unset offset (main_buffer_.length + 1) main_buffer_ session.packageStorage
      return recvStandBy { session with
        main_buffer_ := main_buffer_
        packageStorage := packageStorage }

def Deliverable (session : IOCPSession) (chunk : List UInt8) : Prop :=
  chunk ≠ [] ∧ chunk.length ≤ session.socket.posted.len

instance (session : IOCPSession) (chunk : List UInt8) : Decidable (session.Deliverable chunk) :=
  inferInstanceAs (Decidable (_ ∧ _))

def receive (unset : Nat → Nat → Int32) (session : IOCPSession) (chunk : List UInt8) :
    Exec IOCPSession :=
  let offset := session.socket.posted.buf
  if SOCKET_BUF_SIZE < offset + chunk.length then .error .outOfBounds
  else
    let data := { session.ioRead with
      buffer_ := ZeroFilled.write session.ioRead.buffer_ offset chunk }
    onRecv unset { session with ioRead := data } chunk.length

def send (session : IOCPSession) (wsaBuf : WSABUF) : Exec IOCPSession :=
  if SOCKET_BUF_SIZE < wsaBuf.buf + wsaBuf.len then .error .outOfBounds
  else
    let bytes := ZeroFilled.read session.ioWrite.buffer_ wsaBuf.buf wsaBuf.len
    let socket := { session.socket with pending := session.socket.pending ++ [bytes] }
    .ok { session with socket := socket }

def onSend (session : IOCPSession) (transferSize : Nat) : Exec IOCPSession :=
  let (more, data) := session.ioWrite.needMoreIO transferSize
  let session := { session with ioWrite := data }
  if more then session.send data.wsabuf else .ok session

def sendPacket (session : IOCPSession) (packet : Packet) : Exec IOCPSession := do
  let stream := packet.encode Stream.initial
  let (accepted, data) ← IoData.setData stream
  let session := { session with ioWrite := data }
  if accepted then session.send { buf := 0, len := stream.size } else return session

/-- The first pending send completes with the given count: so many of its bytes
are on the wire, and `onSend` runs. -/
def complete (session : IOCPSession) (transferSize : Nat) : Exec IOCPSession :=
  match session.socket.pending with
  | [] => .error .notEnabled
  | bytes :: pending =>
      if 0 < transferSize ∧ transferSize ≤ bytes.length then
        let socket := { session.socket with
          pending := pending
          wire := session.socket.wire ++ bytes.take transferSize }
        onSend { session with socket := socket } transferSize
      else .error .notEnabled

end IOCPSession

namespace Packet

def frame (packet : Packet) : List UInt8 :=
  LittleEndian.encode 4 (4 + packet.encoding.length) ++ packet.encoding

def sentFrame (packet : Packet) : List UInt8 :=
  let stream := packet.encode Stream.initial
  LittleEndian.encode 4 (4 + stream.size) ++ stream.stream_

theorem sentFrame_eq_frame {packet : Packet} (fits : packet.encoding.length ≤ SOCKET_BUF_SIZE) :
    packet.sentFrame = packet.frame := by
  rw [sentFrame, encode_fits fits]
  rfl

def frames (packets : List Packet) : List UInt8 := packets.flatMap frame

@[simp] theorem frames_nil : frames [] = [] := rfl

@[simp] theorem frames_cons (packet : Packet) (packets : List Packet) :
    frames (packet :: packets) = packet.frame ++ frames packets := by
  simp [frames]

@[simp] theorem frame_length (packet : Packet) :
    packet.frame.length = 4 + packet.encoding.length := by
  simp [frame]

end Packet

end GraduationServer
