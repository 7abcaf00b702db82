import GraduationServer.Fault
import GraduationServer.Library.LittleEndian

/-!
`Stream.h` and `Stream.cpp`: the byte buffer that packets are written into and
read back from. `stream_` holds the bytes below `offset_`; the constructor
zeroed the rest of the array. Arithmetic on `size_t` is modulo `sizeRange`, and
`ASSERT(FALSE)` does nothing, as in the release build.
-/

namespace GraduationServer

def SOCKET_BUF_SIZE : Nat := 1024 * 10

def sizeRange : Nat := 2 ^ 64

def toSize (value : Int32) : Nat := (value.toInt % (sizeRange : Int)).toNat

abbrev Str := List UInt8

abbrev WStr := List UInt16

/-- The four raw bytes of a `float`, which no server interprets. -/
abbrev RawFloat := UInt32

structure Stream where
  stream_ : List UInt8
  readPt_ : Nat

namespace Stream

def initial : Stream := { stream_ := [], readPt_ := 0 }

def size (stream : Stream) : Nat := stream.stream_.length

def set (data : List UInt8) : Exec Stream :=
  if SOCKET_BUF_SIZE < data.length then .error .outOfBounds
  else .ok { initial with stream_ := data }

def checkWriteBound (stream : Stream) (len : Nat) : Bool :=
  !decide (SOCKET_BUF_SIZE < (stream.size + len) % sizeRange)

def write (stream : Stream) (value : List UInt8) : Stream :=
  if stream.checkWriteBound value.length then { stream with stream_ := stream.stream_ ++ value }
  else stream

def putByte (stream : Stream) (value : UInt8) : Stream := stream.write [value]

def putUInt32 (stream : Stream) (value : UInt32) : Stream :=
  stream.write (LittleEndian.encode 4 value.toNat)

def putUInt64 (stream : Stream) (value : UInt64) : Stream :=
  stream.write (LittleEndian.encode 8 value.toNat)

def putStr (stream : Stream) (value : Str) : Stream :=
  value.foldl putByte (stream.write (LittleEndian.encode 4 value.length))

def checkReadBound (stream : Stream) (len : Nat) : Bool :=
  !decide (stream.size < (stream.readPt_ + len) % sizeRange)

def read (stream : Stream) (len : Nat) : List UInt8 × Stream :=
  (ZeroFilled.read stream.stream_ stream.readPt_ len,
    { stream with readPt_ := (stream.readPt_ + len) % sizeRange })

/-- `STREAM_READ` into a variable that keeps `retVal` when the check fails. -/
def get {α : Type} (width : Nat) (ofNat : Nat → α) (stream : Stream) (retVal : α) : α × Stream :=
  if stream.checkReadBound width then
    let (bytes, rest) := stream.read width
    (ofNat (LittleEndian.decode bytes), rest)
  else (retVal, stream)

def getByte (stream : Stream) (retVal : UInt8) : UInt8 × Stream := stream.get 1 UInt8.ofNat retVal

def getUInt32 (stream : Stream) (retVal : UInt32) : UInt32 × Stream :=
  stream.get 4 UInt32.ofNat retVal

def getUInt64 (stream : Stream) (retVal : UInt64) : UInt64 × Stream :=
  stream.get 8 UInt64.ofNat retVal

/-- What `*retVal = buf` keeps of a buffer: the bytes before the first NUL. -/
def cString (buffer : List UInt8) : Str := buffer.takeWhile (· ≠ 0)

/-- `size` is a local without an initial value: it holds `unset` when the
stream is too short for it. -/
def getStr (stream : Stream) (unset : Int32) (retVal : Str) : Exec (Str × Stream) :=
  let (size, stream) := stream.get 4 Int32.ofNat unset
  if stream.checkReadBound (toSize size) then
    if size < 0 then .error .badLength
    else
      let (buffer, stream) := stream.read (toSize size)
      .ok (cString buffer, stream)
  else .ok (retVal, stream)

end Stream

/-! Writing what fits appends it, and reading at a cursor that stands before an
encoded value gives the value back. -/

namespace Stream

theorem write_fits {stream : Stream} {value : List UInt8}
    (fits : stream.size + value.length ≤ SOCKET_BUF_SIZE) :
    stream.write value = { stream with stream_ := stream.stream_ ++ value } := by
  have small : (stream.size + value.length) % sizeRange = stream.size + value.length :=
    Nat.mod_eq_of_lt (by simp only [SOCKET_BUF_SIZE] at fits; simp only [sizeRange]; omega)
  simp [write, checkWriteBound, small, Nat.not_lt.mpr fits]

def putAll (stream : Stream) (values : List (List UInt8)) : Stream := values.foldl write stream

@[simp] theorem putAll_nil (stream : Stream) : stream.putAll [] = stream := rfl

theorem putByte_eq (stream : Stream) (value : UInt8) :
    stream.putByte value = stream.putAll [[value]] := rfl

theorem putUInt32_eq (stream : Stream) (value : UInt32) :
    stream.putUInt32 value = stream.putAll [LittleEndian.encode 4 value.toNat] := rfl

theorem putUInt64_eq (stream : Stream) (value : UInt64) :
    stream.putUInt64 value = stream.putAll [LittleEndian.encode 8 value.toNat] := rfl

theorem putAll_append (stream : Stream) (first second : List (List UInt8)) :
    stream.putAll (first ++ second) = (stream.putAll first).putAll second := by
  simp [putAll]

theorem putAll_fits {stream : Stream} {values : List (List UInt8)}
    (fits : stream.size + values.flatten.length ≤ SOCKET_BUF_SIZE) :
    stream.putAll values = { stream with stream_ := stream.stream_ ++ values.flatten } := by
  induction values generalizing stream with
  | nil => simp [putAll]
  | cons value rest ih =>
      simp only [List.flatten_cons, List.length_append] at fits
      have written : stream.write value = { stream with stream_ := stream.stream_ ++ value } :=
        write_fits (by omega)
      have later : (stream.write value).size + rest.flatten.length ≤ SOCKET_BUF_SIZE := by
        simp only [written, size, List.length_append] at fits ⊢
        omega
      change (stream.write value).putAll rest = _
      rw [ih later, written]
      simp

theorem write_size {stream : Stream} {value : List UInt8} (bound : stream.size ≤ SOCKET_BUF_SIZE)
    (small : value.length ≤ 8) :
    (stream.write value).size ≤ SOCKET_BUF_SIZE ∧
    min (stream.size + value.length) (SOCKET_BUF_SIZE - 7) ≤ (stream.write value).size := by
  by_cases fits : stream.size + value.length ≤ SOCKET_BUF_SIZE
  · rw [write_fits fits]
    simp only [size, List.length_append] at fits ⊢
    omega
  · have exact_sum : (stream.size + value.length) % sizeRange = stream.size + value.length := by
      simp only [SOCKET_BUF_SIZE, sizeRange] at bound ⊢
      omega
    have full : stream.write value = stream := by
      simp [write, checkWriteBound, exact_sum, Nat.lt_of_not_le fits]
    rw [full]
    omega

theorem putAll_size {stream : Stream} {values : List (List UInt8)}
    (bound : stream.size ≤ SOCKET_BUF_SIZE) (small : ∀ value ∈ values, value.length ≤ 8) :
    min (stream.size + values.flatten.length) (SOCKET_BUF_SIZE - 7) ≤
      (stream.putAll values).size := by
  induction values generalizing stream with
  | nil => simp
  | cons value rest ih =>
      obtain ⟨kept, written⟩ := write_size bound (small value List.mem_cons_self)
      have later := ih kept fun other member => small other (List.mem_cons_of_mem _ member)
      change _ ≤ ((stream.write value).putAll rest).size
      simp only [List.flatten_cons, List.length_append]
      omega

def strPieces (value : Str) : List (List UInt8) :=
  LittleEndian.encode 4 value.length :: value.map fun byte => [byte]

theorem putStr_eq (stream : Stream) (value : Str) :
    stream.putStr value = stream.putAll (strPieces value) := by
  simp only [putStr, putAll, strPieces, List.foldl_cons, List.foldl_map]
  rfl

def encodeStr (value : Str) : List UInt8 := LittleEndian.encode 4 value.length ++ value

@[simp] theorem strPieces_flatten (value : Str) : (strPieces value).flatten = encodeStr value := by
  rw [strPieces, List.flatten_cons, ← List.flatMap_def, List.flatMap_singleton', encodeStr]

def cursor (done rest : List UInt8) : Stream := { stream_ := done ++ rest, readPt_ := done.length }

theorem cursor_check {done value rest : List UInt8}
    (fits : (done ++ (value ++ rest)).length ≤ SOCKET_BUF_SIZE) :
    (cursor done (value ++ rest)).checkReadBound value.length = true := by
  simp only [List.length_append, SOCKET_BUF_SIZE] at fits
  have small : (done.length + value.length) % sizeRange = done.length + value.length :=
    Nat.mod_eq_of_lt (by simp only [sizeRange]; omega)
  simp only [checkReadBound, cursor, size, small, List.length_append]
  simp

theorem cursor_read {done value rest : List UInt8}
    (fits : (done ++ (value ++ rest)).length ≤ SOCKET_BUF_SIZE) :
    (cursor done (value ++ rest)).read value.length = (value, cursor (done ++ value) rest) := by
  simp only [List.length_append, SOCKET_BUF_SIZE] at fits
  have small : (done.length + value.length) % sizeRange = done.length + value.length :=
    Nat.mod_eq_of_lt (by simp only [sizeRange]; omega)
  have middle := ZeroFilled.read_middle done value rest
  rw [List.append_assoc] at middle
  simp only [read, cursor, small, middle, List.append_assoc, List.length_append]

theorem get_cursor {α : Type} {width number : Nat} {done rest : List UInt8}
    (ofNat : Nat → α) (retVal : α) (bound : number < 256 ^ width)
    (fits : (done ++ (LittleEndian.encode width number ++ rest)).length ≤ SOCKET_BUF_SIZE) :
    (cursor done (LittleEndian.encode width number ++ rest)).get width ofNat retVal =
      (ofNat number, cursor (done ++ LittleEndian.encode width number) rest) := by
  have check := cursor_check fits
  have value := cursor_read fits
  rw [LittleEndian.encode_length] at check value
  simp only [get, check, if_true, value, LittleEndian.decode_encode_of_lt bound]

theorem getByte_cursor {done rest : List UInt8} {value retVal : UInt8}
    (fits : (done ++ ([value] ++ rest)).length ≤ SOCKET_BUF_SIZE) :
    (cursor done ([value] ++ rest)).getByte retVal = (value, cursor (done ++ [value]) rest) := by
  have piece : [value] = LittleEndian.encode 1 value.toNat := by simp [LittleEndian.encode]
  rw [piece] at fits ⊢
  rw [getByte, get_cursor _ _ (by simpa using value.toNat_lt) fits]
  simp

theorem getUInt32_cursor {done rest : List UInt8} {value retVal : UInt32}
    (fits : (done ++ (LittleEndian.encode 4 value.toNat ++ rest)).length ≤ SOCKET_BUF_SIZE) :
    (cursor done (LittleEndian.encode 4 value.toNat ++ rest)).getUInt32 retVal =
      (value, cursor (done ++ LittleEndian.encode 4 value.toNat) rest) := by
  rw [getUInt32, get_cursor _ _ (by simpa using value.toNat_lt) fits]
  simp

theorem getUInt64_cursor {done rest : List UInt8} {value retVal : UInt64}
    (fits : (done ++ (LittleEndian.encode 8 value.toNat ++ rest)).length ≤ SOCKET_BUF_SIZE) :
    (cursor done (LittleEndian.encode 8 value.toNat ++ rest)).getUInt64 retVal =
      (value, cursor (done ++ LittleEndian.encode 8 value.toNat) rest) := by
  rw [getUInt64, get_cursor _ _ (by simpa using value.toNat_lt) fits]
  simp

theorem toSize_ofNat {length : Nat} (bound : length < 2 ^ 31) :
    toSize (Int32.ofNat length) = length := by
  have value : (Int32.ofNat length).toInt = length := Int32.toInt_ofNat_of_lt bound
  simp only [toSize, value, sizeRange]
  omega

theorem getStr_cursor {done rest : List UInt8} {value retVal : Str} {unset : Int32}
    (fits : (done ++ (encodeStr value ++ rest)).length ≤ SOCKET_BUF_SIZE) :
    (cursor done (encodeStr value ++ rest)).getStr unset retVal =
      .ok (cString value, cursor (done ++ encodeStr value) rest) := by
  have small : value.length < 2 ^ 31 := by
    simp only [encodeStr, List.length_append, SOCKET_BUF_SIZE] at fits
    omega
  simp only [encodeStr, List.append_assoc] at fits ⊢
  have length := get_cursor Int32.ofNat unset (by omega) fits
  have later : ((done ++ LittleEndian.encode 4 value.length) ++ (value ++ rest)).length ≤
      SOCKET_BUF_SIZE := by simpa only [List.append_assoc] using fits
  have positive : ¬ Int32.ofNat value.length < 0 := by
    rw [Int32.lt_iff_toInt_lt, Int32.toInt_ofNat_of_lt small]
    simp
  simp only [getStr, length, toSize_ofNat small, cursor_check later, if_true, positive, if_false,
    cursor_read later, List.append_assoc]

end Stream

end GraduationServer
