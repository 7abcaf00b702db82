import GraduationServer.StreamReads

/-!
Values of all types that a `Stream` takes, written one after the other and read
back in the same order. A string counts its characters, which are written one
by one and read as a block; a vector counts its strings.
-/

namespace GraduationServer

open GraduationServer.Stream (cursor)

inductive Value where
  | scalar (type : ScalarType) (value : BitVec (8 * type.width))
  | str (value : Str)
  | wstr (value : WStr)
  | wstrs (value : List WStr)

namespace Stream

def putScalar (stream : Stream) (type : ScalarType) (value : BitVec (8 * type.width)) : Stream :=
  stream.write (LittleEndian.encode type.width value.toNat)

def putWchar (stream : Stream) (value : UInt16) : Stream :=
  stream.write (LittleEndian.encode WCHAR_SIZE value.toNat)

def putWstr (stream : Stream) (value : WStr) : Stream :=
  value.foldl putWchar (stream.write (LittleEndian.encode 4 value.length))

def putWstrs (stream : Stream) (value : List WStr) : Stream :=
  value.foldl putWstr (stream.write (LittleEndian.encode 8 value.length))

def put (stream : Stream) : Value → Stream
  | .scalar type value => stream.putScalar type value
  | .str value => stream.putStr value
  | .wstr value => stream.putWstr value
  | .wstrs value => stream.putWstrs value

def WritesPass : Stream → List (List UInt8) → Prop
  | _, [] => True
  | stream, piece :: rest =>
      stream.checkWriteBound piece.length = true ∧ (stream.write piece).WritesPass rest

def wstrPieces (value : WStr) : List (List UInt8) :=
  LittleEndian.encode 4 value.length ::
    value.map fun char => LittleEndian.encode WCHAR_SIZE char.toNat

end Stream

namespace Value

def pieces : Value → List (List UInt8)
  | .scalar type value => [LittleEndian.encode type.width value.toNat]
  | .str value => Stream.strPieces value
  | .wstr value => Stream.wstrPieces value
  | .wstrs value => LittleEndian.encode 8 value.length :: value.flatMap Stream.wstrPieces

def encoding (value : Value) : List UInt8 := value.pieces.flatten

def NulFree : Value → Prop
  | .scalar .. => True
  | .str value => 0 ∉ value
  | .wstr value => 0 ∉ value
  | .wstrs value => ∀ string ∈ value, 0 ∉ string

/-- The call reads the type of the value, a vector into an empty one. -/
inductive ReadBy : Value → ReadCall → Prop
  | scalar {type : ScalarType} {value : BitVec (8 * type.width)}
      (retVal : BitVec (8 * type.width)) : ReadBy (.scalar type value) (.scalar type retVal)
  | str {value : Str} (unset : Int32) (retVal : Str) : ReadBy (.str value) (.str unset retVal)
  | wstr {value : WStr} (unset : Int32) (retVal : WStr) : ReadBy (.wstr value) (.wstr unset retVal)
  | wstrs {value : List WStr} (unset : UInt64) (unsetSizes : Nat → Int32) :
      ReadBy (.wstrs value) (.wstrs unset unsetSizes [])

end Value

namespace Reading

def StringPasses (unset : Int32) (reading : Reading) : Prop :=
  reading.stream.checkReadBound 4 = true ∧
    let (size, reading) := reading.get 4 Int32.ofNat unset
    reading.stream.checkReadBound (toSize size) = true

def StringsPass : Nat → (Nat → Int32) → Reading → Prop
  | 0, _, _ => True
  | count + 1, unset, reading =>
      reading.StringPasses (unset 0) ∧
        ∀ tmp next, reading.getWstr (unset 0) [] = (.ok tmp, next) →
          StringsPass count (fun string => unset (string + 1)) next

end Reading

namespace ReadCall

def Passes (reading : Reading) : ReadCall → Prop
  | .scalar type _ => reading.stream.checkReadBound type.width = true
  | .str unset _ => reading.StringPasses unset
  | .wstr unset _ => reading.StringPasses unset
  | .wstrs unset unsetSizes _ =>
      reading.stream.checkReadBound 8 = true ∧
        let (size, reading) := reading.get 8 UInt64.ofNat unset
        reading.StringsPass size.toNat unsetSizes

def result (reading : Reading) : ReadCall → Exec Value × Reading
  | .scalar type retVal =>
      let (value, reading) := reading.getScalar type retVal
      (.ok (.scalar type value), reading)
  | .str unset retVal =>
      let (value, reading) := reading.getStr unset retVal
      (value.map .str, reading)
  | .wstr unset retVal =>
      let (value, reading) := reading.getWstr unset retVal
      (value.map .wstr, reading)
  | .wstrs unset unsetSizes retVal =>
      let (value, reading) := reading.getWstrs unset unsetSizes retVal
      (value.map .wstrs, reading)

theorem result_perform (reading : Reading) (call : ReadCall) :
    (call.result reading).2 = call.perform reading := by
  cases call <;> rfl

def AllPass : Reading → List ReadCall → Prop
  | _, [] => True
  | reading, call :: rest => call.Passes reading ∧ AllPass (call.perform reading) rest

def results : Reading → List ReadCall → Exec (List Value) × Reading
  | reading, [] => (.ok [], reading)
  | reading, call :: rest =>
      Reading.after (call.result reading) fun value reading =>
        Reading.after (results reading rest) fun values reading => (.ok (value :: values), reading)

end ReadCall

/-! What is written. -/

namespace Stream

theorem write_checked {stream : Stream} {value : List UInt8}
    (fits : stream.size + value.length ≤ SOCKET_BUF_SIZE) :
    stream.checkWriteBound value.length = true := by
  have small : (stream.size + value.length) % sizeRange = stream.size + value.length :=
    Nat.mod_eq_of_lt (by simp only [SOCKET_BUF_SIZE] at fits; simp only [sizeRange]; omega)
  simp [checkWriteBound, small, Nat.not_lt.mpr fits]

theorem writesPass_fits {stream : Stream} {pieces : List (List UInt8)}
    (fits : stream.size + pieces.flatten.length ≤ SOCKET_BUF_SIZE) : stream.WritesPass pieces := by
  induction pieces generalizing stream with
  | nil => trivial
  | cons piece rest ih =>
      simp only [List.flatten_cons, List.length_append] at fits
      refine ⟨write_checked (by omega), ih ?_⟩
      rw [write_fits (by omega)]
      simp only [size, List.length_append] at fits ⊢
      omega

theorem putWstr_eq (stream : Stream) (value : WStr) :
    stream.putWstr value = stream.putAll (wstrPieces value) := by
  simp only [putWstr, putAll, wstrPieces, List.foldl_cons, List.foldl_map]
  rfl

theorem putWstrs_eq (stream : Stream) (value : List WStr) :
    value.foldl putWstr stream = stream.putAll (value.flatMap wstrPieces) := by
  induction value generalizing stream with
  | nil => rfl
  | cons first rest ih =>
      rw [List.foldl_cons, ih, putWstr_eq, List.flatMap_cons, putAll_append]

theorem put_eq (stream : Stream) (value : Value) :
    stream.put value = stream.putAll value.pieces := by
  cases value with
  | scalar type value => rfl
  | str value => exact putStr_eq stream value
  | wstr value => exact putWstr_eq stream value
  | wstrs value => exact putWstrs_eq _ value

theorem putValues_eq (stream : Stream) (values : List Value) :
    values.foldl put stream = stream.putAll (values.flatMap Value.pieces) := by
  induction values generalizing stream with
  | nil => rfl
  | cons value rest ih => rw [List.foldl_cons, ih, put_eq, List.flatMap_cons, putAll_append]

def encodeWstr (value : WStr) : List UInt8 :=
  LittleEndian.encode 4 value.length ++
    value.flatMap fun char => LittleEndian.encode WCHAR_SIZE char.toNat

theorem wstrPieces_flatten (value : WStr) : (wstrPieces value).flatten = encodeWstr value := by
  rw [wstrPieces, List.flatten_cons, ← List.flatMap_def, encodeWstr]

theorem encodeWstr_count (values : List WStr) :
    values.length ≤ (values.flatMap encodeWstr).length := by
  induction values with
  | nil => simp
  | cons value rest ih =>
      simp only [List.flatMap_cons, List.length_append, List.length_cons, encodeWstr,
        LittleEndian.encode_length]
      omega

end Stream

theorem wideChars_encode (value : WStr) :
    wideChars (value.flatMap fun char => LittleEndian.encode WCHAR_SIZE char.toNat) = value := by
  induction value with
  | nil => rfl
  | cons char rest ih =>
      have bytes : LittleEndian.encode WCHAR_SIZE char.toNat =
          [UInt8.ofNat char.toNat, UInt8.ofNat (char.toNat / 256)] := rfl
      have back := LittleEndian.decode_encode_of_lt (by simpa [WCHAR_SIZE] using char.toNat_lt :
        char.toNat < 256 ^ WCHAR_SIZE)
      rw [bytes] at back
      rw [List.flatMap_cons, bytes, List.cons_append, List.cons_append, List.nil_append, wideChars,
        ih, back, UInt16.ofNat_toNat]

theorem wideString_encode {value : WStr} (nulFree : 0 ∉ value) :
    wideString (value.flatMap fun char => LittleEndian.encode WCHAR_SIZE char.toNat) = value := by
  rw [wideString, wideChars_encode, List.takeWhile_eq_self_iff]
  intro char member
  simp only [decide_eq_true_eq]
  rintro rfl
  exact nulFree member

theorem encodeWchars_length (value : WStr) :
    (value.flatMap fun char => LittleEndian.encode WCHAR_SIZE char.toNat).length =
      value.length * WCHAR_SIZE := by
  simp [List.length_flatMap]

/-! What is read. -/

namespace Reading

structure Stands (reading : Reading) (done rest : List UInt8) : Prop where
  stream : reading.stream = cursor done rest
  small : (done ++ rest).length ≤ SOCKET_BUF_SIZE

theorem read_stands {reading : Reading} {done bytes rest : List UInt8}
    (stands : reading.Stands done (bytes ++ rest)) :
    reading.stream.checkReadBound bytes.length = true ∧
      ∃ next, reading.read bytes.length = (bytes, next) ∧ next.Stands (done ++ bytes) rest := by
  obtain ⟨here, small⟩ := stands
  refine ⟨by rw [here]; exact Stream.cursor_check small, ?_⟩
  simp only [read, here, Stream.cursor_read small]
  exact ⟨_, rfl, rfl, by rwa [List.append_assoc]⟩

theorem get_stands {α : Type} {width number : Nat} {reading : Reading} {done rest : List UInt8}
    (stands : reading.Stands done (LittleEndian.encode width number ++ rest))
    (bound : number < 256 ^ width) (ofNat : Nat → α) (retVal : α) :
    reading.stream.checkReadBound width = true ∧
      ∃ next, reading.get width ofNat retVal = (ofNat number, next) ∧
        next.Stands (done ++ LittleEndian.encode width number) rest := by
  obtain ⟨check, next, taken, later⟩ := read_stands stands
  rw [LittleEndian.encode_length] at check taken
  refine ⟨check, next, ?_, later⟩
  simp only [get, check, if_true, taken, LittleEndian.decode_encode_of_lt bound]

theorem getBody_stands {α : Type} {unit count : Nat} {reading : Reading}
    {done bytes rest : List UInt8} (stands : reading.Stands done (bytes ++ rest))
    (length : bytes.length = count * unit) (positive : 0 < unit) (unitSize : unit ≤ 2)
    (ofBytes : List UInt8 → α) (retVal : α) :
    reading.stream.checkReadBound (toSize (Int32.ofNat count)) = true ∧
      ∃ next, reading.getBody unit ofBytes (Int32.ofNat count) retVal =
        (.ok (ofBytes bytes), next) ∧
        next.Stands (done ++ bytes) rest := by
  obtain ⟨-, next, taken, later⟩ := read_stands stands
  obtain ⟨here, small⟩ := stands
  have fewer : count ≤ bytes.length := length ▸ Nat.le_mul_of_pos_right count positive
  simp only [List.length_append, SOCKET_BUF_SIZE] at small
  have value : (Int32.ofNat count).toInt = count := Int32.toInt_ofNat_of_lt (by omega)
  have size : toSize (Int32.ofNat count) = count := Stream.toSize_ofNat (by omega)
  have check : reading.stream.checkReadBound count = true := by
    have sum : (done.length + count) % sizeRange = done.length + count :=
      Nat.mod_eq_of_lt (by simp only [sizeRange]; omega)
    simp only [here, Stream.checkReadBound, cursor, Stream.size, sum, List.length_append]
    simp only [Bool.not_eq_true', decide_eq_false_iff_not]
    omega
  rw [← size] at check length
  refine ⟨check, next, ?_, later⟩
  rw [getBody_counted (by omega) (by omega) unitSize ofBytes retVal check, ← length, taken]

theorem getStr_stands {reading : Reading} {value : Str} {done rest : List UInt8}
    (stands : reading.Stands done (Stream.encodeStr value ++ rest)) (nulFree : 0 ∉ value)
    (unset : Int32) (retVal : Str) :
    reading.StringPasses unset ∧ ∃ next, reading.getStr unset retVal = (.ok value, next) ∧
      next.Stands (done ++ Stream.encodeStr value) rest := by
  have small := stands.small
  simp only [Stream.encodeStr, List.length_append, SOCKET_BUF_SIZE] at small
  rw [Stream.encodeStr, List.append_assoc] at stands
  obtain ⟨lengthCheck, middle, length, behindLength⟩ :=
    get_stands stands (by omega) Int32.ofNat unset
  obtain ⟨bodyCheck, next, body, later⟩ := getBody_stands behindLength (Nat.mul_one _).symm
    Nat.one_pos (by decide) Stream.cString retVal
  have whole : Stream.cString value = value := (Packet.cString_eq_self_iff value).mpr nulFree
  refine ⟨⟨lengthCheck, by simpa only [length] using bodyCheck⟩, next, ?_, ?_⟩
  · simp only [getStr, length, body, whole]
  · rwa [Stream.encodeStr, ← List.append_assoc]

theorem getWstr_stands {reading : Reading} {value : WStr} {done rest : List UInt8}
    (stands : reading.Stands done (Stream.encodeWstr value ++ rest)) (nulFree : 0 ∉ value)
    (unset : Int32) (retVal : WStr) :
    reading.StringPasses unset ∧ ∃ next, reading.getWstr unset retVal = (.ok value, next) ∧
      next.Stands (done ++ Stream.encodeWstr value) rest := by
  have small := stands.small
  have chars := encodeWchars_length value
  simp only [Stream.encodeWstr, List.length_append, SOCKET_BUF_SIZE, chars] at small
  simp only [WCHAR_SIZE] at small
  rw [Stream.encodeWstr, List.append_assoc] at stands
  obtain ⟨lengthCheck, middle, length, behindLength⟩ :=
    get_stands stands (by omega) Int32.ofNat unset
  obtain ⟨bodyCheck, next, body, later⟩ := getBody_stands behindLength chars (by decide)
    (by decide) wideString retVal
  refine ⟨⟨lengthCheck, by simpa only [length] using bodyCheck⟩, next, ?_, ?_⟩
  · simp only [getWstr, length, body, wideString_encode nulFree]
  · rwa [Stream.encodeWstr, ← List.append_assoc]

theorem pushWstrs_stands {values : List WStr} {reading : Reading} {done rest : List UInt8}
    (stands : reading.Stands done (values.flatMap Stream.encodeWstr ++ rest))
    (nulFree : ∀ value ∈ values, 0 ∉ value) (unset : Nat → Int32) (retVal : List WStr) :
    StringsPass values.length unset reading ∧
      ∃ next, reading.pushWstrs values.length unset retVal = (.ok (retVal ++ values), next) ∧
        next.Stands (done ++ values.flatMap Stream.encodeWstr) rest := by
  induction values generalizing reading done unset retVal with
  | nil => exact ⟨trivial, reading, by simp [pushWstrs], by simpa using stands⟩
  | cons value values ih =>
      rw [List.flatMap_cons, List.append_assoc] at stands
      obtain ⟨passes, middle, taken, behind⟩ :=
        getWstr_stands stands (nulFree value List.mem_cons_self) (unset 0) []
      obtain ⟨others, next, pushed, later⟩ := ih behind
        (fun other member => nulFree other (List.mem_cons_of_mem _ member))
        (fun string => unset (string + 1)) (retVal ++ [value])
      refine ⟨⟨passes, fun tmp after there => ?_⟩, next, ?_, ?_⟩
      · rw [taken] at there
        cases there
        exact others
      · simp only [List.length_cons, pushWstrs, taken, after, pushed, List.append_assoc,
          List.singleton_append]
      · rwa [List.flatMap_cons, ← List.append_assoc]

end Reading

namespace Value

theorem encoding_wstrs (values : List WStr) :
    (wstrs values).encoding =
      LittleEndian.encode 8 values.length ++ values.flatMap Stream.encodeWstr := by
  rw [encoding, pieces, List.flatten_cons]
  congr 1
  induction values with
  | nil => rfl
  | cons value rest ih =>
      rw [List.flatMap_cons, List.flatten_append, ih, Stream.wstrPieces_flatten, List.flatMap_cons]

theorem pieces_flatten (values : List Value) :
    (values.flatMap pieces).flatten = values.flatMap encoding := by
  induction values with
  | nil => rfl
  | cons value rest ih =>
      rw [List.flatMap_cons, List.flatten_append, ih, List.flatMap_cons, encoding]

theorem result_stands {value : Value} {call : ReadCall} (readBy : value.ReadBy call)
    (nulFree : value.NulFree) {reading : Reading} {done rest : List UInt8}
    (stands : reading.Stands done (value.encoding ++ rest)) :
    call.Passes reading ∧ ∃ next, call.result reading = (.ok value, next) ∧
      next.Stands (done ++ value.encoding) rest := by
  cases readBy with
  | scalar retVal =>
      rename_i type value
      have whole : (scalar type value).encoding = LittleEndian.encode type.width value.toNat := by
        simp [encoding, pieces]
      rw [whole] at stands ⊢
      have bound : value.toNat < 256 ^ type.width := by
        have digits := value.isLt
        rwa [Nat.pow_mul] at digits
      obtain ⟨check, next, taken, later⟩ :=
        Reading.get_stands stands bound (BitVec.ofNat (8 * type.width)) retVal
      refine ⟨check, next, ?_, later⟩
      simp only [ReadCall.result, Reading.getScalar, taken, BitVec.ofNat_toNat, BitVec.setWidth_eq]
  | str unset retVal =>
      rename_i value
      have whole : (str value).encoding = Stream.encodeStr value := Stream.strPieces_flatten value
      rw [whole] at stands ⊢
      obtain ⟨passes, next, taken, later⟩ := Reading.getStr_stands stands nulFree unset retVal
      refine ⟨passes, next, ?_, later⟩
      simp only [ReadCall.result, taken, Except.map]
  | wstr unset retVal =>
      rename_i value
      have whole : (wstr value).encoding = Stream.encodeWstr value :=
        Stream.wstrPieces_flatten value
      rw [whole] at stands ⊢
      obtain ⟨passes, next, taken, later⟩ := Reading.getWstr_stands stands nulFree unset retVal
      refine ⟨passes, next, ?_, later⟩
      simp only [ReadCall.result, taken, Except.map]
  | wstrs unset unsetSizes =>
      rename_i values
      rw [encoding_wstrs] at stands ⊢
      have small := stands.small
      have fewer := Stream.encodeWstr_count values
      simp only [List.length_append, SOCKET_BUF_SIZE] at small
      have count : (UInt64.ofNat values.length).toNat = values.length :=
        UInt64.toNat_ofNat_of_lt' (by simp only [UInt64.size]; omega)
      rw [List.append_assoc] at stands
      obtain ⟨check, middle, length, behind⟩ :=
        Reading.get_stands stands (by omega) UInt64.ofNat unset
      obtain ⟨passes, next, pushed, later⟩ :=
        Reading.pushWstrs_stands behind nulFree unsetSizes []
      refine ⟨⟨check, by simpa only [length, count] using passes⟩, next, ?_, ?_⟩
      · simp only [ReadCall.result, Reading.getWstrs, length, count, pushed, Except.map,
          List.nil_append]
      · rwa [← List.append_assoc]

end Value

open Value

theorem results_stand {values : List Value} {calls : List ReadCall}
    (readBy : List.Forall₂ ReadBy values calls) (nulFree : ∀ value ∈ values, value.NulFree)
    {reading : Reading} {done rest : List UInt8}
    (stands : reading.Stands done (values.flatMap encoding ++ rest)) :
    ReadCall.AllPass reading calls ∧ ∃ finish,
      ReadCall.results reading calls = (.ok values, finish) ∧
        finish.Stands (done ++ values.flatMap encoding) rest := by
  induction readBy generalizing reading done with
  | nil => exact ⟨trivial, reading, rfl, by simpa using stands⟩
  | cons first others ih =>
      rename_i value call values calls
      rw [List.flatMap_cons, List.append_assoc] at stands
      obtain ⟨passes, next, taken, behind⟩ :=
        result_stands first (nulFree value List.mem_cons_self) stands
      obtain ⟨allPass, finish, read, later⟩ := ih
        (fun other member => nulFree other (List.mem_cons_of_mem _ member)) behind
      have performed : call.perform reading = next := by
        rw [← ReadCall.result_perform, taken]
      refine ⟨⟨passes, performed ▸ allPass⟩, finish, ?_, ?_⟩
      · simp only [ReadCall.results, taken, Reading.after, read]
      · rwa [List.flatMap_cons, ← List.append_assoc]

/-- Values that fit into a stream are written with every check passed, and the
calls for their types read them back to the end of the stream. -/
theorem values_round_trip {values : List Value} {calls : List ReadCall}
    (nulFree : ∀ value ∈ values, value.NulFree)
    (fits : (values.flatMap encoding).length ≤ SOCKET_BUF_SIZE)
    (readBy : List.Forall₂ ReadBy values calls) :
    Stream.initial.WritesPass (values.flatMap pieces) ∧
      let written : Reading := { stream := values.foldl Stream.put Stream.initial, copies := [] }
      ReadCall.AllPass written calls ∧ ∃ finish,
        ReadCall.results written calls = (.ok values, finish) ∧
          finish.stream.stream_ = written.stream.stream_ ∧
          finish.stream.readPt_ = finish.stream.size := by
  have bytes := pieces_flatten values
  have room : Stream.initial.size + (values.flatMap pieces).flatten.length ≤ SOCKET_BUF_SIZE := by
    rw [bytes]
    simpa [Stream.initial, Stream.size] using fits
  have written : values.foldl Stream.put Stream.initial = cursor [] (values.flatMap encoding) := by
    rw [Stream.putValues_eq, Stream.putAll_fits room, bytes]
    rfl
  have stands : Reading.Stands { stream := values.foldl Stream.put Stream.initial, copies := [] } []
      (values.flatMap encoding ++ []) := by
    rw [List.append_nil]
    exact ⟨written, by simpa using fits⟩
  obtain ⟨allPass, finish, read, last⟩ := results_stand readBy nulFree stands
  refine ⟨Stream.writesPass_fits room, allPass, finish, read, ?_, ?_⟩
  · rw [last.stream, written]
    simp [cursor]
  · rw [last.stream]
    simp [cursor, Stream.size]

/-- A flag, a name and a list of two names, one of them empty. -/
theorem values_round_trip_names :
    Stream.initial.WritesPass
        ([.scalar .bool 1, .str [97], .wstrs [[945], []]].flatMap pieces) ∧
      let written : Reading := {
        stream := [.scalar .bool 1, .str [97], .wstrs [[945], []]].foldl Stream.put Stream.initial
        copies := [] }
      ReadCall.AllPass written [.scalar .bool 0, .str 0 [], .wstrs 0 (fun _ => 0) []] ∧
        ∃ finish, ReadCall.results written [.scalar .bool 0, .str 0 [], .wstrs 0 (fun _ => 0) []] =
            (.ok [.scalar .bool 1, .str [97], .wstrs [[945], []]], finish) ∧
          finish.stream.stream_ = written.stream.stream_ ∧
          finish.stream.readPt_ = finish.stream.size :=
  values_round_trip (by simp [NulFree]) (by decide)
    (.cons (.scalar 0) (.cons (.str 0 []) (.cons (.wstrs 0 fun _ => 0) .nil)))

end GraduationServer
