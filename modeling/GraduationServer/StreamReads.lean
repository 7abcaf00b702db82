import GraduationServer.FieldReads

/-!
Every `operator >>` of `Stream`, with the copies that `read` makes. A call that
throws leaves the stream as it stands, so each call gives the reading after it.
-/

namespace GraduationServer

structure Copy where
  source : Nat
  len : Nat
  deriving DecidableEq, Repr

structure Reading where
  stream : Stream
  copies : List Copy

/-- The types of one machine word that have an `operator >>` of their own. -/
inductive ScalarType where
  | bool | float | INT8 | UINT8 | INT16 | UINT16 | INT32 | UINT32 | INT64 | UINT64
  deriving DecidableEq, Repr

def ScalarType.width : ScalarType → Nat
  | .bool | .INT8 | .UINT8 => 1
  | .INT16 | .UINT16 => 2
  | .float | .INT32 | .UINT32 => 4
  | .INT64 | .UINT64 => 8

def WCHAR_SIZE : Nat := 2

def wideChars : List UInt8 → WStr
  | low :: high :: rest => UInt16.ofNat (LittleEndian.decode [low, high]) :: wideChars rest
  | _ => []

def wideString (buffer : List UInt8) : WStr := (wideChars buffer).takeWhile (· ≠ 0)

namespace Reading

def read (reading : Reading) (len : Nat) : List UInt8 × Reading :=
  let (bytes, stream) := reading.stream.read len
  (bytes, { stream, copies := reading.copies ++ [{ source := reading.stream.readPt_, len }] })

def get {α : Type} (width : Nat) (ofNat : Nat → α) (reading : Reading) (retVal : α) : α × Reading :=
  if reading.stream.checkReadBound width then
    let (bytes, rest) := reading.read width
    (ofNat (LittleEndian.decode bytes), rest)
  else (retVal, reading)

def getScalar (type : ScalarType) (reading : Reading) (retVal : BitVec (8 * type.width)) :
    BitVec (8 * type.width) × Reading :=
  reading.get type.width (BitVec.ofNat (8 * type.width)) retVal

/-- From the check of the length on, for characters of `unit` bytes. The array
of `size + 1` characters cannot be made for a length below -1, and the
terminator of one of length -1 lies before the array. -/
def getBody {α : Type} (unit : Nat) (ofBytes : List UInt8 → α) (size : Int32) (reading : Reading)
    (retVal : α) : Exec α × Reading :=
  if reading.stream.checkReadBound (toSize size) then
    if size + 1 < 0 then (.error .badLength, reading)
    else
      let (buf, reading) := reading.read (toSize size * unit % sizeRange)
      if size < 0 then (.error .outOfBounds, reading) else (.ok (ofBytes buf), reading)
  else (.ok retVal, reading)

/-- `size` holds `unset` where the stream is too short for a length. -/
def getStr (unset : Int32) (reading : Reading) (retVal : Str) : Exec Str × Reading :=
  let (size, reading) := reading.get 4 Int32.ofNat unset
  reading.getBody 1 Stream.cString size retVal

def getWstr (unset : Int32) (reading : Reading) (retVal : WStr) : Exec WStr × Reading :=
  let (size, reading) := reading.get 4 Int32.ofNat unset
  reading.getBody WCHAR_SIZE wideString size retVal

def after {α β : Type} (result : Exec α × Reading) (next : α → Reading → Exec β × Reading) :
    Exec β × Reading :=
  match result with
  | (.error reason, reading) => (.error reason, reading)
  | (.ok value, reading) => next value reading

def pushWstrs : Nat → (Nat → Int32) → Reading → List WStr → Exec (List WStr) × Reading
  | 0, _, reading, retVal => (.ok retVal, reading)
  | count + 1, unset, reading, retVal =>
      after (reading.getWstr (unset 0) []) fun tmp reading =>
        pushWstrs count (fun string => unset (string + 1)) reading (retVal ++ [tmp])

def getWstrs (unset : UInt64) (unsetSizes : Nat → Int32) (reading : Reading)
    (retVal : List WStr) : Exec (List WStr) × Reading :=
  let (size, reading) := reading.get 8 UInt64.ofNat unset
  reading.pushWstrs size.toNat unsetSizes retVal

end Reading

/-- A call of `operator >>` with the value that its target holds, and what
stands in the uninitialised locals that it may read a length into. -/
inductive ReadCall where
  | scalar (type : ScalarType) (retVal : BitVec (8 * type.width))
  | str (unset : Int32) (retVal : Str)
  | wstr (unset : Int32) (retVal : WStr)
  | wstrs (unset : UInt64) (unsetSizes : Nat → Int32) (retVal : List WStr)

def ReadCall.perform (reading : Reading) : ReadCall → Reading
  | .scalar type retVal => (reading.getScalar type retVal).2
  | .str unset retVal => (reading.getStr unset retVal).2
  | .wstr unset retVal => (reading.getWstr unset retVal).2
  | .wstrs unset unsetSizes retVal => (reading.getWstrs unset unsetSizes retVal).2

/-! A length of -1 passes the check behind any byte that was read, and a wide
string is checked for its characters and read for their bytes. The condition
of a call says that it meets neither. -/

/-- The body of a string of this length lies in the stream whenever the check
of its length passes. -/
structure Stream.BodyFits (unit : Nat) (size : Int32) (stream : Stream) : Prop where
  counted : size = -1 → stream.readPt_ = 0
  measured : 0 ≤ size.toInt → stream.readPt_ + toSize size ≤ stream.size →
    stream.readPt_ + toSize size * unit ≤ stream.size

def Reading.StringFits (unit : Nat) (unset : Int32) (reading : Reading) : Prop :=
  let (size, reading) := reading.get 4 Int32.ofNat unset
  reading.stream.BodyFits unit size

def Reading.StringsFit : Nat → (Nat → Int32) → Reading → Prop
  | 0, _, _ => True
  | count + 1, unset, reading =>
      reading.StringFits WCHAR_SIZE (unset 0) ∧
        ∀ tmp next, reading.getWstr (unset 0) [] = (.ok tmp, next) →
          StringsFit count (fun string => unset (string + 1)) next

def ReadCall.Fits (reading : Reading) : ReadCall → Prop
  | .scalar .. => True
  | .str unset _ => reading.StringFits 1 unset
  | .wstr unset _ => reading.StringFits WCHAR_SIZE unset
  | .wstrs unset unsetSizes _ =>
      let (size, reading) := reading.get 8 UInt64.ofNat unset
      reading.StringsFit size.toNat unsetSizes

def AllFit : Reading → List ReadCall → Prop
  | _, [] => True
  | reading, call :: later => call.Fits reading ∧ AllFit (call.perform reading) later

def Reading.Inside (reading : Reading) : Prop :=
  ∀ copy ∈ reading.copies, copy.source + copy.len ≤ reading.stream.size

structure Reading.Within (before after : Reading) : Prop where
  inside : after.stream.readPt_ ≤ after.stream.size
  forward : before.stream.readPt_ ≤ after.stream.readPt_
  copied : after.Inside

def AllWithin : Reading → List ReadCall → Prop
  | _, [] => True
  | reading, call :: later =>
      reading.Within (call.perform reading) ∧ AllWithin (call.perform reading) later

structure Reading.Moves (before after : Reading) (fits : Prop) : Prop where
  bytes : after.stream.stream_ = before.stream.stream_
  logged : before.copies ⊆ after.copies
  exactly : after.Inside ↔ fits
  placed : fits → Stream.Placed after.stream ∧ before.stream.readPt_ ≤ after.stream.readPt_

namespace Reading

theorem Moves.refl {reading : Reading} (placed : Stream.Placed reading.stream)
    (inside : reading.Inside) : Moves reading reading True :=
  ⟨rfl, List.Subset.refl _, by simp [inside], fun _ => ⟨placed, Nat.le_refl _⟩⟩

theorem Moves.congr {before after : Reading} {fits other : Prop} (moves : Moves before after fits)
    (same : fits ↔ other) : Moves before after other := by
  rw [propext same] at moves
  exact moves

theorem Moves.trans {before middle after : Reading} {first second : Prop}
    (start : Moves before middle first)
    (bytes : after.stream.stream_ = middle.stream.stream_) (logged : middle.copies ⊆ after.copies)
    (next : first → Moves middle after second) : Moves before after (first ∧ second) where
  bytes := bytes.trans start.bytes
  logged := List.Subset.trans start.logged logged
  exactly := by
    constructor
    · intro inside
      have before_ok : middle.Inside := by
        intro copy member
        have still := inside copy (logged member)
        simpa only [Stream.size, bytes] using still
      have first_ok := start.exactly.mp before_ok
      exact ⟨first_ok, (next first_ok).exactly.mp inside⟩
    · rintro ⟨first_ok, second_ok⟩
      exact (next first_ok).exactly.mpr second_ok
  placed := by
    rintro ⟨first_ok, second_ok⟩
    obtain ⟨_, advanced⟩ := start.placed first_ok
    obtain ⟨placed, further⟩ := (next first_ok).placed second_ok
    exact ⟨placed, advanced.trans further⟩

theorem Moves.within {before after : Reading} {fits : Prop} (moves : Moves before after fits) :
    Within before after ↔ fits := by
  constructor
  · intro within
    exact moves.exactly.mp within.copied
  · intro fits
    obtain ⟨placed, forward⟩ := moves.placed fits
    exact ⟨placed.inside, forward, moves.exactly.mpr fits⟩

@[simp] theorem read_stream (reading : Reading) (len : Nat) :
    (reading.read len).2.stream = (reading.stream.read len).2 := rfl

theorem read_moves {reading : Reading} (placed : Stream.Placed reading.stream)
    (inside : reading.Inside) (len : Nat) :
    Moves reading (reading.read len).2 (reading.stream.readPt_ + len ≤ reading.stream.size) := by
  have small := placed.small
  simp only [SOCKET_BUF_SIZE] at small
  constructor
  · rfl
  · exact List.subset_append_left _ _
  · constructor
    · intro all
      exact all _ (List.mem_append_right _ List.mem_cons_self)
    · intro fits copy member
      rcases List.mem_append.mp member with old | new
      · exact inside copy old
      · rw [List.mem_singleton.mp new]
        exact fits
  · intro fits
    have exact_sum : (reading.stream.readPt_ + len) % sizeRange = reading.stream.readPt_ + len :=
      Nat.mod_eq_of_lt (by simp only [sizeRange]; omega)
    simp only [read_stream, Stream.read, exact_sum]
    exact ⟨⟨fits, placed.small⟩, Nat.le_add_right _ _⟩

theorem check_iff {stream : Stream} (placed : Stream.Placed stream) {len : Nat}
    (narrow : len < 2 ^ 63) :
    stream.checkReadBound len = true ↔ stream.readPt_ + len ≤ stream.size := by
  have small := placed.small
  have inside := placed.inside
  simp only [SOCKET_BUF_SIZE] at small
  have exact_sum : (stream.readPt_ + len) % sizeRange = stream.readPt_ + len :=
    Nat.mod_eq_of_lt (by simp only [sizeRange]; omega)
  simp [Stream.checkReadBound, exact_sum]

theorem get_moves {α : Type} {reading : Reading} (placed : Stream.Placed reading.stream)
    (inside : reading.Inside) {width : Nat} (narrow : width ≤ 8) (ofNat : Nat → α) (retVal : α) :
    Moves reading (reading.get width ofNat retVal).2 True := by
  by_cases room : reading.stream.checkReadBound width = true
  · have fits := (check_iff placed (by omega)).mp room
    simp only [get, room, if_true]
    exact (read_moves placed inside width).congr (by simp [fits])
  · simp only [get, room]
    exact Moves.refl placed inside

theorem lengths (size : Int32) : -2 ^ 31 ≤ size.toInt ∧ size.toInt < 2 ^ 31 :=
  ⟨Int32.le_toInt size, Int32.toInt_lt size⟩

theorem negative_iff (size : Int32) : size < 0 ↔ size.toInt < 0 := by
  rw [Int32.lt_iff_toInt_lt]
  rfl

theorem minus_one_iff (size : Int32) : size = -1 ↔ size.toInt = -1 := by
  rw [← Int32.toInt_inj]
  rfl

theorem unallocated_iff {size : Int32} (notLast : size.toInt < 2 ^ 31 - 1) :
    size + 1 < 0 ↔ size.toInt < -1 := by
  obtain ⟨least, _⟩ := lengths size
  have one : (1 : Int32).toInt = 1 := rfl
  have sum : (size + 1).toInt = size.toInt + 1 := by
    rw [Int32.toInt_add, one]
    exact Int.bmod_eq_of_le (by omega) (by omega)
  rw [negative_iff, sum]
  omega

theorem getBody_counted {α : Type} {reading : Reading} {size : Int32}
    (counted : 0 ≤ size.toInt) (notLast : size.toInt < 2 ^ 31 - 1) {unit : Nat} (unitSize : unit ≤ 2)
    (ofBytes : List UInt8 → α) (retVal : α)
    (room : reading.stream.checkReadBound (toSize size) = true) :
    reading.getBody unit ofBytes size retVal =
      (.ok (ofBytes (reading.read (toSize size * unit)).1),
        (reading.read (toSize size * unit)).2) := by
  have allocated : ¬ size + 1 < 0 := by
    rw [unallocated_iff notLast]
    omega
  have positive : ¬ size < 0 := by
    rw [negative_iff]
    omega
  have whole : toSize size * unit % sizeRange = toSize size * unit := by
    have bytes := Nat.mul_le_mul_left (toSize size) unitSize
    apply Nat.mod_eq_of_lt
    simp only [toSize, sizeRange] at bytes ⊢
    omega
  simp only [getBody, room, if_true, allocated, if_false, whole, positive]

theorem getBody_moves {α : Type} {reading : Reading} (placed : Stream.Placed reading.stream)
    (inside : reading.Inside) {unit : Nat} (unitSize : unit = 1 ∨ unit = 2)
    (ofBytes : List UInt8 → α) (size : Int32) (retVal : α) :
    Moves reading (reading.getBody unit ofBytes size retVal).2
      (reading.stream.BodyFits unit size) := by
  obtain ⟨least, most⟩ := lengths size
  have small := placed.small
  have cursor := placed.inside
  simp only [SOCKET_BUF_SIZE] at small
  by_cases room : reading.stream.checkReadBound (toSize size) = true
  · have passed : (reading.stream.readPt_ + toSize size) % sizeRange ≤ reading.stream.size := by
      simpa [Stream.checkReadBound] using room
    simp only [toSize, sizeRange] at passed
    by_cases thrown : size.toInt < -1
    · have unallocated := (unallocated_iff (by omega)).mpr thrown
      simp only [getBody, room, if_true, unallocated]
      refine (Moves.refl placed inside).congr ⟨fun _ => ?_, fun _ => trivial⟩
      constructor
      · rw [minus_one_iff]
        omega
      · omega
    · by_cases negative : size.toInt < 0
      · have minus_one : size = -1 := (minus_one_iff size).mpr (by omega)
        have wrapped : toSize size = 2 ^ 64 - 1 := by
          rw [minus_one]
          decide
        have allocated : ¬ size + 1 < 0 := by
          rw [unallocated_iff (by omega)]
          exact thrown
        have body : (reading.getBody unit ofBytes size retVal).2 =
            (reading.read (toSize size * unit % sizeRange)).2 := by
          simp only [getBody, room, if_true, allocated, if_false]
          split <;> rfl
        rw [body]
        apply (read_moves placed inside _).congr
        constructor
        · intro fits
          rw [wrapped] at fits
          have huge : 2 ^ 64 - 2 ≤ (2 ^ 64 - 1) * unit % sizeRange := by
            rcases unitSize with rfl | rfl <;> decide
          omega
        · intro fits
          have start := fits.counted minus_one
          omega
      · rw [getBody_counted (by omega) (by omega) (by omega) ofBytes retVal room]
        apply (read_moves placed inside _).congr
        constructor
        · intro fits
          exact ⟨by rw [minus_one_iff]; omega, fun _ _ => fits⟩
        · intro fits
          apply fits.measured (by omega)
          simp only [toSize, sizeRange]
          omega
  · have refused : ¬ (reading.stream.readPt_ + toSize size) % sizeRange ≤ reading.stream.size := by
      simpa [Stream.checkReadBound] using room
    simp only [toSize, sizeRange] at refused
    simp only [getBody, room]
    refine (Moves.refl placed inside).congr ⟨fun _ => ?_, fun _ => trivial⟩
    constructor
    · rw [minus_one_iff]
      intro minus_one
      rw [minus_one] at refused
      omega
    · intro positive fits
      simp only [toSize, sizeRange] at fits
      omega

theorem getBody_kept {α : Type} (reading : Reading) (unit : Nat) (ofBytes : List UInt8 → α)
    (size : Int32) (retVal : α) :
    (reading.getBody unit ofBytes size retVal).2.stream.stream_ = reading.stream.stream_ ∧
    reading.copies ⊆ (reading.getBody unit ofBytes size retVal).2.copies := by
  have readKept (len : Nat) : (reading.read len).2.stream.stream_ = reading.stream.stream_ ∧
      reading.copies ⊆ (reading.read len).2.copies := ⟨rfl, List.subset_append_left _ _⟩
  simp only [getBody]
  split
  · split
    · exact ⟨rfl, List.Subset.refl _⟩
    · split
      · exact readKept _
      · exact readKept _
  · exact ⟨rfl, List.Subset.refl _⟩

theorem string_moves {reading : Reading} (placed : Stream.Placed reading.stream)
    (inside : reading.Inside) {α : Type} {unit : Nat} (unitSize : unit = 1 ∨ unit = 2)
    (ofBytes : List UInt8 → α) (unset : Int32) (retVal : α) :
    Moves reading
      ((reading.get 4 Int32.ofNat unset).2.getBody unit ofBytes
        (reading.get 4 Int32.ofNat unset).1 retVal).2
      (reading.StringFits unit unset) := by
  have length := get_moves placed inside (by decide : 4 ≤ 8) Int32.ofNat unset
  obtain ⟨bytes, logged⟩ := getBody_kept (reading.get 4 Int32.ofNat unset).2 unit ofBytes
    (reading.get 4 Int32.ofNat unset).1 retVal
  have whole := length.trans bytes logged fun _ =>
    getBody_moves (length.placed trivial).1 (length.exactly.mpr trivial) unitSize ofBytes _ retVal
  exact whole.congr (iff_of_eq (true_and _))

theorem getStr_moves {reading : Reading} (placed : Stream.Placed reading.stream)
    (inside : reading.Inside) (unset : Int32) (retVal : Str) :
    Moves reading (reading.getStr unset retVal).2 (reading.StringFits 1 unset) :=
  string_moves placed inside (Or.inl rfl) Stream.cString unset retVal

theorem getWstr_moves {reading : Reading} (placed : Stream.Placed reading.stream)
    (inside : reading.Inside) (unset : Int32) (retVal : WStr) :
    Moves reading (reading.getWstr unset retVal).2 (reading.StringFits WCHAR_SIZE unset) :=
  string_moves placed inside (Or.inr rfl) wideString unset retVal

theorem get_kept {α : Type} (reading : Reading) (width : Nat) (ofNat : Nat → α) (retVal : α) :
    (reading.get width ofNat retVal).2.stream.stream_ = reading.stream.stream_ ∧
    reading.copies ⊆ (reading.get width ofNat retVal).2.copies := by
  simp only [get]
  split
  · exact ⟨rfl, List.subset_append_left _ _⟩
  · exact ⟨rfl, List.Subset.refl _⟩

theorem getWstr_kept (reading : Reading) (unset : Int32) (retVal : WStr) :
    (reading.getWstr unset retVal).2.stream.stream_ = reading.stream.stream_ ∧
    reading.copies ⊆ (reading.getWstr unset retVal).2.copies := by
  obtain ⟨bytes, logged⟩ := get_kept reading 4 Int32.ofNat unset
  obtain ⟨later, further⟩ := getBody_kept (reading.get 4 Int32.ofNat unset).2 WCHAR_SIZE
    wideString (reading.get 4 Int32.ofNat unset).1 retVal
  exact ⟨later.trans bytes, List.Subset.trans logged further⟩

theorem pushWstrs_kept (count : Nat) (unset : Nat → Int32) (reading : Reading)
    (retVal : List WStr) :
    (reading.pushWstrs count unset retVal).2.stream.stream_ = reading.stream.stream_ ∧
    reading.copies ⊆ (reading.pushWstrs count unset retVal).2.copies := by
  induction count generalizing unset reading retVal with
  | zero => exact ⟨rfl, List.Subset.refl _⟩
  | succ count ih =>
      have first := getWstr_kept reading (unset 0) []
      rcases got : reading.getWstr (unset 0) [] with ⟨result, next⟩
      rw [got] at first
      cases result with
      | error reason =>
          simp only [pushWstrs, got, after]
          exact first
      | ok tmp =>
          simp only [pushWstrs, got, after]
          obtain ⟨bytes, logged⟩ := ih (fun string => unset (string + 1)) next (retVal ++ [tmp])
          exact ⟨bytes.trans first.1, List.Subset.trans first.2 logged⟩

theorem pushWstrs_moves (count : Nat) (unset : Nat → Int32) {reading : Reading}
    (placed : Stream.Placed reading.stream) (inside : reading.Inside) (retVal : List WStr) :
    Moves reading (reading.pushWstrs count unset retVal).2 (reading.StringsFit count unset) := by
  induction count generalizing unset reading retVal with
  | zero => exact Moves.refl placed inside
  | succ count ih =>
      have first := getWstr_moves placed inside (unset 0) []
      rcases got : reading.getWstr (unset 0) [] with ⟨result, next⟩
      rw [got] at first
      cases result with
      | error reason =>
          simp only [pushWstrs, got, after]
          exact first.congr (by simp [StringsFit, got])
      | ok tmp =>
          simp only [pushWstrs, got, after]
          obtain ⟨bytes, logged⟩ :=
            pushWstrs_kept count (fun string => unset (string + 1)) next (retVal ++ [tmp])
          have whole := first.trans bytes logged fun fits =>
            ih (fun string => unset (string + 1)) (first.placed fits).1 (first.exactly.mpr fits)
              (retVal ++ [tmp])
          exact whole.congr (by simp [StringsFit, got])

theorem getWstrs_moves {reading : Reading} (placed : Stream.Placed reading.stream)
    (inside : reading.Inside) (unset : UInt64) (unsetSizes : Nat → Int32) (retVal : List WStr) :
    Moves reading (reading.getWstrs unset unsetSizes retVal).2
      ((reading.get 8 UInt64.ofNat unset).2.StringsFit
        (reading.get 8 UInt64.ofNat unset).1.toNat unsetSizes) := by
  have length := get_moves placed inside (by decide : 8 ≤ 8) UInt64.ofNat unset
  obtain ⟨bytes, logged⟩ := pushWstrs_kept (reading.get 8 UInt64.ofNat unset).1.toNat unsetSizes
    (reading.get 8 UInt64.ofNat unset).2 retVal
  have whole := length.trans bytes logged fun _ =>
    pushWstrs_moves _ unsetSizes (length.placed trivial).1 (length.exactly.mpr trivial) retVal
  exact whole.congr (iff_of_eq (true_and _))

end Reading

/-! The reads of the packets' fields are these without the log. -/

namespace Reading

theorem get_stream {α : Type} (reading : Reading) (width : Nat) (ofNat : Nat → α) (retVal : α) :
    reading.stream.get width ofNat retVal =
      ((reading.get width ofNat retVal).1, (reading.get width ofNat retVal).2.stream) := by
  simp only [get, Stream.get]
  split <;> rfl

/-- A string that is read without an exception ends the same way in both, and
a read that the packets' model stops at throws or leaves its array here. -/
theorem getStr_stream {reading : Reading} (placed : Stream.Placed reading.stream)
    (unset : Int32) (retVal : Str) :
    (reading.stream.getStr unset retVal).toOption =
      (reading.getStr unset retVal).1.toOption.map
        fun value => (value, (reading.getStr unset retVal).2.stream) := by
  have same := get_stream reading 4 Int32.ofNat unset
  simp only [Stream.getStr, same, getStr]
  set size := (reading.get 4 Int32.ofNat unset).1
  have behind : Stream.Placed (reading.get 4 Int32.ofNat unset).2.stream := by
    rcases Stream.get_takes placed (by decide : 4 ≤ 8) Int32.ofNat unset with
      kept | ⟨_, _, got, _, takes⟩
    · rw [kept, Prod.mk.injEq] at same
      exact same.2 ▸ placed
    · rw [got, Prod.mk.injEq] at same
      exact same.2 ▸ takes.placed
  by_cases room : (reading.get 4 Int32.ofNat unset).2.stream.checkReadBound (toSize size) = true
  · by_cases negative : size < 0
    · simp only [getBody, room, if_true, negative]
      split <;> rfl
    · have positive : 0 ≤ size.toInt := by
        rw [negative_iff] at negative
        omega
      obtain ⟨_, most⟩ := lengths size
      have counted : toSize size = size.toInt.toNat := by
        simp only [toSize, sizeRange]
        omega
      have inside := (check_iff behind (by omega)).mp room
      have small := behind.small
      simp only [SOCKET_BUF_SIZE] at small
      rw [getBody_counted positive (by omega) (by decide : 1 ≤ 2) Stream.cString retVal room]
      simp only [room, if_true, negative, if_false, Nat.mul_one]
      rfl
  · simp only [getBody, room]
    rfl

end Reading

namespace ReadCall

theorem perform_moves {reading : Reading} (placed : Stream.Placed reading.stream)
    (inside : reading.Inside) (call : ReadCall) :
    reading.Moves (call.perform reading) (call.Fits reading) := by
  cases call with
  | scalar type retVal =>
      have narrow : type.width ≤ 8 := by cases type <;> decide
      exact Reading.get_moves placed inside narrow _ retVal
  | str unset retVal => exact Reading.getStr_moves placed inside unset retVal
  | wstr unset retVal => exact Reading.getWstr_moves placed inside unset retVal
  | wstrs unset unsetSizes retVal =>
      exact Reading.getWstrs_moves placed inside unset unsetSizes retVal

theorem allWithin_iff {reading : Reading} (placed : Stream.Placed reading.stream)
    (inside : reading.Inside) (calls : List ReadCall) :
    AllWithin reading calls ↔ AllFit reading calls := by
  induction calls generalizing reading with
  | nil => exact Iff.rfl
  | cons call later ih =>
      have moves := perform_moves placed inside call
      simp only [AllWithin, AllFit, moves.within]
      apply and_congr_right
      intro fits
      exact ih (moves.placed fits).1 (moves.exactly.mpr fits)

end ReadCall

def received (data : List UInt8) : Exec Reading := do
  return { stream := ← Stream.set data, copies := [] }

theorem received_placed {data : List UInt8} {reading : Reading}
    (set : received data = .ok reading) : Stream.Placed reading.stream ∧ reading.Inside := by
  by_cases long : SOCKET_BUF_SIZE < data.length
  · simp [received, Stream.set, long, bind, Except.bind] at set
  · simp only [received, Stream.set, long, if_false, bind, Except.bind, pure, Except.pure,
      Except.ok.injEq] at set
    subst set
    exact ⟨⟨Nat.zero_le _, Nat.le_of_not_lt long⟩, by simp [Reading.Inside]⟩

theorem received_fits {data : List UInt8} (fits : data.length ≤ SOCKET_BUF_SIZE) :
    ∃ reading, received data = .ok reading := by
  simp [received, Stream.set, Nat.not_lt.mpr fits, bind, Except.bind, pure, Except.pure]

/-- Each call keeps the cursor and its copies inside the received bytes exactly
where no string that it reads has a length of -1 or too many wide characters. -/
theorem reads_inside_iff (data : List UInt8) (fits : data.length ≤ SOCKET_BUF_SIZE)
    (calls : List ReadCall) :
    ∃ reading, received data = .ok reading ∧ (AllWithin reading calls ↔ AllFit reading calls) := by
  obtain ⟨reading, set⟩ := received_fits fits
  obtain ⟨placed, inside⟩ := received_placed set
  exact ⟨reading, set, ReadCall.allWithin_iff placed inside calls⟩

theorem reads_inside_iff_holds : ∃ reading, received [2, 0, 0, 0, 104, 105] = .ok reading ∧
    (AllWithin reading [.str 0 [], .scalar .INT32 7] ↔
      AllFit reading [.str 0 [], .scalar .INT32 7]) :=
  reads_inside_iff [2, 0, 0, 0, 104, 105] (by decide) [.str 0 [], .scalar .INT32 7]

/-- A string of length -1, and a wide one of one character with one byte. -/
theorem reads_inside_fails :
    (∃ reading, received [255, 255, 255, 255] = .ok reading ∧ ¬ AllWithin reading [.str 0 []]) ∧
    ∃ reading, received [1, 0, 0, 0, 65] = .ok reading ∧ ¬ AllWithin reading [.wstr 0 []] := by
  constructor
  · refine ⟨_, rfl, ?_⟩
    intro within
    obtain ⟨⟨fits, _⟩, _⟩ :=
      (ReadCall.allWithin_iff ⟨by decide, by decide⟩ (by simp [Reading.Inside]) _).mp within
    exact absurd (fits (by decide)) (by decide)
  · refine ⟨_, rfl, ?_⟩
    intro within
    obtain ⟨⟨_, fits⟩, _⟩ :=
      (ReadCall.allWithin_iff ⟨by decide, by decide⟩ (by simp [Reading.Inside]) _).mp within
    exact absurd (fits (by decide) (by decide)) (by decide)

end GraduationServer
