import GraduationServer.FieldReads
import GraduationServer.ReceivePath

/-!
The turns of the loop of `onRecv` on any bytes. Each copies what a length field
announces into the 200 bytes of `packetData`, whatever the field holds.
-/

namespace GraduationServer

namespace IOCPSession

def PACKET_DATA_SIZE : Nat := 200

def MAIN_BUFFER_SIZE : Nat := 1024 * 1000

def packetDataSize (packet_len : Nat) : Int32 := Int32.ofInt ((packet_len : Int) - 4)

/-- A turn with the `memcpy` into `packetData` that it comes to, and the
`main_buffer_offset` behind it, where the turn does not leave the loop. -/
structure Turn where
  main_buffer_offset : Nat
  copied : Option Int32
  after : Option Nat
  deriving DecidableEq

def turns (unset : Nat → Nat → Int32) (offset : Nat) : Nat → List UInt8 → List Turn
  | 0, _ => []
  | fuel + 1, main_buffer_ =>
      let main_buffer_offset := main_buffer_.length
      if main_buffer_offset < 8 then [{ main_buffer_offset, copied := none, after := none }]
      else
        let packet_len := LittleEndian.decode (main_buffer_.take 4)
        if main_buffer_offset < packet_len then
          [{ main_buffer_offset, copied := none, after := none }]
        else
          let copied := some (packetDataSize packet_len)
          match takePacket (unset fuel) (main_buffer_.drop offset) packet_len with
          | .error _ => [{ main_buffer_offset, copied, after := none }]
          | .ok _ =>
              { main_buffer_offset, copied, after := some (main_buffer_offset - packet_len) } ::
                turns unset offset fuel (main_buffer_.drop packet_len)

/-- The copy starts at `offset` and ends among the bytes that the loop holds
and in `packetData`, and a turn that goes on leaves fewer bytes. -/
structure Turn.Safe (offset : Nat) (turn : Turn) : Prop where
  positive : ∀ size ∈ turn.copied, 0 ≤ size.toInt
  bounded : ∀ size ∈ turn.copied, size.toInt ≤ PACKET_DATA_SIZE
  inside : ∀ size ∈ turn.copied, offset + size.toInt ≤ turn.main_buffer_offset
  shrinks : ∀ main_buffer_offset ∈ turn.after, main_buffer_offset < turn.main_buffer_offset

structure ExtractionSafe (unset : Nat → Nat → Int32) (offset : Nat) (main_buffer_ : List UInt8)
    (packageStorage : List Packet) : Prop where
  ends : extract unset offset (main_buffer_.length + 1) main_buffer_ packageStorage ≠
    .error .endlessLoop
  safe : ∀ turn ∈ turns unset offset (main_buffer_.length + 1) main_buffer_, turn.Safe offset

/-- Every length field that the loop comes to counts at least itself and at
most 200 bytes more, or more bytes than there are. -/
def LengthsInRange (unset : Nat → Nat → Int32) (offset : Nat) : Nat → List UInt8 → Prop
  | 0, _ => True
  | fuel + 1, main_buffer_ =>
      let packet_len := LittleEndian.decode (main_buffer_.take 4)
      8 ≤ main_buffer_.length → packet_len ≤ main_buffer_.length →
        4 ≤ packet_len ∧ packet_len ≤ 4 + PACKET_DATA_SIZE ∧
        ∀ packet, takePacket (unset fuel) (main_buffer_.drop offset) packet_len = .ok packet →
          LengthsInRange unset offset fuel (main_buffer_.drop packet_len)

theorem takePacket_range {unset : Nat → Int32} {source : List UInt8} {packet_len : Nat}
    {packet : Packet} (taken : takePacket unset source packet_len = .ok packet) :
    4 ≤ packet_len ∧ packet_len ≤ 4 + PACKET_DATA_SIZE := by
  by_contra outside
  by_cases negative : packet_len < 4
  · simp [takePacket, negative] at taken
  · have long : 200 < packet_len - 4 := by
      simp only [PACKET_DATA_SIZE] at outside
      omega
    simp [takePacket, negative, long] at taken

theorem takePacket_ends (unset : Nat → Int32) (source : List UInt8) (packet_len : Nat) :
    takePacket unset source packet_len ≠ .error .endlessLoop := by
  intro endless
  rw [takePacket] at endless
  split at endless
  · cases endless
  · split at endless
    · cases endless
    · rcases Exec.bind_error endless with stopped | ⟨result, _, rest⟩
      · rcases analyzer_fault stopped with reason | reason <;> cases reason
      · cases result <;> cases rest

theorem extract_ends (unset : Nat → Nat → Int32) (offset : Nat) {fuel : Nat}
    {main_buffer_ : List UInt8} (packageStorage : List Packet)
    (enough : main_buffer_.length < fuel) :
    extract unset offset fuel main_buffer_ packageStorage ≠ .error .endlessLoop := by
  induction fuel generalizing main_buffer_ packageStorage with
  | zero => omega
  | succ fuel ih =>
      intro endless
      rw [extract] at endless
      split at endless
      · cases endless
      · rename_i header
        simp only at endless
        split at endless
        · cases endless
        · rcases Exec.bind_error endless with stopped | ⟨packet, taken, rest⟩
          · exact takePacket_ends _ _ _ stopped
          · obtain ⟨positive, _⟩ := takePacket_range taken
            apply ih _ _ rest
            rw [List.length_drop]
            omega

theorem packetDataSize_value {packet_len : Nat} (bound : packet_len < 2 ^ 31) :
    (packetDataSize packet_len).toInt = (packet_len : Int) - 4 := by
  rw [packetDataSize, Int32.toInt_ofInt]
  exact Int.bmod_eq_of_le (by simp only [Int32.size]; omega) (by simp only [Int32.size]; omega)

theorem copy_safe_iff (after : Option Nat) {offset packet_len main_buffer_offset : Nat}
    (header : offset ≤ 4) (held : packet_len ≤ main_buffer_offset) (bound : packet_len < 2 ^ 31)
    (shrinks : 4 ≤ packet_len → ∀ next ∈ after, next < main_buffer_offset) :
    Turn.Safe offset { main_buffer_offset, copied := some (packetDataSize packet_len), after } ↔
      4 ≤ packet_len ∧ packet_len ≤ 4 + PACKET_DATA_SIZE := by
  have size := packetDataSize_value bound
  constructor
  · intro safe
    have positive := safe.positive _ rfl
    have bounded := safe.bounded _ rfl
    rw [size] at positive bounded
    omega
  · rintro ⟨counted, short⟩
    constructor
    · rintro _ ⟨⟩
      rw [size]
      omega
    · rintro _ ⟨⟩
      rw [size]
      omega
    · rintro _ ⟨⟩
      rw [size]
      show (offset : Int) + _ ≤ (main_buffer_offset : Int)
      omega
    · exact shrinks counted

theorem turns_safe_iff (unset : Nat → Nat → Int32) {offset : Nat} (header : offset ≤ 4)
    (fuel : Nat) (main_buffer_ : List UInt8) (small : main_buffer_.length < 2 ^ 31) :
    (∀ turn ∈ turns unset offset fuel main_buffer_, turn.Safe offset) ↔
      LengthsInRange unset offset fuel main_buffer_ := by
  induction fuel generalizing main_buffer_ with
  | zero => simp [turns, LengthsInRange]
  | succ fuel ih =>
      have leaving : Turn.Safe offset
          { main_buffer_offset := main_buffer_.length, copied := none, after := none } := by
        constructor <;> simp
      rw [turns, LengthsInRange]
      by_cases short : main_buffer_.length < 8
      · simp [short, leaving]
      · by_cases more : main_buffer_.length < LittleEndian.decode (main_buffer_.take 4)
        · simp [short, more, leaving]
        · generalize LittleEndian.decode (main_buffer_.take 4) = packet_len at more ⊢
          have held := Nat.le_of_not_lt more
          have large := Nat.le_of_not_lt short
          simp only [short, more, if_false, large, held, forall_const]
          cases taken : takePacket (unset fuel) (main_buffer_.drop offset) packet_len with
          | error reason =>
              have copy := copy_safe_iff none header held (by omega) (by simp)
              simp [copy]
          | ok packet =>
              have range := takePacket_range taken
              have copy := copy_safe_iff (some (main_buffer_.length - packet_len)) header held
                (by omega) (by
                  rintro counted _ ⟨⟩
                  omega)
              have later := ih (main_buffer_.drop packet_len) (by
                rw [List.length_drop]
                omega)
              simp [copy, later, range]

theorem turns_describe {unset : Nat → Nat → Int32} {offset fuel : Nat}
    {main_buffer_ rest : List UInt8} {packageStorage after : List Packet}
    (ends : extract unset offset fuel main_buffer_ packageStorage = .ok (rest, after)) :
    (turns unset offset fuel main_buffer_).getLast? =
      some { main_buffer_offset := rest.length, copied := none, after := none } ∧
    packageStorage.length + (turns unset offset fuel main_buffer_).length = after.length + 1 := by
  induction fuel generalizing main_buffer_ packageStorage with
  | zero => cases ends
  | succ fuel ih =>
      rw [extract] at ends
      rw [turns]
      by_cases short : main_buffer_.length < 8
      · simp only [short, if_true, Except.ok.injEq, Prod.mk.injEq] at ends ⊢
        obtain ⟨rfl, rfl⟩ := ends
        exact ⟨rfl, rfl⟩
      · by_cases more : main_buffer_.length < LittleEndian.decode (main_buffer_.take 4)
        · simp only [short, more, if_true, if_false, Except.ok.injEq, Prod.mk.injEq] at ends ⊢
          obtain ⟨rfl, rfl⟩ := ends
          exact ⟨rfl, rfl⟩
        · simp only [short, more, if_false] at ends ⊢
          obtain ⟨packet, taken, later⟩ := Exec.bind_ok ends
          obtain ⟨last, count⟩ := ih later
          simp only [taken, List.getLast?_cons, last, Option.getD_some, true_and]
          simp only [List.length_append, List.length_cons, List.length_nil] at count ⊢
          omega

/-- The loop is safe on exactly the bytes whose length fields are in range. -/
theorem extraction_safe_iff (unset : Nat → Nat → Int32) (data : IoData) (main_buffer_ : List UInt8)
    (small : main_buffer_.length ≤ MAIN_BUFFER_SIZE) (packageStorage : List Packet) :
    ExtractionSafe unset data.setupTotalBytes.1 main_buffer_ packageStorage ↔
      LengthsInRange unset data.setupTotalBytes.1 (main_buffer_.length + 1) main_buffer_ := by
  have header : data.setupTotalBytes.1 ≤ 4 := by
    rw [setupTotalBytes_eq]
    split <;> simp
  have safe := turns_safe_iff unset header (main_buffer_.length + 1) main_buffer_ (by
    simp only [MAIN_BUFFER_SIZE] at small
    omega)
  constructor
  · intro extraction
    exact safe.mp extraction.safe
  · intro inRange
    exact ⟨extract_ends unset _ packageStorage (Nat.lt_succ_self _), safe.mpr inRange⟩

theorem extraction_safe_iff_exit :
    ExtractionSafe (fun _ _ => 0) IoData.clear.setupTotalBytes.1 (Packet.frame .PK_C_REQ_EXIT) [] ↔
      LengthsInRange (fun _ _ => 0) IoData.clear.setupTotalBytes.1
        ((Packet.frame .PK_C_REQ_EXIT).length + 1) (Packet.frame .PK_C_REQ_EXIT) :=
  extraction_safe_iff (fun _ _ => 0) IoData.clear (Packet.frame .PK_C_REQ_EXIT) (by decide) []

/-- A frame of 205 bytes, and a length field of zero. -/
theorem extraction_unsafe :
    ¬ ExtractionSafe (fun _ _ => 0) IoData.clear.setupTotalBytes.1
      (LittleEndian.encode 4 205 ++ List.replicate 201 0) [] ∧
    ¬ ExtractionSafe (fun _ _ => 0) IoData.clear.setupTotalBytes.1 (List.replicate 8 0) [] := by
  constructor
  · intro extraction
    generalize received : LittleEndian.encode 4 205 ++ List.replicate 201 (0 : UInt8) = main_buffer_
      at extraction
    have length : main_buffer_.length = 205 := by
      rw [← received, List.length_append, LittleEndian.encode_length, List.length_replicate]
    have announced : LittleEndian.decode (main_buffer_.take 4) = 205 := by
      rw [← received, List.take_left' (LittleEndian.encode_length 4 205),
        LittleEndian.decode_encode_of_lt (by decide)]
    have inRange := (turns_safe_iff _ (by decide) _ _ (by omega)).mp extraction.safe
    rw [LengthsInRange, announced, length] at inRange
    exact absurd (inRange (by decide) (by decide)).2.1 (by decide)
  · intro extraction
    have first := extraction.safe { main_buffer_offset := 8, copied := some (-4), after := none }
      (by decide)
    exact absurd (first.positive _ rfl) (by decide)

end IOCPSession

end GraduationServer
