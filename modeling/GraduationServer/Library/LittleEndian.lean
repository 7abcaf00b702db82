import Mathlib.Algebra.Order.Monoid.Unbundled.Pow
import Mathlib.Tactic.Ring

/-!
Little-endian encodings of natural numbers in a fixed number of bytes, and
zero-filled byte arrays given by the list of the bytes written so far.
-/

namespace LittleEndian

def encode : Nat → Nat → List UInt8
  | 0, _ => []
  | width + 1, value => UInt8.ofNat value :: encode width (value / 256)

def decode : List UInt8 → Nat
  | [] => 0
  | byte :: rest => byte.toNat + 256 * decode rest

@[simp] theorem encode_length (width value : Nat) : (encode width value).length = width := by
  induction width generalizing value with
  | zero => rfl
  | succ width ih => simp [encode, ih]

@[simp] theorem decode_encode (width value : Nat) :
    decode (encode width value) = value % 256 ^ width := by
  induction width generalizing value with
  | zero => simp [encode, decode, Nat.mod_one]
  | succ width ih =>
      have digit : (UInt8.ofNat value).toNat = value % 256 := by simp [UInt8.toNat_ofNat']
      simp only [encode, decode, ih, digit]
      rw [Nat.pow_succ', Nat.mod_mul]

theorem decode_encode_of_lt {width value : Nat} (bound : value < 256 ^ width) :
    decode (encode width value) = value := by
  rw [decode_encode, Nat.mod_eq_of_lt bound]

theorem decode_lt (bytes : List UInt8) : decode bytes < 256 ^ bytes.length := by
  induction bytes with
  | nil => decide
  | cons byte rest ih =>
      have digit : byte.toNat < 256 := byte.toNat_lt
      rw [decode, List.length_cons, Nat.pow_succ]
      omega

theorem encode_decode (bytes : List UInt8) : encode bytes.length (decode bytes) = bytes := by
  induction bytes with
  | nil => rfl
  | cons byte rest ih =>
      have digit : byte.toNat < 256 := byte.toNat_lt
      have low : UInt8.ofNat (byte.toNat + 256 * decode rest) = byte := by
        apply UInt8.toNat_inj.mp
        rw [UInt8.toNat_ofNat']
        omega
      have high : (byte.toNat + 256 * decode rest) / 256 = decode rest := by omega
      rw [List.length_cons, encode, decode, low, high, ih]

theorem decode_pos {bytes : List UInt8} {byte : UInt8} (member : byte ∈ bytes)
    (nonzero : byte ≠ 0) : 0 < decode bytes := by
  induction bytes with
  | nil => contradiction
  | cons first rest ih =>
      rw [decode]
      rcases List.mem_cons.mp member with rfl | later
      · have positive : byte.toNat ≠ 0 := fun zero => nonzero (UInt8.toNat_inj.mp zero)
        omega
      · have positive := ih later
        omega

end LittleEndian

/-! An array of bytes that starts out all zero is the list of its first bytes;
what lies behind the list is still zero. -/

namespace ZeroFilled

def read (bytes : List UInt8) (offset count : Nat) : List UInt8 :=
  (bytes.drop offset ++ List.replicate count 0).take count

def write (bytes : List UInt8) (offset : Nat) (source : List UInt8) : List UInt8 :=
  read bytes 0 offset ++ source ++ bytes.drop (offset + source.length)

theorem read_inside {bytes : List UInt8} {offset count : Nat}
    (inside : offset + count ≤ bytes.length) :
    read bytes offset count = (bytes.drop offset).take count := by
  rw [read, List.take_append_of_le_length]
  simp only [List.length_drop]
  omega

theorem read_middle (before bytes after : List UInt8) :
    read (before ++ bytes ++ after) before.length bytes.length = bytes := by
  rw [read_inside (by simp)]
  simp

theorem read_start (bytes after : List UInt8) : read (bytes ++ after) 0 bytes.length = bytes := by
  simpa using read_middle [] bytes after

@[simp] theorem read_all (bytes : List UInt8) : read bytes 0 bytes.length = bytes := by
  simpa using read_start bytes []

theorem read_behind (bytes more : List UInt8) (count : Nat) :
    read (bytes ++ more) bytes.length count = read more 0 count := by
  rw [read, List.drop_left, read, List.drop_zero]

theorem read_longer (bytes more : List UInt8) (count : Nat) :
    read (bytes ++ more) 0 (bytes.length + count) = bytes ++ read more 0 count := by
  rw [read, List.drop_zero, List.append_assoc, List.take_length_add_append, read, List.drop_zero,
    List.take_append, List.take_append, List.take_replicate, List.take_replicate]
  congr 3
  omega

@[simp] theorem write_end (bytes source : List UInt8) :
    write bytes bytes.length source = bytes ++ source := by
  simp [write]

@[simp] theorem write_nil_zero (source : List UInt8) : write [] 0 source = source := by
  simp [write, read]

end ZeroFilled
