import GraduationServer.Library.LittleEndian
import Mathlib.Data.List.Nodup
import Mathlib.Data.List.Perm.Subperm
import Mathlib.Data.List.Range
import Mathlib.Data.List.TakeWhile

/-!
The number of bytes of a list that are not zero. Reading from zero-filled
memory never adds one, and distinct positions that hold one bound it from below.
-/

namespace NonZero

def count (bytes : List UInt8) : Nat := bytes.countP (· ≠ 0)

@[simp] theorem count_nil : count [] = 0 := rfl

@[simp] theorem count_append (first second : List UInt8) :
    count (first ++ second) = count first + count second := by
  simp [count]

theorem count_le_length (bytes : List UInt8) : count bytes ≤ bytes.length := List.countP_le_length

theorem count_take_add_drop (size : Nat) (bytes : List UInt8) :
    count (bytes.take size) + count (bytes.drop size) = count bytes := by
  rw [← count_append, List.take_append_drop]

theorem count_take_le (size : Nat) (bytes : List UInt8) : count (bytes.take size) ≤ count bytes := by
  have split := count_take_add_drop size bytes
  omega

theorem count_replicate (size : Nat) : count (List.replicate size 0) = 0 := by
  simp [count, List.countP_replicate]

theorem count_read_le (bytes : List UInt8) (offset size : Nat) :
    count (ZeroFilled.read bytes offset size) ≤ count (bytes.drop offset) := by
  have less := count_take_le size (bytes.drop offset ++ List.replicate size 0)
  rwa [count_append, count_replicate, Nat.add_zero] at less

theorem takeWhile_length_le (bytes : List UInt8) :
    (bytes.takeWhile (· ≠ 0)).length ≤ count bytes := by
  have all : count (bytes.takeWhile (· ≠ 0)) = (bytes.takeWhile (· ≠ 0)).length := by
    rw [count, List.countP_eq_length]
    intro byte member
    have nonzero := List.mem_takeWhile_imp member
    simpa using nonzero
  have split : bytes = bytes.takeWhile (· ≠ 0) ++ bytes.dropWhile (· ≠ 0) :=
    List.takeWhile_append_dropWhile.symm
  have total := congrArg count split
  rw [count_append] at total
  omega

theorem count_pos_of_decode {bytes : List UInt8} (some_value : LittleEndian.decode bytes ≠ 0) :
    0 < count bytes := by
  rw [count, List.countP_pos_iff]
  by_contra none_there
  apply some_value
  clear some_value
  induction bytes with
  | nil => rfl
  | cons byte rest ih =>
      have zero : byte = 0 := by
        by_contra other
        exact none_there ⟨byte, List.mem_cons_self, by simpa using other⟩
      rw [LittleEndian.decode, ih, zero]
      · rfl
      · rintro ⟨other, member, nonzero⟩
        exact none_there ⟨other, List.mem_cons_of_mem _ member, nonzero⟩

theorem length_le_count {bytes : List UInt8} (positions : List Nat) (distinct : positions.Nodup)
    (held : ∀ position ∈ positions, bytes.getD position 0 ≠ 0) :
    positions.length ≤ count bytes := by
  have listed : bytes = (List.range bytes.length).map fun position => bytes.getD position 0 := by
    apply List.ext_getElem
    · simp
    · intro position inside _
      simp [inside]
  have counted : count bytes =
      ((List.range bytes.length).filter fun position => bytes.getD position 0 ≠ 0).length := by
    conv_lhs => rw [listed]
    rw [count, List.countP_map, List.countP_eq_length_filter]
    rfl
  rw [counted]
  apply List.Subperm.length_le
  apply distinct.subperm
  intro position member
  have nonzero := held position member
  rw [List.mem_filter, List.mem_range]
  constructor
  · by_contra outside
    exact nonzero (by simp [Nat.le_of_not_lt outside])
  · simpa using nonzero

theorem two_le_count {bytes : List UInt8} {first second : Nat} (distinct : first ≠ second)
    (firstHeld : bytes.getD first 0 ≠ 0) (secondHeld : bytes.getD second 0 ≠ 0) :
    2 ≤ count bytes := by
  apply length_le_count [first, second]
  · simpa using distinct
  · simpa using ⟨firstHeld, secondHeld⟩

theorem three_le_count {bytes : List UInt8} {first second third : Nat} (before : first ≠ second)
    (behind : third ≠ first ∧ third ≠ second) (firstHeld : bytes.getD first 0 ≠ 0)
    (secondHeld : bytes.getD second 0 ≠ 0) (thirdHeld : bytes.getD third 0 ≠ 0) :
    3 ≤ count bytes := by
  apply length_le_count [third, first, second]
  · simpa using ⟨behind, before⟩
  · simpa using ⟨thirdHeld, firstHeld, secondHeld⟩

end NonZero
