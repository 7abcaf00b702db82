import Mathlib.Data.Multiset.AddSub
import Mathlib.Tactic.Linarith

/-!
A resource that counts its users. A user that leaves compares the count and then
either takes itself off it or, as the last one, deletes the resource; between the
comparison and the act others may enter and leave.
-/

namespace LastUser

inductive Stage where
  | using
  | decreasing
  | deleting
  deriving DecidableEq

/-- `count` is absent where the resource does not live, and `given` tells
whether it has had a user since it was made. -/
structure Resource where
  count : Option Nat
  users : Multiset Stage
  given : Bool

namespace Resource

def make (resource : Resource) : Resource := { resource with count := some 0, given := false }

def enter (resource : Resource) (count : Nat) : Resource :=
  { count := some (count + 1), users := .using ::ₘ resource.users, given := true }

def verdict (count : Nat) : Stage := if 1 < count then .decreasing else .deleting

def compare (resource : Resource) (count : Nat) : Resource :=
  { resource with users := verdict count ::ₘ resource.users.erase .using }

def decrease (resource : Resource) (count : Nat) : Resource :=
  { resource with count := some (count - 1), users := resource.users.erase .decreasing }

def delete (resource : Resource) : Resource :=
  { resource with count := none, users := resource.users.erase .deleting }

/-- What has users lives; who deletes it is the only user; and once it has been
given to a user, one of its users does not leave it to the others. -/
structure Managed (resource : Resource) : Prop where
  unused : resource.count = none → resource.users = 0
  counted : ∀ count, resource.count = some count → count = resource.users.card
  sole : .deleting ∈ resource.users → resource.users.card = 1
  entered : ∀ stage ∈ resource.users, resource.given = true
  kept : resource.given = true → ∀ count, resource.count = some count →
    ∃ stage ∈ resource.users, stage ≠ .decreasing

variable {resource : Resource} {count : Nat}

theorem make_managed (managed : resource.Managed) (free : resource.count = none) :
    resource.make.Managed := by
  have nobody := managed.unused free
  constructor
  · intro lives
    cases lives
  · intro count same
    cases same
    simp [make, nobody]
  · intro deleting
    simp [make, nobody] at deleting
  · intro stage member
    simp [make, nobody] at member
  · intro given
    cases given

theorem enter_managed (managed : resource.Managed) (lives : resource.count = some count) :
    (resource.enter count).Managed ↔ .deleting ∉ resource.users := by
  constructor
  · intro after deleting
    have one := after.sole (Multiset.mem_cons_of_mem deleting)
    have before := managed.sole deleting
    simp only [enter, Multiset.card_cons] at one
    omega
  · intro nobody
    constructor
    · intro lives
      cases lives
    · intro counted same
      cases same
      simp [enter, ← managed.counted count lives]
    · intro deleting
      rcases Multiset.mem_cons.mp deleting with impossible | before
      · cases impossible
      · exact absurd before nobody
    · intro _ _
      rfl
    · intro _ _ _
      exact ⟨.using, Multiset.mem_cons_self _ _, by simp⟩

/-- Whoever finds other users must leave the resource to one that stays. -/
theorem compare_managed (managed : resource.Managed) (lives : resource.count = some count)
    (user : .using ∈ resource.users) : (resource.compare count).Managed ↔
      (1 < count → ∃ stage ∈ resource.users.erase .using, stage ≠ .decreasing) := by
  have number : count = resource.users.card := managed.counted count lives
  have others : (resource.users.erase .using).card + 1 = resource.users.card :=
    Multiset.card_erase_add_one user
  have given : resource.given = true := managed.entered _ user
  constructor
  · intro after more
    obtain ⟨stage, member, stays⟩ := after.kept given count lives
    rcases Multiset.mem_cons.mp member with rfl | other
    · simp [verdict, more] at stays
    · exact ⟨stage, other, stays⟩
  · intro other
    constructor
    · intro gone
      rw [compare, lives] at gone
      cases gone
    · intro counted same
      have before := managed.counted counted same
      simp only [compare, Multiset.card_cons]
      omega
    · intro deleting
      simp only [compare, Multiset.card_cons]
      rcases Multiset.mem_cons.mp deleting with last | before
      · have few : ¬ 1 < count := by
          intro more
          simp [verdict, more] at last
        omega
      · have alone := managed.sole (Multiset.mem_of_mem_erase before)
        omega
    · intro _ _
      exact given
    · intro _ _ _
      by_cases more : 1 < count
      · obtain ⟨stage, member, stays⟩ := other more
        exact ⟨stage, Multiset.mem_cons_of_mem member, stays⟩
      · exact ⟨verdict count, Multiset.mem_cons_self _ _, by simp [verdict, more]⟩

theorem decrease_managed (managed : resource.Managed) (lives : resource.count = some count)
    (user : .decreasing ∈ resource.users) : (resource.decrease count).Managed := by
  have number : count = resource.users.card := managed.counted count lives
  have others : (resource.users.erase .decreasing).card + 1 = resource.users.card :=
    Multiset.card_erase_add_one user
  have given : resource.given = true := managed.entered _ user
  constructor
  · intro gone
    cases gone
  · intro counted same
    cases same
    simp only [decrease]
    omega
  · intro deleting
    have alone := managed.sole (Multiset.mem_of_mem_erase deleting)
    have some_other : 0 < (resource.users.erase .decreasing).card :=
      Multiset.card_pos_iff_exists_mem.mpr ⟨_, deleting⟩
    omega
  · intro _ _
    exact given
  · intro _ _ _
    obtain ⟨stage, member, stays⟩ := managed.kept given count lives
    exact ⟨stage, (Multiset.mem_erase_of_ne stays).mpr member, stays⟩

theorem delete_managed (managed : resource.Managed) (user : .deleting ∈ resource.users) :
    resource.delete.Managed := by
  have alone := managed.sole user
  have others := Multiset.card_erase_add_one user
  have nobody : resource.users.erase .deleting = 0 := by
    rw [← Multiset.card_eq_zero]
    omega
  constructor
  · intro
    exact nobody
  · intro count same
    cases same
  · intro deleting
    simp [delete, nobody] at deleting
  · intro stage member
    simp [delete, nobody] at member
  · intro _ count same
    cases same

end Resource

end LastUser
