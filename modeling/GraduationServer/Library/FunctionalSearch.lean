import Mathlib.Data.Fintype.Pigeonhole
import Mathlib.Data.Set.Finite.Basic
import Mathlib.Logic.Relation

/-!
A search that has at most one way on from each place. It stops where it finds
its goal or where the way ends, and among finitely many places it does so unless
the way runs into a circle without the goal.
-/

namespace FunctionalSearch

open Relation (ReflTransGen TransGen)

section

variable {Place Goal : Type} (next : Place → Option Place) (goal : Place → Option Goal)

/-- `none` where the turns are used up. -/
def search : Nat → Place → Option (Option Goal)
  | 0, _ => none
  | turns + 1, place =>
      match goal place with
      | some found => some (some found)
      | none =>
          match next place with
          | none => some none
          | some other => search turns other

def Leads (place other : Place) : Prop := next place = some other

def Circles (start : Place) : Prop :=
  ∃ place, ReflTransGen (Leads next) start place ∧ TransGen (Leads next) place place

def Found (start : Place) : Prop :=
  ∃ place, ReflTransGen (Leads next) start place ∧ (goal place).isSome

def Endless (start : Place) : Prop := ∀ turns result, search next goal turns start ≠ some result

end

variable {Place Goal : Type} {next : Place → Option Place} {goal : Place → Option Goal}
variable {start other : Place}

theorem found_next (nothing : goal start = none) (leads : next start = some other) :
    Found next goal start ↔ Found next goal other := by
  constructor
  · rintro ⟨place, reached, there⟩
    rcases ReflTransGen.cases_head reached with rfl | ⟨middle, first, rest⟩
    · simp [nothing] at there
    · obtain rfl : other = middle := Option.some.inj (leads.symm.trans first)
      exact ⟨place, rest, there⟩
  · rintro ⟨place, reached, there⟩
    exact ⟨place, ReflTransGen.head leads reached, there⟩

theorem circles_next (circles : Circles next start) :
    ∃ other, next start = some other ∧ Circles next other := by
  obtain ⟨place, reached, circle⟩ := circles
  rcases ReflTransGen.cases_head reached with rfl | ⟨other, first, rest⟩
  · obtain ⟨other, first, back⟩ := TransGen.head'_iff.mp circle
    exact ⟨other, first, start, back, circle⟩
  · exact ⟨other, first, place, rest, circle⟩

theorem endless_next (endless : Endless next goal start) :
    goal start = none ∧ ∃ other, next start = some other ∧ Endless next goal other := by
  have nothing : goal start = none := by
    cases there : goal start with
    | none => rfl
    | some found => exact absurd (by simp [search, there]) (endless 1 (some found))
  refine ⟨nothing, ?_⟩
  cases leads : next start with
  | none => exact absurd (by simp [search, nothing, leads]) (endless 1 none)
  | some other =>
      refine ⟨other, rfl, ?_⟩
      intro turns result ends
      exact endless (turns + 1) result (by simp [search, nothing, leads, ends])

theorem search_exact {turns : Nat} {result : Option Goal}
    (ends : search next goal turns start = some result) :
    result.isSome ↔ Found next goal start := by
  induction turns generalizing start with
  | zero => simp [search] at ends
  | succ turns ih =>
      rw [search] at ends
      cases there : goal start with
      | some found =>
          simp only [there, Option.some.injEq] at ends
          subst ends
          exact iff_of_true rfl ⟨start, ReflTransGen.refl, by simp [there]⟩
      | none =>
          simp only [there] at ends
          cases leads : next start with
          | some other =>
              simp only [leads] at ends
              exact (ih ends).trans (found_next there leads).symm
          | none =>
              simp only [leads, Option.some.injEq] at ends
              subst ends
              refine iff_of_false (by simp) ?_
              rintro ⟨place, reached, found⟩
              rcases ReflTransGen.cases_head reached with rfl | ⟨other, first, -⟩
              · simp [there] at found
              · simp [Leads, leads] at first

theorem endless_reached (endless : Endless next goal start)
    (reached : ReflTransGen (Leads next) start other) : Endless next goal other := by
  induction reached with
  | refl => exact endless
  | tail _ leads ih =>
      obtain ⟨-, following, same, later⟩ := endless_next ih
      exact Option.some.inj (same.symm.trans leads) ▸ later

theorem endless_of_circles (circles : Circles next start) (missed : ¬ Found next goal start) :
    Endless next goal start := by
  intro turns
  induction turns generalizing start with
  | zero =>
      intro result
      simp [search]
  | succ turns ih =>
      intro result ends
      obtain ⟨other, leads, further⟩ := circles_next circles
      have nothing : goal start = none := by
        cases there : goal start with
        | none => rfl
        | some found => exact absurd ⟨start, ReflTransGen.refl, by simp [there]⟩ missed
      simp only [search, nothing, leads] at ends
      exact ih further (fun found => missed ((found_next nothing leads).mpr found)) result ends

/-- Among finitely many places an endless way comes to one of them again. -/
theorem circles_of_endless (finite : {place | (next place).isSome}.Finite)
    (endless : Endless next goal start) : Circles next start := by
  let walk (turns : Nat) : Place := (fun place => (next place).getD place)^[turns] start
  have walks (turns : Nat) : ReflTransGen (Leads next) start (walk turns) ∧
      Leads next (walk turns) (walk (turns + 1)) := by
    induction turns with
    | zero =>
        obtain ⟨-, other, leads, -⟩ := endless_next endless
        exact ⟨ReflTransGen.refl, by simp [walk, Leads, leads]⟩
    | succ turns ih =>
        have reached := ReflTransGen.tail ih.1 ih.2
        obtain ⟨-, other, leads, -⟩ := endless_next (endless_reached endless reached)
        refine ⟨reached, ?_⟩
        have again : walk (turns + 1 + 1) = (next (walk (turns + 1))).getD (walk (turns + 1)) :=
          Function.iterate_succ_apply' _ _ _
        rw [Leads, again, leads]
        rfl
  have onward {first later : Nat} (before : first < later) :
      TransGen (Leads next) (walk first) (walk later) := by
    induction later with
    | zero => omega
    | succ later ih =>
        rcases Nat.lt_succ_iff_lt_or_eq.mp before with earlier | rfl
        · exact TransGen.tail (ih earlier) (walks later).2
        · exact TransGen.single (walks first).2
  have : Finite {place | (next place).isSome} := finite
  let places (turns : Nat) : {place | (next place).isSome} :=
    ⟨walk turns, Option.isSome_iff_exists.mpr ⟨walk (turns + 1), (walks turns).2⟩⟩
  obtain ⟨first, later, different, same⟩ := Finite.exists_ne_map_eq_of_infinite places
  have again : walk first = walk later := congrArg Subtype.val same
  rcases Nat.lt_or_gt_of_ne different with before | before
  · exact ⟨walk first, (walks first).1, by simpa [← again] using onward before⟩
  · exact ⟨walk first, (walks first).1, by simpa [← again] using onward before⟩

theorem search_ends_iff (finite : {place | (next place).isSome}.Finite) :
    (∃ turns result, search next goal turns start = some result) ↔
      Found next goal start ∨ ¬ Circles next start := by
  constructor
  · rintro ⟨turns, result, ends⟩
    by_contra neither
    rw [not_or, not_not] at neither
    exact endless_of_circles neither.2 neither.1 turns result ends
  · intro good
    by_contra never
    have endless : Endless next goal start := fun turns result ends => never ⟨turns, result, ends⟩
    rcases good with ⟨place, reached, found⟩ | straight
    · have nothing := (endless_next (endless_reached endless reached)).1
      simp [nothing] at found
    · exact straight (circles_of_endless finite endless)

end FunctionalSearch
