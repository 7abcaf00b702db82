import Mathlib.Tactic.Positivity
import Mathlib.Tactic.Linarith
import Mathlib.Tactic.Ring

/-!
An alarm that a loop looks at again and again. It goes off where the clock has
passed the time that it is set to, and is then set again from the clock, which
may have gone on meanwhile.
-/

/-- What the clock shows at one look: for the comparison, and for setting again. -/
structure Look where
  now : Int
  later : Int

namespace Alarm

variable (start period : Int) (looks : Nat → Look)

def armed : Nat → Int
  | 0 => start + period
  | turn + 1 =>
      if armed turn < (looks turn).now then (looks turn).later + period else armed turn

def Fires (turn : Nat) : Prop := armed start period looks turn < (looks turn).now

structure Ordered : Prop where
  within : ∀ turn, (looks turn).now ≤ (looks turn).later
  onward : ∀ turn, (looks turn).later ≤ (looks (turn + 1)).now

variable {start period : Int} {looks : Nat → Look}

theorem armed_fires {turn : Nat} (fires : Fires start period looks turn) :
    armed start period looks (turn + 1) = (looks turn).later + period :=
  if_pos fires

theorem armed_waits {turn : Nat} (waits : ¬ Fires start period looks turn) :
    armed start period looks (turn + 1) = armed start period looks turn :=
  if_neg waits

theorem Ordered.now_le (ordered : Ordered looks) {first later : Nat} (before : first ≤ later) :
    (looks first).now ≤ (looks later).now := by
  induction later with
  | zero =>
      obtain rfl : first = 0 := by omega
      exact Int.le_refl _
  | succ later ih =>
      rcases Nat.le_succ_iff.mp before with earlier | rfl
      · have known := ih earlier
        have inside := ordered.within later
        have outside := ordered.onward later
        omega
      · exact Int.le_refl _

theorem armed_mono (ordered : Ordered looks) (forward : 0 ≤ period) (turn : Nat) :
    armed start period looks turn ≤ armed start period looks (turn + 1) := by
  by_cases fires : Fires start period looks turn
  · rw [armed_fires fires]
    have passed : armed start period looks turn < (looks turn).now := fires
    have inside := ordered.within turn
    omega
  · rw [armed_waits fires]

theorem armed_least (ordered : Ordered looks) (forward : 0 ≤ period) (turn : Nat) :
    start + period ≤ armed start period looks turn := by
  induction turn with
  | zero => exact Int.le_refl _
  | succ turn ih => exact ih.trans (armed_mono ordered forward turn)

theorem fires_late (ordered : Ordered looks) (forward : 0 ≤ period) {turn : Nat}
    (fires : Fires start period looks turn) : start + period < (looks turn).now :=
  Int.lt_of_le_of_lt (armed_least ordered forward turn) fires

theorem fired_by {turn : Nat} (passed : start + period < (looks turn).now) :
    ∃ earlier ≤ turn, Fires start period looks earlier := by
  by_contra never
  have quiet {earlier : Nat} (before : earlier ≤ turn) :
      armed start period looks earlier = start + period := by
    induction earlier with
    | zero => rfl
    | succ earlier ih =>
        have waits : ¬ Fires start period looks earlier :=
          fun fires => never ⟨earlier, by omega, fires⟩
        rw [armed_waits waits, ih (by omega)]
  apply never
  refine ⟨turn, Nat.le_refl _, ?_⟩
  rw [Fires, quiet (Nat.le_refl _)]
  exact passed

theorem seen_before (ordered : Ordered looks) (forward : 0 ≤ period) {earlier turn : Nat}
    (before : earlier < turn) : (looks earlier).now ≤ armed start period looks turn := by
  induction turn with
  | zero => omega
  | succ turn ih =>
      have grows : armed start period looks turn ≤ armed start period looks (turn + 1) :=
        armed_mono ordered forward turn
      rcases Nat.lt_succ_iff_lt_or_eq.mp before with inside | rfl
      · exact (ih inside).trans grows
      · by_cases fires : Fires start period looks earlier
        · rw [armed_fires fires]
          have same := ordered.within earlier
          omega
        · rw [armed_waits fires]
          exact Int.not_lt.mp fires

theorem armed_recent (turn : Nat) : armed start period looks turn = start + period ∨
    ∃ earlier < turn, armed start period looks turn = (looks earlier).later + period := by
  induction turn with
  | zero => exact Or.inl rfl
  | succ turn ih =>
      by_cases fires : Fires start period looks turn
      · exact Or.inr ⟨turn, Nat.lt_succ_self _, armed_fires fires⟩
      · rw [armed_waits fires]
        rcases ih with first | ⟨earlier, before, same⟩
        · exact Or.inl first
        · exact Or.inr ⟨earlier, Nat.lt_succ_of_lt before, same⟩

theorem fires_once (ordered : Ordered looks) (forward : 0 ≤ period) {turn other : Nat}
    (fires : Fires start period looks turn) (again : Fires start period looks other)
    (same : (looks turn).now = (looks other).now) : turn = other := by
  have apart {first later : Nat} (before : first < later)
      (together : (looks first).now = (looks later).now) : ¬ Fires start period looks later := by
    intro fires
    have held : (looks first).now ≤ armed start period looks later :=
      seen_before ordered forward before
    have passed : armed start period looks later < (looks later).now := fires
    omega
  rcases Nat.lt_trichotomy turn other with before | equal | before
  · exact absurd again (apart before same)
  · exact equal
  · exact absurd fires (apart before same.symm)

/-! Where no time passes between the comparison and the setting, and every
second is seen on the clock, a period is one second longer than it was meant to be. -/

structure EverySecond (start : Int) (looks : Nat → Look) : Prop where
  ordered : Ordered looks
  at_once : ∀ turn, (looks turn).later = (looks turn).now
  seen : ∀ second, start < second → ∃ turn, (looks turn).now = second

theorem fires_next (every : EverySecond start looks) (forward : 0 ≤ period) {turn : Nat}
    (fires : Fires start period looks turn) :
    (looks turn).now = armed start period looks turn + 1 := by
  have passed : armed start period looks turn < (looks turn).now := fires
  have late : start + period ≤ armed start period looks turn :=
    armed_least every.ordered forward turn
  obtain ⟨shown, same⟩ := every.seen (armed start period looks turn + 1) (by omega)
  have notBefore : turn ≤ shown := by
    by_contra before
    have held : (looks shown).now ≤ armed start period looks turn :=
      seen_before every.ordered forward (Nat.lt_of_not_le before)
    omega
  have least := every.ordered.now_le notBefore
  omega

theorem armed_schedule (every : EverySecond start looks) (forward : 0 ≤ period) (turn : Nat) :
    ∃ count : Nat, armed start period looks turn = start + period + count * (period + 1) := by
  induction turn with
  | zero => exact ⟨0, by simp [armed]⟩
  | succ turn ih =>
      obtain ⟨count, same⟩ := ih
      by_cases fires : Fires start period looks turn
      · refine ⟨count + 1, ?_⟩
        rw [armed_fires fires, every.at_once, fires_next every forward fires, same]
        push_cast
        ring
      · exact ⟨count, (armed_waits fires).trans same⟩

theorem fires_iff (every : EverySecond start looks) (forward : 0 ≤ period) (second : Int) :
    (∃ turn, Fires start period looks turn ∧ (looks turn).now = second) ↔
      ∃ count : Nat, second = start + (count + 1) * (period + 1) := by
  constructor
  · rintro ⟨turn, fires, rfl⟩
    obtain ⟨count, same⟩ := armed_schedule every forward turn
    refine ⟨count, ?_⟩
    rw [fires_next every forward fires, same]
    ring
  · rintro ⟨count, rfl⟩
    have positive : start < start + (count + 1) * (period + 1) := by
      have product : 0 < ((count : Int) + 1) * (period + 1) := by positivity
      omega
    obtain ⟨shown, seen⟩ := every.seen _ positive
    have reached : ∃ turn, start + (count + 1) * (period + 1) ≤ (looks turn).now :=
      ⟨shown, by omega⟩
    -- the first look that shows the second or a later one shows the second itself
    obtain ⟨turn, least, first⟩ : ∃ turn,
        start + (count + 1) * (period + 1) ≤ (looks turn).now ∧ ∀ earlier < turn,
          ¬ start + (count + 1) * (period + 1) ≤ (looks earlier).now :=
      ⟨Nat.find reached, Nat.find_spec reached, fun earlier before => Nat.find_min reached before⟩
    have most : (looks turn).now ≤ (looks shown).now := by
      apply every.ordered.now_le
      by_contra later
      exact first shown (Nat.lt_of_not_le later) (Int.le_of_eq seen.symm)
    have same : (looks turn).now = start + (count + 1) * (period + 1) := by omega
    refine ⟨turn, ?_, same⟩
    obtain ⟨earlierCount, scheduled⟩ := armed_schedule every forward turn
    have recent : armed start period looks turn < start + (count + 1) * (period + 1) + period := by
      have setting : armed start period looks turn = start + period ∨
          ∃ earlier < turn, armed start period looks turn = (looks earlier).later + period :=
        armed_recent turn
      rcases setting with unfired | ⟨earlier, before, last⟩
      · omega
      · have below := first earlier before
        rw [last, every.at_once]
        omega
    have fewer : (earlierCount : Int) < count + 1 := by
      apply lt_of_mul_lt_mul_right _ (by omega : (0 : Int) ≤ period + 1)
      omega
    have product : ((earlierCount : Int) + 1) * (period + 1) ≤ (count + 1) * (period + 1) :=
      mul_le_mul_of_nonneg_right (by omega) (by omega)
    rw [Fires, same, scheduled]
    linarith

end Alarm
