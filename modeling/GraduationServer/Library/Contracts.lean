/-!
Conditions on the outcome of a computation that can stop with an error:
`Returns` is total correctness, `Ensures` speaks of what is returned only.
-/

namespace Contracts

section

variable {Error Value Result : Type}

def Returns (computation : Except Error Value) (post : Value → Prop) : Prop :=
  ∃ value, computation = .ok value ∧ post value

theorem Returns.ok {value : Value} {post : Value → Prop} (met : post value) :
    Returns (.ok value : Except Error Value) post :=
  ⟨value, rfl, met⟩

theorem Returns.mono {computation : Except Error Value} {post weaker : Value → Prop}
    (returns : Returns computation post) (enough : ∀ value, post value → weaker value) :
    Returns computation weaker := by
  obtain ⟨value, same, met⟩ := returns
  exact ⟨value, same, enough value met⟩

theorem Returns.bind {first : Except Error Value} {next : Value → Except Error Result}
    {post : Value → Prop} {final : Result → Prop} (returns : Returns first post)
    (continues : ∀ value, post value → Returns (next value) final) :
    Returns (first >>= next) final := by
  obtain ⟨value, same, met⟩ := returns
  subst same
  exact continues value met

structure Ensures (computation : Except Error Value) (post : Value → Prop) : Prop where
  met : ∀ value, computation = .ok value → post value

theorem Ensures.ok {value : Value} {post : Value → Prop} (met : post value) :
    Ensures (.ok value : Except Error Value) post := by
  constructor
  intro other same
  cases same
  exact met

theorem Ensures.error {error : Error} {post : Value → Prop} :
    Ensures (.error error) post := by
  constructor
  intro value same
  cases same

theorem Ensures.trivial (computation : Except Error Value) :
    Ensures computation fun _ => True := by
  constructor
  intros
  exact True.intro

theorem Ensures.mono {computation : Except Error Value} {post weaker : Value → Prop}
    (ensures : Ensures computation post) (enough : ∀ value, post value → weaker value) :
    Ensures computation weaker := by
  constructor
  intro value same
  exact enough value (ensures.met value same)

theorem Ensures.bind {first : Except Error Value} {next : Value → Except Error Result}
    {post : Value → Prop} {final : Result → Prop} (ensures : Ensures first post)
    (continues : ∀ value, post value → Ensures (next value) final) :
    Ensures (first >>= next) final := by
  cases first with
  | error reason => exact Ensures.error
  | ok value => exact continues value (ensures.met value rfl)

theorem Returns.and {computation : Except Error Value} {post other : Value → Prop}
    (returns : Returns computation post) (ensures : Ensures computation other) :
    Returns computation fun value => post value ∧ other value := by
  obtain ⟨value, same, met⟩ := returns
  exact ⟨value, same, met, ensures.met value same⟩

end

end Contracts
