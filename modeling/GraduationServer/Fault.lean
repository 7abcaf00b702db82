/-!
How an execution of the servers can stop. The source has no recovery from any
of these: a bad pointer or a copy outside an array is undefined behaviour and
ends the modelled run, and `notEnabled` marks an event that cannot happen in
the state it is tried in.
-/

namespace GraduationServer

inductive Fault where
  | nullPointer
  | freedObject
  | outOfBounds
  | badLength
  | endlessLoop
  | notEnabled
  deriving DecidableEq, Repr

abbrev Exec := Except Fault

theorem Exec.bind_ok {α β : Type} {first : Exec α} {next : α → Exec β} {result : β}
    (done : first.bind next = .ok result) :
    ∃ value, first = .ok value ∧ next value = .ok result := by
  cases first with
  | error reason => simp [Except.bind] at done
  | ok value => exact ⟨value, rfl, by simpa [Except.bind] using done⟩

theorem Exec.bind_error {α β : Type} {first : Exec α} {next : α → Exec β} {reason : Fault}
    (stopped : first.bind next = .error reason) :
    first = .error reason ∨ ∃ value, first = .ok value ∧ next value = .error reason := by
  cases first with
  | error other => exact Or.inl (by simpa [Except.bind] using stopped)
  | ok value => exact Or.inr ⟨value, rfl, by simpa [Except.bind] using stopped⟩

theorem Exec.ok_bind {α β : Type} (value : α) (next : α → Exec β) :
    ((.ok value : Exec α) >>= next) = next value := rfl

def Exec.Ends {α : Type} (execution : Exec α) : Prop := ∃ result, execution = .ok result

@[simp] theorem Exec.ends_ok {α : Type} (result : α) : Exec.Ends (.ok result) := ⟨result, rfl⟩

@[simp] theorem Exec.ends_pure {α : Type} (result : α) : Exec.Ends (pure result : Exec α) :=
  ⟨result, rfl⟩

@[simp] theorem Exec.not_ends_error {α : Type} (reason : Fault) :
    ¬ Exec.Ends (.error reason : Exec α) := by
  rintro ⟨_, same⟩
  cases same

theorem Exec.ends_bind {α β : Type} {first : Exec α} {next : α → Exec β} :
    Exec.Ends (first >>= next) ↔ ∃ value, first = .ok value ∧ Exec.Ends (next value) := by
  constructor
  · rintro ⟨result, done⟩
    obtain ⟨value, started, done⟩ := Exec.bind_ok done
    exact ⟨value, started, result, done⟩
  · rintro ⟨value, rfl, ends⟩
    exact ends

theorem Exec.ends_return {α β : Type} {first : Exec α} {result : α → β} :
    Exec.Ends (do return result (← first)) ↔ Exec.Ends first := by
  rw [Exec.ends_bind]
  exact exists_congr fun value => and_iff_left ⟨result value, rfl⟩

def SIZE_1024 : Nat := 1024

/-- A line of the log, which `vswprintf_s` formats into `SIZE_1024` characters. A line
that does not fit ends the process. -/
def SLog (line : List UInt16) : Exec Unit :=
  if line.length < SIZE_1024 then .ok () else .error .badLength

theorem SLog_iff {line : List UInt16} : SLog line = .ok () ↔ line.length < SIZE_1024 := by
  by_cases fits : line.length < SIZE_1024
  · simp [SLog, fits]
  · simp [SLog, fits]

end GraduationServer
