import Mathlib.Data.List.Perm.Basic

/-!
Messages in flight, kept in a list from which any one can be taken next.
-/

namespace InFlight

variable {Message : Type}

def take (messages : List Message) (index : Nat) : Option (Message × List Message) :=
  match messages[index]? with
  | none => none
  | some message => some (message, messages.eraseIdx index)

theorem take_perm {messages rest : List Message} {index : Nat} {message : Message}
    (taken : take messages index = some (message, rest)) :
    messages.Perm (message :: rest) := by
  induction messages generalizing index rest with
  | nil => simp [take] at taken
  | cons first others ih =>
      cases index with
      | zero =>
          simp only [take, List.getElem?_cons_zero, List.eraseIdx_cons_zero, Option.some.injEq,
            Prod.mk.injEq] at taken
          obtain ⟨rfl, rfl⟩ := taken
          exact List.Perm.refl _
      | succ index =>
          simp only [take, List.getElem?_cons_succ, List.eraseIdx_cons_succ] at taken
          split at taken
          · simp at taken
          · rename_i found here
            simp only [Option.some.injEq, Prod.mk.injEq] at taken
            obtain ⟨rfl, rfl⟩ := taken
            have again : take others index = some (found, others.eraseIdx index) := by
              simp [take, here]
            have inner := ih again
            exact (inner.cons first).trans (List.Perm.swap _ _ _)

theorem take_append {messages rest : List Message} {index : Nat} {message : Message}
    (taken : take messages index = some (message, rest)) (others : List Message) :
    take (messages ++ others) index = some (message, rest ++ others) := by
  rw [take] at taken
  split at taken
  · cases taken
  · rename_i found here
    cases taken
    have inside := (List.getElem?_eq_some_iff.mp here).1
    simp [take, List.getElem?_append_left inside, here, List.eraseIdx_append_of_lt_length inside]

theorem take_mem {messages rest : List Message} {index : Nat} {message : Message}
    (taken : take messages index = some (message, rest)) : message ∈ messages :=
  (take_perm taken).mem_iff.mpr List.mem_cons_self

theorem mem_of_take {messages rest : List Message} {index : Nat} {message other : Message}
    (taken : take messages index = some (message, rest)) (member : other ∈ rest) :
    other ∈ messages :=
  (take_perm taken).mem_iff.mpr (List.mem_cons_of_mem _ member)

theorem take_getElem? {messages rest : List Message} {index : Nat} {message : Message}
    (taken : take messages index = some (message, rest)) : messages[index]? = some message := by
  rw [take] at taken
  split at taken
  · cases taken
  · rename_i found here
    cases taken
    exact here

theorem take_split {messages rest : List Message} {index : Nat} {message : Message}
    (taken : take messages index = some (message, rest)) :
    messages = messages.take index ++ message :: messages.drop (index + 1) ∧
      rest = messages.take index ++ messages.drop (index + 1) := by
  rw [take] at taken
  split at taken
  · cases taken
  · rename_i found here
    obtain ⟨inside, same⟩ := List.getElem?_eq_some_iff.mp here
    cases taken
    refine ⟨?_, List.eraseIdx_eq_take_drop_succ ..⟩
    rw [← same, List.getElem_cons_drop, List.take_append_drop]

theorem countP_take {messages rest : List Message} {index : Nat} {message : Message}
    (kind : Message → Bool) (taken : take messages index = some (message, rest)) :
    messages.countP kind = rest.countP kind + if kind message then 1 else 0 := by
  rw [(take_perm taken).countP_eq, List.countP_cons]

end InFlight
