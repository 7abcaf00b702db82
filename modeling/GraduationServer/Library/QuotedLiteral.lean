import Mathlib.Data.List.TakeWhile

/-!
Literals between two marks, in which a mark that is meant is written twice. A
text holds two marks for each literal that is read from it and two more for
each mark of a value.
-/

namespace QuotedLiteral

variable {α : Type} [DecidableEq α]

/-- The value behind an opening mark, and what follows the closing one. -/
def body (mark : α) : List α → Option (List α × List α)
  | [] => none
  | [symbol] => if symbol = mark then some ([], []) else none
  | symbol :: next :: later =>
      if symbol = mark then
        if next = mark then
          (body mark later).map fun (value, rest) => (mark :: value, rest)
        else some ([], next :: later)
      else (body mark (next :: later)).map fun (value, rest) => (symbol :: value, rest)

def literal (mark : α) : List α → Option (List α × List α)
  | [] => none
  | symbol :: rest => if symbol = mark then body mark rest else none

theorem body_count {mark : α} {text value rest : List α}
    (parsed : body mark text = some (value, rest)) :
    text.count mark = 2 * value.count mark + 1 + rest.count mark := by
  fun_induction body mark text generalizing value with
  | case1 => cases parsed
  | case2 =>
      cases parsed
      simp
  | case3 => cases parsed
  | case4 later ih =>
      obtain ⟨⟨inner, behind⟩, read, same⟩ := Option.map_eq_some_iff.mp parsed
      cases same
      have counted := ih read
      simp only [List.count_cons_self]
      omega
  | case5 next later closes =>
      cases parsed
      simp [Nat.add_comm]
  | case6 symbol next later plain ih =>
      obtain ⟨⟨inner, behind⟩, read, same⟩ := Option.map_eq_some_iff.mp parsed
      cases same
      have counted := ih read
      rw [List.count_cons_of_ne plain, List.count_cons_of_ne plain]
      exact counted

theorem literal_count {mark : α} {text value rest : List α}
    (parsed : literal mark text = some (value, rest)) :
    text.count mark = 2 * value.count mark + 2 + rest.count mark := by
  cases text with
  | nil => cases parsed
  | cons symbol later =>
      rw [literal] at parsed
      split at parsed
      · rename_i opens
        have counted := body_count parsed
        rw [opens, List.count_cons_self]
        omega
      · cases parsed

theorem body_plain {mark : α} {value rest : List α} (plain : mark ∉ value)
    (ends : rest.head? ≠ some mark) : body mark (value ++ mark :: rest) = some (value, rest) := by
  induction value with
  | nil =>
      cases rest with
      | nil => simp [body]
      | cons symbol later =>
          have other : symbol ≠ mark := by simpa using ends
          simp [body, other]
  | cons symbol value ih =>
      obtain ⟨other, others⟩ : mark ≠ symbol ∧ mark ∉ value := by simpa using plain
      have read := ih others
      rcases value with _ | ⟨next, later⟩
      · simp only [List.nil_append, List.cons_append] at read ⊢
        rw [body, if_neg (Ne.symm other), read]
        rfl
      · simp only [List.cons_append] at read ⊢
        rw [body, if_neg (Ne.symm other), read]
        rfl

theorem literal_plain {mark : α} {value rest : List α} (plain : mark ∉ value)
    (ends : rest.head? ≠ some mark) :
    literal mark (mark :: (value ++ mark :: rest)) = some (value, rest) := by
  rw [literal, if_pos rfl, body_plain plain ends]

end QuotedLiteral
