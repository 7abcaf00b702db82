/-!
Maps from keys to values with the operations of the C++ containers: `insert`
keeps a value that is there, assignment replaces it.
-/

namespace StdMap

abbrev Map (Key Value : Type) := Key → Option Value

variable {Key Value : Type} [DecidableEq Key]

def empty : Map Key Value := fun _ => none

def insert (map : Map Key Value) (key : Key) (value : Value) : Map Key Value := fun other =>
  match map other with
  | some present => some present
  | none => if other = key then some value else none

def assign (map : Map Key Value) (key : Key) (value : Value) : Map Key Value := fun other =>
  if other = key then some value else map other

def erase (map : Map Key Value) (key : Key) : Map Key Value := fun other =>
  if other = key then none else map other

@[simp] theorem assign_same (map : Map Key Value) (key : Key) (value : Value) :
    assign map key value key = some value := by
  simp [assign]

@[simp] theorem assign_other {map : Map Key Value} {key other : Key} {value : Value}
    (different : other ≠ key) : assign map key value other = map other := by
  simp [assign, different]

theorem assign_some {map : Map Key Value} {key other : Key} {value found : Value}
    (held : assign map key value other = some found) :
    map other = some found ∨ other = key ∧ found = value := by
  by_cases same : other = key
  · rw [same, assign_same] at held
    exact Or.inr ⟨same, (Option.some.inj held).symm⟩
  · rw [assign_other same] at held
    exact Or.inl held

theorem assign_keeps {map : Map Key Value} {other : Key} {found : Value} (key : Key)
    (value : Value) (held : map other = some found) :
    ∃ present, assign map key value other = some present := by
  by_cases same : other = key
  · exact ⟨value, by rw [same, assign_same]⟩
  · exact ⟨found, by rw [assign_other same, held]⟩

@[simp] theorem assign_assign (map : Map Key Value) (key : Key) (first second : Value) :
    assign (assign map key first) key second = assign map key second := by
  funext other
  by_cases same : other = key
  · simp [assign, same]
  · simp [same]

@[simp] theorem erase_same (map : Map Key Value) (key : Key) : erase map key key = none := by
  simp [erase]

@[simp] theorem erase_other {map : Map Key Value} {key other : Key} (different : other ≠ key) :
    erase map key other = map other := by
  simp [erase, different]

@[simp] theorem insert_other {map : Map Key Value} {key other : Key} {value : Value}
    (different : other ≠ key) : insert map key value other = map other := by
  simp only [insert, different, if_false]
  cases map other <;> rfl

theorem insert_new {map : Map Key Value} {key : Key} (value : Value) (absent : map key = none) :
    insert map key value key = some value := by
  simp [insert, absent]

theorem insert_present {map : Map Key Value} {other : Key} {found : Value} (key : Key)
    (value : Value) (held : map other = some found) :
    insert map key value other = some found := by
  simp [insert, held]

theorem insert_same (map : Map Key Value) (key : Key) (value : Value) :
    insert map key value key = some ((map key).getD value) := by
  simp only [insert, if_true]
  cases map key <;> rfl

theorem insert_some {map : Map Key Value} {key other : Key} {value found : Value}
    (held : insert map key value other = some found) :
    map other = some found ∨ other = key ∧ found = value := by
  simp only [insert] at held
  split at held
  · rename_i present same
    exact Or.inl (same.trans held)
  · split at held
    · rename_i same
      exact Or.inr ⟨same, (Option.some.inj held).symm⟩
    · simp at held

@[simp] theorem erase_insert (map : Map Key Value) (key : Key) (value : Value) :
    erase (insert map key value) key = erase map key := by
  funext other
  by_cases same : other = key
  · simp [same]
  · simp [same]

theorem erase_some {map : Map Key Value} {key other : Key} {found : Value}
    (held : erase map key other = some found) : map other = some found := by
  simp only [erase] at held
  split at held
  · simp at held
  · exact held

end StdMap
