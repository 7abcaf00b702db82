import GraduationServer.ChattingUsers
import GraduationServer.QueryStatement

/-!
The destructor of `QI_DB_REQ_LOAD_DATA`, which reads the record and sends the
answer. `QueryRecord` swallows what the recordset raises, and its `isEof` then
says that rows are left, so the loop over a recordset that was never opened
does not end.
-/

namespace GraduationServer

namespace DBAgent

/-- An ADO recordset with its cursor. Of a row only the name is read. An operation that
raises gives the `Description` of its `_com_error`. -/
inductive Recordset where
  | unopened (description : WStr)
  | opened (rows : List (Except WStr WStr)) (position : Nat)

namespace Recordset

-- Without a current row nobody asks for one, and the description does not matter.

def EndOfFile : Recordset → Except WStr Bool
  | .unopened description => .error description
  | .opened rows position => .ok (decide (rows.length ≤ position))

def MoveFirst : Recordset → Except WStr Recordset
  | .unopened description => .error description
  | .opened rows _ => if rows = [] then .error [] else .ok (.opened rows 0)

def MoveNext : Recordset → Except WStr Recordset
  | .unopened description => .error description
  | .opened rows position =>
      if rows.length ≤ position then .error [] else .ok (.opened rows (position + 1))

def GetItem : Recordset → Except WStr WStr
  | .unopened description => .error description
  | .opened rows position => rows.getD position (.error [])

/-- What the query holds after `execute`: the rows, or the recordset of the
constructor where `Execute` has thrown. -/
def result : Except WStr (List (Except WStr WStr)) → Recordset
  | .error description => .unopened description
  | .ok rows => .opened rows 0

end Recordset

namespace QueryRecord

def errorLine (description : WStr) : WStr :=
  wideText ['*', ' ', 'Q', 'u', 'e', 'r', 'y', ' ', 'e', 'r', 'r', 'o', 'r', ' ', '=', ' '] ++
    description

def errorReport (description : WStr) : Exec Unit := SLog (errorLine description)

def isEof (record_ : Recordset) : Exec Bool :=
  match record_.EndOfFile with
  | .ok eof => .ok eof
  | .error description => do
      errorReport description
      return false

def moveFirst (record_ : Recordset) : Exec Recordset :=
  match record_.MoveFirst with
  | .ok moved => .ok moved
  | .error description => do
      errorReport description
      return record_

def rewind (record_ : Recordset) : Exec Recordset := do
  if ← isEof record_ then return record_
  moveFirst record_

def moveNext (record_ : Recordset) : Exec Recordset :=
  match record_.MoveNext with
  | .ok moved => .ok moved
  | .error description => do
      errorReport description
      return record_

def text (value : WStr) : WStr := value.takeWhile (· ≠ 0)

def fieldLine (fieldName : WStr) : WStr :=
  wideText ['!', ' ', 'e', 'r', 'r', 'o', 'r', ' ', 'q', 'u', 'e', 'r', 'y', ' ', 'f', 'i', 'e',
    'l', 'd', ' ', ':', ' '] ++ fieldName

def fieldReport (fieldName description : WStr) : Exec Unit := do
  errorReport description
  SLog (fieldLine fieldName)

/-- `swprintf_s` ends the program where the text does not fit. -/
def get (record_ : Recordset) (fieldName : WStr) : Exec (Option WStr) :=
  match record_.GetItem with
  | .ok value =>
      if (text value).length < DB_PARAM_SIZE then .ok (some (text value)) else .error .badLength
  | .error description => do
      fieldReport fieldName description
      return none

end QueryRecord

namespace QI_DB_REQ_LOAD_DATA

open QueryRecord

def nameField : WStr := wideText ['n', 'a', 'm', 'e']

def nameLine (buffer : WStr) : WStr := wideText ['i', 'd', ' ', ':', ' '] ++ buffer

/-- What a turn of the loop does with the row. `nameBuf` is what `WideCharToMultiByte`
leaves in the buffer for a name. -/
def readName (nameBuf : WStr → List UInt8) (record_ : Recordset) (answer : Str × UInt8) :
    Exec (Str × UInt8) := do
  match ← QueryRecord.get record_ nameField with
  | none => return answer
  | some buffer =>
      SLog (nameLine buffer)
      let name_ ← terminated 0 (nameBuf buffer)
      return (name_, 1)

def readRows (nameBuf : WStr → List UInt8) : Nat → Recordset → Str × UInt8 → Exec (Str × UInt8)
  | 0, _, _ => .error .endlessLoop
  | turns + 1, record_, answer => do
      if ← isEof record_ then return answer
      let answer ← readName nameBuf record_ answer
      readRows nameBuf turns (← moveNext record_) answer

def destructor (nameBuf : WStr → List UInt8) (turns : Nat) (record_ : Recordset)
    (clientId_ : oid_t) : Exec (List (Receiver × Packet)) := do
  let record_ ← rewind record_
  let (name_, result_) ← readRows nameBuf turns record_ ([], 0)
  return [(.terminal .ChattingServer, .PK_I_DB_ANS_PARSE_DATA clientId_ name_ result_)]

def Answered (nameBuf : WStr → List UInt8) (rows : Except WStr (List (Except WStr WStr)))
    (clientId_ : oid_t) : Prop :=
  ∃ turns name_ result_,
    destructor nameBuf turns (Recordset.result rows) clientId_ =
      .ok [(.terminal .ChattingServer, .PK_I_DB_ANS_PARSE_DATA clientId_ name_ result_)] ∧
    (result_ ≠ 0 ↔ ∃ list name, rows = .ok list ∧ .ok name ∈ list)

/-- The row can be read, and what is logged about it fits. -/
def Fits (nameBuf : WStr → List UInt8) : Except WStr WStr → Prop
  | .ok name => (nameLine (text name)).length < SIZE_1024 ∧ 0 ∈ nameBuf (text name)
  | .error description => (errorLine description).length < SIZE_1024

instance (nameBuf : WStr → List UInt8) : (row : Except WStr WStr) → Decidable (Fits nameBuf row)
  | .ok name => inferInstanceAs (Decidable (_ ∧ 0 ∈ nameBuf (text name)))
  | .error description => inferInstanceAs (Decidable ((errorLine description).length < SIZE_1024))

def toRow (nameBuf : WStr → List UInt8) (name : Except WStr WStr) : Row :=
  { oidAccount := none
    name :=
      match name with
      | .ok name => some ((nameBuf (text name)).takeWhile (· ≠ 0))
      | .error _ => none }

def lastName (read : Str × UInt8) (row : Row) : Str × UInt8 :=
  match row.name with
  | some name => (name, 1)
  | none => read

theorem nameLine_short {buffer : WStr} (fits : (nameLine buffer).length < SIZE_1024) :
    buffer.length < DB_PARAM_SIZE := by
  have length : (nameLine buffer).length = 5 + buffer.length := List.length_append
  rw [length, SIZE_1024] at fits
  rw [DB_PARAM_SIZE]
  omega

theorem unopened_more {description : WStr} {eof : Bool}
    (ended : isEof (.unopened description) = .ok eof) : eof = false := by
  obtain ⟨_, -, ended⟩ := Exec.bind_ok ended
  cases ended
  rfl

theorem unopened_next {description : WStr} {next : Recordset}
    (moved : moveNext (.unopened description) = .ok next) : next = .unopened description := by
  obtain ⟨_, -, moved⟩ := Exec.bind_ok moved
  cases moved
  rfl

theorem unopened_rewind {description : WStr} {next : Recordset}
    (rewound : rewind (.unopened description) = .ok next) : next = .unopened description := by
  obtain ⟨eof, ended, moved⟩ := Exec.bind_ok rewound
  cases unopened_more ended
  obtain ⟨_, -, moved⟩ := Exec.bind_ok moved
  cases moved
  rfl

theorem readRows_unopened (nameBuf : WStr → List UInt8) (turns : Nat) (description : WStr)
    (answer found : Str × UInt8) :
    readRows nameBuf turns (.unopened description) answer ≠ .ok found := by
  induction turns generalizing answer with
  | zero =>
      intro done
      cases done
  | succ turns ih =>
      intro done
      obtain ⟨eof, ended, done⟩ := Exec.bind_ok done
      cases unopened_more ended
      obtain ⟨answer, -, done⟩ := Exec.bind_ok done
      obtain ⟨next, moved, done⟩ := Exec.bind_ok done
      cases unopened_next moved
      exact ih answer done

section

variable {nameBuf : WStr → List UInt8} (earlier rest : List (Except WStr WStr))
variable (row : Except WStr WStr)

theorem opened_end : isEof (.opened earlier earlier.length) = .ok true := by
  simp [isEof, Recordset.EndOfFile]

theorem opened_more : isEof (.opened (earlier ++ row :: rest) earlier.length) = .ok false := by
  simp [isEof, Recordset.EndOfFile]

theorem opened_item : (Recordset.opened (earlier ++ row :: rest) earlier.length).GetItem = row := by
  simp [Recordset.GetItem]

theorem opened_next : moveNext (.opened (earlier ++ row :: rest) earlier.length) =
    .ok (.opened ((earlier ++ [row]) ++ rest) (earlier ++ [row]).length) := by
  simp [moveNext, Recordset.MoveNext]

theorem opened_name (answer found : Str × UInt8) :
    readName nameBuf (.opened (earlier ++ row :: rest) earlier.length) answer = .ok found ↔
      Fits nameBuf row ∧ lastName answer (toRow nameBuf row) = found := by
  cases row with
  | error description =>
      rw [readName, QueryRecord.get, opened_item]
      have known : (fieldLine nameField).length < SIZE_1024 := by decide
      by_cases fits : (errorLine description).length < SIZE_1024
      · simp [fieldReport, errorReport, SLog, fits, known, Fits, lastName, toRow, bind, Except.bind,
          pure, Except.pure]
      · simp [fieldReport, errorReport, SLog, fits, Fits, bind, Except.bind]
  | ok name =>
      rw [readName, QueryRecord.get, opened_item]
      by_cases fits : (nameLine (text name)).length < SIZE_1024
      · have short := nameLine_short fits
        by_cases ends : 0 ∈ nameBuf (text name)
        · simp [short, SLog, fits, terminated, ends, Fits, lastName, toRow, bind, Except.bind, pure,
            Except.pure]
        · simp [short, SLog, fits, terminated, ends, Fits, bind, Except.bind]
      · by_cases short : (text name).length < DB_PARAM_SIZE
        · simp [short, SLog, fits, Fits, bind, Except.bind]
        · simp [short, fits, Fits, bind, Except.bind]

theorem readRows_end (turns : Nat) (answer : Str × UInt8) :
    readRows nameBuf (turns + 1) (.opened earlier earlier.length) answer = .ok answer := by
  rw [readRows, opened_end]
  rfl

theorem readRows_more (turns : Nat) (answer : Str × UInt8) :
    readRows nameBuf (turns + 1) (.opened (earlier ++ row :: rest) earlier.length) answer =
      (readName nameBuf (.opened (earlier ++ row :: rest) earlier.length) answer).bind
        (readRows nameBuf turns
          (.opened ((earlier ++ [row]) ++ rest) (earlier ++ [row]).length)) := by
  rw [readRows, opened_more, opened_next]
  rfl

end

theorem readRows_opened {nameBuf : WStr → List UInt8} (earlier rest : List (Except WStr WStr))
    (answer : Str × UInt8) (fits : ∀ row ∈ rest, Fits nameBuf row) :
    readRows nameBuf (rest.length + 1) (.opened (earlier ++ rest) earlier.length) answer =
      .ok ((rest.map (toRow nameBuf)).foldl lastName answer) := by
  induction rest generalizing earlier answer with
  | nil => simpa using readRows_end earlier 0 answer
  | cons row rest ih =>
      obtain ⟨first, others⟩ := List.forall_mem_cons.mp fits
      have read := (opened_name earlier rest row answer _).mpr ⟨first, rfl⟩
      rw [List.length_cons, readRows_more, read]
      exact ih _ _ others

theorem readRows_fits {nameBuf : WStr → List UInt8} {turns : Nat}
    (earlier rest : List (Except WStr WStr)) {answer found : Str × UInt8}
    (done : readRows nameBuf turns (.opened (earlier ++ rest) earlier.length) answer = .ok found) :
    ∀ row ∈ rest, Fits nameBuf row := by
  induction rest generalizing earlier answer turns with
  | nil => simp
  | cons row rest ih =>
      cases turns with
      | zero => cases done
      | succ turns =>
          rw [readRows_more] at done
          obtain ⟨answer, read, done⟩ := Exec.bind_ok done
          have first := ((opened_name earlier rest row _ _).mp read).1
          exact List.forall_mem_cons.mpr ⟨first, ih _ done⟩

theorem destructor_unopened (nameBuf : WStr → List UInt8) (turns : Nat) (description : WStr)
    (clientId_ : oid_t) (sent : List (Receiver × Packet)) :
    destructor nameBuf turns (.unopened description) clientId_ ≠ .ok sent := by
  intro done
  obtain ⟨record_, rewound, done⟩ := Exec.bind_ok done
  cases unopened_rewind rewound
  obtain ⟨found, read, -⟩ := Exec.bind_ok done
  exact readRows_unopened nameBuf turns description _ _ read

theorem destructor_opened (nameBuf : WStr → List UInt8) (turns : Nat)
    (rows : List (Except WStr WStr)) (clientId_ : oid_t) :
    destructor nameBuf turns (.opened rows 0) clientId_ =
      (readRows nameBuf turns (.opened rows 0) ([], 0)).bind fun read =>
        .ok [(.terminal .ChattingServer,
          .PK_I_DB_ANS_PARSE_DATA clientId_ read.1 read.2)] := by
  cases rows with
  | nil => rfl
  | cons row rest => rfl

theorem destructor_respond (nameBuf : WStr → List UInt8) (rows : List (Except WStr WStr))
    (clientId_ oidAccountId_ unset : UInt64) (fits : ∀ row ∈ rows, Fits nameBuf row) :
    destructor nameBuf (rows.length + 1) (.opened rows 0) clientId_ =
      .ok [Query.respond (rows.map (toRow nameBuf)) unset
        (.QI_DB_REQ_LOAD_DATA clientId_ oidAccountId_)] := by
  rw [destructor_opened]
  have read := readRows_opened [] rows ([], 0) fits
  rw [List.nil_append, List.length_nil] at read
  rw [read]
  rfl

end QI_DB_REQ_LOAD_DATA

end DBAgent

end GraduationServer
