import GraduationServer.Library.InFlight
import GraduationServer.Library.Runs
import GraduationServer.LoadDataQuery

/-!
The queries between `DBAgentProcess`, which pushes them on `queryPool_`, and the
threads of `dbPool_`, which count, pop and execute them and run their
destructors. Several threads work at once, one step at a time in any order.
-/

namespace GraduationServer

namespace DBAgent

open QueryRecord

/-- A row as the two destructors read it. A field that raises has a description. -/
structure RecordRow where
  oidAccount : Except WStr Int32
  name : Except WStr WStr

/-- What `Execute` has returned. Where it has thrown, the recordset of the constructor is
left, which raises this description. -/
abbrev Fetched := Except WStr (List RecordRow)

namespace Fetched

def records : Fetched → List RecordRow
  | .ok rows => rows
  | .error _ => []

def recordset (fetched : Fetched) : Recordset :=
  Recordset.result (fetched.map fun rows => rows.map RecordRow.name)

def oidAccount (fetched : Fetched) : Recordset → Except WStr Int32
  | .unopened description => .error description
  | .opened _ position =>
      match fetched.records[position]? with
      | some row => row.oidAccount
      | none => .error []

/-- The rows as the abstract answer takes them; a record that was never opened
answers as an empty one. -/
def rows (nameBuf : WStr → List UInt8) (fetched : Fetched) : List Row :=
  fetched.records.map fun row =>
    { QI_DB_REQ_LOAD_DATA.toRow nameBuf row.name with
      oidAccount :=
        match row.oidAccount with
        | .ok oidAccount => some oidAccount
        | .error _ => none }

end Fetched

namespace QI_DB_REQ_ID_PW

def oidAccountField : WStr := wideText ['o', 'i', 'd', 'A', 'c', 'c', 'o', 'u', 'n', 't']

def errorLine : WStr :=
  wideText ['*', ' ', 't', 'h', 'i', 's', ' ', 'q', 'u', 'e', 'r', 'y', ' ', '['] ++
    GraduationServer.QI_DB_REQ_ID_PW.procedure ++
    wideText [']', ' ', 'h', 'a', 'v', 'e', ' ', 'e', 'r', 'r', 'o', 'r']

/-- The loop of this destructor is left in its first turn, also by a record
that raises whatever is asked of it. -/
def destructor (unset : UInt64) (fetched : Fetched) (clientId_ : oid_t) :
    Exec (List (Receiver × Packet)) := do
  let record_ ← rewind fetched.recordset
  if ← isEof record_ then
    return [(.terminal .LoginServer, .PK_I_DB_ANS_ID_PW clientId_ unset 0)]
  match fetched.oidAccount record_ with
  | .ok oidAccount =>
      return [(.terminal .LoginServer, .PK_I_DB_ANS_ID_PW clientId_ oidAccount.toInt64.toUInt64 1)]
  | .error description =>
      fieldReport oidAccountField description
      SLog errorLine
      return [(.terminal .LoginServer, .PK_I_DB_ANS_ID_PW clientId_ unset 0)]

end QI_DB_REQ_ID_PW

def Query.destructor (nameBuf : WStr → List UInt8) (unset : UInt64) (fetched : Fetched) :
    Query → Exec (List (Receiver × Packet))
  | .QI_DB_REQ_ID_PW clientId_ _ _ => QI_DB_REQ_ID_PW.destructor unset fetched clientId_
  | .QI_DB_REQ_LOAD_DATA clientId_ _ =>
      QI_DB_REQ_LOAD_DATA.destructor nameBuf (fetched.records.length + 1) fetched.recordset
        clientId_

def Fetched.raises : Fetched → Option WStr
  | .error description => some description
  | .ok [] => none
  | .ok (row :: _) =>
      match row.oidAccount with
      | .ok _ => none
      | .error description => some description

def Query.answerable (nameBuf : WStr → List UInt8) (fetched : Fetched) : Query → Bool
  | .QI_DB_REQ_ID_PW _ _ _ =>
      match fetched.raises with
      | none => true
      | some description => decide ((errorLine description).length < SIZE_1024)
  | .QI_DB_REQ_LOAD_DATA _ _ =>
      match fetched with
      | .error _ => false
      | .ok rows => rows.all fun row => decide (QI_DB_REQ_LOAD_DATA.Fits nameBuf row.name)

section

variable {nameBuf : WStr → List UInt8} {unset : UInt64} {fetched : Fetched} {query : Query}
variable {sent : List (Receiver × Packet)}

theorem answerable_load {clientId_ : oid_t} {oidAccountId_ : UInt64} :
    Query.answerable nameBuf fetched (.QI_DB_REQ_LOAD_DATA clientId_ oidAccountId_) = true ↔
      ∃ rows, fetched = .ok rows ∧ ∀ name ∈ rows.map RecordRow.name,
        QI_DB_REQ_LOAD_DATA.Fits nameBuf name := by
  cases fetched with
  | error description => simp [Query.answerable]
  | ok rows => simp [Query.answerable]

theorem load_respond (nameBuf : WStr → List UInt8) (unset : UInt64) (rows : List RecordRow)
    (clientId_ oidAccountId_ : UInt64) :
    Query.respond (Fetched.rows nameBuf (.ok rows)) unset
        (.QI_DB_REQ_LOAD_DATA clientId_ oidAccountId_) =
      Query.respond ((rows.map RecordRow.name).map (QI_DB_REQ_LOAD_DATA.toRow nameBuf)) unset
        (.QI_DB_REQ_LOAD_DATA clientId_ oidAccountId_) := by
  simp only [Query.respond, Fetched.rows, Fetched.records, List.map_map, List.foldl_map]
  rfl

theorem idPw_report (description : WStr) (answer : List (Receiver × Packet)) :
    (do
      fieldReport QI_DB_REQ_ID_PW.oidAccountField description
      SLog QI_DB_REQ_ID_PW.errorLine
      return answer) =
      if (errorLine description).length < SIZE_1024 then .ok answer else .error .badLength := by
  have field : (fieldLine QI_DB_REQ_ID_PW.oidAccountField).length < SIZE_1024 := by decide
  have query : QI_DB_REQ_ID_PW.errorLine.length < SIZE_1024 := by decide
  by_cases fits : (errorLine description).length < SIZE_1024
  · simp [fieldReport, errorReport, SLog, fits, field, query, bind, Except.bind, pure, Except.pure]
  · simp [fieldReport, errorReport, SLog, fits, bind, Except.bind]

theorem idPw_destructor (nameBuf : WStr → List UInt8) (unset : UInt64) (fetched : Fetched)
    (clientId_ : oid_t) (id_ password_ : Str) :
    QI_DB_REQ_ID_PW.destructor unset fetched clientId_ =
      if Query.answerable nameBuf fetched (.QI_DB_REQ_ID_PW clientId_ id_ password_) then
        .ok [Query.respond (fetched.rows nameBuf) unset
          (.QI_DB_REQ_ID_PW clientId_ id_ password_)]
      else .error .badLength := by
  cases fetched with
  | error description =>
      by_cases fits : (errorLine description).length < SIZE_1024
      · have logged : SLog (errorLine description) = .ok () := SLog_iff.mpr fits
        have report := idPw_report description
          [(.terminal .LoginServer, .PK_I_DB_ANS_ID_PW clientId_ unset 0)]
        simp only [Query.answerable, Fetched.raises, fits, decide_true, if_true] at report ⊢
        refine Eq.trans ?_ report
        simp [QI_DB_REQ_ID_PW.destructor, rewind, isEof, moveFirst, Fetched.recordset,
          Recordset.result, Recordset.EndOfFile, Recordset.MoveFirst, errorReport, logged, bind,
          Except.bind, pure, Except.pure, Except.map, Fetched.oidAccount]
      · have logged : SLog (errorLine description) = .error .badLength := if_neg fits
        simp [Query.answerable, Fetched.raises, fits, QI_DB_REQ_ID_PW.destructor, rewind, isEof,
          Fetched.recordset, Recordset.result, Recordset.EndOfFile, errorReport, logged, bind,
          Except.bind, Except.map]
  | ok rows =>
      cases rows with
      | nil => rfl
      | cons row rest =>
          obtain ⟨oidAccount, name⟩ := row
          cases oidAccount with
          | ok oidAccount => rfl
          | error description =>
              have report := idPw_report description
                [(.terminal .LoginServer, .PK_I_DB_ANS_ID_PW clientId_ unset 0)]
              simp only [Query.answerable, Fetched.raises, decide_eq_true_eq]
              exact report

theorem destructor_answer (answerable : query.answerable nameBuf fetched = true) :
    query.destructor nameBuf unset fetched = .ok [query.respond (fetched.rows nameBuf) unset] := by
  cases query with
  | QI_DB_REQ_ID_PW clientId_ id_ password_ =>
      rw [Query.destructor, idPw_destructor nameBuf unset fetched clientId_ id_ password_,
        if_pos answerable]
  | QI_DB_REQ_LOAD_DATA clientId_ oidAccountId_ =>
      obtain ⟨rows, rfl, fits⟩ := answerable_load.mp answerable
      rw [load_respond]
      have ended := QI_DB_REQ_LOAD_DATA.destructor_respond nameBuf (rows.map RecordRow.name)
        clientId_ oidAccountId_ unset fits
      rw [List.length_map] at ended
      exact ended

theorem answerable_of_destructor (ended : query.destructor nameBuf unset fetched = .ok sent) :
    query.answerable nameBuf fetched = true := by
  cases query with
  | QI_DB_REQ_ID_PW clientId_ id_ password_ =>
      rw [Query.destructor, idPw_destructor nameBuf unset fetched clientId_ id_ password_] at ended
      by_contra long
      rw [if_neg long] at ended
      cases ended
  | QI_DB_REQ_LOAD_DATA clientId_ oidAccountId_ =>
      apply answerable_load.mpr
      cases fetched with
      | error description =>
          exact absurd ended (QI_DB_REQ_LOAD_DATA.destructor_unopened nameBuf _ _ _ _)
      | ok rows =>
          simp only [Query.destructor, Fetched.recordset, Except.map, Recordset.result,
            QI_DB_REQ_LOAD_DATA.destructor_opened] at ended
          obtain ⟨found, read, -⟩ := Exec.bind_ok ended
          exact ⟨rows, rfl, QI_DB_REQ_LOAD_DATA.readRows_fits [] _ read⟩

theorem unanswerable_of_destructor {reason : Fault}
    (stopped : query.destructor nameBuf unset fetched = .error reason) :
    query.answerable nameBuf fetched = false := by
  rw [Bool.eq_false_iff]
  intro answerable
  rw [destructor_answer answerable] at stopped
  cases stopped

end

namespace ADODatabase

/-- What `Execute` says besides its record: the description where it throws, the number
of its result, and the result that stands in the record before one is set. -/
structure Said where
  description : WStr
  quertResultVal : Int32
  resultVal_ : Int32

def comErrorLine (dbName_ description : WStr) : WStr :=
  wideText ['!', ' ', '['] ++ dbName_ ++ wideText [']', 'D', 'B', ' ', '[', 'e', 'x', 'e', 'c',
    'u', 't', 'e', ']', ' ', 'f', 'a', 'i', 'l', ' ', '['] ++ description ++ wideText [']']

def errorCodeLine (sqlQuery : WStr) (quertResultVal : Int32) : WStr :=
  wideText ['*', ' ', 'q', 'u', 'e', 'r', 'y', ' ', ':', ' ', '['] ++ sqlQuery ++
    wideText [']', ' ', 'h', 'a', 'v', 'e', ' ', 'e', 'r', 'r', 'o', 'r', ' ', 'c', 'o', 'd', 'e',
      ' ', '['] ++ printInt quertResultVal.toInt ++ wideText [']', ' ']

def runLine (sqlQuery : WStr) (resultVal : Int32) : WStr :=
  wideText ['*', ' ', 'R', 'u', 'n', ' ', 'q', 'u', 'e', 'r', 'y', ' ', '['] ++ sqlQuery ++
    wideText [']', ' ', 'r', 'e', 's', 'u', 'l', 't', ' ', '['] ++ printInt resultVal.toInt ++
    wideText [']']

def report (dbName_ sqlQuery : WStr) (fetched : Fetched) (said : Said) : Exec Unit :=
  match fetched with
  | .error _ => SLog (comErrorLine dbName_ said.description)
  | .ok (_ :: _) => SLog (runLine sqlQuery said.resultVal_)
  | .ok [] =>
      if said.quertResultVal < 1 then do
        SLog (errorCodeLine sqlQuery said.quertResultVal)
        SLog (runLine sqlQuery said.resultVal_)
      else SLog (runLine sqlQuery said.quertResultVal)

end ADODatabase

def Query.statement (unset : QUERY_TYPE) : Query → QueryStatement
  | .QI_DB_REQ_ID_PW _ id_ password_ =>
      GraduationServer.QI_DB_REQ_ID_PW.statement unset id_ password_
  | .QI_DB_REQ_LOAD_DATA _ oidAccountId_ =>
      GraduationServer.QI_DB_REQ_LOAD_DATA.statement unset oidAccountId_

/-- The name of a database, which `initialize` has converted into a `tmp` of `SIZE_256`. -/
structure DbName where
  text : WStr
  short : text.length < 256

/-- What the thread of a database is at: between two turns, behind the count,
with a query in its hand before or behind `Execute`, or in a destructor that
does not end. -/
inductive Phase where
  | idle
  | counted
  | popped (query : Query)
  | executed (query : Query) (fetched : Fetched)
  | stuck (query : Query)

def Phase.query : Phase → Option Query
  | .popped query => some query
  | .executed query _ => some query
  | .stuck query => some query
  | _ => none

structure Answer where
  query : Query
  fetched : Fetched
  unset : UInt64
  sent : List (Receiver × Packet)

/-- `pushed`, `begun` and `answered` record the queries pushed, popped and destroyed so
far, `failed` the records that do not let a destructor end, and `ended` that a line of the
log, a name or its conversion has ended the process. -/
structure DBManager where
  dbName_ : DbName
  queryPool_ : ThreadJobQueue Query
  dbPool_ : List Phase
  pushed : List Query
  begun : List Query
  answered : List Answer
  failed : Nat
  ended : Bool

namespace DBManager

inductive Action where
  | runQueryCount
  | popQuery
  | execute (fetched : Fetched) (said : ADODatabase.Said)
  | destroy (unset : UInt64)

inductive Event where
  | handle (packet : Packet)
  | work (index : Nat) (action : Action)

def initial (dbName_ : DbName) (workerCount_ : Nat) : DBManager :=
  { dbName_
    queryPool_ := ThreadJobQueue.empty
    dbPool_ := List.replicate workerCount_ .idle
    pushed := []
    begun := []
    answered := []
    failed := 0
    ended := false }

def pushQuery (manager : DBManager) (query : Query) : DBManager :=
  { manager with
    queryPool_ := manager.queryPool_.push query
    pushed := manager.pushed ++ [query] }

def execute (nameBuf : WStr → List UInt8) (manager : DBManager) :
    Phase → Action → Exec (DBManager × Phase)
  | .idle, .runQueryCount =>
      .ok (manager, if manager.queryPool_.size = 0 then .idle else .counted)
  | .counted, .popQuery =>
      match manager.queryPool_.pop with
      | none => .ok (manager, .idle)
      | some (query, queryPool_) =>
          .ok ({ manager with queryPool_, begun := manager.begun ++ [query] }, .popped query)
  | .popped query, .execute fetched said =>
      let failed := if query.answerable nameBuf fetched then 0 else 1
      let sqlQuery := (query.statement .QUERY_NOT_RETURN).query
      match ADODatabase.report manager.dbName_.text sqlQuery fetched said with
      | .ok _ => .ok ({ manager with failed := manager.failed + failed }, .executed query fetched)
      | .error _ => .ok ({ manager with ended := true }, .popped query)
  | .executed query fetched, .destroy unset =>
      match query.destructor nameBuf unset fetched with
      | .ok sent =>
          .ok ({ manager with
            answered := manager.answered ++ [{ query, fetched, unset, sent }] }, .idle)
      | .error .endlessLoop => .ok (manager, .stuck query)
      | .error _ => .ok ({ manager with ended := true }, .stuck query)
  | _, _ => .error .notEnabled

def step (nameBuf : WStr → List UInt8) (manager : DBManager) (event : Event) : Exec DBManager :=
  if manager.ended then .error .notEnabled
  else
    match event with
    | .handle packet =>
        match DBAgent.handle packet with
        | none => .error .notEnabled
        | some query => .ok (manager.pushQuery query)
    | .work index action =>
        match InFlight.take manager.dbPool_ index with
        | none => .error .notEnabled
        | some (phase, others) => do
            let (manager, phase) ← manager.execute nameBuf phase action
            return { manager with dbPool_ := phase :: others }

def held (manager : DBManager) : List Query := manager.dbPool_.filterMap Phase.query

/-- The queries are begun in the order pushed; one that was begun is held by a
thread or answered, once; and the answers are those of the abstract query over
the rows that `Execute` returned. -/
structure Accounted (nameBuf : WStr → List UInt8) (manager : DBManager) : Prop where
  inOrder : manager.pushed = manager.begun ++ manager.queryPool_.items
  shared : manager.begun.Perm (manager.held ++ manager.answered.map Answer.query)
  answers : ∀ answer ∈ manager.answered, answer.query.answerable nameBuf answer.fetched = true ∧
    answer.sent = [answer.query.respond (answer.fetched.rows nameBuf) answer.unset]

/-! What the next part of `execute` can do. -/

inductive Executed (nameBuf : WStr → List UInt8) (manager : DBManager) :
    Phase → DBManager → Phase → Prop
  | waits {phase : Phase} : phase = .idle ∨ phase = .counted →
      Executed nameBuf manager phase manager .idle
  | counts : Executed nameBuf manager .idle manager .counted
  | pops {query : Query} {queryPool_ : ThreadJobQueue Query} :
      manager.queryPool_.items = query :: queryPool_.items →
      Executed nameBuf manager .counted
        { manager with queryPool_, begun := manager.begun ++ [query] } (.popped query)
  | fetches (query : Query) (fetched : Fetched) :
      Executed nameBuf manager (.popped query)
        { manager with
          failed := manager.failed + if query.answerable nameBuf fetched then 0 else 1 }
        (.executed query fetched)
  | answers {query : Query} {fetched : Fetched} {unset : UInt64} :
      query.answerable nameBuf fetched = true →
      Executed nameBuf manager (.executed query fetched)
        { manager with
          answered := manager.answered ++ [{
            query, fetched, unset
            sent := [query.respond (fetched.rows nameBuf) unset] }] } .idle
  | sticks {query : Query} {fetched : Fetched} (ended : Bool) :
      query.answerable nameBuf fetched = false →
      Executed nameBuf manager (.executed query fetched) { manager with ended } (.stuck query)
  | ends (query : Query) :
      Executed nameBuf manager (.popped query) { manager with ended := true } (.popped query)

variable {nameBuf : WStr → List UInt8}

theorem execute_cases {manager next : DBManager} {phase left : Phase} {action : Action}
    (done : manager.execute nameBuf phase action = .ok (next, left)) :
    Executed nameBuf manager phase next left := by
  rw [execute.eq_def] at done
  split at done
  · cases done
    split
    · exact .waits (Or.inl rfl)
    · exact .counts
  · split at done
    · cases done
      exact .waits (Or.inr rfl)
    · rename_i popped
      cases done
      exact .pops (ThreadJobQueue.pop_some popped)
  · dsimp only at done
    split at done
    · cases done
      exact .fetches _ _
    · cases done
      exact .ends _
  · split at done
    · rename_i ended
      cases done
      have answerable := answerable_of_destructor ended
      rw [destructor_answer answerable] at ended
      cases ended
      exact .answers answerable
    · rename_i endless
      cases done
      exact .sticks manager.ended (unanswerable_of_destructor endless)
    · rename_i stopped
      cases done
      exact .sticks true (unanswerable_of_destructor stopped)
  · cases done

inductive Stepped (nameBuf : WStr → List UInt8) (manager : DBManager) : DBManager → Prop
  | pushed (query : Query) : Stepped nameBuf manager (manager.pushQuery query)
  | worked {next : DBManager} {phase left : Phase} {others : List Phase} :
      manager.dbPool_.Perm (phase :: others) → Executed nameBuf manager phase next left →
      Stepped nameBuf manager { next with dbPool_ := left :: others }

theorem running {manager next : DBManager} {event : Event}
    (taken : manager.step nameBuf event = .ok next) : manager.ended = false := by
  by_contra ended
  rw [step.eq_def, if_pos (by simpa using ended)] at taken
  cases taken

theorem step_cases {manager next : DBManager} {event : Event}
    (taken : manager.step nameBuf event = .ok next) : Stepped nameBuf manager next := by
  have alive : manager.ended = false := running taken
  cases event with
  | handle packet =>
      simp only [step, alive, Bool.false_eq_true, if_false] at taken
      split at taken
      · cases taken
      · cases taken
        exact .pushed _
  | work index action =>
      simp only [step, alive, Bool.false_eq_true, if_false] at taken
      split at taken
      · cases taken
      · rename_i phase others found
        obtain ⟨⟨after, left⟩, done, taken⟩ := Exec.bind_ok taken
        cases taken
        exact .worked (InFlight.take_perm found) (execute_cases done)

theorem initial_accounted (dbName_ : DbName) (workerCount_ : Nat) :
    (initial dbName_ workerCount_).Accounted nameBuf := by
  refine ⟨rfl, ?_, by simp [initial]⟩
  simp [initial, held, Phase.query]

theorem held_put (manager : DBManager) (phase : Phase) (others : List Phase) :
    held { manager with dbPool_ := phase :: others } =
      phase.query.toList ++ others.filterMap Phase.query := by
  cases held : phase.query with
  | none => simp [DBManager.held, held]
  | some query => simp [DBManager.held, held]

theorem held_take {manager : DBManager} {phase : Phase} {others : List Phase}
    (same : manager.dbPool_.Perm (phase :: others)) :
    manager.held.Perm (phase.query.toList ++ others.filterMap Phase.query) :=
  held_put manager phase others ▸ same.filterMap Phase.query

theorem step_accounted {manager next : DBManager} {event : Event}
    (accounted : manager.Accounted nameBuf) (taken : manager.step nameBuf event = .ok next) :
    next.Accounted nameBuf := by
  obtain ⟨inOrder, shared, answers⟩ := accounted
  cases step_cases taken with
  | pushed query =>
      refine ⟨?_, shared, answers⟩
      simp [pushQuery, inOrder]
  | @worked _ phase _ others same executed =>
      have before := shared.trans ((held_take same).append_right _)
      cases executed with
      | waits quiet =>
          refine ⟨inOrder, ?_, answers⟩
          rw [held_put]
          rcases quiet with rfl | rfl
          · exact before
          · exact before
      | counts =>
          refine ⟨inOrder, ?_, answers⟩
          rw [held_put]
          exact before
      | @pops query queryPool_ waiting =>
          refine ⟨by simp [inOrder, waiting], ?_, answers⟩
          rw [held_put]
          have after := before.append_right [query]
          exact after.trans (List.perm_append_singleton query _)
      | fetches query fetched =>
          refine ⟨inOrder, ?_, answers⟩
          rw [held_put]
          exact before
      | sticks =>
          refine ⟨inOrder, ?_, answers⟩
          rw [held_put]
          exact before
      | ends =>
          refine ⟨inOrder, ?_, answers⟩
          rw [held_put]
          exact before
      | @answers query fetched unset answerable =>
          refine ⟨inOrder, ?_, ?_⟩
          · rw [held_put, List.map_append]
            refine before.trans ?_
            simp only [Phase.query, Option.toList_some, Option.toList_none, List.nil_append,
              List.map_cons, List.map_nil, List.singleton_append, ← List.append_assoc]
            exact (List.perm_append_singleton query _).symm
          · intro answer member
            rcases List.mem_append.mp member with old | new
            · exact answers answer old
            · cases List.mem_singleton.mp new
              exact ⟨answerable, rfl⟩

/-- In every state of every run, whatever the threads do in between. -/
theorem accounted_run (nameBuf : WStr → List UInt8) (dbName_ : DbName) (workerCount_ : Nat)
    (events : List Event) :
    Runs.Always (step nameBuf) (Accounted nameBuf) (initial dbName_ workerCount_) events :=
  Runs.always_of_invariant (fun _ _ _ => step_accounted) (fun _ accounted => accounted) events
    (initial_accounted dbName_ workerCount_)

/-! A thread is lost when it holds a record that does not let the destructor end. -/

def lost (nameBuf : WStr → List UInt8) : Phase → Bool
  | .executed query fetched => !query.answerable nameBuf fetched
  | .stuck _ => true
  | _ => false

/-- A run can go on so that these queries are answered and none waits. -/
def Answers (nameBuf : WStr → List UInt8) (manager : DBManager) (queries : List Query) : Prop :=
  ∃ later final answers, Runs.run (step nameBuf) manager later = .ok final ∧
    final.queryPool_.items = [] ∧ final.answered = manager.answered ++ answers ∧
    answers.map Answer.query = queries

section

variable {manager next : DBManager} {phase left : Phase} {others : List Phase} {index : Nat}
variable {query : Query} {waiting : List Query}

def Returns (nameBuf : WStr → List UInt8) (manager : DBManager) (others : List Phase)
    (query : Query) (waiting : List Query) : Prop :=
  ∃ later next answer, Runs.run (step nameBuf) manager later = .ok next ∧
    next.ended = false ∧ next.dbPool_ = .idle :: others ∧ next.queryPool_.items = waiting ∧
    next.answered = manager.answered ++ [answer] ∧ answer.query = query

theorem Returns.step {event : Event} (taken : manager.step nameBuf event = .ok next)
    (same : next.answered = manager.answered) (returns : next.Returns nameBuf others query waiting) :
    manager.Returns nameBuf others query waiting := by
  obtain ⟨later, final, answer, reached, rest⟩ := returns
  refine ⟨event :: later, final, answer, ?_, same ▸ rest⟩
  rw [Runs.run_cons, taken]
  exact reached

theorem Returns.answers {queries : List Query}
    (returns : manager.Returns nameBuf others query waiting)
    (idle : ∀ next : DBManager, next.ended = false → next.dbPool_ = .idle :: others →
      next.queryPool_.items = waiting → next.Answers nameBuf queries) :
    manager.Answers nameBuf (query :: queries) := by
  obtain ⟨turn, next, answer, reached, alive, first, queue, answered, same⟩ := returns
  obtain ⟨later, final, answers, continued, empty, appended, order⟩ := idle next alive first queue
  refine ⟨turn ++ later, final, answer :: answers, Runs.run_append reached continued, empty, ?_, ?_⟩
  · rw [appended, answered, List.append_assoc]
    rfl
  · rw [List.map_cons, same, order]

end

end DBManager

end DBAgent

end GraduationServer
