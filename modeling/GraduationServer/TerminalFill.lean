import GraduationServer.CompletePayload
import GraduationServer.TerminalReceive

/-!
`TerminalSession::onRecv` over what `::recv` returns, failures and the end of
the connection included. Whatever it is, it is added to `ret`, and only
`packetLen` ends the loop that completes a frame.
-/

namespace GraduationServer

namespace TerminalSession

/-- No data is the end of the connection. -/
inductive RecvResult where
  | SOCKET_ERROR
  | bytes (data : List UInt8)

def RecvResult.value : RecvResult → Int
  | .SOCKET_ERROR => -1
  | .bytes data => data.length

def RecvResult.write (rowData : List UInt8) (ret : Int) : RecvResult → List UInt8
  | .SOCKET_ERROR => rowData
  | .bytes data => ZeroFilled.write rowData ret.toNat data

/-- The loop, with the calls of `::recv` that it is given. It faults where it
asks for a negative length, where `int` overflows, and where bytes arrive
outside of `rowData`. -/
def complete (packetLen : Int32) :
    Nat → List UInt8 → Int → (Nat → RecvResult) → Exec (List UInt8)
  | 0, _, _, _ => .error .endlessLoop
  | turns + 1, rowData, ret, results =>
      if ret < packetLen.toInt then
        let asked := SOCKET_BUF_SIZE - ret
        if asked < 0 ∨ 2 ^ 31 ≤ asked then .error .badLength
        else if 0 < (results 0).value ∧ (ret < 0 ∨ asked < (results 0).value) then
          .error .outOfBounds
        else
          complete packetLen turns ((results 0).write rowData ret) (ret + (results 0).value)
            fun call => results (call + 1)
      else .ok rowData

/-- `memory` is what the array and the bytes behind it held before. The analyzer
gets `packetLen` for the size of what is behind the header. -/
def onRecvFrom (unset : Nat → Int32) (memory : List UInt8) (turns : Nat)
    (results : Nat → RecvResult) : Exec (Option Packet) :=
  match results 0 with
  | .SOCKET_ERROR | .bytes [] => .ok none
  | .bytes first => do
      let packetLen := packetLen memory first
      let rowData ← complete packetLen turns (rowData memory first) first.length
        fun call => results (call + 1)
      PacketAnalyzer.analyzer unset (rowData.drop 4) (toSize packetLen)

def progress (ret : Int) (results : Nat → RecvResult) : Nat → Int
  | 0 => ret
  | calls + 1 => progress ret results calls + (results calls).value

theorem progress_shift (ret : Int) (results : Nat → RecvResult) (calls : Nat) :
    progress (ret + (results 0).value) (fun call => results (call + 1)) calls =
      progress ret results (calls + 1) := by
  induction calls with
  | zero => rfl
  | succ calls ih =>
      rw [progress, ih]
      rfl

def content (rowData : List UInt8) (ret : Int) (results : Nat → RecvResult) : Nat → List UInt8
  | 0 => rowData
  | calls + 1 => (results calls).write (content rowData ret results calls)
      (progress ret results calls)

theorem content_shift (rowData : List UInt8) (ret : Int) (results : Nat → RecvResult)
    (calls : Nat) :
    content ((results 0).write rowData ret) (ret + (results 0).value)
        (fun call => results (call + 1)) calls =
      content rowData ret results (calls + 1) := by
  induction calls with
  | zero => rfl
  | succ calls ih =>
      rw [content, ih, progress_shift]
      rfl

def WithinAsked (packetLen : Int32) (ret : Int) (results : Nat → RecvResult) : Prop :=
  ∀ call, (∀ earlier ≤ call, progress ret results earlier < packetLen.toInt) →
    0 < (results call).value → (results call).value ≤ SOCKET_BUF_SIZE - progress ret results call

/-- After so many calls enough has come. Until then no bytes come while failures
have made `ret` negative, and there are fewer failures than `int` can count. -/
structure CompletesAfter (packetLen : Int32) (ret : Int) (results : Nat → RecvResult)
    (calls : Nat) : Prop where
  enough : packetLen.toInt ≤ progress ret results calls
  waits : ∀ earlier < calls, progress ret results earlier < packetLen.toInt
  counts : ∀ earlier < calls, SOCKET_BUF_SIZE - 2 ^ 31 < progress ret results earlier
  inFront : ∀ earlier < calls, 0 < (results earlier).value → 0 ≤ progress ret results earlier

theorem WithinAsked.shift {packetLen : Int32} {ret : Int} {results : Nat → RecvResult}
    (within : WithinAsked packetLen ret results) (short : ret < packetLen.toInt) :
    WithinAsked packetLen (ret + (results 0).value) fun call => results (call + 1) := by
  intro call waiting
  have started : ∀ earlier ≤ call + 1, progress ret results earlier < packetLen.toInt := by
    intro earlier inside
    cases earlier with
    | zero => exact short
    | succ earlier =>
        rw [← progress_shift]
        exact waiting earlier (by omega)
  rw [progress_shift]
  exact within (call + 1) started

theorem forall_lt_succ_iff {calls : Nat} {property : Nat → Prop} :
    (∀ earlier < calls + 1, property earlier) ↔
      property 0 ∧ ∀ earlier < calls, property (earlier + 1) := by
  constructor
  · intro every
    exact ⟨every 0 (by omega), fun earlier inside => every (earlier + 1) (by omega)⟩
  · rintro ⟨first, others⟩ earlier inside
    cases earlier with
    | zero => exact first
    | succ earlier => exact others earlier (by omega)

theorem completesAfter_succ {packetLen : Int32} {ret : Int} {results : Nat → RecvResult}
    {calls : Nat} :
    CompletesAfter packetLen ret results (calls + 1) ↔
      (ret < packetLen.toInt ∧ SOCKET_BUF_SIZE - 2 ^ 31 < ret ∧
        (0 < (results 0).value → 0 ≤ ret)) ∧
      CompletesAfter packetLen (ret + (results 0).value) (fun call => results (call + 1)) calls := by
  constructor
  · rintro ⟨enough, waits, counts, inFront⟩
    rw [forall_lt_succ_iff] at waits counts inFront
    refine ⟨⟨waits.1, counts.1, inFront.1⟩, ?_⟩
    constructor
    · rw [progress_shift]
      exact enough
    all_goals
      intro earlier inside
      rw [progress_shift]
    · exact waits.2 earlier inside
    · exact counts.2 earlier inside
    · exact inFront.2 earlier inside
  · rintro ⟨⟨short, counted, positive⟩, enough, waits, counts, inFront⟩
    simp only [progress_shift] at enough waits counts inFront
    constructor
    · exact enough
    all_goals rw [forall_lt_succ_iff]
    · exact ⟨short, waits⟩
    · exact ⟨counted, counts⟩
    · exact ⟨positive, inFront⟩

theorem complete_ok {packetLen : Int32} {turns : Nat} {ret : Int} {row filled : List UInt8}
    {results : Nat → RecvResult} (done : complete packetLen turns row ret results = .ok filled) :
    ∃ calls, CompletesAfter packetLen ret results calls ∧ content row ret results calls = filled := by
  induction turns generalizing row ret results with
  | zero => cases done
  | succ turns ih =>
      by_cases short : ret < packetLen.toInt
      · rw [complete, if_pos short] at done
        dsimp only at done
        split_ifs at done with length outside
        obtain ⟨calls, completes, same⟩ := ih done
        rw [content_shift] at same
        exact ⟨calls + 1, completesAfter_succ.mpr ⟨⟨short, by omega, by omega⟩, completes⟩, same⟩
      · rw [complete, if_neg short] at done
        cases done
        refine ⟨0, ⟨Int.not_lt.mp short, ?_, ?_, ?_⟩, rfl⟩ <;> intro earlier inside <;> omega

theorem complete_after {packetLen : Int32} {calls : Nat} {ret : Int} (row : List UInt8)
    {results : Nat → RecvResult} (inside : ret ≤ SOCKET_BUF_SIZE)
    (within : WithinAsked packetLen ret results)
    (completes : CompletesAfter packetLen ret results calls) :
    complete packetLen (calls + 1) row ret results = .ok (content row ret results calls) := by
  induction calls generalizing row ret results with
  | zero =>
      have full : ¬ ret < packetLen.toInt := Int.not_lt.mpr completes.enough
      rw [complete, if_neg full]
      rfl
  | succ calls ih =>
      obtain ⟨⟨short, counted, positive⟩, later⟩ := completesAfter_succ.mp completes
      have asked : 0 < (results 0).value → (results 0).value ≤ SOCKET_BUF_SIZE - ret :=
        within 0 fun earlier none_ => by
          obtain rfl : earlier = 0 := by omega
          exact short
      have legal : ¬ (SOCKET_BUF_SIZE - ret < 0 ∨ 2 ^ 31 ≤ SOCKET_BUF_SIZE - ret) := by omega
      have arrives : ¬ (0 < (results 0).value ∧
          (ret < 0 ∨ SOCKET_BUF_SIZE - ret < (results 0).value)) := by omega
      rw [complete, if_pos short]
      simp only [if_neg legal, if_neg arrives]
      rw [ih _ (by omega) (within.shift short) later, content_shift]

theorem recv_length {size : Nat} {chunks later : List (List UInt8)} {bytes : List UInt8}
    (taken : recv size chunks = some (bytes, later)) : bytes.length ≤ size := by
  by_cases nothing : bytes = []
  · simp [nothing]
  · obtain ⟨chunk, rest, -, rfl⟩ := (recv_taken taken).2.1 nothing
    exact List.length_take_le _ _

theorem write_end (memory received bytes : List UInt8) :
    ZeroFilled.write (rowData memory received) received.length bytes =
      rowData memory (received ++ bytes) := by
  have start := ZeroFilled.read_start received (memory.drop received.length)
  have rest : (received ++ memory.drop received.length).drop (received.length + bytes.length) =
      memory.drop (received ++ bytes).length := by
    rw [← List.drop_drop, List.drop_left, List.drop_drop, List.length_append]
  rw [ZeroFilled.write, rowData, start, rest, rowData]

theorem fill_complete (memory : List UInt8) {packetLen : Int32} {turns : Nat}
    {received total : List UInt8}
    {chunks later : List (List UInt8)} (inside : received.length ≤ SOCKET_BUF_SIZE)
    (filled : fill packetLen turns received chunks = .ok (some (total, later))) :
    ∃ data : List (List UInt8), ∀ results : Nat → RecvResult,
      (∀ call bytes, data[call]? = some bytes → results call = .bytes bytes) →
        complete packetLen turns (rowData memory received) received.length results =
          .ok (rowData memory total) := by
  induction turns generalizing received chunks with
  | zero => cases filled
  | succ turns ih =>
      by_cases short : (received.length : Int) < packetLen.toInt
      · rw [fill, if_pos short] at filled
        cases got : recv (SOCKET_BUF_SIZE - received.length) chunks with
        | none => simp [got] at filled
        | some result =>
            obtain ⟨bytes, rest⟩ := result
            simp only [got] at filled
            have most := recv_length got
            obtain ⟨data, others⟩ := ih (by rw [List.length_append]; omega) filled
            refine ⟨bytes :: data, ?_⟩
            intro results given
            have first : (results 0).value = bytes.length := by rw [given 0 bytes rfl]; rfl
            have written : (results 0).write (rowData memory received) received.length =
                rowData memory (received ++ bytes) := by
              rw [given 0 bytes rfl, ← write_end]
              rfl
            rw [complete, if_pos short]
            dsimp only
            rw [SOCKET_BUF_SIZE] at inside most ⊢
            rw [if_neg (by omega), written, first, if_neg (by omega), ← Int.natCast_add,
              ← List.length_append]
            exact others _ fun call later_ at_ => given (call + 1) later_ at_
      · rw [fill, if_neg short] at filled
        cases filled
        refine ⟨[], ?_⟩
        intro results _
        rw [complete, if_neg short]

theorem analyzer_of_analyze {unset : Nat → Int32} {rowData : List UInt8} {packetLen : Int32}
    {result : Option Packet} (analyzed : analyze unset rowData packetLen = .ok result) :
    PacketAnalyzer.analyzer unset (rowData.drop 4) (toSize packetLen) = .ok result := by
  rw [analyze] at analyzed
  split at analyzed
  · cases analyzed
  · exact analyzed

theorem onRecv_from {unset : Nat → Int32} {memory : List UInt8} {chunks later : List (List UInt8)}
    {packet : Packet} (taken : onRecv unset memory chunks = .ok (.package packet later)) :
    ∃ data : List (List UInt8), ∀ results : Nat → RecvResult,
      (∀ call bytes, data[call]? = some bytes → results call = .bytes bytes) →
        onRecvFrom unset memory (SOCKET_BUF_SIZE + 1) results = .ok (some packet) := by
  unfold onRecv at taken
  split at taken
  · cases taken
  · cases taken
  · rename_i first rest some_bytes got
    obtain ⟨filled, fillEq, afterFill⟩ := Exec.bind_ok taken
    cases filled with
    | none => cases afterFill
    | some result =>
        obtain ⟨total, left⟩ := result
        obtain ⟨analyzed, analyzeEq, result⟩ := Exec.bind_ok afterFill
        cases analyzed with
        | none => cases result
        | some other =>
            cases result
            obtain ⟨data, completes⟩ := fill_complete memory (recv_length got) fillEq
            refine ⟨first :: data, ?_⟩
            intro results given
            have completed := completes (fun call => results (call + 1))
              fun call bytes at_ => given (call + 1) bytes at_
            rw [onRecvFrom, given 0 first rfl]
            obtain ⟨byte, others, rfl⟩ := List.exists_cons_of_ne_nil some_bytes
            show (complete _ _ _ _ _).bind _ = _
            rw [completed]
            exact analyzer_of_analyze analyzeEq

theorem progress_quiet {ret : Int} {results : Nat → RecvResult}
    (quiet : ∀ call, (results call).value ≤ 0) (calls : Nat) :
    progress ret results calls ≤ ret := by
  induction calls with
  | zero => exact Int.le_refl _
  | succ calls ih =>
      have silent := quiet calls
      rw [progress]
      omega

/-- A frame that is cut off is waited for without end. -/
theorem complete_quiet {packetLen : Int32} {turns : Nat} {ret : Int} {row filled : List UInt8}
    {results : Nat → RecvResult} (quiet : ∀ call, (results call).value ≤ 0)
    (short : ret < packetLen.toInt) : complete packetLen turns row ret results ≠ .ok filled := by
  intro done
  obtain ⟨calls, completes, -⟩ := complete_ok done
  have least : progress ret results calls ≤ ret := progress_quiet quiet calls
  have enough := completes.enough
  omega

structure Answers (memory : List UInt8) (results : Nat → RecvResult) : Prop where
  first : (results 0).value ≤ SOCKET_BUF_SIZE
  later : ∀ first, results 0 = .bytes first →
    WithinAsked (packetLen memory first) first.length fun call => results (call + 1)

/-- The analyzer knows no class for the type, has no payload to read, or gets one that the
stream can hold and that no string leads back in. -/
def Analyzable (unset : Nat → Int32) (rowPacket : List UInt8) (size : Nat) : Prop :=
  let packetType := LittleEndian.decode (ZeroFilled.read rowPacket 0 8)
  PacketFactory.getPacket packetType = none ∨ size ≤ 8 ∨
    size - 8 ≤ SOCKET_BUF_SIZE ∧
      ¬ DecodeThrows unset packetType (ZeroFilled.read rowPacket 8 (size - 8))

theorem analyzer_ok_iff (unset : Nat → Int32) (rowPacket : List UInt8) (size : Nat) :
    (∃ result, PacketAnalyzer.analyzer unset rowPacket size = .ok result) ↔
      Analyzable unset rowPacket size := by
  cases built : PacketFactory.getPacket
      (LittleEndian.decode (ZeroFilled.read rowPacket 0 8)) with
  | none => simp [PacketAnalyzer.analyzer, Analyzable, built]
  | some fresh =>
      by_cases none_left : size ≤ 8
      · simp [PacketAnalyzer.analyzer, Analyzable, built, none_left, Nat.not_lt.mpr none_left]
      · have some_payload : 8 < size := Nat.lt_of_not_le none_left
        have length : (ZeroFilled.read rowPacket 8 (size - 8)).length = size - 8 := by
          simp [ZeroFilled.read]
        have payload := fun small => decode_throws_iff
          (w := ZeroFilled.read rowPacket 8 (size - 8)) (length.trans_le small) unset fresh
        simp only [PacketAnalyzer.analyzer, Analyzable, DecodeThrows, built, some_payload, none_left,
          if_true, reduceCtorEq, false_or, Option.some.injEq, exists_eq_left', Stream.set, length]
        by_cases long : SOCKET_BUF_SIZE < size - 8
        · have beyond : ¬ size - 8 ≤ SOCKET_BUF_SIZE := Nat.not_le.mpr long
          simp only [if_pos long, beyond, false_and, iff_false]
          rintro ⟨result, done⟩
          cases done
        · have small := Nat.le_of_not_lt long
          have throws := payload small
          rw [length] at throws
          rw [← throws]
          simp only [if_neg long, small, true_and, Stream.initial, Stream.cursor, List.nil_append,
            List.length_nil, bind, Except.bind]
          cases fresh.decode unset
              { stream_ := ZeroFilled.read rowPacket 8 (size - 8), readPt_ := 0 } with
          | error reason => simp
          | ok result => simp [pure, Except.pure]

/-- `onRecv` comes back without a fault exactly when it gets nothing at first, or the
announced length is reached by what the calls return and the analyzer then comes back. -/
theorem onRecv_returns_iff (unset : Nat → Int32) (memory : List UInt8) (results : Nat → RecvResult)
    (answers : Answers memory results) :
    (∃ turns result, onRecvFrom unset memory turns results = .ok result) ↔
      (results 0).value ≤ 0 ∨ ∃ first calls, results 0 = .bytes first ∧
        CompletesAfter (packetLen memory first) first.length
          (fun call => results (call + 1)) calls ∧
        Analyzable unset
          ((content (rowData memory first) first.length
            (fun call => results (call + 1)) calls).drop 4)
          (toSize (packetLen memory first)) := by
  have room := answers.first
  cases got : results 0 with
  | SOCKET_ERROR =>
      refine iff_of_true ⟨0, none, by rw [onRecvFrom, got]⟩ (Or.inl ?_)
      decide
  | bytes data =>
      cases data with
      | nil => exact iff_of_true ⟨0, none, by rw [onRecvFrom, got]⟩ (Or.inl (Int.le_refl _))
      | cons byte rest =>
          replace room : ((byte :: rest).length : Int) ≤ SOCKET_BUF_SIZE := by
            rw [got] at room
            exact room
          constructor
          · rintro ⟨turns, result, done⟩
            rw [onRecvFrom, got] at done
            obtain ⟨filled, completed, analyzed⟩ := Exec.bind_ok done
            obtain ⟨calls, completes, rfl⟩ := complete_ok completed
            exact Or.inr ⟨byte :: rest, calls, rfl, completes,
              (analyzer_ok_iff unset _ _).mp ⟨result, analyzed⟩⟩
          · rintro (nothing | ⟨first, calls, same, completes, analyzable⟩)
            · simp only [RecvResult.value, List.length_cons] at nothing
              omega
            · cases same
              have done := complete_after (rowData memory (byte :: rest)) room
                (answers.later _ got) completes
              obtain ⟨result, analyzed⟩ := (analyzer_ok_iff unset _ _).mpr analyzable
              refine ⟨calls + 1, result, ?_⟩
              rw [onRecvFrom, got]
              show (complete _ _ _ _ _).bind _ = _
              rw [done]
              exact analyzed

def thenClosed (pieces : List (List UInt8)) (call : Nat) : RecvResult :=
  .bytes (pieces.getD call [])

theorem thenClosed_value (pieces : List (List UInt8)) (call : Nat) :
    (thenClosed pieces call).value = (pieces.getD call []).length := rfl

theorem thenClosed_progress (first : List UInt8) (pieces : List (List UInt8)) (calls : Nat) :
    progress first.length (fun call => thenClosed (first :: pieces) (call + 1)) calls =
      (first ++ (pieces.take calls).flatten).length := by
  induction calls with
  | zero => simp [progress]
  | succ calls ih =>
      rw [progress, ih, thenClosed_value, List.getD_cons_succ, List.take_add_one,
        List.getD_eq_getElem?_getD]
      cases pieces[calls]? with
      | none => simp
      | some piece => simp [add_assoc]

theorem thenClosed_answers (memory first : List UInt8) {pieces : List (List UInt8)}
    (fits : (first ++ pieces.flatten).length ≤ SOCKET_BUF_SIZE) :
    Answers memory (thenClosed (first :: pieces)) := by
  have start : (first ++ pieces.flatten).length = first.length + pieces.flatten.length :=
    List.length_append
  constructor
  · rw [thenClosed_value, List.getD_cons_zero]
    omega
  · intro data same call _ _
    obtain rfl : first = data := RecvResult.bytes.inj same
    have next := thenClosed_progress first pieces (call + 1)
    have whole : (first ++ (pieces.take (call + 1)).flatten).length +
        (pieces.drop (call + 1)).flatten.length = (first ++ pieces.flatten).length := by
      rw [← List.length_append, List.append_assoc, ← List.flatten_append, List.take_append_drop]
    simp only [progress] at next ⊢
    omega

def answer : Packet := .PK_I_DB_ANS_PARSE_DATA 1 [97, 98] 1

def answerPieces : List (List UInt8) :=
  [answer.frame.take 10, (answer.frame.drop 10).take 9, answer.frame.drop 19]

theorem onRecv_returns_iff_answer :
    ((∃ turns result, onRecvFrom (fun _ => 0) [] turns (thenClosed answerPieces) = .ok result) ↔
      (thenClosed answerPieces 0).value ≤ 0 ∨ ∃ first calls,
        thenClosed answerPieces 0 = .bytes first ∧
        CompletesAfter (packetLen [] first) first.length
          (fun call => thenClosed answerPieces (call + 1)) calls ∧
        Analyzable (fun _ => 0)
          ((content (rowData [] first) first.length
            (fun call => thenClosed answerPieces (call + 1)) calls).drop 4)
          (toSize (packetLen [] first))) ∧
      onRecvFrom (fun _ => 0) [] 3 (thenClosed answerPieces) = .ok (some answer) :=
  ⟨onRecv_returns_iff (fun _ => 0) [] (thenClosed answerPieces)
    (thenClosed_answers [] (answer.frame.take 10) (by decide)), by decide⟩

/-- The peer closes the connection four bytes before the end of the frame, and
`::recv` returns zero from then on. -/
theorem onRecv_cut_off :
    ¬ ∀ unset memory results, Answers memory results →
      (∃ last, ∀ call, last ≤ call → (results call).value ≤ 0) →
        ∃ turns result, onRecvFrom unset memory turns results = .ok result := by
  intro every
  let header : List UInt8 := [12, 0, 0, 0, 1, 0, 0, 0]
  have quiet : ∀ call, (thenClosed [header] (call + 1)).value ≤ 0 := by
    intro call
    rw [thenClosed_value, List.getD_cons_succ, List.getD_nil]
    decide
  obtain ⟨turns, result, done⟩ := every (fun _ => 0) [] (thenClosed [header])
    (thenClosed_answers [] header (by decide)) ⟨1, fun call later => by
      obtain ⟨earlier, rfl⟩ : ∃ earlier, call = earlier + 1 := ⟨call - 1, by omega⟩
      exact quiet earlier⟩
  obtain ⟨filled, completed, -⟩ := Exec.bind_ok done
  exact complete_quiet quiet (by decide) completed

end TerminalSession

end GraduationServer
