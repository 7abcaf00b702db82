import GraduationServer.Library.QuotedLiteral
import GraduationServer.LoginProcess
import GraduationServer.PacketCodec

/-!
`QueryStatement`, and the text that `QI_DB_REQ_ID_PW` sends to the database.
The parameters are put between quotes as they are, in a buffer of fixed size.
-/

namespace GraduationServer

def wideText (text : List Char) : WStr := text.map fun character => UInt16.ofNat character.toNat

def quote : UInt16 := 39

def comma : UInt16 := 44

def blank : UInt16 := 32

def printNat (value : Nat) : WStr := wideText (Nat.toDigits 10 value)

def printInt : Int → WStr
  | .ofNat value => printNat value
  | .negSucc value => 45 :: printNat (value + 1)

def widen (value : Str) : WStr := value.map UInt8.toUInt16

def DB_PARAM_SIZE : Nat := 8192

/-- `_snwprintf_s` with `_TRUNCATE` into a buffer of `DB_PARAM_SIZE`. -/
def snwprintf (formatted : WStr) : WStr := formatted.take (DB_PARAM_SIZE - 1)

inductive QUERY_TYPE where
  | QUERY_NOT_RETURN
  | QUERY_WAIT_RETURN
  | QUERY_CALL_BACK
  deriving DecidableEq

structure QueryStatement where
  type_ : QUERY_TYPE
  query_ : WStr
  paramCount_ : Nat

namespace QueryStatement

def construct (type_ : QUERY_TYPE) : QueryStatement := { type_, query_ := [], paramCount_ := 0 }

def setQuery (statement : QueryStatement) (query : WStr) (type : QUERY_TYPE) : QueryStatement :=
  { statement with query_ := query, type_ := type }

/-- The value is given as its format prints it; the buffer is appended up to its NUL. -/
def addArg (statement : QueryStatement) (formatted : WStr) : QueryStatement :=
  let buffer := (snwprintf formatted).takeWhile (· ≠ 0)
  let separator := if statement.paramCount_ ≠ 0 then [comma, blank] else [blank]
  { statement with
    query_ := statement.query_ ++ separator ++ buffer
    paramCount_ := statement.paramCount_ + 1 }

def addParam (statement : QueryStatement) (value : Str) : QueryStatement :=
  statement.addArg (quote :: widen (Stream.cString value) ++ [quote])

def addNumber (statement : QueryStatement) (value : UInt64) : QueryStatement :=
  statement.addArg (quote :: printNat value.toNat ++ [quote])

def query (statement : QueryStatement) : WStr := statement.query_.takeWhile (· ≠ 0)

end QueryStatement

namespace QI_DB_REQ_ID_PW

def procedure : WStr :=
  wideText ['p', '_', 'A', 'c', 'c', 'o', 'u', 'n', 't', 'D', 'a', 't', 'a', '_', 'S', 'e', 'l',
    'e', 'c', 't']

/-- The statement of the query that `I_DB_REQ_ID_PW` pushes; `unset` stands in
the type before `setQuery`. -/
def statement (unset : QUERY_TYPE) (id_ password_ : Str) : QueryStatement :=
  let statement := (QueryStatement.construct unset).setQuery procedure .QUERY_CALL_BACK
  (statement.addParam id_).addParam password_

end QI_DB_REQ_ID_PW

namespace QI_DB_REQ_LOAD_DATA

def procedure : WStr :=
  wideText ['p', '_', 'C', 'h', 'a', 'r', 'a', 'c', 't', 'e', 'r', '_', 'S', 'e', 'l', 'e', 'c',
    't']

def statement (unset : QUERY_TYPE) (oidAccountId_ : UInt64) : QueryStatement :=
  ((QueryStatement.construct unset).setQuery procedure .QUERY_CALL_BACK).addNumber oidAccountId_

end QI_DB_REQ_LOAD_DATA

/-! How T-SQL reads a call: a name, and literals between commas. -/

namespace TransactSql

def skipBlanks (text : WStr) : WStr := text.dropWhile (· = blank)

def afterComma : WStr → Option WStr
  | [] => none
  | symbol :: rest => if symbol = comma then some rest else none

/-- A procedure name followed by exactly two string literals. -/
def parseCall (text : WStr) : Option (WStr × WStr × WStr) := do
  let name := text.takeWhile (· ≠ blank)
  let arguments := text.dropWhile (· ≠ blank)
  let (first, rest) ← QuotedLiteral.literal quote (skipBlanks arguments)
  let rest ← afterComma (skipBlanks rest)
  let (second, rest) ← QuotedLiteral.literal quote (skipBlanks rest)
  if skipBlanks rest = [] then some (name, first, second) else none

end TransactSql

/-- A value that the text can carry: no quote is in it, and it fits the buffer
between two. -/
structure Plain (value : Str) : Prop where
  unquoted : 39 ∉ value
  short : value.length + 2 < DB_PARAM_SIZE

theorem widen_mem {value : Str} (symbol : UInt8) :
    symbol.toUInt16 ∈ widen value ↔ symbol ∈ value := by
  simp only [widen, List.mem_map]
  constructor
  · rintro ⟨other, member, same⟩
    have equal : other = symbol := by
      rw [← UInt8.toNat_inj, ← UInt8.toNat_toUInt16 other, same, UInt8.toNat_toUInt16]
    exact equal ▸ member
  · intro member
    exact ⟨symbol, member, rfl⟩

def printed (value : Str) : WStr := snwprintf (quote :: widen value ++ [quote])

theorem printed_nulFree {value : Str} (nulFree : 0 ∉ value) : 0 ∉ printed value := by
  intro member
  have inside : (0 : UInt16) ∈ quote :: widen value ++ [quote] := List.mem_of_mem_take member
  simp only [List.cons_append, List.mem_cons, List.mem_append, List.not_mem_nil, or_false] at inside
  rcases inside with mark | zero | mark
  · exact absurd mark (by decide)
  · exact nulFree ((widen_mem 0).mp zero)
  · exact absurd mark (by decide)

theorem takeWhile_nulFree {text : WStr} (nulFree : 0 ∉ text) : text.takeWhile (· ≠ 0) = text := by
  rw [List.takeWhile_eq_self_iff]
  intro symbol member
  simp only [ne_eq, decide_eq_true_eq]
  rintro rfl
  exact nulFree member

theorem query_eq (unset : QUERY_TYPE) {id_ password_ : Str} (idNulFree : 0 ∉ id_)
    (passwordNulFree : 0 ∉ password_) :
    (QI_DB_REQ_ID_PW.statement unset id_ password_).query =
      QI_DB_REQ_ID_PW.procedure ++
        blank :: (printed id_ ++ comma :: blank :: printed password_) := by
  have idText : Stream.cString id_ = id_ := (Packet.cString_eq_self_iff id_).mpr idNulFree
  have passwordText : Stream.cString password_ = password_ :=
    (Packet.cString_eq_self_iff password_).mpr passwordNulFree
  have idPrinted := takeWhile_nulFree (printed_nulFree idNulFree)
  have passwordPrinted := takeWhile_nulFree (printed_nulFree passwordNulFree)
  simp only [printed] at idPrinted passwordPrinted
  have text : (QI_DB_REQ_ID_PW.statement unset id_ password_).query_ =
      QI_DB_REQ_ID_PW.procedure ++
        blank :: (printed id_ ++ comma :: blank :: printed password_) := by
    simp only [QI_DB_REQ_ID_PW.statement, QueryStatement.construct, QueryStatement.setQuery,
      QueryStatement.addParam, QueryStatement.addArg, idText, passwordText, idPrinted,
      passwordPrinted, printed]
    simp
  rw [QueryStatement.query, text]
  apply takeWhile_nulFree
  simp only [List.mem_append, List.mem_cons, not_or]
  exact ⟨by decide, by decide, printed_nulFree idNulFree, by decide, by decide,
    printed_nulFree passwordNulFree⟩

/-! A text with the two values as they are has four quotes and those in the
values, less the closing ones that are cut off. -/

theorem printed_short {value : Str} (short : value.length + 2 < DB_PARAM_SIZE) :
    printed value = quote :: (widen value ++ [quote]) := by
  apply List.take_of_length_le
  simp only [List.length_cons, List.length_append, widen, List.length_map, List.length_nil]
  omega

theorem printed_count (value : Str) :
    (printed value).count quote ≤ (widen value).count quote + 2 := by
  have cut := List.take_sublist (DB_PARAM_SIZE - 1) (quote :: widen value ++ [quote])
  have part := cut.count_le quote
  simpa [printed, snwprintf, Nat.add_assoc] using part

theorem printed_count_long {value : Str} (long : ¬ value.length + 2 < DB_PARAM_SIZE) :
    (printed value).count quote ≤ (widen value).count quote + 1 := by
  have cut : printed value = (quote :: widen value).take (DB_PARAM_SIZE - 1) := by
    apply List.take_append_of_le_length
    simp only [List.length_cons, widen, List.length_map]
    omega
  have part := (List.take_sublist (DB_PARAM_SIZE - 1) (quote :: widen value)).count_le quote
  rw [cut]
  simpa using part

theorem plain_of_count {value : Str}
    (counted : 2 * (widen value).count quote + 2 ≤ (printed value).count quote) : Plain value := by
  have most := printed_count value
  constructor
  · intro member
    have present : 0 < (widen value).count quote :=
      List.count_pos_iff.mpr ((widen_mem 39).mpr member)
    omega
  · by_contra long
    have fewer := printed_count_long long
    omega

theorem printed_count_le (value : Str) :
    (printed value).count quote ≤ 2 * (widen value).count quote + 2 := by
  have most := printed_count value
  omega

namespace TransactSql

theorem skipBlanks_count (text : WStr) : (skipBlanks text).count quote ≤ text.count quote :=
  (List.dropWhile_sublist _).count_le quote

theorem parseCall_count {text name first second : WStr}
    (parsed : parseCall text = some (name, first, second)) :
    (2 * first.count quote + 2) + (2 * second.count quote + 2) ≤ text.count quote := by
  simp only [parseCall, Option.bind_eq_bind, Option.bind_eq_some_iff] at parsed
  obtain ⟨⟨value, behind⟩, opened, rest, separated, ⟨other, finish⟩, closed, ended⟩ := parsed
  have arguments : (text.dropWhile (· ≠ blank)).count quote ≤ text.count quote :=
    (List.dropWhile_sublist _).count_le quote
  have skipped := skipBlanks_count (text.dropWhile (· ≠ blank))
  have one := QuotedLiteral.literal_count opened
  have between := skipBlanks_count behind
  have separator : rest.count quote ≤ (skipBlanks behind).count quote := by
    cases held : skipBlanks behind with
    | nil => simp [held, afterComma] at separated
    | cons symbol later =>
        rw [held, afterComma] at separated
        split at separated
        · cases separated
          exact (List.sublist_cons_self _ _).count_le quote
        · cases separated
  have next := skipBlanks_count rest
  have two := QuotedLiteral.literal_count closed
  simp only at ended
  split at ended
  · cases ended
    omega
  · cases ended

end TransactSql

theorem printed_read {value : Str} (plain : Plain value) (rest : WStr)
    (ends : rest.head? ≠ some quote) :
    QuotedLiteral.literal quote (printed value ++ rest) = some (widen value, rest) := by
  have unquoted : quote ∉ widen value := by
    intro member
    exact plain.unquoted ((widen_mem 39).mp member)
  rw [printed_short plain.short, List.cons_append, List.append_assoc]
  exact QuotedLiteral.literal_plain unquoted ends

theorem procedure_name (arguments : WStr) :
    (QI_DB_REQ_ID_PW.procedure ++ blank :: arguments).takeWhile (· ≠ blank) =
      QI_DB_REQ_ID_PW.procedure ∧
    (QI_DB_REQ_ID_PW.procedure ++ blank :: arguments).dropWhile (· ≠ blank) =
      blank :: arguments := by
  have absent : blank ∉ QI_DB_REQ_ID_PW.procedure := List.count_eq_zero.mp (by decide)
  have word : ∀ symbol ∈ QI_DB_REQ_ID_PW.procedure, decide (symbol ≠ blank) = true := by
    intro symbol member
    rw [decide_eq_true_eq]
    rintro rfl
    exact absent member
  constructor
  · rw [List.takeWhile_append_of_pos word]
    simp
  · rw [List.dropWhile_append_of_pos word]
    simp

theorem parse_plain {id_ password_ : Str} (idPlain : Plain id_) (passwordPlain : Plain password_) :
    TransactSql.parseCall (QI_DB_REQ_ID_PW.procedure ++
      blank :: (printed id_ ++ comma :: blank :: printed password_)) =
      some (QI_DB_REQ_ID_PW.procedure, widen id_, widen password_) := by
  have first := printed_read idPlain (comma :: blank :: printed password_) (by
    intro same
    cases same)
  have second := printed_read passwordPlain [] (by
    intro same
    cases same)
  rw [List.append_nil] at second
  have started (text : WStr) : TransactSql.skipBlanks (blank :: quote :: text) = quote :: text :=
    rfl
  obtain ⟨name, arguments⟩ := procedure_name (printed id_ ++ comma :: blank :: printed password_)
  have idStart := printed_short idPlain.short
  have passwordStart := printed_short passwordPlain.short
  have behindBlank : TransactSql.skipBlanks (blank :: (printed id_ ++ comma :: blank ::
      printed password_)) = printed id_ ++ comma :: blank :: printed password_ := by
    rw [idStart]
    exact started _
  have behindComma : TransactSql.skipBlanks (blank :: printed password_) = printed password_ := by
    rw [passwordStart]
    exact started _
  have separator : TransactSql.skipBlanks (comma :: blank :: printed password_) =
      comma :: blank :: printed password_ := rfl
  simp only [TransactSql.parseCall, name, arguments, behindBlank, first, Option.bind_eq_bind,
    Option.bind_some, separator, TransactSql.afterComma, if_true, behindComma, second]
  rfl

/-- The text is read as the call that is meant exactly where both values are plain. -/
theorem query_parses_iff (unset : QUERY_TYPE) (id_ password_ : Str) (idNulFree : 0 ∉ id_)
    (passwordNulFree : 0 ∉ password_) :
    TransactSql.parseCall (QI_DB_REQ_ID_PW.statement unset id_ password_).query =
      some (QI_DB_REQ_ID_PW.procedure, widen id_, widen password_) ↔
      Plain id_ ∧ Plain password_ := by
  rw [query_eq unset idNulFree passwordNulFree]
  constructor
  · intro parsed
    have counted := TransactSql.parseCall_count parsed
    have name : QI_DB_REQ_ID_PW.procedure.count quote = 0 := by decide
    have idMost := printed_count_le id_
    have passwordMost := printed_count_le password_
    rw [List.count_append, name, List.count_cons_of_ne (by decide), List.count_append,
      List.count_cons_of_ne (by decide), List.count_cons_of_ne (by decide)] at counted
    exact ⟨plain_of_count (by omega), plain_of_count (by omega)⟩
  · rintro ⟨idPlain, passwordPlain⟩
    exact parse_plain idPlain passwordPlain

theorem query_parses_iff_plain :
    TransactSql.parseCall (QI_DB_REQ_ID_PW.statement .QUERY_NOT_RETURN [105, 100] [112, 119]).query =
      some (QI_DB_REQ_ID_PW.procedure, widen [105, 100], widen [112, 119]) ↔
      Plain [105, 100] ∧ Plain [112, 119] :=
  query_parses_iff .QUERY_NOT_RETURN [105, 100] [112, 119] (by decide) (by decide)

/-- The id `a', 'b` makes a third literal. -/
theorem query_injected :
    TransactSql.parseCall (QI_DB_REQ_ID_PW.statement .QUERY_NOT_RETURN
      [97, 39, 44, 32, 39, 98] [112]).query ≠
      some (QI_DB_REQ_ID_PW.procedure, widen [97, 39, 44, 32, 39, 98], widen [112]) := by
  decide

end GraduationServer
