import GraduationServer.TinyXml
import GraduationServer.Library.Contracts
import Mathlib.Data.List.Infix

/-!
A text whose last character is whole is parsed to its end: every parser leaves a
later place of the same text, and the stamp follows it.
-/

namespace GraduationServer

namespace TinyXml

open Contracts

/-- No byte of the text announces more bytes than there are. -/
def WholeText : Str → Prop
  | [] => True
  | c :: rest => utf8ByteTable c ≤ rest.length + 1 ∧ WholeText rest

instance decidableWholeText : (p : Str) → Decidable (WholeText p)
  | [] => inferInstanceAs (Decidable True)
  | c :: rest =>
      have := decidableWholeText rest
      inferInstanceAs (Decidable (utf8ByteTable c ≤ rest.length + 1 ∧ WholeText rest))

theorem WholeText.suffix {p q : Str} (later : q <:+ p) (whole : WholeText p) : WholeText q := by
  induction p with
  | nil =>
      obtain rfl := List.suffix_nil.mp later
      exact whole
  | cons c rest ih =>
      obtain rfl | later := List.suffix_cons_iff.mp later
      · exact whole
      · exact ih later whole.2

theorem utf8ByteTable_pos (c : UInt8) : 1 ≤ utf8ByteTable c := by
  unfold utf8ByteTable
  split_ifs <;> omega

/-- A place that a parser leaves, behind the text `p` or in it. -/
def Follows (p : Str) (q : Ptr) : Prop := ∀ r, q = some r → r <:+ p

@[simp] theorem follows_none (p : Str) : Follows p none := by
  intro r same
  cases same

@[simp] theorem follows_some {p r : Str} : Follows p (some r) ↔ r <:+ p := by
  simp [Follows]

theorem Follows.trans {p q : Str} {r : Ptr} (later : q <:+ p) (follows : Follows q r) :
    Follows p r := by
  intro s same
  exact (follows s same).trans later

theorem suffix_tail {c d : UInt8} {p q : Str} (later : d :: q <:+ c :: p) : q <:+ p := by
  obtain same | later := List.suffix_cons_iff.mp later
  · cases same
    exact List.suffix_rfl
  · exact (List.suffix_cons d q).trans later

theorem drop_succ_suffix (n : Nat) (c : UInt8) (p : Str) : (c :: p).drop (n + 1) <:+ p := by
  exact List.drop_suffix n p

/-! White space and names. -/

theorem skipMarks_suffix (p : Str) : skipMarks p <:+ p := by
  fun_induction skipMarks p with
  | case1 first second third rest _ ih =>
      exact ih.trans (List.drop_suffix 3 (first :: second :: third :: rest))
  | case2 first second third rest _ _ ih => exact ih.trans (List.suffix_cons ..)
  | case3 => exact List.suffix_rfl
  | case4 first rest _ _ ih => exact ih.trans (List.suffix_cons ..)
  | case5 => exact List.suffix_rfl
  | case6 => exact List.suffix_rfl

theorem skipBlanks_suffix (enc : TiXmlEncoding) (p : Str) : skipBlanks enc p <:+ p := by
  unfold skipBlanks
  split_ifs
  · exact skipMarks_suffix p
  · exact List.dropWhile_suffix _

theorem skipMarks_stops {p rest : Str} {c : UInt8} (same : skipMarks p = c :: rest) :
    IsWhiteSpace c = false := by
  fun_induction skipMarks p with
  | case1 _ _ _ _ _ ih => exact ih same
  | case2 _ _ _ _ _ _ ih => exact ih same
  | case3 first _ _ _ _ kept =>
      cases same
      simpa using kept
  | case4 _ _ _ _ ih => exact ih same
  | case5 first _ _ kept =>
      cases same
      simpa using kept
  | case6 => cases same

theorem dropWhile_stops {p rest : Str} {c : UInt8} {test : UInt8 → Bool}
    (same : p.dropWhile test = c :: rest) : test c = false := by
  have stays := List.head?_dropWhile_not test p
  rw [same] at stays
  simpa using stays

theorem skipBlanks_stops {enc : TiXmlEncoding} {p rest : Str} {c : UInt8}
    (same : skipBlanks enc p = c :: rest) : IsWhiteSpace c = false := by
  unfold skipBlanks at same
  split_ifs at same
  · exact skipMarks_stops same
  · exact dropWhile_stops same

theorem SkipWhiteSpace_follows (enc : TiXmlEncoding) {p : Str} {q : Ptr} (follows : Follows p q) :
    Follows p (SkipWhiteSpace enc q) := by
  match q with
  | none => exact follows_none p
  | some [] => exact follows_none p
  | some (c :: rest) =>
      exact follows_some.mpr ((skipBlanks_suffix enc _).trans (follows_some.mp follows))

theorem ReadName_suffix {p name rest : Str} (read : ReadName p = some (name, rest)) :
    rest <:+ p := by
  unfold ReadName at read
  split at read
  · cases read
  · split_ifs at read
    cases read
    exact List.dropWhile_suffix _

/-! The texts. -/

theorem readNumber_suffix {digit : UInt8 → Option UInt32} {base : UInt32} {mark : UInt8}
    {q rest : Str} {ucs : UInt32} (read : readNumber digit base mark q = some (ucs, rest)) :
    rest <:+ q := by
  unfold readNumber at read
  split at read
  · cases read
  · rename_i kept behind
    obtain ⟨value, -, same⟩ := Option.bind_eq_some_iff.mp read
    cases same
    have later := List.dropWhile_suffix (fun c => decide (c ≠ semicolon)) (l := q)
    rw [behind] at later
    exact (List.suffix_cons ..).trans later

theorem readUnicode_suffix {enc : TiXmlEncoding} {number : Option (UInt32 × Str)}
    {p value rest : Str} (behind : ∀ ucs after, number = some (ucs, after) → after <:+ p)
    (read : readUnicode enc number = some (value, rest)) : rest <:+ p := by
  obtain ⟨⟨ucs, after⟩, found, same⟩ := Option.map_eq_some_iff.mp read
  cases same
  exact behind ucs _ found

theorem GetEntity_suffix {enc : TiXmlEncoding} {p value rest : Str}
    (read : GetEntity enc p = some (value, rest)) : rest <:+ p := by
  unfold GetEntity at read
  split at read
  · rename_i q
    split_ifs at read
    apply readUnicode_suffix ?_ read
    intro ucs after found
    exact (readNumber_suffix found).trans (List.drop_suffix 2 (35 :: 120 :: q))
  · apply readUnicode_suffix ?_ read
    intro ucs after found
    exact (readNumber_suffix found).trans (List.suffix_cons ..)
  · split at read
    · cases read
      exact List.drop_suffix _ _
    · cases read
      exact List.suffix_rfl

theorem GetChar_returns (enc : TiXmlEncoding) {c : UInt8} {rest : Str}
    (whole : WholeText (c :: rest)) :
    Returns (GetChar enc c rest) fun read => ∀ value p, read = some (value, p) → p <:+ rest := by
  have present := utf8ByteTable_pos c
  have enough := whole.1
  unfold GetChar
  extract_lets length
  have bounds : 1 ≤ length ∧ length ≤ rest.length + 1 := by
    unfold length
    split_ifs <;> omega
  split_ifs with single ampersand short
  · apply Returns.ok
    intro value p read
    exact GetEntity_suffix read
  · apply Returns.ok
    intro value p read
    cases read
    exact List.suffix_rfl
  · omega
  · apply Returns.ok
    intro value p read
    cases read
    obtain ⟨more, same⟩ := Nat.exists_eq_add_of_le' bounds.1
    rw [same]
    exact drop_succ_suffix more c rest

/-- Where the reading of a text stops: at its end tag, or where the file ends. -/
def StopsAt (endTag p : Str) (q : Ptr) : Prop :=
  ∀ r, q = some r → r <:+ p ∧ (r = [] ∨ startsWith r endTag = true)

theorem StopsAt.trans {endTag p q : Str} {r : Ptr} (later : q <:+ p)
    (stops : StopsAt endTag q r) : StopsAt endTag p r := by
  intro s same
  exact ⟨(stops s same).1.trans later, (stops s same).2⟩

@[simp] theorem stopsAt_none (endTag p : Str) : StopsAt endTag p none := by
  intro r same
  cases same

theorem stopsAt_self {endTag p : Str} (found : p = [] ∨ startsWith p endTag = true) :
    StopsAt endTag p (some p) := by
  intro r same
  cases same
  exact ⟨List.suffix_rfl, found⟩

theorem readKept_returns (enc : TiXmlEncoding) (endTag : Str) (fuel : Nat) {p : Str}
    (whole : WholeText p) (enough : p.length ≤ fuel) :
    Returns (readKept enc endTag fuel (some p)) fun read => StopsAt endTag p read.2 := by
  induction fuel generalizing p with
  | zero =>
      obtain rfl := List.eq_nil_of_length_eq_zero (Nat.le_zero.mp enough)
      exact Returns.ok (stopsAt_self (Or.inl rfl))
  | succ fuel ih =>
      cases p with
      | nil => exact Returns.ok (stopsAt_self (Or.inl rfl))
      | cons c rest =>
          unfold readKept
          split_ifs with found
          · exact Returns.ok (stopsAt_self (Or.inr found))
          · apply (GetChar_returns enc whole).bind
            rintro (_ | ⟨value, p⟩) follows
            · exact Returns.ok (stopsAt_none endTag _)
            · have later := follows value p rfl
              have shorter := later.length_le
              simp only [List.length_cons] at enough
              apply (ih (whole.2.suffix later) (by omega)).bind
              rintro ⟨text, q⟩ stops
              exact Returns.ok (stops.trans (later.trans (List.suffix_cons ..)))

theorem readCondensed_returns (enc : TiXmlEncoding) (endTag : Str) (fuel : Nat)
    (whitespace : Bool) {p : Str} (whole : WholeText p) (enough : p.length ≤ fuel) :
    Returns (readCondensed enc endTag fuel whitespace (some p))
      fun read => StopsAt endTag p read.2 := by
  induction fuel generalizing p whitespace with
  | zero =>
      obtain rfl := List.eq_nil_of_length_eq_zero (Nat.le_zero.mp enough)
      exact Returns.ok (stopsAt_self (Or.inl rfl))
  | succ fuel ih =>
      cases p with
      | nil => exact Returns.ok (stopsAt_self (Or.inl rfl))
      | cons c rest =>
          simp only [List.length_cons] at enough
          unfold readCondensed
          split_ifs with found blank
          · exact Returns.ok (stopsAt_self (Or.inr found))
          · apply (ih true whole.2 (by omega)).mono
            intro read stops
            exact stops.trans (List.suffix_cons ..)
          all_goals
            apply (GetChar_returns enc whole).bind
            rintro (_ | ⟨value, p⟩) follows
            · exact Returns.ok (stopsAt_none endTag _)
            · have later := follows value p rfl
              have shorter := later.length_le
              apply (ih false (whole.2.suffix later) (by omega)).bind
              rintro ⟨text, q⟩ stops
              exact Returns.ok (stops.trans (later.trans (List.suffix_cons ..)))

theorem behind_follows {endTag p : Str} {q : Ptr} (length : Nat) (stops : StopsAt endTag p q) :
    Follows p (behind length q) := by
  cases q with
  | none => exact follows_none p
  | some r =>
      intro s same
      simp only [behind] at same
      split_ifs at same
      cases same
      exact (List.drop_suffix length r).trans (stops r rfl).1

def LeavesBehind (endTag p : Str) (q : Ptr) : Prop :=
  ∃ stop, StopsAt endTag p stop ∧ q = behind endTag.length stop

theorem readTrimmed_returns (enc : TiXmlEncoding) (endTag : Str) {p : Str}
    (whole : WholeText p) :
    Returns (readCondensed enc endTag p.length false (SkipWhiteSpace enc (some p)))
      fun read => StopsAt endTag p read.2 := by
  have follows := SkipWhiteSpace_follows enc (follows_some.mpr (List.suffix_refl p))
  cases start : SkipWhiteSpace enc (some p) with
  | none =>
      unfold readCondensed
      exact Returns.ok (stopsAt_none endTag p)
  | some q =>
      have later := follows q start
      apply (readCondensed_returns enc endTag _ false (whole.suffix later) later.length_le).mono
      intro read stops
      exact stops.trans later

theorem ReadText_returns (enc : TiXmlEncoding) (trimWhiteSpace : Bool) (endTag : Str) {p : Str}
    (whole : WholeText p) :
    Returns (ReadText enc trimWhiteSpace endTag (some p))
      fun read => LeavesBehind endTag p read.2 := by
  unfold ReadText
  split_ifs
  · apply (readTrimmed_returns enc endTag whole).bind
    rintro ⟨text, stop⟩ stops
    exact Returns.ok ⟨stop, stops, rfl⟩
  · apply (readKept_returns enc endTag _ whole (Nat.le_refl _)).bind
    rintro ⟨text, stop⟩ stops
    exact Returns.ok ⟨stop, stops, rfl⟩

theorem LeavesBehind.follows {endTag p : Str} {q : Ptr} (leaves : LeavesBehind endTag p q) :
    Follows p q := by
  obtain ⟨stop, stops, rfl⟩ := leaves
  exact behind_follows _ stops

/-! The stamp. -/

theorem stampTurn_suffix {enc : TiXmlEncoding} {c : UInt8} {rest p : Str}
    (turned : stampTurn enc c rest = some p) : p <:+ rest := by
  unfold stampTurn at turned
  split_ifs at turned <;> cases turned
  all_goals first
    | exact List.suffix_rfl
    | exact List.drop_suffix _ _
    | exact List.tail_suffix _

theorem stampTurn_ne_none (enc : TiXmlEncoding) {c : UInt8} {rest : Str}
    (whole : WholeText (c :: rest)) : stampTurn enc c rest ≠ none := by
  have enough := whole.1
  unfold stampTurn
  split_ifs with _ _ _ _ short <;> try simp
  subst c
  have announced : utf8ByteTable 0xef = 3 := by decide
  omega

theorem stampLoop_returns (enc : TiXmlEncoding) (now : Str) (fuel : Nat) {p : Str}
    (whole : WholeText p) (enough : p.length ≤ fuel) :
    Returns (stampLoop enc now fuel p) WholeText := by
  induction fuel generalizing p with
  | zero =>
      obtain rfl := List.eq_nil_of_length_eq_zero (Nat.le_zero.mp enough)
      exact Returns.ok whole
  | succ fuel ih =>
      cases p with
      | nil => exact Returns.ok whole
      | cons c rest =>
          unfold stampLoop
          split_ifs
          · split
            · rename_i stays
              exact absurd stays (stampTurn_ne_none enc whole)
            · rename_i p turned
              have later := stampTurn_suffix turned
              have shorter := later.length_le
              simp only [List.length_cons] at enough
              exact ih (whole.2.suffix later) (by omega)
          · exact Returns.ok whole

theorem Stamp_returns (enc : TiXmlEncoding) {data : ParsingData} (now : Ptr)
    (whole : WholeText data.stamp) :
    Returns (Stamp enc data now) fun after => WholeText after.stamp := by
  cases now with
  | none => exact Returns.ok whole
  | some p =>
      unfold Stamp
      apply (stampLoop_returns enc p _ whole (Nat.le_refl _)).bind
      intro stamp whole
      exact Returns.ok whole

theorem SetError_returns (enc : TiXmlEncoding) {data : ParsingData} (err : TiXmlError)
    (pError : Ptr) (whole : WholeText data.stamp) :
    Returns (SetError enc data err pError) fun after => WholeText after.stamp := by
  unfold SetError
  split_ifs
  · exact Stamp_returns enc pError whole
  · exact Returns.ok whole

/-! The parsers. -/

theorem readBare_suffix (p : Str) : (readBare p).2.1 <:+ p := by
  induction p with
  | nil => exact List.suffix_rfl
  | cons c rest ih =>
      unfold readBare
      split_ifs
      · exact List.suffix_rfl
      · exact List.suffix_rfl
      · exact ih.trans (List.suffix_cons ..)

theorem readUntil_suffix (stop p : Str) : (readUntil stop p).2 <:+ p := by
  induction p with
  | nil => exact List.suffix_rfl
  | cons c rest ih =>
      unfold readUntil
      split_ifs
      · exact List.suffix_rfl
      · exact ih.trans (List.suffix_cons ..)

theorem fail_returns (enc : TiXmlEncoding) (document : Bool) {data : ParsingData} (pError : Ptr)
    (whole : WholeText data.stamp) :
    Returns (TiXmlAttribute.fail enc document data pError) fun after => WholeText after.stamp := by
  unfold TiXmlAttribute.fail
  split_ifs
  · exact SetError_returns enc _ pError whole
  · exact Returns.ok whole

/-- What a parser in front of the text `p` leaves: a place in it and a whole stamp. -/
def Leaves (p : Str) (q : Ptr) (data : ParsingData) : Prop := Follows p q ∧ WholeText data.stamp

theorem Leaves.trans {p q : Str} {r : Ptr} {data : ParsingData} (later : q <:+ p)
    (leaves : Leaves q r data) : Leaves p r data :=
  ⟨leaves.1.trans later, leaves.2⟩

theorem failed_leaves {enc : TiXmlEncoding} {document : Bool} {data : ParsingData} {pError : Ptr}
    {p : Str} (attrib : TiXmlAttribute) (whole : WholeText data.stamp) :
    Returns (do return (attrib, none, ← TiXmlAttribute.fail enc document data pError))
      fun parsed : TiXmlAttribute × Ptr × ParsingData => Leaves p parsed.2.1 parsed.2.2 := by
  apply (fail_returns enc document pError whole).bind
  intro data whole
  exact Returns.ok ⟨follows_none p, whole⟩

theorem parseValue_returns (enc : TiXmlEncoding) (document : Bool) {data : ParsingData}
    (name : Str) {p : Str} (wholeText : WholeText p) (whole : WholeText data.stamp) :
    Returns (TiXmlAttribute.parseValue enc document data name (some p))
      fun parsed => Leaves p parsed.2.1 parsed.2.2 := by
  have follows := SkipWhiteSpace_follows enc (follows_some.mpr (List.suffix_refl p))
  unfold TiXmlAttribute.parseValue
  split
  · exact failed_leaves _ whole
  · exact failed_leaves _ whole
  · rename_i c rest start
    have later := follows _ start
    split_ifs
    · apply (ReadText_returns enc false [c] (wholeText.suffix later).2).bind
      rintro ⟨value, q⟩ leaves
      exact Returns.ok ⟨leaves.follows.trans ((List.suffix_cons ..).trans later), whole⟩
    · have kept := readBare_suffix (c :: rest)
      split
      · exact failed_leaves _ whole
      · rename_i same
        rw [same] at kept
        exact Returns.ok ⟨follows_some.mpr (kept.trans later), whole⟩

theorem Parse_returns (enc : TiXmlEncoding) (document : Bool) {data : ParsingData}
    {c : UInt8} {rest : Str} (wholeText : WholeText (c :: rest)) (whole : WholeText data.stamp) :
    Returns (TiXmlAttribute.Parse enc document data (some (c :: rest)))
      fun parsed => Leaves rest parsed.2.1 parsed.2.2 := by
  have follows := SkipWhiteSpace_follows enc (follows_some.mpr (List.suffix_refl (c :: rest)))
  unfold TiXmlAttribute.Parse
  split
  · exact Returns.ok ⟨follows_none _, whole⟩
  · exact Returns.ok ⟨follows_none _, whole⟩
  · rename_i first others start
    have later := follows _ start
    apply (Stamp_returns enc _ whole).bind
    intro data whole
    split
    · exact failed_leaves _ whole
    · exact failed_leaves _ whole
    · rename_i name p _ read
      have named := (ReadName_suffix read).trans later
      have after := SkipWhiteSpace_follows enc (follows_some.mpr (List.suffix_refl p))
      split
      · rename_i sign behindSign equal
        have signed := (after _ equal).trans named
        split_ifs
        · apply (parseValue_returns enc document name (wholeText.suffix signed).2 whole).mono
          intro parsed leaves
          exact leaves.trans (suffix_tail signed)
        · exact failed_leaves _ whole
      · exact failed_leaves _ whole

theorem passed_suffix (enc : TiXmlEncoding) {c : UInt8} {rest : Str} (open_ : c ≠ greater) :
    (skipBlanks enc (c :: rest)).dropWhile (fun c => c ≠ greater && !IsWhiteSpace c)
      <:+ rest := by
  obtain same | later := List.suffix_cons_iff.mp (skipBlanks_suffix enc (c :: rest))
  · have solid := skipBlanks_stops same
    rw [same, List.dropWhile_cons_of_pos (by simp [open_, solid])]
    exact List.dropWhile_suffix _
  · exact (List.dropWhile_suffix _).trans later

theorem readDeclaration_returns (enc : TiXmlEncoding) (fuel : Nat) {data : ParsingData}
    (read : Str × Str × Str) {p : Str} (wholeText : WholeText p) (whole : WholeText data.stamp)
    (enough : p.length ≤ fuel) :
    Returns (readDeclaration enc fuel data read (some p))
      fun declared => Leaves p declared.2.1 declared.2.2 := by
  induction fuel generalizing p data read with
  | zero =>
      obtain rfl := List.eq_nil_of_length_eq_zero (Nat.le_zero.mp enough)
      exact Returns.ok ⟨follows_none _, whole⟩
  | succ fuel ih =>
      cases p with
      | nil => exact Returns.ok ⟨follows_none _, whole⟩
      | cons c rest =>
          simp only [List.length_cons] at enough
          -- Whatever a round leaves is behind `c`, so the rest of the fuel is enough.
          have goesOn (data : ParsingData) (read : Str × Str × Str) (q : Ptr)
              (leaves : Leaves rest q data) :
              Returns (readDeclaration enc fuel data read q)
                fun declared => Leaves (c :: rest) declared.2.1 declared.2.2 := by
            cases q with
            | none =>
                unfold readDeclaration
                exact Returns.ok ⟨follows_none _, leaves.2⟩
            | some q =>
                have later := leaves.1 q rfl
                have shorter := later.length_le
                apply (ih read (wholeText.2.suffix later) leaves.2 (by omega)).mono
                intro declared left
                exact left.trans (later.trans (List.suffix_cons ..))
          have keyword (data : ParsingData) (whole : WholeText data.stamp) (tag : Str)
              (found : StringEqual ToLower (skipBlanks enc (c :: rest)) tag = true) :
              Returns
                (TiXmlAttribute.Parse enc false data (some (skipBlanks enc (c :: rest))))
                fun parsed => Leaves rest parsed.2.1 parsed.2.2 := by
            have later := skipBlanks_suffix enc (c :: rest)
            cases start : skipBlanks enc (c :: rest) with
            | nil => simp [start, StringEqual] at found
            | cons first others =>
                rw [start] at later
                apply (Parse_returns enc false (wholeText.suffix later) whole).mono
                intro parsed leaves
                exact leaves.trans (suffix_tail later)
          unfold readDeclaration
          by_cases closed : c = greater
          · rw [if_pos closed]
            exact Returns.ok ⟨follows_some.mpr (List.suffix_cons ..), whole⟩
          · rw [if_neg closed]
            dsimp only
            split_ifs with isVersion isEncoding isStandalone
            · apply (keyword data whole _ isVersion).bind
              rintro ⟨attrib, q, data⟩ leaves
              exact goesOn data _ q leaves
            · apply (keyword data whole _ isEncoding).bind
              rintro ⟨attrib, q, data⟩ leaves
              exact goesOn data _ q leaves
            · apply (keyword data whole _ isStandalone).bind
              rintro ⟨attrib, q, data⟩ leaves
              exact goesOn data _ q leaves
            · exact goesOn data _ _ ⟨follows_some.mpr (passed_suffix enc closed), whole⟩

theorem parseDeclaration_returns (enc : TiXmlEncoding) {data : ParsingData} {c : UInt8}
    {rest : Str} (wholeText : WholeText (c :: rest)) (whole : WholeText data.stamp) :
    Returns (parseDeclaration enc data (c :: rest))
      fun parsed => Leaves rest parsed.2.1 parsed.2.2 := by
  have later : (c :: rest).drop xmlHeader.length <:+ rest := drop_succ_suffix 4 c rest
  have shorter := later.length_le
  unfold parseDeclaration
  apply (Stamp_returns enc _ whole).bind
  intro data whole
  apply (readDeclaration_returns enc _ _ (wholeText.2.suffix later) whole (by
    simp only [List.length_cons]
    omega)).bind
  rintro ⟨⟨version_, encoding_, standalone_⟩, q, data⟩ leaves
  exact Returns.ok (leaves.trans later)

theorem parseComment_returns (enc : TiXmlEncoding) {data : ParsingData} (c : UInt8)
    (rest : Str) (whole : WholeText data.stamp) :
    Returns (parseComment enc data (c :: rest))
      fun parsed => Leaves rest parsed.2.1 parsed.2.2 := by
  unfold parseComment
  apply (Stamp_returns enc _ whole).bind
  intro data whole
  refine Returns.ok ⟨follows_some.mpr ?_, whole⟩
  exact (List.drop_suffix _ _).trans
    ((readUntil_suffix commentEnd _).trans (drop_succ_suffix 3 c rest))

theorem parseCdata_returns (enc : TiXmlEncoding) {data : ParsingData} {c : UInt8}
    {rest : Str} (wholeText : WholeText (c :: rest)) (whole : WholeText data.stamp) :
    Returns (parseCdata enc data (c :: rest))
      fun parsed => Leaves rest parsed.2.1 parsed.2.2 := by
  have later := (readUntil_suffix cdataEnd _).trans (drop_succ_suffix 8 c rest)
  unfold parseCdata
  apply (Stamp_returns enc _ whole).bind
  intro data whole
  apply (ReadText_returns enc false cdataEnd (wholeText.2.suffix later)).bind
  rintro ⟨text, q⟩ leaves
  exact Returns.ok ⟨leaves.follows.trans later, whole⟩

theorem parseUnknown_returns (enc : TiXmlEncoding) {data : ParsingData} (c : UInt8)
    (rest : Str) (whole : WholeText data.stamp) :
    Returns (parseUnknown enc data (c :: rest))
      fun parsed => Leaves rest parsed.2.1 parsed.2.2 := by
  unfold parseUnknown
  apply (Stamp_returns enc _ whole).bind
  intro data whole
  refine Returns.ok ⟨follows_some.mpr ?_, whole⟩
  exact (List.tail_suffix _).trans (List.dropWhile_suffix _)

theorem parseText_returns (enc : TiXmlEncoding) {data : ParsingData} {c : UInt8}
    {rest : Str} (wholeText : WholeText (c :: rest)) (content : c ≠ less)
    (whole : WholeText data.stamp) :
    Returns (parseText enc data (c :: rest))
      fun parsed => Leaves rest parsed.2.1 parsed.2.2 := by
  unfold parseText
  apply (Stamp_returns enc _ whole).bind
  intro data whole
  apply (ReadText_returns enc true [less] wholeText).bind
  rintro ⟨value, q⟩ ⟨stop, stops, same⟩
  dsimp only at same
  subst same
  refine Returns.ok ⟨?_, whole⟩
  intro r same
  obtain _ | s := stop
  · simp [behind] at same
  · obtain ⟨later, ended | found⟩ := stops s rfl
    · simp [behind, ended] at same
    · obtain ⟨others, rfl⟩ : ∃ others, s = less :: others := by
        cases s with
        | nil => simp [startsWith, StringEqual] at found
        | cons first others =>
            simp [startsWith, StringEqual] at found
            exact ⟨others, by rw [found]⟩
      have back : r = less :: others := by
        simp only [behind, List.length_singleton, List.drop_succ_cons, List.drop_zero] at same
        split_ifs at same
        · cases same
        · exact (Option.some.inj same).symm
      subst back
      obtain equal | later := List.suffix_cons_iff.mp later
      · cases equal
        exact absurd rfl content
      · exact later

theorem setError_leaves {enc : TiXmlEncoding} {Read : Type} {data : ParsingData}
    {err : TiXmlError} {pError : Ptr} {p : Str} (read : Read) (whole : WholeText data.stamp) :
    Returns (do return (read, none, ← SetError enc data err pError))
      fun parsed : Read × Ptr × ParsingData => Leaves p parsed.2.1 parsed.2.2 := by
  apply (SetError_returns enc err pError whole).bind
  intro data whole
  exact Returns.ok ⟨follows_none p, whole⟩

def Opening.place : Opening → Ptr
  | .returns p => p
  | .content p => some p

theorem openingError_leaves {enc : TiXmlEncoding} {data : ParsingData} {err : TiXmlError}
    {pError : Ptr} {p : Str} (attributeSet : List TiXmlAttribute)
    (whole : WholeText data.stamp) :
    Returns (do return (attributeSet, .returns none, ← SetError enc data err pError))
      fun read : List TiXmlAttribute × Opening × ParsingData =>
        Leaves p read.2.1.place read.2.2 := by
  apply (SetError_returns enc err pError whole).bind
  intro data whole
  exact Returns.ok ⟨follows_none p, whole⟩

theorem readAttributes_returns (enc : TiXmlEncoding) (fuel : Nat) {data : ParsingData}
    (attributeSet : List TiXmlAttribute) {p : Str} (wholeText : WholeText p)
    (whole : WholeText data.stamp) (present : p ≠ []) (enough : p.length ≤ fuel) :
    Returns (readAttributes enc fuel data attributeSet p)
      fun read => Leaves p read.2.1.place read.2.2 := by
  induction fuel generalizing p data attributeSet with
  | zero => exact absurd (List.eq_nil_of_length_eq_zero (Nat.le_zero.mp enough)) present
  | succ fuel ih =>
      have follows := SkipWhiteSpace_follows enc (follows_some.mpr (List.suffix_refl p))
      unfold readAttributes
      split
      · exact openingError_leaves _ whole
      · exact openingError_leaves _ whole
      · rename_i c rest start
        have later := follows _ start
        have inside := (List.suffix_cons c rest).trans later
        split_ifs
        · split
          · split_ifs
            · exact Returns.ok ⟨follows_some.mpr ((List.suffix_cons ..).trans inside), whole⟩
            · exact openingError_leaves _ whole
          · exact openingError_leaves _ whole
        · exact Returns.ok ⟨follows_some.mpr inside, whole⟩
        · apply (Parse_returns enc true (wholeText.suffix later) whole).bind
          rintro ⟨attrib, q, data⟩ leaves
          dsimp only at leaves ⊢
          split
          · rename_i next q
            split_ifs
            · exact openingError_leaves _ leaves.2
            · have behind := (leaves.1 _ rfl).trans inside
              have shorter := (leaves.1 _ rfl).length_le
              have bound := later.length_le
              simp only [List.length_cons] at shorter bound
              apply (ih _ (wholeText.suffix behind) leaves.2 (List.cons_ne_nil _ _) (by
                simp only [List.length_cons]
                omega)).mono
              intro read left
              exact left.trans behind
          · exact openingError_leaves _ leaves.2

theorem endTagError_leaves {enc : TiXmlEncoding} {data : ParsingData} {pError : Ptr} {p : Str}
    (whole : WholeText data.stamp) :
    Returns (do return (none, ← SetError enc data .TIXML_ERROR_READING_END_TAG pError))
      fun parsed : Ptr × ParsingData => Leaves p parsed.1 parsed.2 := by
  apply (SetError_returns enc _ pError whole).bind
  intro data whole
  exact Returns.ok ⟨follows_none p, whole⟩

theorem parseEndTag_returns (enc : TiXmlEncoding) {data : ParsingData} (name : Str) {p : Str}
    {q : Ptr} (leaves : Leaves p q data) :
    Returns (parseEndTag enc data name q) fun parsed => Leaves p parsed.1 parsed.2 := by
  unfold parseEndTag
  split
  · rename_i c rest
    have later := leaves.1 _ rfl
    split_ifs
    · have inTag := (List.drop_suffix (endTag ++ name).length (c :: rest)).trans later
      have after := SkipWhiteSpace_follows enc (follows_some.mpr inTag)
      split
      · rename_i sign behindSign found
        split_ifs
        · exact Returns.ok
            ⟨follows_some.mpr ((List.suffix_cons ..).trans (after _ found)), leaves.2⟩
        · exact endTagError_leaves leaves.2
      · exact endTagError_leaves leaves.2
    · exact endTagError_leaves leaves.2
  · exact endTagError_leaves leaves.2

theorem element_returns (enc : TiXmlEncoding) (fuel : Nat) :
    (∀ (type : NodeType) (data : ParsingData) (c : UInt8) (rest : Str),
      WholeText (c :: rest) → WholeText data.stamp → 2 * rest.length + 3 ≤ fuel →
      Returns (parseNode enc fuel type data (c :: rest))
        fun parsed => Leaves rest parsed.2.1 parsed.2.2) ∧
    ∀ (p : Str) (data : ParsingData) (q : Ptr),
      WholeText p → Leaves p q data → 2 * p.length + 2 ≤ fuel →
      Returns (ReadValue enc fuel data q) fun parsed => Leaves p parsed.2.1 parsed.2.2 := by
  induction fuel with
  | zero => constructor <;> intros <;> omega
  | succ fuel ih =>
      constructor
      · intro type data c rest wholeText whole enough
        cases type with
        | declaration => exact parseDeclaration_returns enc wholeText whole
        | comment => exact parseComment_returns enc c rest whole
        | cdata => exact parseCdata_returns enc wholeText whole
        | unknown => exact parseUnknown_returns enc c rest whole
        | element =>
            unfold parseNode
            apply (Stamp_returns enc _ whole).bind
            intro data whole
            have start := SkipWhiteSpace_follows enc (follows_some.mpr (List.suffix_refl rest))
            dsimp only
            split
            · exact setError_leaves _ whole
            · exact setError_leaves _ whole
            · rename_i name p present read
              obtain ⟨named, skipped, found⟩ := Option.bind_eq_some_iff.mp read
              have later := (ReadName_suffix found).trans (start named skipped)
              apply (readAttributes_returns enc p.length [] (wholeText.2.suffix later)
                whole present (Nat.le_refl _)).bind
              rintro ⟨attributeSet, opening, data⟩ leaves
              have left : Leaves rest opening.place data := leaves.trans later
              cases opening with
              | returns p => exact Returns.ok left
              | content p =>
                  have inside := SkipWhiteSpace_follows enc left.1
                  apply (ih.2 rest data _ wholeText.2 ⟨inside, left.2⟩ (by omega)).bind
                  rintro ⟨children, q, data⟩ leaves
                  apply (parseEndTag_returns enc name leaves).bind
                  rintro ⟨q, data⟩ leaves
                  exact Returns.ok leaves
      · intro p data q wholeText leaves enough
        match q with
        | none => exact setError_leaves _ leaves.2
        | some [] => exact Returns.ok leaves
        | some (c :: rest) =>
            have later := leaves.1 _ rfl
            have inside := (List.suffix_cons c rest).trans later
            have shorter := later.length_le
            simp only [List.length_cons] at shorter
            have here : WholeText (c :: rest) := wholeText.suffix later
            unfold ReadValue
            split_ifs with text closes
            · apply (parseText_returns enc here text leaves.2).bind
              rintro ⟨value, q, data⟩ left
              have skipped := SkipWhiteSpace_follows enc left.1
              apply (ih.2 rest data _ here.2 ⟨skipped, left.2⟩ (by omega)).bind
              rintro ⟨children, q, data⟩ left
              exact Returns.ok (left.trans inside)
            · exact Returns.ok leaves
            · split
              · exact Returns.ok ⟨follows_none _, leaves.2⟩
              · rename_i type _
                apply (ih.1 type data c rest here leaves.2 (by omega)).bind
                rintro ⟨node, q, data⟩ left
                have skipped := SkipWhiteSpace_follows enc left.1
                apply (ih.2 rest data _ here.2 ⟨skipped, left.2⟩ (by omega)).bind
                rintro ⟨children, q, data⟩ left
                exact Returns.ok (left.trans inside)

theorem parseNodes_returns (fuel : Nat) (enc : TiXmlEncoding) {data : ParsingData} {p : Str}
    {q : Ptr} (wholeText : WholeText p) (leaves : Leaves p q data)
    (enough : 2 * p.length + 2 ≤ fuel) :
    Returns (parseNodes fuel enc data q) fun _ => True := by
  induction fuel generalizing enc data p q with
  | zero => omega
  | succ fuel ih =>
      match q with
      | none => exact Returns.ok trivial
      | some [] => exact Returns.ok trivial
      | some (c :: rest) =>
          have later := leaves.1 _ rfl
          have shorter := later.length_le
          simp only [List.length_cons] at shorter
          have here : WholeText (c :: rest) := wholeText.suffix later
          unfold parseNodes
          split
          · exact Returns.ok trivial
          · rename_i type _
            apply ((element_returns enc fuel).1 type data c rest here leaves.2 (by omega)).bind
            rintro ⟨node, q, data⟩ left
            have skipped := SkipWhiteSpace_follows (stated enc node) left.1
            apply (ih (stated enc node) here.2 ⟨skipped, left.2⟩ (by omega)).bind
            rintro ⟨nodes, data⟩ -
            exact Returns.ok trivial

theorem document_returns {p : Str} (whole : WholeText p) :
    Returns (Parse p) fun _ => True := by
  cases p with
  | nil => exact Returns.ok trivial
  | cons c rest =>
      unfold Parse
      have start (enc : TiXmlEncoding) :=
        SkipWhiteSpace_follows enc (follows_some.mpr (List.suffix_refl (c :: rest)))
      dsimp only
      apply (parseNodes_returns _ _ whole ⟨start _, whole⟩ (by
        unfold fuelOf
        omega)).bind
      rintro ⟨nodes, data⟩ -
      exact Returns.ok trivial

/-- A file whose last character is whole is read to its end: no byte behind the
text is read and every loop comes to its end. -/
theorem loadFile_returns (content : Str) (whole : WholeText (normalize content)) :
    ∃ loaded, LoadFile content = .ok loaded := by
  cases content with
  | nil => exact ⟨_, rfl⟩
  | cons c rest =>
      obtain ⟨⟨nodes, error⟩, parsed, -⟩ := document_returns whole
      refine ⟨(error = none, nodes), ?_⟩
      simp [LoadFile, parsed]

/-- A comment and an element, the name of it in Korean. -/
theorem loadFile_returns_korean :
    ∃ loaded, LoadFile [60, 33, 45, 45, 45, 45, 62, 13, 10, 60, 236, 149, 177, 47, 62] =
      .ok loaded :=
  loadFile_returns _ (by decide)

/-- In UTF-8 a lead byte at the end of a text takes the reader behind the file. -/
example : LoadFile ([0xef, 0xbb, 0xbf] ++ [60, 97, 62, 120, 0xe0]) = .error .outOfBounds := by
  rfl

end TinyXml

end GraduationServer
