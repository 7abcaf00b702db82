import GraduationServer.PacketCodec
import GraduationServer.TinyXmlPrint
import GraduationServer.TinyXmlSafety
import GraduationServer.TinyXmlAccepted

/-!
The parsers of TinyXML on what has been printed: the characters, the white space,
the attributes and the declaration come back, each up to what follows it.
-/

namespace GraduationServer

namespace TinyXml

open Contracts

/-- A fact about each byte of a text that is known, by going through the text only. -/
theorem forall_of_all {text : Str} {property : UInt8 → Prop} [DecidablePred property]
    (all : (text.all fun c => decide (property c)) = true) : ∀ c ∈ text, property c := by
  intro c inside
  exact of_decide_eq_true (List.all_eq_true.mp all c inside)

/-! Reading what is spelled. -/

theorem startsWith_single (c d : UInt8) (rest : Str) :
    startsWith (c :: rest) [d] = decide (d = c) := by
  simp [startsWith, StringEqual, List.isPrefixOf, Bool.beq_eq_decide_eq]

theorem readKept_step {enc : TiXmlEncoding} {endTag : Str} {c : UInt8} {rest unit p text : Str}
    {q : Ptr} {fuel : Nat} (inside : startsWith (c :: rest) endTag = false)
    (reads : GetChar enc c rest = .ok (some (unit, p)))
    (later : readKept enc endTag fuel (some p) = .ok (text, q)) :
    readKept enc endTag (fuel + 1) (some (c :: rest)) = .ok (unit ++ text, q) := by
  rw [readKept, inside, reads]
  exact congrArg (· >>= fun read : Str × Ptr => .ok (unit ++ read.1, read.2)) later

theorem readKept_spelled {enc : TiXmlEncoding} {written value : Str}
    (spelled : Spelled enc written value) {quote : UInt8} (mark : quote = quot ∨ quote = apos)
    (rest : Str) {fuel : Nat} (enough : written.length < fuel) :
    readKept enc [quote] fuel (some (written ++ quote :: rest)) =
      .ok (value, some (quote :: rest)) := by
  induction spelled generalizing fuel with
  | nil =>
      obtain ⟨fuel, rfl⟩ := Nat.exists_eq_succ_of_ne_zero (by omega : fuel ≠ 0)
      simp [readKept, startsWith_single]
  | @char c more unit written value reads plain _ _ ih =>
      obtain ⟨fuel, rfl⟩ := Nat.exists_eq_succ_of_ne_zero (by omega : fuel ≠ 0)
      have other : quote ≠ c := by
        rintro rfl
        obtain rfl | rfl := mark
        · exact plain.2.1 rfl
        · exact plain.2.2 rfl
      simp only [List.length_append, List.length_cons] at enough
      rw [List.cons_append, List.cons_append, List.append_assoc]
      exact readKept_step (by simp [startsWith_single, other]) (reads _) (ih (by omega))

theorem readCondensed_blank {enc : TiXmlEncoding} {endTag : Str} {c : UInt8} {rest : Str}
    {fuel : Nat} (whitespace : Bool) (inside : startsWith (c :: rest) endTag = false)
    (blank : IsWhiteSpace c = true) :
    readCondensed enc endTag (fuel + 1) whitespace (some (c :: rest)) =
      readCondensed enc endTag fuel true (some rest) := by
  rw [readCondensed, inside, blank]
  rfl

theorem readCondensed_step {enc : TiXmlEncoding} {endTag : Str} {c : UInt8}
    {rest unit p text : Str} {q : Ptr} {fuel : Nat} (whitespace : Bool)
    (inside : startsWith (c :: rest) endTag = false) (solid : IsWhiteSpace c = false)
    (reads : GetChar enc c rest = .ok (some (unit, p)))
    (later : readCondensed enc endTag fuel false (some p) = .ok (text, q)) :
    readCondensed enc endTag (fuel + 1) whitespace (some (c :: rest)) =
      .ok ((if whitespace then [32] else []) ++ unit ++ text, q) := by
  rw [readCondensed, inside, solid, reads]
  exact congrArg
    (· >>= fun read : Str × Ptr =>
      .ok ((if whitespace then [32] else []) ++ unit ++ read.1, read.2)) later

theorem blank_ne_less {c : UInt8} (blank : IsWhiteSpace c = true) : less ≠ c := by
  rintro rfl
  cases blank

theorem readCondensed_blanks {enc : TiXmlEncoding} {blanks : Str} (whitespace : Bool)
    (blank : ∀ c ∈ blanks, IsWhiteSpace c = true) (rest : Str) {fuel : Nat}
    (enough : blanks.length < fuel) :
    readCondensed enc [less] fuel whitespace (some (blanks ++ less :: rest)) =
      .ok ([], some (less :: rest)) := by
  induction blanks generalizing fuel whitespace with
  | nil =>
      obtain ⟨fuel, rfl⟩ := Nat.exists_eq_succ_of_ne_zero (by omega : fuel ≠ 0)
      simp [readCondensed, startsWith_single]
  | cons c blanks ih =>
      obtain ⟨here, later⟩ := List.forall_mem_cons.mp blank
      obtain ⟨fuel, rfl⟩ := Nat.exists_eq_succ_of_ne_zero (by omega : fuel ≠ 0)
      simp only [List.length_cons] at enough
      rw [List.cons_append, readCondensed_blank _ _ here, ih true later (by omega)]
      simp [startsWith_single, blank_ne_less here]

/-- A text with no space that condensing would take away. -/
def Spaced : Str → Prop
  | [] => True
  | c :: rest => (c = 32 → ∃ d, rest.head? = some d ∧ d ≠ 32) ∧ Spaced rest

theorem Spaced.suffix {p q : Str} (later : q <:+ p) (spaced : Spaced p) : Spaced q := by
  induction p with
  | nil =>
      obtain rfl := List.suffix_nil.mp later
      exact spaced
  | cons c rest ih =>
      obtain rfl | later := List.suffix_cons_iff.mp later
      · exact spaced
      · exact ih later spaced.2

theorem readCondensed_spelled {enc : TiXmlEncoding} {written value : Str}
    (spelled : Spelled enc written value) (spaced : Spaced value) (whitespace : Bool)
    (goesOn : whitespace = true → ∃ d, value.head? = some d ∧ d ≠ 32) {blanks : Str}
    (blank : ∀ c ∈ blanks, IsWhiteSpace c = true) (rest : Str) {fuel : Nat}
    (enough : written.length + blanks.length < fuel) :
    readCondensed enc [less] fuel whitespace (some (written ++ (blanks ++ less :: rest))) =
      .ok ((if whitespace then [32] else []) ++ value, some (less :: rest)) := by
  induction spelled generalizing fuel whitespace with
  | nil =>
      cases whitespace with
      | true =>
          obtain ⟨d, found, -⟩ := goesOn rfl
          cases found
      | false => exact readCondensed_blanks false blank rest (by omega)
  | @char c more unit written value reads plain solid _ ih =>
      obtain ⟨fuel, rfl⟩ := Nat.exists_eq_succ_of_ne_zero (by omega : fuel ≠ 0)
      have inside (p : Str) : startsWith (c :: p) [less] = false := by
        simp [startsWith_single, Ne.symm plain.1]
      simp only [List.length_append, List.length_cons] at enough
      have later := spaced.suffix (List.suffix_append unit value)
      rw [List.cons_append, List.cons_append, List.append_assoc]
      cases blank : IsWhiteSpace c with
      | true =>
          obtain ⟨rfl, rfl⟩ := solid blank
          have first : whitespace = false := by
            cases whitespace with
            | false => rfl
            | true =>
                obtain ⟨d, found, other⟩ := goesOn rfl
                exact absurd (Option.some.inj found).symm other
          subst first
          rw [readCondensed_blank false (inside _) blank]
          exact ih later true (fun _ => spaced.1 rfl) (by omega)
      | false =>
          rw [readCondensed_step whitespace (inside _) blank (reads _)
            (ih later false (by simp) (by omega))]
          simp

/-! White space in front of a text. -/

def AllBlank (blanks : Str) : Prop := ∀ c ∈ blanks, IsWhiteSpace c = true

/-- Whether a text begins with a mark of UTF-8. -/
def marked : Str → Bool
  | first :: second :: third :: _ => isMark first second third
  | _ => false

theorem isMark_blank {first second third : UInt8} (blank : IsWhiteSpace first = true) :
    isMark first second third = false := by
  have other : first ≠ 0xef := by
    rintro rfl
    cases blank
  simp [isMark, other]

theorem skipMarks_blank {c : UInt8} (blank : IsWhiteSpace c = true) (rest : Str) :
    skipMarks (c :: rest) = skipMarks rest := by
  match rest with
  | [] => simp [skipMarks, blank]
  | [_] => simp [skipMarks, blank]
  | second :: third :: _ => rw [skipMarks, isMark_blank blank, blank, if_neg (by simp), if_pos rfl]

theorem skipMarks_solid {c : UInt8} {rest : Str} (solid : IsWhiteSpace c = false)
    (unmarked : marked (c :: rest) = false) : skipMarks (c :: rest) = c :: rest := by
  match rest with
  | [] => simp [skipMarks, solid]
  | [_] => simp [skipMarks, solid]
  | second :: third :: _ =>
      rw [marked] at unmarked
      rw [skipMarks, unmarked, solid, if_neg (by simp), if_neg (by simp)]

theorem skipBlanks_solid {enc : TiXmlEncoding} {c : UInt8} {rest : Str}
    (solid : IsWhiteSpace c = false)
    (unmarked : enc = .TIXML_ENCODING_UTF8 → marked (c :: rest) = false) :
    skipBlanks enc (c :: rest) = c :: rest := by
  unfold skipBlanks
  split_ifs with utf8
  · exact skipMarks_solid solid (unmarked utf8)
  · exact List.dropWhile_cons_of_neg (by simp [solid])

theorem skipBlanks_blanks (enc : TiXmlEncoding) {blanks : Str} (blank : AllBlank blanks)
    (rest : Str) : skipBlanks enc (blanks ++ rest) = skipBlanks enc rest := by
  induction blanks with
  | nil => rfl
  | cons c blanks ih =>
      obtain ⟨here, later⟩ := List.forall_mem_cons.mp blank
      rw [← ih later]
      unfold skipBlanks
      split_ifs
      · exact skipMarks_blank here _
      · exact List.dropWhile_cons_of_pos here

theorem marked_ascii {c : UInt8} (ascii : c < 0x80) (rest : Str) : marked (c :: rest) = false := by
  have other : c ≠ 0xef := by
    rintro rfl
    exact absurd ascii (by decide)
  match rest with
  | [] => rfl
  | [_] => rfl
  | second :: third :: _ => simp [marked, isMark, other]

theorem marked_append {p : Str} (unmarked : marked p = false) {c : UInt8} (ascii : c < 0x80)
    (rest : Str) : marked (p ++ c :: rest) = false := by
  have other (d : UInt8) (high : 0x80 ≤ d) : c ≠ d := by
    rintro rfl
    exact absurd high (UInt8.not_le.mpr ascii)
  match p with
  | [] => exact marked_ascii ascii rest
  | [first] =>
      cases rest with
      | nil => rfl
      | cons third rest => simp [marked, isMark, other]
  | [first, second] => simp [marked, isMark, other]
  | first :: second :: third :: _ => exact unmarked

theorem SkipWhiteSpace_some (enc : TiXmlEncoding) {p : Str} (present : p ≠ []) :
    SkipWhiteSpace enc (some p) = some (skipBlanks enc p) := by
  cases p with
  | nil => exact absurd rfl present
  | cons c rest => rfl

theorem SkipWhiteSpace_ascii (enc : TiXmlEncoding) {blanks : Str} (blank : AllBlank blanks)
    {c : UInt8} (ascii : c < 0x80) (solid : IsWhiteSpace c = false) (rest : Str) :
    SkipWhiteSpace enc (some (blanks ++ c :: rest)) = some (c :: rest) := by
  rw [SkipWhiteSpace_some enc (by simp), skipBlanks_blanks enc blank,
    skipBlanks_solid solid fun _ => marked_ascii ascii rest]

theorem allBlank_nil : AllBlank [] := by
  intro c inside
  cases inside

theorem allBlank_append {first second : Str} :
    AllBlank (first ++ second) ↔ AllBlank first ∧ AllBlank second := by
  simp only [AllBlank, List.forall_mem_append]

theorem allBlank_newline : AllBlank [10] :=
  List.forall_mem_cons.mpr ⟨rfl, allBlank_nil⟩

theorem allBlank_indent (depth : Nat) : AllBlank (indent depth) := by
  intro c inside
  rw [List.eq_of_mem_replicate inside]
  rfl

theorem allBlank_line (depth : Nat) : AllBlank (10 :: indent depth) :=
  List.forall_mem_cons.mpr ⟨rfl, allBlank_indent depth⟩

/-! A text in quotes, and the text of an element. -/

theorem ReadText_quoted {enc : TiXmlEncoding} {written value : Str}
    (spelled : Spelled enc written value) {quote : UInt8} (mark : quote = quot ∨ quote = apos)
    {rest : Str} (present : rest ≠ []) :
    ReadText enc false [quote] (some (written ++ quote :: rest)) = .ok (value, some rest) := by
  have read := readKept_spelled spelled mark rest (by
    show written.length < (written ++ quote :: rest).length
    simp)
  simp only [ReadText, textLength, Bool.false_eq_true, if_false]
  rw [read]
  simp [behind, present]

theorem ReadText_condensed {enc : TiXmlEncoding} {written value blanks rest : Str}
    (spelled : Spelled enc written value) (spaced : Spaced value) (blank : AllBlank blanks)
    (start : skipBlanks enc (written ++ (blanks ++ less :: rest)) =
      written ++ (blanks ++ less :: rest)) (present : rest ≠ []) :
    ReadText enc true [less] (some (written ++ (blanks ++ less :: rest))) =
      .ok (value, some rest) := by
  have read := readCondensed_spelled spelled spaced false (by simp) blank rest (by
    show written.length + blanks.length < (written ++ (blanks ++ less :: rest)).length
    simp)
  simp only [ReadText, textLength, if_true]
  rw [SkipWhiteSpace_some enc (by simp), start, read]
  simp [behind, present]

/-! Attributes. -/

def Sound (data : ParsingData) : Prop := WholeText data.stamp ∧ data.error = none

theorem Stamp_sound (enc : TiXmlEncoding) {data : ParsingData} (now : Ptr)
    (sound : Sound data) : Returns (Stamp enc data now) Sound := by
  apply ((Stamp_returns enc now sound.1).and (Stamp_error enc data now)).mono
  intro after kept
  exact ⟨kept.1, kept.2.trans sound.2⟩

/-- A name that is not taken for white space in front of it. -/
structure Nameable (enc : TiXmlEncoding) (name : Str) : Prop where
  isName : IsName name
  unmarked : enc = .TIXML_ENCODING_UTF8 → marked name = false

theorem IsAlpha_ge {c : UInt8} (alpha : IsAlpha c = true) : 65 ≤ c.toNat := by
  unfold IsAlpha at alpha
  split_ifs at alpha with ascii
  · simp only [Bool.or_eq_true, Bool.and_eq_true, decide_eq_true_eq,
      UInt8.le_iff_toNat_le] at alpha
    obtain ⟨low, -⟩ | ⟨low, -⟩ := alpha
    · exact low
    · exact Nat.le_trans (by decide) low
  · exact Nat.le_trans (by decide) (UInt8.le_iff_toNat_le.mp (UInt8.not_lt.mp ascii))

theorem nameStart_ge {c : UInt8} (start : isNameStart c = true) : 65 ≤ c.toNat := by
  simp only [isNameStart, Bool.or_eq_true, decide_eq_true_eq] at start
  obtain alpha | rfl := start
  · exact IsAlpha_ge alpha
  · decide

theorem nameChar_ge {c : UInt8} (inside : isNameChar c = true) : 45 ≤ c.toNat := by
  simp only [isNameChar, IsAlphaNum, Bool.or_eq_true, Bool.and_eq_true, decide_eq_true_eq,
    UInt8.le_iff_toNat_le] at inside
  obtain ((((alpha | ⟨low, -⟩) | rfl) | rfl) | rfl) | rfl := inside
  · exact Nat.le_trans (by decide) (IsAlpha_ge alpha)
  · exact Nat.le_trans (by decide) low
  all_goals decide

theorem blank_le {c : UInt8} (blank : IsWhiteSpace c = true) : c.toNat ≤ 32 := by
  by_cases visible : c < 32
  · exact Nat.le_of_lt (UInt8.lt_iff_toNat_lt.mp visible)
  · rw [whiteSpace_of_le visible blank]
    decide

theorem nameStart_solid {c : UInt8} (start : isNameStart c = true) :
    IsWhiteSpace c = false ∧ c ≠ slash ∧ c ≠ greater ∧ c ≠ 33 ∧ c ≠ 63 := by
  have above := nameStart_ge start
  refine ⟨?_, ?_, ?_, ?_, ?_⟩
  · cases blank : IsWhiteSpace c with
    | false => rfl
    | true =>
        have := blank_le blank
        omega
  all_goals
    rintro rfl
    cases start

theorem Nameable.cases {enc : TiXmlEncoding} {name : Str} (nameable : Nameable enc name) :
    ∃ c rest, name = c :: rest ∧ isNameStart c = true := by
  obtain ⟨c, first, start⟩ := nameable.isName.1
  cases name with
  | nil => cases first
  | cons d rest =>
      cases first
      exact ⟨c, rest, rfl, start⟩

theorem Nameable.skips {enc : TiXmlEncoding} {name : Str} (nameable : Nameable enc name)
    {blanks : Str} (blank : AllBlank blanks) {d : UInt8} (ascii : d < 0x80) (rest : Str) :
    SkipWhiteSpace enc (some (blanks ++ (name ++ d :: rest))) = some (name ++ d :: rest) := by
  obtain ⟨c, others, rfl, start⟩ := nameable.cases
  rw [SkipWhiteSpace_some enc (by simp), skipBlanks_blanks enc blank, List.cons_append,
    skipBlanks_solid (nameStart_solid start).1]
  intro utf8
  exact marked_append (nameable.unmarked utf8) ascii rest

theorem Nameable.reads {enc : TiXmlEncoding} {name : Str} (nameable : Nameable enc name)
    {d : UInt8} (ends : isNameChar d = false) (rest : Str) :
    ReadName (name ++ d :: rest) = some (name, d :: rest) := by
  obtain ⟨c, others, rfl, start⟩ := nameable.cases
  have all := nameable.isName.2
  have ended : ¬isNameChar d = true := by simp [ends]
  rw [List.cons_append, ReadName, if_pos start, ← List.cons_append,
    List.takeWhile_append_of_pos all, List.dropWhile_append_of_pos all,
    List.takeWhile_cons_of_neg ended, List.dropWhile_cons_of_neg ended, List.append_nil]

theorem attribute_reads {enc : TiXmlEncoding} (document : Bool) {data : ParsingData}
    {name written value : Str} (nameable : Nameable enc name)
    (spelled : Spelled enc written value) {quote : UInt8} (mark : quote = quot ∨ quote = apos)
    {rest : Str} (present : rest ≠ []) (sound : Sound data) :
    Returns
      (TiXmlAttribute.Parse enc document data
        (some (name ++ equals :: quote :: (written ++ quote :: rest))))
      fun parsed => parsed.1 = ⟨name, value⟩ ∧ parsed.2.1 = some rest ∧ Sound parsed.2.2 := by
  have skips := nameable.skips allBlank_nil (by decide : equals < 0x80)
    (quote :: (written ++ quote :: rest))
  have reads := nameable.reads (by decide : isNameChar equals = false)
    (quote :: (written ++ quote :: rest))
  have mid := SkipWhiteSpace_ascii enc allBlank_nil (by decide : equals < 0x80) (by decide)
    (quote :: (written ++ quote :: rest))
  have quoted : quote < 0x80 ∧ IsWhiteSpace quote = false := by
    obtain rfl | rfl := mark <;> decide
  have before := SkipWhiteSpace_ascii enc allBlank_nil quoted.1 quoted.2 (written ++ quote :: rest)
  rw [List.nil_append] at skips mid before
  unfold TiXmlAttribute.Parse
  rw [skips]
  obtain ⟨c, others, rfl, start⟩ := nameable.cases
  simp only [List.cons_append] at reads ⊢
  apply (Stamp_sound enc _ sound).bind
  intro data sound
  rw [reads]
  dsimp only
  rw [mid]
  dsimp only
  rw [if_pos rfl]
  unfold TiXmlAttribute.parseValue
  rw [before]
  dsimp only
  rw [if_pos (by obtain rfl | rfl := mark <;> rfl), ReadText_quoted spelled mark present]
  exact Returns.ok ⟨rfl, rfl, sound⟩

theorem encodeChar_plain {c : UInt8} (unknown : (entity.find? fun known => known.2 = c) = none)
    (visible : ¬c < 32) : encodeChar c = [c] := by
  rw [encodeChar, unknown]
  exact if_neg visible

theorem nameChar_plain {c : UInt8} (inside : isNameChar c = true) :
    encodeChar c = [c] ∧ c ≠ amp ∧ c ≠ 0 ∧ c ≠ 13 := by
  have unknown : (entity.find? fun known => known.2 = c) = none := by
    simp only [List.find?_eq_none, decide_eq_true_eq]
    rintro ⟨name, d⟩ known same
    dsimp only at same
    subst same
    simp only [entity, List.mem_cons, Prod.mk.injEq, List.not_mem_nil, or_false] at known
    obtain ⟨-, rfl⟩ | ⟨-, rfl⟩ | ⟨-, rfl⟩ | ⟨-, rfl⟩ | ⟨-, rfl⟩ := known <;> cases inside
  have visible : ¬c < 32 := by
    intro control
    have below := UInt8.lt_iff_toNat_lt.mp control
    have above := nameChar_ge inside
    exact absurd (Nat.lt_of_le_of_lt above below) (by decide)
  refine ⟨encodeChar_plain unknown visible, (not_known unknown).1, ?_, ?_⟩
  all_goals
    rintro rfl
    cases inside

theorem encodeString_plain {text : Str} (plain : ∀ c ∈ text, encodeChar c = [c] ∧ c ≠ amp) :
    EncodeString false text = text := by
  induction text with
  | nil => rfl
  | cons c rest ih =>
      obtain ⟨here, later⟩ := List.forall_mem_cons.mp plain
      rw [encodeString_literal, here.1, ih later]
      · rfl
      · intro reference
        exact here.2 (List.cons_prefix_cons.mp reference).1.symm

/-! Printed attributes. -/

theorem encodeChar_visible (c : UInt8) : ∀ d ∈ encodeChar c, 32 ≤ d.toNat := by
  unfold encodeChar
  split
  · rename_i name other found
    have known := List.mem_of_find?_eq_some found
    simp only [entity, List.mem_cons, Prod.mk.injEq, List.not_mem_nil, or_false] at known
    obtain ⟨rfl, -⟩ | ⟨rfl, -⟩ | ⟨rfl, -⟩ | ⟨rfl, -⟩ | ⟨rfl, -⟩ := known <;>
      exact forall_of_all rfl
  · split_ifs with control
    · obtain ⟨n, bound, rfl⟩ : ∃ n, n < 32 ∧ c = UInt8.ofNat n :=
        ⟨c.toNat, UInt8.lt_iff_toNat_lt.mp control, by simp⟩
      interval_cases n <;> exact forall_of_all rfl
    · intro d same
      rw [List.mem_singleton.mp same]
      exact UInt8.le_iff_toNat_le.mp (UInt8.not_lt.mp control)

theorem encoded_visible {enc : TiXmlEncoding} {value : Str} (chars : Chars enc value) :
    ∀ c ∈ EncodeString false value, 32 ≤ c.toNat := by
  induction chars with
  | nil => simp [EncodeString]
  | @single c rest _ literal _ ih =>
      rw [encodeString_literal literal]
      exact List.forall_mem_append.mpr ⟨encodeChar_visible c, ih⟩
  | @several c more rest _ length present high _ ih =>
      have more_pos := List.length_pos_iff.mpr present
      have above : 0x80 ≤ c :=
        UInt8.le_trans (by decide) (utf8ByteTable_high (by omega : utf8ByteTable c ≠ 1))
      have all := List.forall_mem_cons.mpr ⟨above, high⟩
      rw [encodeString_high all]
      refine List.forall_mem_append.mpr ⟨?_, ih⟩
      intro d inside
      exact Nat.le_trans (by decide) (UInt8.le_iff_toNat_le.mp (all d inside))

theorem encoded_cString {enc : TiXmlEncoding} {value : Str} (chars : Chars enc value) :
    Stream.cString (EncodeString false value) = EncodeString false value := by
  rw [Packet.cString_eq_self_iff]
  intro inside
  exact absurd (encoded_visible chars 0 inside) (by decide)

theorem IsName.encoded {name : Str} (isName : IsName name) :
    Stream.cString (EncodeString false name) = name := by
  rw [encodeString_plain fun c inside =>
    ⟨(nameChar_plain (isName.2 c inside)).1, (nameChar_plain (isName.2 c inside)).2.1⟩,
    Packet.cString_eq_self_iff]
  intro inside
  exact (nameChar_plain (isName.2 0 inside)).2.2.1 rfl

theorem IsName.cString {name : Str} (isName : IsName name) : Stream.cString name = name := by
  rw [Packet.cString_eq_self_iff]
  intro inside
  exact (nameChar_plain (isName.2 0 inside)).2.2.1 rfl

structure Writable (enc : TiXmlEncoding) (attrib : TiXmlAttribute) : Prop where
  name : Nameable enc attrib.name
  value : Chars enc attrib.value

theorem Writable.print {enc : TiXmlEncoding} {attrib : TiXmlAttribute}
    (writable : Writable enc attrib) :
    ∃ quote, (quote = quot ∨ quote = apos) ∧
      attrib.Print =
        attrib.name ++ equals :: quote :: (EncodeString false attrib.value ++ [quote]) := by
  simp only [TiXmlAttribute.Print, writable.name.isName.encoded, encoded_cString writable.value]
  split_ifs
  · exact ⟨apos, Or.inr rfl, by simp⟩
  · exact ⟨quot, Or.inl rfl, by simp⟩

inductive Opens : Str → Opening → Prop where
  | returns (rest : Str) : Opens (32 :: slash :: greater :: rest) (.returns (some rest))
  | content (rest : Str) : Opens (greater :: rest) (.content rest)

theorem Opens.ne_nil {text : Str} {opening : Opening} (opens : Opens text opening) :
    text ≠ [] := by
  cases opens <;> simp

theorem printed_ne_nil {text : Str} {opening : Opening} (opens : Opens text opening)
    (todo : List TiXmlAttribute) :
    (todo.flatMap fun attrib => 32 :: attrib.Print) ++ text ≠ [] := by
  intro none
  exact opens.ne_nil (List.append_eq_nil_iff.mp none).2

theorem allBlank_space : AllBlank [32] :=
  List.forall_mem_cons.mpr ⟨rfl, allBlank_nil⟩

theorem readAttributes_opens {enc : TiXmlEncoding} {text : Str} {opening : Opening}
    (opens : Opens text opening) {data : ParsingData} (done : List TiXmlAttribute) (fuel : Nat) :
    readAttributes enc (fuel + 1) data done text = .ok (done, opening, data) := by
  cases opens with
  | returns rest =>
      have skips := SkipWhiteSpace_ascii enc allBlank_space (by decide : slash < 0x80)
        (by decide) (greater :: rest)
      rw [List.singleton_append] at skips
      rw [readAttributes, skips]
      rfl
  | content rest =>
      have skips := SkipWhiteSpace_ascii enc allBlank_nil (by decide : greater < 0x80) (by decide)
        rest
      rw [List.nil_append] at skips
      rw [readAttributes, skips]
      rfl

theorem readAttributes_reads {enc : TiXmlEncoding} {text : Str} {opening : Opening}
    (opens : Opens text opening) (done todo : List TiXmlAttribute) {data : ParsingData}
    (writable : ∀ attrib ∈ todo, Writable enc attrib)
    (distinct : ((done ++ todo).map TiXmlAttribute.name).Nodup) (sound : Sound data) {fuel : Nat}
    (enough : todo.length < fuel) :
    Returns
      (readAttributes enc fuel data done
        ((todo.flatMap fun attrib => 32 :: attrib.Print) ++ text))
      fun read => read.1 = done ++ todo ∧ read.2.1 = opening ∧ Sound read.2.2 := by
  induction todo generalizing done data fuel with
  | nil =>
      obtain ⟨fuel, rfl⟩ := Nat.exists_eq_succ_of_ne_zero (by omega : fuel ≠ 0)
      rw [List.flatMap_nil, List.nil_append, readAttributes_opens opens]
      exact Returns.ok ⟨by simp, rfl, sound⟩
  | cons attrib todo ih =>
      obtain ⟨here, later⟩ := List.forall_mem_cons.mp writable
      obtain ⟨fuel, rfl⟩ := Nat.exists_eq_succ_of_ne_zero (by omega : fuel ≠ 0)
      simp only [List.length_cons] at enough
      obtain ⟨quote, mark, printed⟩ := here.print
      have parses := attribute_reads true here.name (chars_spelled here.value) mark
        (printed_ne_nil opens todo) sound
      have skips := here.name.skips allBlank_space (by decide : equals < 0x80)
        (quote :: (EncodeString false attrib.value ++ quote ::
          ((todo.flatMap fun attrib => 32 :: attrib.Print) ++ text)))
      have fresh : (done.any fun known => known.name = attrib.name) = false := by
        rw [List.any_eq_false]
        intro known inside same
        rw [List.map_append] at distinct
        have apart := (List.nodup_append.mp distinct).2.2 known.name
          (List.mem_map_of_mem inside) attrib.name (by simp)
        exact apart (by simpa using same)
      have whole :
          (((attrib :: todo).flatMap fun attrib => 32 :: attrib.Print) ++ text) =
            [32] ++ (attrib.name ++ equals :: quote :: (EncodeString false attrib.value ++
              quote :: ((todo.flatMap fun attrib => 32 :: attrib.Print) ++ text))) := by
        simp [printed]
      obtain ⟨c, others, name, start⟩ := here.name.cases
      have solid := nameStart_solid start
      rw [whole, readAttributes, skips]
      rw [name, List.cons_append] at parses ⊢
      dsimp only
      rw [if_neg solid.2.1, if_neg solid.2.2.1]
      apply parses.bind
      rintro ⟨parsed, q, after⟩ ⟨same, left, sound⟩
      dsimp only at same left sound ⊢
      have here : parsed = attrib := by rw [same, ← name]
      subst here left
      obtain ⟨next, p, rest⟩ := List.exists_cons_of_ne_nil (printed_ne_nil opens todo)
      have goesOn := ih (done ++ [parsed]) later (by simpa using distinct) sound
        (Nat.lt_of_succ_lt_succ enough)
      rw [rest] at goesOn ⊢
      dsimp only
      rw [fresh, if_neg (by simp)]
      apply goesOn.mono
      rintro read ⟨all, opened, sound⟩
      exact ⟨by simpa using all, opened, sound⟩

/-! Declarations. -/

/-- A value that is written as it is, without encoding. -/
def PlainValue (value : Str) : Prop := ∀ c ∈ value, c < 0x80 ∧ encodeChar c = [c]

theorem PlainValue.spelled {value : Str} (plain : PlainValue value) (enc : TiXmlEncoding) :
    Spelled enc value value := by
  induction value with
  | nil => exact Spelled.nil
  | cons c rest ih =>
      obtain ⟨⟨ascii, kept⟩, later⟩ := List.forall_mem_cons.mp plain
      have alone : utf8ByteTable c = 1 := if_pos (UInt8.lt_trans ascii (by decide))
      have spelled := spelled_single (fun _ => alone) (ih later)
      rwa [kept] at spelled

theorem PlainValue.cString {value : Str} (plain : PlainValue value) :
    Stream.cString value = value := by
  rw [Packet.cString_eq_self_iff]
  intro inside
  exact absurd (plain 0 inside).2 (by decide)

inductive Key where
  | version
  | encoding
  | standalone

def Key.text : Key → Str
  | .version => TinyXml.version
  | .encoding => TinyXml.encoding
  | .standalone => TinyXml.standalone

def Key.set (read : Str × Str × Str) : Key → Str → Str × Str × Str
  | .version, value => (value, read.2.1, read.2.2)
  | .encoding, value => (read.1, value, read.2.2)
  | .standalone, value => (read.1, read.2.1, value)

theorem key_nameable (enc : TiXmlEncoding) (key : Key) : Nameable enc key.text := by
  cases key <;> exact ⟨⟨⟨_, rfl, rfl⟩, forall_of_all rfl⟩, fun _ => rfl⟩

def Takes (enc : TiXmlEncoding) (key : Str) (before : Str × Str × Str)
    (after : Str → Str × Str × Str) : Prop :=
  ∀ (fuel : Nat) (data : ParsingData) (rest : Str),
    readDeclaration enc (fuel + 1) data before (some (32 :: (key ++ rest))) = (do
      let (attrib, p, data) ← TiXmlAttribute.Parse enc false data (some (key ++ rest))
      readDeclaration enc fuel data (after (Stream.cString attrib.value)) p)

theorem skipBlanks_key (enc : TiXmlEncoding) (c : UInt8) (ascii : c < 0x80)
    (solid : IsWhiteSpace c = false) (rest : Str) :
    skipBlanks enc (32 :: c :: rest) = c :: rest := by
  have skips := SkipWhiteSpace_ascii enc allBlank_space ascii solid rest
  exact Option.some.inj skips

theorem takes_key (enc : TiXmlEncoding) (key : Key) (read : Str × Str × Str) :
    Takes enc key.text read (key.set read) := by
  intro fuel data rest
  obtain ⟨c, tail, head, ascii, solid⟩ :
      ∃ c tail, key.text = c :: tail ∧ c < 0x80 ∧ IsWhiteSpace c = false := by
    cases key <;> exact ⟨_, _, rfl, by decide, by decide⟩
  have skips : skipBlanks enc (32 :: (key.text ++ rest)) = key.text ++ rest := by
    rw [head]
    exact skipBlanks_key enc c ascii solid (tail ++ rest)
  rw [readDeclaration, if_neg (by decide)]
  dsimp only
  rw [skips]
  cases key with
  | version => exact if_pos rfl
  | encoding =>
      rw [if_neg (by exact Bool.false_ne_true), if_pos (by rfl)]
      rfl
  | standalone =>
      rw [if_neg (by exact Bool.false_ne_true), if_neg (by exact Bool.false_ne_true),
        if_pos (by rfl)]
      rfl

def Declares (enc : TiXmlEncoding) (fuel : Nat) (read : Str × Str × Str) (text : Str)
    (result : Str × Str × Str) (rest : Str) : Prop :=
  ∀ (enough : Nat) (data : ParsingData), fuel ≤ enough → Sound data →
    Returns (readDeclaration enc enough data read (some text))
      fun declared => declared.1 = result ∧ declared.2.1 = some rest ∧ Sound declared.2.2

theorem Declares.key {enc : TiXmlEncoding} {fuel : Nat} {key value : Str}
    {before : Str × Str × Str} {after : Str → Str × Str × Str} {text rest : Str}
    {result : Str × Str × Str} (nameable : Nameable enc key)
    (takes : Takes enc key before after) (unset : after [] = before) (plain : PlainValue value)
    (declares : Declares enc fuel (after value) (32 :: text) result rest) :
    Declares enc (fuel + 1) before (32 :: (printKey key value ++ text)) result rest := by
  intro enough data bound sound
  unfold printKey
  split_ifs with empty
  · subst empty
    rw [unset] at declares
    exact declares enough data (by omega) sound
  · obtain ⟨more, rfl⟩ := Nat.exists_eq_add_of_le' bound
    have parses := attribute_reads false nameable (plain.spelled enc) (Or.inl rfl)
      (List.cons_ne_nil 32 text) sound
    have whole : key ++ equals :: quot :: Stream.cString value ++ [quot, 32] ++ text =
        key ++ equals :: quot :: (value ++ quot :: 32 :: text) := by
      simp [plain.cString]
    rw [whole, ← Nat.add_assoc, takes]
    apply parses.bind
    rintro ⟨attrib, q, stamped⟩ ⟨rfl, rfl, sound⟩
    dsimp only
    rw [plain.cString]
    exact declares (more + fuel) stamped (by omega) sound

theorem declares_end (enc : TiXmlEncoding) (read : Str × Str × Str) (rest : Str) :
    Declares enc 2 read (32 :: 63 :: greater :: rest) read rest := by
  intro enough data bound sound
  obtain ⟨more, rfl⟩ := Nat.exists_eq_add_of_le' bound
  have skips := skipBlanks_key enc 63 (by decide) (by decide) (greater :: rest)
  rw [readDeclaration, if_neg (by decide)]
  dsimp only
  rw [skips, if_neg (by exact Bool.false_ne_true), if_neg (by exact Bool.false_ne_true),
    if_neg (by exact Bool.false_ne_true)]
  exact Returns.ok ⟨rfl, rfl, sound⟩

theorem declaration_reads {enc : TiXmlEncoding} {version_ encoding_ standalone_ : Str}
    (plainVersion : PlainValue version_) (plainEncoding : PlainValue encoding_)
    (plainStandalone : PlainValue standalone_) {data : ParsingData} (sound : Sound data)
    (rest : Str) :
    Returns
      (parseDeclaration enc data
        (Print 0 (.TiXmlDeclaration version_ encoding_ standalone_) ++ rest))
      fun parsed => parsed.1 = .TiXmlDeclaration version_ encoding_ standalone_ ∧
        parsed.2.1 = some rest ∧ Sound parsed.2.2 := by
  have declares :=
    Declares.key (key_nameable enc .version) (takes_key enc .version ([], [], [])) rfl plainVersion
      (Declares.key (key_nameable enc .encoding) (takes_key enc .encoding (version_, [], [])) rfl
        plainEncoding
        (Declares.key (key_nameable enc .standalone)
          (takes_key enc .standalone (version_, encoding_, [])) rfl
          plainStandalone (declares_end enc (version_, encoding_, standalone_) rest)))
  have whole : Print 0 (.TiXmlDeclaration version_ encoding_ standalone_) ++ rest =
      xmlHeader ++ 32 :: (printKey version version_ ++ (printKey encoding encoding_ ++
        (printKey standalone standalone_ ++ 63 :: greater :: rest))) := by
    simp [Print]
  rw [whole]
  unfold parseDeclaration
  apply (Stamp_sound enc _ sound).bind
  intro data sound
  rw [List.drop_left]
  apply (declares _ data (by simp [xmlHeader]) sound).bind
  rintro ⟨_, q, after⟩ ⟨rfl, rfl, sound⟩
  exact Returns.ok ⟨rfl, rfl, sound⟩

/-! Comments, unknown nodes and character data. -/

theorem readUntil_reads {c : UInt8} (other : c ≠ greater) {value : Str}
    (inside : ¬[c, c, greater] <:+: value) (rest : Str) :
    readUntil [c, c, greater] (value ++ ([c, c, greater] ++ rest)) =
      (value, [c, c, greater] ++ rest) := by
  have starts (p : Str) : startsWith p [c, c, greater] = true ↔ [c, c, greater] <+: p :=
    startsWith_iff (by simp)
  induction value with
  | nil =>
      rw [List.nil_append]
      exact if_pos ((starts _).mpr (List.prefix_append _ rest))
  | cons d value ih =>
      rw [List.infix_cons_iff, not_or] at inside
      have goesOn : ¬startsWith (d :: (value ++ ([c, c, greater] ++ rest))) [c, c, greater] =
          true := by
        rw [starts]
        intro found
        match value with
        | [] => exact other (by simp_all)
        | [_] => exact other (by simp_all)
        | second :: third :: value =>
            apply inside.1
            simp only [List.cons_append, List.cons_prefix_cons] at found ⊢
            exact ⟨found.1, found.2.1, found.2.2.1, List.nil_prefix⟩
      rw [List.cons_append, readUntil, if_neg goesOn, ih inside.2]

/-- The bytes that a file gives back as they are. -/
def Raw (value : Str) : Prop := ∀ c ∈ value, c ≠ 0 ∧ c ≠ 13

theorem Raw.cString {value : Str} (raw : Raw value) : Stream.cString value = value := by
  rw [Packet.cString_eq_self_iff]
  intro inside
  exact (raw 0 inside).1 rfl

theorem comment_reads {enc : TiXmlEncoding} {value : Str} (inside : ¬commentEnd <:+: value)
    {data : ParsingData} (sound : Sound data) (rest : Str) :
    Returns (parseComment enc data (commentHeader ++ (value ++ (commentEnd ++ rest))))
      fun parsed => parsed.1 = .TiXmlComment value ∧ parsed.2.1 = some rest ∧
        Sound parsed.2.2 := by
  unfold parseComment
  apply (Stamp_sound enc _ sound).bind
  intro data sound
  rw [List.drop_left, show readUntil commentEnd (value ++ (commentEnd ++ rest)) =
    (value, commentEnd ++ rest) from readUntil_reads (by decide) inside rest]
  dsimp only
  rw [List.drop_left]
  exact Returns.ok ⟨rfl, rfl, sound⟩

theorem unknown_reads {enc : TiXmlEncoding} {value : Str} (inside : greater ∉ value)
    {data : ParsingData} (sound : Sound data) (rest : Str) :
    Returns (parseUnknown enc data (less :: (value ++ greater :: rest)))
      fun parsed => parsed.1 = .TiXmlUnknown value ∧ parsed.2.1 = some rest ∧
        Sound parsed.2.2 := by
  have all : ∀ c ∈ value, (decide (c ≠ greater)) = true := by
    intro c member
    simp only [decide_eq_true_eq]
    rintro rfl
    exact inside member
  unfold parseUnknown
  apply (Stamp_sound enc _ sound).bind
  intro data sound
  rw [List.tail_cons, List.takeWhile_append_of_pos all, List.dropWhile_append_of_pos all,
    List.takeWhile_cons_of_neg (by simp), List.dropWhile_cons_of_neg (by simp), List.append_nil]
  exact Returns.ok ⟨rfl, rfl, sound⟩

theorem cdata_reads {enc : TiXmlEncoding} {value : Str} (inside : ¬cdataEnd <:+: value)
    {data : ParsingData} (sound : Sound data) {rest : Str} (present : rest ≠ []) :
    Returns (parseCdata enc data (cdataHeader ++ (value ++ (cdataEnd ++ rest))))
      fun parsed => parsed.1 = .TiXmlText value true ∧ parsed.2.1 = some rest ∧
        Sound parsed.2.2 := by
  unfold parseCdata
  apply (Stamp_sound enc _ sound).bind
  intro data sound
  rw [List.drop_left, show readUntil cdataEnd (value ++ (cdataEnd ++ rest)) =
    (value, cdataEnd ++ rest) from readUntil_reads (by decide) inside rest]
  have ends : ReadText enc false cdataEnd (some (cdataEnd ++ rest)) = .ok ([], some rest) := by
    have found : startsWith (cdataEnd ++ rest) cdataEnd = true :=
      (startsWith_iff (by decide)).mpr (List.prefix_append _ _)
    have stays : readKept enc cdataEnd (cdataEnd ++ rest).length (some (cdataEnd ++ rest)) =
        .ok ([], some (cdataEnd ++ rest)) := by
      show readKept enc cdataEnd (rest.length + 3) (some (93 :: (93 :: greater :: rest))) = _
      rw [readKept]
      exact if_pos found
    simp only [ReadText, textLength, Bool.false_eq_true, if_false]
    rw [stays]
    show Except.ok ([], behind cdataEnd.length (some (cdataEnd ++ rest))) = _
    rw [behind, List.drop_left, if_neg present]
  dsimp only
  rw [ends]
  exact Returns.ok ⟨rfl, rfl, sound⟩

end TinyXml

end GraduationServer
