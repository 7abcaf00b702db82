import GraduationServer.TinyXml
import Mathlib.Tactic.IntervalCases

/-!
`SaveFile` of TinyXML and the `Print` of the nodes, and how the characters that
`EncodeString` writes are read again.
-/

namespace GraduationServer

namespace TinyXml

def hexUpper (digit : UInt8) : UInt8 := if digit < 10 then 48 + digit else 55 + digit

def encodeChar (c : UInt8) : Str :=
  match entity.find? fun known => known.2 = c with
  | some (name, _) => amp :: name
  | none =>
      if c < 32 then [amp, 35, 120, hexUpper (c / 16), hexUpper (c % 16), semicolon] else [c]

/-- `passing` is inside of what looks like a hexadecimal reference, which goes
through unchanged up to a semicolon or the last byte. -/
def EncodeString (passing : Bool) : Str → Str
  | [] => []
  | c :: rest =>
      if rest ≠ [] ∧ (passing = true ∨ c = amp ∧ [35, 120] <+: rest) then
        c :: EncodeString (rest.head? ≠ some semicolon) rest
      else encodeChar c ++ EncodeString false rest

def TiXmlAttribute.Print (attrib : TiXmlAttribute) : Str :=
  let n := Stream.cString (EncodeString false attrib.name)
  let v := Stream.cString (EncodeString false attrib.value)
  let quote := if quot ∈ Stream.cString attrib.value then apos else quot
  n ++ equals :: quote :: v ++ [quote]

def ToText : TiXmlNode → Bool
  | .TiXmlText _ _ => true
  | _ => false

def onlyText : List TiXmlNode → Bool
  | [child] => ToText child
  | _ => false

def indent (depth : Nat) : Str := List.replicate (4 * depth) 32

def printKey (key value : Str) : Str :=
  if value = [] then [] else key ++ equals :: quot :: Stream.cString value ++ [quot, 32]

mutual

def Print (depth : Nat) : TiXmlNode → Str
  | .TiXmlElement value attributeSet children =>
      indent depth ++ less :: Stream.cString value ++
        attributeSet.flatMap (fun attrib => 32 :: attrib.Print) ++
          (if children.isEmpty then [32, slash, greater]
          else if onlyText children then
            greater :: PrintChildren (depth + 1) children ++
              endTag ++ Stream.cString value ++ [greater]
          else
            greater :: PrintChildren (depth + 1) children ++ 10 :: indent depth ++
              endTag ++ Stream.cString value ++ [greater])
  | .TiXmlText value true =>
      10 :: indent depth ++ cdataHeader ++ Stream.cString value ++ cdataEnd ++ [10]
  | .TiXmlText value false => Stream.cString (EncodeString false value)
  | .TiXmlComment value => indent depth ++ commentHeader ++ Stream.cString value ++ commentEnd
  | .TiXmlUnknown value => indent depth ++ less :: Stream.cString value ++ [greater]
  | .TiXmlDeclaration version_ encoding_ standalone_ =>
      xmlHeader ++ 32 :: printKey version version_ ++ printKey encoding encoding_ ++
        printKey standalone standalone_ ++ [63, greater]

def PrintChildren (depth : Nat) : List TiXmlNode → Str
  | [] => []
  | node :: nodes =>
      (if ToText node then [] else [10]) ++ Print depth node ++ PrintChildren depth nodes

end

def TiXmlDocument.Print (nodes : List TiXmlNode) : Str :=
  nodes.flatMap fun node => TinyXml.Print 0 node ++ [10]

def textMode (text : Str) : Str := text.flatMap fun c => if c = 10 then [13, 10] else [c]

def SaveFile (useMicrosoftBOM : Bool) (nodes : List TiXmlNode) : Str :=
  textMode ((if useMicrosoftBOM then microsoftBOM else []) ++ TiXmlDocument.Print nodes)

/-! The characters of a value. -/

/-- A value whose characters are whole and are not written as a reference is. -/
inductive Chars (enc : TiXmlEncoding) : Str → Prop where
  | nil : Chars enc []
  | single {c : UInt8} {rest : Str} (alone : enc = .TIXML_ENCODING_UTF8 → utf8ByteTable c = 1)
      (literal : ¬[amp, 35, 120] <+: c :: rest) (chars : Chars enc rest) : Chars enc (c :: rest)
  | several {c : UInt8} {more rest : Str} (utf8 : enc = .TIXML_ENCODING_UTF8)
      (length : utf8ByteTable c = more.length + 1) (present : more ≠ [])
      (high : ∀ d ∈ more, 0x80 ≤ d) (chars : Chars enc rest) : Chars enc (c :: more ++ rest)

/-- What is written for a value, character by character: each is read back at
once, and none of them ends a text, a value in quotes or, but for the space, a word. -/
inductive Spelled (enc : TiXmlEncoding) : Str → Str → Prop where
  | nil : Spelled enc [] []
  | char {c : UInt8} {more unit written value : Str}
      (reads : ∀ rest, GetChar enc c (more ++ rest) = .ok (some (unit, rest)))
      (plain : c ≠ less ∧ c ≠ quot ∧ c ≠ apos)
      (solid : IsWhiteSpace c = true → unit = [32] ∧ more = [])
      (spelled : Spelled enc written value) :
      Spelled enc (c :: more ++ written) (unit ++ value)

theorem GetChar_amp (enc : TiXmlEncoding) (rest : Str) :
    GetChar enc amp rest = .ok (GetEntity enc rest) := by
  cases enc <;> rfl

theorem GetEntity_known (enc : TiXmlEncoding) {name : Str} {c : UInt8}
    (known : (name, c) ∈ entity) (rest : Str) :
    GetEntity enc (name ++ rest) = some ([c], rest) := by
  simp only [entity, List.mem_cons, Prod.mk.injEq, List.not_mem_nil, or_false] at known
  obtain ⟨rfl, rfl⟩ | ⟨rfl, rfl⟩ | ⟨rfl, rfl⟩ | ⟨rfl, rfl⟩ | ⟨rfl, rfl⟩ := known <;>
    simp [GetEntity, entity, List.find?, List.isPrefixOf]

theorem GetEntity_control (enc : TiXmlEncoding) {c : UInt8} (control : c < 32) (rest : Str) :
    GetEntity enc
      (35 :: 120 :: hexUpper (c / 16) :: hexUpper (c % 16) :: semicolon :: rest) =
      some ([c], rest) := by
  obtain ⟨n, bound, rfl⟩ : ∃ n, n < 32 ∧ c = UInt8.ofNat n :=
    ⟨c.toNat, UInt8.lt_iff_toNat_lt.mp control, by simp⟩
  interval_cases n <;> cases enc <;> rfl

theorem not_known {c : UInt8} (unknown : (entity.find? fun known => known.2 = c) = none) :
    c ≠ amp ∧ c ≠ less ∧ c ≠ quot ∧ c ≠ apos := by
  simp only [entity, List.find?_eq_none, List.mem_cons, List.not_mem_nil, or_false,
    decide_eq_true_eq, forall_eq_or_imp, forall_eq] at unknown
  exact ⟨Ne.symm unknown.1, Ne.symm unknown.2.1, Ne.symm unknown.2.2.2.1,
    Ne.symm unknown.2.2.2.2⟩

theorem whiteSpace_of_le {c : UInt8} (visible : ¬c < 32) (blank : IsWhiteSpace c = true) :
    c = 32 := by
  simp only [IsWhiteSpace, Bool.or_eq_true, Bool.and_eq_true, decide_eq_true_eq] at blank
  obtain same | between := blank
  · exact same
  · exact absurd (UInt8.lt_of_le_of_lt between.2 (by decide)) visible

theorem spelled_single {enc : TiXmlEncoding} {c : UInt8}
    (alone : enc = .TIXML_ENCODING_UTF8 → utf8ByteTable c = 1) {written value : Str}
    (spelled : Spelled enc written value) : Spelled enc (encodeChar c ++ written) (c :: value) := by
  have length : (if enc = .TIXML_ENCODING_UTF8 then utf8ByteTable c else 1) = 1 := by
    split_ifs with utf8
    · exact alone utf8
    · rfl
  unfold encodeChar
  split
  · rename_i name d found
    have known := List.mem_of_find?_eq_some found
    have same : d = c := by simpa using List.find?_some found
    subst same
    refine @Spelled.char enc amp name [d] _ _ ?_ (by decide) ?_ spelled
    · intro rest
      rw [GetChar_amp, GetEntity_known enc known]
    · intro blank
      cases blank
  · rename_i unknown
    have plain := not_known unknown
    split_ifs with control
    · refine @Spelled.char enc amp _ [c] _ _ ?_ (by decide) ?_ spelled
      · intro rest
        rw [GetChar_amp]
        exact congrArg Except.ok (GetEntity_control enc control rest)
      · intro blank
        cases blank
    · refine @Spelled.char enc c [] [c] _ _ ?_ plain.2 ?_ spelled
      · intro rest
        simp [GetChar, length, plain.1]
      · intro blank
        rw [whiteSpace_of_le control blank]
        exact ⟨rfl, rfl⟩

theorem high_visible {c : UInt8} (high : 0x80 ≤ c) : ¬c < 32 := by
  intro control
  exact absurd high (UInt8.not_le.mpr (UInt8.lt_trans control (by decide)))

theorem high_not_whiteSpace {c : UInt8} (high : 0x80 ≤ c) : ¬IsWhiteSpace c = true := by
  intro blank
  rw [whiteSpace_of_le (high_visible high) blank] at high
  exact absurd high (by decide)

theorem encodeChar_high {c : UInt8} (high : 0x80 ≤ c) : encodeChar c = [c] := by
  have unknown : (entity.find? fun known => known.2 = c) = none := by
    simp only [List.find?_eq_none, decide_eq_true_eq]
    rintro ⟨name, d⟩ known same
    dsimp only at same
    subst same
    simp only [entity, List.mem_cons, Prod.mk.injEq, List.not_mem_nil, or_false] at known
    obtain ⟨-, rfl⟩ | ⟨-, rfl⟩ | ⟨-, rfl⟩ | ⟨-, rfl⟩ | ⟨-, rfl⟩ := known <;>
      exact absurd high (by decide)
  rw [encodeChar, unknown]
  exact if_neg (high_visible high)

theorem encodeString_literal {c : UInt8} {rest : Str} (literal : ¬[amp, 35, 120] <+: c :: rest) :
    EncodeString false (c :: rest) = encodeChar c ++ EncodeString false rest := by
  rw [EncodeString, if_neg]
  rintro ⟨-, passing | ⟨rfl, reference⟩⟩
  · cases passing
  · exact literal (List.cons_prefix_cons.mpr ⟨rfl, reference⟩)

theorem encodeString_high {more rest : Str} (high : ∀ d ∈ more, 0x80 ≤ d) :
    EncodeString false (more ++ rest) = more ++ EncodeString false rest := by
  induction more with
  | nil => rfl
  | cons d more ih =>
      have here := high d (by simp)
      rw [List.cons_append, encodeString_literal, encodeChar_high here,
        ih fun e inside => high e (by simp [inside])]
      · rfl
      · intro reference
        obtain ⟨rfl, -⟩ := List.cons_prefix_cons.mp reference
        exact absurd here (by decide)

theorem utf8ByteTable_high {c : UInt8} (several : utf8ByteTable c ≠ 1) : 0xc2 ≤ c := by
  by_contra low
  exact several (if_pos (UInt8.not_le.mp low))

theorem chars_spelled {enc : TiXmlEncoding} {value : Str} (chars : Chars enc value) :
    Spelled enc (EncodeString false value) value := by
  induction chars with
  | nil => exact Spelled.nil
  | single alone literal _ ih =>
      rw [encodeString_literal literal]
      exact spelled_single alone ih
  | several utf8 length present high _ ih =>
      rename_i c more rest _
      have more_pos := List.length_pos_iff.mpr present
      have longer : utf8ByteTable c ≠ 1 := by omega
      have above : 0x80 ≤ c := UInt8.le_trans (by decide) (utf8ByteTable_high longer)
      rw [encodeString_high (List.forall_mem_cons.mpr ⟨above, high⟩)]
      refine @Spelled.char enc c more (c :: more) _ _ ?_ ?_ ?_ ih
      · intro rest
        simp [GetChar, utf8, length, present]
      · refine ⟨?_, ?_, ?_⟩ <;> rintro rfl <;> exact absurd above (by decide)
      · intro blank
        exact absurd blank (high_not_whiteSpace above)

end TinyXml

end GraduationServer
