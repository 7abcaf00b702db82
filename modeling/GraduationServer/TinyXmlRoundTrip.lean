import GraduationServer.TinyXmlReadBack
import Mathlib.Data.List.Chain

/-!
`LoadFile` finds the nodes again that `SaveFile` has written, as far as their
values can be written at all.
-/

namespace GraduationServer

namespace TinyXml

open Contracts

/-! Nodes. -/

def plainText : TiXmlNode → Bool
  | .TiXmlText _ false => true
  | _ => false

/-- No text comes right after a text: they would be read as one. -/
def Apart (nodes : List TiXmlNode) : Prop :=
  nodes.IsChain fun first second => ¬(plainText first = true ∧ plainText second = true)

/-- A node that can be written down and found again. Its text must not lose white
space, its attributes must be distinct, and nothing may end a node too early. -/
inductive Printable (enc : TiXmlEncoding) : TiXmlNode → Prop where
  | element {value : Str} {attributeSet : List TiXmlAttribute} {children : List TiXmlNode}
      (name : Nameable enc value) (attributes : ∀ attrib ∈ attributeSet, Writable enc attrib)
      (distinct : (attributeSet.map TiXmlAttribute.name).Nodup) (apart : Apart children)
      (content : ∀ child ∈ children, Printable enc child) :
      Printable enc (.TiXmlElement value attributeSet children)
  | text {value : Str} (chars : Chars enc value) (spaced : Spaced value)
      (visible : Blank value = false) (first : value.head? ≠ some 32)
      (unmarked : enc = .TIXML_ENCODING_UTF8 → marked (EncodeString false value) = false) :
      Printable enc (.TiXmlText value false)
  | cdata {value : Str} (raw : Raw value) (inside : ¬cdataEnd <:+: value) :
      Printable enc (.TiXmlText value true)
  | comment {value : Str} (raw : Raw value) (inside : ¬commentEnd <:+: value) :
      Printable enc (.TiXmlComment value)
  | unknown {value : Str} (raw : Raw value) (inside : greater ∉ value)
      (first : value.head? ≠ some slash)
      (unlike : ∀ rest, Identify (less :: (value ++ greater :: rest)) = some .unknown) :
      Printable enc (.TiXmlUnknown value)
  | declaration {version_ encoding_ standalone_ : Str} (plainVersion : PlainValue version_)
      (plainEncoding : PlainValue encoding_) (plainStandalone : PlainValue standalone_) :
      Printable enc (.TiXmlDeclaration version_ encoding_ standalone_)

theorem parseEndTag_reads {enc : TiXmlEncoding} {data : ParsingData} {name : Str} (rest : Str) :
    parseEndTag enc data name (some (endTag ++ (name ++ greater :: rest))) =
      .ok (some rest, data) := by
  have found : startsWith (less :: slash :: (name ++ greater :: rest)) (endTag ++ name) = true := by
    rw [startsWith_iff (by simp [endTag])]
    exact ⟨greater :: rest, by simp [endTag]⟩
  have left : (less :: slash :: (name ++ greater :: rest)).drop (endTag ++ name).length =
      greater :: rest := by
    show (endTag ++ (name ++ greater :: rest)).drop (endTag ++ name).length = greater :: rest
    rw [← List.append_assoc, List.drop_left]
  have skips := SkipWhiteSpace_ascii enc allBlank_nil (by decide : greater < 0x80) (by decide) rest
  rw [List.nil_append] at skips
  show parseEndTag enc data name (some (less :: slash :: (name ++ greater :: rest))) = _
  rw [parseEndTag, if_pos found, left, skips]
  rfl

theorem print_element (depth : Nat) {value : Str} (attributeSet : List TiXmlAttribute)
    (children : List TiXmlNode) (name : Stream.cString value = value) (rest : Str) :
    ∃ text opening, Opens text opening ∧
      Print depth (.TiXmlElement value attributeSet children) ++ rest =
        indent depth ++ less :: (value ++
          ((attributeSet.flatMap fun attrib => 32 :: attrib.Print) ++ text)) ∧
      ((children = [] ∧ opening = .returns (some rest)) ∨
        ∃ blanks, AllBlank blanks ∧
          opening = .content (PrintChildren (depth + 1) children ++
            (blanks ++ (endTag ++ (value ++ greater :: rest))))) := by
  simp only [Print, name]
  split_ifs with empty only
  · refine ⟨32 :: slash :: greater :: rest, _, Opens.returns rest, by simp, Or.inl ⟨?_, rfl⟩⟩
    exact List.isEmpty_iff.mp empty
  · refine ⟨_, _, Opens.content _, ?_, Or.inr ⟨[], allBlank_nil, rfl⟩⟩
    simp
  · refine ⟨_, _, Opens.content _, ?_, Or.inr ⟨10 :: indent depth, allBlank_line depth, rfl⟩⟩
    simp

theorem opens_head {text : Str} {opening : Opening} (opens : Opens text opening)
    (attributeSet : List TiXmlAttribute) :
    ∃ d rest, (attributeSet.flatMap fun attrib => 32 :: attrib.Print) ++ text = d :: rest ∧
      isNameChar d = false ∧ d < 0x80 := by
  cases attributeSet with
  | nil =>
      cases opens with
      | returns rest => exact ⟨32, _, rfl, rfl, by decide⟩
      | content rest => exact ⟨greater, _, rfl, rfl, by decide⟩
  | cons attrib todo => exact ⟨32, _, rfl, rfl, by decide⟩

theorem length_attributes (attributeSet : List TiXmlAttribute) :
    attributeSet.length ≤ (attributeSet.flatMap fun attrib => 32 :: attrib.Print).length := by
  induction attributeSet with
  | nil => exact Nat.le_refl 0
  | cons attrib todo ih =>
      simp only [List.flatMap_cons, List.length_append, List.length_cons]
      omega

theorem print_leads {enc : TiXmlEncoding} (depth : Nat) {node : TiXmlNode}
    (printable : Printable enc node) (tagged : plainText node = false) (rest : Str) :
    ∃ blanks more, AllBlank blanks ∧ more ≠ [] ∧
      Print depth node ++ rest = blanks ++ less :: more := by
  cases printable with
  | @element value attributeSet children name _ _ _ _ =>
      obtain ⟨text, opening, opens, printed, -⟩ :=
        print_element depth attributeSet children name.isName.cString rest
      refine ⟨indent depth, _, allBlank_indent depth, ?_, printed⟩
      intro none
      exact printed_ne_nil opens attributeSet (List.append_eq_nil_iff.mp none).2
  | text => cases tagged
  | @cdata value raw inside =>
      refine ⟨10 :: indent depth, cdataHeader.tail ++ (value ++ (cdataEnd ++ 10 :: rest)),
        allBlank_line depth, by simp [cdataHeader], ?_⟩
      simp [Print, cdataHeader, raw.cString]
  | @comment value raw inside =>
      refine ⟨indent depth, commentHeader.tail ++ (value ++ (commentEnd ++ rest)),
        allBlank_indent depth, by simp [commentHeader], ?_⟩
      simp [Print, commentHeader, raw.cString]
  | @unknown value raw inside first unlike =>
      refine ⟨indent depth, value ++ greater :: rest, allBlank_indent depth, by simp, ?_⟩
      simp [Print, raw.cString]
  | declaration plainVersion plainEncoding plainStandalone =>
      refine ⟨[], _, allBlank_nil, ?_, rfl⟩
      simp

theorem startsWith_other {first second c : UInt8} {p tag : Str} (other : second ≠ c) :
    startsWith (first :: c :: p) (first :: second :: tag) = false := by
  rw [Bool.eq_false_iff]
  intro found
  have inside := (startsWith_iff (List.cons_ne_nil _ _)).mp found
  exact other (List.cons_prefix_cons.mp (List.cons_prefix_cons.mp inside).2).1

theorem ToLower_question {c : UInt8} (other : c ≠ 63) : ToLower c ≠ 63 := by
  unfold ToLower
  split_ifs with upper
  · intro same
    have back : c = 31 := by
      have := congrArg (· - 32) same
      simpa using this
    subst back
    exact absurd upper (by decide)
  · exact other

theorem identify_element {c : UInt8} (start : isNameStart c = true) (p : Str) :
    Identify (less :: c :: p) = some .element := by
  have solid := nameStart_solid start
  have noHeader : StringEqual ToLower (less :: c :: p) xmlHeader = false := by
    have other := ToLower_question solid.2.2.2.2
    rw [Bool.eq_false_iff]
    intro found
    simp only [StringEqual, xmlHeader, List.map_cons, List.isPrefixOf, Bool.and_eq_true,
      beq_iff_eq] at found
    exact other found.2.2.1.symm
  have noComment : startsWith (less :: c :: p) commentHeader = false :=
    startsWith_other (Ne.symm solid.2.2.2.1)
  have noCdata : startsWith (less :: c :: p) cdataHeader = false :=
    startsWith_other (Ne.symm solid.2.2.2.1)
  have noDtd : startsWith (less :: c :: p) dtdHeader = false :=
    startsWith_other (Ne.symm solid.2.2.2.1)
  simp only [Identify, ne_eq, not_true_eq_false, if_false, noHeader, noComment, noCdata, noDtd,
    Bool.false_eq_true, List.head?_cons, Option.any_some, start, if_true]

theorem print_ne_nil (depth : Nat) {node : TiXmlNode} (tagged : plainText node = false) :
    Print depth node ≠ [] := by
  match node with
  | .TiXmlElement _ _ _ => simp [Print]
  | .TiXmlText _ true => simp [Print]
  | .TiXmlText _ false => cases tagged
  | .TiXmlComment _ => simp [Print, commentHeader]
  | .TiXmlUnknown _ => simp [Print]
  | .TiXmlDeclaration _ _ _ => simp [Print]

def Found (enc : TiXmlEncoding) (fuel : Nat) (text : Str) (node : TiXmlNode) (rest : Str) : Prop :=
  ∃ blanks more type, AllBlank blanks ∧ text = blanks ++ less :: more ∧
    startsWith (less :: more) endTag = false ∧ Identify (less :: more) = some type ∧
    ∀ data, Sound data →
      Returns (parseNode enc fuel type data (less :: more)) fun parsed =>
        parsed.1 = node ∧
          (∀ later, SkipWhiteSpace later parsed.2.1 = SkipWhiteSpace later (some rest)) ∧
          Sound parsed.2.2

def ReadsNode (enc : TiXmlEncoding) (fuel : Nat) : Prop :=
  ∀ (depth : Nat) (node : TiXmlNode) (rest : Str), Printable enc node → plainText node = false →
    rest ≠ [] → 2 * (Print depth node ++ rest).length + 1 ≤ fuel →
    Found enc fuel (Print depth node ++ rest) node rest

def ReadsContent (enc : TiXmlEncoding) (fuel : Nat) : Prop :=
  ∀ (depth : Nat) (children : List TiXmlNode) (blanks rest : Str) (data : ParsingData),
    (∀ child ∈ children, Printable enc child) → Apart children → AllBlank blanks →
    rest ≠ [] → Sound data →
    2 * (PrintChildren depth children ++ (blanks ++ (endTag ++ rest))).length + 2 ≤ fuel →
    Returns
      (ReadValue enc fuel data
        (SkipWhiteSpace enc
          (some (PrintChildren depth children ++ (blanks ++ (endTag ++ rest))))))
      fun read => read.1 = children ∧ read.2.1 = some (endTag ++ rest) ∧ Sound read.2.2

theorem element_reads {enc : TiXmlEncoding} {fuel : Nat} (content : ReadsContent enc fuel)
    (depth : Nat) {value : Str} {attributeSet : List TiXmlAttribute} {children : List TiXmlNode}
    (name : Nameable enc value) (attributes : ∀ attrib ∈ attributeSet, Writable enc attrib)
    (distinct : (attributeSet.map TiXmlAttribute.name).Nodup) (apart : Apart children)
    (printable : ∀ child ∈ children, Printable enc child) (rest : Str)
    (enough : 2 * (Print depth (.TiXmlElement value attributeSet children) ++ rest).length + 1 ≤
      fuel + 1) :
    Found enc (fuel + 1) (Print depth (.TiXmlElement value attributeSet children) ++ rest)
      (.TiXmlElement value attributeSet children) rest := by
  obtain ⟨text, opening, opens, printed, left⟩ :=
    print_element depth attributeSet children name.isName.cString rest
  obtain ⟨d, others, head, ends, ascii⟩ := opens_head opens attributeSet
  have skips := name.skips allBlank_nil ascii others
  have reads := name.reads ends others
  rw [List.nil_append] at skips
  rw [← head] at skips reads
  obtain ⟨c, letters, split, start⟩ := name.cases
  refine ⟨indent depth, _, .element, allBlank_indent depth, printed, ?_, ?_, ?_⟩
  · rw [split]
    exact startsWith_other (Ne.symm (nameStart_solid start).2.1)
  · rw [split]
    exact identify_element start _
  · intro data sound
    unfold parseNode
    apply (Stamp_sound enc _ sound).bind
    intro data sound
    dsimp only
    rw [List.tail_cons, skips, Option.bind_some, reads]
    have longer : attributeSet.length <
        ((attributeSet.flatMap fun attrib => 32 :: attrib.Print) ++ text).length := by
      have each := length_attributes attributeSet
      have some := List.length_pos_iff.mpr opens.ne_nil
      rw [List.length_append]
      omega
    have attributesRead := readAttributes_reads opens [] attributeSet attributes
      (by simpa using distinct) sound longer
    rw [head] at attributesRead ⊢
    dsimp only
    apply attributesRead.bind
    rintro ⟨read, opened, data⟩ ⟨same, which, sound⟩
    dsimp only at same which sound ⊢
    rw [List.nil_append] at same
    subst same which
    obtain ⟨rfl, rfl⟩ | ⟨blanks, blank, rfl⟩ := left
    · exact Returns.ok ⟨rfl, fun _ => rfl, sound⟩
    · dsimp only
      cases opens
      apply (content (depth + 1) children blanks (value ++ greater :: rest) data printable apart
        blank (by simp) sound (by
          rw [printed] at enough
          simp only [List.length_append, List.length_cons] at enough ⊢
          omega)).bind
      rintro ⟨nodes, q, data⟩ ⟨same, which, sound⟩
      dsimp only at same which sound ⊢
      subst same which
      rw [parseEndTag_reads]
      exact Returns.ok ⟨rfl, fun _ => rfl, sound⟩

theorem node_reads {enc : TiXmlEncoding} {fuel : Nat} (content : ReadsContent enc fuel) :
    ReadsNode enc (fuel + 1) := by
  intro depth node rest printable tagged present enough
  cases printable with
  | element name attributes distinct apart printable =>
      exact element_reads content depth name attributes distinct apart printable rest enough
  | text => cases tagged
  | @cdata value raw inside =>
      refine ⟨10 :: indent depth, cdataHeader.tail ++ (value ++ (cdataEnd ++ 10 :: rest)), .cdata,
        allBlank_line depth, ?_, rfl, rfl, ?_⟩
      · simp [Print, cdataHeader, raw.cString]
      · intro data sound
        unfold parseNode
        apply (cdata_reads inside sound (List.cons_ne_nil 10 rest)).mono
        rintro parsed ⟨same, left, sound⟩
        refine ⟨same, ?_, sound⟩
        intro later
        rw [left, SkipWhiteSpace_some later (List.cons_ne_nil 10 rest),
          SkipWhiteSpace_some later present, ← skipBlanks_blanks later allBlank_newline rest,
          List.singleton_append]
  | @comment value raw inside =>
      refine ⟨indent depth, commentHeader.tail ++ (value ++ (commentEnd ++ rest)), .comment,
        allBlank_indent depth, ?_, rfl, rfl, ?_⟩
      · simp [Print, commentHeader, raw.cString]
      · intro data sound
        unfold parseNode
        apply (comment_reads inside sound rest).mono
        rintro parsed ⟨same, left, sound⟩
        exact ⟨same, fun later => by rw [left], sound⟩
  | @unknown value raw inside first unlike =>
      refine ⟨indent depth, value ++ greater :: rest, .unknown, allBlank_indent depth, ?_, ?_,
        unlike rest, ?_⟩
      · simp [Print, raw.cString]
      · cases value with
        | nil => rfl
        | cons c letters =>
            apply startsWith_other
            rintro rfl
            exact first rfl
      · intro data sound
        unfold parseNode
        apply (unknown_reads inside sound rest).mono
        rintro parsed ⟨same, left, sound⟩
        exact ⟨same, fun later => by rw [left], sound⟩
  | declaration plainVersion plainEncoding plainStandalone =>
      refine ⟨[], _, .declaration, allBlank_nil, rfl, rfl, rfl, ?_⟩
      intro data sound
      unfold parseNode
      apply (declaration_reads plainVersion plainEncoding plainStandalone sound rest).mono
      rintro parsed ⟨same, left, sound⟩
      exact ⟨same, fun later => by rw [left], sound⟩

theorem content_leads {enc : TiXmlEncoding} (depth : Nat) {nodes : List TiXmlNode}
    (printable : ∀ node ∈ nodes, Printable enc node)
    (first : ∀ node, nodes.head? = some node → plainText node = false) {blanks : Str}
    (blank : AllBlank blanks) (rest : Str) :
    ∃ before more, AllBlank before ∧ more ≠ [] ∧
      PrintChildren depth nodes ++ (blanks ++ (endTag ++ rest)) = before ++ less :: more := by
  cases nodes with
  | nil => exact ⟨blanks, slash :: rest, blank, by simp, by simp [PrintChildren, endTag]⟩
  | cons node nodes =>
      obtain ⟨before, more, all, present, printed⟩ :=
        print_leads depth (printable node (by simp)) (first node rfl)
          (PrintChildren depth nodes ++ (blanks ++ (endTag ++ rest)))
      have line : AllBlank (if ToText node = true then [] else [10]) := by
        split_ifs
        · exact allBlank_nil
        · exact allBlank_newline
      refine ⟨(if ToText node = true then [] else [10]) ++ before, more,
        allBlank_append.mpr ⟨line, all⟩, present, ?_⟩
      rw [PrintChildren, List.append_assoc, List.append_assoc, printed, List.append_assoc]

theorem spelled_first {enc : TiXmlEncoding} {written value : Str}
    (spelled : Spelled enc written value) (present : value ≠ [])
    (first : value.head? ≠ some 32) :
    ∃ c more, written = c :: more ∧ IsWhiteSpace c = false ∧ c ≠ less := by
  cases spelled with
  | nil => exact absurd rfl present
  | @char c more unit written value _ plain solid _ =>
      refine ⟨c, _, rfl, ?_, plain.1⟩
      cases blank : IsWhiteSpace c with
      | false => rfl
      | true =>
          obtain ⟨rfl, -⟩ := solid blank
          exact absurd rfl first

theorem blank_ascii {c : UInt8} (blank : IsWhiteSpace c = true) : c < 0x80 :=
  UInt8.lt_iff_toNat_lt.mpr (Nat.lt_of_le_of_lt (blank_le blank) (by decide))

theorem spelled_starts {enc : TiXmlEncoding} {written value : Str}
    (spelled : Spelled enc written value) (present : value ≠ [])
    (first : value.head? ≠ some 32)
    (unmarked : enc = .TIXML_ENCODING_UTF8 → marked written = false) {before : Str}
    (blank : AllBlank before) (more : Str) :
    skipBlanks enc (written ++ (before ++ less :: more)) =
      written ++ (before ++ less :: more) := by
  obtain ⟨c, letters, rfl, solid, -⟩ := spelled_first spelled present first
  rw [List.cons_append]
  apply skipBlanks_solid solid
  intro utf8
  cases before with
  | nil => exact marked_append (unmarked utf8) (by decide) more
  | cons d before => exact marked_append (unmarked utf8) (blank_ascii (blank d (by simp))) _

theorem text_reads {enc : TiXmlEncoding} {value : Str} (chars : Chars enc value)
    (spaced : Spaced value) {before more : Str} (blank : AllBlank before) (present : more ≠ [])
    (start : skipBlanks enc (EncodeString false value ++ (before ++ less :: more)) =
      EncodeString false value ++ (before ++ less :: more)) {data : ParsingData}
    (sound : Sound data) :
    Returns (parseText enc data (EncodeString false value ++ (before ++ less :: more)))
      fun parsed => parsed.1 = value ∧ parsed.2.1 = some (less :: more) ∧ Sound parsed.2.2 := by
  unfold parseText
  apply (Stamp_sound enc _ sound).bind
  intro data sound
  rw [ReadText_condensed (chars_spelled chars) spaced blank start present]
  exact Returns.ok ⟨rfl, rfl, sound⟩

theorem content_reads {enc : TiXmlEncoding} {fuel : Nat} (node : ReadsNode enc fuel)
    (content : ReadsContent enc fuel) : ReadsContent enc (fuel + 1) := by
  intro depth children blanks rest data printable apart blank present sound enough
  cases children with
  | nil =>
      have skips := SkipWhiteSpace_ascii enc blank (by decide : less < 0x80) (by decide)
        (slash :: rest)
      have whole : PrintChildren depth [] ++ (blanks ++ (endTag ++ rest)) =
          blanks ++ less :: slash :: rest := by
        simp [PrintChildren, endTag]
      have found : startsWith (less :: slash :: rest) endTag = true :=
        (startsWith_iff (by decide)).mpr (List.prefix_append endTag rest)
      rw [whole, skips, ReadValue, if_neg (by simp), if_pos found]
      exact Returns.ok ⟨rfl, rfl, sound⟩
  | cons child children =>
      obtain ⟨here, later⟩ := List.forall_mem_cons.mp printable
      obtain ⟨apartHere, apartLater⟩ := List.isChain_cons.mp apart
      rw [PrintChildren, List.append_assoc, List.append_assoc] at enough ⊢
      simp only [List.length_append] at enough
      cases plain : plainText child with
      | false =>
          have printedLength := List.length_pos_iff.mpr (print_ne_nil depth plain)
          obtain ⟨before, more, type, all, printed, noEnd, identified, parses⟩ :=
            node depth child (PrintChildren depth children ++ (blanks ++ (endTag ++ rest))) here
              plain (by simp [endTag]) (by
                simp only [List.length_append]
                omega)
          have line : AllBlank (if ToText child = true then [] else [10]) := by
            split_ifs
            · exact allBlank_nil
            · exact allBlank_newline
          have skips := SkipWhiteSpace_ascii enc (allBlank_append.mpr ⟨line, all⟩)
            (by decide : less < 0x80) (by decide) more
          rw [printed, ← List.append_assoc, skips]
          unfold ReadValue
          rw [if_neg (by simp), noEnd, if_neg (by simp), identified]
          apply (parses data sound).bind
          rintro ⟨read, q, data⟩ ⟨same, left, sound⟩
          dsimp only at same left sound ⊢
          subst same
          rw [left enc]
          apply (content depth children blanks rest data later apartLater blank present sound (by
            simp only [List.length_append]
            omega)).bind
          rintro ⟨nodes, q, data⟩ ⟨rfl, rfl, sound⟩
          exact Returns.ok ⟨rfl, rfl, sound⟩
      | true =>
          cases here with
          | @text value chars spaced visible first unmarked =>
              have follows : ∀ node, children.head? = some node → plainText node = false := by
                intro node found
                have apart := apartHere node found
                cases other : plainText node with
                | false => rfl
                | true => exact absurd ⟨rfl, other⟩ apart
              obtain ⟨before, more, all, present', printed⟩ :=
                content_leads depth later follows blank rest
              have visible' : value ≠ [] := by
                rintro rfl
                cases visible
              have start := spelled_starts (chars_spelled chars) visible' first unmarked all more
              have reads := text_reads chars spaced all present' start sound
              have skips := SkipWhiteSpace_ascii enc allBlank_nil (by decide : less < 0x80)
                (by decide) more
              have skipsLater : SkipWhiteSpace enc
                  (some (PrintChildren depth children ++ (blanks ++ (endTag ++ rest)))) =
                    some (less :: more) := by
                rw [printed]
                exact SkipWhiteSpace_ascii enc all (by decide) (by decide) more
              obtain ⟨c, letters, spelling, -, other⟩ :=
                spelled_first (chars_spelled chars) visible' first
              simp only [ToText, if_true, List.nil_append, Print, encoded_cString chars]
                at enough ⊢
              rw [printed, SkipWhiteSpace_some enc (by simp [spelling]), start]
              rw [spelling, List.cons_append] at reads ⊢
              rw [spelling, List.length_cons] at enough
              unfold ReadValue
              rw [if_pos other]
              apply reads.bind
              rintro ⟨read, q, data⟩ ⟨same, left, sound⟩
              dsimp only at same left sound ⊢
              subst same left
              rw [← List.nil_append (less :: more), skips, ← skipsLater]
              apply (content depth children blanks rest data later apartLater blank present sound
                (by
                  simp only [List.length_append]
                  omega)).bind
              rintro ⟨nodes, q, data⟩ ⟨rfl, rfl, sound⟩
              rw [visible]
              exact Returns.ok ⟨rfl, rfl, sound⟩
          | _ => cases plain

theorem reads (enc : TiXmlEncoding) (fuel : Nat) : ReadsNode enc fuel ∧ ReadsContent enc fuel := by
  induction fuel with
  | zero =>
      constructor
      · intro depth node rest _ _ _ enough
        omega
      · intro depth children blanks rest data _ _ _ _ _ enough
        omega
  | succ fuel ih => exact ⟨node_reads ih.2, content_reads ih.1 ih.2⟩

/-! The document. -/

theorem raw_append {first second : Str} : Raw (first ++ second) ↔ Raw first ∧ Raw second := by
  simp only [Raw, List.forall_mem_append]

theorem raw_cons {c : UInt8} {rest : Str} :
    Raw (c :: rest) ↔ (c ≠ 0 ∧ c ≠ 13) ∧ Raw rest := by
  simp only [Raw, List.forall_mem_cons]

theorem raw_of_visible {text : Str} (visible : ∀ c ∈ text, 32 ≤ c.toNat) : Raw text := by
  intro c inside
  constructor
  all_goals
    rintro rfl
    exact absurd (visible _ inside) (by decide)

theorem IsName.raw {name : Str} (isName : IsName name) : Raw name := by
  intro c inside
  exact (nameChar_plain (isName.2 c inside)).2.2

theorem PlainValue.raw {value : Str} (plain : PlainValue value) : Raw value := by
  intro c inside
  have kept := (plain c inside).2
  constructor
  all_goals
    rintro rfl
    exact absurd kept (by decide)

theorem raw_indent (depth : Nat) : Raw (indent depth) := by
  intro c inside
  rw [List.eq_of_mem_replicate inside]
  decide

theorem Writable.raw {enc : TiXmlEncoding} {attrib : TiXmlAttribute}
    (writable : Writable enc attrib) : Raw attrib.Print := by
  obtain ⟨quote, mark, printed⟩ := writable.print
  have value := raw_of_visible (encoded_visible writable.value)
  have quoted : quote ≠ 0 ∧ quote ≠ 13 := by
    obtain rfl | rfl := mark <;> decide
  rw [printed]
  simp only [raw_append, raw_cons]
  exact ⟨writable.name.isName.raw, by decide, quoted, value, quoted, forall_of_all rfl⟩

theorem raw_printKey {key value : Str} (keyRaw : Raw key) (plain : PlainValue value) :
    Raw (printKey key value) := by
  unfold printKey
  split_ifs
  · exact forall_of_all rfl
  · simp only [plain.cString, raw_append, raw_cons]
    exact ⟨⟨keyRaw, by decide, by decide, plain.raw⟩, by decide, by decide,
      forall_of_all rfl⟩

theorem raw_children (depth : Nat) {children : List TiXmlNode}
    (raw : ∀ child ∈ children, Raw (Print depth child)) : Raw (PrintChildren depth children) := by
  induction children with
  | nil => exact forall_of_all rfl
  | cons child children ih =>
      obtain ⟨here, later⟩ := List.forall_mem_cons.mp raw
      rw [PrintChildren, raw_append, raw_append]
      refine ⟨⟨?_, here⟩, ih later⟩
      split_ifs
      · exact forall_of_all rfl
      · exact raw_cons.mpr ⟨by decide, forall_of_all rfl⟩

theorem print_raw {enc : TiXmlEncoding} {node : TiXmlNode} (printable : Printable enc node) :
    ∀ depth, Raw (Print depth node) := by
  have nil : Raw [] := forall_of_all rfl
  induction printable with
  | @element value attributeSet children name attributes distinct apart _ ih =>
      intro depth
      have inner := raw_children (depth + 1) fun child inside => ih child inside (depth + 1)
      have keys : Raw (attributeSet.flatMap fun attrib => 32 :: attrib.Print) := by
        intro c inside
        obtain ⟨attrib, member, inside⟩ := List.mem_flatMap.mp inside
        exact (raw_cons.mpr ⟨by decide, (attributes attrib member).raw⟩ : Raw (32 :: attrib.Print))
          c inside
      have closing : Raw endTag := forall_of_all rfl
      simp only [Print, name.isName.cString, raw_append, raw_cons]
      refine ⟨⟨⟨raw_indent depth, by decide, name.isName.raw⟩, keys⟩, ?_⟩
      split_ifs
      · exact forall_of_all rfl
      · simp only [raw_append, raw_cons]
        exact ⟨⟨⟨⟨by decide, inner⟩, closing⟩, name.isName.raw⟩, by decide, nil⟩
      · simp only [raw_append, raw_cons]
        exact ⟨⟨⟨⟨⟨by decide, inner⟩, by decide, raw_indent depth⟩, closing⟩, name.isName.raw⟩,
          by decide, nil⟩
  | text chars =>
      intro depth
      rw [Print, encoded_cString chars]
      exact raw_of_visible (encoded_visible chars)
  | cdata raw =>
      intro depth
      simp only [Print, raw.cString, raw_append, raw_cons]
      exact ⟨⟨⟨⟨⟨by decide, raw_indent depth⟩, forall_of_all rfl⟩, raw⟩,
        forall_of_all rfl⟩, by decide, nil⟩
  | comment raw =>
      intro depth
      simp only [Print, raw.cString, raw_append]
      exact ⟨⟨⟨raw_indent depth, forall_of_all rfl⟩, raw⟩, forall_of_all rfl⟩
  | unknown raw =>
      intro depth
      simp only [Print, raw.cString, raw_append, raw_cons]
      exact ⟨⟨raw_indent depth, by decide, raw⟩, by decide, nil⟩
  | declaration plainVersion plainEncoding plainStandalone =>
      intro depth
      have keys : Raw version ∧ Raw encoding ∧ Raw standalone :=
        ⟨forall_of_all rfl, forall_of_all rfl, forall_of_all rfl⟩
      simp only [Print, raw_append, raw_cons]
      exact ⟨⟨⟨⟨forall_of_all rfl, by decide, raw_printKey keys.1 plainVersion⟩,
        raw_printKey keys.2.1 plainEncoding⟩, raw_printKey keys.2.2 plainStandalone⟩,
        by decide, by decide, nil⟩

theorem normalize_kept {c : UInt8} (notNull : c ≠ 0) (notReturn : c ≠ 13) (rest : Str) :
    normalize (c :: rest) = c :: normalize rest := by
  rw [normalize, if_neg notNull, if_neg notReturn]
  intro more same
  exact absurd same notReturn

theorem normalize_textMode {text : Str} (raw : Raw text) : normalize (textMode text) = text := by
  induction text with
  | nil => rfl
  | cons c rest ih =>
      obtain ⟨⟨notNull, notReturn⟩, later⟩ := raw_cons.mp raw
      have next := ih later
      unfold textMode at next ⊢
      rw [List.flatMap_cons]
      split_ifs with line
      · subst line
        simp only [List.cons_append, List.nil_append, normalize, next]
      · rw [List.singleton_append, normalize_kept notNull notReturn, next]

/-- The nodes of a document, each with the encoding that is known when it is read. -/
def PrintableFrom : TiXmlEncoding → List TiXmlNode → Prop
  | _, [] => True
  | enc, node :: nodes =>
      Printable enc node ∧ plainText node = false ∧ PrintableFrom (stated enc node) nodes

theorem document_raw {enc : TiXmlEncoding} {nodes : List TiXmlNode}
    (printable : PrintableFrom enc nodes) : Raw (TiXmlDocument.Print nodes) := by
  induction nodes generalizing enc with
  | nil => exact forall_of_all rfl
  | cons node nodes ih =>
      obtain ⟨here, -, later⟩ := printable
      have rest := ih later
      unfold TiXmlDocument.Print at rest ⊢
      rw [List.flatMap_cons, raw_append, raw_append, raw_cons]
      exact ⟨⟨print_raw here 0, by decide, forall_of_all rfl⟩, rest⟩

theorem parseNodes_reads (fuel : Nat) {enc : TiXmlEncoding} {nodes : List TiXmlNode}
    (printable : PrintableFrom enc nodes) {blanks : Str} (blank : AllBlank blanks)
    {data : ParsingData} (sound : Sound data)
    (enough : 2 * (blanks ++ TiXmlDocument.Print nodes).length + 2 ≤ fuel) :
    Returns
      (parseNodes fuel enc data
        (SkipWhiteSpace enc (some (blanks ++ TiXmlDocument.Print nodes))))
      fun parsed => parsed.1 = nodes ∧ Sound parsed.2 := by
  induction nodes generalizing enc blanks data fuel with
  | nil =>
      have left : SkipWhiteSpace enc (some (blanks ++ [])) = none ∨
          SkipWhiteSpace enc (some (blanks ++ [])) = some [] := by
        cases blanks with
        | nil => exact Or.inl rfl
        | cons c blanks =>
            rw [SkipWhiteSpace_some enc (by simp), skipBlanks_blanks enc blank]
            exact Or.inr (by cases enc <;> rfl)
      obtain none | ended := left
      · rw [TiXmlDocument.Print, List.flatMap_nil, none]
        unfold parseNodes
        exact Returns.ok ⟨rfl, sound⟩
      · rw [TiXmlDocument.Print, List.flatMap_nil, ended]
        unfold parseNodes
        exact Returns.ok ⟨rfl, sound⟩
  | cons node nodes ih =>
      obtain ⟨here, tagged, later⟩ := printable
      obtain ⟨fuel, rfl⟩ := Nat.exists_eq_succ_of_ne_zero (by omega : fuel ≠ 0)
      have whole : TiXmlDocument.Print (node :: nodes) =
          Print 0 node ++ ([10] ++ TiXmlDocument.Print nodes) := by
        simp [TiXmlDocument.Print]
      rw [whole] at enough ⊢
      simp only [List.length_append] at enough
      obtain ⟨before, more, type, all, printed, -, identified, parses⟩ :=
        (reads enc fuel).1 0 node ([10] ++ TiXmlDocument.Print nodes) here tagged (by simp) (by
          simp only [List.length_append]
          omega)
      have skips := SkipWhiteSpace_ascii enc (allBlank_append.mpr ⟨blank, all⟩)
        (by decide : less < 0x80) (by decide) more
      have printedLength := List.length_pos_iff.mpr (print_ne_nil 0 tagged)
      rw [printed, ← List.append_assoc, skips]
      unfold parseNodes
      rw [identified]
      apply (parses data sound).bind
      rintro ⟨read, q, data⟩ ⟨same, left, sound⟩
      dsimp only at same left sound ⊢
      subst same
      rw [left]
      apply (ih fuel later allBlank_newline sound (by
        simp only [List.length_append, List.length_singleton] at enough ⊢
        omega)).bind
      rintro ⟨nodes, data⟩ ⟨rfl, sound⟩
      exact Returns.ok ⟨rfl, sound⟩

def startEncoding (useMicrosoftBOM : Bool) : TiXmlEncoding :=
  if useMicrosoftBOM then .TIXML_ENCODING_UTF8 else .TIXML_ENCODING_UNKNOWN

def savedText (useMicrosoftBOM : Bool) (nodes : List TiXmlNode) : Str :=
  (if useMicrosoftBOM then microsoftBOM else []) ++ TiXmlDocument.Print nodes

theorem document_leads {enc : TiXmlEncoding} {nodes : List TiXmlNode} (present : nodes ≠ [])
    (printable : PrintableFrom enc nodes) :
    ∃ c rest, c < 0x80 ∧ TiXmlDocument.Print nodes = c :: rest := by
  obtain ⟨node, nodes, rfl⟩ := List.exists_cons_of_ne_nil present
  obtain ⟨here, tagged, -⟩ := printable
  obtain ⟨blanks, more, blank, -, printed⟩ :=
    print_leads 0 here tagged ([10] ++ TiXmlDocument.Print nodes)
  have whole : TiXmlDocument.Print (node :: nodes) = blanks ++ less :: more := by
    rw [← printed]
    simp [TiXmlDocument.Print]
  cases blanks with
  | nil => exact ⟨less, more, by decide, whole⟩
  | cons c blanks => exact ⟨c, _, blank_ascii (blank c (by simp)), whole⟩

theorem saved_starts (useMicrosoftBOM : Bool) {text : Str} {c : UInt8} {rest : Str}
    (ascii : c < 0x80) (same : text = c :: rest) :
    (if microsoftBOM.isPrefixOf ((if useMicrosoftBOM then microsoftBOM else []) ++ text) then
      TiXmlEncoding.TIXML_ENCODING_UTF8 else .TIXML_ENCODING_UNKNOWN) =
        startEncoding useMicrosoftBOM ∧
      SkipWhiteSpace (startEncoding useMicrosoftBOM)
        (some ((if useMicrosoftBOM then microsoftBOM else []) ++ text)) =
          SkipWhiteSpace (startEncoding useMicrosoftBOM) (some text) := by
  subst same
  cases useMicrosoftBOM with
  | true => exact ⟨rfl, rfl⟩
  | false =>
      have other : (0xef == c) = false := by
        rw [beq_eq_false_iff_ne]
        rintro rfl
        exact absurd ascii (by decide)
      refine ⟨?_, rfl⟩
      simp [microsoftBOM, List.isPrefixOf, other, startEncoding]

theorem parse_of_nodes {p : Str} (present : p ≠ []) {enc : TiXmlEncoding}
    (known : (if microsoftBOM.isPrefixOf p then TiXmlEncoding.TIXML_ENCODING_UTF8
      else .TIXML_ENCODING_UNKNOWN) = enc) {nodes : List TiXmlNode} {data : ParsingData}
    (parsed : parseNodes (fuelOf p) enc { error := none, stamp := p }
      (SkipWhiteSpace enc (some p)) = .ok (nodes, data)) (clean : data.error = none)
    (filled : nodes ≠ []) : Parse p = .ok (nodes, none) := by
  cases p with
  | nil => exact absurd rfl present
  | cons c rest =>
      subst known
      unfold Parse
      dsimp only
      rw [parsed]
      show Except.ok (nodes, if nodes = [] then _ else data.error) = _
      rw [if_neg filled, clean]

theorem savedText_ne_nil (useMicrosoftBOM : Bool) {nodes : List TiXmlNode}
    (present : nodes ≠ []) (printable : PrintableFrom (startEncoding useMicrosoftBOM) nodes) :
    savedText useMicrosoftBOM nodes ≠ [] := by
  obtain ⟨c, rest, -, printed⟩ := document_leads present printable
  simp [savedText, printed]

theorem saved_normalized (useMicrosoftBOM : Bool) {nodes : List TiXmlNode}
    (printable : PrintableFrom (startEncoding useMicrosoftBOM) nodes) :
    normalize (SaveFile useMicrosoftBOM nodes) = savedText useMicrosoftBOM nodes := by
  have mark : Raw (if useMicrosoftBOM then microsoftBOM else []) := by
    split_ifs <;> exact forall_of_all rfl
  have text : Raw (savedText useMicrosoftBOM nodes) :=
    raw_append.mpr ⟨mark, document_raw printable⟩
  exact normalize_textMode text

theorem saved_parses (useMicrosoftBOM : Bool) {nodes : List TiXmlNode} (present : nodes ≠ [])
    (printable : PrintableFrom (startEncoding useMicrosoftBOM) nodes)
    (whole : WholeText (savedText useMicrosoftBOM nodes)) :
    Parse (savedText useMicrosoftBOM nodes) = .ok (nodes, none) := by
  obtain ⟨c, rest, ascii, printed⟩ := document_leads present printable
  obtain ⟨encoded, skips⟩ := saved_starts useMicrosoftBOM ascii printed
  have sound : Sound { error := none, stamp := savedText useMicrosoftBOM nodes } := ⟨whole, rfl⟩
  obtain ⟨⟨read, data⟩, parsed, same, clean⟩ :=
    parseNodes_reads (fuelOf (savedText useMicrosoftBOM nodes)) printable allBlank_nil sound (by
      simp only [fuelOf, savedText, List.length_append, List.nil_append]
      omega)
  dsimp only at same clean
  subst same
  rw [List.nil_append, ← skips] at parsed
  exact parse_of_nodes (savedText_ne_nil useMicrosoftBOM present printable) encoded parsed clean.2
    present

theorem load_of_parse {content text : Str} {nodes : List TiXmlNode}
    (normalized : normalize content = text) (present : text ≠ [])
    (parsed : Parse text = .ok (nodes, none)) : LoadFile content = .ok (true, nodes) := by
  subst normalized
  cases content with
  | nil => exact absurd rfl present
  | cons c rest =>
      simp only [LoadFile, parsed]
      rfl

/-- A document that can be written at all is loaded as it was saved. -/
theorem loadFile_saveFile (useMicrosoftBOM : Bool) {nodes : List TiXmlNode} (present : nodes ≠ [])
    (printable : PrintableFrom (startEncoding useMicrosoftBOM) nodes)
    (whole : WholeText (savedText useMicrosoftBOM nodes)) :
    LoadFile (SaveFile useMicrosoftBOM nodes) = .ok (true, nodes) := by
  apply load_of_parse (saved_normalized useMicrosoftBOM printable)
  · exact savedText_ne_nil useMicrosoftBOM present printable
  · exact saved_parses useMicrosoftBOM present printable whole

/-- A declaration and an element with an attribute, a comment and a text between them. -/
theorem loadFile_saveFile_element :
    LoadFile (SaveFile true
      [.TiXmlDeclaration [49, 46, 48] [] [],
        .TiXmlElement [65] [{ name := [98], value := [34, 0xec, 0x95, 0xb1] }]
          [.TiXmlComment [45], .TiXmlText [60, 32, 9] false]]) =
      .ok (true,
        [.TiXmlDeclaration [49, 46, 48] [] [],
          .TiXmlElement [65] [{ name := [98], value := [34, 0xec, 0x95, 0xb1] }]
            [.TiXmlComment [45], .TiXmlText [60, 32, 9] false]]) := by
  have utf8 : stated (startEncoding true) (.TiXmlDeclaration [49, 46, 48] [] []) =
      .TIXML_ENCODING_UTF8 := rfl
  have letter (c : UInt8) (start : isNameStart c = true) (char : isNameChar c = true)
      (enc : TiXmlEncoding) : Nameable enc [c] :=
    ⟨⟨⟨c, rfl, start⟩, by simpa using char⟩, fun _ => rfl⟩
  have quoted : Chars .TIXML_ENCODING_UTF8 [34, 0xec, 0x95, 0xb1] :=
    .single (fun _ => rfl) (by decide)
      (@Chars.several _ 0xec [0x95, 0xb1] [] rfl rfl (by decide) (forall_of_all rfl) .nil)
  have text : Chars .TIXML_ENCODING_UTF8 [60, 32, 9] :=
    .single (fun _ => rfl) (by decide) (.single (fun _ => rfl) (by decide)
      (.single (fun _ => rfl) (by decide) .nil))
  refine loadFile_saveFile true (by simp) ⟨?_, rfl, ?_, rfl, trivial⟩ (by decide)
  · exact .declaration (forall_of_all rfl) (forall_of_all rfl)
      (forall_of_all rfl)
  · rw [utf8]
    refine .element (letter 65 rfl rfl _) ?_ (by simp) ?_ ?_
    · simp only [List.mem_singleton, forall_eq]
      exact ⟨letter 98 rfl rfl _, quoted⟩
    · exact List.isChain_cons.mpr ⟨by simp [plainText], List.isChain_singleton _⟩
    · simp only [List.mem_cons, List.not_mem_nil, or_false, forall_eq_or_imp, forall_eq]
      refine ⟨.comment (forall_of_all rfl) (by decide), ?_⟩
      exact .text text ⟨by simp, ⟨fun _ => ⟨9, rfl, by decide⟩, ⟨by simp, trivial⟩⟩⟩ rfl
        (by decide) fun _ => rfl

/-- A text that looks like a reference is saved as it is, and loaded as what it refers to. -/
example :
    LoadFile (SaveFile false [.TiXmlElement [65] [] [.TiXmlText [38, 35, 120, 52, 49, 59] false]]) =
      .ok (true, [.TiXmlElement [65] [] [.TiXmlText [65] false]]) := by
  rfl

end TinyXml

end GraduationServer
