import GraduationServer.TinyXml
import GraduationServer.Library.Contracts
import Mathlib.Data.List.Infix
import Mathlib.Data.List.Nodup
import Mathlib.Data.List.TakeWhile

/-!
What `LoadFile` accepts. An error that is set once is never lost, so a file that
is loaded without one has gone through every parser without one.
-/

namespace GraduationServer

namespace TinyXml

open Contracts

def IsName (name : Str) : Prop :=
  (∃ c, name.head? = some c ∧ isNameStart c = true) ∧ ∀ c ∈ name, isNameChar c = true

/-- A node that can be written down and found again: its names are names, its
attributes are distinct and no text of it ends it too early. -/
inductive Formed : TiXmlNode → Prop where
  | element {value : Str} {attributeSet : List TiXmlAttribute} {children : List TiXmlNode}
      (name : IsName value) (attributes : ∀ attrib ∈ attributeSet, IsName attrib.name)
      (distinct : (attributeSet.map TiXmlAttribute.name).Nodup)
      (content : ∀ child ∈ children, Formed child) :
      Formed (.TiXmlElement value attributeSet children)
  | text (value : Str) (cdata : Bool) : Formed (.TiXmlText value cdata)
  | comment {value : Str} (inside : ¬commentEnd <:+: value) : Formed (.TiXmlComment value)
  | unknown {value : Str} (inside : greater ∉ value) : Formed (.TiXmlUnknown value)
  | declaration (version encoding standalone : Str) :
      Formed (.TiXmlDeclaration version encoding standalone)

def Keeps (data after : ParsingData) : Prop := after.error = none → data.error = none

theorem Keeps.trans {first second third : ParsingData} (later : Keeps second third)
    (earlier : Keeps first second) : Keeps first third := by
  intro clean
  exact earlier (later clean)

theorem Stamp_error (enc : TiXmlEncoding) (data : ParsingData) (now : Ptr) :
    Ensures (Stamp enc data now) fun after => after.error = data.error := by
  cases now with
  | none => exact Ensures.ok rfl
  | some p =>
      unfold Stamp
      apply (Ensures.trivial _).bind
      intro stamp _
      exact Ensures.ok rfl

theorem Stamp_keeps (enc : TiXmlEncoding) (data : ParsingData) (now : Ptr) :
    Ensures (Stamp enc data now) fun after => Keeps data after := by
  apply (Stamp_error enc data now).mono
  intro after same none
  rw [← same, none]

theorem SetError_sets (enc : TiXmlEncoding) (data : ParsingData) (err : TiXmlError)
    (pError : Ptr) :
    Ensures (SetError enc data err pError) fun after => after.error ≠ none := by
  unfold SetError
  split_ifs with clean
  · apply (Stamp_keeps enc _ pError).mono
    intro after keeps lost
    exact absurd (keeps lost) (by simp)
  · exact Ensures.ok clean

theorem fail_keeps (enc : TiXmlEncoding) (document : Bool) (data : ParsingData) (pError : Ptr) :
    Ensures (TiXmlAttribute.fail enc document data pError) fun after => Keeps data after := by
  unfold TiXmlAttribute.fail
  split_ifs
  · apply (SetError_sets enc data _ pError).mono
    intro after set clean
    exact absurd clean set
  · exact Ensures.ok id

theorem ReadName_isName {p name rest : Str} (read : ReadName p = some (name, rest)) :
    IsName name := by
  unfold ReadName at read
  split at read
  · cases read
  · rename_i c others
    split_ifs at read with start
    cases read
    have first : isNameChar c = true := by
      simp only [isNameStart, isNameChar, IsAlphaNum, Bool.or_eq_true] at start ⊢
      tauto
    constructor
    · exact ⟨c, by simp [List.takeWhile_cons_of_pos first], start⟩
    · intro d kept
      exact List.mem_takeWhile_imp kept

/-! Attributes. -/

theorem failed_keeps {enc : TiXmlEncoding} {document : Bool} {data : ParsingData}
    {pError : Ptr} {attrib : TiXmlAttribute} {post : TiXmlAttribute × Ptr × ParsingData → Prop}
    (enough : ∀ after, Keeps data after → post (attrib, none, after)) :
    Ensures (do return (attrib, none, ← TiXmlAttribute.fail enc document data pError)) post := by
  apply (fail_keeps enc document data pError).bind
  intro after keeps
  exact Ensures.ok (enough after keeps)

theorem parseValue_keeps (enc : TiXmlEncoding) (document : Bool) (data : ParsingData)
    (name : Str) (p : Ptr) :
    Ensures (TiXmlAttribute.parseValue enc document data name p)
      fun parsed => parsed.1.name = name ∧ Keeps data parsed.2.2 := by
  unfold TiXmlAttribute.parseValue
  split
  · exact failed_keeps fun after keeps => ⟨rfl, keeps⟩
  · exact failed_keeps fun after keeps => ⟨rfl, keeps⟩
  · split_ifs
    · apply (Ensures.trivial _).bind
      rintro ⟨value, q⟩ -
      exact Ensures.ok ⟨rfl, id⟩
    · split
      · exact failed_keeps fun after keeps => ⟨rfl, keeps⟩
      · exact Ensures.ok ⟨rfl, id⟩

theorem attribute_keeps (enc : TiXmlEncoding) (document : Bool) (data : ParsingData) (p : Ptr) :
    Ensures (TiXmlAttribute.Parse enc document data p)
      fun parsed => Keeps data parsed.2.2 ∧ (parsed.2.1 ≠ none → IsName parsed.1.name) := by
  unfold TiXmlAttribute.Parse
  split
  · exact Ensures.ok ⟨id, by simp⟩
  · exact Ensures.ok ⟨id, by simp⟩
  · apply (Stamp_keeps enc data _).bind
    intro stamped keeps
    split
    · exact failed_keeps fun after later => ⟨later.trans keeps, by simp⟩
    · exact failed_keeps fun after later => ⟨later.trans keeps, by simp⟩
    · rename_i name p _ read
      split
      · split_ifs
        · apply (parseValue_keeps enc document stamped name _).mono
          rintro ⟨attrib, q, after⟩ ⟨rfl, later⟩
          exact ⟨later.trans keeps, fun _ => ReadName_isName read⟩
        · exact failed_keeps fun after later => ⟨later.trans keeps, by simp⟩
      · exact failed_keeps fun after later => ⟨later.trans keeps, by simp⟩

def AttributesFormed (attributeSet : List TiXmlAttribute) : Prop :=
  (∀ attrib ∈ attributeSet, IsName attrib.name) ∧
    (attributeSet.map TiXmlAttribute.name).Nodup

theorem attributesFormed_nil : AttributesFormed [] :=
  ⟨by simp, List.nodup_nil⟩

theorem AttributesFormed.add {attributeSet : List TiXmlAttribute} {attrib : TiXmlAttribute}
    (formed : AttributesFormed attributeSet) (name : IsName attrib.name)
    (fresh : ¬(attributeSet.any fun known => known.name = attrib.name) = true) :
    AttributesFormed (attributeSet ++ [attrib]) := by
  constructor
  · intro other found
    obtain found | same := List.mem_append.mp found
    · exact formed.1 other found
    · rw [List.mem_singleton.mp same]
      exact name
  · rw [List.map_append, List.nodup_append_comm]
    refine List.nodup_cons.mpr ⟨?_, formed.2⟩
    intro known
    obtain ⟨other, found, same⟩ := List.mem_map.mp known
    exact fresh (List.any_eq_true.mpr ⟨other, found, by simpa using same⟩)

def Clean {Value : Type} (data : ParsingData) (promise : Value → Prop) (value : Value)
    (after : ParsingData) : Prop :=
  after.error = none → data.error = none ∧ promise value

theorem Clean.after {Value : Type} {first second third : ParsingData} {promise : Value → Prop}
    {value : Value} (clean : Clean second promise value third) (keeps : Keeps first second) :
    Clean first promise value third := by
  intro none
  obtain ⟨earlier, promised⟩ := clean none
  exact ⟨keeps earlier, promised⟩

theorem setError_clean {Read : Type} (enc : TiXmlEncoding) (data earlier : ParsingData)
    (err : TiXmlError) (pError : Ptr) (read : Read) (promise : Read → Prop) :
    Ensures (SetError enc data err pError) fun after => Clean earlier promise read after := by
  apply (SetError_sets enc data err pError).mono
  intro after set none
  exact absurd none set

theorem readAttributes_formed (enc : TiXmlEncoding) (fuel : Nat) (data : ParsingData)
    (attributeSet : List TiXmlAttribute) (p : Str) (formed : AttributesFormed attributeSet) :
    Ensures (readAttributes enc fuel data attributeSet p)
      fun read => Clean data AttributesFormed read.1 read.2.2 := by
  have failed (data earlier : ParsingData) (err : TiXmlError) (pError : Ptr)
      (attributeSet : List TiXmlAttribute) :
      Ensures (do return (attributeSet, .returns none, ← SetError enc data err pError))
        fun read : List TiXmlAttribute × Opening × ParsingData =>
          Clean earlier AttributesFormed read.1 read.2.2 := by
    apply (setError_clean enc data earlier err pError attributeSet AttributesFormed).bind
    intro after clean
    exact Ensures.ok clean
  induction fuel generalizing data attributeSet p with
  | zero => exact Ensures.error
  | succ fuel ih =>
      unfold readAttributes
      split
      · exact failed ..
      · exact failed ..
      · split_ifs
        · split
          · split_ifs
            · exact Ensures.ok fun none => ⟨none, formed⟩
            · exact failed ..
          · exact failed ..
        · exact Ensures.ok fun none => ⟨none, formed⟩
        · apply (attribute_keeps enc true data _).bind
          rintro ⟨attrib, q, after⟩ ⟨keeps, named⟩
          dsimp only at keeps named ⊢
          split
          · split_ifs with known
            · exact failed ..
            · apply (ih after _ _ (formed.add (named (by simp)) known)).mono
              intro read clean
              exact clean.after keeps
          · exact failed ..

/-! The other nodes. -/

theorem startsWith_iff {p tag : Str} (present : tag ≠ []) :
    startsWith p tag = true ↔ tag <+: p := by
  cases p with
  | nil => simp [startsWith, StringEqual, present]
  | cons c rest => simp [startsWith, StringEqual, List.isPrefixOf_iff_prefix]

theorem readUntil_append (stop p : Str) : (readUntil stop p).1 ++ (readUntil stop p).2 = p := by
  induction p with
  | nil => rfl
  | cons c rest ih =>
      unfold readUntil
      split_ifs
      · rfl
      · simp [ih]

theorem readUntil_free {stop : Str} (present : stop ≠ []) (p : Str) :
    ¬stop <:+: (readUntil stop p).1 := by
  induction p with
  | nil => simpa [readUntil] using present
  | cons c rest ih =>
      have whole := readUntil_append stop rest
      unfold readUntil
      split_ifs with found
      · simpa using present
      · dsimp only
        intro inside
        obtain first | later := List.infix_cons_iff.mp inside
        · apply found
          rw [startsWith_iff present, ← whole]
          exact first.trans (List.prefix_append (c :: (readUntil stop rest).1) _)
        · exact ih later

theorem readDeclaration_keeps (enc : TiXmlEncoding) (fuel : Nat) (data : ParsingData)
    (read : Str × Str × Str) (p : Ptr) :
    Ensures (readDeclaration enc fuel data read p)
      fun declared => Keeps data declared.2.2 := by
  induction fuel generalizing data read p with
  | zero =>
      match p with
      | none => exact Ensures.ok id
      | some [] => exact Ensures.ok id
      | some (c :: rest) => exact Ensures.error
  | succ fuel ih =>
      match p with
      | none => exact Ensures.ok id
      | some [] => exact Ensures.ok id
      | some (c :: rest) =>
          unfold readDeclaration
          by_cases closed : c = greater
          · rw [if_pos closed]
            exact Ensures.ok id
          · rw [if_neg closed]
            dsimp only
            split_ifs
            iterate 3
              · apply (attribute_keeps enc false data _).bind
                rintro ⟨attrib, q, after⟩ ⟨keeps, -⟩
                apply (ih after _ q).mono
                intro declared later
                exact later.trans keeps
            · exact ih data _ _

def NodeFormed (data : ParsingData) (parsed : TiXmlNode × Ptr × ParsingData) : Prop :=
  Clean data Formed parsed.1 parsed.2.2

def ChildrenFormed (data : ParsingData) (read : List TiXmlNode × Ptr × ParsingData) : Prop :=
  Clean data (fun children => ∀ child ∈ children, Formed child) read.1 read.2.2

theorem simple_formed (enc : TiXmlEncoding) (fuel : Nat) {type : NodeType}
    (simple : type ≠ .element) (data : ParsingData) (p : Str) :
    Ensures (parseNode enc (fuel + 1) type data p) (NodeFormed data) := by
  have formed (node : TiXmlNode) (after : ParsingData) (q : Ptr) (keeps : Keeps data after)
      (form : Formed node) : NodeFormed data (node, q, after) :=
    fun none => ⟨keeps none, form⟩
  cases type with
  | declaration =>
      unfold parseNode
      apply (Stamp_keeps enc data _).bind
      intro stamped keeps
      apply (readDeclaration_keeps enc _ stamped _ _).bind
      rintro ⟨⟨version_, encoding_, standalone_⟩, q, after⟩ later
      exact Ensures.ok (formed _ _ q (later.trans keeps) (.declaration ..))
  | comment =>
      unfold parseNode
      apply (Stamp_keeps enc data _).bind
      intro after keeps
      exact Ensures.ok (formed _ _ _ keeps (.comment (readUntil_free (by decide) _)))
  | cdata =>
      unfold parseNode
      apply (Stamp_keeps enc data _).bind
      intro after keeps
      apply (Ensures.trivial _).bind
      rintro ⟨text, q⟩ -
      exact Ensures.ok (formed _ _ q keeps (.text _ true))
  | unknown =>
      unfold parseNode
      apply (Stamp_keeps enc data _).bind
      intro after keeps
      refine Ensures.ok (formed _ _ _ keeps (.unknown ?_))
      intro inside
      simpa using List.mem_takeWhile_imp inside
  | element => exact absurd rfl simple

theorem parseEndTag_keeps (enc : TiXmlEncoding) (data : ParsingData) (name : Str) (q : Ptr) :
    Ensures (parseEndTag enc data name q) fun parsed => Keeps data parsed.2 := by
  have failed (pError : Ptr) :
      Ensures (do return (none, ← SetError enc data .TIXML_ERROR_READING_END_TAG pError))
        fun parsed : Ptr × ParsingData => Keeps data parsed.2 := by
    apply (SetError_sets enc data _ pError).bind
    intro after set
    exact Ensures.ok fun none => absurd none set
  unfold parseEndTag
  split
  · split_ifs
    · split
      · split_ifs
        · exact Ensures.ok id
        · exact failed _
      · exact failed _
    · exact failed _
  · exact failed _

theorem parseText_keeps (enc : TiXmlEncoding) (data : ParsingData) (p : Str) :
    Ensures (parseText enc data p) fun parsed => Keeps data parsed.2.2 := by
  unfold parseText
  apply (Stamp_keeps enc data _).bind
  intro stamped keeps
  apply (Ensures.trivial _).bind
  rintro ⟨value, q⟩ -
  exact Ensures.ok keeps

theorem element_formed (enc : TiXmlEncoding) (fuel : Nat) :
    (∀ (type : NodeType) (data : ParsingData) (p : Str),
      Ensures (parseNode enc fuel type data p) (NodeFormed data)) ∧
    ∀ (data : ParsingData) (q : Ptr),
      Ensures (ReadValue enc fuel data q) (ChildrenFormed data) := by
  induction fuel with
  | zero =>
      constructor
      · intros
        unfold parseNode
        exact Ensures.error
      · intros
        unfold ReadValue
        exact Ensures.error
  | succ fuel ih =>
      constructor
      · intro type data p
        by_cases simple : type ≠ .element
        · exact simple_formed enc fuel simple data p
        obtain rfl := not_not.mp simple
        have failed (stamped : ParsingData) (node : TiXmlNode) (pErr : Ptr) :
            Ensures
              (do return (node, none,
                ← SetError enc stamped .TIXML_ERROR_FAILED_TO_READ_ELEMENT_NAME pErr))
              (NodeFormed data) := by
          apply (setError_clean enc stamped data _ pErr node Formed).bind
          intro after clean
          exact Ensures.ok clean
        unfold parseNode
        apply (Stamp_keeps enc data _).bind
        intro stamped keeps
        dsimp only
        split
        · exact failed ..
        · exact failed ..
        · rename_i name p _ read
          obtain ⟨named, -, found⟩ := Option.bind_eq_some_iff.mp read
          have isName := ReadName_isName found
          apply (readAttributes_formed enc _ stamped [] p attributesFormed_nil).bind
          rintro ⟨attributeSet, opening, opened⟩ attributes
          dsimp only at attributes ⊢
          cases opening with
          | returns q =>
              refine Ensures.ok ?_
              intro none
              obtain ⟨clean, set⟩ := attributes none
              exact ⟨keeps clean, .element isName set.1 set.2 (by simp)⟩
          | content p =>
              apply (ih.2 opened _).bind
              rintro ⟨children, q, filled⟩ content
              apply (parseEndTag_keeps enc filled name q).bind
              rintro ⟨q, after⟩ closed
              refine Ensures.ok ?_
              intro none
              obtain ⟨filledClean, formed⟩ := content (closed none)
              obtain ⟨clean, set⟩ := attributes filledClean
              exact ⟨keeps clean, .element isName set.1 set.2 formed⟩
      · intro data q
        match q with
        | none =>
            unfold ReadValue
            apply (setError_clean enc data data _ none ([] : List TiXmlNode)
              fun children => ∀ child ∈ children, Formed child).bind
            intro after clean
            exact Ensures.ok clean
        | some [] =>
            unfold ReadValue
            exact Ensures.ok fun clean => ⟨clean, by simp⟩
        | some (c :: rest) =>
            unfold ReadValue
            split_ifs
            · apply (parseText_keeps enc data _).bind
              rintro ⟨value, q, stamped⟩ keeps
              apply (ih.2 stamped _).bind
              rintro ⟨children, q, after⟩ content
              refine Ensures.ok ?_
              intro none
              obtain ⟨clean, formed⟩ := content none
              refine ⟨keeps clean, ?_⟩
              dsimp only
              split_ifs
              · exact formed
              · exact List.forall_mem_cons.mpr ⟨.text value false, formed⟩
            · exact Ensures.ok fun clean => ⟨clean, by simp⟩
            · split
              · exact Ensures.ok fun clean => ⟨clean, by simp⟩
              · rename_i type _
                apply (ih.1 type data _).bind
                rintro ⟨node, q, parsed⟩ first
                apply (ih.2 parsed _).bind
                rintro ⟨children, q, after⟩ content
                refine Ensures.ok ?_
                intro none
                obtain ⟨parsedClean, formed⟩ := content none
                obtain ⟨clean, form⟩ := first parsedClean
                exact ⟨clean, List.forall_mem_cons.mpr ⟨form, formed⟩⟩

theorem parseNodes_formed (fuel : Nat) (enc : TiXmlEncoding) (data : ParsingData) (q : Ptr) :
    Ensures (parseNodes fuel enc data q) fun parsed =>
      Clean data (fun nodes => ∀ node ∈ nodes, Formed node) parsed.1 parsed.2 := by
  induction fuel generalizing enc data q with
  | zero =>
      match q with
      | none => exact Ensures.ok fun clean => ⟨clean, by simp⟩
      | some [] => exact Ensures.ok fun clean => ⟨clean, by simp⟩
      | some (c :: rest) => exact Ensures.error
  | succ fuel ih =>
      match q with
      | none => exact Ensures.ok fun clean => ⟨clean, by simp⟩
      | some [] => exact Ensures.ok fun clean => ⟨clean, by simp⟩
      | some (c :: rest) =>
          unfold parseNodes
          split
          · exact Ensures.ok fun clean => ⟨clean, by simp⟩
          · rename_i type _
            apply ((element_formed enc fuel).1 type data _).bind
            rintro ⟨node, q, parsed⟩ first
            apply (ih (stated enc node) parsed _).bind
            rintro ⟨nodes, after⟩ content
            refine Ensures.ok ?_
            intro none
            obtain ⟨parsedClean, formed⟩ := content none
            obtain ⟨clean, form⟩ := first parsedClean
            exact ⟨clean, List.forall_mem_cons.mpr ⟨form, formed⟩⟩

theorem document_formed (p : Str) :
    Ensures (Parse p) fun parsed =>
      parsed.2 = none → parsed.1 ≠ [] ∧ ∀ node ∈ parsed.1, Formed node := by
  cases p with
  | nil => exact Ensures.ok (by simp)
  | cons c rest =>
      unfold Parse
      dsimp only
      apply (parseNodes_formed _ _ _ _).bind
      rintro ⟨nodes, data⟩ clean
      refine Ensures.ok ?_
      dsimp only
      split_ifs with empty
      · intro none
        simp at none
      · intro none
        exact ⟨empty, (clean none).2⟩

/-- What is loaded without an error is a document of well-formed nodes. -/
theorem loaded_formed (content : Str) (nodes : List TiXmlNode)
    (loaded : LoadFile content = .ok (true, nodes)) :
    nodes ≠ [] ∧ ∀ node ∈ nodes, Formed node := by
  cases content with
  | nil => cases loaded
  | cons c rest =>
      obtain ⟨⟨read, error⟩, parsed, same⟩ := Exec.bind_ok loaded
      obtain ⟨none, rfl⟩ := Prod.mk.inj (Except.ok.inj same)
      exact (document_formed _).met _ parsed (of_decide_eq_true none)

/-- `<a b="c" d="e"><!--f--><g><!h></g></a>`. -/
def nested : Str :=
  [60, 97, 32, 98, 61, 34, 99, 34, 32, 100, 61, 34, 101, 34, 62, 60, 33, 45, 45, 102, 45, 45, 62,
    60, 103, 62, 60, 33, 104, 62, 60, 47, 103, 62, 60, 47, 97, 62]

theorem loaded_formed_nested :
    let nodes : List TiXmlNode :=
      [.TiXmlElement [97] [{ name := [98], value := [99] }, { name := [100], value := [101] }]
        [.TiXmlComment [102], .TiXmlElement [103] [] [.TiXmlUnknown [33, 104]]]]
    LoadFile nested = .ok (true, nodes) ∧ nodes ≠ [] ∧ ∀ node ∈ nodes, Formed node :=
  ⟨rfl, loaded_formed nested _ rfl⟩

end TinyXml

end GraduationServer
