import GraduationServer.Fault
import GraduationServer.Stream

/-!
TinyXML as `loadConfig` uses it: `LoadFile` and the parsers of the nodes, in the
release build. A pointer is the text from it up to the terminator, and absent
where it is null. `Stamp` is kept for its loop only, the rows and columns that it
counts are not.
-/

namespace GraduationServer

namespace TinyXml

abbrev Ptr := Option Str

inductive TiXmlEncoding where
  | TIXML_ENCODING_UNKNOWN
  | TIXML_ENCODING_UTF8
  | TIXML_ENCODING_LEGACY
  deriving DecidableEq

inductive TiXmlError where
  | TIXML_ERROR_PARSING_ELEMENT
  | TIXML_ERROR_FAILED_TO_READ_ELEMENT_NAME
  | TIXML_ERROR_READING_ELEMENT_VALUE
  | TIXML_ERROR_READING_ATTRIBUTES
  | TIXML_ERROR_PARSING_EMPTY
  | TIXML_ERROR_READING_END_TAG
  | TIXML_ERROR_PARSING_UNKNOWN
  | TIXML_ERROR_PARSING_COMMENT
  | TIXML_ERROR_PARSING_DECLARATION
  | TIXML_ERROR_DOCUMENT_EMPTY
  | TIXML_ERROR_PARSING_CDATA
  | TIXML_ERROR_DOCUMENT_TOP_ONLY
  deriving DecidableEq

/-! The characters that the parsers look for. -/

abbrev quot : UInt8 := 34
abbrev amp : UInt8 := 38
abbrev apos : UInt8 := 39
abbrev dash : UInt8 := 45
abbrev slash : UInt8 := 47
abbrev semicolon : UInt8 := 59
abbrev less : UInt8 := 60
abbrev equals : UInt8 := 61
abbrev greater : UInt8 := 62
abbrev underscore : UInt8 := 95

/-- `<?xml`. -/
def xmlHeader : Str := [less, 63, 120, 109, 108]

/-- `<!--`. -/
def commentHeader : Str := [less, 33, dash, dash]

/-- `-->`. -/
def commentEnd : Str := [dash, dash, greater]

/-- `<![CDATA[`. -/
def cdataHeader : Str := [less, 33, 91, 67, 68, 65, 84, 65, 91]

/-- `]]>`. -/
def cdataEnd : Str := [93, 93, greater]

/-- `<!`. -/
def dtdHeader : Str := [less, 33]

/-- `</`. -/
def endTag : Str := [less, slash]

def version : Str := [118, 101, 114, 115, 105, 111, 110]

def encoding : Str := [101, 110, 99, 111, 100, 105, 110, 103]

def standalone : Str := [115, 116, 97, 110, 100, 97, 108, 111, 110, 101]

def utf8ByteTable (byte : UInt8) : Nat :=
  if byte < 0xc2 then 1
  else if byte < 0xe0 then 2
  else if byte < 0xf0 then 3
  else if byte < 0xf5 then 4
  else 1

def IsWhiteSpace (c : UInt8) : Bool := c = 32 || (9 ≤ c && c ≤ 13)

def ToLower (c : UInt8) : UInt8 := if 65 ≤ c && c ≤ 90 then c + 32 else c

def IsAlpha (anyByte : UInt8) : Bool :=
  if anyByte < 127 then (65 ≤ anyByte && anyByte ≤ 90) || (97 ≤ anyByte && anyByte ≤ 122)
  else true

def IsAlphaNum (anyByte : UInt8) : Bool :=
  IsAlpha anyByte || (48 ≤ anyByte && anyByte ≤ 57)

def isNameStart (c : UInt8) : Bool := IsAlpha c || c = underscore

def isNameChar (c : UInt8) : Bool :=
  IsAlphaNum c || c = underscore || c = dash || c = 46 || c = 58

/-- The three marks of UTF-8 that `SkipWhiteSpace` takes for white space. -/
def isMark (first second third : UInt8) : Bool :=
  first = 0xef &&
    (second = 0xbb && third = 0xbf || second = 0xbf && third = 0xbe ||
      second = 0xbf && third = 0xbf)

def skipMarks : Str → Str
  | first :: second :: third :: rest =>
      if isMark first second third then skipMarks rest
      else if IsWhiteSpace first then skipMarks (second :: third :: rest)
      else first :: second :: third :: rest
  | first :: rest => if IsWhiteSpace first then skipMarks rest else first :: rest
  | [] => []

def skipBlanks (enc : TiXmlEncoding) (p : Str) : Str :=
  if enc = .TIXML_ENCODING_UTF8 then skipMarks p else p.dropWhile IsWhiteSpace

def SkipWhiteSpace (enc : TiXmlEncoding) : Ptr → Ptr
  | none => none
  | some [] => none
  | some p => some (skipBlanks enc p)

/-- `StringEqual` at a pointer that may not be null or at the terminator; there
it is false. -/
def StringEqual (lower : UInt8 → UInt8) (p tag : Str) : Bool :=
  !p.isEmpty && (tag.map lower).isPrefixOf (p.map lower)

def startsWith (p tag : Str) : Bool := StringEqual id p tag

def ReadName : Str → Option (Str × Str)
  | [] => none
  | c :: rest =>
      if isNameStart c then
        some ((c :: rest).takeWhile isNameChar, (c :: rest).dropWhile isNameChar)
      else none

/-! The texts. -/

def ConvertUTF32ToUTF8 (input : UInt32) : Str :=
  let last (input : UInt32) : UInt8 := ((input ||| 0x80) &&& 0xbf).toUInt8
  if input < 0x80 then [input.toUInt8]
  else if input < 0x800 then [((input >>> 6) ||| 0xc0).toUInt8, last input]
  else if input < 0x10000 then
    [((input >>> 12) ||| 0xe0).toUInt8, last (input >>> 6), last input]
  else if input < 0x200000 then
    [((input >>> 18) ||| 0xf0).toUInt8, last (input >>> 12), last (input >>> 6), last input]
  else []

def hexDigit (c : UInt8) : Option UInt32 :=
  if 48 ≤ c && c ≤ 57 then some (c - 48).toUInt32
  else if 97 ≤ c && c ≤ 102 then some (c - 97 + 10).toUInt32
  else if 65 ≤ c && c ≤ 70 then some (c - 65 + 10).toUInt32
  else none

def decimalDigit (c : UInt8) : Option UInt32 :=
  if 48 ≤ c && c ≤ 57 then some (c - 48).toUInt32 else none

def readDigits (digit : UInt8 → Option UInt32) (base : UInt32) (mark : UInt8) :
    UInt32 → Str → Option UInt32
  | _, [] => some 0
  | mult, c :: rest =>
      if c = mark then some 0
      else do
        let value ← digit c
        let ucs ← readDigits digit base mark (mult * base) rest
        return mult * value + ucs

def readNumber (digit : UInt8 → Option UInt32) (base : UInt32) (mark : UInt8) (q : Str) :
    Option (UInt32 × Str) :=
  match q.dropWhile (· ≠ semicolon) with
  | [] => none
  | _ :: rest => do
      let ucs ← readDigits digit base mark 1 (q.takeWhile (· ≠ semicolon)).reverse
      return (ucs, rest)

/-- `&amp;`, `&lt;`, `&gt;`, `&quot;` and `&apos;` without their first character. -/
def entity : List (Str × UInt8) :=
  [([97, 109, 112, semicolon], amp), ([108, 116, semicolon], less),
    ([103, 116, semicolon], greater), ([113, 117, 111, 116, semicolon], quot),
    ([97, 112, 111, 115, semicolon], apos)]

def readUnicode (enc : TiXmlEncoding) (number : Option (UInt32 × Str)) : Option (Str × Str) :=
  number.map fun (ucs, rest) =>
    (if enc = .TIXML_ENCODING_UTF8 then ConvertUTF32ToUTF8 ucs else [ucs.toUInt8], rest)

/-- `GetEntity` at an ampersand with `p` behind it. One that is not known is left
out of the text. -/
def GetEntity (enc : TiXmlEncoding) (p : Str) : Option (Str × Str) :=
  match p with
  | 35 :: 120 :: q => if q = [] then none else readUnicode enc (readNumber hexDigit 16 120 q)
  | 35 :: c :: q => readUnicode enc (readNumber decimalDigit 10 35 (c :: q))
  | _ =>
      match entity.find? fun known => known.1.isPrefixOf p with
      | some (name, chr) => some ([chr], p.drop name.length)
      | none => some ([], p)

/-- A character that the terminator cuts off takes the pointer behind it. -/
def GetChar (enc : TiXmlEncoding) (c : UInt8) (rest : Str) : Exec (Option (Str × Str)) :=
  let length := if enc = .TIXML_ENCODING_UTF8 then utf8ByteTable c else 1
  if length = 1 then
    if c = amp then .ok (GetEntity enc rest) else .ok (some ([c], rest))
  else if rest.length + 1 < length then .error .outOfBounds
  else .ok (some ((c :: rest).take length, (c :: rest).drop length))

def readKept (enc : TiXmlEncoding) (endTag : Str) : Nat → Ptr → Exec (Str × Ptr)
  | _, none => .ok ([], none)
  | _, some [] => .ok ([], some [])
  | 0, _ => .error .endlessLoop
  | fuel + 1, some (c :: rest) =>
      if startsWith (c :: rest) endTag then .ok ([], some (c :: rest))
      else do
        match ← GetChar enc c rest with
        | none => return ([], none)
        | some (value, p) =>
            let (text, p) ← readKept enc endTag fuel (some p)
            return (value ++ text, p)

def readCondensed (enc : TiXmlEncoding) (endTag : Str) : Nat → Bool → Ptr → Exec (Str × Ptr)
  | _, _, none => .ok ([], none)
  | _, _, some [] => .ok ([], some [])
  | 0, _, _ => .error .endlessLoop
  | fuel + 1, whitespace, some (c :: rest) =>
      if startsWith (c :: rest) endTag then .ok ([], some (c :: rest))
      else if IsWhiteSpace c then readCondensed enc endTag fuel true (some rest)
      else do
        let space : Str := if whitespace then [32] else []
        match ← GetChar enc c rest with
        | none => return (space, none)
        | some (value, p) =>
            let (text, p) ← readCondensed enc endTag fuel false (some p)
            return (space ++ value ++ text, p)

/-- The pointer behind the end tag, and null where nothing follows it. -/
def behind (length : Nat) : Ptr → Ptr
  | none => none
  | some p => if p.drop length = [] then none else some (p.drop length)

def textLength : Ptr → Nat
  | none => 0
  | some p => p.length

def ReadText (enc : TiXmlEncoding) (trimWhiteSpace : Bool) (endTag : Str) (p : Ptr) :
    Exec (Str × Ptr) := do
  let (text, p) ←
    if trimWhiteSpace then
      readCondensed enc endTag (textLength p) false (SkipWhiteSpace enc p)
    else readKept enc endTag (textLength p) p
  return (text, behind endTag.length p)

/-! Errors and locations. -/

/-- What the parsers of a document share: its first error and the `stamp` of the
`TiXmlParsingData`. -/
structure ParsingData where
  error : Option TiXmlError
  stamp : Str
  deriving DecidableEq

/-- One turn of the loop of `Stamp`. In front of the last two bytes of a text in
UTF-8 the byte `0xef` keeps it where it is. -/
def stampTurn (enc : TiXmlEncoding) (c : UInt8) (rest : Str) : Option Str :=
  if c = 13 then some (if rest.head? = some 10 then rest.tail else rest)
  else if c = 10 then some (if rest.head? = some 13 then rest.tail else rest)
  else if enc = .TIXML_ENCODING_UTF8 then
    if c = 0xef then if 2 ≤ rest.length then some (rest.drop 2) else none
    else some (rest.drop (utf8ByteTable c - 1))
  else some rest

def stampLoop (enc : TiXmlEncoding) (now : Str) : Nat → Str → Exec Str
  | _, [] => .ok []
  | 0, _ => .error .endlessLoop
  | fuel + 1, c :: rest =>
      if now.length < rest.length + 1 then
        match stampTurn enc c rest with
        | none => .error .endlessLoop
        | some p => stampLoop enc now fuel p
      else .ok (c :: rest)

def Stamp (enc : TiXmlEncoding) (data : ParsingData) : Ptr → Exec ParsingData
  | none => .ok data
  | some now => do return { data with stamp := ← stampLoop enc now data.stamp.length data.stamp }

/-- The first error stays. -/
def SetError (enc : TiXmlEncoding) (data : ParsingData) (err : TiXmlError) (pError : Ptr) :
    Exec ParsingData :=
  if data.error = none then Stamp enc { data with error := some err } pError else .ok data

/-! The nodes. -/

structure TiXmlAttribute where
  name : Str
  value : Str
  deriving DecidableEq

inductive TiXmlNode where
  | TiXmlElement (value : Str) (attributeSet : List TiXmlAttribute) (children : List TiXmlNode)
  | TiXmlText (value : Str) (cdata : Bool)
  | TiXmlComment (value : Str)
  | TiXmlUnknown (value : Str)
  | TiXmlDeclaration (version encoding standalone : Str)

def readBare : Str → Str × Str × Bool
  | [] => ([], [], false)
  | c :: rest =>
      if IsWhiteSpace c || c = slash || c = greater then ([], c :: rest, false)
      else if c = apos || c = quot then ([], c :: rest, true)
      else
        let (value, p, quoted) := readBare rest
        (c :: value, p, quoted)

namespace TiXmlAttribute

/-- `document` tells whether errors are kept: the attributes of a declaration have
no document. -/
def fail (enc : TiXmlEncoding) (document : Bool) (data : ParsingData) (pError : Ptr) :
    Exec ParsingData :=
  if document then SetError enc data .TIXML_ERROR_READING_ATTRIBUTES pError else .ok data

def parseValue (enc : TiXmlEncoding) (document : Bool) (data : ParsingData) (name : Str)
    (p : Ptr) : Exec (TiXmlAttribute × Ptr × ParsingData) :=
  match SkipWhiteSpace enc p with
  | none => do return ({ name, value := [] }, none, ← fail enc document data none)
  | some [] => do return ({ name, value := [] }, none, ← fail enc document data (some []))
  | some (c :: rest) =>
      if c = apos || c = quot then do
        let (value, p) ← ReadText enc false [c] (some rest)
        return ({ name, value }, p, data)
      else
        match readBare (c :: rest) with
        | (value, p, true) => do
            return ({ name, value }, none, ← fail enc document data (some p))
        | (value, p, false) => .ok ({ name, value }, some p, data)

def Parse (enc : TiXmlEncoding) (document : Bool) (data : ParsingData) (p : Ptr) :
    Exec (TiXmlAttribute × Ptr × ParsingData) :=
  match SkipWhiteSpace enc p with
  | none => .ok ({ name := [], value := [] }, none, data)
  | some [] => .ok ({ name := [], value := [] }, none, data)
  | some (c :: rest) => do
      let data ← Stamp enc data (some (c :: rest))
      match ReadName (c :: rest) with
      | none =>
          return ({ name := [], value := [] }, none,
            ← fail enc document data (some (c :: rest)))
      | some (name, []) =>
          return ({ name, value := [] }, none, ← fail enc document data (some (c :: rest)))
      | some (name, p) =>
          match SkipWhiteSpace enc (some p) with
          | some (sign :: rest) =>
              if sign = equals then parseValue enc document data name (some rest)
              else
                return ({ name, value := [] }, none,
                  ← fail enc document data (some (sign :: rest)))
          | p => return ({ name, value := [] }, none, ← fail enc document data p)

end TiXmlAttribute

/-! The declaration keeps what it has read of the three attributes. -/

def readDeclaration (enc : TiXmlEncoding) : Nat → ParsingData → Str × Str × Str → Ptr →
    Exec ((Str × Str × Str) × Ptr × ParsingData)
  | _, data, read, none => .ok (read, none, data)
  | _, data, read, some [] => .ok (read, none, data)
  | 0, _, _, _ => .error .endlessLoop
  | fuel + 1, data, (version_, encoding_, standalone_), some (c :: rest) =>
      if c = greater then .ok ((version_, encoding_, standalone_), some rest, data)
      else
        let p := skipBlanks enc (c :: rest)
        if StringEqual ToLower p version then do
          let (attrib, p, data) ← TiXmlAttribute.Parse enc false data (some p)
          readDeclaration enc fuel data (Stream.cString attrib.value, encoding_, standalone_) p
        else if StringEqual ToLower p encoding then do
          let (attrib, p, data) ← TiXmlAttribute.Parse enc false data (some p)
          readDeclaration enc fuel data (version_, Stream.cString attrib.value, standalone_) p
        else if StringEqual ToLower p standalone then do
          let (attrib, p, data) ← TiXmlAttribute.Parse enc false data (some p)
          readDeclaration enc fuel data (version_, encoding_, Stream.cString attrib.value) p
        else
          readDeclaration enc fuel data (version_, encoding_, standalone_)
            (some (p.dropWhile fun c => c ≠ greater && !IsWhiteSpace c))

def parseDeclaration (enc : TiXmlEncoding) (data : ParsingData) (p : Str) :
    Exec (TiXmlNode × Ptr × ParsingData) := do
  let data ← Stamp enc data (some p)
  let ((version_, encoding_, standalone_), p, data) ←
    readDeclaration enc p.length data ([], [], []) (some (p.drop xmlHeader.length))
  return (.TiXmlDeclaration version_ encoding_ standalone_, p, data)

def readUntil (stop : Str) : Str → Str × Str
  | [] => ([], [])
  | c :: rest =>
      if startsWith (c :: rest) stop then ([], c :: rest)
      else
        let (value, p) := readUntil stop rest
        (c :: value, p)

def parseComment (enc : TiXmlEncoding) (data : ParsingData) (p : Str) :
    Exec (TiXmlNode × Ptr × ParsingData) := do
  let data ← Stamp enc data (some p)
  let (value, p) := readUntil commentEnd (p.drop commentHeader.length)
  return (.TiXmlComment value, some (p.drop commentEnd.length), data)

def parseCdata (enc : TiXmlEncoding) (data : ParsingData) (p : Str) :
    Exec (TiXmlNode × Ptr × ParsingData) := do
  let data ← Stamp enc data (some p)
  let (value, p) := readUntil cdataEnd (p.drop cdataHeader.length)
  let (_, p) ← ReadText enc false cdataEnd (some p)
  return (.TiXmlText value true, p, data)

def parseUnknown (enc : TiXmlEncoding) (data : ParsingData) (p : Str) :
    Exec (TiXmlNode × Ptr × ParsingData) := do
  let data ← Stamp enc data (some p)
  let value := p.tail.takeWhile (· ≠ greater)
  return (.TiXmlUnknown value, some ((p.tail.dropWhile (· ≠ greater)).tail), data)

/-- A text of an element, which the next `<` ends; the pointer goes back to it. -/
def parseText (enc : TiXmlEncoding) (data : ParsingData) (p : Str) :
    Exec (Str × Ptr × ParsingData) := do
  let data ← Stamp enc data (some p)
  let (value, p) ← ReadText enc true [less] (some p)
  return (value, p.map (less :: ·), data)

def Blank (value : Str) : Bool := value.all IsWhiteSpace

inductive NodeType where
  | declaration
  | comment
  | cdata
  | unknown
  | element

def Identify (p : Str) : Option NodeType :=
  match p with
  | [] => none
  | c :: rest =>
      if c ≠ less then none
      else if StringEqual ToLower p xmlHeader then some .declaration
      else if startsWith p commentHeader then some .comment
      else if startsWith p cdataHeader then some .cdata
      else if startsWith p dtdHeader then some .unknown
      else if rest.head?.any isNameStart then some .element
      else some .unknown

inductive Opening where
  | returns (p : Ptr)
  | content (p : Str)

def readAttributes (enc : TiXmlEncoding) : Nat → ParsingData → List TiXmlAttribute → Str →
    Exec (List TiXmlAttribute × Opening × ParsingData)
  | 0, _, _, _ => .error .endlessLoop
  | fuel + 1, data, attributeSet, pErr =>
      match SkipWhiteSpace enc (some pErr) with
      | none => do
          return (attributeSet, .returns none,
            ← SetError enc data .TIXML_ERROR_READING_ATTRIBUTES (some pErr))
      | some [] => do
          return (attributeSet, .returns none,
            ← SetError enc data .TIXML_ERROR_READING_ATTRIBUTES (some pErr))
      | some (c :: rest) =>
          if c = slash then
            match rest with
            | sign :: p =>
                if sign = greater then .ok (attributeSet, .returns (some p), data)
                else do
                  return (attributeSet, .returns none,
                    ← SetError enc data .TIXML_ERROR_PARSING_EMPTY (some rest))
            | [] => do
                return (attributeSet, .returns none,
                  ← SetError enc data .TIXML_ERROR_PARSING_EMPTY (some rest))
          else if c = greater then .ok (attributeSet, .content rest, data)
          else do
            let (attrib, p, data) ← TiXmlAttribute.Parse enc true data (some (c :: rest))
            match p with
            | some (next :: p) =>
                if attributeSet.any fun known => known.name = attrib.name then
                  return (attributeSet, .returns none,
                    ← SetError enc data .TIXML_ERROR_PARSING_ELEMENT (some (c :: rest)))
                else readAttributes enc fuel data (attributeSet ++ [attrib]) (next :: p)
            | _ =>
                return (attributeSet, .returns none,
                  ← SetError enc data .TIXML_ERROR_PARSING_ELEMENT (some (c :: rest)))

def parseEndTag (enc : TiXmlEncoding) (data : ParsingData) (name : Str) (p : Ptr) :
    Exec (Ptr × ParsingData) :=
  match p with
  | some (c :: rest) =>
      if startsWith (c :: rest) (endTag ++ name) then
        match SkipWhiteSpace enc (some ((c :: rest).drop (endTag ++ name).length)) with
        | some (sign :: p) =>
            if sign = greater then .ok (some p, data)
            else do
              return (none, ← SetError enc data .TIXML_ERROR_READING_END_TAG (some (sign :: p)))
        | p => do return (none, ← SetError enc data .TIXML_ERROR_READING_END_TAG p)
      else do
        return (none, ← SetError enc data .TIXML_ERROR_READING_END_TAG (some (c :: rest)))
  | p => do return (none, ← SetError enc data .TIXML_ERROR_READING_END_TAG p)

mutual

def parseNode (enc : TiXmlEncoding) : Nat → NodeType → ParsingData → Str →
    Exec (TiXmlNode × Ptr × ParsingData)
  | 0, _, _, _ => .error .endlessLoop
  | _ + 1, .declaration, data, p => parseDeclaration enc data p
  | _ + 1, .comment, data, p => parseComment enc data p
  | _ + 1, .cdata, data, p => parseCdata enc data p
  | _ + 1, .unknown, data, p => parseUnknown enc data p
  | fuel + 1, .element, data, p => do
      let data ← Stamp enc data (some p)
      let pErr := SkipWhiteSpace enc (some p.tail)
      match pErr.bind ReadName with
      | none =>
          return (.TiXmlElement [] [] [], none,
            ← SetError enc data .TIXML_ERROR_FAILED_TO_READ_ELEMENT_NAME pErr)
      | some (name, []) =>
          return (.TiXmlElement name [] [], none,
            ← SetError enc data .TIXML_ERROR_FAILED_TO_READ_ELEMENT_NAME pErr)
      | some (name, p) =>
          let (attributeSet, opening, data) ← readAttributes enc p.length data [] p
          match opening with
          | .returns p => return (.TiXmlElement name attributeSet [], p, data)
          | .content p =>
              let (children, p, data) ← ReadValue enc fuel data (SkipWhiteSpace enc (some p))
              let (p, data) ← parseEndTag enc data name p
              return (.TiXmlElement name attributeSet children, p, data)

def ReadValue (enc : TiXmlEncoding) : Nat → ParsingData → Ptr →
    Exec (List TiXmlNode × Ptr × ParsingData)
  | 0, _, _ => .error .endlessLoop
  | _ + 1, data, none => do
      return ([], none, ← SetError enc data .TIXML_ERROR_READING_ELEMENT_VALUE none)
  | _ + 1, data, some [] => .ok ([], some [], data)
  | fuel + 1, data, some (c :: rest) =>
      if c ≠ less then do
        let (value, p, data) ← parseText enc data (c :: rest)
        let (children, p, data) ← ReadValue enc fuel data (SkipWhiteSpace enc p)
        return (if Blank value then children else .TiXmlText value false :: children, p, data)
      else if startsWith (c :: rest) endTag then .ok ([], some (c :: rest), data)
      else
        match Identify (c :: rest) with
        | none => .ok ([], none, data)
        | some type => do
            let (node, p, data) ← parseNode enc fuel type data (c :: rest)
            let (children, p, data) ← ReadValue enc fuel data (SkipWhiteSpace enc p)
            return (node :: children, p, data)

end

/-- The encoding that a declaration states, where it was not known before it. -/
def stated (enc : TiXmlEncoding) : TiXmlNode → TiXmlEncoding
  | .TiXmlDeclaration _ encoding_ _ =>
      let encoding := Stream.cString encoding_
      if enc ≠ .TIXML_ENCODING_UNKNOWN then enc
      else if encoding = [] then .TIXML_ENCODING_UTF8
      else if StringEqual ToLower encoding [85, 84, 70, dash, 56] then .TIXML_ENCODING_UTF8
      else if StringEqual ToLower encoding [85, 84, 70, 56] then .TIXML_ENCODING_UTF8
      else .TIXML_ENCODING_LEGACY
  | _ => enc

/-- The nodes of the document, each with the encoding that is known by then. -/
def parseNodes : Nat → TiXmlEncoding → ParsingData → Ptr → Exec (List TiXmlNode × ParsingData)
  | _, _, data, none => .ok ([], data)
  | _, _, data, some [] => .ok ([], data)
  | 0, _, _, _ => .error .endlessLoop
  | fuel + 1, enc, data, some (c :: rest) =>
      match Identify (c :: rest) with
      | none => .ok ([], data)
      | some type => do
          let (node, p, data) ← parseNode enc fuel type data (c :: rest)
          let enc := stated enc node
          let (nodes, data) ← parseNodes fuel enc data (SkipWhiteSpace enc p)
          return (node :: nodes, data)

def microsoftBOM : Str := [0xef, 0xbb, 0xbf]

def fuelOf (p : Str) : Nat := 2 * p.length + 3

/-- `TiXmlDocument::Parse` from its first byte, with no encoding given. -/
def Parse (p : Str) : Exec (List TiXmlNode × Option TiXmlError) :=
  match p with
  | [] => .ok ([], some .TIXML_ERROR_DOCUMENT_EMPTY)
  | c :: rest => do
      let enc : TiXmlEncoding :=
        if microsoftBOM.isPrefixOf (c :: rest) then .TIXML_ENCODING_UTF8
        else .TIXML_ENCODING_UNKNOWN
      let (nodes, data) ← parseNodes (fuelOf (c :: rest)) enc
        { error := none, stamp := c :: rest } (SkipWhiteSpace enc (some (c :: rest)))
      let error := if nodes = [] then data.error.or (some .TIXML_ERROR_DOCUMENT_EMPTY)
        else data.error
      return (nodes, error)

/-- The ends of lines as one byte, up to the first null byte. -/
def normalize : Str → Str
  | [] => []
  | 13 :: 10 :: rest => 10 :: normalize rest
  | c :: rest =>
      if c = 0 then []
      else if c = 13 then 10 :: normalize rest
      else c :: normalize rest

def LoadFile (content : Str) : Exec (Bool × List TiXmlNode) :=
  match content with
  | [] => .ok (false, [])
  | content => do
      let (nodes, error) ← Parse (normalize content)
      return (error = none, nodes)

end TinyXml

end GraduationServer
