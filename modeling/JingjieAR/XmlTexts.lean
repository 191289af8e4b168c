import Mathlib.Data.List.Infix
import Mathlib.Data.List.Nodup

/-! XML documents as texts of code points, as far as they have elements, attributes, character data
and CDATA sections. A document that has anything else, such as a prolog, comments or processing
instructions, is not read. -/
namespace JingjieAR.XmlText

abbrev Text := List ℕ

def ofString (text : String) : Text := text.toList.map Char.toNat

inductive Node
  | text (value : Text)
  | element (tag : Text) (attributes : List (Text × Text)) (children : List Node)

section Characters

def inRanges (ranges : List (ℕ × ℕ)) (c : ℕ) : Bool :=
  ranges.any (fun range => range.1 ≤ c && c ≤ range.2)

/-- The characters that a document may hold at all. -/
def isChar (c : ℕ) : Bool :=
  inRanges [(9, 10), (13, 13), (0x20, 0xD7FF), (0xE000, 0xFFFD), (0x10000, 0x10FFFF)] c

def isBlank (c : ℕ) : Bool := c = 32 || c = 9 || c = 10 || c = 13

def isNameStart (c : ℕ) : Bool :=
  inRanges [(58, 58), (65, 90), (95, 95), (97, 122), (0xC0, 0xD6), (0xD8, 0xF6), (0xF8, 0x2FF),
    (0x370, 0x37D), (0x37F, 0x1FFF), (0x200C, 0x200D), (0x2070, 0x218F), (0x2C00, 0x2FEF),
    (0x3001, 0xD7FF), (0xF900, 0xFDCF), (0xFDF0, 0xFFFD), (0x10000, 0xEFFFF)] c

def isNameChar (c : ℕ) : Bool :=
  isNameStart c || inRanges [(45, 46), (48, 57), (0xB7, 0xB7), (0x300, 0x36F), (0x203F, 0x2040)] c

end Characters

section Reading

def skipBlanks (text : Text) : Text := text.dropWhile isBlank

/-- The ends of lines become line feeds before anything else is read. -/
def normalizeLines : Text → Text
  | 13 :: 10 :: rest => 10 :: normalizeLines rest
  | 13 :: rest => 10 :: normalizeLines rest
  | c :: rest => c :: normalizeLines rest
  | [] => []

def name : Text → Option (Text × Text)
  | [] => none
  | c :: rest =>
    if isNameStart c then some (c :: rest.takeWhile isNameChar, rest.dropWhile isNameChar)
    else none

def digitValue (c : ℕ) : Option ℕ :=
  if 48 ≤ c ∧ c ≤ 57 then some (c-48)
  else if 97 ≤ c ∧ c ≤ 102 then some (c-87)
  else if 65 ≤ c ∧ c ≤ 70 then some (c-55)
  else none

/-- The character with this number. -/
def charReference (base : ℕ) (digits : Text) : Option ℕ := do
  let value ← digits.foldlM (fun n c => do
    let digit ← digitValue c
    if digit < base then some (n*base+digit) else none) 0
  if digits ≠ [] ∧ isChar value then some value else none

/-- What is meant between an ampersand and a semicolon: `amp lt gt quot apos` or a number. -/
def reference : Text → Option ℕ
  | [97, 109, 112] => some 38
  | [108, 116] => some 60
  | [103, 116] => some 62
  | [113, 117, 111, 116] => some 34
  | [97, 112, 111, 115] => some 39
  | 35 :: 120 :: digits => charReference 16 digits
  | 35 :: digits => charReference 10 digits
  | _ => none

/-- Put in what the references mean. Inside of one, its name so far is kept, the last character
first. -/
def expand (plain : ℕ → ℕ) : Option Text → Text → Option Text
  | none, [] => some []
  | some _, [] => none
  | none, c :: rest =>
    if c = 38 then expand plain (some []) rest else (expand plain none rest).map (plain c :: ·)
  | some name, c :: rest =>
    if c = 59 then do
      let value ← reference name.reverse
      (expand plain none rest).map (value :: ·)
    else expand plain (some (c :: name)) rest

/-- A blank in the value of an attribute is a space. -/
def attributeChar (c : ℕ) : ℕ := if isBlank c then 32 else c

def attributeValue : Text → Option (Text × Text)
  | [] => none
  | quote :: rest =>
    if quote = 34 ∨ quote = 39 then
      let raw := rest.takeWhile (· ≠ quote)
      match rest.dropWhile (· ≠ quote) with
      | [] => none
      | _ :: rest =>
        if 60 ∈ raw then none else (expand attributeChar none raw).map (fun value => (value, rest))
    else none

def afterEquals (text : Text) : Option Text :=
  match skipBlanks text with
  | 61 :: rest => some (skipBlanks rest)
  | _ => none

/-- The attributes up to the end of the tag. There is a blank before each one. -/
def attributes : ℕ → Text → Option (List (Text × Text) × Text)
  | 0, _ => none
  | fuel+1, text =>
    let rest := skipBlanks text
    if rest.head? = some 47 ∨ rest.head? = some 62 then some ([], rest)
    else if rest.length = text.length then none
    else do
      let (key, rest) ← name rest
      let rest ← afterEquals rest
      let (value, rest) ← attributeValue rest
      let (others, rest) ← attributes fuel rest
      some ((key, value) :: others, rest)

/-- `<![CDATA[` without its first character. -/
def cdataStart : Text := [33, 91, 67, 68, 65, 84, 65, 91]

/-- `]]>` -/
def cdataEnd : Text := [93, 93, 62]

/-- What is behind the start of a CDATA section, up to its end. -/
def cdata : Text → Option (Text × Text)
  | [] => none
  | c :: rest =>
    if cdataEnd <+: c :: rest then some ([], rest.drop 2)
    else (cdata rest).map (fun p => (c :: p.1, p.2))

def afterPrefix (start text : Text) : Option Text :=
  if start <+: text then some (text.drop start.length) else none

mutual

/-- An element behind its `<`. -/
def element : ℕ → Text → Option (Node × Text)
  | 0, _ => none
  | fuel+1, text => do
    let (tag, rest) ← name text
    let (pairs, rest) ← attributes fuel rest
    if (pairs.map Prod.fst).Nodup then
      match rest with
      | 47 :: 62 :: rest => some (.element tag pairs [], rest)
      | 62 :: rest => do
        let (children, rest) ← content fuel rest
        let (endTag, rest) ← name rest
        match skipBlanks rest with
        | 62 :: rest => if endTag = tag then some (.element tag pairs children, rest) else none
        | _ => none
      | _ => none
    else none

/-- What is in an element, up to the `</` of its end. -/
def content : ℕ → Text → Option (List Node × Text)
  | 0, _ => none
  | fuel+1, text =>
    match text with
    | 60 :: 47 :: rest => some ([], rest)
    | 60 :: rest =>
      match afterPrefix cdataStart rest with
      | some rest => do
        let (value, rest) ← cdata rest
        let (nodes, rest) ← content fuel rest
        some (.text value :: nodes, rest)
      | none => do
        let (node, rest) ← element fuel rest
        let (nodes, rest) ← content fuel rest
        some (node :: nodes, rest)
    | text =>
      let raw := text.takeWhile (· ≠ 60)
      if raw = [] ∨ cdataEnd <:+: raw then none
      else do
        let value ← expand id none raw
        let (nodes, rest) ← content fuel (text.dropWhile (· ≠ 60))
        some (.text value :: nodes, rest)

end

/-- The root of a document. -/
def parse (text : Text) : Option Node :=
  if text.all isChar then
    match skipBlanks (normalizeLines text) with
    | 60 :: rest => do
      let (node, rest) ← element (rest.length+1) rest
      if rest.all isBlank then some node else none
    | _ => none
  else none

end Reading

end JingjieAR.XmlText
