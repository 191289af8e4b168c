import JingjieAR.StringLiterals
import Mathlib.Data.Int.Notation
import Mathlib.Data.List.Infix

/-! The parser of the migration script for data in the form of JavaScript, and `json.dumps`.
A text is its code points, among them the surrogates. There is no bound here on how deep data
may be nested, and none on the digits of an integer. -/
namespace JingjieAR.PanoData

open StringLiterals (hexValue)

abbrev PyText := List ℕ

def codes (text : String) : PyText := text.toList.map Char.toNat

/-- What Python knows about the characters that are not in ASCII, and its `float`: `repr` of a
finite one, and the value of a text. -/
structure PyTables (F : Type) where
  isdigit : ℕ → Bool
  isalpha : ℕ → Bool
  repr : F → PyText
  float : PyText → F

/-- The members of a `dict` are in the order in which their keys were put in. -/
inductive PyData (F : Type)
  | pyNone
  | bool (value : Bool)
  | int (value : ℤ)
  | float (value : F)
  | str (text : PyText)
  | list (items : List (PyData F))
  | dict (members : List (PyText × PyData F))

inductive DataError
  | parseError (message : String)
  | attributeError
  -- the fuel of the model is used up
  | outOfFuel
deriving DecidableEq

abbrev DataResult := Except DataError

inductive TokenKind
  | eof
  | mark (char : ℕ)
  | string
  | number
  | identifier
deriving DecidableEq

structure Token where
  kind : TokenKind
  value : PyText
  position : ℕ
deriving DecidableEq

/-- `rest` is `source[position:]`. -/
structure TokenStream where
  position : ℕ := 0
  rest : PyText
  buffered : Option Token := none
deriving DecidableEq

def isDigit (c : ℕ) : Bool := 48 ≤ c && c ≤ 57

def isLetter (c : ℕ) : Bool := 65 ≤ c && c ≤ 90 || 97 ≤ c && c ≤ 122

/-- `str.isspace` -/
def isSpace (c : ℕ) : Bool :=
  9 ≤ c && c ≤ 13 || 28 ≤ c && c ≤ 32 || c = 0x85 || c = 0xA0 || c = 0x1680 ||
    0x2000 ≤ c && c ≤ 0x200A || c = 0x2028 || c = 0x2029 || c = 0x202F || c = 0x205F || c = 0x3000

section Numbers

/-- `(?:0|[1-9][0-9]*)` -/
def matchWhole : PyText → Option (PyText × PyText)
  | [] => none
  | c :: rest =>
    if c = 48 then some ([48], rest)
    else if isDigit c then some (c :: rest.takeWhile isDigit, rest.dropWhile isDigit)
    else none

/-- `(?:\.[0-9]+)?` -/
def matchFraction (text : PyText) : PyText × PyText :=
  match text with
  | 46 :: rest =>
    if rest.takeWhile isDigit = [] then ([], text)
    else (46 :: rest.takeWhile isDigit, rest.dropWhile isDigit)
  | _ => ([], text)

/-- `(?:[eE][+-]?[0-9]+)?` -/
def matchExponent (text : PyText) : PyText × PyText :=
  match text with
  | [] => ([], text)
  | c :: rest =>
    let sign := if rest.head? = some 43 ∨ rest.head? = some 45 then rest.take 1 else []
    let digits := (rest.drop sign.length).takeWhile isDigit
    if (c = 101 ∨ c = 69) ∧ digits ≠ [] then
      (c :: (sign++digits), (rest.drop sign.length).dropWhile isDigit)
    else ([], text)

/-- `-?(?:0|[1-9][0-9]*)(?:\.[0-9]+)?(?:[eE][+-]?[0-9]+)?`, with what is behind it. -/
def matchNumber (text : PyText) : Option (PyText × PyText) := do
  let sign := if text.head? = some 45 then [45] else []
  let (whole, rest) ← matchWhole (text.drop sign.length)
  let (fraction, rest) := matchFraction rest
  let (exponent, rest) := matchExponent rest
  some (sign++(whole++(fraction++exponent)), rest)

def digitsValue (digits : PyText) : ℕ := digits.foldl (fun n c => n*10+(c-48)) 0

/-- `int` of the text of a number. -/
def intOfText (text : PyText) : ℤ :=
  if text.head? = some 45 then -(digitsValue text.tail) else digitsValue text

end Numbers

section Strings

def simpleEscape (c : ℕ) : Option ℕ :=
  [(98, 8), (102, 12), (110, 10), (114, 13), (116, 9), (118, 11), (48, 0)].lookup c

/-- The loop of `_read_string`, with what is behind the closing quote. -/
def readChars (quote : ℕ) : PyText → DataResult (PyText × PyText)
  | [] => .error (.parseError "unterminated string")
  | char :: rest =>
    if char = quote then .ok ([], rest)
    else if char ≠ 92 then do
      let (chars, rest) ← readChars quote rest
      .ok (char :: chars, rest)
    else
      match rest with
      | [] => .error (.parseError "unterminated escape sequence")
      | escaped :: rest =>
        if let some simple := simpleEscape escaped then do
          let (chars, rest) ← readChars quote rest
          .ok (simple :: chars, rest)
        else if escaped = 117 then
          match rest with
          | a :: b :: c :: d :: rest =>
            match hexValue [a, b, c, d] with
            | some value => do
              let (chars, rest) ← readChars quote rest
              .ok (value :: chars, rest)
            | none => .error (.parseError "invalid unicode escape")
          | _ => .error (.parseError "invalid unicode escape")
        else if escaped = 120 then
          match rest with
          | a :: b :: rest =>
            match hexValue [a, b] with
            | some value => do
              let (chars, rest) ← readChars quote rest
              .ok (value :: chars, rest)
            | none => .error (.parseError "invalid hexadecimal escape")
          | _ => .error (.parseError "invalid hexadecimal escape")
        else if escaped = 13 then
          match rest with
          | 10 :: rest => readChars quote rest
          | rest => readChars quote rest
        else if escaped = 10 then readChars quote rest
        else do
          let (chars, rest) ← readChars quote rest
          .ok (escaped :: chars, rest)

theorem readChars_quote (quote : ℕ) (rest : PyText) :
    readChars quote (quote :: rest) = .ok ([], rest) := by
  rw [readChars.eq_def]
  simp

/-- `_read_string` behind its quote. -/
def readString (quote : ℕ) (text : PyText) : DataResult (PyText × PyText) := do
  let (value, rest) ← readChars quote text
  if quote = 96 ∧ [36, 123] <:+: value then
    .error (.parseError "template interpolation is not permitted")
  else .ok (value, rest)

end Strings

namespace TokenStream

variable {F : Type}

/-- The stream behind a token that leaves this rest. -/
def advance (s : TokenStream) (rest : PyText) : TokenStream :=
  { s with position := s.position+(s.rest.length-rest.length), rest := rest }

def skipSpace (s : TokenStream) : TokenStream := s.advance (s.rest.dropWhile isSpace)

/-- `_next` -/
def next (tables : PyTables F) (s : TokenStream) : DataResult (Token × TokenStream) :=
  let s := s.skipSpace
  let start := s.position
  match s.rest with
  | [] => .ok (⟨.eof, [], start⟩, s)
  | char :: after =>
    let isdigit := fun c => isDigit c || 128 ≤ c && tables.isdigit c
    if char ∈ codes "\x7b\x7d[],:;+" then .ok (⟨.mark char, [char], start⟩, s.advance after)
    else if char ∈ codes "\"'\x60" then do
      let (value, rest) ← readString char after
      .ok (⟨.string, value, start⟩, s.advance rest)
    else if isdigit char || char = 45 && after.head?.any isdigit then
      match matchNumber s.rest with
      | none => .error (.parseError ("invalid number at character " ++ toString start))
      | some (value, rest) => .ok (⟨.number, value, start⟩, s.advance rest)
    else if isLetter char || 128 ≤ char && tables.isalpha char || char = 95 || char = 36 then
      if isLetter char || char = 95 || char = 36 then
        let more := fun c => isLetter c || isDigit c || c = 95 || c = 36
        .ok (⟨.identifier, char :: after.takeWhile more, start⟩, s.advance (after.dropWhile more))
      -- `match` is `None`
      else .error .attributeError
    else .error (.parseError ("unsupported JavaScript token at character " ++ toString start))

def peek (tables : PyTables F) (s : TokenStream) : DataResult (Token × TokenStream) :=
  match s.buffered with
  | some token => .ok (token, s)
  | none => do
    let (token, s) ← s.next tables
    .ok (token, { s with buffered := some token })

def take (tables : PyTables F) (s : TokenStream) : DataResult (Token × TokenStream) := do
  let (token, s) ← s.peek tables
  .ok (token, { s with buffered := none })

end TokenStream

namespace DataParser

variable {F : Type}

def expect (tables : PyTables F) (char : ℕ) (shown : String) (s : TokenStream) :
    DataResult TokenStream := do
  let (actual, s) ← s.take tables
  if actual.kind ≠ .mark char then
    .error (.parseError ("expected " ++ shown ++ " at character " ++ toString actual.position))
  else .ok s

/-- `result[key] = value` -/
def setItem (members : List (PyText × PyData F)) (key : PyText) (value : PyData F) :
    List (PyText × PyData F) :=
  if key ∈ members.map Prod.fst then
    members.map (fun member => if member.1 = key then (key, value) else member)
  else members++[(key, value)]

/-- `float(value) if any(marker in value for marker in ".eE") else int(value)` -/
def numberValue (tables : PyTables F) (value : PyText) : PyData F :=
  if value.any (· ∈ codes ".eE") then .float (tables.float value) else .int (intOfText value)

/-- What an identifier stands for. -/
def identifierValue (constants : List (PyText × PyData F)) (token : Token) :
    DataResult (PyData F) :=
  if token.value = codes "true" then .ok (.bool true)
  else if token.value = codes "false" then .ok (.bool false)
  else if token.value = codes "null" then .ok .pyNone
  else
    match constants.lookup token.value with
    | some value => .ok value
    | none => .error (.parseError ("unknown identifier '" ++
        String.ofList (token.value.map Char.ofNat) ++ "' at character " ++
        toString token.position))

mutual

def parseValue (tables : PyTables F) (constants : List (PyText × PyData F)) :
    ℕ → TokenStream → DataResult (PyData F × TokenStream)
  | 0, _ => .error .outOfFuel
  | fuel+1, s => do
    let (value, s) ← parseAtom tables constants fuel s
    parseSum tables constants fuel value s

/-- The loop of `parse_value`. -/
def parseSum (tables : PyTables F) (constants : List (PyText × PyData F)) :
    ℕ → PyData F → TokenStream → DataResult (PyData F × TokenStream)
  | 0, _, _ => .error .outOfFuel
  | fuel+1, value, s => do
    let (token, s) ← s.peek tables
    if token.kind ≠ .mark 43 then .ok (value, s)
    else
      let (_, s) ← s.take tables
      let (right, s) ← parseAtom tables constants fuel s
      match value, right with
      | .str left, .str right => parseSum tables constants fuel (.str (left++right)) s
      | _, _ => .error (.parseError "only string concatenation is permitted")

def parseAtom (tables : PyTables F) (constants : List (PyText × PyData F)) :
    ℕ → TokenStream → DataResult (PyData F × TokenStream)
  | 0, _ => .error .outOfFuel
  | fuel+1, s => do
    let (token, s) ← s.take tables
    match token.kind with
    | .string => .ok (.str token.value, s)
    | .number => .ok (numberValue tables token.value, s)
    | .identifier => do
      let value ← identifierValue constants token
      .ok (value, s)
    | .mark char =>
      if char = 123 then parseObject tables constants fuel s
      else if char = 91 then parseArray tables constants fuel s
      else
        .error (.parseError ("expected data value at character " ++ toString token.position))
    | .eof =>
      .error (.parseError ("expected data value at character " ++ toString token.position))

def parseObject (tables : PyTables F) (constants : List (PyText × PyData F)) :
    ℕ → TokenStream → DataResult (PyData F × TokenStream)
  | 0, _ => .error .outOfFuel
  | fuel+1, s => do
    let (token, s) ← s.peek tables
    if token.kind = .mark 125 then
      let (_, s) ← s.take tables
      .ok (.dict [], s)
    else parseMembers tables constants fuel [] s

/-- The loop of `_parse_object`. -/
def parseMembers (tables : PyTables F) (constants : List (PyText × PyData F)) :
    ℕ → List (PyText × PyData F) → TokenStream → DataResult (PyData F × TokenStream)
  | 0, _, _ => .error .outOfFuel
  | fuel+1, result, s => do
    let (key, s) ← s.take tables
    if key.kind ≠ .string ∧ key.kind ≠ .identifier ∧ key.kind ≠ .number then
      .error (.parseError ("expected object key at character " ++ toString key.position))
    else
      let s ← expect tables 58 "':'" s
      let (value, s) ← parseValue tables constants fuel s
      let result := setItem result key.value value
      let (delimiter, s) ← s.take tables
      if delimiter.kind = .mark 125 then .ok (.dict result, s)
      else if delimiter.kind ≠ .mark 44 then
        .error (.parseError "expected ',' or '\x7d' in object")
      else
        let (token, s) ← s.peek tables
        if token.kind = .mark 125 then
          let (_, s) ← s.take tables
          .ok (.dict result, s)
        else parseMembers tables constants fuel result s

def parseArray (tables : PyTables F) (constants : List (PyText × PyData F)) :
    ℕ → TokenStream → DataResult (PyData F × TokenStream)
  | 0, _ => .error .outOfFuel
  | fuel+1, s => do
    let (token, s) ← s.peek tables
    if token.kind = .mark 93 then
      let (_, s) ← s.take tables
      .ok (.list [], s)
    else parseItems tables constants fuel [] s

/-- The loop of `_parse_array`. -/
def parseItems (tables : PyTables F) (constants : List (PyText × PyData F)) :
    ℕ → List (PyData F) → TokenStream → DataResult (PyData F × TokenStream)
  | 0, _, _ => .error .outOfFuel
  | fuel+1, result, s => do
    let (value, s) ← parseValue tables constants fuel s
    let result := result++[value]
    let (delimiter, s) ← s.take tables
    if delimiter.kind = .mark 93 then .ok (.list result, s)
    else if delimiter.kind ≠ .mark 44 then
      .error (.parseError "expected ',' or ']' in array")
    else
      let (token, s) ← s.peek tables
      if token.kind = .mark 93 then
        let (_, s) ← s.take tables
        .ok (.list result, s)
      else parseItems tables constants fuel result s

end

/-- `DataParser(source, 0, constants).parse_value()`. Each of the functions calls others at most
three times between two tokens. -/
def parse (tables : PyTables F) (constants : List (PyText × PyData F)) (source : PyText) :
    DataResult (PyData F × TokenStream) :=
  parseValue tables constants (4*source.length+4) { rest := source }

end DataParser

section Dumps

variable {F : Type}

def lowerHex (n : ℕ) : ℕ := if n < 10 then 48+n else 87+n

/-- `'\\u{0:04x}'.format(n)` -/
def unicodeEscape (n : ℕ) : PyText :=
  [92, 117, lowerHex (n/4096%16), lowerHex (n/256%16), lowerHex (n/16%16), lowerHex (n%16)]

def encodeCharacter (c : ℕ) : PyText :=
  if c = 92 then [92, 92]
  else if c = 34 then [92, 34]
  else if c = 8 then [92, 98]
  else if c = 12 then [92, 102]
  else if c = 10 then [92, 110]
  else if c = 13 then [92, 114]
  else if c = 9 then [92, 116]
  else if 32 ≤ c ∧ c ≤ 126 then [c]
  else (StringLiterals.units c).flatMap unicodeEscape

def encodeString (text : PyText) : PyText := 34 :: (text.flatMap encodeCharacter++[34])

def decimalText (n : ℤ) : PyText :=
  if n < 0 then 45 :: codes (toString n.natAbs) else codes (toString n.natAbs)

mutual

/-- `json.dumps` as it is called without options. -/
def dumps (tables : PyTables F) : PyData F → PyText
  | .pyNone => codes "null"
  | .bool value => if value then codes "true" else codes "false"
  | .int value => decimalText value
  | .float value => tables.repr value
  | .str text => encodeString text
  | .list items => 91 :: (List.intercalate (codes ", ") (dumpsItems tables items)++[93])
  | .dict members => 123 :: (List.intercalate (codes ", ") (dumpsMembers tables members)++[125])

def dumpsItems (tables : PyTables F) : List (PyData F) → List PyText
  | [] => []
  | item :: items => dumps tables item :: dumpsItems tables items

def dumpsMembers (tables : PyTables F) : List (PyText × PyData F) → List PyText
  | [] => []
  | (key, value) :: members =>
    (encodeString key++(codes ": "++dumps tables value)) :: dumpsMembers tables members

end

end Dumps

end JingjieAR.PanoData
