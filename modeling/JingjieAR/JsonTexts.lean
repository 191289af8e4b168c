import JingjieAR.DelimitedFields
import Mathlib.Algebra.Order.Field.Rat
import Mathlib.Data.List.Forall2

/-! The texts of JSON values as bytes. Bytes from `0x80` on stand for themselves in a string; the
escape `\u` gives the UTF-8 form of a code point. A text that reads as a value does so in any
place where it can end, and from this the texts of arrays and objects are read. -/
namespace JingjieAR.JsonText

abbrev Text := List UInt8

inductive Value
  | null
  | boolean (value : Bool)
  | number (value : ℚ)
  | string (value : Text)
  | array (elements : List Value)
  | object (members : List (Text × Value))

def isBlank (c : UInt8) : Bool := c = 32 || c = 9 || c = 10 || c = 13

def skipBlanks (text : Text) : Text := text.dropWhile isBlank

def isDigit (c : UInt8) : Bool := 48 ≤ c && c ≤ 57

section Strings

/-- A part of a string: a byte, or a code unit of UTF-16 from an escape. -/
inductive Piece
  | byte (value : UInt8)
  | unit (value : ℕ)

/-- What a backslash and this byte stand for. -/
def simpleEscape (c : UInt8) : Option UInt8 :=
  if c = 34 ∨ c = 92 ∨ c = 47 then some c
  else if c = 98 then some 8
  else if c = 102 then some 12
  else if c = 110 then some 10
  else if c = 114 then some 13
  else if c = 116 then some 9
  else none

def hexDigit (c : UInt8) : Option ℕ :=
  if 48 ≤ c ∧ c ≤ 57 then some (c.toNat-48)
  else if 97 ≤ c ∧ c ≤ 102 then some (c.toNat-87)
  else if 65 ≤ c ∧ c ≤ 70 then some (c.toNat-55)
  else none

def hexQuad (a b c d : UInt8) : Option ℕ := do
  some (((((← hexDigit a)*16+(← hexDigit b))*16)+(← hexDigit c))*16+(← hexDigit d))

/-- The parts up to the closing quote, and what is behind it. -/
def pieces : Text → Option (List Piece × Text)
  | [] => none
  | c :: rest =>
    if c = 34 then some ([], rest)
    else if c = 92 then
      match rest with
      | 117 :: a :: b :: c :: d :: rest => do
        let unit ← hexQuad a b c d
        let (ps, rest) ← pieces rest
        some (.unit unit :: ps, rest)
      | e :: rest => do
        let value ← simpleEscape e
        let (ps, rest) ← pieces rest
        some (.byte value :: ps, rest)
      | [] => none
    else if c < 32 then none
    else do
      let (ps, rest) ← pieces rest
      some (.byte c :: ps, rest)

/-- The code units of a pair make one code point; one without the other is no text. -/
def join : List Piece → Option Text
  | [] => some []
  | .byte c :: ps => (join ps).map (c :: ·)
  | .unit u :: ps =>
    if u < 0xD800 ∨ 0xDFFF < u then (join ps).map (String.utf8EncodeChar (Char.ofNat u)++·)
    else
      match ps with
      | .unit v :: ps =>
        if u < 0xDC00 ∧ 0xDC00 ≤ v ∧ v ≤ 0xDFFF then
          (join ps).map (String.utf8EncodeChar
            (Char.ofNat (0x10000+(u-0xD800)*1024+(v-0xDC00)))++·)
        else none
      | _ => none

/-- The rest of a string behind its opening quote. -/
def stringRest (text : Text) : Option (Text × Text) := do
  let (ps, rest) ← pieces text
  some (← join ps, rest)

/-- A string literal at the start of the text. -/
def stringLiteral : Text → Option (Text × Text)
  | 34 :: rest => stringRest rest
  | _ => none

/-- Whether there is a quote that no backslash escapes. -/
def hasBareQuote : Text → Bool
  | [] => false
  | 92 :: _ :: rest => hasBareQuote rest
  | c :: rest => c = 34 || hasBareQuote rest

end Strings

section Numbers

def digitsValue (digits : Text) : ℕ := digits.foldl (fun n c => n*10+(c.toNat-48)) 0

/-- The digits of an integer, without leading zeros, and what is behind them. -/
def integerDigits : Text → Option (Text × Text)
  | [] => none
  | c :: rest =>
    if c = 48 then some ([48], rest)
    else if isDigit c then some (c :: rest.takeWhile isDigit, rest.dropWhile isDigit)
    else none

/-- The digits behind a point, none if there is no point. -/
def fractionDigits : Text → Option (Text × Text)
  | 46 :: rest =>
    if rest.takeWhile isDigit = [] then none
    else some (rest.takeWhile isDigit, rest.dropWhile isDigit)
  | text => some ([], text)

/-- The power of ten, zero if there is none. -/
def exponent (text : Text) : Option (ℤ × Text) :=
  match text with
  | c :: rest =>
    if c = 101 ∨ c = 69 then
      let negative := rest.head? = some 45
      let rest := if rest.head? = some 43 ∨ rest.head? = some 45 then rest.tail else rest
      if rest.takeWhile isDigit = [] then none
      else
        let value : ℤ := digitsValue (rest.takeWhile isDigit)
        some (if negative then -value else value, rest.dropWhile isDigit)
    else some (0, text)
  | [] => some (0, text)

def unsignedNumber (text : Text) : Option (ℚ × Text) := do
  let (whole, rest) ← integerDigits text
  let (fraction, rest) ← fractionDigits rest
  let (power, rest) ← exponent rest
  some (digitsValue (whole++fraction)*(10 : ℚ)^(power-fraction.length), rest)

def number (text : Text) : Option (ℚ × Text) :=
  match text with
  | 45 :: rest => (unsignedNumber rest).map (fun p => (-p.1, p.2))
  | _ => unsignedNumber text

end Numbers

/-- What follows the word at the start of the text. -/
def afterWord (word text : Text) : Option Text :=
  if word <+: text then some (text.drop word.length) else none

mutual

/-- A value at the start of the text, of a nesting that the fuel allows. -/
def value : ℕ → Text → Option (Value × Text)
  | 0, _ => none
  | fuel+1, text =>
    match skipBlanks text with
    | [] => none
    | 34 :: rest => (stringRest rest).map (fun p => (.string p.1, p.2))
    | 91 :: rest =>
      match skipBlanks rest with
      | 93 :: rest => some (.array [], rest)
      | _ => (elements fuel rest).map (fun p => (.array p.1, p.2))
    | 123 :: rest =>
      match skipBlanks rest with
      | 125 :: rest => some (.object [], rest)
      | _ => (members fuel rest).map (fun p => (.object p.1, p.2))
    | 116 :: rest => (afterWord [114, 117, 101] rest).map (.boolean true, ·)
    | 102 :: rest => (afterWord [97, 108, 115, 101] rest).map (.boolean false, ·)
    | 110 :: rest => (afterWord [117, 108, 108] rest).map (.null, ·)
    | text => (number text).map (fun p => (.number p.1, p.2))

/-- At least one value, and the closing bracket. -/
def elements : ℕ → Text → Option (List Value × Text)
  | 0, _ => none
  | fuel+1, text => do
    let (v, rest) ← value fuel text
    match skipBlanks rest with
    | 44 :: rest =>
      let (vs, rest) ← elements fuel rest
      some (v :: vs, rest)
    | 93 :: rest => some ([v], rest)
    | _ => none

def members : ℕ → Text → Option (List (Text × Value) × Text)
  | 0, _ => none
  | fuel+1, text => do
    let (key, rest) ← stringLiteral (skipBlanks text)
    match skipBlanks rest with
    | 58 :: rest =>
      let (v, rest) ← value fuel rest
      match skipBlanks rest with
      | 44 :: rest =>
        let (vs, rest) ← members fuel rest
        some ((key, v) :: vs, rest)
      | 125 :: rest => some ([(key, v)], rest)
      | _ => none
    | _ => none

end

/-- The value of a whole text. -/
def parse (text : Text) : Option Value :=
  match value (text.length+1) text with
  | some (v, rest) => if skipBlanks rest = [] then some v else none
  | none => none

section Pieces

variable {a b c d e v : UInt8} {u : ℕ}

theorem pieces_quote (rest : Text) : pieces (34 :: rest) = some ([], rest) := by
  rw [pieces.eq_def]
  rfl

theorem pieces_byte (hquote : c ≠ 34) (hbackslash : c ≠ 92) (hcontrol : ¬ c < 32) (rest : Text) :
    pieces (c :: rest) = (pieces rest).map (fun p => (.byte c :: p.1, p.2)) := by
  rw [pieces.eq_def]
  simp only [if_neg hquote, if_neg hbackslash, if_neg hcontrol]
  cases pieces rest with
  | none => rfl
  | some p => rfl

theorem pieces_escape (h : simpleEscape e = some v) (rest : Text) :
    pieces (92 :: e :: rest) = (pieces rest).map (fun p => (.byte v :: p.1, p.2)) := by
  have hunit : e ≠ 117 := by
    rintro rfl
    have hnone : simpleEscape 117 = none := by decide
    rw [hnone] at h
    contradiction
  have hneg : ((92 : UInt8) = 34) = False := by decide
  rw [pieces.eq_def]
  simp only [hneg, if_false, if_true]
  split
  · rename_i heq
    exact absurd (List.cons.inj heq).1 hunit
  · rename_i heq
    obtain ⟨rfl, rfl⟩ := List.cons.inj heq
    rw [h]
    cases pieces rest with
    | none => rfl
    | some p => rfl
  · contradiction

theorem pieces_unit (h : hexQuad a b c d = some u) (rest : Text) :
    pieces (92 :: 117 :: a :: b :: c :: d :: rest) =
      (pieces rest).map (fun p => (.unit u :: p.1, p.2)) := by
  have hneg : ((92 : UInt8) = 34) = False := by decide
  rw [pieces.eq_def]
  simp only [hneg, if_false, if_true, h]
  cases pieces rest with
  | none => rfl
  | some p => rfl

end Pieces

/-- The text stands for this string between two quotes. -/
def Spells (text string : Text) : Prop :=
  ∀ rest, stringRest (text++34 :: rest) = some (string, rest)

/-- Behind a value: no digit, point or letter that would go on with a number. -/
def Ends (rest : Text) : Prop :=
  ∀ c ∈ rest.head?, isDigit c = false ∧ c ≠ 46 ∧ c ≠ 101 ∧ c ≠ 69

/-- The text reads as the value wherever it may end. -/
def Reads (text : Text) (v : Value) : Prop :=
  ∀ fuel rest, text.length < fuel → Ends rest → value fuel (text++rest) = some (v, rest)

/-- A key and a value with a colon between them. -/
inductive ReadsMember : Text → Text × Value → Prop
  | mk {name key text : Text} {v : Value} (hname : Spells name key) (htext : Reads text v) :
      ReadsMember (34 :: (name++34 :: 58 :: text)) (key, v)

section Rules

variable {text string : Text} {v : Value}

theorem ends_of_ne {c : UInt8} {rest : Text} (h : isDigit c = false ∧ c ≠ 46 ∧ c ≠ 101 ∧ c ≠ 69) :
    Ends (c :: rest) := by
  intro c' hc'
  obtain rfl := Option.some.inj hc'
  exact h

theorem skipBlanks_cons {c : UInt8} (h : isBlank c = false) (rest : Text) :
    skipBlanks (c :: rest) = c :: rest := by
  rw [skipBlanks, List.dropWhile_cons_of_neg (by simp [h])]

theorem exists_fuel {n fuel : ℕ} (h : n < fuel) : ∃ fuel', fuel = fuel'+1 ∧ n ≤ fuel' := by
  cases fuel with
  | zero => contradiction
  | succ fuel' => exact ⟨fuel', rfl, Nat.lt_succ_iff.mp h⟩

theorem Spells.reads (h : Spells text string) :
    Reads (34 :: (text++[34])) (.string string) := by
  intro fuel rest hfuel _
  obtain ⟨fuel, rfl, -⟩ := exists_fuel hfuel
  have hrest : 34 :: (text++[34])++rest = 34 :: (text++34 :: rest) := by simp
  rw [hrest, value.eq_def]
  simp only [skipBlanks_cons (show isBlank 34 = false by decide), h rest]
  rfl

theorem reads_true : Reads [116, 114, 117, 101] (.boolean true) := by
  intro fuel rest hfuel _
  obtain ⟨fuel, rfl, -⟩ := exists_fuel hfuel
  rw [value.eq_def]
  rfl

theorem reads_false : Reads [102, 97, 108, 115, 101] (.boolean false) := by
  intro fuel rest hfuel _
  obtain ⟨fuel, rfl, -⟩ := exists_fuel hfuel
  rw [value.eq_def]
  rfl

section Integers

variable {digits rest : Text}

/-- The digits of a number as it is written: no zero comes before other digits. -/
structure Canonical (digits : Text) : Prop where
  ne_nil : digits ≠ []
  all : ∀ c ∈ digits, isDigit c = true
  first : digits.head? = some 48 → digits = [48]

theorem integerDigits_append (h : Canonical digits) (hends : Ends rest) :
    integerDigits (digits++rest) = some (digits, rest) := by
  obtain ⟨c, tail, rfl⟩ := List.exists_cons_of_ne_nil h.ne_nil
  rw [List.cons_append, integerDigits]
  by_cases hzero : c = 48
  · subst hzero
    obtain rfl : tail = [] := (List.cons.inj (h.first rfl)).2
    rfl
  · have htail : ∀ d ∈ tail, isDigit d = true :=
      fun d hd => h.all d (List.mem_cons_of_mem _ hd)
    obtain ⟨htake, hdrop⟩ := span_stop htail (fun c hc => (hends c hc).1)
    rw [if_neg hzero, if_pos (h.all c List.mem_cons_self), htake, hdrop]

theorem fractionDigits_ends (hends : Ends rest) : fractionDigits rest = some ([], rest) := by
  cases rest with
  | nil => rfl
  | cons c rest =>
    have hpoint := (hends c rfl).2.1
    rw [fractionDigits.eq_def]
    split
    · rename_i heq
      exact absurd (List.cons.inj heq).1 hpoint
    · rfl

theorem exponent_ends (hends : Ends rest) : exponent rest = some (0, rest) := by
  cases rest with
  | nil => rfl
  | cons c rest =>
    obtain ⟨-, -, hlower, hupper⟩ := hends c rfl
    exact if_neg (not_or.mpr ⟨hlower, hupper⟩)

theorem unsignedNumber_append (h : Canonical digits) (hends : Ends rest) :
    unsignedNumber (digits++rest) = some ((digitsValue digits : ℚ), rest) := by
  simp only [unsignedNumber, integerDigits_append h hends, fractionDigits_ends hends,
    exponent_ends hends, Option.bind_eq_bind, Option.bind_some, List.append_nil]
  simp

theorem digit_ne {c d : UInt8} (hc : isDigit c = true) (hd : isDigit d = false) : c ≠ d := by
  rintro rfl
  exact absurd (hc.symm.trans hd) (by decide)

/-- What starts with a digit is a number without a sign. -/
theorem value_of_digit {c : UInt8} (h : isDigit c = true) (fuel : ℕ) (rest : Text) :
    value (fuel+1) (c :: rest) =
      (unsignedNumber (c :: rest)).map (fun p => (.number p.1, p.2)) := by
  have hne : ∀ {d : UInt8}, isDigit d = false → ∀ {tail : Text}, c :: rest ≠ d :: tail :=
    fun hd _ heq => digit_ne h hd (List.cons.inj heq).1
  have hblank : isBlank c = false := by
    have h32 := digit_ne h (show isDigit 32 = false by decide)
    have h9 := digit_ne h (show isDigit 9 = false by decide)
    have h10 := digit_ne h (show isDigit 10 = false by decide)
    have h13 := digit_ne h (show isDigit 13 = false by decide)
    simp [isBlank, h32, h9, h10, h13]
  have hnumber : number (c :: rest) = unsignedNumber (c :: rest) := by
    rw [number.eq_def]
    split
    · rename_i heq
      exact absurd heq (hne (by decide))
    · rfl
  rw [value.eq_def]
  simp only [skipBlanks_cons hblank]
  split
  · contradiction
  · exact absurd ‹_› (hne (by decide))
  · exact absurd ‹_› (hne (by decide))
  · exact absurd ‹_› (hne (by decide))
  · exact absurd ‹_› (hne (by decide))
  · exact absurd ‹_› (hne (by decide))
  · exact absurd ‹_› (hne (by decide))
  · rw [hnumber]

theorem Canonical.reads (h : Canonical digits) : Reads digits (.number (digitsValue digits)) := by
  intro fuel rest hfuel hends
  obtain ⟨fuel, rfl, -⟩ := exists_fuel hfuel
  have hnumber := unsignedNumber_append h hends
  obtain ⟨c, tail, rfl⟩ := List.exists_cons_of_ne_nil h.ne_nil
  rw [List.cons_append] at hnumber ⊢
  rw [value_of_digit (h.all c List.mem_cons_self), hnumber]
  rfl

end Integers

/-- A text that reads as a value does not start with a closing bracket. -/
theorem Reads.skipBlanks_ne (h : Reads text v) {rest : Text} (hends : Ends rest) (tail : Text) :
    skipBlanks (text++rest) ≠ 93 :: tail := by
  intro hclose
  have hvalue := h (text.length+1) rest (Nat.lt_succ_self _) hends
  rw [value.eq_def] at hvalue
  simp only [hclose] at hvalue
  exact absurd hvalue (by simp [number, unsignedNumber, integerDigits, isDigit])

theorem elements_of_reads {items : List (Text × Value)} (hne : items ≠ [])
    (hitems : ∀ item ∈ items, Reads item.1 item.2) (fuel : ℕ) (rest : Text)
    (hfuel : (List.intercalate [44] (items.map Prod.fst)).length+1 < fuel) :
    elements fuel (List.intercalate [44] (items.map Prod.fst)++93 :: rest) =
      some (items.map Prod.snd, rest) := by
  induction items generalizing fuel with
  | nil => contradiction
  | cons item items ih =>
    have hitem := hitems item List.mem_cons_self
    obtain ⟨fuel, rfl, hfuel⟩ := exists_fuel hfuel
    cases items with
    | nil =>
      simp only [List.map_cons, List.map_nil, List.intercalate_singleton] at hfuel ⊢
      rw [elements, hitem fuel (93 :: rest) (by omega) (ends_of_ne (by decide))]
      simp only [Option.bind_eq_bind, Option.bind_some,
        skipBlanks_cons (show isBlank 93 = false by decide)]
    | cons next items =>
      have hrest := ih (List.cons_ne_nil _ _)
        (fun item' hmem => hitems item' (List.mem_cons_of_mem _ hmem)) fuel
      simp only [List.map_cons, List.intercalate_cons_cons, List.length_append,
        List.length_singleton] at hfuel hrest ⊢
      rw [List.append_assoc, List.append_assoc, List.singleton_append, elements,
        hitem fuel _ (by omega) (ends_of_ne (by decide))]
      simp only [Option.bind_eq_bind, Option.bind_some,
        skipBlanks_cons (show isBlank 44 = false by decide), hrest (by omega)]

/-- The elements with commas between them, in brackets. -/
theorem reads_array {items : List (Text × Value)} (hitems : ∀ item ∈ items, Reads item.1 item.2) :
    Reads (91 :: (List.intercalate [44] (items.map Prod.fst)++[93]))
      (.array (items.map Prod.snd)) := by
  intro fuel rest hfuel _
  obtain ⟨fuel, rfl, hroom⟩ := exists_fuel hfuel
  rw [List.length_cons, List.length_append, List.length_singleton] at hroom
  rw [List.cons_append, List.append_assoc, List.singleton_append, value.eq_def]
  simp only [skipBlanks_cons (show isBlank 91 = false by decide)]
  cases items with
  | nil => rfl
  | cons item items =>
    have helements := elements_of_reads (List.cons_ne_nil item items) hitems fuel rest (by omega)
    -- The first element is no closing bracket.
    have hopen : ∀ tail, skipBlanks (List.intercalate [44]
        ((item :: items).map Prod.fst)++93 :: rest) ≠ 93 :: tail := by
      intro tail
      have hitem := hitems item List.mem_cons_self
      cases items with
      | nil =>
        simp only [List.map_cons, List.map_nil, List.intercalate_singleton]
        exact hitem.skipBlanks_ne (ends_of_ne (by decide)) tail
      | cons next items =>
        simp only [List.map_cons, List.intercalate_cons_cons]
        rw [List.append_assoc, List.append_assoc, List.singleton_append]
        exact hitem.skipBlanks_ne (ends_of_ne (by decide)) tail
    rw [helements]
    split
    · rename_i heq
      exact absurd heq (hopen _)
    · rfl

theorem members_of_reads {texts : List Text} {entries : List (Text × Value)}
    (hentries : List.Forall₂ ReadsMember texts entries) (hne : texts ≠ []) (fuel : ℕ) (rest : Text)
    (hfuel : (List.intercalate [44] texts).length+1 < fuel) :
    members fuel (List.intercalate [44] texts++125 :: rest) = some (entries, rest) := by
  induction hentries generalizing fuel with
  | nil => contradiction
  | @cons text entry texts entries hentry hentries ih =>
    obtain ⟨fuel, rfl, hroom⟩ := exists_fuel hfuel
    cases hentry with
    | @mk name key text v hname htext =>
      have hkey : ∀ tail, stringLiteral (skipBlanks (34 :: (name++34 :: tail))) =
          some (key, tail) := by
        intro tail
        rw [skipBlanks_cons (by decide), stringLiteral, hname tail]
      have hcolon : ∀ tail, skipBlanks (58 :: tail) = 58 :: tail := skipBlanks_cons (by decide)
      cases hentries with
      | nil =>
        rw [List.intercalate_singleton] at hroom ⊢
        simp only [List.length_cons, List.length_append] at hroom
        simp only [List.cons_append, List.append_assoc]
        rw [members, hkey]
        simp only [Option.bind_eq_bind, Option.bind_some, hcolon]
        rw [htext fuel (125 :: rest) (by omega) (ends_of_ne (by decide))]
        simp only [Option.bind_some, skipBlanks_cons (show isBlank 125 = false by decide)]
      | @cons text' entry' texts' entries' hentry' hentries' =>
        have hrest := ih (List.cons_ne_nil _ _) fuel
        rw [List.intercalate_cons_cons] at hroom ⊢
        simp only [List.length_cons, List.length_append] at hroom
        simp only [List.cons_append, List.append_assoc, List.nil_append]
        rw [members, hkey]
        simp only [Option.bind_eq_bind, Option.bind_some, hcolon]
        rw [htext fuel _ (by omega) (ends_of_ne (by decide))]
        simp only [Option.bind_some, skipBlanks_cons (show isBlank 44 = false by decide),
          hrest (by omega)]

/-- The members with commas between them, in braces. -/
theorem reads_object {texts : List Text} {entries : List (Text × Value)}
    (hentries : List.Forall₂ ReadsMember texts entries) :
    Reads (123 :: (List.intercalate [44] texts++[125])) (.object entries) := by
  intro fuel rest hfuel _
  obtain ⟨fuel, rfl, hroom⟩ := exists_fuel hfuel
  rw [List.length_cons, List.length_append, List.length_singleton] at hroom
  rw [List.cons_append, List.append_assoc, List.singleton_append, value.eq_def]
  simp only [skipBlanks_cons (show isBlank 123 = false by decide)]
  cases hentries with
  | nil => rfl
  | @cons text entry texts entries hentry hentries =>
    have hmembers := members_of_reads (.cons hentry hentries) (List.cons_ne_nil _ _) fuel rest
      (by omega)
    -- The first member starts with the quote of its key.
    have hopen : ∀ tail, skipBlanks (List.intercalate [44] (text :: texts)++125 :: rest) ≠
        125 :: tail := by
      intro tail
      cases hentry with
      | mk hname htext =>
        cases hentries with
        | nil =>
          rw [List.intercalate_singleton, List.cons_append, skipBlanks_cons (by decide)]
          exact fun heq => absurd (List.cons.inj heq).1 (by decide)
        | cons hentry' hentries' =>
          simp only [List.intercalate_cons_cons, List.append_assoc, List.cons_append]
          rw [skipBlanks_cons (by decide)]
          exact fun heq => absurd (List.cons.inj heq).1 (by decide)
    rw [hmembers]
    split
    · rename_i heq
      exact absurd heq (hopen _)
    · rfl

/-- A text that is a value and nothing else. -/
theorem Reads.parse (h : Reads text v) : parse text = some v := by
  have hvalue := h (text.length+1) [] (Nat.lt_succ_self _) (by simp [Ends])
  rw [List.append_nil] at hvalue
  rw [JsonText.parse, hvalue]
  rfl

end Rules

end JingjieAR.JsonText
