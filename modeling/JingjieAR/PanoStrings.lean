import JingjieAR.PanoDataModel
import Mathlib.Data.List.Basic

/-! The string literals of the migration script beside those of ECMAScript. Both go through a
literal in the same steps, and where they differ the script has the longer text or another code
unit of the same length: one difference cannot make up for another. Where they have the same code
units, the script still has two characters for a pair of surrogates that is spelled as two. -/
namespace JingjieAR.PanoData

open StringLiterals (units units_small units_lt utf16 utf16_cons highSurrogate lowSurrogate apart
  codePoints hexDigit hexValue singleEscape Digit Octal LineTerminator NextNot PlainCharacter Body
  Literal)

/-- An escape that the script does not take for what it is: a line continuation by U+2028 or
U+2029, and an octal one. -/
def misread (escaped : ℕ) (rest : PyText) : Bool :=
  escaped = 0x2028 || escaped = 0x2029 || 49 ≤ escaped && escaped ≤ 55 ||
    escaped = 48 && rest.head?.any (fun c => decide (Octal c))

/-- What is between the quotes has no such escape and, in a template, no carriage return. -/
def readsRight (quote : ℕ) : PyText → Bool
  | [] => true
  | char :: rest =>
    if char ≠ 92 then !(quote = 96 && char = 13) && readsRight quote rest
    else
      match rest with
      | [] => true
      | escaped :: rest => !misread escaped rest && readsRight quote rest

theorem readsRight_plain {quote c : ℕ} {rest : PyText} (hbackslash : c ≠ 92) :
    readsRight quote (c :: rest) = (!(quote = 96 && c = 13) && readsRight quote rest) := by
  rw [readsRight.eq_def]
  simp only [if_pos hbackslash]

theorem readsRight_escape {quote : ℕ} (c : ℕ) (rest : PyText) :
    readsRight quote (92 :: c :: rest) = (!misread c rest && readsRight quote rest) := by
  rw [readsRight.eq_def]
  simp

/-- No character that is spelled as a high surrogate comes right before one that is spelled as a
low one; a line continuation spells none. -/
def spelledApart (high : Bool) : PyText → Bool
  | [] => true
  | char :: rest =>
    if char ≠ 92 then !(high && lowSurrogate char) && spelledApart (highSurrogate char) rest
    else
      match rest with
      | [] => true
      | 117 :: a :: b :: c :: d :: rest =>
        let v := (hexValue [a, b, c, d]).getD 0
        !(high && lowSurrogate v) && spelledApart (highSurrogate v) rest
      | 13 :: 10 :: rest => spelledApart high rest
      | escaped :: rest =>
        if escaped = 13 ∨ escaped = 10 then spelledApart high rest
        else !(high && lowSurrogate escaped) && spelledApart (highSurrogate escaped) rest

section Spelling

variable {high : Bool} {c : ℕ} {rest : PyText}

theorem spelledApart_plain (hbackslash : c ≠ 92) : spelledApart high (c :: rest) =
    (!(high && lowSurrogate c) && spelledApart (highSurrogate c) rest) := by
  rw [spelledApart.eq_def]
  simp only [if_pos hbackslash]

theorem spelledApart_escape (hu : c ≠ 117) (hreturn : c ≠ 13) (hfeed : c ≠ 10) :
    spelledApart high (92 :: c :: rest) =
      (!(high && lowSurrogate c) && spelledApart (highSurrogate c) rest) := by
  rw [spelledApart.eq_def]
  simp [hu, hreturn, hfeed]

theorem spelledApart_unicode {a b d e v : ℕ} (hv : hexValue [a, b, d, e] = some v) :
    spelledApart high (92 :: 117 :: a :: b :: d :: e :: rest) =
      (!(high && lowSurrogate v) && spelledApart (highSurrogate v) rest) := by
  rw [spelledApart.eq_def]
  simp [hv]

theorem spelledApart_feed : spelledApart high (92 :: 10 :: rest) = spelledApart high rest := by
  rw [spelledApart.eq_def]
  simp

theorem spelledApart_lineEnd :
    spelledApart high (92 :: 13 :: 10 :: rest) = spelledApart high rest := by
  rw [spelledApart.eq_def]
  simp

theorem spelledApart_return (hnext : NextNot (· = 10) rest) :
    spelledApart high (92 :: 13 :: rest) = spelledApart high rest := by
  rw [spelledApart.eq_def]
  cases rest with
  | nil => simp
  | cons d tail =>
    have hne : d ≠ 10 := hnext d rfl
    simp [hne]

theorem not_surrogate (h : c < 0xD800) : lowSurrogate c = false ∧ highSurrogate c = false := by
  simp only [lowSurrogate, highSurrogate, Bool.and_eq_false_iff, decide_eq_false_iff_not]
  omega

/-- Below the surrogates one character is like another. -/
theorem spelled_below (h : c < 0xD800) (spelled : Bool → Bool) (high : Bool) :
    (!(high && lowSurrogate c) && spelled (highSurrogate c)) = spelled false := by
  rw [(not_surrogate h).1, (not_surrogate h).2]
  simp

theorem spelledApart_below (hbackslash : c ≠ 92) (h : c < 0xD800) :
    spelledApart high (c :: rest) = spelledApart false rest := by
  rw [spelledApart_plain hbackslash, spelled_below h (spelledApart · rest)]

theorem spelledApart_escape_below (hu : c ≠ 117) (hreturn : c ≠ 13) (hfeed : c ≠ 10)
    (h : c < 0xD800) : spelledApart high (92 :: c :: rest) = spelledApart false rest := by
  rw [spelledApart_escape hu hreturn hfeed, spelled_below h (spelledApart · rest)]

end Spelling

section Reading

variable {quote c : ℕ} {rest : PyText}

/-- Put characters in front of what was read. -/
def prepend (chars : PyText) (result : DataResult (PyText × PyText)) :
    DataResult (PyText × PyText) :=
  result.map (fun p => (chars++p.1, p.2))

theorem prepend_nil (result : DataResult (PyText × PyText)) : prepend [] result = result := by
  cases result with
  | error error => rfl
  | ok p => rfl

theorem prepend_prepend (chars chars' : PyText) (result : DataResult (PyText × PyText)) :
    prepend chars (prepend chars' result) = prepend (chars++chars') result := by
  cases result with
  | error error => rfl
  | ok p => simp [prepend, Except.map]

theorem readChars_plain (hquote : c ≠ quote) (hbackslash : c ≠ 92) :
    readChars quote (c :: rest) = prepend [c] (readChars quote rest) := by
  rw [readChars.eq_def]
  simp only [if_neg hquote, if_pos hbackslash]
  cases readChars quote rest with
  | error error => rfl
  | ok p => rfl

theorem readChars_simple (hquote : quote ≠ 92) {v : ℕ} (hv : simpleEscape c = some v) :
    readChars quote (92 :: c :: rest) = prepend [v] (readChars quote rest) := by
  rw [readChars.eq_def]
  simp only [if_neg hquote.symm, ne_eq, not_true, if_false, hv]
  cases readChars quote rest with
  | error error => rfl
  | ok p => rfl

/-- Any other escaped character stands for itself. -/
theorem readChars_other (hquote : quote ≠ 92) (hsimple : simpleEscape c = none) (hu : c ≠ 117)
    (hx : c ≠ 120) (hcr : c ≠ 13) (hlf : c ≠ 10) :
    readChars quote (92 :: c :: rest) = prepend [c] (readChars quote rest) := by
  rw [readChars.eq_def]
  simp only [if_neg hquote.symm, ne_eq, not_true, if_false, hsimple, hu, hx, hcr, hlf]
  cases readChars quote rest with
  | error error => rfl
  | ok p => rfl

theorem readChars_lineFeed (hquote : quote ≠ 92) :
    readChars quote (92 :: 10 :: rest) = readChars quote rest := by
  have hsimple : simpleEscape 10 = none := by decide
  rw [readChars.eq_def]
  simp only [if_neg hquote.symm, ne_eq, not_true, if_false, hsimple]
  simp

theorem readChars_return (hquote : quote ≠ 92) (hnext : rest.head? ≠ some 10) :
    readChars quote (92 :: 13 :: rest) = readChars quote rest := by
  have hsimple : simpleEscape 13 = none := by decide
  rw [readChars.eq_def]
  simp only [if_neg hquote.symm, ne_eq, not_true, if_false, hsimple]
  simp only [show (13 : ℕ) ≠ 117 by decide, show (13 : ℕ) ≠ 120 by decide, if_false, if_true]
  split
  · simp at hnext
  · rfl

theorem readChars_lineEnd (hquote : quote ≠ 92) :
    readChars quote (92 :: 13 :: 10 :: rest) = readChars quote rest := by
  have hsimple : simpleEscape 13 = none := by decide
  rw [readChars.eq_def]
  simp only [if_neg hquote.symm, ne_eq, not_true, if_false, hsimple]
  simp

theorem readChars_hex (hquote : quote ≠ 92) {a b v : ℕ} (hv : hexValue [a, b] = some v) :
    readChars quote (92 :: 120 :: a :: b :: rest) = prepend [v] (readChars quote rest) := by
  have hsimple : simpleEscape 120 = none := by decide
  rw [readChars.eq_def]
  simp only [if_neg hquote.symm, ne_eq, not_true, if_false, hsimple, hv]
  simp only [show (120 : ℕ) ≠ 117 by decide, if_false, if_true]
  cases readChars quote rest with
  | error error => rfl
  | ok p => rfl

theorem readChars_unicode (hquote : quote ≠ 92) {a b c d v : ℕ}
    (hv : hexValue [a, b, c, d] = some v) :
    readChars quote (92 :: 117 :: a :: b :: c :: d :: rest) =
      prepend [v] (readChars quote rest) := by
  have hsimple : simpleEscape 117 = none := by decide
  rw [readChars.eq_def]
  simp only [if_neg hquote.symm, ne_eq, not_true, if_false, hsimple, hv, if_true]
  cases readChars quote rest with
  | error error => rfl
  | ok p => rfl

/-- Braces are not taken behind `\u`. -/
theorem readChars_brace (hquote : quote ≠ 92) :
    readChars quote (92 :: 117 :: 123 :: rest) =
      .error (.parseError "invalid unicode escape") := by
  have hsimple : simpleEscape 117 = none := by decide
  rw [readChars.eq_def]
  simp only [if_neg hquote.symm, ne_eq, not_true, if_false, hsimple, if_true]
  split
  · rename_i a b c d rest' heq
    obtain ⟨rfl, -⟩ := List.cons.inj heq
    rfl
  · rfl

end Reading

section Values

theorem utf16_small {text : PyText} (h : ∀ c ∈ text, c < 0x10000) : utf16 text = text := by
  induction text with
  | nil => rfl
  | cons c text ih =>
    have htext := ih (fun d hd => h d (List.mem_cons_of_mem _ hd))
    change units c++utf16 text = c :: text
    rw [units_small (h c List.mem_cons_self), htext]
    rfl

theorem utf16_append (text text' : PyText) : utf16 (text++text') = utf16 text++utf16 text' :=
  List.flatMap_append

theorem hexDigit_lt {c v : ℕ} (h : hexDigit c = some v) : v < 16 := by
  rw [hexDigit] at h
  split_ifs at h with hdigit hlower hupper
  · obtain rfl := Option.some.inj h
    omega
  · obtain rfl := Option.some.inj h
    omega
  · obtain rfl := Option.some.inj h
    omega

/-- A hexadecimal digit is neither a backslash nor a carriage return. -/
theorem ne_of_hexDigit {c v : ℕ} (h : hexDigit c = some v) : c ≠ 92 ∧ c ≠ 13 := by
  rw [hexDigit] at h
  split_ifs at h with hdigit hlower hupper
  · omega
  · omega
  · omega

theorem hexDigit_below {c v : ℕ} (h : hexDigit c = some v) : c < 0xD800 := by
  rw [hexDigit] at h
  split_ifs at h
  all_goals omega

theorem hexValue_two {a b v : ℕ} (h : hexValue [a, b] = some v) :
    ∃ x y, hexDigit a = some x ∧ hexDigit b = some y ∧ v = x*16+y := by
  simp only [hexValue, List.foldl_cons, List.foldl_nil, Option.bind_eq_bind, Option.bind_some,
    Option.bind_eq_some_iff] at h
  obtain ⟨w, ⟨x, hx, hw⟩, y, hy, hv⟩ := h
  obtain rfl := Option.some.inj hw
  obtain rfl := Option.some.inj hv
  exact ⟨x, y, hx, hy, by omega⟩

theorem hexValue_four {a b c d v : ℕ} (h : hexValue [a, b, c, d] = some v) :
    ∃ x y z w, hexDigit a = some x ∧ hexDigit b = some y ∧ hexDigit c = some z ∧
      hexDigit d = some w ∧ v = ((x*16+y)*16+z)*16+w := by
  simp only [hexValue, List.foldl_cons, List.foldl_nil, Option.bind_eq_bind, Option.bind_some,
    Option.bind_eq_some_iff] at h
  obtain ⟨u₃, ⟨u₂, ⟨u₁, ⟨x, hx, h₁⟩, y, hy, h₂⟩, z, hz, h₃⟩, w, hw, hv⟩ := h
  obtain rfl := Option.some.inj h₁
  obtain rfl := Option.some.inj h₂
  obtain rfl := Option.some.inj h₃
  obtain rfl := Option.some.inj hv
  exact ⟨x, y, z, w, hx, hy, hz, hw, by omega⟩

theorem mem_of_singleEscape {c v : ℕ} (h : singleEscape c = some v) :
    (c, v) ∈ [(39, 39), (34, 34), (92, 92), (98, 8), (102, 12), (110, 10), (114, 13), (116, 9),
      (118, 11)] := by
  obtain ⟨front, back, heq, -⟩ := List.lookup_eq_some_iff.mp h
  rw [heq]
  exact List.mem_append_right _ List.mem_cons_self

end Values

/-- What the script makes of a text with this value: an error, or characters that are at least as
long as the value, and have its code units exactly if the text reads right; and then the
surrogates are as far apart as they are spelled. -/
inductive Outcome (value : PyText) (right : Bool) (spelled : Bool → Bool) (rest : PyText) :
    DataResult (PyText × PyText) → Prop
  | fails (error : DataError) : Outcome value right spelled rest (.error error)
  | reads (chars : PyText) (hlength : value.length ≤ (utf16 chars).length)
      (hsame : utf16 chars = value ↔ right = true)
      (hsmall : right = true → ∀ c ∈ chars, c < 0x110000)
      (hapart : right = true → ∀ high, apart high chars = spelled high) :
      Outcome value right spelled rest (.ok (chars, rest))

section Outcomes

variable {value rest : PyText} {right : Bool} {spelled spelled' : Bool → Bool}
  {result : DataResult (PyText × PyText)}

/-- A character that is spelled in some way. -/
theorem Outcome.good (h : Outcome value right spelled rest result) {c : ℕ} (hc : c < 0x110000)
    (hspelled : ∀ high,
      spelled' high = (!(high && lowSurrogate c) && spelled (highSurrogate c))) :
    Outcome (units c++value) right spelled' rest (prepend [c] result) := by
  cases h with
  | fails error => exact .fails error
  | reads chars hlength hsame hsmall hapart =>
    refine .reads (c :: chars) ?_ ?_ ?_ ?_
    · rw [utf16_cons, List.length_append, List.length_append]
      omega
    · rw [utf16_cons, List.append_cancel_left_eq, hsame]
    · exact fun hright => List.forall_mem_cons.mpr ⟨hc, hsmall hright⟩
    · intro hright high
      rw [apart, hapart hright, hspelled]

/-- A character below the surrogates. -/
theorem Outcome.goodBelow (h : Outcome value right spelled rest result) {v : ℕ} (hv : v < 0xD800)
    (hspelled : ∀ high, spelled' high = spelled false) :
    Outcome (v :: value) right spelled' rest (prepend [v] result) := by
  have hspelled' (high : Bool) :
      spelled' high = (!(high && lowSurrogate v) && spelled (highSurrogate v)) := by
    rw [hspelled, spelled_below hv]
  have hgood := h.good (by omega) hspelled'
  rwa [units_small (by omega)] at hgood

/-- A difference that is not made up for. -/
theorem Outcome.bad (h : Outcome value right spelled rest result) (chars front : PyText)
    (hlength : front.length ≤ (utf16 chars).length) (hne : utf16 chars ≠ front) :
    Outcome (front++value) false spelled' rest (prepend chars result) := by
  cases h with
  | fails error => exact .fails error
  | reads chars' hlength' hsame hsmall hapart =>
    refine .reads (chars++chars') ?_ ?_ (fun hno => by contradiction) (fun hno => by contradiction)
    · rw [utf16_append, List.length_append, List.length_append]
      omega
    · refine iff_of_false ?_ Bool.false_ne_true
      rw [utf16_append]
      intro heq
      have hlengths := congrArg List.length heq
      rw [List.length_append, List.length_append] at hlengths
      exact hne (List.append_inj heq (by omega)).1

end Outcomes

section Bodies

variable {quote c : ℕ} {body value rest : PyText}

theorem readsRight_hex {v : ℕ} (h : hexDigit c = some v) :
    readsRight quote (c :: rest) = readsRight quote rest := by
  obtain ⟨hbackslash, hreturn⟩ := ne_of_hexDigit h
  rw [readsRight_plain hbackslash]
  simp [hreturn]

theorem spelledApart_hex {v : ℕ} {high : Bool} (h : hexDigit c = some v) :
    spelledApart high (c :: rest) = spelledApart false rest :=
  spelledApart_below (ne_of_hexDigit h).1 (hexDigit_below h)

/-- A digit is read as it stands, whatever the quotes are. -/
theorem readChars_digit (hquote : quote ∈ [34, 39, 96]) (hdigit : Digit c) :
    readChars quote (c :: rest) = prepend [c] (readChars quote rest) := by
  obtain ⟨hlow, hhigh⟩ := hdigit
  simp only [List.mem_cons, List.not_mem_nil, or_false] at hquote
  exact readChars_plain (by omega) (by omega)

theorem simpleEscape_digit (hdigit : Digit c) (hzero : c ≠ 48) : simpleEscape c = none := by
  obtain ⟨hlow, hhigh⟩ := hdigit
  have hall : ∀ n < 58, 48 ≤ n → n ≠ 48 → simpleEscape n = none := by decide
  exact hall c (by omega) hlow hzero

/-- A digit behind a backslash. -/
theorem readChars_escapedDigit (hquote : quote ≠ 92) (hdigit : Digit c) (rest : PyText) :
    ∃ v, v < 0x10000 ∧ readChars quote (92 :: c :: rest) = prepend [v] (readChars quote rest) ∧
      (c = 48 ∧ v = 0 ∨ c ≠ 48 ∧ v = c) := by
  by_cases hzero : c = 48
  · subst hzero
    exact ⟨0, by decide, readChars_simple hquote (by decide), .inl ⟨rfl, rfl⟩⟩
  · have hsimple := simpleEscape_digit hdigit hzero
    obtain ⟨hlow, hhigh⟩ := hdigit
    exact ⟨c, by omega,
      readChars_other hquote hsimple (by omega) (by omega) (by omega) (by omega), .inr ⟨hzero, rfl⟩⟩

theorem simpleEscape_none (hsingle : singleEscape c = none) (hzero : c ≠ 48) :
    simpleEscape c = none := by
  have h39 : c ≠ 39 := by
    rintro rfl
    contradiction
  have h34 : c ≠ 34 := by
    rintro rfl
    contradiction
  have h92 : c ≠ 92 := by
    rintro rfl
    contradiction
  rw [← hsingle, singleEscape, simpleEscape]
  simp [List.lookup_cons, List.lookup_nil, beq_eq_false_iff_ne.mpr h39, beq_eq_false_iff_ne.mpr h34,
    beq_eq_false_iff_ne.mpr h92, beq_eq_false_iff_ne.mpr hzero]

/-- The octal escapes are misread. -/
theorem misread_octal (hc : Octal c) (h : c = 48 → ∃ d tail, rest = d :: tail ∧ Octal d) :
    misread c rest = true := by
  obtain ⟨hlow, hhigh⟩ := hc
  by_cases hzero : c = 48
  · obtain ⟨d, tail, rfl, hd⟩ := h hzero
    simp [misread, hzero, hd]
  · have hin : 49 ≤ c := by omega
    simp [misread, hin, hhigh]

theorem misread_of_large (h : 55 < c) (hline : ¬ LineTerminator c) : misread c rest = false := by
  simp only [LineTerminator, not_or] at hline
  obtain ⟨-, -, h2028, h2029⟩ := hline
  simp only [misread, h2028, h2029, decide_false, Bool.false_or]
  rw [decide_eq_false (by omega : ¬ c ≤ 55), decide_eq_false (by omega : ¬ c = 48)]
  simp

theorem misread_of_small (h : c < 48) : misread c rest = false := by
  simp only [misread]
  rw [decide_eq_false (by omega : ¬ c = 0x2028), decide_eq_false (by omega : ¬ c = 0x2029),
    decide_eq_false (by omega : ¬ 49 ≤ c), decide_eq_false (by omega : ¬ c = 48)]
  simp

theorem misread_zero (hnext : NextNot Octal rest) : misread 48 rest = false := by
  have hany : rest.head?.any (fun c => decide (Octal c)) = false := by
    cases rest with
    | nil => rfl
    | cons d tail => simpa using hnext d rfl
  simp [misread, hany]

end Bodies

theorem digit_of_octal {c : ℕ} (h : Octal c) : Digit c := ⟨h.1, Nat.le_trans h.2 (by decide)⟩

/-- The escapes of one letter, and the escaped quotes and backslash. -/
theorem readChars_single {quote c v : ℕ} (hquote : quote ≠ 92) (h : singleEscape c = some v)
    (rest body : PyText) : readChars quote (92 :: c :: rest) = prepend [v] (readChars quote rest) ∧
      misread c body = false ∧ v < 0xD800 ∧
        ∀ high, spelledApart high (92 :: c :: body) = spelledApart false body := by
  have hmem : (c, v) ∈ [(39, 39), (34, 34), (92, 92)]++
      [(98, 8), (102, 12), (110, 10), (114, 13), (116, 9), (118, 11)] := mem_of_singleEscape h
  rcases List.mem_append.mp hmem with hself | hletter
  · -- a quote or a backslash stands for itself, as all that is not in the table does
    have hall : ∀ p ∈ [(39, 39), (34, 34), (92, 92)], p.1 = p.2 ∧ simpleEscape p.1 = none ∧
        (p.1 < 48 ∨ 55 < p.1 ∧ ¬ LineTerminator p.1) ∧ p.1 ≠ 117 ∧ p.1 ≠ 120 ∧ p.1 ≠ 13 ∧
        p.1 ≠ 10 ∧ p.1 < 0xD800 := by
      decide
    obtain ⟨hsame, hsimple, hbounds, hu, hx, hreturn, hfeed, hsmall⟩ := hall _ hself
    obtain rfl : c = v := hsame
    refine ⟨readChars_other hquote hsimple hu hx hreturn hfeed, ?_, hsmall,
      fun _ => spelledApart_escape_below hu hreturn hfeed hsmall⟩
    rcases hbounds with hlow | ⟨hhigh, hline⟩
    · exact misread_of_small hlow
    · exact misread_of_large hhigh hline
  · have hall : ∀ p ∈ [(98, 8), (102, 12), (110, 10), (114, 13), (116, 9), (118, 11)],
        simpleEscape p.1 = some p.2 ∧ 55 < p.1 ∧ ¬ LineTerminator p.1 ∧ p.2 < 0xD800 ∧
          p.1 ≠ 117 ∧ p.1 < 0xD800 := by
      decide
    obtain ⟨hsimple, hhigh, hline, hsmall, hu, hbelow⟩ := hall _ hletter
    exact ⟨readChars_simple hquote hsimple, misread_of_large hhigh hline, hsmall,
      fun _ => spelledApart_escape_below hu (by omega) (by omega) hbelow⟩

/-- Behind the body comes its quote, which is none of the characters that are looked for. -/
theorem head_ne {quote : ℕ} (hquote : quote ∈ [34, 39, 96]) {body : PyText}
    (hnext : NextNot (· = 10) body) (rest : PyText) : (body++quote :: rest).head? ≠ some 10 := by
  cases body with
  | nil =>
    intro heq
    obtain rfl := Option.some.inj heq
    contradiction
  | cons c body =>
    intro heq
    exact hnext c rfl (Option.some.inj heq)

theorem readChars_digits {quote : ℕ} (hquote : quote ∈ [34, 39, 96]) {digits : PyText}
    (hdigits : ∀ d ∈ digits, Octal d) (rest : PyText) :
    readChars quote (digits++rest) = prepend digits (readChars quote rest) := by
  induction digits with
  | nil => exact (prepend_nil _).symm
  | cons d digits ih =>
    have hd := digit_of_octal (hdigits d List.mem_cons_self)
    rw [List.cons_append, readChars_digit hquote hd,
      ih (fun d' hd' => hdigits d' (List.mem_cons_of_mem _ hd')), prepend_prepend]
    rfl

/-- An octal escape is read as the character of its first digit, and the digits behind it. -/
theorem outcome_octal {quote a meant : ℕ} (hquote : quote ∈ [34, 39, 96]) (ha : Octal a)
    (digits : PyText) (hdigits : ∀ d ∈ digits, Octal d) (hmore : a = 48 → digits ≠ [])
    (hmeant : digits = [] → meant = a-48) {body value rest : PyText}
    (h : Outcome value (readsRight quote body) (spelledApart · body) rest
      (readChars quote (body++quote :: rest))) :
    Outcome (meant :: value) (readsRight quote (92 :: a :: (digits++body)))
      (spelledApart · (92 :: a :: (digits++body))) rest
      (readChars quote (92 :: a :: (digits++(body++quote :: rest)))) := by
  have hbackslash : quote ≠ 92 := by
    rintro rfl
    contradiction
  obtain ⟨v, hv, hread, hvalue⟩ := readChars_escapedDigit hbackslash (digit_of_octal ha)
    (digits++(body++quote :: rest))
  have hsmall : utf16 (v :: digits) = v :: digits := by
    apply utf16_small
    intro c hc
    rcases List.mem_cons.mp hc with rfl | hc
    · exact hv
    · have hhigh := (hdigits c hc).2
      omega
  have hright : readsRight quote (92 :: a :: (digits++body)) = false := by
    have hmisread : misread a (digits++body) = true := by
      apply misread_octal ha
      intro hzero
      obtain ⟨d, digits', rfl⟩ := List.exists_cons_of_ne_nil (hmore hzero)
      exact ⟨d, digits'++body, rfl, hdigits d List.mem_cons_self⟩
    rw [readsRight_escape, hmisread]
    rfl
  rw [hread, readChars_digits hquote hdigits, prepend_prepend, hright]
  apply h.bad (v :: digits) [meant]
  · simp [hsmall]
  · rw [hsmall]
    intro heq
    -- one digit alone stands for itself, where another character is meant
    obtain ⟨hsame, hnil⟩ := List.cons.inj heq
    obtain ⟨-, rfl⟩ := hvalue.resolve_left (fun hzero => hmore hzero.1 hnil)
    have hlow := ha.1
    have hone := hmeant hnil
    omega

/-- A literal stands for code units. -/
theorem body_units {quote : ℕ} {body value : PyText} (h : Body quote body value) :
    ∀ u ∈ value, u < 0x10000 := by
  have hunits {c : ℕ} {value : PyText} (hvalue : ∀ u ∈ value, u < 0x10000) :
      ∀ u ∈ units c++value, u < 0x10000 :=
    List.forall_mem_append.mpr ⟨units_lt c, hvalue⟩
  have hone {v : ℕ} {value : PyText} (hv : v < 0x10000) (hvalue : ∀ u ∈ value, u < 0x10000) :
      ∀ u ∈ v :: value, u < 0x10000 :=
    List.forall_mem_cons.mpr ⟨hv, hvalue⟩
  induction h with
  | nil => exact List.forall_mem_nil _
  | plain hc h ih => exact hunits ih
  | carriageReturn hquote hnext h ih => exact hone (by decide) ih
  | lineEnd hquote h ih => exact hone (by decide) ih
  | continuation hc hnext h ih => exact ih
  | continuationLineEnd h ih => exact ih
  | single hc h ih =>
    have hall : ∀ p ∈ [(39, 39), (34, 34), (92, 92), (98, 8), (102, 12), (110, 10), (114, 13),
        (116, 9), (118, 11)], p.2 < 0x10000 := by
      decide
    exact hone (hall _ (mem_of_singleEscape hc)) ih
  | other hsingle hdigit hx hu hline hsmall h ih => exact hunits ih
  | null hnext h ih => exact hone (by decide) ih
  | hex hv h ih =>
    obtain ⟨x, y, hx, hy, rfl⟩ := hexValue_two hv
    have := hexDigit_lt hx
    have := hexDigit_lt hy
    exact hone (by omega) ih
  | unicode hv h ih =>
    obtain ⟨x, y, z, w, hx, hy, hz, hw, rfl⟩ := hexValue_four hv
    have := hexDigit_lt hx
    have := hexDigit_lt hy
    have := hexDigit_lt hz
    have := hexDigit_lt hw
    exact hone (by omega) ih
  | codePoint hne hv hv' h ih => exact hunits ih
  | nullDigit hquote hc h ih => exact hone (by decide) ih
  | octalOne hquote ha ha' hnext h ih =>
    have hhigh := ha.2
    exact hone (by omega) ih
  | octalTwo hquote ha hb hnext h ih =>
    have hhigh := ha.2
    have hhigh' := hb.2
    exact hone (by omega) ih
  | octalThree hquote ha ha' hb hc h ih =>
    have hhigh := ha.2
    have hhigh' := hb.2
    have hhigh'' := hc.2
    exact hone (by omega) ih
  | eightNine hquote hc h ih => exact hone (by omega) ih

/-- The reading of a body, along its grammar. -/
theorem outcome_of_body {quote : ℕ} (hquote : quote ∈ [34, 39, 96]) {body value : PyText}
    (h : Body quote body value) (rest : PyText) :
    Outcome value (readsRight quote body) (spelledApart · body) rest
      (readChars quote (body++quote :: rest)) := by
  have hbackslash : quote ≠ 92 := by
    rintro rfl
    contradiction
  induction h with
  | nil =>
    rw [List.nil_append, readChars_quote]
    exact .reads [] (Nat.le_refl _) (iff_of_true rfl rfl) (fun _ => List.forall_mem_nil _)
      (fun _ _ => rfl)
  | @plain c body value hc h ih =>
    obtain ⟨hsmall, hne, hplain, hreturn, -, -⟩ := hc
    have hright : readsRight quote (c :: body) = readsRight quote body := by
      rw [readsRight_plain hplain]
      simp [hreturn]
    rw [List.cons_append, readChars_plain hne hplain, hright]
    exact ih.good hsmall (fun _ => spelledApart_plain hplain)
  | @carriageReturn body value hq hnext h ih =>
    rw [List.cons_append, readChars_plain (by omega) (by decide), readsRight_plain (by decide)]
    simpa [hq] using ih.bad [13] [10] (by decide) (by decide)
  | @lineEnd body value hq h ih =>
    rw [List.cons_append, List.cons_append, readChars_plain (by omega) (by decide),
      readChars_plain (by omega) (by decide), prepend_prepend, readsRight_plain (by decide)]
    simpa [hq] using ih.bad [13, 10] [10] (by decide) (by decide)
  | @continuation c body value hc hnext h ih =>
    rw [List.cons_append, List.cons_append, readsRight_escape]
    rcases hc with rfl | rfl | rfl | rfl
    · rw [readChars_lineFeed hbackslash, misread_of_small (by decide)]
      simpa [spelledApart_feed] using ih
    · rw [readChars_return hbackslash (head_ne hquote (hnext rfl) rest),
        misread_of_small (by decide)]
      simpa [spelledApart_return (hnext rfl)] using ih
    · rw [readChars_other hbackslash (by decide) (by decide) (by decide) (by decide) (by decide)]
      exact ih.bad [0x2028] [] (by decide) (by decide)
    · rw [readChars_other hbackslash (by decide) (by decide) (by decide) (by decide) (by decide)]
      exact ih.bad [0x2029] [] (by decide) (by decide)
  | @continuationLineEnd body value h ih =>
    rw [List.cons_append, List.cons_append, List.cons_append, readChars_lineEnd hbackslash,
      readsRight_escape, misread_of_small (by decide), readsRight_plain (by decide)]
    simpa [spelledApart_lineEnd] using ih
  | @single c v body value hc h ih =>
    obtain ⟨hread, hright, hv, hspelled⟩ :=
      readChars_single hbackslash hc (body++quote :: rest) body
    rw [List.cons_append, List.cons_append, hread, readsRight_escape, hright]
    exact ih.goodBelow hv hspelled
  | @other c body value hsingle hdigit hx hu hline hsmall h ih =>
    have hzero : c ≠ 48 := by
      rintro rfl
      exact hdigit ⟨by decide, by decide⟩
    have hright : misread c body = false := by
      by_cases hlarge : 55 < c
      · exact misread_of_large hlarge hline
      · have hlow : c < 48 := by
          by_contra hge
          exact hdigit ⟨by omega, by omega⟩
        exact misread_of_small hlow
    simp only [LineTerminator, not_or] at hline
    rw [List.cons_append, List.cons_append, readsRight_escape, hright,
      readChars_other hbackslash (simpleEscape_none hsingle hzero) hu hx hline.2.1 hline.1]
    exact ih.good hsmall (fun _ => spelledApart_escape hu hline.2.1 hline.1)
  | @null body value hnext h ih =>
    have hoctal : NextNot Octal body := fun c hc hlow => hnext c hc (digit_of_octal hlow)
    rw [List.cons_append, List.cons_append, readsRight_escape, misread_zero hoctal,
      readChars_simple hbackslash (v := 0) (by decide)]
    exact ih.goodBelow (by decide) (fun _ =>
      spelledApart_escape_below (by decide) (by decide) (by decide) (by decide))
  | @hex a b v body value hv h ih =>
    obtain ⟨x, y, hx, hy, rfl⟩ := hexValue_two hv
    have hsmall : x*16+y < 0xD800 := by
      have := hexDigit_lt hx
      have := hexDigit_lt hy
      omega
    simp only [List.cons_append]
    rw [readChars_hex hbackslash hv, readsRight_escape, misread_of_large (by decide) (by decide),
      readsRight_hex hx, readsRight_hex hy]
    refine ih.goodBelow hsmall ?_
    intro high
    rw [spelledApart_escape_below (by decide) (by decide) (by decide) (by decide),
      spelledApart_hex hx, spelledApart_hex hy]
  | @unicode a b c d v body value hv h ih =>
    obtain ⟨x, y, z, w, hx, hy, hz, hw, rfl⟩ := hexValue_four hv
    have hsmall : ((x*16+y)*16+z)*16+w < 0x10000 := by
      have := hexDigit_lt hx
      have := hexDigit_lt hy
      have := hexDigit_lt hz
      have := hexDigit_lt hw
      omega
    simp only [List.cons_append]
    rw [readChars_unicode hbackslash hv, readsRight_escape,
      misread_of_large (by decide) (by decide), readsRight_hex hx, readsRight_hex hy,
      readsRight_hex hz, readsRight_hex hw]
    have hgood := ih.good (by omega) (fun _ => spelledApart_unicode hv)
    rwa [units_small hsmall] at hgood
  | @codePoint digits body value v hne hv hv' h ih =>
    rw [List.cons_append, List.cons_append, List.cons_append, readChars_brace hbackslash]
    exact .fails _
  | @nullDigit c body value hq hc h ih =>
    have hoctal : NextNot Octal (c :: body) := by
      rintro d hd ⟨-, hhigh⟩
      obtain rfl := Option.some.inj hd
      omega
    rw [List.cons_append, List.cons_append, readsRight_escape, misread_zero hoctal,
      readChars_simple hbackslash (v := 0) (by decide)]
    exact ih.goodBelow (by decide) (fun _ =>
      spelledApart_escape_below (by decide) (by decide) (by decide) (by decide))
  | @octalOne a body value hq ha ha' hnext h ih =>
    exact outcome_octal hquote ha [] (by simp) (fun hzero => absurd hzero ha') (fun _ => rfl) ih
  | @octalTwo a b body value hq ha hb hnext h ih =>
    exact outcome_octal hquote ha [b] (by simpa using hb) (by simp) (by simp) ih
  | @octalThree a b c body value hq ha ha' hb hc h ih =>
    exact outcome_octal hquote ha [b, c] (by simpa using ⟨hb, hc⟩) (by simp) (by simp) ih
  | @eightNine c body value hq hc h ih =>
    have hlarge : 55 < c := by omega
    have hline : ¬ LineTerminator c := by
      rintro (rfl | rfl | rfl | rfl)
      · omega
      · omega
      · omega
      · omega
    have hdigit : Digit c := ⟨by omega, by omega⟩
    obtain ⟨v, hv, hread, hv'⟩ := readChars_escapedDigit hbackslash hdigit (body++quote :: rest)
    obtain ⟨-, rfl⟩ := hv'.resolve_left (fun hzero => absurd hzero.1 (by omega))
    rw [List.cons_append, List.cons_append, hread, readsRight_escape,
      misread_of_large hlarge hline]
    exact ih.goodBelow (by omega) (fun _ =>
      spelledApart_escape_below (by omega) (by omega) (by omega) (by omega))

end JingjieAR.PanoData
