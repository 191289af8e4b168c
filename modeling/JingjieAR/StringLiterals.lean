import Mathlib.Data.List.Basic

/-! The string literals of ECMAScript and the templates without substitutions, in code that is
not strict: how they are spelled, as code points, and what they stand for, as code units. A
string of code units has its code points: two surrogates that are a pair stand for one. -/
namespace JingjieAR.StringLiterals

abbrev Text := List ℕ

/-- The UTF-16 form of a code point. -/
def units (c : ℕ) : Text :=
  if c < 0x10000 then [c]
  else [0xD800+(c-0x10000)/1024%1024, 0xDC00+(c-0x10000)%1024]

def utf16 (text : Text) : Text := text.flatMap units

def highSurrogate (c : ℕ) : Bool := 0xD800 ≤ c && c < 0xDC00

def lowSurrogate (c : ℕ) : Bool := 0xDC00 ≤ c && c < 0xE000

/-- The code points of a string of code units. A surrogate without its other half is one. -/
def codePoints : Text → Text
  | [] => []
  | [u] => [u]
  | u :: v :: rest =>
    if highSurrogate u && lowSurrogate v then
      (0x10000+(u-0xD800)*1024+(v-0xDC00)) :: codePoints rest
    else u :: codePoints (v :: rest)

/-- No high surrogate comes right before a low one. -/
def apart (high : Bool) : Text → Bool
  | [] => true
  | c :: rest => !(high && lowSurrogate c) && apart (highSurrogate c) rest

section CodePoints

variable {text value : Text}

theorem utf16_cons (c : ℕ) (text : Text) : utf16 (c :: text) = units c++utf16 text :=
  List.flatMap_cons

theorem units_small {c : ℕ} (h : c < 0x10000) : units c = [c] := by
  rw [units, if_pos h]

theorem units_lt (c : ℕ) : ∀ u ∈ units c, u < 0x10000 := by
  rw [units]
  split_ifs with h
  · simpa using h
  · simp only [List.mem_cons, List.not_mem_nil, or_false]
    intro u hu
    omega

theorem apart_of_head (h : apart false text = true)
    (hhead : ∀ c ∈ text.head?, lowSurrogate c = false) (high : Bool) : apart high text = true := by
  cases text with
  | nil => rfl
  | cons c rest =>
    rw [apart, hhead c rfl, Bool.and_false]
    simpa [apart] using h

theorem apart_tail {high : Bool} (h : apart high text = true) : apart false text = true := by
  cases text with
  | nil => rfl
  | cons c rest =>
    simp only [apart, Bool.and_eq_true] at h
    simpa [apart] using h.2

/-- A low surrogate at the front of the code units is one of the text. -/
theorem head_utf16 {u : ℕ} (hu : u ∈ (utf16 text).head?) (hlow : lowSurrogate u = true) :
    u ∈ text.head? := by
  cases text with
  | nil => exact hu
  | cons c rest =>
    rw [utf16_cons, units] at hu
    split_ifs at hu with hc
    · exact hu
    · obtain rfl := Option.some.inj hu
      simp only [lowSurrogate, Bool.and_eq_true, decide_eq_true_eq] at hlow
      omega

theorem codePoints_cons {u : ℕ} {us : Text}
    (h : ∀ v ∈ us.head?, (highSurrogate u && lowSurrogate v) = false) :
    codePoints (u :: us) = u :: codePoints us := by
  cases us with
  | nil => rfl
  | cons v rest => rw [codePoints, h v rfl, if_neg Bool.false_ne_true]

/-- A text whose surrogates are apart has its characters for code points. -/
theorem codePoints_utf16 (hsmall : ∀ c ∈ text, c < 0x110000) (h : apart false text = true) :
    codePoints (utf16 text) = text := by
  induction text with
  | nil => rfl
  | cons c rest ih =>
    obtain ⟨hc, hrest⟩ := List.forall_mem_cons.mp hsmall
    have hapart : apart (highSurrogate c) rest = true := by simpa [apart] using h
    have hih := ih hrest (apart_tail hapart)
    rw [utf16_cons, units]
    split_ifs with hplane
    · show codePoints (c :: utf16 rest) = c :: rest
      rw [codePoints_cons, hih]
      intro v hv
      by_contra hpair
      obtain ⟨hhigh, hlow⟩ := by simpa using hpair
      -- the low one would be the next character
      have hhead := head_utf16 hv hlow
      cases rest with
      | nil => simp at hhead
      | cons d rest =>
        obtain rfl := Option.some.inj hhead
        simp [apart, hhigh, hlow] at hapart
    · show codePoints (_ :: _ :: utf16 rest) = c :: rest
      have hpair : (highSurrogate (0xD800+(c-0x10000)/1024%1024) &&
          lowSurrogate (0xDC00+(c-0x10000)%1024)) = true := by
        simp only [highSurrogate, lowSurrogate, Bool.and_eq_true, decide_eq_true_eq]
        omega
      have hjoined : 0x10000+(0xD800+(c-0x10000)/1024%1024-0xD800)*1024+
          (0xDC00+(c-0x10000)%1024-0xDC00) = c := by
        omega
      rw [codePoints, hpair, if_pos rfl, hih, hjoined]

theorem head_codePoints {c v : ℕ} {us : Text} (hc : c ∈ (codePoints (v :: us)).head?)
    (hlow : lowSurrogate c = true) : c = v := by
  cases us with
  | nil => exact (Option.some.inj hc).symm
  | cons w rest =>
    rw [codePoints] at hc
    split_ifs at hc
    · obtain rfl := Option.some.inj hc
      simp only [lowSurrogate, Bool.and_eq_true, decide_eq_true_eq] at hlow
      omega
    · exact (Option.some.inj hc).symm

/-- Pairs are joined among code points. -/
theorem apart_codePoints (us : Text) : apart false (codePoints us) = true := by
  induction us using codePoints.induct with
  | case1 => rfl
  | case2 u => simp [codePoints, apart]
  | case3 u v rest hpair ih =>
    have hnot : highSurrogate (0x10000+(u-0xD800)*1024+(v-0xDC00)) = false := by
      simp only [highSurrogate, Bool.and_eq_false_iff, decide_eq_false_iff_not]
      omega
    rw [codePoints, if_pos hpair, apart, hnot, ih]
    rfl
  | case4 u v rest hpair ih =>
    rw [codePoints, if_neg hpair, apart, Bool.false_and, Bool.not_false, Bool.true_and]
    cases hhigh : highSurrogate u with
    | false => exact ih
    | true =>
      refine apart_of_head ih ?_ true
      intro c hc
      by_contra hlow
      rw [Bool.not_eq_false] at hlow
      have hv : lowSurrogate v = true := head_codePoints hc hlow ▸ hlow
      exact hpair (by rw [hhigh, hv]; rfl)

theorem utf16_codePoints {us : Text} (h : ∀ u ∈ us, u < 0x10000) :
    utf16 (codePoints us) = us := by
  induction us using codePoints.induct with
  | case1 => rfl
  | case2 u => simp [codePoints, units_small (h u List.mem_cons_self), utf16]
  | case3 u v rest hpair ih =>
    have hrest : ∀ u ∈ rest, u < 0x10000 :=
      fun w hw => h w (List.mem_cons_of_mem _ (List.mem_cons_of_mem _ hw))
    have hunits : units (0x10000+(u-0xD800)*1024+(v-0xDC00)) = [u, v] := by
      simp only [highSurrogate, lowSurrogate, Bool.and_eq_true, decide_eq_true_eq] at hpair
      have hhigh : 0xD800+(0x10000+(u-0xD800)*1024+(v-0xDC00)-0x10000)/1024%1024 = u := by
        omega
      have hlow : 0xDC00+(0x10000+(u-0xD800)*1024+(v-0xDC00)-0x10000)%1024 = v := by
        omega
      rw [units, if_neg (by omega), hhigh, hlow]
    rw [codePoints, if_pos hpair, utf16_cons, hunits, ih hrest]
    rfl
  | case4 u v rest hpair ih =>
    obtain ⟨hu, hrest⟩ := List.forall_mem_cons.mp h
    rw [codePoints, if_neg hpair, utf16_cons, units_small hu, ih hrest]
    rfl

/-- A text is that of these code units exactly if it has them and its surrogates are apart. -/
theorem eq_codePoints_iff (hvalue : ∀ u ∈ value, u < 0x10000)
    (htext : utf16 text = value → ∀ c ∈ text, c < 0x110000) :
    text = codePoints value ↔ utf16 text = value ∧ apart false text = true := by
  constructor
  · rintro rfl
    exact ⟨utf16_codePoints hvalue, apart_codePoints value⟩
  · rintro ⟨rfl, hapart⟩
    exact (codePoints_utf16 (htext rfl) hapart).symm

end CodePoints

def hexDigit (c : ℕ) : Option ℕ :=
  if 48 ≤ c ∧ c ≤ 57 then some (c-48)
  else if 97 ≤ c ∧ c ≤ 102 then some (c-87)
  else if 65 ≤ c ∧ c ≤ 70 then some (c-55)
  else none

/-- The number that hexadecimal digits stand for. -/
def hexValue : Text → Option ℕ :=
  List.foldl (fun value c => do some ((← value)*16+(← hexDigit c))) (some 0)

def Digit (c : ℕ) : Prop := 48 ≤ c ∧ c ≤ 57

def Octal (c : ℕ) : Prop := 48 ≤ c ∧ c ≤ 55

instance (c : ℕ) : Decidable (Digit c) := inferInstanceAs (Decidable (_ ∧ _))

instance (c : ℕ) : Decidable (Octal c) := inferInstanceAs (Decidable (_ ∧ _))

/-- The letters with an escape of their own: both quotes, the backslash, `b`, `f`, `n`, `r`, `t`
and `v`. -/
def singleEscape (c : ℕ) : Option ℕ :=
  [(39, 39), (34, 34), (92, 92), (98, 8), (102, 12), (110, 10), (114, 13), (116, 9),
    (118, 11)].lookup c

def LineTerminator (c : ℕ) : Prop := c = 10 ∨ c = 13 ∨ c = 0x2028 ∨ c = 0x2029

instance (c : ℕ) : Decidable (LineTerminator c) := inferInstanceAs (Decidable (_ ∨ _))

/-- What comes next is not of this kind. -/
def NextNot (kind : ℕ → Prop) (rest : Text) : Prop := ∀ c ∈ rest.head?, ¬ kind c

/-- What may stand for itself between these quotes. -/
def PlainCharacter (quote c : ℕ) (rest : Text) : Prop :=
  c < 0x110000 ∧ c ≠ quote ∧ c ≠ 92 ∧ c ≠ 13 ∧ (quote ≠ 96 → c ≠ 10) ∧
    (quote = 96 → c = 36 → NextNot (· = 123) rest)

/-- What is spelled between two quotes of this kind, with its value. -/
inductive Body (quote : ℕ) : Text → Text → Prop
  | nil : Body quote [] []
  | plain {c : ℕ} {rest value : Text} (hc : PlainCharacter quote c rest)
      (h : Body quote rest value) : Body quote (c :: rest) (units c++value)
  -- a template has every line end as a line feed
  | carriageReturn {rest value : Text} (hquote : quote = 96) (hnext : NextNot (· = 10) rest)
      (h : Body quote rest value) : Body quote (13 :: rest) (10 :: value)
  | lineEnd {rest value : Text} (hquote : quote = 96) (h : Body quote rest value) :
      Body quote (13 :: 10 :: rest) (10 :: value)
  | continuation {c : ℕ} {rest value : Text} (hc : LineTerminator c)
      (hnext : c = 13 → NextNot (· = 10) rest) (h : Body quote rest value) :
      Body quote (92 :: c :: rest) value
  | continuationLineEnd {rest value : Text} (h : Body quote rest value) :
      Body quote (92 :: 13 :: 10 :: rest) value
  | single {c v : ℕ} {rest value : Text} (hc : singleEscape c = some v)
      (h : Body quote rest value) : Body quote (92 :: c :: rest) (v :: value)
  | other {c : ℕ} {rest value : Text} (hsingle : singleEscape c = none) (hdigit : ¬ Digit c)
      (hx : c ≠ 120) (hu : c ≠ 117) (hline : ¬ LineTerminator c) (hc : c < 0x110000)
      (h : Body quote rest value) : Body quote (92 :: c :: rest) (units c++value)
  | null {rest value : Text} (hnext : NextNot Digit rest) (h : Body quote rest value) :
      Body quote (92 :: 48 :: rest) (0 :: value)
  | hex {a b v : ℕ} {rest value : Text} (hv : hexValue [a, b] = some v)
      (h : Body quote rest value) : Body quote (92 :: 120 :: a :: b :: rest) (v :: value)
  | unicode {a b c d v : ℕ} {rest value : Text} (hv : hexValue [a, b, c, d] = some v)
      (h : Body quote rest value) :
      Body quote (92 :: 117 :: a :: b :: c :: d :: rest) (v :: value)
  | codePoint {digits rest value : Text} {v : ℕ} (hne : digits ≠ [])
      (hv : hexValue digits = some v) (hv' : v < 0x110000) (h : Body quote rest value) :
      Body quote (92 :: 117 :: 123 :: (digits++125 :: rest)) (units v++value)
  -- the old escapes, which templates do not have
  | nullDigit {c : ℕ} {rest value : Text} (hquote : quote ≠ 96) (hc : c = 56 ∨ c = 57)
      (h : Body quote (c :: rest) value) : Body quote (92 :: 48 :: c :: rest) (0 :: value)
  | octalOne {a : ℕ} {rest value : Text} (hquote : quote ≠ 96) (ha : Octal a) (ha' : a ≠ 48)
      (hnext : NextNot Octal rest) (h : Body quote rest value) :
      Body quote (92 :: a :: rest) ((a-48) :: value)
  | octalTwo {a b : ℕ} {rest value : Text} (hquote : quote ≠ 96) (ha : Octal a) (hb : Octal b)
      (hnext : a ≤ 51 → NextNot Octal rest) (h : Body quote rest value) :
      Body quote (92 :: a :: b :: rest) (((a-48)*8+(b-48)) :: value)
  | octalThree {a b c : ℕ} {rest value : Text} (hquote : quote ≠ 96) (ha : Octal a)
      (ha' : a ≤ 51) (hb : Octal b) (hc : Octal c) (h : Body quote rest value) :
      Body quote (92 :: a :: b :: c :: rest) (((a-48)*64+(b-48)*8+(c-48)) :: value)
  | eightNine {c : ℕ} {rest value : Text} (hquote : quote ≠ 96) (hc : c = 56 ∨ c = 57)
      (h : Body quote rest value) : Body quote (92 :: c :: rest) (c :: value)

/-- A literal with its quotes. -/
def Literal (text value : Text) : Prop :=
  ∃ quote ∈ [34, 39, 96], ∃ body, text = quote :: (body++[quote]) ∧ Body quote body value

end JingjieAR.StringLiterals
