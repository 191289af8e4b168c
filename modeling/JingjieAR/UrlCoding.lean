import JingjieAR.HttpRequestModel
import Mathlib.Tactic.IntervalCases

/-! Percent encoding. `urlDecode` is the decoder of the server; the encoders keep the
bytes of a given set and write every other byte as `%XX`. -/
namespace JingjieAR

def percent : UInt8 := 37
def plus : UInt8 := 43

/-- The value of a hexadecimal digit; `none` is the `-1` of the source. -/
def hexDigitValue (c : UInt8) : Option ℕ :=
  if 48 ≤ c ∧ c ≤ 57 then some (c.toNat-48)
  else if 65 ≤ c ∧ c ≤ 70 then some (c.toNat-65+10)
  else if 97 ≤ c ∧ c ≤ 102 then some (c.toNat-97+10)
  else none

/-- A byte that does not start an escape. -/
def decodePlain (c : UInt8) : UInt8 := if c = plus then space else c

/-- A `%` that two hexadecimal digits do not follow stands for itself. -/
def urlDecode : Bytes → Bytes
  | c :: a :: b :: rest =>
    match decide (c = percent), hexDigitValue a, hexDigitValue b with
    | true, some high, some low => UInt8.ofNat (high*16+low) :: urlDecode rest
    | _, _, _ => decodePlain c :: urlDecode (a :: b :: rest)
  | c :: rest => decodePlain c :: urlDecode rest
  | [] => []

/-- The digits that encoders write. -/
def upperHexDigit (n : ℕ) : UInt8 := UInt8.ofNat (if n < 10 then 48+n else 55+n)

def escapeByte (b : UInt8) : Bytes :=
  [percent, upperHexDigit (b.toNat/16), upperHexDigit (b.toNat%16)]

def percentEncode (keep : UInt8 → Bool) (text : Bytes) : Bytes :=
  text.flatMap (fun b => if keep b then [b] else escapeByte b)

/-- Letters, digits and `-_.!~*'()`: what `encodeURIComponent` leaves alone. -/
def unreserved (c : UInt8) : Bool :=
  (65 ≤ c && c ≤ 90) || (97 ≤ c && c ≤ 122) || (48 ≤ c && c ≤ 57) ||
    (ascii "-_.!~*'()").contains c

/-- On the UTF-8 bytes of a text; every byte of a longer character is escaped. -/
def encodeURIComponent (text : Bytes) : Bytes := percentEncode unreserved text

theorem hexDigitValue_upperHexDigit {n : ℕ} (h : n < 16) :
    hexDigitValue (upperHexDigit n) = some n := by
  interval_cases n <;> decide

theorem urlDecode_escapeByte (b : UInt8) (rest : Bytes) :
    urlDecode (escapeByte b++rest) = b :: urlDecode rest := by
  have hb := b.toNat_lt
  have hhigh : hexDigitValue (upperHexDigit (b.toNat/16)) = some (b.toNat/16) :=
    hexDigitValue_upperHexDigit (by omega)
  have hlow : hexDigitValue (upperHexDigit (b.toNat%16)) = some (b.toNat%16) :=
    hexDigitValue_upperHexDigit (by omega)
  have hjoin : b.toNat/16*16+b.toNat%16 = b.toNat := by omega
  show urlDecode (percent :: upperHexDigit (b.toNat/16) :: upperHexDigit (b.toNat%16) :: rest) = _
  rw [urlDecode, hhigh, hlow]
  simp only [decide_true]
  rw [hjoin, UInt8.ofNat_toNat]

theorem urlDecode_cons_plain {c : UInt8} (h : c ≠ percent) (rest : Bytes) :
    urlDecode (c :: rest) = decodePlain c :: urlDecode rest := by
  match rest with
  | [] => rfl
  | [a] => rfl
  | a :: b :: rest => rw [urlDecode, decide_eq_false h]

/-- Decoding undoes an encoder that escapes at least `%` and `+`. -/
theorem urlDecode_percentEncode {keep : UInt8 → Bool} (hpercent : keep percent = false)
    (hplus : keep plus = false) (text : Bytes) : urlDecode (percentEncode keep text) = text := by
  induction text with
  | nil => rfl
  | cons b text ih =>
    have hcons : percentEncode keep (b :: text) =
        (if keep b then [b] else escapeByte b)++percentEncode keep text := rfl
    rw [hcons]
    by_cases hb : keep b
    · have hne : b ≠ percent := by
        intro h
        simp [h, hpercent] at hb
      have hne' : b ≠ plus := by
        intro h
        simp [h, hplus] at hb
      rw [if_pos hb, List.singleton_append, urlDecode_cons_plain hne, ih, decodePlain, if_neg hne']
    · rw [if_neg hb, urlDecode_escapeByte, ih]

theorem urlDecode_escape {a b : UInt8} {high low : ℕ} (ha : hexDigitValue a = some high)
    (hb : hexDigitValue b = some low) (rest : Bytes) :
    urlDecode (percent :: a :: b :: rest) = UInt8.ofNat (high*16+low) :: urlDecode rest := by
  rw [urlDecode, ha, hb]
  simp

/-- Two hexadecimal digits come first. -/
def BeginsDigits : Bytes → Prop
  | a :: b :: _ => (hexDigitValue a).isSome ∧ (hexDigitValue b).isSome
  | _ => False

/-- A byte that is not the `%` of an escape. -/
theorem urlDecode_cons {c : UInt8} {rest : Bytes} (h : ¬(c = percent ∧ BeginsDigits rest)) :
    urlDecode (c :: rest) = decodePlain c :: urlDecode rest := by
  match rest with
  | [] => rfl
  | [a] => rfl
  | a :: b :: rest =>
    by_cases hc : c = percent
    · have hdigits : ¬((hexDigitValue a).isSome ∧ (hexDigitValue b).isSome) := fun hd => h ⟨hc, hd⟩
      rw [urlDecode]
      cases ha : hexDigitValue a with
      | none => simp
      | some high =>
        cases hb : hexDigitValue b with
        | none => simp
        | some low => simp [ha, hb] at hdigits
    · exact urlDecode_cons_plain hc _

/-- A `%` is no hexadecimal digit, so what stands before it is decoded alone. -/
theorem urlDecode_append_percent (before rest : Bytes) :
    urlDecode (before++percent :: rest) = urlDecode before++urlDecode (percent :: rest) := by
  have hpercent : hexDigitValue percent = none := by decide
  fun_induction urlDecode before with
  | case1 c a b tail high low hb ha hc ih =>
    obtain rfl : c = percent := by simpa using hc
    simp only [List.cons_append]
    rw [urlDecode_escape ha hb, ih]
  | case2 c a b tail hnot ih =>
    have hplain : ¬(c = percent ∧ BeginsDigits (a :: b :: (tail++percent :: rest))) := by
      rintro ⟨rfl, ha, hb⟩
      obtain ⟨high, ha⟩ := Option.isSome_iff_exists.mp ha
      obtain ⟨low, hb⟩ := Option.isSome_iff_exists.mp hb
      exact hnot high low rfl ha hb
    simp only [List.cons_append] at ih ⊢
    rw [urlDecode_cons hplain, ih]
  | case3 c tail hshort ih =>
    have hplain : ¬(c = percent ∧ BeginsDigits (tail++percent :: rest)) := by
      rintro ⟨-, hdigits⟩
      match tail with
      | [] => cases rest <;> simp [BeginsDigits, hpercent] at hdigits
      | [a] => simp [BeginsDigits, hpercent] at hdigits
      | a :: b :: tail => exact hshort a b tail rfl
    rw [List.cons_append, urlDecode_cons hplain, ih, List.cons_append]
  | case4 => rfl

theorem length_urlDecode_le (text : Bytes) : (urlDecode text).length ≤ text.length := by
  fun_induction urlDecode text with
  | case1 c a b rest high low hb ha hc ih =>
    simp only [List.length_cons]
    omega
  | case2 c a b rest hnot ih => simpa using ih
  | case3 c rest hshort ih => simpa using ih
  | case4 => exact le_rfl

/-- A `%` without two digits behind it is kept. -/
theorem urlDecode_kept {rest : Bytes} (h : ¬BeginsDigits rest) (before : Bytes) :
    urlDecode (before++percent :: rest) = urlDecode before++percent :: urlDecode rest := by
  have hkept : urlDecode (percent :: rest) = percent :: urlDecode rest :=
    urlDecode_cons (fun hd => h hd.2)
  rw [urlDecode_append_percent, hkept]

end JingjieAR
