import JingjieAR.LogStreamModel
import JingjieAR.ResponseFraming

/-! The integers of the log. What is appended is the decimal representation, for the lowest value
of a signed type too, and no store and no table access of the formatting is out of bounds. -/
namespace JingjieAR

open HttpResponse (decimal)

/-- The value of a text of digits, with a minus sign before them or not. -/
def integerValue (text : Bytes) : Option ℤ :=
  let digits := if text.head? = some 45 then text.tail else text
  if digits ≠ [] ∧ digits.all isDigit = true then
    some (if text.head? = some 45 then -(decimalValue digits 0 : ℤ) else decimalValue digits 0)
  else none

/-- The canonical representation of an integer. -/
structure Canonical (text : Bytes) (v : ℤ) : Prop where
  value : integerValue text = some v
  no_leading_zero : ∀ rest, text = 48 :: rest ∨ text = 45 :: 48 :: rest → text = [48]
  minus_iff : text.head? = some 45 ↔ v < 0

/-- The text that is appended for an integer. -/
def integerText (v : ℤ) : Bytes := if v < 0 then 45 :: decimal v.natAbs else decimal v.natAbs

section Digits

theorem decimal_of_lt {n : ℕ} (h : n < 10) :
    decimal n = [UInt8.ofNat n.digitChar.toNat] := by
  rw [ascii_toString, Nat.toDigits_of_lt_base h]
  rfl

theorem decimal_of_le {n : ℕ} (h : 10 ≤ n) :
    decimal n = decimal (n/10)++[UInt8.ofNat (n%10).digitChar.toNat] := by
  rw [ascii_toString, ascii_toString, Nat.toDigits_of_base_le (by decide) h, List.map_append]
  rfl

/-- The last digit of a number and those before it. -/
theorem decimal_eq (n : ℕ) :
    decimal n = (if n/10 = 0 then [] else decimal (n/10))++
      [UInt8.ofNat (n%10).digitChar.toNat] := by
  by_cases h : n < 10
  · rw [decimal_of_lt h, if_pos (Nat.div_eq_of_lt h), Nat.mod_eq_of_lt h]
    rfl
  · have hdiv : n/10 ≠ 0 := by omega
    rw [decimal_of_le (by omega), if_neg hdiv]

theorem decimal_ne_nil (n : ℕ) : decimal n ≠ [] := (decimal_decimal n).ne_nil

theorem decimal_head_ne {n : ℕ} {c : UInt8} (hc : isDigit c = false) :
    (decimal n).head? ≠ some c := by
  intro hhead
  have hdigit := (decimal_decimal n).digits c (List.mem_of_head? hhead)
  rw [hc] at hdigit
  contradiction

theorem decimal_valid (n : ℕ) : decimal n ≠ [] ∧ (decimal n).all isDigit = true := by
  have hdecimal := decimal_decimal n
  exact ⟨hdecimal.ne_nil, List.all_eq_true.mpr hdecimal.digits⟩

/-- Parsing gives the value back, there are no leading zeros, and a minus sign stands for negative
values only. -/
theorem canonical_integerText (v : ℤ) : Canonical (integerText v) v := by
  have hminus : (decimal v.natAbs).head? ≠ some 45 := decimal_head_ne (by decide)
  have hvalid := decimal_valid v.natAbs
  have hvalue : decimalValue (decimal v.natAbs) 0 = v.natAbs := (decimal_decimal v.natAbs).value
  by_cases hnegative : v < 0
  · -- only zero has a zero for its first digit
    have hpos : v.natAbs ≠ 0 := by omega
    rw [integerText, if_pos hnegative]
    refine ⟨?_, ?_, iff_of_true rfl hnegative⟩
    · rw [integerValue]
      simp only [List.head?_cons, if_true, List.tail_cons]
      rw [if_pos hvalid, hvalue]
      congr 1
      omega
    · rintro rest (heq | heq)
      · obtain ⟨hhead, -⟩ := List.cons.inj heq
        contradiction
      · obtain ⟨-, hdecimal⟩ := List.cons.inj heq
        exact absurd (eq_zero_of_head_decimal (by rw [hdecimal]; rfl)) hpos
  · rw [integerText, if_neg hnegative]
    refine ⟨?_, ?_, iff_of_false hminus hnegative⟩
    · rw [integerValue]
      simp only [if_neg hminus]
      rw [if_pos hvalid, hvalue]
      congr 1
      omega
    · rintro rest (heq | heq)
      · have hzero : v.natAbs = 0 := eq_zero_of_head_decimal (by rw [heq]; rfl)
        rw [hzero]
        rfl
      · exact absurd (by rw [heq]; rfl) hminus

end Digits

section Formatting

variable {size : ℕ} {t : IntegerType}

/-- Division by ten stays in the type, at both of its ends. -/
theorem MachineInteger.div10_value (num : MachineInteger t) :
    num.div10.value = num.value.tdiv 10 := by
  have hlow := num.lowest_le
  have hhigh := num.le_highest
  have hzero : t.lowest ≤ 0 ∧ 0 ≤ t.highest := by
    cases t with
    | _ => decide
  have hbetween : t.lowest ≤ num.value.tdiv 10 ∧ num.value.tdiv 10 ≤ t.highest := by
    -- the quotient is truncated, so its rounding differs with the sign
    rcases Int.le_total 0 num.value with hsign | hsign
    · rw [Int.tdiv_eq_ediv_of_nonneg hsign]
      omega
    · have hneg : num.value.tdiv 10 = -((-num.value)/10) := by
        rw [← Int.tdiv_eq_ediv_of_nonneg (by omega), Int.neg_tdiv, Int.neg_neg]
      rw [hneg]
      omega
  exact IntegerType.convert_eq_self hbetween.1 hbetween.2

theorem MachineInteger.natAbs_div10 (num : MachineInteger t) :
    num.div10.value.natAbs = num.value.natAbs/10 := by
  rw [num.div10_value, Int.natAbs_tdiv]
  rfl

/-- The remainder is a digit, or the negative of one. -/
theorem MachineInteger.rem10_natAbs (num : MachineInteger t) :
    num.rem10.natAbs = num.value.natAbs%10 := by
  have habs : (num.value.tmod 10).natAbs = num.value.natAbs%10 := Int.natAbs_tmod num.value 10
  have hlow : IntegerType.int.lowest ≤ num.value.tmod 10 := by
    have hint : IntegerType.int.lowest = -2147483648 := rfl
    omega
  have hhigh : num.value.tmod 10 ≤ IntegerType.int.highest := by
    have hint : IntegerType.int.highest = 2147483647 := rfl
    omega
  rw [rem10, IntegerType.convert_eq_self hlow hhigh, habs]

/-- The table is mirrored: a remainder and its negative have one digit. -/
theorem LogStream.digitAt_eq {remainder : ℤ} (h : remainder.natAbs < 10) :
    digitAt remainder = some (UInt8.ofNat remainder.natAbs.digitChar.toNat) := by
  have hall : ∀ n < 10, digitAt (n : ℕ) = some (UInt8.ofNat n.digitChar.toNat) ∧
      digitAt (-(n : ℕ)) = some (UInt8.ofNat n.digitChar.toNat) := by
    decide
  obtain ⟨hpos, hneg⟩ := hall remainder.natAbs h
  rcases Int.natAbs_eq remainder with heq | heq
  · rw [← heq] at hpos
    exact hpos
  · rw [← heq] at hneg
    exact hneg

theorem CharArray.store_eq {array : CharArray size} {cur : ℕ} (h : cur < size) (c : UInt8) :
    ∃ array', array.store cur c = some array' ∧
      array'.bytes = array.bytes.take cur++c :: array.bytes.drop (cur+1) := by
  refine ⟨_, if_pos h, ?_⟩
  have hlength := array.length_bytes
  change array.bytes.set cur c = _
  rw [List.set_eq_take_append_cons_drop, if_pos (by omega)]

/-- The loop writes the digits from the last one to the first, and nothing else. -/
theorem LogStream.formatDigits_eq {fuel : ℕ} (num : MachineInteger t) (array : CharArray size)
    (cur : ℕ) (hfuel : num.value.natAbs < fuel)
    (hroom : cur+(decimal num.value.natAbs).length ≤ size) :
    ∃ array', formatDigits fuel num array cur =
        some (array', cur+(decimal num.value.natAbs).length) ∧
      array'.bytes = array.bytes.take cur++((decimal num.value.natAbs).reverse++
        array.bytes.drop (cur+(decimal num.value.natAbs).length)) := by
  -- each round takes the last digit off the absolute value, which stays below the fuel
  induction fuel generalizing num array cur with
  | zero => contradiction
  | succ fuel ih =>
    have hdecimal := decimal_eq num.value.natAbs
    have hnext := num.natAbs_div10
    have hdigit : digitAt num.rem10 =
        some (UInt8.ofNat (num.value.natAbs%10).digitChar.toNat) := by
      rw [digitAt_eq, num.rem10_natAbs]
      rw [num.rem10_natAbs]
      omega
    have hpos : 0 < (decimal num.value.natAbs).length :=
      List.length_pos_iff.mpr (decimal_ne_nil _)
    obtain ⟨array₁, hstore, hbytes⟩ := array.store_eq (by omega : cur < size)
      (UInt8.ofNat (num.value.natAbs%10).digitChar.toNat)
    rw [formatDigits, hdigit]
    simp only [Option.bind_eq_bind, Option.bind_some, hstore]
    by_cases hlast : num.value.natAbs/10 = 0
    · have hzero : ¬ num.div10.value ≠ 0 := by omega
      rw [if_pos hlast] at hdecimal
      rw [if_neg hzero, hdecimal]
      exact ⟨array₁, rfl, hbytes⟩
    · have hmore : num.div10.value ≠ 0 := by omega
      rw [if_neg hlast, ← hnext] at hdecimal
      have hlength : (decimal num.value.natAbs).length =
          (decimal num.div10.value.natAbs).length+1 := by
        rw [hdecimal, List.length_append, List.length_singleton]
      obtain ⟨array₂, hformat, hbytes₂⟩ := ih num.div10 array₁ (cur+1) (by omega)
        (by omega)
      have hfront : (array.bytes.take cur++
          [UInt8.ofNat (num.value.natAbs%10).digitChar.toNat]).length = cur+1 := by
        rw [List.length_append, List.length_take, array.length_bytes, List.length_singleton]
        omega
      have hsplit : array₁.bytes = array.bytes.take cur++
          [UInt8.ofNat (num.value.natAbs%10).digitChar.toNat]++array.bytes.drop (cur+1) := by
        rw [hbytes, List.append_assoc]
        rfl
      refine ⟨array₂, ?_, ?_⟩
      · rw [if_pos hmore, hformat, hlength, Nat.add_assoc, Nat.add_comm 1]
      · -- the digit that was stored first stands before those of the other rounds
        have htake : array₁.bytes.take (cur+1) = array.bytes.take cur++
            [UInt8.ofNat (num.value.natAbs%10).digitChar.toNat] := by
          rw [hsplit, List.take_left' hfront]
        have hdrop (k : ℕ) : array₁.bytes.drop (cur+1+k) = array.bytes.drop (cur+(k+1)) := by
          rw [← List.drop_drop, hsplit, List.drop_left' hfront, List.drop_drop, Nat.add_assoc,
            Nat.add_comm 1]
        rw [hbytes₂, htake, hdrop, hlength, hdecimal, List.reverse_append, List.append_assoc,
          List.append_assoc]
        rfl

/-- No value of any type has more than 20 digits. -/
theorem MachineInteger.length_decimal_le (num : MachineInteger t) :
    (decimal num.value.natAbs).length ≤ 20 := by
  have hlow := num.lowest_le
  have hhigh := num.le_highest
  have hbounds : -(2^64-1) ≤ t.lowest ∧ t.highest ≤ 2^64-1 := by
    cases t with
    | _ => decide
  refine JingjieAR.length_decimal_le ?_
  unfold sizeMax
  omega

/-- What stands before the end of what was written, once a byte more is written. -/
theorem CharArray.take_store {array array' : CharArray size} {cur : ℕ} {c : UInt8}
    (h : cur < size) (hstore : array.store cur c = some array') :
    array'.bytes.take (cur+1) = array.bytes.take cur++[c] := by
  obtain ⟨array₁, hstore₁, hbytes⟩ := array.store_eq h c
  rw [hstore] at hstore₁
  obtain rfl := Option.some.inj hstore₁
  have hlength : (array.bytes.take cur++[c]).length = cur+1 := by
    rw [List.length_append, List.length_take, array.length_bytes, List.length_singleton]
    omega
  rw [hbytes, List.append_cons, List.take_left' hlength]

/-- A store changes nothing before its place. -/
theorem CharArray.take_store_self {array array' : CharArray size} {cur : ℕ} {c : UInt8}
    (h : cur < size) (hstore : array.store cur c = some array') :
    array'.bytes.take cur = array.bytes.take cur := by
  have htake := congrArg (List.take cur) (take_store h hstore)
  have hlength : (array.bytes.take cur).length = cur := by
    rw [List.length_take, array.length_bytes]
    omega
  rwa [List.take_take, Nat.min_eq_left (Nat.le_succ cur), List.take_left' hlength] at htake

theorem CharArray.take_reverse {array : CharArray size} {front text : Bytes} {start cur : ℕ}
    (hstart : front.length = start) (hcur : start+text.length = cur) (h : cur ≤ size)
    (htake : array.bytes.take cur = front++text) :
    ∃ array', array.reverse start cur = some array' ∧
      array'.bytes.take cur = front++text.reverse := by
  refine ⟨_, dif_pos ⟨by omega, h⟩, ?_⟩
  have hfront : array.bytes.take start = front := by
    have hsmall : array.bytes.take start = (array.bytes.take cur).take start := by
      rw [List.take_take, Nat.min_eq_left (by omega)]
    rw [hsmall, htake, List.take_left' hstart]
  have hlength : (front++text.reverse).length = cur := by
    rw [List.length_append, List.length_reverse, hstart, hcur]
  change (array.bytes.take start++(((array.bytes.take cur).drop start).reverse++
    array.bytes.drop cur)).take cur = _
  rw [hfront, htake, List.drop_left' hstart, ← List.append_assoc, List.take_left' hlength]

theorem RawBuffer.length_toString (b : RawBuffer size) : b.toString.length = b.length := by
  rw [RawBuffer.toString, List.length_take, b.data.length_bytes, Nat.min_eq_left b.fits]

theorem RawBuffer.add_eq {b : RawBuffer size} {len : ℕ} (h : b.length+len ≤ size)
    (data : CharArray size) :
    ∃ b', b.add data len = some b' ∧ b'.toString = data.bytes.take (b.length+len) :=
  ⟨_, dif_pos h, rfl⟩

end Formatting

namespace LogStream

variable {size : ℕ} {t : IntegerType} {b : RawBuffer size} {num : MachineInteger t}

/-- The digits stand behind what the buffer holds, the last one first. -/
theorem take_formatDigits (num : MachineInteger t) (h : kMaxNumberSize ≤ b.avail) :
    ∃ array, formatDigits (num.value.natAbs+1) num b.data b.cur =
        some (array, b.length+(decimal num.value.natAbs).length) ∧
      array.bytes.take (b.length+(decimal num.value.natAbs).length) =
        b.toString++(decimal num.value.natAbs).reverse := by
  have hdigits := num.length_decimal_le
  unfold RawBuffer.avail kMaxNumberSize at h
  rw [b.cur_eq]
  obtain ⟨array, hformat, hbytes⟩ := formatDigits_eq num b.data b.length
    (Nat.lt_succ_self num.value.natAbs) (by omega)
  have hlength : (b.toString++(decimal num.value.natAbs).reverse).length =
      b.length+(decimal num.value.natAbs).length := by
    rw [List.length_append, List.length_reverse, b.length_toString]
  refine ⟨array, hformat, ?_⟩
  rw [hbytes, ← List.append_assoc]
  exact List.take_left' hlength

/-- With the sign, the text stands there from its end to its start. -/
theorem take_sign {array : CharArray size} (h : kMaxNumberSize ≤ b.avail)
    (htake : array.bytes.take (b.length+(decimal num.value.natAbs).length) =
      b.toString++(decimal num.value.natAbs).reverse) :
    ∃ array' : CharArray size,
      storeSign (num.value < 0) array (b.length+(decimal num.value.natAbs).length) =
        some (array', b.length+(integerText num.value).length) ∧
      array'.bytes.take (b.length+(integerText num.value).length) =
        b.toString++(integerText num.value).reverse := by
  have hdigits := num.length_decimal_le
  unfold RawBuffer.avail kMaxNumberSize at h
  have hroom : b.length+(decimal num.value.natAbs).length < size := by omega
  rw [integerText]
  by_cases hnegative : num.value < 0
  · obtain ⟨array', hstore, -⟩ := array.store_eq hroom 45
    have htake' := CharArray.take_store hroom hstore
    refine ⟨array', ?_, ?_⟩
    · rw [if_pos hnegative, storeSign, if_pos (decide_eq_true hnegative), hstore]
      rfl
    · rw [if_pos hnegative, List.length_cons, ← Nat.add_assoc, htake', htake, List.append_assoc,
        List.reverse_cons]
  · refine ⟨array, ?_, ?_⟩
    · rw [if_neg hnegative, storeSign, if_neg (fun h => hnegative (of_decide_eq_true h))]
    · rw [if_neg hnegative, htake]

theorem length_integerText_le (num : MachineInteger t) : (integerText num.value).length ≤ 21 := by
  have hdigits := num.length_decimal_le
  rw [integerText]
  split_ifs
  · rw [List.length_cons]
    omega
  · omega

/-- The formatting succeeds, and the buffer has the text of the number more. -/
theorem formatInteger_eq (num : MachineInteger t) (h : kMaxNumberSize ≤ b.avail) :
    ∃ b', formatInteger b num = some b' ∧
      b'.toString = b.toString++integerText num.value := by
  have htext := length_integerText_le num
  have hroom : b.length+(integerText num.value).length < size := by
    unfold RawBuffer.avail kMaxNumberSize at h
    omega
  obtain ⟨array₁, hformat, htake₁⟩ := take_formatDigits num h
  obtain ⟨array₂, hsign, htake₂⟩ := take_sign h htake₁
  -- the NUL behind the text is within the room, and is not part of what is reversed
  obtain ⟨array₃, hstore, -⟩ := array₂.store_eq hroom 0
  have htake₃ := (CharArray.take_store_self hroom hstore).trans htake₂
  have hlength : b.length+(integerText num.value).reverse.length =
      b.length+(integerText num.value).length := by
    rw [List.length_reverse]
  obtain ⟨array₄, hreverse, htake₄⟩ :=
    CharArray.take_reverse b.length_toString hlength (Nat.le_of_lt hroom) htake₃
  obtain ⟨b', hadd, hstring⟩ := RawBuffer.add_eq (Nat.le_of_lt hroom) array₄
  refine ⟨b', ?_, ?_⟩
  · rw [b.cur_eq] at hformat
    rw [formatInteger, if_pos h, b.cur_eq]
    simp only [Option.bind_eq_bind, hformat, Option.bind_some, hsign, hstore, hreverse,
      Nat.add_sub_cancel_left]
    exact hadd
  · rw [hstring, htake₄, List.reverse_reverse]

/-- What `formatInteger` appends, for every value of every type. No store and no access of the table
is out of bounds: these would have no result. -/
theorem formatInteger_canonical (b : RawBuffer size) (num : MachineInteger t)
    (h : kMaxNumberSize ≤ b.avail) :
    ∃ b' text, formatInteger b num = some b' ∧ b'.toString = b.toString++text ∧
      Canonical text num.value ∧ text.length < kMaxNumberSize := by
  obtain ⟨b', hformat, hstring⟩ := formatInteger_eq num h
  have hlength := length_integerText_le num
  refine ⟨b', integerText num.value, hformat, hstring, canonical_integerText num.value, ?_⟩
  unfold kMaxNumberSize
  omega

theorem formatInteger_canonical_lowest :
    ∃ b' text, formatInteger (.fresh ⟨List.replicate 4000 0, List.length_replicate⟩ : Buffer)
        (⟨-2^63, by decide, by decide⟩ : MachineInteger .longLong) = some b' ∧
      b'.toString = []++text ∧ Canonical text (-2^63) ∧ text.length < kMaxNumberSize :=
  formatInteger_canonical (.fresh ⟨List.replicate 4000 0, List.length_replicate⟩)
    ⟨-2^63, by decide, by decide⟩ (by decide)

end LogStream

section Streams

variable {size : ℕ}

/-- The buffer, by what has been written to it. -/
def RawBuffer.toFixed (b : RawBuffer size) : FixedBuffer size where
  data := b.toString
  fits := by
    have hlength := b.data.length_bytes
    rw [RawBuffer.toString, List.length_take]
    omega

theorem RawBuffer.avail_toFixed (b : RawBuffer size) : b.toFixed.avail = b.avail := by
  change size-b.toString.length = size-b.length
  rw [b.length_toString]

theorem FixedBuffer.eq_of_data {b b' : FixedBuffer size} (h : b.data = b'.data) : b = b' := by
  cases b with
  | mk data fits =>
    cases b' with
    | mk data' fits' =>
      obtain rfl : data = data' := h
      rfl

/-- The buffer after something that had room was written to it. -/
theorem RawBuffer.toFixed_append {b b' : RawBuffer size} {text : Bytes}
    (hroom : text.length < b.avail) (hstring : b'.toString = b.toString++text) :
    b'.toFixed = b.toFixed.append text := by
  have hfixed : text.length < b.toFixed.avail := by
    rw [b.avail_toFixed]
    exact hroom
  refine FixedBuffer.eq_of_data ?_
  rw [FixedBuffer.data_append hfixed]
  exact hstring

theorem RawBuffer.append_refines (b : RawBuffer size) (text : Bytes) :
    ∃ b', b.append text = some b' ∧ b'.toFixed = b.toFixed.append text := by
  by_cases hroom : text.length < b.avail
  · have hfits : b.length+text.length ≤ size := by
      unfold RawBuffer.avail at hroom
      omega
    have hcopy : b.data.copy b.length text = some _ := dif_pos hfits
    obtain ⟨b', hadd, hstring⟩ := RawBuffer.add_eq hfits _
    refine ⟨b', ?_, ?_⟩
    · rw [RawBuffer.append, if_pos hroom, b.cur_eq, hcopy]
      exact hadd
    · refine RawBuffer.toFixed_append hroom ?_
      have hlength : (b.data.bytes.take b.length++text).length = b.length+text.length := by
        rw [List.length_append]
        exact congrArg (·+text.length) b.length_toString
      rw [hstring]
      change (b.data.bytes.take b.length++(text++_)).take (b.length+text.length) = _
      rw [← List.append_assoc, List.take_left' hlength]
      rfl
  · refine ⟨b, if_neg hroom, ?_⟩
    have hfixed : ¬ text.length < b.toFixed.avail := by
      rw [b.avail_toFixed]
      exact hroom
    rw [FixedBuffer.append, dif_neg hfixed]

/-- `operator<<` on what has been written. -/
def FixedBuffer.put (b : FixedBuffer size) : LogStream.Item → FixedBuffer size
  | .text value => b.append value
  | .boolean value => b.append (if value then ascii "true" else ascii "false")
  | .integer _ num =>
    if LogStream.kMaxNumberSize ≤ b.avail then b.append (integerText num.value) else b

theorem LogStream.put_refines (b : RawBuffer size) (item : Item) :
    ∃ b', put b item = some b' ∧ b'.toFixed = b.toFixed.put item := by
  cases item with
  | text value => exact b.append_refines value
  | boolean value => exact b.append_refines _
  | integer t num =>
    rw [FixedBuffer.put, b.avail_toFixed]
    by_cases hroom : kMaxNumberSize ≤ b.avail
    · obtain ⟨b', hformat, hstring⟩ := formatInteger_eq num hroom
      have hlength := length_integerText_le num
      have hlt : (integerText num.value).length < b.avail := by
        unfold kMaxNumberSize at hroom
        omega
      refine ⟨b', hformat, ?_⟩
      rw [if_pos hroom]
      exact RawBuffer.toFixed_append hlt hstring
    · rw [if_neg hroom]
      exact ⟨b, if_neg hroom, rfl⟩

/-- A stream never leaves its buffer, whatever is put into it, and the buffer holds what was
appended. -/
theorem LogStream.putAll_refines (b : RawBuffer size) (items : List Item) :
    ∃ b', putAll b items = some b' ∧ b'.toFixed = items.foldl FixedBuffer.put b.toFixed := by
  induction items generalizing b with
  | nil => exact ⟨b, rfl, rfl⟩
  | cons item items ih =>
    obtain ⟨b₁, hput, hfixed⟩ := put_refines b item
    obtain ⟨b', hputAll, hall⟩ := ih b₁
    refine ⟨b', ?_, ?_⟩
    · rw [putAll, List.foldlM_cons, hput]
      exact hputAll
    · rw [hall, hfixed, List.foldl_cons]

end Streams

end JingjieAR
