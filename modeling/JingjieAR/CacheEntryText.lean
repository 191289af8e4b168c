import JingjieAR.ResponseFraming
import JingjieAR.TwoLevelCacheModel
import Mathlib.Data.List.TakeWhile

/-! The text under which an entry of the cache goes to Redis. It is read back as the entry that
was written unless the content type has a bar in it, which would be taken for the end of it. -/
namespace JingjieAR

open HttpResponse (decimal)

section Numbers

variable {text : Bytes} {n : ℕ}

theorem toNat_digit {c : UInt8} (h : isDigit c = true) : 48 ≤ c.toNat ∧ c.toNat ≤ 57 := by
  simp only [isDigit, Bool.and_eq_true, decide_eq_true_eq, UInt8.le_iff_toNat_le] at h
  exact h

theorem bar_notMem_digits (h : ∀ c ∈ text, isDigit c = true) : bar ∉ text :=
  notMem_of_digits (by decide) h

/-- What a number starts with is no blank and no sign. -/
theorem digit_cases {c : UInt8} (h : isDigit c = true) :
    (decide (c = 32) || (decide (9 ≤ c) && decide (c ≤ 13))) = false ∧ c ≠ 45 ∧ c ≠ 43 := by
  have hc := toNat_digit h
  refine ⟨?_, ?_, ?_⟩
  · have hblank : c ≠ 32 := by
      rintro rfl
      simp at hc
    have hlow : ¬c ≤ 13 := by
      rw [UInt8.le_iff_toNat_le]
      have hvalue : (13 : UInt8).toNat = 13 := rfl
      omega
    simp [hblank, hlow]
  · rintro rfl
    simp at hc
  · rintro rfl
    simp at hc

/-- Digits that are read without a sign in front. -/
theorem digits_read (h : Decimal text n) (negative : Bool) :
    (if text.takeWhile isDigit = [] then none
      else some (negative,
        (text.takeWhile isDigit).foldl (fun value c => value*10+(c.toNat-48)) 0)) =
      some (negative, n) := by
  have hall : text.takeWhile isDigit = text := by
    rw [List.takeWhile_eq_self_iff]
    exact h.digits
  rw [hall, if_neg h.ne_nil]
  exact congrArg (fun value => some (negative, value)) h.value

theorem signedDigits_decimal (h : Decimal text n) : signedDigits text = some (false, n) := by
  obtain ⟨c, rest, rfl⟩ := List.exists_cons_of_ne_nil h.ne_nil
  obtain ⟨hblank, hminus, hplus⟩ := digit_cases (h.digits c List.mem_cons_self)
  have hread := digits_read h false
  unfold signedDigits
  rw [List.dropWhile_cons_of_neg (by simpa using hblank)]
  simpa [hminus, hplus] using hread

theorem signedDigits_minus (h : Decimal text n) : signedDigits (45 :: text) = some (true, n) := by
  have hread := digits_read h true
  unfold signedDigits
  rw [List.dropWhile_cons_of_neg (by decide)]
  simpa using hread

end Numbers

theorem signedDecimal_ofNat (n : ℕ) : signedDecimal n = decimal n := rfl

theorem signedDecimal_negSucc (n : ℕ) : signedDecimal (Int.negSucc n) = 45 :: decimal (n+1) := by
  unfold signedDecimal decimal ascii
  rw [Int.toString_eq_repr, Int.repr_eq_if]
  simp

/-- The text of a number is read back as far as it fits. -/
theorem stoll_signedDecimal (n : ℤ) :
    stoll (signedDecimal n) = if -2^63 ≤ n ∧ n < 2^63 then .ok n else .error .outOfRange := by
  unfold stoll
  cases n with
  | ofNat n =>
    rw [Int.ofNat_eq_natCast, signedDecimal_ofNat, signedDigits_decimal (decimal_decimal n)]
    rfl
  | negSucc n =>
    rw [signedDecimal_negSucc, signedDigits_minus (decimal_decimal (n+1))]
    rfl

theorem stoull_decimal (n : ℕ) :
    stoull (decimal n) = if n < 2^64 then .ok n else .error .outOfRange := by
  unfold stoull
  rw [signedDigits_decimal (decimal_decimal n)]
  rfl

theorem bar_notMem_signedDecimal (n : ℤ) : bar ∉ signedDecimal n := by
  cases n with
  | ofNat n => exact bar_notMem_digits (decimal_decimal n).digits
  | negSucc n =>
    rw [signedDecimal_negSucc, List.mem_cons, not_or]
    exact ⟨by decide, bar_notMem_digits (decimal_decimal (n+1)).digits⟩

theorem cutAtBar_append {before : Bytes} (h : bar ∉ before) (after : Bytes) :
    cutAtBar (before++bar :: after) = some (before, after) := by
  unfold cutAtBar
  rw [findByte_append_cons after h, Option.map_some, List.take_left, ← List.drop_drop,
    List.drop_left]
  rfl

namespace TwoLevelCache

/-- The fields fit their types, and the content type has no bar. -/
structure Decodes (e : CachedFileEntry) : Prop where
  contentType : bar ∉ e.contentType
  lastModified : -2^63 ≤ e.lastModified ∧ e.lastModified < 2^63
  fileSize : e.fileSize < 2^64

theorem serialize_eq (e : CachedFileEntry) : serialize e =
    e.contentType++bar :: (signedDecimal e.lastModified++bar :: (decimal e.fileSize++
      bar :: e.content)) := by
  simp [serialize, List.append_assoc]

theorem serialize_ne_nil (e : CachedFileEntry) : serialize e ≠ [] := by
  rw [serialize_eq]
  simp

theorem deserialize_serialize {e : CachedFileEntry} (h : bar ∉ e.contentType) :
    deserialize (serialize e) = (do
      let lastModified ← stoll (signedDecimal e.lastModified)
      let fileSize ← stoull (decimal e.fileSize)
      .ok (some ⟨e.content, e.contentType, lastModified, fileSize⟩)) := by
  have hsize : bar ∉ decimal e.fileSize := bar_notMem_digits (decimal_decimal e.fileSize).digits
  rw [serialize_eq]
  simp only [deserialize, cutAtBar_append h, cutAtBar_append (bar_notMem_signedDecimal _),
    cutAtBar_append hsize]

/-- What is read stands before the first bar. -/
theorem contentType_of_deserialize {data : Bytes} {e : CachedFileEntry}
    (hd : deserialize data = .ok (some e)) : ∃ rest, cutAtBar data = some (e.contentType, rest) := by
  unfold deserialize at hd
  split at hd
  · simp at hd
  · next contentType rest hcut =>
    refine ⟨rest, ?_⟩
    split at hd
    · simp at hd
    · next lastModified rest' _ =>
      split at hd
      · simp at hd
      · next fileSize content _ =>
        -- a number that is not read is an exception
        cases hmodified : stoll lastModified with
        | error x => simp [hmodified, bind, Except.bind] at hd
        | ok modified =>
          cases hsize : stoull fileSize with
          | error x => simp [hmodified, hsize, bind, Except.bind] at hd
          | ok size =>
            simp only [hmodified, hsize, bind, Except.bind, Except.ok.injEq, Option.some.injEq] at hd
            rw [← hd]
            exact hcut

/-- A bar in the content type cuts it short. -/
theorem deserialize_barred {e e' : CachedFileEntry} (h : bar ∈ e.contentType)
    (hd : deserialize (serialize e) = .ok (some e')) : e'.contentType ≠ e.contentType := by
  obtain ⟨before, after, hsplit, hnot⟩ := List.eq_append_cons_of_mem h
  have hcut : cutAtBar (serialize e) = some (before, after++bar :: (signedDecimal e.lastModified++
      bar :: (decimal e.fileSize++bar :: e.content))) := by
    rw [serialize_eq, hsplit, List.append_assoc, List.cons_append, cutAtBar_append hnot]
  have hshort : e'.contentType = before := by
    obtain ⟨rest, hrest⟩ := contentType_of_deserialize hd
    rw [hcut] at hrest
    exact (congrArg Prod.fst (Option.some.inj hrest)).symm
  intro heq
  have hlength := congrArg List.length (hshort.symm.trans (heq.trans hsplit))
  rw [List.length_append, List.length_cons] at hlength
  omega

theorem deserialize_serialize_iff (e : CachedFileEntry) :
    deserialize (serialize e) = .ok (some e) ↔ Decodes e := by
  constructor
  · intro hd
    have hnot : bar ∉ e.contentType := fun h => deserialize_barred h hd rfl
    rw [deserialize_serialize hnot, stoll_signedDecimal, stoull_decimal] at hd
    refine ⟨hnot, ?_, ?_⟩
    · by_contra hmodified
      rw [if_neg hmodified] at hd
      simp [bind, Except.bind] at hd
    · by_contra hsize
      rw [if_neg hsize] at hd
      split_ifs at hd <;> simp [bind, Except.bind] at hd
  · rintro ⟨hnot, hmodified, hsize⟩
    rw [deserialize_serialize hnot, stoll_signedDecimal, stoull_decimal, if_pos hmodified,
      if_pos hsize]
    rfl

end TwoLevelCache

end JingjieAR
