import JingjieAR.HttpContextRoundTrip
import JingjieAR.MiddlewarePairing

/-! How many bytes follow the header block of a response, and what its `Content-Length`
says about them. Only three things about a response matter for that: they are its
framing, and the rest of the module says how the parts of the server change it. -/
namespace JingjieAR

open HttpResponse (decimal)

/-- What a response has that bears on its length. -/
structure Framing where
  -- the header `Content-Length` that it has been given, if any
  lengthHeader : Option Bytes
  -- the number of bytes of its file, if it has one
  file : Option ℕ
  body : ℕ
deriving DecidableEq

namespace Framing

/-- The number of bytes of the file or of the body that are queued behind the headers. -/
def queued (f : Framing) : ℕ := f.file.getD f.body

/-- The value of `Content-Length` in the header block. -/
def lengthText (f : Framing) : Bytes := f.lengthHeader.getD (decimal f.queued)

/-- As many bytes follow as the header says, and none follow for `HEAD`. -/
def Framed (f : Framing) (method : Method) : Prop :=
  if method = .kHead then f.queued = 0 else Decimal f.lengthText f.queued

end Framing

namespace HttpResponse

def framing (r : HttpResponse) : Framing where
  lengthHeader := r.headers.find (ascii "Content-Length")
  file := if r.hasFile then some r.fileCount else none
  body := r.body.length

end HttpResponse

theorem toNat_ascii_digit {c : Char} (h : c.isDigit = true) :
    (UInt8.ofNat c.toNat).toNat = c.toNat ∧ 48 ≤ c.toNat ∧ c.toNat ≤ 57 := by
  have hc : 48 ≤ c.toNat ∧ c.toNat ≤ 57 := by
    simp only [Char.isDigit, Bool.and_eq_true, decide_eq_true_eq, UInt32.le_iff_toNat_le] at h
    exact h
  refine ⟨?_, hc.1, hc.2⟩
  rw [UInt8.toNat_ofNat']
  omega

theorem decimalValue_digits {cs : List Char} (h : ∀ c ∈ cs, c.isDigit = true) (start : ℕ) :
    decimalValue (cs.map (fun c => UInt8.ofNat c.toNat)) start = Nat.ofDigitChars 10 cs start := by
  induction cs generalizing start with
  | nil => rfl
  | cons c cs ih =>
    have hc := (toNat_ascii_digit (h c List.mem_cons_self)).1
    have hcs := ih (fun d hd => h d (List.mem_cons_of_mem _ hd))
      (start*10+((UInt8.ofNat c.toNat).toNat-48))
    rw [List.map_cons, decimalValue, List.foldl_cons, ← decimalValue, hcs,
      Nat.ofDigitChars_cons, hc, Nat.mul_comm start 10]
    rfl

theorem ascii_toString (n : ℕ) :
    decimal n = (Nat.toDigits 10 n).map (fun c => UInt8.ofNat c.toNat) := by
  rw [decimal, ascii, Nat.toString_eq_ofList_toDigits, String.toList_ofList]

theorem head_toDigits {n : ℕ} (h : 0 < n) : (Nat.toDigits 10 n).head? ≠ some '0' := by
  induction n using Nat.strong_induction_on with
  | h n ih =>
    by_cases hsmall : n < 10
    · rw [Nat.toDigits_of_lt_base hsmall]
      have hdigit : ∀ n < 10, 0 < n → some n.digitChar ≠ some '0' := by decide
      exact hdigit n hsmall h
    · have hdiv : 0 < n/10 := Nat.div_pos (not_lt.mp hsmall) (by decide)
      have hhead := ih (n/10) (Nat.div_lt_self h (by decide)) hdiv
      rw [Nat.toDigits_of_base_le (by decide) (not_lt.mp hsmall),
        List.head?_append_of_ne_nil _ Nat.toDigits_ne_nil]
      exact hhead

/-- The text that is written for a length denotes it. -/
theorem decimal_decimal (n : ℕ) : Decimal (decimal n) n := by
  have hdigits : ∀ c ∈ Nat.toDigits 10 n, c.isDigit = true :=
    fun c hc => Nat.isDigit_of_mem_toDigits (by omega) (by omega) hc
  rw [ascii_toString]
  refine ⟨?_, ?_, ?_⟩
  · exact List.map_eq_nil_iff.not.mpr Nat.toDigits_ne_nil
  · intro c hc
    obtain ⟨d, hd, rfl⟩ := List.mem_map.mp hc
    obtain ⟨hnat, hlow, hhigh⟩ := toNat_ascii_digit (hdigits d hd)
    rw [isDigit, Bool.and_eq_true, decide_eq_true_eq, decide_eq_true_eq]
    rw [UInt8.le_iff_toNat_le, UInt8.le_iff_toNat_le, hnat]
    exact ⟨hlow, hhigh⟩
  · rw [decimalValue_digits hdigits, Nat.ofDigitChars_ten_toDigits]

/-- Only the number zero is written with a zero in front. -/
theorem eq_zero_of_head_decimal {n : ℕ} (hhead : (decimal n).head? = some 48) : n = 0 := by
  rcases Nat.eq_zero_or_pos n with hzero | hpos
  · exact hzero
  · rw [ascii_toString, List.head?_map] at hhead
    obtain ⟨c, hc, hcode⟩ := Option.map_eq_some_iff.mp hhead
    have hdigit := Nat.isDigit_of_mem_toDigits (by decide) (by decide) (List.mem_of_head? hc)
    have hnat := (toNat_ascii_digit hdigit).1
    rw [hcode] at hnat
    have hchar : c = '0' := Char.ext (UInt32.toNat_inj.mp hnat.symm)
    exact absurd (hchar ▸ hc) (head_toDigits hpos)

theorem Decimal.unique {text : Bytes} {m n : ℕ} (h : Decimal text m) (h' : Decimal text n) :
    m = n := h.value.symm.trans h'.value

theorem length_decimal_le {n : ℕ} (h : n ≤ sizeMax) : (decimal n).length ≤ 20 := by
  rw [ascii_toString, List.length_map, Nat.length_toDigits_le_iff (by omega) (by omega)]
  unfold sizeMax at h
  omega

namespace HttpResponse

theorem framing_addHeader {key : Bytes} (h : key ≠ ascii "Content-Length") (r : HttpResponse)
    (value : Bytes) : (r.addHeader key value).framing = r.framing := by
  have hfind : (r.addHeader key value).headers.find (ascii "Content-Length") =
      r.headers.find (ascii "Content-Length") := OrderedMap.find_insert_of_ne _ h value
  exact congrArg (fun header => (⟨header, r.framing.file, r.framing.body⟩ : Framing)) hfind

theorem framing_setContentType (r : HttpResponse) (contentType : Bytes) :
    (r.setContentType contentType).framing = r.framing := framing_addHeader (by decide) r _

/-- The body of an internal error replaces the old one; a length and a file stay. -/
theorem framing_setInternalError (r : HttpResponse) :
    r.setInternalError.framing = { r.framing with body := 33 } := by
  have hheaders := congrArg Framing.lengthHeader
    (r.framing_setContentType (ascii "application/json"))
  exact congrArg (fun header => (⟨header, r.framing.file, 33⟩ : Framing)) hheaders

end HttpResponse

namespace Framing

/-- A missing header is written at the end, and then it is right. -/
theorem framed_iff (f : Framing) (method : Method) :
    f.Framed method ↔
      if method = .kHead then f.queued = 0 else ∀ text ∈ f.lengthHeader, Decimal text f.queued := by
  rw [Framed, lengthText]
  split_ifs
  · rfl
  · cases f.lengthHeader with
    | none => simp [decimal_decimal]
    | some text => simp

/-- The condition on a response that is given to `sendResponse`: the page that replaces a
file that cannot be opened has a body, and nothing else is changed. -/
def Sound (f : Framing) (method : Method) (opened : Option OpenFile) : Prop :=
  if f.file.isSome ∧ opened = none then method ≠ .kHead
  else if method = .kHead then f.queued = 0
  else ∀ text ∈ f.lengthHeader, Decimal text f.queued

/-- The condition on a response that has been left when an exception was thrown. -/
def SoundThrown (f : Framing) (method : Method) (opened : Option OpenFile) : Prop :=
  match f.file with
  | none => method ≠ .kHead ∧ ∀ text ∈ f.lengthHeader, Decimal text 33
  | some count =>
    if opened = none then method ≠ .kHead
    else if method = .kHead then count = 0
    else ∀ text ∈ f.lengthHeader, Decimal text count

theorem sound_thrown_iff (f : Framing) (method : Method) (opened : Option OpenFile) :
    ({ f with body := 33 } : Framing).Sound method opened ↔ f.SoundThrown method opened := by
  obtain ⟨lengthHeader, file, body⟩ := f
  cases file with
  | none =>
    simp only [Sound, SoundThrown, queued, Option.isSome_none, Bool.false_eq_true, false_and,
      if_false, Option.getD_none]
    by_cases hm : method = .kHead
    · simp [hm]
    · simp [hm]
  | some count => simp [Sound, SoundThrown, queued]

end Framing

/-- The page that says that a file is not there has a body. -/
theorem framing_errorPage (close : Bool) :
    ∃ n, 0 < n ∧
      (HttpResponse.makeErrorResponse .k404NotFound close []).framing = ⟨none, none, n⟩ := by
  refine ⟨(HttpResponse.makeErrorResponse .k404NotFound close []).body.length, ?_, rfl⟩
  have hstart : (ascii "<html><head><title>").length = 19 := rfl
  simp only [HttpResponse.makeErrorResponse, List.length_append, hstart]
  omega

theorem framed_finalResponse_iff (r : HttpResponse) (method : Method) (opened : Option OpenFile) :
    (finalResponse r opened).framing.Framed method ↔ r.framing.Sound method opened := by
  have hfile : r.framing.file.isSome = r.hasFile := by
    by_cases hf : r.hasFile
    · simp [HttpResponse.framing, hf]
    · simp [HttpResponse.framing, hf]
  rw [finalResponse, Framing.Sound, hfile]
  by_cases hmissing : r.hasFile = true ∧ opened = none
  · -- The page that replaces the file has no length of its own, but it has a body.
    obtain ⟨n, hn, hpage⟩ := framing_errorPage r.closeConnection
    rw [if_pos hmissing, if_pos hmissing, hpage, Framing.framed_iff]
    have hqueued : Framing.queued ⟨none, none, n⟩ ≠ 0 := Nat.pos_iff_ne_zero.mp hn
    simp [hqueued]
  · rw [if_neg hmissing, if_neg hmissing, Framing.framed_iff]

end JingjieAR
