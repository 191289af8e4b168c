import JingjieAR.HttpRequestModel
import JingjieAR.LoopSemantics

/-! The check of a comment's text: `nextCodePoint`, `unicodeWhitespace` and
`validNonBlankUtf8`. The texts that pass are the encodings of some characters that are not
all blank. -/
namespace JingjieAR

open Loop (Iter)

namespace ArtworkInteractionService

/-- What `nextCodePoint` comes to; `overrun` is a read behind the end of the text. -/
inductive Decoded
  | overrun
  | malformed
  | codePoint (value position : ℕ)
deriving DecidableEq

/-- The bytes after the lead byte. -/
def continuations (text : Bytes) : ℕ → ℕ → ℕ → Decoded
  | 0, position, value => .codePoint value position
  | count+1, position, value =>
    match text[position]? with
    | none => .overrun
    | some byte =>
      if byte &&& 0xc0 ≠ 0x80 then .malformed
      else continuations text count (position+1) (value <<< 6 ||| (byte &&& 0x3f).toNat)

/-- The count of the bytes that follow, the first bits of the value, and the least value that
needs so many bytes. -/
def leadByte (lead : UInt8) : Option (ℕ × ℕ × ℕ) :=
  if lead ≥ 0xc2 && lead ≤ 0xdf then some (1, (lead &&& 0x1f).toNat, 0x80)
  else if lead ≥ 0xe0 && lead ≤ 0xef then some (2, (lead &&& 0x0f).toNat, 0x800)
  else if lead ≥ 0xf0 && lead ≤ 0xf4 then some (3, (lead &&& 0x07).toNat, 0x10000)
  else none

def nextCodePoint (text : Bytes) (position : ℕ) : Decoded :=
  match text[position]? with
  | none => .overrun
  | some lead =>
    if lead ≤ 0x7f then .codePoint lead.toNat (position+1)
    else
      match leadByte lead with
      | none => .malformed
      | some (continuationCount, value, minimum) =>
        if text.length-(position+1) < continuationCount then .malformed
        else
          match continuations text continuationCount (position+1) value with
          | .codePoint value position =>
            if value < minimum || value > 0x10ffff || (value ≥ 0xd800 && value ≤ 0xdfff) then
              .malformed
            else .codePoint value position
          | failed => failed

def unicodeWhitespace (codePoint : ℕ) : Bool :=
  (codePoint ≥ 0x0009 && codePoint ≤ 0x000d) ||
    codePoint = 0x0020 || codePoint = 0x0085 || codePoint = 0x00a0 ||
    codePoint = 0x1680 || (codePoint ≥ 0x2000 && codePoint ≤ 0x200a) ||
    codePoint = 0x2028 || codePoint = 0x2029 || codePoint = 0x202f ||
    codePoint = 0x205f || codePoint = 0x3000

/-- A round of the loop, with `position` and `hasContent`; it leaves without an answer when it
has read behind the end. -/
def validRound (content : Bytes) (s : ℕ × Bool) : Iter (ℕ × Bool) (Option Bool) :=
  if s.1 < content.length then
    match nextCodePoint content s.1 with
    | .overrun => .ret none
    | .malformed => .ret (some false)
    | .codePoint value position => .next (position, s.2 || !unicodeWhitespace value)
  else .ret (some s.2)

/-- The bits of a byte below a mask. -/
theorem toNat_and_mask (b : UInt8) (mask : UInt8) (k : ℕ) (hmask : mask.toNat = 2^k-1) :
    (b &&& mask).toNat = b.toNat%2^k := by
  rw [UInt8.toNat_and, hmask, Nat.and_two_pow_sub_one_eq_mod]

theorem continuation_range {b : UInt8} (h : b &&& 0xc0 = 0x80) :
    128 ≤ b.toNat ∧ b.toNat < 192 := by
  have hall : ∀ n < 256, n &&& 0xc0 = 0x80 → 128 ≤ n ∧ n < 192 := by decide +kernel
  apply hall b.toNat b.toNat_lt
  simpa using congrArg UInt8.toNat h

theorem shift_or_eq (value : ℕ) (b : UInt8) :
    value <<< 6 ||| (b &&& 0x3f).toNat = value*64+b.toNat%64 := by
  rw [toNat_and_mask b 0x3f 6 rfl, ← Nat.shiftLeft_add_eq_or_of_lt (Nat.mod_lt _ (by decide)),
    Nat.shiftLeft_eq]

/-- One more byte of a code point. -/
theorem continuations_succ {text : Bytes} {count position value v position' : ℕ}
    (h : continuations text (count+1) position value = .codePoint v position') :
    ∃ byte, text.drop position = byte :: text.drop (position+1) ∧
      128 ≤ byte.toNat ∧ byte.toNat < 192 ∧
      continuations text count (position+1) (value*64+byte.toNat%64) = .codePoint v position' := by
  simp only [continuations] at h
  split at h
  · simp at h
  · rename_i byte hbyte
    split at h
    · simp at h
    · rename_i hcont
      obtain ⟨hlo, hhi⟩ := continuation_range (by simpa using hcont)
      rw [shift_or_eq] at h
      obtain ⟨hlt, rfl⟩ := List.getElem?_eq_some_iff.mp hbyte
      exact ⟨_, List.drop_eq_getElem_cons hlt, hlo, hhi, h⟩

theorem continuations_zero {text : Bytes} {position value v position' : ℕ}
    (h : continuations text 0 position value = .codePoint v position') :
    v = value ∧ position' = position := by
  obtain ⟨hv, hp⟩ := by simpa [continuations] using h
  exact ⟨hv.symm, hp.symm⟩

/-- The scalar values, as `nextCodePoint` tests for them. -/
theorem exists_char {v : ℕ} (h : v ≤ 0x10ffff) (hsurrogate : ¬(0xd800 ≤ v ∧ v ≤ 0xdfff)) :
    ∃ c : Char, c.val.toNat = v := by
  have hvalid : v.isValidChar := by
    simp only [Nat.isValidChar]
    omega
  exact ⟨Char.ofNatAux v hvalid, rfl⟩

theorem ofNat_eq {n : ℕ} {b : UInt8} (h : n = b.toNat) : UInt8.ofNat n = b := by
  rw [h, UInt8.ofNat_toNat]

/-- The encodings of one, two, three and four bytes. -/
theorem encode_one {c : Char} {b : UInt8} (hb : b.toNat ≤ 0x7f) (hc : c.val.toNat = b.toNat) :
    String.utf8EncodeChar c = [b] := by
  simp only [String.utf8EncodeChar, hc, if_pos hb]
  rw [ofNat_eq rfl]

theorem encode_two {c : Char} {b₀ b₁ : UInt8} (h₀ : 194 ≤ b₀.toNat ∧ b₀.toNat ≤ 223)
    (h₁ : 128 ≤ b₁.toNat ∧ b₁.toNat < 192)
    (hc : c.val.toNat = b₀.toNat%32*64+b₁.toNat%64) : String.utf8EncodeChar c = [b₀, b₁] := by
  have hlo : ¬c.val.toNat ≤ 0x7f := by omega
  have hhi : c.val.toNat ≤ 0x7ff := by omega
  simp only [String.utf8EncodeChar, if_neg hlo, if_pos hhi]
  rw [ofNat_eq (b := b₀) (by omega), ofNat_eq (b := b₁) (by omega)]

theorem encode_three {c : Char} {b₀ b₁ b₂ : UInt8} (h₀ : 224 ≤ b₀.toNat ∧ b₀.toNat ≤ 239)
    (h₁ : 128 ≤ b₁.toNat ∧ b₁.toNat < 192) (h₂ : 128 ≤ b₂.toNat ∧ b₂.toNat < 192)
    (hc : c.val.toNat = (b₀.toNat%16*64+b₁.toNat%64)*64+b₂.toNat%64)
    (hmin : 0x800 ≤ c.val.toNat) : String.utf8EncodeChar c = [b₀, b₁, b₂] := by
  have hlo : ¬c.val.toNat ≤ 0x7f := by omega
  have hmid : ¬c.val.toNat ≤ 0x7ff := by omega
  have hhi : c.val.toNat ≤ 0xffff := by omega
  simp only [String.utf8EncodeChar, if_neg hlo, if_neg hmid, if_pos hhi]
  rw [ofNat_eq (b := b₀) (by omega), ofNat_eq (b := b₁) (by omega), ofNat_eq (b := b₂) (by omega)]

theorem encode_four {c : Char} {b₀ b₁ b₂ b₃ : UInt8} (h₀ : 240 ≤ b₀.toNat ∧ b₀.toNat ≤ 244)
    (h₁ : 128 ≤ b₁.toNat ∧ b₁.toNat < 192) (h₂ : 128 ≤ b₂.toNat ∧ b₂.toNat < 192)
    (h₃ : 128 ≤ b₃.toNat ∧ b₃.toNat < 192)
    (hc : c.val.toNat = ((b₀.toNat%8*64+b₁.toNat%64)*64+b₂.toNat%64)*64+b₃.toNat%64)
    (hmin : 0x10000 ≤ c.val.toNat) : String.utf8EncodeChar c = [b₀, b₁, b₂, b₃] := by
  have hlo : ¬c.val.toNat ≤ 0x7f := by omega
  have hmid : ¬c.val.toNat ≤ 0x7ff := by omega
  have hhi : ¬c.val.toNat ≤ 0xffff := by omega
  simp only [String.utf8EncodeChar, if_neg hlo, if_neg hmid, if_neg hhi]
  rw [ofNat_eq (b := b₀) (by omega), ofNat_eq (b := b₁) (by omega), ofNat_eq (b := b₂) (by omega),
    ofNat_eq (b := b₃) (by omega)]

/-- The lead bytes of two, three and four bytes. -/
theorem leadByte_cases {lead : UInt8} {count value minimum : ℕ}
    (h : leadByte lead = some (count, value, minimum)) :
    (194 ≤ lead.toNat ∧ lead.toNat ≤ 223 ∧
        count = 1 ∧ value = lead.toNat%32 ∧ minimum = 0x80) ∨
      (224 ≤ lead.toNat ∧ lead.toNat ≤ 239 ∧
        count = 2 ∧ value = lead.toNat%16 ∧ minimum = 0x800) ∨
      (240 ≤ lead.toNat ∧ lead.toNat ≤ 244 ∧
        count = 3 ∧ value = lead.toNat%8 ∧ minimum = 0x10000) := by
  simp only [leadByte, Bool.and_eq_true, decide_eq_true_eq, ge_iff_le, UInt8.le_iff_toNat_le] at h
  split at h
  · rename_i hrange
    obtain ⟨rfl, rfl, rfl⟩ := by simpa using h
    exact .inl ⟨hrange.1, hrange.2, rfl, toNat_and_mask lead 0x1f 5 rfl, rfl⟩
  · split at h
    · rename_i hrange
      obtain ⟨rfl, rfl, rfl⟩ := by simpa using h
      exact .inr (.inl ⟨hrange.1, hrange.2, rfl, toNat_and_mask lead 0x0f 4 rfl, rfl⟩)
    · split at h
      · rename_i hrange
        obtain ⟨rfl, rfl, rfl⟩ := by simpa using h
        exact .inr (.inr ⟨hrange.1, hrange.2, rfl, toNat_and_mask lead 0x07 3 rfl, rfl⟩)
      · simp at h

/-- The bytes that make up a code point. -/
theorem encode_of_continuations {text : Bytes} {position count value minimum v position' : ℕ}
    {lead : UInt8} {c : Char} (hlead : leadByte lead = some (count, value, minimum))
    (h : continuations text count (position+1) value = .codePoint v position')
    (hmin : minimum ≤ v) (hc : c.val.toNat = v) :
    position < position' ∧
      lead :: text.drop (position+1) = String.utf8EncodeChar c++text.drop position' := by
  subst hc
  rcases leadByte_cases hlead with ⟨hlo, hhi, rfl, rfl, rfl⟩ | ⟨hlo, hhi, rfl, rfl, rfl⟩ |
    ⟨hlo, hhi, rfl, rfl, rfl⟩
  · obtain ⟨b₁, hb₁, hlo₁, hhi₁, h⟩ := continuations_succ h
    obtain ⟨hv, rfl⟩ := continuations_zero h
    refine ⟨by omega, ?_⟩
    -- two bytes, and below three and four
    rw [encode_two ⟨hlo, hhi⟩ ⟨hlo₁, hhi₁⟩ hv, hb₁]
    rfl
  · obtain ⟨b₁, hb₁, hlo₁, hhi₁, h⟩ := continuations_succ h
    obtain ⟨b₂, hb₂, hlo₂, hhi₂, h⟩ := continuations_succ h
    obtain ⟨hv, rfl⟩ := continuations_zero h
    refine ⟨by omega, ?_⟩
    rw [encode_three ⟨hlo, hhi⟩ ⟨hlo₁, hhi₁⟩ ⟨hlo₂, hhi₂⟩ hv hmin, hb₁, hb₂]
    rfl
  · obtain ⟨b₁, hb₁, hlo₁, hhi₁, h⟩ := continuations_succ h
    obtain ⟨b₂, hb₂, hlo₂, hhi₂, h⟩ := continuations_succ h
    obtain ⟨b₃, hb₃, hlo₃, hhi₃, h⟩ := continuations_succ h
    obtain ⟨hv, rfl⟩ := continuations_zero h
    refine ⟨by omega, ?_⟩
    rw [encode_four ⟨hlo, hhi⟩ ⟨hlo₁, hhi₁⟩ ⟨hlo₂, hhi₂⟩ ⟨hlo₃, hhi₃⟩ hv hmin, hb₁, hb₂, hb₃]
    rfl

/-- A code point that is read is a character, and its encoding stands there. -/
theorem nextCodePoint_sound {text : Bytes} {position v position' : ℕ}
    (h : nextCodePoint text position = .codePoint v position') :
    position < position' ∧ ∃ c : Char, c.val.toNat = v ∧
      text.drop position = String.utf8EncodeChar c++text.drop position' := by
  unfold nextCodePoint at h
  split at h
  · simp at h
  · rename_i lead hread
    obtain ⟨hlt, rfl⟩ := List.getElem?_eq_some_iff.mp hread
    rw [List.drop_eq_getElem_cons hlt]
    split at h
    · rename_i hascii
      obtain ⟨rfl, rfl⟩ := by simpa using h
      have hle : text[position].toNat ≤ 0x7f := by simpa [UInt8.le_iff_toNat_le] using hascii
      -- one byte
      obtain ⟨c, hc⟩ := exists_char (v := text[position].toNat) (by omega) (by omega)
      refine ⟨by omega, c, hc, ?_⟩
      rw [encode_one hle hc]
      rfl
    · split at h
      · simp at h
      · rename_i count value minimum hlead
        split at h
        · simp at h
        · split at h
          · rename_i v₁ position₁ hcont
            split at h
            · simp at h
            · rename_i hok
              obtain ⟨rfl, rfl⟩ := by simpa using h
              simp only [Bool.or_eq_true, Bool.and_eq_true, decide_eq_true_eq] at hok
              -- no overlong form, no surrogate and nothing past the last code point
              obtain ⟨c, hc⟩ := exists_char (v := v₁) (by omega) (by omega)
              have henc := encode_of_continuations hlead hcont (by omega) hc
              exact ⟨henc.1, c, hc, henc.2⟩
          · rename_i hfailed
            exact absurd h (by intro heq; exact hfailed _ _ heq)

theorem validRound_decreases (content : Bytes) :
    Loop.Decreases (validRound content) (fun s => content.length-s.1) := by
  intro s s' h
  unfold validRound at h
  split at h
  · rename_i hlt
    split at h
    · simp at h
    · simp at h
    · rename_i v position hnext
      obtain rfl := by simpa using h
      have hmore := (nextCodePoint_sound hnext).1
      simp only
      omega
  · simp at h

def validNonBlankUtf8 (content : Bytes) : Option Bool :=
  Loop.value (validRound_decreases content) (0, false)

/-- The text of some characters that are not all blank. -/
def NonBlankUtf8 (content : Bytes) : Prop :=
  ∃ cs : List Char, content = cs.flatMap String.utf8EncodeChar ∧
    ∃ c ∈ cs, unicodeWhitespace c.val.toNat = false

/-- Up to the position the text is decoded, and `hasContent` says whether that is blank. -/
def Decodes (content : Bytes) (s : ℕ × Bool) : Prop :=
  ∃ cs : List Char, content = cs.flatMap String.utf8EncodeChar++content.drop s.1 ∧
    (s.2 = true → ∃ c ∈ cs, unicodeWhitespace c.val.toNat = false)

theorem Decodes.next {content : Bytes} {s s' : ℕ × Bool} (h : Decodes content s)
    (hs : validRound content s = .next s') : Decodes content s' := by
  unfold validRound at hs
  split at hs
  · split at hs
    · simp at hs
    · simp at hs
    · rename_i v position hnext
      obtain rfl := by simpa using hs
      obtain ⟨cs, htext, hblank⟩ := h
      obtain ⟨-, c, rfl, henc⟩ := nextCodePoint_sound hnext
      refine ⟨cs++[c], ?_, ?_⟩
      · calc
          content = cs.flatMap String.utf8EncodeChar++content.drop s.1 := htext
          _ = cs.flatMap String.utf8EncodeChar++
              (String.utf8EncodeChar c++content.drop position) := by rw [henc]
          _ = _ := by simp
      · intro hcontent
        rcases (by simpa using hcontent : s.2 = true ∨ _) with hold | hnew
        · obtain ⟨c', hmem, hc'⟩ := hblank hold
          exact ⟨c', List.mem_append_left _ hmem, hc'⟩
        · exact ⟨c, by simp, hnew⟩
  · simp at hs

theorem Decodes.ret {content : Bytes} {s : ℕ × Bool} {r : Option Bool} (h : Decodes content s)
    (hs : validRound content s = .ret r) : r = some true → NonBlankUtf8 content := by
  intro hr
  subst hr
  unfold validRound at hs
  split at hs
  · split at hs <;> simp at hs
  · rename_i hend
    obtain ⟨cs, htext, hblank⟩ := h
    refine ⟨cs, ?_, hblank (by simpa using hs)⟩
    rwa [List.drop_eq_nil_of_le (by omega), List.append_nil] at htext

theorem nonBlankUtf8_of_valid {content : Bytes} (h : validNonBlankUtf8 content = some true) :
    NonBlankUtf8 content := by
  have hstart : Decodes content (0, false) := ⟨[], by simp, by simp⟩
  have hreturns := Loop.returns_value (validRound_decreases content) (0, false)
  exact Loop.returns_invariant (fun _ _ => Decodes.next) (fun _ _ => Decodes.ret) hreturns hstart h

/-- A continuation byte carries six bits. -/
theorem continuation_byte {n : ℕ} (h : n < 64) :
    UInt8.ofNat (n+128) &&& 0xc0 = 0x80 ∧ (UInt8.ofNat (n+128)).toNat%64 = n := by
  have hall : ∀ n < 64, UInt8.ofNat (n+128) &&& 0xc0 = 0x80 ∧
      (UInt8.ofNat (n+128)).toNat%64 = n := by decide
  exact hall n h

/-- Continuation bytes that stand in the text are read one after another. -/
theorem continuations_of_drop {text rest : Bytes} {position n : ℕ} (count value : ℕ)
    (h : text.drop position = UInt8.ofNat (n+128) :: rest) (hn : n < 64) :
    continuations text (count+1) position value =
      continuations text count (position+1) (value*64+n) := by
  have hread : text[position]? = some (UInt8.ofNat (n+128)) := by
    rw [← List.head?_drop, h]
    rfl
  obtain ⟨hcont, hbits⟩ := continuation_byte hn
  simp only [continuations, hread]
  rw [if_neg (not_not_intro hcont), shift_or_eq, hbits]

theorem drop_succ {text rest : Bytes} {position : ℕ} {b : UInt8}
    (h : text.drop position = b :: rest) : text.drop (position+1) = rest := by
  rw [← List.drop_drop, h]
  rfl

theorem leadByte_two {n : ℕ} (h : 2 ≤ n ∧ n < 32) :
    leadByte (UInt8.ofNat (n+192)) = some (1, n, 0x80) ∧ ¬UInt8.ofNat (n+192) ≤ 0x7f := by
  have hall : ∀ n < 32, 2 ≤ n → leadByte (UInt8.ofNat (n+192)) = some (1, n, 0x80) ∧
      ¬UInt8.ofNat (n+192) ≤ 0x7f := by decide
  exact hall n h.2 h.1

theorem leadByte_three {n : ℕ} (h : n < 16) :
    leadByte (UInt8.ofNat (n+224)) = some (2, n, 0x800) ∧ ¬UInt8.ofNat (n+224) ≤ 0x7f := by
  have hall : ∀ n < 16, leadByte (UInt8.ofNat (n+224)) = some (2, n, 0x800) ∧
      ¬UInt8.ofNat (n+224) ≤ 0x7f := by decide +kernel
  exact hall n h

theorem leadByte_four {n : ℕ} (h : n < 5) :
    leadByte (UInt8.ofNat (n+240)) = some (3, n, 0x10000) ∧ ¬UInt8.ofNat (n+240) ≤ 0x7f := by
  have hall : ∀ n < 5, leadByte (UInt8.ofNat (n+240)) = some (3, n, 0x10000) ∧
      ¬UInt8.ofNat (n+240) ≤ 0x7f := by decide
  exact hall n h

/-- A lead byte, enough bytes behind it, and a scalar value that needs them all. -/
theorem nextCodePoint_of_lead {text rest : Bytes} {position count value minimum v position' : ℕ}
    {lead : UInt8} (hdrop : text.drop position = lead :: rest)
    (hlead : leadByte lead = some (count, value, minimum) ∧ ¬lead ≤ 0x7f)
    (hlength : count ≤ rest.length)
    (hcont : continuations text count (position+1) value = .codePoint v position')
    (hmin : minimum ≤ v) (hv : v.isValidChar) :
    nextCodePoint text position = .codePoint v position' := by
  have hread : text[position]? = some lead := by
    rw [← List.head?_drop, hdrop]
    rfl
  have henough : ¬text.length-(position+1) < count := by
    rw [← List.length_drop, drop_succ hdrop]
    omega
  have hscalar : ¬((decide (v < minimum) || decide (v > 0x10ffff) ||
      (decide (v ≥ 0xd800) && decide (v ≤ 0xdfff))) = true) := by
    simp only [Bool.or_eq_true, Bool.and_eq_true, decide_eq_true_eq, Nat.isValidChar] at hv ⊢
    omega
  simp only [nextCodePoint, hread, hlead.1, hcont]
  rw [if_neg hlead.2, if_neg henough, if_neg hscalar]

/-- The encoding of a character is read as that character. -/
theorem nextCodePoint_encode {text rest : Bytes} {position : ℕ} {c : Char}
    (h : text.drop position = String.utf8EncodeChar c++rest) :
    ∃ position', nextCodePoint text position = .codePoint c.val.toNat position' ∧
      text.drop position' = rest := by
  have hvalid : c.val.toNat.isValidChar := c.valid
  have hmax : c.val.toNat < 0x110000 := by
    simp only [Nat.isValidChar] at hvalid
    omega
  unfold String.utf8EncodeChar at h
  generalize c.val.toNat = v at h hvalid hmax ⊢
  dsimp only at h
  split at h
  · rename_i hone
    have hread : text[position]? = some (UInt8.ofNat v) := by
      rw [← List.head?_drop, h]
      rfl
    have hlead : UInt8.ofNat v ≤ 0x7f ∧ (UInt8.ofNat v).toNat = v := by
      rw [UInt8.le_iff_toNat_le, UInt8.toNat_ofNat_of_lt' (Nat.lt_of_le_of_lt hone (by decide))]
      exact ⟨hone, rfl⟩
    refine ⟨position+1, ?_, drop_succ h⟩
    simp only [nextCodePoint, hread]
    rw [if_pos hlead.1, hlead.2]
  · split at h
    · have hdrop₁ := drop_succ h
      refine ⟨position+1+1, ?_, drop_succ hdrop₁⟩
      apply nextCodePoint_of_lead h (leadByte_two (by omega)) (by simp) _ (by omega) hvalid
      rw [continuations_of_drop 0 _ hdrop₁ (by omega), continuations]
      congr 1
      omega
    · split at h
      · have hdrop₁ := drop_succ h
        have hdrop₂ := drop_succ hdrop₁
        refine ⟨position+1+1+1, ?_, drop_succ hdrop₂⟩
        apply nextCodePoint_of_lead h (leadByte_three (by omega)) (by simp) _ (by omega) hvalid
        rw [continuations_of_drop 1 _ hdrop₁ (by omega),
          continuations_of_drop 0 _ hdrop₂ (by omega), continuations]
        congr 1
        omega
      · have hdrop₁ := drop_succ h
        have hdrop₂ := drop_succ hdrop₁
        have hdrop₃ := drop_succ hdrop₂
        refine ⟨position+1+1+1+1, ?_, drop_succ hdrop₃⟩
        apply nextCodePoint_of_lead h (leadByte_four (by omega)) (by simp) _ (by omega) hvalid
        rw [continuations_of_drop 2 _ hdrop₁ (by omega),
          continuations_of_drop 1 _ hdrop₂ (by omega),
          continuations_of_drop 0 _ hdrop₃ (by omega), continuations]
        congr 1
        omega

/-- With enough bytes left, none is read behind the end of the text. -/
theorem continuations_ne_overrun {text : Bytes} {count position : ℕ} (value : ℕ)
    (h : position+count ≤ text.length) : continuations text count position value ≠ .overrun := by
  induction count generalizing position value with
  | zero => simp [continuations]
  | succ count ih =>
    have hlt : position < text.length := by omega
    simp only [continuations, List.getElem?_eq_getElem hlt]
    split
    · simp
    · exact ih _ (by omega)

theorem nextCodePoint_ne_overrun {text : Bytes} {position : ℕ} (h : position < text.length) :
    nextCodePoint text position ≠ .overrun := by
  simp only [nextCodePoint, List.getElem?_eq_getElem h]
  split
  · simp
  · split
    · simp
    · split
      · simp
      · rename_i count value minimum hlead hlength
        have hcont : continuations text count (position+1) value ≠ .overrun :=
          continuations_ne_overrun value (by omega)
        split
        · split <;> simp
        · exact hcont

theorem validNonBlankUtf8_isSome (content : Bytes) :
    ∃ valid, validNonBlankUtf8 content = some valid := by
  have hret : ∀ s r, True → validRound content s = .ret r → r ≠ none := by
    intro s r _ hs
    unfold validRound at hs
    split at hs
    · rename_i hlt
      have hread := nextCodePoint_ne_overrun hlt
      split at hs
      · contradiction
      · obtain rfl := by simpa using hs
        simp
      · simp at hs
    · obtain rfl := by simpa using hs
      simp
  have hreturns := Loop.returns_value (validRound_decreases content) (0, false)
  have hnext : ∀ s s', True → validRound content s = .next s' → True := fun _ _ _ _ => trivial
  have hne := Loop.returns_invariant hnext hret hreturns trivial
  exact Option.ne_none_iff_exists'.mp hne

/-- From a position behind which some characters are encoded the loop comes to the end. -/
theorem returns_of_encoded {content : Bytes} {cs : List Char} {position : ℕ} (hasContent : Bool)
    (h : content.drop position = cs.flatMap String.utf8EncodeChar) :
    Loop.Returns (validRound content) (position, hasContent)
      (some (hasContent || cs.any (fun c => !unicodeWhitespace c.val.toNat))) := by
  induction cs generalizing position hasContent with
  | nil =>
    have hend : ¬position < content.length := by
      have hnil : content.drop position = [] := h
      rw [List.drop_eq_nil_iff] at hnil
      omega
    apply Loop.Returns.ret
    simp only [validRound, List.any_nil, Bool.or_false]
    rw [if_neg hend]
  | cons c cs ih =>
    obtain ⟨position', hnext, hrest⟩ := nextCodePoint_encode h
    have hlt : position < content.length := by
      by_contra hge
      rw [List.drop_eq_nil_of_le (by omega)] at h
      have hne : String.utf8EncodeChar c ≠ [] := by
        unfold String.utf8EncodeChar
        dsimp only
        split_ifs <;> simp
      simp [hne] at h
    have hround : validRound content (position, hasContent) =
        .next (position', hasContent || !unicodeWhitespace c.val.toNat) := by
      simp only [validRound, hnext]
      rw [if_pos hlt]
    apply Loop.Returns.next hround
    rw [List.any_cons, ← Bool.or_assoc]
    exact ih _ hrest

theorem valid_of_nonBlankUtf8 {content : Bytes} (h : NonBlankUtf8 content) :
    validNonBlankUtf8 content = some true := by
  obtain ⟨cs, htext, c, hc, hblank⟩ := h
  have hdrop : content.drop 0 = cs.flatMap String.utf8EncodeChar := htext
  have hloop := returns_of_encoded false hdrop
  have hany : cs.any (fun c => !unicodeWhitespace c.val.toNat) = true := by
    rw [List.any_eq_true]
    exact ⟨c, hc, by rw [hblank]; rfl⟩
  rw [hany] at hloop
  exact Loop.returns_unique (Loop.returns_value _ _) hloop

/-- The check has an answer for every text, so it reads nothing behind the end, and it says
yes to the encodings of characters that are not all blank, and to nothing else. -/
theorem validNonBlankUtf8_exact (content : Bytes) :
    ∃ valid, validNonBlankUtf8 content = some valid ∧ (valid = true ↔ NonBlankUtf8 content) := by
  obtain ⟨valid, hvalid⟩ := validNonBlankUtf8_isSome content
  refine ⟨valid, hvalid, ?_⟩
  constructor
  · intro h
    exact nonBlankUtf8_of_valid (by rw [hvalid, h])
  · intro h
    have htrue := valid_of_nonBlankUtf8 h
    rw [hvalid] at htrue
    exact Option.some.inj htrue

end ArtworkInteractionService
end JingjieAR
