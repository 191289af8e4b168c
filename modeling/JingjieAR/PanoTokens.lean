import JingjieAR.DelimitedFields
import JingjieAR.PanoStrings
import JingjieAR.ResponseFraming

/-! The tokens of the migration script: what a text gives, one token after another, whether the
next one has been looked at before or not. -/
namespace JingjieAR.PanoData

open StringLiterals (units units_lt units_small utf16)

variable {F : Type} {tables : PyTables F}

/-- The stream at this place of the source, where no token has been looked at. -/
def streamAt (position : ℕ) (rest : PyText) : TokenStream := { position := position, rest := rest }

/-- The stream in front of a token that has been looked at. -/
def TokenStream.push (s : TokenStream) (token : Token) : TokenStream :=
  { s with buffered := some token }

/-- Behind a value: nothing that would go on with a number or a name. -/
def Stops (rest : PyText) : Prop :=
  ∀ c ∈ rest.head?, isDigit c = false ∧ isLetter c = false ∧ c ∉ [36, 43, 45, 46, 95]

section Next

variable {c position : ℕ} {rest text : PyText}

theorem skipSpace_of_not (h : isSpace c = false) (position : ℕ) (rest : PyText) :
    (streamAt position (c :: rest)).skipSpace = streamAt position (c :: rest) := by
  simp [TokenStream.skipSpace, TokenStream.advance, streamAt, h]

theorem skipSpace_cons (h : isSpace c = true) (position : ℕ) (rest : PyText) :
    (streamAt position (c :: rest)).skipSpace = (streamAt (position+1) rest).skipSpace := by
  have hle := (List.dropWhile_sublist isSpace (l := rest)).length_le
  simp only [TokenStream.skipSpace, TokenStream.advance, streamAt,
    List.dropWhile_cons_of_pos h, List.length_cons]
  congr 1
  omega

theorem next_space (h : isSpace c = true) (position : ℕ) (rest : PyText) :
    (streamAt position (c :: rest)).next tables = (streamAt (position+1) rest).next tables := by
  rw [TokenStream.next, TokenStream.next, skipSpace_cons h]

theorem next_mark (h : c ∈ codes "\x7b\x7d[],:;+") (position : ℕ) (rest : PyText) :
    (streamAt position (c :: rest)).next tables =
      .ok (⟨.mark c, [c], position⟩, streamAt (position+1) rest) := by
  have hspace : ∀ c ∈ codes "\x7b\x7d[],:;+", isSpace c = false := by decide
  rw [TokenStream.next, skipSpace_of_not (hspace c h)]
  simp only [streamAt, if_pos h, TokenStream.advance, List.length_cons]
  congr 4
  omega

theorem next_string {quote : ℕ} (hquote : quote ∈ [34, 39, 96]) {chars : PyText}
    (h : readString quote text = .ok (chars, rest)) (position : ℕ) :
    (streamAt position (quote :: text)).next tables = .ok (⟨.string, chars, position⟩,
      streamAt (position+(text.length+1-rest.length)) rest) := by
  have hspace : ∀ c ∈ [34, 39, 96], isSpace c = false ∧ c ∉ codes "\x7b\x7d[],:;+" := by decide
  have hcodes : quote ∈ codes "\"'\x60" := by
    have hall : ∀ c ∈ [34, 39, 96], c ∈ codes "\"'\x60" := by decide
    exact hall quote hquote
  obtain ⟨hblank, hmark⟩ := hspace quote hquote
  rw [TokenStream.next, skipSpace_of_not hblank]
  simp only [streamAt, if_neg hmark, if_pos hcodes, h, TokenStream.advance, List.length_cons]
  rfl

end Next

section Numbers

/-- The parts of a number as JSON has them. -/
structure NumberText (sign whole fraction exponent : PyText) : Prop where
  sign : sign = [] ∨ sign = [45]
  ne_nil : whole ≠ []
  digits : ∀ c ∈ whole, isDigit c = true
  first : whole.head? = some 48 → whole = [48]
  fraction : fraction = [] ∨
    ∃ digits, fraction = 46 :: digits ∧ digits ≠ [] ∧ ∀ c ∈ digits, isDigit c = true
  exponent : exponent = [] ∨ ∃ e sign digits, exponent = e :: (sign++digits) ∧
    (e = 101 ∨ e = 69) ∧ (sign = [] ∨ sign = [43] ∨ sign = [45]) ∧ digits ≠ [] ∧
    ∀ c ∈ digits, isDigit c = true

variable {sign whole fraction exponent rest : PyText}

/-- Nothing that goes on with digits. -/
def EndsDigits (rest : PyText) : Prop := ∀ c ∈ rest.head?, isDigit c = false

theorem endsDigits_cons {c : ℕ} (h : isDigit c = false) (rest : PyText) :
    EndsDigits (c :: rest) := by
  intro d hd
  obtain rfl := Option.some.inj hd
  exact h

theorem endsDigits_of_stops (h : Stops rest) : EndsDigits rest := fun c hc => (h c hc).1

theorem endsDigits_exponent (h : NumberText sign whole fraction exponent) (hrest : Stops rest) :
    EndsDigits (exponent++rest) := by
  rcases h.exponent with rfl | ⟨e, expSign, digits, rfl, he, -⟩
  · exact endsDigits_of_stops hrest
  · apply endsDigits_cons
    rcases he with rfl | rfl
    · decide
    · decide

theorem endsDigits_fraction (h : NumberText sign whole fraction exponent) (hrest : Stops rest) :
    EndsDigits (fraction++(exponent++rest)) := by
  rcases h.fraction with rfl | ⟨digits, rfl, -⟩
  · have hexponent := endsDigits_exponent h hrest
    exact hexponent
  · exact endsDigits_cons (by decide) _

theorem matchWhole_append (h : NumberText sign whole fraction exponent)
    (hends : EndsDigits rest) : matchWhole (whole++rest) = some (whole, rest) := by
  obtain ⟨c, tail, rfl⟩ := List.exists_cons_of_ne_nil h.ne_nil
  rw [List.cons_append, matchWhole]
  by_cases hzero : c = 48
  · subst hzero
    obtain rfl : tail = [] := (List.cons.inj (h.first rfl)).2
    rfl
  · have htail : ∀ d ∈ tail, isDigit d = true :=
      fun d hd => h.digits d (List.mem_cons_of_mem _ hd)
    obtain ⟨htake, hdrop⟩ := span_stop htail hends
    rw [if_neg hzero, if_pos (h.digits c List.mem_cons_self), htake, hdrop]

theorem matchFraction_append (h : NumberText sign whole fraction exponent) (hrest : Stops rest) :
    matchFraction (fraction++(exponent++rest)) = (fraction, exponent++rest) := by
  rcases h.fraction with rfl | ⟨digits, rfl, hne, hdigits⟩
  · have hpoint : (exponent++rest).head? ≠ some 46 := by
      rcases h.exponent with rfl | ⟨e, expSign, digits, rfl, he, -⟩
      · intro heq
        exact (hrest 46 heq).2.2 (by decide)
      · intro heq
        obtain rfl := Option.some.inj heq
        omega
    rw [List.nil_append, matchFraction.eq_def]
    split
    · rename_i heq
      rw [heq] at hpoint
      exact absurd rfl hpoint
    · rfl
  · obtain ⟨htake, hdrop⟩ := span_stop hdigits (endsDigits_exponent h hrest)
    rw [List.cons_append, matchFraction]
    simp only [htake, hdrop, if_neg hne]

theorem matchExponent_append (h : NumberText sign whole fraction exponent) (hrest : Stops rest) :
    matchExponent (exponent++rest) = (exponent, rest) := by
  rcases h.exponent with rfl | ⟨e, expSign, digits, rfl, he, hsign, hne, hdigits⟩
  · cases rest with
    | nil => rfl
    | cons c rest =>
      have hletter : ¬ (c = 101 ∨ c = 69) := by
        have hnot := (hrest c rfl).2.1
        rintro (rfl | rfl)
        · contradiction
        · contradiction
      rw [List.nil_append, matchExponent]
      simp only [hletter, false_and, if_false]
  · obtain ⟨htake, hdrop⟩ := span_stop hdigits (endsDigits_of_stops hrest)
    have hhead : ∀ c ∈ digits.head?, c ≠ 43 ∧ c ≠ 45 := by
      intro c hc
      have hdigit := hdigits c (List.mem_of_head? hc)
      refine ⟨?_, ?_⟩
      · rintro rfl
        contradiction
      · rintro rfl
        contradiction
    obtain ⟨d, tail, rfl⟩ := List.exists_cons_of_ne_nil hne
    obtain ⟨hplus, hminus⟩ := hhead d rfl
    rw [List.cons_append] at htake hdrop
    rw [List.cons_append, List.append_assoc, matchExponent]
    rcases hsign with rfl | rfl | rfl
    · simp [he, hplus, hminus, htake, hdrop]
    · simp [he, htake, hdrop]
    · simp [he, htake, hdrop]

theorem matchNumber_append (h : NumberText sign whole fraction exponent) (hrest : Stops rest) :
    matchNumber (sign++(whole++(fraction++exponent))++rest) =
      some (sign++(whole++(fraction++exponent)), rest) := by
  have hwhole := matchWhole_append h (endsDigits_fraction h hrest)
  have hfraction := matchFraction_append h hrest
  have hexponent := matchExponent_append h hrest
  have hminus : (whole++(fraction++(exponent++rest))).head? ≠ some 45 := by
    obtain ⟨c, tail, rfl⟩ := List.exists_cons_of_ne_nil h.ne_nil
    have hdigit := h.digits c List.mem_cons_self
    intro heq
    obtain rfl := Option.some.inj heq
    contradiction
  simp only [List.append_assoc]
  rw [matchNumber]
  rcases h.sign with rfl | rfl
  · simp only [List.nil_append, if_neg hminus, List.length_nil, List.drop_zero, hwhole,
      hfraction, hexponent, Option.bind_eq_bind, Option.bind_some]
  · simp only [List.cons_append, List.nil_append, List.head?_cons, if_true, List.length_cons,
      List.length_nil, List.drop_succ_cons, List.drop_zero, hwhole, hfraction, hexponent,
      Option.bind_eq_bind, Option.bind_some]

/-- What the text of a number starts with. -/
theorem NumberText.start (h : NumberText sign whole fraction exponent) (rest : PyText) :
    ∃ c after, sign++(whole++(fraction++exponent))++rest = c :: after ∧
      (isDigit c = true ∨ c = 45 ∧ ∃ d tail, after = d :: tail ∧ isDigit d = true) := by
  obtain ⟨d, tail, rfl⟩ := List.exists_cons_of_ne_nil h.ne_nil
  have hdigit := h.digits d List.mem_cons_self
  rcases h.sign with rfl | rfl
  · exact ⟨d, _, rfl, .inl hdigit⟩
  · exact ⟨45, _, rfl, .inr ⟨rfl, d, _, rfl, hdigit⟩⟩

theorem next_number (h : NumberText sign whole fraction exponent) (hrest : Stops rest)
    (position : ℕ) :
    (streamAt position (sign++(whole++(fraction++exponent))++rest)).next tables =
      .ok (⟨.number, sign++(whole++(fraction++exponent)), position⟩,
        streamAt (position+(sign++(whole++(fraction++exponent))).length) rest) := by
  have hmatch := matchNumber_append h hrest
  obtain ⟨c, after, htext, hstart⟩ := h.start rest
  have hlength : (sign++(whole++(fraction++exponent))).length+rest.length = after.length+1 := by
    have heq := congrArg List.length htext
    rw [List.length_append, List.length_cons] at heq
    exact heq
  rw [htext] at hmatch ⊢
  have hchar : 45 ≤ c ∧ c ≠ 46 ∧ c ≠ 47 ∧ c ≤ 57 := by
    rcases hstart with hdigit | ⟨rfl, -⟩
    · simp only [isDigit, Bool.and_eq_true, decide_eq_true_eq] at hdigit
      omega
    · omega
  have hall : ∀ c < 58, 45 ≤ c → isSpace c = false ∧ c ∉ codes "\x7b\x7d[],:;+" ∧
      c ∉ codes "\"'\x60" := by decide
  obtain ⟨hspace, hmark, hquote⟩ := hall c (by omega) hchar.1
  rw [TokenStream.next, skipSpace_of_not hspace]
  simp only [streamAt, if_neg hmark, if_neg hquote, hmatch]
  rw [if_pos ?_]
  · simp only [TokenStream.advance]
    congr 4
    rw [List.length_cons]
    omega
  · rcases hstart with hdigit | ⟨rfl, d, tail, rfl, hdigit⟩
    · simp [hdigit]
    · simp [hdigit]

end Numbers

section Names

variable {word rest : PyText}

/-- A word of letters. -/
theorem next_word (hne : word ≠ []) (hletters : ∀ c ∈ word, isLetter c = true)
    (hrest : Stops rest) (position : ℕ) : (streamAt position (word++rest)).next tables =
      .ok (⟨.identifier, word, position⟩, streamAt (position+word.length) rest) := by
  obtain ⟨c, tail, rfl⟩ := List.exists_cons_of_ne_nil hne
  have hletter := hletters c List.mem_cons_self
  have hchar : 65 ≤ c ∧ c ≤ 122 := by
    simp only [isLetter, Bool.or_eq_true, Bool.and_eq_true, decide_eq_true_eq] at hletter
    omega
  have hall : ∀ c < 123, isLetter c = true → isSpace c = false ∧
      c ∉ codes "\x7b\x7d[],:;+" ∧ c ∉ codes "\"'\x60" ∧ isDigit c = false := by decide
  obtain ⟨hspace, hmark, hquote, hdigit⟩ := hall c (by omega) hletter
  have htail : ∀ d ∈ tail, (isLetter d || isDigit d || d = 95 || d = 36) = true := by
    intro d hd
    simp [hletters d (List.mem_cons_of_mem _ hd)]
  have hstop : rest.takeWhile (fun d => isLetter d || isDigit d || d = 95 || d = 36) = [] ∧
      rest.dropWhile (fun d => isLetter d || isDigit d || d = 95 || d = 36) = rest := by
    cases rest with
    | nil => exact ⟨rfl, rfl⟩
    | cons d rest =>
      obtain ⟨hdigit', hletter', hother⟩ := hrest d rfl
      simp only [List.mem_cons, List.not_mem_nil, or_false, not_or] at hother
      have hno : (isLetter d || isDigit d || d = 95 || d = 36) = false := by
        simp [hdigit', hletter', hother]
      rw [List.takeWhile_cons_of_neg (by simp [hno]), List.dropWhile_cons_of_neg (by simp [hno])]
      exact ⟨rfl, rfl⟩
  have hlarge : c < 128 := by omega
  rw [List.cons_append, TokenStream.next, skipSpace_of_not hspace]
  simp only [streamAt, if_neg hmark, if_neg hquote]
  rw [if_neg ?_]
  · simp only [hletter, Bool.true_or, if_true, List.takeWhile_append_of_pos htail,
      List.dropWhile_append_of_pos htail, hstop.1, hstop.2, List.append_nil,
      TokenStream.advance, List.length_cons, List.length_append]
    congr 4
    omega
  · have hminus : c ≠ 45 := by omega
    have hbig : ¬ 128 ≤ c := by omega
    simp [hdigit, hminus, hbig]

end Names

section Strings

theorem hexDigit_lowerHex {n : ℕ} (h : n < 16) :
    StringLiterals.hexDigit (lowerHex n) = some n := by
  have hall : ∀ n < 16, StringLiterals.hexDigit (lowerHex n) = some n := by decide
  exact hall n h

theorem hexValue_unicodeEscape {u : ℕ} (h : u < 0x10000) : StringLiterals.hexValue
    [lowerHex (u/4096%16), lowerHex (u/256%16), lowerHex (u/16%16), lowerHex (u%16)] = some u := by
  have hdigit : ∀ n, StringLiterals.hexDigit (lowerHex (n%16)) = some (n%16) :=
    fun n => hexDigit_lowerHex (Nat.mod_lt n (by decide))
  simp only [StringLiterals.hexValue, List.foldl_cons, List.foldl_nil, hdigit,
    Option.bind_eq_bind, Option.bind_some]
  congr 1
  omega

theorem readChars_unicodeEscapes {us : PyText} (h : ∀ u ∈ us, u < 0x10000) (rest : PyText) :
    readChars 34 (us.flatMap unicodeEscape++rest) = prepend us (readChars 34 rest) := by
  induction us with
  | nil =>
    rw [List.flatMap_nil, List.nil_append]
    cases readChars 34 rest with
    | error error => rfl
    | ok p => rfl
  | cons u us ih =>
    have hvalue := hexValue_unicodeEscape (h u List.mem_cons_self)
    rw [List.flatMap_cons, List.append_assoc, unicodeEscape]
    simp only [List.cons_append, List.nil_append]
    rw [readChars_unicode (by decide) hvalue, ih (fun v hv => h v (List.mem_cons_of_mem _ hv)),
      prepend_prepend]
    rfl

/-- An escaped character is read as its code units. -/
theorem readChars_encodeCharacter (c : ℕ) (rest : PyText) :
    readChars 34 (encodeCharacter c++rest) = prepend (units c) (readChars 34 rest) := by
  have hsimple : ∀ {e v : ℕ}, simpleEscape e = some v → v < 0x10000 →
      readChars 34 ([92, e]++rest) = prepend (units v) (readChars 34 rest) := by
    intro e v hv hsmall
    rw [units_small hsmall]
    exact readChars_simple (by decide) hv
  rw [encodeCharacter]
  split_ifs with h92 h34 h8 h12 h10 h13 h9 hplain
  · subst h92
    exact readChars_other (by decide) (by decide) (by decide) (by decide) (by decide) (by decide)
  · subst h34
    exact readChars_other (by decide) (by decide) (by decide) (by decide) (by decide) (by decide)
  · subst h8
    exact hsimple (by decide) (by decide)
  · subst h12
    exact hsimple (by decide) (by decide)
  · subst h10
    exact hsimple (by decide) (by decide)
  · subst h13
    exact hsimple (by decide) (by decide)
  · subst h9
    exact hsimple (by decide) (by decide)
  · rw [units_small (by omega)]
    exact readChars_plain h34 h92
  · exact readChars_unicodeEscapes (units_lt c) rest

theorem readChars_encode (text rest : PyText) :
    readChars 34 (text.flatMap encodeCharacter++34 :: rest) = .ok (utf16 text, rest) := by
  induction text with
  | nil => exact readChars_quote 34 rest
  | cons c text ih =>
    rw [List.flatMap_cons, List.append_assoc, readChars_encodeCharacter, ih]
    rfl

/-- A string of `json.dumps` gives its code units. -/
theorem next_encodeString (text rest : PyText) (position : ℕ) :
    (streamAt position (encodeString text++rest)).next tables =
      .ok (⟨.string, utf16 text, position⟩,
        streamAt (position+(encodeString text).length) rest) := by
  have hread : readString 34 (text.flatMap encodeCharacter++34 :: rest) =
      .ok (utf16 text, rest) := by
    rw [readString, readChars_encode]
    rfl
  have htext : encodeString text++rest = 34 :: (text.flatMap encodeCharacter++34 :: rest) := by
    simp [encodeString]
  rw [htext, next_string (by decide) hread]
  congr 3
  simp only [encodeString, List.length_cons, List.length_append, List.length_nil]
  omega

end Strings

section Feeds

/-- Tokens that come one after another, each with its kind and value. -/
inductive Feeds (tables : PyTables F) :
    TokenStream → List (TokenKind × PyText) → TokenStream → Prop
  | nil (s : TokenStream) : Feeds tables s [] s
  | cons {s s₁ s₂ : TokenStream} {token : Token} {tokens : List (TokenKind × PyText)}
      (h : s.take tables = .ok (token, s₁)) (ht : Feeds tables s₁ tokens s₂) :
      Feeds tables s ((token.kind, token.value) :: tokens) s₂

variable {s s₁ s₂ : TokenStream} {token : Token} {tokens tokens' : List (TokenKind × PyText)}

theorem Feeds.append (h : Feeds tables s tokens s₁) (h' : Feeds tables s₁ tokens' s₂) :
    Feeds tables s (tokens++tokens') s₂ := by
  induction h with
  | nil s => exact h'
  | cons htake _ ih => exact .cons htake (ih h')

theorem take_of_next {position : ℕ} {rest : PyText} {s₁ : TokenStream}
    (h : (streamAt position rest).next tables = .ok (token, s₁)) (hbuffered : s₁.buffered = none) :
    (streamAt position rest).take tables = .ok (token, s₁) := by
  have hpeek : (streamAt position rest).peek tables = .ok (token, s₁.push token) := by
    have hnone : (streamAt position rest).buffered = none := rfl
    rw [TokenStream.peek, hnone]
    simp only [h]
    rfl
  rw [TokenStream.take, hpeek]
  change Except.ok (token, { s₁ with buffered := none }) = _
  rw [← hbuffered]

/-- What can be taken can be looked at first. -/
theorem peek_of_take (h : s.take tables = .ok (token, s₁)) :
    s.peek tables = .ok (token, s₁.push token) ∧
      (s₁.push token).take tables = .ok (token, s₁) := by
  rw [TokenStream.take] at h
  cases hpeek : s.peek tables with
  | error error =>
    rw [hpeek] at h
    contradiction
  | ok p =>
    obtain ⟨token', s'⟩ := p
    rw [hpeek] at h
    obtain ⟨rfl, rfl⟩ := Prod.mk.inj (Except.ok.inj h)
    have hpushed : s' = { s' with buffered := none }.push token' := by
      rw [TokenStream.peek] at hpeek
      split at hpeek
      · rename_i token hbuffered
        obtain ⟨rfl, rfl⟩ := Prod.mk.inj (Except.ok.inj hpeek)
        rw [TokenStream.push, ← hbuffered]
      · cases hnext : s.next tables with
        | error error =>
          rw [hnext] at hpeek
          contradiction
        | ok p =>
          rw [hnext] at hpeek
          obtain ⟨rfl, rfl⟩ := Prod.mk.inj (Except.ok.inj hpeek)
          rfl
    refine ⟨?_, rfl⟩
    rw [← hpushed]

/-- A token that has been looked at is still there. -/
theorem Feeds.push (h : s.take tables = .ok (token, s₁)) (ht : Feeds tables s tokens s₂)
    (hne : tokens ≠ []) : Feeds tables (s₁.push token) tokens s₂ := by
  cases ht with
  | nil => contradiction
  | cons h' ht =>
    obtain ⟨rfl, rfl⟩ := Prod.mk.inj (Except.ok.inj (h'.symm.trans h))
    exact .cons (peek_of_take h).2 ht

/-- Spaces in front of a token do not count. -/
theorem Feeds.space {c position : ℕ} {rest : PyText} (hc : isSpace c = true) (hne : tokens ≠ [])
    (h : Feeds tables (streamAt (position+1) rest) tokens s₂) :
    Feeds tables (streamAt position (c :: rest)) tokens s₂ := by
  have htake : (streamAt position (c :: rest)).take tables =
      (streamAt (position+1) rest).take tables := by
    have hpeek : (streamAt position (c :: rest)).peek tables =
        (streamAt (position+1) rest).peek tables := by
      change ((streamAt position (c :: rest)).next tables >>= _) = _
      rw [next_space hc]
      rfl
    rw [TokenStream.take, hpeek]
    rfl
  cases h with
  | nil => contradiction
  | cons h ht => exact .cons (htake.trans h) ht

end Feeds

end JingjieAR.PanoData
