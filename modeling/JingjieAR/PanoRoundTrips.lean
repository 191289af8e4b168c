import JingjieAR.PanoTokens
import Mathlib.Data.List.Forall2

/-! What the migration script reads of data that `json.dumps` has written. The tokens come back
as they are, except that a character outside of the basic plane comes back as two. -/
namespace JingjieAR.PanoData

open StringLiterals (units units_lt utf16 codePoints)

variable {F : Type} {tables : PyTables F}

/-- Induction over data, with the items of a list and the values of a `dict`. -/
@[elab_as_elim]
theorem PyData.induct {P : PyData F → Prop} (pyNone : P .pyNone) (bool : ∀ value, P (.bool value))
    (int : ∀ value, P (.int value)) (float : ∀ value, P (.float value))
    (str : ∀ text, P (.str text)) (list : ∀ items, (∀ item ∈ items, P item) → P (.list items))
    (dict : ∀ members, (∀ member ∈ members, P member.2) → P (.dict members)) (v : PyData F) :
    P v := by
  refine @PyData.rec F P (fun items => ∀ item ∈ items, P item)
    (fun members => ∀ member ∈ members, P member.2) (fun member => P member.2)
    pyNone bool int float str list dict ?_ ?_ ?_ ?_ ?_ v
  · simp
  · intro item items hitem hitems
    simpa using ⟨hitem, hitems⟩
  · simp
  · intro member members hmember hmembers
    rw [List.forall_mem_cons]
    exact ⟨hmember, hmembers⟩
  · intro key value hvalue
    exact hvalue

def mark (c : ℕ) : TokenKind × PyText := (.mark c, [c])

mutual

/-- The tokens of the text that `json.dumps` writes. -/
def tokens (tables : PyTables F) : PyData F → List (TokenKind × PyText)
  | .pyNone => [(.identifier, codes "null")]
  | .bool value => [(.identifier, if value then codes "true" else codes "false")]
  | .int value => [(.number, decimalText value)]
  | .float value => [(.number, tables.repr value)]
  | .str text => [(.string, utf16 text)]
  | .list items => mark 91 :: (List.intercalate [mark 44] (tokensItems tables items)++[mark 93])
  | .dict members =>
    mark 123 :: (List.intercalate [mark 44] (tokensMembers tables members)++[mark 125])

def tokensItems (tables : PyTables F) : List (PyData F) → List (List (TokenKind × PyText))
  | [] => []
  | item :: items => tokens tables item :: tokensItems tables items

def tokensMembers (tables : PyTables F) :
    List (PyText × PyData F) → List (List (TokenKind × PyText))
  | [] => []
  | (key, value) :: members =>
    ((.string, utf16 key) :: mark 58 :: tokens tables value) :: tokensMembers tables members

end

mutual

/-- The data that comes back. -/
def readBack : PyData F → PyData F
  | .str text => .str (utf16 text)
  | .list items => .list (readBackItems items)
  | .dict members => .dict (readBackMembers [] members)
  | .pyNone => .pyNone
  | .bool value => .bool value
  | .int value => .int value
  | .float value => .float value

def readBackItems : List (PyData F) → List (PyData F)
  | [] => []
  | item :: items => readBack item :: readBackItems items

def readBackMembers (result : List (PyText × PyData F)) :
    List (PyText × PyData F) → List (PyText × PyData F)
  | [] => result
  | (key, value) :: members =>
    readBackMembers (DataParser.setItem result (utf16 key) (readBack value)) members

end

section Maps

theorem dumpsItems_eq (items : List (PyData F)) :
    dumpsItems tables items = items.map (dumps tables) := by
  induction items with
  | nil => rfl
  | cons item items ih => rw [dumpsItems, ih, List.map_cons]

theorem dumpsMembers_eq (members : List (PyText × PyData F)) : dumpsMembers tables members =
    members.map (fun member => encodeString member.1++(codes ": "++dumps tables member.2)) := by
  induction members with
  | nil => rfl
  | cons member members ih => rw [dumpsMembers, ih, List.map_cons]

theorem tokensItems_eq (items : List (PyData F)) :
    tokensItems tables items = items.map (tokens tables) := by
  induction items with
  | nil => rfl
  | cons item items ih => rw [tokensItems, ih, List.map_cons]

theorem tokensMembers_eq (members : List (PyText × PyData F)) : tokensMembers tables members =
    members.map (fun member =>
      (.string, utf16 member.1) :: mark 58 :: tokens tables member.2) := by
  induction members with
  | nil => rfl
  | cons member members ih => rw [tokensMembers, ih, List.map_cons]

theorem readBackItems_eq (items : List (PyData F)) :
    readBackItems items = items.map readBack := by
  induction items with
  | nil => rfl
  | cons item items ih => rw [readBackItems, ih, List.map_cons]

end Maps

/-- What the library does with finite numbers: `repr` writes them with a point or an exponent, in
a form that JSON has too, and `float` reads them back. -/
structure PyTables.Faithful (tables : PyTables F) : Prop where
  float_repr : ∀ value, tables.float (tables.repr value) = value
  shape : ∀ value, ∃ sign whole fraction exponent,
    tables.repr value = sign++(whole++(fraction++exponent)) ∧
      NumberText sign whole fraction exponent ∧ (fraction ≠ [] ∨ exponent ≠ [])

section Numbers

theorem codes_toString (n : ℕ) : codes (toString n) = (Nat.toDigits 10 n).map Char.toNat := by
  rw [codes, Nat.toString_eq_ofList_toDigits, String.toList_ofList]

theorem isDigit_toNat {c : Char} (h : c.isDigit = true) : isDigit c.toNat = true := by
  obtain ⟨-, hlow, hhigh⟩ := toNat_ascii_digit h
  simp [isDigit, hlow, hhigh]

theorem digitsValue_map {cs : List Char} (start : ℕ) :
    (cs.map Char.toNat).foldl (fun n c => n*10+(c-48)) start = Nat.ofDigitChars 10 cs start := by
  induction cs generalizing start with
  | nil => rfl
  | cons c cs ih =>
    rw [List.map_cons, List.foldl_cons, ih, Nat.ofDigitChars_cons, Nat.mul_comm start 10]
    rfl

theorem numberText_natural (n : ℕ) (sign : PyText) (hsign : sign = [] ∨ sign = [45]) :
    NumberText sign (codes (toString n)) [] [] := by
  rw [codes_toString]
  refine ⟨hsign, ?_, ?_, ?_, .inl rfl, .inl rfl⟩
  · exact List.map_eq_nil_iff.not.mpr Nat.toDigits_ne_nil
  · intro c hc
    obtain ⟨d, hd, rfl⟩ := List.mem_map.mp hc
    exact isDigit_toNat (Nat.isDigit_of_mem_toDigits (by decide) (by decide) hd)
  · intro hhead
    rcases Nat.eq_zero_or_pos n with rfl | hpos
    · rfl
    · rw [List.head?_map] at hhead
      obtain ⟨c, hc, hzero⟩ := Option.map_eq_some_iff.mp hhead
      have hchar : c = '0' := Char.ext (UInt32.toNat_inj.mp hzero)
      exact absurd (hchar ▸ hc) (head_toDigits hpos)

/-- The text of an integer. -/
theorem decimalText_parts (n : ℤ) : ∃ sign, (sign = [] ∧ 0 ≤ n ∨ sign = [45] ∧ n < 0) ∧
    decimalText n = sign++(codes (toString n.natAbs)++([]++[])) := by
  by_cases hneg : n < 0
  · refine ⟨[45], .inr ⟨rfl, hneg⟩, ?_⟩
    rw [decimalText, if_pos hneg]
    simp
  · refine ⟨[], .inl ⟨rfl, by omega⟩, ?_⟩
    rw [decimalText, if_neg hneg]
    simp

theorem numberValue_decimalText (n : ℤ) :
    DataParser.numberValue tables (decimalText n) = .int n := by
  obtain ⟨sign, hsign, htext⟩ := decimalText_parts n
  have hparts := numberText_natural n.natAbs sign
    (hsign.imp (fun h => h.1) (fun h => h.1))
  have hvalue : digitsValue (codes (toString n.natAbs)) = n.natAbs := by
    rw [codes_toString, digitsValue, digitsValue_map, Nat.ofDigitChars_ten_toDigits]
  have hplain : ∀ c ∈ decimalText n, c ∉ codes ".eE" := by
    intro c hc
    have hdigit : isDigit c = true ∨ c = 45 := by
      rw [htext, List.append_nil, List.append_nil, List.mem_append] at hc
      rcases hc with hc | hc
      · rcases hsign with ⟨rfl, -⟩ | ⟨rfl, -⟩
        · contradiction
        · exact .inr (List.mem_singleton.mp hc)
      · exact .inl (hparts.digits c hc)
    rintro hmem
    have hall : ∀ c ∈ codes ".eE", isDigit c = false ∧ c ≠ 45 := by decide
    obtain ⟨hnot, hminus⟩ := hall c hmem
    rcases hdigit with hdigit | rfl
    · rw [hdigit] at hnot
      contradiction
    · contradiction
  have hany : (decimalText n).any (· ∈ codes ".eE") = false := by
    rw [List.any_eq_false]
    intro c hc
    simpa using hplain c hc
  rw [DataParser.numberValue, hany, if_neg Bool.false_ne_true, intOfText, htext, List.append_nil,
    List.append_nil]
  rcases hsign with ⟨rfl, hn⟩ | ⟨rfl, hn⟩
  · have hminus : (codes (toString n.natAbs)).head? ≠ some 45 := by
      intro hhead
      exact absurd (hparts.digits 45 (List.mem_of_head? hhead)) (by decide)
    rw [List.nil_append, if_neg hminus, hvalue, Int.natAbs_of_nonneg hn]
  · rw [List.cons_append, List.nil_append, List.head?_cons, if_pos rfl, List.tail_cons, hvalue]
    congr 1
    omega

theorem numberValue_repr (h : tables.Faithful) (value : F) :
    DataParser.numberValue tables (tables.repr value) = .float value := by
  obtain ⟨sign, whole, fraction, exponent, htext, hparts, hfloat⟩ := h.shape value
  have hany : (tables.repr value).any (· ∈ codes ".eE") = true := by
    rw [htext, List.any_eq_true]
    rcases hfloat with hfloat | hfloat
    · obtain ⟨digits, rfl, -⟩ := hparts.fraction.resolve_left hfloat
      exact ⟨46, by simp, by decide⟩
    · obtain ⟨e, expSign, digits, rfl, he, -⟩ := hparts.exponent.resolve_left hfloat
      refine ⟨e, by simp, ?_⟩
      rcases he with rfl | rfl
      · decide
      · decide
  rw [DataParser.numberValue, hany, if_pos rfl, h.float_repr]

end Numbers

/-- The text gives these tokens, wherever something follows that does not go on with it. -/
def Lexes (tables : PyTables F) (text : PyText) (tokens : List (TokenKind × PyText)) : Prop :=
  tokens ≠ [] ∧ ∀ position rest, Stops rest → Feeds tables (streamAt position (text++rest)) tokens
    (streamAt (position+text.length) rest)

section Lexing

variable {text text' : PyText} {kind : TokenKind} {value : PyText}
  {ts ts' : List (TokenKind × PyText)}

theorem stops_cons {c : ℕ}
    (h : isDigit c = false ∧ isLetter c = false ∧ c ∉ [36, 43, 45, 46, 95]) (rest : PyText) :
    Stops (c :: rest) := by
  intro d hd
  obtain rfl := Option.some.inj hd
  exact h

/-- A single token. -/
theorem Lexes.of_next (h : ∀ position rest, Stops rest →
      (streamAt position (text++rest)).next tables =
        .ok (⟨kind, value, position⟩, streamAt (position+text.length) rest)) :
    Lexes tables text [(kind, value)] := by
  refine ⟨List.cons_ne_nil _ _, ?_⟩
  intro position rest hrest
  exact .cons (take_of_next (h position rest hrest) rfl) (.nil _)

theorem lexes_word (word : PyText) (hne : word ≠ []) (hletters : ∀ c ∈ word, isLetter c = true) :
    Lexes tables word [(.identifier, word)] :=
  .of_next fun position _ hrest => next_word hne hletters hrest position

theorem lexes_number {sign whole fraction exponent : PyText}
    (h : NumberText sign whole fraction exponent) :
    Lexes tables (sign++(whole++(fraction++exponent)))
      [(.number, sign++(whole++(fraction++exponent)))] :=
  .of_next fun position _ hrest => next_number h hrest position

theorem lexes_string (text : PyText) :
    Lexes tables (encodeString text) [(.string, utf16 text)] :=
  .of_next fun position rest _ => next_encodeString text rest position

theorem feeds_mark {c : ℕ} (hc : c ∈ codes "\x7b\x7d[],:;+") (position : ℕ) (rest : PyText) :
    Feeds tables (streamAt position (c :: rest)) [mark c] (streamAt (position+1) rest) :=
  .cons (take_of_next (next_mark hc position rest) rfl) (.nil _)

/-- A mark between two texts, with a space behind it. -/
theorem Lexes.join {c : ℕ} (h : Lexes tables text ts) (h' : Lexes tables text' ts')
    (hc : c ∈ codes "\x7d],:") :
    Lexes tables (text++(c :: 32 :: text')) (ts++mark c :: ts') := by
  have hall : ∀ c ∈ codes "\x7d],:", c ∈ codes "\x7b\x7d[],:;+" ∧ isDigit c = false ∧
      isLetter c = false ∧ c ∉ [36, 43, 45, 46, 95] := by decide
  obtain ⟨hmark, hstop⟩ := hall c hc
  refine ⟨by simp, ?_⟩
  intro position rest hrest
  have hfirst := h.2 position (c :: 32 :: (text'++rest)) (stops_cons hstop _)
  have hsecond := h'.2 (position+text.length+1+1) rest hrest
  have hspaced := hsecond.space (c := 32) (by decide) h'.1
  have hfeeds := hfirst.append ((feeds_mark hmark _ _).append hspaced)
  simp only [List.append_assoc, List.cons_append, List.nil_append] at hfeeds ⊢
  have hposition : position+(text++(c :: 32 :: text')).length =
      position+text.length+1+1+text'.length := by
    rw [List.length_append, List.length_cons, List.length_cons]
    omega
  rw [hposition]
  exact hfeeds

theorem lexes_intercalate {texts : List PyText} {tss : List (List (TokenKind × PyText))}
    (h : List.Forall₂ (Lexes tables) texts tss) (hne : texts ≠ []) :
    Lexes tables (List.intercalate (codes ", ") texts) (List.intercalate [mark 44] tss) := by
  induction h with
  | nil => contradiction
  | @cons text ts texts tss hfirst hrest ih =>
    cases hrest with
    | nil => simpa using hfirst
    | cons hsecond hrest =>
      have hjoined := hfirst.join (ih (List.cons_ne_nil _ _)) (show 44 ∈ codes "\x7d],:" by decide)
      rw [List.intercalate_cons_cons, List.intercalate_cons_cons, List.append_assoc,
        List.append_assoc]
      exact hjoined

/-- What is in brackets or in braces. -/
theorem lexes_enclosed {texts : List PyText} {tss : List (List (TokenKind × PyText))}
    {opening closing : ℕ} (h : List.Forall₂ (Lexes tables) texts tss)
    (hopening : opening ∈ codes "\x7b[") (hclosing : closing ∈ codes "\x7d]") :
    Lexes tables (opening :: (List.intercalate (codes ", ") texts++[closing]))
      (mark opening :: (List.intercalate [mark 44] tss++[mark closing])) := by
  have hall : ∀ c ∈ codes "\x7b[", c ∈ codes "\x7b\x7d[],:;+" := by decide
  have hall' : ∀ c ∈ codes "\x7d]", c ∈ codes "\x7b\x7d[],:;+" ∧ isDigit c = false ∧
      isLetter c = false ∧ c ∉ [36, 43, 45, 46, 95] := by decide
  obtain ⟨hmark, hstop⟩ := hall' closing hclosing
  refine ⟨List.cons_ne_nil _ _, ?_⟩
  intro position rest hrest
  have hopen : Feeds tables _ _ _ := feeds_mark (hall opening hopening) position
    (List.intercalate (codes ", ") texts++closing :: rest)
  have hlength : position+(opening :: (List.intercalate (codes ", ") texts++[closing])).length =
      position+1+(List.intercalate (codes ", ") texts).length+1 := by
    rw [List.length_cons, List.length_append, List.length_singleton]
    omega
  have hclose : Feeds tables _ _ _ := feeds_mark hmark
    (position+1+(List.intercalate (codes ", ") texts).length) rest
  rw [hlength, List.cons_append, List.append_assoc, List.singleton_append]
  cases h with
  | nil => exact hopen.append hclose
  | cons hfirst hrest' =>
    have hitems := (lexes_intercalate (.cons hfirst hrest') (List.cons_ne_nil _ _)).2 (position+1)
      (closing :: rest) (stops_cons hstop _)
    exact hopen.append (hitems.append hclose)

/-- The tokens of the text that `json.dumps` writes. -/
theorem lexes_dumps (h : tables.Faithful) (v : PyData F) :
    Lexes tables (dumps tables v) (tokens tables v) := by
  induction v using PyData.induct with
  | pyNone => exact lexes_word (codes "null") (by decide) (by decide)
  | bool value =>
    cases value with
    | true => exact lexes_word (codes "true") (by decide) (by decide)
    | false => exact lexes_word (codes "false") (by decide) (by decide)
  | int value =>
    obtain ⟨sign, hsign, htext⟩ := decimalText_parts value
    have hparts := numberText_natural value.natAbs sign
      (hsign.imp (fun h => h.1) (fun h => h.1))
    rw [dumps, tokens, htext]
    exact lexes_number hparts
  | float value =>
    obtain ⟨sign, whole, fraction, exponent, htext, hparts, -⟩ := h.shape value
    rw [dumps, tokens, htext]
    exact lexes_number hparts
  | str text =>
    rw [dumps, tokens]
    exact lexes_string text
  | list items ih =>
    rw [dumps, tokens, dumpsItems_eq, tokensItems_eq]
    refine lexes_enclosed ?_ (by decide) (by decide)
    rw [List.forall₂_map_left_iff, List.forall₂_map_right_iff, List.forall₂_same]
    exact ih
  | dict members ih =>
    rw [dumps, tokens, dumpsMembers_eq, tokensMembers_eq]
    refine lexes_enclosed ?_ (by decide) (by decide)
    rw [List.forall₂_map_left_iff, List.forall₂_map_right_iff, List.forall₂_same]
    intro member hmember
    exact (lexes_string member.1).join (ih member hmember) (show 58 ∈ codes "\x7d],:" by decide)

end Lexing

section Parsing

open DataParser (parseValue parseSum parseAtom parseArray parseItems parseObject parseMembers
  setItem)

variable {constants : List (PyText × PyData F)} {s s₁ s₂ : TokenStream}
  {ts : List (TokenKind × PyText)} {kind : TokenKind} {value : PyText}

/-- The parser takes the tokens of the data, and gives what comes back of it. -/
def Parses (tables : PyTables F) (constants : List (PyText × PyData F)) (v : PyData F) : Prop :=
  ∀ fuel s s₁, 4*(tokens tables v).length ≤ fuel+1 → Feeds tables s (tokens tables v) s₁ →
    parseAtom tables constants fuel s = .ok (readBack v, s₁)

theorem Feeds.take (h : Feeds tables s ((kind, value) :: ts) s₂) :
    ∃ token s₁, s.take tables = .ok (token, s₁) ∧ token.kind = kind ∧ token.value = value ∧
      Feeds tables s₁ ts s₂ := by
  cases h with
  | @cons s s₁ s₂ token ts htake ht => exact ⟨token, s₁, htake, rfl, rfl, ht⟩

theorem Feeds.split {ts' : List (TokenKind × PyText)} (h : Feeds tables s (ts++ts') s₂) :
    ∃ s₁, Feeds tables s ts s₁ ∧ Feeds tables s₁ ts' s₂ := by
  induction ts generalizing s with
  | nil => exact ⟨s, .nil s, h⟩
  | cons t ts ih =>
    obtain ⟨kind, value⟩ := t
    obtain ⟨token, s', htake, rfl, rfl, ht⟩ := Feeds.take h
    obtain ⟨s₁, hfirst, hrest⟩ := ih ht
    exact ⟨s₁, .cons htake hfirst, hrest⟩

/-- Behind a value that no `+` follows. -/
theorem parseValue_of_atom {v : PyData F} {fuel : ℕ} {token : Token}
    (hatom : parseAtom tables constants (fuel+1) s = .ok (v, s₁))
    (htake : s₁.take tables = .ok (token, s₂)) (hplus : token.kind ≠ .mark 43) :
    parseValue tables constants (fuel+2) s = .ok (v, s₂.push token) := by
  have hpeek := (peek_of_take htake).1
  rw [parseValue, hatom]
  change parseSum tables constants (fuel+1) v s₁ = _
  rw [parseSum, hpeek]
  change (if token.kind ≠ .mark 43 then _ else _) = _
  rw [if_pos hplus]

theorem Parses.parseValue_eq {v : PyData F} (h : Parses tables constants v) (fuel : ℕ)
    {token : Token} (hfuel : 4*(tokens tables v).length ≤ fuel)
    (hpos : 0 < (tokens tables v).length) (hfeeds : Feeds tables s (tokens tables v) s₁)
    (htake : s₁.take tables = .ok (token, s₂)) (hplus : token.kind ≠ .mark 43) :
    parseValue tables constants fuel s = .ok (readBack v, s₂.push token) := by
  obtain ⟨fuel, rfl⟩ : ∃ n, fuel = n+2 := ⟨fuel-2, by omega⟩
  exact parseValue_of_atom (h (fuel+1) s s₁ (by omega) hfeeds) htake hplus

theorem tokens_first (tables : PyTables F) (v : PyData F) :
    ∃ kind value ts, tokens tables v = (kind, value) :: ts ∧
      kind ≠ .mark 93 ∧ kind ≠ .mark 125 := by
  cases v with
  | pyNone => exact ⟨_, _, _, by rw [tokens], by simp, by simp⟩
  | bool value => exact ⟨_, _, _, by rw [tokens], by simp, by simp⟩
  | int value => exact ⟨_, _, _, by rw [tokens], by simp, by simp⟩
  | float value => exact ⟨_, _, _, by rw [tokens], by simp, by simp⟩
  | str text => exact ⟨_, _, _, by rw [tokens], by simp, by simp⟩
  | list items => exact ⟨_, _, _, by rw [tokens, mark], by simp, by simp⟩
  | dict members => exact ⟨_, _, _, by rw [tokens, mark], by simp, by simp⟩

theorem tokens_length_pos (v : PyData F) : 0 < (tokens tables v).length := by
  obtain ⟨kind, value, ts, htokens, -⟩ := tokens_first tables v
  rw [htokens]
  exact Nat.succ_pos _

theorem intercalate_first {α : Type} (separator : List (TokenKind × α)) (kind : TokenKind)
    (value : α) (ts : List (TokenKind × α)) (tss : List (List (TokenKind × α))) :
    ∃ ts', List.intercalate separator (((kind, value) :: ts) :: tss) = (kind, value) :: ts' := by
  cases tss with
  | nil => exact ⟨ts, List.intercalate_singleton⟩
  | cons next tss => exact ⟨_, by rw [List.intercalate_cons_cons]; rfl⟩

theorem length_intercalate_cons {α : Type} (separator : List α) (ts us : List α)
    (tss : List (List α)) :
    (List.intercalate separator (ts :: us :: tss)).length =
      ts.length+separator.length+(List.intercalate separator (us :: tss)).length := by
  rw [List.intercalate_cons_cons, List.length_append, List.length_append]

section Parts

variable {ts us us' : List (TokenKind × PyText)} {tss : List (List (TokenKind × PyText))}
  {kind : TokenKind} {value : PyText} {close : ℕ}

/-- The first token of parts with commas between them. -/
theorem Feeds.first (hus : us = (kind, value) :: us')
    (h : Feeds tables s (List.intercalate [mark 44] (us :: tss)++[mark close]) s₁) :
    ∃ token s', s.take tables = .ok (token, s') ∧ token.kind = kind ∧
      Feeds tables (s'.push token) (List.intercalate [mark 44] (us :: tss)++[mark close]) s₁ := by
  obtain ⟨ts', hts'⟩ := intercalate_first [mark 44] kind value us' tss
  have hfirst := h
  rw [hus, hts', List.cons_append] at hfirst
  obtain ⟨token, s', htake, hkind, -, -⟩ := hfirst.take
  exact ⟨token, s', htake, hkind, h.push htake (by simp)⟩

/-- The only part, and the token that closes it. -/
theorem Feeds.last
    (h : Feeds tables s (List.intercalate [mark 44] [ts]++[mark close]) s₁) :
    ∃ s' token, Feeds tables s ts s' ∧ s'.take tables = .ok (token, s₁) ∧
      token.kind = .mark close := by
  rw [List.intercalate_singleton] at h
  obtain ⟨s', hpart, hclose⟩ := h.split
  obtain ⟨token, s'', htake, hkind, -, hend⟩ := hclose.take
  cases hend
  exact ⟨s', token, hpart, htake, hkind⟩

/-- A part, the comma behind it, and the other parts, of which the first token can be looked at. -/
theorem Feeds.comma (hus : us = (kind, value) :: us')
    (h : Feeds tables s (List.intercalate [mark 44] (ts :: us :: tss)++[mark close]) s₁) :
    ∃ s' token s'' next s₃, Feeds tables s ts s' ∧ s'.take tables = .ok (token, s'') ∧
      token.kind = .mark 44 ∧ s''.take tables = .ok (next, s₃) ∧ next.kind = kind ∧
      Feeds tables (s₃.push next) (List.intercalate [mark 44] (us :: tss)++[mark close]) s₁ := by
  rw [List.intercalate_cons_cons, List.append_assoc, List.append_assoc] at h
  obtain ⟨s', hpart, hcomma⟩ := h.split
  obtain ⟨token, s'', htake, hkind, -, hrest⟩ := Feeds.take hcomma
  obtain ⟨next, s₃, htake', hkind', hpushed⟩ := Feeds.first hus hrest
  exact ⟨s', token, s'', next, s₃, hpart, htake, hkind, htake', hkind', hpushed⟩

end Parts

theorem ok_bind {α β : Type} (a : α) (f : α → DataResult β) : Except.ok a >>= f = f a := rfl

/-- The loop over the items. -/
theorem parseItems_feeds {items : List (PyData F)} (hne : items ≠ [])
    (hitems : ∀ item ∈ items, Parses tables constants item) (result : List (PyData F)) (fuel : ℕ)
    (hfuel : 4*(List.intercalate [mark 44] (items.map (tokens tables))).length ≤ fuel)
    (hfeeds : Feeds tables s
      (List.intercalate [mark 44] (items.map (tokens tables))++[mark 93]) s₁) :
    parseItems tables constants (fuel+1) result s =
      .ok (.list (result++items.map readBack), s₁) := by
  induction items generalizing s result fuel with
  | nil => contradiction
  | cons item items ih =>
    have hitem := hitems item List.mem_cons_self
    cases items with
    | nil =>
      rw [List.map_singleton] at hfuel hfeeds
      obtain ⟨s', token, hfirst, htake, hkind⟩ := hfeeds.last
      rw [List.intercalate_singleton] at hfuel
      have hvalue := hitem.parseValue_eq fuel hfuel (tokens_length_pos item) hfirst htake
        (by simp [hkind])
      rw [parseItems, hvalue, ok_bind]
      dsimp only
      rw [(peek_of_take htake).2]
      change (if token.kind = .mark 93 then _ else _) = _
      rw [if_pos hkind]
      rfl
    | cons next items =>
      obtain ⟨kind, value, ts, htokens, hnot, -⟩ := tokens_first tables next
      rw [List.map_cons, List.map_cons] at hfuel hfeeds
      rw [length_intercalate_cons, List.length_singleton] at hfuel
      obtain ⟨s', token, s'', token', s₃, hfirst, htake, hkind, htake', hkind', hnext⟩ :=
        hfeeds.comma htokens
      obtain ⟨fuel, rfl⟩ : ∃ n, fuel = n+1 := ⟨fuel-1, by omega⟩
      have hvalue := hitem.parseValue_eq (fuel+1) (by omega) (tokens_length_pos item) hfirst htake
        (by simp [hkind])
      have hitems' := ih (List.cons_ne_nil _ _)
        (fun item hmem => hitems item (List.mem_cons_of_mem _ hmem)) (result++[readBack item])
        fuel (by rw [List.map_cons]; omega) hnext
      rw [parseItems, hvalue, ok_bind]
      dsimp only
      rw [(peek_of_take htake).2]
      change (if token.kind = .mark 93 then _ else if token.kind ≠ .mark 44 then _ else _) = _
      rw [hkind, if_neg (by decide), if_neg (by simp)]
      change (s''.peek tables >>= _) = _
      rw [(peek_of_take htake').1]
      change (if token'.kind = .mark 93 then _ else _) = _
      rw [hkind', if_neg hnot, hitems']
      simp

/-- The tokens of a member. -/
def memberTokens (tables : PyTables F) (member : PyText × PyData F) :
    List (TokenKind × PyText) := (.string, utf16 member.1) :: mark 58 :: tokens tables member.2

/-- One round of the loop over the members, up to the delimiter. -/
theorem parseMembers_member {member : PyText × PyData F}
    (hmember : Parses tables constants member.2) (result : List (PyText × PyData F)) (fuel : ℕ)
    (hfuel : 4*(memberTokens tables member).length ≤ fuel) {token : Token}
    (hfeeds : Feeds tables s (memberTokens tables member) s₁)
    (htake : s₁.take tables = .ok (token, s₂)) (hplus : token.kind ≠ .mark 43) :
    parseMembers tables constants (fuel+1) result s =
      if token.kind = .mark 125 then
        .ok (.dict (setItem result (utf16 member.1) (readBack member.2)), s₂)
      else if token.kind ≠ .mark 44 then .error (.parseError "expected ',' or '\x7d' in object")
      else (do
        let (next, s) ← s₂.peek tables
        if next.kind = .mark 125 then
          let (_, s) ← s.take tables
          .ok (.dict (setItem result (utf16 member.1) (readBack member.2)), s)
        else
          parseMembers tables constants fuel
            (setItem result (utf16 member.1) (readBack member.2)) s) := by
  obtain ⟨key, s', hkey, hkind, hvalue, hrest⟩ := Feeds.take hfeeds
  obtain ⟨colon, s'', hcolon, hcolonKind, -, hrest'⟩ := Feeds.take hrest
  simp only [memberTokens, List.length_cons] at hfuel
  have hparsed := hmember.parseValue_eq fuel (by omega) (tokens_length_pos member.2) hrest' htake
    hplus
  have hexpect : DataParser.expect tables 58 "':'" s' = .ok s'' := by
    rw [DataParser.expect, hcolon]
    change (if colon.kind ≠ .mark 58 then _ else _) = _
    rw [if_neg (not_not.mpr hcolonKind)]
  rw [parseMembers, hkey]
  change (if key.kind ≠ .string ∧ key.kind ≠ .identifier ∧ key.kind ≠ .number then _ else _) = _
  rw [if_neg (fun h => h.1 hkind), hexpect]
  change (parseValue tables constants fuel s'' >>= _) = _
  rw [hparsed, ← hvalue, ok_bind]
  dsimp only
  rw [(peek_of_take htake).2]
  rfl

/-- The loop over the members. -/
theorem parseMembers_feeds {members : List (PyText × PyData F)} (hne : members ≠ [])
    (hmembers : ∀ member ∈ members, Parses tables constants member.2)
    (result : List (PyText × PyData F)) (fuel : ℕ)
    (hfuel : 4*(List.intercalate [mark 44] (members.map (memberTokens tables))).length ≤ fuel)
    (hfeeds : Feeds tables s
      (List.intercalate [mark 44] (members.map (memberTokens tables))++[mark 125]) s₁) :
    parseMembers tables constants (fuel+1) result s =
      .ok (.dict (readBackMembers result members), s₁) := by
  induction members generalizing s result fuel with
  | nil => contradiction
  | cons member members ih =>
    have hmember := hmembers member List.mem_cons_self
    cases members with
    | nil =>
      rw [List.map_singleton] at hfuel hfeeds
      obtain ⟨s', token, hfirst, htake, hkind⟩ := hfeeds.last
      rw [List.intercalate_singleton] at hfuel
      rw [parseMembers_member hmember result fuel hfuel hfirst htake (by simp [hkind]),
        if_pos hkind]
      rfl
    | cons next members =>
      rw [List.map_cons, List.map_cons] at hfuel hfeeds
      rw [length_intercalate_cons, List.length_singleton] at hfuel
      obtain ⟨s', token, s'', token', s₃, hfirst, htake, hkind, htake', hkind', hrest⟩ :=
        hfeeds.comma rfl
      obtain ⟨fuel, rfl⟩ : ∃ n, fuel = n+1 := ⟨fuel-1, by omega⟩
      have hnot : token'.kind ≠ .mark 125 := by simp [hkind']
      have hmembers' := ih (List.cons_ne_nil _ _)
        (fun member hmem => hmembers member (List.mem_cons_of_mem _ hmem))
        (setItem result (utf16 member.1) (readBack member.2)) fuel
        (by rw [List.map_cons]; omega) hrest
      rw [parseMembers_member hmember result (fuel+1) (by omega) hfirst htake (by simp [hkind]),
        hkind, if_neg (by decide), if_neg (by simp), (peek_of_take htake').1]
      change (if token'.kind = .mark 125 then _ else _) = _
      rw [if_neg hnot, hmembers']
      rfl

/-- A single token that is a value. -/
theorem parseAtom_take {token : Token} (htake : s.take tables = .ok (token, s₁)) (fuel : ℕ) :
    parseAtom tables constants (fuel+1) s =
      match token.kind with
      | .string => .ok (.str token.value, s₁)
      | .number => .ok (DataParser.numberValue tables token.value, s₁)
      | .identifier => do
        let value ← DataParser.identifierValue constants token
        .ok (value, s₁)
      | .mark char =>
        if char = 123 then parseObject tables constants fuel s₁
        else if char = 91 then parseArray tables constants fuel s₁
        else
          .error (.parseError ("expected data value at character " ++ toString token.position))
      | .eof =>
        .error (.parseError ("expected data value at character " ++ toString token.position)) := by
  rw [parseAtom, htake]
  rfl

/-- A value that is a single token. -/
theorem parseAtom_single (fuel : ℕ) (hfuel : 4*[(kind, value)].length ≤ fuel+1)
    (hfeeds : Feeds tables s [(kind, value)] s₁) : ∃ fuel' token, fuel = fuel'+1 ∧
      s.take tables = .ok (token, s₁) ∧ token.kind = kind ∧ token.value = value := by
  obtain ⟨fuel', rfl⟩ : ∃ n, fuel = n+1 := ⟨fuel-1, by simp at hfuel; omega⟩
  obtain ⟨token, s', htake, hkind, hvalue, hend⟩ := hfeeds.take
  cases hend
  exact ⟨fuel', token, rfl, htake, hkind, hvalue⟩

/-- A bracket or a brace. -/
theorem parseArray_feeds {items : List (PyData F)}
    (hitems : ∀ item ∈ items, Parses tables constants item) (fuel : ℕ)
    (hfuel : 4*(List.intercalate [mark 44] (items.map (tokens tables))).length+1 ≤ fuel)
    (hfeeds : Feeds tables s
      (List.intercalate [mark 44] (items.map (tokens tables))++[mark 93]) s₁) :
    parseArray tables constants (fuel+1) s = .ok (.list (items.map readBack), s₁) := by
  cases items with
  | nil =>
    obtain ⟨token, s', htake, hkind, -, hend⟩ := Feeds.take hfeeds
    cases hend
    rw [parseArray, (peek_of_take htake).1]
    change (if token.kind = .mark 93 then _ else _) = _
    rw [if_pos hkind]
    rw [(peek_of_take htake).2]
    rfl
  | cons item items =>
    obtain ⟨fuel, rfl⟩ : ∃ n, fuel = n+1 := ⟨fuel-1, by omega⟩
    obtain ⟨kind, value, ts, htokens, hnot, -⟩ := tokens_first tables item
    obtain ⟨token, s', htake, hkind, hpushed⟩ := Feeds.first htokens hfeeds
    have hparsed := parseItems_feeds (List.cons_ne_nil _ _) hitems [] fuel (by omega) hpushed
    rw [parseArray, (peek_of_take htake).1]
    change (if token.kind = .mark 93 then _ else _) = _
    rw [hkind, if_neg hnot, hparsed, List.nil_append]

theorem parseObject_feeds {members : List (PyText × PyData F)}
    (hmembers : ∀ member ∈ members, Parses tables constants member.2) (fuel : ℕ)
    (hfuel : 4*(List.intercalate [mark 44] (members.map (memberTokens tables))).length+1 ≤ fuel)
    (hfeeds : Feeds tables s
      (List.intercalate [mark 44] (members.map (memberTokens tables))++[mark 125]) s₁) :
    parseObject tables constants (fuel+1) s = .ok (.dict (readBackMembers [] members), s₁) := by
  cases members with
  | nil =>
    obtain ⟨token, s', htake, hkind, -, hend⟩ := Feeds.take hfeeds
    cases hend
    rw [parseObject, (peek_of_take htake).1]
    change (if token.kind = .mark 125 then _ else _) = _
    rw [if_pos hkind]
    rw [(peek_of_take htake).2]
    rfl
  | cons member members =>
    obtain ⟨fuel, rfl⟩ : ∃ n, fuel = n+1 := ⟨fuel-1, by omega⟩
    obtain ⟨token, s', htake, hkind, hpushed⟩ := Feeds.first rfl hfeeds
    have hnot : token.kind ≠ .mark 125 := by simp [hkind]
    have hparsed := parseMembers_feeds (List.cons_ne_nil _ _) hmembers [] fuel (by omega) hpushed
    rw [parseObject, (peek_of_take htake).1]
    change (if token.kind = .mark 125 then _ else _) = _
    rw [if_neg hnot, hparsed]

theorem parses (h : tables.Faithful) (v : PyData F) : Parses tables constants v := by
  induction v using PyData.induct with
  | pyNone =>
    intro fuel s s₁ hfuel hfeeds
    rw [tokens] at hfuel hfeeds
    obtain ⟨fuel, token, rfl, htake, hkind, hvalue⟩ := parseAtom_single fuel hfuel hfeeds
    have hnull : DataParser.identifierValue constants token = .ok .pyNone := by
      rw [DataParser.identifierValue, hvalue, if_neg (by decide), if_neg (by decide), if_pos rfl]
    rw [parseAtom_take htake, hkind]
    simp only [hnull, readBack]
    rfl
  | bool value =>
    intro fuel s s₁ hfuel hfeeds
    rw [tokens] at hfuel hfeeds
    obtain ⟨fuel, token, rfl, htake, hkind, hvalue⟩ := parseAtom_single fuel hfuel hfeeds
    have hbool : DataParser.identifierValue constants token = .ok (.bool value) := by
      rw [DataParser.identifierValue, hvalue]
      cases value with
      | true => rw [if_pos (by decide)]
      | false => rw [if_neg (by decide), if_pos (by decide)]
    rw [parseAtom_take htake, hkind]
    simp only [hbool, readBack]
    rfl
  | int value =>
    intro fuel s s₁ hfuel hfeeds
    rw [tokens] at hfuel hfeeds
    obtain ⟨fuel, token, rfl, htake, hkind, hvalue⟩ := parseAtom_single fuel hfuel hfeeds
    rw [parseAtom_take htake, hkind, hvalue]
    simp only [numberValue_decimalText, readBack]
  | float value =>
    intro fuel s s₁ hfuel hfeeds
    rw [tokens] at hfuel hfeeds
    obtain ⟨fuel, token, rfl, htake, hkind, hvalue⟩ := parseAtom_single fuel hfuel hfeeds
    rw [parseAtom_take htake, hkind, hvalue]
    simp only [numberValue_repr h, readBack]
  | str text =>
    intro fuel s s₁ hfuel hfeeds
    rw [tokens] at hfuel hfeeds
    obtain ⟨fuel, token, rfl, htake, hkind, hvalue⟩ := parseAtom_single fuel hfuel hfeeds
    rw [parseAtom_take htake, hkind, hvalue]
    simp only [readBack]
  | list items ih =>
    intro fuel s s₁ hfuel hfeeds
    rw [tokens, tokensItems_eq] at hfuel hfeeds
    simp only [List.length_cons, List.length_append, List.length_nil] at hfuel
    obtain ⟨fuel, rfl⟩ : ∃ n, fuel = n+2 := ⟨fuel-2, by omega⟩
    obtain ⟨token, s', htake, hkind, -, hrest⟩ := Feeds.take hfeeds
    rw [parseAtom_take htake, hkind]
    change parseArray tables constants (fuel+1) s' = _
    rw [parseArray_feeds ih fuel (by omega) hrest, readBack, readBackItems_eq]
  | dict members ih =>
    intro fuel s s₁ hfuel hfeeds
    rw [tokens, tokensMembers_eq] at hfuel hfeeds
    simp only [List.length_cons, List.length_append, List.length_nil] at hfuel
    obtain ⟨fuel, rfl⟩ : ∃ n, fuel = n+2 := ⟨fuel-2, by omega⟩
    obtain ⟨token, s', htake, hkind, -, hrest⟩ := Feeds.take hfeeds
    rw [parseAtom_take htake, hkind]
    change parseObject tables constants (fuel+1) s' = _
    have hfuel' : 4*(List.intercalate [mark 44] (members.map (memberTokens tables))).length+1 ≤
        fuel := by
      have hlength : (List.intercalate [mark 44] (members.map (memberTokens tables))).length =
          (List.intercalate [mark 44] (members.map (fun member =>
            (.string, utf16 member.1) :: mark 58 :: tokens tables member.2))).length := rfl
      omega
    rw [parseObject_feeds ih fuel hfuel' hrest, readBack]

end Parsing

section Lengths

theorem length_intercalate_le {texts : List PyText} {tss : List (List (TokenKind × PyText))}
    (h : List.Forall₂ (fun text ts => ts.length ≤ text.length) texts tss) :
    (List.intercalate [mark 44] tss).length ≤ (List.intercalate (codes ", ") texts).length := by
  induction h with
  | nil => exact Nat.le_refl _
  | @cons text ts texts tss hfirst hrest ih =>
    cases hrest with
    | nil => simpa using hfirst
    | cons hsecond hrest =>
      rw [List.intercalate_cons_cons, List.intercalate_cons_cons]
      have hseparator : (codes ", ").length = 2 := by decide
      simp only [List.length_append, List.length_singleton, hseparator]
      omega

theorem length_numberText {sign whole fraction exponent : PyText}
    (h : NumberText sign whole fraction exponent) :
    1 ≤ (sign++(whole++(fraction++exponent))).length := by
  have hpos := List.length_pos_iff.mpr h.ne_nil
  rw [List.length_append, List.length_append]
  omega

/-- Every token has at least one character. -/
theorem length_tokens_le (h : tables.Faithful) (v : PyData F) :
    (tokens tables v).length ≤ (dumps tables v).length := by
  induction v using PyData.induct with
  | pyNone =>
    rw [tokens, dumps]
    decide
  | bool value =>
    rw [tokens, dumps]
    cases value with
    | true => decide
    | false => decide
  | int value =>
    obtain ⟨sign, hsign, htext⟩ := decimalText_parts value
    have hparts := numberText_natural value.natAbs sign
      (hsign.imp (fun h => h.1) (fun h => h.1))
    rw [tokens, dumps, htext]
    exact length_numberText hparts
  | float value =>
    obtain ⟨sign, whole, fraction, exponent, htext, hparts, -⟩ := h.shape value
    rw [tokens, dumps, htext]
    exact length_numberText hparts
  | str text =>
    rw [tokens, dumps]
    exact Nat.succ_le_succ (Nat.zero_le _)
  | list items ih =>
    have hitems : List.Forall₂ (fun text ts => ts.length ≤ text.length)
        (items.map (dumps tables)) (items.map (tokens tables)) := by
      rw [List.forall₂_map_left_iff, List.forall₂_map_right_iff, List.forall₂_same]
      exact ih
    have hle := length_intercalate_le hitems
    rw [tokens, dumps, tokensItems_eq, dumpsItems_eq]
    simp only [List.length_cons, List.length_append, List.length_nil]
    omega
  | dict members ih =>
    have hmembers : List.Forall₂ (fun text ts => ts.length ≤ text.length)
        (members.map (fun member => encodeString member.1++(codes ": "++dumps tables member.2)))
        (members.map (memberTokens tables)) := by
      rw [List.forall₂_map_left_iff, List.forall₂_map_right_iff, List.forall₂_same]
      intro member hmember
      have hvalue := ih member hmember
      simp only [memberTokens, encodeString, List.length_cons, List.length_append]
      omega
    have hle := length_intercalate_le hmembers
    rw [tokens, dumps, tokensMembers_eq, dumpsMembers_eq]
    change (mark 123 :: (List.intercalate [mark 44] (members.map (memberTokens tables))++
      [mark 125])).length ≤ _
    simp only [List.length_cons, List.length_append, List.length_nil]
    omega

end Lengths

/-- The parser stops in front of this semicolon. -/
def stopped (position : ℕ) (rest : PyText) : TokenStream :=
  (streamAt (position+1) rest).push ⟨.mark 59, [59], position⟩

theorem take_semicolon (position : ℕ) (rest : PyText) :
    (streamAt position (59 :: rest)).take tables =
      .ok (⟨.mark 59, [59], position⟩, streamAt (position+1) rest) :=
  take_of_next (next_mark (by decide) position rest) rfl

theorem parse_dumps (h : tables.Faithful) (constants : List (PyText × PyData F)) (v : PyData F)
    (rest : PyText) : DataParser.parse tables constants (dumps tables v++59 :: rest) =
      .ok (readBack v, stopped (dumps tables v).length rest) := by
  have hfeeds := (lexes_dumps h v).2 0 (59 :: rest) (stops_cons (by decide) _)
  rw [Nat.zero_add] at hfeeds
  have hlength := length_tokens_le h v
  refine (parses h v).parseValue_eq _ ?_ (tokens_length_pos v) hfeeds (take_semicolon _ rest) ?_
  · rw [List.length_append]
    omega
  · simp

/-- In every `dict`, each key stands once. -/
inductive DistinctKeys : PyData F → Prop
  | pyNone : DistinctKeys .pyNone
  | bool (value : Bool) : DistinctKeys (.bool value)
  | int (value : ℤ) : DistinctKeys (.int value)
  | float (value : F) : DistinctKeys (.float value)
  | str (text : PyText) : DistinctKeys (.str text)
  | list {items : List (PyData F)} (h : ∀ item ∈ items, DistinctKeys item) :
      DistinctKeys (.list items)
  | dict {members : List (PyText × PyData F)} (hkeys : (members.map Prod.fst).Nodup)
      (h : ∀ member ∈ members, DistinctKeys member.2) : DistinctKeys (.dict members)

/-- No text, and no key, has a character outside of the basic plane. -/
inductive BasicPlane : PyData F → Prop
  | pyNone : BasicPlane .pyNone
  | bool (value : Bool) : BasicPlane (.bool value)
  | int (value : ℤ) : BasicPlane (.int value)
  | float (value : F) : BasicPlane (.float value)
  | str {text : PyText} (h : ∀ c ∈ text, c < 0x10000) : BasicPlane (.str text)
  | list {items : List (PyData F)} (h : ∀ item ∈ items, BasicPlane item) :
      BasicPlane (.list items)
  | dict {members : List (PyText × PyData F)} (hkeys : ∀ member ∈ members, ∀ c ∈ member.1,
      c < 0x10000) (h : ∀ member ∈ members, BasicPlane member.2) : BasicPlane (.dict members)

section Planes

theorem utf16_lt (text : PyText) : ∀ c ∈ utf16 text, c < 0x10000 := by
  intro c hc
  obtain ⟨d, -, hd⟩ := List.mem_flatMap.mp hc
  exact units_lt d c hd

theorem mem_setItem {members : List (PyText × PyData F)} {key : PyText} {value : PyData F}
    {member : PyText × PyData F} (h : member ∈ DataParser.setItem members key value) :
    member ∈ members ∨ member = (key, value) := by
  rw [DataParser.setItem] at h
  split_ifs at h
  · obtain ⟨old, hold, rfl⟩ := List.mem_map.mp h
    split_ifs
    · exact .inr rfl
    · exact .inl hold
  · rcases List.mem_append.mp h with hold | hnew
    · exact .inl hold
    · exact .inr (List.mem_singleton.mp hnew)

theorem mem_readBackMembers {result members : List (PyText × PyData F)}
    {member : PyText × PyData F} (h : member ∈ readBackMembers result members) :
    member ∈ result ∨ ∃ old ∈ members, member = (utf16 old.1, readBack old.2) := by
  induction members generalizing result with
  | nil => exact .inl h
  | cons old members ih =>
    rcases ih h with hresult | ⟨old', hold', rfl⟩
    · rcases mem_setItem hresult with hresult | rfl
      · exact .inl hresult
      · exact .inr ⟨old, List.mem_cons_self, rfl⟩
    · exact .inr ⟨old', List.mem_cons_of_mem _ hold', rfl⟩

/-- What comes back has no such character. -/
theorem basicPlane_readBack (v : PyData F) : BasicPlane (readBack v) := by
  induction v using PyData.induct with
  | pyNone => rw [readBack]; exact .pyNone
  | bool value => rw [readBack]; exact .bool value
  | int value => rw [readBack]; exact .int value
  | float value => rw [readBack]; exact .float value
  | str text =>
    rw [readBack]
    exact .str (utf16_lt text)
  | list items ih =>
    rw [readBack, readBackItems_eq]
    refine .list ?_
    intro item hitem
    obtain ⟨old, hold, rfl⟩ := List.mem_map.mp hitem
    exact ih old hold
  | dict members ih =>
    rw [readBack]
    refine .dict ?_ ?_
    · intro member hmember
      rcases mem_readBackMembers hmember with hnone | ⟨old, -, rfl⟩
      · contradiction
      · exact utf16_lt old.1
    · intro member hmember
      rcases mem_readBackMembers hmember with hnone | ⟨old, hold, rfl⟩
      · contradiction
      · exact ih old hold

theorem readBackMembers_append {result members : List (PyText × PyData F)}
    (hkeys : ((result++members).map Prod.fst).Nodup)
    (hsame : ∀ member ∈ members, utf16 member.1 = member.1 ∧ readBack member.2 = member.2) :
    readBackMembers result members = result++members := by
  induction members generalizing result with
  | nil => rw [readBackMembers, List.append_nil]
  | cons member members ih =>
    obtain ⟨hkey, hvalue⟩ := hsame member List.mem_cons_self
    have hnew : member.1 ∉ result.map Prod.fst := by
      rw [List.map_append, List.map_cons] at hkeys
      have hdisjoint := List.disjoint_of_nodup_append hkeys
      exact fun hmem => hdisjoint hmem List.mem_cons_self
    have hset : DataParser.setItem result (utf16 member.1) (readBack member.2) =
        result++[member] := by
      rw [hkey, hvalue, DataParser.setItem, if_neg hnew]
    rw [readBackMembers, hset, ih ?_ ?_, List.append_assoc]
    · rfl
    · rw [List.append_assoc]
      exact hkeys
    · exact fun member hmem => hsame member (List.mem_cons_of_mem _ hmem)

theorem readBack_eq {v : PyData F} (hkeys : DistinctKeys v) (hplane : BasicPlane v) :
    readBack v = v := by
  induction v using PyData.induct with
  | pyNone => rw [readBack]
  | bool value => rw [readBack]
  | int value => rw [readBack]
  | float value => rw [readBack]
  | str text =>
    cases hplane with
    | str h => rw [readBack, utf16_small h]
  | list items ih =>
    cases hplane with
    | list hplane =>
      cases hkeys with
      | list hkeys =>
        rw [readBack, readBackItems_eq]
        congr 1
        have hall : ∀ item ∈ items, readBack item = id item :=
          fun item hitem => ih item hitem (hkeys item hitem) (hplane item hitem)
        rw [List.map_congr_left hall, List.map_id]
  | dict members ih =>
    cases hplane with
    | dict hchars hplane =>
      cases hkeys with
      | dict hnodup hkeys =>
        rw [readBack, readBackMembers_append hnodup ?_]
        · rfl
        · intro member hmember
          exact ⟨utf16_small (hchars member hmember),
            ih member hmember (hkeys member hmember) (hplane member hmember)⟩

/-- Data comes back as it is exactly if it has no character outside of the basic plane. -/
theorem readBack_eq_iff {v : PyData F} (hkeys : DistinctKeys v) :
    readBack v = v ↔ BasicPlane v := by
  constructor
  · intro heq
    have hplane := basicPlane_readBack v
    rw [heq] at hplane
    exact hplane
  · exact readBack_eq hkeys

end Planes

section Literals

/-- The literal has no escape that is misread and, as a template, no carriage return; and no pair
of surrogates that is spelled as two characters. -/
def literalReadsRight : PyText → Bool
  | [] => true
  | quote :: rest => readsRight quote rest.dropLast && spelledApart false rest.dropLast

theorem next_fails {quote : ℕ} (hquote : quote ∈ [34, 39, 96]) {text : PyText} {error : DataError}
    (h : readString quote text = .error error) (position : ℕ) :
    (streamAt position (quote :: text)).next tables = .error error := by
  have hspace : ∀ c ∈ [34, 39, 96], isSpace c = false ∧ c ∉ codes "\x7b\x7d[],:;+" ∧
      c ∈ codes "\"'\x60" := by decide
  obtain ⟨hblank, hmark, hcodes⟩ := hspace quote hquote
  rw [TokenStream.next, skipSpace_of_not hblank]
  simp only [streamAt, if_neg hmark, if_pos hcodes, h]
  rfl

/-- A string behind which a semicolon stands. -/
theorem parse_string {quote : ℕ} (hquote : quote ∈ [34, 39, 96]) {text chars rest : PyText}
    (constants : List (PyText × PyData F))
    (h : readString quote text = .ok (chars, 59 :: rest)) : ∃ s,
      DataParser.parse tables constants (quote :: text) = .ok (.str chars, s) := by
  have htake : (streamAt 0 (quote :: text)).take tables = _ :=
    take_of_next (next_string hquote h 0) rfl
  have hatom : DataParser.parseAtom tables constants (4*(quote :: text).length+2+1)
      (streamAt 0 (quote :: text)) = .ok (.str chars, _) := parseAtom_take htake _
  exact ⟨_, parseValue_of_atom hatom (take_semicolon _ rest) (by simp)⟩

/-- Where the string is refused, so is the source. -/
theorem parse_fails {quote : ℕ} (hquote : quote ∈ [34, 39, 96]) {text : PyText}
    {error : DataError} (constants : List (PyText × PyData F))
    (h : readString quote text = .error error) :
    DataParser.parse tables constants (quote :: text) = .error error := by
  have hpeek : (streamAt 0 (quote :: text)).peek tables = .error error := by
    change ((streamAt 0 (quote :: text)).next tables >>= _) = _
    rw [next_fails hquote h]
    rfl
  have hatom : DataParser.parseAtom tables constants (4*(quote :: text).length+2+1)
      (streamAt 0 (quote :: text)) = .error error := by
    rw [DataParser.parseAtom, TokenStream.take, hpeek]
    rfl
  change DataParser.parseValue tables constants (4*(quote :: text).length+2+2)
    (streamAt 0 (quote :: text)) = _
  rw [DataParser.parseValue, hatom]
  rfl

theorem readString_cases {quote : ℕ} {text chars rest : PyText}
    (h : readChars quote text = .ok (chars, rest)) :
    readString quote text = .ok (chars, rest) ∨ ∃ error, readString quote text = .error error := by
  rw [readString, h]
  by_cases hinterpolation : quote = 96 ∧ [36, 123] <:+: chars
  · exact .inr ⟨_, if_pos hinterpolation⟩
  · exact .inl (if_neg hinterpolation)

/-- Of a literal that the parser accepts, it has the value exactly if the literal reads right. -/
theorem parse_literal {literal value rest : PyText} (h : StringLiterals.Literal literal value)
    {constants : List (PyText × PyData F)} {v : PyData F} {s : TokenStream}
    (haccept : DataParser.parse tables constants (literal++59 :: rest) = .ok (v, s)) :
    ∃ text, v = .str text ∧ (text = codePoints value ↔ literalReadsRight literal = true) := by
  obtain ⟨quote, hquote, body, rfl, hbody⟩ := h
  have houtcome := outcome_of_body hquote hbody (59 :: rest)
  have htext : quote :: (body++[quote])++59 :: rest = quote :: (body++quote :: 59 :: rest) := by
    simp
  have hright : literalReadsRight (quote :: (body++[quote])) =
      (readsRight quote body && spelledApart false body) := by
    rw [literalReadsRight, List.dropLast_concat]
  rw [htext] at haccept
  rw [hright, Bool.and_eq_true]
  have hfails : ∀ error, readString quote (body++quote :: 59 :: rest) ≠ .error error := by
    intro error herror
    rw [parse_fails hquote constants herror] at haccept
    contradiction
  generalize hread : readChars quote (body++quote :: 59 :: rest) = result at houtcome
  cases houtcome with
  | fails error =>
    refine absurd ?_ (hfails error)
    rw [readString, hread]
    rfl
  | reads chars hlength hsame hsmall hapart =>
    rcases readString_cases hread with hstring | ⟨error, herror⟩
    · obtain ⟨s', hparsed⟩ := parse_string (F := F) hquote constants hstring
      rw [hparsed] at haccept
      obtain ⟨rfl, -⟩ := Prod.mk.inj (Except.ok.inj haccept)
      refine ⟨chars, rfl, ?_⟩
      rw [StringLiterals.eq_codePoints_iff (body_units hbody) (fun h => hsmall (hsame.mp h)), hsame]
      exact and_congr_right (fun h => by rw [hapart h])
    · exact absurd herror (hfails error)

end Literals

/-- What `json.dumps` has written is read back, up to the semicolon behind it, exactly if it has no
character outside of the basic plane; and a literal of ECMAScript that is accepted has the
characters of its value exactly if it has no octal escape, no continuation by U+2028 or U+2029, no
pair of surrogates that is spelled as two characters and, as a template, no carriage return. -/
theorem data_parser_iff (h : tables.Faithful) (constants : List (PyText × PyData F)) :
    (∀ v rest, DistinctKeys v →
      (DataParser.parse tables constants (dumps tables v++59 :: rest) =
        .ok (v, stopped (dumps tables v).length rest) ↔ BasicPlane v)) ∧
    ∀ literal value rest v s, StringLiterals.Literal literal value →
      DataParser.parse tables constants (literal++59 :: rest) = .ok (v, s) →
      ∃ text, v = .str text ∧
        (text = codePoints value ↔ literalReadsRight literal = true) := by
  refine ⟨?_, ?_⟩
  · intro v rest hkeys
    rw [parse_dumps h constants v rest, ← readBack_eq_iff hkeys]
    constructor
    · intro heq
      exact (Prod.mk.inj (Except.ok.inj heq)).1
    · intro heq
      rw [heq]
  · intro literal value rest v s hliteral haccept
    exact parse_literal hliteral haccept

section Examples

/-- Two of the finite numbers, 1.5 and 1e-07. -/
def twoFloats : PyTables Bool where
  isdigit _ := false
  isalpha _ := false
  repr value := if value then codes "1.5" else codes "1e-07"
  float text := text = codes "1.5"

theorem twoFloats_faithful : twoFloats.Faithful where
  float_repr value := by
    cases value with
    | true => rfl
    | false => rfl
  shape value := by
    cases value with
    | true =>
      refine ⟨[], [49], [46, 53], [], rfl, ⟨.inl rfl, ?_, ?_, ?_, ?_, .inl rfl⟩, ?_⟩
      · decide
      · decide
      · decide
      · exact .inr ⟨[53], by decide⟩
      · decide
    | false =>
      refine ⟨[], [49], [], [101, 45, 48, 55], rfl, ⟨.inl rfl, ?_, ?_, ?_, .inl rfl, ?_⟩, ?_⟩
      · decide
      · decide
      · decide
      · exact .inr ⟨101, [45], [48, 55], by decide⟩
      · decide

/-- U+1F600 comes back as two surrogates. -/
theorem astral_split : DistinctKeys (.str [0x1F600] : PyData Bool) ∧
    dumps twoFloats (.str [0x1F600]) = codes "\"\\ud83d\\ude00\"" ∧
    DataParser.parse twoFloats [] (dumps twoFloats (.str [0x1F600])++[59]) =
      .ok (.str [0xD83D, 0xDE00], stopped 14 []) ∧
    DataParser.parse twoFloats [] (dumps twoFloats (.str [0x1F600])++[59]) ≠
      .ok (.str [0x1F600], stopped 14 []) := by
  have hdumps : dumps twoFloats (.str [0x1F600]) = codes "\"\\ud83d\\ude00\"" := by
    rw [dumps]
    decide
  have hparsed := parse_dumps twoFloats_faithful [] (.str [0x1F600]) []
  have hlength : (dumps twoFloats (.str [0x1F600])).length = 14 := by
    rw [hdumps]
    decide
  rw [hlength, readBack] at hparsed
  refine ⟨.str _, hdumps, hparsed, ?_⟩
  rw [hparsed]
  intro heq
  have htext := PyData.str.inj (Prod.mk.inj (Except.ok.inj heq)).1
  exact absurd htext (by decide)

/-- A number, a text, a list and a `dict`; and literals between single quotes, one of them with a
character as it is, the other with its two surrogates. -/
theorem data_parser_reads :
    DataParser.parse twoFloats []
      (dumps twoFloats (.dict [(codes "k", .list [.float true, .int (-3), .str [0xE9]])])++[59]) =
      .ok (.dict [(codes "k", .list [.float true, .int (-3), .str [0xE9]])], stopped 26 []) ∧
    (∃ text, (.str [0x1F600] : PyData Bool) = .str text ∧
      (text = codePoints [0xD83D, 0xDE00] ↔ literalReadsRight [39, 0x1F600, 39] = true)) ∧
    ∃ text, (.str [0xD83D, 0xDE00] : PyData Bool) = .str text ∧
      (text = codePoints [0xD83D, 0xDE00] ↔
        literalReadsRight (codes "'\\ud83d\\ude00'") = true) := by
  obtain ⟨hdumps, hliterals⟩ := data_parser_iff twoFloats_faithful []
  refine ⟨?_, ?_, ?_⟩
  · have hkeys : ∀ item ∈ [.float true, .int (-3), .str [0xE9]], DistinctKeys (F := Bool) item := by
      simp only [List.forall_mem_cons, List.not_mem_nil, false_implies, implies_true, and_true]
      exact ⟨.float true, .int (-3), .str [0xE9]⟩
    have hplane : ∀ item ∈ [.float true, .int (-3), .str [0xE9]], BasicPlane (F := Bool) item := by
      simp only [List.forall_mem_cons, List.not_mem_nil, false_implies, implies_true, and_true]
      exact ⟨.float true, .int (-3), .str (by decide)⟩
    refine (hdumps _ [] (.dict (by decide) ?_)).mpr (.dict (by decide) ?_)
    · rw [List.forall_mem_singleton]
      exact .list hkeys
    · rw [List.forall_mem_singleton]
      exact .list hplane
  · have hplain : StringLiterals.PlainCharacter 39 0x1F600 [] :=
      ⟨by decide, by decide, by decide, by decide, by decide,
        fun hquote => absurd hquote (by decide)⟩
    have hbody : StringLiterals.Body 39 [0x1F600] [0xD83D, 0xDE00] := .plain hplain .nil
    have hread : readString 39 [0x1F600, 39, 59] = .ok ([0x1F600], [59]) := by
      rw [readString, readChars_plain (by decide) (by decide), readChars_quote]
      rfl
    obtain ⟨s, hparsed⟩ := @parse_string Bool twoFloats 39 (by decide) _ _ _ [] hread
    exact hliterals [39, 0x1F600, 39] _ [] _ s ⟨39, by decide, [0x1F600], rfl, hbody⟩ hparsed
  · have hbody : StringLiterals.Body 39 (codes "\\ud83d\\ude00") [0xD83D, 0xDE00] :=
      .unicode (by decide) (.unicode (by decide) .nil)
    have hchars : readChars 39 (codes "\\ud83d\\ude00'"++[59]) =
        .ok ([0xD83D, 0xDE00], [59]) := by
      show readChars 39 [92, 117, 100, 56, 51, 100, 92, 117, 100, 101, 48, 48, 39, 59] = _
      rw [readChars_unicode (by decide) (v := 0xD83D) (by decide),
        readChars_unicode (by decide) (v := 0xDE00) (by decide), readChars_quote]
      rfl
    have hread : readString 39 (codes "\\ud83d\\ude00'"++[59]) =
        .ok ([0xD83D, 0xDE00], [59]) := by
      rw [readString, hchars]
      rfl
    obtain ⟨s, hparsed⟩ := @parse_string Bool twoFloats 39 (by decide) _ _ _ [] hread
    exact hliterals (codes "'\\ud83d\\ude00'") _ [] _ s
      ⟨39, by decide, codes "\\ud83d\\ude00", rfl, hbody⟩ hparsed

end Examples

end JingjieAR.PanoData
