import JingjieAR.DelimitedFields
import JingjieAR.FinmapInsertions
import JingjieAR.HttpContextRoundTrip
import JingjieAR.RelatedLists
import JingjieAR.UrlCoding

/-! The parameters of a query string. A form writes each key and each value with escapes of its
choice; from its query string, whatever the order of the pairs, the same map comes back. -/
namespace JingjieAR

def ampersand : UInt8 := 38
def equalsSign : UInt8 := 61

/-- The body of the loop of `queryParameters`. -/
def addPair (params : StringMap) (pair : Bytes) : StringMap :=
  if pair = [] then params
  else
    match findByte equalsSign pair with
    | some eqPos => params.insert (urlDecode (pair.take eqPos)) (urlDecode (pair.drop (eqPos+1)))
    | none => params.insert (urlDecode pair) []

/-- The parameters, and the request that has them ready for the next call. -/
def HttpRequest.queryParameters (r : HttpRequest) : StringMap × HttpRequest :=
  if r.queryParsed then (r.queryParams, r)
  else if r.query = [] then (r.queryParams, { r with queryParsed := true })
  else
    let params := (getlines ampersand r.query).foldl addPair r.queryParams
    (params, { r with queryParsed := true, queryParams := params })

/-- The bytes that a form never leaves as they are. -/
def formReserved : List UInt8 := [percent, plus, ampersand, equalsSign]

/-- A form may write a byte as it is, a space as `+`, and every byte as an escape. -/
inductive FormEncodes : Bytes → Bytes → Prop
  | nil : FormEncodes [] []
  | literal {c : UInt8} {text encoded : Bytes} (hc : c ∉ formReserved)
      (h : FormEncodes text encoded) : FormEncodes (c :: text) (c :: encoded)
  | blank {text encoded : Bytes} (h : FormEncodes text encoded) :
      FormEncodes (space :: text) (plus :: encoded)
  | escape {a b : UInt8} {high low : ℕ} {text encoded : Bytes} (ha : hexDigitValue a = some high)
      (hb : hexDigitValue b = some low) (h : FormEncodes text encoded) :
      FormEncodes (UInt8.ofNat (high*16+low) :: text) (percent :: a :: b :: encoded)

theorem FormEncodes.decoded {text encoded : Bytes} (h : FormEncodes text encoded) :
    urlDecode encoded = text := by
  induction h with
  | nil => rfl
  | literal hc h ih =>
    obtain ⟨hpercent, hplus, -⟩ := by simpa [formReserved] using hc
    rw [urlDecode_cons_plain hpercent, ih, decodePlain, if_neg hplus]
  | blank h ih =>
    rw [urlDecode_cons_plain (by decide), ih]
    rfl
  | escape ha hb h ih => rw [urlDecode_escape ha hb, ih]

theorem digit_notMem {a : UInt8} {n : ℕ} (h : hexDigitValue a = some n) :
    a ≠ ampersand ∧ a ≠ equalsSign := by
  constructor
  · rintro rfl
    simp [show hexDigitValue ampersand = none by decide] at h
  · rintro rfl
    simp [show hexDigitValue equalsSign = none by decide] at h

/-- No separator is left in what a form has written. -/
theorem FormEncodes.separators {text encoded : Bytes} (h : FormEncodes text encoded) :
    ampersand ∉ encoded ∧ equalsSign ∉ encoded := by
  induction h with
  | nil => simp
  | literal hc h ih =>
    obtain ⟨-, -, hampersand, hequals⟩ := by simpa [formReserved] using hc
    simp [ih.1, ih.2, Ne.symm hampersand, Ne.symm hequals]
  | blank h ih =>
    simp only [List.mem_cons, not_or]
    exact ⟨⟨by decide, ih.1⟩, by decide, ih.2⟩
  | escape ha hb h ih =>
    have ha' := digit_notMem ha
    have hb' := digit_notMem hb
    simp only [List.mem_cons, not_or]
    exact ⟨⟨by decide, ha'.1.symm, hb'.1.symm, ih.1⟩, by decide, ha'.2.symm, hb'.2.symm, ih.2⟩

/-- `pair` is a key and its value as a form writes them. -/
def EncodesPair (e : Bytes × Bytes) (pair : Bytes) : Prop :=
  ∃ key value, FormEncodes e.1 key ∧ FormEncodes e.2 value ∧ pair = key++equalsSign :: value

theorem EncodesPair.added {e : Bytes × Bytes} {pair : Bytes} (h : EncodesPair e pair)
    (params : StringMap) : addPair params pair = params.insert e.1 e.2 := by
  obtain ⟨key, value, hkey, hvalue, rfl⟩ := h
  have hne : key++equalsSign :: value ≠ [] := by simp
  rw [addPair, if_neg hne, findByte_append_cons value hkey.separators.2]
  dsimp only
  rw [List.take_left, ← List.drop_drop, List.drop_left, hkey.decoded, List.drop_one,
    List.tail_cons, hvalue.decoded]

theorem EncodesPair.field {e : Bytes × Bytes} {pair : Bytes} (h : EncodesPair e pair) :
    ampersand ∉ pair ∧ pair ≠ [] := by
  obtain ⟨key, value, hkey, hvalue, rfl⟩ := h
  have hne : ampersand ≠ equalsSign := by decide
  simp [hkey.separators.1, hvalue.separators.1, hne]

theorem foldl_addPair {entries : List (Bytes × Bytes)} {pairs : List Bytes}
    (h : List.Forall₂ EncodesPair entries pairs) (params : StringMap) :
    pairs.foldl addPair params = insertBindings params entries := by
  induction h generalizing params with
  | nil => rfl
  | cons hpair hpairs ih =>
    rw [List.foldl_cons, hpair.added, ih]
    rfl

theorem getlines_pairs {entries : List (Bytes × Bytes)} {pairs : List Bytes}
    (h : List.Forall₂ EncodesPair entries pairs) :
    getlines ampersand ([ampersand].intercalate pairs) = pairs := by
  have hfields : ∀ pair ∈ pairs, ampersand ∉ pair ∧ pair ≠ [] := by
    intro pair hpair
    obtain ⟨e, -, he⟩ := exists_left_of_mem h hpair
    exact he.field
  apply getlines_intercalate
  · intro pair hpair
    exact (hfields pair hpair).1
  · intro hlast
    exact (hfields [] (List.mem_of_getLast? hlast)).2 rfl

/-- A query string is read pair by pair, an empty one like any other. -/
theorem queryParameters_setQuery (r : HttpRequest) (query : Bytes) :
    ((r.setQuery query).queryParameters).1 = (getlines ampersand query).foldl addPair ∅ := by
  by_cases hempty : query = []
  · subst hempty
    rfl
  · simp [HttpRequest.queryParameters, HttpRequest.setQuery, hempty]

/-- A form's query string gives the map back that it was made from, however its bytes are
written and in whatever order its pairs come. Decoding makes no text longer, and it keeps a `%`
that is not followed by two digits. -/
theorem queryString_roundTrip :
    (∀ (m : StringMap) (entries : List (Bytes × Bytes)) (pairs : List Bytes) (r : HttpRequest),
      (∀ k v, (k, v) ∈ entries ↔ m.lookup k = some v) →
        List.Forall₂ EncodesPair entries pairs →
          ((r.setQuery ([ampersand].intercalate pairs)).queryParameters).1 = m) ∧
    (∀ text : Bytes, (urlDecode text).length ≤ text.length) ∧
    ∀ before rest : Bytes, ¬BeginsDigits rest →
      urlDecode (before++percent :: rest) = urlDecode before++percent :: urlDecode rest := by
  refine ⟨?_, length_urlDecode_le, fun before rest h => urlDecode_kept h before⟩
  intro m entries pairs r hentries hpairs
  rw [queryParameters_setQuery, getlines_pairs hpairs, foldl_addPair hpairs]
  exact insertBindings_eq hentries

/-- `a&b` with the value `c d`, and an empty key with an empty value. -/
def smallForm : List (Bytes × Bytes) := [(ascii "a&b", ascii "c d"), ([], [])]

theorem encodes_smallForm :
    List.Forall₂ EncodesPair smallForm [ascii "a%26b=c+d", ascii "="] := by
  have hkey : FormEncodes (ascii "a&b") (ascii "a%26b") :=
    .literal (by decide) (.escape (show hexDigitValue 50 = some 2 by decide)
      (show hexDigitValue 54 = some 6 by decide) (.literal (by decide) .nil))
  have hvalue : FormEncodes (ascii "c d") (ascii "c+d") :=
    .literal (by decide) (.blank (.literal (by decide) .nil))
  exact .cons ⟨_, _, hkey, hvalue, rfl⟩ (.cons ⟨[], [], .nil, .nil, rfl⟩ .nil)

theorem queryString_roundTrip_small :
    ((({} : HttpRequest).setQuery (ascii "a%26b=c+d&=")).queryParameters).1 =
        insertBindings ∅ smallForm ∧
      urlDecode (ascii "5%") = ascii "5%" := by
  have hnodup : (smallForm.map Prod.fst).Nodup := by decide
  exact ⟨queryString_roundTrip.1 _ _ _ {} (mem_iff_lookup_insertBindings hnodup) encodes_smallForm,
    queryString_roundTrip.2.2 (ascii "5") [] (by simp [BeginsDigits])⟩

end JingjieAR
