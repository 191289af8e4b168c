import JingjieAR.BigEndian
import JingjieAR.HttpResponseModel

/-! Sessions of the framework, `http::session::Session`, and their text in Redis. A session
whose parts have a length of 32 bits is read back as it was written. -/
namespace JingjieAR

/-- `http::session::Session` -/
structure HttpSession where
  id : Bytes := []
  values : OrderedMap Bytes Bytes := .empty
  expiresAt : Int64 := 0
  ttlSeconds : Int64 := 0
deriving DecidableEq

namespace HttpSession

def setValue (session : HttpSession) (key value : Bytes) : HttpSession :=
  { session with values := session.values.insert key value }

def remove (session : HttpSession) (key : Bytes) : HttpSession :=
  { session with values := session.values.erase key }

def clear (session : HttpSession) : HttpSession := { session with values := .empty }

def refresh (session : HttpSession) (nowMs : Int64) : HttpSession :=
  { session with expiresAt := nowMs+session.ttlSeconds*1000 }

def expired (session : HttpSession) (nowMs : Int64) : Bool := session.expiresAt ≤ nowMs

end HttpSession

def UINT32_MAX : ℕ := 4294967295

namespace RedisSessionStorage

open BigEndian (putString getString)

def put32 (value : ℕ) : Bytes := BigEndian.put 4 value

def put64 (value : Int64) : Bytes := BigEndian.put 8 value.toUInt64.toNat

def get32 (text : Bytes) : Option (ℕ × Bytes) := BigEndian.get 4 text

def get64 (text : Bytes) : Option (Int64 × Bytes) :=
  (BigEndian.get 8 text).map (Prod.map (fun value => (UInt64.ofNat value).toInt64) id)

/-- The loop of `encode`. -/
def encodeValues : List (Bytes × Bytes) → Option Bytes
  | [] => some []
  | (key, value) :: entries =>
    if key.length > UINT32_MAX ∨ value.length > UINT32_MAX then none
    else (encodeValues entries).map (putString key++putString value++·)

/-- The text of a session, or none, which is an empty one. The values are written in the
order in which the table visits them. -/
def encode (session : HttpSession) (visit : Iteration (Bytes × Bytes)) : Bytes :=
  let values := session.values.entries
  if session.id.length > UINT32_MAX ∨ values.length > UINT32_MAX then []
  else
    match encodeValues (visit.order values) with
    | none => []
    | some text =>
      putString session.id++put64 session.expiresAt++put64 session.ttlSeconds++
        put32 values.length++text

/-- The loop of `decode`. A key that comes twice is an error. -/
def decodeValues : ℕ → Bytes → List Bytes → HttpSession → Option (HttpSession × Bytes)
  | 0, text, _, decoded => some (decoded, text)
  | count+1, text, keys, decoded => do
    let (key, text) ← getString text
    let (value, text) ← getString text
    if keys.contains key then none
    else decodeValues count text (key :: keys) (decoded.setValue key value)

def decode (text : Bytes) : Option HttpSession := do
  let (id, text) ← getString text
  let (expires, text) ← get64 text
  let (ttl, text) ← get64 text
  let (count, text) ← get32 text
  let (decoded, text) ←
    decodeValues count text [] { id := id, expiresAt := expires, ttlSeconds := ttl }
  if text ≠ [] then none else some decoded

theorem get64_put64 (value : Int64) (rest : Bytes) :
    get64 (put64 value++rest) = some (value, rest) := by
  rw [get64, put64, BigEndian.get_put value.toUInt64.toNat_lt, Option.map_some, Prod.map_apply,
    UInt64.ofNat_toNat, Int64.toInt64_toUInt64, id]

theorem get32_put32 {value : ℕ} (h : value ≤ UINT32_MAX) (rest : Bytes) :
    get32 (put32 value++rest) = some (value, rest) :=
  BigEndian.get_put (Nat.lt_succ_of_le h) rest

theorem getString_putString {text : Bytes} (h : text.length ≤ UINT32_MAX) (rest : Bytes) :
    getString (putString text++rest) = some (text, rest) :=
  BigEndian.getString_putString (Nat.lt_succ_of_le h) rest

/-- The lengths that a session is written with have 32 bits. -/
structure EncodableSession (session : HttpSession) : Prop where
  id : session.id.length ≤ UINT32_MAX
  count : session.values.entries.length ≤ UINT32_MAX
  values : ∀ e ∈ session.values.entries, e.1.length ≤ UINT32_MAX ∧ e.2.length ≤ UINT32_MAX

instance (session : HttpSession) : Decidable (EncodableSession session) :=
  decidable_of_iff (session.id.length ≤ UINT32_MAX ∧
      session.values.entries.length ≤ UINT32_MAX ∧
      ∀ e ∈ session.values.entries, e.1.length ≤ UINT32_MAX ∧ e.2.length ≤ UINT32_MAX)
    ⟨fun h => ⟨h.1, h.2.1, h.2.2⟩, fun h => ⟨h.id, h.count, h.values⟩⟩

/-- Reading the entries back inserts them one after another. -/
theorem decodeValues_encodeValues (keys : List Bytes) (decoded : HttpSession)
    {entries : List (Bytes × Bytes)} {text : Bytes} (h : encodeValues entries = some text)
    (hnodup : (entries.map Prod.fst).Nodup) (hkeys : ∀ e ∈ entries, e.1 ∉ keys) :
    decodeValues entries.length text keys decoded =
      some ({ decoded with values := decoded.values.insertAll entries }, []) := by
  induction entries generalizing text keys decoded with
  | nil =>
    obtain rfl := Option.some.inj h
    rfl
  | cons e entries ih =>
    obtain ⟨key, value⟩ := e
    simp only [encodeValues, Option.ite_none_left_eq_some, not_or, not_lt] at h
    obtain ⟨⟨hkey, hvalue⟩, h⟩ := h
    obtain ⟨tail, htail, rfl⟩ := Option.map_eq_some_iff.mp h
    obtain ⟨hnot, hnodup⟩ := List.nodup_cons.mp hnodup
    have hnew : ∀ e ∈ entries, e.1 ∉ key :: keys := by
      intro e he hmem
      rcases List.mem_cons.mp hmem with heq | hmem
      · exact hnot (List.mem_map.mpr ⟨e, he, heq⟩)
      · exact hkeys e (List.mem_cons_of_mem _ he) hmem
    have hfresh : key ∉ keys := hkeys (key, value) List.mem_cons_self
    have hstep := ih (key :: keys) (decoded.setValue key value) htail hnodup hnew
    -- the first entry is read, and the others follow from the induction
    rw [List.length_cons, decodeValues, List.append_assoc, getString_putString hkey,
      Option.bind_eq_bind, Option.bind_some]
    dsimp only
    rw [getString_putString hvalue, Option.bind_some]
    rw [if_neg (List.contains_iff_mem.not.mpr hfresh)]
    exact hstep

theorem encodeValues_isSome {entries : List (Bytes × Bytes)}
    (h : ∀ e ∈ entries, e.1.length ≤ UINT32_MAX ∧ e.2.length ≤ UINT32_MAX) :
    ∃ text, encodeValues entries = some text := by
  induction entries with
  | nil => exact ⟨[], rfl⟩
  | cons e entries ih =>
    obtain ⟨hkey, hvalue⟩ := h e List.mem_cons_self
    obtain ⟨text, htext⟩ := ih (fun e he => h e (List.mem_cons_of_mem _ he))
    refine ⟨putString e.1++putString e.2++text, ?_⟩
    rw [encodeValues, if_neg (not_or.mpr ⟨not_lt.mpr hkey, not_lt.mpr hvalue⟩), htext]
    rfl

/-- The text of an encodable session has its parts one behind the other. -/
theorem encode_eq {session : HttpSession} (h : EncodableSession session)
    (visit : Iteration (Bytes × Bytes)) :
    ∃ text, encodeValues (visit.order session.values.entries) = some text ∧
      encode session visit = putString session.id++put64 session.expiresAt++
        put64 session.ttlSeconds++put32 session.values.entries.length++text := by
  have hvalues : ∀ e ∈ visit.order session.values.entries,
      e.1.length ≤ UINT32_MAX ∧ e.2.length ≤ UINT32_MAX :=
    fun e he => h.values e ((visit.perm _).mem_iff.mp he)
  obtain ⟨text, htext⟩ := encodeValues_isSome hvalues
  refine ⟨text, htext, ?_⟩
  rw [encode, if_neg (not_or.mpr ⟨not_lt.mpr h.id, not_lt.mpr h.count⟩), htext]

theorem encode_ne_nil {session : HttpSession} (h : EncodableSession session)
    (visit : Iteration (Bytes × Bytes)) : encode session visit ≠ [] := by
  obtain ⟨text, -, heq⟩ := encode_eq h visit
  rw [heq]
  simp [putString, BigEndian.put]

/-- The round trip, whatever order the values are written in. -/
theorem decode_encode {session : HttpSession} (h : EncodableSession session)
    (visit : Iteration (Bytes × Bytes)) : decode (encode session visit) = some session := by
  obtain ⟨text, htext, heq⟩ := encode_eq h visit
  have hperm := visit.perm session.values.entries
  have hnodup : ((visit.order session.values.entries).map Prod.fst).Nodup :=
    (hperm.map Prod.fst).nodup_iff.mpr session.values.nodup_keys
  have hvalues := decodeValues_encodeValues []
    ⟨session.id, .empty, session.expiresAt, session.ttlSeconds⟩ htext hnodup (by simp)
  rw [hperm.length_eq, OrderedMap.insertAll_entries hperm] at hvalues
  -- the parts one after another; the last is the table of the values
  rw [heq, decode, List.append_assoc, List.append_assoc, List.append_assoc,
    getString_putString h.id]
  simp only [Option.bind_eq_bind, Option.bind_some, get64_put64, get32_put32 h.count, hvalues]
  simp

end RedisSessionStorage

end JingjieAR
