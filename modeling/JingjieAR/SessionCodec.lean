import JingjieAR.PositionReaders
import JingjieAR.SessionCodecModel

/-! The decoder of sessions with the position that it moves over the text and the session that
it writes to. It never looks behind the end of the text, and it accepts what `encode` can
write and nothing else. -/
namespace JingjieAR.RedisSessionStorage

open BigEndian (putString getString)
open Parsed (Agrees agrees_refused agrees_parsed)

/-- The loop of `get32` and `get64`. -/
def readBytes (text : Bytes) : ℕ → ℕ → ℕ → Parsed ℕ
  | 0, p, value => .parsed value p
  | count+1, p, value =>
    match text[p]? with
    | none => .overrun
    | some b => readBytes text count (p+1) (value <<< 8 ||| b.toNat)

/-- `get32` and `get64` at a position. -/
def getWordAt (width : ℕ) (text : Bytes) (p : ℕ) : Parsed ℕ :=
  if p > text.length ∨ text.length-p < width then .refused else readBytes text width p 0

/-- A difference that wraps, and an assignment of bytes that are not there, are overruns. -/
def getStringAt (text : Bytes) (p : ℕ) : Parsed Bytes :=
  (getWordAt 4 text p).bind fun size p =>
    if p > text.length then .overrun
    else if size > text.length-p then .refused
    else if p+size > text.length then .overrun
    else .parsed ((text.drop p).take size) (p+size)

def get64At (text : Bytes) (p : ℕ) : Parsed Int64 :=
  (getWordAt 8 text p).bind fun value p => .parsed (UInt64.ofNat value).toInt64 p

def decodeValuesAt (text : Bytes) : ℕ → ℕ → List Bytes → HttpSession → Parsed HttpSession
  | 0, p, _, decoded => .parsed decoded p
  | count+1, p, keys, decoded =>
    (getStringAt text p).bind fun key p =>
      (getStringAt text p).bind fun value p =>
        if keys.contains key then .refused
        else decodeValuesAt text count p (key :: keys) (decoded.setValue key value)

/-- `decode` up to the comparison with the end of the text. -/
def decodeAt (text : Bytes) : Parsed HttpSession :=
  (getStringAt text 0).bind fun id p =>
    (get64At text p).bind fun expires p =>
      (get64At text p).bind fun ttl p =>
        (getWordAt 4 text p).bind fun count p =>
          decodeValuesAt text count p [] { id := id, expiresAt := expires, ttlSeconds := ttl }

/-- `decode` with its target: what it returns, and the session that the target is then. There
is no result when it has looked behind the end. -/
def decodeInto (text : Bytes) (session : HttpSession) : Option (Bool × HttpSession) :=
  match decodeAt text with
  | .overrun => none
  | .refused => some (false, session)
  | .parsed decoded p => if p ≠ text.length then some (false, session) else some (true, decoded)

theorem readBytes_eq {text : Bytes} {count p : ℕ} (value : ℕ) (h : p+count ≤ text.length) :
    readBytes text count p value =
      .parsed (((text.drop p).take count).foldl (fun value b => value <<< 8 ||| b.toNat) value)
        (p+count) := by
  induction count generalizing p value with
  | zero => rfl
  | succ count ih =>
    have hlt : p < text.length := by omega
    have hstep := ih (p := p+1) (value <<< 8 ||| text[p].toNat) (by omega)
    rw [readBytes, List.getElem?_eq_getElem hlt]
    dsimp only
    rw [hstep, List.drop_eq_getElem_cons hlt, List.take_succ_cons, List.foldl_cons,
      Nat.add_right_comm, Nat.add_assoc]

theorem getWordAt_agrees {text : Bytes} {p : ℕ} (width : ℕ) (h : p ≤ text.length) :
    Agrees text (getWordAt width text p) (BigEndian.get width (text.drop p)) := by
  have hiff : (p > text.length ∨ text.length-p < width) ↔ (text.drop p).length < width := by
    rw [List.length_drop]
    omega
  rw [getWordAt, BigEndian.get]
  by_cases hshort : (text.drop p).length < width
  · rw [if_pos (hiff.mpr hshort), if_pos hshort]
    exact agrees_refused
  · have hle : p+width ≤ text.length := by
      rw [List.length_drop] at hshort
      omega
    rw [if_neg (hiff.not.mpr hshort), if_neg hshort, readBytes_eq 0 hle, List.drop_drop]
    exact agrees_parsed _ hle

theorem get64At_agrees {text : Bytes} {p : ℕ} (h : p ≤ text.length) :
    Agrees text (get64At text p) (get64 (text.drop p)) := by
  have hmap : get64 (text.drop p) = (BigEndian.get 8 (text.drop p)).bind
      (fun e => some ((UInt64.ofNat e.1).toInt64, e.2)) := by
    rw [get64, Option.map_eq_bind]
    rfl
  rw [hmap]
  exact (getWordAt_agrees 8 h).bind fun value position hle => agrees_parsed _ hle

theorem getStringAt_agrees {text : Bytes} {p : ℕ} (h : p ≤ text.length) :
    Agrees text (getStringAt text p) (getString (text.drop p)) := by
  refine (getWordAt_agrees 4 h).bind ?_
  intro size position hle
  dsimp only
  rw [if_neg (not_lt.mpr hle), List.length_drop]
  by_cases hsize : size > text.length-position
  · rw [if_pos hsize, if_pos hsize]
    exact agrees_refused
  · have hend : position+size ≤ text.length := by omega
    rw [if_neg hsize, if_neg hsize, if_neg (not_lt.mpr hend), List.drop_drop]
    exact agrees_parsed _ hend

theorem decodeValuesAt_agrees {text : Bytes} (count : ℕ) {p : ℕ} (keys : List Bytes)
    (decoded : HttpSession) (h : p ≤ text.length) :
    Agrees text (decodeValuesAt text count p keys decoded)
      (decodeValues count (text.drop p) keys decoded) := by
  induction count generalizing p keys decoded with
  | zero => exact agrees_parsed decoded h
  | succ count ih =>
    refine (getStringAt_agrees h).bind ?_
    intro key p hp
    refine (getStringAt_agrees hp).bind ?_
    intro value p hp
    dsimp only
    split_ifs
    · exact agrees_refused
    · exact ih _ _ hp

/-- `decode` up to the end of the text, as `decodeAt`. -/
def decodeFront (text : Bytes) : Option (HttpSession × Bytes) :=
  (getString text).bind fun (id, text) =>
    (get64 text).bind fun (expires, text) =>
      (get64 text).bind fun (ttl, text) =>
        (get32 text).bind fun (count, text) =>
          decodeValues count text [] { id := id, expiresAt := expires, ttlSeconds := ttl }

theorem decode_eq (text : Bytes) :
    decode text = (decodeFront text).bind fun e => if e.2 ≠ [] then none else some e.1 := by
  simp only [decode, decodeFront, Option.bind_eq_bind, Option.bind_assoc]

theorem decodeAt_agrees (text : Bytes) : Agrees text (decodeAt text) (decodeFront text) := by
  refine (getStringAt_agrees (Nat.zero_le _)).bind ?_
  intro id p hp
  refine (get64At_agrees hp).bind ?_
  intro expires p hp
  refine (get64At_agrees hp).bind ?_
  intro ttl p hp
  refine (getWordAt_agrees 4 hp).bind ?_
  intro count p hp
  exact decodeValuesAt_agrees count [] _ hp

/-- The decoder has a result for every text, and it is the one of `decode`. -/
theorem decodeInto_eq (text : Bytes) (session : HttpSession) :
    decodeInto text session = some (match decode text with
      | none => (false, session)
      | some decoded => (true, decoded)) := by
  rw [decodeInto, decode_eq]
  rcases decodeAt_agrees text with ⟨hat, hfront⟩ | ⟨decoded, p, hat, hp, hfront⟩
  · rw [hat, hfront]
    rfl
  · rw [hat, hfront]
    by_cases hend : p = text.length
    · simp [hend]
    · have hmore : text.drop p ≠ [] := by
        rw [ne_eq, List.drop_eq_nil_iff]
        omega
      simp [hend, hmore]

/-- The text of a session whose values come in this order. -/
def layout (session : HttpSession) (entries : List (Bytes × Bytes)) : Bytes :=
  putString session.id++put64 session.expiresAt++put64 session.ttlSeconds++put32 entries.length++
    entries.flatMap (fun e => putString e.1++putString e.2)

theorem put64_of_get64 {text rest : Bytes} {value : Int64} (h : get64 text = some (value, rest)) :
    text = put64 value++rest := by
  obtain ⟨⟨word, tail⟩, hget, hmap⟩ := Option.map_eq_some_iff.mp h
  obtain ⟨rfl, hword⟩ := BigEndian.eq_put_of_get hget
  obtain ⟨rfl, rfl⟩ := Prod.mk.inj hmap
  have hback : (UInt64.ofNat word).toInt64.toUInt64.toNat = word := by
    rw [UInt64.toUInt64_toInt64, UInt64.toNat_ofNat_of_lt' hword]
  rw [put64, hback]
  rfl

/-- The entries that the loop of `decode` has read, and how the session came out of them. -/
theorem entries_of_decodeValues {count : ℕ} {text rest : Bytes} {keys : List Bytes}
    {decoded session : HttpSession}
    (h : decodeValues count text keys decoded = some (session, rest)) :
    ∃ entries : List (Bytes × Bytes), entries.length = count ∧
      text = entries.flatMap (fun e => putString e.1++putString e.2)++rest ∧
      (entries.map Prod.fst).Nodup ∧ (∀ e ∈ entries, e.1 ∉ keys) ∧
      (∀ e ∈ entries, e.1.length ≤ UINT32_MAX ∧ e.2.length ≤ UINT32_MAX) ∧
      session = { decoded with values := decoded.values.insertAll entries } := by
  induction count generalizing text keys decoded with
  | zero =>
    obtain ⟨rfl, rfl⟩ := Prod.mk.inj (Option.some.inj h)
    exact ⟨[], rfl, rfl, .nil, by simp, by simp, rfl⟩
  | succ count ih =>
    obtain ⟨⟨key, text₁⟩, hkey, h⟩ := Option.bind_eq_some_iff.mp h
    obtain ⟨⟨value, text₂⟩, hvalue, h⟩ := Option.bind_eq_some_iff.mp h
    obtain ⟨hnew, h⟩ := Option.ite_none_left_eq_some.mp h
    obtain ⟨entries, hcount, htext, hnodup, hkeys, hlengths, hsession⟩ := ih h
    obtain ⟨rfl, hkeyLength⟩ := BigEndian.eq_putString_of_getString hkey
    obtain ⟨rfl, hvalueLength⟩ := BigEndian.eq_putString_of_getString hvalue
    refine ⟨(key, value) :: entries, by simp [hcount], ?_, ?_, ?_, ?_, hsession⟩
    · simp [htext, List.append_assoc]
    · rw [List.map_cons, List.nodup_cons]
      refine ⟨?_, hnodup⟩
      intro hmem
      obtain ⟨e, he, heq⟩ := List.mem_map.mp hmem
      exact hkeys e he (heq ▸ List.mem_cons_self)
    · intro e he
      rcases List.mem_cons.mp he with rfl | he
      · exact fun hmem => hnew (List.contains_iff_mem.mpr hmem)
      · exact fun hmem => hkeys e he (List.mem_cons_of_mem _ hmem)
    · intro e he
      rcases List.mem_cons.mp he with rfl | he
      · exact ⟨Nat.le_of_lt_succ hkeyLength, Nat.le_of_lt_succ hvalueLength⟩
      · exact hlengths e he

/-- A text that is accepted is laid out for the session that comes out of it. -/
theorem layout_of_decode {text : Bytes} {session : HttpSession} (h : decode text = some session) :
    ∃ entries, entries.Perm session.values.entries ∧ text = layout session entries ∧
      EncodableSession session := by
  obtain ⟨⟨id, text₁⟩, hid, h⟩ := Option.bind_eq_some_iff.mp h
  obtain ⟨⟨expires, text₂⟩, hexpires, h⟩ := Option.bind_eq_some_iff.mp h
  obtain ⟨⟨ttl, text₃⟩, httl, h⟩ := Option.bind_eq_some_iff.mp h
  obtain ⟨⟨count, text₄⟩, hcount, h⟩ := Option.bind_eq_some_iff.mp h
  obtain ⟨⟨decoded, text₅⟩, hvalues, h⟩ := Option.bind_eq_some_iff.mp h
  obtain ⟨hend, h⟩ := Option.ite_none_left_eq_some.mp h
  obtain rfl := Option.some.inj h
  obtain rfl := not_not.mp hend
  obtain ⟨entries, rfl, rfl, hnodup, -, hlengths, rfl⟩ := entries_of_decodeValues hvalues
  obtain ⟨rfl, hidLength⟩ := BigEndian.eq_putString_of_getString hid
  obtain rfl := put64_of_get64 hexpires
  obtain rfl := put64_of_get64 httl
  obtain ⟨rfl, hcountLength⟩ := BigEndian.eq_put_of_get hcount
  have hperm : entries.Perm (OrderedMap.insertAll .empty entries).entries :=
    OrderedMap.perm_insertAll hnodup
  refine ⟨entries, hperm, ?_, ?_, ?_, ?_⟩
  · simp [layout, put32, List.append_assoc]
  · exact Nat.le_of_lt_succ hidLength
  · rw [← hperm.length_eq]
    exact Nat.le_of_lt_succ hcountLength
  · intro e he
    exact hlengths e (hperm.mem_iff.mpr he)

/-- The decoder gives back what was encoded, accepts only the layouts of sessions, and leaves
its target alone when it refuses. That it always has a result means that it never looks behind
the end. -/
theorem codec_exact :
    (∀ (session target : HttpSession) (visit : Iteration (Bytes × Bytes)),
      EncodableSession session →
        decodeInto (encode session visit) target = some (true, session)) ∧
    (∀ (text : Bytes) (session target : HttpSession),
      decodeInto text target = some (true, session) →
        ∃ entries, entries.Perm session.values.entries ∧ text = layout session entries ∧
          EncodableSession session) ∧
    ∀ (text : Bytes) (target : HttpSession), ∃ accepted session,
      decodeInto text target = some (accepted, session) ∧
        (accepted = false → session = target) := by
  refine ⟨?_, ?_, ?_⟩
  · intro session target visit h
    rw [decodeInto_eq, decode_encode h]
  · intro text session target h
    rw [decodeInto_eq] at h
    cases hdecode : decode text with
    | none => simp [hdecode] at h
    | some decoded =>
      obtain rfl : decoded = session := by simpa [hdecode] using h
      exact layout_of_decode hdecode
  · intro text target
    rw [decodeInto_eq]
    cases decode text with
    | none => exact ⟨false, target, rfl, fun _ => rfl⟩
    | some decoded => exact ⟨true, decoded, rfl, by simp⟩

/-- A session with one value, whose time has the sign bit set. -/
def plainSession : HttpSession :=
  HttpSession.setValue { id := ascii "id", expiresAt := -1 } (ascii "key") []

theorem codec_exact_plain :
    decodeInto (encode plainSession (.id _)) {} = some (true, plainSession) ∧
    (∃ entries, entries.Perm plainSession.values.entries ∧
      encode plainSession (.id _) = layout plainSession entries ∧
      EncodableSession plainSession) ∧
    ∃ accepted session, decodeInto (ascii "short") plainSession = some (accepted, session) ∧
      (accepted = false → session = plainSession) := by
  have hround := codec_exact.1 plainSession {} (.id _) (by decide)
  exact ⟨hround, codec_exact.2.1 _ _ _ hround, codec_exact.2.2 _ _⟩

end JingjieAR.RedisSessionStorage
