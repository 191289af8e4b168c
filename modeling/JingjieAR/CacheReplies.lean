import JingjieAR.CacheEntryText

/-! Texts from Redis that are no entry of the cache. `deserialize` refuses those with fewer than
three bars; every other one is taken for an entry or makes it raise an exception, and then the
reply that `get` holds is never released. -/
namespace JingjieAR

open HttpResponse (decimal)

/-- A decimal integer, with a minus when it is negative. -/
def IntegerText (text : Bytes) (n : ℤ) : Prop :=
  (∃ m : ℕ, Decimal text m ∧ n = m) ∨ ∃ digits, ∃ m : ℕ, text = dash :: digits ∧
    Decimal digits m ∧ n = -m

/-- `contentType|integer|unsigned integer|content`, with both numbers in the range of their
types. -/
def EntryText (data : Bytes) : Prop :=
  ∃ contentType lastModified fileSize content, ∃ n : ℤ, ∃ m : ℕ,
    data = contentType++bar :: (lastModified++bar :: (fileSize++bar :: content)) ∧
      bar ∉ contentType ∧ IntegerText lastModified n ∧ (-2^63 ≤ n ∧ n < 2^63) ∧
      Decimal fileSize m ∧ m < 2^64

/-- A text has no bar, or it is cut at its first one. -/
theorem cutAtBar_cases (text : Bytes) :
    (cutAtBar text = none ∧ text.count bar = 0) ∨
      ∃ before after, cutAtBar text = some (before, after) ∧
        text.count bar = after.count bar+1 := by
  by_cases hbar : bar ∈ text
  · obtain ⟨before, after, rfl, hnot⟩ := List.eq_append_cons_of_mem hbar
    right
    refine ⟨before, after, cutAtBar_append hnot after, ?_⟩
    rw [List.count_append, List.count_eq_zero_of_not_mem hnot, List.count_cons_self, Nat.zero_add]
  · left
    rw [cutAtBar, findByte_eq_none hbar, List.count_eq_zero_of_not_mem hbar]
    exact ⟨rfl, rfl⟩

namespace TwoLevelCache

/-- `getRedis` with the reply: whether it has been released when `get` is left. No reply at all
need not be released. -/
def getReply (c : TwoLevelCache) (key : Bytes) (entry : CachedFileEntry) (m : Meets) :
    Option ((Except StdException (Bool × CachedFileEntry) × TwoLevelCache) × Bool) :=
  match m.result with
  | .replied =>
    match c.redis (redisKey key) with
    | none => some ((.ok (false, entry), c), true)
    | some val =>
      if val = [] then some ((.ok (false, entry), c), true)
      else
        match deserialize val with
        -- the exception passes `freeReplyObject`
        | .error e => some ((.error e, c), false)
        | .ok none => some ((.ok (false, entry), c), true)
        | .ok (some e) =>
          (c.l1Cache.put key e m.visitPut).map
            (fun l1 => ((.ok (true, e), { c with l1Cache := l1 }), true))
  | .lost => some ((.ok (false, entry), c), true)
  | .unreached => some ((.ok (false, entry), c), true)

theorem getReply_fst (c : TwoLevelCache) (key : Bytes) (entry : CachedFileEntry) (m : Meets) :
    (getReply c key entry m).map Prod.fst = getRedis c key entry m := by
  unfold getReply getRedis
  cases m.result with
  | lost => rfl
  | unreached => rfl
  | replied =>
    cases c.redis (redisKey key) with
    | none => rfl
    | some val =>
      dsimp only
      split_ifs
      · rfl
      · cases deserialize val with
        | error e => rfl
        | ok found =>
          cases found with
          | none => rfl
          | some e =>
            cases hput : c.l1Cache.put key e m.visitPut with
            | none => simp [hput]
            | some l1 => simp [hput]

/-- The text is refused without an exception, and a `get` that finds nothing in the first level
and this text in Redis is a miss that releases its reply. -/
structure Refused (data : Bytes) : Prop where
  refused : deserialize data = .ok none
  miss : ∀ (c : TwoLevelCache) (key : Bytes) (entry : CachedFileEntry) (m : Meets)
    (l1 : KHashLfuCache Bytes CachedFileEntry), c.l1Cache.get key m.visit = some (none, l1) →
      m.result = .replied → c.redis (redisKey key) = some data →
        c.get key entry m = some (.ok (false, entry), { c with l1Cache := l1 }) ∧
          getReply { c with l1Cache := l1 } key entry m =
            some ((.ok (false, entry), { c with l1Cache := l1 }), true)

/-- With three bars the numbers decide between an entry and an exception. -/
theorem deserialize_eq_none_iff (data : Bytes) :
    deserialize data = .ok none ↔ data.count bar < 3 := by
  unfold deserialize
  rcases cutAtBar_cases data with ⟨hcut, hcount⟩ | ⟨contentType, rest₁, hcut, hcount⟩
  · simp [hcut, hcount]
  · rw [hcut, hcount]
    dsimp only
    rcases cutAtBar_cases rest₁ with ⟨hcut, hcount⟩ | ⟨lastModified, rest₂, hcut, hcount⟩
    · simp [hcut, hcount]
    · rw [hcut, hcount]
      dsimp only
      rcases cutAtBar_cases rest₂ with ⟨hcut, hcount⟩ | ⟨fileSize, content, hcut, hcount⟩
      · simp [hcut, hcount]
      · have hthree : ¬content.count bar+1+1+1 < 3 := by omega
        rw [hcut, hcount]
        cases stoll lastModified with
        | error e => simp [hthree, bind, Except.bind]
        | ok number =>
          cases hsize : stoull fileSize with
          | error e => simp [hthree, hsize, bind, Except.bind]
          | ok size => simp [hthree, hsize, bind, Except.bind]

theorem refused_iff (data : Bytes) : Refused data ↔ data.count bar < 3 := by
  rw [← deserialize_eq_none_iff]
  constructor
  · exact Refused.refused
  · intro h
    refine ⟨h, ?_⟩
    intro c key entry m l1 hmiss hreplied hval
    have hreply : getReply { c with l1Cache := l1 } key entry m =
        some ((.ok (false, entry), { c with l1Cache := l1 }), true) := by
      simp only [getReply, hreplied, hval, h]
      split_ifs <;> rfl
    refine ⟨?_, hreply⟩
    simp only [get, hmiss]
    rw [← getReply_fst, hreply]
    rfl

/-- A text that has the form of an entry is read as that entry. -/
theorem deserialize_of_entryText {data : Bytes} (h : EntryText data) :
    ∃ e, deserialize data = .ok (some e) := by
  obtain ⟨contentType, lastModified, fileSize, content, n, m, rfl, hnot, hinteger, hn, hm, hlt⟩ := h
  have hmodified : bar ∉ lastModified ∧ stoll lastModified = .ok n := by
    unfold stoll
    rcases hinteger with ⟨k, hk, rfl⟩ | ⟨digits, k, rfl, hk, rfl⟩
    · rw [signedDigits_decimal hk]
      exact ⟨bar_notMem_digits hk.digits, if_pos hn⟩
    · rw [dash, signedDigits_minus hk, List.mem_cons, not_or]
      exact ⟨⟨by decide, bar_notMem_digits hk.digits⟩, if_pos hn⟩
  have hsize : stoull fileSize = .ok m := by
    unfold stoull
    rw [signedDigits_decimal hm]
    exact if_pos hlt
  refine ⟨⟨content, contentType, n, m⟩, ?_⟩
  simp only [deserialize, cutAtBar_append hnot, cutAtBar_append hmodified.1,
    cutAtBar_append (bar_notMem_digits hm.digits), hmodified.2, hsize]
  rfl

/-- What is written is read back. A text that is no entry is refused exactly if it has fewer
than three bars. -/
theorem entryCodec_iff (e : CachedFileEntry) (data : Bytes) :
    (Decodes e → deserialize (serialize e) = .ok (some e)) ∧
      ((¬EntryText data → Refused data) ↔ (EntryText data ∨ data.count bar < 3)) := by
  constructor
  · intro h
    exact (deserialize_serialize_iff e).mpr h
  · rw [refused_iff]
    by_cases hentry : EntryText data
    · simp [hentry]
    · simp [hentry]

theorem entryCodec_iff_plain :
    deserialize (serialize ⟨ascii "a|b", ascii "text/plain", -1, 3⟩) =
        .ok (some ⟨ascii "a|b", ascii "text/plain", -1, 3⟩) ∧
      (¬EntryText (ascii "a|b") → Refused (ascii "a|b")) := by
  have hexact := entryCodec_iff ⟨ascii "a|b", ascii "text/plain", -1, 3⟩ (ascii "a|b")
  exact ⟨hexact.1 ⟨by decide, by decide, by decide⟩, hexact.2.mpr (.inr (by decide))⟩

/-- A text whose time is no number is not refused, it raises an exception. -/
theorem not_refused_text : ¬∀ data : Bytes, ¬EntryText data → Refused data := by
  intro h
  have hraises : deserialize (ascii "t|x|5|c") = .error .invalidArgument := by rfl
  have hnot : ¬EntryText (ascii "t|x|5|c") := by
    intro hentry
    obtain ⟨e, he⟩ := deserialize_of_entryText hentry
    simp [hraises] at he
  have hrefused := (h _ hnot).refused
  simp [hraises] at hrefused

end TwoLevelCache

end JingjieAR
