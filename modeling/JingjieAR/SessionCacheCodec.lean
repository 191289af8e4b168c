import JingjieAR.CacheEntryText
import JingjieAR.DelimitedFields
import JingjieAR.SessionStoreModel

/-! The text of a session in the cache of sessions. `deserialize` writes the fields into its
target one after another; a session without a time of its last change is not read back. -/
namespace JingjieAR

open HttpResponse (decimal)

/-- `std::stoi`: a number that is too large for `long` is too large for `int`. -/
def stoi (text : Bytes) : Except StdException ℤ :=
  match signedDigits text with
  | none => .error .invalidArgument
  | some (negative, value) =>
    let number : ℤ := if negative then -value else value
    if -2^31 ≤ number ∧ number < 2^31 then .ok number else .error .outOfRange

theorem stoi_signedDecimal (n : ℤ) :
    stoi (signedDecimal n) = if -2^31 ≤ n ∧ n < 2^31 then .ok n else .error .outOfRange := by
  unfold stoi
  cases n with
  | ofNat n =>
    rw [Int.ofNat_eq_natCast, signedDecimal_ofNat, signedDigits_decimal (decimal_decimal n)]
    rfl
  | negSucc n =>
    rw [signedDecimal_negSucc, signedDigits_minus (decimal_decimal (n+1))]
    rfl

namespace SessionCache

def serialize (s : Session) : Bytes :=
  decimal s.id++bar :: s.sessionToken++bar :: decimal s.userId++bar :: s.sceneId++
    bar :: signedDecimal s.status++bar :: s.createdAt++bar :: s.updatedAt

/-- What `deserialize` returns, and the session that its target is then. -/
def deserialize (data : Bytes) (session : Session) : Bool × Session :=
  match getlines bar data with
  | [id, sessionToken, userId, sceneId, status, createdAt, updatedAt] =>
    match stoull id with
    | .error _ => (false, session)
    | .ok id =>
      let session := { session with id := id, sessionToken := sessionToken }
      match stoull userId with
      | .error _ => (false, session)
      | .ok userId =>
        let session := { session with userId := userId, sceneId := sceneId }
        match stoi status with
        | .error _ => (false, session)
        | .ok status =>
          (true, { session with status := status, createdAt := createdAt, updatedAt := updatedAt })
  | _ => (false, session)

/-- The numbers fit their types. -/
structure InRange (s : Session) : Prop where
  id : s.id < 2^64
  userId : s.userId < 2^64
  status : -2^31 ≤ s.status ∧ s.status < 2^31

instance (s : Session) : Decidable (InRange s) :=
  decidable_of_iff (s.id < 2^64 ∧ s.userId < 2^64 ∧ -2^31 ≤ s.status ∧ s.status < 2^31)
    ⟨fun h => ⟨h.1, h.2.1, h.2.2⟩, fun h => ⟨h.id, h.userId, h.status⟩⟩

/-- No text of the session has a bar. -/
structure BarFree (s : Session) : Prop where
  sessionToken : bar ∉ s.sessionToken
  sceneId : bar ∉ s.sceneId
  createdAt : bar ∉ s.createdAt
  updatedAt : bar ∉ s.updatedAt

instance (s : Session) : Decidable (BarFree s) :=
  decidable_of_iff (bar ∉ s.sessionToken ∧ bar ∉ s.sceneId ∧ bar ∉ s.createdAt ∧ bar ∉ s.updatedAt)
    ⟨fun h => ⟨h.1, h.2.1, h.2.2.1, h.2.2.2⟩,
      fun h => ⟨h.sessionToken, h.sceneId, h.createdAt, h.updatedAt⟩⟩

/-- The six fields that are always there, and the last one if there is something in it. -/
theorem getlines_serialize {s : Session} (h : BarFree s) :
    getlines bar (serialize s) = [decimal s.id, s.sessionToken, decimal s.userId, s.sceneId,
      signedDecimal s.status, s.createdAt]++if s.updatedAt = [] then [] else [s.updatedAt] := by
  have hnumber : ∀ n, bar ∉ decimal n := fun n => bar_notMem_digits (decimal_decimal n).digits
  simp only [serialize, List.append_assoc, List.cons_append]
  rw [getlines_field (hnumber _), getlines_field h.sessionToken, getlines_field (hnumber _),
    getlines_field h.sceneId, getlines_field (bar_notMem_signedDecimal _),
    getlines_field h.createdAt, getlines_last h.updatedAt]
  rfl

theorem deserialize_serialize_eq_iff {s : Session} (out : Session) (hrange : InRange s)
    (hbars : BarFree s) : deserialize (serialize s) out = (true, s) ↔ s.updatedAt ≠ [] := by
  have hid : stoull (decimal s.id) = .ok s.id := by rw [stoull_decimal, if_pos hrange.id]
  have huser : stoull (decimal s.userId) = .ok s.userId := by
    rw [stoull_decimal, if_pos hrange.userId]
  have hstatus : stoi (signedDecimal s.status) = .ok s.status := by
    rw [stoi_signedDecimal, if_pos hrange.status]
  rw [deserialize, getlines_serialize hbars]
  by_cases hlast : s.updatedAt = []
  · simp [hlast]
  · simp [hid, huser, hstatus, hlast]

/-- A number is not read after something else has been written to the target. -/
inductive BreaksOff (data : Bytes) (out : Session) : Prop
  | atUserId {id sessionToken userId sceneId status createdAt updatedAt : Bytes} {n : ℕ}
      {e : StdException}
      (hfields : getlines bar data =
        [id, sessionToken, userId, sceneId, status, createdAt, updatedAt])
      (hid : stoull id = .ok n) (huser : stoull userId = .error e)
      (hwritten : (n, sessionToken) ≠ (out.id, out.sessionToken))
  | atStatus {id sessionToken userId sceneId status createdAt updatedAt : Bytes} {n m : ℕ}
      {e : StdException}
      (hfields : getlines bar data =
        [id, sessionToken, userId, sceneId, status, createdAt, updatedAt])
      (hid : stoull id = .ok n) (huser : stoull userId = .ok m) (hstatus : stoi status = .error e)
      (hwritten : (n, sessionToken, m, sceneId) ≠
        (out.id, out.sessionToken, out.userId, out.sceneId))

/-- A target that is refused and changed anyway comes from such a text. -/
theorem breaksOff_of_changed {data : Bytes} {out : Session}
    (hfalse : (deserialize data out).1 = false) (hne : (deserialize data out).2 ≠ out) :
    BreaksOff data out := by
  unfold deserialize at hfalse hne
  split at hfalse
  · rename_i id sessionToken userId sceneId status createdAt updatedAt hfields
    rw [hfields] at hne
    dsimp only at hfalse hne
    cases hid : stoull id with
    | error e => simp [hid] at hne
    | ok n =>
      cases huser : stoull userId with
      | error e =>
        apply BreaksOff.atUserId hfields hid huser
        intro hsame
        obtain ⟨rfl, rfl⟩ := Prod.mk.inj hsame
        simp [hid, huser] at hne
      | ok m =>
        cases hstatus : stoi status with
        | ok number => simp [hid, huser, hstatus] at hfalse
        | error e =>
          apply BreaksOff.atStatus hfields hid huser hstatus
          intro hsame
          simp only [Prod.mk.injEq] at hsame
          obtain ⟨rfl, rfl, rfl, rfl⟩ := hsame
          simp [hid, huser, hstatus] at hne
  · rename_i hfields
    split at hne
    · rename_i hseven
      exact absurd hseven (hfields _ _ _ _ _ _ _)
    · contradiction

theorem BreaksOff.changed {data : Bytes} {out : Session} (h : BreaksOff data out) :
    (deserialize data out).1 = false ∧ (deserialize data out).2 ≠ out := by
  cases h with
  | atUserId hfields hid huser hwritten =>
    simp only [deserialize, hfields, hid, huser, ne_eq, true_and]
    intro hsame
    apply hwritten
    rw [← hsame]
  | atStatus hfields hid huser hstatus hwritten =>
    simp only [deserialize, hfields, hid, huser, hstatus, ne_eq, true_and]
    intro hsame
    apply hwritten
    rw [← hsame]

theorem unchanged_iff (data : Bytes) (out : Session) :
    ((deserialize data out).1 = false → (deserialize data out).2 = out) ↔ ¬BreaksOff data out := by
  constructor
  · intro h hbreaks
    obtain ⟨hfalse, hne⟩ := hbreaks.changed
    exact hne (h hfalse)
  · intro h hfalse
    by_contra hne
    exact h (breaksOff_of_changed hfalse hne)

/-- A session is read back exactly if there is a time of its last change, and a refusal leaves
the target alone exactly if no conversion breaks off behind something that was written. -/
theorem codec_faithful_iff (s out : Session) (data : Bytes) :
    (InRange s → BarFree s →
      (deserialize (serialize s) out = (true, s) ↔ s.updatedAt ≠ [])) ∧
    (((deserialize data out).1 = false → (deserialize data out).2 = out) ↔
      ¬BreaksOff data out) :=
  ⟨deserialize_serialize_eq_iff out, unchanged_iff data out⟩

theorem codec_faithful_iff_plain :
    deserialize (serialize { id := 9, sessionToken := ascii "t", updatedAt := ascii "u" }) {} =
        (true, { id := 9, sessionToken := ascii "t", updatedAt := ascii "u" }) ∧
      (deserialize (ascii "bad") {}).2 = {} := by
  have hbad : getlines bar (ascii "bad") = [ascii "bad"] := by decide
  have hexact := codec_faithful_iff { id := 9, sessionToken := ascii "t", updatedAt := ascii "u" }
    {} (ascii "bad")
  refine ⟨(hexact.1 (by decide) (by decide)).mpr (by decide), ?_⟩
  apply hexact.2.mpr
  · intro h
    cases h with
    | atUserId hfields => simp [hbad] at hfields
    | atStatus hfields => simp [hbad] at hfields
  · decide

/-- A session that was never changed is not read back, and a refused text leaves its first
fields in the target. -/
theorem codec_unfaithful :
    ¬(∀ s out : Session, InRange s → BarFree s → deserialize (serialize s) out = (true, s)) ∧
    ¬∀ (data : Bytes) (out : Session),
      (deserialize data out).1 = false → (deserialize data out).2 = out := by
  constructor
  · intro h
    have hread := h { id := 9, sessionToken := ascii "t", createdAt := ascii "c" } {} (by decide)
      (by decide)
    revert hread
    decide
  · intro h
    have hread := h (ascii "5|t|x|s|1|c|u") {} (by decide)
    revert hread
    decide

end SessionCache

end JingjieAR
