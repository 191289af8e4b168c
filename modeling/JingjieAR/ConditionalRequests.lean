import JingjieAR.CorsMiddlewareModel
import JingjieAR.HttpDates
import JingjieAR.StaticFileContainment

/-! When a file is reported as not modified. The two conditions of a request are combined
without regard to their precedence, and an entity tag is compared as a whole header. -/
namespace JingjieAR

open HttpResponse (decimal)
open StaticFileHandler (new smallFileSystem wwwPath wwwFile smallFileSystem_documented)

/-- A field of the request, if it has one. -/
def HttpRequest.field (request : HttpRequest) (name : Bytes) : Option Bytes :=
  request.headers.lookup (lowerCase name)

theorem HttpRequest.getHeader_eq (request : HttpRequest) (name : Bytes) :
    request.getHeader name = (request.field name).getD [] := rfl

/-- `*`, or a list between commas that has the entity tag, with or without `W/`. -/
def NamesTag (etag value : Bytes) : Prop :=
  value = ascii "*" ∨ ∃ element ∈ CorsMiddleware.splitCommaSeparated value,
    element = etag ∨ element = ascii "W/"++etag

instance (etag value : Bytes) : Decidable (NamesTag etag value) :=
  inferInstanceAs (Decidable (_ ∨ ∃ element ∈ CorsMiddleware.splitCommaSeparated value, _))

def HttpDate (fullYear : ℕ → ℕ) (text : Bytes) (time : ℤ) : Prop :=
  ImfFixdate text time ∨ ObsoleteDate fullYear text time

/-- `parseHttpDate` makes a time of the text that is not before the last change. -/
def ReadAsLater (value : Bytes) (mtime : ℤ) : Prop :=
  ∃ time, parseHttpDate value = some time ∧ mtime ≤ time

/-- The text is no date of an obsolete form and not the second before the epoch, where these
would keep a file from being sent, and no text that is read as a date without being one. -/
structure ReadAsMeant (fullYear : ℕ → ℕ) (value : Bytes) (mtime : ℤ) : Prop where
  epoch : ∀ time, ImfFixdate value time → mtime ≤ time → time ≠ -1
  obsolete : ∀ time, ObsoleteDate fullYear value time → time < mtime
  noDate : (∀ time, ¬HttpDate fullYear value time) → ¬ReadAsLater value mtime

section Requests

variable (fullYear : ℕ → ℕ) (request : HttpRequest) (st : FileStat)

/-- The client has the current file, as far as its request says. The entity tag decides if
there is one. -/
def NotModified : Prop :=
  match request.field (ascii "If-None-Match") with
  | some value => NamesTag (makeEtag st) value
  | none => ∃ value, request.field (ascii "If-Modified-Since") = some value ∧
      ∃ time, HttpDate fullYear value time ∧ st.mtime ≤ time

/-- The requests whose conditions may be combined as the handler does. With an entity tag: the
tag of the file stands alone in its field or is named beside a date that is not before the
last change, and no such date is there when it is not named. Without: the date is read as it
is meant. -/
def Combinable : Prop :=
  match request.field (ascii "If-None-Match") with
  | some value =>
    (NamesTag (makeEtag st) value → value = makeEtag st ∨
        ReadAsLater (request.getHeader (ascii "If-Modified-Since")) st.mtime) ∧
      (ReadAsLater (request.getHeader (ascii "If-Modified-Since")) st.mtime →
        NamesTag (makeEtag st) value)
  | none => ∀ value, request.field (ascii "If-Modified-Since") = some value →
      ReadAsMeant fullYear value st.mtime

end Requests

section Tags

theorem makeEtag_eq (st : FileStat) : makeEtag st =
    34 :: (decimal st.ino++(dash :: (decimal st.size++(dash :: signedDecimal st.mtime)))++[34]) := by
  have hquote : ascii "\"" = [34] := by decide
  simp [makeEtag, hquote]

theorem comma_notMem_decimal (n : ℕ) : comma ∉ decimal n :=
  notMem_of_digits (by decide) (decimal_decimal n).digits

theorem comma_notMem_makeEtag (st : FileStat) : comma ∉ makeEtag st := by
  have hquote : comma ≠ 34 := by decide
  have hdash : comma ≠ dash := by decide
  -- Only a time before 1970 has a sign in front.
  have hmtime : comma ∉ signedDecimal st.mtime := by
    cases st.mtime with
    | ofNat n => exact comma_notMem_decimal n
    | negSucc n =>
      rw [signedDecimal_negSucc, List.mem_cons, not_or]
      exact ⟨by decide, comma_notMem_decimal (n+1)⟩
  rw [makeEtag_eq]
  simp [hquote, hdash, hmtime, comma_notMem_decimal]

/-- The tag alone is a list with the tag. -/
theorem namesTag_self (st : FileStat) : NamesTag (makeEtag st) (makeEtag st) := by
  have hquote : ¬CorsMiddleware.isBlank 34 = true := by decide
  -- Quotation marks at both ends keep the trimming off.
  have htrim : ((makeEtag st).dropWhile CorsMiddleware.isBlank).rdropWhile CorsMiddleware.isBlank =
      makeEtag st := by
    rw [makeEtag_eq, List.dropWhile_cons_of_neg hquote, ← List.cons_append,
      List.rdropWhile_concat_neg _ _ _ hquote]
  have hne : makeEtag st ≠ [] := by
    rw [makeEtag_eq]
    exact List.cons_ne_nil _ _
  refine .inr ⟨makeEtag st, ?_, .inl rfl⟩
  rw [CorsMiddleware.splitCommaSeparated, List.splitOn_eq_singleton (comma_notMem_makeEtag st)]
  simp [htrim, hne]

end Tags

section Plans

variable {fullYear : ℕ → ℕ} {request : HttpRequest} {st : FileStat}

theorem conditionalPlan_status (dates : HttpDates) (request : HttpRequest) {plan : FilePlan}
    (h : plan.status = .k200Ok) :
    (conditionalPlan dates request plan).status = .k304NotModified ↔
      notModified dates request plan = true := by
  rw [conditionalPlan]
  split
  · rename_i hnot
    simp [hnot]
  · rename_i hnot
    simp only [hnot, Bool.false_eq_true, iff_false]
    split
    · simp [h]
    · split
      · simp
      · simp

/-- What the handler looks at: the whole field, or else the date. -/
theorem notModified_filePlan (format : ℤ → Bytes) (request : HttpRequest) (resolved : Bytes)
    (st : FileStat) :
    notModified ⟨parseHttpDate, format⟩ request (filePlan resolved st) = true ↔
      request.getHeader (ascii "If-None-Match") = makeEtag st ∨
        ReadAsLater (request.getHeader (ascii "If-Modified-Since")) st.mtime := by
  rw [notModified, Bool.or_eq_true, decide_eq_true_eq]
  apply or_congr Iff.rfl
  rw [ReadAsLater]
  cases hparse : parseHttpDate (request.getHeader (ascii "If-Modified-Since")) with
  | none => simp [hparse]
  | some time =>
    simp only [hparse, Option.some.injEq, exists_eq_left']
    exact decide_eq_true_iff

end Plans

section Dates

variable {fullYear : ℕ → ℕ} {value : Bytes} {time mtime : ℤ}

theorem readAsLater_imfFixdate (h : ImfFixdate value time) :
    ReadAsLater value mtime ↔ time ≠ -1 ∧ mtime ≤ time := by
  rw [ReadAsLater, parseHttpDate_imfFixdate h]
  split_ifs with hepoch
  · simp [hepoch]
  · simp [hepoch]

theorem not_readAsLater_obsoleteDate (h : ObsoleteDate fullYear value time) :
    ¬ReadAsLater value mtime := by
  rw [ReadAsLater, parseHttpDate_obsoleteDate h]
  simp

/-- The handler finds a date that is not before the last change where there is one. -/
theorem readAsLater_agrees_iff :
    (ReadAsLater value mtime ↔ ∃ time, HttpDate fullYear value time ∧ mtime ≤ time) ↔
      ReadAsMeant fullYear value mtime := by
  constructor
  · intro hiff
    constructor
    · intro time himf hle
      exact ((readAsLater_imfFixdate himf).mp (hiff.mpr ⟨time, .inl himf, hle⟩)).1
    · intro time hobsolete
      by_contra hle
      have hlater := hiff.mpr ⟨time, .inr hobsolete, not_lt.mp hle⟩
      exact not_readAsLater_obsoleteDate hobsolete hlater
    · intro hnone hlater
      obtain ⟨time, hdate, -⟩ := hiff.mp hlater
      exact hnone time hdate
  · intro hmeant
    constructor
    · intro hlater
      by_contra hnot
      apply hmeant.noDate ?_ hlater
      -- What is read as a later date and is a date is later itself.
      rintro time (himf | hobsolete)
      · exact hnot ⟨time, .inl himf, ((readAsLater_imfFixdate himf).mp hlater).2⟩
      · exact not_readAsLater_obsoleteDate hobsolete hlater
    · rintro ⟨time, himf | hobsolete, hle⟩
      · exact (readAsLater_imfFixdate himf).mpr ⟨hmeant.epoch time himf hle, hle⟩
      · exact absurd (hmeant.obsolete time hobsolete) (not_lt.mpr hle)

theorem not_readAsLater_nil : ¬ReadAsLater [] mtime := by
  have hempty : parseHttpDate [] = none := by decide
  rw [ReadAsLater, hempty]
  simp

end Dates

section Conditions

variable {fullYear : ℕ → ℕ} {request : HttpRequest} {st : FileStat}

/-- With an entity tag there are two ways to go wrong: to say nothing about the tag and be
believed for the date, and to name the tag and not be heard. -/
theorem combinable_iff_of_tag {value : Bytes}
    (h : request.field (ascii "If-None-Match") = some value) :
    ((request.getHeader (ascii "If-None-Match") = makeEtag st ∨
          ReadAsLater (request.getHeader (ascii "If-Modified-Since")) st.mtime) ↔
        NotModified fullYear request st) ↔ Combinable fullYear request st := by
  have hself : value = makeEtag st → NamesTag (makeEtag st) value := by
    rintro rfl
    exact namesTag_self st
  have hget : request.getHeader (ascii "If-None-Match") = value := by
    rw [request.getHeader_eq, h, Option.getD_some]
  rw [hget, NotModified, Combinable, h]
  constructor
  · intro hiff
    exact ⟨hiff.mpr, fun hlater => hiff.mp (.inr hlater)⟩
  · rintro ⟨hheard, hnamed⟩
    exact ⟨fun hplan => hplan.elim hself hnamed, hheard⟩

theorem combinable_iff_of_date (h : request.field (ascii "If-None-Match") = none) :
    ((request.getHeader (ascii "If-None-Match") = makeEtag st ∨
          ReadAsLater (request.getHeader (ascii "If-Modified-Since")) st.mtime) ↔
        NotModified fullYear request st) ↔ Combinable fullYear request st := by
  -- A field that is not there reads as the empty string, which is no entity tag.
  have hget : request.getHeader (ascii "If-None-Match") ≠ makeEtag st := by
    rw [request.getHeader_eq, h, makeEtag_eq]
    exact (List.cons_ne_nil _ _).symm
  rw [NotModified, Combinable, h, or_iff_right hget, request.getHeader_eq]
  cases request.field (ascii "If-Modified-Since") with
  | none => simp [not_readAsLater_nil]
  | some value =>
    simp only [Option.getD_some, Option.some.injEq, exists_eq_left', forall_eq']
    exact readAsLater_agrees_iff

end Conditions

namespace StaticFileHandler

/-- For a file that exists the plan is `304` where it should be, exactly for the requests
whose conditions can be combined as the handler does. -/
theorem prepare_notModified_iff (fullYear : ℕ → ℕ) (format : ℤ → Bytes)
    {handler : StaticFileHandler} {fs : FileSystem} {request : HttpRequest} {resolved : Bytes}
    {st : FileStat} (h : Found fs handler.root (urlDecode request.path) resolved st) :
    ((handler.prepare fs ⟨parseHttpDate, format⟩ request).status = .k304NotModified ↔
        NotModified fullYear request st) ↔ Combinable fullYear request st := by
  rw [prepare, prepareInRoot_of_found h, conditionalPlan_status _ request rfl,
    notModified_filePlan]
  cases htag : request.field (ascii "If-None-Match") with
  | none => exact combinable_iff_of_date htag
  | some value => exact combinable_iff_of_tag htag

/-- A file system with the file `/www/a`, which has the tag `"1-4-0"`. -/
def wwwFiles : FileSystem := smallFileSystem [wwwPath] [wwwFile]

def wwwHandler : StaticFileHandler := new wwwFiles (ascii "/www") 0

theorem wwwFile_found : Found wwwFiles wwwHandler.root (urlDecode (ascii "/a")) (ascii "/www/a")
    ⟨.regular, 1, 4, 0⟩ := by
  constructor
  all_goals decide

/-- The current tag alone. -/
def taggedRequest : HttpRequest :=
  ({ path := ascii "/a" } : HttpRequest).addHeader (ascii "If-None-Match") (ascii "\"1-4-0\"")

theorem prepare_notModified_tagged :
    Found wwwFiles wwwHandler.root (urlDecode taggedRequest.path) (ascii "/www/a")
        ⟨.regular, 1, 4, 0⟩ ∧
      ((wwwHandler.prepare wwwFiles ⟨parseHttpDate, fun _ => []⟩ taggedRequest).status =
          .k304NotModified ↔ NotModified (·+2000) taggedRequest ⟨.regular, 1, 4, 0⟩) := by
  have hfound : Found wwwFiles wwwHandler.root (urlDecode taggedRequest.path) (ascii "/www/a")
      ⟨.regular, 1, 4, 0⟩ := wwwFile_found
  have hfield : taggedRequest.field (ascii "If-None-Match") = some (ascii "\"1-4-0\"") := by
    decide
  have htag : ascii "\"1-4-0\"" = makeEtag ⟨.regular, 1, 4, 0⟩ := by decide
  refine ⟨hfound, (prepare_notModified_iff (·+2000) (fun _ => []) hfound).mpr ?_⟩
  rw [Combinable, hfield, htag]
  exact ⟨fun _ => .inl rfl, fun _ => namesTag_self _⟩

/-- The tag of another version, and a date after the last change. -/
def staleRequest : HttpRequest :=
  (({ path := ascii "/a" } : HttpRequest).addHeader (ascii "If-None-Match")
    (ascii "\"9-4-0\"")).addHeader (ascii "If-Modified-Since")
    (ascii "Thu, 01 Jan 1970 00:00:01 GMT")

/-- The date is believed although the tag says that the client has another version. -/
theorem stale_tag_notModified :
    ¬∀ (fullYear : ℕ → ℕ) (format : ℤ → Bytes) (handler : StaticFileHandler) (fs : FileSystem)
      (request : HttpRequest) (resolved : Bytes) (st : FileStat),
      Found fs handler.root (urlDecode request.path) resolved st →
      ((handler.prepare fs ⟨parseHttpDate, format⟩ request).status = .k304NotModified ↔
        NotModified fullYear request st) := by
  intro h
  have hfound : Found wwwFiles wwwHandler.root (urlDecode staleRequest.path) (ascii "/www/a")
      ⟨.regular, 1, 4, 0⟩ := wwwFile_found
  have hiff := h (·+2000) (fun _ => []) wwwHandler wwwFiles staleRequest _ _ hfound
  have hstatus : (wwwHandler.prepare wwwFiles ⟨parseHttpDate, fun _ => []⟩ staleRequest).status =
      .k304NotModified := by decide
  have hspec : ¬NotModified (·+2000) staleRequest ⟨.regular, 1, 4, 0⟩ := by
    have hfield : staleRequest.field (ascii "If-None-Match") = some (ascii "\"9-4-0\"") := by
      decide
    rw [NotModified, hfield]
    decide
  exact hspec (hiff.mp hstatus)

end StaticFileHandler

end JingjieAR
