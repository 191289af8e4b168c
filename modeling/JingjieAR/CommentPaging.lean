import JingjieAR.CacheEntryText
import JingjieAR.CommentPagingModel

/-! The pages of the comments join without a gap. A page ends at the cursor of the next one,
what is written meanwhile is above every cursor, and an empty page ends the reading. -/
namespace JingjieAR

open HttpResponse (decimal)
open Runs (Run)

/-- The comments of a descending list that are below its element at some place follow it. -/
theorem filter_below_last {l : List ArtworkComment} {n : ℕ} {last : ArtworkComment}
    (h : l.Pairwise (fun a b => b.id < a.id)) (hlast : (l.take n).getLast? = some last) :
    l.filter (·.id < last.id) = l.drop n := by
  rw [← List.take_append_drop n l] at h
  obtain ⟨htake, hdrop, hcross⟩ := List.pairwise_append.mp h
  obtain ⟨before, hbefore⟩ := List.getLast?_eq_some_iff.mp hlast
  have hmem : last ∈ l.take n := List.mem_of_getLast? hlast
  have hfront : (l.take n).filter (·.id < last.id) = [] := by
    apply List.filter_eq_nil_iff.mpr
    intro c hc
    rw [hbefore] at hc htake
    rcases List.mem_append.mp hc with hc | hc
    · have hlt := (List.pairwise_append.mp htake).2.2 c hc last (List.mem_singleton_self last)
      simp only [decide_eq_true_eq]
      omega
    · obtain rfl := List.mem_singleton.mp hc
      simp
  have hback : (l.drop n).filter (·.id < last.id) = l.drop n := by
    apply List.filter_eq_self.mpr
    intro c hc
    exact decide_eq_true (hcross last hmem c hc)
  conv_lhs => rw [← List.take_append_drop n l, List.filter_append, hfront, hback]
  rfl

namespace CommentTable

variable {table table' : CommentTable} {artworkId other : Bytes} {comment : ArtworkComment}

theorem ofArtwork_descending (table : CommentTable) (artworkId : Bytes) :
    (table.ofArtwork artworkId).Pairwise (fun a b => b.id < a.id) := by
  apply List.Pairwise.map
  · intro a b hab
    exact hab
  · exact table.descending.filter _

theorem mem_ofArtwork {c : ArtworkComment} :
    c ∈ table.ofArtwork artworkId ↔ (artworkId, c) ∈ table.rows := by
  simp only [ofArtwork, List.mem_map, List.mem_filter, decide_eq_true_eq]
  constructor
  · rintro ⟨⟨id, c'⟩, ⟨hmem, hid⟩, hc⟩
    simp only at hid hc
    rwa [← hid, ← hc]
  · intro hmem
    exact ⟨(artworkId, c), ⟨hmem, rfl⟩, rfl⟩

theorem insert_rows (h : table.insert other comment = some table') :
    table'.rows = (other, comment) :: table.rows ∧ ∀ row ∈ table.rows, row.2.id < comment.id := by
  rw [insert] at h
  split_ifs at h with hnew
  obtain rfl := Option.some.inj h
  exact ⟨rfl, hnew.1⟩

/-- The comments before a cursor do not change by what is written behind it. -/
theorem filter_insert {cursor : ℕ} (h : table.insert other comment = some table')
    (hcursor : ∃ c ∈ table.ofArtwork artworkId, cursor ≤ c.id) :
    (table'.ofArtwork artworkId).filter (·.id < cursor) =
        (table.ofArtwork artworkId).filter (·.id < cursor) ∧
      ∃ c ∈ table'.ofArtwork artworkId, cursor ≤ c.id := by
  obtain ⟨hrows, habove⟩ := insert_rows h
  obtain ⟨c, hc, hle⟩ := hcursor
  have hlt : c.id < comment.id := habove _ (mem_ofArtwork.mp hc)
  have hmem : c ∈ table'.ofArtwork artworkId := by
    rw [mem_ofArtwork, hrows]
    exact List.mem_cons_of_mem _ (mem_ofArtwork.mp hc)
  refine ⟨?_, c, hmem, hle⟩
  by_cases hother : other = artworkId
  · have hskip : ¬ comment.id < cursor := by omega
    have hnew : table'.ofArtwork artworkId = comment :: table.ofArtwork artworkId := by
      rw [ofArtwork, hrows, List.filter_cons_of_pos (by simpa using hother)]
      rfl
    rw [hnew, List.filter_cons_of_neg (by simpa using hskip)]
  · have hsame : table'.ofArtwork artworkId = table.ofArtwork artworkId := by
      rw [ofArtwork, hrows, List.filter_cons_of_neg (by simpa using hother)]
      rfl
    rw [hsame]

end CommentTable

/-- The loop over the rows: the cursor is the id of the last one. -/
theorem fetch_rows (rows : List ArtworkComment) (page : CommentsPage) :
    rows.foldl (fun page comment => ⟨page.comments++[comment], comment.id⟩) page =
      ⟨page.comments++rows, (rows.getLast?.map (·.id)).getD page.nextBefore⟩ := by
  induction rows generalizing page with
  | nil => simp
  | cons row rows ih =>
    rw [List.foldl_cons, ih, List.append_assoc, List.singleton_append]
    cases rows with
    | nil => rfl
    | cons next rows =>
      rw [List.getLast?_cons_cons, List.getLast?_eq_some_getLast (List.cons_ne_nil next rows)]
      rfl

theorem boundedLimit_le (limit : ℕ) : 1 ≤ boundedLimit limit ∧ boundedLimit limit ≤ 20 := by
  rw [boundedLimit]
  split_ifs
  · omega
  · omega

/-- A page of the DAO: the first comments before the cursor, and the last of their ids. -/
theorem daoListComments_eq (table : CommentTable) (artworkId : Bytes) (beforeId limit : ℕ) :
    daoListComments table artworkId beforeId (boundedLimit limit) =
      let rows := ((table.ofArtwork artworkId).filter
        (fun c => c.id < if beforeId ≠ 0 then beforeId else 2^64-1)).take (boundedLimit limit)
      ⟨rows, (rows.getLast?.map (·.id)).getD 0⟩ := by
  obtain ⟨hpos, hle⟩ := boundedLimit_le limit
  have hlimit : (if boundedLimit limit > 20 then 20
      else if boundedLimit limit ≠ 0 then boundedLimit limit else 20) = boundedLimit limit := by
    rw [if_neg (by omega), if_pos (by omega)]
  simp only [daoListComments, hlimit, fetch_rows, CommentTable.select, List.nil_append]

section Query

variable {parameters : StringMap}

/-- A number that is sent as a parameter is read back. -/
theorem strtoull_decimal {n : ℕ} (h : n < 2^64) : strtoull (decimal n) = (n, false, []) := by
  have hdecimal := decimal_decimal n
  obtain ⟨c, rest, hcons⟩ := List.exists_cons_of_ne_nil hdecimal.ne_nil
  have hdigits := hdecimal.digits
  have hvalue := hdecimal.value
  rw [hcons] at hdigits hvalue ⊢
  obtain ⟨hblank, hminus, hplus⟩ := digit_cases (hdigits c List.mem_cons_self)
  have hcString : (c :: rest).takeWhile (· ≠ 0) = c :: rest := by
    apply List.takeWhile_eq_self_iff.mpr
    intro b hb
    apply decide_eq_true
    rintro rfl
    exact absurd (hdigits 0 hb) (by decide)
  have hall : (c :: rest).takeWhile isDigit = c :: rest := List.takeWhile_eq_self_iff.mpr hdigits
  have hnone : (c :: rest).dropWhile isDigit = [] := List.dropWhile_eq_nil_iff.mpr hdigits
  have hskip : (c :: rest).dropWhile (fun c => c = 32 || (9 ≤ c && c ≤ 13)) = c :: rest :=
    List.dropWhile_cons_of_neg (by simpa using hblank)
  have hnumber : (c :: rest).foldl (fun n c => n*10+(c.toNat-48)) 0 = n := hvalue
  unfold strtoull
  simp only [hcString, hskip, List.head?_cons, Option.some.injEq, hminus, hplus, decide_false,
    Bool.or_self, Bool.false_eq_true, ↓reduceIte, hall, hnone, hnumber, h, reduceCtorEq]

theorem unsignedParameter_decimal {name : Bytes} {n : ℕ} (h : n < 2^64)
    (hlookup : parameters.lookup name = some (decimal n)) :
    unsignedParameter parameters name = some n := by
  have hdecimal := decimal_decimal n
  have hread := strtoull_decimal h
  obtain ⟨c, rest, hcons⟩ := List.exists_cons_of_ne_nil hdecimal.ne_nil
  have hdigits := hdecimal.digits
  rw [hcons] at hlookup hread hdigits
  have hminus := (digit_cases (hdigits c List.mem_cons_self)).2.1
  simp only [unsignedParameter, hlookup, hread, hminus, Bool.false_eq_true, ne_eq, not_true,
    or_self, ↓reduceIte]

theorem unsignedParameter_query {limit : ℕ}
    (hlimit : unsignedParameter parameters (ascii "limit") = some limit) (before : Option ℕ) :
    unsignedParameter (CommentReader.query parameters before) (ascii "limit") = some limit := by
  cases before with
  | none => exact hlimit
  | some n =>
    have hne : ascii "limit" ≠ ascii "before" := by decide
    have hlookup : (CommentReader.query parameters (some n)).lookup (ascii "limit") =
        parameters.lookup (ascii "limit") := Finmap.lookup_insert_of_ne _ hne
    rw [unsignedParameter, hlookup]
    exact hlimit

end Query

namespace CommentReader

variable {artworkId : Bytes} {parameters : StringMap} {s s' : CommentReader}
  {rest : List ArtworkComment} {limit : ℕ}

/-- What the coming requests have still to bring; what is written now does not belong to it. -/
def Remains (artworkId : Bytes) (s : CommentReader) (rest : List ArtworkComment) : Prop :=
  match s.nextBefore with
  | none => s.table.ofArtwork artworkId = rest
  | some 0 => rest = []
  | some (n+1) => n+1 < 2^64 ∧ (∃ c ∈ s.table.ofArtwork artworkId, n+1 ≤ c.id) ∧
      (s.table.ofArtwork artworkId).filter (·.id < n+1) = rest

/-- The comments of an artwork that a statement with the cursor of the next request finds. -/
theorem Remains.selected (h : Remains artworkId s rest) (hmore : s.nextBefore ≠ some 0)
    (hfirst : parameters.lookup (ascii "before") = none) :
    ∃ before, unsignedParameter (query parameters s.nextBefore) (ascii "before") = some before ∧
      (s.table.ofArtwork artworkId).filter
        (fun c => c.id < if before ≠ 0 then before else 2^64-1) = rest := by
  rw [Remains] at h
  cases hnext : s.nextBefore with
  | none =>
    rw [hnext] at h
    refine ⟨0, by simp only [query, unsignedParameter, hfirst], ?_⟩
    rw [← h]
    apply List.filter_eq_self.mpr
    intro c hc
    exact decide_eq_true (s.table.ids _ (CommentTable.mem_ofArtwork.mp hc)).2
  | some n =>
    rw [hnext] at h
    cases n with
    | zero => exact absurd hnext hmore
    | succ n =>
      obtain ⟨hsize, -, hfilter⟩ := h
      refine ⟨n+1, unsignedParameter_decimal hsize (Finmap.lookup_insert _), ?_⟩
      rw [if_pos (Nat.succ_ne_zero n)]
      exact hfilter

/-- A request brings the next comments, and none only if there are none. -/
theorem Remains.request (h : Remains artworkId s rest) (hmore : s.nextBefore ≠ some 0)
    (hfirst : parameters.lookup (ascii "before") = none)
    (hlimit : unsignedParameter parameters (ascii "limit") = some limit) :
    ∃ k s', 1 ≤ k ∧ k ≤ 20 ∧ Step artworkId parameters s .request s' ∧
      s'.pages = s.pages++[rest.take k] ∧ Remains artworkId s' (rest.drop k) ∧
      s'.nextBefore ≠ none ∧ (rest = [] → s'.nextBefore = some 0) := by
  obtain ⟨before, hbefore, hrest⟩ := h.selected hmore hfirst
  let limit' := if limit > 2^32-1 then 2^32-1 else limit
  let k := boundedLimit limit'
  obtain ⟨hpos, hle⟩ := boundedLimit_le limit'
  let page : CommentsPage := ⟨rest.take k, ((rest.take k).getLast?.map (·.id)).getD 0⟩
  have hpage : commentsHandler s.table artworkId (query parameters s.nextBefore) = some page := by
    simp only [commentsHandler, hbefore, unsignedParameter_query hlimit, Option.bind_eq_bind,
      Option.bind_some, daoListComments_eq, hrest]
    rfl
  have hstep : Step artworkId parameters s .request
      { s with pages := s.pages++[page.comments], nextBefore := some page.nextBefore } := by
    rw [Step, next, if_neg hmore, hpage]
    rfl
  refine ⟨k, _, hpos, hle, hstep, rfl, ?_, by simp, ?_⟩
  · cases hlast : (rest.take k).getLast? with
    | none =>
      have hnil : rest = [] := by
        have htake := List.getLast?_eq_none_iff.mp hlast
        rcases List.take_eq_nil_iff.mp htake with hzero | hnil
        · exact absurd hzero (by omega)
        · exact hnil
      have hzero : page.nextBefore = 0 := by simp only [page, hlast, Option.map_none, Option.getD_none]
      simp only [Remains, hzero]
      rw [hnil, List.drop_nil]
    | some last =>
      have hlastmem : last ∈ rest := List.mem_of_mem_take (List.mem_of_getLast? hlast)
      have hmem : last ∈ s.table.ofArtwork artworkId :=
        List.mem_of_mem_filter (hrest ▸ hlastmem)
      have hid : 0 < last.id ∧ last.id < 2^64-1 :=
        s.table.ids _ (CommentTable.mem_ofArtwork.mp hmem)
      have hcursor : last.id < if before ≠ 0 then before else 2^64-1 := by
        rw [← hrest, List.mem_filter] at hlastmem
        exact of_decide_eq_true hlastmem.2
      obtain ⟨n, hn⟩ : ∃ n, last.id = n+1 := ⟨last.id-1, by omega⟩
      have hbelow : (s.table.ofArtwork artworkId).filter (·.id < last.id) = rest.drop k := by
        have hdescending : rest.Pairwise (fun a b => b.id < a.id) :=
          hrest ▸ (s.table.ofArtwork_descending artworkId).filter _
        rw [← filter_below_last hdescending hlast, ← hrest, List.filter_filter]
        apply List.filter_congr
        intro c _
        -- Below the last id of the page is below the cursor as well.
        by_cases hc : c.id < last.id
        · simp only [hc, decide_true, Bool.true_and]
          exact (decide_eq_true (hc.trans hcursor)).symm
        · simp only [hc, decide_false, Bool.false_and]
      simp only [Remains, page, hlast, Option.map_some, Option.getD_some, hn]
      exact ⟨by omega, ⟨last, hmem, hn.ge⟩, hn ▸ hbelow⟩
  · rintro rfl
    simp [page]

/-- What is written meanwhile is above the cursor. -/
theorem Remains.insert {other : Bytes} {comment : ArtworkComment} {table : CommentTable}
    (h : Remains artworkId s rest) (hstarted : s.nextBefore ≠ none)
    (hinsert : s.table.insert other comment = some table) :
    Remains artworkId { s with table := table } rest := by
  rw [Remains] at h ⊢
  cases hnext : s.nextBefore with
  | none => exact absurd hnext hstarted
  | some n =>
    rw [hnext] at h
    cases n with
    | zero => exact h
    | succ n =>
      obtain ⟨hsize, hcursor, hfilter⟩ := h
      obtain ⟨hsame, hcursor'⟩ := CommentTable.filter_insert hinsert hcursor
      exact ⟨hsize, hcursor', hsame.trans hfilter⟩

/-- After the first request: the pages so far and what remains are what there was. -/
structure Reading (artworkId : Bytes) (existing : List ArtworkComment) (s : CommentReader) :
    Prop where
  remains : ∃ rest, existing = s.pages.flatten++rest ∧ Remains artworkId s rest
  started : s.nextBefore ≠ none
  pages : ∀ page ∈ s.pages, page.length ≤ 20
  -- every page but the last one has brought something
  count : s.pages.length ≤ s.pages.flatten.length+if s.nextBefore = some 0 then 1 else 0

/-- One more page, from a state in which all but the beginning is known. -/
theorem reading_of_request {existing : List ArtworkComment}
    (hremains : ∃ rest, existing = s.pages.flatten++rest ∧ Remains artworkId s rest)
    (hpages : ∀ page ∈ s.pages, page.length ≤ 20)
    (hcount : s.pages.length ≤ s.pages.flatten.length) (hmore : s.nextBefore ≠ some 0)
    (hfirst : parameters.lookup (ascii "before") = none)
    (hlimit : unsignedParameter parameters (ascii "limit") = some limit)
    (hstep : Step artworkId parameters s .request s') : Reading artworkId existing s' := by
  obtain ⟨rest, hexisting, hrest⟩ := hremains
  obtain ⟨k, s₁, hpos, hle, hstep₁, hpages₁, hremains₁, hstarted, hlast⟩ :=
    hrest.request hmore hfirst hlimit
  obtain rfl : s₁ = s' := Option.some.inj (hstep₁.symm.trans hstep)
  have hflatten : s₁.pages.flatten = s.pages.flatten++rest.take k := by
    rw [hpages₁, List.flatten_append, List.flatten_singleton]
  refine ⟨⟨rest.drop k, ?_, hremains₁⟩, hstarted, ?_, ?_⟩
  · rw [hflatten, List.append_assoc, List.take_append_drop]
    exact hexisting
  · intro page hpage
    rw [hpages₁] at hpage
    rcases List.mem_append.mp hpage with hold | hnew
    · exact hpages page hold
    · obtain rfl := List.mem_singleton.mp hnew
      exact (List.length_take_le k rest).trans hle
  · rw [hflatten, hpages₁]
    simp only [List.length_append, List.length_singleton, List.length_take]
    by_cases hnil : rest = []
    · rw [if_pos (hlast hnil)]
      omega
    · have hlength := List.length_pos_iff.mpr hnil
      omega

theorem Reading.step {existing : List ArtworkComment} {e : PagingStep}
    (h : Reading artworkId existing s)
    (hfirst : parameters.lookup (ascii "before") = none)
    (hlimit : unsignedParameter parameters (ascii "limit") = some limit)
    (hstep : Step artworkId parameters s e s') : Reading artworkId existing s' := by
  cases e with
  | insert other comment =>
    obtain ⟨table, hinsert, rfl⟩ := Option.map_eq_some_iff.mp hstep
    obtain ⟨rest, hexisting, hrest⟩ := h.remains
    exact ⟨⟨rest, hexisting, hrest.insert h.started hinsert⟩, h.started, h.pages, h.count⟩
  | request =>
    have hmore : s.nextBefore ≠ some 0 := by
      intro hdone
      rw [Step, next, if_pos hdone] at hstep
      contradiction
    have hcount := h.count
    rw [if_neg hmore] at hcount
    exact reading_of_request h.remains h.pages hcount hmore hfirst hlimit hstep

/-- Every request is answered with one page. -/
theorem length_pages {es : List PagingStep} (hr : Run (Step artworkId parameters) s es s') :
    s'.pages.length = s.pages.length+es.count .request := by
  induction hr with
  | nil s => rfl
  | @cons s s₁ s' e es h _ ih =>
    rw [ih, List.count_cons]
    cases e with
    | insert other comment =>
      obtain ⟨table, -, rfl⟩ := Option.map_eq_some_iff.mp h
      rfl
    | request =>
      simp only [Step, next] at h
      split_ifs at h
      obtain ⟨page, -, rfl⟩ := Option.map_eq_some_iff.mp h
      simp only [List.length_append, List.length_singleton, BEq.rfl, ↓reduceIte]
      omega

/-- A client that starts without a cursor and follows `nextBefore`: whatever is written
meanwhile, it gets the comments that there were at its first request, each of them once and
the newest first, in pages of at most 20. It can always go on, and makes no more requests
than there were comments and one. -/
theorem paging_complete {table : CommentTable} {artworkId : Bytes} {parameters : StringMap}
    {limit : ℕ} {es : List PagingStep} {s : CommentReader}
    (hfirst : parameters.lookup (ascii "before") = none)
    (hlimit : unsignedParameter parameters (ascii "limit") = some limit)
    (hr : Run (Step artworkId parameters) { table := table } (.request :: es) s) :
    (∀ page ∈ s.pages, page.length ≤ 20) ∧
    (s.pages.flatten.Pairwise (fun a b => b.id < a.id) ∧
      s.pages.flatten <+: table.ofArtwork artworkId) ∧
    (s.nextBefore = some 0 → s.pages.flatten = table.ofArtwork artworkId) ∧
    (s.nextBefore ≠ some 0 → ∃ s', Step artworkId parameters s .request s') ∧
    (PagingStep.request :: es).count .request ≤ (table.ofArtwork artworkId).length+1 := by
  have hreading : Reading artworkId (table.ofArtwork artworkId) s := by
    cases hr with
    | cons h ht =>
      have hstart := reading_of_request (s := { table := table }) ⟨_, rfl, rfl⟩ (by simp)
        le_rfl (by simp) hfirst hlimit h
      exact ht.invariant (fun _ _ _ hs hstep => hs.step hfirst hlimit hstep) hstart
  have hlength := length_pages hr
  obtain ⟨rest, hexisting, hrest⟩ := hreading.remains
  have hdescending := table.ofArtwork_descending artworkId
  refine ⟨hreading.pages, ⟨?_, ⟨rest, hexisting.symm⟩⟩, ?_, ?_, ?_⟩
  · rw [hexisting] at hdescending
    exact (List.pairwise_append.mp hdescending).1
  · intro hdone
    rw [Remains, hdone] at hrest
    rw [hexisting, show rest = [] from hrest, List.append_nil]
  · intro hmore
    obtain ⟨_, s', _, _, hstep, _⟩ := hrest.request hmore hfirst hlimit
    exact ⟨s', hstep⟩
  · have hcount := hreading.count
    have htotal : (table.ofArtwork artworkId).length = s.pages.flatten.length+rest.length := by
      rw [hexisting, List.length_append]
    simp only [List.length_nil, Nat.zero_add] at hlength
    split_ifs at hcount
    · omega
    · omega

/-- Two comments, read one by one, while a third one is written. -/
def twoComments : CommentTable where
  rows := [(ascii "a", ⟨7, [], []⟩), (ascii "a", ⟨5, [], []⟩)]
  descending := by simp
  ids := by simp

theorem paging_complete_two : ∃ s, Run (Step (ascii "a") (Finmap.singleton (ascii "limit")
    (ascii "1"))) { table := twoComments }
      [.request, .insert (ascii "a") ⟨8, [], []⟩, .request, .request] s ∧
    s.nextBefore = some 0 ∧ s.pages.flatten = twoComments.ofArtwork (ascii "a") := by
  have hrun : ∃ s, Run (Step (ascii "a") (Finmap.singleton (ascii "limit") (ascii "1")))
      { table := twoComments }
      [.request, .insert (ascii "a") ⟨8, [], []⟩, .request, .request] s ∧
      s.nextBefore = some 0 :=
    ⟨_, .cons rfl (.cons rfl (.cons rfl (.cons rfl (.nil _)))), by decide⟩
  obtain ⟨s, hr, hdone⟩ := hrun
  have hlimit : unsignedParameter (Finmap.singleton (ascii "limit") (ascii "1"))
      (ascii "limit") = some 1 := by decide
  obtain ⟨-, -, hall, -⟩ := paging_complete (by decide) hlimit hr
  exact ⟨s, hr, hdone, hall hdone⟩

end CommentReader

end JingjieAR
