import JingjieAR.CommentListModel
import JingjieAR.CommentPaging

/-! When the list of comments stays in order. A page that was asked for with an older state of
the list may repeat what stands there, or take the cursor away. -/
namespace JingjieAR.ArtworkModal

open Runs (Run Guarded Reaching)

variable {cfg : Setting} {s s' : ArtworkModal} {e : ModalEvent}

/-- A page as the server makes it: comments in order, and the last of them as the cursor. -/
structure ServerPage (cfg : Setting) (table : CommentTable) (page : CommentsPage) : Prop where
  descending : page.comments.Pairwise (fun a b => b.id < a.id)
  known : ∀ c ∈ page.comments, c ∈ table.ofArtwork cfg.artworkId
  nextBefore : page.nextBefore = (page.comments.getLast?.map (·.id)).getD 0

theorem serverPage_serverPage (s : ArtworkModal) (before : ℕ) :
    ServerPage cfg s.table (s.serverPage cfg before) := by
  rw [serverPage, daoListComments_eq]
  have hdescending := s.table.ofArtwork_descending cfg.artworkId
  constructor
  · exact (hdescending.filter _).take
  · intro c hc
    exact List.mem_of_mem_filter (List.mem_of_mem_take hc)
  · rfl

/-- What is on the list and in the answers under way is on the server. -/
structure Known (cfg : Setting) (s : ArtworkModal) : Prop where
  listed : ∀ c ∈ s.commentList, c ∈ s.table.ofArtwork cfg.artworkId
  answered : ∀ reset page, .answered reset page ∈ s.calls → ServerPage cfg s.table page

/-- What an event does: a call goes on without touching the list, the table grows, or an
answer is put on the list. -/
inductive Change (cfg : Setting) (s : ArtworkModal) : ModalEvent → ArtworkModal → Prop
  | goesOn {e : ModalEvent} {calls : List CommentCall}
      (hcalls : ∀ reset page, .answered reset page ∈ calls →
        .answered reset page ∈ s.calls ∨ ServerPage cfg s.table page)
      (hc : s.Continues cfg e) : Change cfg s e { s with calls := calls }
  | grows {e : ModalEvent} {artworkId : Bytes} {comment : ArtworkComment} {table : CommentTable}
      {calls : List CommentCall} (htable : s.table.insert artworkId comment = some table)
      (hcalls : ∀ reset page, .answered reset page ∈ calls → .answered reset page ∈ s.calls)
      (hc : s.Continues cfg e) : Change cfg s e { s with table := table, calls := calls }
  | applies {i : ℕ} {reset : Bool} {page : CommentsPage}
      (h : s.calls[i]? = some (.answered reset page)) :
      Change cfg s (.arrive i) ((s.applyPage cfg reset page).setCall i .finished)

/-- A call that goes on to a stage which is no answer. -/
theorem answered_of_mem_set {calls : List CommentCall} {i : ℕ} {call : CommentCall}
    (hcall : ∀ reset page, call ≠ .answered reset page) {reset : Bool} {page : CommentsPage}
    (h : .answered reset page ∈ calls.set i call) : .answered reset page ∈ calls := by
  rcases List.mem_or_eq_of_mem_set h with hmem | heq
  · exact hmem
  · exact absurd heq.symm (hcall reset page)

theorem answered_of_mem_append {calls : List CommentCall} {call : CommentCall}
    (hcall : ∀ reset page, call ≠ .answered reset page) {reset : Bool} {page : CommentsPage}
    (h : .answered reset page ∈ calls++[call]) : .answered reset page ∈ calls := by
  rcases List.mem_append.mp h with hmem | hnew
  · exact hmem
  · exact absurd (List.mem_singleton.mp hnew).symm (hcall reset page)

theorem Step.change (h : Step cfg s e s') : Change cfg s e s' := by
  cases e with
  | loadComments reset =>
    obtain rfl := Option.some.inj h
    exact .goesOn (fun _ _ hmem => .inl (answered_of_mem_append (by simp [startLoad]) hmem)) trivial
  | submitComment =>
    obtain rfl := Option.some.inj h
    exact .goesOn (fun _ _ hmem => .inl (answered_of_mem_append (by simp) hmem)) trivial
  | answer i =>
    simp only [Step, next] at h
    split at h
    · rename_i reset before hcall
      obtain rfl := Option.some.inj h
      refine .goesOn ?_ trivial
      intro reset' page hmem
      rcases List.mem_or_eq_of_mem_set hmem with hmem | heq
      · exact .inl hmem
      · injection heq with _ hpage
        exact .inr (hpage ▸ serverPage_serverPage s before)
    · contradiction
  | store i comment =>
    simp only [Step, next] at h
    split at h
    · obtain ⟨table, htable, rfl⟩ := Option.map_eq_some_iff.mp h
      exact .grows htable (fun _ _ hmem => answered_of_mem_set (by simp) hmem) trivial
    · contradiction
  | arrive i =>
    simp only [Step, next] at h
    split at h
    · rename_i reset page hcall
      obtain rfl := Option.some.inj h
      exact .applies hcall
    · rename_i hcall
      obtain rfl := Option.some.inj h
      refine .goesOn (fun _ _ hmem => .inl (answered_of_mem_set (by simp [startLoad]) hmem)) ?_
      simp only [Continues, hcall]
    · contradiction
  | fail i =>
    simp only [Step, next] at h
    split at h
    · contradiction
    · obtain rfl := Option.some.inj h
      exact .goesOn (fun _ _ hmem => .inl (answered_of_mem_set (by simp) hmem)) trivial
    · contradiction
  | insert artworkId comment =>
    obtain ⟨table, htable, rfl⟩ := Option.map_eq_some_iff.mp h
    exact .grows htable (fun _ _ hmem => hmem) trivial

section Growing

variable {artworkId : Bytes} {comment : ArtworkComment} {table table' : CommentTable}

theorem mem_ofArtwork_insert (h : table.insert artworkId comment = some table')
    {c : ArtworkComment} (hc : c ∈ table.ofArtwork cfg.artworkId) :
    c ∈ table'.ofArtwork cfg.artworkId := by
  rw [CommentTable.mem_ofArtwork] at hc ⊢
  rw [(CommentTable.insert_rows h).1]
  exact List.mem_cons_of_mem _ hc

/-- What is new on the server is newer than everything that was there. -/
theorem older_of_insert (h : table.insert artworkId comment = some table')
    {last c : ArtworkComment} (hlast : last ∈ table.ofArtwork cfg.artworkId)
    (hc : c ∈ table'.ofArtwork cfg.artworkId) (hlt : c.id < last.id) :
    c ∈ table.ofArtwork cfg.artworkId := by
  obtain ⟨hrows, habove⟩ := CommentTable.insert_rows h
  rw [CommentTable.mem_ofArtwork, hrows] at hc
  rcases List.mem_cons.mp hc with heq | hold
  · have hcomment : c = comment := congrArg Prod.snd heq
    have hgreater : last.id < comment.id := habove _ (CommentTable.mem_ofArtwork.mp hlast)
    rw [hcomment] at hlt
    omega
  · exact CommentTable.mem_ofArtwork.mpr hold

theorem ServerPage.insert {page : CommentsPage} (h : ServerPage cfg table page)
    (hinsert : table.insert artworkId comment = some table') : ServerPage cfg table' page :=
  ⟨h.descending, fun c hc => mem_ofArtwork_insert hinsert (h.known c hc), h.nextBefore⟩

end Growing

theorem Known.step (h : Known cfg s) (hstep : Step cfg s e s') : Known cfg s' := by
  cases hstep.change with
  | goesOn hcalls hc =>
    refine ⟨h.listed, ?_⟩
    intro reset page hmem
    rcases hcalls reset page hmem with hold | hpage
    · exact h.answered reset page hold
    · exact hpage
  | grows htable hcalls hc =>
    refine ⟨fun c hmem => mem_ofArtwork_insert htable (h.listed c hmem), ?_⟩
    intro reset page hmem
    exact (h.answered reset page (hcalls reset page hmem)).insert htable
  | @applies i reset page hcall =>
    have hpage := h.answered reset page (List.mem_of_getElem? hcall)
    refine ⟨?_, ?_⟩
    · intro c hmem
      simp only [setCall, applyPage] at hmem ⊢
      cases reset with
      | true => exact hpage.known c hmem
      | false =>
        rcases List.mem_append.mp hmem with hold | hnew
        · exact h.listed c hold
        · exact hpage.known c hnew
    · intro reset' page' hmem
      exact h.answered reset' page' (answered_of_mem_set (by simp) hmem)

theorem Integrity.grows {artworkId : Bytes} {comment : ArtworkComment} {table : CommentTable}
    {calls : List CommentCall} (h : Integrity cfg s) (hknown : Known cfg s)
    (htable : s.table.insert artworkId comment = some table) :
    Integrity cfg { s with table := table, calls := calls } := by
  refine ⟨h.descending, ?_⟩
  have hcursor := h.cursor
  cases hlast : s.commentList.getLast? with
  | none =>
    rw [hlast] at hcursor
    exact hcursor
  | some last =>
    rw [hlast] at hcursor
    have hmem : last ∈ s.table.ofArtwork cfg.artworkId :=
      hknown.listed last (List.mem_of_getLast? hlast)
    refine hcursor.imp_right (And.imp_right ?_)
    intro hnone c hc hlt
    exact hnone c (older_of_insert htable hmem hc hlt) hlt

section Applying

variable {page : CommentsPage}

theorem id_pos (hknown : ServerPage cfg s.table page) {c : ArtworkComment}
    (hc : c ∈ page.comments) : 0 < c.id :=
  (s.table.ids _ (CommentTable.mem_ofArtwork.mp (hknown.known c hc))).1

/-- The cursor that an answer leaves is right if its number is exact, and only then. -/
theorem cursor_iff (hpage : ServerPage cfg s.table page) {last : ArtworkComment}
    (hlast : page.comments.getLast? = some last) (older : Prop) :
    (cfg.number page.nextBefore = last.id ∨ cfg.number page.nextBefore = 0 ∧ older) ↔
      cfg.number page.nextBefore = page.nextBefore := by
  have hnext : page.nextBefore = last.id := by rw [hpage.nextBefore, hlast]; rfl
  have hpos := id_pos hpage (List.mem_of_getLast? hlast)
  have hne : cfg.number page.nextBefore ≠ 0 := by
    rw [Ne, cfg.number_eq_zero]
    omega
  constructor
  · rintro (heq | ⟨hzero, -⟩)
    · exact heq.trans hnext.symm
    · exact absurd hzero hne
  · intro heq
    exact .inl (heq.trans hnext)

theorem number_of_empty (hpage : ServerPage cfg s.table page) (hnil : page.comments = []) :
    page.nextBefore = 0 ∧ cfg.number page.nextBefore = 0 := by
  have hzero : page.nextBefore = 0 := by
    rw [hpage.nextBefore, hnil]
    rfl
  exact ⟨hzero, (cfg.number_eq_zero _).mpr hzero⟩

/-- The answer is the whole list. -/
theorem integrity_of_page (hpage : ServerPage cfg s.table page) (i : ℕ) :
    Integrity cfg ((s.applyPage cfg true page).setCall i .finished) ↔
      cfg.number page.nextBefore = page.nextBefore := by
  cases hlast : page.comments.getLast? with
  | none =>
    obtain ⟨hzero, hnumber⟩ := number_of_empty hpage (List.getLast?_eq_none_iff.mp hlast)
    refine iff_of_true ⟨hpage.descending, ?_⟩ (hnumber.trans hzero.symm)
    simp only [setCall, applyPage, ↓reduceIte, hlast]
    exact hnumber
  | some last =>
    have hiff := cursor_iff hpage hlast
      (∀ c ∈ s.table.ofArtwork cfg.artworkId, ¬ c.id < last.id)
    rw [← hiff]
    constructor
    · intro h
      have hcursor := h.cursor
      simp only [setCall, applyPage, ↓reduceIte, hlast] at hcursor
      exact hcursor
    · intro hcursor
      refine ⟨hpage.descending, ?_⟩
      simp only [setCall, applyPage, ↓reduceIte, hlast]
      exact hcursor

/-- The answer is put behind a list that ends with `last`. -/
theorem integrity_of_append (h : Integrity cfg s) (hknown : Known cfg s)
    (hpage : ServerPage cfg s.table page) {last : ArtworkComment}
    (hend : s.commentList.getLast? = some last) (i : ℕ) :
    Integrity cfg ((s.applyPage cfg false page).setCall i .finished) ↔
      cfg.number page.nextBefore = page.nextBefore ∧ s.FollowsOn cfg last page := by
  have hlastpos : 0 < last.id :=
    (s.table.ids _ (CommentTable.mem_ofArtwork.mp
      (hknown.listed last (List.mem_of_getLast? hend)))).1
  rw [FollowsOn]
  cases hcomments : page.comments with
  | nil =>
    obtain ⟨hzero, hnumber⟩ := number_of_empty hpage hcomments
    have hlist : ((s.applyPage cfg false page).setCall i .finished).commentList =
        s.commentList := by
      simp [setCall, applyPage, hcomments]
    constructor
    · intro happlied
      have hcursor := happlied.cursor
      rw [hlist, hend] at hcursor
      rcases hcursor with heq | ⟨-, hnone⟩
      · have heq' : cfg.number page.nextBefore = last.id := heq
        omega
      · exact ⟨hnumber.trans hzero.symm, hnone⟩
    · rintro ⟨-, hnone⟩
      refine ⟨hlist ▸ h.descending, ?_⟩
      rw [hlist, hend]
      exact .inr ⟨hnumber, hnone⟩
  | cons first rest =>
    obtain ⟨plast, hplast⟩ : ∃ plast, page.comments.getLast? = some plast := by
      rw [hcomments, List.getLast?_eq_some_getLast (List.cons_ne_nil first rest)]
      exact ⟨_, rfl⟩
    have hlist : ((s.applyPage cfg false page).setCall i .finished).commentList =
        s.commentList++page.comments := rfl
    have hnewlast : (s.commentList++page.comments).getLast? = some plast := by
      rw [List.getLast?_append, hplast]
      rfl
    have hcursor_iff := cursor_iff hpage hplast
      (∀ c ∈ s.table.ofArtwork cfg.artworkId, ¬ c.id < plast.id)
    have hfirst : first ∈ page.comments := hcomments ▸ List.mem_cons_self
    constructor
    · intro happlied
      have hcursor := happlied.cursor
      have hdescending := happlied.descending
      rw [hlist] at hcursor hdescending
      rw [hnewlast] at hcursor
      refine ⟨hcursor_iff.mp hcursor, ?_⟩
      exact (List.pairwise_append.mp hdescending).2.2 last (List.mem_of_getLast? hend) first hfirst
    · rintro ⟨hnumber, hlt⟩
      refine ⟨?_, ?_⟩
      · rw [hlist]
        refine List.pairwise_append.mpr ⟨h.descending, hpage.descending, ?_⟩
        intro a ha b hb
        -- The list ends at `last`, and the page begins with `first`.
        have hle : last.id ≤ a.id := by
          obtain ⟨front, hfront⟩ := List.getLast?_eq_some_iff.mp hend
          have hdescending := h.descending
          rw [hfront] at ha hdescending
          rcases List.mem_append.mp ha with ha | ha
          · exact ((List.pairwise_append.mp hdescending).2.2 a ha last (by simp)).le
          · rw [List.mem_singleton.mp ha]
        have hge : b.id ≤ first.id := by
          have hdescending := hpage.descending
          rw [hcomments] at hb hdescending
          rcases List.mem_cons.mp hb with rfl | hb
          · exact Nat.le_refl _
          · exact ((List.pairwise_cons.mp hdescending).1 b hb).le
        omega
      · rw [hlist, hnewlast]
        exact hcursor_iff.mpr hnumber

theorem integrity_iff_continues (h : Integrity cfg s) (hknown : Known cfg s) {i : ℕ}
    {reset : Bool} (hcall : s.calls[i]? = some (.answered reset page)) :
    Integrity cfg ((s.applyPage cfg reset page).setCall i .finished) ↔
      s.Continues cfg (.arrive i) := by
  have hpage := hknown.answered reset page (List.mem_of_getElem? hcall)
  simp only [Continues, hcall]
  cases reset with
  | true => simpa using integrity_of_page hpage i
  | false =>
    cases hend : s.commentList.getLast? with
    | none =>
      -- Behind an empty list the answer is the whole list.
      have hnil := List.getLast?_eq_none_iff.mp hend
      have hsame : s.applyPage cfg false page = s.applyPage cfg true page := by
        simp [applyPage, hnil]
      rw [hsame]
      simpa using integrity_of_page hpage i
    | some last => simpa using integrity_of_append h hknown hpage hend i

end Applying

theorem integrity_step_iff (hknown : Known cfg s) (h : Integrity cfg s)
    (hstep : Step cfg s e s') : Integrity cfg s' ↔ s.Continues cfg e := by
  cases hstep.change with
  | goesOn hcalls hc => exact iff_of_true ⟨h.descending, h.cursor⟩ hc
  | grows htable hcalls hc => exact iff_of_true (h.grows hknown htable) hc
  | applies hcall => exact integrity_iff_continues h hknown hcall

/-- In a run from the empty list the list is in order all the time, exactly where every answer
that is appended continues the list as it is when the answer comes. -/
theorem comments_in_order_iff {cfg : Setting} {table : CommentTable} {es : List ModalEvent}
    {s : ArtworkModal} :
    Run (Reaching (Integrity cfg) (Step cfg)) { table := table } es s ↔
      Run (Guarded (Continues cfg) (Step cfg)) { table := table } es s := by
  have hknown : Known cfg { table := table } := ⟨by simp, by simp⟩
  have hstart : Integrity cfg { table := table } := ⟨.nil, rfl⟩
  have hinv : ∀ s e s', Known cfg s → Step cfg s e s' → Known cfg s' :=
    fun _ _ _ hk hstep => hk.step hstep
  have hgood : ∀ s e s', Known cfg s → Integrity cfg s → Step cfg s e s' →
      (Integrity cfg s' ↔ Continues cfg s e) :=
    fun _ _ _ hk hi hstep => integrity_step_iff hk hi hstep
  exact Run.reaching_iff hinv hgood hknown hstart

/-- Twenty-one comments: the second page has one. -/
def twoPages : CommentTable where
  rows := (List.range 21).reverse.map (fun k => (ascii "a", ⟨k+1, [], []⟩))
  descending := by decide
  ids := by decide

def exactNumbers : Setting := ⟨ascii "a", id, fun _ => Iff.rfl⟩

/-- The button for more is pressed twice before the second page is there. -/
def pressedTwice : List ModalEvent :=
  [.loadComments true, .answer 0, .arrive 0, .loadComments false, .loadComments false,
   .answer 1, .answer 2, .arrive 1, .arrive 2]

theorem comment_listed_twice : ∃ s, Run (Step exactNumbers) { table := twoPages } pressedTwice s ∧
    s.commentList.count ⟨1, [], []⟩ = 2 ∧ ¬ Integrity exactNumbers s := by
  have hrun : ∃ s, Run (Step exactNumbers) { table := twoPages } pressedTwice s ∧
      s.commentList.count ⟨1, [], []⟩ = 2 :=
    ⟨_, .cons rfl (.cons rfl (.cons rfl (.cons rfl (.cons rfl (.cons rfl (.cons rfl
      (.cons rfl (.cons rfl (.nil _))))))))), by decide⟩
  obtain ⟨s, hr, htwice⟩ := hrun
  refine ⟨s, hr, htwice, ?_⟩
  intro h
  have hnodup : s.commentList.Nodup := h.descending.imp (fun hab heq => by simp [heq] at hab)
  have honce := List.nodup_iff_count_le_one.mp hnodup ⟨1, [], []⟩
  omega

end JingjieAR.ArtworkModal
