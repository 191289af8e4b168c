import JingjieAR.ArtworkInteractionModel

/-! Every request is answered once, and a write is started only for an artwork of the catalogue
and the user of a living session. Both are read off the text of the tasks: each of their
branches calls back once, and each start of a write stands under its checks. -/
namespace JingjieAR

open Callbacks (Task Callback Event callCount)

namespace CachedSessionStore

variable {γ : Type} {rest : ServerTask γ} {n m : ℕ}

theorem findAsync_calls {callback : ServerCallback γ (Option Session)} (h : callback.Calls n)
    (hrest : rest.Calls m) (cfg : StoreConfig) (token : Bytes) :
    (findAsync cfg token callback rest).Calls (n+m) := by
  unfold findAsync
  split
  · exact h none rest m hrest
  · split
    · exact .start (fun session => h.last session) hrest
    · -- the first task: a hit, or the row and the second task
      apply Task.Calls.submit
      · apply Task.Calls.ask
        intro cached
        cases cached with
        | some cached => exact h.last (some cached)
        | none =>
          apply Task.Calls.start (m := 0) ?_ Task.calls_done
          intro session
          cases session with
          | none => exact h.last none
          | some copy =>
            apply Task.Calls.submit (m := 0)
            · split
              · exact .ask (fun stored => h.last _)
              · apply Task.Calls.ask
                intro stored
                cases stored with
                | true => exact h.last (some copy)
                | false => exact .ask (fun winner => h.last winner)
            · exact Task.calls_done
            · exact h.last none
      · exact hrest
      · exact h none rest m hrest

theorem revokeAsync_calls {callback : ServerCallback γ Bool} (h : callback.Calls n)
    (hrest : rest.Calls m) (cfg : StoreConfig) (token : Bytes) :
    (revokeAsync cfg token callback rest).Calls (n+m) := by
  unfold revokeAsync
  split
  · exact h false rest m hrest
  · apply Task.Calls.start ?_ hrest
    intro revoked
    cases revoked with
    | false => exact h.last false
    | true =>
      simp only [Bool.not_true, Bool.false_eq_true, if_false]
      split
      · exact h.last true
      · apply Task.Calls.submit (m := 0)
        · exact .ask (fun stored => h.last stored)
        · exact Task.calls_done
        · exact h.last false

end CachedSessionStore

namespace ArtworkInteractionService

variable {n m : ℕ} {rest : InteractionTask}

/-- The callback of a caller, given or empty. -/
def caller (given : Bool) : Option (InteractionCallback ArtworkInteractionResult) :=
  if given then some .call else none

/-- What a function object calls, an empty one nothing. -/
def Heard {α : Type} (callback : Option (InteractionCallback α)) (n : ℕ) : Prop :=
  match callback with
  | some callback => callback.Calls n
  | none => n = 0

theorem heard_caller (given : Bool) : Heard (caller given) given.toNat := by
  cases given with
  | false => rfl
  | true =>
    intro value rest m hrest
    exact hrest.call value

theorem Heard.invoke {α : Type} {callback : Option (InteractionCallback α)}
    (h : Heard callback n) : Callback.Calls (invoke callback) n := by
  cases callback with
  | some callback => exact h
  | none =>
    obtain rfl : n = 0 := h
    intro value rest m hrest
    rwa [Nat.zero_add]

/-- A store whose `find` calls back once. -/
def AnswersOnce (find : Bytes → InteractionCallback (Option Session) → InteractionTask →
    InteractionTask) : Prop :=
  ∀ token callback rest n m, Callback.Calls callback n → rest.Calls m →
    (find token callback rest).Calls (n+m)

variable {service : ArtworkInteractionService}
  {callback : Option (InteractionCallback ArtworkInteractionResult)}

theorem artworkExists_calls (h : Heard callback n) {cont : Bool → InteractionTask}
    (htrue : (cont true).Calls n) (hfalse : (cont false).Calls 0) (artworkId : Bytes) :
    (service.artworkExists artworkId callback cont).Calls n := by
  unfold artworkExists
  split
  · exact htrue
  · exact h.invoke _ _ 0 hfalse

theorem leased_calls (h : Heard callback n) (hrest : rest.Calls m) {call : InteractionTask}
    (hcall : call.Calls (n+m)) : (leased callback rest call).Calls (n+m) := by
  apply Task.Calls.ask
  intro dao
  cases dao with
  | false => exact h.invoke _ _ m hrest
  | true => exact hcall

theorem answer_calls (h : Heard callback n) (ok : Bool) (value : ArtworkInteractionResult) :
    (answer callback ok value).Calls n := by
  cases callback with
  | none =>
    obtain rfl : n = 0 := h
    exact Task.calls_done
  | some callback =>
    have hcalls : callback.Calls n := h
    apply Task.Calls.ask
    intro alive
    split
    · exact hcalls.last _
    · exact hcalls.last _

theorem sessionLookup_calls {sessions : SessionLookup ArtworkInteractionResult}
    {completion : InteractionCallback (Option Session)} (hcompletion : completion.Calls n)
    (hrest : rest.Calls m) (hstore : ∀ find ∈ sessions.store, AnswersOnce find) (token : Bytes) :
    (sessions.get token completion rest).Calls (n+m) := by
  unfold SessionLookup.get
  cases hfind : sessions.store with
  | none => exact hcompletion none rest m hrest
  | some find =>
    simp only
    split
    · exact hstore find hfind token _ rest n m hcompletion hrest
    · exact hcompletion none rest m hrest

theorem authenticate_calls {failure : Option (InteractionCallback ArtworkInteractionResult)}
    {success : Option (InteractionCallback ℕ)} (hfailure : Heard failure n)
    (hsuccess : Heard success n) (hrest : rest.Calls m)
    (hstore : ∀ sessions ∈ service.sessions, ∀ find ∈ sessions.store, AnswersOnce find)
    (token : Bytes) : (service.authenticate token failure success rest).Calls (n+m) := by
  unfold authenticate
  split
  · exact hfailure.invoke _ _ m hrest
  · cases hsessions : service.sessions with
    | none => exact hfailure.invoke _ _ m hrest
    | some sessions =>
      apply sessionLookup_calls ?_ hrest (hstore sessions hsessions)
      -- what the lookup is given for a callback
      intro session rest m hrest
      apply Task.Calls.ask
      intro alive
      split
      · exact hfailure.invoke _ _ m hrest
      · cases session with
        | none => exact hfailure.invoke _ _ m hrest
        | some session =>
          simp only
          split
          · exact hfailure.invoke _ _ m hrest
          · exact hsuccess.invoke _ _ m hrest

theorem loadSummary_calls (h : Heard callback n) (hrest : rest.Calls m) (artworkId : Bytes)
    (userId : ℕ) : (loadSummary artworkId userId callback rest).Calls (n+m) := by
  apply leased_calls h hrest
  apply Task.Calls.start ?_ hrest
  intro reply
  cases callback with
  | none =>
    obtain rfl : n = 0 := h
    exact Task.calls_done
  | some callback =>
    have hcalls : callback.Calls n := h
    apply Task.Calls.ask
    intro alive
    split
    · exact hcalls.last _
    · split
      · exact hcalls.last _
      · exact hcalls.last _

end ArtworkInteractionService

/-- A call of the service. -/
inductive InteractionRequest
  | detail (token artworkId : Bytes)
  | like (token artworkId : Bytes)
  | unlike (token artworkId : Bytes)
  | listComments (artworkId : Bytes) (beforeId limit : ℕ)
  | commentRequest (token artworkId content : Bytes) (contentValid : Bool)
deriving DecidableEq

/-- The token of the caller, if the call has one. -/
def InteractionRequest.token : InteractionRequest → Bytes
  | .detail token _ => token
  | .like token _ => token
  | .unlike token _ => token
  | .listComments _ _ _ => []
  | .commentRequest token _ _ _ => token

namespace ArtworkInteractionService

variable {n m : ℕ} {service : ArtworkInteractionService}
  {callback : Option (InteractionCallback ArtworkInteractionResult)}

def serve (service : ArtworkInteractionService)
    (callback : Option (InteractionCallback ArtworkInteractionResult)) :
    InteractionRequest → InteractionTask
  | .detail token artworkId => service.detail token artworkId callback
  | .like token artworkId => service.like token artworkId callback
  | .unlike token artworkId => service.unlike token artworkId callback
  | .listComments artworkId beforeId limit =>
      service.listComments artworkId beforeId limit callback
  | .commentRequest token artworkId content contentValid =>
      service.commentRequest token artworkId content contentValid callback

/-- A DAO operation under a lease, whose callback answers. -/
theorem heard_leased (h : Heard callback n) {op : ℕ → ServerOp}
    {cont : ∀ userId, (op userId).Reply → InteractionTask}
    (hcont : ∀ userId reply, (cont userId reply).Calls n) :
    Heard (some fun userId rest =>
      leased callback rest (.start (op userId) (cont userId) rest)) n := by
  intro userId rest m hrest
  apply leased_calls h hrest
  exact .start (hcont userId) hrest

theorem authenticated_calls (h : Heard callback n) {success : Option (InteractionCallback ℕ)}
    (hsuccess : Heard success n)
    (hstore : ∀ sessions ∈ service.sessions, ∀ find ∈ sessions.store, AnswersOnce find)
    (token artworkId : Bytes) :
    (service.artworkExists artworkId callback fun found =>
      if !found then .done else service.authenticate token callback success .done).Calls n := by
  apply artworkExists_calls h
  · exact authenticate_calls h hsuccess Task.calls_done hstore token
  · exact Task.calls_done

theorem serve_calls (h : Heard callback n)
    (hstore : ∀ sessions ∈ service.sessions, ∀ find ∈ sessions.store, AnswersOnce find)
    (request : InteractionRequest) : (service.serve callback request).Calls n := by
  cases request with
  | detail token artworkId =>
    simp only [serve, detail]
    apply artworkExists_calls h
    · simp only [Bool.not_true, Bool.false_eq_true, if_false]
      split
      · exact loadSummary_calls h Task.calls_done artworkId 0
      · apply authenticate_calls h ?_ Task.calls_done hstore token
        exact heard_leased h (fun _ reply => answer_calls h _ _)
    · exact Task.calls_done
  | like token artworkId =>
    apply authenticated_calls h ?_ hstore
    exact heard_leased h (fun _ reply => answer_calls h _ _)
  | unlike token artworkId =>
    apply authenticated_calls h ?_ hstore
    exact heard_leased h (fun _ reply => answer_calls h _ _)
  | listComments artworkId beforeId limit =>
    simp only [serve, listComments]
    apply artworkExists_calls h
    · apply leased_calls h Task.calls_done
      exact .start (fun reply => answer_calls h _ _) Task.calls_done
    · exact Task.calls_done
  | commentRequest token artworkId content contentValid =>
    apply authenticated_calls h ?_ hstore
    intro userId rest m hrest
    split
    · exact h.invoke _ _ m hrest
    · apply leased_calls h hrest
      exact .start (fun reply => answer_calls h _ _) hrest

/-- The service as it is constructed: `sessions` may be null, and so may its `store_`, whose
`find` calls back once. -/
def deployed (catalog : Option ExhibitionCatalog) (sessions : Option Bool) :
    ArtworkInteractionService where
  catalog := catalog
  sessions := sessions.map fun store =>
    { store :=
        if store then
          some fun token callback rest =>
            .start (.find token) (fun session => callback session .done) rest
        else none }

theorem deployed_answersOnce (catalog : Option ExhibitionCatalog) (sessions : Option Bool) :
    ∀ s ∈ (deployed catalog sessions).sessions, ∀ find ∈ s.store, AnswersOnce find := by
  intro s hs find hfind
  obtain ⟨store, -, rfl⟩ := Option.mem_map.mp hs
  cases store with
  | false => simp at hfind
  | true =>
    obtain rfl := by simpa using hfind
    intro token callback rest n m hcallback hrest
    exact .start (fun session => hcallback.last session) hrest

/-- The user of a living session under this token, and an artwork of the catalogue. -/
def Admitted (service : ArtworkInteractionService) (token : Bytes)
    (known : List (Event ServerOp ServerOp.Reply ArtworkInteractionResult)) (artworkId : Bytes)
    (userId : ℕ) : Prop :=
  (service.findArtwork artworkId).isSome ∧
    ∃ session : Session, .completed (.find token) (some session) ∈ known ∧
      session.status = 1 ∧ session.userId = userId

/-- When a DAO operation may be started, a write under its conditions. -/
def Allowed (service : ArtworkInteractionService) (token : Bytes)
    (known : List (Event ServerOp ServerOp.Reply ArtworkInteractionResult)) :
    Event ServerOp ServerOp.Reply ArtworkInteractionResult → Prop
  | .started (.like artworkId userId) => service.Admitted token known artworkId userId
  | .started (.unlike artworkId userId) => service.Admitted token known artworkId userId
  | .started (.createComment artworkId userId content) =>
      service.Admitted token known artworkId userId ∧
        1 ≤ content.length ∧ content.length ≤ 1000 ∧ NonBlankUtf8 content
  | _ => True

theorem Admitted.mono {token : Bytes}
    {known known' : List (Event ServerOp ServerOp.Reply ArtworkInteractionResult)}
    {artworkId : Bytes} {userId : ℕ} (h : service.Admitted token known artworkId userId)
    (hsub : known ⊆ known') : service.Admitted token known' artworkId userId := by
  obtain ⟨hartwork, session, hmem, hstatus, huser⟩ := h
  exact ⟨hartwork, session, hsub hmem, hstatus, huser⟩

theorem allowed_lasting (service : ArtworkInteractionService) (token : Bytes) :
    Task.Lasting (service.Allowed token) := by
  intro known known' e hsub h
  cases e with
  | started op =>
    cases op with
    | like artworkId userId => exact Admitted.mono h hsub
    | unlike artworkId userId => exact Admitted.mono h hsub
    | createComment artworkId userId content => exact ⟨h.1.mono hsub, h.2⟩
    | _ => trivial
  | _ => trivial

section Gates

variable {token artworkId : Bytes} {given : Bool}
  {known : List (Event ServerOp ServerOp.Reply ArtworkInteractionResult)}

theorem gated_invoke (value : ArtworkInteractionResult) :
    (invoke (caller given) value .done).Gated (service.Allowed token) known := by
  cases given with
  | false => trivial
  | true => trivial

theorem gated_answer (ok : Bool) (value : ArtworkInteractionResult) :
    (answer (caller given) ok value).Gated (service.Allowed token) known := by
  cases given with
  | false => trivial
  | true =>
    intro alive
    beta_reduce
    split
    · trivial
    · trivial

theorem gated_leased {call : InteractionTask}
    (h : call.Gated (service.Allowed token) (.asked .lease true :: known)) :
    (leased (caller given) .done call).Gated (service.Allowed token) known := by
  intro dao
  cases dao with
  | false => exact gated_invoke _
  | true => exact h

theorem gated_artworkExists {cont : Bool → InteractionTask}
    (htrue : (service.findArtwork artworkId).isSome →
      (cont true).Gated (service.Allowed token) known)
    (hfalse : cont false = .done) :
    (service.artworkExists artworkId (caller given) cont).Gated (service.Allowed token) known := by
  unfold artworkExists
  split
  · rename_i hfound
    exact htrue hfound
  · rw [hfalse]
    exact gated_invoke _

/-- What `authenticate` goes on with has a living session behind it. -/
theorem gated_authenticate {catalog : Option ExhibitionCatalog} {sessions : Option Bool}
    {success : InteractionCallback ℕ}
    (h : ∀ (session : Session) known', .completed (.find token) (some session) ∈ known' →
      session.status = 1 →
      (success session.userId .done).Gated (service.Allowed token) known') :
    ((deployed catalog sessions).authenticate token (caller given) (some success) .done).Gated
      (service.Allowed token) known := by
  unfold authenticate
  split
  · exact gated_invoke _
  · rename_i htoken
    -- no service of sessions, one without a store, and one with a store
    cases sessions with
    | none => exact gated_invoke _
    | some store =>
      cases store with
      | false =>
        intro alive
        cases alive with
        | false => exact gated_invoke _
        | true => exact gated_invoke _
      | true =>
        have hne : token ≠ [] := by simpa using htoken
        simp only [deployed, Option.map_some, if_true, SessionLookup.get, if_pos hne]
        refine ⟨trivial, ?_, trivial⟩
        intro session alive
        cases alive with
        | false => exact gated_invoke _
        | true =>
          cases session with
          | none => exact gated_invoke _
          | some session =>
            simp only [Bool.not_true, Bool.false_eq_true, if_false]
            split
            · exact gated_invoke _
            · rename_i hstatus
              exact h session _ (by simp) (by simpa using hstatus)

variable (catalog : Option ExhibitionCatalog) (sessions : Option Bool)

theorem gated_authenticated {success : InteractionCallback ℕ}
    (h : ((deployed catalog sessions).findArtwork artworkId).isSome → ∀ (session : Session) known',
      .completed (.find token) (some session) ∈ known' → session.status = 1 →
      (success session.userId .done).Gated ((deployed catalog sessions).Allowed token) known') :
    ((deployed catalog sessions).artworkExists artworkId (caller given) fun found =>
      if !found then .done
      else (deployed catalog sessions).authenticate token (caller given) (some success) .done).Gated
        ((deployed catalog sessions).Allowed token) known := by
  apply gated_artworkExists ?_ rfl
  intro hartwork
  exact gated_authenticate (h hartwork)

theorem gated_loadSummary (userId : ℕ) :
    (loadSummary artworkId userId (caller given) .done).Gated (service.Allowed token) known := by
  apply gated_leased
  refine ⟨trivial, ?_, trivial⟩
  intro reply
  cases given with
  | false => trivial
  | true =>
    intro alive
    beta_reduce
    split
    · trivial
    · split
      · trivial
      · trivial

theorem gated_detail :
    ((deployed catalog sessions).detail token artworkId (caller given)).Gated
      ((deployed catalog sessions).Allowed token) known := by
  apply gated_artworkExists ?_ rfl
  intro _
  simp only [Bool.not_true, Bool.false_eq_true, if_false]
  split
  · exact gated_loadSummary 0
  · apply gated_authenticate
    intro session known' _ _
    apply gated_leased
    exact ⟨trivial, fun reply => gated_answer _ _, trivial⟩

/-- A DAO operation of an authenticated user, made under a lease. -/
theorem gated_write {op : ℕ → ServerOp} {cont : ∀ userId, (op userId).Reply → InteractionTask}
    (hop : ∀ known' userId, (deployed catalog sessions).Admitted token known' artworkId userId →
      (deployed catalog sessions).Allowed token known' (.started (op userId)))
    (hcont : ∀ userId reply known',
      (cont userId reply).Gated ((deployed catalog sessions).Allowed token) known') :
    ((deployed catalog sessions).artworkExists artworkId (caller given) fun found =>
      if !found then .done
      else (deployed catalog sessions).authenticate token (caller given)
        (some fun userId rest =>
          leased (caller given) rest (.start (op userId) (cont userId) rest)) .done).Gated
      ((deployed catalog sessions).Allowed token) known := by
  apply gated_authenticated
  intro hartwork session known' hmem hstatus
  apply gated_leased
  have hadmitted : (deployed catalog sessions).Admitted token (.asked .lease true :: known')
      artworkId session.userId :=
    ⟨hartwork, session, List.mem_cons_of_mem _ hmem, hstatus, rfl⟩
  refine ⟨hop _ _ hadmitted, ?_, trivial⟩
  intro reply
  exact hcont session.userId reply _

theorem gated_like :
    ((deployed catalog sessions).like token artworkId (caller given)).Gated
      ((deployed catalog sessions).Allowed token) known := by
  apply gated_write
  · intro known' userId hadmitted
    exact hadmitted
  · intro userId reply known'
    exact gated_answer _ _

theorem gated_unlike :
    ((deployed catalog sessions).unlike token artworkId (caller given)).Gated
      ((deployed catalog sessions).Allowed token) known := by
  apply gated_write
  · intro known' userId hadmitted
    exact hadmitted
  · intro userId reply known'
    exact gated_answer _ _

theorem gated_listComments (beforeId limit : ℕ) :
    ((deployed catalog sessions).listComments artworkId beforeId limit (caller given)).Gated
      ((deployed catalog sessions).Allowed token) known := by
  apply gated_artworkExists ?_ rfl
  intro _
  apply gated_leased
  exact ⟨trivial, fun reply => gated_answer _ _, trivial⟩

theorem gated_commentRequest (content : Bytes) (contentValid : Bool) :
    ((deployed catalog sessions).commentRequest token artworkId content contentValid
      (caller given)).Gated ((deployed catalog sessions).Allowed token) known := by
  apply gated_authenticated
  intro hartwork session known' hmem hstatus
  split
  · exact gated_invoke _
  · rename_i hcontent
    simp only [Bool.or_eq_true, not_or] at hcontent
    -- the checks of the content, all passed
    obtain ⟨⟨⟨-, hne⟩, hlen⟩, hutf⟩ := hcontent
    apply gated_leased
    refine ⟨⟨?_, ?_, ?_, ?_⟩, fun reply => gated_answer _ _, trivial⟩
    · exact ⟨hartwork, session, List.mem_cons_of_mem _ hmem, hstatus, rfl⟩
    · exact List.length_pos_iff.mpr (by simpa using hne)
    · simpa using hlen
    · exact nonBlankUtf8_of_valid (by simpa using hutf)

theorem gated_serve (given : Bool) (request : InteractionRequest) :
    ((deployed catalog sessions).serve (caller given) request).Gated
      ((deployed catalog sessions).Allowed request.token) known := by
  cases request with
  | detail token artworkId => exact gated_detail catalog sessions
  | like token artworkId => exact gated_like catalog sessions
  | unlike token artworkId => exact gated_unlike catalog sessions
  | listComments artworkId beforeId limit => exact gated_listComments catalog sessions _ _
  | commentRequest token artworkId content contentValid =>
    exact gated_commentRequest catalog sessions _ _

end Gates

/-- The whole stack, down to the workers, the cache and the tables: the `find` of the cached
store is one that calls back once. -/
theorem serve_cached_calls (cfg : StoreConfig) (catalog : Option ExhibitionCatalog)
    (given : Bool) (request : InteractionRequest) :
    (serve ⟨catalog, some ⟨some (CachedSessionStore.findAsync cfg)⟩⟩ (caller given)
      request).Calls given.toNat := by
  apply serve_calls (heard_caller given)
  intro sessions hsessions find hfind
  obtain rfl := Option.some.inj hsessions
  obtain rfl := Option.some.inj hfind
  intro token callback rest n m hcallback hrest
  exact CachedSessionStore.findAsync_calls hcallback hrest cfg token

theorem answered_once_and_gated :
    (∀ cfg token events, Task.Trace (CachedSessionStore.findAsync cfg token .call .done) events →
      callCount events = 1) ∧
    (∀ cfg token events, Task.Trace (CachedSessionStore.revokeAsync cfg token .call .done) events →
      callCount events = 1) ∧
    ∀ catalog sessions given request events,
      ((deployed catalog sessions).serve (caller given) request).Trace events →
      callCount events = given.toNat ∧
        ∀ pre op post, events = pre++.started op :: post →
          (deployed catalog sessions).Allowed request.token pre (.started op) := by
  refine ⟨?_, ?_, ?_⟩
  · intro cfg token events h
    exact CachedSessionStore.findAsync_calls (n := 1) (fun value rest m hrest => hrest.call value)
      Task.calls_done cfg token events h
  · intro cfg token events h
    exact CachedSessionStore.revokeAsync_calls (n := 1) (fun value rest m hrest => hrest.call value)
      Task.calls_done cfg token events h
  · intro catalog sessions given request events h
    refine ⟨?_, ?_⟩
    · have hstore := deployed_answersOnce catalog sessions
      exact serve_calls (heard_caller given) hstore request events h
    · intro pre op post heq
      exact h.allowed (allowed_lasting _ _) (gated_serve catalog sessions given request) rfl heq
        (List.Subset.refl pre) (List.nil_subset pre)

/-- The events of a comment that nothing stands in the way of. -/
def commentEvents (token artworkId content : Bytes) (session : Session) (id : ℕ) :
    List (Event ServerOp ServerOp.Reply ArtworkInteractionResult) :=
  [.started (.find token), .completed (.find token) (some session),
    .asked .active true, .asked .lease true,
    .started (.createComment artworkId session.userId content),
    .completed (.createComment artworkId session.userId content) (⟨true, id⟩ : CommentReply),
    .asked .active true, .called { commentId := id }]

theorem commentRequest_trace {catalog : Option ExhibitionCatalog}
    {token artworkId content : Bytes} {session : Session} {id : ℕ} (htoken : token ≠ [])
    (hartwork : ((deployed catalog (some true)).findArtwork artworkId).isSome)
    (hstatus : session.status = 1) (hne : content ≠ []) (hlen : content.length ≤ 1000)
    (hvalid : validNonBlankUtf8 content = some true) (hid : id ≠ 0) :
    ((deployed catalog (some true)).commentRequest token artworkId content true (caller true)).Trace
      (commentEvents token artworkId content session id) := by
  have hcontent : ¬(!true || content == [] || decide (content.length > 1000) ||
      validNonBlankUtf8 content != some true) = true := by
    simp [hne, hlen, hvalid]
  unfold commentEvents commentRequest artworkExists
  rw [if_pos hartwork]
  simp only [Bool.not_true, Bool.false_eq_true, if_false, authenticate]
  rw [if_neg (by simpa using htoken)]
  simp only [deployed, Option.map_some, if_true, SessionLookup.get, if_pos htoken]
  -- the session is there and the service still active
  refine .start_last _ (.ask _ ?_)
  simp only [Bool.not_true, Bool.false_eq_true, if_false, hstatus, ne_eq, not_true, invoke]
  rw [if_neg (by simpa using hcontent)]
  -- the comment is written under a lease
  refine .ask _ (.start_last _ (.ask _ ?_))
  simp only [hid, not_false_iff, decide_true, Bool.and_true, Bool.not_true, Bool.or_false,
    Bool.false_eq_true, if_false]
  exact .call .done

/-- A catalogue with one artwork. -/
def oneArtwork : ExhibitionCatalog := { artworks := [{ id := ascii "a1" }] }

theorem goodComment_once_and_gated :
    ∃ events, ((deployed (some oneArtwork) (some true)).serve (caller true)
        (.commentRequest (ascii "tok") (ascii "a1") (ascii "ok") true)).Trace events ∧
      callCount events = 1 ∧
      ∃ pre post, events = pre++.started (.createComment (ascii "a1") 7 (ascii "ok")) :: post ∧
        (deployed (some oneArtwork) (some true)).Allowed (ascii "tok") pre
          (.started (.createComment (ascii "a1") 7 (ascii "ok"))) := by
  have htrace : ((deployed (some oneArtwork) (some true)).serve (caller true)
      (.commentRequest (ascii "tok") (ascii "a1") (ascii "ok") true)).Trace
      (commentEvents (ascii "tok") (ascii "a1") (ascii "ok") { userId := 7 } 5) :=
    commentRequest_trace (by decide) (by decide) rfl (by decide) (by decide)
      (by decide) (by decide)
  obtain ⟨-, -, hall⟩ := answered_once_and_gated
  obtain ⟨hcount, hgate⟩ := hall _ _ _ _ _ htrace
  exact ⟨_, htrace, hcount, _, _, rfl, hgate [_, _, _, _] _ _ rfl⟩

end ArtworkInteractionService
end JingjieAR
