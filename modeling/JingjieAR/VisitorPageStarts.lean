import JingjieAR.VisitorHandlers

/-! What a page start leaves behind. The claims and the keys of the identity service, the presence
set and the committed view are tied together by the order of the calls; so however often a page
start is tried, it makes one visitor and one view. -/
namespace JingjieAR.VisitorServer

open Runs (Run Guarded Through)

variable {h : VisitorHandlers} {s s' s₁ : VisitorServer} {n : ℕ}
  {bootstrapId token requestId : Bytes} {stage : VisitorStage} {reply : VisitorReply}
  {e : VisitorServerEvent}

section Turns

/-- The presence set has the token, with the time of a heartbeat. -/
def Online (h : VisitorHandlers) (s : VisitorServer) (token : Bytes) : Prop :=
  ∃ nowMs, s.presence.find (cString token) = some (h.score nowMs)

/-- What a request asks of the stores of visitors in a step. -/
inductive Works (h : VisitorHandlers) (s : VisitorServer) : VisitorServer → Prop
  | presence {s₁ : VisitorServer} (ha : Aside s s₁) (hsame : s₁.identity = s.identity)
      (hmarks : ∀ token ∈ s₁.marked, token ∈ s.marked ∨ s₁.Online h token) : Works h s s₁
  | saves (token : Bytes) (result : CommandResult) :
    Works h s { s with identity := (s.identity.save token result).2 }
  | resolves {event : VisitorEvent} {identity : VisitorSystem}
      (hexpire : ∀ id, event ≠ .expireClaim id) (hs : s.identity.next event = some identity) :
    Works h s { s with identity := identity }

/-- Behind that, the request goes on or is answered. -/
inductive Settles (n : ℕ) (s : VisitorServer) : VisitorServer → Prop
  | goesOn (requestId : Bytes) (stage : VisitorStage) : Settles n s (s.setStage n requestId stage)
  | answered (reply : VisitorReply) : Settles n s (s.answer n reply)

theorem Works.refl (s : VisitorServer) : Works h s s :=
  .presence (.refl s) rfl (fun _ hmem => .inl hmem)

theorem Works.requests (hw : Works h s s₁) : s₁.requests = s.requests := by
  cases hw with
  | presence ha hsame hmarks => exact ha.requests
  | saves | resolves => rfl

theorem Works.answers (hw : Works h s s₁) : s₁.answers = s.answers := by
  cases hw with
  | presence ha hsame hmarks => exact ha.answers
  | saves | resolves => rfl

theorem Works.views (hw : Works h s s₁) : s₁.views = s.views := by
  cases hw with
  | presence ha hsame hmarks => exact ha.views
  | saves | resolves => rfl

/-- The stores of visitors are left alone. -/
structure SameStores (s s' : VisitorServer) : Prop where
  identity : s'.identity = s.identity
  presence : s'.presence = s.presence
  marked : s'.marked = s.marked

theorem Settles.stores (hsettles : Settles n s s') : SameStores s s' := by
  cases hsettles with
  | goesOn | answered => exact ⟨rfl, rfl, rfl⟩

theorem Settles.views (hsettles : Settles n s s') : s'.views = s.views := by
  cases hsettles with
  | goesOn | answered => rfl

theorem settles_settleIdentity (s : VisitorServer) :
    Settles n s (s.settleIdentity n requestId bootstrapId) := by
  rw [settleIdentity]
  split
  · exact .goesOn _ _
  · simp only
    split
    · exact .answered _
    · exact .answered _
    · exact .goesOn _ _

theorem settles_settleViews (s : VisitorServer) :
    Settles n s (s.settleViews n requestId bootstrapId token) := by
  rw [settleViews]
  split
  · exact .goesOn _ _
  · exact .answered _

theorem settles_takeToken (s : VisitorServer) (request : HttpRequest) (submitted : Bool)
    (stage : Bytes → VisitorStage) : Settles n s (s.takeToken h n request submitted stage) := by
  simp only [takeToken]
  split_ifs
  · exact .answered _
  · exact .answered _
  · exact .answered _
  · exact .goesOn _ _
  · exact .answered _

theorem identity_presenceCommand {α : Type} (s : VisitorServer) (fallback : α)
    (done : α × PresenceSet) (result : CommandResult) :
    (s.presenceCommand fallback done result).2.identity = s.identity := by
  cases result with
  | replied | lost | unreached => rfl

theorem marked_presenceCommand {α : Type} (s : VisitorServer) (fallback : α)
    (done : α × PresenceSet) (result : CommandResult) :
    (s.presenceCommand fallback done result).2.marked = s.marked := by
  cases result with
  | replied | lost | unreached => rfl

theorem works_presenceCommand {α : Type} (s : VisitorServer) (fallback : α)
    (done : α × PresenceSet) (result : CommandResult) :
    Works h s (s.presenceCommand fallback done result).2 :=
  .presence (aside_presenceCommand s fallback done result)
    (identity_presenceCommand s fallback done result)
    (fun token hmem => .inl (marked_presenceCommand s fallback done result ▸ hmem))

/-- A heartbeat that answers has left the token in the set. -/
theorem online_heartbeat (s : VisitorServer) {token : Bytes} {nowMs : ℤ} {result : CommandResult}
    (hdone : (s.presenceCommand false
      (PresenceService.heartbeat h.score s.presence token nowMs) result).1 = true) :
    (s.presenceCommand false
      (PresenceService.heartbeat h.score s.presence token nowMs) result).2.Online h token := by
  cases result with
  | lost | unreached => exact absurd hdone Bool.false_ne_true
  | replied =>
    refine ⟨nowMs, ?_⟩
    simp only [presenceCommand, PresenceService.heartbeat, RedisPresenceStore.touch] at hdone ⊢
    split_ifs at hdone ⊢
    exact SortedSets.find_zadd.trans (if_pos rfl)

theorem works_touch (h : VisitorHandlers) (s : VisitorServer) (token : Bytes) (nowMs : ℤ)
    (result : CommandResult) : Works h s (s.touch h token nowMs result).2 := by
  have hsame := identity_presenceCommand s false
    (PresenceService.heartbeat h.score s.presence token nowMs) result
  have hmarked := marked_presenceCommand s false
    (PresenceService.heartbeat h.score s.presence token nowMs) result
  refine .presence (aside_touch h s token nowMs result).1 ?_ ?_
  · simp only [touch]
    split
    · exact hsame
    · exact hsame
  · intro token' hmem
    simp only [touch] at hmem ⊢
    split at hmem
    · next hdone =>
      rw [if_pos hdone]
      rw [hmarked, List.mem_append, List.mem_singleton] at hmem
      rcases hmem with hmem | rfl
      · exact .inl hmem
      · exact .inr (online_heartbeat s hdone)
    · exact .inl (hmarked ▸ hmem)

theorem works_refresh (s : VisitorServer) (token : Bytes) (result : CommandResult) :
    Works h s (s.refresh token result).2 := by
  rw [refresh]
  split
  · exact .saves token result
  · exact .refl s

theorem receive_settles {endpoint : VisitorEndpoint} {request : HttpRequest} {submitted : Bool}
    {generated : Bytes} (hs : s.receive h n endpoint request submitted generated = some s') :
    ∃ s₁, Works h s s₁ ∧ Settles n s₁ s' := by
  cases endpoint with
  | bootstrap =>
    simp only [receive, bootstrap] at hs
    split at hs
    · obtain rfl := Option.some.inj hs
      exact ⟨s, .refl s, .answered _⟩
    · split at hs
      · obtain rfl := Option.some.inj hs
        exact ⟨s, .refl s, .answered _⟩
      · split_ifs at hs
        · obtain rfl := Option.some.inj hs
          exact ⟨s, .refl s, .answered _⟩
        · obtain rfl := Option.some.inj hs
          exact ⟨s, .refl s, .answered _⟩
        · obtain ⟨identity, hidentity, rfl⟩ := Option.map_eq_some_iff.mp hs
          exact ⟨_, .resolves (fun _ => VisitorEvent.noConfusion) hidentity,
            settles_settleIdentity _⟩
  | heartbeat | exit =>
    obtain rfl := Option.some.inj hs
    exact ⟨s, .refl s, settles_takeToken s _ _ _⟩
  | presence =>
    simp only [receive] at hs
    split_ifs at hs
    all_goals obtain rfl := Option.some.inj hs
    · exact ⟨s, .refl s, .answered _⟩
    · exact ⟨s, .refl s, .goesOn _ _⟩
    · exact ⟨s, .refl s, .answered _⟩
  | views =>
    simp only [receive] at hs
    split_ifs at hs
    all_goals obtain rfl := Option.some.inj hs
    · exact ⟨s, .refl s, .answered _⟩
    · exact ⟨s, .refl s, .goesOn _ _⟩

theorem command_settles {r : VisitorRequest} {nowMs : ℤ} {result : CommandResult}
    (hs : s.command h n r nowMs result = some s') : ∃ s₁, Works h s s₁ ∧ Settles n s₁ s' := by
  obtain ⟨requestId, stage⟩ := r
  cases stage with
  | resolving bootstrapId =>
    obtain ⟨identity, hidentity, rfl⟩ := Option.map_eq_some_iff.mp hs
    exact ⟨_, .resolves (fun _ => VisitorEvent.noConfusion) hidentity, settles_settleIdentity _⟩
  | marking bootstrapId token =>
    simp only [command] at hs
    split_ifs at hs
    all_goals obtain rfl := Option.some.inj hs
    · exact ⟨_, works_touch h s token nowMs result, .goesOn _ _⟩
    · exact ⟨_, works_touch h s token nowMs result, .answered _⟩
  | refreshing token =>
    simp only [command] at hs
    split_ifs at hs
    all_goals obtain rfl := Option.some.inj hs
    · exact ⟨_, works_refresh s token result, .goesOn _ _⟩
    · exact ⟨_, works_refresh s token result, .answered _⟩
  | beating token =>
    simp only [command] at hs
    split_ifs at hs
    all_goals
      obtain rfl := Option.some.inj hs
      exact ⟨_, works_touch h s token nowMs result, .answered _⟩
  | validating token =>
    simp only [command] at hs
    split_ifs at hs
    all_goals obtain rfl := Option.some.inj hs
    · exact ⟨s, .refl s, .goesOn _ _⟩
    · exact ⟨s, .refl s, .answered _⟩
  | leaving token | tallying =>
    simp only [command] at hs
    split_ifs at hs
    all_goals
      obtain rfl := Option.some.inj hs
      exact ⟨_, works_presenceCommand s _ _ result, .answered _⟩
  | counting bootstrapId token => exact absurd hs (Option.some_ne_none _).symm
  | incrementing bootstrapId token => exact absurd hs (Option.some_ne_none _).symm
  | reading => exact absurd hs (Option.some_ne_none _).symm

/-- A step asks something of the stores, or a claim expires. -/
theorem stores_next (hs : s.next h e = some s') :
    (∃ s₁, Works h s s₁ ∧ SameStores s₁ s') ∨
      ∃ id identity, e = .expireClaim id ∧ s.identity.next (.expireClaim id) = some identity ∧
        s' = { s with identity := identity } := by
  cases e with
  | request n endpoint request submitted generated =>
    simp only [next] at hs
    obtain ⟨s₁, hw, hsettles⟩ := receive_settles (Option.ite_none_left_eq_some.mp hs).2
    exact .inl ⟨s₁, hw, hsettles.stores⟩
  | redis n nowMs result =>
    obtain ⟨r, -, hs⟩ := Option.bind_eq_some_iff.mp hs
    obtain ⟨s₁, hw, hsettles⟩ := command_settles hs
    exact .inl ⟨s₁, hw, hsettles.stores⟩
  | increment n submitted | mysql n result =>
    simp only [next] at hs
    split at hs
    · rename_i requestId bootstrapId token hr
      obtain ⟨views, -, rfl⟩ := Option.map_eq_some_iff.mp hs
      have hstores : SameStores { s with views := views }
          ({ s with views := views }.settleViews n requestId bootstrapId token) :=
        (settles_settleViews _).stores
      exact .inl ⟨s, .refl s, ⟨hstores.identity, hstores.presence, hstores.marked⟩⟩
    · exact absurd hs (Option.some_ne_none _).symm
  | readViews n ok =>
    simp only [next] at hs
    split at hs
    · split at hs
      all_goals
        obtain rfl := Option.some.inj hs
        exact .inl ⟨s, .refl s, ⟨rfl, rfl, rfl⟩⟩
    · exact absurd hs (Option.some_ne_none _).symm
  | expireVisitor token =>
    obtain rfl := Option.some.inj hs
    have hw := @Works.resolves h s (.expireVisitor token) _
      (fun _ => VisitorEvent.noConfusion) rfl
    exact .inl ⟨_, hw, ⟨rfl, rfl, rfl⟩⟩
  | expireClaim id =>
    obtain rfl := Option.some.inj hs
    exact .inr ⟨id, _, rfl, rfl, rfl⟩

end Turns

section Agreement

open VisitorSystem (Agreed)

variable {id : Bytes}

theorem Works.agreed (hw : Works h s s₁) (ha : Agreed id s.identity) : Agreed id s₁.identity := by
  cases hw with
  | presence _ hsame _ => exact hsame ▸ ha
  | saves token result => exact ha.save
  | resolves hexpire hs => exact ha.step (hexpire _) hs

/-- The claim of a page start stands while it does not expire. -/
theorem agreed_step (ha : Agreed id s.identity) (hexpire : e ≠ .expireClaim id)
    (hs : s.next h e = some s') : Agreed id s'.identity := by
  rcases stores_next hs with ⟨s₁, hw, hstores⟩ | ⟨id', identity, rfl, hidentity, rfl⟩
  · rw [hstores.identity]
    exact hw.agreed ha
  · refine ha.step ?_ hidentity
    intro heq
    exact hexpire (congrArg _ (VisitorEvent.expireClaim.inj heq))

end Agreement

section Records

/-- When the identity service answers with a token, the key of that is there. -/
theorem identity_reports_next (hs : s.next h e = some s') :
    ∀ r ∈ s'.identity.reports, r ∈ s.identity.reports ∨
      (r.result.status = .kOk → s'.identity.keys.visitors r.result.token = true) := by
  intro r hr
  have hreports {identity : VisitorSystem} (hidentity : VisitorSystem.Reports s.identity identity)
      (hmem : r ∈ identity.reports) : r ∈ s.identity.reports ∨
        (r.result.status = .kOk → identity.keys.visitors r.result.token = true) :=
    (hidentity r hmem).imp_right And.right
  rcases stores_next hs with ⟨s₁, hw, hstores⟩ | ⟨id, identity, rfl, hidentity, rfl⟩
  · rw [hstores.identity] at hr ⊢
    cases hw with
    | presence _ hsame _ => exact .inl (hsame ▸ hr)
    | saves token result =>
      exact hreports (VisitorSystem.reports_same VisitorSystem.save_reports) hr
    | resolves hexpire hs => exact hreports (VisitorSystem.reports_step hs) hr
  · exact hreports (VisitorSystem.reports_step hidentity) hr

/-- A token is marked when it is in the presence set. -/
theorem marked_next (hs : s.next h e = some s') :
    ∀ token ∈ s'.marked, token ∈ s.marked ∨ s'.Online h token := by
  intro token hmem
  rcases stores_next hs with ⟨s₁, hw, hstores⟩ | ⟨id, identity, rfl, -, rfl⟩
  · rw [Online, hstores.presence]
    rw [hstores.marked] at hmem
    cases hw with
    | presence _ _ hmarks => exact hmarks token hmem
    | saves | resolves => exact .inl hmem
  · exact .inl hmem

theorem cString_of_validTokenSyntax (hshape : VisitorSessionService.validTokenSyntax token = true) :
    cString token = token := by
  simp only [VisitorSessionService.validTokenSyntax, Bool.and_eq_true, List.all_eq_true] at hshape
  refine cString_eq ?_
  intro hzero
  exact absurd (hshape.2 0 hzero) (by decide)

end Records

/-- However often a page start is tried, and however its tries, other requests and failing
commands are interleaved, it makes one visitor and one view, while its claim does not expire:
the answers name one token, whose key has been in the store and which has been in the presence
set by then; the view is counted at most once, once if an answer says so, and not before the
claimed token has been in the presence set. -/
theorem page_start_once {available : Bool} {keys : VisitorKeys} {presence : PresenceSet}
    {id : Bytes} {es : List VisitorServerEvent}
    (hr : Run (Guarded (fun _ e => e ≠ .expireClaim id) (Step h))
      (started available keys presence) es s) :
    (∀ n token ok count n' token' ok' count',
      (n, .bootstrapped id token ok count) ∈ s.answers →
      (n', .bootstrapped id token' ok' count') ∈ s.answers → token = token') ∧
    (∀ n token ok count, (n, .bootstrapped id token ok count) ∈ s.answers →
      Through (Guarded (fun _ e => e ≠ .expireClaim id) (Step h)) (started available keys presence)
        es s (fun s₁ => s₁.identity.keys.visitors token = true) ∧
      Through (Guarded (fun _ e => e ≠ .expireClaim id) (Step h)) (started available keys presence)
        es s (fun s₁ => ∃ nowMs, s₁.presence.find token = some (h.score nowMs)) ∧
      (ok = true → s.views.events.count (h.exhibitionId, id) = 1 ∧
        1 ≤ count ∧ count ≤ s.views.total h.exhibitionId)) ∧
    s.views.events.count (h.exhibitionId, id) ≤ 1 ∧
    ((h.exhibitionId, id) ∈ s.views.events →
      ∃ token, s.identity.keys.claims id = some token ∧
        Through (Guarded (fun _ e => e ≠ .expireClaim id) (Step h))
          (started available keys presence) es s
          (fun s₁ => ∃ nowMs, s₁.presence.find token = some (h.score nowMs))) := by
  have hinv : Inv h.exhibitionId s :=
    hr.invariant (fun _ _ _ hi hs => hi.step hs.2) (inv_started _ _ _ _)
  have hagreed : VisitorSystem.Agreed id s.identity :=
    @Run.invariant _ _ _ (fun s => VisitorSystem.Agreed id s.identity) _ _ _
      (fun _ _ _ ha hs => agreed_step ha hs.1 hs.2.2) hr
      (VisitorSystem.agreed_start available keys)
  -- A resolved token is the claimed one, so two of them are equal.
  have hclaim {token : Bytes} (hresolved : s.Resolved id token) : s.identity.Claimed id token :=
    hagreed.reports _ hresolved rfl rfl
  have hsaved := hr.noted (fun _ _ _ hs => identity_reports_next hs.2.2) rfl
  have hmarks := hr.noted (fun _ _ _ hs => marked_next hs.2.2) rfl
  have honline {token : Bytes} (hvisited : s.Visited id token) := by
    have hmark := hmarks token hvisited.2
    simp only [Online, cString_of_validTokenSyntax (hclaim hvisited.1).2] at hmark
    exact hmark
  refine ⟨?_, ?_, List.nodup_iff_count_le_one.mp hinv.views.nodup _, ?_⟩
  · intro n token ok count n' token' ok' count' hmem hmem'
    have htoken := (hclaim (hinv.reply _ hmem).1.1).1
    have htoken' := (hclaim (hinv.reply _ hmem').1.1).1
    exact Option.some.inj (htoken.symm.trans htoken')
  · intro n token ok count hmem
    obtain ⟨hvisited, hreport⟩ := hinv.reply _ hmem
    refine ⟨?_, honline hvisited, fun hok => ?_⟩
    · obtain ⟨pre, post, s₁, hsplit, hpre, hpost, hkey⟩ := hsaved _ hvisited.1
      exact ⟨pre, post, s₁, hsplit, hpre, hpost, hkey rfl⟩
    · obtain ⟨hevent, hone, hle⟩ := hinv.views.reports _ hreport hok
      exact ⟨List.count_eq_one_of_mem hinv.views.nodup hevent, hone, hle⟩
  · intro hevent
    obtain ⟨-, token, hvisited⟩ := hinv.event _ hevent
    exact ⟨token, (hclaim hvisited.1).1, honline hvisited⟩

section Answering

/-- The request has come: its task is running, or it is answered. -/
def Known (s : VisitorServer) (n : ℕ) : Prop :=
  s.requests n ≠ none ∨ n ∈ s.answers.map Prod.fst

/-- Of the requests, a step is about one. -/
structure About (n : ℕ) (s s' : VisitorServer) : Prop where
  self : s'.Known n
  others : ∀ m, m ≠ n → (s'.Known m ↔ s.Known m)

theorem Settles.about (hsettles : Settles n s₁ s') (hrequests : s₁.requests = s.requests)
    (hanswers : s₁.answers = s.answers) : About n s s' := by
  cases hsettles with
  | goesOn requestId stage =>
    refine ⟨.inl (by simp [setStage]), fun m hm => ?_⟩
    show Function.update s₁.requests n _ m ≠ none ∨ m ∈ s₁.answers.map Prod.fst ↔ _
    rw [Function.update_of_ne hm, hrequests, hanswers]
    rfl
  | answered reply =>
    refine ⟨.inr (by simp [answer]), fun m hm => ?_⟩
    show Function.update s₁.requests n none m ≠ none ∨
      m ∈ (s₁.answers++[(n, reply)]).map Prod.fst ↔ _
    rw [Function.update_of_ne hm, hrequests, hanswers, List.map_append, List.mem_append]
    simp [Known, hm]

/-- The request that comes with an event. -/
def requested : VisitorServerEvent → Option ℕ
  | .request n _ _ _ _ => some n
  | _ => none

theorem About.known (ha : About n s s') (hn : s.Known n) (m : ℕ) : s'.Known m ↔ s.Known m := by
  by_cases hm : m = n
  · subst hm
    exact ⟨fun _ => hn, fun _ => ha.self⟩
  · exact ha.others m hm

theorem known_next (hs : s.next h e = some s') (m : ℕ) :
    s'.Known m ↔ s.Known m ∨ requested e = some m := by
  have hknown {n : ℕ} {r : VisitorRequest} (hr : s.requests n = some r) : s.Known n :=
    .inl (by simp [hr])
  -- Only the event of a request can make one known.
  have hold (h' : s'.Known m ↔ s.Known m) (hnone : requested e = none) :
      s'.Known m ↔ s.Known m ∨ requested e = some m := by
    rw [h', hnone]
    simp
  cases e with
  | request n endpoint request submitted generated =>
    simp only [next] at hs
    obtain ⟨s₁, hw, hsettles⟩ := receive_settles (Option.ite_none_left_eq_some.mp hs).2
    have ha := hsettles.about hw.requests hw.answers
    by_cases hm : m = n
    · subst hm
      exact ⟨fun _ => .inr rfl, fun _ => ha.self⟩
    · rw [ha.others m hm, requested, Option.some.injEq, eq_comm (a := n)]
      simp [hm]
  | redis n nowMs result =>
    obtain ⟨r, hr, hs⟩ := Option.bind_eq_some_iff.mp hs
    obtain ⟨s₁, hw, hsettles⟩ := command_settles hs
    exact hold ((hsettles.about hw.requests hw.answers).known (hknown hr) m) rfl
  | increment n submitted | mysql n result =>
    simp only [next] at hs
    split at hs
    · rename_i requestId bootstrapId token hr
      obtain ⟨views, -, rfl⟩ := Option.map_eq_some_iff.mp hs
      have ha : About n s
          ({ s with views := views }.settleViews n requestId bootstrapId token) :=
        (settles_settleViews _).about rfl rfl
      exact hold (ha.known (hknown hr) m) rfl
    · exact absurd hs (Option.some_ne_none _).symm
  | readViews n ok =>
    simp only [next] at hs
    split at hs
    · rename_i hr
      split at hs
      all_goals
        obtain rfl := Option.some.inj hs
        exact hold (((Settles.answered _).about rfl rfl).known (hknown hr) m) rfl
    · exact absurd hs (Option.some_ne_none _).symm
  | expireVisitor token | expireClaim bootstrapId =>
    obtain rfl := Option.some.inj hs
    exact hold Iff.rfl rfl

/-- A request that has come is answered exactly if its task is over; none is answered twice,
and none without having come. -/
theorem answered_once {available : Bool} {keys : VisitorKeys} {presence : PresenceSet}
    {es : List VisitorServerEvent} (hr : Run (Step h) (started available keys presence) es s) :
    (s.answers.map Prod.fst).Nodup ∧
    ∀ n, n ∈ s.answers.map Prod.fst ↔
      (∃ e ∈ es, requested e = some n) ∧ s.requests n = none := by
  have hinv : Inv h.exhibitionId s :=
    hr.invariant (fun _ _ _ hi hs => hi.step hs) (inv_started _ _ _ _)
  -- By induction on the run, whose last event is split off.
  have hknown : ∀ n, s.Known n ↔ ∃ e ∈ es, requested e = some n := by
    refine @Run.history _ _ _ (fun es s => ∀ n, s.Known n ↔ ∃ e ∈ es, requested e = some n)
      _ _ _ ?_ hr ?_
    · intro es s e s' _ ih hs n
      rw [known_next hs.2, ih n]
      simp [or_and_right, exists_or]
    · intro n
      simp [Known, started]
  refine ⟨hinv.once, fun n => ?_⟩
  rw [← hknown n]
  constructor
  · intro hmem
    exact ⟨.inr hmem, hinv.settled n hmem⟩
  · rintro ⟨hrequest | hmem, hnone⟩
    · exact absurd hnone hrequest
    · exact hmem

end Answering

section Views

/-- The request whose view is counted by a task that an event starts or takes on. -/
def viewTask : VisitorServerEvent → Option ℕ
  | .increment n submitted => if submitted then some n else none
  | .mysql n _ => some n
  | _ => none

/-- The tasks of the database change by steps of their own. -/
theorem viewTasks_next (hs : s.next h e = some s') :
    s'.views.tasks = s.views.tasks ∨ ∃ n event, viewTask e = some n ∧
      ViewSystem.taskOf event = n ∧ s.views.next event = some s'.views := by
  cases e with
  | request n endpoint request submitted generated =>
    simp only [next] at hs
    obtain ⟨s₁, hw, hsettles⟩ := receive_settles (Option.ite_none_left_eq_some.mp hs).2
    exact .inl (congrArg _ (hsettles.views.trans hw.views))
  | redis n nowMs result =>
    obtain ⟨r, -, hs⟩ := Option.bind_eq_some_iff.mp hs
    obtain ⟨s₁, hw, hsettles⟩ := command_settles hs
    exact .inl (congrArg _ (hsettles.views.trans hw.views))
  | increment n submitted =>
    simp only [next] at hs
    split at hs
    · obtain ⟨views, hviews, rfl⟩ := Option.map_eq_some_iff.mp hs
      rw [(settles_settleViews _).views]
      cases submitted with
      | true => exact .inr ⟨n, _, rfl, rfl, hviews⟩
      | false =>
        -- The callback is called at once.
        simp only [ViewSystem.next] at hviews
        split_ifs at hviews with hfree hvalid
        · exact absurd hvalid.2 (by decide)
        · obtain rfl := Option.some.inj hviews
          exact .inl rfl
    · exact absurd hs (Option.some_ne_none _).symm
  | mysql n result =>
    simp only [next] at hs
    split at hs
    · obtain ⟨views, hviews, rfl⟩ := Option.map_eq_some_iff.mp hs
      rw [(settles_settleViews _).views]
      exact .inr ⟨n, _, rfl, rfl, hviews⟩
    · exact absurd hs (Option.some_ne_none _).symm
  | readViews n ok =>
    simp only [next] at hs
    split at hs
    · split at hs
      all_goals
        obtain rfl := Option.some.inj hs
        exact .inl rfl
    · exact absurd hs (Option.some_ne_none _).symm
  | expireVisitor token | expireClaim bootstrapId =>
    obtain rfl := Option.some.inj hs
    exact .inl rfl

/-- Where one request alone has its view counted, no row is locked by another. -/
theorem run_of_alone {t : ℕ} {id : Bytes} {es : List VisitorServerEvent}
    (hviews : ∀ e ∈ es, viewTask e = none ∨ viewTask e = some t)
    (halone : ∀ m, m ≠ t → s.views.tasks m = none)
    (hreplay : Runs.replay (fun _ e => e ≠ .expireClaim id) (next h) s es = some s') :
    Run (Guarded (fun _ e => e ≠ .expireClaim id) (Step h)) s es s' := by
  induction es generalizing s with
  | nil =>
    obtain rfl := Option.some.inj hreplay
    exact .nil s
  | cons e es ih =>
    simp only [Runs.replay, Option.ite_none_right_eq_some] at hreplay
    obtain ⟨hexpire, hreplay⟩ := hreplay
    obtain ⟨s₁, hs, hrest⟩ := Option.bind_eq_some_iff.mp hreplay
    obtain ⟨hview, hviews⟩ := List.forall_mem_cons.mp hviews
    have hunlocked : s.Unlocked e := by
      cases e with
      | mysql n result =>
        -- The rows are locked by no task but that of `t`.
        obtain rfl : n = t := Option.some.inj (hview.resolve_left (Option.some_ne_none _))
        exact ViewSystem.unlocked_of_alone halone
      | request | redis | increment | readViews | expireVisitor | expireClaim => exact trivial
    refine .cons ⟨hexpire, hunlocked, hs⟩ (ih hviews ?_ hrest)
    intro m hm
    rcases viewTasks_next hs with hsame | ⟨n, event, hn, htask, hnext⟩
    · rw [hsame]
      exact halone m hm
    · have hnt : n = t := by
        rcases hview with hnone | hsome
        · exact absurd (hnone.symm.trans hn) (Option.some_ne_none _).symm
        · exact Option.some.inj (hn.symm.trans hsome)
      rw [ViewSystem.next_tasks (htask ▸ hnt ▸ hm) hnext]
      exact halone m hm

end Views

section Examples

def hallHandlers : VisitorHandlers where
  exhibitionId := ascii "hall"
  bootstrapRequestId body := some body
  score t := t

def startRequest : HttpRequest :=
  ({ body := ascii "start" } : HttpRequest).addHeader (ascii "Content-Type")
    (ascii "application/json")

/-- Two tries whose commands are interleaved; the view of the second one is not submitted. -/
def twoTries : List VisitorServerEvent :=
  .request 0 .bootstrap startRequest true (List.replicate 64 97) ::
    .request 1 .bootstrap startRequest true (List.replicate 64 98) ::
    ([0, 0, 1, 1, 1, 1, 0, 0, 1, 0].map (.redis · 5 .replied)++
      .increment 0 true :: (List.replicate 6 (.mysql 0 .done)++[.increment 1 false]))

theorem exists_twoTries :
    ∃ s, Run (Guarded (fun _ e => e ≠ .expireClaim (ascii "start")) (Step hallHandlers))
        (started true {} .empty) twoTries s ∧
      s.answers = [(0, .bootstrapped (ascii "start") (List.replicate 64 97) true 1),
        (1, .bootstrapped (ascii "start") (List.replicate 64 97) false 0)] := by
  have hreplay : (Runs.replay (fun _ e => e ≠ .expireClaim (ascii "start")) (next hallHandlers)
      (started true {} .empty) twoTries).map (·.answers) =
      some [(0, .bootstrapped (ascii "start") (List.replicate 64 97) true 1),
        (1, .bootstrapped (ascii "start") (List.replicate 64 97) false 0)] := by
    decide +kernel
  obtain ⟨s, hs, hanswers⟩ := Option.map_eq_some_iff.mp hreplay
  exact ⟨s, run_of_alone (t := 0) (by decide) (fun _ _ => rfl) hs, hanswers⟩

theorem page_start_once_twice :
    ∃ s, Run (Guarded (fun _ e => e ≠ .expireClaim (ascii "start")) (Step hallHandlers))
        (started true {} .empty) twoTries s ∧
      s.answers.length = 2 ∧
      Through (Guarded (fun _ e => e ≠ .expireClaim (ascii "start")) (Step hallHandlers))
        (started true {} .empty) twoTries s
        (fun s₁ => s₁.identity.keys.visitors (List.replicate 64 97) = true) ∧
      Through (Guarded (fun _ e => e ≠ .expireClaim (ascii "start")) (Step hallHandlers))
        (started true {} .empty) twoTries s
        (fun s₁ => ∃ nowMs : ℤ, s₁.presence.find (List.replicate 64 97) = some (nowMs : ℚ)) ∧
      s.views.events.count (ascii "hall", ascii "start") = 1 := by
  obtain ⟨s, hrun, hanswers⟩ := exists_twoTries
  have hmem : (0, .bootstrapped (ascii "start") (List.replicate 64 97) true 1) ∈ s.answers := by
    rw [hanswers]
    exact List.mem_cons_self
  obtain ⟨hkey, honline, hcounted⟩ := (page_start_once hrun).2.1 _ _ _ _ hmem
  exact ⟨s, hrun, by rw [hanswers]; rfl, hkey, honline, (hcounted rfl).1⟩

theorem answered_once_twice :
    ∃ s, Run (Step hallHandlers) (started true {} .empty) twoTries s ∧
      (s.answers.map Prod.fst).Nodup ∧ s.requests 1 = none := by
  obtain ⟨s, hrun, hanswers⟩ := exists_twoTries
  obtain ⟨hnodup, honce⟩ := answered_once hrun.unguarded
  have hmem : 1 ∈ s.answers.map Prod.fst := by
    rw [hanswers]
    decide
  exact ⟨s, hrun.unguarded, hnodup, ((honce 1).mp hmem).2⟩

end Examples

end JingjieAR.VisitorServer
