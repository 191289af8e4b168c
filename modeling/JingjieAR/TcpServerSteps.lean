import JingjieAR.TcpServerStages

/-! Every operation on a connection leads from stage to stage. -/
namespace JingjieAR

namespace TcpConnection

variable {c : TcpConnection}

/-- No call changes the state but `shutdown`, and that only while the connection is connected. -/
theorem apply_state (op : OutputOp) : (c.apply op).state = c.state ∨
    (c.state = .kConnected ∧ (c.apply op).state = .kDisconnecting) := by
  cases op with
  | send data result => exact .inl (send_state c data result)
  | sendFile file offset count result => exact .inl (sendFile_state c file offset count result)
  | handleWrite written sent => exact .inl (handleWrite_state c written sent)
  | shutdown =>
    by_cases hconnected : c.state = .kConnected
    · refine .inr ⟨hconnected, ?_⟩
      rw [apply, shutdown_state, if_pos hconnected]
    · refine .inl ?_
      rw [apply, shutdown_state, if_neg hconnected]

/-- A connection that is not connected does not begin to write. -/
theorem apply_writing_of_idle (op : OutputOp) (hstate : c.state ≠ .kConnected)
    (hw : c.writing = false) : (c.apply op).writing = false := by
  cases op with
  | send data result =>
    rw [apply, send, if_neg hstate]
    exact hw
  | sendFile file offset count result =>
    rw [apply, sendFile, connected, decide_eq_false hstate, if_neg Bool.false_ne_true]
    exact hw
  | handleWrite written sent =>
    rw [apply, handleWrite, hw, if_neg Bool.false_ne_true]
    exact hw
  | shutdown =>
    rw [apply, shutdown, if_neg hstate]
    exact hw

end TcpConnection

theorem watched_ne_none (writing : Bool) : watched writing ≠ Channel.kNoneEvent := by
  cases writing <;> decide

theorem isWriting_of_watched {c : Channel} {writing : Bool} (h : c.events = watched writing) :
    c.isWriting = writing := by
  unfold Channel.isWriting
  rw [h]
  cases writing <;> decide

theorem isWriting_of_none {c : Channel} (h : c.events = Channel.kNoneEvent) :
    c.isWriting = false := by
  unfold Channel.isWriting
  rw [h]
  decide

theorem isNoneEvent_of_watched {c : Channel} {writing : Bool} (h : c.events = watched writing) :
    c.isNoneEvent = false := by
  unfold Channel.isNoneEvent
  rw [h]
  exact beq_eq_false_iff_ne.mpr (watched_ne_none writing)

theorem events_enableWriting {c : Channel} (h : c.events = watched false) :
    c.enableWriting.events = watched true := by
  have hbits : watched false ||| Channel.kWriteEvent = watched true := by decide
  rw [← hbits, ← h, Channel.enableWriting]

theorem events_disableWriting {c : Channel} (h : c.events = watched true) :
    c.disableWriting.events = watched false := by
  have hbits : watched true &&& ~~~Channel.kWriteEvent = watched false := by decide
  rw [← hbits, ← h, Channel.disableWriting]

namespace TcpServer

variable {s : TcpServer} {c k : ℕ} {x : ServedConnection} {exempt : Option ℕ}

/-- The poller follows a channel of a connection that is in use. -/
theorem InvBut.mirrors_updateChannel {channel : Channel} (h : s.InvBut exempt)
    (hx : s.conns c = some x) (hexempt : ∀ d, d ≠ c → exempt ≠ some d)
    (hlive : x.destroyed = false) (hfd : channel.fd = x.channel.fd)
    (hindex : channel.index = x.channel.index) :
    ((s.loops x.loop).poller.updateChannel c channel).1.Mirrors
      (Function.update (s.channelOf x.loop) c
        (some ((s.loops x.loop).poller.updateChannel c channel).2)) :=
  (h.mirrors x.loop).updateChannel (channelOf_loop hx)
    (fun hnew => h.channels_eq_none hx hexempt hlive hnew x.loop) hfd hindex

theorem InvBut.mirrors_same {channel : Channel} (h : s.InvBut exempt) (hx : s.conns c = some x)
    (hchannel : channel = x.channel) :
    (s.loops x.loop).poller.Mirrors
      (Function.update (s.channelOf x.loop) c (some channel)) := by
  rw [hchannel, ← channelOf_loop hx, Function.update_eq_self]
  exact h.mirrors x.loop

theorem ne_none {d : ℕ} : (none : Option ℕ) ≠ some d := nofun

theorem Inv.operate_opened (h : s.Inv) (hx : s.conns c = some x) (hopened : x.Opened)
    (listed : s.Listed c) (op : OutputOp) : (s.operate c op).Inv := by
  have hconcerns := h.concerns c x hx
  have hlive : x.destroyed = false :=
    h.alive_of_referenced hx (mem_references.mpr (.inl listed))
  have hstate : (x.output.apply op).state = .kConnected ∨
      (x.output.apply op).state = .kDisconnecting := by
    rcases TcpConnection.apply_state op with hsame | ⟨-, hdisconnecting⟩
    · rw [hsame]
      exact hopened.state
    · exact .inr hdisconnecting
  have hregistered := TcpConnection.apply_registered hopened.registered op
  -- None of the functors of an open connection is waiting.
  have hnot : ∀ k, .connectEstablished c ∈ s.tasks k → False := by
    intro k hk
    have hconnecting := (hconcerns.established k hk).2
    rcases hopened.state with hst | hst <;> rw [hst] at hconnecting <;> cases hconnecting
  have hnotClosed : x.output.state = .kDisconnected → False := by
    intro hdisconnected
    rcases hopened.state with hst | hst <;> rw [hst] at hdisconnected <;> cases hdisconnected
  by_cases hw : (x.output.apply op).writing = x.output.writing
  · rw [operate_eq_of_same hx hw]
    refine h.follow hx rfl rfl id (fun d _ _ => ne_none) ?_ (fun _ => ?_)
      (h.mirrors_same hx rfl)
    · exact hconcerns.change rfl rfl hconcerns.alive (fun k hk => (hnot k hk).elim)
        (fun hd => (hnotClosed hd).elim) (fun k hk => (hconcerns.active k hk).2)
    · refine .opened ⟨hstate, ?_, hopened.index, hopened.tied, hopened.reports, hregistered⟩ listed
      rw [hopened.events]
      exact congrArg watched hw.symm
  · rw [operate_eq_of_changed hx hw]
    generalize hch : (if (x.output.apply op).writing then x.channel.enableWriting
      else x.channel.disableWriting) = channel
    have hevents : channel.events = watched (x.output.apply op).writing := by
      rw [← hch]
      cases hnew : (x.output.apply op).writing with
      | true =>
        have hold : x.output.writing = false := by
          cases hold : x.output.writing with
          | false => rfl
          | true => exact absurd (hnew.trans hold.symm) hw
        exact events_enableWriting (by rw [hopened.events, hold])
      | false =>
        have hold : x.output.writing = true := by
          cases hold : x.output.writing with
          | true => rfl
          | false => exact absurd (hnew.trans hold.symm) hw
        exact events_disableWriting (by rw [hopened.events, hold])
    have hfd : channel.fd = x.channel.fd := by
      rw [← hch]
      split <;> rfl
    have hindex : channel.index = x.channel.index := by
      rw [← hch]
      split <;> rfl
    have htied : channel.tied = x.channel.tied := by
      rw [← hch]
      split <;> rfl
    have hwriting : ((s.loops x.loop).poller.updateChannel c channel).2.isWriting =
        (x.output.apply op).writing :=
      isWriting_of_watched (by rw [EPollPoller.updateChannel_events, hevents])
    rw [hwriting]
    refine h.follow hx rfl ?_ id (fun d _ _ => ne_none) ?_ (fun _ => ?_)
      (h.mirrors_updateChannel hx (fun d _ => ne_none) hlive hfd hindex)
    · rw [EPollPoller.updateChannel_fd, hfd]
    · exact hconcerns.change rfl rfl hconcerns.alive (fun k hk => (hnot k hk).elim)
        (fun hd => (hnotClosed hd).elim) (fun _ _ => EPollPoller.updateChannel_index_ne _ _ _)
    · refine .opened ⟨hstate, ?_, ?_, ?_, hopened.reports, hregistered⟩ listed
      · rw [EPollPoller.updateChannel_events, hevents]
      · exact EPollPoller.updateChannel_added _ _ (isNoneEvent_of_watched hevents)
      · rw [EPollPoller.updateChannel_tied, htied, hopened.tied]

theorem Inv.operate (h : s.Inv) (c : ℕ) (op : OutputOp) : (s.operate c op).Inv := by
  cases hx : s.conns c with
  | none =>
    unfold TcpServer.operate
    rw [hx]
    exact h
  | some x =>
    have hconcerns := h.concerns c x hx
    -- A connection that is not open does not react.
    have hidle (hstate : x.output.state ≠ .kConnected) (hw : x.output.writing = false)
        (hstage : s.Stage c { x with output := x.output.apply op }) : (s.operate c op).Inv := by
      have hsame : (x.output.apply op).state = x.output.state := by
        rcases TcpConnection.apply_state op with hsame | ⟨hconnected, -⟩
        · exact hsame
        · exact absurd hconnected hstate
      rw [operate_eq_of_same hx (by rw [TcpConnection.apply_writing_of_idle op hstate hw, hw])]
      refine h.follow hx rfl rfl id (fun d _ _ => ne_none) ?_ (fun _ => hstage)
        (h.mirrors_same hx rfl)
      exact hconcerns.change rfl rfl hconcerns.alive (fun k hk => hsame.trans (hconcerns.established k hk).2)
        (fun hd => hsame.trans hd) (fun k hk => (hconcerns.active k hk).2)
    have hclosed (hc : x.Closed) : ({ x with output := x.output.apply op } : ServedConnection).Closed ∧
        x.output.state ≠ .kConnected := by
      have hne : x.output.state ≠ .kConnected := by
        rw [hc.state]
        exact StateE.noConfusion
      refine ⟨⟨?_, TcpConnection.apply_writing_of_idle op hne hc.writing, hc.events, hc.tied,
        hc.reports⟩, hne⟩
      rcases TcpConnection.apply_state op with hsame | ⟨hconnected, -⟩
      · exact hsame.trans hc.state
      · exact absurd hconnected hne
    cases h.stage c x hx ne_none with
    | connecting hfresh listed task =>
      have hne : x.output.state ≠ .kConnected := by
        rw [hfresh.state]
        exact StateE.noConfusion
      refine hidle hne hfresh.writing (.connecting ⟨?_, ?_, hfresh.events, hfresh.index,
        hfresh.reports, TcpConnection.apply_registered hfresh.registered op⟩ listed task)
      · rcases TcpConnection.apply_state op with hsame | ⟨hconnected, -⟩
        · exact hsame.trans hfresh.state
        · exact absurd hconnected hne
      · exact TcpConnection.apply_writing_of_idle op hne hfresh.writing
    | opened hopened listed => exact h.operate_opened hx hopened listed op
    | closing hc listed index task =>
      exact hidle (hclosed hc).2 hc.writing (.closing (hclosed hc).1 listed index task)
    | removed hc unlisted task =>
      exact hidle (hclosed hc).2 hc.writing (.removed (hclosed hc).1 unlisted task)
    | gone hc unlisted index =>
      exact hidle (hclosed hc).2 hc.writing (.gone (hclosed hc).1 unlisted index)

/-- What stands behind a close callback: the connection is closed, and its removal is to come. -/
theorem Inv.disconnect (h : s.Inv) (hx : s.conns c = some x) (hindex : x.channel.index ≠ .kNew) :
    ∃ y p, s.disconnect c = s.follow c y p ∧ y.Closed ∧ y.loop = x.loop ∧
      y.channel.index ≠ .kNew ∧ (¬s.Listed c → .connectDestroyed c ∈ s.tasks x.loop) ∧
      (s.follow c y p).InvBut (some c) := by
  have hconcerns := h.concerns c x hx
  have hlive := h.alive_of_referenced hx (h.referenced_of_index hx ne_none hindex)
  have hdata : x.channel.tied = true ∧ (∃ n, x.reports = true :: List.replicate n false) ∧
      x.output.state ≠ .kConnecting ∧
      (¬s.Listed c → .connectDestroyed c ∈ s.tasks x.loop) := by
    cases h.stage c x hx ne_none with
    | connecting hfresh _ _ => exact absurd hfresh.index hindex
    | opened ho listed =>
      refine ⟨ho.tied, ⟨0, ho.reports⟩, ?_, fun hnot => absurd listed hnot⟩
      rcases ho.state with hst | hst <;> rw [hst] <;> exact StateE.noConfusion
    | closing hc listed _ _ =>
      obtain ⟨n, hn⟩ := hc.reports
      refine ⟨hc.tied, ⟨n+1, hn⟩, ?_, fun hnot => absurd listed hnot⟩
      rw [hc.state]
      exact StateE.noConfusion
    | removed hc _ task =>
      obtain ⟨n, hn⟩ := hc.reports
      refine ⟨hc.tied, ⟨n+1, hn⟩, ?_, fun _ => task⟩
      rw [hc.state]
      exact StateE.noConfusion
    | gone _ _ hnew => exact absurd hnew hindex
  obtain ⟨htied, ⟨n, hn⟩, hstate, htask⟩ := hdata
  refine ⟨_, _, disconnect_eq hx, ⟨rfl, ?_, ?_, ?_, n, ?_⟩, rfl, ?_, htask, ?_⟩
  · exact isWriting_of_none (EPollPoller.updateChannel_events ..)
  · exact EPollPoller.updateChannel_events ..
  · exact (EPollPoller.updateChannel_tied ..).trans htied
  · simp only [hn, List.cons_append, List.replicate_succ']
  · exact EPollPoller.updateChannel_index_ne _ _ _
  · refine h.follow hx rfl (EPollPoller.updateChannel_fd ..) id (fun d _ _ => ne_none) ?_
      (fun hne => absurd rfl hne)
      (h.mirrors_updateChannel hx (fun d _ => ne_none) hlive rfl rfl)
    exact hconcerns.change rfl rfl hconcerns.alive
      (fun k hk => absurd (hconcerns.established k hk).2 hstate) (fun _ => rfl)
      (fun _ _ => EPollPoller.updateChannel_index_ne _ _ _)

theorem sameFor_queueInLoop {f : PendingFunctor} {k d : ℕ} (hd : d ≠ f.conn) :
    SameFor s (s.queueInLoop k f) d := by
  have hcount (j : ℕ) (g : PendingFunctor) (hg : g.conn = d) :
      ((s.queueInLoop k f).tasks j).count g = (s.tasks j).count g := by
    have hne : f ≠ g := by
      rintro rfl
      exact hd hg.symm
    rw [queueInLoop_tasks]
    split_ifs with hj
    · rw [hj, List.count_append, List.count_singleton, beq_eq_false_iff_ne.mpr hne]
      rfl
    · rfl
  refine ⟨⟨rfl, rfl, Iff.rfl, fun j g hg => (hcount j g hg).le, fun j hj => ?_, fun hmem => ?_⟩,
    fun j g hg hmem => ?_⟩
  · rwa [queueInLoop_active] at hj
  · rcases references_queueInLoop hmem with hold | hnew
    · exact hold
    · exact absurd hnew hd
  · rw [← List.count_pos_iff] at hmem ⊢
    rwa [hcount j g hg]

theorem mem_eraseName {connections : List (Bytes × ℕ)} {name : Bytes} {e : Bytes × ℕ} :
    e ∈ eraseName connections name ↔ e ∈ connections ∧ e.1 ≠ name := by
  simp [eraseName]

/-- The table has one entry for a connection, under its own name. -/
theorem InvBut.listed_eraseName (h : s.InvBut exempt) (hx : s.conns c = some x) (d : ℕ) :
    d ∈ (eraseName s.connections x.name).map Prod.snd ↔ s.Listed d ∧ d ≠ c := by
  constructor
  · intro hd
    obtain ⟨⟨n, d'⟩, he, rfl⟩ := List.mem_map.mp hd
    obtain ⟨hmem, hne⟩ := mem_eraseName.mp he
    obtain ⟨y, hy, hn⟩ := h.table n d' hmem
    refine ⟨List.mem_map_of_mem (f := Prod.snd) hmem, ?_⟩
    rintro rfl
    rw [hx] at hy
    cases hy
    exact hne hn
  · rintro ⟨hlisted, hne⟩
    obtain ⟨⟨n, d'⟩, hmem, rfl⟩ := List.mem_map.mp hlisted
    refine List.mem_map.mpr ⟨(n, d'), mem_eraseName.mpr ⟨hmem, ?_⟩, rfl⟩
    obtain ⟨y, hy, hn⟩ := h.table n d' hmem
    intro heq
    change n = x.name at heq
    rw [hn, (h.concerns d' y hy).name, (h.concerns c x hx).name] at heq
    exact hne (connName_inj ((h.made d' y hy).trans h.bound) ((h.made c x hx).trans h.bound) heq)

/-- A functor is queued for the connection whose stage it completes. -/
theorem InvBut.queueInLoop {f : PendingFunctor} (h : s.InvBut (some c)) (hf : f.conn = c)
    (hx : s.conns c = some x) (hlive : x.destroyed = false)
    (hestablished : f = .connectEstablished c →
      k = x.loop ∧ x.output.state = .kConnecting ∧ ∀ j, f ∉ s.tasks j)
    (hremoval : f = .removeConnectionInLoop c → k = 0 ∧ x.output.state = .kDisconnected)
    (hdestroyal : f = .connectDestroyed c →
      k = x.loop ∧ x.output.state = .kDisconnected ∧ ¬s.Listed c)
    (hstage : (s.queueInLoop k f).Stage c x) : (s.queueInLoop k f).Inv := by
  have hconcerns := h.concerns c x hx
  have hmem {j : ℕ} {g : PendingFunctor} (hg : g ∈ (s.queueInLoop k f).tasks j) :
      g ∈ s.tasks j ∨ (j = k ∧ g = f) := by
    rw [queueInLoop_tasks] at hg
    split_ifs at hg with hj
    · rcases List.mem_append.mp hg with hold | hnew
      · exact .inl (hj ▸ hold)
      · exact .inr ⟨hj, List.mem_singleton.mp hnew⟩
    · exact .inl hg
  refine h.rebuild rfl rfl rfl rfl (fun e he => he) ?_ ?_ ?_
  · intro j functors todo hphase
    rw [queueInLoop_phase] at hphase
    exact h.batch j functors todo hphase
  · intro j
    rw [queueInLoop_poller]
    exact h.mirrors j
  · intro d
    by_cases hd : d = c
    · subst hd
      refine .inr ⟨x, hx, ⟨hconcerns.loop_le, hconcerns.name, ?_, ?_, ?_, ?_, ?_, ?_⟩,
        fun _ => hstage⟩
      · intro j hj
        rcases hmem hj with hold | ⟨rfl, heq⟩
        · exact hconcerns.established j hold
        · exact ⟨(hestablished heq.symm).1, (hestablished heq.symm).2.1⟩
      · intro j
        rw [queueInLoop_tasks]
        split_ifs
        · rw [List.count_append]
          by_cases heq : f = .connectEstablished d
          · have hzero := List.count_eq_zero.mpr ((hestablished heq).2.2 k)
            rw [heq] at hzero ⊢
            rw [hzero, List.count_singleton_self]
          · rw [List.count_singleton, beq_eq_false_iff_ne.mpr heq]
            exact hconcerns.once k
        · exact hconcerns.once j
      · intro j hj
        rcases hmem hj with hold | ⟨rfl, heq⟩
        · exact hconcerns.removal j hold
        · exact hremoval heq.symm
      · intro j hj
        rcases hmem hj with hold | ⟨rfl, heq⟩
        · exact hconcerns.destroyal j hold
        · exact hdestroyal heq.symm
      · intro j hj
        rw [queueInLoop_active] at hj
        exact hconcerns.active j hj
      · intro hdestroyed
        rw [hlive] at hdestroyed
        cases hdestroyed
    · refine .inl ⟨sameFor_queueInLoop (hf ▸ hd), fun _ heq => hd (Option.some.inj heq).symm⟩

/-- A closed connection leaves the table. -/
theorem InvBut.eraseName (h : s.InvBut exempt) (hexempt : ∀ d, d ≠ c → exempt ≠ some d)
    (hx : s.conns c = some x) (hclosed : x.Closed) :
    ({ s with connections := eraseName s.connections x.name } : TcpServer).InvBut (some c) := by
  have hconcerns := h.concerns c x hx
  generalize hs' : ({ s with connections := TcpServer.eraseName s.connections x.name } :
    TcpServer) = s'
  have hlisted (d : ℕ) : s'.Listed d ↔ s.Listed d ∧ d ≠ c := by
    rw [← hs']
    exact h.listed_eraseName hx d
  have hrefs (d : ℕ) : d ∈ s'.references → d ∈ s.references := by
    rw [mem_references, mem_references, hlisted]
    rintro (hl | hl)
    · exact .inl hl.1
    · rw [← hs'] at hl
      exact .inr hl
  subst hs'
  refine h.rebuild rfl rfl rfl rfl (fun e he => (mem_eraseName.mp he).1) h.batch h.mirrors ?_
  intro d
  by_cases hd : d = c
  · subst hd
    refine .inr ⟨x, hx, ⟨hconcerns.loop_le, hconcerns.name, hconcerns.established,
      hconcerns.once, hconcerns.removal, fun k hk => ?_, hconcerns.active,
      fun hdestroyed hmem => hconcerns.alive hdestroyed (hrefs d hmem)⟩,
      fun hne => absurd rfl hne⟩
    exact ⟨(hconcerns.destroyal k hk).1, hclosed.state, fun hl => ((hlisted d).mp hl).2 rfl⟩
  · exact .inl ⟨⟨⟨rfl, rfl, (hlisted d).trans (and_iff_left hd), fun _ _ _ => le_rfl,
      fun _ hk => hk, hrefs d⟩, fun _ _ _ hf => hf⟩, fun _ => hexempt d hd⟩

theorem InvBut.removeConnectionInLoop (h : s.InvBut exempt)
    (hexempt : ∀ d, d ≠ c → exempt ≠ some d) (hx : s.conns c = some x) (hclosed : x.Closed)
    (href : c ∈ s.references) : (s.removeConnectionInLoop c).Inv := by
  have hlive := h.alive_of_referenced hx href
  have hnot : ¬({ s with connections := TcpServer.eraseName s.connections x.name } :
      TcpServer).Listed c := fun hl => ((h.listed_eraseName hx c).mp hl).2 rfl
  simp only [TcpServer.removeConnectionInLoop, hx]
  refine (h.eraseName hexempt hx hclosed).queueInLoop rfl hx hlive nofun nofun
    (fun _ => ⟨rfl, hclosed.state, hnot⟩) (.removed hclosed hnot ?_)
  rw [queueInLoop_tasks, if_pos rfl]
  exact List.mem_append_right _ List.mem_cons_self

/-- The connection is closed in another loop than the base loop. -/
theorem InvBut.queueRemoval (h : s.InvBut (some c)) (hx : s.conns c = some x)
    (hclosed : x.Closed) (hindex : x.channel.index ≠ .kNew) (href : c ∈ s.references)
    (htask : ¬s.Listed c → .connectDestroyed c ∈ s.tasks x.loop) :
    (s.queueInLoop 0 (.removeConnectionInLoop c)).Inv := by
  refine h.queueInLoop rfl hx (h.alive_of_referenced hx href) nofun
    (fun _ => ⟨rfl, hclosed.state⟩) nofun ?_
  by_cases hlisted : s.Listed c
  · refine .closing hclosed hlisted hindex ?_
    rw [queueInLoop_tasks, if_pos rfl]
    exact List.mem_append_right _ List.mem_cons_self
  · refine .removed hclosed hlisted ?_
    rw [queueInLoop_tasks]
    split_ifs with hk
    · exact List.mem_append_left _ (hk ▸ htask hlisted)
    · exact htask hlisted

theorem Inv.handleClose (h : s.Inv) (hx : s.conns c = some x)
    (hindex : x.channel.index ≠ .kNew) (thread : ℕ) : (s.handleClose thread c).Inv := by
  have href := h.referenced_of_index hx ne_none hindex
  obtain ⟨y, p, hdisconnect, hclosed, hloop, hindex', htask, hbut⟩ := h.disconnect hx hindex
  have hy : (s.follow c y p).conns c = some y := follow_conns_self
  unfold TcpServer.handleClose runInLoop
  rw [hdisconnect]
  split_ifs
  · exact hbut.removeConnectionInLoop (fun d hd heq => hd (Option.some.inj heq).symm) hy hclosed
      (by rwa [follow_references])
  · refine hbut.queueRemoval hy hclosed hindex' (by rwa [follow_references]) ?_
    rw [follow_listed, follow_tasks, hloop]
    exact htask

end TcpServer

end JingjieAR
