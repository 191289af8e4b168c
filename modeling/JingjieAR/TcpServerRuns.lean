import JingjieAR.TcpServerSteps

/-! The invariant of the server holds in every run. -/
namespace JingjieAR.TcpServer

open Runs

variable {s : TcpServer} {c k : ℕ} {x : ServedConnection}

theorem InvBut.connectEstablished (h : s.InvBut (some c)) (hx : s.conns c = some x)
    (hfresh : x.Fresh) (listed : s.Listed c)
    (hnone : ∀ k, .connectEstablished c ∉ s.tasks k) : (s.connectEstablished c).Inv := by
  have hconcerns := h.concerns c x hx
  have hlive := h.alive_of_referenced hx (mem_references.mpr (.inl listed))
  have hothers (d : ℕ) (hd : d ≠ c) : some c ≠ some d := fun heq => hd (Option.some.inj heq).symm
  have hevents : x.channel.tie.enableReading.events = watched false := by
    change x.channel.events ||| Channel.kReadEvent = watched false
    rw [hfresh.events]
    decide
  have hwriting : ((s.loops x.loop).poller.updateChannel c
      x.channel.tie.enableReading).2.isWriting = false :=
    isWriting_of_watched (by rw [EPollPoller.updateChannel_events, hevents])
  rw [connectEstablished_eq hx, hwriting]
  refine h.follow hx rfl ?_ id (fun d hd _ => hothers d hd) ?_ (fun _ => .opened ?_ listed)
    (h.mirrors_updateChannel hx hothers hlive rfl rfl)
  · exact EPollPoller.updateChannel_fd ..
  · exact hconcerns.change rfl rfl hconcerns.alive (fun k hk => absurd hk (hnone k))
      (fun hd => by rw [hfresh.state] at hd; cases hd)
      (fun _ _ => EPollPoller.updateChannel_index_ne _ _ _)
  · refine ⟨.inl rfl, ?_, ?_, EPollPoller.updateChannel_tied .., ?_, ?_, ?_⟩
    · rw [EPollPoller.updateChannel_events, hevents]
    · exact EPollPoller.updateChannel_added _ _ (isNoneEvent_of_watched hevents)
    · simp [hfresh.reports]
    -- A connection that has just been made has nothing to send.
    · intro hfile
      have hw := hfresh.registered.file hfile
      rw [hfresh.writing] at hw
      cases hw
    · intro hbuffer
      have hw := hfresh.registered.buffer hbuffer
      rw [hfresh.writing] at hw
      cases hw

theorem InvBut.connectDestroyed (h : s.InvBut (some c)) (hx : s.conns c = some x)
    (hclosed : x.Closed) (unlisted : ¬s.Listed c) (href : c ∈ s.references)
    (hactive : ∀ k, c ∉ s.active k) : (s.connectDestroyed c).Inv := by
  have hconcerns := h.concerns c x hx
  have hlive := h.alive_of_referenced hx href
  have hothers (d : ℕ) (hd : d ≠ c) : some c ≠ some d := fun heq => hd (Option.some.inj heq).symm
  have hconnected : x.output.connected = false := by
    rw [TcpConnection.connected, hclosed.state]
    rfl
  have hwriting : x.output.closePendingFile.writing = x.output.writing := by
    obtain ⟨p, files, hclose, -⟩ := x.output.closePendingFile_frame
    rw [hclose]
  rw [connectDestroyed_eq hx hconnected]
  refine h.follow hx rfl rfl id (fun d hd _ => hothers d hd) ?_ (fun _ => ?_) ?_
  · exact hconcerns.change rfl rfl hconcerns.alive
      (fun k hk => (TcpConnection.closePendingFile_state _).trans (hconcerns.established k hk).2)
      (fun hd => (TcpConnection.closePendingFile_state _).trans hd)
      (fun k hk => absurd hk (hactive k))
  · refine .gone ⟨?_, hwriting.trans hclosed.writing, hclosed.events, hclosed.tied,
      hclosed.reports⟩ unlisted rfl
    exact (TcpConnection.closePendingFile_state _).trans hclosed.state
  · exact (h.mirrors x.loop).removeChannel (channelOf_loop hx)
      (fun hindex => h.channels_eq_none hx hothers hlive hindex x.loop)

section Loops

variable {l : ServedLoop} {j d : ℕ}

theorem setLoop_tasks : (s.setLoop k l).tasks j =
    if j = k then l.phase.todo++l.pendingFunctors else s.tasks j := by
  unfold tasks setLoop
  by_cases hj : j = k
  · subst hj
    simp
  · simp [hj]

theorem setLoop_active : (s.setLoop k l).active j =
    if j = k then l.phase.active else s.active j := by
  unfold active setLoop
  by_cases hj : j = k
  · subst hj
    simp
  · simp [hj]

theorem references_setLoop (hrefs : k ≤ s.numThreads → ∀ d ∈ l.references, d ∈ s.references)
    (h : d ∈ (s.setLoop k l).references) : d ∈ s.references := by
  rw [mem_references] at h
  rcases h with h | ⟨j, hj, h⟩ | h
  · exact mem_references.mpr (.inl h)
  · by_cases hjk : j = k
    · subst hjk
      rw [setLoop_loops_self] at h
      exact hrefs hj d h
    · rw [setLoop_loops_of_ne _ _ hjk] at h
      exact mem_references.mpr (.inr (.inl ⟨j, hj, h⟩))
  · exact mem_references.mpr (.inr (.inr h))

/-- A loop goes on to its next phase; its tasks stay and nothing new is referenced. -/
theorem Inv.setLoop (h : s.Inv) (htasks : l.phase.todo++l.pendingFunctors = s.tasks k)
    (hactive : ∀ d ∈ l.phase.active, d ∈ s.active k ∨
      ∃ x, s.conns d = some x ∧ x.loop = k ∧ x.channel.index ≠ .kNew)
    (hrefs : k ≤ s.numThreads → ∀ d ∈ l.references, d ∈ s.references)
    (hbatch : ∀ functors todo, l.phase = .running functors todo → todo ⊆ functors)
    (hmirrors : l.poller.Mirrors (s.channelOf k)) : (s.setLoop k l).Inv := by
  have htasks' (j : ℕ) : (s.setLoop k l).tasks j = s.tasks j := by
    rw [setLoop_tasks]
    split_ifs with hj
    · rw [htasks, hj]
    · rfl
  have hactive' (d j : ℕ) (hd : d ∈ (s.setLoop k l).active j) : d ∈ s.active j ∨
      ∃ x, s.conns d = some x ∧ x.loop = j ∧ x.channel.index ≠ .kNew := by
    rw [setLoop_active] at hd
    split_ifs at hd with hj
    · subst hj
      exact hactive d hd
    · exact .inl hd
  refine h.rebuild rfl rfl rfl rfl (fun e he => he) ?_ ?_ ?_
  · intro j functors todo hphase
    by_cases hj : j = k
    · subst hj
      rw [setLoop_loops_self] at hphase
      exact hbatch functors todo hphase
    · rw [setLoop_loops_of_ne _ _ hj] at hphase
      exact h.batch j functors todo hphase
  · intro j
    by_cases hj : j = k
    · subst hj
      rwa [setLoop_loops_self]
    · rw [setLoop_loops_of_ne _ _ hj]
      exact h.mirrors j
  · intro d
    cases hd : s.conns d with
    | none =>
      -- No channel of a connection that has not been made is active.
      refine .inl ⟨⟨⟨rfl, rfl, Iff.rfl, fun j f _ => by rw [htasks' j], fun j hj => ?_,
        references_setLoop hrefs⟩, fun j f _ hf => by rwa [htasks' j]⟩, fun _ => ne_none⟩
      rcases hactive' d j hj with hold | ⟨x, hx, -⟩
      · exact hold
      · rw [hd] at hx
        cases hx
    | some x =>
      have hconcerns := h.concerns d x hd
      refine .inr ⟨x, rfl, ?_, fun _ => (h.stage d x hd ne_none).frame Iff.rfl
        (fun j f _ hf => by rwa [htasks' j])⟩
      refine ⟨hconcerns.loop_le, hconcerns.name, ?_, ?_, ?_, ?_, ?_, ?_⟩
      · exact fun j hj => hconcerns.established j (by rwa [htasks' j] at hj)
      · exact fun j => by rw [htasks' j]; exact hconcerns.once j
      · exact fun j hj => hconcerns.removal j (by rwa [htasks' j] at hj)
      · exact fun j hj => hconcerns.destroyal j (by rwa [htasks' j] at hj)
      · intro j hj
        rcases hactive' d j hj with hold | ⟨y, hy, hloop, hindex⟩
        · exact hconcerns.active j hold
        · rw [hd] at hy
          cases hy
          exact ⟨hloop.symm, hindex⟩
      · exact fun hdestroyed hmem => hconcerns.alive hdestroyed (references_setLoop hrefs hmem)

theorem Inv.setPhase {phase : LoopPhase} (h : s.Inv)
    (htodo : phase.todo = (s.loops k).phase.todo) (hactive : ∀ d ∈ phase.active, d ∈ s.active k)
    (hrefs : ∀ d ∈ phase.references, d ∈ s.references)
    (hbatch : ∀ functors todo, phase = .running functors todo → todo ⊆ functors) :
    (s.setPhase k phase).Inv := by
  refine h.setLoop ?_ (fun d hd => .inl (hactive d hd)) ?_ hbatch (h.mirrors k)
  · change phase.todo++_ = _
    rw [htodo]
    rfl
  · intro hk d hd
    rcases List.mem_append.mp hd with hd | hd
    · exact mem_references.mpr (.inr (.inl ⟨k, hk, List.mem_append_left _ hd⟩))
    · exact hrefs d hd

end Loops

section Functors

variable {functors todo : List PendingFunctor} {f : PendingFunctor}

theorem setPhase_tasks_cons (hphase : (s.loops k).phase = .running functors (f :: todo)) :
    s.tasks k = f :: (s.setPhase k (.running functors todo)).tasks k := by
  rw [setPhase_tasks, if_pos rfl, tasks, hphase]
  rfl

/-- A functor is taken; what it was queued for is still to be done. -/
theorem Inv.pop (h : s.Inv) (hk : k ≤ s.numThreads)
    (hphase : (s.loops k).phase = .running functors (f :: todo)) :
    (s.setPhase k (.running functors todo)).InvBut (some f.conn) ∧
      f.conn ∈ (s.setPhase k (.running functors todo)).references := by
  have hbatch := h.batch k functors (f :: todo) hphase
  have htasks := setPhase_tasks_cons hphase
  have hrefs (d : ℕ) (hd : d ∈ (s.setPhase k (.running functors todo)).references) :
      d ∈ s.references := by
    rcases references_setPhase hd with hold | hnew
    · exact hold
    · refine mem_references.mpr (.inr (.inl ⟨k, hk, List.mem_append_right _ ?_⟩))
      rwa [hphase]
  have hcount (j : ℕ) (g : PendingFunctor) :
      ((s.setPhase k (.running functors todo)).tasks j).count g ≤ (s.tasks j).count g := by
    by_cases hj : j = k
    · rw [hj, htasks]
      exact List.count_le_count_cons
    · rw [setPhase_tasks, if_neg hj]
  have hactive (d j : ℕ) (hd : d ∈ (s.setPhase k (.running functors todo)).active j) :
      d ∈ s.active j := by
    rw [setPhase_active] at hd
    split_ifs at hd
    · cases hd
    · exact hd
  have hfewer (d : ℕ) : FewerFor s (s.setPhase k (.running functors todo)) d :=
    ⟨rfl, rfl, Iff.rfl, fun j g _ => hcount j g, fun j hj => hactive d j hj, hrefs d⟩
  obtain ⟨x, hx⟩ := h.known k f (by rw [htasks]; exact List.mem_cons_self)
  refine ⟨h.rebuild rfl rfl rfl rfl (fun e he => he) ?_ ?_ ?_, ?_⟩
  · intro j functors' todo' hphase'
    by_cases hj : j = k
    · subst hj
      rw [TcpServer.setPhase, setLoop_loops_self] at hphase'
      cases hphase'
      exact fun g hg => hbatch (List.mem_cons_of_mem f hg)
    · rw [TcpServer.setPhase, setLoop_loops_of_ne _ _ hj] at hphase'
      exact h.batch j functors' todo' hphase'
  · intro j
    by_cases hj : j = k
    · subst hj
      rw [TcpServer.setPhase, setLoop_loops_self]
      exact h.mirrors j
    · rw [TcpServer.setPhase, setLoop_loops_of_ne _ _ hj]
      exact h.mirrors j
  · intro d
    by_cases hd : d = f.conn
    · subst hd
      exact .inr ⟨x, hx, (h.concerns _ x hx).frame (hfewer _), fun hne => absurd rfl hne⟩
    · refine .inl ⟨⟨hfewer d, fun j g hg hmem => ?_⟩, fun _ => ne_none⟩
      by_cases hj : j = k
      · subst hj
        rw [htasks] at hmem
        rcases List.mem_cons.mp hmem with rfl | hold
        · exact absurd hg.symm hd
        · exact hold
      · rwa [setPhase_tasks, if_neg hj]
  · refine mem_references.mpr (.inr (.inl ⟨k, hk, List.mem_append_right _ ?_⟩))
    rw [TcpServer.setPhase, setLoop_loops_self]
    exact List.mem_map_of_mem (hbatch List.mem_cons_self)

theorem Inv.runFunctor (h : s.Inv) (hk : k ≤ s.numThreads)
    (hphase : (s.loops k).phase = .running functors (f :: todo)) :
    ((s.setPhase k (.running functors todo)).execute f).Inv := by
  obtain ⟨hbut, href⟩ := h.pop hk hphase
  have htasks := setPhase_tasks_cons hphase
  have hmem : f ∈ s.tasks k := by
    rw [htasks]
    exact List.mem_cons_self
  obtain ⟨x, hx⟩ := h.known k f hmem
  have hconcerns := h.concerns f.conn x hx
  have hothers (d : ℕ) (hd : d ≠ f.conn) : some f.conn ≠ some d :=
    fun heq => hd (Option.some.inj heq).symm
  cases f with
  | connectEstablished c =>
    obtain ⟨hloop, hstate⟩ := hconcerns.established k hmem
    have hstage := (h.stage c x hx ne_none).fresh_of_connecting hstate
    refine hbut.connectEstablished hx hstage.1 hstage.2 (fun j hj => ?_)
    by_cases hjk : j = k
    · -- It is queued only once.
      have honce : (s.tasks k).count (.connectEstablished c) ≤ 1 := hconcerns.once k
      rw [hjk] at hj
      have hpos : 0 < ((s.setPhase k (.running functors todo)).tasks k).count
          (.connectEstablished c) := List.count_pos_iff.mpr hj
      rw [htasks, List.count_cons_self] at honce
      omega
    · rw [setPhase_tasks, if_neg hjk] at hj
      exact hjk ((hconcerns.established j hj).1.trans hloop.symm)
  | removeConnectionInLoop c =>
    have hstate := (hconcerns.removal k hmem).2
    have hclosed := (h.stage c x hx ne_none).closed_of_disconnected hstate
    exact hbut.removeConnectionInLoop hothers hx hclosed href
  | connectDestroyed c =>
    obtain ⟨hloop, hstate, hunlisted⟩ := hconcerns.destroyal k hmem
    have hclosed := (h.stage c x hx ne_none).closed_of_disconnected hstate
    refine hbut.connectDestroyed hx hclosed hunlisted href (fun j hj => ?_)
    -- While functors are called no channel of the loop is active.
    rw [setPhase_active] at hj
    split_ifs at hj with hjk
    · cases hj
    · exact hjk ((hconcerns.active j hj).1.trans hloop.symm)

end Functors

section Destruction

/-- Nothing is watched under the descriptor of a connection that is to be destroyed. -/
theorem Inv.destroy_eq (h : s.Inv) (hx : s.conns c = some x) (hlive : x.destroyed = false)
    (hindex : x.channel.index = .kNew) : s.destroy c x = s.follow c
      { x with output := x.output.closePendingFile, destroyed := true }
      (s.loops x.loop).poller := by
  have hnone (k : ℕ) : (s.loops k).poller.interest x.channel.fd = none := by
    have hchannels := h.channels_eq_none hx (fun d _ => ne_none) hlive hindex k
    cases hi : (s.loops k).poller.interest x.channel.fd with
    | none => rfl
    | some entry =>
      obtain ⟨d, hd, hfd, hadded, -⟩ := ((h.mirrors k).interest _ entry.1 entry.2).mp hi
      have hsome := ((h.mirrors k).channels x.channel.fd entry.1).mpr
        ⟨d, hd, hfd, by rw [hadded]; exact ChannelIndex.noConfusion⟩
      rw [hchannels] at hsome
      cases hsome
  have hloops : (fun k => { s.loops k with poller := { (s.loops k).poller with
      interest := Function.update (s.loops k).poller.interest x.channel.fd none } }) =
      s.loops := by
    funext k
    rw [← hnone k, Function.update_eq_self]
  unfold TcpServer.destroy
  rw [hloops]
  change s.modifyConn c _ = _
  conv_lhs => rw [← follow_self hx]
  exact follow_modifyConn
    (f := fun x => { x with output := x.output.closePendingFile, destroyed := true }) rfl

theorem Inv.destroy (h : s.Inv) (hx : s.conns c = some x) (hlive : x.destroyed = false)
    (hnot : c ∉ s.references) : (s.destroy c x).Inv := by
  have hconcerns := h.concerns c x hx
  have hstate : x.output.closePendingFile.state = x.output.state :=
    TcpConnection.closePendingFile_state _
  have hwriting : x.output.closePendingFile.writing = x.output.writing := by
    obtain ⟨p, files, hclose, -⟩ := x.output.closePendingFile_frame
    rw [hclose]
  cases h.stage c x hx ne_none with
  | connecting _ listed _ => exact absurd (mem_references.mpr (.inl listed)) hnot
  | opened _ listed => exact absurd (mem_references.mpr (.inl listed)) hnot
  | closing _ listed _ _ => exact absurd (mem_references.mpr (.inl listed)) hnot
  | removed _ _ task => exact absurd (h.referenced_of_task hconcerns.loop_le task) hnot
  | gone hc unlisted index =>
    rw [h.destroy_eq hx hlive index]
    refine h.follow hx rfl rfl (fun hd => by cases hd) (fun d _ _ => ne_none) ?_ (fun _ => ?_)
      (h.mirrors_same hx rfl)
    · exact hconcerns.change rfl rfl (fun _ => hnot)
        (fun k hk => hstate.trans (hconcerns.established k hk).2) (fun hd => hstate.trans hd)
        (fun k hk => (hconcerns.active k hk).2)
    · exact .gone ⟨hstate.trans hc.state, hwriting.trans hc.writing, hc.events, hc.tied,
        hc.reports⟩ unlisted index

theorem Inv.setHolders {holders : List ℕ} (h : s.Inv)
    (hrefs : ∀ d ∈ holders, d ∈ s.references) : ({ s with holders := holders } : TcpServer).Inv := by
  refine h.rebuild rfl rfl rfl rfl (fun e he => he) h.batch h.mirrors (fun d => .inl ?_)
  refine ⟨⟨⟨rfl, rfl, Iff.rfl, fun _ _ _ => le_rfl, fun _ hk => hk, fun hmem => ?_⟩,
    fun _ _ _ hf => hf⟩, fun _ => ne_none⟩
  rcases mem_references.mp hmem with hl | hl | hl
  · exact mem_references.mpr (.inl hl)
  · exact mem_references.mpr (.inr (.inl hl))
  · exact hrefs d hl

end Destruction

section Accepting

variable {fd : ℕ}

theorem getNextLoop_spec (h : s.Inv) : s.getNextLoop.1 ≤ s.numThreads ∧
    ∃ next, s.getNextLoop.2 = { s with next := next } ∧
      (s.numThreads ≠ 0 → next < s.numThreads) := by
  unfold getNextLoop
  split_ifs with hzero hlast
  · exact ⟨Nat.zero_le _, s.next, rfl, h.turn⟩
  · have hturn := h.turn hzero
    exact ⟨by omega, 0, rfl, fun _ => by omega⟩
  · have hturn := h.turn hzero
    exact ⟨by omega, s.next+1, rfl, fun _ => by omega⟩

theorem fd_ne_of_not_inUse (h : s.Inv) (hfd : s.fdInUse fd = false) {d : ℕ}
    {z : ServedConnection} (hz : s.conns d = some z) (hlive : z.destroyed = false) :
    z.channel.fd ≠ fd := by
  intro heq
  have huse : s.fdInUse fd = true := by
    refine List.any_eq_true.mpr ⟨d, List.mem_range.mpr (h.made d z hz), ?_⟩
    rw [hz, Option.any_some, hlive, heq, beq_self_eq_true]
    rfl
  rw [hfd] at huse
  cases huse

/-- The connection has been made and stands in the table; its loop does not know it yet. -/
theorem Inv.insert (h : s.Inv) (hfd : s.fdInUse fd = false) (hid : s.nextConnId < 2^31-1)
    {loop next : ℕ} (hloop : loop ≤ s.numThreads)
    (hnext : s.numThreads ≠ 0 → next < s.numThreads)
    (hx : x = { loop := loop, name := s.connName s.nextConnId, channel := { fd := fd } }) :
    ({ s with
      next := next
      nextConnId := s.nextConnId+1
      conns := Function.update s.conns s.nextConnId (some x)
      connections := eraseName s.connections x.name++[(x.name, s.nextConnId)] } :
        TcpServer).InvBut (some s.nextConnId) ∧
    ∀ k f, f ∈ s.tasks k → f.conn ≠ s.nextConnId := by
  have hnew : s.conns s.nextConnId = none := by
    cases hc : s.conns s.nextConnId with
    | none => rfl
    | some z => exact absurd (h.made _ z hc) (lt_irrefl _)
  have hne {d : ℕ} {z : ServedConnection} (hz : s.conns d = some z) : d ≠ s.nextConnId :=
    (h.made d z hz).ne
  have htasks (k : ℕ) (f : PendingFunctor) (hf : f ∈ s.tasks k) : f.conn ≠ s.nextConnId := by
    obtain ⟨z, hz⟩ := h.known k f hf
    exact hne hz
  have hactive (k d : ℕ) (hd : d ∈ s.active k) : d ≠ s.nextConnId := by
    obtain ⟨z, hz⟩ := h.activeKnown k d hd
    exact hne hz
  -- No entry of the table has the new name.
  have herase : eraseName s.connections x.name = s.connections := by
    refine List.filter_eq_self.mpr (fun e he => ?_)
    obtain ⟨z, hz, hn⟩ := h.table e.1 e.2 he
    have hlt := h.made e.2 z hz
    have hbound := h.bound
    rw [hn, (h.concerns e.2 z hz).name, hx]
    exact decide_eq_true (fun heq => hlt.ne (connName_inj (hlt.trans hbound) hbound heq))
  refine ⟨?_, htasks⟩
  rw [herase]
  generalize hs' : ({ s with
      next := next
      nextConnId := s.nextConnId+1
      conns := Function.update s.conns s.nextConnId (some x)
      connections := s.connections++[(x.name, s.nextConnId)] } : TcpServer) = s'
  have hconns : s'.conns = Function.update s.conns s.nextConnId (some x) := by rw [← hs']
  have hlisted (d : ℕ) : s'.Listed d ↔ s.Listed d ∨ d = s.nextConnId := by
    rw [← hs']
    simp [Listed]
  have hrefs (d : ℕ) (hd : d ≠ s.nextConnId) : d ∈ s'.references → d ∈ s.references := by
    rw [mem_references, mem_references, hlisted]
    rintro ((hl | hl) | hl)
    · exact .inl hl
    · exact absurd hl hd
    · rw [← hs'] at hl
      exact .inr hl
  have hsame (d : ℕ) (hd : d ≠ s.nextConnId) : SameFor s s' d := by
    refine ⟨⟨?_, ?_, (hlisted d).trans (or_iff_left hd), ?_, ?_, hrefs d hd⟩, ?_⟩
    all_goals rw [← hs']
    · rfl
    · exact fun _ _ _ => le_rfl
    · exact fun _ hk => hk
    · exact fun _ _ _ hf => hf
  have hconn {d : ℕ} {z : ServedConnection} (hz : s'.conns d = some z) :
      (d = s.nextConnId ∧ z = x) ∨ (d ≠ s.nextConnId ∧ s.conns d = some z) := by
    rw [hconns] at hz
    by_cases hd : d = s.nextConnId
    · subst hd
      rw [Function.update_self] at hz
      exact .inl ⟨rfl, (Option.some.inj hz).symm⟩
    · rw [Function.update_of_ne hd] at hz
      exact .inr ⟨hd, hz⟩
  have hold {d : ℕ} (hd : ∃ z, s.conns d = some z) : ∃ z, s'.conns d = some z := by
    obtain ⟨z, hz⟩ := hd
    exact ⟨z, by rw [hconns, Function.update_of_ne (hne hz), hz]⟩
  refine ⟨?_, ?_, ?_, ?_, ?_, ?_, ?_, ?_, ?_, ?_, ?_⟩
  · intro d z hz
    rcases hconn hz with ⟨rfl, rfl⟩ | ⟨hd, hz⟩
    · have hnone (k : ℕ) (f : PendingFunctor) (hf : f.conn = s.nextConnId) : f ∉ s'.tasks k := by
        rw [← hs']
        exact fun hmem => htasks k f hmem hf
      refine ⟨?_, ?_, fun k hk => absurd hk (hnone k _ rfl), fun k => ?_,
        fun k hk => absurd hk (hnone k _ rfl), fun k hk => absurd hk (hnone k _ rfl),
        fun k hk => ?_, fun hdestroyed => ?_⟩
      · rw [← hs', hx]
        exact hloop
      · rw [← hs', hx]
        rfl
      · rw [List.count_eq_zero.mpr (hnone k _ rfl)]
        exact Nat.zero_le 1
      · rw [← hs'] at hk
        exact absurd rfl (hactive k _ hk)
      · rw [hx] at hdestroyed
        cases hdestroyed
    · exact (h.concerns d z hz).frame (hsame d hd).toFewerFor
  · intro d z hz hd
    rcases hconn hz with ⟨rfl, rfl⟩ | ⟨hne', hz⟩
    · exact absurd rfl hd
    · exact (h.stage d z hz ne_none).frame (hsame d hne').listed (hsame d hne').kept
  · intro d z hz
    have hsucc : s'.nextConnId = s.nextConnId+1 := by rw [← hs']
    rcases hconn hz with ⟨rfl, rfl⟩ | ⟨-, hz⟩
    · omega
    · have hlt := h.made d z hz
      omega
  · rw [← hs']
    change s.nextConnId+1 < 2^31
    omega
  · rw [← hs']
    exact hnext
  · intro n d hmem
    rw [← hs'] at hmem
    rcases List.mem_append.mp hmem with hmem | hmem
    · obtain ⟨z, hz, hn⟩ := h.table n d hmem
      exact ⟨z, by rw [hconns, Function.update_of_ne (hne hz), hz], hn⟩
    · obtain ⟨rfl, rfl⟩ := Prod.mk.inj (List.mem_singleton.mp hmem)
      exact ⟨x, by rw [hconns, Function.update_self], rfl⟩
  · intro k f hf
    rw [← hs'] at hf
    exact hold (h.known k f hf)
  · intro k d hd
    rw [← hs'] at hd
    exact hold (h.activeKnown k d hd)
  · rw [← hs']
    exact h.batch
  · intro d d' z z' hz hz' hz₁ hz₂ heq
    have hxfd : x.channel.fd = fd := by rw [hx]
    rcases hconn hz with ⟨hd, rfl⟩ | ⟨-, hz⟩
    · rcases hconn hz' with ⟨hd', -⟩ | ⟨-, hz'⟩
      · exact hd.trans hd'.symm
      · exact absurd (heq.symm.trans hxfd) (fd_ne_of_not_inUse h hfd hz' hz₂)
    · rcases hconn hz' with ⟨-, rfl⟩ | ⟨-, hz'⟩
      · exact absurd (heq.trans hxfd) (fd_ne_of_not_inUse h hfd hz hz₁)
      · exact h.unique d d' z z' hz hz' hz₁ hz₂ heq
  · intro k
    have hloops : s'.loops = s.loops := by rw [← hs']
    rw [hloops]
    by_cases hk : k = x.loop
    · have hchannel : s'.channelOf k =
          Function.update (s.channelOf k) s.nextConnId (some x.channel) := by
        funext d
        unfold channelOf
        rw [hconns]
        by_cases hd : d = s.nextConnId
        · simp [hd, hk, Option.filter_some]
        · simp [hd]
      rw [hchannel]
      refine (h.mirrors k).insert_new ?_ (by rw [hx])
      simp [channelOf, hnew]
    · have hchannel : s'.channelOf k = s.channelOf k := by
        funext d
        unfold channelOf
        rw [hconns]
        by_cases hd : d = s.nextConnId
        · simp [hd, hnew, Option.filter_some, Ne.symm hk]
        · simp [hd]
      rw [hchannel]
      exact h.mirrors k

theorem fresh_new {loop : ℕ} {name : Bytes} :
    ({ loop := loop, name := name, channel := { fd := fd } } : ServedConnection).Fresh :=
  ⟨rfl, rfl, rfl, rfl, rfl, ⟨fun hfile => absurd rfl hfile, fun hbuffer => absurd rfl hbuffer⟩⟩

theorem Inv.newConnection (h : s.Inv) (hfd : s.fdInUse fd = false)
    (hid : s.nextConnId < 2^31-1) : (s.newConnection fd).Inv := by
  obtain ⟨hloop, next, hpicked, hnext⟩ := getNextLoop_spec h
  obtain ⟨x, hx⟩ : ∃ x : ServedConnection, x =
      { loop := s.getNextLoop.1, name := s.connName s.nextConnId, channel := { fd := fd } } :=
    ⟨_, rfl⟩
  obtain ⟨hbut, htasks⟩ := h.insert hfd hid hloop hnext hx
  have hfresh : x.Fresh := hx ▸ fresh_new
  generalize hs' : ({ s with
      next := next
      nextConnId := s.nextConnId+1
      conns := Function.update s.conns s.nextConnId (some x)
      connections := eraseName s.connections x.name++[(x.name, s.nextConnId)] } :
        TcpServer) = s' at hbut
  have hnew : s.newConnection fd = s'.runInLoop 0 x.loop (.connectEstablished s.nextConnId) := by
    rw [← hs', hx]
    simp only [TcpServer.newConnection, hpicked]
  have hconn : s'.conns s.nextConnId = some x := by
    rw [← hs']
    exact Function.update_self ..
  have hlisted : s'.Listed s.nextConnId := by
    rw [← hs']
    simp [Listed]
  have hnone (k : ℕ) : .connectEstablished s.nextConnId ∉ s'.tasks k := by
    rw [← hs']
    exact fun hmem => htasks k _ hmem rfl
  rw [hnew, runInLoop]
  split_ifs
  · exact hbut.connectEstablished hconn hfresh hlisted hnone
  · refine hbut.queueInLoop rfl hconn (hbut.alive_of_referenced hconn
      (mem_references.mpr (.inl hlisted))) (fun _ => ⟨rfl, hfresh.state, hnone⟩)
      (fun h => PendingFunctor.noConfusion h) (fun h => PendingFunctor.noConfusion h)
      (.connecting hfresh hlisted ?_)
    rw [queueInLoop_tasks, if_pos rfl]
    exact List.mem_append_right _ List.mem_cons_self

end Accepting

section Steps

variable {s' : TcpServer} {e : TcpServerEvent}

/-- The events of a loop are those of its own connections, which are referenced. -/
theorem InvBut.active_spec {exempt : Option ℕ} (h : s.InvBut exempt) (hc : c ∈ s.active k) :
    ∃ x, s.conns c = some x ∧ k = x.loop ∧ x.channel.index ≠ .kNew := by
  obtain ⟨x, hx⟩ := h.activeKnown k c hc
  obtain ⟨hloop, hindex⟩ := (h.concerns c x hx).active k hc
  exact ⟨x, hx, hloop, hindex⟩

theorem Inv.task_loop_le (h : s.Inv) {f : PendingFunctor} (hf : f ∈ s.tasks k) :
    k ≤ s.numThreads := by
  obtain ⟨x, hx⟩ := h.known k f hf
  have hconcerns := h.concerns f.conn x hx
  cases f with
  | connectEstablished c => exact (hconcerns.established k hf).1 ▸ hconcerns.loop_le
  | removeConnectionInLoop c => exact (hconcerns.removal k hf).1 ▸ Nat.zero_le _
  | connectDestroyed c => exact (hconcerns.destroyal k hf).1 ▸ hconcerns.loop_le

theorem Inv.takeCallback {callback : ChannelCallback} {taken : ℕ × TcpServer} (h : s.Inv)
    (htaken : s.takeCallback k callback = some taken) : taken.2.Inv ∧
      ∃ x, taken.2.conns taken.1 = some x ∧ x.channel.index ≠ .kNew := by
  unfold TcpServer.takeCallback at htaken
  split at htaken
  · next c next callbacks active hphase =>
    split_ifs at htaken
    obtain rfl := Option.some.inj htaken
    have hactive : c ∈ s.active k := by
      rw [TcpServer.active, hphase]
      exact List.mem_cons_self
    obtain ⟨x, hx, -, hindex⟩ := h.active_spec hactive
    refine ⟨h.setPhase ?_ ?_ ?_ nofun, x, hx, hindex⟩
    · rw [hphase]
      rfl
    · rw [TcpServer.active, hphase]
      exact fun d hd => hd
    · intro d hd
      rw [List.mem_singleton.mp hd]
      exact h.referenced_of_index hx ne_none hindex
  · cases htaken

theorem Inv.handleRead {thread : ℕ} (h : s.Inv) (hx : s.conns c = some x)
    (hindex : x.channel.index ≠ .kNew) (result : ReadResult) :
    (s.handleRead thread c result).Inv := by
  cases result with
  | received ops =>
    unfold TcpServer.handleRead
    clear hx hindex
    induction ops generalizing s with
    | nil => exact h
    | cons op ops ih => exact ih (h.operate c op)
  | closed => exact h.handleClose hx hindex thread
  | failed => exact h

theorem Inv.poll {ready : List (ℕ × EpollEvents)} (h : s.Inv) (hphase : (s.loops k).phase = .polling) :
    (s.setLoop k { s.loops k with
      phase := .dispatching ((s.loops k).poller.poll ready).2
      poller := ((s.loops k).poller.poll ready).1 }).Inv := by
  refine h.setLoop ?_ ?_ ?_ nofun ?_
  · rw [tasks, hphase]
    rfl
  · intro d hd
    obtain ⟨⟨d', revents⟩, hmem, rfl⟩ := List.mem_map.mp hd
    obtain ⟨event, -, hentry⟩ := List.mem_filterMap.mp hmem
    obtain ⟨entry, hinterest, heq⟩ := Option.map_eq_some_iff.mp hentry
    obtain ⟨rfl, -⟩ := Prod.mk.inj heq
    obtain ⟨channel, hchannel, -, hadded, -⟩ :=
      ((h.mirrors k).interest event.1 entry.1 entry.2).mp hinterest
    obtain ⟨x, hx, hloop, rfl⟩ := channelOf_eq_some hchannel
    exact .inr ⟨x, hx, hloop, by rw [hadded]; exact ChannelIndex.noConfusion⟩
  · intro hk d hd
    rcases List.mem_append.mp hd with hd | hd
    · exact mem_references.mpr (.inr (.inl ⟨k, hk, List.mem_append_left _ hd⟩))
    · cases hd
  · have hmirrors := h.mirrors k
    unfold EPollPoller.poll
    split_ifs
    · exact ⟨hmirrors.channels, hmirrors.interest, hmirrors.failures⟩
    · exact hmirrors

theorem Inv.step (h : s.Inv) (hs : s.Step e s') : s'.Inv := by
  unfold Step nextStep at hs
  cases e with
  | accept fd =>
    dsimp only at hs
    split at hs
    · split_ifs at hs with hfd
      obtain rfl := Option.some.inj hs
      exact h.newConnection hfd.1 hfd.2
    · cases hs
  | poll k ready =>
    dsimp only at hs
    split_ifs at hs with hready
    obtain rfl := Option.some.inj hs
    exact h.poll hready.2.1
  | handleEvent k =>
    dsimp only at hs
    split at hs
    · next c revents active hphase =>
      have hactive : c ∈ s.active k := by
        rw [TcpServer.active, hphase]
        exact List.mem_cons_self
      have hrest : ∀ d ∈ active.map Prod.fst, d ∈ s.active k := by
        intro d hd
        rw [TcpServer.active, hphase]
        exact List.mem_cons_of_mem _ hd
      obtain ⟨x, hx, -, hindex⟩ := h.active_spec hactive
      rw [hx] at hs
      dsimp only at hs
      split_ifs at hs
      · obtain rfl := Option.some.inj hs
        exact h.setPhase (by rw [hphase]; rfl) hrest (fun d hd => by cases hd) nofun
      · obtain rfl := Option.some.inj hs
        refine h.setPhase (by rw [hphase]; rfl) ?_ ?_ nofun
        · intro d hd
          rcases List.mem_cons.mp hd with rfl | hd
          · exact hactive
          · exact hrest d hd
        · intro d hd
          rw [List.mem_singleton.mp hd]
          exact h.referenced_of_index hx ne_none hindex
    · cases hs
  | handleClose k =>
    obtain ⟨taken, htaken, rfl⟩ := Option.map_eq_some_iff.mp hs
    obtain ⟨hinv, x, hx, hindex⟩ := h.takeCallback htaken
    exact hinv.handleClose hx hindex k
  | handleError k =>
    obtain ⟨taken, htaken, rfl⟩ := Option.map_eq_some_iff.mp hs
    exact (h.takeCallback htaken).1
  | handleRead k result =>
    obtain ⟨taken, htaken, rfl⟩ := Option.map_eq_some_iff.mp hs
    obtain ⟨hinv, x, hx, hindex⟩ := h.takeCallback htaken
    exact hinv.handleRead hx hindex result
  | handleWrite k written sent =>
    obtain ⟨taken, htaken, rfl⟩ := Option.map_eq_some_iff.mp hs
    exact (h.takeCallback htaken).1.operate taken.1 _
  | handled k =>
    dsimp only at hs
    split at hs
    · next c active hphase =>
      obtain rfl := Option.some.inj hs
      refine h.setPhase (by rw [hphase]; rfl) ?_ (fun d hd => by cases hd) nofun
      intro d hd
      rw [TcpServer.active, hphase]
      exact List.mem_cons_of_mem _ hd
    · cases hs
  | doPendingFunctors k =>
    dsimp only at hs
    split at hs
    · next hphase =>
      obtain rfl := Option.some.inj hs
      refine h.setLoop ?_ (fun d hd => by cases hd) ?_ ?_ (h.mirrors k)
      · rw [tasks, hphase]
        exact List.append_nil _
      · intro hk d hd
        exact mem_references.mpr (.inr (.inl ⟨k, hk, List.mem_append_left _ hd⟩))
      · intro functors todo heq
        cases heq
        exact fun f hf => hf
    · cases hs
  | runFunctor k =>
    dsimp only at hs
    split at hs
    · next functors functor todo hphase =>
      obtain rfl := Option.some.inj hs
      refine h.runFunctor (h.task_loop_le (f := functor) ?_) hphase
      rw [setPhase_tasks_cons hphase]
      exact List.mem_cons_self
    · cases hs
  | finish k =>
    dsimp only at hs
    split at hs
    · next hphase =>
      obtain rfl := Option.some.inj hs
      exact h.setPhase (by rw [hphase]; rfl) (fun d hd => by cases hd) (fun d hd => by cases hd)
        nofun
    · cases hs
  | respond c op =>
    dsimp only at hs
    split at hs
    · cases hs
    · split at hs
      · split_ifs at hs
        obtain rfl := Option.some.inj hs
        exact h.operate c op
      · cases hs
  | hold c =>
    dsimp only at hs
    split_ifs at hs with href
    obtain rfl := Option.some.inj hs
    refine h.setHolders (fun d hd => ?_)
    rcases List.mem_append.mp hd with hd | hd
    · exact mem_references.mpr (.inr (.inr hd))
    · rw [List.mem_singleton.mp hd]
      exact href
  | release c =>
    dsimp only at hs
    split_ifs at hs
    obtain rfl := Option.some.inj hs
    exact h.setHolders (fun d hd => mem_references.mpr (.inr (.inr (List.mem_of_mem_erase hd))))
  | destroy c =>
    dsimp only at hs
    split at hs
    · cases hs
    · next x hx =>
      split_ifs at hs with hgone
      obtain rfl := Option.some.inj hs
      exact h.destroy hx hgone.1 hgone.2

end Steps

/-- A server that listens and has no connection yet. -/
def started (name : Bytes) (ipPort : InetAddress) (numThreads : ℕ) : TcpServer :=
  { name := name, ipPort := ipPort, numThreads := numThreads }

theorem inv_started (name : Bytes) (ipPort : InetAddress) (numThreads : ℕ) :
    (started name ipPort numThreads).Inv := by
  have hnone (c : ℕ) (x : ServedConnection) :
      (started name ipPort numThreads).conns c ≠ some x := Option.some_ne_none x |>.symm
  refine ⟨fun c x hx => absurd hx (hnone c x), fun c x hx => absurd hx (hnone c x),
    fun c x hx => absurd hx (hnone c x), ?_, fun h => Nat.pos_of_ne_zero h,
    fun n c hmem => absurd hmem List.not_mem_nil, fun k f hmem => absurd hmem List.not_mem_nil,
    fun k c hmem => absurd hmem List.not_mem_nil, fun k functors todo h => LoopPhase.noConfusion h,
    fun c _ x _ hx => absurd hx (hnone c x), fun k => EPollPoller.mirrors_nil⟩
  change 1 < 2^31
  decide

theorem inv_run {name : Bytes} {ipPort : InetAddress} {numThreads : ℕ}
    {es : List TcpServerEvent} (hr : Run Step (started name ipPort numThreads) es s) : s.Inv :=
  hr.invariant (fun _ _ _ h hs => Inv.step h hs) (inv_started name ipPort numThreads)

end JingjieAR.TcpServer
