import JingjieAR.TcpServerRuns
import Mathlib.Data.Int.CardIntervalMod

/-! What the invariant says of the runs of a server: the kernel watches what the connections ask
for, nothing is called on a connection that is gone, and the connections go round the loops. -/
namespace JingjieAR.TcpServer

open Runs

variable {name : Bytes} {ipPort : InetAddress} {numThreads : ℕ} {es : List TcpServerEvent}
  {s : TcpServer} {c k : ℕ} {x : ServedConnection}

def loopback : InetAddress where
  ip := (127, 0, 0, 1)
  port := 8080

/-- The base loop accepts a connection, and the other loop establishes it. -/
def acceptedEvents : List TcpServerEvent :=
  [.poll 0 [], .accept 7, .doPendingFunctors 0, .finish 0, .poll 1 [], .doPendingFunctors 1,
    .runFunctor 1, .finish 1]

theorem acceptedEvents_run : ∃ s x, Run Step (started [] loopback 1) acceptedEvents s ∧
    s.conns 1 = some x ∧ x.output.state = .kConnected := by
  have hconnected : ((replay (fun _ _ => True) nextStep (started [] loopback 1)
      acceptedEvents).bind (fun s => s.conns 1)).any (fun x => x.output.state = .kConnected) =
      true := by decide
  obtain ⟨x, hbound, hstate⟩ := (Option.any_eq_true _ _).mp hconnected
  obtain ⟨s, hs, hx⟩ := Option.bind_eq_some_iff.mp hbound
  exact ⟨s, x, (run_of_replay hs).unguarded, hx, of_decide_eq_true hstate⟩

/-- Every interest list holds the channels of its loop that are added, with their events, and no
call of `epoll_ctl` fails. -/
theorem epoll_follows (hr : Run Step (started name ipPort numThreads) es s) (k : ℕ) :
    (s.loops k).poller.failures = [] ∧
      ∀ fd c events, (s.loops k).poller.interest fd = some (c, events) ↔
        ∃ x, s.conns c = some x ∧ x.loop = k ∧ x.channel.fd = fd ∧ x.channel.index = .kAdded ∧
          x.channel.events = events := by
  have hmirrors := (inv_run hr).mirrors k
  refine ⟨hmirrors.failures, fun fd c events => ?_⟩
  rw [hmirrors.interest]
  constructor
  · rintro ⟨channel, hchannel, hfd, hadded, hevents⟩
    obtain ⟨x, hx, hloop, rfl⟩ := channelOf_eq_some hchannel
    exact ⟨x, hx, hloop, hfd, hadded, hevents⟩
  · rintro ⟨x, hx, rfl, hfd, hadded, hevents⟩
    exact ⟨x.channel, channelOf_loop hx, hfd, hadded, hevents⟩

theorem epoll_follows_accepted : ∃ s, Run Step (started [] loopback 1) acceptedEvents s ∧
    (s.loops 1).poller.failures = [] := by
  obtain ⟨s, _, hr, -, -⟩ := acceptedEvents_run
  exact ⟨s, hr, (epoll_follows hr 1).1⟩

theorem Inv.opened_of_state (h : s.Inv) (hx : s.conns c = some x)
    (hopen : x.output.state = .kConnected ∨ x.output.state = .kDisconnecting) :
    x.Opened ∧ s.Listed c := by
  have hne : x.output.state ≠ .kConnecting ∧ x.output.state ≠ .kDisconnected := by
    rcases hopen with hst | hst <;> rw [hst] <;> exact ⟨StateE.noConfusion, StateE.noConfusion⟩
  cases h.stage c x hx ne_none with
  | connecting hfresh _ _ => exact absurd hfresh.state hne.1
  | opened ho listed => exact ⟨ho, listed⟩
  | closing hc _ _ _ => exact absurd hc.state hne.2
  | removed hc _ _ => exact absurd hc.state hne.2
  | gone hc _ _ => exact absurd hc.state hne.2

/-- Its own loop watches an open connection for reading, and for writing while output waits. -/
theorem opened_watched (hr : Run Step (started name ipPort numThreads) es s)
    (hx : s.conns c = some x)
    (hopen : x.output.state = .kConnected ∨ x.output.state = .kDisconnecting) :
    (s.loops x.loop).poller.interest x.channel.fd = some (c, watched x.output.writing) ∧
      (x.output.outputBuffer ≠ [] ∨ x.output.pendingFile.fd ≠ none → x.output.writing = true) := by
  have hinv := inv_run hr
  obtain ⟨hopened, -⟩ := hinv.opened_of_state hx hopen
  constructor
  · exact ((hinv.mirrors x.loop).interest _ _ _).mpr
      ⟨x.channel, channelOf_loop hx, rfl, hopened.index, hopened.events⟩
  · rintro (hbuffer | hfile)
    · exact hopened.registered.buffer hbuffer
    · exact hopened.registered.file hfile

theorem opened_watched_accepted : ∃ (s : TcpServer) (x : ServedConnection),
    Run Step (started [] loopback 1) acceptedEvents s ∧
    (s.loops x.loop).poller.interest x.channel.fd = some (1, watched x.output.writing) := by
  obtain ⟨s, x, hr, hx, hconnected⟩ := acceptedEvents_run
  exact ⟨s, x, hr, (opened_watched hr hx (.inl hconnected)).1⟩

/-- A connection that the kernel knows, whose events are handled or to be handled, or that a
functor is to be called for, is referenced and so not destroyed; and only its own loop handles
its events, after `connectEstablished`. -/
theorem alive_of_reachable (hr : Run Step (started name ipPort numThreads) es s) (c : ℕ) :
    (∀ k fd events, (s.loops k).poller.interest fd = some (c, events) →
      ∃ x, s.conns c = some x ∧ c ∈ s.references ∧ x.destroyed = false) ∧
    (∀ k f, f ∈ s.tasks k → f.conn = c →
      ∃ x, s.conns c = some x ∧ c ∈ s.references ∧ x.destroyed = false) ∧
    ∀ k, c ∈ s.active k → ∃ x, s.conns c = some x ∧ c ∈ s.references ∧ x.destroyed = false ∧
      x.loop = k ∧ x.output.state ≠ .kConnecting := by
  have hinv := inv_run hr
  have hreferenced {x : ServedConnection} (hx : s.conns c = some x) (href : c ∈ s.references) :
      ∃ x, s.conns c = some x ∧ c ∈ s.references ∧ x.destroyed = false :=
    ⟨x, hx, href, hinv.alive_of_referenced hx href⟩
  refine ⟨?_, ?_, ?_⟩
  · intro k fd events hinterest
    obtain ⟨x, hx, -, -, hadded, -⟩ := ((epoll_follows hr k).2 fd c events).mp hinterest
    have hindex : x.channel.index ≠ .kNew := by
      rw [hadded]
      exact ChannelIndex.noConfusion
    exact hreferenced hx (hinv.referenced_of_index hx ne_none hindex)
  · rintro k f hf rfl
    obtain ⟨x, hx⟩ := hinv.known k f hf
    exact hreferenced hx (hinv.referenced_of_task (hinv.task_loop_le hf) hf)
  · intro k hactive
    obtain ⟨x, hx, hloop, hindex⟩ := hinv.active_spec hactive
    have href := hinv.referenced_of_index hx ne_none hindex
    refine ⟨x, hx, href, hinv.alive_of_referenced hx href, hloop.symm, fun hstate => ?_⟩
    exact hindex ((hinv.stage c x hx ne_none).fresh_of_connecting hstate).1.index

theorem alive_of_accepted : ∃ s, Run Step (started [] loopback 1) acceptedEvents s ∧
    ∀ k fd events, (s.loops k).poller.interest fd = some (1, events) →
      ∃ x, s.conns 1 = some x ∧ 1 ∈ s.references ∧ x.destroyed = false := by
  obtain ⟨s, _, hr, -, -⟩ := acceptedEvents_run
  exact ⟨s, hr, (alive_of_reachable hr 1).1⟩

/-- The connection callback is told that the connection is up, once and first, and that it is down
when it has been closed. A connection that is out of the table is closed. -/
theorem reports_of_reachable (hr : Run Step (started name ipPort numThreads) es s)
    (hx : s.conns c = some x) :
    (x.output.state = .kConnecting ∧ x.reports = [] ∧ s.Listed c) ∨
    ((x.output.state = .kConnected ∨ x.output.state = .kDisconnecting) ∧ x.reports = [true] ∧
      s.Listed c) ∨
    (x.output.state = .kDisconnected ∧ ∃ n, x.reports = true :: List.replicate (n+1) false) := by
  cases (inv_run hr).stage c x hx ne_none with
  | connecting hfresh listed _ => exact .inl ⟨hfresh.state, hfresh.reports, listed⟩
  | opened ho listed => exact .inr (.inl ⟨ho.state, ho.reports, listed⟩)
  | closing hc _ _ _ => exact .inr (.inr ⟨hc.state, hc.reports⟩)
  | removed hc _ _ => exact .inr (.inr ⟨hc.state, hc.reports⟩)
  | gone hc _ _ => exact .inr (.inr ⟨hc.state, hc.reports⟩)

theorem reports_of_accepted : ∃ (s : TcpServer) (x : ServedConnection),
    Run Step (started [] loopback 1) acceptedEvents s ∧ x.reports = [true] ∧ s.Listed 1 := by
  obtain ⟨s, x, hr, hx, hconnected⟩ := acceptedEvents_run
  rcases reports_of_reachable hr hx with ⟨hstate, -, -⟩ | ⟨-, hreports, hlisted⟩ | ⟨hstate, -⟩
  · rw [hconnected] at hstate
    cases hstate
  · exact ⟨s, x, hr, hreports, hlisted⟩
  · rw [hconnected] at hstate
    cases hstate

section Placement

/-- What a call on a connection leaves alone: the turn of the loops, their phases and functors, and
the places of the connections. -/
structure Retains (s s' : TcpServer) : Prop where
  numThreads : s'.numThreads = s.numThreads
  next : s'.next = s.next
  nextConnId : s'.nextConnId = s.nextConnId
  holders : s'.holders = s.holders
  lives : ∀ c, (s'.conns c).map (fun x => (x.loop, x.destroyed)) =
    (s.conns c).map (fun x => (x.loop, x.destroyed))
  phase : ∀ k, (s'.loops k).phase = (s.loops k).phase
  functors : ∀ k, (s'.loops k).pendingFunctors = (s.loops k).pendingFunctors

variable {s' s'' : TcpServer}

theorem Retains.refl (s : TcpServer) : Retains s s :=
  ⟨rfl, rfl, rfl, rfl, fun _ => rfl, fun _ => rfl, fun _ => rfl⟩

theorem Retains.trans (h : Retains s s') (h' : Retains s' s'') : Retains s s'' :=
  ⟨h'.numThreads.trans h.numThreads, h'.next.trans h.next, h'.nextConnId.trans h.nextConnId,
    h'.holders.trans h.holders, fun c => (h'.lives c).trans (h.lives c),
    fun k => (h'.phase k).trans (h.phase k), fun k => (h'.functors k).trans (h.functors k)⟩

theorem retains_modifyConn {f : ServedConnection → ServedConnection}
    (hf : ∀ x, ((f x).loop, (f x).destroyed) = (x.loop, x.destroyed)) :
    Retains s (s.modifyConn c f) := by
  refine ⟨rfl, rfl, rfl, rfl, fun d => ?_, fun _ => rfl, fun _ => rfl⟩
  unfold modifyConn
  by_cases hd : d = c
  · subst hd
    cases s.conns d <;> simp [hf]
  · simp [hd]

theorem retains_setPoller {p : EPollPoller} :
    Retains s (s.setLoop k { s.loops k with poller := p }) := by
  refine ⟨rfl, rfl, rfl, rfl, fun _ => rfl, fun j => ?_, fun j => ?_⟩
  · by_cases hj : j = k
    · rw [hj, setLoop_loops_self]
    · rw [setLoop_loops_of_ne _ _ hj]
  · by_cases hj : j = k
    · rw [hj, setLoop_loops_self]
    · rw [setLoop_loops_of_ne _ _ hj]

theorem retains_updateChannel {f : Channel → Channel} : Retains s (s.updateChannel c f) := by
  unfold updateChannel
  split
  · exact .refl s
  · exact retains_setPoller.trans (retains_modifyConn (by intro; rfl))

theorem retains_removeChannel : Retains s (s.removeChannel c) := by
  unfold removeChannel
  split
  · exact .refl s
  · exact retains_setPoller.trans (retains_modifyConn (by intro; rfl))

theorem retains_connectEstablished : Retains s (s.connectEstablished c) :=
  ((retains_modifyConn (by intro; rfl)).trans retains_updateChannel).trans
    (retains_modifyConn (by intro; rfl))

theorem retains_disconnect : Retains s (s.disconnect c) :=
  ((retains_modifyConn (by intro; rfl)).trans retains_updateChannel).trans
    (retains_modifyConn (by intro; rfl))

theorem retains_connectDestroyed : Retains s (s.connectDestroyed c) := by
  unfold connectDestroyed
  split_ifs
  · exact retains_disconnect.trans retains_removeChannel
  · exact (retains_modifyConn (by intro; rfl)).trans retains_removeChannel

theorem retains_operate (op : OutputOp) : Retains s (s.operate c op) := by
  unfold operate
  split
  · exact .refl s
  · dsimp only
    split_ifs
    · exact retains_modifyConn (by intro; rfl)
    · exact (retains_modifyConn (by intro; rfl)).trans retains_updateChannel
    · exact (retains_modifyConn (by intro; rfl)).trans retains_updateChannel

theorem retains_received (ops : List OutputOp) :
    Retains s (ops.foldl (fun s op => s.operate c op) s) := by
  induction ops generalizing s with
  | nil => exact .refl s
  | cons op ops ih => exact (retains_operate op).trans ih

/-- What only `newConnection` changes: the turn of the loops, and the loops of the connections. -/
structure SamePlaces (s s' : TcpServer) : Prop where
  numThreads : s'.numThreads = s.numThreads
  next : s'.next = s.next
  nextConnId : s'.nextConnId = s.nextConnId
  loop : ∀ c, (s'.conns c).map ServedConnection.loop = (s.conns c).map ServedConnection.loop

theorem SamePlaces.trans (h : SamePlaces s s') (h' : SamePlaces s' s'') : SamePlaces s s'' :=
  ⟨h'.numThreads.trans h.numThreads, h'.next.trans h.next, h'.nextConnId.trans h.nextConnId,
    fun c => (h'.loop c).trans (h.loop c)⟩

theorem Retains.samePlaces (h : Retains s s') : SamePlaces s s' := by
  refine ⟨h.numThreads, h.next, h.nextConnId, fun c => ?_⟩
  have hlives := congrArg (Option.map Prod.fst) (h.lives c)
  rw [Option.map_map, Option.map_map] at hlives
  exact hlives

theorem samePlaces_removeConnectionInLoop : SamePlaces s (s.removeConnectionInLoop c) := by
  unfold removeConnectionInLoop
  split
  · exact (Retains.refl s).samePlaces
  · exact ⟨rfl, rfl, rfl, fun _ => rfl⟩

theorem samePlaces_execute (f : PendingFunctor) : SamePlaces s (s.execute f) := by
  cases f with
  | connectEstablished c => exact retains_connectEstablished.samePlaces
  | removeConnectionInLoop c => exact samePlaces_removeConnectionInLoop
  | connectDestroyed c => exact retains_connectDestroyed.samePlaces

theorem samePlaces_runInLoop {thread : ℕ} (f : PendingFunctor) :
    SamePlaces s (s.runInLoop thread k f) := by
  unfold runInLoop
  split_ifs
  · exact samePlaces_execute f
  · exact ⟨rfl, rfl, rfl, fun _ => rfl⟩

theorem samePlaces_handleRead {thread : ℕ} (result : ReadResult) :
    SamePlaces s (s.handleRead thread c result) := by
  cases result with
  | received ops => exact (retains_received ops).samePlaces
  | closed => exact retains_disconnect.samePlaces.trans (samePlaces_runInLoop _)
  | failed => exact (Retains.refl s).samePlaces

theorem samePlaces_takeCallback {callback : ChannelCallback} {taken : ℕ × TcpServer}
    (h : s.takeCallback k callback = some taken) : SamePlaces s taken.2 := by
  unfold takeCallback at h
  split at h
  · split_ifs at h
    obtain rfl := Option.some.inj h
    exact ⟨rfl, rfl, rfl, fun _ => rfl⟩
  · cases h

/-- Every step keeps the places, but for `accept`. -/
theorem samePlaces_step {e : TcpServerEvent} (hs : s.Step e s') :
    SamePlaces s s' ∨ ∃ fd, s.nextConnId < 2^31-1 ∧ s' = s.newConnection fd := by
  unfold Step nextStep at hs
  cases e with
  | accept fd =>
    dsimp only at hs
    split at hs
    · split_ifs at hs with hfd
      exact .inr ⟨fd, hfd.2, (Option.some.inj hs).symm⟩
    · cases hs
  | handleClose k =>
    obtain ⟨taken, htaken, rfl⟩ := Option.map_eq_some_iff.mp hs
    exact .inl (((samePlaces_takeCallback htaken).trans retains_disconnect.samePlaces).trans
      (samePlaces_runInLoop _))
  | handleError k =>
    obtain ⟨taken, htaken, rfl⟩ := Option.map_eq_some_iff.mp hs
    exact .inl (samePlaces_takeCallback htaken)
  | handleRead k result =>
    obtain ⟨taken, htaken, rfl⟩ := Option.map_eq_some_iff.mp hs
    exact .inl ((samePlaces_takeCallback htaken).trans (samePlaces_handleRead result))
  | handleWrite k written sent =>
    obtain ⟨taken, htaken, rfl⟩ := Option.map_eq_some_iff.mp hs
    exact .inl ((samePlaces_takeCallback htaken).trans (retains_operate _).samePlaces)
  | runFunctor k =>
    dsimp only at hs
    split at hs
    · obtain rfl := Option.some.inj hs
      exact .inl ((show SamePlaces s (s.setPhase _ _) from ⟨rfl, rfl, rfl, fun _ => rfl⟩).trans
        (samePlaces_execute _))
    · cases hs
  | respond c op =>
    dsimp only at hs
    split at hs
    · cases hs
    · split at hs
      · split_ifs at hs
        obtain rfl := Option.some.inj hs
        exact .inl (retains_operate op).samePlaces
      · cases hs
  | destroy c =>
    dsimp only at hs
    split at hs
    · cases hs
    · split_ifs at hs
      obtain rfl := Option.some.inj hs
      refine .inl ⟨rfl, rfl, rfl, fun d => ?_⟩
      unfold destroy modifyConn
      by_cases hd : d = c
      · subst hd
        cases s.conns d <;> simp
      · simp [hd]
  | poll k ready =>
    dsimp only at hs
    split_ifs at hs
    obtain rfl := Option.some.inj hs
    exact .inl ⟨rfl, rfl, rfl, fun _ => rfl⟩
  | hold c =>
    dsimp only at hs
    split_ifs at hs
    obtain rfl := Option.some.inj hs
    exact .inl ⟨rfl, rfl, rfl, fun _ => rfl⟩
  | release c =>
    dsimp only at hs
    split_ifs at hs
    obtain rfl := Option.some.inj hs
    exact .inl ⟨rfl, rfl, rfl, fun _ => rfl⟩
  | handleEvent k =>
    dsimp only at hs
    split at hs
    · split at hs
      · cases hs
      · split_ifs at hs
        all_goals
          obtain rfl := Option.some.inj hs
          exact .inl ⟨rfl, rfl, rfl, fun _ => rfl⟩
    · cases hs
  | handled k =>
    dsimp only at hs
    split at hs
    · obtain rfl := Option.some.inj hs
      exact .inl ⟨rfl, rfl, rfl, fun _ => rfl⟩
    · cases hs
  | doPendingFunctors k =>
    dsimp only at hs
    split at hs
    · obtain rfl := Option.some.inj hs
      exact .inl ⟨rfl, rfl, rfl, fun _ => rfl⟩
    · cases hs
  | finish k =>
    dsimp only at hs
    split at hs
    · obtain rfl := Option.some.inj hs
      exact .inl ⟨rfl, rfl, rfl, fun _ => rfl⟩
    · cases hs

/-- The loop whose turn it is after so many connections. -/
def turn (numThreads made : ℕ) : ℕ := if numThreads = 0 then 0 else made % numThreads+1

/-- The connections have gone round the loops, in the order of their numbers. -/
structure Placed (numThreads : ℕ) (s : TcpServer) : Prop where
  same : s.numThreads = numThreads
  pos : 0 < s.nextConnId
  next : s.numThreads ≠ 0 → s.next = (s.nextConnId-1) % s.numThreads
  loop : ∀ c, (s.conns c).map ServedConnection.loop =
    if 0 < c ∧ c < s.nextConnId then some (turn s.numThreads (c-1)) else none

theorem Placed.samePlaces (h : Placed numThreads s) (hs : SamePlaces s s') :
    Placed numThreads s' := by
  refine ⟨hs.numThreads.trans h.same, hs.nextConnId ▸ h.pos, ?_, fun c => ?_⟩
  · rw [hs.numThreads, hs.next, hs.nextConnId]
    exact h.next
  · rw [hs.loop, hs.numThreads, hs.nextConnId]
    exact h.loop c

theorem Placed.newConnection {fd : ℕ} (h : Placed numThreads s) :
    Placed numThreads (s.newConnection fd) := by
  have hpos := h.pos
  refine Placed.samePlaces ?_ (samePlaces_runInLoop _)
  -- The new connection takes the turn; the others stay where they are.
  have hnew (c : ℕ) (x : ServedConnection) (hx : x.loop = turn s.numThreads (s.nextConnId-1)) :
      (Function.update s.conns s.nextConnId (some x) c).map ServedConnection.loop =
        if 0 < c ∧ c < s.nextConnId+1 then some (turn s.numThreads (c-1)) else none := by
    by_cases hc : c = s.nextConnId
    · subst hc
      rw [Function.update_self, Option.map_some, hx, if_pos ⟨hpos, Nat.lt_succ_self _⟩]
    · rw [Function.update_of_ne hc, h.loop]
      by_cases hlt : 0 < c ∧ c < s.nextConnId
      · rw [if_pos hlt, if_pos ⟨hlt.1, by omega⟩]
      · rw [if_neg hlt, if_neg (by omega)]
  unfold getNextLoop
  split_ifs with hzero hlast
  · refine ⟨h.same, Nat.succ_pos _, fun hne => absurd hzero hne, fun c => hnew c _ ?_⟩
    rw [turn, if_pos hzero]
  · have hnext := h.next hzero
    have hlt := Nat.mod_lt (s.nextConnId-1) (Nat.pos_of_ne_zero hzero)
    have hdiv := Nat.div_add_mod (s.nextConnId-1) s.numThreads
    have hsucc : s.nextConnId+1-1 = s.numThreads*((s.nextConnId-1)/s.numThreads+1) := by
      rw [Nat.mul_add]
      omega
    refine ⟨h.same, Nat.succ_pos _, fun _ => ?_, fun c => hnew c _ ?_⟩
    · -- The last loop of the pool was picked.
      change 0 = (s.nextConnId+1-1) % s.numThreads
      rw [hsucc, Nat.mul_mod_right]
    · rw [turn, if_neg hzero, ← hnext]
  · have hnext := h.next hzero
    have hlt : (s.nextConnId-1) % s.numThreads+1 < s.numThreads := by omega
    have hsucc : s.nextConnId+1-1 = s.nextConnId-1+1 := by omega
    have hmod : (s.nextConnId-1+1) % s.numThreads = (s.nextConnId-1) % s.numThreads+1 := by
      rw [Nat.add_mod, Nat.mod_eq_of_lt (show 1 < s.numThreads by omega), Nat.mod_eq_of_lt hlt]
    refine ⟨h.same, Nat.succ_pos _, fun _ => ?_, fun c => hnew c _ ?_⟩
    · change s.next+1 = (s.nextConnId+1-1) % s.numThreads
      rw [hsucc, hnext, hmod]
    · rw [turn, if_neg hzero, ← hnext]

theorem placed_run (hr : Run Step (started name ipPort numThreads) es s) :
    Placed numThreads s := by
  have hstep (s : TcpServer) (e : TcpServerEvent) (s' : TcpServer) (h : Placed numThreads s)
      (hs : s.Step e s') : Placed numThreads s' := by
    rcases samePlaces_step hs with hsame | ⟨fd, -, rfl⟩
    · exact h.samePlaces hsame
    · exact h.newConnection
  refine hr.invariant hstep ⟨rfl, Nat.zero_lt_one, fun _ => (Nat.zero_mod _).symm, fun c => ?_⟩
  change none = if 0 < c ∧ c < 1 then _ else none
  rw [if_neg (by omega)]

/-- How many connections the loop has been given. -/
def served (s : TcpServer) (k : ℕ) : ℕ :=
  Nat.count (fun c => (s.conns c).any (fun x => x.loop = k) = true) s.nextConnId

theorem Placed.served_eq (h : Placed numThreads s) (hk : 0 < k) (hle : k ≤ numThreads) :
    s.served k = Nat.count (fun j => j ≡ k-1 [MOD numThreads]) (s.nextConnId-1) := by
  have hpos := h.pos
  have hzero : (s.conns 0).any (fun x => x.loop = k) = false := by
    have hloop := h.loop 0
    rw [if_neg (by omega), Option.map_eq_none_iff] at hloop
    rw [hloop, Option.any_none]
  have hany (j : ℕ) (hj : j < s.nextConnId-1) :
      (s.conns (1+j)).any (fun x => x.loop = k) = true ↔ j ≡ k-1 [MOD numThreads] := by
    have hloop := h.loop (1+j)
    rw [if_pos (by omega), Nat.add_sub_cancel_left, turn, h.same, if_neg (by omega)] at hloop
    obtain ⟨x, hx, hxloop⟩ := Option.map_eq_some_iff.mp hloop
    have hmod : (k-1) % numThreads = k-1 := Nat.mod_eq_of_lt (by omega)
    rw [hx, Option.any_some, decide_eq_true_eq, hxloop, Nat.ModEq, hmod]
    omega
  have hsplit : s.nextConnId = 1+(s.nextConnId-1) := by omega
  unfold served
  rw [hsplit, Nat.count_add, Nat.count_one, hzero, if_neg Bool.false_ne_true, Nat.zero_add,
    Nat.add_sub_cancel_left, Nat.count_eq_card_filter_range, Nat.count_eq_card_filter_range]
  refine congrArg Finset.card (Finset.filter_congr (fun j hj => hany j ?_))
  exact Finset.mem_range.mp hj

/-- The connections go round the loops of the pool, so that of two loops none has been given two
connections more than the other. -/
theorem round_robin (hr : Run Step (started name ipPort numThreads) es s) :
    (∀ c x, s.conns c = some x → x.loop = turn numThreads (c-1)) ∧
      ∀ k k', 0 < k → k ≤ numThreads → 0 < k' → k' ≤ numThreads →
        s.served k ≤ s.served k'+1 := by
  have hplaced := placed_run hr
  constructor
  · intro c x hx
    have hloop := hplaced.loop c
    rw [hx, Option.map_some, hplaced.same] at hloop
    split_ifs at hloop
    exact Option.some.inj hloop
  · intro k k' hk hle hk' hle'
    have hthreads : 0 < numThreads := hk.trans_le hle
    rw [hplaced.served_eq hk hle, hplaced.served_eq hk' hle',
      Nat.count_modEq_card _ hthreads, Nat.count_modEq_card _ hthreads]
    split_ifs <;> omega

theorem round_robin_accepted : ∃ s x, Run Step (started [] loopback 1) acceptedEvents s ∧
    s.conns 1 = some x ∧ x.loop = turn 1 0 := by
  obtain ⟨s, x, hr, hx, -⟩ := acceptedEvents_run
  exact ⟨s, x, hr, hx, (round_robin hr).1 1 x hx⟩

end Placement

end JingjieAR.TcpServer
