import JingjieAR.TcpServers

/-! The stages of a connection. It is connecting until its loop runs `connectEstablished`, and
then open until it is closed; then the base loop takes it out of the table and its loop out of the
poller, each as soon as the functor comes to its turn. -/
namespace JingjieAR

/-- The events that an open connection is watched for. -/
def watched (writing : Bool) : EpollEvents :=
  if writing then Channel.kReadEvent ||| Channel.kWriteEvent else Channel.kReadEvent

namespace ServedConnection

structure Fresh (x : ServedConnection) : Prop where
  state : x.output.state = .kConnecting
  writing : x.output.writing = false
  events : x.channel.events = Channel.kNoneEvent
  index : x.channel.index = .kNew
  reports : x.reports = []
  registered : x.output.Registered

structure Opened (x : ServedConnection) : Prop where
  state : x.output.state = .kConnected ∨ x.output.state = .kDisconnecting
  events : x.channel.events = watched x.output.writing
  index : x.channel.index = .kAdded
  tied : x.channel.tied = true
  reports : x.reports = [true]
  registered : x.output.Registered

/-- The callback has been told once that the connection is up, and then that it is down. -/
structure Closed (x : ServedConnection) : Prop where
  state : x.output.state = .kDisconnected
  writing : x.output.writing = false
  events : x.channel.events = Channel.kNoneEvent
  tied : x.channel.tied = true
  reports : ∃ n, x.reports = true :: List.replicate (n+1) false

end ServedConnection

namespace TcpServer

inductive Stage (s : TcpServer) (c : ℕ) (x : ServedConnection) : Prop
  | connecting (h : x.Fresh) (listed : s.Listed c)
      (task : .connectEstablished c ∈ s.tasks x.loop)
  | opened (h : x.Opened) (listed : s.Listed c)
  | closing (h : x.Closed) (listed : s.Listed c) (index : x.channel.index ≠ .kNew)
      (task : .removeConnectionInLoop c ∈ s.tasks 0)
  | removed (h : x.Closed) (unlisted : ¬s.Listed c)
      (task : .connectDestroyed c ∈ s.tasks x.loop)
  | gone (h : x.Closed) (unlisted : ¬s.Listed c) (index : x.channel.index = .kNew)

/-- What the functors, the events and the references that concern a connection say about it. -/
structure Concerns (s : TcpServer) (c : ℕ) (x : ServedConnection) : Prop where
  loop_le : x.loop ≤ s.numThreads
  name : x.name = s.connName c
  established : ∀ k, .connectEstablished c ∈ s.tasks k →
    k = x.loop ∧ x.output.state = .kConnecting
  once : ∀ k, (s.tasks k).count (.connectEstablished c) ≤ 1
  removal : ∀ k, .removeConnectionInLoop c ∈ s.tasks k →
    k = 0 ∧ x.output.state = .kDisconnected
  destroyal : ∀ k, .connectDestroyed c ∈ s.tasks k →
    k = x.loop ∧ x.output.state = .kDisconnected ∧ ¬s.Listed c
  active : ∀ k, c ∈ s.active k → k = x.loop ∧ x.channel.index ≠ .kNew
  alive : x.destroyed = true → c ∉ s.references

/-- The invariant, but for the stage of a connection for which a functor is being called. -/
structure InvBut (s : TcpServer) (exempt : Option ℕ) : Prop where
  concerns : ∀ c x, s.conns c = some x → s.Concerns c x
  stage : ∀ c x, s.conns c = some x → exempt ≠ some c → s.Stage c x
  made : ∀ c x, s.conns c = some x → c < s.nextConnId
  bound : s.nextConnId < 2^31
  turn : s.numThreads ≠ 0 → s.next < s.numThreads
  table : ∀ n c, (n, c) ∈ s.connections → ∃ x, s.conns c = some x ∧ n = x.name
  known : ∀ k f, f ∈ s.tasks k → ∃ x, s.conns f.conn = some x
  activeKnown : ∀ k, ∀ c ∈ s.active k, ∃ x, s.conns c = some x
  batch : ∀ k functors todo, (s.loops k).phase = .running functors todo → todo ⊆ functors
  unique : ∀ c c' x x', s.conns c = some x → s.conns c' = some x' → x.destroyed = false →
    x'.destroyed = false → x.channel.fd = x'.channel.fd → c = c'
  mirrors : ∀ k, (s.loops k).poller.Mirrors (s.channelOf k)

abbrev Inv (s : TcpServer) : Prop := s.InvBut none

/-- Nothing that concerns the connection has been added. -/
structure FewerFor (s s' : TcpServer) (c : ℕ) : Prop where
  numThreads : s'.numThreads = s.numThreads
  name : s'.connName c = s.connName c
  listed : s'.Listed c ↔ s.Listed c
  tasks : ∀ k f, f.conn = c → (s'.tasks k).count f ≤ (s.tasks k).count f
  active : ∀ k, c ∈ s'.active k → c ∈ s.active k
  references : c ∈ s'.references → c ∈ s.references

/-- And none of its functors has gone. -/
structure SameFor (s s' : TcpServer) (c : ℕ) : Prop extends FewerFor s s' c where
  kept : ∀ k f, f.conn = c → f ∈ s.tasks k → f ∈ s'.tasks k

section Frames

variable {s s' : TcpServer} {c : ℕ} {x : ServedConnection} {exempt : Option ℕ}

theorem FewerFor.mem_tasks (h : FewerFor s s' c) {k : ℕ} {f : PendingFunctor}
    (hf : f.conn = c) (hmem : f ∈ s'.tasks k) : f ∈ s.tasks k := by
  rw [← List.count_pos_iff] at hmem ⊢
  exact hmem.trans_le (h.tasks k f hf)

theorem Stage.fresh_of_connecting (h : s.Stage c x) (hstate : x.output.state = .kConnecting) :
    x.Fresh ∧ s.Listed c := by
  cases h with
  | connecting hfresh listed _ => exact ⟨hfresh, listed⟩
  | opened ho _ =>
    rcases ho.state with hopen | hopen
    all_goals
      rw [hopen] at hstate
      cases hstate
  | closing hc _ _ _ | removed hc _ _ | gone hc _ _ =>
    rw [hc.state] at hstate
    cases hstate

theorem Stage.closed_of_disconnected (h : s.Stage c x)
    (hstate : x.output.state = .kDisconnected) : x.Closed := by
  cases h with
  | connecting hfresh _ _ =>
    rw [hfresh.state] at hstate
    cases hstate
  | opened ho _ =>
    rcases ho.state with hopen | hopen
    all_goals
      rw [hopen] at hstate
      cases hstate
  | closing hc _ _ _ => exact hc
  | removed hc _ _ => exact hc
  | gone hc _ _ => exact hc

theorem Stage.frame (h : s.Stage c x) (hlisted : s'.Listed c ↔ s.Listed c)
    (hkept : ∀ k f, f.conn = c → f ∈ s.tasks k → f ∈ s'.tasks k) : s'.Stage c x := by
  cases h with
  | connecting hx listed task =>
    exact .connecting hx (hlisted.mpr listed) (hkept _ _ rfl task)
  | opened hx listed => exact .opened hx (hlisted.mpr listed)
  | closing hx listed index task =>
    exact .closing hx (hlisted.mpr listed) index (hkept _ _ rfl task)
  | removed hx unlisted task =>
    exact .removed hx (hlisted.not.mpr unlisted) (hkept _ _ rfl task)
  | gone hx unlisted index => exact .gone hx (hlisted.not.mpr unlisted) index

theorem Concerns.frame (h : s.Concerns c x) (hs : FewerFor s s' c) : s'.Concerns c x where
  loop_le := hs.numThreads ▸ h.loop_le
  name := hs.name ▸ h.name
  established := fun k hk => h.established k (hs.mem_tasks rfl hk)
  once := fun k => (hs.tasks k (.connectEstablished c) rfl).trans (h.once k)
  removal := fun k hk => h.removal k (hs.mem_tasks rfl hk)
  destroyal := by
    intro k hk
    obtain ⟨hloop, hstate, hlisted⟩ := h.destroyal k (hs.mem_tasks rfl hk)
    exact ⟨hloop, hstate, hs.listed.not.mpr hlisted⟩
  active := fun k hk => h.active k (hs.active k hk)
  alive := fun hd hmem => h.alive hd (hs.references hmem)

/-- The connection itself has changed, in a way that its functors and events allow. -/
theorem Concerns.change {y : ServedConnection} (h : s.Concerns c x) (hloop : y.loop = x.loop)
    (hname : y.name = x.name) (halive : y.destroyed = true → c ∉ s.references)
    (hconnecting : ∀ k, .connectEstablished c ∈ s.tasks k → y.output.state = .kConnecting)
    (hdisconnected : x.output.state = .kDisconnected → y.output.state = .kDisconnected)
    (hindex : ∀ k, c ∈ s.active k → y.channel.index ≠ .kNew) : s.Concerns c y where
  loop_le := hloop ▸ h.loop_le
  name := hname.trans h.name
  established := fun k hk => ⟨hloop ▸ (h.established k hk).1, hconnecting k hk⟩
  once := h.once
  removal := fun k hk => ⟨(h.removal k hk).1, hdisconnected (h.removal k hk).2⟩
  destroyal := by
    intro k hk
    obtain ⟨hk', hstate, hlisted⟩ := h.destroyal k hk
    exact ⟨hloop ▸ hk', hdisconnected hstate, hlisted⟩
  active := fun k hk => ⟨hloop ▸ (h.active k hk).1, hindex k hk⟩
  alive := halive

/-- A functor that a loop has still to call holds a reference. -/
theorem InvBut.referenced_of_task (h : s.InvBut exempt) {k : ℕ} {f : PendingFunctor}
    (hk : k ≤ s.numThreads) (hf : f ∈ s.tasks k) : f.conn ∈ s.references := by
  refine mem_references.mpr (.inr (.inl ⟨k, hk, ?_⟩))
  unfold tasks at hf
  unfold ServedLoop.references
  rcases List.mem_append.mp hf with hf | hf
  · cases hphase : (s.loops k).phase with
    | running functors todo =>
      rw [hphase] at hf
      exact List.mem_append_right _ (List.mem_map_of_mem (h.batch k functors todo hphase hf))
    | polling => rw [hphase] at hf; cases hf
    | dispatching active => rw [hphase] at hf; cases hf
    | handling conn callbacks active => rw [hphase] at hf; cases hf
  · exact List.mem_append_left _ (List.mem_map_of_mem hf)

/-- Every connection that the poller knows is referenced. -/
theorem InvBut.referenced_of_index (h : s.InvBut exempt) (hx : s.conns c = some x)
    (hexempt : exempt ≠ some c) (hindex : x.channel.index ≠ .kNew) : c ∈ s.references := by
  cases h.stage c x hx hexempt with
  | connecting hfresh _ _ => exact absurd hfresh.index hindex
  | opened _ listed => exact mem_references.mpr (.inl listed)
  | closing _ listed _ _ => exact mem_references.mpr (.inl listed)
  | removed _ _ task => exact h.referenced_of_task (h.concerns c x hx).loop_le task
  | gone _ _ index => exact absurd index hindex

theorem InvBut.alive_of_referenced (h : s.InvBut exempt) (hx : s.conns c = some x)
    (href : c ∈ s.references) : x.destroyed = false := by
  cases hd : x.destroyed with
  | false => rfl
  | true => exact absurd href ((h.concerns c x hx).alive hd)

theorem channelOf_loop (hx : s.conns c = some x) :
    s.channelOf x.loop c = some x.channel := by
  simp [channelOf, hx, Option.filter_some]

theorem channelOf_eq_some {k : ℕ} {channel : Channel} (h : s.channelOf k c = some channel) :
    ∃ x, s.conns c = some x ∧ x.loop = k ∧ x.channel = channel := by
  obtain ⟨x, hx, hchannel⟩ := Option.map_eq_some_iff.mp h
  obtain ⟨hconn, hloop⟩ := Option.filter_eq_some_iff.mp hx
  exact ⟨x, hconn, of_decide_eq_true hloop, hchannel⟩

/-- No other connection that is in use has the descriptor. -/
theorem InvBut.channels_eq_none (h : s.InvBut exempt) (hx : s.conns c = some x)
    (hexempt : ∀ d, d ≠ c → exempt ≠ some d) (hd : x.destroyed = false)
    (hindex : x.channel.index = .kNew) (k : ℕ) :
    (s.loops k).poller.channels x.channel.fd = none := by
  cases hother : (s.loops k).poller.channels x.channel.fd with
  | none => rfl
  | some other =>
    obtain ⟨channel, hchannel, hfd, hne⟩ := ((h.mirrors k).channels _ _).mp hother
    obtain ⟨y, hy, -, rfl⟩ := channelOf_eq_some hchannel
    by_cases heq : other = c
    · subst heq
      rw [hx] at hy
      cases hy
      exact absurd hindex hne
    · have halive := h.alive_of_referenced hy
        (h.referenced_of_index hy (hexempt other heq) hne)
      exact absurd (h.unique other c y x hy hx halive hd hfd) heq

/-- A connection has changed, and the poller of its loop has followed. -/
theorem InvBut.follow {y : ServedConnection} {p : EPollPoller} {exempt' : Option ℕ}
    (h : s.InvBut exempt) (hx : s.conns c = some x) (hloop : y.loop = x.loop)
    (hfd : y.channel.fd = x.channel.fd) (hlive : y.destroyed = false → x.destroyed = false)
    (hexempt : ∀ d, d ≠ c → exempt' ≠ some d → exempt ≠ some d) (hconcerns : s.Concerns c y)
    (hstage : exempt' ≠ some c → s.Stage c y)
    (hp : p.Mirrors (Function.update (s.channelOf x.loop) c (some y.channel))) :
    (s.follow c y p).InvBut exempt' := by
  have hsame (d : ℕ) : SameFor s (s.follow c y p) d :=
    ⟨⟨rfl, rfl, Iff.rfl, fun k f _ => by rw [follow_tasks],
      fun k hk => by rwa [follow_active] at hk, fun hd => by rwa [follow_references] at hd⟩,
      fun k f _ hf => by rwa [follow_tasks]⟩
  have hconn {d : ℕ} {z : ServedConnection} (hz : (s.follow c y p).conns d = some z) :
      (d = c ∧ z = y) ∨ (d ≠ c ∧ s.conns d = some z) := by
    by_cases hd : d = c
    · subst hd
      rw [follow_conns_self] at hz
      exact .inl ⟨rfl, (Option.some.inj hz).symm⟩
    · exact .inr ⟨hd, by rwa [follow_conns_of_ne hd] at hz⟩
  have hexists {d : ℕ} (hd : ∃ z, s.conns d = some z) :
      ∃ z, (s.follow c y p).conns d = some z := by
    by_cases heq : d = c
    · subst heq
      exact ⟨y, follow_conns_self⟩
    · rwa [follow_conns_of_ne heq]
  refine ⟨?_, ?_, ?_, h.bound, h.turn, ?_, ?_, ?_, ?_, ?_, ?_⟩
  · intro d z hz
    rcases hconn hz with ⟨rfl, rfl⟩ | ⟨-, hz⟩
    · exact hconcerns.frame (hsame d).toFewerFor
    · exact (h.concerns d z hz).frame (hsame d).toFewerFor
  · intro d z hz hd
    rcases hconn hz with ⟨rfl, rfl⟩ | ⟨hne, hz⟩
    · exact (hstage hd).frame (hsame d).listed (hsame d).kept
    · exact (h.stage d z hz (hexempt d hne hd)).frame (hsame d).listed (hsame d).kept
  · intro d z hz
    rcases hconn hz with ⟨rfl, rfl⟩ | ⟨-, hz⟩
    · exact h.made d x hx
    · exact h.made d z hz
  · intro n d hd
    obtain ⟨z, hz, hn⟩ := h.table n d hd
    by_cases heq : d = c
    · subst heq
      rw [hx] at hz
      cases hz
      refine ⟨y, follow_conns_self, ?_⟩
      rw [hn, hconcerns.name, (h.concerns d x hx).name]
    · exact ⟨z, by rwa [follow_conns_of_ne heq], hn⟩
  · intro k f hf
    rw [follow_tasks] at hf
    exact hexists (h.known k f hf)
  · intro k d hd
    rw [follow_active] at hd
    exact hexists (h.activeKnown k d hd)
  · intro k functors todo hphase
    rw [follow_phase] at hphase
    exact h.batch k functors todo hphase
  · intro d d' z z' hz hz' hz₁ hz₂ heq
    rcases hconn hz with ⟨hd, hy⟩ | ⟨-, hold⟩
    · rcases hconn hz' with ⟨hd', -⟩ | ⟨-, hold'⟩
      · exact hd.trans hd'.symm
      · subst hd hy
        exact h.unique _ _ _ _ hx hold' (hlive hz₁) hz₂ (hfd ▸ heq)
    · rcases hconn hz' with ⟨hd', hy⟩ | ⟨-, hold'⟩
      · subst hd' hy
        exact h.unique _ _ _ _ hold hx hz₁ (hlive hz₂) (heq.trans hfd)
      · exact h.unique _ _ _ _ hold hold' hz₁ hz₂ heq
  · intro k
    by_cases hk : k = y.loop
    · subst hk
      rw [follow_poller, follow_channelOf_self, hloop]
      exact hp
    · rw [follow_poller_of_ne hk, follow_channelOf_of_ne hx hloop.symm hk]
      exact h.mirrors k

/-- The connections are as before; each has kept its functors, or its stage is given anew. -/
theorem InvBut.rebuild {exempt' : Option ℕ} (h : s.InvBut exempt) (hconns : s'.conns = s.conns)
    (hid : s'.nextConnId = s.nextConnId) (hnum : s'.numThreads = s.numThreads)
    (hnext : s'.next = s.next) (htable : ∀ e ∈ s'.connections, e ∈ s.connections)
    (hbatch : ∀ k functors todo, (s'.loops k).phase = .running functors todo → todo ⊆ functors)
    (hmirrors : ∀ k, (s'.loops k).poller.Mirrors (s.channelOf k))
    (hcases : ∀ d, (SameFor s s' d ∧ (exempt' ≠ some d → exempt ≠ some d)) ∨
      ∃ x, s.conns d = some x ∧ s'.Concerns d x ∧ (exempt' ≠ some d → s'.Stage d x)) :
    s'.InvBut exempt' := by
  refine ⟨?_, ?_, ?_, ?_, ?_, ?_, ?_, ?_, hbatch, ?_, ?_⟩
  · intro d z hz
    rw [hconns] at hz
    rcases hcases d with ⟨hsame, -⟩ | ⟨y, hy, hconcerns, -⟩
    · exact (h.concerns d z hz).frame hsame.toFewerFor
    · rw [hz] at hy
      cases hy
      exact hconcerns
  · intro d z hz hd
    rw [hconns] at hz
    rcases hcases d with ⟨hsame, hexempt⟩ | ⟨y, hy, -, hstage⟩
    · exact (h.stage d z hz (hexempt hd)).frame hsame.listed hsame.kept
    · rw [hz] at hy
      cases hy
      exact hstage hd
  · intro d z hz
    rw [hconns] at hz
    exact hid ▸ h.made d z hz
  · exact hid ▸ h.bound
  · rw [hnum, hnext]
    exact h.turn
  · intro n d hd
    rw [hconns]
    exact h.table n d (htable _ hd)
  · intro k f hf
    rw [hconns]
    rcases hcases f.conn with ⟨hsame, -⟩ | ⟨y, hy, -⟩
    · exact h.known k f (hsame.mem_tasks rfl hf)
    · exact ⟨y, hy⟩
  · intro k d hd
    rw [hconns]
    rcases hcases d with ⟨hsame, -⟩ | ⟨y, hy, -⟩
    · exact h.activeKnown k d (hsame.active k hd)
    · exact ⟨y, hy⟩
  · rw [hconns]
    exact h.unique
  · intro k
    have hchannel : s'.channelOf k = s.channelOf k := by
      unfold channelOf
      rw [hconns]
    rw [hchannel]
    exact hmirrors k

end Frames

end TcpServer

end JingjieAR
