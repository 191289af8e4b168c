import JingjieAR.EPollPollers
import JingjieAR.TcpConnectionRegistered
import JingjieAR.TcpServerNames

/-! What the operations on a connection do: they change this connection and the poller of its
loop. The functors that a loop has still to call are its tasks. -/
namespace JingjieAR

def LoopPhase.todo : LoopPhase → List PendingFunctor
  | .running _ todo => todo
  | _ => []

/-- The connections that are being handled, or are to be handled. -/
def LoopPhase.active : LoopPhase → List ℕ
  | .dispatching active => active.map Prod.fst
  | .handling conn _ active => conn :: active.map Prod.fst
  | _ => []

namespace TcpServer

def tasks (s : TcpServer) (k : ℕ) : List PendingFunctor :=
  (s.loops k).phase.todo++(s.loops k).pendingFunctors

def active (s : TcpServer) (k : ℕ) : List ℕ := (s.loops k).phase.active

/-- The connection is in the table. -/
def Listed (s : TcpServer) (c : ℕ) : Prop := c ∈ s.connections.map Prod.snd

/-- The channels of the loop. -/
def channelOf (s : TcpServer) (k c : ℕ) : Option Channel :=
  ((s.conns c).filter (fun x => x.loop = k)).map ServedConnection.channel

/-- The connection has changed, and with it the poller of its loop. -/
def follow (s : TcpServer) (c : ℕ) (x : ServedConnection) (p : EPollPoller) : TcpServer :=
  { s with
    conns := Function.update s.conns c (some x)
    loops := Function.update s.loops x.loop { s.loops x.loop with poller := p } }

section Follow

variable {s : TcpServer} {c : ℕ} {x : ServedConnection} {p : EPollPoller}

@[simp] theorem follow_conns_self : (s.follow c x p).conns c = some x :=
  Function.update_self ..

theorem follow_conns_of_ne {d : ℕ} (hd : d ≠ c) : (s.follow c x p).conns d = s.conns d :=
  Function.update_of_ne hd ..

@[simp] theorem follow_poller : ((s.follow c x p).loops x.loop).poller = p := by
  simp [follow]

theorem follow_self (hx : s.conns c = some x) : s.follow c x (s.loops x.loop).poller = s := by
  unfold follow
  rw [← hx, Function.update_eq_self, Function.update_eq_self]

theorem follow_modifyConn {f : ServedConnection → ServedConnection} (hf : (f x).loop = x.loop) :
    (s.follow c x p).modifyConn c f = s.follow c (f x) p := by
  unfold follow modifyConn
  simp only [hf, Function.update_self, Function.update_idem, Option.map_some]

theorem follow_updateChannel {f : Channel → Channel} : (s.follow c x p).updateChannel c f =
    s.follow c { x with
      channel := (p.updateChannel c (f x.channel)).2
      output := { x.output with writing := (p.updateChannel c (f x.channel)).2.isWriting } }
        (p.updateChannel c (f x.channel)).1 := by
  simp only [updateChannel, follow_conns_self, follow_poller]
  simp only [follow, setLoop, modifyConn, Function.update_self, Function.update_idem,
    Option.map_some]

theorem follow_removeChannel : (s.follow c x p).removeChannel c =
    s.follow c { x with channel := (p.removeChannel c x.channel).2 }
      (p.removeChannel c x.channel).1 := by
  simp only [removeChannel, follow_conns_self, follow_poller]
  simp only [follow, setLoop, modifyConn, Function.update_self, Function.update_idem,
    Option.map_some]

theorem follow_report : (s.follow c x p).report c =
    s.follow c { x with reports := x.reports++[x.output.connected] } p :=
  follow_modifyConn rfl

theorem connectEstablished_eq (hx : s.conns c = some x) :
    let r := (s.loops x.loop).poller.updateChannel c x.channel.tie.enableReading
    s.connectEstablished c = s.follow c { x with
      channel := r.2
      output := { x.output with state := .kConnected, writing := r.2.isWriting }
      reports := x.reports++[true] } r.1 := by
  intro r
  conv_lhs => rw [← follow_self hx]
  unfold connectEstablished
  rw [follow_modifyConn rfl, follow_updateChannel, follow_report]
  rfl

theorem disconnect_eq (hx : s.conns c = some x) :
    let r := (s.loops x.loop).poller.updateChannel c x.channel.disableAll
    s.disconnect c = s.follow c { x with
      channel := r.2
      output := { x.output.closePendingFile with
        state := .kDisconnected, writing := r.2.isWriting }
      reports := x.reports++[false] } r.1 := by
  intro r
  conv_lhs => rw [← follow_self hx]
  unfold disconnect
  rw [follow_modifyConn rfl, follow_updateChannel, follow_report]
  rfl

theorem connectDestroyed_eq (hx : s.conns c = some x) (hnot : x.output.connected = false) :
    s.connectDestroyed c = s.follow c { x with
      output := x.output.closePendingFile
      channel := { x.channel with index := .kNew } }
      ((s.loops x.loop).poller.removeChannel c x.channel).1 := by
  unfold connectDestroyed
  rw [hx, Option.any_some, hnot, if_neg Bool.false_ne_true]
  conv_lhs => rw [← follow_self hx]
  rw [follow_modifyConn rfl, follow_removeChannel]
  rfl

/-- A call that leaves `isWriting` alone does not reach the poller. -/
theorem operate_eq_of_same {op : OutputOp} (hx : s.conns c = some x)
    (hsame : (x.output.apply op).writing = x.output.writing) :
    s.operate c op = s.follow c { x with output := x.output.apply op }
      (s.loops x.loop).poller := by
  simp only [operate, hx, if_pos hsame]
  conv_lhs => rw [← follow_self hx]
  rw [follow_modifyConn rfl]

theorem operate_eq_of_changed {op : OutputOp} (hx : s.conns c = some x)
    (hchanged : (x.output.apply op).writing ≠ x.output.writing) :
    let channel := if (x.output.apply op).writing then x.channel.enableWriting
      else x.channel.disableWriting
    let r := (s.loops x.loop).poller.updateChannel c channel
    s.operate c op = s.follow c { x with
      channel := r.2
      output := { x.output.apply op with writing := r.2.isWriting } } r.1 := by
  intro channel r
  have hchannel : (if (x.output.apply op).writing then Channel.enableWriting
      else Channel.disableWriting) x.channel = channel := by
    cases hw : (x.output.apply op).writing <;> simp [channel, hw]
  simp only [operate, hx, if_neg hchanged]
  conv_lhs => rw [← follow_self hx]
  rw [follow_modifyConn rfl, follow_updateChannel]
  simp only [hchannel, r]

end Follow

section Projections

variable {s : TcpServer} {c d k j : ℕ} {x : ServedConnection} {p : EPollPoller}
  {phase : LoopPhase} {functor : PendingFunctor}

theorem mem_references : d ∈ s.references ↔
    s.Listed d ∨ (∃ k ≤ s.numThreads, d ∈ (s.loops k).references) ∨ d ∈ s.holders := by
  simp only [references, Listed, List.mem_append, List.mem_flatMap, List.mem_range,
    Nat.lt_succ_iff]

@[simp] theorem follow_tasks : (s.follow c x p).tasks k = s.tasks k := by
  unfold tasks follow
  by_cases hk : k = x.loop
  · subst hk
    simp
  · simp [hk]

@[simp] theorem follow_active : (s.follow c x p).active k = s.active k := by
  unfold active follow
  by_cases hk : k = x.loop
  · subst hk
    simp
  · simp [hk]

@[simp] theorem follow_listed : (s.follow c x p).Listed d ↔ s.Listed d := Iff.rfl

@[simp] theorem follow_references : (s.follow c x p).references = s.references := by
  have hloops (k : ℕ) : ((s.follow c x p).loops k).references = (s.loops k).references := by
    unfold ServedLoop.references follow
    by_cases hk : k = x.loop
    · subst hk
      simp
    · simp [hk]
  unfold references
  simp only [hloops]
  rfl

theorem follow_phase : ((s.follow c x p).loops k).phase = (s.loops k).phase := by
  unfold follow
  by_cases hk : k = x.loop
  · subst hk
    simp
  · simp [hk]

theorem follow_poller_of_ne (hk : k ≠ x.loop) :
    ((s.follow c x p).loops k).poller = (s.loops k).poller := by
  simp [follow, hk]

theorem follow_channelOf_self : (s.follow c x p).channelOf x.loop =
    Function.update (s.channelOf x.loop) c (some x.channel) := by
  funext d
  unfold channelOf follow
  by_cases hd : d = c
  · subst hd
    simp
  · simp [hd]

theorem follow_channelOf_of_ne {y : ServedConnection} (hy : s.conns c = some y)
    (hloop : y.loop = x.loop) (hk : k ≠ x.loop) :
    (s.follow c x p).channelOf k = s.channelOf k := by
  funext d
  unfold channelOf follow
  by_cases hd : d = c
  · subst hd
    simp [hy, hloop, Option.filter_some, Ne.symm hk]
  · simp [hd]

theorem setPhase_tasks : (s.setPhase k phase).tasks j =
    if j = k then phase.todo++(s.loops k).pendingFunctors else s.tasks j := by
  unfold tasks setPhase setLoop
  by_cases hj : j = k
  · subst hj
    simp
  · simp [hj]

theorem setPhase_active : (s.setPhase k phase).active j =
    if j = k then phase.active else s.active j := by
  unfold active setPhase setLoop
  by_cases hj : j = k
  · subst hj
    simp
  · simp [hj]

theorem references_setPhase (h : d ∈ (s.setPhase k phase).references) :
    d ∈ s.references ∨ d ∈ phase.references := by
  rw [mem_references] at h ⊢
  rcases h with h | ⟨j, hj, h⟩ | h
  · exact .inl (.inl h)
  · by_cases hjk : j = k
    · subst hjk
      rw [setPhase, setLoop_loops_self, ServedLoop.references, List.mem_append] at h
      rcases h with h | h
      · exact .inl (.inr (.inl ⟨j, hj, List.mem_append_left _ h⟩))
      · exact .inr h
    · rw [setPhase, setLoop_loops_of_ne _ _ hjk] at h
      exact .inl (.inr (.inl ⟨j, hj, h⟩))
  · exact .inl (.inr (.inr h))

@[simp] theorem queueInLoop_tasks : (s.queueInLoop k functor).tasks j =
    if j = k then s.tasks k++[functor] else s.tasks j := by
  unfold tasks queueInLoop setLoop
  by_cases hj : j = k
  · subst hj
    simp
  · simp [hj]

@[simp] theorem queueInLoop_active : (s.queueInLoop k functor).active j = s.active j := by
  unfold active queueInLoop setLoop
  by_cases hj : j = k
  · subst hj
    simp
  · simp [hj]

theorem queueInLoop_phase : ((s.queueInLoop k functor).loops j).phase = (s.loops j).phase := by
  unfold queueInLoop setLoop
  by_cases hj : j = k
  · subst hj
    simp
  · simp [hj]

theorem queueInLoop_poller :
    ((s.queueInLoop k functor).loops j).poller = (s.loops j).poller := by
  unfold queueInLoop setLoop
  by_cases hj : j = k
  · subst hj
    simp
  · simp [hj]

theorem references_queueInLoop (h : d ∈ (s.queueInLoop k functor).references) :
    d ∈ s.references ∨ d = functor.conn := by
  rw [mem_references] at h ⊢
  rcases h with h | ⟨j, hj, h⟩ | h
  · exact .inl (.inl h)
  · by_cases hjk : j = k
    · subst hjk
      simp only [ServedLoop.references, queueInLoop, setLoop, Function.update_self,
        List.map_append, List.map_cons, List.map_nil, List.append_assoc, List.mem_append,
        List.mem_singleton] at h
      rcases h with h | h | h
      · exact .inl (.inr (.inl ⟨j, hj, List.mem_append_left _ h⟩))
      · exact .inr h
      · exact .inl (.inr (.inl ⟨j, hj, List.mem_append_right _ h⟩))
    · simp only [queueInLoop, setLoop, Function.update_of_ne hjk] at h
      exact .inl (.inr (.inl ⟨j, hj, h⟩))
  · exact .inl (.inr (.inr h))

end Projections

end TcpServer

end JingjieAR
