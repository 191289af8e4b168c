import JingjieAR.TcpServerLifecycle
import Mathlib.Algebra.Order.BigOperators.Group.Finset
import Mathlib.Algebra.Group.Action.Defs

/-! What a server does when nothing comes from outside any more: the loops call what is queued,
references are dropped, and connections without references are destroyed. This comes to an end,
and then the closed connections are gone and the open ones are watched. -/
namespace JingjieAR

/-- A bound on the steps that a functor gives rise to. -/
def PendingFunctor.weight : PendingFunctor → ℕ
  | .connectEstablished _ => 1
  | .removeConnectionInLoop _ => 2
  | .connectDestroyed _ => 1

def LoopPhase.work : LoopPhase → ℕ
  | .polling => 0
  | .dispatching active => 14*active.length
  | .handling _ callbacks active => 1+3*callbacks.length+14*active.length
  | .running _ todo => (todo.map PendingFunctor.weight).sum

def ServedLoop.work (l : ServedLoop) : ℕ :=
  l.phase.work+(l.pendingFunctors.map PendingFunctor.weight).sum

/-- How far the loop is from its next call, or from waiting. -/
def ServedLoop.delay (l : ServedLoop) : ℕ :=
  match l.phase with
  | .polling => if l.pendingFunctors = [] then 0 else 3
  | .dispatching [] => if l.pendingFunctors = [] then 5 else 2
  | .dispatching (_ :: _) => 0
  | .handling _ _ _ => 0
  | .running _ [] => 4
  | .running _ (_ :: _) => 1

theorem ServedLoop.delay_le (l : ServedLoop) : l.delay ≤ 5 := by
  unfold delay
  split
  · split_ifs <;> omega
  · split_ifs <;> omega
  all_goals omega

namespace TcpServer

open Runs Finset

/-- The connections that are not destroyed. -/
def live (s : TcpServer) : ℕ :=
  ∑ c ∈ range s.nextConnId, if (s.conns c).any (fun x => !x.destroyed) then 1 else 0

def work (s : TcpServer) : ℕ :=
  ∑ k ∈ range (s.numThreads+1), (s.loops k).work+s.holders.length+s.live

def delay (s : TcpServer) : ℕ := ∑ k ∈ range (s.numThreads+1), (s.loops k).delay

/-- A bound on the steps that are left when nothing comes from outside. -/
def effort (s : TcpServer) : ℕ := s.work*(5*(s.numThreads+1)+1)+s.delay

/-- Nothing comes from outside: no connection is accepted, no descriptor is ready but that of the
wakeup for queued functors, and the application takes no further reference. -/
def Inside (s : TcpServer) : TcpServerEvent → Prop
  | .accept _ => False
  | .poll k ready => ready = [] ∧ (s.loops k).pendingFunctors ≠ []
  | .respond _ _ => False
  | .hold _ => False
  | _ => True

/-- Every loop waits, no reference is held outside and all that is not referenced is destroyed. -/
structure Settled (s : TcpServer) : Prop where
  loops : ∀ k ≤ s.numThreads, (s.loops k).phase = .polling ∧ (s.loops k).pendingFunctors = []
  holders : s.holders = []
  destroyed : ∀ c x, s.conns c = some x → c ∉ s.references → x.destroyed = true

variable {s s' : TcpServer} {c k : ℕ} {x : ServedConnection}

theorem sum_change (w w' : ℕ → ℕ) {n : ℕ} (hk : k < n) (hother : ∀ j, j ≠ k → w' j = w j) :
    ∑ j ∈ range n, w' j+w k = ∑ j ∈ range n, w j+w' k := by
  -- Only the summand of `k` changes.
  have hrest : ∑ j ∈ (range n).erase k, w' j = ∑ j ∈ (range n).erase k, w j :=
    sum_congr rfl (fun j hj => hother j (ne_of_mem_erase hj))
  rw [← add_sum_erase _ w' (mem_range.mpr hk), ← add_sum_erase _ w (mem_range.mpr hk), hrest]
  omega

theorem delay_le (s : TcpServer) : s.delay ≤ 5*(s.numThreads+1) := by
  have hsum := sum_le_card_nsmul (range (s.numThreads+1)) (fun k => (s.loops k).delay) 5
    (fun k _ => (s.loops k).delay_le)
  rw [card_range, smul_eq_mul] at hsum
  exact hsum.trans_eq (Nat.mul_comm _ _)

theorem effort_lt_of_work (hthreads : s'.numThreads = s.numThreads) (h : s'.work < s.work) :
    s'.effort < s.effort := by
  have hdelay := s'.delay_le
  unfold effort
  rw [hthreads] at hdelay ⊢
  calc s'.work*(5*(s.numThreads+1)+1)+s'.delay
      < s'.work*(5*(s.numThreads+1)+1)+(5*(s.numThreads+1)+1) := by omega
    _ = (s'.work+1)*(5*(s.numThreads+1)+1) := (Nat.succ_mul _ _).symm
    _ ≤ s.work*(5*(s.numThreads+1)+1) := Nat.mul_le_mul_right _ h
    _ ≤ s.work*(5*(s.numThreads+1)+1)+s.delay := Nat.le_add_right _ _

theorem effort_lt_of_delay (hthreads : s'.numThreads = s.numThreads) (h : s'.work = s.work)
    (hdelay : s'.delay < s.delay) : s'.effort < s.effort := by
  unfold effort
  rw [h, hthreads]
  omega

theorem work_retains (h : Retains s s') : s'.work = s.work := by
  have hloop (k : ℕ) : (s'.loops k).work = (s.loops k).work := by
    unfold ServedLoop.work
    rw [h.phase, h.functors]
  have hmap (o : Option ServedConnection) : o.any (fun x => !x.destroyed) =
      (o.map (fun x => (x.loop, x.destroyed))).any (fun place => !place.2) := by
    cases o <;> rfl
  have hlive (c : ℕ) : (s'.conns c).any (fun x => !x.destroyed) =
      (s.conns c).any (fun x => !x.destroyed) := by
    rw [hmap, hmap, h.lives]
  unfold work live
  rw [h.numThreads, h.holders, h.nextConnId]
  simp only [hloop, hlive]

theorem work_setLoop {l : ServedLoop} (hk : k ≤ s.numThreads) :
    (s.setLoop k l).work+(s.loops k).work = s.work+l.work := by
  have hsum := sum_change (fun j => (s.loops j).work)
    (fun j => ((s.setLoop k l).loops j).work) (n := s.numThreads+1) (Nat.lt_succ_of_le hk)
    (fun j hj => by rw [setLoop_loops_of_ne _ _ hj])
  simp only [setLoop_loops_self] at hsum
  have hnew : (s.setLoop k l).work = ∑ j ∈ range (s.numThreads+1),
    ((s.setLoop k l).loops j).work+s.holders.length+s.live := rfl
  have hold : s.work = ∑ j ∈ range (s.numThreads+1), (s.loops j).work+s.holders.length+s.live :=
    rfl
  omega

theorem delay_setLoop {l : ServedLoop} (hk : k ≤ s.numThreads) :
    (s.setLoop k l).delay+(s.loops k).delay = s.delay+l.delay := by
  have hsum := sum_change (fun j => (s.loops j).delay)
    (fun j => ((s.setLoop k l).loops j).delay) (n := s.numThreads+1)
    (Nat.lt_succ_of_le hk) (fun j hj => by rw [setLoop_loops_of_ne _ _ hj])
  simp only [setLoop_loops_self] at hsum
  exact hsum

theorem work_eq (l : ServedLoop) :
    l.work = l.phase.work+(l.pendingFunctors.map PendingFunctor.weight).sum := rfl

theorem work_setPhase (phase : LoopPhase) (hk : k ≤ s.numThreads) :
    (s.setPhase k phase).work+(s.loops k).phase.work = s.work+phase.work := by
  have hsum : (s.setPhase k phase).work+(s.loops k).work = s.work+
    (phase.work+((s.loops k).pendingFunctors.map PendingFunctor.weight).sum) := work_setLoop hk
  rw [work_eq] at hsum
  omega

theorem work_queueInLoop_le (f : PendingFunctor) :
    (s.queueInLoop k f).work ≤ s.work+f.weight := by
  by_cases hk : k ≤ s.numThreads
  · have hsum : (s.queueInLoop k f).work+(s.loops k).work = s.work+((s.loops k).phase.work+
      (((s.loops k).pendingFunctors++[f]).map PendingFunctor.weight).sum) := work_setLoop hk
    have hweight : (((s.loops k).pendingFunctors++[f]).map PendingFunctor.weight).sum =
        ((s.loops k).pendingFunctors.map PendingFunctor.weight).sum+f.weight := by simp
    rw [hweight, work_eq] at hsum
    omega
  · -- A loop that is not there is not counted.
    have hsame (j : ℕ) (hj : j ∈ range (s.numThreads+1)) :
        ((s.queueInLoop k f).loops j).work = (s.loops j).work := by
      have hne : j ≠ k := by
        rintro rfl
        exact hk (Nat.lt_succ_iff.mp (mem_range.mp hj))
      rw [queueInLoop, setLoop_loops_of_ne _ _ hne]
    have hwork : (s.queueInLoop k f).work = s.work := by
      have hsum := sum_congr rfl hsame
      exact congrArg (fun n => n+s.holders.length+s.live) hsum
    omega

theorem work_removeConnectionInLoop_le : (s.removeConnectionInLoop c).work ≤ s.work+1 := by
  unfold removeConnectionInLoop
  split
  · exact Nat.le_succ _
  · exact work_queueInLoop_le (s := { s with connections := _ }) (.connectDestroyed c)

theorem work_handleClose_le (thread : ℕ) : (s.handleClose thread c).work ≤ s.work+2 := by
  have hdisconnect := work_retains (s := s) (retains_disconnect (c := c))
  unfold handleClose runInLoop
  split_ifs
  · have hremove := work_removeConnectionInLoop_le (s := s.disconnect c) (c := c)
    change (removeConnectionInLoop _ c).work ≤ _
    omega
  · have hqueue := work_queueInLoop_le (s := s.disconnect c) (k := 0) (.removeConnectionInLoop c)
    change _ ≤ (s.disconnect c).work+2 at hqueue
    omega

theorem work_execute_lt (f : PendingFunctor) : (s.execute f).work < s.work+f.weight := by
  cases f with
  | connectEstablished c =>
    have hsame := work_retains (s := s) (retains_connectEstablished (c := c))
    change (s.connectEstablished c).work < s.work+1
    omega
  | removeConnectionInLoop c =>
    have hremove := work_removeConnectionInLoop_le (s := s) (c := c)
    change (s.removeConnectionInLoop c).work < s.work+2
    omega
  | connectDestroyed c =>
    have hsame := work_retains (s := s) (retains_connectDestroyed (c := c))
    change (s.connectDestroyed c).work < s.work+1
    omega

theorem length_callbacks_le (revents : EpollEvents) : (Channel.callbacks revents).length ≤ 4 := by
  have hone (p : Prop) [Decidable p] (callback : ChannelCallback) :
      (if p then [callback] else []).length ≤ 1 := by
    split_ifs
    · exact le_rfl
    · exact Nat.zero_le _
  have h₁ := hone (revents &&& EPOLLHUP ≠ 0 ∧ revents &&& EPOLLIN = 0) .close
  have h₂ := hone (revents &&& EPOLLERR ≠ 0) .error
  have h₃ := hone (revents &&& (EPOLLIN ||| EPOLLPRI) ≠ 0) .read
  have h₄ := hone (revents &&& EPOLLOUT ≠ 0) .write
  unfold Channel.callbacks
  simp only [List.length_append]
  omega

/-! The loops that are not there never leave their first wait. -/

theorem runInLoop_phase (thread : ℕ) (f : PendingFunctor) (j : ℕ) :
    ((s.runInLoop thread k f).loops j).phase = (s.loops j).phase := by
  have hremove (c : ℕ) : ((s.removeConnectionInLoop c).loops j).phase = (s.loops j).phase := by
    unfold removeConnectionInLoop
    split
    · rfl
    · exact queueInLoop_phase
  unfold runInLoop
  split_ifs
  · cases f with
    | connectEstablished c => exact retains_connectEstablished.phase j
    | removeConnectionInLoop c => exact hremove c
    | connectDestroyed c => exact retains_connectDestroyed.phase j
  · exact queueInLoop_phase

theorem execute_phase (f : PendingFunctor) (j : ℕ) :
    ((s.execute f).loops j).phase = (s.loops j).phase := by
  have hrun := runInLoop_phase (s := s) (k := 0) 0 f j
  rwa [runInLoop, if_pos rfl] at hrun

theorem handleRead_phase (thread : ℕ) (result : ReadResult) (j : ℕ) :
    ((s.handleRead thread c result).loops j).phase = (s.loops j).phase := by
  cases result with
  | received ops => exact (retains_received _).phase j
  | closed => exact (runInLoop_phase _ _ j).trans (retains_disconnect.phase j)
  | failed => rfl

theorem setLoop_phase_near {l : ServedLoop} (hk : (s.loops k).phase ≠ .polling ∨ k ≤ s.numThreads)
    (j : ℕ) : ((s.setLoop k l).loops j).phase = (s.loops j).phase ∨
      (s.loops j).phase ≠ .polling ∨ j ≤ s.numThreads := by
  by_cases hj : j = k
  · exact .inr (hj ▸ hk)
  · rw [setLoop_loops_of_ne _ _ hj]
    exact .inl rfl

theorem takeCallback_spec {callback : ChannelCallback} {taken : ℕ × TcpServer}
    (h : s.takeCallback k callback = some taken) : ∃ callbacks active,
      (s.loops k).phase = .handling taken.1 (callback :: callbacks) active ∧
        taken.2 = s.setPhase k (.handling taken.1 callbacks active) := by
  unfold takeCallback at h
  split at h
  · next c next callbacks active hphase =>
    split_ifs at h with heq
    obtain rfl := Option.some.inj h
    exact ⟨callbacks, active, heq ▸ hphase, rfl⟩
  · cases h

theorem takeCallback_phase {callback : ChannelCallback} {taken : ℕ × TcpServer}
    (h : s.takeCallback k callback = some taken) (j : ℕ) :
    (taken.2.loops j).phase = (s.loops j).phase ∨ (s.loops j).phase ≠ .polling ∨
      j ≤ s.numThreads := by
  obtain ⟨callbacks, active, hphase, htaken⟩ := takeCallback_spec h
  rw [htaken]
  exact setLoop_phase_near (.inl (by rw [hphase]; exact LoopPhase.noConfusion)) j

/-- Only a loop that is there begins to handle events. -/
theorem step_phase {e : TcpServerEvent} (hs : s.Step e s') (j : ℕ) :
    (s'.loops j).phase = (s.loops j).phase ∨ (s.loops j).phase ≠ .polling ∨
      j ≤ s.numThreads := by
  unfold Step nextStep at hs
  cases e with
  | accept fd =>
    dsimp only at hs
    split at hs
    · split_ifs at hs
      obtain rfl := Option.some.inj hs
      refine .inl ((runInLoop_phase _ _ j).trans ?_)
      change (s.getNextLoop.2.loops j).phase = _
      unfold getNextLoop
      split_ifs <;> rfl
    · cases hs
  | poll k ready =>
    dsimp only at hs
    split_ifs at hs with hready
    obtain rfl := Option.some.inj hs
    exact setLoop_phase_near (.inr hready.1) j
  | handleEvent k =>
    dsimp only at hs
    split at hs
    · next hphase =>
      have hne : (s.loops k).phase ≠ .polling := by
        rw [hphase]
        exact LoopPhase.noConfusion
      split at hs
      · cases hs
      · split_ifs at hs
        all_goals
          obtain rfl := Option.some.inj hs
          exact setLoop_phase_near (.inl hne) j
    · cases hs
  | handleClose k =>
    obtain ⟨taken, htaken, rfl⟩ := Option.map_eq_some_iff.mp hs
    have hsame : ((taken.2.handleClose k taken.1).loops j).phase = (taken.2.loops j).phase :=
      (runInLoop_phase _ _ j).trans (retains_disconnect.phase j)
    rw [hsame]
    exact takeCallback_phase htaken j
  | handleError k =>
    obtain ⟨taken, htaken, rfl⟩ := Option.map_eq_some_iff.mp hs
    exact takeCallback_phase htaken j
  | handleRead k result =>
    obtain ⟨taken, htaken, rfl⟩ := Option.map_eq_some_iff.mp hs
    rw [handleRead_phase]
    exact takeCallback_phase htaken j
  | handleWrite k written sent =>
    obtain ⟨taken, htaken, rfl⟩ := Option.map_eq_some_iff.mp hs
    rw [(retains_operate _).phase]
    exact takeCallback_phase htaken j
  | handled k =>
    dsimp only at hs
    split at hs
    · next hphase =>
      obtain rfl := Option.some.inj hs
      exact setLoop_phase_near (.inl (by rw [hphase]; exact LoopPhase.noConfusion)) j
    · cases hs
  | doPendingFunctors k =>
    dsimp only at hs
    split at hs
    · next hphase =>
      obtain rfl := Option.some.inj hs
      exact setLoop_phase_near (.inl (by rw [hphase]; exact LoopPhase.noConfusion)) j
    · cases hs
  | runFunctor k =>
    dsimp only at hs
    split at hs
    · next hphase =>
      obtain rfl := Option.some.inj hs
      rw [execute_phase]
      exact setLoop_phase_near (.inl (by rw [hphase]; exact LoopPhase.noConfusion)) j
    · cases hs
  | finish k =>
    dsimp only at hs
    split at hs
    · next hphase =>
      obtain rfl := Option.some.inj hs
      exact setLoop_phase_near (.inl (by rw [hphase]; exact LoopPhase.noConfusion)) j
    · cases hs
  | respond c op =>
    dsimp only at hs
    split at hs
    · cases hs
    · split at hs
      · split_ifs at hs
        obtain rfl := Option.some.inj hs
        exact .inl ((retains_operate op).phase j)
      · cases hs
  | hold c =>
    dsimp only at hs
    split_ifs at hs
    obtain rfl := Option.some.inj hs
    exact .inl rfl
  | release c =>
    dsimp only at hs
    split_ifs at hs
    obtain rfl := Option.some.inj hs
    exact .inl rfl
  | destroy c =>
    dsimp only at hs
    split at hs
    · cases hs
    · split_ifs at hs
      obtain rfl := Option.some.inj hs
      exact .inl rfl

structure Reached (s : TcpServer) : Prop where
  inv : s.Inv
  near : ∀ k, (s.loops k).phase ≠ .polling → k ≤ s.numThreads

theorem numThreads_step {e : TcpServerEvent} (hs : s.Step e s') :
    s'.numThreads = s.numThreads := by
  rcases samePlaces_step hs with hsame | ⟨fd, -, rfl⟩
  · exact hsame.numThreads
  · refine (samePlaces_runInLoop _).numThreads.trans ?_
    change s.getNextLoop.2.numThreads = s.numThreads
    unfold getNextLoop
    split_ifs <;> rfl

theorem Reached.step {e : TcpServerEvent} (h : s.Reached) (hs : s.Step e s') : s'.Reached := by
  refine ⟨h.inv.step hs, fun k hk => ?_⟩
  rw [numThreads_step hs]
  rcases step_phase hs k with hsame | hbusy | hle
  · exact h.near k (hsame ▸ hk)
  · exact h.near k hbusy
  · exact hle

theorem reached_run {name : Bytes} {ipPort : InetAddress} {numThreads : ℕ}
    {es : List TcpServerEvent} (hr : Run Step (started name ipPort numThreads) es s) :
    s.Reached :=
  hr.invariant (fun _ _ _ h hs => Reached.step h hs)
    ⟨inv_started name ipPort numThreads, fun _ hk => absurd rfl hk⟩

/-- A callback of a channel takes more off than it can add. -/
theorem Reached.work_takeCallback {callback : ChannelCallback} {taken : ℕ × TcpServer}
    (h : s.Reached) (htaken : s.takeCallback k callback = some taken) :
    taken.2.work+3 = s.work := by
  obtain ⟨callbacks, active, hphase, heq⟩ := takeCallback_spec htaken
  have hk : k ≤ s.numThreads := h.near k (by rw [hphase]; exact LoopPhase.noConfusion)
  have hsum := work_setPhase (.handling taken.1 callbacks active) hk
  rw [hphase] at hsum
  simp only [LoopPhase.work, List.length_cons] at hsum
  rw [heq]
  omega

theorem live_destroy (h : s.Inv) (hx : s.conns c = some x) (hlive : x.destroyed = false) :
    (s.destroy c x).work+1 = s.work := by
  have hother (d : ℕ) (hd : d ≠ c) : (s.destroy c x).conns d = s.conns d :=
    Function.update_of_ne hd ..
  have hself : (s.destroy c x).conns c = (s.conns c).map (fun x =>
      { x with output := x.output.closePendingFile, destroyed := true }) :=
    Function.update_self ..
  have hsum := sum_change
    (fun d => if (s.conns d).any (fun x => !x.destroyed) then 1 else 0)
    (fun d => if ((s.destroy c x).conns d).any (fun x => !x.destroyed) then 1 else 0)
    (h.made c x hx) (fun d hd => by simp only [hother d hd])
  have hgone : ((s.destroy c x).conns c).any (fun x => !x.destroyed) = false := by
    rw [hself, hx]
    rfl
  have hthere : (s.conns c).any (fun x => !x.destroyed) = true := by
    rw [hx, Option.any_some, hlive]
    rfl
  rw [hgone, hthere, if_pos rfl, if_neg Bool.false_ne_true] at hsum
  have hnew : (s.destroy c x).work = ∑ j ∈ range (s.numThreads+1), (s.loops j).work+
    s.holders.length+(s.destroy c x).live := rfl
  have hold : s.work = ∑ j ∈ range (s.numThreads+1), (s.loops j).work+s.holders.length+s.live :=
    rfl
  have hlivenew : (s.destroy c x).live = ∑ d ∈ range s.nextConnId,
    if ((s.destroy c x).conns d).any (fun x => !x.destroyed) then 1 else 0 := rfl
  have hliveold : s.live = ∑ d ∈ range s.nextConnId,
    if (s.conns d).any (fun x => !x.destroyed) then 1 else 0 := rfl
  omega

/-- Every step from inside leaves less to be done. -/
theorem Reached.effort_lt {e : TcpServerEvent} (h : s.Reached) (hin : s.Inside e)
    (hs : s.Step e s') : s'.effort < s.effort := by
  have hthreads := numThreads_step hs
  have hnear {k : ℕ} {phase : LoopPhase} (hphase : (s.loops k).phase = phase)
      (hne : phase ≠ .polling) : k ≤ s.numThreads := h.near k (hphase ▸ hne)
  unfold Step nextStep at hs
  cases e with
  | accept fd => exact hin.elim
  | poll k ready =>
    dsimp only at hs
    split_ifs at hs with hready
    obtain rfl := Option.some.inj hs
    obtain ⟨rfl, hpending⟩ := hin
    have hwork := work_setLoop (s := s) (k := k) (l := { s.loops k with
      phase := .dispatching ((s.loops k).poller.poll []).2
      poller := ((s.loops k).poller.poll []).1 }) hready.1
    have hdelay := delay_setLoop (s := s) (k := k) (l := { s.loops k with
      phase := .dispatching ((s.loops k).poller.poll []).2
      poller := ((s.loops k).poller.poll []).1 }) hready.1
    have hold : (s.loops k).work =
        ((s.loops k).pendingFunctors.map PendingFunctor.weight).sum := by
      rw [work_eq, hready.2.1]
      exact Nat.zero_add _
    have hold' : (s.loops k).delay = 3 := by
      unfold ServedLoop.delay
      rw [hready.2.1]
      exact if_neg hpending
    -- Nothing is done yet, but the loop is nearer to its functors.
    refine effort_lt_of_delay hthreads ?_ ?_
    · rw [hold] at hwork
      simp only [work_eq, EPollPoller.poll, List.filterMap_nil, LoopPhase.work,
        List.length_nil] at hwork ⊢
      omega
    · rw [hold'] at hdelay
      simp only [ServedLoop.delay, EPollPoller.poll, List.filterMap_nil, if_neg hpending]
        at hdelay ⊢
      omega
  | handleEvent k =>
    dsimp only at hs
    split at hs
    · next c revents active hphase =>
      have hk := hnear hphase LoopPhase.noConfusion
      have hcallbacks := length_callbacks_le revents
      split at hs
      · cases hs
      · split_ifs at hs
        · -- The event of a connection whose tie is broken is dropped.
          obtain rfl := Option.some.inj hs
          have hwork := work_setPhase (.dispatching active) hk
          rw [hphase] at hwork
          simp only [LoopPhase.work, List.length_cons] at hwork
          exact effort_lt_of_work hthreads (by omega)
        · obtain rfl := Option.some.inj hs
          have hwork := work_setPhase
            (.handling c (Channel.callbacks revents) active) hk
          rw [hphase] at hwork
          simp only [LoopPhase.work, List.length_cons] at hwork
          exact effort_lt_of_work hthreads (by omega)
    · cases hs
  | handleClose k =>
    obtain ⟨taken, htaken, rfl⟩ := Option.map_eq_some_iff.mp hs
    have hwork := h.work_takeCallback htaken
    have hclose := work_handleClose_le (s := taken.2) (c := taken.1) k
    exact effort_lt_of_work hthreads (by omega)
  | handleError k =>
    obtain ⟨taken, htaken, rfl⟩ := Option.map_eq_some_iff.mp hs
    have hwork := h.work_takeCallback htaken
    exact effort_lt_of_work hthreads (by omega)
  | handleRead k result =>
    obtain ⟨taken, htaken, rfl⟩ := Option.map_eq_some_iff.mp hs
    have hwork := h.work_takeCallback htaken
    refine effort_lt_of_work hthreads ?_
    cases result with
    | received ops =>
      have hsame := work_retains (retains_received (s := taken.2) (c := taken.1) ops)
      change (ops.foldl (fun s op => s.operate taken.1 op) taken.2).work < s.work
      omega
    | closed =>
      have hclose := work_handleClose_le (s := taken.2) (c := taken.1) k
      change (taken.2.handleClose k taken.1).work < s.work
      omega
    | failed =>
      change taken.2.work < s.work
      omega
  | handleWrite k written sent =>
    obtain ⟨taken, htaken, rfl⟩ := Option.map_eq_some_iff.mp hs
    have hwork := h.work_takeCallback htaken
    have hsame := work_retains
      (retains_operate (s := taken.2) (c := taken.1) (.handleWrite written sent))
    exact effort_lt_of_work hthreads (by omega)
  | handled k =>
    dsimp only at hs
    split at hs
    · next c active hphase =>
      obtain rfl := Option.some.inj hs
      have hwork := work_setPhase (.dispatching active)
        (hnear hphase LoopPhase.noConfusion)
      rw [hphase] at hwork
      simp only [LoopPhase.work, List.length_nil] at hwork
      exact effort_lt_of_work hthreads (by omega)
    · cases hs
  | doPendingFunctors k =>
    dsimp only at hs
    split at hs
    · next hphase =>
      obtain rfl := Option.some.inj hs
      have hk := hnear hphase LoopPhase.noConfusion
      have hwork := work_setLoop (s := s) (k := k) (l := { s.loops k with
        phase := .running (s.loops k).pendingFunctors (s.loops k).pendingFunctors
        pendingFunctors := [] }) hk
      have hdelay := delay_setLoop (s := s) (k := k) (l := { s.loops k with
        phase := .running (s.loops k).pendingFunctors (s.loops k).pendingFunctors
        pendingFunctors := [] }) hk
      refine effort_lt_of_delay hthreads ?_ ?_
      · rw [work_eq, hphase] at hwork
        simp only [work_eq, LoopPhase.work, List.length_nil, List.map_nil, List.sum_nil]
          at hwork ⊢
        omega
      · cases hpending : (s.loops k).pendingFunctors with
        | nil =>
          simp only [ServedLoop.delay, hphase, hpending, if_true] at hdelay ⊢
          omega
        | cons f functors =>
          simp only [ServedLoop.delay, hphase, hpending, reduceCtorEq, if_false] at hdelay ⊢
          omega
    · cases hs
  | runFunctor k =>
    dsimp only at hs
    split at hs
    · next functors functor todo hphase =>
      obtain rfl := Option.some.inj hs
      have hwork := work_setPhase (.running functors todo)
        (hnear hphase LoopPhase.noConfusion)
      have hexecute := work_execute_lt (s := s.setPhase k (.running functors todo)) functor
      rw [hphase] at hwork
      simp only [LoopPhase.work, List.map_cons, List.sum_cons] at hwork
      exact effort_lt_of_work hthreads (by omega)
    · cases hs
  | finish k =>
    dsimp only at hs
    split at hs
    · next functors hphase =>
      obtain rfl := Option.some.inj hs
      have hk := hnear hphase LoopPhase.noConfusion
      have hwork := work_setPhase .polling hk
      have hdelay : (s.setPhase k .polling).delay+(s.loops k).delay = s.delay+
        ServedLoop.delay { s.loops k with phase := .polling } := delay_setLoop hk
      refine effort_lt_of_delay hthreads ?_ ?_
      · rw [hphase] at hwork
        simp only [LoopPhase.work, List.map_nil, List.sum_nil] at hwork
        omega
      · have hold : (s.loops k).delay = 4 := by
          unfold ServedLoop.delay
          rw [hphase]
        have hnew : ServedLoop.delay { s.loops k with phase := .polling } ≤ 3 := by
          simp only [ServedLoop.delay]
          split_ifs <;> omega
        omega
    · cases hs
  | respond c op => exact hin.elim
  | hold c => exact hin.elim
  | release c =>
    dsimp only at hs
    split_ifs at hs with hmem
    obtain rfl := Option.some.inj hs
    refine effort_lt_of_work hthreads ?_
    have hlength := List.length_erase_of_mem hmem
    have hpos := List.length_pos_of_mem hmem
    change ∑ j ∈ range (s.numThreads+1), (s.loops j).work+(s.holders.erase c).length+s.live <
      ∑ j ∈ range (s.numThreads+1), (s.loops j).work+s.holders.length+s.live
    omega
  | destroy c =>
    dsimp only at hs
    split at hs
    · cases hs
    · next x hx =>
      split_ifs at hs with hgone
      obtain rfl := Option.some.inj hs
      have hwork := live_destroy h.inv hx hgone.1
      exact effort_lt_of_work hthreads (by omega)

/-- The steps from inside. -/
def InsideStep (s : TcpServer) (e : TcpServerEvent) (s' : TcpServer) : Prop :=
  s.Inside e ∧ s.Step e s'

theorem exists_insideStep {e : TcpServerEvent} (hin : s.Inside e)
    (h : (s.nextStep e).isSome = true) : ∃ e s', s.InsideStep e s' := by
  obtain ⟨s', hs⟩ := Option.isSome_iff_exists.mp h
  exact ⟨e, s', hin, hs⟩

/-- The next callback can always be made. -/
theorem exists_callback {callbacks : List ChannelCallback} {callback : ChannelCallback}
    {active : List (ℕ × EpollEvents)}
    (hphase : (s.loops k).phase = .handling c (callback :: callbacks) active) :
    ∃ e s', s.InsideStep e s' := by
  have htaken : s.takeCallback k callback =
      some (c, s.setPhase k (.handling c callbacks active)) := by
    simp only [takeCallback, hphase, if_true]
  cases callback with
  | close => exact exists_insideStep (e := .handleClose k) trivial (by simp [nextStep, htaken])
  | error => exact exists_insideStep (e := .handleError k) trivial (by simp [nextStep, htaken])
  | read =>
    exact exists_insideStep (e := .handleRead k .failed) trivial (by simp [nextStep, htaken])
  | write =>
    exact exists_insideStep (e := .handleWrite k .wouldBlock .wouldBlock) trivial
      (by simp [nextStep, htaken])

/-- No loop is stuck: one that does not wait, or that has a functor queued, has a next step. -/
theorem Reached.exists_step (h : s.Reached) (hk : k ≤ s.numThreads)
    (hbusy : ¬((s.loops k).phase = .polling ∧ (s.loops k).pendingFunctors = [])) :
    ∃ e s', s.InsideStep e s' := by
  cases hphase : (s.loops k).phase with
  | polling =>
    have hpending : (s.loops k).pendingFunctors ≠ [] := fun hnil => hbusy ⟨hphase, hnil⟩
    exact exists_insideStep (e := .poll k []) ⟨rfl, hpending⟩
      (by simp [nextStep, hk, hphase, EPollPoller.reports])
  | dispatching active =>
    cases active with
    | nil =>
      exact exists_insideStep (e := .doPendingFunctors k) trivial (by simp [nextStep, hphase])
    | cons event active =>
      have hactive : event.1 ∈ s.active k := by
        rw [TcpServer.active, hphase]
        exact List.mem_cons_self
      obtain ⟨x, hx, -, hindex⟩ := h.inv.active_spec hactive
      have href := h.inv.referenced_of_index hx ne_none hindex
      have hlive := h.inv.alive_of_referenced hx href
      exact exists_insideStep (e := .handleEvent k) trivial
        (by simp [nextStep, hphase, hx, hlive, href])
  | handling d callbacks active =>
    cases callbacks with
    | nil => exact exists_insideStep (e := .handled k) trivial (by simp [nextStep, hphase])
    | cons callback callbacks => exact exists_callback hphase
  | running functors todo =>
    cases todo with
    | nil => exact exists_insideStep (e := .finish k) trivial (by simp [nextStep, hphase])
    | cons f todo =>
      exact exists_insideStep (e := .runFunctor k) trivial (by simp [nextStep, hphase])

/-- Where no step is left inside, the server has settled. -/
theorem Reached.settled (h : s.Reached) (hstuck : ∀ e s', ¬s.InsideStep e s') : s.Settled := by
  refine ⟨fun k hk => ?_, ?_, fun c x hx hnot => ?_⟩
  · by_contra hbusy
    obtain ⟨e, s', hstep⟩ := h.exists_step hk hbusy
    exact hstuck e s' hstep
  · cases hholders : s.holders with
    | nil => rfl
    | cons c rest =>
      refine absurd ⟨trivial, ?_⟩ (hstuck (.release c) { s with holders := s.holders.erase c })
      unfold Step nextStep
      dsimp only
      rw [if_pos (by rw [hholders]; exact List.mem_cons_self)]
  · cases hlive : x.destroyed with
    | true => rfl
    | false =>
      refine absurd ⟨trivial, ?_⟩ (hstuck (.destroy c) (s.destroy c x))
      unfold Step nextStep
      simp only [hx]
      rw [if_pos ⟨hlive, hnot⟩]

/-- In a settled server a connection is open, in the table and watched by its loop, or its object
is destroyed and neither the table nor a poller knows it. -/
theorem Inv.settled_connection (h : s.Inv) (hsettled : s.Settled) (hx : s.conns c = some x) :
    (x.Opened ∧ s.Listed c ∧ x.destroyed = false) ∨
      (x.Closed ∧ ¬s.Listed c ∧ x.destroyed = true ∧ x.channel.index = .kNew) := by
  have hconcerns := h.concerns c x hx
  have hnone (k : ℕ) (hk : k ≤ s.numThreads) (f : PendingFunctor) : f ∉ s.tasks k := by
    obtain ⟨hphase, hpending⟩ := hsettled.loops k hk
    rw [tasks, hphase, hpending]
    exact List.not_mem_nil
  cases h.stage c x hx ne_none with
  | connecting _ _ task => exact absurd task (hnone _ hconcerns.loop_le _)
  | opened ho listed =>
    exact .inl ⟨ho, listed, h.alive_of_referenced hx (mem_references.mpr (.inl listed))⟩
  | closing _ _ _ task => exact absurd task (hnone 0 (Nat.zero_le _) _)
  | removed _ _ task => exact absurd task (hnone _ hconcerns.loop_le _)
  | gone hc unlisted index =>
    refine .inr ⟨hc, unlisted, hsettled.destroyed c x hx ?_, index⟩
    rw [mem_references, hsettled.holders]
    -- A settled server has no functors and no holders that could refer to it.
    rintro (hl | ⟨k, hk, hl⟩ | hl)
    · exact unlisted hl
    · obtain ⟨hphase, hpending⟩ := hsettled.loops k hk
      rw [ServedLoop.references, hphase, hpending] at hl
      cases hl
    · cases hl

/-- From every reachable state the steps from inside come to an end. Then the table holds exactly
the open connections, and every other one is destroyed and its descriptor closed. -/
theorem comes_to_rest {name : Bytes} {ipPort : InetAddress} {numThreads : ℕ}
    {es : List TcpServerEvent}
    (hr : Run Step (started name ipPort numThreads) es s) {es' : List TcpServerEvent}
    (hr' : Run InsideStep s es' s') : es'.length ≤ s.effort ∧
      ((∀ e s'', ¬s'.InsideStep e s'') → s'.Settled ∧ ∀ c x, s'.conns c = some x →
        (s'.Listed c ↔ x.output.state = .kConnected ∨ x.output.state = .kDisconnecting) ∧
        (x.destroyed = true ↔ x.output.state = .kDisconnected) ∧
        (x.destroyed = true → ∀ k fd events,
          (s'.loops k).poller.interest fd ≠ some (c, events))) := by
  have hreached := reached_run hr
  -- Every step from inside takes one off the effort.
  have hlength : es'.length+s'.effort ≤ s.effort :=
    hr'.length_le (fun _ _ _ h hs => Reached.step h hs.2)
      (fun _ _ _ h hs => Reached.effort_lt h hs.1 hs.2) hreached
  refine ⟨by omega, fun hstuck => ?_⟩
  have hreached' : s'.Reached :=
    hr'.invariant (fun s e s' h hs => Reached.step h hs.2) hreached
  have hsettled := hreached'.settled hstuck
  refine ⟨hsettled, fun c x hx => ?_⟩
  rcases hreached'.inv.settled_connection hsettled hx with ⟨ho, listed, hlive⟩ |
    ⟨hc, unlisted, hdestroyed, hindex⟩
  · refine ⟨iff_of_true listed ho.state, iff_of_false (by rw [hlive]; exact Bool.false_ne_true) ?_,
      fun hd => by rw [hlive] at hd; cases hd⟩
    rcases ho.state with hst | hst <;> rw [hst] <;> exact StateE.noConfusion
  · refine ⟨iff_of_false unlisted ?_, iff_of_true hdestroyed hc.state, fun _ => ?_⟩
    · rw [hc.state]
      rintro (hst | hst) <;> cases hst
    · intro k fd events hinterest
      obtain ⟨channel, hchannel, -, hadded, -⟩ :=
        ((hreached'.inv.mirrors k).interest fd c events).mp hinterest
      obtain ⟨y, hy, -, rfl⟩ := channelOf_eq_some hchannel
      rw [hx] at hy
      cases hy
      rw [hindex] at hadded
      cases hadded

instance decidableInside (s : TcpServer) (e : TcpServerEvent) : Decidable (s.Inside e) :=
  match e with
  | .poll k ready => inferInstanceAs (Decidable (ready = [] ∧ (s.loops k).pendingFunctors ≠ []))
  | .accept _ => .isFalse (fun h => h)
  | .respond _ _ => .isFalse (fun h => h)
  | .hold _ => .isFalse (fun h => h)
  | .handleEvent _ => .isTrue trivial
  | .handleClose _ => .isTrue trivial
  | .handleError _ => .isTrue trivial
  | .handleRead _ _ => .isTrue trivial
  | .handleWrite _ _ _ => .isTrue trivial
  | .handled _ => .isTrue trivial
  | .doPendingFunctors _ => .isTrue trivial
  | .runFunctor _ => .isTrue trivial
  | .finish _ => .isTrue trivial
  | .release _ => .isTrue trivial
  | .destroy _ => .isTrue trivial

/-- The peer has hung up, and the two loops clear the connection away. -/
def clearedEvents : List TcpServerEvent :=
  [.handleEvent 1, .handleClose 1, .handled 1, .doPendingFunctors 1, .finish 1, .poll 0 [],
    .doPendingFunctors 0, .runFunctor 0, .finish 0, .poll 1 [], .doPendingFunctors 1,
    .runFunctor 1, .finish 1, .destroy 1]

/-- The steps from inside end with everything at rest and the connection destroyed. -/
theorem comes_to_rest_cleared : ∃ s s', Run Step (started [] loopback 1)
      (acceptedEvents++[.poll 1 [(7, EPOLLHUP)]]) s ∧ Run InsideStep s clearedEvents s' ∧
    clearedEvents.length ≤ s.effort ∧ s'.Settled ∧
    ∃ x, s'.conns 1 = some x ∧ x.destroyed = true ∧ ¬s'.Listed 1 ∧
      ∀ k fd events, (s'.loops k).poller.interest fd ≠ some (1, events) := by
  have hcleared : ((replay (fun _ _ => True) nextStep (started [] loopback 1)
      (acceptedEvents++[.poll 1 [(7, EPOLLHUP)]])).bind
      (fun s => replay Inside nextStep s clearedEvents)).any
      (fun s => s.effort = 0 && (s.conns 1).any (fun x => x.destroyed)) = true := by decide
  obtain ⟨s', hbound, hrest⟩ := (Option.any_eq_true _ _).mp hcleared
  obtain ⟨s, hs, hs'⟩ := Option.bind_eq_some_iff.mp hbound
  have hr : Run Step (started [] loopback 1) (acceptedEvents++[.poll 1 [(7, EPOLLHUP)]]) s :=
    (run_of_replay hs).unguarded
  have hr' : Run InsideStep s clearedEvents s' := run_of_replay hs'
  rw [Bool.and_eq_true, decide_eq_true_eq] at hrest
  obtain ⟨x, hx, hdestroyed⟩ := (Option.any_eq_true _ _).mp hrest.2
  obtain ⟨hlength, hsettled⟩ := comes_to_rest hr hr'
  have hreached' : s'.Reached :=
    hr'.invariant (fun s e s' h hs => Reached.step h hs.2) (reached_run hr)
  -- Without effort no step is left.
  have hstuck : ∀ e s'', ¬s'.InsideStep e s'' := by
    intro e s'' hs
    have hlt := hreached'.effort_lt hs.1 hs.2
    omega
  obtain ⟨hsettled, hconns⟩ := hsettled hstuck
  obtain ⟨hlisted, hclosed, hgone⟩ := hconns 1 x hx
  have hstate := hclosed.mp hdestroyed
  refine ⟨s, s', hr, hr', hlength, hsettled, x, hx, hdestroyed, ?_, hgone hdestroyed⟩
  rw [hlisted, hstate]
  decide

end TcpServer

end JingjieAR
