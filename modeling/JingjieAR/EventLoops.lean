import JingjieAR.EventLoopModel
import Mathlib.Tactic.Common

/-! What holds of the event loop in every run. Functors run in the order in which they were
queued, and the loop does not sleep on one that nobody is about to wake it for. A request to quit
is kept from the moment on at which `loop` has set its flag to false; one that comes earlier is
overwritten. -/
namespace JingjieAR.EventLoop

open Runs (Run Guarded)

variable {s s' : EventLoop} {e : LoopEvent} {events : List LoopEvent}

/-- What the thread of the loop does between two calls of user code. -/
inductive Advance (s : EventLoop) : EventLoop → Prop
  | enter (hstage : s.stage = .constructed) :
      Advance s { s with quit := false, stage := .testing }
  | leave (hstage : s.stage = .testing) (hquit : s.quit = true) :
      Advance s { s with stage := .left }
  | pass (hstage : s.stage = .testing) (hquit : s.quit = false) :
      Advance s { s with stage := .passed }
  | poll (hstage : s.stage = .passed) :
      Advance s { s with
        stage := .polling, polls := if s.requested then s.polls+1 else s.polls }
  | pollReturned {active : Bool} (hstage : s.stage = .polling) :
      Advance s { s with stage := .handling active }
  | handleRead (hstage : s.stage = .handling true) :
      Advance s { s with counter := 0, stage := .handling false }
  | doPendingFunctors (hstage : s.stage = .handling false) :
      Advance s { s with callingPendingFunctors := true, stage := .swapping }
  | swap (hstage : s.stage = .swapping) :
      Advance s { s with pendingFunctors := [], stage := .running s.pendingFunctors }
  | call {functor : ℕ} {functors : List ℕ} (hstage : s.stage = .running (functor :: functors)) :
      Advance s { s with ran := s.ran++[functor], stage := .calling functors }
  | callReturned {functors : List ℕ} (hstage : s.stage = .calling functors) :
      Advance s { s with stage := .running functors }
  | finish (hstage : s.stage = .running []) :
      Advance s { s with callingPendingFunctors := false, stage := .testing }

/-- What a step does. -/
inductive Change (s : EventLoop) : LoopEvent → EventLoop → Prop
  | advance {e : LoopEvent} {s' : EventLoop} (hqueued : s.queued = false) (h : s.Advance s') :
      Change s e s'
  | queueOwn (hcallback : s.isInCallback = true) :
      Change s .queueOwn { s.enqueue with queued := true }
  | wakeupOwn (hqueued : s.queued = true) :
      Change s .wakeupOwn
        { (if s.callingPendingFunctors then s.wakeup else s) with queued := false }
  | quitOwn (hcallback : s.isInCallback = true) : Change s .quitOwn s.requestQuit
  | queue : Change s .queue { s.enqueue with queuers := s.queuers+1 }
  | wakeup (hqueuers : 0 < s.queuers) : Change s .wakeup { s.wakeup with queuers := s.queuers-1 }
  | quit : Change s .quit { s.requestQuit with quitters := s.quitters+1 }
  | quitWakeup : Change s .quitWakeup { s.wakeup with quitters := s.quitters-1 }

theorem advance_cases (hs : s.advance e = some s') : s.Advance s' := by
  unfold advance at hs
  split at hs
  · next hstage => exact Option.some.inj hs ▸ .enter hstage
  · next hstage =>
    obtain rfl := Option.some.inj hs
    by_cases hquit : s.quit = true
    · rw [if_pos hquit]
      exact .leave hstage hquit
    · rw [if_neg hquit]
      exact .pass hstage (by simpa using hquit)
  · next hstage => exact Option.some.inj hs ▸ .poll hstage
  · next active hstage =>
    obtain ⟨-, rfl⟩ := by simpa using hs
    exact .pollReturned hstage
  · next hstage => exact Option.some.inj hs ▸ .handleRead hstage
  · next hstage => exact Option.some.inj hs ▸ .doPendingFunctors hstage
  · next hstage => exact Option.some.inj hs ▸ .swap hstage
  · next functor functors hstage => exact Option.some.inj hs ▸ .call hstage
  · next functors hstage => exact Option.some.inj hs ▸ .callReturned hstage
  · next hstage => exact Option.some.inj hs ▸ .finish hstage
  · simp at hs

theorem step_change (hs : s.Step e s') : s.Change e s' := by
  have hown : ∀ e', (if s.queued then none else s.advance e') = some s' →
      s.queued = false ∧ s.Advance s' := by
    intro e' h
    cases hqueued : s.queued with
    | true => simp [hqueued] at h
    | false => exact ⟨rfl, advance_cases (by simpa [hqueued] using h)⟩
  cases e with
  | queueOwn =>
    obtain ⟨⟨hcallback, -⟩, rfl⟩ := by simpa [Step, next] using hs
    exact .queueOwn hcallback
  | wakeupOwn =>
    obtain ⟨hqueued, rfl⟩ := by simpa [Step, next] using hs
    exact .wakeupOwn hqueued
  | quitOwn =>
    obtain ⟨⟨hcallback, -⟩, rfl⟩ := by simpa [Step, next] using hs
    exact .quitOwn hcallback
  | queue => exact Option.some.inj hs ▸ .queue
  | wakeup =>
    obtain ⟨hqueuers, rfl⟩ := by simpa [Step, next] using hs
    exact .wakeup hqueuers
  | quit => exact Option.some.inj hs ▸ .quit
  | quitWakeup =>
    obtain ⟨-, rfl⟩ := by simpa [Step, next] using hs
    exact .quitWakeup
  | _ =>
    obtain ⟨hqueued, h⟩ := hown _ hs
    exact .advance hqueued h

/-- The functors that were taken out of the queue and are still to be called. -/
def batch (s : EventLoop) : List ℕ :=
  match s.stage with
  | .running functors => functors
  | .calling functors => functors
  | _ => []

/-- Where the loop does not come to its queue before it polls again. -/
def isPastQueue (s : EventLoop) : Bool :=
  match s.stage with
  | .handling _ => false
  | .swapping => false
  | .left => false
  | _ => true

/-- `doPendingFunctors` has set its flag. -/
def isDoing (s : EventLoop) : Bool :=
  match s.stage with
  | .swapping => true
  | .running _ => true
  | .calling _ => true
  | _ => false

structure Inv (s : EventLoop) : Prop where
  inOrder : s.ran++s.batch++s.pendingFunctors = List.range s.enqueued
  doing : s.isDoing = true → s.callingPendingFunctors = true
  queued : s.queued = true → s.isInCallback = true
  woken : s.isPastQueue = true → s.pendingFunctors ≠ [] →
    0 < s.counter ∨ 0 < s.queuers ∨ s.queued = true

theorem counter_wakeup (s : EventLoop) : 0 < s.wakeup.counter := by
  unfold wakeup
  dsimp only
  split_ifs with hroom
  · exact Nat.succ_pos _
  · have hmax : 0 < 2^64-2 := by decide
    omega

/-- A step of the thread of the loop that leaves the queue alone, and the counter too unless the
loop comes to its queue later. -/
theorem Inv.move (h : s.Inv) (hqueued : s.queued = false)
    (hran : s'.ran++s'.batch = s.ran++s.batch) (hpending : s'.pendingFunctors = s.pendingFunctors)
    (henqueued : s'.enqueued = s.enqueued) (hqueued' : s'.queued = s.queued)
    (hdoing : s'.isDoing = true → s'.callingPendingFunctors = true)
    (hpast : s'.isPastQueue = true → s.isPastQueue = true ∧ s'.counter = s.counter ∧
      s'.queuers = s.queuers) : s'.Inv := by
  refine ⟨?_, hdoing, ?_, ?_⟩
  · rw [hran, hpending, henqueued]
    exact h.inOrder
  · rw [hqueued', hqueued]
    simp
  · intro hpast'
    obtain ⟨hwas, hcounter, hqueuers⟩ := hpast hpast'
    rw [hpending, hcounter, hqueuers, hqueued']
    exact h.woken hwas

theorem Inv.advance (h : s.Inv) (hqueued : s.queued = false) (hadvance : s.Advance s') :
    s'.Inv := by
  have hdoing := h.doing
  cases hadvance with
  | enter hstage =>
    refine h.move hqueued ?_ rfl rfl rfl (by simp [isDoing]) ?_
    · simp [batch, hstage]
    · simp [isPastQueue, hstage]
  | leave hstage hquit =>
    refine h.move hqueued ?_ rfl rfl rfl (by simp [isDoing]) ?_
    · simp [batch, hstage]
    · simp [isPastQueue]
  | pass hstage hquit =>
    refine h.move hqueued ?_ rfl rfl rfl (by simp [isDoing]) ?_
    · simp [batch, hstage]
    · simp [isPastQueue, hstage]
  | poll hstage =>
    refine h.move hqueued ?_ rfl rfl rfl (by simp [isDoing]) ?_
    · simp [batch, hstage]
    · simp [isPastQueue, hstage]
  | pollReturned hstage =>
    refine h.move hqueued ?_ rfl rfl rfl (by simp [isDoing]) ?_
    · simp [batch, hstage]
    · simp [isPastQueue]
  | handleRead hstage =>
    -- the queue is looked at after the counter is drained
    refine h.move hqueued ?_ rfl rfl rfl (by simp [isDoing]) ?_
    · simp [batch, hstage]
    · simp [isPastQueue]
  | doPendingFunctors hstage =>
    refine h.move hqueued ?_ rfl rfl rfl (fun _ => rfl) ?_
    · simp [batch, hstage]
    · simp [isPastQueue]
  | swap hstage =>
    have horder := h.inOrder
    simp only [batch, hstage, List.append_nil] at horder
    refine ⟨?_, fun _ => hdoing (by simp [isDoing, hstage]), by simp [hqueued], by simp⟩
    simpa [batch] using horder
  | call hstage =>
    refine h.move hqueued ?_ rfl rfl rfl (fun _ => hdoing (by simp [isDoing, hstage])) ?_
    · simp [batch, hstage]
    · simp [isPastQueue, hstage]
  | callReturned hstage =>
    refine h.move hqueued ?_ rfl rfl rfl (fun _ => hdoing (by simp [isDoing, hstage])) ?_
    · simp [batch, hstage]
    · simp [isPastQueue, hstage]
  | finish hstage =>
    refine h.move hqueued ?_ rfl rfl rfl (by simp [isDoing]) ?_
    · simp [batch, hstage]
    · simp [isPastQueue, hstage]

/-- Another functor is queued, and its wakeup is still to come. -/
theorem inOrder_enqueue (h : s.Inv) :
    s.ran++s.batch++(s.pendingFunctors++[s.enqueued]) = List.range (s.enqueued+1) := by
  rw [← List.append_assoc, h.inOrder, List.range_succ]

theorem Inv.change (h : s.Inv) (hchange : s.Change e s') : s'.Inv := by
  have hcounter := counter_wakeup s
  cases hchange with
  | advance hqueued hadvance => exact h.advance hqueued hadvance
  | queueOwn hcallback =>
    exact ⟨inOrder_enqueue h, h.doing, fun _ => hcallback, fun _ _ => .inr (.inr rfl)⟩
  | wakeupOwn hqueued =>
    cases hcalling : s.callingPendingFunctors with
    | true =>
      rw [if_pos rfl]
      exact ⟨h.inOrder, fun _ => hcalling, by simp, fun _ _ => .inl hcounter⟩
    | false =>
      rw [if_neg (by simp)]
      refine ⟨h.inOrder, h.doing, by simp, ?_⟩
      -- a callback of a channel, so the queue is still to be looked at
      intro hpast
      have hcallback := h.queued hqueued
      have hdoing := h.doing
      cases hstage : s.stage <;>
        simp_all [isPastQueue, isInCallback, isDoing]
  | quitOwn hcallback => exact ⟨h.inOrder, h.doing, h.queued, h.woken⟩
  | queue =>
    exact ⟨inOrder_enqueue h, h.doing, h.queued, fun _ _ => .inr (.inl (Nat.succ_pos _))⟩
  | wakeup hqueuers => exact ⟨h.inOrder, h.doing, h.queued, fun _ _ => .inl hcounter⟩
  | quit => exact ⟨h.inOrder, h.doing, h.queued, h.woken⟩
  | quitWakeup => exact ⟨h.inOrder, h.doing, h.queued, fun _ _ => .inl hcounter⟩

/-- However other threads queue functors, and callbacks and functors queue more: those that have
been called are the first ones that were queued, in order and each once; and while the loop sleeps
in its poll with functors in the queue, it is about to be woken. -/
theorem functors_woken (hr : Run Step {} events s) :
    s.ran = List.range s.ran.length ∧
      s.ran++s.batch++s.pendingFunctors = List.range s.enqueued ∧
      (s.stage = .polling → s.pendingFunctors ≠ [] → 0 < s.counter ∨ 0 < s.queuers) := by
  have hstart : Inv {} := ⟨rfl, by simp [isDoing], by simp, by simp⟩
  have hstep : ∀ (s : EventLoop) (e : LoopEvent) (s' : EventLoop),
      s.Inv → s.Step e s' → s'.Inv := fun s e s' h hs => h.change (step_change hs)
  have hinv := hr.invariant hstep hstart
  refine ⟨?_, hinv.inOrder, ?_⟩
  · have horder := hinv.inOrder
    rw [List.append_assoc] at horder
    have hprefix : s.ran <+: List.range s.enqueued := ⟨_, horder⟩
    rw [List.prefix_iff_eq_take] at hprefix
    have hlength := congrArg List.length hprefix
    rw [List.length_take, List.length_range] at hlength
    rwa [List.take_range, ← hlength] at hprefix
  · intro hpolling hpending
    have hpast : s.isPastQueue = true := by simp [isPastQueue, hpolling]
    rcases hinv.woken hpast hpending with hcounter | hqueuers | hqueued
    · exact .inl hcounter
    · exact .inr hqueuers
    · -- the thread of the loop is in no callback while it polls
      have hcallback := hinv.queued hqueued
      simp [isInCallback, hpolling] at hcallback

/-- A functor from another thread, one from a callback of a channel and one from a functor; the
loop polls again with the last one in its queue. -/
def threeFunctors : List LoopEvent :=
  [.enter, .test, .poll, .queue, .wakeup, .pollReturned true, .queueOwn, .wakeupOwn, .handleRead,
    .doPendingFunctors, .swap, .call, .queueOwn, .wakeupOwn, .callReturned, .call, .callReturned,
    .finish, .test, .poll]

theorem threeFunctors_woken : ∃ s, Run Step {} threeFunctors s ∧ s.stage = .polling ∧
    s.ran = [0, 1] ∧ s.pendingFunctors = [2] ∧ (0 < s.counter ∨ 0 < s.queuers) := by
  have hrun : ∃ s, Run Step {} threeFunctors s ∧ s.stage = .polling ∧ s.ran = [0, 1] ∧
      s.pendingFunctors = [2] :=
    ⟨_, .cons rfl <| .cons rfl <| .cons rfl <| .cons rfl <| .cons rfl <| .cons rfl <| .cons rfl <|
      .cons rfl <| .cons rfl <| .cons rfl <| .cons rfl <| .cons rfl <| .cons rfl <| .cons rfl <|
      .cons rfl <| .cons rfl <| .cons rfl <| .cons rfl <| .cons rfl <| .cons rfl <| .nil _,
      rfl, rfl, rfl⟩
  obtain ⟨s, hr, hstage, hran, hpending⟩ := hrun
  exact ⟨s, hr, hstage, hran, hpending,
    (functors_woken hr).2.2 hstage (by rw [hpending]; exact List.cons_ne_nil _ _)⟩

end JingjieAR.EventLoop
