import JingjieAR.EventLoops

/-! The thread of an event loop and the requests that it quit. `loop` sets its flag to false when
the loop has been handed out already. A request that comes after it is kept and leaves the loop
one poll at most; one that comes before it is overwritten. -/
namespace JingjieAR

open Runs (Run Guarded)

namespace EventLoop

variable {s s' : EventLoop} {e : LoopEvent}

/-- What is known of the flag, and of the polls since it was set. -/
structure Obedient (s : EventLoop) : Prop where
  early : s.stage = .constructed → s.requested = false
  kept : s.requested = true → s.quit = true
  unasked : s.requested = false → s.polls = 0
  passed : s.stage = .passed → s.polls = 0
  atMost : s.polls ≤ 1

theorem Obedient.requestQuit (h : s.Obedient) (hstage : s.stage ≠ .constructed) :
    s.requestQuit.Obedient :=
  ⟨fun hconstructed => absurd hconstructed hstage, fun _ => rfl, by simp [EventLoop.requestQuit],
    h.passed, h.atMost⟩

/-- A step that changes neither the flag nor the polls, and does not go back to the start. -/
theorem Obedient.frame (h : s.Obedient) (hstage : s'.stage = .constructed → s.stage = .constructed)
    (hpassed : s'.stage = .passed → s.stage = .passed) (hquit : s'.quit = s.quit)
    (hrequested : s'.requested = s.requested) (hpolls : s'.polls = s.polls) : s'.Obedient := by
  refine ⟨?_, ?_, ?_, ?_, ?_⟩
  · rw [hrequested]
    exact fun hconstructed => h.early (hstage hconstructed)
  · rw [hrequested, hquit]
    exact h.kept
  · rw [hrequested, hpolls]
    exact h.unasked
  · rw [hpolls]
    exact fun hpass => h.passed (hpassed hpass)
  · rw [hpolls]
    exact h.atMost

theorem Obedient.advance (h : s.Obedient) (hadvance : s.Advance s') : s'.Obedient := by
  cases hadvance with
  | enter hstage =>
    have hnot := h.early hstage
    exact ⟨by simp, by simp [hnot], h.unasked, by simp, h.atMost⟩
  | pass hstage hquit =>
    -- the loop goes on, so nobody has asked it to quit
    have hnot : s.requested = false := by
      by_contra hrequested
      have hkept := h.kept (by simpa using hrequested)
      rw [hquit] at hkept
      simp at hkept
    exact ⟨by simp, h.kept, h.unasked, fun _ => h.unasked hnot, h.atMost⟩
  | poll hstage =>
    have hzero := h.passed hstage
    refine ⟨by simp, h.kept, ?_, by simp, ?_⟩
    · intro hnot
      have hsame : s.requested = false := hnot
      simp [hsame, hzero]
    · show (if s.requested = true then s.polls+1 else s.polls) ≤ 1
      rw [hzero]
      split_ifs <;> omega
  | leave hstage => exact h.frame (by simp) (by simp) rfl rfl rfl
  | pollReturned hstage => exact h.frame (by simp) (by simp) rfl rfl rfl
  | handleRead hstage => exact h.frame (by simp) (by simp) rfl rfl rfl
  | doPendingFunctors hstage => exact h.frame (by simp) (by simp) rfl rfl rfl
  | swap hstage => exact h.frame (by simp) (by simp) rfl rfl rfl
  | call hstage => exact h.frame (by simp) (by simp) rfl rfl rfl
  | callReturned hstage => exact h.frame (by simp) (by simp) rfl rfl rfl
  | finish hstage => exact h.frame (by simp) (by simp) rfl rfl rfl

theorem Obedient.change (h : s.Obedient) (hlate : e = .quit → s.stage ≠ .constructed)
    (hchange : s.Change e s') : s'.Obedient := by
  cases hchange with
  | advance hqueued hadvance => exact h.advance hadvance
  | queueOwn hcallback => exact h.frame id id rfl rfl rfl
  | wakeupOwn hqueued =>
    cases s.callingPendingFunctors <;> exact h.frame id id rfl rfl rfl
  | quitOwn hcallback =>
    refine h.requestQuit ?_
    intro hstage
    simp [isInCallback, hstage] at hcallback
  | queue => exact h.frame id id rfl rfl rfl
  | wakeup hqueuers => exact h.frame id id rfl rfl rfl
  | quit => exact (h.requestQuit (hlate rfl)).frame id id rfl rfl rfl
  | quitWakeup => exact h.frame id id rfl rfl rfl

/-- Who has asked the loop to quit has asked for good. -/
theorem requested_change (hchange : s.Change e s') (hrequested : s.requested = true) :
    s'.requested = true := by
  cases hchange with
  | advance hqueued hadvance => cases hadvance <;> exact hrequested
  | wakeupOwn hqueued => cases s.callingPendingFunctors <;> exact hrequested
  | quitOwn hcallback => rfl
  | quit => rfl
  | _ => exact hrequested

end EventLoop

namespace EventLoopThread

variable {s s' : EventLoopThread} {e : LoopThreadEvent} {events : List LoopThreadEvent}

/-- The loop is asked to quit when it has set its flag to false. -/
def QuitsLate (s : EventLoopThread) : LoopThreadEvent → Prop
  | .loop .quit => s.loop.stage ≠ .constructed
  | .quit => s.loop.stage ≠ .constructed
  | _ => True

structure Inv (s : EventLoopThread) : Prop where
  obedient : s.loop.Obedient
  asked : s.owner = .waking ∨ s.owner = .joining → s.loop.requested = true

theorem Inv.step (h : s.Inv) (hlate : s.QuitsLate e) (hs : s.Step e s') : s'.Inv := by
  cases e with
  | startLoop =>
    simp only [Step, next] at hs
    split at hs
    · obtain rfl := Option.some.inj hs
      exact ⟨h.obedient, by simp⟩
    · simp at hs
  | publish =>
    simp only [Step, next] at hs
    split at hs
    · obtain rfl := Option.some.inj hs
      exact ⟨h.obedient, h.asked⟩
    · simp at hs
  | startReturned =>
    simp only [Step, next] at hs
    split at hs
    · obtain rfl := Option.some.inj hs
      exact ⟨h.obedient, by simp⟩
    · simp at hs
  | loop e =>
    simp only [Step, next, Option.ite_none_right_eq_some] at hs
    obtain ⟨loop, hloop, rfl⟩ := Option.map_eq_some_iff.mp hs.2
    have hchange := EventLoop.step_change hloop
    refine ⟨h.obedient.change ?_ hchange, fun howner => ?_⟩
    · rintro rfl
      exact hlate
    · exact EventLoop.requested_change hchange (h.asked howner)
  | clear =>
    simp only [Step, next, Option.ite_none_right_eq_some, Option.some.injEq] at hs
    obtain ⟨-, rfl⟩ := hs
    exact ⟨h.obedient, h.asked⟩
  | destroy =>
    simp only [Step, next] at hs
    split at hs
    · obtain rfl := Option.some.inj hs
      refine ⟨h.obedient, ?_⟩
      show (if s.thread = .published then _ else _) = _ ∨ (if s.thread = .published then _ else _) = _ → _
      split_ifs <;> simp
    · simp at hs
  | quit =>
    simp only [Step, next] at hs
    split at hs
    · obtain rfl := Option.some.inj hs
      exact ⟨h.obedient.requestQuit hlate, fun _ => rfl⟩
    · simp at hs
  | wakeup =>
    simp only [Step, next] at hs
    split at hs
    · next howner =>
      obtain rfl := Option.some.inj hs
      exact ⟨h.obedient.frame id id rfl rfl rfl, fun _ => h.asked (.inl howner)⟩
    · simp at hs
  | join =>
    simp only [Step, next] at hs
    split at hs
    · obtain rfl := Option.some.inj hs
      exact ⟨h.obedient, by simp⟩
    · simp at hs

/-- As long as nobody asks the loop to quit before it has set its flag to false: a request is not
overwritten, the loop polls once more at most, and the destructor joins a loop that will see it. -/
theorem quit_kept (hr : Run (Guarded QuitsLate Step) {} events s) :
    (s.loop.requested = true → s.loop.quit = true) ∧ s.loop.polls ≤ 1 ∧
      (s.owner = .joining → s.loop.quit = true) := by
  have hstart : Inv {} := ⟨⟨by simp, by simp, by simp, by simp, by simp⟩, by simp⟩
  have hstep : ∀ (s : EventLoopThread) (e : LoopThreadEvent) (s' : EventLoopThread),
      s.Inv → Guarded QuitsLate Step s e s' → s'.Inv := fun s e s' h hs => h.step hs.1 hs.2
  have hinv := hr.invariant hstep hstart
  exact ⟨hinv.obedient.kept, hinv.obedient.atMost,
    fun howner => hinv.obedient.kept (hinv.asked (.inr howner))⟩

/-- The loop has been entered, and is about to poll, when the destructor asks it to quit. -/
def quitLate : List LoopThreadEvent :=
  [.startLoop, .publish, .startReturned, .loop .enter, .loop .test, .destroy, .quit, .loop .poll,
    .wakeup, .loop (.pollReturned true), .loop .handleRead, .loop .doPendingFunctors, .loop .swap,
    .loop .finish]

theorem quitLate_kept : ∃ s, Run (Guarded QuitsLate Step) {} quitLate s ∧ s.owner = .joining ∧
    s.loop.polls = 1 ∧ s.loop.quit = true := by
  have hrun : ∃ s, Run (Guarded QuitsLate Step) {} quitLate s ∧ s.owner = .joining ∧
      s.loop.polls = 1 :=
    ⟨_, .cons ⟨trivial, rfl⟩ <| .cons ⟨trivial, rfl⟩ <| .cons ⟨trivial, rfl⟩ <|
      .cons ⟨trivial, rfl⟩ <| .cons ⟨trivial, rfl⟩ <| .cons ⟨trivial, rfl⟩ <|
      .cons ⟨LoopStage.noConfusion, rfl⟩ <| .cons ⟨trivial, rfl⟩ <| .cons ⟨trivial, rfl⟩ <|
      .cons ⟨trivial, rfl⟩ <| .cons ⟨trivial, rfl⟩ <| .cons ⟨trivial, rfl⟩ <|
      .cons ⟨trivial, rfl⟩ <| .cons ⟨trivial, rfl⟩ <| .nil _, rfl, rfl⟩
  obtain ⟨s, hr, howner, hpolls⟩ := hrun
  exact ⟨s, hr, howner, hpolls, (quit_kept hr).2.2 howner⟩

/-- `startLoop` has returned and the destructor asks the loop to quit before its thread comes to
`loop`: the loop polls, and polls again. -/
def quitEarly : List LoopThreadEvent :=
  [.startLoop, .publish, .startReturned, .destroy, .quit, .wakeup, .loop .enter, .loop .test,
    .loop .poll, .loop (.pollReturned true), .loop .handleRead, .loop .doPendingFunctors,
    .loop .swap, .loop .finish, .loop .test, .loop .poll]

theorem quitEarly_lost : ∃ s, Run Step {} quitEarly s ∧ s.owner = .joining ∧
    s.loop.requested = true ∧ s.loop.quit = false ∧ ¬s.loop.polls ≤ 1 := by
  refine ⟨_, .cons rfl <| .cons rfl <| .cons rfl <| .cons rfl <| .cons rfl <| .cons rfl <|
    .cons rfl <| .cons rfl <| .cons rfl <| .cons rfl <| .cons rfl <| .cons rfl <| .cons rfl <|
    .cons rfl <| .cons rfl <| .cons rfl <| .nil _, rfl, rfl, rfl, ?_⟩
  show ¬2 ≤ 1
  omega

end EventLoopThread

end JingjieAR
