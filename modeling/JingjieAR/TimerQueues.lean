import JingjieAR.TimerQueueModel
import Mathlib.Tactic.Common

/-! What a round of the timers does. The timers that are due run, once and in order; those that
repeat are queued again and the others deleted. The timerfd is armed again by the loop over the
timers that were due, so a round in which none is due leaves those that wait without it. -/
namespace JingjieAR.TimerQueue

open Runs (Run Guarded)

variable {s s' s'' : TimerQueue} {e : TimerEvent} {events : List TimerEvent} {it : TimerEntry}
  {t : Timer} {p : ℕ} {r : TimerRound} {news : List NewTimer}

theorem timerEntry_eta (it : TimerEntry) : timerEntry it.expiration it.timer = it := rfl

/-- All entries up to the reading of the clock are below its sentry. -/
theorem lt_sentry_iff {now : Timestamp} (hit : it.timer < UINTPTR_MAX) :
    it < sentry now ↔ it.expiration ≤ now := by
  rw [← timerEntry_eta it, sentry]
  unfold timerEntry
  rw [Prod.Lex.toLex_lt_toLex]
  dsimp only
  constructor
  · rintro (hlt | ⟨heq, -⟩)
    · exact le_of_lt hlt
    · exact le_of_eq heq
  · intro hle
    -- at the same time the address decides, and the sentry has the last one
    rcases lt_or_eq_of_le hle with hlt | heq
    · exact .inl hlt
    · exact .inr ⟨heq, hit⟩

/-- The timer has an entry in the set. -/
def Queued (s : TimerQueue) (p : ℕ) : Prop := ∃ it ∈ s.timers, it.timer = p

structure WellFormed (s : TimerQueue) : Prop where
  keyed : ∀ it ∈ s.timers, ∃ t, s.heap it.timer = some t ∧ t.expiration = it.expiration
  bounded : ∀ p t, s.heap p = some t → p < UINTPTR_MAX

/-- While there are timers, the timerfd is armed or has become readable. -/
def Awaited (s : TimerQueue) : Prop := s.timers.elements ≠ [] → s.timerfd ≠ .disarmed

/-- A timer that is alive is queued under its own expiration. -/
theorem WellFormed.put (h : s.WellFormed) (hp : s.heap p = some t) :
    (s.put t.expiration p).WellFormed := by
  refine ⟨?_, h.bounded⟩
  intro it hmem
  rcases OrderedSet.mem_insert.mp hmem with rfl | hold
  · exact ⟨t, hp, rfl⟩
  · exact h.keyed it hold

theorem queued_put (s : TimerQueue) (expiration : Timestamp) (p q : ℕ) :
    (s.put expiration p).Queued q ↔ q = p ∨ s.Queued q := by
  constructor
  · rintro ⟨it, hmem, rfl⟩
    rcases OrderedSet.mem_insert.mp hmem with rfl | hold
    · exact .inl rfl
    · exact .inr ⟨it, hold, rfl⟩
  · rintro (rfl | ⟨it, hmem, rfl⟩)
    · exact ⟨_, OrderedSet.mem_insert.mpr (.inl rfl), rfl⟩
    · exact ⟨it, OrderedSet.mem_insert.mpr (.inr hmem), rfl⟩

/-- `insert` says that the timer is not the first one only if there is another one. -/
theorem insert_spec (hp : s.heap p = some t) : ∃ earliestChanged,
    s.insert p = some (earliestChanged, s.put t.expiration p) ∧
      (earliestChanged = false → s.timers.elements ≠ []) := by
  refine ⟨_, by simp only [TimerQueue.insert, hp]; rfl, ?_⟩
  intro hlater hnone
  rw [OrderedSet.first_eq_none.mpr hnone] at hlater
  simp at hlater

/-- The timerfd is armed, or stays as it is since it has been seen to. -/
theorem addTimerInLoop_spec (hp : s.heap p = some t) (now : Timestamp) : ∃ fd,
    s.addTimerInLoop p now = some { s.put t.expiration p with timerfd := fd } ∧
      (fd ≠ .disarmed ∨ fd = s.timerfd ∧ s.timers.elements ≠ []) := by
  obtain ⟨earliestChanged, hinsert, hearliest⟩ := insert_spec hp
  have hput : (s.put t.expiration p).heap p = some t := hp
  cases earliestChanged with
  | true =>
    refine ⟨_, by simp only [addTimerInLoop, hinsert, Option.bind_eq_bind, Option.bind_some, hput]; rfl,
      .inl ?_⟩
    simp
  | false =>
    refine ⟨s.timerfd, ?_, .inr ⟨rfl, hearliest rfl⟩⟩
    simp only [addTimerInLoop, hinsert, Option.bind_eq_bind, Option.bind_some, hput]
    rfl

@[simp] theorem heap_store (s : TimerQueue) (q : ℕ) (timer : Option Timer) :
    (s.store q timer).heap = Function.update s.heap q timer := rfl

/-- The object of a timer that is not queued may be changed, or deleted. -/
theorem WellFormed.store (h : s.WellFormed) (hqueued : ¬s.Queued p) (hp : p < UINTPTR_MAX)
    (timer : Option Timer) : (s.store p timer).WellFormed := by
  refine ⟨?_, ?_⟩
  · intro it hmem
    have hne : it.timer ≠ p := fun heq => hqueued ⟨it, hmem, heq⟩
    rw [heap_store, Function.update_of_ne hne]
    exact h.keyed it hmem
  · intro q u hq
    by_cases hqp : q = p
    · rwa [hqp]
    · rw [heap_store, Function.update_of_ne hqp] at hq
      exact h.bounded q u hq

/-- What is added by callbacks, and which timers have been run meanwhile. -/
structure Added (s : TimerQueue) (news : List NewTimer) (ran : List ℕ) (s' : TimerQueue) :
    Prop where
  wellFormed : s'.WellFormed
  new : ∀ t ∈ news, s'.heap t.address = some t.timer
  old : ∀ p, p ∉ news.map NewTimer.address → s'.heap p = s.heap p
  queued : ∀ p, s'.Queued p ↔ p ∈ news.map NewTimer.address ∨ s.Queued p
  ran : s'.ran = s.ran++ran
  awaited : s.Awaited → s'.Awaited

/-- The allocator may give these addresses, one after another. -/
def Free (s : TimerQueue) (news : List NewTimer) : Prop :=
  (news.map NewTimer.address).Nodup ∧
    ∀ t ∈ news, s.heap t.address = none ∧ t.address < UINTPTR_MAX

/-- A timer that is alive is at none of them. -/
theorem Free.notMem (hfree : s.Free news) (hp : s.heap p = some t) :
    p ∉ news.map NewTimer.address := by
  intro hin
  obtain ⟨new, hnew, rfl⟩ := List.mem_map.mp hin
  have hnone := (hfree.2 new hnew).1
  rw [hp] at hnone
  simp at hnone

theorem Added.refl (h : s.WellFormed) : Added s [] [] s :=
  ⟨h, by simp, fun _ _ => rfl, by simp, (List.append_nil _).symm, id⟩

theorem Added.trans {news' : List NewTimer} {ran ran' : List ℕ} (h : Added s news ran s')
    (h' : Added s' news' ran' s'') (hnodup : ((news++news').map NewTimer.address).Nodup) :
    Added s (news++news') (ran++ran') s'' := by
  rw [List.map_append] at hnodup
  have hdisjoint := (List.nodup_append.mp hnodup).2.2
  refine ⟨h'.wellFormed, ?_, ?_, ?_, ?_, fun hawaited => h'.awaited (h.awaited hawaited)⟩
  · intro t hmem
    rcases List.mem_append.mp hmem with hold | hnew
    · have hnot : t.address ∉ news'.map NewTimer.address :=
        fun hin => hdisjoint _ (List.mem_map_of_mem hold) _ hin rfl
      rw [h'.old _ hnot]
      exact h.new t hold
    · exact h'.new t hnew
  · intro p hp
    rw [List.map_append, List.mem_append, not_or] at hp
    rw [h'.old p hp.2, h.old p hp.1]
  · intro p
    rw [h'.queued, h.queued, List.map_append, List.mem_append, or_left_comm, or_assoc]
  · rw [h'.ran, h.ran, List.append_assoc]

theorem Free.tail {news' : List NewTimer} {ran : List ℕ} (h : s.Free (news++news'))
    (hadded : Added s news ran s') : s'.Free news' := by
  obtain ⟨hnodup, hfree⟩ := h
  rw [List.map_append] at hnodup
  obtain ⟨-, hnodup', hdisjoint⟩ := List.nodup_append.mp hnodup
  refine ⟨hnodup', ?_⟩
  intro t hmem
  have hnot : t.address ∉ news.map NewTimer.address :=
    fun hin => hdisjoint _ hin _ (List.mem_map_of_mem hmem) rfl
  rw [hadded.old _ hnot]
  exact hfree t (List.mem_append_right _ hmem)

theorem Free.head {news' : List NewTimer} (h : s.Free (news++news')) : s.Free news := by
  obtain ⟨hnodup, hfree⟩ := h
  rw [List.map_append] at hnodup
  exact ⟨(List.nodup_append.mp hnodup).1, fun t hmem => hfree t (List.mem_append_left _ hmem)⟩

theorem addTimer_spec {t : NewTimer} (h : s.WellFormed) (hfree : s.Free [t]) :
    ∃ s', s.addTimer t = some s' ∧ Added s [t] [] s' := by
  obtain ⟨hnone, hbound⟩ := hfree.2 t (List.mem_singleton_self t)
  -- the set knows nothing of the address, as nothing was alive there
  have hnew : ¬s.Queued t.address := by
    rintro ⟨it, hmem, heq⟩
    obtain ⟨u, hu, -⟩ := h.keyed it hmem
    rw [heq, hnone] at hu
    simp at hu
  have hstored := h.store hnew hbound (some t.timer)
  have hthere : (s.store t.address (some t.timer)).heap t.address = some t.timer :=
    Function.update_self _ _ _
  obtain ⟨fd, hadd, hfd⟩ := addTimerInLoop_spec hthere t.reading
  have hput := hstored.put hthere
  refine ⟨_, hadd, ⟨hput.keyed, hput.bounded⟩, ?_, ?_, ?_, (List.append_nil _).symm, ?_⟩
  · intro u hmem
    rw [List.mem_singleton.mp hmem]
    exact hthere
  · intro p hp
    exact Function.update_of_ne (by simpa using hp) _ _
  · intro p
    rw [List.map_singleton, List.mem_singleton]
    exact queued_put (s.store t.address (some t.timer)) t.timer.expiration t.address p
  · intro hawaited _
    rcases hfd with hfd | ⟨hsame, hsome⟩
    · exact hfd
    · show fd ≠ .disarmed
      rw [hsame]
      exact hawaited hsome

theorem foldlM_addTimer (h : s.WellFormed) (hfree : s.Free news) :
    ∃ s', news.foldlM addTimer s = some s' ∧ Added s news [] s' := by
  induction news generalizing s with
  | nil => exact ⟨s, rfl, .refl h⟩
  | cons t news ih =>
    have hboth : s.Free ([t]++news) := hfree
    obtain ⟨s₁, hadd, hadded⟩ := addTimer_spec h hboth.head
    obtain ⟨s', hrest, hlater⟩ := ih hadded.wellFormed (hboth.tail hadded)
    refine ⟨s', ?_, hadded.trans hlater hfree.1⟩
    rw [List.foldlM_cons, hadd]
    exact hrest

/-- The callback of one timer. -/
theorem run_spec {added : ℕ → List NewTimer} (h : s.WellFormed) (hit : s.heap it.timer = some t)
    (hfree : s.Free (added it.timer)) :
    ∃ s', run added s it = some s' ∧ Added s (added it.timer) [it.timer] s' := by
  have hran : WellFormed { s with ran := s.ran++[it.timer] } := ⟨h.keyed, h.bounded⟩
  obtain ⟨s', hfold, hadded⟩ := foldlM_addTimer hran hfree
  refine ⟨s', ?_, hadded.wellFormed, hadded.new, hadded.old, hadded.queued, ?_, hadded.awaited⟩
  · simp only [run, hit, Option.bind_eq_bind, Option.bind_some]
    exact hfold
  · rw [hadded.ran]
    exact List.append_nil _

/-- The callbacks of the timers that are due, one after another: none of them takes a timer that
is still to be run. -/
theorem foldlM_run {added : ℕ → List NewTimer} {expired : List TimerEntry} (h : s.WellFormed)
    (halive : ∀ it ∈ expired, ∃ t, s.heap it.timer = some t)
    (hfree : s.Free (expired.flatMap (fun it => added it.timer))) :
    ∃ s', expired.foldlM (run added) s = some s' ∧
      Added s (expired.flatMap (fun it => added it.timer)) (expired.map TimerEntry.timer) s' := by
  induction expired generalizing s with
  | nil => exact ⟨s, rfl, .refl h⟩
  | cons it expired ih =>
    obtain ⟨t, ht⟩ := halive it List.mem_cons_self
    rw [List.flatMap_cons] at hfree
    obtain ⟨s₁, hrun, hadded⟩ := run_spec h ht hfree.head
    -- the allocator gives no address of a timer whose turn is still to come
    have halive₁ : ∀ it' ∈ expired, ∃ t', s₁.heap it'.timer = some t' := by
      intro it' hmem
      obtain ⟨t', ht'⟩ := halive it' (List.mem_cons_of_mem _ hmem)
      exact ⟨t', (hadded.old it'.timer (hfree.head.notMem ht')).trans ht'⟩
    obtain ⟨s', hrest, hlater⟩ := ih hadded.wellFormed halive₁ (hfree.tail hadded)
    refine ⟨s', ?_, hadded.trans hlater hfree.1⟩
    rw [List.foldlM_cons, hrun]
    exact hrest

/-- What `reset` makes of the timers that were run. -/
structure Rescheduled (r : TimerRound) (s : TimerQueue) (ran : List ℕ) (s' : TimerQueue) :
    Prop where
  wellFormed : s'.WellFormed
  again : ∀ p ∈ ran, ∀ t, s.heap p = some t → t.repeats = true →
    s'.heap p = some (t.restart (r.restarted p)) ∧ s'.Queued p
  gone : ∀ p ∈ ran, ∀ t, s.heap p = some t → t.repeats = false → s'.heap p = none ∧ ¬s'.Queued p
  others : ∀ p, p ∉ ran → s'.heap p = s.heap p ∧ (s'.Queued p ↔ s.Queued p)
  ran : s'.ran = s.ran

/-- The timerfd is armed for whatever is first then. -/
theorem rearm_spec (h : s.WellFormed) (now : Timestamp) : ∃ fd,
    (match s.timers.first with
      | none => some s
      | some first => (s.heap first.timer).bind (fun t => some (s.resetTimerfd t.expiration now))) =
      some { s with timerfd := fd } ∧ (s.timers.elements ≠ [] → fd ≠ .disarmed) := by
  cases hfirst : s.timers.first with
  | none => exact ⟨s.timerfd, rfl, fun hsome => absurd (OrderedSet.first_eq_none.mp hfirst) hsome⟩
  | some first =>
    obtain ⟨t, ht, -⟩ := h.keyed first (OrderedSet.mem_of_first hfirst)
    refine ⟨_, by simp only [ht, Option.bind_some]; rfl, ?_⟩
    simp

theorem Rescheduled.rearmed {ran : List ℕ} (h : Rescheduled r s ran s') (fd : TimerFd) :
    Rescheduled r s ran { s' with timerfd := fd } :=
  ⟨⟨h.wellFormed.keyed, h.wellFormed.bounded⟩, h.again, h.gone, h.others, h.ran⟩

/-- A timer that repeats is restarted and queued again. -/
theorem rescheduled_put (h : s.WellFormed) (hp : s.heap p = some t) (hqueued : ¬s.Queued p)
    (hrepeats : t.repeats = true) : Rescheduled r s [p]
      ((s.store p (some (t.restart (r.restarted p)))).put
        (t.restart (r.restarted p)).expiration p) := by
  have hbound := h.bounded p t hp
  have hthere : (s.store p (some (t.restart (r.restarted p)))).heap p =
      some (t.restart (r.restarted p)) := Function.update_self _ _ _
  refine ⟨(h.store hqueued hbound _).put hthere, ?_, ?_, ?_, rfl⟩
  · intro q hq u hu _
    obtain rfl := List.mem_singleton.mp hq
    obtain rfl := Option.some.inj (hp.symm.trans hu)
    exact ⟨hthere, (queued_put _ _ _ _).mpr (.inl rfl)⟩
  · intro q hq u hu hnot
    obtain rfl := List.mem_singleton.mp hq
    obtain rfl := Option.some.inj (hp.symm.trans hu)
    rw [hrepeats] at hnot
    simp at hnot
  · intro q hq
    have hne : q ≠ p := by simpa using hq
    refine ⟨Function.update_of_ne hne _ _, ?_⟩
    rw [queued_put]
    exact or_iff_right hne

/-- Any other timer is deleted. -/
theorem rescheduled_delete (h : s.WellFormed) (hp : s.heap p = some t) (hqueued : ¬s.Queued p)
    (hrepeats : t.repeats = false) : Rescheduled r s [p] (s.store p none) := by
  refine ⟨h.store hqueued (h.bounded p t hp) none, ?_, ?_, ?_, rfl⟩
  · intro q hq u hu hyes
    obtain rfl := List.mem_singleton.mp hq
    obtain rfl := Option.some.inj (hp.symm.trans hu)
    rw [hrepeats] at hyes
    simp at hyes
  · intro q hq _ _ _
    obtain rfl := List.mem_singleton.mp hq
    exact ⟨Function.update_self _ _ _, hqueued⟩
  · intro q hq
    exact ⟨Function.update_of_ne (by simpa using hq) _ _, .rfl⟩

theorem resetOne_spec (h : s.WellFormed) (hit : s.heap it.timer = some t)
    (hqueued : ¬s.Queued it.timer) :
    ∃ s', resetOne r s it = some s' ∧ Rescheduled r s [it.timer] s' ∧ s'.Awaited := by
  cases hrepeats : t.repeats with
  | true =>
    have hthere : (s.store it.timer (some (t.restart (r.restarted it.timer)))).heap it.timer =
        some (t.restart (r.restarted it.timer)) := Function.update_self _ _ _
    obtain ⟨earliestChanged, hinsert, -⟩ := insert_spec hthere
    have hput := rescheduled_put (r := r) h hit hqueued hrepeats
    obtain ⟨fd, hrearm, hfd⟩ := rearm_spec hput.wellFormed (r.rearmed it.timer)
    refine ⟨_, ?_, hput.rearmed fd, hfd⟩
    simp only [resetOne, hit, Option.bind_eq_bind, Option.bind_some, hrepeats, if_true, hinsert,
      Option.map_some]
    exact hrearm
  | false =>
    have hdelete := rescheduled_delete (r := r) h hit hqueued hrepeats
    obtain ⟨fd, hrearm, hfd⟩ := rearm_spec hdelete.wellFormed (r.rearmed it.timer)
    refine ⟨_, ?_, hdelete.rearmed fd, hfd⟩
    simp only [resetOne, hit, Option.bind_eq_bind, Option.bind_some, hrepeats, Bool.false_eq_true,
      if_false]
    exact hrearm

/-- The rounds of the loop are about different timers. -/
theorem Rescheduled.trans {ran ran' : List ℕ} (h : Rescheduled r s ran s')
    (h' : Rescheduled r s' ran' s'') (hnodup : (ran++ran').Nodup) :
    Rescheduled r s (ran++ran') s'' := by
  have hdisjoint := (List.nodup_append.mp hnodup).2.2
  have hlater : ∀ p ∈ ran, s''.heap p = s'.heap p ∧ (s''.Queued p ↔ s'.Queued p) :=
    fun p hp => h'.others p (fun hin => hdisjoint p hp p hin rfl)
  have hearlier : ∀ p ∈ ran', s'.heap p = s.heap p ∧ (s'.Queued p ↔ s.Queued p) :=
    fun p hp => h.others p (fun hin => hdisjoint p hin p hp rfl)
  refine ⟨h'.wellFormed, ?_, ?_, ?_, h'.ran.trans h.ran⟩
  · intro p hp t ht hrepeats
    rcases List.mem_append.mp hp with hp | hp
    · rw [(hlater p hp).1, (hlater p hp).2]
      exact h.again p hp t ht hrepeats
    · exact h'.again p hp t ((hearlier p hp).1.trans ht) hrepeats
  · intro p hp t ht hrepeats
    rcases List.mem_append.mp hp with hp | hp
    · rw [(hlater p hp).1, (hlater p hp).2]
      exact h.gone p hp t ht hrepeats
    · exact h'.gone p hp t ((hearlier p hp).1.trans ht) hrepeats
  · intro p hp
    rw [List.mem_append, not_or] at hp
    obtain ⟨hheap, hqueued⟩ := h.others p hp.1
    obtain ⟨hheap', hqueued'⟩ := h'.others p hp.2
    exact ⟨hheap'.trans hheap, hqueued'.trans hqueued⟩

theorem foldlM_resetOne {expired : List TimerEntry} (h : s.WellFormed)
    (halive : ∀ it ∈ expired, ∃ t, s.heap it.timer = some t)
    (hqueued : ∀ it ∈ expired, ¬s.Queued it.timer)
    (hnodup : (expired.map TimerEntry.timer).Nodup) :
    ∃ s', expired.foldlM (resetOne r) s = some s' ∧
      Rescheduled r s (expired.map TimerEntry.timer) s' ∧ (expired ≠ [] → s'.Awaited) ∧
      (expired = [] → s' = s) := by
  induction expired generalizing s with
  | nil =>
    refine ⟨s, rfl, ⟨h, by simp, by simp, ?_, rfl⟩, by simp, fun _ => rfl⟩
    exact fun _ _ => ⟨rfl, .rfl⟩
  | cons it expired ih =>
    obtain ⟨t, ht⟩ := halive it List.mem_cons_self
    obtain ⟨s₁, hone, hreset, hawaited⟩ := resetOne_spec (r := r) h ht (hqueued it List.mem_cons_self)
    obtain ⟨hnot, hnodup'⟩ := List.nodup_cons.mp hnodup
    -- the turn of one timer leaves the later ones as they are
    have hsame : ∀ it' ∈ expired, s₁.heap it'.timer = s.heap it'.timer ∧
        (s₁.Queued it'.timer ↔ s.Queued it'.timer) := by
      intro it' hmem
      refine hreset.others it'.timer ?_
      rintro hin
      rw [List.mem_singleton] at hin
      exact hnot (hin ▸ List.mem_map_of_mem hmem)
    obtain ⟨s', hrest, hlater, hawaited', hnone⟩ := ih hreset.wellFormed
      (fun it' hmem => by
        rw [(hsame it' hmem).1]
        exact halive it' (List.mem_cons_of_mem _ hmem))
      (fun it' hmem => by
        rw [(hsame it' hmem).2]
        exact hqueued it' (List.mem_cons_of_mem _ hmem))
      hnodup'
    refine ⟨s', ?_, hreset.trans hlater hnodup, fun _ => ?_, by simp⟩
    · rw [List.foldlM_cons, hone]
      exact hrest
    · -- the last turn is the one that counts
      by_cases hlast : expired = []
      · rw [hnone hlast]
        exact hawaited
      · exact hawaited' hlast

/-- A timer that is queued has one entry, which is under its expiration. -/
theorem WellFormed.entry_eq (h : s.WellFormed) (hmem : it ∈ s.timers)
    (hp : s.heap it.timer = some t) : it = timerEntry t.expiration it.timer := by
  obtain ⟨u, hu, hexpiration⟩ := h.keyed it hmem
  obtain rfl := Option.some.inj (hp.symm.trans hu)
  rw [hexpiration, timerEntry_eta]

theorem WellFormed.unique (h : s.WellFormed) {it' : TimerEntry} (hmem : it ∈ s.timers)
    (hmem' : it' ∈ s.timers) (htimer : it.timer = it'.timer) : it = it' := by
  obtain ⟨t, ht, -⟩ := h.keyed it hmem
  rw [h.entry_eq hmem ht, h.entry_eq hmem' (htimer ▸ ht), htimer]

/-- The timers that are due, in the order of the set. -/
def expired (s : TimerQueue) (now : Timestamp) : List TimerEntry := s.timers.below (sentry now)

/-- What is left when they are taken out. -/
def remaining (s : TimerQueue) (now : Timestamp) : TimerQueue :=
  { s.readTimerFd with timers := s.timers.eraseBelow (sentry now) }

theorem WellFormed.mem_expired (h : s.WellFormed) {now : Timestamp} :
    it ∈ s.expired now ↔ it ∈ s.timers ∧ it.expiration ≤ now := by
  rw [expired, OrderedSet.mem_below]
  refine and_congr_right ?_
  intro hmem
  obtain ⟨t, ht, -⟩ := h.keyed it hmem
  exact lt_sentry_iff (h.bounded _ t ht)

theorem WellFormed.mem_remaining (h : s.WellFormed) {now : Timestamp} :
    it ∈ (s.remaining now).timers ↔ it ∈ s.timers ∧ now < it.expiration := by
  show it ∈ s.timers.eraseBelow (sentry now) ↔ _
  rw [OrderedSet.mem_eraseBelow]
  refine and_congr_right ?_
  intro hmem
  obtain ⟨t, ht, -⟩ := h.keyed it hmem
  rw [lt_sentry_iff (h.bounded _ t ht), not_le]

theorem WellFormed.nodup_expired (h : s.WellFormed) (now : Timestamp) :
    ((s.expired now).map TimerEntry.timer).Nodup := by
  refine List.Nodup.map_on ?_ ((s.timers.sorted_below _).imp (fun h => ne_of_lt h))
  intro it hit it' hit' htimer
  exact h.unique (OrderedSet.mem_below.mp hit).1 (OrderedSet.mem_below.mp hit').1 htimer

theorem WellFormed.remaining (h : s.WellFormed) (now : Timestamp) :
    (s.remaining now).WellFormed := by
  refine ⟨?_, h.bounded⟩
  intro it hmem
  exact h.keyed it (OrderedSet.mem_eraseBelow.mp hmem).1

/-- A timer that is taken out is not queued any more. -/
theorem WellFormed.not_queued_expired (h : s.WellFormed) {now : Timestamp}
    (hit : it ∈ s.expired now) : ¬(s.remaining now).Queued it.timer := by
  rintro ⟨it', hmem, htimer⟩
  obtain ⟨hthere, hdue⟩ := h.mem_expired.mp hit
  obtain ⟨hthere', hlater⟩ := h.mem_remaining.mp hmem
  obtain rfl := h.unique hthere' hthere htimer
  exact absurd hdue (not_le_of_gt hlater)

theorem handleRead_eq (s : TimerQueue) (r : TimerRound) :
    s.handleRead r = ((s.expired r.now).foldlM (run r.added) (s.remaining r.now)).bind
      (fun s' => (s.expired r.now).foldlM (resetOne r) s') := rfl

/-- What a round does: the callbacks run on what remains, and then the timers that were run are
rescheduled or deleted. -/
theorem handleRead_spec (h : s.WellFormed) (hfree : s.Free (s.addedIn r)) :
    ∃ s₁ s', Added (s.remaining r.now) (s.addedIn r) ((s.expired r.now).map TimerEntry.timer) s₁ ∧
      s.handleRead r = some s' ∧
      Rescheduled r s₁ ((s.expired r.now).map TimerEntry.timer) s' ∧
      (s.expired r.now ≠ [] → s'.Awaited) ∧
      (s.expired r.now = [] → s' = s.remaining r.now) := by
  have halive : ∀ it ∈ s.expired r.now, ∃ t, s.heap it.timer = some t := by
    intro it hit
    obtain ⟨t, ht, -⟩ := h.keyed it (h.mem_expired.mp hit).1
    exact ⟨t, ht⟩
  have hcallbacks : Free (s.remaining r.now)
      ((s.expired r.now).flatMap (fun it => r.added it.timer)) := hfree
  obtain ⟨s₁, hrun, hadded⟩ := foldlM_run (h.remaining r.now) halive hcallbacks
  have hold : ∀ it ∈ s.expired r.now, it.timer ∉ (s.addedIn r).map NewTimer.address := by
    intro it hit
    obtain ⟨t, ht⟩ := halive it hit
    exact hfree.notMem ht
  have halive₁ : ∀ it ∈ s.expired r.now, ∃ t, s₁.heap it.timer = some t := by
    intro it hit
    rw [hadded.old _ (hold it hit)]
    exact halive it hit
  have hqueued₁ : ∀ it ∈ s.expired r.now, ¬s₁.Queued it.timer := by
    intro it hit
    rw [hadded.queued, not_or]
    exact ⟨hold it hit, h.not_queued_expired hit⟩
  obtain ⟨s', hreset, hrescheduled, hawaited, hnone⟩ :=
    foldlM_resetOne (r := r) hadded.wellFormed halive₁ hqueued₁ (h.nodup_expired r.now)
  refine ⟨s₁, s', hadded, ?_, hrescheduled, hawaited, ?_⟩
  · rw [handleRead_eq, hrun]
    exact hreset
  · intro hempty
    rw [hnone hempty]
    rw [hempty] at hrun
    exact (Option.some.inj hrun).symm

/-- The entries of a timer. -/
def entries (s : TimerQueue) (p : ℕ) : List TimerEntry :=
  s.timers.elements.filter (fun it => it.timer = p)

theorem entries_of_not_queued (h : ¬s.Queued p) : s.entries p = [] := by
  refine List.filter_eq_nil_iff.mpr ?_
  intro it hmem htimer
  exact h ⟨it, hmem, by simpa using htimer⟩

theorem WellFormed.entries_of_mem (h : s.WellFormed) (hmem : it ∈ s.timers) :
    s.entries it.timer = [it] := by
  have hperm : (s.entries it.timer).Perm [it] := by
    refine (List.perm_ext_iff_of_nodup (s.timers.nodup.filter _) (List.nodup_singleton it)).mpr ?_
    intro it'
    rw [List.mem_filter, List.mem_singleton]
    constructor
    · rintro ⟨hmem', htimer⟩
      exact h.unique hmem' hmem (by simpa using htimer)
    · rintro rfl
      exact ⟨hmem, by simp⟩
  exact List.perm_singleton.mp hperm

theorem WellFormed.entries_of_queued (h : s.WellFormed) (hqueued : s.Queued p)
    (hp : s.heap p = some t) : s.entries p = [timerEntry t.expiration p] := by
  obtain ⟨it, hmem, rfl⟩ := hqueued
  rw [h.entries_of_mem hmem, ← h.entry_eq hmem hp]

/-- What a round of `handleRead` is for. -/
structure Fires (s : TimerQueue) (r : TimerRound) (fired : List ℕ) (s' : TimerQueue) : Prop where
  ran : s'.ran = s.ran++fired
  once : fired.Nodup
  due : ∀ p, p ∈ fired ↔ ∃ it ∈ s.timers, it.timer = p ∧ it.expiration ≤ r.now
  inOrder : fired.Pairwise (fun p q =>
    ∀ t u, s.heap p = some t → s.heap q = some u → t.expiration ≤ u.expiration)
  oneShot : ∀ p ∈ fired, ∀ t, s.heap p = some t → t.repeats = false → s'.entries p = []
  repeating : ∀ p ∈ fired, ∀ t, s.heap p = some t → t.repeats = true →
    s'.entries p = [timerEntry (r.restarted p+t.delta) p]
  others : ∀ it ∈ s.timers, r.now < it.expiration → s'.entries it.timer = [it]
  added : ∀ t ∈ s.addedIn r, s'.entries t.address = [timerEntry t.timer.expiration t.address]
  only : ∀ it ∈ s'.timers, it.timer ∈ fired ∨ it ∈ s.timers ∨
    it.timer ∈ (s.addedIn r).map NewTimer.address
  keyed : ∀ it ∈ s'.timers, ∃ t, s'.heap it.timer = some t ∧ t.expiration = it.expiration

theorem WellFormed.mem_fired (h : s.WellFormed) :
    p ∈ (s.expired r.now).map TimerEntry.timer ↔
      ∃ it ∈ s.timers, it.timer = p ∧ it.expiration ≤ r.now := by
  rw [List.mem_map]
  constructor
  · rintro ⟨it, hit, rfl⟩
    obtain ⟨hthere, hdue⟩ := h.mem_expired.mp hit
    exact ⟨it, hthere, rfl, hdue⟩
  · rintro ⟨it, hthere, rfl, hdue⟩
    exact ⟨it, h.mem_expired.mpr ⟨hthere, hdue⟩, rfl⟩

/-- A timer that was added has an address of its own. -/
theorem WellFormed.added_not_fired (h : s.WellFormed) (hfree : s.Free (s.addedIn r))
    {new : NewTimer} (hnew : new ∈ s.addedIn r) :
    new.address ∉ (s.expired r.now).map TimerEntry.timer := by
  intro hin
  obtain ⟨it, hthere, heq, -⟩ := h.mem_fired.mp hin
  obtain ⟨u, hu, -⟩ := h.keyed it hthere
  exact hfree.notMem hu (heq ▸ List.mem_map_of_mem hnew)

/-- A timer that was there before is none that was added. -/
theorem Added.heap_eq {now : Timestamp} {fired : List ℕ}
    (hadded : Added (s.remaining now) news fired s') (hfree : s.Free news)
    (hp : s.heap p = some t) : s'.heap p = some t := by
  have hremaining : (s.remaining now).heap p = some t := hp
  rw [hadded.old p (hfree.notMem hp), hremaining]

theorem WellFormed.fired_inOrder (h : s.WellFormed) (now : Timestamp) :
    ((s.expired now).map TimerEntry.timer).Pairwise (fun p q =>
      ∀ t u, s.heap p = some t → s.heap q = some u → t.expiration ≤ u.expiration) := by
  refine List.pairwise_map.mpr ((s.timers.sorted_below _).imp_of_mem ?_)
  intro it it' hit hit' hlt t u ht hu
  have hkey := h.entry_eq (OrderedSet.mem_below.mp hit).1 ht
  have hkey' := h.entry_eq (OrderedSet.mem_below.mp hit').1 hu
  rw [hkey, hkey'] at hlt
  exact Prod.Lex.monotone_fst_ofLex (le_of_lt hlt)

theorem WellFormed.fires (h : s.WellFormed) (hfree : s.Free (s.addedIn r)) :
    ∃ s', s.handleRead r = some s' ∧ s'.WellFormed ∧
      Fires s r ((s.expired r.now).map TimerEntry.timer) s' := by
  obtain ⟨s₁, s', hadded, hs', hreset, -, -⟩ := handleRead_spec h hfree
  have hold : ∀ p t, s.heap p = some t → s₁.heap p = some t :=
    fun p t hp => hadded.heap_eq hfree hp
  refine ⟨s', hs', hreset.wellFormed, ?_, h.nodup_expired r.now, fun p => h.mem_fired,
    h.fired_inOrder r.now, ?_, ?_, ?_, ?_, ?_, hreset.wellFormed.keyed⟩
  · rw [hreset.ran, hadded.ran]
    rfl
  · intro p hp t ht hrepeats
    exact entries_of_not_queued (hreset.gone p hp t (hold p t ht) hrepeats).2
  · intro p hp t ht hrepeats
    obtain ⟨hheap, hqueued⟩ := hreset.again p hp t (hold p t ht) hrepeats
    rw [hreset.wellFormed.entries_of_queued hqueued hheap]
    simp [Timer.restart, hrepeats]
  · intro it hthere hlater
    obtain ⟨t, ht, -⟩ := h.keyed it hthere
    have hnot : it.timer ∉ (s.expired r.now).map TimerEntry.timer := by
      intro hin
      obtain ⟨it', hthere', htimer, hdue⟩ := h.mem_fired.mp hin
      obtain rfl := h.unique hthere' hthere htimer
      exact absurd hdue (not_le_of_gt hlater)
    obtain ⟨hheap, hqueued⟩ := hreset.others _ hnot
    have hqueued₁ : s₁.Queued it.timer :=
      (hadded.queued _).mpr (.inr ⟨it, h.mem_remaining.mpr ⟨hthere, hlater⟩, rfl⟩)
    have hentries := hreset.wellFormed.entries_of_queued (hqueued.mpr hqueued₁)
      (hheap.trans (hold _ t ht))
    rw [hentries, ← h.entry_eq hthere ht]
  · intro t ht
    obtain ⟨hheap, hqueued⟩ := hreset.others _ (h.added_not_fired hfree ht)
    have hqueued₁ : s₁.Queued t.address :=
      (hadded.queued _).mpr (.inl (List.mem_map_of_mem ht))
    exact hreset.wellFormed.entries_of_queued (hqueued.mpr hqueued₁)
      (hheap.trans (hadded.new t ht))
  · intro it hthere
    by_cases hfired : it.timer ∈ (s.expired r.now).map TimerEntry.timer
    · exact .inl hfired
    · obtain ⟨hheap, hqueued⟩ := hreset.others _ hfired
      rcases (hadded.queued _).mp (hqueued.mp ⟨it, hthere, rfl⟩) with hin | ⟨it', hthere', htimer⟩
      · exact .inr (.inr hin)
      · -- it is under its own expiration, then and now
        obtain ⟨hmem', -⟩ := h.mem_remaining.mp hthere'
        obtain ⟨t, ht, -⟩ := h.keyed it' hmem'
        have hkey := h.entry_eq hmem' ht
        have hkey' := hreset.wellFormed.entry_eq hthere
          (hheap.trans (hold _ t (htimer ▸ ht)))
        rw [hkey', ← htimer, ← hkey]
        exact .inr (.inl hmem')

theorem free_of_allocates {t : NewTimer} (h : s.Allocates (.add t)) : s.Free [t] := by
  refine ⟨List.nodup_singleton _, ?_⟩
  intro u hu
  rw [List.mem_singleton.mp hu]
  exact h

theorem WellFormed.step (h : s.WellFormed) (halloc : s.Allocates e) (hs : s.Step e s') :
    s'.WellFormed := by
  cases e with
  | add t =>
    obtain ⟨s₁, hadd, hadded⟩ := addTimer_spec h (free_of_allocates halloc)
    obtain rfl := Option.some.inj (hadd.symm.trans hs)
    exact hadded.wellFormed
  | fire =>
    simp only [Step, next] at hs
    split at hs
    · obtain rfl := Option.some.inj hs
      exact ⟨h.keyed, h.bounded⟩
    · simp at hs
  | handleRead r =>
    obtain ⟨s₁, hfires, hformed, -⟩ := h.fires halloc
    obtain rfl := Option.some.inj (hfires.symm.trans hs)
    exact hformed

theorem wellFormed_of_run (hr : Run (Guarded Allocates Step) {} events s) : s.WellFormed := by
  have hstart : WellFormed {} := by
    refine ⟨?_, by simp⟩
    intro it hmem
    simp [OrderedSet.mem_def] at hmem
  have hstep : ∀ (s : TimerQueue) (e : TimerEvent) (s' : TimerQueue),
      s.WellFormed → Guarded Allocates Step s e s' → s'.WellFormed :=
    fun s e s' h hs => h.step hs.1 hs.2
  exact hr.invariant hstep hstart

/-- Whatever timers there are, whatever the clock reads and whatever timers the callbacks add: a
round runs the timers that are due and keeps the others. -/
theorem handleRead_fires (hr : Run (Guarded Allocates Step) {} events s)
    (halloc : s.Allocates (.handleRead r)) :
    ∃ fired s', s.handleRead r = some s' ∧ Fires s r fired s' := by
  obtain ⟨s', hs', -, hfires⟩ := (wellFormed_of_run hr).fires halloc
  exact ⟨_, s', hs', hfires⟩

/-- A timer that repeats and, for the same instant, one that does not. -/
def twoTimers : List TimerEvent :=
  [.add ⟨32, ⟨1000000, 0, false⟩, 0⟩, .add ⟨16, ⟨1000000, 500000, true⟩, 0⟩, .fire]

/-- Both are due, and the callback of the first one adds a third one. -/
def twoDue : TimerRound where
  now := 1000007
  added := fun timer => if timer = 16 then [⟨48, ⟨1000001, 0, false⟩, 1000008⟩] else []
  restarted := fun _ => 1000009

theorem twoDue_free {s : TimerQueue}
    (hadded : s.addedIn twoDue = [⟨48, ⟨1000001, 0, false⟩, 1000008⟩])
    (hnone : s.heap 48 = none) : s.Allocates (.handleRead twoDue) := by
  show ((s.addedIn twoDue).map NewTimer.address).Nodup ∧ ∀ t ∈ s.addedIn twoDue, _
  rw [hadded]
  refine ⟨List.nodup_singleton 48, ?_⟩
  intro t ht
  rw [List.mem_singleton.mp ht]
  exact ⟨hnone, by decide⟩

theorem twoTimers_fires : ∃ s fired s', Run (Guarded Allocates Step) {} twoTimers s ∧
    s.handleRead twoDue = some s' ∧ s'.ran = [16, 32] ∧
    s'.timers.elements = [timerEntry 1000001 48, timerEntry 1500009 16] ∧
    Fires s twoDue fired s' := by
  have hrun : ∃ s s', Run (Guarded Allocates Step) {} twoTimers s ∧
      s.Allocates (.handleRead twoDue) ∧ s.handleRead twoDue = some s' ∧ s'.ran = [16, 32] ∧
      s'.timers.elements = [timerEntry 1000001 48, timerEntry 1500009 16] :=
    ⟨_, _, .cons ⟨⟨rfl, by decide⟩, rfl⟩ <| .cons ⟨⟨rfl, by decide⟩, rfl⟩ <|
      .cons ⟨trivial, rfl⟩ <| .nil _, twoDue_free rfl rfl, rfl, rfl, rfl⟩
  obtain ⟨s, s', hr, halloc, hs', hran, helements⟩ := hrun
  obtain ⟨fired, s₁, hs₁, hfires⟩ := handleRead_fires hr halloc
  obtain rfl := Option.some.inj (hs'.symm.trans hs₁)
  exact ⟨s, fired, s', hr, hs', hran, helements, hfires⟩

/-- When the timerfd has become readable and there are timers, one of them is due. -/
def Timely (s : TimerQueue) : TimerEvent → Prop
  | .handleRead r => s.timerfd = .readable →
      s.timers.elements = [] ∨ ∃ it ∈ s.timers, it.expiration ≤ r.now
  | _ => True

/-- A round in which no timer is due reads the timerfd and arms nothing. -/
theorem awaited_remaining_iff (hawaited : s.Awaited) {now : Timestamp} (hnone : s.expired now = []) :
    (s.remaining now).Awaited ↔ (s.timerfd = .readable → s.timers.elements = []) := by
  have hsame : (s.remaining now).timers.elements = s.timers.elements := by
    have hsplit := s.timers.below_append_eraseBelow (sentry now)
    rw [expired] at hnone
    rwa [hnone, List.nil_append] at hsplit
  have hfd : (s.remaining now).timerfd =
      if s.timerfd = .readable then .disarmed else s.timerfd := rfl
  unfold Awaited
  rw [hsame, hfd]
  split_ifs with hreadable
  · simp [hreadable]
  · simp only [hreadable, false_imp_iff, iff_true]
    exact hawaited

theorem awaited_step_iff (h : s.WellFormed) (hawaited : s.Awaited) (halloc : s.Allocates e)
    (hs : s.Step e s') : s'.Awaited ↔ s.Timely e := by
  cases e with
  | add t =>
    obtain ⟨s₁, hadd, hadded⟩ := addTimer_spec h (free_of_allocates halloc)
    obtain rfl := Option.some.inj (hadd.symm.trans hs)
    exact iff_of_true (hadded.awaited hawaited) trivial
  | fire =>
    simp only [Step, next] at hs
    split at hs
    · obtain rfl := Option.some.inj hs
      exact iff_of_true (fun _ => by simp) trivial
    · simp at hs
  | handleRead r =>
    obtain ⟨s₁, s₂, -, hs₂, -, hsome, hnone⟩ := handleRead_spec h halloc
    obtain rfl := Option.some.inj (hs₂.symm.trans hs)
    by_cases hexpired : s.expired r.now = []
    · rw [hnone hexpired, awaited_remaining_iff hawaited hexpired]
      refine imp_congr_right ?_
      intro _
      refine (or_iff_left ?_).symm
      rintro ⟨it, hmem, hdue⟩
      have hin := h.mem_expired.mpr ⟨hmem, hdue⟩
      rw [hexpired] at hin
      simp at hin
    · refine iff_of_true (hsome hexpired) ?_
      intro _
      obtain ⟨it, hit⟩ := List.exists_mem_of_ne_nil _ hexpired
      exact .inr ⟨it, h.mem_expired.mp hit⟩

/-- As long as each round finds a timer that is due the timers are awaited, and by the first one
that finds none they are lost. -/
theorem awaited_iff_timely (hr : Run (Guarded Timely (Guarded Allocates Step)) {} events s) :
    s.Awaited ∧ ∀ (e : TimerEvent) (s' : TimerQueue), Guarded Allocates Step s e s' →
      (s'.Awaited ↔ s.Timely e) := by
  have hformed := wellFormed_of_run hr.unguarded
  have hstep : ∀ (s : TimerQueue) (e : TimerEvent) (s' : TimerQueue),
      s.WellFormed ∧ s.Awaited → Guarded Timely (Guarded Allocates Step) s e s' →
        s'.WellFormed ∧ s'.Awaited := by
    intro s e s' ⟨h, hawaited⟩ ⟨htimely, halloc, hs⟩
    exact ⟨h.step halloc hs, (awaited_step_iff h hawaited halloc hs).mpr htimely⟩
  have hstart : WellFormed {} ∧ Awaited {} := ⟨wellFormed_of_run (.nil _), by simp [Awaited]⟩
  have hawaited := (hr.invariant hstep hstart).2
  exact ⟨hawaited, fun e s' hs => awaited_step_iff hformed hawaited hs.1 hs.2⟩

/-- Two timers are due and a third one comes: the timerfd is armed for it. -/
theorem twoDue_awaited : ∃ s, Run (Guarded Timely (Guarded Allocates Step)) {}
    (twoTimers++[.handleRead twoDue]) s ∧ s.timerfd = .armed 100 ∧ s.Awaited := by
  have hrun : ∃ s, Run (Guarded Timely (Guarded Allocates Step)) {}
      (twoTimers++[.handleRead twoDue]) s ∧ s.timerfd = .armed 100 := by
    refine ⟨_, .cons ⟨trivial, ⟨rfl, by decide⟩, rfl⟩ <| .cons ⟨trivial, ⟨rfl, by decide⟩, rfl⟩ <|
      .cons ⟨trivial, trivial, rfl⟩ <| .cons ⟨fun _ => .inr ⟨timerEntry 1000000 16, ?_, by decide⟩,
        twoDue_free rfl rfl, rfl⟩ <| .nil _, rfl⟩
    exact List.mem_cons_self
  obtain ⟨s, hr, harmed⟩ := hrun
  exact ⟨s, hr, harmed, (awaited_iff_timely hr).1⟩

/-- The clock has been set back by the time the timerfd becomes readable. -/
def setBack : List TimerEvent :=
  [.add ⟨16, ⟨1000000, 0, false⟩, 0⟩, .fire, .handleRead { now := 400000 }]

theorem setBack_lost : ∃ s, Run (Guarded Allocates Step) {} setBack s ∧
    s.timers.elements = [timerEntry 1000000 16] ∧ s.timerfd = .disarmed ∧ ¬s.Awaited := by
  refine ⟨_, .cons ⟨⟨rfl, by decide⟩, rfl⟩ <| .cons ⟨trivial, rfl⟩ <|
    .cons ⟨⟨List.nodup_nil, ?_⟩, rfl⟩ <| .nil _, rfl, rfl, ?_⟩
  · show ∀ t ∈ [], _
    simp
  · intro hawaited
    exact hawaited (List.cons_ne_nil _ _) rfl

end JingjieAR.TimerQueue
