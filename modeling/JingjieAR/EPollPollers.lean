import JingjieAR.EPollPollerModel
import Mathlib.Tactic.SplitIfs

/-! A poller and the kernel follow the channels: as long as no two channels that are in use have
one descriptor, the interest list holds what the channels ask for and no `epoll_ctl` fails. -/
namespace JingjieAR.EPollPoller

/-- The poller knows the registered channels, and the kernel those that are added. -/
structure Mirrors (p : EPollPoller) (channel : ℕ → Option Channel) : Prop where
  channels : ∀ fd self, p.channels fd = some self ↔
    ∃ c, channel self = some c ∧ c.fd = fd ∧ c.index ≠ .kNew
  interest : ∀ fd self events, p.interest fd = some (self, events) ↔
    ∃ c, channel self = some c ∧ c.fd = fd ∧ c.index = .kAdded ∧ c.events = events
  failures : p.failures = []

variable {p : EPollPoller} {channel : ℕ → Option Channel} {self : ℕ} {c : Channel}

theorem mirrors_nil : Mirrors {} (fun _ => none) :=
  ⟨by simp, by simp, rfl⟩

/-- A channel that the poller does not know makes no difference. -/
theorem Mirrors.insert_new (h : Mirrors p channel) (hself : channel self = none)
    (hc : c.index = .kNew) : Mirrors p (Function.update channel self (some c)) := by
  have hex (other : ℕ) (q : Channel → Prop) (hq : ¬q c) :
      (∃ d, Function.update channel self (some c) other = some d ∧ q d) ↔
        ∃ d, channel other = some d ∧ q d := by
    by_cases heq : other = self
    · subst heq
      simp [hself, hq]
    · rw [Function.update_of_ne heq]
  refine ⟨fun fd other => ?_, fun fd other events => ?_, h.failures⟩
  · rw [h.channels, ← hex other (fun d => d.fd = fd ∧ d.index ≠ .kNew) (fun hd => hd.2 hc)]
  · rw [h.interest, ← hex other (fun d => d.fd = fd ∧ d.index = .kAdded ∧ d.events = events)]
    rintro ⟨-, hadded, -⟩
    rw [hc] at hadded
    exact absurd hadded (by decide)

/-- No other channel that the poller knows has the descriptor of this one. -/
def Sole (channel : ℕ → Option Channel) (self : ℕ) (c : Channel) : Prop :=
  ∀ other d, channel other = some d → d.index ≠ .kNew → d.fd = c.fd → other = self

theorem Mirrors.sole (h : Mirrors p channel) (hc : channel self = some c)
    (hnew : c.index = .kNew → p.channels c.fd = none) : Sole channel self c := by
  intro other d hd hindex hfd
  have hother : p.channels c.fd = some other := (h.channels _ _).mpr ⟨d, hd, hfd, hindex⟩
  by_cases hnot : c.index = .kNew
  · rw [hnew hnot] at hother
    cases hother
  · have hself : p.channels c.fd = some self := (h.channels _ _).mpr ⟨c, hc, rfl, hnot⟩
    rw [hself] at hother
    exact (Option.some.inj hother).symm

theorem Mirrors.interest_eq (h : Mirrors p channel) (hc : channel self = some c)
    (hsole : Sole channel self c) :
    p.interest c.fd = if c.index = .kAdded then some (self, c.events) else none := by
  by_cases hadded : c.index = .kAdded
  · rw [if_pos hadded]
    exact (h.interest _ _ _).mpr ⟨c, hc, rfl, hadded, rfl⟩
  · rw [if_neg hadded]
    cases hi : p.interest c.fd with
    | none => rfl
    | some entry =>
      obtain ⟨d, hd, hfd, hindex, -⟩ := (h.interest c.fd entry.1 entry.2).mp hi
      have hother := hsole entry.1 d hd (by rw [hindex]; decide) hfd
      rw [hother, hc] at hd
      cases hd
      exact absurd hindex hadded

/-- One channel has changed and the poller has followed it. -/
theorem Mirrors.replace {q : EPollPoller} {d : Channel} (h : Mirrors p channel)
    (hsole : Sole channel self c) (hfd : d.fd = c.fd)
    (hchannels : ∀ fd, q.channels fd =
      if fd = c.fd then (if d.index = .kNew then none else some self) else p.channels fd)
    (hinterest : ∀ fd, q.interest fd = if fd = c.fd then
      (if d.index = .kAdded then some (self, d.events) else none) else p.interest fd)
    (hfailures : q.failures = []) (hself : ∃ c', channel self = some c' ∧ c'.fd = c.fd) :
    Mirrors q (Function.update channel self (some d)) := by
  obtain ⟨c', hc', hfd'⟩ := hself
  refine ⟨fun fd other => ?_, fun fd other events => ?_, hfailures⟩
  · rw [hchannels]
    by_cases heq : other = self
    · subst heq
      simp only [Function.update_self, Option.some.injEq, exists_eq_left', hfd]
      split_ifs with h₁ h₂
      · simp [h₂]
      · simp [h₁, h₂]
      · rw [h.channels]
        simp only [hc', Option.some.injEq, exists_eq_left', hfd']
        exact ⟨fun hx => absurd hx.1.symm h₁, fun hx => absurd hx.1.symm h₁⟩
    · rw [Function.update_of_ne heq]
      split_ifs with h₁ h₂
      · refine ⟨nofun, ?_⟩
        rintro ⟨e, he, hefd, hindex⟩
        exact absurd (hsole other e he hindex (hefd.trans h₁)) heq
      · refine ⟨fun hx => absurd (Option.some.inj hx).symm heq, ?_⟩
        rintro ⟨e, he, hefd, hindex⟩
        exact absurd (hsole other e he hindex (hefd.trans h₁)) heq
      · exact h.channels fd other
  · rw [hinterest]
    by_cases heq : other = self
    · subst heq
      simp only [Function.update_self, Option.some.injEq, exists_eq_left', hfd]
      split_ifs with h₁ h₂
      · simp [h₁, h₂]
      · simp [h₂]
      · rw [h.interest]
        simp only [hc', Option.some.injEq, exists_eq_left', hfd']
        exact ⟨fun hx => absurd hx.1.symm h₁, fun hx => absurd hx.1.symm h₁⟩
    · rw [Function.update_of_ne heq]
      have hnone (h₁ : fd = c.fd) : ¬∃ e, channel other = some e ∧ e.fd = fd ∧
          e.index = .kAdded ∧ e.events = events := by
        rintro ⟨e, he, hefd, hindex, -⟩
        exact heq (hsole other e he (by rw [hindex]; decide) (hefd.trans h₁))
      split_ifs with h₁ h₂
      · refine ⟨fun hx => ?_, fun hx => absurd hx (hnone h₁)⟩
        injection hx with hx
        exact absurd (congrArg Prod.fst hx).symm heq
      · exact ⟨nofun, fun hx => absurd hx (hnone h₁)⟩
      · exact h.interest fd other events

/-- `updateChannel` for a channel whose events have been changed. -/
theorem Mirrors.updateChannel {d : Channel} (h : Mirrors p channel) (hc : channel self = some c)
    (hnew : c.index = .kNew → p.channels c.fd = none) (hfd : d.fd = c.fd)
    (hindex : d.index = c.index) :
    Mirrors (p.updateChannel self d).1
      (Function.update channel self (some (p.updateChannel self d).2)) := by
  have hsole := h.sole hc hnew
  have hinterest := h.interest_eq hc hsole
  have hself : ∃ c', channel self = some c' ∧ c'.fd = c.fd := ⟨c, hc, rfl⟩
  rw [← hindex, ← hfd] at hinterest
  have hcases : d.index = .kNew ∨ d.index = .kDeleted ∨ d.index = .kAdded := by
    cases d.index <;> simp
  rcases hcases with hd | hd | hd
  · rw [hd, if_neg (by decide)] at hinterest
    have hadd : p.updateChannel self d =
        ({ p with channels := Function.update p.channels d.fd (some self),
                  interest := Function.update p.interest d.fd (some (self, d.events)) },
          { d with index := .kAdded }) := by
      simp only [EPollPoller.updateChannel, hd, update, epollCtl, hinterest]
    rw [hadd]
    refine h.replace hsole hfd (fun fd => ?_) (fun fd => ?_) h.failures hself
    · simp [Function.update_apply, hfd]
    · simp [Function.update_apply, hfd]
  · rw [hd, if_neg (by decide)] at hinterest
    have hadd : p.updateChannel self d =
        ({ p with interest := Function.update p.interest d.fd (some (self, d.events)) },
          { d with index := .kAdded }) := by
      simp only [EPollPoller.updateChannel, hd, update, epollCtl, hinterest]
    have hknown : p.channels c.fd = some self :=
      (h.channels _ _).mpr ⟨c, hc, rfl, by rw [← hindex, hd]; decide⟩
    rw [hadd]
    refine h.replace hsole hfd (fun fd => ?_) (fun fd => ?_) h.failures hself
    · by_cases heq : fd = c.fd
      · simp [heq, hknown]
      · simp [heq]
    · simp [Function.update_apply, hfd]
  · rw [hd, if_pos rfl] at hinterest
    have hknown : p.channels c.fd = some self :=
      (h.channels _ _).mpr ⟨c, hc, rfl, by rw [← hindex, hd]; decide⟩
    by_cases hnone : d.events = Channel.kNoneEvent
    · have hdel : p.updateChannel self d =
          ({ p with interest := Function.update p.interest d.fd none },
            { d with index := .kDeleted }) := by
        simp only [EPollPoller.updateChannel, hd, Channel.isNoneEvent, hnone,
          beq_self_eq_true, if_true, update, epollCtl, hinterest]
      rw [hdel]
      refine h.replace hsole hfd (fun fd => ?_) (fun fd => ?_) h.failures hself
      · by_cases heq : fd = c.fd
        · simp [heq, hknown]
        · simp [heq]
      · simp [Function.update_apply, hfd]
    · have hmod : p.updateChannel self d =
          ({ p with interest := Function.update p.interest d.fd (some (self, d.events)) }, d) := by
        have hsome : (d.events == Channel.kNoneEvent) = false := beq_eq_false_iff_ne.mpr hnone
        simp only [EPollPoller.updateChannel, hd, Channel.isNoneEvent, hsome,
          Bool.false_eq_true, if_false, update, epollCtl, hinterest]
      rw [hmod]
      refine h.replace hsole hfd (fun fd => ?_) (fun fd => ?_) h.failures hself
      · by_cases heq : fd = c.fd
        · simp [heq, hknown, hd]
        · simp [heq]
      · simp [Function.update_apply, hd, hfd]

theorem Mirrors.removeChannel (h : Mirrors p channel) (hc : channel self = some c)
    (hnew : c.index = .kNew → p.channels c.fd = none) :
    Mirrors (p.removeChannel self c).1
      (Function.update channel self (some (p.removeChannel self c).2)) := by
  have hsole := h.sole hc hnew
  have hinterest := h.interest_eq hc hsole
  have hself : ∃ c', channel self = some c' ∧ c'.fd = c.fd := ⟨c, hc, rfl⟩
  by_cases hadded : c.index = .kAdded
  · rw [if_pos hadded] at hinterest
    have hdel : p.removeChannel self c =
        ({ p with channels := Function.update p.channels c.fd none,
                  interest := Function.update p.interest c.fd none },
          { c with index := .kNew }) := by
      simp only [EPollPoller.removeChannel, hadded, if_true, update, epollCtl, hinterest]
    rw [hdel]
    refine h.replace hsole rfl (fun fd => ?_) (fun fd => ?_) h.failures hself
    · simp [Function.update_apply]
    · simp [Function.update_apply]
  · rw [if_neg hadded] at hinterest
    have hdrop : p.removeChannel self c =
        ({ p with channels := Function.update p.channels c.fd none }, { c with index := .kNew }) := by
      simp only [EPollPoller.removeChannel, hadded, if_false]
    rw [hdrop]
    refine h.replace hsole rfl (fun fd => ?_) (fun fd => ?_) h.failures hself
    · simp [Function.update_apply]
    · by_cases hfd : fd = c.fd
      · simp [hfd, hinterest]
      · simp [hfd]

end JingjieAR.EPollPoller
