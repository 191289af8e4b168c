import JingjieAR.ConnectionPoolModel
import JingjieAR.PartySums
import Mathlib.Tactic.Common

/-! What holds of the connection pools in every run. `activeCount_` is the number of idle, lent
and reserved connections, and of the decrements that are still to be made; it stays within the
size of the pool, and no connection has two borrowers. A borrower that sleeps while nobody is
about to wake it leaves no idle connection, but a place that becomes free does not wake it. -/
namespace JingjieAR.ConnectionPool

open Runs (Run Guarded)
open PartySums (countP_set countP_pos eq_of_countP_le_one)

variable {τ : Type} {s s' s₀ : ConnectionPool τ} {e : PoolEvent τ} {events : List (PoolEvent τ)}
  {i : ℕ} {lease lease' : Lease}

/-- What a lease's own step makes of `activeCount_`, of the idle connections and of itself. -/
inductive Move (s : ConnectionPool τ) (e : PoolEvent τ) :
    Lease → ℕ → List (ℕ × τ) → Lease → Prop
  | take {lease : Lease} {conn : ℕ} {note : τ} {rest : List (ℕ × τ)}
      (hlease : lease = .borrowing ∨ lease = .waiting ∨ lease = .notified)
      (hidle : s.idleConns = (conn, note) :: rest) :
      Move s e lease s.activeCount rest (.holding conn)
  | reserve (hidle : s.idleConns = []) (hfree : s.activeCount < s.maxPoolSize) :
      Move s e .borrowing (s.activeCount+1) s.idleConns .creating
  | block (hidle : s.idleConns = []) (hfull : ¬s.activeCount < s.maxPoolSize) :
      Move s e .borrowing s.activeCount s.idleConns .waiting
  | again {lease : Lease} (hlease : lease = .waiting ∨ lease = .notified)
      (hidle : s.idleConns = []) : Move s e lease s.activeCount s.idleConns .waiting
  | timeOut {lease : Lease} (hlease : lease = .waiting ∨ lease = .notified)
      (hidle : s.idleConns = []) : Move s e lease s.activeCount s.idleConns .returned
  | create {conn : ℕ} (hnew : s.uses conn = 0) :
      Move s e .creating s.activeCount s.idleConns (.holding conn)
  | fail : Move s e .creating s.activeCount s.idleConns .failed
  | recycle {conn : ℕ} {healthy : Bool} :
      Move s e (.holding conn) s.activeCount s.idleConns (.recycling conn healthy)
  | push {conn : ℕ} {note : τ} :
      Move s e (.recycling conn true) s.activeCount (s.idleConns++[(conn, note)]) .pushed
  | close {conn : ℕ} : Move s e (.recycling conn false) s.activeCount s.idleConns .closed
  | discount {lease : Lease} {i : ℕ} (he : e = .discount i) (hlease : lease.isPending = true) :
      Move s e lease (decrement s.activeCount) s.idleConns .returned
  | notify (hnone : s.leases.countP Lease.isWaiting = 0) :
      Move s e .pushed s.activeCount s.idleConns .returned

/-- What a step does. -/
inductive Change (s : ConnectionPool τ) (e : PoolEvent τ) : ConnectionPool τ → Prop
  | borrow : Change s e { s with leases := s.leases++[.borrowing] }
  | move {i active : ℕ} {idle : List (ℕ × τ)} {lease lease' : Lease}
      (hi : s.leases[i]? = some lease) (hmove : s.Move e lease active idle lease') :
      Change s e { s with
        activeCount := active, idleConns := idle, leases := s.leases.set i lease' }
  | wakeUp {i j : ℕ} (hi : s.leases[i]? = some .pushed) (hj : s.leases[j]? = some .waiting) :
      Change s e ((s.setLease i .returned).setLease j .notified)
  | sweep {keep : ℕ → τ → Option τ} (he : e = .sweep keep) : Change s e (s.sweep keep)

theorem enter_change (hi : s.leases[i]? = some .borrowing) : s.Change e (s.enter i) := by
  unfold enter
  split
  · next conn note rest hidle => exact .move hi (.take (.inl rfl) hidle)
  · next hidle =>
    split_ifs with hfree
    · exact .move hi (.reserve hidle hfree)
    · exact .move hi (.block hidle hfree)

theorem wake_change (hi : s.leases[i]? = some lease)
    (hlease : lease = .waiting ∨ lease = .notified) (timedOut : Bool) :
    s.Change e (s.wake i timedOut) := by
  unfold wake
  split
  · next conn note rest hidle => exact .move hi (.take (.inr hlease) hidle)
  · next hidle =>
    cases timedOut with
    | true => exact .move hi (.timeOut hlease hidle)
    | false => exact .move hi (.again hlease hidle)

theorem create_change (hi : s.leases[i]? = some .creating) {conn : Option ℕ}
    (h : s.create i conn = some s') : s.Change e s' := by
  cases conn with
  | none =>
    obtain rfl := Option.some.inj h
    exact .move hi .fail
  | some conn =>
    obtain ⟨hnew, rfl⟩ := by simpa [create] using h
    exact .move hi (.create hnew)

theorem notify_change (hi : s.leases[i]? = some .pushed) {woken : Option ℕ}
    (h : s.notify i woken = some s') : s.Change e s' := by
  cases woken with
  | some j =>
    simp only [notify] at h
    split at h
    · next hj =>
      obtain rfl := Option.some.inj h
      exact .wakeUp hi hj
    · simp at h
  | none =>
    obtain ⟨hnone, rfl⟩ := by simpa [notify] using h
    refine .move hi (.notify ?_)
    simpa using hnone

theorem step_change (h : s.Step e s') : s.Change e s' := by
  cases e with
  | borrow =>
    obtain rfl := Option.some.inj h
    exact .borrow
  | enter i =>
    simp only [Step, next] at h
    split at h
    · next hi =>
      obtain rfl := Option.some.inj h
      exact enter_change hi
    · simp at h
  | create i conn =>
    simp only [Step, next] at h
    split at h
    · next hi => exact create_change hi h
    · simp at h
  | wake i timedOut =>
    simp only [Step, next] at h
    split at h
    · next hi =>
      obtain rfl := Option.some.inj h
      exact wake_change hi (.inl rfl) timedOut
    · next hi =>
      obtain rfl := Option.some.inj h
      exact wake_change hi (.inr rfl) timedOut
    · simp at h
  | recycle i healthy =>
    simp only [Step, next] at h
    split at h
    · next conn hi =>
      obtain rfl := Option.some.inj h
      exact .move hi .recycle
    · simp at h
  | push i note =>
    simp only [Step, next] at h
    split at h
    · next conn hi =>
      obtain rfl := Option.some.inj h
      exact .move hi .push
    · simp at h
  | close i =>
    simp only [Step, next] at h
    split at h
    · next conn hi =>
      obtain rfl := Option.some.inj h
      exact .move hi .close
    · simp at h
  | discount i =>
    simp only [Step, next] at h
    split at h
    · next hi =>
      obtain rfl := Option.some.inj h
      exact .move hi (.discount rfl rfl)
    · next hi =>
      obtain rfl := Option.some.inj h
      exact .move hi (.discount rfl rfl)
    · simp at h
  | notify i woken =>
    simp only [Step, next] at h
    split at h
    · next hi => exact notify_change hi h
    · simp at h
  | sweep keep =>
    obtain rfl := Option.some.inj h
    exact .sweep rfl

/-- The connections in the hands of borrowers, the places reserved for a connection that is being
made, and the threads that still have to decrement `activeCount_`. -/
def borrowed (s : ConnectionPool τ) : ℕ := s.leases.countP Lease.isBorrowed

def creating (s : ConnectionPool τ) : ℕ := s.leases.countP Lease.isCreating

def pending (s : ConnectionPool τ) : ℕ := s.leases.countP Lease.isPending

def Accounted (s : ConnectionPool τ) : Prop :=
  s.activeCount = s.idleConns.length+s.borrowed+s.creating+s.pending ∧
    s.activeCount ≤ s.maxPoolSize ∧
    ∀ (i j : ℕ) (lease lease' : Lease) (conn : ℕ), s.leases[i]? = some lease →
      s.leases[j]? = some lease' → lease.conn = some conn → lease'.conn = some conn → i = j

structure Inv (s : ConnectionPool τ) : Prop where
  counted : s.activeCount = s.idleConns.length+s.borrowed+s.creating+s.pending
  bounded : s.activeCount ≤ s.maxPoolSize
  single : ∀ conn, s.uses conn ≤ 1

theorem Inv.accounted (h : s.Inv) : s.Accounted := by
  refine ⟨h.counted, h.bounded, ?_⟩
  intro i j lease lease' conn hi hj hconn hconn'
  have hsingle := h.single conn
  have hone : s.leases.countP (fun lease => lease.conn = some conn) ≤ 1 := by
    unfold uses at hsingle
    omega
  exact eq_of_countP_le_one hone hi hj (by simpa using hconn) (by simpa using hconn')

theorem decrement_of_pos {n : ℕ} (h : 0 < n) : decrement n = n-1 := if_neg (Nat.ne_of_gt h)

/-- What a lease counts for in `activeCount_`. -/
def occupied (lease : Lease) : ℕ :=
  lease.isBorrowed.toNat+lease.isCreating.toNat+lease.isPending.toNat

/-- `activeCount_` follows what is idle and what the lease counts for. -/
theorem Move.balance {active : ℕ} {idle : List (ℕ × τ)}
    (hmove : s.Move e lease active idle lease')
    (hpos : lease.isPending = true → 0 < s.activeCount) :
    active+s.idleConns.length+occupied lease = s.activeCount+idle.length+occupied lease' := by
  cases hmove with
  | take hlease hidle =>
    have hnone : occupied lease = 0 := by
      rcases hlease with rfl | rfl | rfl <;> rfl
    have hone : ∀ conn, occupied (.holding conn) = 1 := fun conn => rfl
    -- the connection is counted with the lease now, and no longer as an idle one
    rw [hidle, List.length_cons, hnone, hone]
    omega
  | again hlease hidle => rcases hlease with rfl | rfl <;> rfl
  | timeOut hlease hidle => rcases hlease with rfl | rfl <;> rfl
  | push =>
    have hone : ∀ conn, occupied (.recycling conn true) = 1 := fun conn => rfl
    have hnone : occupied .pushed = 0 := rfl
    rw [List.length_append, List.length_singleton, hone, hnone]
    omega
  | discount he hlease =>
    have hone : occupied lease = 1 := by
      cases lease <;> simp [Lease.isPending] at hlease <;> rfl
    have hnone : occupied .returned = 0 := rfl
    have hactive := hpos hlease
    rw [decrement_of_pos hactive, hone, hnone]
    omega
  | reserve hidle hfree =>
    have hnone : occupied .borrowing = 0 := rfl
    have hone : occupied .creating = 1 := rfl
    rw [hnone, hone]
    omega
  | block => rfl
  | create => rfl
  | fail => rfl
  | recycle => rfl
  | close => rfl
  | notify => rfl

theorem toNat_decide (p : Prop) [Decidable p] : (decide p).toNat = if p then 1 else 0 := by
  by_cases hp : p
  · rw [decide_eq_true hp, if_pos hp, Bool.toNat_true]
  · rw [decide_eq_false hp, if_neg hp, Bool.toNat_false]

/-- A connection is idle or in the lease's hands as before, or it is a new one. -/
theorem Move.uses_le {active : ℕ} {idle : List (ℕ × τ)}
    (hmove : s.Move e lease active idle lease') (conn : ℕ) :
    idle.countP (fun idle => idle.1 = conn)+(decide (lease'.conn = some conn)).toNat ≤
      s.idleConns.countP (fun idle => idle.1 = conn)+(decide (lease.conn = some conn)).toNat ∨
    s.uses conn = 0 ∧ idle = s.idleConns := by
  cases hmove with
  | take hlease hidle =>
    refine .inl ?_
    have hnone : lease.conn = none := by
      rcases hlease with rfl | rfl | rfl <;> rfl
    rw [hidle, List.countP_cons, hnone]
    simp [Lease.conn, toNat_decide]
  | create hnew =>
    rename_i fresh
    by_cases hconn : fresh = conn
    · subst hconn
      exact .inr ⟨hnew, rfl⟩
    · refine .inl ?_
      simp [Lease.conn, hconn]
  | push =>
    refine .inl ?_
    simp [Lease.conn, List.countP_append, toNat_decide]
  | recycle => exact .inl (Nat.le_refl _)
  | _ => exact .inl (by simp [Lease.conn])

theorem Inv.move (h : s.Inv) (hi : s.leases[i]? = some lease) {active : ℕ}
    {idle : List (ℕ × τ)} (hmove : s.Move e lease active idle lease') :
    Inv { s with activeCount := active, idleConns := idle, leases := s.leases.set i lease' } := by
  have hcounted := h.counted
  have hbounded := h.bounded
  have hb := countP_set Lease.isBorrowed hi lease'
  have hc := countP_set Lease.isCreating hi lease'
  have hp := countP_set Lease.isPending hi lease'
  unfold borrowed creating pending at hcounted
  -- a decrement that is to be made is counted
  have hpos : lease.isPending = true → 0 < s.activeCount := by
    intro hlease
    have hpending := countP_pos Lease.isPending hi hlease
    omega
  have hbalance := hmove.balance hpos
  unfold occupied at hbalance
  refine ⟨?_, ?_, ?_⟩
  · show active = idle.length+(s.leases.set i lease').countP Lease.isBorrowed+
      (s.leases.set i lease').countP Lease.isCreating+
      (s.leases.set i lease').countP Lease.isPending
    omega
  · show active ≤ s.maxPoolSize
    cases hmove with
    | reserve hidle hfree => exact hfree
    | discount he hlease =>
      rw [decrement_of_pos (hpos hlease)]
      omega
    | _ => exact hbounded
  · intro conn
    have hset := countP_set (fun lease => lease.conn = some conn) hi lease'
    have hsingle := h.single conn
    show idle.countP (fun idle => idle.1 = conn)+
      (s.leases.set i lease').countP (fun lease => lease.conn = some conn) ≤ 1
    rcases hmove.uses_le conn with hle | ⟨hzero, rfl⟩
    · unfold uses at hsingle
      omega
    · unfold uses at hzero
      have hone := Bool.toNat_le (decide (lease'.conn = some conn))
      omega

theorem Inv.borrow (h : s.Inv) : Inv { s with leases := s.leases++[.borrowing] } := by
  refine ⟨?_, h.bounded, ?_⟩
  · have hcounted := h.counted
    simpa [borrowed, creating, pending, Lease.isBorrowed, Lease.isCreating, Lease.isPending,
      Lease.conn] using hcounted
  · intro conn
    simpa [uses, Lease.conn] using h.single conn

/-- Two leases go on when one of them wakes the other. -/
theorem countP_wakeUp {j : ℕ} (hi : s.leases[i]? = some .pushed)
    (hj : s.leases[j]? = some .waiting) (p : Lease → Bool) :
    ((s.setLease i .returned).setLease j .notified).leases.countP p+
      ((p .pushed).toNat+(p .waiting).toNat) =
        s.leases.countP p+((p .returned).toNat+(p .notified).toNat) := by
  -- the one that wakes is not the one that sleeps
  have hne : i ≠ j := by
    intro hij
    rw [hij, hj] at hi
    simp at hi
  have hj' : (s.leases.set i .returned)[j]? = some .waiting := by
    rw [List.getElem?_set_ne hne]
    exact hj
  have hfirst := countP_set p hi .returned
  have hsecond := countP_set p hj' .notified
  show ((s.leases.set i .returned).set j .notified).countP p+_ = _
  omega

theorem Inv.wakeUp {j : ℕ} (h : s.Inv) (hi : s.leases[i]? = some .pushed)
    (hj : s.leases[j]? = some .waiting) :
    Inv ((s.setLease i .returned).setLease j .notified) := by
  have hb := countP_wakeUp hi hj Lease.isBorrowed
  have hc := countP_wakeUp hi hj Lease.isCreating
  have hp := countP_wakeUp hi hj Lease.isPending
  refine ⟨?_, h.bounded, ?_⟩
  · unfold borrowed creating pending
    rw [Nat.add_right_cancel hb, Nat.add_right_cancel hc, Nat.add_right_cancel hp]
    exact h.counted
  · intro conn
    have hu := countP_wakeUp hi hj (fun lease => lease.conn = some conn)
    unfold uses
    rw [Nat.add_right_cancel hu]
    exact h.single conn

theorem iterate_decrement {k n : ℕ} (h : k ≤ n) : decrement^[k] n = n-k := by
  induction k generalizing n with
  | zero => rfl
  | succ k ih =>
    rw [Function.iterate_succ_apply, decrement_of_pos (by omega), ih (by omega)]
    omega

/-- What stays idle and what is closed is what was idle. -/
theorem length_sweep (keep : ℕ → τ → Option τ) (idle : List (ℕ × τ)) :
    (idle.filterMap (fun idle => (keep idle.1 idle.2).map (Prod.mk idle.1))).length+
      idle.countP (fun idle => (keep idle.1 idle.2).isNone) = idle.length := by
  induction idle with
  | nil => rfl
  | cons p rest ih =>
    rw [List.filterMap_cons, List.countP_cons, List.length_cons]
    cases hkeep : keep p.1 p.2 with
    | none =>
      simp
      omega
    | some note =>
      simp
      omega

theorem countP_sweep (keep : ℕ → τ → Option τ) (conn : ℕ) (idle : List (ℕ × τ)) :
    (idle.filterMap (fun idle => (keep idle.1 idle.2).map (Prod.mk idle.1))).countP
      (fun idle => idle.1 = conn) ≤ idle.countP (fun idle => idle.1 = conn) := by
  induction idle with
  | nil => simp
  | cons p rest ih =>
    rw [List.filterMap_cons, List.countP_cons]
    cases hkeep : keep p.1 p.2 with
    | none =>
      simp only [Option.map_none]
      omega
    | some note =>
      simp only [Option.map_some, List.countP_cons]
      omega

theorem Inv.sweep (h : s.Inv) (keep : ℕ → τ → Option τ) : (s.sweep keep).Inv := by
  have hcounted := h.counted
  have hbounded := h.bounded
  have hlength := length_sweep keep s.idleConns
  -- what is closed was idle, and so was counted
  have hactive : (s.sweep keep).activeCount =
      s.activeCount-s.idleConns.countP (fun idle => (keep idle.1 idle.2).isNone) :=
    iterate_decrement (by omega)
  refine ⟨?_, ?_, ?_⟩
  · rw [hactive]
    show _ = (s.idleConns.filterMap _).length+s.borrowed+s.creating+s.pending
    omega
  · rw [hactive]
    show _ ≤ s.maxPoolSize
    omega
  · intro conn
    have hsingle := h.single conn
    have hcount := countP_sweep keep conn s.idleConns
    show (s.idleConns.filterMap _).countP _+s.leases.countP _ ≤ 1
    unfold uses at hsingle
    omega

theorem Inv.change (h : s.Inv) (hchange : s.Change e s') : s'.Inv := by
  cases hchange with
  | borrow => exact h.borrow
  | move hi hmove => exact h.move hi hmove
  | wakeUp hi hj => exact h.wakeUp hi hj
  | sweep he => exact h.sweep _

theorem Change.maxPoolSize (hchange : s.Change e s') : s'.maxPoolSize = s.maxPoolSize := by
  cases hchange <;> rfl

/-- A turn of the constructor's loop that makes a connection. -/
theorem Inv.add (h : s.Inv) {conn : ℕ} (hnew : s.uses conn = 0)
    (hroom : s.activeCount < s.maxPoolSize) (note : τ) :
    Inv { s with idleConns := s.idleConns++[(conn, note)], activeCount := s.activeCount+1 } := by
  refine ⟨?_, hroom, ?_⟩
  · have hcounted := h.counted
    show s.activeCount+1 = (s.idleConns++[(conn, note)]).length+s.borrowed+s.creating+s.pending
    rw [List.length_append, List.length_singleton]
    omega
  · intro other
    have hsingle := h.single other
    by_cases hother : conn = other
    · -- nobody had the new one
      subst hother
      unfold uses at hnew ⊢
      simp only [List.countP_append, List.countP_singleton, decide_true, if_true]
      omega
    · simpa [uses, List.countP_append, hother] using hsingle

/-- The constructor makes one connection a turn, or none. -/
theorem Inv.prefill (h : s.Inv) {turns : List (Option (ℕ × τ))}
    (hroom : s.activeCount+turns.length ≤ s.maxPoolSize) (hs : s.prefill turns = some s') :
    s'.Inv ∧ s'.leases = s.leases ∧ s'.maxPoolSize = s.maxPoolSize := by
  induction turns generalizing s with
  | nil =>
    obtain rfl := Option.some.inj hs
    exact ⟨h, rfl, rfl⟩
  | cons turn turns ih =>
    rw [List.length_cons] at hroom
    cases turn with
    | none => exact ih h (by omega) hs
    | some idle =>
      obtain ⟨conn, note⟩ := idle
      simp only [ConnectionPool.prefill, Option.ite_none_right_eq_some] at hs
      obtain ⟨hnew, hs⟩ := hs
      have hadd := h.add hnew (by omega) note
      have hroom' : s.activeCount+1+turns.length ≤ s.maxPoolSize := by omega
      have hrest := ih hadd hroom' hs
      exact hrest

theorem inv_empty (poolSize : ℕ) : Inv ({ maxPoolSize := poolSize } : ConnectionPool τ) :=
  ⟨rfl, Nat.zero_le _, fun _ => Nat.zero_le 1⟩

/-- No borrower sleeps while there is an idle connection or a free place, unless somebody is about
to wake one: a `recycle` between its push and its `notify_one`, or a borrower that is awake again. -/
def NoIdleWait (s : ConnectionPool τ) : Prop :=
  (∃ i : ℕ, s.leases[i]? = some .waiting) → s.leases.countP Lease.isPushed = 0 →
    s.leases.countP Lease.isNotified = 0 → s.idleConns = [] ∧ s.activeCount = s.maxPoolSize

/-- Nobody is in the wait of a full pool. -/
def NobodyWaits (s : ConnectionPool τ) : Prop :=
  s.leases.countP Lease.isWaiting = 0 ∧ s.leases.countP Lease.isNotified = 0

/-- The step gives no place up while somebody is in the wait. -/
def KeepsPlaces (s : ConnectionPool τ) : PoolEvent τ → Prop
  | .discount _ => s.NobodyWaits
  | .sweep keep => s.NobodyWaits ∨ ∀ idle ∈ s.idleConns, (keep idle.1 idle.2).isSome = true
  | _ => True

/-- Each idle connection that a sleeper could have has somebody coming for it. -/
def Covered (s : ConnectionPool τ) : Prop :=
  0 < s.leases.countP Lease.isWaiting →
    s.idleConns.length ≤ s.leases.countP Lease.isNotified+s.leases.countP Lease.isPushed

/-- While somebody is in the wait, the pool is full. -/
def FullWait (s : ConnectionPool τ) : Prop :=
  0 < s.leases.countP Lease.isWaiting+s.leases.countP Lease.isNotified →
    s.activeCount = s.maxPoolSize

/-- A lease that wakes up takes a connection or finds none. -/
theorem Move.covers {active : ℕ} {idle : List (ℕ × τ)}
    (hmove : s.Move e lease active idle lease') :
    idle = [] ∨ lease'.isWaiting = false ∧ (s.leases.countP Lease.isWaiting = 0 ∨
      idle.length+(lease.isNotified.toNat+lease.isPushed.toNat) ≤
        s.idleConns.length+(lease'.isNotified.toNat+lease'.isPushed.toNat)) := by
  cases hmove with
  | take hlease hidle =>
    refine .inr ⟨rfl, .inr ?_⟩
    have hone : lease.isNotified.toNat+lease.isPushed.toNat ≤ 1 := by
      rcases hlease with rfl | rfl | rfl <;> decide
    rw [hidle, List.length_cons]
    omega
  | push =>
    refine .inr ⟨rfl, .inr ?_⟩
    rw [List.length_append, List.length_singleton]
    exact Nat.le_refl _
  | discount he hlease =>
    refine .inr ⟨rfl, .inr ?_⟩
    cases lease <;> simp [Lease.isPending] at hlease <;> exact Nat.le_refl _
  | reserve hidle => exact .inl hidle
  | block hidle => exact .inl hidle
  | again hlease hidle => exact .inl hidle
  | timeOut hlease hidle => exact .inl hidle
  | notify hnone => exact .inr ⟨rfl, .inl hnone⟩
  | create => exact .inr ⟨rfl, .inr (Nat.le_refl _)⟩
  | fail => exact .inr ⟨rfl, .inr (Nat.le_refl _)⟩
  | recycle => exact .inr ⟨rfl, .inr (Nat.le_refl _)⟩
  | close => exact .inr ⟨rfl, .inr (Nat.le_refl _)⟩

theorem Covered.move (h : s.Covered) (hi : s.leases[i]? = some lease) {active : ℕ}
    {idle : List (ℕ × τ)} (hmove : s.Move e lease active idle lease') :
    Covered { s with activeCount := active, idleConns := idle, leases := s.leases.set i lease' } := by
  have hw := countP_set Lease.isWaiting hi lease'
  have hn := countP_set Lease.isNotified hi lease'
  have hp := countP_set Lease.isPushed hi lease'
  unfold Covered at h ⊢
  dsimp only
  intro hwait
  rcases hmove.covers with rfl | ⟨hawake, hcovers⟩
  · exact Nat.zero_le _
  · -- no sleeper has come, so there was one before
    rw [hawake, Bool.toNat_false] at hw
    have hcovered := h (by omega)
    omega

theorem FullWait.move (h : s.FullWait) (hinv : s.Inv) (hi : s.leases[i]? = some lease)
    {active : ℕ} {idle : List (ℕ × τ)} (hmove : s.Move e lease active idle lease')
    (hkeeps : s.KeepsPlaces e) :
    FullWait { s with
      activeCount := active, idleConns := idle, leases := s.leases.set i lease' } := by
  have hbounded := hinv.bounded
  have hw := countP_set Lease.isWaiting hi lease'
  have hn := countP_set Lease.isNotified hi lease'
  unfold FullWait at h ⊢
  dsimp only
  intro hwait
  -- who is in the wait now was in it, or has just found the pool full
  cases hmove with
  | block hidle hfull => omega
  | reserve hidle hfree =>
    simp only [Lease.isWaiting, Lease.isNotified] at hw hn
    have hfull := h (by omega)
    omega
  | discount he hlease =>
    subst he
    obtain ⟨hnone, hnone'⟩ := hkeeps
    simp only [Lease.isWaiting, Lease.isNotified, Bool.toNat_false] at hw hn
    omega
  | again hlease hidle =>
    rcases hlease with rfl | rfl <;> simp [Lease.isWaiting, Lease.isNotified] at hw hn <;>
      exact h (by omega)
  | _ =>
    simp only [Lease.isWaiting, Lease.isNotified, Bool.toNat_false] at hw hn
    exact h (by omega)

theorem Covered.wakeUp {j : ℕ} (h : s.Covered) (hi : s.leases[i]? = some .pushed)
    (hj : s.leases[j]? = some .waiting) :
    Covered ((s.setLease i .returned).setLease j .notified) := by
  have hcovered := h (countP_pos Lease.isWaiting hj rfl)
  have hn := countP_wakeUp hi hj Lease.isNotified
  have hp := countP_wakeUp hi hj Lease.isPushed
  simp only [Lease.isNotified, Lease.isPushed, Bool.toNat_false, Bool.toNat_true] at hn hp
  intro _
  show s.idleConns.length ≤ _
  omega

theorem FullWait.wakeUp {j : ℕ} (h : s.FullWait) (hj : s.leases[j]? = some .waiting) :
    FullWait ((s.setLease i .returned).setLease j .notified) := by
  have hwaiting := countP_pos Lease.isWaiting hj rfl
  intro _
  exact h (by omega)

theorem Covered.change (h : s.Covered) (hchange : s.Change e s') : s'.Covered := by
  cases hchange with
  | borrow => simpa [Covered, Lease.isWaiting, Lease.isNotified, Lease.isPushed] using h
  | move hi hmove => exact h.move hi hmove
  | wakeUp hi hj => exact h.wakeUp hi hj
  | sweep he =>
    intro hwait
    exact Nat.le_trans (List.length_filterMap_le _ _) (h hwait)

theorem FullWait.change (h : s.FullWait) (hinv : s.Inv) (hkeeps : s.KeepsPlaces e)
    (hchange : s.Change e s') : s'.FullWait := by
  cases hchange with
  | borrow => simpa [FullWait, Lease.isWaiting, Lease.isNotified] using h
  | move hi hmove => exact h.move hinv hi hmove hkeeps
  | wakeUp hi hj => exact h.wakeUp hj
  | @sweep keep he =>
    subst he
    intro hwait
    rcases hkeeps with ⟨hnone, hnone'⟩ | hkept
    · have hsame : 0 < s.leases.countP Lease.isWaiting+s.leases.countP Lease.isNotified := hwait
      omega
    · -- nothing is closed
      have hzero : s.idleConns.countP (fun idle => (keep idle.1 idle.2).isNone) = 0 := by
        rw [List.countP_eq_zero]
        intro idle hmem
        simpa [Option.isSome_iff_ne_none] using hkept idle hmem
      show decrement^[s.idleConns.countP _] s.activeCount = s.maxPoolSize
      rw [hzero]
      exact h hwait

/-- No sleeper, and nobody that comes for an idle connection. -/
theorem noIdleWait_of_covered (h : s.Covered) (hfull : s.FullWait) : s.NoIdleWait := by
  intro ⟨i, hi⟩ hpushed hnotified
  have hwaiting := countP_pos Lease.isWaiting hi rfl
  have hlength := h hwaiting
  have hidle : s.idleConns.length = 0 := by omega
  exact ⟨List.length_eq_zero_iff.mp hidle, hfull (by omega)⟩

/-- A pool that has just been made. -/
structure Fresh (poolSize : ℕ) (s : ConnectionPool τ) : Prop where
  inv : s.Inv
  leases : s.leases = []
  maxPoolSize : s.maxPoolSize = poolSize

theorem fresh_of_prefill {poolSize : ℕ} {turns : List (Option (ℕ × τ))}
    (hturns : turns.length ≤ poolSize)
    (hs : prefill { maxPoolSize := poolSize } turns = some s) : Fresh poolSize s := by
  have hroom : 0+turns.length ≤ poolSize := by omega
  obtain ⟨hinv, hleases, hmax⟩ := (inv_empty poolSize).prefill hroom hs
  exact ⟨hinv, hleases, hmax⟩

theorem fresh_mysql {poolSize : ℕ} {s : ConnectionPool ℤ}
    (h : MySQLConnectionPool.Starts poolSize s) : Fresh poolSize s := by
  obtain ⟨turns, hturns, hs⟩ := h
  exact fresh_of_prefill (by omega) hs

theorem fresh_redis {poolSize : ℕ} {s : ConnectionPool Unit}
    (h : RedisConnectionPool.Starts poolSize s) : Fresh poolSize s := by
  obtain ⟨turns, hturns, hs⟩ := h
  exact fresh_of_prefill (by omega) hs

theorem Fresh.run {poolSize : ℕ} (h : Fresh poolSize s₀) (hr : Run Step s₀ events s) :
    s.Inv ∧ s.maxPoolSize = poolSize := by
  have hstep : ∀ (s : ConnectionPool τ) (e : PoolEvent τ) (s' : ConnectionPool τ),
      s.Inv ∧ s.maxPoolSize = poolSize → Step s e s' → s'.Inv ∧ s'.maxPoolSize = poolSize := by
    intro s e s' ⟨hinv, hmax⟩ hs
    have hchange := step_change hs
    exact ⟨hinv.change hchange, hchange.maxPoolSize.trans hmax⟩
  have hlast := hr.invariant hstep ⟨h.inv, h.maxPoolSize⟩
  exact hlast

/-- In every run of either pool, `activeCount_` accounts for the connections up to the decrements
that threads are about to make, and no two borrowers have one connection. -/
theorem pools_accounted (poolSize : ℕ) :
    (∀ (s₀ s : ConnectionPool ℤ) (events : List (PoolEvent ℤ)),
      MySQLConnectionPool.Starts poolSize s₀ → Run MySQLConnectionPool.Step s₀ events s →
        s.Accounted ∧ s.maxPoolSize = poolSize) ∧
    ∀ (s₀ s : ConnectionPool Unit) (events : List (PoolEvent Unit)),
      RedisConnectionPool.Starts poolSize s₀ → Run RedisConnectionPool.Step s₀ events s →
        s.Accounted ∧ s.maxPoolSize = poolSize := by
  constructor
  · intro s₀ s events hstart hr
    obtain ⟨hinv, hmax⟩ := (fresh_mysql hstart).run hr.unguarded
    exact ⟨hinv.accounted, hmax⟩
  · intro s₀ s events hstart hr
    obtain ⟨hinv, hmax⟩ := (fresh_redis hstart).run hr.unguarded
    exact ⟨hinv.accounted, hmax⟩

/-- One connection is made and one attempt fails. A borrower takes it, another fails to make one
of its own, and the sweep closes what the first has given back. -/
def sweptPool : List (PoolEvent ℤ) :=
  [.borrow, .enter 0, .borrow, .enter 1, .create 1 none, .recycle 0 true, .push 0 5,
    .discount 1, .notify 0 none, .sweep (MySQLConnectionPool.keepAlive 300000000000 (fun _ => false))]

theorem sweptPool_accounted :
    ∃ s₀ s, MySQLConnectionPool.Starts 3 s₀ ∧ Run MySQLConnectionPool.Step s₀ sweptPool s ∧
      s.activeCount = 0 ∧ s.Accounted := by
  have hstart : MySQLConnectionPool.Starts 3
      { maxPoolSize := 3, activeCount := 1, idleConns := [(7, 0)] } :=
    ⟨[some (7, 0), none], rfl, rfl⟩
  have hrun : Run MySQLConnectionPool.Step
      { maxPoolSize := 3, activeCount := 1, idleConns := [(7, 0)] } sweptPool
      { maxPoolSize := 3, leases := [.returned, .returned] } :=
    .cons ⟨trivial, rfl⟩ <| .cons ⟨trivial, rfl⟩ <| .cons ⟨trivial, rfl⟩ <|
      .cons ⟨trivial, rfl⟩ <| .cons ⟨trivial, rfl⟩ <| .cons ⟨trivial, rfl⟩ <|
      .cons ⟨trivial, rfl⟩ <| .cons ⟨trivial, rfl⟩ <| .cons ⟨trivial, rfl⟩ <|
      .cons ⟨⟨_, _, rfl⟩, rfl⟩ <| .nil _
  exact ⟨_, _, hstart, hrun, rfl, ((pools_accounted 3).1 _ _ _ hstart hrun).1⟩

theorem Fresh.guardedRun {poolSize : ℕ} (h : Fresh poolSize s₀)
    (hr : Run (Guarded KeepsPlaces Step) s₀ events s) : s.NoIdleWait := by
  have hstep : ∀ (s : ConnectionPool τ) (e : PoolEvent τ) (s' : ConnectionPool τ),
      s.Inv ∧ s.Covered ∧ s.FullWait → Guarded KeepsPlaces Step s e s' →
        s'.Inv ∧ s'.Covered ∧ s'.FullWait := by
    intro s e s' ⟨hinv, hcovered, hfull⟩ ⟨hkeeps, hs⟩
    have hchange := step_change hs
    exact ⟨hinv.change hchange, hcovered.change hchange, hfull.change hinv hkeeps hchange⟩
  have hcovered : s₀.Covered := by simp [Covered, h.leases]
  have hfull : s₀.FullWait := by simp [FullWait, h.leases]
  obtain ⟨-, hcovered, hfull⟩ := hr.invariant hstep ⟨h.inv, hcovered, hfull⟩
  exact noIdleWait_of_covered hcovered hfull

/-- A place that is given up while a borrower sleeps, and nobody is about to wake it, is a place
that this borrower does not get to know of. -/
theorem not_noIdleWait_of_discount (hinv : s.Inv) (hs : s.Step (.discount i) s') {j : ℕ}
    (hj : s.leases[j]? = some .waiting) (hpushed : s.leases.countP Lease.isPushed = 0)
    (hnotified : s.leases.countP Lease.isNotified = 0) : ¬s'.NoIdleWait := by
  have hlease : ∃ lease, s.leases[i]? = some lease ∧ lease.isPending = true ∧ s' = s.discount i := by
    simp only [Step, next] at hs
    split at hs
    · next hi => exact ⟨_, hi, rfl, (Option.some.inj hs).symm⟩
    · next hi => exact ⟨_, hi, rfl, (Option.some.inj hs).symm⟩
    · simp at hs
  obtain ⟨lease, hi, hpending, rfl⟩ := hlease
  have hsame : ∀ p : Lease → Bool, p lease = p .returned →
      (s.leases.set i .returned).countP p = s.leases.countP p := by
    intro p hp
    have hset := countP_set p hi .returned
    rw [hp] at hset
    exact Nat.add_right_cancel hset
  have hquiet : lease.isPushed = false ∧ lease.isNotified = false := by
    cases lease <;> simp [Lease.isPending] at hpending <;> exact ⟨rfl, rfl⟩
  have hne : i ≠ j := by
    intro hij
    rw [hij, hj] at hi
    obtain rfl := Option.some.inj hi
    simp [Lease.isPending] at hpending
  intro hall
  have hwaiting : (s.leases.set i .returned)[j]? = some .waiting := by
    rw [List.getElem?_set_ne hne]
    exact hj
  obtain ⟨-, hfull⟩ := hall ⟨j, hwaiting⟩ ((hsame _ hquiet.1).trans hpushed)
    ((hsame _ hquiet.2).trans hnotified)
  -- there was something to count out, and the pool was full at most
  have hpos := countP_pos Lease.isPending hi hpending
  have hcounted := hinv.counted
  have hbounded := hinv.bounded
  unfold pending at hcounted
  change decrement s.activeCount = s.maxPoolSize at hfull
  rw [decrement_of_pos (by omega)] at hfull
  omega

/-- In every run of either pool in which `activeCount_` is only decremented while nobody is in the
wait of a full pool, no borrower sleeps without need. -/
theorem noIdleWait_of_keepsPlaces (poolSize : ℕ) :
    (∀ (s₀ s : ConnectionPool ℤ) (events : List (PoolEvent ℤ)),
      MySQLConnectionPool.Starts poolSize s₀ →
        Run (Guarded KeepsPlaces MySQLConnectionPool.Step) s₀ events s → s.NoIdleWait) ∧
    ∀ (s₀ s : ConnectionPool Unit) (events : List (PoolEvent Unit)),
      RedisConnectionPool.Starts poolSize s₀ →
        Run (Guarded KeepsPlaces RedisConnectionPool.Step) s₀ events s → s.NoIdleWait := by
  constructor
  · intro s₀ s events hstart hr
    exact (fresh_mysql hstart).guardedRun (hr.mono (fun _ _ _ hs => ⟨hs.1, hs.2.2⟩))
  · intro s₀ s events hstart hr
    exact (fresh_redis hstart).guardedRun (hr.mono (fun _ _ _ hs => ⟨hs.1, hs.2.2⟩))

/-- The only place of a Redis pool is taken, a second borrower sleeps, and is woken when the
connection comes back. -/
def handedOn : List (PoolEvent Unit) :=
  [.borrow, .enter 0, .borrow, .enter 1, .recycle 0 true, .push 0 (), .notify 0 (some 1), .wake 1 false]

theorem handedOn_noIdleWait :
    ∃ s₀ s, RedisConnectionPool.Starts 1 s₀ ∧
      Run (Guarded KeepsPlaces RedisConnectionPool.Step) s₀ handedOn s ∧
      s.leases = [.returned, .holding 7] ∧ s.NoIdleWait := by
  have hstart : RedisConnectionPool.Starts 1
      { maxPoolSize := 1, activeCount := 1, idleConns := [(7, ())] } := ⟨[some (7, ())], rfl, rfl⟩
  have hrun : Run (Guarded KeepsPlaces RedisConnectionPool.Step)
      { maxPoolSize := 1, activeCount := 1, idleConns := [(7, ())] } handedOn
      { maxPoolSize := 1, activeCount := 1, leases := [.returned, .holding 7] } :=
    .cons ⟨trivial, trivial, rfl⟩ <| .cons ⟨trivial, trivial, rfl⟩ <|
      .cons ⟨trivial, trivial, rfl⟩ <| .cons ⟨trivial, trivial, rfl⟩ <|
      .cons ⟨trivial, trivial, rfl⟩ <| .cons ⟨trivial, trivial, rfl⟩ <|
      .cons ⟨trivial, trivial, rfl⟩ <| .cons ⟨trivial, trivial, rfl⟩ <| .nil _
  exact ⟨_, _, hstart, hrun, rfl, (noIdleWait_of_keepsPlaces 1).2 _ _ _ hstart hrun⟩

/-- The connection does not come back: it is broken, and is closed and counted out. The second
borrower sleeps on, and gives up in the end, in a pool that has a place for it. -/
def brokenLease : List (PoolEvent Unit) :=
  [.borrow, .enter 0, .borrow, .enter 1, .recycle 0 false, .close 0, .discount 0]

theorem brokenLease_idleWait :
    ∃ s₀ s s', RedisConnectionPool.Starts 1 s₀ ∧ Run RedisConnectionPool.Step s₀ brokenLease s ∧
      s.activeCount = 0 ∧ s.leases = [.returned, .waiting] ∧ ¬s.NoIdleWait ∧
      RedisConnectionPool.Step s (.wake 1 true) s' ∧ s'.leases = [.returned, .returned] := by
  have hrun : Run RedisConnectionPool.Step
      { maxPoolSize := 1, activeCount := 1, idleConns := [(7, ())] } brokenLease
      { maxPoolSize := 1, leases := [.returned, .waiting] } :=
    .cons ⟨trivial, rfl⟩ <| .cons ⟨trivial, rfl⟩ <| .cons ⟨trivial, rfl⟩ <|
      .cons ⟨trivial, rfl⟩ <| .cons ⟨trivial, rfl⟩ <| .cons ⟨trivial, rfl⟩ <|
      .cons ⟨trivial, rfl⟩ <| .nil _
  refine ⟨_, _, { maxPoolSize := 1, leases := [.returned, .returned] },
    ⟨[some (7, ())], rfl, rfl⟩, hrun, rfl, rfl, ?_, ⟨trivial, rfl⟩, rfl⟩
  intro hall
  obtain ⟨-, hfull⟩ := hall ⟨1, rfl⟩ rfl rfl
  simp at hfull

end JingjieAR.ConnectionPool
