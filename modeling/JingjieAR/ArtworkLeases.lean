import JingjieAR.ArtworkLeaseModel
import JingjieAR.MutualExclusion
import JingjieAR.PartySums
import Mathlib.Tactic.Common
import Mathlib.Algebra.Order.BigOperators.Group.List
import Mathlib.Algebra.Order.Ring.Nat

/-! No DAO call outlives the service. The counter of active calls is the number of the leases
that hold a DAO, the destructor does not go past its loop before that number is zero, and a
lease that comes later finds the lifetime invalid: its check and its increment are one critical
section, which the destructor's `valid = false` cannot cut in two. -/
namespace JingjieAR

open Runs (Run)
open MutualExclusion (Exclusive Move)
open PartySums (sum_map_set)

namespace UserStage

def inside : UserStage → Bool
  | .checking _ => true
  | .admitted => true
  | .settled _ => true
  | .decrementing _ => true
  | .decremented => true
  | _ => false

/-- The shared pointers of a continuation: the local one, and the member of its lease. -/
def owns : UserStage → ℕ
  | .waiting _ => 1
  | .checking _ => 1
  | .admitted => 1
  | .settled lease => 1+(lease.map (·.lifetime.toNat)).getD 0
  | .dropping lease => 1+(lease.map (·.lifetime.toNat)).getD 0
  | .live lease => lease.lifetime.toNat
  | .closing _ => 1
  | .decrementing _ => 1
  | .decremented => 1
  | .releasing => 1
  | _ => 0

/-- A lease has a DAO exactly when it has the lifetime, and one that was let in has been let in
to a valid lifetime with a DAO. -/
def Fits (l : Lifetime) : UserStage → Prop
  | .admitted => l.valid = true ∧ l.dao.isSome
  | .settled (some lease) => lease.lifetime = lease.dao.isSome
  | .dropping (some lease) => lease.lifetime = lease.dao.isSome
  | .live lease => lease.lifetime = lease.dao.isSome
  | .closing lease => lease.dao.isSome
  | .decrementing lease => lease.dao.isSome
  | _ => True

/-- Only the check reads the lifetime, and it is made inside. -/
theorem Fits.of_outside {stage : UserStage} {l l' : Lifetime} (h : stage.Fits l)
    (hout : ¬stage.inside) : stage.Fits l' := by
  cases stage with
  | admitted => simp [inside] at hout
  | settled lease => simp [inside] at hout
  | dropping lease =>
    cases lease with
    | none => trivial
    | some lease => exact h
  | _ => exact h

theorem Fits.of_same {stage : UserStage} {l l' : Lifetime} (h : stage.Fits l)
    (hvalid : l'.valid = l.valid) (hdao : l'.dao = l.dao) : stage.Fits l' := by
  cases stage with
  | admitted => simpa only [Fits, hvalid, hdao] using h
  | settled lease =>
    cases lease with
    | none => trivial
    | some lease => exact h
  | dropping lease =>
    cases lease with
    | none => trivial
    | some lease => exact h
  | _ => exact h

end UserStage

namespace ServiceStage

def inside : ServiceStage → Bool
  | .invalidating => true
  | .draining => true
  | .clearing => true
  | .unlocking => true
  | _ => false

def owns : ServiceStage → ℕ
  | .running => 1
  | .ending => 1
  | .returned => 0
  | _ => 2

/-- The destructor is past `valid = false`. -/
def invalidated : ServiceStage → Bool
  | .running => false
  | .acquiring => false
  | .invalidating => false
  | _ => true

/-- The destructor is past its loop. -/
def drained : ServiceStage → Bool
  | .clearing => true
  | .unlocking => true
  | .resetting => true
  | .ending => true
  | .returned => true
  | _ => false

end ServiceStage

namespace Lifetime

variable {l l' : Lifetime} {i : ℕ}

/-- What one statement of a continuation can do to the lifetime. -/
structure UserMove (i : ℕ) (l : Lifetime) (stage : UserStage) (l' : Lifetime)
    (stage' : UserStage) : Prop where
  mutex : Move (.user i) l.mutex stage.inside l'.mutex stage'.inside
  valid : l'.valid = l.valid
  dao : l'.dao = l.dao
  activeCalls : l'.activeCalls+stage.dao.isSome.toNat = l.activeCalls+stage'.dao.isSome.toNat
  admits : l.valid = false → l'.activeCalls ≤ l.activeCalls
  useCount : l'.useCount+stage.owns = l.useCount+stage'.owns
  fits : stage'.Fits l'

/-- A statement that leaves the calls alone. -/
theorem UserMove.quiet {stage stage' : UserStage}
    (hmutex : Move (.user i) l.mutex stage.inside l'.mutex stage'.inside)
    (hvalid : l'.valid = l.valid) (hdao : l'.dao = l.dao)
    (hactive : l'.activeCalls = l.activeCalls) (hsame : stage'.dao = stage.dao)
    (huse : l'.useCount+stage.owns = l.useCount+stage'.owns) (hfits : stage'.Fits l') :
    UserMove i l stage l' stage' := by
  refine ⟨hmutex, hvalid, hdao, ?_, fun _ => Nat.le_of_eq hactive, huse, hfits⟩
  rw [hactive, hsame]

/-- A statement that only reads the lifetime. -/
theorem UserMove.read {stage stage' : UserStage} (hinside : stage'.inside = stage.inside)
    (hsame : stage'.dao = stage.dao) (howns : stage'.owns = stage.owns)
    (hfits : stage'.Fits l) : UserMove i l stage l stage' := by
  refine .quiet (.stay ?_) rfl rfl rfl hsame ?_ hfits
  · rw [hinside]
    exact id
  · rw [howns]

theorem UserMove.lock {stage stage' : UserStage} (hfree : l.mutex = none)
    (hsame : stage'.dao = stage.dao) (howns : stage'.owns = stage.owns)
    (hfits : stage'.Fits { l with mutex := some (.user i) }) :
    UserMove i l stage { l with mutex := some (.user i) } stage' := by
  refine .quiet ?_ rfl rfl rfl hsame ?_ hfits
  · rw [hfree]
    exact .acquire
  · rw [howns]

theorem UserMove.unlock {stage stage' : UserStage} (hin : stage.inside) (hout : ¬stage'.inside)
    (hsame : stage'.dao = stage.dao) (howns : stage'.owns = stage.owns)
    (hfits : stage'.Fits { l with mutex := none }) :
    UserMove i l stage { l with mutex := none } stage' := by
  refine .quiet (.release hin hout) rfl rfl rfl hsame ?_ hfits
  rw [howns]

/-- A shared pointer goes. -/
theorem UserMove.drop {stage stage' : UserStage} (hinside : stage'.inside = stage.inside)
    (hsame : stage'.dao = stage.dao) (howns : stage.owns = stage'.owns+1)
    (hle : stage.owns ≤ l.useCount) (hfits : stage'.Fits { l with useCount := l.useCount-1 }) :
    UserMove i l stage { l with useCount := l.useCount-1 } stage' := by
  refine .quiet (.stay ?_) rfl rfl rfl hsame ?_ hfits
  · rw [hinside]
    exact id
  · show l.useCount-1+stage.owns = l.useCount+stage'.owns
    omega

/-- The pointer that the weak one gives is one more; there is none when the lifetime is gone. -/
theorem entering_move {stage' : UserStage} {purpose : Purpose}
    (h : l.advanceUser i (.entering purpose) = some (l', stage')) :
    UserMove i l (.entering purpose) l' stage' := by
  simp only [advanceUser] at h
  split at h
  · cases purpose with
    | lease =>
      obtain ⟨rfl, rfl⟩ := by simpa using h
      exact .read rfl rfl rfl rfl
    | active =>
      obtain ⟨rfl, rfl⟩ := by simpa using h
      exact .read rfl rfl rfl trivial
  · obtain ⟨rfl, rfl⟩ := by simpa using h
    exact .quiet (.stay id) rfl rfl rfl rfl rfl trivial

theorem checking_move {stage' : UserStage} {purpose : Purpose}
    (h : l.advanceUser i (.checking purpose) = some (l', stage')) :
    UserMove i l (.checking purpose) l' stage' := by
  cases purpose with
  | lease =>
    simp only [advanceUser] at h
    split at h
    · obtain ⟨rfl, rfl⟩ := by simpa using h
      exact .read rfl rfl rfl rfl
    · rename_i hok
      obtain ⟨rfl, rfl⟩ := by simpa using h
      refine .read rfl rfl rfl ?_
      cases hdao : l.dao with
      | none => simp [hdao] at hok
      | some dao => simpa [UserStage.Fits, hdao] using hok
  | active =>
    obtain ⟨rfl, rfl⟩ := by simpa [advanceUser] using h
    exact .read rfl rfl rfl trivial

/-- Who has been let in finds the lifetime valid still. -/
theorem admitted_move {stage' : UserStage} (hfits : UserStage.admitted.Fits l)
    (h : l.advanceUser i .admitted = some (l', stage')) : UserMove i l .admitted l' stage' := by
  obtain ⟨rfl, rfl⟩ := by simpa [advanceUser] using h
  obtain ⟨hvalid, hdao⟩ := hfits
  -- one call more, and one lease more that holds the DAO
  refine ⟨.stay fun _ => rfl, rfl, rfl, ?_, ?_, ?_, ?_⟩
  · simp [UserStage.dao, hdao]
  · intro hinvalid
    simp [hvalid] at hinvalid
  · simp [UserStage.owns]
  · simp [UserStage.Fits, hdao]

theorem decrementing_move {stage' : UserStage} {lease : DaoCallLease}
    (hfits : (UserStage.decrementing lease).Fits l)
    (hactive : (UserStage.decrementing lease).dao.isSome.toNat ≤ l.activeCalls)
    (h : l.advanceUser i (.decrementing lease) = some (l', stage')) :
    UserMove i l (.decrementing lease) l' stage' := by
  obtain ⟨rfl, rfl⟩ := by simpa [advanceUser] using h
  have hdao : lease.dao.isSome = true := hfits
  -- the lease is one of those counted, so the counter is not 0
  refine ⟨.stay fun _ => rfl, rfl, rfl, ?_, fun _ => Nat.sub_le _ _, rfl, trivial⟩
  simp only [UserStage.dao, hdao, Bool.toNat_true, Option.isSome_none, Bool.toNat_false]
    at hactive ⊢
  omega

theorem advanceUser_move {stage stage' : UserStage} (hfits : stage.Fits l)
    (hactive : stage.dao.isSome.toNat ≤ l.activeCalls) (howns : stage.owns ≤ l.useCount)
    (h : l.advanceUser i stage = some (l', stage')) : UserMove i l stage l' stage' := by
  cases stage with
  | entering purpose => exact entering_move h
  | waiting purpose =>
    simp only [advanceUser, Option.ite_none_right_eq_some] at h
    obtain ⟨hfree, rfl, rfl⟩ := by simpa using h
    exact .lock hfree rfl rfl trivial
  | checking purpose => exact checking_move h
  | admitted => exact admitted_move hfits h
  | settled lease =>
    obtain ⟨rfl, rfl⟩ := by simpa [advanceUser] using h
    cases lease with
    | none => exact .unlock rfl (by simp [UserStage.inside]) rfl rfl trivial
    | some lease => exact .unlock rfl (by simp [UserStage.inside]) rfl rfl hfits
  | dropping lease =>
    obtain ⟨rfl, rfl⟩ := by simpa [advanceUser] using h
    cases lease with
    | none => exact .drop rfl rfl rfl howns trivial
    | some lease => exact .drop rfl rfl (Nat.add_comm _ _) howns hfits
  | live lease => simp [advanceUser] at h
  | closing lease =>
    simp only [advanceUser, Option.ite_none_right_eq_some] at h
    obtain ⟨hfree, rfl, rfl⟩ := by simpa using h
    exact .lock hfree rfl rfl hfits
  | decrementing lease => exact decrementing_move hfits hactive h
  | decremented =>
    obtain ⟨rfl, rfl⟩ := by simpa [advanceUser] using h
    exact .unlock rfl (by simp [UserStage.inside]) rfl rfl trivial
  | releasing =>
    obtain ⟨rfl, rfl⟩ := by simpa [advanceUser] using h
    exact .drop rfl rfl rfl howns trivial
  | gone => simp [advanceUser] at h

/-- What one statement of the destructor can do to the lifetime. -/
structure ServiceMove (l : Lifetime) (stage : ServiceStage) (l' : Lifetime)
    (stage' : ServiceStage) : Prop where
  mutex : Move .destructor l.mutex stage.inside l'.mutex stage'.inside
  kept : (l'.valid = l.valid ∧ l'.dao = l.dao) ∨ stage.inside
  activeCalls : l'.activeCalls = l.activeCalls
  useCount : l'.useCount+stage.owns = l.useCount+stage'.owns
  invalid : (stage.invalidated → l.valid = false) → stage'.invalidated → l'.valid = false
  drained : (stage.drained → l.activeCalls = 0) → stage'.drained → l.activeCalls = 0

theorem advanceService_move {stage stage' : ServiceStage} (howns : stage.owns ≤ l.useCount)
    (h : l.advanceService stage = some (l', stage')) : ServiceMove l stage l' stage' := by
  cases stage with
  | running =>
    obtain ⟨rfl, rfl⟩ := by simpa [advanceService] using h
    refine ⟨.stay (by simp [ServiceStage.inside]), .inl ⟨rfl, rfl⟩, rfl, rfl, ?_, ?_⟩
    · simp [ServiceStage.invalidated]
    · simp [ServiceStage.drained]
  | acquiring =>
    simp only [advanceService, Option.ite_none_right_eq_some] at h
    obtain ⟨hfree, rfl, rfl⟩ := by simpa using h
    refine ⟨?_, .inl ⟨rfl, rfl⟩, rfl, rfl, ?_, ?_⟩
    · rw [hfree]
      exact .acquire
    · simp [ServiceStage.invalidated]
    · simp [ServiceStage.drained]
  | invalidating =>
    obtain ⟨rfl, rfl⟩ := by simpa [advanceService] using h
    refine ⟨.stay (by simp [ServiceStage.inside]), .inr rfl, rfl, rfl, fun _ _ => rfl, ?_⟩
    simp [ServiceStage.drained]
  | draining =>
    simp only [advanceService] at h
    split at h
    · obtain ⟨rfl, rfl⟩ := by simpa using h
      refine ⟨.release rfl (by simp [ServiceStage.inside]), .inl ⟨rfl, rfl⟩, rfl, rfl, id, ?_⟩
      simp [ServiceStage.drained]
    -- the only way out of the loop
    · rename_i hzero
      obtain ⟨rfl, rfl⟩ := by simpa using h
      refine ⟨.stay (by simp [ServiceStage.inside]), .inl ⟨rfl, rfl⟩, rfl, rfl, id, ?_⟩
      intro _ _
      simpa using hzero
  | sleeping =>
    simp only [advanceService, Option.ite_none_right_eq_some] at h
    obtain ⟨hfree, rfl, rfl⟩ := by simpa using h
    refine ⟨?_, .inl ⟨rfl, rfl⟩, rfl, rfl, id, ?_⟩
    · rw [hfree]
      exact .acquire
    · simp [ServiceStage.drained]
  | clearing =>
    obtain ⟨rfl, rfl⟩ := by simpa [advanceService] using h
    exact ⟨.stay (by simp [ServiceStage.inside]), .inr rfl, rfl, rfl, id, id⟩
  | unlocking =>
    obtain ⟨rfl, rfl⟩ := by simpa [advanceService] using h
    exact ⟨.release rfl (by simp [ServiceStage.inside]), .inl ⟨rfl, rfl⟩, rfl, rfl, id, id⟩
  | resetting =>
    obtain ⟨rfl, rfl⟩ := by simpa [advanceService] using h
    simp only [ServiceStage.owns] at howns
    refine ⟨.stay (by simp [ServiceStage.inside]), .inl ⟨rfl, rfl⟩, rfl, ?_, id, id⟩
    simp only [ServiceStage.owns]
    omega
  | ending =>
    obtain ⟨rfl, rfl⟩ := by simpa [advanceService] using h
    simp only [ServiceStage.owns] at howns
    refine ⟨.stay (by simp [ServiceStage.inside]), .inl ⟨rfl, rfl⟩, rfl, ?_, id, id⟩
    simp only [ServiceStage.owns]
    omega
  | returned => simp [advanceService] at h

end Lifetime

namespace LeaseSystem

variable {s s' : LeaseSystem} {e : LeaseEvent} {i : ℕ} {stage stage' : UserStage} {l' : Lifetime}

/-- The party is in a critical section of the lifetime's mutex. -/
def inside (s : LeaseSystem) : Party → Prop
  | .destructor => s.service.inside
  | .user i => ∃ stage, s.users[i]? = some stage ∧ stage.inside

/-- The live leases that hold a DAO. -/
def leases (s : LeaseSystem) : ℕ := s.users.countP (·.dao.isSome)

structure Inv (s : LeaseSystem) : Prop where
  exclusive : Exclusive s.lifetime.mutex s.inside
  counted : s.lifetime.activeCalls = s.leases
  owned : s.lifetime.useCount = s.service.owns+(s.users.map UserStage.owns).sum
  fits : ∀ stage ∈ s.users, stage.Fits s.lifetime
  invalid : s.service.invalidated → s.lifetime.valid = false
  drained : s.service.drained → s.lifetime.activeCalls = 0

theorem inv_start (dao : Option ℕ) : (start dao).Inv := by
  refine ⟨?_, rfl, rfl, ?_, ?_, ?_⟩
  · intro p hp
    cases p with
    | destructor => simp [inside, start, ServiceStage.inside] at hp
    | user i => simp [inside, start] at hp
  · simp [start]
  · simp [start, ServiceStage.invalidated]
  · simp [start, ServiceStage.drained]

theorem leases_eq_sum (s : LeaseSystem) :
    s.leases = (s.users.map (·.dao.isSome.toNat)).sum := by
  unfold leases
  induction s.users with
  | nil => rfl
  | cons stage users ih =>
    cases hdao : stage.dao.isSome with
    | true =>
      simp [ih, hdao]
      omega
    | false => simp [ih, hdao]

theorem leases_set (h : s.users[i]? = some stage) (stage' : UserStage) (lifetime : Lifetime) :
    leases { s with lifetime := lifetime, users := s.users.set i stage' }+
      stage.dao.isSome.toNat = s.leases+stage'.dao.isSome.toNat := by
  rw [leases_eq_sum, leases_eq_sum]
  exact sum_map_set (fun stage : UserStage => stage.dao.isSome.toNat) h stage'

theorem dao_le_leases (h : s.users[i]? = some stage) : stage.dao.isSome.toNat ≤ s.leases := by
  rw [leases_eq_sum]
  exact List.le_sum_of_mem (List.mem_map_of_mem (List.mem_of_getElem? h))

/-- A continuation moves on; the others stand where they stood. -/
theorem inside_set (h : s.users[i]? = some stage) (lifetime : Lifetime) :
    inside { s with lifetime := lifetime, users := s.users.set i stage' } (.user i) ↔
      stage'.inside := by
  obtain ⟨hi, -⟩ := List.getElem?_eq_some_iff.mp h
  simp [inside, hi]

theorem inside_of_set {p : Party} (hp : p ≠ .user i) {lifetime : Lifetime}
    (h : inside { s with lifetime := lifetime, users := s.users.set i stage' } p) :
    s.inside p := by
  cases p with
  | destructor => exact h
  | user j =>
    have hne : i ≠ j := by
      intro hij
      exact hp (by rw [hij])
    simpa [inside, List.getElem?_set_ne hne] using h

theorem Inv.user (h : s.Inv) (hi : s.users[i]? = some stage)
    (hmove : s.lifetime.UserMove i stage l' stage') :
    Inv { s with lifetime := l', users := s.users.set i stage' } := by
  refine ⟨?_, ?_, ?_, ?_, ?_, ?_⟩
  · apply h.exclusive.move (p := .user i)
    · have hiff : s.inside (.user i) ↔ stage.inside := by simp [inside, hi]
      rw [inside_set hi, hiff]
      exact hmove.mutex
    · intro p hp hin
      exact inside_of_set hp hin
  · have hset := leases_set hi stage' l'
    have hcalls := hmove.activeCalls
    have hcounted := h.counted
    show l'.activeCalls = _
    omega
  · have hset := sum_map_set UserStage.owns hi stage'
    have huse := hmove.useCount
    have howned := h.owned
    show l'.useCount = s.service.owns+((s.users.set i stage').map UserStage.owns).sum
    omega
  · intro other hmem
    rcases List.mem_or_eq_of_mem_set hmem with hold | rfl
    · exact (h.fits other hold).of_same hmove.valid hmove.dao
    · exact hmove.fits
  · intro hservice
    exact hmove.valid.trans (h.invalid hservice)
  · intro hservice
    -- past its loop the destructor has made the lifetime invalid, so nobody was let in
    have hinvalidated : s.service.invalidated := by
      cases hs : s.service <;> simp_all [ServiceStage.drained, ServiceStage.invalidated]
    have hle := hmove.admits (h.invalid hinvalidated)
    have hzero := h.drained hservice
    show l'.activeCalls = 0
    omega

theorem Inv.service {service' : ServiceStage} (h : s.Inv)
    (hmove : s.lifetime.ServiceMove s.service l' service') :
    Inv { s with lifetime := l', service := service' } := by
  refine ⟨?_, ?_, ?_, ?_, ?_, ?_⟩
  · apply h.exclusive.move (p := .destructor)
    · exact hmove.mutex
    · intro p hp hin
      cases p with
      | destructor => exact absurd rfl hp
      | user j => exact hin
  · exact hmove.activeCalls.trans h.counted
  · have huse := hmove.useCount
    have howned := h.owned
    show l'.useCount = service'.owns+(s.users.map UserStage.owns).sum
    omega
  · intro stage hmem
    rcases hmove.kept with ⟨hvalid, hdao⟩ | hin
    · exact (h.fits stage hmem).of_same hvalid hdao
    · -- the destructor is inside, so no continuation is
      obtain ⟨i, hi⟩ := List.getElem?_of_mem hmem
      have hout : ¬s.inside (.user i) := h.exclusive.not_inside (p := .destructor) hin (by simp)
      apply (h.fits stage hmem).of_outside
      intro hstage
      exact hout ⟨stage, hi, hstage⟩
  · exact hmove.invalid h.invalid
  · intro hservice
    exact hmove.activeCalls.trans (hmove.drained h.drained hservice)

theorem Inv.arrive (h : s.Inv) (purpose : Purpose) :
    Inv { s with users := s.users++[.entering purpose] } := by
  refine ⟨?_, ?_, ?_, ?_, h.invalid, h.drained⟩
  · intro p hp
    apply h.exclusive p
    cases p with
    | destructor => exact hp
    | user j =>
      obtain ⟨stage, hj, hin⟩ := hp
      refine ⟨stage, ?_, hin⟩
      rw [List.getElem?_append] at hj
      split at hj
      · exact hj
      · -- the newcomer is outside
        have hnew := List.mem_singleton.mp (List.mem_of_getElem? hj)
        simp [hnew, UserStage.inside] at hin
  · have hcounted := h.counted
    simpa [leases, UserStage.dao] using hcounted
  · simpa [UserStage.owns] using h.owned
  · intro stage hmem
    rcases List.mem_append.mp hmem with hold | hnew
    · exact h.fits stage hold
    · obtain rfl := List.mem_singleton.mp hnew
      trivial

theorem Inv.leave (h : s.Inv) {lease : DaoCallLease} (hi : s.users[i]? = some (.live lease)) :
    Inv { s with users := s.users.set i (if lease.lifetime then .closing lease else .gone) } := by
  have hfits : lease.lifetime = lease.dao.isSome := h.fits _ (List.mem_of_getElem? hi)
  refine h.user hi ?_
  cases hl : lease.lifetime with
  | true =>
    -- a lease with a lifetime has a DAO to give back
    have hdao : lease.dao.isSome = true := by rw [← hfits, hl]
    apply Lifetime.UserMove.quiet (.stay (by simp [UserStage.inside])) rfl rfl rfl
    · rfl
    · simp [UserStage.owns, hl]
    · exact hdao
  | false =>
    have hdao : lease.dao = none := by simpa [hl] using hfits.symm
    apply Lifetime.UserMove.quiet (.stay (by simp [UserStage.inside])) rfl rfl rfl
    · simp [UserStage.dao, hdao]
    · simp [UserStage.owns, hl]
    · trivial

theorem Inv.step (h : s.Inv) (hs : s.Step e s') : s'.Inv := by
  cases e with
  | arrive purpose =>
    obtain rfl := Option.some.inj hs
    exact h.arrive purpose
  | user i =>
    obtain ⟨stage, hi, hs⟩ := Option.bind_eq_some_iff.mp hs
    obtain ⟨⟨l', stage'⟩, hadvance, hs⟩ := Option.bind_eq_some_iff.mp hs
    obtain rfl := Option.some.inj hs
    apply h.user hi
    apply Lifetime.advanceUser_move (h.fits stage (List.mem_of_getElem? hi)) ?_ ?_ hadvance
    · rw [h.counted]
      exact dao_le_leases hi
    · have hle : stage.owns ≤ (s.users.map UserStage.owns).sum :=
        List.le_sum_of_mem (List.mem_map_of_mem (List.mem_of_getElem? hi))
      have howned := h.owned
      omega
  | daoCall i =>
    simp only [Step, next] at hs
    split at hs
    · obtain rfl := Option.some.inj hs
      exact h
    · simp at hs
  | leave i =>
    simp only [Step, next] at hs
    split at hs
    · rename_i lease hi
      obtain rfl := Option.some.inj hs
      exact h.leave hi
    · simp at hs
  | destructor =>
    obtain ⟨⟨l', service'⟩, hadvance, hs⟩ := Option.bind_eq_some_iff.mp hs
    obtain rfl := Option.some.inj hs
    apply h.service
    apply Lifetime.advanceService_move ?_ hadvance
    have howned := h.owned
    omega

theorem Inv.run {events : List LeaseEvent} (h : s.Inv) (hr : Run Step s events s') : s'.Inv := by
  apply hr.invariant ?_ h
  intro s e s' h hs
  exact h.step hs

theorem Inv.dao_of_returned (h : s.Inv) (hs : s.service = .returned) {stage : UserStage}
    (hmem : stage ∈ s.users) : stage.dao = none := by
  have hzero : s.leases = 0 := by
    rw [← h.counted]
    exact h.drained (by rw [hs]; rfl)
  -- no lease at all is counted
  have hnone := List.countP_eq_zero.mp hzero stage hmem
  simpa using hnone

theorem Inv.not_daoCall (h : s.Inv) (hs : s.service = .returned) : ¬s.Step (.daoCall i) s' := by
  intro hstep
  simp only [Step, next] at hstep
  split at hstep
  · rename_i hi
    have hnone := h.dao_of_returned hs (List.mem_of_getElem? hi)
    simp [UserStage.dao] at hnone
  · simp at hstep

theorem returned_step (hservice : s.service = .returned) (hs : s.Step e s') :
    s'.service = .returned := by
  cases e with
  | arrive purpose =>
    obtain rfl := Option.some.inj hs
    exact hservice
  | user i =>
    obtain ⟨stage, -, hs⟩ := Option.bind_eq_some_iff.mp hs
    obtain ⟨⟨l', stage'⟩, -, hs⟩ := Option.bind_eq_some_iff.mp hs
    obtain rfl := Option.some.inj hs
    exact hservice
  | daoCall i =>
    simp only [Step, next] at hs
    split at hs
    · obtain rfl := Option.some.inj hs
      exact hservice
    · simp at hs
  | leave i =>
    simp only [Step, next] at hs
    split at hs
    · obtain rfl := Option.some.inj hs
      exact hservice
    · simp at hs
  | destructor => simp [Step, next, hservice, Lifetime.advanceService] at hs

/-- No DAO call starts in what follows the destructor's return. -/
theorem Inv.no_daoCall_after {events : List LeaseEvent} (h : s.Inv)
    (hservice : s.service = .returned) (hr : Run Step s events s') (i : ℕ) :
    .daoCall i ∉ events := by
  induction hr with
  | nil s => simp
  | cons hs _ ih =>
    intro hmem
    rcases List.mem_cons.mp hmem with rfl | hlater
    · exact h.not_daoCall hservice hs
    · exact ih (h.step hs) (returned_step hservice hs) hlater

theorem dao_lease_safety {dao : Option ℕ} {events : List LeaseEvent}
    (hr : Run Step (start dao) events s) :
    s.lifetime.activeCalls = s.leases ∧
      (s.service = .returned → (∀ stage ∈ s.users, stage.dao = none) ∧
        ∀ later s', Run Step s later s' → ∀ i, .daoCall i ∉ later) := by
  have hinv := (inv_start dao).run hr
  refine ⟨hinv.counted, ?_⟩
  intro hservice
  refine ⟨?_, ?_⟩
  · intro stage hmem
    exact hinv.dao_of_returned hservice hmem
  · intro later s' hlater i
    exact hinv.no_daoCall_after hservice hlater i

/-- A lease that the destructor has to wait for, and one that comes too late. -/
def drainedLease : List LeaseEvent :=
  [LeaseEvent.arrive .lease]++List.replicate 6 (LeaseEvent.user 0)++
    List.replicate 4 LeaseEvent.destructor++[LeaseEvent.daoCall 0]++
    [LeaseEvent.arrive .lease, LeaseEvent.user 1, LeaseEvent.leave 0]++
    List.replicate 4 (LeaseEvent.user 0)++List.replicate 6 LeaseEvent.destructor++
    List.replicate 4 (LeaseEvent.user 1)

theorem drainedLease_safe :
    ∃ s, Run Step (start (some 7)) drainedLease s ∧ s.service = .returned ∧
      s.lifetime.activeCalls = s.leases ∧ (∀ stage ∈ s.users, stage.dao = none) ∧
      ∀ later s', Run Step s later s' → ∀ i, .daoCall i ∉ later := by
  obtain ⟨s, hreplay, hservice⟩ := Option.map_eq_some_iff.mp
    (by decide : (Runs.replay (fun _ _ => True) next (start (some 7)) drainedLease).map
      (·.service) = some .returned)
  have hr := (Runs.run_of_replay hreplay).unguarded
  obtain ⟨hcount, hlate⟩ := dao_lease_safety hr
  exact ⟨s, hr, hservice, hcount, hlate hservice⟩

end LeaseSystem
end JingjieAR
