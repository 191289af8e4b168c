import Mathlib.Data.Nat.Notation
import Mathlib.Logic.Function.Basic

/-! A channel, which says what its descriptor is watched for, and the poller of a loop, which
passes this on to the kernel. A poller knows its channels by their addresses; these are the
numbers that stand for the connections. -/
namespace JingjieAR

inductive ChannelIndex
  | kNew
  | kAdded
  | kDeleted
deriving DecidableEq

/-- The bits of `events` in an `epoll_event`. -/
abbrev EpollEvents := BitVec 32

def EPOLLIN : EpollEvents := 0x001

def EPOLLPRI : EpollEvents := 0x002

def EPOLLOUT : EpollEvents := 0x004

def EPOLLERR : EpollEvents := 0x008

def EPOLLHUP : EpollEvents := 0x010

inductive ChannelCallback
  | close
  | error
  | read
  | write
deriving DecidableEq

structure Channel where
  fd : ℕ
  events : EpollEvents := 0
  index : ChannelIndex := .kNew
  tied : Bool := false
deriving DecidableEq

namespace Channel

def kNoneEvent : EpollEvents := 0

def kReadEvent : EpollEvents := EPOLLIN ||| EPOLLPRI

def kWriteEvent : EpollEvents := EPOLLOUT

def tie (c : Channel) : Channel := { c with tied := true }

def isNoneEvent (c : Channel) : Bool := c.events == kNoneEvent

def isWriting (c : Channel) : Bool := c.events &&& kWriteEvent != 0

/-! What the calls do before `update`. -/

def enableReading (c : Channel) : Channel := { c with events := c.events ||| kReadEvent }

def enableWriting (c : Channel) : Channel := { c with events := c.events ||| kWriteEvent }

def disableWriting (c : Channel) : Channel := { c with events := c.events &&& ~~~kWriteEvent }

def disableAll (c : Channel) : Channel := { c with events := kNoneEvent }

/-- The callbacks that `handleEventWithGuard` makes, in their order; a connection has set all
of them. -/
def callbacks (revents : EpollEvents) : List ChannelCallback :=
  (if revents &&& EPOLLHUP ≠ 0 ∧ revents &&& EPOLLIN = 0 then [.close] else [])++
  (if revents &&& EPOLLERR ≠ 0 then [.error] else [])++
  (if revents &&& (EPOLLIN ||| EPOLLPRI) ≠ 0 then [.read] else [])++
  (if revents &&& EPOLLOUT ≠ 0 then [.write] else [])

end Channel

inductive EpollOperation
  | add
  | mod
  | del
deriving DecidableEq

/-- The interest list of the kernel: what a descriptor is watched for, and the pointer that is
handed back with its events. -/
abbrev InterestList := ℕ → Option (ℕ × EpollEvents)

/-- `epoll_ctl` fails with `EEXIST` for a descriptor in the list and with `ENOENT` for another;
want of memory is left out. -/
def epollCtl (interest : InterestList) (operation : EpollOperation) (fd : ℕ)
    (event : ℕ × EpollEvents) : Option InterestList :=
  match operation, interest fd with
  | .add, none => some (Function.update interest fd (some event))
  | .mod, some _ => some (Function.update interest fd (some event))
  | .del, some _ => some (Function.update interest fd none)
  | .add, some _ => none
  | .mod, none => none
  | .del, none => none

structure EPollPoller where
  channels : ℕ → Option ℕ := fun _ => none
  interest : InterestList := fun _ => none
  -- the length of `events_`
  eventsSize : ℕ := 16
  -- the calls of `epoll_ctl` that failed; but for `EPOLL_CTL_DEL` this ends the process
  failures : List EpollOperation := []

namespace EPollPoller

def update (p : EPollPoller) (operation : EpollOperation) (self : ℕ) (c : Channel) :
    EPollPoller :=
  match epollCtl p.interest operation c.fd (self, c.events) with
  | some interest => { p with interest := interest }
  | none => { p with failures := p.failures++[operation] }

def updateChannel (p : EPollPoller) (self : ℕ) (c : Channel) : EPollPoller × Channel :=
  match c.index with
  | .kNew =>
    let p₁ := { p with channels := Function.update p.channels c.fd (some self) }
    (p₁.update .add self c, { c with index := .kAdded })
  | .kDeleted => (p.update .add self c, { c with index := .kAdded })
  | .kAdded =>
    if c.isNoneEvent then (p.update .del self c, { c with index := .kDeleted })
    else (p.update .mod self c, c)

def removeChannel (p : EPollPoller) (self : ℕ) (c : Channel) : EPollPoller × Channel :=
  let p₁ := { p with channels := Function.update p.channels c.fd none }
  let p₂ := if c.index = .kAdded then p₁.update .del self c else p₁
  (p₂, { c with index := .kNew })

@[simp] theorem updateChannel_fd (p : EPollPoller) (self : ℕ) (c : Channel) :
    (p.updateChannel self c).2.fd = c.fd := by
  unfold updateChannel
  split
  · rfl
  · rfl
  · split <;> rfl

@[simp] theorem updateChannel_events (p : EPollPoller) (self : ℕ) (c : Channel) :
    (p.updateChannel self c).2.events = c.events := by
  unfold updateChannel
  split
  · rfl
  · rfl
  · split <;> rfl

@[simp] theorem updateChannel_tied (p : EPollPoller) (self : ℕ) (c : Channel) :
    (p.updateChannel self c).2.tied = c.tied := by
  unfold updateChannel
  split
  · rfl
  · rfl
  · split <;> rfl

/-- The poller knows every channel that it has updated. -/
theorem updateChannel_index_ne (p : EPollPoller) (self : ℕ) (c : Channel) :
    (p.updateChannel self c).2.index ≠ .kNew := by
  unfold updateChannel
  split
  · exact ChannelIndex.noConfusion
  · exact ChannelIndex.noConfusion
  · next hadded =>
      split
      · exact ChannelIndex.noConfusion
      · rw [hadded]
        exact ChannelIndex.noConfusion

theorem updateChannel_added (p : EPollPoller) (self : ℕ) {c : Channel}
    (h : c.isNoneEvent = false) : (p.updateChannel self c).2.index = .kAdded := by
  unfold updateChannel
  split
  · rfl
  · rfl
  · next hadded =>
      rw [h]
      exact hadded

@[simp] theorem removeChannel_snd (p : EPollPoller) (self : ℕ) (c : Channel) :
    (p.removeChannel self c).2 = { c with index := .kNew } := rfl

/-- `epoll_wait` has filled `events_` with these descriptors: the pointers that come back, and
the longer list when this one was full. -/
def poll (p : EPollPoller) (ready : List (ℕ × EpollEvents)) :
    EPollPoller × List (ℕ × EpollEvents) :=
  (if ready.length = p.eventsSize ∧ ready ≠ [] then { p with eventsSize := p.eventsSize*2 } else p,
    ready.filterMap (fun event => (p.interest event.1).map (fun entry => (entry.1, event.2))))

/-- What `epoll_wait` may fill in: descriptors of the list, each one once, with events that they
are watched for or that are always reported. -/
def reports (p : EPollPoller) (ready : List (ℕ × EpollEvents)) : Bool :=
  ready.length ≤ p.eventsSize && (ready.map Prod.fst).Nodup &&
    ready.all (fun event => (p.interest event.1).any (fun entry =>
      event.2 &&& ~~~(entry.2 ||| EPOLLERR ||| EPOLLHUP) == 0 && event.2 != 0))

end EPollPoller

end JingjieAR
