import JingjieAR.EPollPollerModel
import JingjieAR.HttpResponseModel
import JingjieAR.TcpConnectionModel
import JingjieAR.TransitionRuns
import Mathlib.Algebra.Group.Nat.Defs

/-! The connections of a server with several loops, from `accept` until their descriptors are
closed. Loop 0 is the base loop and the loops of the thread pool follow it; with an empty pool the
base loop serves the connections. A connection is known by the number that it was given, and it
lives as long as the connection table, a queued functor or the application has a reference. -/
namespace JingjieAR

structure InetAddress where
  ip : UInt8 × UInt8 × UInt8 × UInt8
  port : UInt16

def InetAddress.toIpPort (a : InetAddress) : Bytes :=
  HttpResponse.decimal a.ip.1.toNat++(ascii "."++(HttpResponse.decimal a.ip.2.1.toNat++
    (ascii "."++(HttpResponse.decimal a.ip.2.2.1.toNat++(ascii "."++
    (HttpResponse.decimal a.ip.2.2.2.toNat++(ascii ":"++HttpResponse.decimal a.port.toNat)))))))

/-- The functors that are queued while all calls on a connection are made in its own loop.
From another thread `TcpConnection::send` and `shutdown` would queue functors that keep no
reference to the connection. -/
inductive PendingFunctor
  | connectEstablished (conn : ℕ)
  | removeConnectionInLoop (conn : ℕ)
  | connectDestroyed (conn : ℕ)
deriving DecidableEq

/-- The connection that the functor has a reference to. -/
def PendingFunctor.conn : PendingFunctor → ℕ
  | .connectEstablished conn => conn
  | .removeConnectionInLoop conn => conn
  | .connectDestroyed conn => conn

inductive LoopPhase
  | polling
  -- the active channels still to be handled
  | dispatching (active : List (ℕ × EpollEvents))
  -- in `handleEventWithGuard`: the callbacks still to be made
  | handling (conn : ℕ) (callbacks : List ChannelCallback) (active : List (ℕ × EpollEvents))
  -- in `doPendingFunctors`: the functors that were taken, and those of them still to be called
  | running (functors todo : List PendingFunctor)
deriving DecidableEq

/-- The functors stay alive until all of them have been called. -/
def LoopPhase.references : LoopPhase → List ℕ
  | .polling => []
  | .dispatching _ => []
  | .handling conn _ _ => [conn]
  | .running functors _ => functors.map PendingFunctor.conn

structure ServedLoop where
  phase : LoopPhase := .polling
  pendingFunctors : List PendingFunctor := []
  poller : EPollPoller := {}

def ServedLoop.references (l : ServedLoop) : List ℕ :=
  l.pendingFunctors.map PendingFunctor.conn++l.phase.references

structure ServedConnection where
  loop : ℕ
  name : Bytes
  channel : Channel
  -- the state and the output; its `writing` is that of the channel
  output : TcpConnection := {}
  -- what `connected` said at each call of `connectionCallback_`
  reports : List Bool := []
  -- the object is gone, and its descriptor closed
  destroyed : Bool := false

/-- What `readFd` gave, and what the message callback then did with the connection. -/
inductive ReadResult
  | received (ops : List OutputOp)
  | closed
  | failed

structure TcpServer where
  name : Bytes
  ipPort : InetAddress
  numThreads : ℕ
  -- `next_` of the thread pool
  next : ℕ := 0
  nextConnId : ℕ := 1
  connections : List (Bytes × ℕ) := []
  loops : ℕ → ServedLoop := fun _ => {}
  conns : ℕ → Option ServedConnection := fun _ => none
  -- references that the application holds
  holders : List ℕ := []

inductive TcpServerEvent
  -- in the base loop, the descriptor that `accept` gave
  | accept (fd : ℕ)
  -- of a loop
  | poll (loop : ℕ) (ready : List (ℕ × EpollEvents))
  | handleEvent (loop : ℕ)
  | handleClose (loop : ℕ)
  | handleError (loop : ℕ)
  | handleRead (loop : ℕ) (result : ReadResult)
  | handleWrite (loop : ℕ) (written sent : KernelResult)
  | handled (loop : ℕ)
  | doPendingFunctors (loop : ℕ)
  | runFunctor (loop : ℕ)
  | finish (loop : ℕ)
  -- a functor of the application in the loop of the connection, which it has locked
  | respond (conn : ℕ) (op : OutputOp)
  -- the application copies or drops a reference
  | hold (conn : ℕ)
  | release (conn : ℕ)
  -- the last reference was dropped
  | destroy (conn : ℕ)

namespace TcpServer

/-- `connections_.erase(name)` -/
def eraseName (connections : List (Bytes × ℕ)) (name : Bytes) : List (Bytes × ℕ) :=
  connections.filter (fun entry => entry.1 ≠ name)

/-- All counted references. -/
def references (s : TcpServer) : List ℕ :=
  s.connections.map Prod.snd++
    ((List.range (s.numThreads+1)).flatMap (fun k => (s.loops k).references)++s.holders)

def setLoop (s : TcpServer) (k : ℕ) (l : ServedLoop) : TcpServer :=
  { s with loops := Function.update s.loops k l }

@[simp] theorem setLoop_loops_self (s : TcpServer) (k : ℕ) (l : ServedLoop) :
    (s.setLoop k l).loops k = l := Function.update_self ..

theorem setLoop_loops_of_ne (s : TcpServer) {j k : ℕ} (l : ServedLoop) (hj : j ≠ k) :
    (s.setLoop k l).loops j = s.loops j := Function.update_of_ne hj ..

def setPhase (s : TcpServer) (k : ℕ) (phase : LoopPhase) : TcpServer :=
  s.setLoop k { s.loops k with phase := phase }

def modifyConn (s : TcpServer) (c : ℕ) (f : ServedConnection → ServedConnection) : TcpServer :=
  { s with conns := Function.update s.conns c ((s.conns c).map f) }

/-- A call that changes the events of the channel, with its `update`. -/
def updateChannel (s : TcpServer) (c : ℕ) (f : Channel → Channel) : TcpServer :=
  match s.conns c with
  | none => s
  | some x =>
    let l := s.loops x.loop
    let updated := l.poller.updateChannel c (f x.channel)
    (s.setLoop x.loop { l with poller := updated.1 }).modifyConn c (fun x =>
      { x with channel := updated.2, output := { x.output with writing := updated.2.isWriting } })

def removeChannel (s : TcpServer) (c : ℕ) : TcpServer :=
  match s.conns c with
  | none => s
  | some x =>
    let l := s.loops x.loop
    let removed := l.poller.removeChannel c x.channel
    (s.setLoop x.loop { l with poller := removed.1 }).modifyConn c (fun x =>
      { x with channel := removed.2 })

/-- `connectionCallback_(shared_from_this())` -/
def report (s : TcpServer) (c : ℕ) : TcpServer :=
  s.modifyConn c (fun x => { x with reports := x.reports++[x.output.connected] })

def queueInLoop (s : TcpServer) (k : ℕ) (functor : PendingFunctor) : TcpServer :=
  s.setLoop k { s.loops k with pendingFunctors := (s.loops k).pendingFunctors++[functor] }

def connectEstablished (s : TcpServer) (c : ℕ) : TcpServer :=
  ((s.modifyConn c (fun x =>
    { x with output := x.output.connectEstablished, channel := x.channel.tie })).updateChannel c
      Channel.enableReading).report c

/-- `setState(kDisconnected)` after `closePendingFile`, then `disableAll` and the callback. -/
def disconnect (s : TcpServer) (c : ℕ) : TcpServer :=
  ((s.modifyConn c (fun x =>
    { x with output := { x.output.closePendingFile with state := .kDisconnected } })).updateChannel
      c Channel.disableAll).report c

def connectDestroyed (s : TcpServer) (c : ℕ) : TcpServer :=
  if (s.conns c).any (fun x => x.output.connected) then (s.disconnect c).removeChannel c
  else
    (s.modifyConn c (fun x => { x with output := x.output.closePendingFile })).removeChannel c

def removeConnectionInLoop (s : TcpServer) (c : ℕ) : TcpServer :=
  match s.conns c with
  | none => s
  | some x =>
    { s with connections := eraseName s.connections x.name }.queueInLoop x.loop
      (.connectDestroyed c)

def execute (s : TcpServer) : PendingFunctor → TcpServer
  | .connectEstablished c => s.connectEstablished c
  | .removeConnectionInLoop c => s.removeConnectionInLoop c
  | .connectDestroyed c => s.connectDestroyed c

/-- Called in the thread of the loop `thread`. -/
def runInLoop (s : TcpServer) (thread k : ℕ) (functor : PendingFunctor) : TcpServer :=
  if thread = k then s.execute functor else s.queueInLoop k functor

/-- The close callback is `TcpServer::removeConnection`. -/
def handleClose (s : TcpServer) (thread c : ℕ) : TcpServer :=
  (s.disconnect c).runInLoop thread 0 (.removeConnectionInLoop c)

/-- A call on the connection in its loop; the channel follows what it did to `isWriting`. -/
def operate (s : TcpServer) (c : ℕ) (op : OutputOp) : TcpServer :=
  match s.conns c with
  | none => s
  | some x =>
    let output := x.output.apply op
    let s₁ := s.modifyConn c (fun x => { x with output := output })
    if output.writing = x.output.writing then s₁
    else s₁.updateChannel c
      (if output.writing then Channel.enableWriting else Channel.disableWriting)

def handleRead (s : TcpServer) (thread c : ℕ) : ReadResult → TcpServer
  | .received ops => ops.foldl (fun s op => s.operate c op) s
  | .closed => s.handleClose thread c
  -- `handleError` only reads the error of the socket
  | .failed => s

/-- The loop that is next, and the pool after it. -/
def getNextLoop (s : TcpServer) : ℕ × TcpServer :=
  if s.numThreads = 0 then (0, s)
  else (s.next+1, { s with next := if s.next+1 ≥ s.numThreads then 0 else s.next+1 })

/-- The name, of which `buf` holds 63 bytes behind that of the server. -/
def connName (s : TcpServer) (id : ℕ) : Bytes :=
  s.name++(ascii "-"++(s.ipPort.toIpPort++(ascii "#"++HttpResponse.decimal id))).take 63

def newConnection (s : TcpServer) (fd : ℕ) : TcpServer :=
  let picked := s.getNextLoop
  let c := s.nextConnId
  let x : ServedConnection := { loop := picked.1, name := s.connName c, channel := { fd := fd } }
  { picked.2 with
    nextConnId := c+1
    conns := Function.update s.conns c (some x)
    connections := eraseName s.connections x.name++[(x.name, c)]
  }.runInLoop 0 x.loop (.connectEstablished c)

/-- A connection that is not destroyed has the descriptor. -/
def fdInUse (s : TcpServer) (fd : ℕ) : Bool :=
  (List.range s.nextConnId).any (fun c =>
    (s.conns c).any (fun x => !x.destroyed && x.channel.fd == fd))

/-- `~TcpConnection`, which closes the file and the socket; a closed descriptor leaves every
interest list. -/
def destroy (s : TcpServer) (c : ℕ) (x : ServedConnection) : TcpServer :=
  { s with loops := fun k => { s.loops k with poller := { (s.loops k).poller with
    interest := Function.update (s.loops k).poller.interest x.channel.fd none } } }.modifyConn c
      (fun x => { x with output := x.output.closePendingFile, destroyed := true })

/-- The next callback of the loop is this one. -/
def takeCallback (s : TcpServer) (k : ℕ) (callback : ChannelCallback) : Option (ℕ × TcpServer) :=
  match (s.loops k).phase with
  | .handling c (next :: callbacks) active =>
    if next = callback then some (c, s.setPhase k (.handling c callbacks active)) else none
  | _ => none

def nextStep (s : TcpServer) : TcpServerEvent → Option TcpServer
  | .accept fd =>
    match (s.loops 0).phase with
    -- `nextConnId_` is an `int`
    | .dispatching _ =>
      if s.fdInUse fd = false ∧ s.nextConnId < 2^31-1 then some (s.newConnection fd) else none
    | _ => none
  | .poll k ready =>
    if k ≤ s.numThreads ∧ (s.loops k).phase = .polling ∧ (s.loops k).poller.reports ready then
      let polled := (s.loops k).poller.poll ready
      some (s.setLoop k { s.loops k with phase := .dispatching polled.2, poller := polled.1 })
    else none
  | .handleEvent k =>
    match (s.loops k).phase with
    | .dispatching ((c, revents) :: active) =>
      match s.conns c with
      | none => none
      | some x =>
        -- there is no step for a channel that is gone
        if x.destroyed then none
        else if x.channel.tied ∧ c ∉ s.references then some (s.setPhase k (.dispatching active))
        else some (s.setPhase k (.handling c (Channel.callbacks revents) active))
    | _ => none
  | .handleClose k => (s.takeCallback k .close).map (fun taken => taken.2.handleClose k taken.1)
  | .handleError k => (s.takeCallback k .error).map (fun taken => taken.2)
  | .handleRead k result =>
    (s.takeCallback k .read).map (fun taken => taken.2.handleRead k taken.1 result)
  | .handleWrite k written sent =>
    (s.takeCallback k .write).map (fun taken =>
      taken.2.operate taken.1 (.handleWrite written sent))
  | .handled k =>
    match (s.loops k).phase with
    | .handling _ [] active => some (s.setPhase k (.dispatching active))
    | _ => none
  | .doPendingFunctors k =>
    match (s.loops k).phase with
    | .dispatching [] =>
      let functors := (s.loops k).pendingFunctors
      some (s.setLoop k { s.loops k with
        phase := .running functors functors, pendingFunctors := [] })
    | _ => none
  | .runFunctor k =>
    match (s.loops k).phase with
    | .running functors (functor :: todo) =>
      some ((s.setPhase k (.running functors todo)).execute functor)
    | _ => none
  | .finish k =>
    match (s.loops k).phase with
    | .running _ [] => some (s.setPhase k .polling)
    | _ => none
  | .respond c op =>
    match s.conns c with
    | none => none
    | some x =>
      match (s.loops x.loop).phase with
      | .running _ _ => if c ∈ s.references then some (s.operate c op) else none
      | _ => none
  | .hold c => if c ∈ s.references then some { s with holders := s.holders++[c] } else none
  | .release c => if c ∈ s.holders then some { s with holders := s.holders.erase c } else none
  | .destroy c =>
    match s.conns c with
    | none => none
    | some x => if x.destroyed = false ∧ c ∉ s.references then some (s.destroy c x) else none

def Step (s : TcpServer) (e : TcpServerEvent) (s' : TcpServer) : Prop := s.nextStep e = some s'

end TcpServer

end JingjieAR
