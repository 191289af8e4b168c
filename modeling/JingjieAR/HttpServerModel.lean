import JingjieAR.HttpContextModel
import JingjieAR.HttpResponseModel
import JingjieAR.TcpConnectionModel

/-! One connection of the HTTP server in its loop thread: a read event enters the loop
of `onMessage`, whose rounds parse, dispatch and answer; an asynchronous responder is
completed by a functor of the loop, between the calls of `onMessage`. What handlers and
middleware do with a request is open, and so are the results of the system calls. -/
namespace JingjieAR

/-- `HttpDispatcher::Result`. -/
inductive DispatchResult
  | kComplete
  | kAsyncPending
deriving DecidableEq

/-- What a call of `HttpDispatcher::dispatch` does. A handler keeps the responder also
when it throws after having handed it on; the result is then `kComplete`. -/
structure Dispatch where
  result : DispatchResult
  -- the response that the handlers and the middleware leave
  respond : HttpRequest → HttpResponse → HttpResponse
  keepsResponder : Bool

/-- The system calls of a `sendResponse`. -/
structure SendCalls where
  opened : Option OpenFile
  written : KernelResult
  fileSent : KernelResult
deriving DecidableEq

/-- A responder that has not been used, with what its sender has captured. -/
structure AsyncResponder where
  position : ℕ
  closeConnection : Bool
deriving DecidableEq

/-- The ways to leave the loop of `onMessage`. -/
inductive LoopExit
  | drained
  | parseError
  | incomplete
  | asynchronous
  | closing
deriving DecidableEq

structure HttpConnection where
  tcp : TcpConnection
  context : HttpContext
  inputBuffer : Bytes := []
  -- the receive time of the `onMessage` that is running
  receiving : Option Timestamp := none
  responders : List AsyncResponder := []
  -- every byte that has been read
  received : Bytes := []
  -- the calls of `dispatch`, each with the place in `received` where the request ends
  dispatched : List (ℕ × HttpRequest) := []
  -- the responses given to a connected connection, with the place of their request
  sent : List (ℕ × HttpResponse) := []
  -- how the last `onMessage` returned
  lastExit : LoopExit := .drained
deriving DecidableEq

def shouldContinueParsing (result : DispatchResult) (closeConnection : Bool) : Bool :=
  result = .kComplete && !closeConnection

def TcpConnection.handleClose (c : TcpConnection) : TcpConnection :=
  { c.closePendingFile with state := .kDisconnected, writing := false }

/-- `HTTP/1.0` closes unless told to keep alive, later versions only when told to. -/
def closeRequested (req : HttpRequest) : Bool :=
  let connectionHeader := req.getHeader (ascii "connection")
  if req.version = ascii "HTTP/1.0" then connectionHeader ≠ ascii "keep-alive"
  else connectionHeader = ascii "close"

/-- The response as `onRequest` hands it to the dispatcher. -/
def initialResponse (req : HttpRequest) : HttpResponse where
  closeConnection := closeRequested req
  statusCode := .k200Ok

/-- The response that is really sent: a file that cannot be opened is a 404. -/
def finalResponse (response : HttpResponse) (opened : Option OpenFile) : HttpResponse :=
  if response.hasFile ∧ opened = none then
    .makeErrorResponse .k404NotFound response.closeConnection []
  else response

def parseErrorStatus (error : ParseError) : HttpStatusCode :=
  if error = .kRequestLineTooLarge ∨ error = .kHeadersTooLarge ∨ error = .kBodyTooLarge then
    .k413PayloadTooLarge
  else if error = .kUnsupportedTransferEncoding then .k501NotImplemented
  else .k400BadRequest

/-- The calls on the connection that `sendResponse` makes. -/
def TcpConnection.sendResponse (c : TcpConnection) (response : HttpResponse) (calls : SendCalls) :
    TcpConnection :=
  let final := finalResponse response calls.opened
  let c₁ := c.send (final.appendToBuffer []) calls.written
  let c₂ :=
    match calls.opened with
    | some file =>
      if response.hasFile then c₁.sendFile file final.fileOffset final.fileCount calls.fileSent
      else c₁
    | none => c₁
  if final.closeConnection then c₂.shutdown else c₂

namespace HttpConnection

/-- `connectEstablished` and `onConnection`. -/
def established (limits : HttpLimits) : HttpConnection where
  tcp := ({} : TcpConnection).connectEstablished
  context := .new limits

/-- The number of bytes that the parser has taken. -/
def position (s : HttpConnection) : ℕ := s.received.length-s.inputBuffer.length

/-- Record a response, if the connection takes it at all. -/
def recordSent (s : HttpConnection) (position : ℕ) (response : HttpResponse) : HttpConnection :=
  { s with sent := if s.tcp.connected then s.sent++[(position, response)] else s.sent }

def sendResponse (s : HttpConnection) (position : ℕ) (response : HttpResponse)
    (calls : SendCalls) : HttpConnection :=
  { s.recordSent position (finalResponse response calls.opened) with
    tcp := s.tcp.sendResponse response calls }

/-- The answer to a malformed request counts as one to all bytes read so far. -/
def sendParseError (s : HttpConnection) (error : ParseError) (written : KernelResult) :
    HttpConnection :=
  let response :=
    HttpResponse.makeErrorResponse (parseErrorStatus error) true (ascii "Failed to parse request")
  { s.recordSent s.received.length response with
    tcp := (s.tcp.send (response.appendToBuffer []) written).shutdown }

/-- The call of `dispatch`; the sender of its responder has captured `close`. -/
def handOver (s : HttpConnection) (req : HttpRequest) (close : Bool) (d : Dispatch) :
    HttpConnection :=
  { s with
    dispatched := s.dispatched++[(s.position, req)],
    responders := if d.keepsResponder then s.responders++[⟨s.position, close⟩]
      else s.responders }

/-- `onRequest`, with the close flag that it gives to its caller. -/
def onRequest (s : HttpConnection) (req : HttpRequest) (d : Dispatch) (calls : SendCalls) :
    HttpConnection × Bool :=
  let response := d.respond req (initialResponse req)
  let s₁ := s.handOver req (closeRequested req) d
  -- The response of an asynchronous handler is not used.
  if d.result = .kAsyncPending then (s₁, false)
  else (s₁.sendResponse s.position response calls, response.closeConnection)

def resetContext (s : HttpConnection) : HttpConnection := { s with context := s.context.reset }

/-- `onMessage` returns. -/
def leave (s : HttpConnection) (exit : LoopExit) : HttpConnection :=
  { s with receiving := none, lastExit := exit }

/-- The rest of a round, once the request is complete. -/
def dispatchRequest (s : HttpConnection) (d : Dispatch) (calls : SendCalls) : HttpConnection :=
  match s.onRequest s.context.request d calls with
  | (s₁, closeConnection) =>
    if !shouldContinueParsing d.result closeConnection then
      -- Only this exit resets the context; after a closing response it stays complete.
      if d.result = .kAsyncPending then s₁.resetContext.leave .asynchronous
      else s₁.leave .closing
    else s₁.resetContext

/-- One round of the loop in `onMessage`; `dispatch` is given exactly when the round makes
that call. There is no result when the parser needs more than `fuel` rounds of its own. -/
def round (s : HttpConnection) (receiveTime : Timestamp) (fuel : ℕ) (dispatch : Option Dispatch)
    (calls : SendCalls) : Option HttpConnection :=
  if s.inputBuffer.length > 0 then
    match s.context.parseRequest fuel s.inputBuffer receiveTime with
    -- A parser that waits inside the headers or the body never comes back.
    | none => none
    | some (ok, context, rest) =>
      let s₁ := { s with context := context, inputBuffer := rest }
      match dispatch with
      | none =>
        -- The context keeps its error, and the bytes that were not taken stay.
        if !ok then some ((s₁.sendParseError context.error calls.written).leave .parseError)
        else if !context.gotAll then some (s₁.leave .incomplete)
        else none
      | some d => if ok && context.gotAll then some (s₁.dispatchRequest d calls) else none
  else if dispatch.isNone then some (s.leave .drained)
  else none

/-- The functor that a used responder has queued in the loop; `completed` is the response
after the last phase of the middleware, `none` when the dispatcher is gone. -/
def completeAsync (s : HttpConnection) (r : AsyncResponder) (completed : Option HttpResponse)
    (calls : SendCalls) : HttpConnection :=
  -- A responder that outlives the connection is ignored.
  if !s.tcp.connected then s
  else
    match completed with
    | none => s
    | some response =>
      s.sendResponse r.position
        { response with closeConnection := r.closeConnection || response.closeConnection } calls

end HttpConnection

inductive ServerEvent
  -- `handleRead` has read these bytes and calls `onMessage`
  | read (bytes : Bytes) (receiveTime : Timestamp)
  | round (fuel : ℕ) (dispatch : Option Dispatch) (calls : SendCalls)
  -- the functor of the responder at place `k` runs
  | complete (k : ℕ) (completed : Option HttpResponse) (calls : SendCalls)
  | handleWrite (written sent : KernelResult)
  -- the peer has closed the connection, or it is destroyed
  | close

namespace HttpConnection

/-- Reading stays enabled after a half-close, so bytes also arrive then. -/
def reads (s : HttpConnection) : Bool :=
  s.tcp.state = .kConnected || s.tcp.state = .kDisconnecting

/-- What an event does; `none` when it cannot happen. The loop thread does one thing at a
time: inside `onMessage` only rounds take place. -/
def next (s : HttpConnection) : ServerEvent → Option HttpConnection
  | .read bytes receiveTime =>
    if s.receiving = none ∧ s.reads ∧ bytes ≠ [] then
      some { s with inputBuffer := s.inputBuffer++bytes, received := s.received++bytes,
                    receiving := some receiveTime }
    else none
  | .round fuel dispatch calls => s.receiving.bind (s.round · fuel dispatch calls)
  | .complete k completed calls =>
    if s.receiving = none then
      s.responders[k]?.map (fun r =>
        { s with responders := s.responders.eraseIdx k }.completeAsync r completed calls)
    else none
  | .handleWrite written sent =>
    if s.receiving = none then some { s with tcp := s.tcp.handleWrite written sent } else none
  | .close =>
    if s.receiving = none then some { s with tcp := s.tcp.handleClose } else none

def step (s : HttpConnection) (e : ServerEvent) (s' : HttpConnection) : Prop := s.next e = some s'

end HttpConnection

end JingjieAR
