import JingjieAR.CallbackTasks
import JingjieAR.CatalogModel
import JingjieAR.CommentText
import JingjieAR.SessionStoreModel

/-! `ArtworkInteractionService`, and under it `SessionService::get` and the `find` and `revoke`
of `CachedSessionStore`, callback by callback. The workers, the cache, the tables and the
lifetime of the service answer as they please. -/
namespace JingjieAR

open Callbacks (Task Callback)

structure ArtworkComment where
  id : ℕ
  username : Bytes
  content : Bytes
deriving DecidableEq

structure LikeReply where
  ok : Bool
  changed : Bool
  count : ℕ
  liked : Bool
deriving DecidableEq

structure SummaryReply where
  ok : Bool
  likeCount : ℕ
  liked : Bool
  commentCount : ℕ
deriving DecidableEq

structure CommentsReply where
  ok : Bool
  comments : List ArtworkComment
  nextBefore : ℕ
deriving DecidableEq

structure CommentReply where
  ok : Bool
  id : ℕ
deriving DecidableEq

inductive ServerOp
  -- `active(lifetime)`, and whether a new lease has a DAO
  | active
  | lease
  -- `SessionStore::find`
  | find (token : Bytes)
  | cacheGet (token : Bytes)
  | cachePut (session : Session)
  | cachePutIfAbsent (session : Session)
  | durableFind (token : Bytes)
  | durableRevoke (token : Bytes)
  -- `ArtworkInteractionDAO`
  | summary (artworkId : Bytes) (userId : ℕ)
  | like (artworkId : Bytes) (userId : ℕ)
  | unlike (artworkId : Bytes) (userId : ℕ)
  | listComments (artworkId : Bytes) (beforeId limit : ℕ)
  | createComment (artworkId : Bytes) (userId : ℕ) (content : Bytes)
deriving DecidableEq

def ServerOp.Reply : ServerOp → Type
  | .active => Bool
  | .lease => Bool
  | .find _ => Option Session
  | .cacheGet _ => Option Session
  | .cachePut _ => Bool
  | .cachePutIfAbsent _ => Bool
  | .durableFind _ => Option Session
  | .durableRevoke _ => Bool
  | .summary _ _ => SummaryReply
  | .like _ _ => LikeReply
  | .unlike _ _ => LikeReply
  | .listComments _ _ _ => CommentsReply
  | .createComment _ _ _ => CommentReply

abbrev ServerTask (γ : Type) := Task ServerOp ServerOp.Reply γ

abbrev ServerCallback (γ α : Type) := Callback ServerOp ServerOp.Reply γ α

namespace CachedSessionStore

variable {γ : Type}

/-- `find` with its callbacks. -/
def findAsync (cfg : StoreConfig) (token : Bytes) (callback : ServerCallback γ (Option Session))
    (rest : ServerTask γ) : ServerTask γ :=
  if !cfg.durable || token == [] then callback none rest
  else if !cfg.cached then
    .start (.durableFind token) (fun session => callback session .done) rest
  else
    .submit
      (.ask (.cacheGet token) fun cached : Option Session =>
        match cached with
        | some cached => callback (some cached) .done
        | none =>
          .start (.durableFind token)
            (fun session : Option Session =>
              match session with
              | none => callback none .done
              | some copy =>
                .submit
                  (if copy.status = 0 then
                    .ask (.cachePut copy) fun stored : Bool =>
                      callback (if stored then some copy else none) .done
                  else
                    .ask (.cachePutIfAbsent copy) fun stored : Bool =>
                      if stored then callback (some copy) .done
                      else .ask (.cacheGet token) fun winner => callback winner .done)
                  (fun accepted => if accepted then .done else callback none .done))
            .done)
      (fun accepted => if accepted then rest else callback none rest)

/-- `revoke` with its callbacks. -/
def revokeAsync (cfg : StoreConfig) (token : Bytes) (callback : ServerCallback γ Bool)
    (rest : ServerTask γ) : ServerTask γ :=
  if !cfg.durable || token == [] then callback false rest
  else
    .start (.durableRevoke token)
      (fun revoked : Bool =>
        if !revoked then callback false .done
        else if !cfg.cached then callback true .done
        else
          .submit
            (.ask (.cachePut (tombstone token)) fun stored : Bool => callback stored .done)
            (fun accepted => if accepted then .done else callback false .done))
      rest

end CachedSessionStore

/-- `SessionService` as its `get` sees it: a `SessionStore`, of which it uses the `find`. -/
structure SessionLookup (γ : Type) where
  store : Option (Bytes → ServerCallback γ (Option Session) → ServerTask γ → ServerTask γ)

def SessionLookup.get {γ : Type} (sessions : SessionLookup γ) (token : Bytes)
    (completion : ServerCallback γ (Option Session)) (rest : ServerTask γ) : ServerTask γ :=
  match sessions.store with
  | some find => if token ≠ [] then find token completion rest else completion none rest
  | none => completion none rest

namespace ArtworkInteractionResult

inductive Status
  | ok
  | unauthorized
  | badRequest
  | notFound
  | unavailable
deriving DecidableEq

end ArtworkInteractionResult

structure ArtworkInteractionResult where
  status : ArtworkInteractionResult.Status := .ok
  likeCount : ℕ := 0
  commentCount : ℕ := 0
  liked : Bool := false
  comments : List ArtworkComment := []
  nextBefore : ℕ := 0
  commentId : ℕ := 0
deriving DecidableEq

/-- A task that answers the caller of the service. -/
abbrev InteractionTask := ServerTask ArtworkInteractionResult

abbrev InteractionCallback (α : Type) := ServerCallback ArtworkInteractionResult α

structure ArtworkInteractionService where
  catalog : Option ExhibitionCatalog
  sessions : Option (SessionLookup ArtworkInteractionResult)

namespace ArtworkInteractionService

/-- `if (callback) callback(value)`, for a function object that may be empty. -/
def invoke {α : Type} (callback : Option (InteractionCallback α)) (value : α)
    (rest : InteractionTask) : InteractionTask :=
  match callback with
  | some callback => callback value rest
  | none => rest

def result (status : ArtworkInteractionResult.Status) : ArtworkInteractionResult :=
  { status := status }

def findArtwork (service : ArtworkInteractionService) (artworkId : Bytes) : Option ArtworkInfo :=
  service.catalog.bind (fun catalog => catalog.findArtwork artworkId)

def artworkExists (service : ArtworkInteractionService) (artworkId : Bytes)
    (callback : Option (InteractionCallback ArtworkInteractionResult))
    (cont : Bool → InteractionTask) : InteractionTask :=
  if (service.findArtwork artworkId).isSome then cont true
  else invoke callback (result .notFound) (cont false)

def authenticate (service : ArtworkInteractionService) (token : Bytes)
    (failure : Option (InteractionCallback ArtworkInteractionResult))
    (success : Option (InteractionCallback ℕ)) (rest : InteractionTask) : InteractionTask :=
  if token == [] then invoke failure (result .unauthorized) rest
  else
    match service.sessions with
    | none => invoke failure (result .unavailable) rest
    | some sessions =>
      sessions.get token
        (fun session rest =>
          .ask .active fun alive : Bool =>
            if !alive then invoke failure (result .unavailable) rest
            else
              match session with
              | none => invoke failure (result .unauthorized) rest
              | some session =>
                if session.status ≠ 1 then invoke failure (result .unauthorized) rest
                else invoke success session.userId rest)
        rest

/-- `DaoCallLease lease(lifetime)`, and the answer where that has no DAO. -/
def leased (callback : Option (InteractionCallback ArtworkInteractionResult))
    (rest call : InteractionTask) : InteractionTask :=
  .ask .lease fun dao : Bool =>
    if !dao then invoke callback (result .unavailable) rest else call

/-- The callback of a DAO operation. -/
def answer (callback : Option (InteractionCallback ArtworkInteractionResult)) (ok : Bool)
    (value : ArtworkInteractionResult) : InteractionTask :=
  match callback with
  | none => .done
  | some callback =>
    .ask .active fun alive : Bool =>
      if !alive || !ok then callback (result .unavailable) .done else callback value .done

def loadSummary (artworkId : Bytes) (userId : ℕ)
    (callback : Option (InteractionCallback ArtworkInteractionResult)) (rest : InteractionTask) :
    InteractionTask :=
  leased callback rest
    (.start (.summary artworkId userId)
      (fun reply : SummaryReply =>
        match callback with
        | none => .done
        | some callback =>
          .ask .active fun alive : Bool =>
            if !alive then callback (result .unavailable) .done
            else if !reply.ok then callback (result .unavailable) .done
            else
              callback { likeCount := reply.likeCount, commentCount := reply.commentCount,
                         liked := reply.liked } .done)
      rest)

def detail (service : ArtworkInteractionService) (token artworkId : Bytes)
    (callback : Option (InteractionCallback ArtworkInteractionResult)) : InteractionTask :=
  service.artworkExists artworkId callback fun found =>
    if !found then .done
    else if token == [] then loadSummary artworkId 0 callback .done
    else
      service.authenticate token callback
        (some fun userId rest =>
          leased callback rest
            (.start (.summary artworkId userId)
              (fun reply : SummaryReply =>
                answer callback reply.ok
                  { likeCount := reply.likeCount, commentCount := reply.commentCount,
                    liked := reply.liked })
              rest))
        .done

def like (service : ArtworkInteractionService) (token artworkId : Bytes)
    (callback : Option (InteractionCallback ArtworkInteractionResult)) : InteractionTask :=
  service.artworkExists artworkId callback fun found =>
    if !found then .done
    else
      service.authenticate token callback
        (some fun userId rest =>
          leased callback rest
            (.start (.like artworkId userId)
              (fun reply : LikeReply =>
                answer callback reply.ok { likeCount := reply.count, liked := reply.liked })
              rest))
        .done

def unlike (service : ArtworkInteractionService) (token artworkId : Bytes)
    (callback : Option (InteractionCallback ArtworkInteractionResult)) : InteractionTask :=
  service.artworkExists artworkId callback fun found =>
    if !found then .done
    else
      service.authenticate token callback
        (some fun userId rest =>
          leased callback rest
            (.start (.unlike artworkId userId)
              (fun reply : LikeReply =>
                answer callback reply.ok { likeCount := reply.count, liked := reply.liked })
              rest))
        .done

def listComments (service : ArtworkInteractionService) (artworkId : Bytes) (beforeId limit : ℕ)
    (callback : Option (InteractionCallback ArtworkInteractionResult)) : InteractionTask :=
  service.artworkExists artworkId callback fun found =>
    if !found then .done
    else
      leased callback .done
        (.start (.listComments artworkId beforeId (if limit = 0 || limit > 20 then 20 else limit))
          (fun reply : CommentsReply =>
            answer callback reply.ok
              { comments := reply.comments, nextBefore := reply.nextBefore })
          .done)

def commentRequest (service : ArtworkInteractionService) (token artworkId content : Bytes)
    (contentValid : Bool) (callback : Option (InteractionCallback ArtworkInteractionResult)) :
    InteractionTask :=
  service.artworkExists artworkId callback fun found =>
    if !found then .done
    else
      service.authenticate token callback
        (some fun userId rest =>
          if !contentValid || content == [] || content.length > 1000 ||
              validNonBlankUtf8 content != some true then
            invoke callback (result .badRequest) rest
          else
            leased callback rest
              (.start (.createComment artworkId userId content)
                (fun reply : CommentReply =>
                  answer callback (reply.ok && reply.id ≠ 0) { commentId := reply.id })
                rest))
        .done

def comment (service : ArtworkInteractionService) (token artworkId content : Bytes)
    (callback : Option (InteractionCallback ArtworkInteractionResult)) : InteractionTask :=
  service.commentRequest token artworkId content true callback

end ArtworkInteractionService
end JingjieAR
