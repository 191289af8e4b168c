import JingjieAR.ArtworkInteractionModel
import JingjieAR.TransitionRuns

/-! The tables of likes and comments under the calls of `ArtworkInteractionDAO` and
`SceneInteractionDAO`. A call is a task of the workers; each of its SQL statements is atomic, has
no effect where it fails, and may come between any two statements of other tasks. -/
namespace JingjieAR

inductive LikeStatement
  | insert
  | insertIgnore
  | delete
deriving DecidableEq

/-- The rows after the statement and how many it affected; nothing is `ER_DUP_ENTRY`. -/
def LikeStatement.execute (likes : List (Bytes × ℕ)) (key : Bytes × ℕ) :
    LikeStatement → Option (List (Bytes × ℕ) × ℕ)
  | .insert => if key ∈ likes then none else some (likes++[key], 1)
  | .insertIgnore => if key ∈ likes then some (likes, 0) else some (likes++[key], 1)
  | .delete => if key ∈ likes then some (likes.filter (· ≠ key), 1) else some (likes, 0)

/-- What the two DAOs do differently: the statement of `like`, and whether a duplicate entry is a
success. -/
structure InteractionDao where
  like : LikeStatement
  duplicateIsSuccess : Bool

def sceneInteractionDao : InteractionDao where
  like := .insertIgnore
  duplicateIsSuccess := false

inductive DaoCall
  | like (workId : Bytes) (userId : ℕ)
  | unlike (workId : Bytes) (userId : ℕ)
  | summary (workId : Bytes) (userId : ℕ)
  | createComment (workId : Bytes) (userId : ℕ) (content : Bytes)
deriving DecidableEq

inductive DaoReply
  | like (reply : LikeReply)
  | summary (reply : SummaryReply)
  | comment (reply : CommentReply)
deriving DecidableEq

/-- The callback when there is no worker or no connection, or when a statement failed. -/
def DaoCall.refused : DaoCall → DaoReply
  | .like _ _ => .like ⟨false, false, 0, false⟩
  | .unlike _ _ => .like ⟨false, false, 0, false⟩
  | .summary _ _ => .summary ⟨false, 0, false, 0⟩
  | .createComment _ _ _ => .comment ⟨false, 0⟩

/-- What a statement did to the tables or saw in them. -/
inductive InteractionEffect (α β : Type)
  | wrote (work : α) (user : β) (like changed : Bool)
  | commented (work : α) (id : ℕ)
  | read (work : α) (user : β) (count : ℕ) (liked : Bool) (commentCount : ℕ)
deriving DecidableEq

structure DaoTask where
  id : ℕ
  call : DaoCall
  -- how many statements had been executed when it was called
  since : ℕ
  -- when its write has been executed: whether that changed a row
  changed : Option Bool := none

structure DaoReport where
  id : ℕ
  call : DaoCall
  since : ℕ
  upto : ℕ
  reply : DaoReply

structure CommentRow where
  id : ℕ
  workId : Bytes
  userId : ℕ
  content : Bytes

structure InteractionTables where
  likes : List (Bytes × ℕ) := []
  comments : List CommentRow := []
  tasks : List DaoTask := []
  -- the calls so far, their callbacks, and the statements with the calls they belong to
  calls : ℕ := 0
  reports : List DaoReport := []
  history : List (ℕ × InteractionEffect Bytes ℕ) := []

inductive StatementResult
  | done
  -- of an insert into `artwork_comments`
  | inserted (id : ℕ)
  | failed
  | noConnection

inductive InteractionEvent
  -- a call, which the workers accept or not
  | call (call : DaoCall) (submitted : Bool)
  -- the next statement of the task at this place
  | run (place : ℕ) (result : StatementResult)

namespace InteractionTables

/-- `COUNT(*)` of the likes and of the comments. -/
def likeCount (s : InteractionTables) (workId : Bytes) : ℕ :=
  s.likes.countP (fun key => key.1 = workId)

def commentCount (s : InteractionTables) (workId : Bytes) : ℕ :=
  s.comments.countP (fun row => row.workId = workId)

def complete (s : InteractionTables) (place : ℕ) (task : DaoTask) (reply : DaoReply) :
    InteractionTables :=
  { s with
    tasks := s.tasks.eraseIdx place
    reports := s.reports++[
      { id := task.id, call := task.call, since := task.since, upto := s.history.length,
        reply := reply }] }

def record (s : InteractionTables) (task : DaoTask) (effect : InteractionEffect Bytes ℕ) :
    InteractionTables :=
  { s with history := s.history++[(task.id, effect)] }

/-- `querySummary` -/
def querySummary (s : InteractionTables) (task : DaoTask) (workId : Bytes) (userId : ℕ) :
    InteractionTables :=
  s.record task (.read workId userId (s.likeCount workId) (decide ((workId, userId) ∈ s.likes))
    (s.commentCount workId))

/-- The write, and then the query. -/
def changeLike (s : InteractionTables) (place : ℕ) (task : DaoTask) (statement : LikeStatement)
    (duplicateIsSuccess like : Bool) (workId : Bytes) (userId : ℕ) :
    StatementResult → Option InteractionTables
  | .done =>
    match task.changed with
    | none =>
      match statement.execute s.likes (workId, userId) with
      | some written =>
        let changed := decide (written.2 > 0)
        some ({ s with
          likes := written.1
          tasks := s.tasks.set place { task with changed := some changed } }.record task
            (.wrote workId userId like changed))
      | none =>
        if duplicateIsSuccess then
          some ({ s with
            tasks := s.tasks.set place { task with changed := some false } }.record task
              (.wrote workId userId like false))
        else some (s.complete place task task.call.refused)
    | some changed =>
      some ((s.querySummary task workId userId).complete place task
        (.like ⟨true, changed, s.likeCount workId, decide ((workId, userId) ∈ s.likes)⟩))
  | .failed =>
    some (s.complete place task (.like ⟨false, task.changed.getD false, 0, false⟩))
  | .noConnection =>
    match task.changed with
    | none => some (s.complete place task task.call.refused)
    | some _ => none
  | .inserted _ => none

def summary (s : InteractionTables) (place : ℕ) (task : DaoTask) (workId : Bytes) (userId : ℕ) :
    StatementResult → Option InteractionTables
  | .done =>
    some ((s.querySummary task workId userId).complete place task
      (.summary ⟨true, s.likeCount workId, decide ((workId, userId) ∈ s.likes),
        s.commentCount workId⟩))
  | .failed => some (s.complete place task task.call.refused)
  | .noConnection => some (s.complete place task task.call.refused)
  | .inserted _ => none

/-- The new id is an `AUTO_INCREMENT`. -/
def createComment (s : InteractionTables) (place : ℕ) (task : DaoTask) (workId : Bytes)
    (userId : ℕ) (content : Bytes) : StatementResult → Option InteractionTables
  | .inserted id =>
    if 0 < id ∧ ∀ row ∈ s.comments, row.id < id then
      let row : CommentRow := { id := id, workId := workId, userId := userId, content := content }
      some (({ s with comments := s.comments++[row] }.record task (.commented workId id)).complete
        place task (.comment ⟨true, id⟩))
    else none
  | .failed => some (s.complete place task task.call.refused)
  | .noConnection => some (s.complete place task task.call.refused)
  | .done => none

def advance (dao : InteractionDao) (s : InteractionTables) (place : ℕ) (task : DaoTask)
    (result : StatementResult) : Option InteractionTables :=
  match task.call with
  | .like workId userId =>
    s.changeLike place task dao.like dao.duplicateIsSuccess true workId userId result
  | .unlike workId userId => s.changeLike place task .delete false false workId userId result
  | .summary workId userId => s.summary place task workId userId result
  | .createComment workId userId content =>
    s.createComment place task workId userId content result

def next (dao : InteractionDao) (s : InteractionTables) : InteractionEvent → Option InteractionTables
  | .call call submitted =>
    let task : DaoTask := { id := s.calls, call := call, since := s.history.length }
    let s₁ := { s with tasks := s.tasks++[task], calls := s.calls+1 }
    some (if submitted then s₁ else s₁.complete s.tasks.length task call.refused)
  | .run place result =>
    match s.tasks[place]? with
    | none => none
    | some task => s.advance dao place task result

def Step (dao : InteractionDao) (s : InteractionTables) (e : InteractionEvent)
    (s' : InteractionTables) : Prop :=
  s.next dao e = some s'

end InteractionTables

end JingjieAR
