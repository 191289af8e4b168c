import JingjieAR.HashLfuCache
import JingjieAR.ResponseOrigins
import JingjieAR.TransitionRuns

/-! Workers that serve static files from one cache, while other programs write to the disk.
A worker looks at the disk and at the cache one call at a time. -/
namespace JingjieAR

open Runs (Run)

/-- The file system at one moment, and what a file gives that is opened and read. -/
structure ServedDisk where
  fs : FileSystem
  read : Bytes → Option Bytes

/-- How far the task of a request has come. -/
inductive FileTask
  | queued (request : HttpRequest)
  | prepared (request : HttpRequest) (plan : FilePlan)
  | looked (request : HttpRequest) (plan : FilePlan) (cached : Option CachedFileEntry)
  | opened (request : HttpRequest) (plan : FilePlan) (access : FileAccess)
  -- A task that throws sends no response.
  | done (request : HttpRequest) (response : Option HttpResponse)

inductive FileEvent
  -- Another program changes the disk.
  | disk (d : ServedDisk)
  | purge
  -- A request comes in; the workers take its task or they are too busy.
  | submit (id : ℕ) (request : HttpRequest) (taken : Bool)
  | prepare (id : ℕ)
  | look (id : ℕ) (visit : Iteration (LfuNode Bytes CachedFileEntry))
  | read (id : ℕ)
  | finish (id : ℕ) (visit : Iteration (LfuNode Bytes CachedFileEntry))

structure StaticFileServer where
  handler : StaticFileHandler
  dates : HttpDates
  disk : ServedDisk
  cache : KHashLfuCache Bytes CachedFileEntry
  tasks : ℕ → Option FileTask := fun _ => none

namespace StaticFileServer

/-- `populateResponse` gets as far as the content of a small file. -/
def wantsContent (threshold : ℕ) (request : HttpRequest) (plan : FilePlan) : Bool :=
  plan.sendsBytes && request.method ≠ .kHead && plan.fileSize ≤ threshold

def populate (s : StaticFileServer) (request : HttpRequest) (plan : FilePlan)
    (access : FileAccess) : Populated :=
  populateResponse s.dates request plan access s.handler.threshold { closeConnection := false }

/-- What the responder is given: nothing by a task that throws. -/
def sent (result : Populated) : Option HttpResponse :=
  match result.ended with
  | .ok _ => some result.response
  | .error _ => none

def setTask (s : StaticFileServer) (id : ℕ) (task : FileTask) : StaticFileServer :=
  { s with tasks := Function.update s.tasks id (some task) }

/-- The end of `populateResponse`: the entry goes into the cache, the response is sent. -/
def complete (s : StaticFileServer) (id : ℕ) (request : HttpRequest) (plan : FilePlan)
    (access : FileAccess) (visit : Iteration (LfuNode Bytes CachedFileEntry)) :
    Option StaticFileServer :=
  let result := s.populate request plan access
  match result.put with
  | none => some (s.setTask id (.done request (sent result)))
  | some entry => (s.cache.put plan.path entry visit).map
      (fun cache => { s with cache := cache }.setTask id (.done request (sent result)))

def next (s : StaticFileServer) : FileEvent → Option StaticFileServer
  | .disk d => some { s with disk := d }
  | .purge => some { s with cache := s.cache.purge }
  | .submit id request taken =>
    match s.tasks id with
    | some _ => none
    | none =>
      if taken then some (s.setTask id (.queued request))
      else some (s.setTask id (.done request
        (s.handler.handleAsync s.disk.fs s.dates ⟨none, none⟩ false request)))
  | .prepare id =>
    match s.tasks id with
    | some (.queued request) =>
      some (s.setTask id (.prepared request
        (prepareInRoot s.disk.fs s.dates s.handler.root request)))
    | _ => none
  | .look id visit =>
    match s.tasks id with
    | some (.prepared request plan) =>
      if wantsContent s.handler.threshold request plan then
        (s.cache.get plan.path visit).map
          (fun r => { s with cache := r.2 }.setTask id (.looked request plan r.1))
      else none
    | _ => none
  | .read id =>
    match s.tasks id with
    | some (.looked request plan cached) =>
      if freshEntry plan ⟨cached, none⟩ = none then
        some (s.setTask id (.opened request plan ⟨cached, s.disk.read plan.path⟩))
      else none
    | _ => none
  | .finish id visit =>
    match s.tasks id with
    | some (.prepared request plan) =>
      if wantsContent s.handler.threshold request plan then none
      else s.complete id request plan ⟨none, none⟩ visit
    | some (.looked request plan cached) =>
      if freshEntry plan ⟨cached, none⟩ = none then none
      else s.complete id request plan ⟨cached, none⟩ visit
    | some (.opened request plan access) => s.complete id request plan access visit
    | _ => none

def Step (s : StaticFileServer) (e : FileEvent) (s' : StaticFileServer) : Prop := s.next e = some s'

/-- No request yet, and nothing in the cache. -/
def started (handler : StaticFileHandler) (dates : HttpDates) (hash : Bytes → ℕ)
    (capacity sliceNum : ℕ) (disk : ServedDisk) : StaticFileServer where
  handler := handler
  dates := dates
  disk := disk
  cache := .new hash capacity sliceNum

@[simp] theorem setTask_tasks (s : StaticFileServer) (id : ℕ) (task : FileTask) :
    (s.setTask id task).tasks = Function.update s.tasks id (some task) := rfl

@[simp] theorem setTask_disk (s : StaticFileServer) (id : ℕ) (task : FileTask) :
    (s.setTask id task).disk = s.disk := rfl

@[simp] theorem setTask_cache (s : StaticFileServer) (id : ℕ) (task : FileTask) :
    (s.setTask id task).cache = s.cache := rfl

@[simp] theorem setTask_handler (s : StaticFileServer) (id : ℕ) (task : FileTask) :
    (s.setTask id task).handler = s.handler := rfl

@[simp] theorem setTask_dates (s : StaticFileServer) (id : ℕ) (task : FileTask) :
    (s.setTask id task).dates = s.dates := rfl

variable {s s' : StaticFileServer} {request : HttpRequest} {plan : FilePlan} {id : ℕ}
  {access : FileAccess} {visit : Iteration (LfuNode Bytes CachedFileEntry)}

/-- What the cache is told is what was read, as this version of the file. -/
theorem populateSmall_put {r : HttpResponse} {entry : CachedFileEntry}
    (h : (populateSmall plan access r).put = some entry) :
    freshEntry plan access = none ∧ access.read = some entry.content ∧
      entry.lastModified = plan.lastModified ∧ entry.fileSize = plan.fileSize := by
  rw [populateSmall] at h
  cases hfresh : freshEntry plan access with
  | some used =>
    rw [hfresh] at h
    exact absurd h (Option.some_ne_none _).symm
  | none =>
    rw [hfresh] at h
    cases hread : access.read with
    | none =>
      rw [hread] at h
      exact absurd h (Option.some_ne_none _).symm
    | some content =>
      rw [hread] at h
      obtain rfl := Option.some.inj h
      exact ⟨rfl, rfl, rfl, rfl⟩

/-- Only the small file of a request that wants its content depends on the access. -/
theorem populate_wanted (h : wantsContent s.handler.threshold request plan = true) :
    ∃ r : HttpResponse, ∀ access, s.populate request plan access = populateSmall plan access r := by
  simp only [wantsContent, FilePlan.sendsBytes, Bool.and_eq_true, Bool.or_eq_true,
    decide_eq_true_eq] at h
  obtain ⟨⟨⟨hfile, hstatus⟩, hmethod⟩, hsize⟩ := h
  refine ⟨addLengthHeaders plan (addFileHeaders s.dates plan
    { closeConnection := false, statusCode := plan.status }), fun access => ?_⟩
  have hrange : plan.status ≠ .k416RangeNotSatisfiable := by
    rcases hstatus with h | h <;> rw [h] <;> decide
  have hserved : ¬(plan.status ≠ .k200Ok ∧ plan.status ≠ .k206PartialContent) := by tauto
  have hsmall : ¬plan.fileSize > s.handler.threshold := by omega
  simp only [populate, populateResponse, hfile, populateBytes]
  rw [if_neg (by simp), if_neg hrange, if_neg hserved, if_neg hmethod, if_neg hsmall]

/-- Every other answer is the same whatever the cache and the file hold, and nothing is put. -/
theorem populate_unwanted (h : wantsContent s.handler.threshold request plan = false) :
    ∃ r : HttpResponse, ∀ access, s.populate request plan access = { response := r } := by
  let r₀ : HttpResponse := { closeConnection := false, statusCode := plan.status }
  let r₁ := addFileHeaders s.dates plan r₀
  simp only [populate, populateResponse]
  by_cases hfile : plan.isFile = true
  · by_cases hrange : plan.status = .k416RangeNotSatisfiable
    · refine ⟨r₁.addHeader (ascii "Content-Range") (unsatisfiableRange plan), fun access => ?_⟩
      rw [if_neg (by simp [hfile]), if_pos hrange]
    · by_cases hserved : plan.status ≠ .k200Ok ∧ plan.status ≠ .k206PartialContent
      · refine ⟨r₁, fun access => ?_⟩
        rw [if_neg (by simp [hfile]), if_neg hrange, if_pos hserved]
      · by_cases hmethod : request.method = .kHead
        · refine ⟨addLengthHeaders plan r₁, fun access => ?_⟩
          rw [if_neg (by simp [hfile]), if_neg hrange, if_neg hserved, populateBytes,
            if_pos hmethod]
        · have hlarge : plan.fileSize > s.handler.threshold := by
            by_contra hle
            have hstatus : plan.status = .k200Ok ∨ plan.status = .k206PartialContent := by tauto
            rw [wantsContent, FilePlan.sendsBytes] at h
            rcases hstatus with hstatus | hstatus
            all_goals simp [hfile, hstatus, hmethod, Nat.le_of_not_lt hle] at h
          refine ⟨(addLengthHeaders plan r₁).setFile plan.path plan.fileOffset plan.responseSize,
            fun access => ?_⟩
          rw [if_neg (by simp [hfile]), if_neg hrange, if_neg hserved, populateBytes,
            if_neg hmethod, if_pos hlarge]
  · refine ⟨r₀, fun access => ?_⟩
    rw [if_pos (by simp [hfile])]

end StaticFileServer

end JingjieAR
