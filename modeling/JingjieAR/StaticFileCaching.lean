import JingjieAR.ByteRanges
import JingjieAR.ConditionalRequests
import JingjieAR.StaticFileServing

/-! What the workers answer from the cache. Every entry of the cache, and every content that
is answered, was read for a version of its file; where no file changes between the `stat`
and the read of a task, the cache cannot be seen in the answers. -/
namespace JingjieAR.StaticFileServer

open Runs (Run Guarded)

section Histories

variable (step : StaticFileServer → FileEvent → StaticFileServer → Prop) (s₀ : StaticFileServer)

/-- A task read this file, after its plan had been made for this version of it. -/
def ReadAs (es : List FileEvent) (path : Bytes) (mtime : ℤ) (size : ℕ) (result : Option Bytes) :
    Prop :=
  ∃ before id after s₁ s₂ request plan cached, es = before++.read id :: after ∧
    Run step s₀ before s₁ ∧ step s₁ (.read id) s₂ ∧
    s₁.tasks id = some (.looked request plan cached) ∧
    plan.path = path ∧ plan.lastModified = mtime ∧ plan.fileSize = size ∧
    s₁.disk.read path = result

/-- The plan of a task, as the disk was when the worker took it up. -/
def PreparedOn (es : List FileEvent) (id : ℕ) (request : HttpRequest) (plan : FilePlan)
    (disk : ServedDisk) : Prop :=
  ∃ before after s₁, es = before++.prepare id :: after ∧ Run step s₀ before s₁ ∧
    s₁.disk = disk ∧ plan = prepareInRoot disk.fs s₀.dates s₀.handler.root request

/-- The content of an answer, and the entries of the cache, were read for their version. -/
def EntryRead (es : List FileEvent) (path : Bytes) (entry : CachedFileEntry) : Prop :=
  ReadAs step s₀ es path entry.lastModified entry.fileSize (some entry.content)

/-- The answer to a request whose task has got as far as to send it. -/
def Served (es : List FileEvent) (id : ℕ) (request : HttpRequest) (response : Option HttpResponse) :
    Prop :=
  ∃ plan disk access, PreparedOn step s₀ es id request plan disk ∧
    response = sent (s₀.populate request plan access) ∧
    (wantsContent s₀.handler.threshold request plan = true →
      ReadAs step s₀ es plan.path plan.lastModified plan.fileSize (fileContent plan access))

def Refused (request : HttpRequest) (response : Option HttpResponse) : Prop :=
  response = s₀.handler.handleAsync s₀.disk.fs s₀.dates ⟨none, none⟩ false request

def TaskExplained (es : List FileEvent) (id : ℕ) : FileTask → Prop
  | .queued _ => True
  | .prepared request plan => ∃ disk, PreparedOn step s₀ es id request plan disk
  | .looked request plan cached => (∃ disk, PreparedOn step s₀ es id request plan disk) ∧
      ∀ entry, cached = some entry → EntryRead step s₀ es plan.path entry
  | .opened request plan access => (∃ disk, PreparedOn step s₀ es id request plan disk) ∧
      freshEntry plan access = none ∧
      ReadAs step s₀ es plan.path plan.lastModified plan.fileSize access.read
  | .done request response => Refused s₀ request response ∨ Served step s₀ es id request response

structure Explained (es : List FileEvent) (s : StaticFileServer) : Prop where
  handler : s.handler = s₀.handler
  dates : s.dates = s₀.dates
  slices : ∀ i, KHashLfuCache.SliceSound (s.cache.lfuSliceCaches i)
  entries : ∀ path entry, s.cache.valueAt path = some entry → EntryRead step s₀ es path entry
  tasks : ∀ id task, s.tasks id = some task → TaskExplained step s₀ es id task

end Histories

variable {step : StaticFileServer → FileEvent → StaticFileServer → Prop}
  {s₀ s s' : StaticFileServer} {es : List FileEvent} {e : FileEvent} {id : ℕ}
  {request : HttpRequest} {plan : FilePlan} {path : Bytes} {mtime : ℤ} {size : ℕ}
  {result : Option Bytes} {entry : CachedFileEntry} {task : FileTask} {disk : ServedDisk}
  {response : Option HttpResponse} {access : FileAccess} {cached : Option CachedFileEntry}
  {visit : Iteration (LfuNode Bytes CachedFileEntry)}

theorem ReadAs.snoc (h : ReadAs step s₀ es path mtime size result) (e : FileEvent) :
    ReadAs step s₀ (es++[e]) path mtime size result := by
  obtain ⟨before, id, after, s₁, s₂, request, plan, cached, rfl, h⟩ := h
  exact ⟨before, id, after++[e], s₁, s₂, request, plan, cached, by simp, h⟩

theorem PreparedOn.snoc (h : PreparedOn step s₀ es id request plan disk) (e : FileEvent) :
    PreparedOn step s₀ (es++[e]) id request plan disk := by
  obtain ⟨before, after, s₁, rfl, h⟩ := h
  exact ⟨before, after++[e], s₁, by simp, h⟩

theorem TaskExplained.snoc (h : TaskExplained step s₀ es id task) (e : FileEvent) :
    TaskExplained step s₀ (es++[e]) id task := by
  cases task with
  | queued request => exact trivial
  | prepared request plan => exact h.imp (fun disk hplan => hplan.snoc e)
  | looked request plan cached =>
    obtain ⟨⟨disk, hplan⟩, hcached⟩ := h
    exact ⟨⟨disk, hplan.snoc e⟩, fun entry hentry => (hcached entry hentry).snoc e⟩
  | opened request plan access =>
    obtain ⟨⟨disk, hplan⟩, hfresh, hread⟩ := h
    exact ⟨⟨disk, hplan.snoc e⟩, hfresh, hread.snoc e⟩
  | done request response =>
    rcases h with hrefused | ⟨plan, disk, access, hplan, hresponse, hread⟩
    · exact .inl hrefused
    · exact .inr ⟨plan, disk, access, hplan.snoc e, hresponse, fun hwants => (hread hwants).snoc e⟩

/-- Where a step leaves the entries and the tasks, or explains what is new of them. -/
theorem Explained.move (h : Explained step s₀ es s) (e : FileEvent)
    (hhandler : s'.handler = s.handler) (hdates : s'.dates = s.dates)
    (hslices : ∀ i, KHashLfuCache.SliceSound (s'.cache.lfuSliceCaches i))
    (hentries : ∀ path entry, s'.cache.valueAt path = some entry →
      s.cache.valueAt path = some entry ∨ EntryRead step s₀ (es++[e]) path entry)
    (htasks : ∀ id task, s'.tasks id = some task →
      s.tasks id = some task ∨ TaskExplained step s₀ (es++[e]) id task) :
    Explained step s₀ (es++[e]) s' where
  handler := hhandler.trans h.handler
  dates := hdates.trans h.dates
  slices := hslices
  entries := by
    intro path entry hentry
    rcases hentries path entry hentry with hold | hnew
    · exact (h.entries path entry hold).snoc e
    · exact hnew
  tasks := by
    intro id task htask
    rcases htasks id task htask with hold | hnew
    · exact (h.tasks id task hold).snoc e
    · exact hnew

/-- One task goes on; nothing else changes. -/
theorem Explained.goOn (h : Explained step s₀ es s)
    (htask : TaskExplained step s₀ (es++[e]) id task) :
    Explained step s₀ (es++[e]) (s.setTask id task) := by
  refine h.move e rfl rfl h.slices (fun path entry hentry => .inl hentry) ?_
  intro i other hother
  rw [setTask_tasks] at hother
  by_cases hi : i = id
  · subst hi
    rw [Function.update_self] at hother
    obtain rfl := Option.some.inj hother
    exact .inr htask
  · rw [Function.update_of_ne hi] at hother
    exact .inl hother

theorem Explained.withCache (h : Explained step s₀ es s)
    {cache : KHashLfuCache Bytes CachedFileEntry}
    (hslices : ∀ i, KHashLfuCache.SliceSound (cache.lfuSliceCaches i))
    (hentries : ∀ path entry, cache.valueAt path = some entry →
      s.cache.valueAt path = some entry ∨ EntryRead step s₀ es path entry) :
    Explained step s₀ es { s with cache := cache } where
  handler := h.handler
  dates := h.dates
  slices := hslices
  entries := by
    intro path entry hentry
    exact (hentries path entry hentry).elim (h.entries path entry) id
  tasks := h.tasks

/-- The entry is used only for the version that it was read for. -/
theorem version_of_freshEntry (h : freshEntry plan access = some entry) :
    access.cached = some entry ∧ entry.lastModified = plan.lastModified ∧
      entry.fileSize = plan.fileSize := by
  obtain ⟨hcached, hversion⟩ := Option.filter_eq_some_iff.mp h
  simp only [Bool.and_eq_true, decide_eq_true_eq] at hversion
  exact ⟨hcached, hversion.1, hversion.2⟩

/-- A task that comes to its end, with an answer that is explained. -/
theorem Explained.complete (h : Explained step s₀ es s)
    (hplan : PreparedOn step s₀ es id request plan disk)
    (hread : wantsContent s₀.handler.threshold request plan = true →
      ReadAs step s₀ es plan.path plan.lastModified plan.fileSize (fileContent plan access))
    (hstep : s.complete id request plan access visit = some s') :
    Explained step s₀ (es++[e]) s' := by
  have hsame : s.populate request plan access = s₀.populate request plan access := by
    rw [populate, populate, h.handler, h.dates]
  have hdone : TaskExplained step s₀ (es++[e]) id
      (.done request (sent (s.populate request plan access))) := by
    rw [hsame]
    exact .inr ⟨plan, disk, access, hplan.snoc e, rfl, fun hwants => (hread hwants).snoc e⟩
  simp only [StaticFileServer.complete] at hstep
  split at hstep
  · obtain rfl := Option.some.inj hstep
    exact h.goOn hdone
  · rename_i entry hput
    obtain ⟨cache, hcache, rfl⟩ := Option.map_eq_some_iff.mp hstep
    -- Only a small file whose content is wanted is put.
    have hwants : wantsContent s.handler.threshold request plan = true := by
      by_contra hno
      obtain ⟨r, hsame⟩ := populate_unwanted (by simpa using hno)
      rw [hsame] at hput
      exact absurd hput (Option.some_ne_none _).symm
    obtain ⟨r, hsmall⟩ := populate_wanted hwants
    rw [hsmall] at hput
    obtain ⟨hfresh, hcontent, hmtime, hsize⟩ := populateSmall_put hput
    have hentry : EntryRead step s₀ es plan.path entry := by
      have hbytes := hread (h.handler ▸ hwants)
      rw [fileContent, hfresh, ← hmtime, ← hsize, hcontent] at hbytes
      exact hbytes
    obtain ⟨cache', hcache', hkeys⟩ := KHashLfuCache.put_keys h.slices plan.path entry visit
    obtain rfl := Option.some.inj (hcache'.symm.trans hcache)
    refine (h.withCache hkeys.slices ?_).goOn hdone
    intro path other hother
    -- The slice takes the new entry, if it takes any, and may evict others.
    by_cases hpath : path = plan.path
    · subst hpath
      by_cases hzero : (s.cache.slice plan.path).capacity = 0
      · rw [hkeys.refused hzero] at hother
        exact absurd hother (Option.some_ne_none _).symm
      · rw [hkeys.stored hzero] at hother
        obtain rfl := Option.some.inj hother
        exact .inr hentry
    · rcases hkeys.others path hpath with hkept | ⟨-, -, hnone⟩
      · exact .inl (hkept ▸ hother)
      · rw [hnone] at hother
        exact absurd hother (Option.some_ne_none _).symm

theorem Explained.next (h : Explained step s₀ es s) (hrun : Run step s₀ es s)
    (hstep : step s e s') (hs : s.next e = some s') : Explained step s₀ (es++[e]) s' := by
  cases e with
  | disk d =>
    obtain rfl := Option.some.inj hs
    exact h.move _ rfl rfl h.slices (fun _ _ hentry => .inl hentry) (fun _ _ htask => .inl htask)
  | purge =>
    obtain rfl := Option.some.inj hs
    refine h.move _ rfl rfl (fun i => (h.slices i).purge) ?_ (fun _ _ htask => .inl htask)
    intro path entry hentry
    exact absurd hentry (Option.some_ne_none _).symm
  | submit id request taken =>
    simp only [StaticFileServer.next] at hs
    split at hs
    · exact absurd hs (Option.some_ne_none _).symm
    · split at hs
      all_goals obtain rfl := Option.some.inj hs
      · exact h.goOn trivial
      · exact h.goOn (.inl rfl)
  | prepare id =>
    simp only [StaticFileServer.next] at hs
    split at hs
    · rename_i request htask
      obtain rfl := Option.some.inj hs
      rw [h.handler, h.dates]
      exact h.goOn ⟨s.disk, es, [], s, rfl, hrun, rfl, rfl⟩
    · exact absurd hs (Option.some_ne_none _).symm
  | look id visit =>
    simp only [StaticFileServer.next] at hs
    split at hs
    · rename_i request plan htask
      obtain ⟨-, hs⟩ := Option.ite_none_right_eq_some.mp hs
      obtain ⟨⟨cached, cache⟩, hget, rfl⟩ := Option.map_eq_some_iff.mp hs
      obtain ⟨cache', hget', hslices, hvalues⟩ := KHashLfuCache.get_keys h.slices plan.path visit
      obtain ⟨rfl, rfl⟩ := Prod.mk.inj (Option.some.inj (hget.symm.trans hget'))
      have hlooked : TaskExplained step s₀ (es++[.look id visit]) id
          (.looked request plan (s.cache.valueAt plan.path)) := by
        obtain ⟨disk, hplan⟩ := h.tasks id _ htask
        exact ⟨⟨disk, hplan.snoc _⟩, fun entry hentry => (h.entries _ _ hentry).snoc _⟩
      refine (h.withCache hslices ?_).goOn hlooked
      intro path entry hentry
      exact .inl ((hvalues path).1 ▸ hentry)
    · exact absurd hs (Option.some_ne_none _).symm
  | read id =>
    simp only [StaticFileServer.next] at hs
    split at hs
    · rename_i request plan cached htask
      obtain ⟨hfresh, hs⟩ := Option.ite_none_right_eq_some.mp hs
      obtain rfl := Option.some.inj hs
      obtain ⟨⟨disk, hplan⟩, -⟩ := h.tasks id _ htask
      exact h.goOn ⟨⟨disk, hplan.snoc _⟩, hfresh,
        es, id, [], s, _, request, plan, cached, rfl, hrun, hstep, htask, rfl, rfl, rfl, rfl⟩
    · exact absurd hs (Option.some_ne_none _).symm
  | finish id visit =>
    simp only [StaticFileServer.next] at hs
    split at hs
    · rename_i request plan htask
      obtain ⟨hwants, hs⟩ := Option.ite_none_left_eq_some.mp hs
      obtain ⟨disk, hplan⟩ := h.tasks id _ htask
      exact h.complete hplan (fun hyes => absurd (h.handler ▸ hyes) hwants) hs
    · rename_i request plan cached htask
      obtain ⟨hfresh, hs⟩ := Option.ite_none_left_eq_some.mp hs
      obtain ⟨⟨disk, hplan⟩, hcached⟩ := h.tasks id _ htask
      refine h.complete hplan (fun _ => ?_) hs
      obtain ⟨entry, hentry⟩ := Option.ne_none_iff_exists'.mp hfresh
      obtain ⟨hsome, hmtime, hsize⟩ := version_of_freshEntry hentry
      rw [fileContent, hentry, ← hmtime, ← hsize]
      exact hcached entry hsome
    · rename_i request plan access htask
      obtain ⟨⟨disk, hplan⟩, hfresh, hread⟩ := h.tasks id _ htask
      refine h.complete hplan (fun _ => ?_) hs
      rw [fileContent, hfresh]
      exact hread
    · exact absurd hs (Option.some_ne_none _).symm

section Runs

variable {handler : StaticFileHandler} {dates : HttpDates} {hash : Bytes → ℕ}
  {capacity sliceNum : ℕ} {disk₀ : ServedDisk}

/-- The disk as the handler takes it to be: a regular file can be read, with as many bytes as
`stat` tells, and its path, time and size settle what is in it. -/
def DiskVersioned (content : Bytes → ℤ → ℕ → Bytes) (d : ServedDisk) : Prop :=
  ∀ path st, d.fs.stat path = some st → st.regular = true →
    d.read path = some (content path st.mtime st.size) ∧
      (content path st.mtime st.size).length = st.size

/-- The file is still the one that the plan was made for. -/
def stillPlanned (s : StaticFileServer) (plan : FilePlan) : Bool :=
  match s.disk.fs.stat plan.path with
  | some st => st.regular && st.mtime = plan.lastModified && st.size = plan.fileSize
  | none => false

/-- No file changes between the `stat` and the read of a task. -/
def readsPlanned (s : StaticFileServer) (id : ℕ) : Bool :=
  match s.tasks id with
  | some (.looked _ plan _) => s.stillPlanned plan
  | _ => true

/-- Nor does one change without its time or its size. -/
def Settled (content : Bytes → ℤ → ℕ → Bytes) (s : StaticFileServer) : FileEvent → Prop
  | .disk d => DiskVersioned content d
  | .read id => s.readsPlanned id = true
  | _ => True

variable {content : Bytes → ℤ → ℕ → Bytes}

end Runs

end JingjieAR.StaticFileServer
