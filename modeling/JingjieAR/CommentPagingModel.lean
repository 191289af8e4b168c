import JingjieAR.ArtworkInteractionModel
import JingjieAR.TransitionRuns
import JingjieAR.TwoLevelCacheModel

/-! The pages of the comments of an artwork, from the query parameters through the service to
the statement of the DAO, and a client that asks for one page after the other. -/
namespace JingjieAR

open HttpResponse (decimal)
open Runs (Run)

/-- `std::strtoull` of base 10 on a C string: the number, whether `errno` is `ERANGE`, and
what is behind the number. Without digits nothing is read. -/
def strtoull (text : Bytes) : ℕ × Bool × Bytes :=
  let cString := text.takeWhile (· ≠ 0)
  let unsigned := cString.dropWhile (fun c => c = 32 || (9 ≤ c && c ≤ 13))
  let negative := unsigned.head? = some 45
  let digits := if negative || unsigned.head? = some 43 then unsigned.tail else unsigned
  if digits.takeWhile isDigit = [] then (0, false, cString)
  else
    let value := (digits.takeWhile isDigit).foldl (fun n c => n*10+(c.toNat-48)) 0
    if value < 2^64 then
      (if negative then (2^64-value) % 2^64 else value, false, digits.dropWhile isDigit)
    else (2^64-1, true, digits.dropWhile isDigit)

/-- An absent or empty parameter is zero. -/
def unsignedParameter (parameters : StringMap) (name : Bytes) : Option ℕ :=
  match parameters.lookup name with
  | none => some 0
  | some [] => some 0
  | some (c :: rest) =>
    let parsed := strtoull (c :: rest)
    if parsed.2.1 ∨ parsed.2.2 ≠ [] ∨ c = 45 then none else some parsed.1

/-- The rows of `artwork_comments` with the names of their authors, the newest first. The id
is an `AUTO_INCREMENT` of a `BIGINT UNSIGNED`, which ends before the largest number. -/
structure CommentTable where
  rows : List (Bytes × ArtworkComment) := []
  descending : rows.Pairwise (fun a b => b.2.id < a.2.id) := by simp
  ids : ∀ row ∈ rows, 0 < row.2.id ∧ row.2.id < 2^64-1 := by simp

namespace CommentTable

/-- `INSERT`: the new id is greater than all that were there. -/
def insert (table : CommentTable) (artworkId : Bytes) (comment : ArtworkComment) :
    Option CommentTable :=
  if h : (∀ row ∈ table.rows, row.2.id < comment.id) ∧ 0 < comment.id ∧ comment.id < 2^64-1 then
    some
      { rows := (artworkId, comment) :: table.rows
        descending := List.pairwise_cons.mpr ⟨h.1, table.descending⟩
        ids := List.forall_mem_cons.mpr ⟨h.2, table.ids⟩ }
  else none

/-- The comments of one artwork, the newest first. -/
def ofArtwork (table : CommentTable) (artworkId : Bytes) : List ArtworkComment :=
  (table.rows.filter (·.1 = artworkId)).map (·.2)

/-- `WHERE artwork_id = ? AND id < ? ORDER BY id DESC LIMIT ?`. -/
def select (table : CommentTable) (artworkId : Bytes) (cursor limit : ℕ) : List ArtworkComment :=
  ((table.ofArtwork artworkId).filter (·.id < cursor)).take limit

end CommentTable

structure CommentsPage where
  comments : List ArtworkComment := []
  nextBefore : ℕ := 0
deriving DecidableEq

/-- `ArtworkInteractionDAO::listComments`: zero is no cursor. -/
def daoListComments (table : CommentTable) (artworkId : Bytes) (beforeId limit : ℕ) :
    CommentsPage :=
  let cursor := if beforeId ≠ 0 then beforeId else 2^64-1
  let rowLimit := if limit > 20 then 20 else if limit ≠ 0 then limit else 20
  (table.select artworkId cursor rowLimit).foldl
    (fun page comment => ⟨page.comments++[comment], comment.id⟩) {}

/-- The limit that `ArtworkInteractionService::listComments` hands on. -/
def boundedLimit (limit : ℕ) : ℕ := if limit = 0 ∨ limit > 20 then 20 else limit

/-- `ArtworkInteractionHandlers::comments` of a known artwork; nothing is an answer 400. -/
def commentsHandler (table : CommentTable) (artworkId : Bytes) (parameters : StringMap) :
    Option CommentsPage := do
  let before ← unsignedParameter parameters (ascii "before")
  let limit ← unsignedParameter parameters (ascii "limit")
  -- the limit becomes an `uint32_t`
  let limit := if limit > 2^32-1 then 2^32-1 else limit
  some (daoListComments table artworkId before (boundedLimit limit))

/-- The pages that a client has got so far, and the cursor of the last one. -/
structure CommentReader where
  table : CommentTable
  pages : List (List ArtworkComment) := []
  nextBefore : Option ℕ := none

inductive PagingStep
  | insert (artworkId : Bytes) (comment : ArtworkComment)
  | request
deriving DecidableEq

namespace CommentReader

/-- The query of the next request: the first one has no cursor. -/
def query (parameters : StringMap) : Option ℕ → StringMap
  | none => parameters
  | some before => parameters.insert (ascii "before") (decimal before)

def next (artworkId : Bytes) (parameters : StringMap) (s : CommentReader) :
    PagingStep → Option CommentReader
  | .insert artworkId comment =>
    (s.table.insert artworkId comment).map (fun table => { s with table := table })
  | .request =>
    if s.nextBefore = some 0 then none
    else
      (commentsHandler s.table artworkId (query parameters s.nextBefore)).map fun page =>
        { s with pages := s.pages++[page.comments], nextBefore := some page.nextBefore }

def Step (artworkId : Bytes) (parameters : StringMap) (s : CommentReader) (e : PagingStep)
    (s' : CommentReader) : Prop :=
  next artworkId parameters s e = some s'

end CommentReader

end JingjieAR
