import JingjieAR.CommentPagingModel

/-! The comments of the artwork that is open in the modal. A call of `loadComments` takes its
cursor when it starts and works on the list when its answer arrives, and in between anything
may happen: the answers come in any order. -/
namespace JingjieAR

/-- A call of `loadComments` or `submitComment` of the open artwork. -/
inductive CommentCall
  -- `loadComments`: on its way to the server, and back from there
  | loading (reset : Bool) (before : ℕ)
  | answered (reset : Bool) (page : CommentsPage)
  -- `submitComment`, up to the answer of its request
  | submitting
  | stored
  | finished
deriving DecidableEq

/-- The modal, the calls under way, and the table of the server. The list is of comments; the
paragraph that stands for an empty list is left out. -/
structure ArtworkModal where
  commentList : List ArtworkComment := []
  nextBefore : ℕ := 0
  calls : List CommentCall := []
  table : CommentTable

inductive ModalEvent
  | loadComments (reset : Bool)
  | submitComment
  -- the server answers a page request, or stores the comment
  | answer (i : ℕ)
  | store (i : ℕ) (comment : ArtworkComment)
  -- an answer arrives, or a failure
  | arrive (i : ℕ)
  | fail (i : ℕ)
  -- somebody else comments on some artwork
  | insert (artworkId : Bytes) (comment : ArtworkComment)

namespace ArtworkModal

/-- What is fixed: the artwork, and the number that is sent back for an integer of an answer. -/
structure Setting where
  artworkId : Bytes
  number : ℕ → ℕ
  number_eq_zero : ∀ n, number n = 0 ↔ n = 0

variable (cfg : Setting)

def setCall (s : ArtworkModal) (i : ℕ) (call : CommentCall) : ArtworkModal :=
  { s with calls := s.calls.set i call }

/-- The beginning of `loadComments`: the cursor is taken now. -/
def startLoad (s : ArtworkModal) (reset : Bool) : CommentCall :=
  .loading reset (if reset then 0 else s.nextBefore)

/-- The server answers a request with a limit of 20. -/
def serverPage (s : ArtworkModal) (before : ℕ) : CommentsPage :=
  daoListComments s.table cfg.artworkId before (boundedLimit 20)

/-- The end of `loadComments`. -/
def applyPage (s : ArtworkModal) (reset : Bool) (page : CommentsPage) : ArtworkModal :=
  { s with
    commentList := if reset then page.comments else s.commentList++page.comments
    nextBefore := cfg.number page.nextBefore }

def next (s : ArtworkModal) : ModalEvent → Option ArtworkModal
  | .loadComments reset => some { s with calls := s.calls++[s.startLoad reset] }
  | .submitComment => some { s with calls := s.calls++[.submitting] }
  | .answer i =>
    match s.calls[i]? with
    | some (.loading reset before) => some (s.setCall i (.answered reset (s.serverPage cfg before)))
    | _ => none
  | .store i comment =>
    match s.calls[i]? with
    | some .submitting =>
      (s.table.insert cfg.artworkId comment).map
        (fun table => { s with table := table }.setCall i .stored)
    | _ => none
  | .arrive i =>
    match s.calls[i]? with
    | some (.answered reset page) => some ((s.applyPage cfg reset page).setCall i .finished)
    -- the comment is there: the list is loaded anew
    | some .stored => some (s.setCall i (s.startLoad true))
    | _ => none
  | .fail i =>
    match s.calls[i]? with
    | some .finished => none
    | some _ => some (s.setCall i .finished)
    | none => none
  | .insert artworkId comment =>
    (s.table.insert artworkId comment).map (fun table => { s with table := table })

def Step (s : ArtworkModal) (e : ModalEvent) (s' : ArtworkModal) : Prop :=
  next cfg s e = some s'

/-- Each comment once and the newest first; the cursor is the last of them, or zero if there
is nothing older. -/
structure Integrity (s : ArtworkModal) : Prop where
  descending : s.commentList.Pairwise (fun a b => b.id < a.id)
  cursor : match s.commentList.getLast? with
    | none => s.nextBefore = 0
    | some last => s.nextBefore = last.id ∨
        s.nextBefore = 0 ∧ ∀ c ∈ s.table.ofArtwork cfg.artworkId, ¬ c.id < last.id

/-- The page continues a list that ends with `last`; if it is empty, nothing is older. -/
def FollowsOn (s : ArtworkModal) (last : ArtworkComment) (page : CommentsPage) : Prop :=
  match page.comments with
  | [] => ∀ c ∈ s.table.ofArtwork cfg.artworkId, ¬ c.id < last.id
  | first :: _ => first.id < last.id

/-- An answer that is appended belongs to the end of the list as it is now, and the cursor of
an answer is an exact number. -/
def Continues (s : ArtworkModal) : ModalEvent → Prop
  | .arrive i =>
    match s.calls[i]? with
    | some (.answered reset page) =>
      cfg.number page.nextBefore = page.nextBefore ∧
        (reset = false → ∀ last ∈ s.commentList.getLast?, s.FollowsOn cfg last page)
    | _ => True
  | _ => True

end ArtworkModal

end JingjieAR
