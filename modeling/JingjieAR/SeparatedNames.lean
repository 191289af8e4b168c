import Mathlib.Data.List.Basic

/-! Texts made of names, each behind a separator. A text that continues another one at a
separator continues its list of names. -/
namespace JingjieAR

variable {α : Type*} {sep : α}

def joinNames (sep : α) (names : List (List α)) : List α := names.flatMap (sep :: ·)

/-- The text is empty or goes on with a separator. -/
def AtBoundary (sep : α) (text : List α) : Prop := ∀ c ∈ text.head?, c = sep

@[simp] theorem joinNames_nil : joinNames sep [] = [] := rfl

@[simp] theorem joinNames_cons (name : List α) (names : List (List α)) :
    joinNames sep (name :: names) = sep :: (name++joinNames sep names) := rfl

theorem atBoundary_nil : AtBoundary sep ([] : List α) := by
  intro c hc
  simp at hc

theorem atBoundary_cons (text : List α) : AtBoundary sep (sep :: text) := by
  intro c hc
  simpa using hc.symm

theorem atBoundary_joinNames (names : List (List α)) : AtBoundary sep (joinNames sep names) := by
  cases names with
  | nil => exact atBoundary_nil
  | cons name names => exact atBoundary_cons _

theorem atBoundary_joinNames_append (names : List (List α)) (text : List α) :
    AtBoundary sep (joinNames sep names++sep :: text) := by
  cases names with
  | nil => exact atBoundary_cons _
  | cons name names => exact atBoundary_cons _

/-- A name without separators is determined by the text up to the next boundary. -/
theorem name_append_inj {name name' rest rest' : List α} (hn : sep ∉ name) (hn' : sep ∉ name')
    (hr : AtBoundary sep rest) (hr' : AtBoundary sep rest') (h : name++rest = name'++rest') :
    name = name' ∧ rest = rest' := by
  induction name generalizing name' with
  | nil =>
    cases name' with
    | nil => exact ⟨rfl, h⟩
    | cons c name' =>
      have hc : c = sep := hr c (by simp [show rest = c :: (name'++rest') from h])
      exact absurd (hc ▸ List.mem_cons_self) hn'
  | cons c name ih =>
    cases name' with
    | nil =>
      have hc : c = sep := hr' c (by simp [show rest' = c :: (name++rest) from h.symm])
      exact absurd (hc ▸ List.mem_cons_self) hn
    | cons c' name' =>
      have hcons := List.cons_eq_cons.mp h
      obtain ⟨hname, hrest⟩ := ih (fun hm => hn (List.mem_cons_of_mem _ hm))
        (fun hm => hn' (List.mem_cons_of_mem _ hm)) hcons.2
      exact ⟨by rw [hcons.1, hname], hrest⟩

theorem append_ne_of_take {text other : List α} (h : other.take text.length ≠ text)
    (rest : List α) : text++rest ≠ other := by
  intro heq
  rw [← heq, List.take_left] at h
  exact h rfl

/-- A text that goes on with a separator behind some names has these names first, and
at least one more. -/
theorem names_of_joinNames_append {names names' : List (List α)} {text : List α}
    (hn : ∀ name ∈ names, sep ∉ name) (hn' : ∀ name ∈ names', sep ∉ name)
    (h : joinNames sep names++sep :: text = joinNames sep names') :
    ∃ more, more ≠ [] ∧ names' = names++more := by
  induction names generalizing names' with
  | nil =>
    refine ⟨names', ?_, rfl⟩
    intro hnil
    simp [hnil] at h
  | cons name names ih =>
    cases names' with
    | nil => simp at h
    | cons name' names' =>
      have htail : name++(joinNames sep names++sep :: text) = name'++joinNames sep names' := by
        simpa using h
      obtain ⟨hname, hrest⟩ := name_append_inj (hn name List.mem_cons_self)
        (hn' name' List.mem_cons_self) (atBoundary_joinNames_append names text)
        (atBoundary_joinNames names') htail
      obtain ⟨more, hmore, hnames⟩ := ih (fun n hm => hn n (List.mem_cons_of_mem _ hm))
        (fun n hm => hn' n (List.mem_cons_of_mem _ hm)) hrest
      exact ⟨more, hmore, by rw [hname, hnames, List.cons_append]⟩

/-- A text made of names, from one of its separators on, is made of the last names. -/
theorem exists_suffix_of_joinNames {names : List (List α)} {before tail : List α}
    (hn : ∀ name ∈ names, sep ∉ name) (h : joinNames sep names = before++sep :: tail) :
    ∃ post, post <:+ names ∧ joinNames sep post = sep :: tail := by
  induction names generalizing before with
  | nil => simp at h
  | cons name names ih =>
    cases before with
    | nil => exact ⟨name :: names, List.suffix_rfl, h⟩
    | cons c before =>
      have htail : name++joinNames sep names = before++sep :: tail := (List.cons.inj h).2
      have hnames : ∀ name ∈ names, sep ∉ name := fun n hm => hn n (List.mem_cons_of_mem _ hm)
      rcases List.append_eq_append_iff.mp htail with ⟨more, -, hrest⟩ | ⟨more, hname, hrest⟩
      · obtain ⟨post, hpost, hjoin⟩ := ih hnames hrest
        exact ⟨post, hpost.trans (List.suffix_cons _ _), hjoin⟩
      · cases more with
        | nil => exact ⟨names, List.suffix_cons _ _, hrest.symm⟩
        | cons c more =>
          have hc : c = sep := (List.cons.inj hrest).1.symm
          refine absurd ?_ (hn name List.mem_cons_self)
          rw [hname, hc]
          simp

end JingjieAR
