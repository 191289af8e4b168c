import Mathlib.Data.List.Basic

/-! Texts of fields with a delimiter between them. `getlines` takes a text apart as
`std::getline` does in a loop: an empty field at the very end is not there. Fields without the
delimiter are found again unless the last one is empty. -/
namespace JingjieAR

section Spans

variable {α : Type*} {p : α → Bool} {body : List α}

/-- Where a run of elements of one kind stops. -/
theorem span_stop {rest : List α} (hbody : ∀ a ∈ body, p a = true)
    (hrest : ∀ a ∈ rest.head?, p a = false) :
    (body++rest).takeWhile p = body ∧ (body++rest).dropWhile p = rest := by
  have hstop : rest.takeWhile p = [] ∧ rest.dropWhile p = rest := by
    cases rest with
    | nil => exact ⟨rfl, rfl⟩
    | cons a rest =>
      have ha := hrest a rfl
      rw [List.takeWhile_cons_of_neg (by simp [ha]), List.dropWhile_cons_of_neg (by simp [ha])]
      exact ⟨rfl, rfl⟩
  rw [List.takeWhile_append_of_pos hbody, List.dropWhile_append_of_pos hbody, hstop.1, hstop.2,
    List.append_nil]
  exact ⟨rfl, rfl⟩

theorem span_stop_cons {a : α} (hbody : ∀ b ∈ body, p b = true) (ha : p a = false)
    (rest : List α) :
    (body++a :: rest).takeWhile p = body ∧ (body++a :: rest).dropWhile p = a :: rest := by
  refine span_stop hbody ?_
  rintro b hb
  obtain rfl : a = b := Option.some.inj hb
  exact ha

end Spans

variable {α : Type*} [DecidableEq α]

/-- The fields of a text when `field` has been read of the first. -/
def getlinesFrom (sep : α) : List α → List α → List (List α)
  | [], field => if field = [] then [] else [field]
  | c :: rest, field =>
    if c = sep then field :: getlinesFrom sep rest [] else getlinesFrom sep rest (field++[c])

def getlines (sep : α) (text : List α) : List (List α) := getlinesFrom sep text []

variable {sep : α}

theorem getlinesFrom_append {name : List α} (h : sep ∉ name) (rest field : List α) :
    getlinesFrom sep (name++rest) field = getlinesFrom sep rest (field++name) := by
  induction name generalizing field with
  | nil => rw [List.nil_append, List.append_nil]
  | cons c name ih =>
    obtain ⟨hne, hname⟩ := not_or.mp (List.mem_cons.not.mp h)
    rw [List.cons_append, getlinesFrom, if_neg (Ne.symm hne), ih hname, List.append_assoc]
    rfl

theorem getlines_field {field : List α} (h : sep ∉ field) (rest : List α) :
    getlines sep (field++sep :: rest) = field :: getlines sep rest := by
  rw [getlines, getlinesFrom_append h, List.nil_append, getlinesFrom, if_pos rfl]
  rfl

theorem getlines_last {field : List α} (h : sep ∉ field) :
    getlines sep field = if field = [] then [] else [field] := by
  have hread := getlinesFrom_append h [] []
  rw [List.append_nil, List.nil_append] at hread
  exact hread

/-- What is read of fields that were joined. -/
theorem getlines_intercalate {fields : List (List α)} (h : ∀ field ∈ fields, sep ∉ field)
    (hlast : fields.getLast? ≠ some []) : getlines sep ([sep].intercalate fields) = fields := by
  induction fields with
  | nil => rfl
  | cons field fields ih =>
    have hfield := h field List.mem_cons_self
    cases fields with
    | nil =>
      have hne : field ≠ [] := by simpa using hlast
      rw [List.intercalate_singleton, getlines_last hfield, if_neg hne]
    | cons next fields =>
      have hrest := ih (fun f hf => h f (List.mem_cons_of_mem _ hf)) (by simpa using hlast)
      rw [List.intercalate_cons_cons, List.append_assoc, List.singleton_append,
        getlines_field hfield, hrest]

/-- A text is one field, or a field, the delimiter and a text. -/
theorem fields_induction (sep : α) {motive : List α → Prop}
    (last : ∀ field, sep ∉ field → motive field)
    (cons : ∀ field rest, sep ∉ field → motive rest → motive (field++sep :: rest))
    (text : List α) : motive text := by
  induction hlength : text.length using Nat.strongRecOn generalizing text with
  | _ n ih =>
    by_cases hsep : sep ∈ text
    · obtain ⟨field, rest, rfl, hfield⟩ := List.eq_append_cons_of_mem hsep
      apply cons field rest hfield
      apply ih rest.length ?_ rest rfl
      rw [← hlength, List.length_append, List.length_cons]
      omega
    · exact last text hsep

end JingjieAR
