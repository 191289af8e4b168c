import JingjieAR.DelimitedFields
import JingjieAR.XmlTexts
import Mathlib.Data.List.TakeWhile

/-! The printing of a tree as an XML document, with its character data in CDATA sections. What is
printed reads as the tree it was printed from. -/
namespace JingjieAR.XmlText

section Printing

/-- The characters that could be taken for markup, and the references to them. -/
def specials : List (ℕ × Text) :=
  [(38, ofString "&amp;"), (60, ofString "&lt;"), (62, ofString "&gt;"), (34, ofString "&quot;"),
    (39, ofString "&apos;")]

def escapeCharacter (c : ℕ) : Text := (specials.lookup c).getD [c]

def escape (text : Text) : Text := text.flatMap escapeCharacter

def printAttribute (pair : Text × Text) : Text :=
  32 :: (pair.1++(61 :: 34 :: (escape pair.2++[34])))

def printAttributes (pairs : List (Text × Text)) : Text := pairs.flatMap printAttribute

mutual

def print : Node → Text
  | .text value => 60 :: (cdataStart++(value++cdataEnd))
  | .element tag pairs children =>
    60 :: (tag++(printAttributes pairs++
      (if children.isEmpty then [32, 47, 62]
      else 62 :: (printAll children++(60 :: 47 :: (tag++[62]))))))

def printAll : List Node → Text
  | [] => []
  | node :: nodes => print node++printAll nodes

end

def isName : Text → Bool
  | [] => false
  | c :: rest => isNameStart c && rest.all isNameChar

/-- A character that is not changed when it is read. -/
def isPlain (c : ℕ) : Bool := isChar c && !(c = 9 || c = 10 || c = 13)

/-- A tree that can be printed, with character data of a kind. -/
inductive Printable (data : ℕ → Prop) : Node → Prop
  | text (value : Text) (hvalue : ∀ c ∈ value, isPlain c = true ∧ data c)
      (hend : ¬ cdataEnd <:+: value) : Printable data (.text value)
  | element (tag : Text) (pairs : List (Text × Text)) (children : List Node)
      (htag : isName tag = true)
      (hpairs : ∀ pair ∈ pairs, isName pair.1 = true ∧ ∀ c ∈ pair.2, isPlain c = true)
      (hnodup : (pairs.map Prod.fst).Nodup)
      (hchildren : ∀ child ∈ children, Printable data child) :
      Printable data (.element tag pairs children)

end Printing

section Characters

variable {c : ℕ}

theorem inRanges_iff {ranges : List (ℕ × ℕ)} :
    inRanges ranges c = true ↔ ∃ range ∈ ranges, range.1 ≤ c ∧ c ≤ range.2 := by
  simp [inRanges]

theorem isPlain_iff : isPlain c = true ↔ isChar c = true ∧ c ≠ 9 ∧ c ≠ 10 ∧ c ≠ 13 := by
  simp [isPlain, and_assoc]

/-- The first character of a name is behind all that separates names. -/
theorem nameStart_bounds (h : isNameStart c = true) : 58 ≤ c ∧ c ≠ 62 ∧ isChar c = true := by
  simp only [isNameStart, isChar, inRanges_iff, List.mem_cons, List.not_mem_nil, or_false,
    exists_eq_or_imp, exists_eq_left] at h ⊢
  omega

theorem nameChar_bounds (h : isNameChar c = true) : 45 ≤ c ∧ isChar c = true := by
  rw [isNameChar, Bool.or_eq_true] at h
  rcases h with hstart | hother
  · obtain ⟨hlow, -, hchar⟩ := nameStart_bounds hstart
    exact ⟨by omega, hchar⟩
  · simp only [isChar, inRanges_iff, List.mem_cons, List.not_mem_nil, or_false,
      exists_eq_or_imp, exists_eq_left] at hother ⊢
    omega

theorem not_isBlank_of_lt (h : 32 < c) : isBlank c = false := by
  have h9 : c ≠ 9 := by omega
  have h10 : c ≠ 10 := by omega
  have h13 : c ≠ 13 := by omega
  have h32 : c ≠ 32 := by omega
  simp [isBlank, h9, h10, h13, h32]

theorem escapeCharacter_cases (c : ℕ) :
    (c ∉ specials.map Prod.fst ∧ escapeCharacter c = [c]) ∨ (c, escapeCharacter c) ∈ specials := by
  rw [escapeCharacter]
  cases heq : specials.lookup c with
  | none =>
    left
    rw [List.lookup_eq_none_iff] at heq
    refine ⟨?_, rfl⟩
    rintro hmem
    obtain ⟨p, hp, rfl⟩ := List.mem_map.mp hmem
    simpa using heq p hp
  | some text =>
    right
    obtain ⟨front, back, hspecials, -⟩ := List.lookup_eq_some_iff.mp heq
    rw [hspecials]
    exact List.mem_append_right _ List.mem_cons_self

/-- The characters of an escaped text: none that could end a value, and no others than the text
has and the letters of the references. -/
theorem mem_escape {text : Text} (h : c ∈ escape text) :
    c ∉ [60, 62, 34, 39] ∧ (c ∈ text ∨ 38 ≤ c ∧ c ≤ 122) := by
  rw [escape, List.mem_flatMap] at h
  obtain ⟨d, hd, hc⟩ := h
  rcases escapeCharacter_cases d with ⟨hplain, heq⟩ | hspecial
  · rw [heq, List.mem_singleton] at hc
    subst hc
    exact ⟨fun hmem => hplain (List.mem_cons_of_mem _ hmem), .inl hd⟩
  · have hall : ∀ p ∈ specials, ∀ c ∈ p.2, c ∉ [60, 62, 34, 39] ∧ 38 ≤ c ∧ c ≤ 122 := by decide
    obtain ⟨hnot, hrange⟩ := hall _ hspecial c hc
    exact ⟨hnot, .inr hrange⟩

end Characters

section Values

theorem expand_append {plain : ℕ → ℕ} {text value : Text} {inside : Option Text}
    (h : expand plain inside text = some value) (rest : Text) :
    expand plain inside (text++rest) = (expand plain none rest).map (value++·) := by
  -- a text that has a value leaves no reference open, whatever is open at its start
  induction text generalizing inside value with
  | nil =>
    cases inside with
    | none =>
      obtain rfl := Option.some.inj h
      simp
    | some name => contradiction
  | cons c text ih =>
    cases inside with
    | none =>
      rw [List.cons_append, expand]
      rw [expand] at h
      split_ifs at h ⊢ with hamp
      · exact ih h
      · obtain ⟨value', hvalue', rfl⟩ := Option.map_eq_some_iff.mp h
        rw [ih hvalue', Option.map_map]
        rfl
    | some name =>
      rw [List.cons_append, expand]
      rw [expand] at h
      split_ifs at h ⊢ with hsemicolon
      · obtain ⟨meant, hmeant, h⟩ := Option.bind_eq_some_iff.mp h
        obtain ⟨value', hvalue', rfl⟩ := Option.map_eq_some_iff.mp h
        rw [hmeant, Option.bind_eq_bind, Option.bind_some, ih hvalue', Option.map_map]
        rfl
      · exact ih h

theorem expand_escapeCharacter {c : ℕ} (h : isPlain c = true) :
    expand attributeChar none (escapeCharacter c) = some [c] := by
  obtain ⟨-, h9, h10, h13⟩ := isPlain_iff.mp h
  rcases escapeCharacter_cases c with ⟨hplain, heq⟩ | hspecial
  · have hamp : c ≠ 38 := by
      rintro rfl
      exact hplain (by decide)
    have hchar : attributeChar c = c := by
      by_cases hspace : c = 32
      · subst hspace
        rfl
      · simp [attributeChar, isBlank, hspace, h9, h10, h13]
    rw [heq, expand, if_neg hamp, hchar]
    rfl
  · have hall : ∀ p ∈ specials, expand attributeChar none p.2 = some [p.1] := by decide
    exact hall _ hspecial

/-- An escaped text means the text. -/
theorem expand_escape {text : Text} (h : ∀ c ∈ text, isPlain c = true) :
    expand attributeChar none (escape text) = some text := by
  induction text with
  | nil => rfl
  | cons c text ih =>
    have htext := ih (fun d hd => h d (List.mem_cons_of_mem _ hd))
    have hc := expand_escapeCharacter (h c List.mem_cons_self)
    change expand attributeChar none (escapeCharacter c++escape text) = _
    rw [expand_append hc, htext]
    rfl

theorem attributeValue_escape {value : Text} (h : ∀ c ∈ value, isPlain c = true) (rest : Text) :
    attributeValue (34 :: (escape value++34 :: rest)) = some (value, rest) := by
  have hquote : ∀ c ∈ escape value, decide (c ≠ 34) = true := by
    intro c hc
    have hnot := (mem_escape hc).1
    simp only [List.mem_cons, List.not_mem_nil, or_false, not_or] at hnot
    exact decide_eq_true hnot.2.2.1
  have hopen : 60 ∉ escape value := fun hmem => (mem_escape hmem).1 List.mem_cons_self
  obtain ⟨htake, hdrop⟩ := span_stop_cons (a := 34) hquote rfl rest
  rw [attributeValue, if_pos (.inl rfl)]
  simp only [htake, hdrop]
  rw [if_neg hopen, expand_escape h]
  rfl

theorem name_append {tag : Text} (h : isName tag = true) {c : ℕ} (hc : isNameChar c = false)
    (rest : Text) : name (tag++c :: rest) = some (tag, c :: rest) := by
  cases tag with
  | nil => contradiction
  | cons d tag =>
    rw [isName, Bool.and_eq_true, List.all_eq_true] at h
    obtain ⟨hstart, hchars⟩ := h
    obtain ⟨htake, hdrop⟩ := span_stop_cons hchars hc rest
    rw [List.cons_append, name, if_pos hstart, htake, hdrop]

end Values

section Trees

theorem skipBlanks_of_lt {c : ℕ} (h : 32 < c) (rest : Text) : skipBlanks (c :: rest) = c :: rest :=
  List.dropWhile_cons_of_neg (by simp [not_isBlank_of_lt h])

/-- A name does not start with what ends a tag, and is not taken for a CDATA section. -/
theorem exists_nameStart {tag : Text} (h : isName tag = true) :
    ∃ c rest, tag = c :: rest ∧ 58 ≤ c ∧ c ≠ 62 := by
  cases tag with
  | nil => contradiction
  | cons c rest =>
    rw [isName, Bool.and_eq_true] at h
    obtain ⟨hlow, hne, -⟩ := nameStart_bounds h.1
    exact ⟨c, rest, rfl, hlow, hne⟩

theorem attributes_printAttribute {pair : Text × Text} (hkey : isName pair.1 = true)
    (hvalue : ∀ c ∈ pair.2, isPlain c = true) (fuel : ℕ) (rest : Text) :
    attributes (fuel+1) (printAttribute pair++rest) =
      (attributes fuel rest).map (fun p => (pair :: p.1, p.2)) := by
  obtain ⟨key, value⟩ := pair
  obtain ⟨c, tail, rfl, hlow, hne⟩ := exists_nameStart hkey
  have hc : 32 < c := by omega
  -- the blank is skipped, and that something was skipped is what another attribute needs
  have hskip : skipBlanks (printAttribute (c :: tail, value)++rest) =
      c :: tail++61 :: 34 :: (escape value++34 :: rest) := by
    have hblank : skipBlanks (32 :: c :: (tail++61 :: 34 :: (escape value++34 :: rest))) =
        c :: (tail++61 :: 34 :: (escape value++34 :: rest)) :=
      skipBlanks_of_lt hc _
    simpa [printAttribute] using hblank
  have hlength : (c :: tail++61 :: 34 :: (escape value++34 :: rest)).length ≠
      (printAttribute (c :: tail, value)++rest).length := by
    simp [printAttribute]
  have hopen : ¬ ((c :: tail++61 :: 34 :: (escape value++34 :: rest)).head? = some 47 ∨
      (c :: tail++61 :: 34 :: (escape value++34 :: rest)).head? = some 62) := by
    simp only [List.cons_append, List.head?_cons, Option.some.injEq]
    omega
  have hequals : afterEquals (61 :: 34 :: (escape value++34 :: rest)) =
      some (34 :: (escape value++34 :: rest)) := by
    rw [afterEquals, skipBlanks_of_lt (by decide)]
    exact congrArg some (skipBlanks_of_lt (by decide) _)
  rw [attributes]
  simp only [hskip]
  rw [if_neg hopen, if_neg hlength, name_append hkey (by decide)]
  simp only [Option.bind_eq_bind, Option.bind_some, hequals, attributeValue_escape hvalue]
  cases attributes fuel rest with
  | none => rfl
  | some p => rfl

/-- All attributes, up to a close of the tag. -/
theorem attributes_printAttributes {pairs : List (Text × Text)}
    (hpairs : ∀ pair ∈ pairs, isName pair.1 = true ∧ ∀ c ∈ pair.2, isPlain c = true)
    (close : Text)
    (hclose : (skipBlanks close).head? = some 47 ∨ (skipBlanks close).head? = some 62)
    {fuel : ℕ} (hfuel : pairs.length < fuel) :
    attributes fuel (printAttributes pairs++close) = some (pairs, skipBlanks close) := by
  induction pairs generalizing fuel with
  | nil =>
    obtain ⟨fuel, rfl⟩ := Nat.exists_eq_add_of_lt hfuel
    rw [List.length_nil, Nat.zero_add, attributes]
    exact if_pos hclose
  | cons pair pairs ih =>
    obtain ⟨fuel, rfl⟩ : ∃ fuel', fuel = fuel'+1 := ⟨fuel-1, by omega⟩
    have hpair := hpairs pair List.mem_cons_self
    have hothers := ih (fun other hother => hpairs other (List.mem_cons_of_mem _ hother))
      (Nat.lt_of_succ_lt_succ hfuel)
    change attributes (fuel+1) (printAttribute pair++printAttributes pairs++close) = _
    rw [List.append_assoc, attributes_printAttribute hpair.1 hpair.2, hothers]
    rfl

theorem length_le_printAttributes (pairs : List (Text × Text)) :
    pairs.length ≤ (printAttributes pairs).length := by
  induction pairs with
  | nil => exact Nat.le_refl _
  | cons pair pairs ih =>
    have happend : printAttributes (pair :: pairs) = printAttribute pair++printAttributes pairs :=
      rfl
    rw [happend, List.length_append, List.length_cons, printAttribute, List.length_cons]
    omega

theorem cdata_append {value : Text} (h : ¬ cdataEnd <:+: value) (rest : Text) :
    cdata (value++(cdataEnd++rest)) = some (value, rest) := by
  induction value with
  | nil => rfl
  | cons c value ih =>
    have hvalue : ¬ cdataEnd <:+: value := fun hin => h (List.infix_cons hin)
    have hnot : ¬ cdataEnd <+: c :: (value++(cdataEnd++rest)) := by
      intro hprefix
      obtain ⟨tail, htail⟩ := hprefix
      -- an end that starts in the value would be in it as a whole
      match value with
      | [] => simp [cdataEnd] at htail
      | [d] => simp [cdataEnd] at htail
      | d :: e :: value =>
        simp only [cdataEnd, List.cons_append, List.nil_append, List.cons.injEq] at htail
        obtain ⟨rfl, rfl, rfl, -⟩ := htail
        exact h (List.IsPrefix.isInfix ⟨value, rfl⟩)
    rw [List.cons_append, cdata, if_neg hnot, ih hvalue]
    rfl

/-- What is printed for a node reads as the node, whatever follows. -/
def Reads (node : Node) : Prop :=
  ∀ fuel rest, (print node).length < fuel+1 →
    content (fuel+1) (print node++rest) = (content fuel rest).map (fun p => (node :: p.1, p.2))

theorem one_le_print (node : Node) : 1 ≤ (print node).length := by
  cases node with
  | text value => simp [print]
  | element tag pairs children => simp [print]

theorem content_printAll {nodes : List Node} (h : ∀ node ∈ nodes, Reads node) (rest : Text)
    {fuel : ℕ} (hfuel : (printAll nodes).length < fuel) :
    content fuel (printAll nodes++60 :: 47 :: rest) = some (nodes, rest) := by
  induction nodes generalizing fuel with
  | nil =>
    obtain ⟨fuel, rfl⟩ : ∃ fuel', fuel = fuel'+1 := ⟨fuel-1, by omega⟩
    rfl
  | cons node nodes ih =>
    have hone := one_le_print node
    rw [printAll, List.length_append] at hfuel
    obtain ⟨fuel, rfl⟩ : ∃ fuel', fuel = fuel'+1 := ⟨fuel-1, by omega⟩
    have hnodes := ih (fun other hother => h other (List.mem_cons_of_mem _ hother))
      (by omega : (printAll nodes).length < fuel)
    rw [printAll, List.append_assoc, h node List.mem_cons_self fuel _ (by omega), hnodes]
    rfl

section Elements

variable {tag : Text} {pairs : List (Text × Text)} {children : List Node}

/-- What is behind the attributes of a tag. -/
def closing (tag : Text) (children : List Node) : Text :=
  if children.isEmpty then [32, 47, 62] else 62 :: (printAll children++(60 :: 47 :: (tag++[62])))

theorem print_element (tag : Text) (pairs : List (Text × Text)) (children : List Node) :
    print (.element tag pairs children) =
      60 :: (tag++(printAttributes pairs++closing tag children)) := rfl

/-- The name of a tag ends with it. -/
theorem head_of_attributes (pairs : List (Text × Text)) (tag : Text) (children : List Node)
    (rest : Text) : ∃ c tail, isNameChar c = false ∧
      printAttributes pairs++(closing tag children++rest) = c :: tail := by
  cases pairs with
  | nil =>
    cases children with
    | nil => exact ⟨32, 47 :: 62 :: rest, by decide, rfl⟩
    | cons child children => exact ⟨62, _, by decide, rfl⟩
  | cons pair pairs => exact ⟨32, _, by decide, rfl⟩

theorem element_print (htag : isName tag = true)
    (hpairs : ∀ pair ∈ pairs, isName pair.1 = true ∧ ∀ c ∈ pair.2, isPlain c = true)
    (hnodup : (pairs.map Prod.fst).Nodup) (hchildren : ∀ child ∈ children, Reads child)
    {fuel : ℕ} (hfuel : (print (.element tag pairs children)).length ≤ fuel) (rest : Text) :
    element fuel (tag++(printAttributes pairs++(closing tag children++rest))) =
      some (.element tag pairs children, rest) := by
  -- the name of the tag ends where the attributes or the close begin
  obtain ⟨c, tail, hc, hhead⟩ := head_of_attributes pairs tag children rest
  have hname := name_append htag hc tail
  have hlength := length_le_printAttributes pairs
  rw [print_element, List.length_cons, List.length_append, List.length_append] at hfuel
  obtain ⟨fuel, rfl⟩ : ∃ fuel', fuel = fuel'+1 := ⟨fuel-1, by omega⟩
  rw [← hhead] at hname
  rw [element, hname]
  cases children with
  | nil =>
    have hclosing : (closing tag []).length = 3 := rfl
    have hskip : skipBlanks (closing tag []++rest) = 47 :: 62 :: rest := rfl
    have hattributes := attributes_printAttributes hpairs (closing tag []++rest)
      (.inl rfl) (by omega : pairs.length < fuel)
    simp only [Option.bind_eq_bind, Option.bind_some, hattributes, hskip, if_pos hnodup]
  | cons child children =>
    have hclosing : closing tag (child :: children)++rest =
        62 :: (printAll (child :: children)++60 :: 47 :: (tag++62 :: rest)) := by
      simp [closing]
    have hlong : (closing tag (child :: children)).length =
        (printAll (child :: children)).length+tag.length+4 := by
      simp [closing]
      omega
    have hskip := skipBlanks_of_lt (by decide : 32 < 62)
      (printAll (child :: children)++60 :: 47 :: (tag++62 :: rest))
    have hattributes := attributes_printAttributes hpairs
      (62 :: (printAll (child :: children)++60 :: 47 :: (tag++62 :: rest)))
      (.inr (by rw [hskip]; rfl)) (by omega : pairs.length < fuel)
    have hcontent := content_printAll hchildren (tag++62 :: rest)
      (by omega : (printAll (child :: children)).length < fuel)
    rw [hclosing]
    simp only [Option.bind_eq_bind, Option.bind_some, hattributes, hskip, if_pos hnodup, hcontent,
      name_append htag (by decide : isNameChar 62 = false), skipBlanks_of_lt (by decide : 32 < 62),
      if_true]

theorem content_element {c : ℕ} (hc : 58 ≤ c) (fuel : ℕ) (text : Text) :
    content (fuel+1) (60 :: c :: text) = (do
      let (node, rest) ← element fuel (c :: text)
      let (nodes, rest) ← content fuel rest
      some (node :: nodes, rest)) := by
  have hprefix : afterPrefix cdataStart (c :: text) = none := by
    refine if_neg ?_
    rintro ⟨more, hmore⟩
    obtain ⟨rfl, -⟩ := List.cons.inj hmore
    omega
  have hslash : ∀ rest, c :: text = 47 :: rest → False := by
    intro rest heq
    obtain ⟨rfl, -⟩ := List.cons.inj heq
    omega
  rw [content.eq_3 fuel (c :: text) hslash, hprefix]

theorem reads_element (htag : isName tag = true)
    (hpairs : ∀ pair ∈ pairs, isName pair.1 = true ∧ ∀ c ∈ pair.2, isPlain c = true)
    (hnodup : (pairs.map Prod.fst).Nodup) (hchildren : ∀ child ∈ children, Reads child) :
    Reads (.element tag pairs children) := by
  intro fuel rest hfuel
  have helement := element_print htag hpairs hnodup hchildren (Nat.le_of_lt_succ hfuel) rest
  obtain ⟨c, tail, rfl, hlow, hne⟩ := exists_nameStart htag
  have hprint : print (.element (c :: tail) pairs children)++rest =
      60 :: c :: (tail++(printAttributes pairs++(closing (c :: tail) children++rest))) := by
    simp [print_element]
  rw [List.cons_append] at helement
  rw [hprint, content_element hlow, helement]
  simp only [Option.bind_eq_bind, Option.bind_some]
  cases content fuel rest with
  | none => rfl
  | some p => rfl

end Elements

theorem reads_text {value : Text} (h : ¬ cdataEnd <:+: value) : Reads (.text value) := by
  intro fuel rest hfuel
  have hstart : afterPrefix cdataStart (cdataStart++(value++(cdataEnd++rest))) =
      some (value++(cdataEnd++rest)) := by
    rw [afterPrefix, if_pos (List.prefix_append _ _), List.drop_left]
  have hprint : print (.text value)++rest = 60 :: (cdataStart++(value++(cdataEnd++rest))) := by
    simp [print]
  -- a section is no end tag
  have hslash : ∀ tail, cdataStart++(value++(cdataEnd++rest)) = 47 :: tail → False := by
    intro tail heq
    obtain ⟨heq, -⟩ := List.cons.inj heq
    contradiction
  rw [hprint, content.eq_3 fuel _ hslash, hstart]
  simp only [cdata_append h, Option.bind_eq_bind, Option.bind_some]
  cases content fuel rest with
  | none => rfl
  | some p => rfl

theorem Printable.reads {data : ℕ → Prop} {node : Node} (h : Printable data node) : Reads node := by
  induction h with
  | text value hvalue hend => exact reads_text hend
  | element tag pairs children htag hpairs hnodup hchildren ih =>
    exact reads_element htag hpairs hnodup ih

end Trees

section Documents

variable {data : ℕ → Prop} {node : Node}

/-- The characters that are printed besides names, values and character data. -/
def markup : Text := [60, 62, 47, 32, 61, 34]++(cdataStart++cdataEnd)

section Occurrences

variable {p : ℕ → Prop} (hmark : ∀ c ∈ [60, 62, 47, 32, 61, 34], p c)
  (hname : ∀ c, isNameChar c = true → p c)
  (hescape : ∀ text, (∀ c ∈ text, isPlain c = true) → ∀ c ∈ escape text, p c)

include hname in
theorem forall_mem_name {tag : Text} (htag : isName tag = true) : ∀ c ∈ tag, p c := by
  intro c hc
  cases tag with
  | nil => contradiction
  | cons d tag =>
    rw [isName, Bool.and_eq_true, List.all_eq_true] at htag
    rcases List.mem_cons.mp hc with rfl | hc
    · exact hname c (by rw [isNameChar, htag.1, Bool.true_or])
    · exact hname c (htag.2 c hc)

include hmark hname hescape in
theorem forall_mem_printAttributes {pairs : List (Text × Text)}
    (hpairs : ∀ pair ∈ pairs, isName pair.1 = true ∧ ∀ c ∈ pair.2, isPlain c = true) :
    ∀ c ∈ printAttributes pairs, p c := by
  intro c hc
  obtain ⟨pair, hpair, hc⟩ := List.mem_flatMap.mp hc
  obtain ⟨hkey, hplain⟩ := hpairs pair hpair
  simp only [printAttribute, List.mem_cons, List.mem_append, List.not_mem_nil, or_false] at hc
  rcases hc with rfl | hc | rfl | rfl | hc | rfl
  · exact hmark 32 (by decide)
  · exact forall_mem_name hname hkey c hc
  · exact hmark 61 (by decide)
  · exact hmark 34 (by decide)
  · exact hescape pair.2 hplain c hc
  · exact hmark 34 (by decide)

theorem forall_mem_printAll {nodes : List Node} (h : ∀ node ∈ nodes, ∀ c ∈ print node, p c) :
    ∀ c ∈ printAll nodes, p c := by
  induction nodes with
  | nil =>
    intro c hc
    contradiction
  | cons node nodes ih =>
    intro c hc
    rcases List.mem_append.mp hc with hc | hc
    · exact h node List.mem_cons_self c hc
    · exact ih (fun other hother => h other (List.mem_cons_of_mem _ hother)) c hc

include hmark hname in
theorem forall_mem_closing {tag : Text} {children : List Node} (htag : isName tag = true)
    (h : ∀ child ∈ children, ∀ c ∈ print child, p c) : ∀ c ∈ closing tag children, p c := by
  intro c hc
  rw [closing] at hc
  split_ifs at hc with hempty
  · exact hmark c (by revert c; decide)
  · simp only [List.mem_cons, List.mem_append, List.not_mem_nil, or_false] at hc
    rcases hc with rfl | hc | rfl | rfl | hc | rfl
    · exact hmark 62 (by decide)
    · exact forall_mem_printAll h c hc
    · exact hmark 60 (by decide)
    · exact hmark 47 (by decide)
    · exact forall_mem_name hname htag c hc
    · exact hmark 62 (by decide)

end Occurrences

/-- What holds of all that a tree is printed with holds of the whole text. -/
theorem Printable.forall_mem {p : ℕ → Prop} (hmarkup : ∀ c ∈ markup, p c)
    (hname : ∀ c, isNameChar c = true → p c)
    (hescape : ∀ text, (∀ c ∈ text, isPlain c = true) → ∀ c ∈ escape text, p c)
    (hdata : ∀ c, isPlain c = true → data c → p c) (h : Printable data node) :
    ∀ c ∈ print node, p c := by
  have hmark : ∀ c ∈ [60, 62, 47, 32, 61, 34], p c :=
    fun c hc => hmarkup c (List.mem_append_left _ hc)
  induction h with
  | text value hvalue hend =>
    intro c hc
    simp only [print, List.mem_cons, List.mem_append] at hc
    rcases hc with rfl | hc | hc | hc
    · exact hmark 60 (by decide)
    · exact hmarkup c (List.mem_append_right _ (List.mem_append_left _ hc))
    · exact hdata c (hvalue c hc).1 (hvalue c hc).2
    · exact hmarkup c (List.mem_append_right _ (List.mem_append_right _ hc))
  | element tag pairs children htag hpairs hnodup hchildren ih =>
    intro c hc
    rw [print_element, List.mem_cons, List.mem_append, List.mem_append] at hc
    rcases hc with rfl | hc | hc | hc
    · exact hmark 60 (by decide)
    · exact forall_mem_name hname htag c hc
    · exact forall_mem_printAttributes hmark hname hescape hpairs c hc
    · exact forall_mem_closing hmark hname htag ih c hc

theorem Printable.isChar (h : Printable data node) :
    ∀ c ∈ print node, isChar c = true ∧ c ≠ 13 := by
  refine h.forall_mem (by decide) ?_ ?_ ?_
  · intro c hc
    obtain ⟨hlow, hchar⟩ := nameChar_bounds hc
    exact ⟨hchar, by omega⟩
  · intro text htext c hc
    rcases (mem_escape hc).2 with hmem | ⟨hlow, hhigh⟩
    · obtain ⟨hchar, -, -, hreturn⟩ := isPlain_iff.mp (htext c hmem)
      exact ⟨hchar, hreturn⟩
    · refine ⟨?_, by omega⟩
      rw [XmlText.isChar, inRanges_iff]
      exact ⟨(0x20, 0xD7FF), by decide, by omega, by omega⟩
  · intro c hc hdata
    obtain ⟨hchar, -, -, hreturn⟩ := isPlain_iff.mp hc
    exact ⟨hchar, hreturn⟩

/-- No apostrophe is printed that is not in the character data. -/
theorem Printable.apostrophe (hdata : ∀ c, data c → c ≠ 39) (h : Printable data node) :
    39 ∉ print node := by
  have hall : ∀ c ∈ print node, c ≠ 39 := by
    refine h.forall_mem (by decide) ?_ ?_ (fun c _ hc => hdata c hc)
    · intro c hc
      have hlow := (nameChar_bounds hc).1
      omega
    · rintro text - c hc rfl
      exact (mem_escape hc).1 (by decide)
  exact fun hmem => hall 39 hmem rfl

theorem normalizeLines_eq_self {text : Text} (h : ∀ c ∈ text, c ≠ 13) :
    normalizeLines text = text := by
  induction text with
  | nil => rfl
  | cons c text ih =>
    have hc := h c List.mem_cons_self
    rw [normalizeLines, ih (fun d hd => h d (List.mem_cons_of_mem _ hd))]
    · exact fun rest heq => absurd heq hc
    · exact hc

/-- A printed element is a document, and its root is the element. -/
theorem parse_print {tag : Text} {pairs : List (Text × Text)} {children : List Node}
    (h : Printable data (.element tag pairs children)) :
    parse (print (.element tag pairs children)) = some (.element tag pairs children) := by
  have hchars := h.isChar
  cases h with
  | element _ _ _ htag hpairs hnodup hchildren =>
    have hall : (print (.element tag pairs children)).all XmlText.isChar = true :=
      List.all_eq_true.mpr (fun c hc => (hchars c hc).1)
    have hlength : (print (.element tag pairs children)).length =
        (tag++(printAttributes pairs++closing tag children)).length+1 := by
      rw [print_element, List.length_cons]
    have helement := element_print htag hpairs hnodup
      (fun child hchild => (hchildren child hchild).reads) (Nat.le_of_eq hlength) []
    rw [List.append_nil] at helement
    rw [parse, if_pos hall, normalizeLines_eq_self (fun c hc => (hchars c hc).2), print_element,
      skipBlanks_of_lt (by decide)]
    simp only [helement, Option.bind_eq_bind, Option.bind_some]
    rfl

end Documents

end JingjieAR.XmlText
