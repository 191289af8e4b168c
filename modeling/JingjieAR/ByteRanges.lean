import JingjieAR.HttpContextLimits
import JingjieAR.StaticFileModel

/-! The one byte range of a `Range` header: what the text asks for, which bytes of the
file these are, and that the arithmetic on file sizes never wraps. -/
namespace JingjieAR

/-- A range as its numerals give it, of any size. -/
inductive ByteRange
  | openEnd (first : ℕ)
  | closed (first last : ℕ)
  | suffix (length : ℕ)
deriving DecidableEq

namespace ByteRange

/-- `bytes=FIRST-`, `bytes=FIRST-LAST` or `bytes=-LENGTH`. -/
inductive Written : ByteRange → Bytes → Prop
  | openEnd {a : Bytes} {first : ℕ} (ha : Decimal a first) :
    Written (.openEnd first) (ascii "bytes="++(a++[dash]))
  | closed {a b : Bytes} {first last : ℕ} (ha : Decimal a first) (hb : Decimal b last) :
    Written (.closed first last) (ascii "bytes="++(a++(dash :: b)))
  | suffix {b : Bytes} {length : ℕ} (hb : Decimal b length) :
    Written (.suffix length) (ascii "bytes="++(dash :: b))

/-- The range overlaps a file of this size. -/
def Satisfiable (fileSize : ℕ) : ByteRange → Prop
  | .openEnd first => first < fileSize
  | .closed first last => first < fileSize ∧ first ≤ last
  | .suffix length => 0 < length ∧ 0 < fileSize

/-- The numerals behind the `-` are values of a `size_t`. -/
def Sized : ByteRange → Prop
  | .openEnd _ => True
  | .closed _ last => last ≤ sizeMax
  | .suffix length => length ≤ sizeMax

/-- The bytes of the file that are asked for, counted from 0. -/
def Selects (fileSize position : ℕ) : ByteRange → Prop
  | .openEnd first => first ≤ position ∧ position < fileSize
  | .closed first last => first ≤ position ∧ position ≤ last ∧ position < fileSize
  | .suffix length => fileSize ≤ position+length ∧ position < fileSize

/-- The offset and the count of the part of the range that the file has. -/
def clip (fileSize : ℕ) : ByteRange → ℕ × ℕ
  | .openEnd first => (first, fileSize-first)
  | .closed first last => (first, min (last+1) fileSize-first)
  | .suffix length => (fileSize-min length fileSize, min length fileSize)

theorem clip_bounds {range : ByteRange} {fileSize : ℕ} (h : range.Satisfiable fileSize) :
    1 ≤ (range.clip fileSize).2 ∧
      (range.clip fileSize).1+(range.clip fileSize).2 ≤ fileSize := by
  cases range with
  | openEnd first =>
    simp only [Satisfiable] at h
    simp only [clip]
    omega
  | closed first last =>
    simp only [Satisfiable] at h
    simp only [clip]
    omega
  | suffix length =>
    simp only [Satisfiable] at h
    simp only [clip]
    omega

/-- The clipped range has the bytes of the file that are asked for. -/
theorem clip_selects {range : ByteRange} {fileSize : ℕ} (h : range.Satisfiable fileSize)
    (position : ℕ) :
    (range.clip fileSize).1 ≤ position ∧
        position < (range.clip fileSize).1+(range.clip fileSize).2 ↔
      range.Selects fileSize position := by
  cases range with
  | openEnd first =>
    simp only [Satisfiable] at h
    simp only [clip, Selects]
    omega
  | closed first last =>
    simp only [Satisfiable] at h
    simp only [clip, Selects]
    omega
  | suffix length =>
    simp only [Satisfiable] at h
    simp only [clip, Selects]
    omega

end ByteRange

section Numerals

/-- The overflow guard keeps the parsed value in a `size_t`. -/
theorem le_sizeMax_of_parseDigits {text : Bytes} {start n : ℕ} (hstart : start ≤ sizeMax)
    (h : parseDigits text start = .kContentLengthOk n) : n ≤ sizeMax := by
  induction text generalizing start with
  | nil =>
    injection h with hn
    exact hn ▸ hstart
  | cons c rest ih =>
    rw [parseDigits] at h
    by_cases hdigit : isDigit c = true
    · simp only [hdigit, Bool.not_true, Bool.false_eq_true, ↓reduceIte] at h
      split_ifs at h with hbig
      have hdigit_le : c.toNat-48 ≤ sizeMax := by
        have hc : c.toNat < 256 := c.toNat_lt
        have hmax : 256 ≤ sizeMax := by decide
        omega
      have hroom : start*10+(c.toNat-48) ≤ sizeMax := by omega
      exact ih hroom h
    · simp [hdigit] at h

theorem parseUnsignedSize_eq_some {text : Bytes} {n : ℕ} :
    parseUnsignedSize text = some n ↔ Decimal text n ∧ n ≤ sizeMax := by
  constructor
  · intro h
    rw [parseUnsignedSize] at h
    cases hparse : parseContentLength text with
    | kContentLengthOk parsed =>
      rw [hparse] at h
      have hn : parsed = n := Option.some.inj h
      subst hn
      have hne : text ≠ [] := (decimal_of_parseContentLength hparse).ne_nil
      refine ⟨decimal_of_parseContentLength hparse, ?_⟩
      rw [parseContentLength, if_neg hne] at hparse
      exact le_sizeMax_of_parseDigits (Nat.zero_le _) hparse
    | kContentLengthInvalid =>
      rw [hparse] at h
      contradiction
    | kContentLengthOverflow =>
      rw [hparse] at h
      contradiction
  · rintro ⟨h, hfit⟩
    rw [parseUnsignedSize, parseContentLength_decimal h hfit]

/-- A numeral is read for its value if a `size_t` has it. -/
theorem parseUnsignedSize_decimal {text : Bytes} {n : ℕ} (h : Decimal text n) :
    parseUnsignedSize text = if n ≤ sizeMax then some n else none := by
  split_ifs with hfit
  · exact parseUnsignedSize_eq_some.mpr ⟨h, hfit⟩
  · rw [Option.eq_none_iff_forall_ne_some]
    intro m hm
    obtain ⟨hdecimal, hle⟩ := parseUnsignedSize_eq_some.mp hm
    have hmn : m = n := by rw [← hdecimal.value, h.value]
    omega

end Numerals

section Parsing

variable {a b value : Bytes} {fileSize : ℕ}

theorem append_cons_of_findByte {c : UInt8} {text : Bytes} {n : ℕ} (h : findByte c text = some n) :
    text.take n++(c :: text.drop (n+1)) = text := by
  have hlt := findByte_lt h
  rw [findByte, List.findIdx?_eq_some_iff_getElem] at h
  obtain ⟨_, hc, -⟩ := h
  have hget : text[n] = c := by simpa using hc
  calc text.take n++(c :: text.drop (n+1))
      = text.take n++text.drop n := by rw [List.drop_eq_getElem_cons hlt, hget]
    _ = text := List.take_append_drop n text

/-- The texts before and behind the only `-`, for a file that is not empty. -/
theorem parseSingleRange_split (hsize : 0 < fileSize) (ha : ∀ c ∈ a, isDigit c = true)
    (hb : ∀ c ∈ b, isDigit c = true) (hne : ¬(a = [] ∧ b = [])) :
    parseSingleRange (ascii "bytes="++(a++(dash :: b))) fileSize =
      if a = [] then suffixRange b fileSize else boundedRange a b fileSize := by
  -- No digit is a `-` or a `,`, so what stands before and behind has neither.
  have hnot : ∀ {c : UInt8}, isDigit c = false → c ∉ a ∧ c ∉ b := fun hc =>
    ⟨notMem_of_digits hc ha, notMem_of_digits hc hb⟩
  obtain ⟨hdasha, hdashb⟩ := hnot (show isDigit dash = false by decide)
  obtain ⟨hcommaa, hcommab⟩ := hnot (show isDigit comma = false by decide)
  have hcomma : comma ∉ a++(dash :: b) := by
    have hdash : comma ≠ dash := by decide
    simp [hcommaa, hcommab, hdash]
  have hstart : ¬(fileSize = 0 ∨
      (ascii "bytes="++(a++(dash :: b))).take 6 ≠ ascii "bytes=") := by
    rw [not_or, not_not]
    exact ⟨by omega, List.take_left' rfl⟩
  have hdrop : (ascii "bytes="++(a++(dash :: b))).drop 6 = a++(dash :: b) :=
    List.drop_left' rfl
  have hlast : (a++(dash :: b)).drop (a.length+1) = b := by
    rw [List.drop_append]
    simp
  simp only [parseSingleRange, hdrop]
  rw [if_neg hstart, if_neg hcomma, findByte_append_cons b hdasha]
  simp only [List.take_left, hlast]
  rw [if_neg hdashb, if_neg hne]

/-- What is accepted has one `-` behind `bytes=`. -/
theorem exists_split_of_parseSingleRange {r : ℕ × ℕ}
    (h : parseSingleRange value fileSize = some r) :
    0 < fileSize ∧ ∃ a b, value = ascii "bytes="++(a++(dash :: b)) ∧ ¬(a = [] ∧ b = []) ∧
      (if a = [] then suffixRange b fileSize else boundedRange a b fileSize) = some r := by
  simp only [parseSingleRange] at h
  split at h
  · contradiction
  · rename_i hstart
    obtain ⟨hsize, hbytes⟩ := not_or.mp hstart
    rw [not_not] at hbytes
    split at h
    · contradiction
    · split at h
      · contradiction
      · rename_i separator hseparator
        split_ifs at h with hdash hne hfirst
        all_goals
          refine ⟨Nat.pos_of_ne_zero hsize, (value.drop 6).take separator,
            (value.drop 6).drop (separator+1), ?_, hne, ?_⟩
          · rw [append_cons_of_findByte hseparator, ← hbytes]
            exact (List.take_append_drop 6 value).symm
          · simpa [hfirst] using h

end Parsing

namespace ByteRange

variable {range : ByteRange} {value : Bytes} {fileSize : ℕ} {r : ℕ × ℕ}

theorem Satisfiable.pos (h : range.Satisfiable fileSize) : 0 < fileSize := by
  cases range with
  | openEnd first => exact Nat.zero_lt_of_lt h
  | closed first last => exact Nat.zero_lt_of_lt h.1
  | suffix length => exact h.2

/-- The numeral behind the `-` when nothing stands before it. -/
theorem suffixRange_eq_some {b : Bytes} {length : ℕ} (hb : Decimal b length)
    (hsize : 0 < fileSize) :
    suffixRange b fileSize = some r ↔
      (suffix length).Satisfiable fileSize ∧ (suffix length).Sized ∧
        r = (suffix length).clip fileSize := by
  rw [suffixRange, parseUnsignedSize_decimal hb]
  by_cases hfit : length ≤ sizeMax
  · rw [if_pos hfit]
    by_cases hzero : length = 0
    · simp [hzero, Satisfiable]
    · -- A suffix longer than the file is the whole of it.
      have hmin : (if length < fileSize then length else fileSize) = min length fileSize := by
        split_ifs <;> omega
      simp only [hzero, if_false, hmin, Option.some.injEq, Satisfiable, Sized, clip]
      constructor
      · rintro rfl
        exact ⟨⟨by omega, hsize⟩, hfit, rfl⟩
      · rintro ⟨-, -, rfl⟩
        rfl
  · simp [hfit, Sized]

/-- A first position behind the end of every file is not looked at any further. -/
theorem boundedRange_eq {a : Bytes} {first : ℕ} (ha : Decimal a first) (b : Bytes)
    (hsize : fileSize < 2^64) :
    boundedRange a b fileSize =
      if first ≥ fileSize then none
      else if b = [] then some (first, fileSize-1-first+1)
      else
        match parseUnsignedSize b with
        | none => none
        | some parsed =>
          if parsed < first then none
          else some (first, (if parsed ≥ fileSize then fileSize-1 else parsed)-first+1) := by
  rw [boundedRange, parseUnsignedSize_decimal ha]
  by_cases hfirst : first ≥ fileSize
  · -- A numeral that no `size_t` holds is behind the end of the file as well.
    by_cases hfit : first ≤ sizeMax
    · simp [hfit, hfirst]
    · simp [hfit, hfirst]
  · have hfit : first ≤ sizeMax := by
      rw [sizeMax]
      omega
    rewrite [if_pos hfit]
    rfl

theorem boundedRange_openEnd_eq_some {a : Bytes} {first : ℕ} (ha : Decimal a first)
    (hsize : fileSize < 2^64) :
    boundedRange a [] fileSize = some r ↔
      (openEnd first).Satisfiable fileSize ∧ (openEnd first).Sized ∧
        r = (openEnd first).clip fileSize := by
  rw [boundedRange_eq ha [] hsize]
  by_cases hfirst : first ≥ fileSize
  · simp [hfirst, Satisfiable]
  · have hcount : fileSize-1-first+1 = fileSize-first := by omega
    simp only [hfirst, if_false, if_true, hcount, Option.some.injEq, Satisfiable, Sized, clip,
      true_and]
    constructor
    · rintro rfl
      exact ⟨by omega, rfl⟩
    · rintro ⟨-, rfl⟩
      rfl

theorem boundedRange_closed_eq_some {a b : Bytes} {first last : ℕ} (ha : Decimal a first)
    (hb : Decimal b last) (hsize : fileSize < 2^64) :
    boundedRange a b fileSize = some r ↔
      (closed first last).Satisfiable fileSize ∧ (closed first last).Sized ∧
        r = (closed first last).clip fileSize := by
  rw [boundedRange_eq ha b hsize, if_neg hb.ne_nil, parseUnsignedSize_decimal hb]
  by_cases hfirst : first ≥ fileSize
  · simp [hfirst, Satisfiable]
  · by_cases hfit : last ≤ sizeMax
    · by_cases horder : last < first
      · simp [hfirst, hfit, horder, Satisfiable]
      · have hcount : (if last ≥ fileSize then fileSize-1 else last)-first+1 =
            min (last+1) fileSize-first := by
          split_ifs <;> omega
        simp only [hfirst, hfit, horder, if_false, if_true, hcount, Option.some.injEq,
          Satisfiable, Sized, clip]
        constructor
        · rintro rfl
          exact ⟨⟨by omega, by omega⟩, trivial, rfl⟩
        · rintro ⟨-, -, rfl⟩
          rfl
    · simp [hfirst, hfit, Sized]

/-- What the handler makes of a range that is written in one of the three forms. -/
theorem Written.parseSingleRange_eq_some (hw : range.Written value) (hsize : fileSize < 2^64) :
    parseSingleRange value fileSize = some r ↔
      range.Satisfiable fileSize ∧ range.Sized ∧ r = range.clip fileSize := by
  rcases Nat.eq_zero_or_pos fileSize with hzero | hpos
  · -- An empty file has nothing to ask for.
    have hsat : ¬range.Satisfiable fileSize := fun h => absurd h.pos (by omega)
    have hnone : parseSingleRange value fileSize = none := by simp [parseSingleRange, hzero]
    simp [hnone, hsat]
  · cases hw with
    | openEnd ha =>
      rw [parseSingleRange_split hpos ha.digits (by simp) (fun h => ha.ne_nil h.1),
        if_neg ha.ne_nil]
      exact boundedRange_openEnd_eq_some ha hsize
    | closed ha hb =>
      rw [parseSingleRange_split hpos ha.digits hb.digits (fun h => ha.ne_nil h.1),
        if_neg ha.ne_nil]
      exact boundedRange_closed_eq_some ha hb hsize
    | suffix hb =>
      rw [← List.nil_append (dash :: _),
        parseSingleRange_split hpos (by simp) hb.digits (fun h => hb.ne_nil h.2), if_pos rfl]
      exact suffixRange_eq_some hb hpos

/-- Nothing else is accepted. -/
theorem exists_written_of_parseSingleRange (h : parseSingleRange value fileSize = some r) :
    ∃ range : ByteRange, range.Written value := by
  obtain ⟨-, a, b, rfl, hne, hparse⟩ := exists_split_of_parseSingleRange h
  by_cases ha : a = []
  · subst ha
    rw [if_pos rfl, suffixRange] at hparse
    split at hparse
    · contradiction
    · rename_i length hlength
      exact ⟨.suffix length, .suffix (parseUnsignedSize_eq_some.mp hlength).1⟩
  · rw [if_neg ha, boundedRange] at hparse
    split at hparse
    · contradiction
    · rename_i first hfirst
      have hda := (parseUnsignedSize_eq_some.mp hfirst).1
      by_cases hb : b = []
      · subst hb
        exact ⟨.openEnd first, .openEnd hda⟩
      · rw [if_neg hb] at hparse
        split_ifs at hparse with hlt
        split at hparse
        · contradiction
        · rename_i last hlast
          exact ⟨.closed first last, .closed hda (parseUnsignedSize_eq_some.mp hlast).1⟩

end ByteRange

section Checked

/-! The same computation with operations that refuse to wrap. -/

def parseUnsignedSizeChecked (value : Bytes) : Option (Option ℕ) :=
  (parseContentLengthChecked value).map fun result =>
    match result with
    | .kContentLengthOk parsed => some parsed
    | .kContentLengthInvalid => none
    | .kContentLengthOverflow => none

def suffixRangeChecked (last : Bytes) (fileSize : ℕ) : Option (Option (ℕ × ℕ)) := do
  match ← parseUnsignedSizeChecked last with
  | none => some none
  | some suffix =>
    if suffix = 0 then some none
    else
      let count := if suffix < fileSize then suffix else fileSize
      let offset ← subSize fileSize count
      some (some (offset, count))

def boundedRangeChecked (first last : Bytes) (fileSize : ℕ) : Option (Option (ℕ × ℕ)) := do
  match ← parseUnsignedSizeChecked first with
  | none => some none
  | some start =>
    if start ≥ fileSize then some none
    else
      let final ← subSize fileSize 1
      if last = [] then
        let length ← subSize final start
        let count ← addSize length 1
        some (some (start, count))
      else
        match ← parseUnsignedSizeChecked last with
        | none => some none
        | some parsed =>
          if parsed < start then some none
          else
            let length ← subSize (if parsed ≥ fileSize then final else parsed) start
            let count ← addSize length 1
            some (some (start, count))

def parseSingleRangeChecked (value : Bytes) (fileSize : ℕ) : Option (Option (ℕ × ℕ)) :=
  if fileSize = 0 ∨ value.take 6 ≠ ascii "bytes=" then some none
  else
    let range := value.drop 6
    if comma ∈ range then some none
    else
      match findByte dash range with
      | none => some none
      | some separator =>
        let first := range.take separator
        let last := range.drop (separator+1)
        if dash ∈ last then some none
        else if first = [] ∧ last = [] then some none
        else if first = [] then suffixRangeChecked last fileSize
        else boundedRangeChecked first last fileSize

variable {first last : Bytes} {fileSize : ℕ}

theorem parseUnsignedSizeChecked_eq (value : Bytes) :
    parseUnsignedSizeChecked value = some (parseUnsignedSize value) := by
  rewrite [parseUnsignedSizeChecked, parseContentLengthChecked_eq, Option.map_some,
    parseUnsignedSize]
  rfl

theorem suffixRangeChecked_eq (last : Bytes) (fileSize : ℕ) :
    suffixRangeChecked last fileSize = some (suffixRange last fileSize) := by
  rw [suffixRangeChecked, suffixRange, parseUnsignedSizeChecked_eq]
  simp only [Option.bind_eq_bind, Option.bind_some]
  cases parseUnsignedSize last with
  | none => rfl
  | some suffix =>
    simp only
    split_ifs with hzero hlt
    · rfl
    · rw [subSize_of_le hlt.le, Option.bind_some]
    · rw [subSize_of_le le_rfl, Option.bind_some]

theorem boundedRangeChecked_eq (first last : Bytes) (hsize : fileSize < 2^64) :
    boundedRangeChecked first last fileSize = some (boundedRange first last fileSize) := by
  rw [boundedRangeChecked, boundedRange, parseUnsignedSizeChecked_eq]
  simp only [Option.bind_eq_bind, Option.bind_some]
  cases parseUnsignedSize first with
  | none => rfl
  | some start =>
    simp only
    by_cases hstart : start ≥ fileSize
    · rw [if_pos hstart, if_pos hstart]
    · have hone : 1 ≤ fileSize := by omega
      -- Every position up to the last one of the file has a successor in a `size_t`.
      have hcount : ∀ stop, start ≤ stop → stop ≤ fileSize-1 →
          ((subSize stop start).bind fun length => (addSize length 1).bind fun count =>
            some (some (start, count))) = some (some (start, stop-start+1)) := by
        intro stop hle hstop
        have hfit : stop-start+1 ≤ sizeMax := by
          rw [sizeMax]
          omega
        rw [subSize_of_le hle, Option.bind_some, addSize_of_le hfit, Option.bind_some]
      rw [if_neg hstart, if_neg hstart, subSize_of_le hone, Option.bind_some]
      by_cases hlast : last = []
      · rw [if_pos hlast, if_pos hlast]
        exact hcount _ (by omega) le_rfl
      · rw [if_neg hlast, if_neg hlast, parseUnsignedSizeChecked_eq, Option.bind_some]
        cases parseUnsignedSize last with
        | none => rfl
        | some parsed =>
          simp only
          split_ifs with horder hclip
          · rfl
          · exact hcount _ (by omega) le_rfl
          · exact hcount _ (by omega) (by omega)

theorem parseSingleRangeChecked_eq (value : Bytes) (hsize : fileSize < 2^64) :
    parseSingleRangeChecked value fileSize = some (parseSingleRange value fileSize) := by
  simp only [parseSingleRangeChecked, parseSingleRange]
  split
  · rfl
  · split
    · rfl
    · cases findByte dash (value.drop 6) with
      | none => rfl
      | some separator =>
        simp only
        split_ifs with hdash hne hfirst
        · rfl
        · rfl
        · exact suffixRangeChecked_eq _ _
        · exact boundedRangeChecked_eq _ _ hsize

end Checked

namespace ByteRange

/-- The ranges that are taken: written in one of the three forms, with a satisfiable range
and no numeral behind the `-` that a `size_t` cannot hold. The bytes are then the ones that
are asked for, and no operation wraps. -/
theorem parseSingleRange_exact {fileSize : ℕ} (hsize : fileSize < 2^64) (value : Bytes) :
    ((parseSingleRange value fileSize).isSome = true ↔
      ∃ range : ByteRange, range.Written value ∧ range.Satisfiable fileSize ∧ range.Sized) ∧
    (∀ offset count, parseSingleRange value fileSize = some (offset, count) →
      1 ≤ count ∧ offset+count ≤ fileSize ∧
        ∀ range : ByteRange, range.Written value → ∀ position,
          offset ≤ position ∧ position < offset+count ↔ range.Selects fileSize position) ∧
    parseSingleRangeChecked value fileSize = some (parseSingleRange value fileSize) := by
  refine ⟨⟨?_, ?_⟩, ?_, parseSingleRangeChecked_eq value hsize⟩
  · intro hsome
    obtain ⟨r, hr⟩ := Option.isSome_iff_exists.mp hsome
    obtain ⟨range, hw⟩ := exists_written_of_parseSingleRange hr
    obtain ⟨hsat, hsized, -⟩ := (hw.parseSingleRange_eq_some hsize).mp hr
    exact ⟨range, hw, hsat, hsized⟩
  · rintro ⟨range, hw, hsat, hsized⟩
    rw [(hw.parseSingleRange_eq_some hsize).mpr ⟨hsat, hsized, rfl⟩]
    rfl
  · intro offset count h
    -- However the text is taken for a range, the result is the clipped one.
    have hclip : ∀ range : ByteRange, range.Written value →
        range.Satisfiable fileSize ∧ (offset, count) = range.clip fileSize := by
      intro range hw
      obtain ⟨hsat, -, hr⟩ := (hw.parseSingleRange_eq_some hsize).mp h
      exact ⟨hsat, hr⟩
    obtain ⟨range, hw⟩ := exists_written_of_parseSingleRange h
    obtain ⟨hsat, hr⟩ := hclip range hw
    obtain ⟨hcount, hfit⟩ := clip_bounds hsat
    rw [← hr] at hcount hfit
    refine ⟨hcount, hfit, ?_⟩
    intro other hother position
    obtain ⟨hsat', hr'⟩ := hclip other hother
    have hselects := clip_selects hsat' position
    rwa [← hr'] at hselects

/-- `bytes=1-9` of a file with five bytes. -/
theorem parseSingleRange_exact_clipped :
    5 < 2^64 ∧ parseSingleRange (ascii "bytes=1-9") 5 = some (1, 4) ∧
      (1 ≤ 4 ∧ 1+4 ≤ 5 ∧ ∀ range : ByteRange, range.Written (ascii "bytes=1-9") → ∀ position,
        1 ≤ position ∧ position < 1+4 ↔ range.Selects 5 position) := by
  have hsize : 5 < 2^64 := by decide
  have hparse : parseSingleRange (ascii "bytes=1-9") 5 = some (1, 4) := by decide
  exact ⟨hsize, hparse, (parseSingleRange_exact hsize (ascii "bytes=1-9")).2.1 1 4 hparse⟩

/-- `bytes=0-18446744073709551616` asks for every byte of any file, and is refused. -/
theorem long_numeral_refused :
    ¬∀ (value : Bytes) (fileSize : ℕ), fileSize < 2^64 →
      ((parseSingleRange value fileSize).isSome = true ↔
        ∃ range : ByteRange, range.Written value ∧ range.Satisfiable fileSize) := by
  intro h
  have hwritten : (closed 0 18446744073709551616).Written
      (ascii "bytes=0-18446744073709551616") := by
    have ha : Decimal (ascii "0") 0 := by decide
    have hb : Decimal (ascii "18446744073709551616") 18446744073709551616 := by decide
    exact .closed ha hb
  have hnone : parseSingleRange (ascii "bytes=0-18446744073709551616") 1 = none := by
    decide
  have hsome := (h (ascii "bytes=0-18446744073709551616") 1 (by decide)).mpr
    ⟨_, hwritten, by decide, by decide⟩
  rw [hnone] at hsome
  contradiction

end ByteRange

end JingjieAR
