import JingjieAR.DelimitedFields
import JingjieAR.EcmaScript
import JingjieAR.FinmapInsertions
import JingjieAR.RouterTables

/-! The expressions that patterns are compiled to, from their text on. A pattern matches the
paths that have its segments, a parameter standing for any segment that is not empty, and the
parameters get the segments in their place. -/
namespace JingjieAR

open EcmaScript (Regex Token MatchState matchRegex matchWhole lex parse parseTokens seqAll Frame)

def isRegexMetaCharacter (c : UInt8) : Bool := (ascii "\\^$.|?*+()[]\x7b\x7d").contains c

/-- What a round of `compileDynamicPattern` adds to the text of the expression. -/
def PatternAtom.text : PatternAtom → Bytes
  | .literal c => if isRegexMetaCharacter c then [92, c] else [c]
  | .parameter => ascii "([^/]+)"

def expressionText (pattern : Bytes) : Bytes :=
  ascii "^"++((compileDynamicPattern pattern).1.flatMap PatternAtom.text++ascii "$")

/-- `std::regex(expressionText)` -/
def patternExpression (pattern : Bytes) : Option Regex := parse (expressionText pattern)

/-- The loop of `injectParameters`, from an index on; a group without a match is empty. -/
def injectMatch (captures : ℕ → Option Bytes) : ℕ → List Bytes → HttpRequest → HttpRequest
  | _, [], request => request
  | index, name :: names, request =>
    injectMatch captures (index+1) names
      (request.setPathParameter name ((captures (index+1)).getD []))

namespace PatternAtom

def tokens : PatternAtom → List Token
  | .literal c => [.char c]
  | .parameter => [.open, .set true [slash], .plus, .close]

/-- The terms of an expression whose first group has the number `next`. -/
def terms : ℕ → List PatternAtom → List Regex
  | _, [] => []
  | next, .literal c :: atoms => .char c :: terms next atoms
  | next, .parameter :: atoms =>
    .group next (seqAll [.plus (.set true [slash])]) :: terms (next+1) atoms

end PatternAtom

theorem isRegexMetaCharacter_iff (c : UInt8) :
    isRegexMetaCharacter c = true ↔ c ∈ EcmaScript.syntaxCharacters := by
  have hperm : (ascii "\\^$.|?*+()[]\x7b\x7d").Perm EcmaScript.syntaxCharacters := by
    decide
  rw [isRegexMetaCharacter, List.contains_iff_mem, hperm.mem_iff]

theorem lex_atom (atom : PatternAtom) (rest : Bytes) :
    lex .outside (atom.text++rest) = (lex .outside rest).map (atom.tokens++·) := by
  cases atom with
  | literal c =>
    rw [PatternAtom.text, if_congr (isRegexMetaCharacter_iff c) rfl rfl, EcmaScript.lex_literal]
    rfl
  | parameter =>
    have htext : PatternAtom.parameter.text = [40, 91, 94, 47, 93, 43, 41] := by decide
    have hread : lex .outside (PatternAtom.parameter.text++rest) =
        ((((lex .outside rest).map (Token.close :: ·)).map (Token.plus :: ·)).map
          (Token.set true [slash] :: ·)).map (Token.open :: ·) := by
      rw [htext]
      rfl
    rw [hread, Option.map_map, Option.map_map, Option.map_map]
    rfl

theorem lex_atoms (atoms : List PatternAtom) :
    lex .outside (atoms.flatMap PatternAtom.text++ascii "$") =
      some (atoms.flatMap PatternAtom.tokens++[.lineEnd]) := by
  induction atoms with
  | nil => decide
  | cons atom atoms ih =>
    rw [List.flatMap_cons, List.append_assoc, lex_atom, ih, List.flatMap_cons, List.append_assoc]
    rfl

/-- The tokens of some atoms become their terms, behind the ones that are there already. -/
theorem parse_atoms (next : ℕ) (f : Frame) (atoms : List PatternAtom) :
    parseTokens next [] f (atoms.flatMap PatternAtom.tokens++[.lineEnd]) =
      some (Frame.regex { f with terms :=
        .lineEnd :: ((PatternAtom.terms next atoms).reverse++f.terms) }) := by
  induction atoms generalizing next f with
  | nil => rfl
  | cons atom atoms ih =>
    cases atom with
    | literal c =>
      have hstep := ih next (f.push (.char c))
      rw [PatternAtom.terms, List.reverse_cons, List.append_assoc]
      exact hstep
    | parameter =>
      have hstep := ih (next+1) (f.push (.group next (seqAll [.plus (.set true [slash])])))
      rw [PatternAtom.terms, List.reverse_cons, List.append_assoc]
      exact hstep

theorem patternExpression_eq (pattern : Bytes) :
    patternExpression pattern =
      some (seqAll (.lineStart ::
        (PatternAtom.terms 1 (compileDynamicPattern pattern).1++[.lineEnd]))) := by
  have hlex : lex .outside (expressionText pattern) = some (.lineStart ::
      ((compileDynamicPattern pattern).1.flatMap PatternAtom.tokens++[.lineEnd])) := by
    have hstart : lex .outside (expressionText pattern) = (lex .outside
        ((compileDynamicPattern pattern).1.flatMap PatternAtom.text++ascii "$")).map
          (Token.lineStart :: ·) := rfl
    rw [hstart, lex_atoms]
    rfl
  rw [patternExpression, parse, hlex, Option.bind_some]
  have hparse := parse_atoms 1 (Frame.push ⟨0, [], []⟩ .lineStart) (compileDynamicPattern pattern).1
  refine hparse.trans ?_
  simp [Frame.regex, Frame.alternative, Frame.push]

/-- The captures of groups with the numbers from `next` on. -/
def capturesFrom : (ℕ → Option Bytes) → ℕ → List Bytes → ℕ → Option Bytes
  | captures, _, [] => captures
  | captures, next, value :: values =>
    capturesFrom (Function.update captures next (some value)) (next+1) values

/-- The end of a match of the whole path. -/
def atEnd (y : MatchState) : Option MatchState := if y.rest = [] then some y else none

theorem setContains_slash : EcmaScript.setContains true [slash] = fun c => decide (c ≠ slash) := by
  funext c
  by_cases hc : c = slash
  · simp [EcmaScript.setContains, hc]
  · simp [EcmaScript.setContains, hc]

/-- A group stops at a `/` or at the end: nothing else can come next. -/
theorem matchAtoms_stops {atoms : List PatternAtom} (h : StartsAtSlash atoms) {b : UInt8}
    (hb : b ≠ slash) (rest : Bytes) : matchAtoms atoms (b :: rest) = none := by
  cases atoms with
  | nil => rfl
  | cons atom atoms =>
    obtain rfl : atom = .literal slash := h _ rfl
    rw [matchAtoms, if_neg hb]

theorem drop_length_takeWhile (p : UInt8 → Bool) (text : Bytes) :
    text.drop (text.takeWhile p).length = text.dropWhile p := by
  have hdrop : (text.takeWhile p++text.dropWhile p).drop (text.takeWhile p).length =
      text.dropWhile p := List.drop_left
  rwa [List.takeWhile_append_dropWhile] at hdrop

theorem take_length_takeWhile (p : UInt8 → Bool) (text : Bytes) :
    text.take (text.takeWhile p).length = text.takeWhile p := by
  have htake : (text.takeWhile p++text.dropWhile p).take (text.takeWhile p).length =
      text.takeWhile p := List.take_left
  rwa [List.takeWhile_append_dropWhile] at htake

/-- The backtracking of the expression comes to the result of the greedy scan. -/
theorem matchRegex_terms {atoms : List PatternAtom} (h : GroupsEndAtSlash atoms) (next : ℕ)
    (x : MatchState) :
    (matchRegex (seqAll (PatternAtom.terms next atoms++[.lineEnd])) x atEnd).map
        MatchState.captures =
      (matchAtoms atoms x.rest).map (capturesFrom x.captures next) := by
  induction atoms generalizing next x with
  | nil =>
    have hend : matchRegex (seqAll [.lineEnd]) x atEnd =
        if x.rest = [] then atEnd x else none := rfl
    rw [PatternAtom.terms, List.nil_append, hend, matchAtoms]
    split_ifs with hrest
    · rw [atEnd, if_pos hrest]
      rfl
    · rfl
  | cons atom atoms ih =>
    cases atom with
    | literal c =>
      have hchar : matchRegex (seqAll (PatternAtom.terms next (.literal c :: atoms)++[.lineEnd])) x
          atEnd = EcmaScript.matchByte (· = c) x
            (fun y => matchRegex (seqAll (PatternAtom.terms next atoms++[.lineEnd])) y atEnd) := rfl
      rw [hchar, EcmaScript.matchByte]
      cases hrest : x.rest with
      | nil => rfl
      | cons b rest =>
        have hih := ih h next (x.advance 1)
        rw [EcmaScript.advance_rest, hrest, EcmaScript.advance_captures] at hih
        by_cases hb : b = c
        · simp only [matchAtoms, if_pos hb, decide_eq_true hb]
          exact hih
        · simp [matchAtoms, hb]
    | parameter =>
      have hgroup : matchRegex (seqAll (PatternAtom.terms next (.parameter :: atoms)++[.lineEnd])) x
          atEnd = matchRegex (.plus (.set true [slash])) x (fun y =>
            matchRegex (seqAll (PatternAtom.terms (next+1) atoms++[.lineEnd]))
              { y with captures := Function.update y.captures next
                         (some (EcmaScript.textBetween x y)) } atEnd) := rfl
      have hstops : ∀ (y : MatchState) (b : UInt8) (rest : Bytes), y.rest = b :: rest →
          EcmaScript.setContains true [slash] b = true →
            matchRegex (seqAll (PatternAtom.terms (next+1) atoms++[.lineEnd]))
              { y with captures := Function.update y.captures next
                         (some (EcmaScript.textBetween x y)) } atEnd = none := by
        intro y b rest hrest hb
        have hne : b ≠ slash := by simpa [setContains_slash] using hb
        rw [← Option.map_eq_none_iff (f := MatchState.captures), ih h.2]
        simp only [hrest]
        rw [matchAtoms_stops h.1 hne]
        rfl
      rw [hgroup, EcmaScript.matchRegex_plus_set hstops, setContains_slash, matchAtoms]
      split_ifs with hnone
      · rfl
      · have hle : (x.rest.takeWhile (fun c => decide (c ≠ slash))).length ≤ x.rest.length :=
          (List.takeWhile_prefix _).length_le
        rw [ih h.2]
        simp only [EcmaScript.advance_rest, EcmaScript.advance_captures,
          EcmaScript.textBetween_advance x hle, drop_length_takeWhile, take_length_takeWhile,
          Option.map_map]
        rfl

/-- The expression of a pattern matches a path as a whole exactly as the scan does. -/
theorem matchWhole_iff {pattern path : Bytes} {expression : Regex}
    (hexpression : patternExpression pattern = some expression) :
    matchWhole expression path = (matchAtoms (compileDynamicPattern pattern).1 path).map
      (capturesFrom (fun _ => none) 1) := by
  rw [patternExpression_eq] at hexpression
  obtain rfl := Option.some.inj hexpression
  exact matchRegex_terms (compileFrom_groups true pattern) 1 ⟨true, path, fun _ => none⟩

section Segments

def segments (text : Bytes) : List Bytes := text.splitOn slash

/-- A `:` and at least one more byte. -/
def isParameter (segment : Bytes) : Bool := segment.head? = some colon && 1 < segment.length

/-- A segment of the path stands where the pattern has one. -/
def SegmentFits (segment value : Bytes) : Prop :=
  if isParameter segment then value ≠ [] else value = segment

instance (segment value : Bytes) : Decidable (SegmentFits segment value) :=
  inferInstanceAs (Decidable (if isParameter segment = true then value ≠ [] else value = segment))

/-- The segments of the path under the names of their parameters. -/
def bindings (pattern path : List Bytes) : List (Bytes × Bytes) :=
  (pattern.zip path).filterMap
    (fun e => if isParameter e.1 then some (e.1.tail, e.2) else none)

def segmentAtoms (segment : Bytes) : List PatternAtom :=
  if isParameter segment then [.parameter] else segment.map .literal

def segmentNames (segment : Bytes) : List Bytes := if isParameter segment then [segment.tail] else []

variable {segment tail : Bytes}

theorem compileName_segment (hs : slash ∉ segment) (htail : AtBoundary slash tail) :
    compileName (segment++tail) =
      (segment, (compileFrom false tail).1, (compileFrom false tail).2) := by
  induction segment with
  | nil =>
    cases tail with
    | nil => rfl
    | cons c tail =>
      obtain rfl : c = slash := htail c rfl
      have hbegins : beginsParameter false slash tail = false := by
        simp [beginsParameter]
      rw [List.nil_append, compileName, if_pos rfl, compileFrom, hbegins]
      rfl
  | cons c segment ih =>
    obtain ⟨hne, hs⟩ := not_or.mp (List.mem_cons.not.mp hs)
    rw [List.cons_append, compileName, if_neg (Ne.symm hne), ih hs]

/-- Within a segment no parameter begins. -/
theorem compileFrom_literals (hs : slash ∉ segment) :
    compileFrom false (segment++tail) =
      (segment.map .literal++(compileFrom false tail).1, (compileFrom false tail).2) := by
  induction segment with
  | nil => rfl
  | cons c segment ih =>
    obtain ⟨hne, hs⟩ := not_or.mp (List.mem_cons.not.mp hs)
    have hbegins : beginsParameter false c (segment++tail) = false := by
      simp [beginsParameter]
    have hnext : decide (c = slash) = false := decide_eq_false (Ne.symm hne)
    rw [List.cons_append, compileFrom, hbegins, hnext, ih hs]
    rfl

/-- A parameter begins at the front of a segment if there is a name behind the `:`. -/
theorem beginsParameter_iff {c : UInt8} {rest : Bytes} (hs : slash ∉ rest)
    (htail : AtBoundary slash tail) :
    beginsParameter true c (rest++tail) = isParameter (c :: rest) := by
  cases rest with
  | nil =>
    cases tail with
    | nil => simp [beginsParameter, isParameter]
    | cons d tail =>
      obtain rfl : d = slash := htail d rfl
      simp [beginsParameter, isParameter]
  | cons d rest =>
    have hd : d ≠ slash := fun h => hs (h ▸ List.mem_cons_self)
    simp [beginsParameter, isParameter, hd]

theorem compileFrom_segment (hs : slash ∉ segment) (htail : AtBoundary slash tail) :
    compileFrom true (segment++tail) =
      (segmentAtoms segment++(compileFrom false tail).1,
        segmentNames segment++(compileFrom false tail).2) := by
  cases segment with
  | nil =>
    cases tail with
    | nil => rfl
    | cons c tail =>
      obtain rfl : c = slash := htail c rfl
      have hbegins : ∀ start, beginsParameter start slash tail = false := by
        simp [beginsParameter, slash, colon]
      rw [List.nil_append, compileFrom, compileFrom, hbegins, hbegins]
      rfl
  | cons c segment =>
    obtain ⟨hne, hs'⟩ := not_or.mp (List.mem_cons.not.mp hs)
    have hnext : decide (c = slash) = false := decide_eq_false (Ne.symm hne)
    rw [List.cons_append, compileFrom, beginsParameter_iff hs' htail, segmentAtoms, segmentNames]
    split_ifs with hparameter
    · rw [compileName_segment hs' htail]
      rfl
    · rw [hnext, compileFrom_literals hs']
      rfl

/-- A pattern is one segment, or a segment, a `/` and a pattern. -/
theorem compileDynamicPattern_last (hs : slash ∉ segment) :
    compileDynamicPattern segment = (segmentAtoms segment, segmentNames segment) := by
  have hend : AtBoundary slash ([] : Bytes) := atBoundary_nil
  have hcompile := compileFrom_segment hs hend
  rw [List.append_nil] at hcompile
  rw [compileDynamicPattern, hcompile]
  simp [compileFrom]

theorem compileDynamicPattern_cons (hs : slash ∉ segment) (rest : Bytes) :
    compileDynamicPattern (segment++slash :: rest) =
      (segmentAtoms segment++.literal slash :: (compileDynamicPattern rest).1,
        segmentNames segment++(compileDynamicPattern rest).2) := by
  have hbegins : beginsParameter false slash rest = false := by simp [beginsParameter]
  rw [compileDynamicPattern, compileFrom_segment hs (atBoundary_cons rest), compileFrom, hbegins]
  rfl

/-- What the atoms of a segment match, up to the next `/`. -/
theorem atomsMatch_segmentAtoms (hs : slash ∉ segment) {atoms : List PatternAtom} {path : Bytes}
    {values : List Bytes} :
    AtomsMatch (segmentAtoms segment++atoms) path values ↔
      ∃ value rest values', path = value++rest ∧ slash ∉ value ∧ SegmentFits segment value ∧
        values = (if isParameter segment then [value] else [])++values' ∧
          AtomsMatch atoms rest values' := by
  unfold segmentAtoms SegmentFits
  by_cases hparameter : isParameter segment = true
  · rw [if_pos hparameter]
    constructor
    · intro h
      cases h with
      | parameter hne hslash h =>
        exact ⟨_, _, _, rfl, hslash, by simpa [hparameter] using hne, by simp [hparameter], h⟩
    · rintro ⟨value, rest, values', rfl, hslash, hne, rfl, h⟩
      rw [if_pos hparameter] at hne ⊢
      exact .parameter hne hslash h
  · rw [if_neg hparameter, atomsMatch_literals]
    constructor
    · rintro ⟨rest, rfl, h⟩
      exact ⟨segment, rest, values, rfl, hs, by simp [hparameter], by simp [hparameter], h⟩
    · rintro ⟨value, rest, values', rfl, -, hvalue, rfl, h⟩
      rw [if_neg hparameter] at hvalue ⊢
      exact ⟨rest, by rw [hvalue], h⟩

theorem segments_last {text : Bytes} (h : slash ∉ text) : segments text = [text] :=
  List.splitOn_eq_singleton h

theorem segments_cons {field : Bytes} (h : slash ∉ field) (rest : Bytes) :
    segments (field++slash :: rest) = field :: segments rest :=
  List.splitOn_append_cons_self_of_not_mem h rest

/-- The values of the parameters of a segment come before those of the others. -/
theorem bindings_cons (segment value : Bytes) (pattern path : List Bytes) :
    bindings (segment :: pattern) (value :: path) =
      (if isParameter segment then [(segment.tail, value)] else [])++bindings pattern path := by
  unfold bindings
  rw [List.zip_cons_cons, List.filterMap_cons]
  split_ifs <;> rfl

theorem segments_cases (text : Bytes) :
    (slash ∉ text ∧ segments text = [text]) ∨ ∃ field rest, slash ∉ field ∧
      text = field++slash :: rest ∧ segments text = field :: segments rest := by
  by_cases h : slash ∈ text
  · obtain ⟨field, rest, rfl, hfield⟩ := List.eq_append_cons_of_mem h
    exact .inr ⟨field, rest, hfield, rfl, segments_cons hfield rest⟩
  · exact .inl ⟨h, segments_last h⟩

theorem segments_ne_nil (text : Bytes) : segments text ≠ [] := List.splitOn_ne_nil _ _

/-- The path matches exactly if its segments fit, and then these are the values. -/
theorem atomsMatch_iff_segments (pattern path : Bytes) (values : List Bytes) :
    AtomsMatch (compileDynamicPattern pattern).1 path values ↔
      List.Forall₂ SegmentFits (segments pattern) (segments path) ∧
        values = (bindings (segments pattern) (segments path)).map Prod.snd := by
  induction pattern using fields_induction slash generalizing path values with
  | last segment hs =>
    have hatoms : segmentAtoms segment = segmentAtoms segment++[] := (List.append_nil _).symm
    rw [compileDynamicPattern_last hs, segments_last hs, hatoms, atomsMatch_segmentAtoms hs]
    constructor
    · rintro ⟨value, rest, values', rfl, hslash, hfits, rfl, hnil⟩
      cases hnil
      rw [List.append_nil, segments_last hslash, bindings_cons]
      refine ⟨.cons hfits .nil, ?_⟩
      split_ifs <;> simp [bindings]
    · rintro ⟨hfits, rfl⟩
      rcases segments_cases path with ⟨hslash, hpath⟩ | ⟨field, rest, -, -, hpath⟩
      · rw [hpath] at hfits ⊢
        obtain ⟨hfits, -⟩ := List.forall₂_cons.mp hfits
        refine ⟨path, [], [], by simp, hslash, hfits, ?_, .nil⟩
        rw [bindings_cons]
        split_ifs <;> simp [bindings]
      · -- one segment does not fit two
        rw [hpath] at hfits
        obtain ⟨-, hrest⟩ := List.forall₂_cons.mp hfits
        exact absurd (List.forall₂_nil_left_iff.mp hrest) (segments_ne_nil rest)
  | cons segment rest hs ih =>
    rw [compileDynamicPattern_cons hs, segments_cons hs, atomsMatch_segmentAtoms hs]
    constructor
    · rintro ⟨value, path', values', rfl, hslash, hfits, rfl, h⟩
      cases h with
      | literal c h =>
        obtain ⟨hrest, rfl⟩ := (ih _ _).mp h
        rw [segments_cons hslash, bindings_cons, List.map_append]
        refine ⟨.cons hfits hrest, ?_⟩
        split_ifs <;> rfl
    · rintro ⟨hfits, rfl⟩
      rcases segments_cases path with ⟨-, hpath⟩ | ⟨field, rest', hslash, rfl, hpath⟩
      · rw [hpath] at hfits
        obtain ⟨-, hrest⟩ := List.forall₂_cons.mp hfits
        exact absurd (List.forall₂_nil_right_iff.mp hrest) (segments_ne_nil rest)
      · rw [hpath] at hfits ⊢
        obtain ⟨hfield, hrest⟩ := List.forall₂_cons.mp hfits
        refine ⟨field, slash :: rest', _, rfl, hslash, hfield, ?_, .literal slash
          ((ih _ _).mpr ⟨hrest, rfl⟩)⟩
        rw [bindings_cons, List.map_append]
        split_ifs <;> rfl

/-- The names of the parameters, in the order of the groups. -/
theorem parameterNames_eq {pattern path : Bytes}
    (h : List.Forall₂ SegmentFits (segments pattern) (segments path)) :
    (compileDynamicPattern pattern).2 =
      (bindings (segments pattern) (segments path)).map Prod.fst := by
  have hnames : (compileDynamicPattern pattern).2 = (segments pattern).flatMap segmentNames := by
    clear h
    induction pattern using fields_induction slash with
    | last segment hs =>
      rw [compileDynamicPattern_last hs, segments_last hs]
      simp
    | cons segment rest hs ih =>
      rw [compileDynamicPattern_cons hs, segments_cons hs, ih]
      rfl
  rw [hnames]
  generalize segments pattern = names at h
  generalize segments path = values at h
  induction h with
  | nil => rfl
  | cons hfits hrest ih =>
    rw [List.flatMap_cons, ih, bindings_cons, List.map_append, segmentNames]
    split_ifs <;> rfl

end Segments

section Injection

theorem capturesFrom_of_lt {captures : ℕ → Option Bytes} {next i : ℕ} (h : i < next)
    (values : List Bytes) : capturesFrom captures next values i = captures i := by
  induction values generalizing captures next with
  | nil => rfl
  | cons value values ih =>
    rw [capturesFrom, ih (Nat.lt_succ_of_lt h), Function.update_of_ne (Nat.ne_of_lt h)]

theorem capturesFrom_getElem? (captures : ℕ → Option Bytes) (next : ℕ) {values : List Bytes}
    {j : ℕ} {value : Bytes} (h : values[j]? = some value) :
    capturesFrom captures next values (next+j) = some value := by
  induction values generalizing captures next j with
  | nil => simp at h
  | cons first values ih =>
    cases j with
    | zero =>
      obtain rfl : first = value := by simpa using h
      rw [capturesFrom]
      exact (capturesFrom_of_lt (Nat.lt_succ_self next) values).trans (Function.update_self ..)
    | succ j =>
      have hrest : values[j]? = some value := by simpa using h
      have hstep := ih (Function.update captures next (some first)) (next+1) hrest
      rwa [Nat.add_assoc, Nat.add_comm 1] at hstep

/-- The groups are the values in their order, so every name gets its own. -/
theorem injectMatch_eq {captures : ℕ → Option Bytes} (index : ℕ) {names values : List Bytes}
    (hlength : names.length = values.length)
    (h : ∀ j value, values[j]? = some value → captures (index+1+j) = some value)
    (request : HttpRequest) :
    injectMatch captures index names request = injectParameters request names values := by
  induction names generalizing index values request with
  | nil => rfl
  | cons name names ih =>
    cases values with
    | nil => simp at hlength
    | cons value values =>
      have hfirst : captures (index+1) = some value := h 0 value rfl
      have hrest : ∀ j v, values[j]? = some v → captures (index+1+1+j) = some v := by
        intro j v hv
        have hshift : index+1+1+j = index+1+(j+1) := by omega
        rw [hshift]
        exact h (j+1) v (by simpa using hv)
      rw [injectMatch, hfirst, ih (index+1) (Nat.succ.inj hlength) hrest]
      rfl

theorem injectParameters_eq (request : HttpRequest) (names values : List Bytes) :
    injectParameters request names values =
      { request with
        pathParameters := insertBindings request.pathParameters (names.zip values) } := by
  have hfold : ∀ (parameters : List (Bytes × Bytes)) (r : HttpRequest),
      parameters.foldl (fun r parameter => r.setPathParameter parameter.1 parameter.2) r =
        { r with pathParameters := insertBindings r.pathParameters parameters } := by
    intro parameters
    induction parameters with
    | nil => exact fun r => rfl
    | cons parameter parameters ih =>
      intro r
      rw [List.foldl_cons, ih]
      rfl
  exact hfold _ request

/-- Every pattern is compiled. Its expression matches the paths whose segments fit its own, and
then the parameters of the request are these segments, the last one of a name, and the ones
that it had under other names. -/
theorem pattern_semantics (pattern path : Bytes) :
    ∃ expression, patternExpression pattern = some expression ∧
      ((matchWhole expression path).isSome = true ↔
        List.Forall₂ SegmentFits (segments pattern) (segments path)) ∧
      ∀ captures, matchWhole expression path = some captures → ∀ request : HttpRequest,
        ∃ parameters, injectMatch captures 0 (compileDynamicPattern pattern).2 request =
            { request with pathParameters := parameters } ∧
          ∀ name, parameters.lookup name =
            (lastBinding (bindings (segments pattern) (segments path)) name).or
              (request.pathParameters.lookup name) := by
  refine ⟨_, patternExpression_eq pattern, ?_, ?_⟩
  · rw [matchWhole_iff (patternExpression_eq pattern), Option.isSome_map, Option.isSome_iff_exists]
    constructor
    · rintro ⟨values, hvalues⟩
      have hmatch := (matchAtoms_iff (compileFrom_groups true pattern)).mp hvalues
      exact ((atomsMatch_iff_segments pattern path values).mp hmatch).1
    · intro hfits
      have hmatch := (atomsMatch_iff_segments pattern path _).mpr ⟨hfits, rfl⟩
      exact ⟨_, (matchAtoms_iff (compileFrom_groups true pattern)).mpr hmatch⟩
  · intro captures hcaptures request
    rw [matchWhole_iff (patternExpression_eq pattern)] at hcaptures
    obtain ⟨values, hvalues, rfl⟩ := Option.map_eq_some_iff.mp hcaptures
    have hmatch := (matchAtoms_iff (compileFrom_groups true pattern)).mp hvalues
    obtain ⟨hfits, rfl⟩ := (atomsMatch_iff_segments pattern path values).mp hmatch
    have hnames := parameterNames_eq hfits
    refine ⟨insertBindings request.pathParameters (bindings (segments pattern) (segments path)),
      ?_, lookup_insertBindings _ _⟩
    have hzip : ((bindings (segments pattern) (segments path)).map Prod.fst).zip
        ((bindings (segments pattern) (segments path)).map Prod.snd) =
          bindings (segments pattern) (segments path) := by
      rw [List.zip_map', List.map_id'']
      exact fun _ => rfl
    have hlength : ((bindings (segments pattern) (segments path)).map Prod.fst).length =
        ((bindings (segments pattern) (segments path)).map Prod.snd).length := by simp
    have hgroups : ∀ j value,
        ((bindings (segments pattern) (segments path)).map Prod.snd)[j]? = some value →
          capturesFrom (fun _ => none) 1
            ((bindings (segments pattern) (segments path)).map Prod.snd) (0+1+j) = some value := by
      intro j value hvalue
      exact capturesFrom_getElem? _ 1 hvalue
    rw [hnames, injectMatch_eq 0 hlength hgroups, injectParameters_eq, hzip]

/-- The second of two parameters with one name is kept. -/
theorem pattern_semantics_repeated : ∃ expression captures parameters,
    patternExpression (ascii "/:id/x.y/:id") = some expression ∧
      matchWhole expression (ascii "/a/x.y/b") = some captures ∧
      injectMatch captures 0 (compileDynamicPattern (ascii "/:id/x.y/:id")).2 {} =
        { pathParameters := parameters } ∧
      parameters.lookup (ascii "id") = some (ascii "b") := by
  obtain ⟨expression, hexpression, hiff, hinject⟩ :=
    pattern_semantics (ascii "/:id/x.y/:id") (ascii "/a/x.y/b")
  have hfits : List.Forall₂ SegmentFits (segments (ascii "/:id/x.y/:id"))
      (segments (ascii "/a/x.y/b")) := by decide
  obtain ⟨captures, hcaptures⟩ := Option.isSome_iff_exists.mp (hiff.mpr hfits)
  obtain ⟨parameters, hparameters, hlookup⟩ := hinject captures hcaptures {}
  refine ⟨expression, captures, parameters, hexpression, hcaptures, hparameters, ?_⟩
  have hlast : lastBinding (bindings (segments (ascii "/:id/x.y/:id"))
      (segments (ascii "/a/x.y/b"))) (ascii "id") = some (ascii "b") := by decide
  rw [hlookup, hlast]
  rfl

end Injection

end JingjieAR
