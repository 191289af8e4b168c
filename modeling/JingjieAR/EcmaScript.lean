import Mathlib.Logic.Function.Basic
import Mathlib.Data.List.TakeWhile

/-! Regular expressions of ECMAScript over bytes: their syntax, as far as it has characters, `.`,
sets of characters, groups, alternatives, the greedy quantifiers and the two assertions of the
line, and their meaning as the backtracking of the language's definition. An expression that
needs anything else of the syntax is not read. -/
namespace JingjieAR.EcmaScript

inductive Regex
  | empty
  | char (c : UInt8)
  | any
  | set (negated : Bool) (members : List UInt8)
  | lineStart
  | lineEnd
  | seq (r s : Regex)
  | alt (r s : Regex)
  | star (r : Regex)
  | plus (r : Regex)
  | optional (r : Regex)
  | group (index : ℕ) (r : Regex)
deriving DecidableEq

section Syntax

inductive Token
  | char (c : UInt8)
  | any
  | set (negated : Bool) (members : List UInt8)
  | lineStart
  | lineEnd
  | open
  | close
  | bar
  | star
  | plus
  | optional
deriving DecidableEq

/-- `^ $ \ . * + ? ( ) [ ] { } |` -/
def syntaxCharacters : List UInt8 := [94, 36, 92, 46, 42, 43, 63, 40, 41, 91, 93, 123, 125, 124]

/-- The tokens of one character. -/
def operator (c : UInt8) : Option Token :=
  if c = 94 then some .lineStart
  else if c = 36 then some .lineEnd
  else if c = 46 then some .any
  else if c = 42 then some .star
  else if c = 43 then some .plus
  else if c = 63 then some .optional
  else if c = 40 then some .open
  else if c = 41 then some .close
  else if c = 124 then some .bar
  else none

/-- Where the reading of tokens stands. -/
inductive LexMode
  | outside
  -- behind a backslash
  | escaped
  -- behind the `[` of a set
  | setStart
  | inSet (negated : Bool) (members : List UInt8)

/-- One more character of a set; its escapes, ranges and named classes are not read. -/
def lexMember (negated : Bool) (members : List UInt8) (c : UInt8)
    (rest : LexMode → Option (List Token)) : Option (List Token) :=
  if c = 93 then (rest .outside).map (.set negated members :: ·)
  else if c = 92 ∨ c = 45 ∨ c = 91 then none
  else rest (.inSet negated (members++[c]))

/-- Behind a backslash only the characters of the syntax stand for themselves here. -/
def lex : LexMode → List UInt8 → Option (List Token)
  | .outside, [] => some []
  | .outside, c :: rest =>
    if c = 92 then lex .escaped rest
    else if c = 91 then lex .setStart rest
    else
      match operator c with
      | some token => (lex .outside rest).map (token :: ·)
      | none => if c ∈ syntaxCharacters then none else (lex .outside rest).map (.char c :: ·)
  | .escaped, c :: rest =>
    if c ∈ syntaxCharacters then (lex .outside rest).map (.char c :: ·) else none
  | .setStart, c :: rest =>
    if c = 94 then lex (.inSet true []) rest else lexMember false [] c (fun mode => lex mode rest)
  | .inSet negated members, c :: rest => lexMember negated members c (fun mode => lex mode rest)
  | .escaped, [] => none
  | .setStart, [] => none
  | .inSet _ _, [] => none

/-- A group that is being read: its index, its finished alternatives and the terms of the next
one, the last first. -/
structure Frame where
  index : ℕ
  alternatives : List Regex := []
  terms : List Regex := []

def seqAll : List Regex → Regex
  | [] => .empty
  | r :: rs => .seq r (seqAll rs)

def Frame.alternative (f : Frame) : Regex := seqAll f.terms.reverse

def Frame.regex (f : Frame) : Regex := f.alternatives.foldl (fun r s => .alt s r) f.alternative

def Frame.push (f : Frame) (r : Regex) : Frame := { f with terms := r :: f.terms }

/-- A quantifier follows an atom, not an assertion and not another quantifier. -/
def Regex.isAtom : Regex → Bool
  | .char _ => true
  | .any => true
  | .set _ _ => true
  | .group _ _ => true
  | _ => false

def Frame.quantify (f : Frame) (quantifier : Regex → Regex) : Option Frame :=
  match f.terms with
  | [] => none
  | r :: rs => if r.isAtom then some { f with terms := quantifier r :: rs } else none

/-- Groups are numbered by their opening brackets; `next` is the number of the next one. -/
def parseTokens : ℕ → List Frame → Frame → List Token → Option Regex
  | _, [], f, [] => some f.regex
  | _, _ :: _, _, [] => none
  | next, outer, f, token :: tokens =>
    match token with
    | .char c => parseTokens next outer (f.push (.char c)) tokens
    | .any => parseTokens next outer (f.push .any) tokens
    | .set negated members => parseTokens next outer (f.push (.set negated members)) tokens
    | .lineStart => parseTokens next outer (f.push .lineStart) tokens
    | .lineEnd => parseTokens next outer (f.push .lineEnd) tokens
    | .open => parseTokens (next+1) (f :: outer) { index := next } tokens
    | .close =>
      match outer with
      | [] => none
      | g :: outer => parseTokens next outer (g.push (.group f.index f.regex)) tokens
    | .bar =>
      parseTokens next outer
        { f with alternatives := f.alternative :: f.alternatives, terms := [] } tokens
    | .star => (f.quantify .star).bind (fun f => parseTokens next outer f tokens)
    | .plus => (f.quantify .plus).bind (fun f => parseTokens next outer f tokens)
    | .optional => (f.quantify .optional).bind (fun f => parseTokens next outer f tokens)

/-- The expression that a text stands for. -/
def parse (text : List UInt8) : Option Regex :=
  (lex .outside text).bind (parseTokens 1 [] { index := 0 })

end Syntax

section Matching

/-- How far a match has come: whether it is still at the beginning, the text that is left, and
the captures of the groups. -/
structure MatchState where
  atStart : Bool
  rest : List UInt8
  captures : ℕ → Option (List UInt8)

/-- A matcher looks for the first way to go on that its continuation accepts. -/
abbrev Matcher := MatchState → (MatchState → Option MatchState) → Option MatchState

def MatchState.advance (x : MatchState) (n : ℕ) : MatchState :=
  if n = 0 then x else { x with atStart := false, rest := x.rest.drop n }

/-- One character with some property. -/
def matchByte (p : UInt8 → Bool) : Matcher := fun x k =>
  match x.rest with
  | [] => none
  | b :: _ => if p b then k (x.advance 1) else none

def Regex.groups : Regex → List ℕ
  | .seq r s => r.groups++s.groups
  | .alt r s => r.groups++s.groups
  | .star r => r.groups
  | .plus r => r.groups
  | .optional r => r.groups
  | .group index r => index :: r.groups
  | _ => []

/-- A round of a quantifier forgets what its groups have captured in the round before. -/
def MatchState.forget (x : MatchState) (groups : List ℕ) : MatchState :=
  { x with captures := fun i => if i ∈ groups then none else x.captures i }

/-- As many rounds as there can be, and fewer if the continuation wants it. A round that takes
no text is refused, so there are at most as many rounds as there are characters. -/
def starLoop (m : Matcher) (groups : List ℕ) : ℕ → Matcher
  | 0, x, k => k x
  | n+1, x, k =>
    (m (x.forget groups)
      (fun y => if y.rest.length = x.rest.length then none else starLoop m groups n y k)).or (k x)

/-- What stands between two states of a match. -/
def textBetween (x y : MatchState) : List UInt8 := x.rest.take (x.rest.length-y.rest.length)

def setContains (negated : Bool) (members : List UInt8) (b : UInt8) : Bool :=
  members.contains b != negated

def isLineTerminator (b : UInt8) : Bool := b = 10 || b = 13

def matchRegex : Regex → Matcher
  | .empty, x, k => k x
  | .char c, x, k => matchByte (· = c) x k
  | .any, x, k => matchByte (fun b => !isLineTerminator b) x k
  | .set negated members, x, k => matchByte (setContains negated members) x k
  | .lineStart, x, k => if x.atStart then k x else none
  | .lineEnd, x, k => if x.rest = [] then k x else none
  | .seq r s, x, k => matchRegex r x (fun y => matchRegex s y k)
  | .alt r s, x, k => (matchRegex r x k).or (matchRegex s x k)
  | .star r, x, k => starLoop (matchRegex r) r.groups x.rest.length x k
  | .plus r, x, k =>
    matchRegex r (x.forget r.groups)
      (fun y => starLoop (matchRegex r) r.groups y.rest.length y k)
  | .optional r, x, k =>
    (matchRegex r (x.forget r.groups)
      (fun y => if y.rest.length = x.rest.length then none else k y)).or (k x)
  | .group index r, x, k =>
    matchRegex r x
      (fun y => k { y with captures := Function.update y.captures index (some (textBetween x y)) })

/-- A match of the whole text: the captures of its groups. -/
def matchWhole (r : Regex) (text : List UInt8) : Option (ℕ → Option (List UInt8)) :=
  (matchRegex r ⟨true, text, fun _ => none⟩ (fun y => if y.rest = [] then some y else none)).map
    MatchState.captures

end Matching

section Literals

theorem operator_eq_none {c : UInt8} (h : c ∉ syntaxCharacters) : operator c = none := by
  simp only [syntaxCharacters, List.mem_cons, not_or] at h
  simp [operator, h]

/-- A character of the syntax behind a backslash, or any other character, is read as itself. -/
theorem lex_literal (c : UInt8) (rest : List UInt8) :
    lex .outside ((if c ∈ syntaxCharacters then [92, c] else [c])++rest) =
      (lex .outside rest).map (.char c :: ·) := by
  by_cases hc : c ∈ syntaxCharacters
  · rw [if_pos hc]
    show lex .outside (92 :: c :: rest) = _
    rw [lex, if_pos rfl, lex, if_pos hc]
  · have hbackslash : c ≠ 92 := fun h => hc (h ▸ by decide)
    have hbracket : c ≠ 91 := fun h => hc (h ▸ by decide)
    rw [if_neg hc, List.singleton_append, lex, if_neg hbackslash, if_neg hbracket,
      operator_eq_none hc]
    exact if_neg hc

end Literals

section Runs

theorem advance_advance_one (x : MatchState) (n : ℕ) :
    (x.advance 1).advance n = x.advance (n+1) := by
  cases n with
  | zero => rfl
  | succ n => simp [MatchState.advance, Nat.add_comm]

@[simp] theorem forget_nil (x : MatchState) : x.forget [] = x := by
  simp [MatchState.forget]

@[simp] theorem advance_captures (x : MatchState) (n : ℕ) :
    (x.advance n).captures = x.captures := by
  unfold MatchState.advance
  split_ifs <;> rfl

@[simp] theorem advance_rest (x : MatchState) (n : ℕ) : (x.advance n).rest = x.rest.drop n := by
  unfold MatchState.advance
  split_ifs with hn
  · rw [hn, List.drop_zero]
  · rfl

theorem textBetween_advance (x : MatchState) {n : ℕ} (h : n ≤ x.rest.length) :
    textBetween x (x.advance n) = x.rest.take n := by
  rw [textBetween, advance_rest, List.length_drop, Nat.sub_sub_self h]

variable {p : UInt8 → Bool} {k : MatchState → Option MatchState}

/-- The loop takes every character that it can if the continuation accepts nothing before. -/
theorem starLoop_matchByte (hk : ∀ y b rest, y.rest = b :: rest → p b = true → k y = none)
    (n : ℕ) (x : MatchState) (hn : x.rest.length ≤ n) :
    starLoop (matchByte p) [] n x k = k (x.advance (x.rest.takeWhile p).length) := by
  induction n generalizing x with
  | zero =>
    have hnil : x.rest = [] := List.eq_nil_of_length_eq_zero (Nat.le_zero.mp hn)
    rw [hnil]
    rfl
  | succ n ih =>
    rw [starLoop, forget_nil]
    cases hrest : x.rest with
    | nil =>
      simp only [matchByte, hrest]
      rfl
    | cons b rest =>
      simp only [matchByte, hrest]
      by_cases hb : p b = true
      · have hlength : (x.advance 1).rest.length = rest.length := by simp [hrest]
        have hne : ¬(x.advance 1).rest.length = (b :: rest).length := by
          rw [hlength, List.length_cons]
          omega
        have hle : (x.advance 1).rest.length ≤ n := by
          rw [hlength]
          rw [hrest, List.length_cons] at hn
          omega
        have htake : (x.advance 1).rest.takeWhile p = rest.takeWhile p := by simp [hrest]
        rw [if_pos hb, if_neg hne, ih _ hle, htake, advance_advance_one, hk x b rest hrest hb,
          Option.or_none, List.takeWhile_cons_of_pos hb, List.length_cons]
      · rw [if_neg hb, List.takeWhile_cons_of_neg hb]
        rfl

/-- A group of such characters takes them all, and at least one. -/
theorem matchRegex_plus_set {negated : Bool} {members : List UInt8}
    (hk : ∀ y b rest, y.rest = b :: rest → setContains negated members b = true → k y = none)
    (x : MatchState) :
    matchRegex (.plus (.set negated members)) x k =
      if x.rest.takeWhile (setContains negated members) = [] then none
      else k (x.advance (x.rest.takeWhile (setContains negated members)).length) := by
  have hset : matchRegex (.set negated members) = matchByte (setContains negated members) := by
    funext x k
    rfl
  have hplus : matchRegex (.plus (.set negated members)) x k =
      matchByte (setContains negated members) (x.forget []) (fun y =>
        starLoop (matchByte (setContains negated members)) [] y.rest.length y k) := by
    rw [← hset]
    rfl
  rw [hplus, forget_nil, matchByte]
  cases hrest : x.rest with
  | nil => rfl
  | cons b rest =>
    dsimp only
    by_cases hb : setContains negated members b = true
    · have htake : (x.advance 1).rest.takeWhile (setContains negated members) =
          rest.takeWhile (setContains negated members) := by simp [hrest]
      rw [if_pos hb, starLoop_matchByte hk _ _ le_rfl, htake, advance_advance_one,
        List.takeWhile_cons_of_pos hb]
      simp
    · rw [if_neg hb, List.takeWhile_cons_of_neg hb, if_pos rfl]

end Runs

end JingjieAR.EcmaScript
