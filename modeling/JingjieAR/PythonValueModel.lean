import JingjieAR.CatalogModel

/-! The values of the migration script, with the operations that it uses on them. -/
namespace JingjieAR

/-- A `float` by its value; zero has two forms. -/
inductive PyFloat
  | finite (value : ℚ)
  | negativeZero
  | infinite (negative : Bool)
  | nan
deriving DecidableEq

def PyFloat.value : PyFloat → Option ℚ
  | .finite value => some value
  | .negativeZero => some 0
  | .infinite _ => none
  | .nan => none

/-- A text is its bytes in UTF-8, in which a surrogate is written like every other code point.
The members of a `dict` are in the order of their keys: nothing here depends on the order in
which they were put in. -/
inductive PyValue
  | pyNone
  | bool (value : Bool)
  | int (value : ℤ)
  | float (value : PyFloat)
  | str (text : Bytes)
  | list (items : List PyValue)
  | dict (members : List (Bytes × PyValue))

inductive PyError
  | keyError (key : Bytes)
  | indexError
  | typeError
  | attributeError
  | overflowError
  | valueError (message : Bytes)
  /-- Raised by the parser of the page or of the XML. -/
  | parseError (message : Bytes)
  | unicodeEncodeError
  | fileNotFoundError (message : Bytes)
  | osError
deriving DecidableEq

abbrev PyResult := Except PyError

/-- What the script takes from the library: `float` and `repr`, which rest on the conversion
between a `double` and its text, and the parser of XML. -/
structure PythonLibrary (Element : Type) where
  floatOfText : Bytes → Option PyFloat
  repr : PyValue → Bytes
  fromstring : Bytes → PyResult Element

/-- An integer below `2^53` stays as it is; others get the next number with 53 digits, the even
one of two. -/
def roundToDouble (n : ℕ) : ℕ :=
  let unit := 2^(n.log2-52)
  let quotient := n/unit
  let rest := n%unit
  if 2*rest < unit ∨ (2*rest = unit ∧ quotient%2 = 0) then quotient*unit else (quotient+1)*unit

/-- The `double` of an integer, if there is one. -/
def doubleOfInt (n : ℤ) : Option ℚ :=
  let rounded := roundToDouble n.natAbs
  if 2^1024 ≤ rounded then none else some (if n < 0 then -rounded else rounded)

/-- `if condition: raise error` -/
def raiseIf (condition : Prop) [Decidable condition] (error : PyError) : PyResult Unit :=
  if condition then .error error else .ok ()

section Results

variable {α β : Type} {x : PyResult α} {f : α → PyResult β} {a : α} {b : β}

theorem bind_eq_ok_iff : (x >>= f) = .ok b ↔ ∃ a, x = .ok a ∧ f a = .ok b := by
  cases x with
  | error error => exact iff_of_false (by intro h; cases h) (by simp)
  | ok a =>
    constructor
    · exact fun h => ⟨a, rfl, h⟩
    · rintro ⟨a', ha', h⟩
      cases ha'
      exact h

theorem pure_eq_ok_iff {a' : α} : (pure a : PyResult α) = .ok a' ↔ a = a' := by
  constructor
  · exact fun h => Except.ok.inj h
  · exact fun h => h ▸ rfl

theorem raiseIf_eq_ok_iff {condition : Prop} [Decidable condition] {error : PyError} {u : Unit} :
    raiseIf condition error = .ok u ↔ ¬condition := by
  rw [raiseIf]
  split_ifs with h
  · simp [h]
  · simp [h]

theorem forall₂_of_mapM {as : List α} {bs : List β} (h : as.mapM f = .ok bs) :
    List.Forall₂ (fun a b => f a = .ok b) as bs := by
  induction as generalizing bs with
  | nil =>
    rw [List.mapM_nil, pure_eq_ok_iff] at h
    rw [← h]
    exact .nil
  | cons a as ih =>
    rw [List.mapM_cons, bind_eq_ok_iff] at h
    obtain ⟨b, hb, h⟩ := h
    obtain ⟨rest, hrest, h⟩ := bind_eq_ok_iff.mp h
    obtain rfl := pure_eq_ok_iff.mp h
    exact .cons hb (ih hrest)

theorem forall_of_forM {f : α → PyResult Unit} {as : List α} {u : Unit} (h : as.forM f = .ok u) :
    ∀ a ∈ as, f a = .ok () := by
  induction as with
  | nil => simp
  | cons a as ih =>
    obtain ⟨_, hfirst, hrest⟩ := bind_eq_ok_iff.mp h
    intro a' ha'
    rcases List.mem_cons.mp ha' with rfl | ha'
    · exact hfirst
    · exact ih hrest a' ha'

end Results

theorem mem_of_lookup {α β : Type} [BEq α] [LawfulBEq α] {map : List (α × β)} {key : α} {value : β}
    (h : map.lookup key = some value) : (key, value) ∈ map := by
  obtain ⟨before, after, rfl, -⟩ := List.lookup_eq_some_iff.mp h
  simp

namespace PyValue

mutual

/-- All members of the same kind, in the same order. -/
def same : PyValue → PyValue → Bool
  | .pyNone, .pyNone => true
  | .bool a, .bool b => a = b
  | .int a, .int b => a = b
  | .float a, .float b => a = b
  | .str a, .str b => a = b
  | .list a, .list b => sameItems a b
  | .dict a, .dict b => sameMembers a b
  | _, _ => false

def sameItems : List PyValue → List PyValue → Bool
  | [], [] => true
  | a :: as, b :: bs => same a b && sameItems as bs
  | _, _ => false

def sameMembers : List (Bytes × PyValue) → List (Bytes × PyValue) → Bool
  | [], [] => true
  | a :: as, b :: bs => sameMember a b && sameMembers as bs
  | _, _ => false

def sameMember : Bytes × PyValue → Bytes × PyValue → Bool
  | (key, a), (key', b) => key = key' && same a b

end

mutual

theorem same_iff : ∀ a b : PyValue, a.same b = true ↔ a = b
  | .pyNone, b => by cases b <;> simp [same]
  | .bool _, b => by cases b <;> simp [same]
  | .int _, b => by cases b <;> simp [same]
  | .float _, b => by cases b <;> simp [same]
  | .str _, b => by cases b <;> simp [same]
  | .list items, b => by
    cases b with
    | list items' => simp [same, sameItems_iff items items']
    | _ => simp [same]
  | .dict members, b => by
    cases b with
    | dict members' => simp [same, sameMembers_iff members members']
    | _ => simp [same]

theorem sameItems_iff : ∀ as bs : List PyValue, sameItems as bs = true ↔ as = bs
  | [], bs => by cases bs <;> simp [sameItems]
  | a :: as, bs => by
    cases bs with
    | nil => simp [sameItems]
    | cons b bs => simp [sameItems, same_iff a b, sameItems_iff as bs]

theorem sameMembers_iff : ∀ as bs : List (Bytes × PyValue), sameMembers as bs = true ↔ as = bs
  | [], bs => by cases bs <;> simp [sameMembers]
  | a :: as, bs => by
    cases bs with
    | nil => simp [sameMembers]
    | cons b bs => simp [sameMembers, sameMember_iff a b, sameMembers_iff as bs]

theorem sameMember_iff : ∀ a b : Bytes × PyValue, sameMember a b = true ↔ a = b
  | (key, a), (key', b) => by simp [sameMember, same_iff a b]

end

instance : DecidableEq PyValue := fun a b => decidable_of_iff _ (same_iff a b)

/-- `value[key]` with a text as key. -/
def getItem (value : PyValue) (key : Bytes) : PyResult PyValue :=
  match value with
  | .dict members =>
    match members.lookup key with
    | some member => .ok member
    | none => .error (.keyError key)
  | _ => .error .typeError

/-- `value.get(key, default)`. -/
def get (value : PyValue) (key : Bytes) (default : PyValue) : PyResult PyValue :=
  match value with
  | .dict members => .ok ((members.lookup key).getD default)
  | _ => .error .attributeError

/-- A byte that goes on with a character. -/
def isContinuation (c : UInt8) : Bool := 128 ≤ c && c < 192

def characters (text : Bytes) : List Bytes := text.splitBy (fun _ next => isContinuation next)

/-- What a `for` goes through. -/
def iterate : PyValue → PyResult (List PyValue)
  | .list items => .ok items
  | .str text => .ok ((characters text).map .str)
  | .dict members => .ok (members.map (fun member => .str member.1))
  | _ => .error .typeError

/-- `value[0]` -/
def first : PyValue → PyResult PyValue
  | .list (item :: _) => .ok item
  | .list [] => .error .indexError
  | .str text =>
    match characters text with
    | c :: _ => .ok (.str c)
    | [] => .error .indexError
  | .dict _ => .error (.keyError (ascii "0"))
  | _ => .error .typeError

def truthy : PyValue → Bool
  | .pyNone => false
  | .bool value => value
  | .int value => value ≠ 0
  | .float value => value.value ≠ some 0
  | .str text => text ≠ []
  | .list items => !items.isEmpty
  | .dict members => !members.isEmpty

def number : PyValue → Option ℚ
  | .bool value => some (if value then 1 else 0)
  | .int value => some value
  | .float value => value.value
  | _ => none

/-- `==` between values that are neither lists nor dicts. -/
def equals (a b : PyValue) : Bool :=
  match a, b with
  | .pyNone, .pyNone => true
  | .str s, .str t => s = t
  | .float (.infinite s), .float (.infinite t) => s = t
  | _, _ => a.number.isSome && a.number = b.number

def hashable : PyValue → Bool
  | .list _ => false
  | .dict _ => false
  | _ => true

section Library

variable {Element : Type} (py : PythonLibrary Element)

def toStr : PyValue → Bytes
  | .pyNone => ascii "None"
  | .bool value => if value then ascii "True" else ascii "False"
  | .int value => signedDecimal value
  | .str text => text
  | value => py.repr value

/-- `str(value[key])` -/
def textItem (value : PyValue) (key : Bytes) : PyResult Bytes := do
  return (← value.getItem key).toStr py

def toFloat : PyValue → PyResult PyFloat
  | .bool value => .ok (.finite (if value then 1 else 0))
  | .int value =>
    match doubleOfInt value with
    | some number => .ok (.finite number)
    | none => .error .overflowError
  | .float value => .ok value
  | .str text =>
    match py.floatOfText text with
    | some number => .ok number
    | none => .error (.valueError (ascii "could not convert string to float: "++py.repr (.str text)))
  | _ => .error .typeError

/-- `float(value[key])` -/
def floatItem (value : PyValue) (key : Bytes) : PyResult PyFloat := do
  (← value.getItem key).toFloat py

end Library

section Output

mutual

/-- What a reader of the text that `json.dumps` writes gets. -/
def toJson : PyValue → Json
  | .pyNone => .null
  | .bool value => .boolean value
  | .int value => .number (doubleOfInt value)
  | .float value => .number value.value
  | .str text => .string text
  | .list items => .array (itemsJson items)
  | .dict members => .object (membersJson members)

def itemsJson : List PyValue → List Json
  | [] => []
  | item :: items => item.toJson :: itemsJson items

def membersJson : List (Bytes × PyValue) → List (Bytes × Json)
  | [] => []
  | member :: members => memberJson member :: membersJson members

def memberJson : Bytes × PyValue → Bytes × Json
  | (key, value) => (key, value.toJson)

end

mutual

/-- A property of all values inside that have no others in them, the keys included. -/
def every (p : PyValue → Bool) : PyValue → Bool
  | .list items => everyItem p items
  | .dict members => everyMember p members
  | value => p value

def everyItem (p : PyValue → Bool) : List PyValue → Bool
  | [] => true
  | item :: items => item.every p && everyItem p items

def everyMember (p : PyValue → Bool) : List (Bytes × PyValue) → Bool
  | [] => true
  | member :: members => bothEvery p member && everyMember p members

def bothEvery (p : PyValue → Bool) : Bytes × PyValue → Bool
  | (key, value) => p (.str key) && value.every p

end

/-- All numbers in the value are those of a `double`. -/
def finite (value : PyValue) : Bool :=
  value.every (fun
    | .int value => (doubleOfInt value).isSome
    | .float value => value.value.isSome
    | _ => true)

/-- A surrogate, in the form that a text has it here. -/
def hasSurrogate : Bytes → Bool
  | c :: d :: rest => (c = 237 && 160 ≤ d) || hasSurrogate (d :: rest)
  | _ => false

/-- The value can be written in UTF-8. -/
def encodable (value : PyValue) : Bool :=
  value.every (fun
    | .str text => !hasSurrogate text
    | _ => true)

/-- A number that is too large for a `double`, `Infinity` and `NaN` end the parsing. -/
def config (value : PyValue) (what : Bytes) : ConfigFile :=
  if value.finite then .document value.toJson else .invalidJson what

theorem itemsJson_eq_map (items : List PyValue) : itemsJson items = items.map toJson := by
  induction items with
  | nil => rfl
  | cons item items ih => rw [itemsJson, ih, List.map_cons]

theorem find_toJson_dict (members : List (Bytes × PyValue)) (key : Bytes) :
    (toJson (.dict members)).find key = (members.lookup key).map toJson := by
  rw [toJson, Json.find]
  induction members with
  | nil => rfl
  | cons member members ih =>
    obtain ⟨name, value⟩ := member
    rw [membersJson, memberJson, List.lookup_cons, List.lookup_cons]
    cases key == name with
    | true => rfl
    | false => exact ih

theorem everyItem_iff {p : PyValue → Bool} (items : List PyValue) :
    everyItem p items = true ↔ ∀ item ∈ items, item.every p = true := by
  induction items with
  | nil => simp [everyItem]
  | cons item items ih => simp [everyItem, ih]

theorem everyMember_iff {p : PyValue → Bool} (members : List (Bytes × PyValue)) :
    everyMember p members = true ↔
      ∀ member ∈ members, p (.str member.1) = true ∧ member.2.every p = true := by
  induction members with
  | nil => simp [everyMember]
  | cons member members ih =>
    obtain ⟨key, value⟩ := member
    rw [everyMember, bothEvery, Bool.and_eq_true, Bool.and_eq_true, ih, List.forall_mem_cons]

theorem finite_list_iff (items : List PyValue) :
    finite (.list items) = true ↔ ∀ item ∈ items, item.finite = true := by
  rw [finite, every, everyItem_iff]
  rfl

theorem finite_dict_iff (members : List (Bytes × PyValue)) :
    finite (.dict members) = true ↔ ∀ member ∈ members, member.2.finite = true := by
  rw [finite, every, everyMember_iff]
  simp only [true_and]
  rfl

end Output

end PyValue

end JingjieAR
