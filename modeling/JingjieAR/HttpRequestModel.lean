import Mathlib.Data.Finmap

/-! Byte strings and the request value that the HTTP parser fills in.
A `std::string` is its list of bytes and a `std::map` of strings a `Finmap`. -/
namespace JingjieAR

abbrev Bytes := List UInt8

/-- The bytes of a string literal of the source; all of them are ASCII. -/
def ascii (text : String) : Bytes := text.toList.map (fun c => UInt8.ofNat c.toNat)

def cr : UInt8 := 13
def lf : UInt8 := 10
def space : UInt8 := 32
def colon : UInt8 := 58
def questionMark : UInt8 := 63

def crlf : Bytes := [cr, lf]

/-- `::tolower` of the C locale, on one byte. -/
def tolower (c : UInt8) : UInt8 := if 65 ≤ c ∧ c ≤ 90 then c+32 else c

/-- `std::transform(..., ::tolower)` over a whole string. -/
def lowerCase (text : Bytes) : Bytes := text.map tolower

abbrev StringMap := Finmap (fun _ : Bytes => Bytes)

/-- Microseconds since the epoch. -/
abbrev Timestamp := ℤ

inductive Method
  | kInvalid
  | kGet
  | kPost
  | kHead
  | kPut
  | kDelete
  | kOptions
deriving DecidableEq

/-- All members of `HttpRequest`, in the order of the class. -/
structure HttpRequest where
  method : Method := .kInvalid
  path : Bytes := []
  query : Bytes := []
  version : Bytes := []
  headers : StringMap := ∅
  body : Bytes := []
  receiveTime : Timestamp := 0
  queryParsed : Bool := false
  queryParams : StringMap := ∅
  pathParameters : StringMap := ∅
  attributes : StringMap := ∅
deriving DecidableEq

namespace HttpRequest

def setQuery (r : HttpRequest) (query : Bytes) : HttpRequest :=
  { r with query := query, queryParsed := false, queryParams := ∅ }

def addHeader (r : HttpRequest) (key value : Bytes) : HttpRequest :=
  { r with headers := r.headers.insert (lowerCase key) value }

/-- The empty string stands for a missing header. -/
def getHeader (r : HttpRequest) (field : Bytes) : Bytes :=
  (r.headers.lookup (lowerCase field)).getD []

/-- `swap` exchanges every member, so it exchanges the two objects. -/
def swap (r other : HttpRequest) : HttpRequest × HttpRequest :=
  ({ method := other.method, path := other.path, query := other.query,
     version := other.version, headers := other.headers, body := other.body,
     receiveTime := other.receiveTime, queryParsed := other.queryParsed,
     queryParams := other.queryParams, pathParameters := other.pathParameters,
     attributes := other.attributes },
   { method := r.method, path := r.path, query := r.query,
     version := r.version, headers := r.headers, body := r.body,
     receiveTime := r.receiveTime, queryParsed := r.queryParsed,
     queryParams := r.queryParams, pathParameters := r.pathParameters,
     attributes := r.attributes })

@[simp] theorem addHeader_headers (r : HttpRequest) (key value : Bytes) :
    (r.addHeader key value).headers = r.headers.insert (lowerCase key) value := rfl

end HttpRequest

end JingjieAR
