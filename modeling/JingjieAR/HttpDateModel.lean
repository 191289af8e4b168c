import JingjieAR.StaticFileModel

/-! `parseHttpDate`, with `strptime` and `timegm` of the C library in the C locale as far as
the format of a date asks for them. -/
namespace JingjieAR

/-- `isspace` of the C locale. -/
def isspace (c : UInt8) : Bool := c = 32 || (9 ≤ c && c ≤ 13)

def dayNames : List Bytes :=
  [ascii "Sunday", ascii "Monday", ascii "Tuesday", ascii "Wednesday", ascii "Thursday",
    ascii "Friday", ascii "Saturday"]

def monthNames : List Bytes :=
  [ascii "January", ascii "February", ascii "March", ascii "April", ascii "May", ascii "June",
    ascii "July", ascii "August", ascii "September", ascii "October", ascii "November",
    ascii "December"]

/-- `struct tm`: the month counts from 0 on and the year from 1900 on. -/
structure Tm where
  sec : ℕ := 0
  min : ℕ := 0
  hour : ℕ := 0
  mday : ℕ := 0
  mon : ℕ := 0
  year : ℤ := 0
  wday : ℕ := 0
deriving DecidableEq

/-- The text begins with the name, in letters of either case. -/
def beginsWith (name text : Bytes) : Bool := lowerCase (text.take name.length) = lowerCase name

/-- The number of the name at the start of the text, which may be cut to three letters. No
two of the names have these in common, so the first match is the only one. -/
def matchName : List Bytes → ℕ → Bytes → Option (ℕ × Bytes)
  | [], _, _ => none
  | name :: names, cnt, text =>
    if beginsWith name text then some (cnt, text.drop name.length)
    else if beginsWith (name.take 3) text then some (cnt, text.drop 3)
    else matchName names (cnt+1) text

/-- At most so many digits, and none that leads above `high` for sure. -/
def numberLoop (high : ℕ) : ℕ → ℕ → Bytes → ℕ × Bytes
  | n+1, val, c :: rest =>
    if val*10 ≤ high ∧ isDigit c then numberLoop high n (val*10+(c.toNat-48)) rest
    else (val, c :: rest)
  | _, val, text => (val, text)

/-- `get_number` of the C library. -/
def getNumber (low high width : ℕ) (text : Bytes) : Option (ℕ × Bytes) :=
  let text := text.dropWhile isspace
  if text.head?.any isDigit then
    let (val, rest) := numberLoop high width 0 text
    if val < low ∨ val > high then none else some (val, rest)
  else none

/-- The conversions of `strptime` that the format has, and what stands between them. -/
inductive Directive
  | a
  | b
  | d
  | H
  | M
  | S
  | Y
  | blank
  | literal (c : UInt8)
deriving DecidableEq

namespace Directive

def read : Directive → Bytes → Tm → Option (Tm × Bytes)
  | a, text, tm => (matchName dayNames 0 text).map fun r => ({ tm with wday := r.1 }, r.2)
  | b, text, tm => (matchName monthNames 0 text).map fun r => ({ tm with mon := r.1 }, r.2)
  | d, text, tm => (getNumber 1 31 2 text).map fun r => ({ tm with mday := r.1 }, r.2)
  | H, text, tm => (getNumber 0 23 2 text).map fun r => ({ tm with hour := r.1 }, r.2)
  | M, text, tm => (getNumber 0 59 2 text).map fun r => ({ tm with min := r.1 }, r.2)
  | S, text, tm => (getNumber 0 61 2 text).map fun r => ({ tm with sec := r.1 }, r.2)
  | Y, text, tm => (getNumber 0 9999 4 text).map fun r => ({ tm with year := r.1-1900 }, r.2)
  | blank, text, tm => some (tm, text.dropWhile isspace)
  | literal c, text, tm => if text.head? = some c then some (tm, text.tail) else none

end Directive

/-- `"%a, %d %b %Y %H:%M:%S GMT"`. -/
def httpDateFormat : List Directive :=
  [.a, .literal comma, .blank, .d, .blank, .b, .blank, .Y, .blank, .H, .literal colon, .M,
    .literal colon, .S, .blank, .literal 71, .literal 77, .literal 84]

/-- What is known of the time, and the text behind what was read. -/
def strptime : List Directive → Bytes → Tm → Option (Tm × Bytes)
  | [], text, tm => some (tm, text)
  | directive :: format, text, tm =>
    match directive.read text tm with
    | none => none
    | some (tm, rest) => strptime format rest tm

def leapYear (year : ℤ) : Bool := year % 4 = 0 && (year % 100 ≠ 0 || year % 400 = 0)

def daysInMonth (year : ℤ) (month : ℕ) : ℕ :=
  [31, if leapYear year then 29 else 28, 31, 30, 31, 30, 31, 31, 30, 31, 30, 31].getD month 0

/-- The days from 1 January 1970 in the Gregorian calendar; the month counts from 0 on. -/
def daysSinceEpoch (year : ℤ) (month day : ℕ) : ℤ :=
  365*(year-1)+(year-1)/4-(year-1)/100+(year-1)/400+
    ((List.range month).map (daysInMonth year)).sum+day-719163

/-- The seconds since the epoch, as POSIX counts them. -/
def secondsSinceEpoch (days : ℤ) (hour minute second : ℕ) : ℤ :=
  ((days*24+hour)*60+minute)*60+second

def timegm (tm : Tm) : ℤ :=
  secondsSinceEpoch (daysSinceEpoch (tm.year+1900) tm.mon tm.mday) tm.hour tm.min tm.sec

def parseHttpDate (value : Bytes) : Option ℤ :=
  match strptime httpDateFormat (cString value) {} with
  | none => none
  | some (parsed, rest) =>
    if rest ≠ [] then none
    else if timegm parsed = -1 then none
    else some (timegm parsed)

example : parseHttpDate (ascii "Wed, 31 Dec 2999 23:59:59 GMT") = some 32503679999 := by
  decide

end JingjieAR
