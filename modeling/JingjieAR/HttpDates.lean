import JingjieAR.CacheEntryText
import JingjieAR.HttpDateModel

/-! The three forms of an HTTP date and what the handler reads of them: the time of every
date in the preferred form, one second apart, and nothing of the obsolete forms. -/
namespace JingjieAR

/-- A time of the Gregorian calendar with a year of four digits. The month counts from 0
on, and the last minute of a day may have a leap second. -/
structure UtcTime where
  year : ℕ
  month : ℕ
  day : ℕ
  hour : ℕ
  minute : ℕ
  second : ℕ
  year_lt : year < 10000
  month_lt : month < 12
  day_pos : 1 ≤ day
  day_le : day ≤ daysInMonth year month
  hour_lt : hour < 24
  minute_lt : minute < 60
  second_lt : second < 60 ∨ hour = 23 ∧ minute = 59 ∧ second = 60

/-- A number with leading zeros, and without the digits that the width has no room for. -/
def padded : ℕ → ℕ → Bytes
  | 0, _ => []
  | width+1, n => padded width (n/10)++[UInt8.ofNat (48+n%10)]

namespace UtcTime

def days (u : UtcTime) : ℤ := daysSinceEpoch u.year u.month u.day

def seconds (u : UtcTime) : ℤ := secondsSinceEpoch u.days u.hour u.minute u.second

/-- The day of the week, from Sunday on; the epoch began on a Thursday. -/
def weekday (u : UtcTime) : ℕ := ((u.days+4) % 7).toNat

theorem weekday_lt (u : UtcTime) : u.weekday < 7 := by
  rw [weekday]
  omega

/-- The time as the C library keeps it. -/
def tm (u : UtcTime) : Tm where
  sec := u.second
  min := u.minute
  hour := u.hour
  mday := u.day
  mon := u.month
  year := u.year-1900
  wday := u.weekday

theorem timegm_tm (u : UtcTime) : timegm u.tm = u.seconds := by
  have hyear : u.tm.year+1900 = u.year := sub_add_cancel _ _
  rw [timegm, hyear]
  rfl

def dayName (u : UtcTime) : Bytes := dayNames.get ⟨u.weekday, u.weekday_lt⟩

def monthName (u : UtcTime) : Bytes := monthNames.get ⟨u.month, u.month_lt⟩

def clockText (u : UtcTime) : Bytes :=
  padded 2 u.hour++(colon :: (padded 2 u.minute++(colon :: padded 2 u.second)))

/-- `Sun, 06 Nov 1994 08:49:37 GMT`. -/
def imfFixdate (u : UtcTime) : Bytes :=
  u.dayName.take 3++(comma :: space :: (padded 2 u.day++(space :: (u.monthName.take 3++
    (space :: (padded 4 u.year++(space :: (u.clockText++ascii " GMT"))))))))

/-- `Sunday, 06-Nov-94 08:49:37 GMT`. -/
def rfc850Date (u : UtcTime) (shortYear : ℕ) : Bytes :=
  u.dayName++(comma :: space :: (padded 2 u.day++(dash :: (u.monthName.take 3++
    (dash :: (padded 2 shortYear++(space :: (u.clockText++ascii " GMT"))))))))

/-- `Sun Nov  6 08:49:37 1994`; a day of one digit may also have a zero in front. -/
def asctimeDate (u : UtcTime) (dayText : Bytes) : Bytes :=
  u.dayName.take 3++(space :: (u.monthName.take 3++(space :: (dayText++
    (space :: (u.clockText++(space :: padded 4 u.year)))))))

end UtcTime

/-- The text is a date of the preferred form, for this time and with the day of the week on
which it falls. -/
def ImfFixdate (text : Bytes) (time : ℤ) : Prop :=
  ∃ u : UtcTime, text = u.imfFixdate ∧ time = u.seconds

/-- The text is a date of an obsolete form. Which year is meant by two digits depends on
the present one. -/
def ObsoleteDate (fullYear : ℕ → ℕ) (text : Bytes) (time : ℤ) : Prop :=
  ∃ u : UtcTime, time = u.seconds ∧
    ((∃ shortYear, shortYear < 100 ∧ fullYear shortYear = u.year ∧
        text = u.rfc850Date shortYear) ∨
      text = u.asctimeDate (padded 2 u.day) ∨
      u.day < 10 ∧ text = u.asctimeDate (space :: padded 1 u.day))

section Numbers

variable {low high : ℕ}

theorem length_padded (width n : ℕ) : (padded width n).length = width := by
  induction width generalizing n with
  | zero => rfl
  | succ width ih => rw [padded, List.length_append, ih, List.length_singleton]

theorem isDigit_ofNat {k : ℕ} (h : k < 10) : isDigit (UInt8.ofNat (48+k)) = true := by
  interval_cases k
  all_goals rfl

theorem digits_padded (width n : ℕ) : ∀ c ∈ padded width n, isDigit c = true := by
  induction width generalizing n with
  | zero => simp [padded]
  | succ width ih =>
    intro c hc
    rcases List.mem_append.mp hc with hc | hc
    · exact ih _ c hc
    · rw [List.mem_singleton.mp hc]
      exact isDigit_ofNat (Nat.mod_lt n (by decide))

theorem decimalValue_padded {width n : ℕ} (h : n < 10^width) :
    decimalValue (padded width n) 0 = n := by
  induction width generalizing n with
  | zero =>
    have hn : n = 0 := by simpa using h
    rw [hn]
    rfl
  | succ width ih =>
    have hprev : n/10 < 10^width := by
      rw [pow_succ] at h
      omega
    have hlast : (UInt8.ofNat (48+n%10)).toNat-48 = n%10 := by
      rw [UInt8.toNat_ofNat']
      omega
    have hstep := ih hprev
    rw [decimalValue] at hstep ⊢
    rw [padded, List.foldl_append, hstep, List.foldl_cons, hlast, List.foldl_nil]
    omega

/-- Digits that stay below the bound are all read. -/
theorem numberLoop_digits {digits : Bytes} (hdigits : ∀ c ∈ digits, isDigit c = true) {val : ℕ}
    (hle : decimalValue digits val ≤ high) (rest : Bytes) :
    numberLoop high digits.length val (digits++rest) = (decimalValue digits val, rest) := by
  induction digits generalizing val with
  | nil =>
    cases rest with
    | nil => rfl
    | cons c rest => rfl
  | cons c digits ih =>
    -- What has been read so far is at most the whole number.
    have hgrow : val*10+(c.toNat-48) ≤ high := (le_decimalValue digits _).trans hle
    have hroom : val*10 ≤ high := by omega
    rw [List.length_cons, List.cons_append, numberLoop,
      if_pos ⟨hroom, hdigits c List.mem_cons_self⟩]
    exact ih (fun b hb => hdigits b (List.mem_cons_of_mem _ hb)) hle

theorem dropWhile_blank_digits {digits : Bytes} (hne : digits ≠ [])
    (hdigits : ∀ c ∈ digits, isDigit c = true) (rest : Bytes) :
    (digits++rest).dropWhile isspace = digits++rest := by
  obtain ⟨c, digits, rfl⟩ := List.exists_cons_of_ne_nil hne
  have hblank : isspace c = false := (digit_cases (hdigits c List.mem_cons_self)).1
  rw [List.cons_append, List.dropWhile_cons_of_neg (by simp [hblank])]

/-- A number of full width is read, and nothing behind it. -/
theorem getNumber_padded {width n : ℕ} (hwidth : width ≠ 0) (hfit : n < 10^width)
    (hlow : low ≤ n) (hhigh : n ≤ high) (rest : Bytes) :
    getNumber low high width (padded width n++rest) = some (n, rest) := by
  have hdigits := digits_padded width n
  have hne : padded width n ≠ [] := by
    rw [← List.length_pos_iff, length_padded]
    exact Nat.pos_of_ne_zero hwidth
  have hhead : (padded width n++rest).head?.any isDigit = true := by
    obtain ⟨c, digits, hcons⟩ := List.exists_cons_of_ne_nil hne
    have hc : isDigit c = true := hdigits c (by simp [hcons])
    simp [hcons, hc]
  have hvalue := decimalValue_padded hfit
  have hread := numberLoop_digits hdigits (hvalue.trans_le hhigh) rest
  rw [length_padded, hvalue] at hread
  have hrange : ¬(n < low ∨ n > high) := by omega
  simp only [getNumber, dropWhile_blank_digits hne hdigits, hhead, hread, if_true]
  rw [if_neg hrange]

end Numbers

section Names

variable {names : List Bytes} {c : UInt8}

/-- Names of at least three letters that already differ in these, whatever their case, and
that do not have the byte `c`. -/
structure TellsApart (names : List Bytes) (c : UInt8) : Prop where
  length : ∀ name ∈ names, 3 ≤ name.length
  apart : names.Pairwise (fun a b => lowerCase (a.take 3) ≠ lowerCase (b.take 3))
  free : ∀ name ∈ names, tolower c ∉ lowerCase name

instance (names : List Bytes) (c : UInt8) : Decidable (TellsApart names c) :=
  decidable_of_iff ((∀ name ∈ names, 3 ≤ name.length) ∧
      names.Pairwise (fun a b => lowerCase (a.take 3) ≠ lowerCase (b.take 3)) ∧
      ∀ name ∈ names, tolower c ∉ lowerCase name)
    ⟨fun h => ⟨h.1, h.2.1, h.2.2⟩, fun h => ⟨h.length, h.apart, h.free⟩⟩

theorem TellsApart.tail {name : Bytes} (h : TellsApart (name :: names) c) :
    TellsApart names c := by
  constructor
  · exact fun n hn => h.length n (List.mem_cons_of_mem _ hn)
  · exact (List.pairwise_cons.mp h.apart).2
  · exact fun n hn => h.free n (List.mem_cons_of_mem _ hn)

theorem beginsWith_self (name rest : Bytes) : beginsWith name (name++rest) = true := by
  simp [beginsWith]

/-- A text that begins with a name begins with the three letters of it. -/
theorem take_of_beginsWith {name text : Bytes} (hlen : 3 ≤ name.length)
    (h : beginsWith name text = true) :
    lowerCase (text.take 3) = lowerCase (name.take 3) := by
  have heq : lowerCase (text.take name.length) = lowerCase name := of_decide_eq_true h
  have htake := congrArg (List.take 3) heq
  simp only [lowerCase, ← List.map_take, List.take_take] at htake
  rwa [Nat.min_eq_left hlen] at htake

theorem mem_of_beginsWith {name text : Bytes} (h : beginsWith name text = true)
    (hc : c ∈ text.take name.length) : tolower c ∈ lowerCase name := by
  have heq : lowerCase (text.take name.length) = lowerCase name := of_decide_eq_true h
  rw [← heq]
  exact List.mem_map_of_mem hc

/-- The first name, written out or cut, in front of a byte that it does not have. -/
theorem matchName_first {name : Bytes} (h : TellsApart (name :: names) c) {w : Bytes}
    (hw : w = name ∨ w = name.take 3) (cnt : ℕ) (rest : Bytes) :
    matchName (name :: names) cnt (w++(c :: rest)) = some (cnt, c :: rest) := by
  have hcut : (name.take 3).length = 3 := by simp [h.length name List.mem_cons_self]
  by_cases hfull : w = name
  · rw [matchName, hfull, if_pos (beginsWith_self name _), List.drop_left]
  · have hw3 : w = name.take 3 := hw.resolve_left hfull
    have hlong : 3 < name.length := by
      by_contra hshort
      exact hfull (hw3.trans (List.take_of_length_le (by omega)))
    -- The name itself would go on where the text has the byte `c`.
    have hnot : ¬beginsWith name (name.take 3++(c :: rest)) = true := by
      intro hbegins
      have hc : c ∈ (name.take 3++(c :: rest)).take name.length := by
        have hmore : name.length-3 ≠ 0 := by omega
        rw [List.take_append, hcut]
        simp [List.take_cons (Nat.pos_of_ne_zero hmore)]
      exact h.free name List.mem_cons_self (mem_of_beginsWith hbegins hc)
    rw [matchName, hw3, if_neg hnot, if_pos (beginsWith_self _ _), List.drop_left' hcut]

/-- A name with other letters at its start is passed over. -/
theorem matchName_skip {name text : Bytes} (hlen : 3 ≤ name.length)
    (hother : lowerCase (text.take 3) ≠ lowerCase (name.take 3)) (names : List Bytes) (cnt : ℕ) :
    matchName (name :: names) cnt text = matchName names (cnt+1) text := by
  have hnot : ¬beginsWith name text = true := fun hbegins =>
    hother (take_of_beginsWith hlen hbegins)
  have hnot3 : ¬beginsWith (name.take 3) text = true := by
    intro hbegins
    have hcut : (name.take 3).length = 3 := by simp [hlen]
    have hthree := take_of_beginsWith hcut.ge hbegins
    rw [List.take_take, Nat.min_self] at hthree
    exact hother hthree
  rw [matchName, if_neg hnot, if_neg hnot3]

/-- A name that is written out or cut is found with its number. -/
theorem matchName_eq (h : TellsApart names c) {i : ℕ} (hi : i < names.length) {w : Bytes}
    (hw : w = names[i] ∨ w = names[i].take 3) (cnt : ℕ) (rest : Bytes) :
    matchName names cnt (w++(c :: rest)) = some (cnt+i, c :: rest) := by
  induction names generalizing i cnt with
  | nil => simp at hi
  | cons name names ih =>
    cases i with
    | zero => exact matchName_first h hw cnt rest
    | succ i =>
      rw [List.getElem_cons_succ] at hw
      have hi' : i < names.length := by simpa using hi
      have hmem : names[i] ∈ names := List.getElem_mem hi'
      have hlong : 3 ≤ names[i].length := h.length _ (List.mem_cons_of_mem _ hmem)
      have htake : (w++(c :: rest)).take 3 = names[i].take 3 := by
        rcases hw with rfl | rfl
        · exact List.take_append_of_le_length hlong
        · rw [List.take_append_of_le_length (by simp [hlong]), List.take_take, Nat.min_self]
      have hother : lowerCase ((w++(c :: rest)).take 3) ≠ lowerCase (name.take 3) := by
        rw [htake]
        exact Ne.symm ((List.pairwise_cons.mp h.apart).1 _ hmem)
      rw [matchName_skip (h.length name List.mem_cons_self) hother, ih h.tail hi' hw]
      congr 2
      omega

theorem matchName_eq_none (h : TellsApart names c) (cnt : ℕ) (rest : Bytes) :
    matchName names cnt (c :: rest) = none := by
  induction names generalizing cnt with
  | nil => rfl
  | cons name names ih =>
    have hlen : 3 ≤ name.length := h.length name List.mem_cons_self
    have hfree := h.free name List.mem_cons_self
    have hnot : ¬beginsWith name (c :: rest) = true := by
      intro hbegins
      have hc : c ∈ (c :: rest).take name.length := by
        rw [List.take_cons (by omega)]
        exact List.mem_cons_self
      exact hfree (mem_of_beginsWith hbegins hc)
    have hnot3 : ¬beginsWith (name.take 3) (c :: rest) = true := by
      intro hbegins
      have hc : c ∈ (c :: rest).take (name.take 3).length := by
        rw [List.take_cons (by simp; omega)]
        exact List.mem_cons_self
      have hmem := mem_of_beginsWith hbegins hc
      rw [lowerCase, List.map_take] at hmem
      exact hfree (List.mem_of_mem_take hmem)
    rw [matchName, if_neg hnot, if_neg hnot3, ih h.tail]

theorem dayNames_tellsApart : TellsApart dayNames comma ∧ TellsApart dayNames space := by
  decide

theorem monthNames_tellsApart : TellsApart monthNames space ∧ TellsApart monthNames dash := by
  decide

end Names

section Conversions

variable {tm : Tm} {c : UInt8} {name : Bytes}

theorem read_dayName (u : UtcTime) (hc : TellsApart dayNames c)
    (hname : name = u.dayName ∨ name = u.dayName.take 3) (rest : Bytes) :
    Directive.a.read (name++(c :: rest)) tm = some ({ tm with wday := u.weekday }, c :: rest) := by
  rw [Directive.read, matchName_eq hc u.weekday_lt hname, Nat.zero_add]
  rfl

theorem read_monthName (u : UtcTime) (rest : Bytes) :
    Directive.b.read (u.monthName.take 3++(space :: rest)) tm =
      some ({ tm with mon := u.month }, space :: rest) := by
  have hmatch : matchName monthNames 0 (u.monthName.take 3++(space :: rest)) =
      some (0+u.month, space :: rest) :=
    matchName_eq monthNames_tellsApart.1 u.month_lt (.inr rfl) 0 rest
  rw [Directive.read, hmatch, Nat.zero_add]
  rfl

theorem daysInMonth_le (year : ℤ) {month : ℕ} (h : month < 12) : daysInMonth year month ≤ 31 := by
  rw [daysInMonth]
  cases leapYear year with
  | false =>
    interval_cases month
    all_goals decide
  | true =>
    interval_cases month
    all_goals decide

theorem read_day (u : UtcTime) (rest : Bytes) :
    Directive.d.read (padded 2 u.day++rest) tm = some ({ tm with mday := u.day }, rest) := by
  -- The conversion takes days up to 31, and no month is longer.
  have hle : u.day ≤ 31 := u.day_le.trans (daysInMonth_le _ u.month_lt)
  rw [Directive.read, getNumber_padded (by decide) (by omega) u.day_pos hle]
  rfl

theorem read_year (u : UtcTime) (rest : Bytes) :
    Directive.Y.read (padded 4 u.year++rest) tm =
      some ({ tm with year := u.year-1900 }, rest) := by
  have hlt := u.year_lt
  rw [Directive.read, getNumber_padded (by decide) (by omega) (Nat.zero_le _) (by omega)]
  rfl

theorem read_hour (u : UtcTime) (rest : Bytes) :
    Directive.H.read (padded 2 u.hour++rest) tm = some ({ tm with hour := u.hour }, rest) := by
  have hlt := u.hour_lt
  rw [Directive.read, getNumber_padded (by decide) (by omega) (Nat.zero_le _) (by omega)]
  rfl

theorem read_minute (u : UtcTime) (rest : Bytes) :
    Directive.M.read (padded 2 u.minute++rest) tm = some ({ tm with min := u.minute }, rest) := by
  have hlt := u.minute_lt
  rw [Directive.read, getNumber_padded (by decide) (by omega) (Nat.zero_le _) (by omega)]
  rfl

theorem read_second (u : UtcTime) (rest : Bytes) :
    Directive.S.read (padded 2 u.second++rest) tm = some ({ tm with sec := u.second }, rest) := by
  have hlt := u.second_lt
  rw [Directive.read, getNumber_padded (by decide) (by omega) (Nat.zero_le _) (by omega)]
  rfl

theorem read_literal (c : UInt8) (rest : Bytes) :
    (Directive.literal c).read (c :: rest) tm = some (tm, rest) := by
  simp [Directive.read]

/-- A single blank in front of what is no blank. -/
theorem read_blank {rest : Bytes} (h : rest.dropWhile isspace = rest) :
    Directive.blank.read (space :: rest) tm = some (tm, rest) := by
  have hspace : isspace space = true := by decide
  rw [Directive.read, List.dropWhile_cons_of_pos hspace, h]

theorem dropWhile_padded {width : ℕ} (hwidth : width ≠ 0) (n : ℕ) (rest : Bytes) :
    (padded width n++rest).dropWhile isspace = padded width n++rest := by
  apply dropWhile_blank_digits ?_ (digits_padded width n)
  rw [← List.length_pos_iff, length_padded]
  exact Nat.pos_of_ne_zero hwidth

theorem dropWhile_monthName (u : UtcTime) (rest : Bytes) :
    (u.monthName.take 3++rest).dropWhile isspace = u.monthName.take 3++rest := by
  have hall : ∀ name ∈ monthNames, (name.take 3).head?.any (fun c => !isspace c) = true := by
    decide
  have hhead := hall u.monthName (List.getElem_mem u.month_lt)
  cases hname : u.monthName.take 3 with
  | nil => simp [hname] at hhead
  | cons c name =>
    have hc : isspace c = false := by simpa [hname] using hhead
    rw [List.cons_append, List.dropWhile_cons_of_neg (by simp [hc])]

end Conversions

/-- Every conversion of the format meets its part of the date. -/
theorem strptime_imfFixdate (u : UtcTime) :
    strptime httpDateFormat u.imfFixdate {} = some (u.tm, []) := by
  have htwo : 2 ≠ 0 := by decide
  have hfour : 4 ≠ 0 := by decide
  -- Behind the seconds only the zone is left.
  have hzone : Directive.blank.read (ascii " GMT") = fun tm => some (tm, [71, 77, 84]) := rfl
  simp only [httpDateFormat, UtcTime.imfFixdate, UtcTime.clockText, List.append_assoc,
    List.cons_append, strptime, read_dayName u dayNames_tellsApart.1 (.inr rfl), read_literal,
    read_blank (dropWhile_padded htwo u.day _), read_day,
    read_blank (dropWhile_monthName u _), read_monthName,
    read_blank (dropWhile_padded hfour u.year _), read_year,
    read_blank (dropWhile_padded htwo u.hour _), read_hour, read_minute, read_second, hzone]
  rfl

/-- Behind the day there is no blank and no month. -/
theorem strptime_rfc850Date (u : UtcTime) (shortYear : ℕ) :
    strptime httpDateFormat (u.rfc850Date shortYear) {} = none := by
  have htwo : 2 ≠ 0 := by decide
  have hdash : ∀ (rest : Bytes) (tm : Tm),
      Directive.blank.read (dash :: rest) tm = some (tm, dash :: rest) := fun rest tm => rfl
  have hmonth : ∀ (rest : Bytes) (tm : Tm), Directive.b.read (dash :: rest) tm = none := by
    intro rest tm
    rw [Directive.read, matchName_eq_none monthNames_tellsApart.2]
    rfl
  simp only [httpDateFormat, UtcTime.rfc850Date, strptime,
    read_dayName u dayNames_tellsApart.1 (.inl rfl), read_literal,
    read_blank (dropWhile_padded htwo u.day _), read_day, hdash, hmonth]

/-- Behind the name of the day there is no comma. -/
theorem strptime_asctimeDate (u : UtcTime) (dayText : Bytes) :
    strptime httpDateFormat (u.asctimeDate dayText) {} = none := by
  have hcomma : ∀ (rest : Bytes) (tm : Tm),
      (Directive.literal comma).read (space :: rest) tm = none := fun rest tm => rfl
  simp only [httpDateFormat, UtcTime.asctimeDate, strptime,
    read_dayName u dayNames_tellsApart.2 (.inr rfl), hcomma]

section CStrings

theorem zero_notMem_padded (width n : ℕ) : 0 ∉ padded width n := by
  intro hzero
  have hdigit := digits_padded width n 0 hzero
  contradiction

theorem zero_notMem_dayName (u : UtcTime) : 0 ∉ u.dayName := by
  have hall : ∀ name ∈ dayNames, 0 ∉ name := by decide
  exact hall _ (List.getElem_mem u.weekday_lt)

theorem zero_notMem_monthName (u : UtcTime) : 0 ∉ u.monthName.take 3 := by
  have hall : ∀ name ∈ monthNames, 0 ∉ name := by decide
  exact fun hzero => hall _ (List.getElem_mem u.month_lt) (List.mem_of_mem_take hzero)

theorem zero_notMem_dayName_take (u : UtcTime) : 0 ∉ u.dayName.take 3 :=
  fun hzero => zero_notMem_dayName u (List.mem_of_mem_take hzero)

theorem zero_notMem_imfFixdate (u : UtcTime) : 0 ∉ u.imfFixdate := by
  have hzone : 0 ∉ ascii " GMT" := by decide
  simp [UtcTime.imfFixdate, UtcTime.clockText, zero_notMem_padded, zero_notMem_monthName,
    zero_notMem_dayName_take, hzone, comma, space, colon]

theorem zero_notMem_rfc850Date (u : UtcTime) (shortYear : ℕ) : 0 ∉ u.rfc850Date shortYear := by
  have hzone : 0 ∉ ascii " GMT" := by decide
  simp [UtcTime.rfc850Date, UtcTime.clockText, zero_notMem_padded, zero_notMem_monthName,
    zero_notMem_dayName, hzone, comma, space, colon, dash]

theorem zero_notMem_asctimeDate (u : UtcTime) {dayText : Bytes} (h : 0 ∉ dayText) :
    0 ∉ u.asctimeDate dayText := by
  simp [UtcTime.asctimeDate, UtcTime.clockText, zero_notMem_padded, zero_notMem_monthName,
    zero_notMem_dayName_take, h, space, colon]

end CStrings

section Parsing

variable {text : Bytes} {time : ℤ}

theorem parseHttpDate_of_none (hzero : 0 ∉ text) (h : strptime httpDateFormat text {} = none) :
    parseHttpDate text = none := by
  rw [parseHttpDate, cString_eq hzero, h]

/-- Every date of the preferred form is read, apart from the second before the epoch. -/
theorem parseHttpDate_imfFixdate (h : ImfFixdate text time) :
    parseHttpDate text = if time = -1 then none else some time := by
  obtain ⟨u, rfl, rfl⟩ := h
  rw [parseHttpDate, cString_eq (zero_notMem_imfFixdate u), strptime_imfFixdate]
  simp only [UtcTime.timegm_tm, ne_eq, not_true_eq_false, if_false]

/-- No date of an obsolete form is read. -/
theorem parseHttpDate_obsoleteDate {fullYear : ℕ → ℕ} (h : ObsoleteDate fullYear text time) :
    parseHttpDate text = none := by
  obtain ⟨u, -, ⟨shortYear, -, -, rfl⟩ | rfl | ⟨-, rfl⟩⟩ := h
  · exact parseHttpDate_of_none (zero_notMem_rfc850Date u shortYear)
      (strptime_rfc850Date u shortYear)
  · exact parseHttpDate_of_none (zero_notMem_asctimeDate u (zero_notMem_padded 2 u.day))
      (strptime_asctimeDate u _)
  · have hday : 0 ∉ space :: padded 1 u.day := by
      rw [List.mem_cons, not_or]
      exact ⟨by decide, zero_notMem_padded 1 u.day⟩
    exact parseHttpDate_of_none (zero_notMem_asctimeDate u hday) (strptime_asctimeDate u _)

end Parsing

end JingjieAR
