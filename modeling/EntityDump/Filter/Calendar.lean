import EntityDump.Numeric.Literal
import EntityDump.Text.Blank
/-!
# Instants from text

Reading a date or a date with a time as milliseconds since the beginning of 1970. First the strict form with
an offset is tried: four-digit year, two-digit fields, a fraction, `Z` or hours and minutes of offset. Then
come the free forms without offset: fields of one or two digits with blanks allowed before them, the date and
the time parted by `T` or by any number of blanks, and last a date alone.
-/

namespace EntityDump.Calendar

open EntityDump.Text EntityDump.Numeric

/-! ### Days -/

/-- The year has a 29th of February. -/
def isLeapYear (year : Int) : Bool :=
  year % 4 == 0 && (year % 100 != 0 || year % 400 == 0)

/-- The number of days of a month; other numbers name no month. -/
def daysInMonth (year : Int) (month : Nat) : Nat :=
  match month with
  | 1 => 31
  | 2 => if isLeapYear year then 29 else 28
  | 3 => 31
  | 4 => 30
  | 5 => 31
  | 6 => 30
  | 7 => 31
  | 8 => 31
  | 9 => 30
  | 10 => 31
  | 11 => 30
  | 12 => 31
  | _ => 0

/-- The days before a month in its year. -/
def daysBeforeMonth (year : Int) (month : Nat) : Nat :=
  (List.range (month - 1)).foldl (fun days m => days + daysInMonth year (m + 1)) 0

/-- The days from the beginning of year 0 to the beginning of a year. -/
def daysBeforeYear (year : Int) : Int :=
  let y := year - 1
  365 * year + y.fdiv 4 - y.fdiv 100 + y.fdiv 400 + 1

/-- The days from the beginning of 1970 to a date. -/
def dayNumber (year : Int) (month day : Nat) : Int :=
  daysBeforeYear year - daysBeforeYear 1970 + (daysBeforeMonth year month : Int) + (day : Int) - 1

/-- The first year of the calendar. -/
def minYear : Int := -262143

/-- The last year of the calendar. -/
def maxYear : Int := 262142

/-- The fields name a date of the calendar. -/
def isDate (year : Int) (month day : Nat) : Bool :=
  minYear ≤ year && year ≤ maxYear && 1 ≤ day && day ≤ daysInMonth year month

/-! ### Times -/

/-- A time of day. Second 60 is a leap second. -/
structure TimeOfDay where
  hour : Nat
  minute : Nat
  second : Nat
  /-- Whole milliseconds of the fraction. -/
  millis : Nat
  deriving DecidableEq, Repr

namespace TimeOfDay

/-- The fields are in range. -/
def isValid (t : TimeOfDay) : Bool :=
  t.hour < 24 && t.minute < 60 && t.second ≤ 60

/-- Milliseconds since midnight; those of a leap second go past the end of second 59. -/
def sinceMidnight (t : TimeOfDay) : Nat :=
  ((t.hour * 60 + t.minute) * 60 + t.second) * 1000 + t.millis

end TimeOfDay

/-- The instant of a date and a time at an offset of some minutes from the prime meridian. -/
def instant? (year : Int) (month day : Nat) (time : TimeOfDay) (offsetMinutes : Int) : Option Int :=
  if isDate year month day && time.isValid then
    some (dayNumber year month day * 86400000 + (time.sinceMidnight : Int) - offsetMinutes * 60000)
  else none

/-! ### Fields -/

/-- Reads at least `least` and at most `most` digits. -/
def takeDigits? (least most : Nat) (s : List Char) : Option (Nat × List Char) :=
  let digits := (s.take most).takeWhile isAsciiDigit
  if digits.length < least then none else some (digitsValue digits, s.drop digits.length)

/-- Reads one character. -/
def takeChar? (c : Char) (s : List Char) : Option (List Char) :=
  match s with
  | d :: rest => if d = c then some rest else none
  | [] => none

/-- Reads a fraction of a second behind a point, if there is one, as whole milliseconds. -/
def takeFraction? (s : List Char) : Option (Nat × List Char) :=
  match s with
  | '.' :: rest =>
    let digits := rest.takeWhile isAsciiDigit
    if digits.isEmpty then none
    else some (digitsValue ((digits ++ ['0', '0']).take 3), rest.drop digits.length)
  | _ => some (0, s)

/-! ### The strict form -/

/-- Reads an offset in minutes: `Z`, or a sign, hours and minutes. -/
def takeOffset? (s : List Char) : Option (Int × List Char) := do
  let signed (negative : Bool) (rest : List Char) : Option (Int × List Char) := do
    let (hours, rest) ← takeDigits? 2 2 rest
    let rest ← takeChar? ':' rest
    let (minutes, rest) ← takeDigits? 2 2 rest
    if minutes ≥ 60 || hours ≥ 24 then none
    else
      let offset : Int := (hours * 60 + minutes : Nat)
      some (if negative then -offset else offset, rest)
  match s with
  | 'Z' :: rest => some (0, rest)
  | 'z' :: rest => some (0, rest)
  | '+' :: rest => signed false rest
  | '-' :: rest => signed true rest
  | c :: rest => if c.toNat = 0x2212 then signed true rest else none
  | [] => none

/-- Reads a date, a time and an offset in the strict form. -/
def readStrict? (s : List Char) : Option Int := do
  let (year, s) ← takeDigits? 4 4 s
  let s ← takeChar? '-' s
  let (month, s) ← takeDigits? 2 2 s
  let s ← takeChar? '-' s
  let (day, s) ← takeDigits? 2 2 s
  let s ← (takeChar? 'T' s).orElse fun _ => (takeChar? 't' s).orElse fun _ => takeChar? ' ' s
  let (hour, s) ← takeDigits? 2 2 s
  let s ← takeChar? ':' s
  let (minute, s) ← takeDigits? 2 2 s
  let s ← takeChar? ':' s
  let (second, s) ← takeDigits? 2 2 s
  let (millis, s) ← takeFraction? s
  let (offset, s) ← takeOffset? s
  if s.isEmpty then instant? year month day ⟨hour, minute, second, millis⟩ offset else none

/-! ### The free forms -/

/-- Reads a field of one or two digits behind any blanks. -/
def takeField? (s : List Char) : Option (Nat × List Char) :=
  takeDigits? 1 2 (trimStart s)

/-- Reads a year behind any blanks: up to four digits, or any number behind a sign. -/
def takeYear? (s : List Char) : Option (Int × List Char) :=
  let s := trimStart s
  match s with
  | '-' :: rest =>
    (takeDigits? 1 rest.length rest).map fun (r : Nat × List Char) => (-(r.1 : Int), r.2)
  | '+' :: rest =>
    (takeDigits? 1 rest.length rest).map fun (r : Nat × List Char) => ((r.1 : Int), r.2)
  | _ => (takeDigits? 1 4 s).map fun (r : Nat × List Char) => ((r.1 : Int), r.2)

/-- Reads a date with its fields between dashes. -/
def takeDate? (s : List Char) : Option ((Int × Nat × Nat) × List Char) := do
  let (year, s) ← takeYear? s
  let s ← takeChar? '-' s
  let (month, s) ← takeField? s
  let s ← takeChar? '-' s
  let (day, s) ← takeField? s
  return ((year, month, day), s)

/-- Reads a time with its fields between colons and a fraction behind them. -/
def takeTime? (s : List Char) : Option (TimeOfDay × List Char) := do
  let (hour, s) ← takeField? s
  let s ← takeChar? ':' s
  let (minute, s) ← takeField? s
  let s ← takeChar? ':' s
  let (second, s) ← takeField? s
  let (millis, s) ← takeFraction? s
  return (⟨hour, minute, second, millis⟩, s)

/-- Reads a date and a time; `part` reads what stands between them. -/
def readDateTime? (part : List Char → Option (List Char)) (s : List Char) : Option Int := do
  let ((year, month, day), s) ← takeDate? s
  let s ← part s
  let (time, s) ← takeTime? s
  if s.isEmpty then instant? year month day time 0 else none

/-- Reads a date alone, as its midnight. -/
def readDate? (s : List Char) : Option Int := do
  let ((year, month, day), s) ← takeDate? s
  if s.isEmpty then instant? year month day ⟨0, 0, 0, 0⟩ 0 else none

/-- Reads an instant in the first form that fits. -/
def read? (s : List Char) : Option Int :=
  (readStrict? s).orElse fun _ =>
    (readDateTime? (takeChar? 'T') s).orElse fun _ =>
      (readDateTime? (fun s => some (trimStart s)) s).orElse fun _ => readDate? s

/-! ### Numbers as instants -/

/-- The first instant of the calendar. -/
def minInstant : Int := -8334601228800000

/-- The last instant of the calendar. -/
def maxInstant : Int := 8210266876799999

/-- A number of milliseconds, if the calendar has the instant. -/
def ofMillis? (n : Int) : Option Int :=
  if minInstant ≤ n && n ≤ maxInstant then some n else none

end EntityDump.Calendar
