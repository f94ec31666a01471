import ChartOperator.Text.Blank
import ChartOperator.Text.Digits

set_option autoImplicit false

/-!
# Points in time

A point in time is a number of seconds since the beginning of 1970 in UTC, or the leap second behind one. It is
read from a date, a time of day and an offset, and written in UTC; fractions of a second are read and dropped.
-/

namespace ChartOperator

/-- A second of the calendar, counted from the beginning of 1970 in UTC. -/
structure Timestamp where
  seconds : Int
  /-- The leap second behind the second, which is written as the sixtieth of its minute. -/
  leap : Bool := false
  deriving DecidableEq, Repr, Inhabited

namespace Timestamp

/-- The number of the day with a date, counted from the first of January 1970. Years are taken to
begin in March, so that the leap day is the last of its year. -/
def dayNumber (year : Int) (month day : Nat) : Int :=
  let y := if month ≤ 2 then year - 1 else year
  let era := y / 400
  let yearOfEra := y - era * 400
  let m := if 2 < month then month - 3 else month + 9
  let dayOfYear : Int := ((153 * m + 2) / 5 + day - 1 : Nat)
  let dayOfEra := yearOfEra * 365 + yearOfEra / 4 - yearOfEra / 100 + dayOfYear
  era * 146097 + dayOfEra - 719468

/-- The date of a day: year, month and day of the month. -/
def dateOf (dayNumber : Int) : Int × Nat × Nat :=
  let z := dayNumber + 719468
  let era := z / 146097
  let dayOfEra := (z - era * 146097).toNat
  let yearOfEra := (dayOfEra - dayOfEra / 1460 + dayOfEra / 36524 - dayOfEra / 146096) / 365
  let dayOfYear := dayOfEra - (365 * yearOfEra + yearOfEra / 4 - yearOfEra / 100)
  let m := (5 * dayOfYear + 2) / 153
  let day := dayOfYear - (153 * m + 2) / 5 + 1
  let month := if m < 10 then m + 3 else m - 9
  let year := (yearOfEra : Int) + era * 400
  (if month ≤ 2 then year + 1 else year, month, day)

/-- A year with a leap day. -/
def isLeapYear (year : Int) : Bool := (year % 4 == 0 && year % 100 != 0) || year % 400 == 0

/-- The number of days of a month. -/
def daysOfMonth (year : Int) (month : Nat) : Nat :=
  if month = 2 then (if isLeapYear year then 29 else 28)
  else if month = 4 ∨ month = 6 ∨ month = 9 ∨ month = 11 then 30 else 31

/-- Whether a year is one of those that points in time have. -/
def isYear (year : Int) : Bool := decide (-262143 ≤ year ∧ year ≤ 262142)

/-- A date and a time of day, with the offset from UTC in seconds. -/
structure Parts where
  year : Int
  month : Nat
  day : Nat
  hour : Nat
  minute : Nat
  second : Nat
  offset : Int
  deriving DecidableEq, Repr

/-- The year of a point in time in UTC. -/
def year (t : Timestamp) : Int := (dateOf (t.seconds / 86400)).1

/-- A point in time in UTC. -/
def parts (t : Timestamp) : Parts :=
  let (year, month, day) := dateOf (t.seconds / 86400)
  let rest := (t.seconds % 86400).toNat
  ⟨year, month, day, rest / 3600, rest / 60 % 60, rest % 60 + t.leap.toNat, 0⟩

/-- The point in time of a date and a time of day, if there is one. -/
def Parts.timestamp? (p : Parts) : Option Timestamp :=
  if isYear p.year ∧ 1 ≤ p.month ∧ p.month ≤ 12 ∧ 1 ≤ p.day ∧ p.day ≤ daysOfMonth p.year p.month ∧
      p.hour < 24 ∧ p.minute < 60 ∧ p.second ≤ 60 ∧ p.offset.natAbs < 86400 then
    let time : Int := ((p.hour * 3600 + p.minute * 60 + min p.second 59 : Nat) : Int)
    let t : Timestamp := ⟨dayNumber p.year p.month p.day * 86400 + time - p.offset, p.second == 60⟩
    if isYear t.year then some t else none
  else none

/-! ## Writing -/

/-- A year as it is written, with a sign unless it has four digits. -/
def yearText (year : Int) : List Char :=
  if 0 ≤ year ∧ year ≤ 9999 then Text.paddedDigits 4 year.natAbs
  else (if year < 0 then '-' else '+') :: Text.paddedDigits 4 year.natAbs

/-- A date and a time of day in UTC as they are written. -/
def Parts.text (p : Parts) : List Char :=
  let two := Text.paddedDigits 2
  yearText p.year ++ '-' :: (two p.month ++ '-' :: (two p.day ++ 'T' :: (two p.hour ++
    ':' :: (two p.minute ++ ':' :: (two p.second ++ ['Z'])))))

/-- A point in time as it is written. -/
def text (t : Timestamp) : String := String.ofList t.parts.text

/-! ## Reading -/

/-- A number of at most `most` digits. -/
def digits? (most : Nat) (cs : List Char) : Option (Nat × List Char) :=
  let ds := (cs.take most).takeWhile Text.isDigit
  if ds.isEmpty then none else some (Text.ofDigits ds, cs.drop ds.length)

/-- A number of at most two digits, with white space in front of it. -/
def field? (cs : List Char) : Option (Nat × List Char) := digits? 2 (Text.trimStart cs)

/-- A year, with white space in front of it. It has any number of digits behind a sign, and at most four without. -/
def year? (cs : List Char) : Option (Int × List Char) :=
  match Text.trimStart cs with
  | '-' :: rest => (digits? rest.length rest).map fun (n, cs) => (-n, cs)
  | '+' :: rest => (digits? rest.length rest).map fun (n, cs) => (n, cs)
  | cs => (digits? 4 cs).map fun (n, cs) => (n, cs)

/-- The text behind a character that has to come next, with white space in front of it. -/
def skip? (c : Char) (cs : List Char) : Option (List Char) :=
  match Text.trimStart cs with
  | d :: rest => if d = c then some rest else none
  | [] => none

/-- The text behind the character that ends a date. -/
def skipMark? : List Char → Option (List Char)
  | c :: rest => if c = 'T' ∨ c = 't' ∨ c = ' ' then some rest else none
  | [] => none

/-- The text behind a fraction of a second, which is dropped. -/
def skipFraction? : List Char → Option (List Char)
  | '.' :: rest => if (rest.takeWhile Text.isDigit).isEmpty then none else some (rest.dropWhile Text.isDigit)
  | cs => some cs

/-- The direction of an offset. -/
def sign? (c : Char) : Option Int :=
  if c = '+' then some 1 else if c = '-' ∨ c = '\u2212' then some (-1) else none

/-- The offset from UTC in seconds. -/
def offset? (cs : List Char) : Option (Int × List Char) :=
  let cs := Text.trimStart cs
  if (cs.take 3).map Char.toUpper = ['U', 'T', 'C'] then some (0, cs.drop 3) else
  match cs with
  | 'Z' :: rest | 'z' :: rest => some (0, rest)
  | c :: h₁ :: h₂ :: rest => do
    let sign ← sign? c
    let hours ← Text.readNat? [h₁, h₂]
    match rest.dropWhile fun c => c == ':' || Text.isBlank c with
    | m₁ :: m₂ :: rest =>
      let minutes ← Text.readNat? [m₁, m₂]
      if minutes < 60 then some (sign * ((hours * 3600 + minutes * 60 : Nat) : Int), rest) else none
    | _ => none
  | _ => none

/-- Reads a date, a time of day and an offset. -/
def readParts? (cs : List Char) : Option Parts := do
  let (year, cs) ← year? cs
  let (month, cs) ← field? (← skip? '-' cs)
  let (day, cs) ← field? (← skip? '-' cs)
  let (hour, cs) ← field? (← skipMark? cs)
  let (minute, cs) ← field? (← skip? ':' cs)
  let (second, cs) ← field? (← skip? ':' cs)
  let (offset, cs) ← offset? (← skipFraction? cs)
  if cs.all Text.isBlank then some ⟨year, month, day, hour, minute, second, offset⟩ else none

/-- Reads a point in time. -/
def read? (s : String) : Option Timestamp := (readParts? s.toList).bind Parts.timestamp?

end Timestamp

end ChartOperator
